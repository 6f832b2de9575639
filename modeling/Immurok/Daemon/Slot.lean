import Immurok.Daemon.Sound

/-!
# The slot of pending requests

The slot holds a sender without a name, and a handler empties it on its way
out whoever put the sender there. It finds its own entry, or none, if nobody
registers while another handler has still to clean up.
-/

namespace Immurok

open Async Machine

variable {ext : Extern} {files : Files} {v : View} {e : Ev} {es : List Ev} {i j : TaskId}
  {c : Config Daemon}

/-- A handler that cleans up resolves no entry but its own. -/
def OwnDenials (log : List Ev) : Prop :=
  ∀ i j l, (.denied i (some j) :: l) <:+ log → i = j

/-- A connection registers only once all that registered before have cleaned
up. -/
def sole (v : View) : Ev → Bool
  | .registered i _ => v.past.all fun
    | .registered j _ => j == i || !(v.client j).registered
    | _ => true
  | _ => true

/-- Of the connections that have not cleaned up there is one at most, and the
slot holds no other's entry. -/
structure View.Sole (v : View) : Prop where
  recorded : ∀ i, (v.client i).registered = true → ∃ entry, .registered i entry ∈ v.past
  unique : ∀ i j, (v.client i).registered = true → (v.client j).registered = true → i = j
  holder : ∀ i, v.pendingPam = some i → (v.client i).registered = true

-- ---------------------------------------------------------------------------
-- What a step does to the slot
-- ---------------------------------------------------------------------------

theorem ClientAux.registered_step {c : ClientAux} (hr : ∀ i entry, e ≠ .registered i entry)
    (hd : ∀ i entry, e ≠ .denied i entry) : (c.step e).registered = c.registered := by
  cases e with
  | registered i entry => exact absurd rfl (hr i entry)
  | denied i entry => exact absurd rfl (hd i entry)
  | _ => rfl

theorem View.registered_step (hr : ∀ i entry, e ≠ .registered i entry)
    (hd : ∀ i entry, e ≠ .denied i entry) :
    ((v.step ext e).client j).registered = (v.client j).registered := by
  by_cases hj : j = 0
  · subst hj
    rw [View.client_zero]
  · rw [View.client_step hj]
    split
    · exact ClientAux.registered_step hr hd
    · rfl

/-- Only a registration fills the slot. -/
theorem View.pendingPam_step (hr : ∀ i entry, e ≠ .registered i entry) :
    (v.step ext e).pendingPam = v.pendingPam ∨ (v.step ext e).pendingPam = none := by
  cases e with
  | registered i entry => exact absurd rfl (hr i entry)
  | denied _ _ | approved _ _ _ => exact .inr rfl
  | delivered d _ _ => cases d <;> exact .inl rfl
  | _ => exact .inl rfl

theorem View.Sole.step (h : v.Sole) (ha : v.allowed ext e)
    (hok : sole v e = true) : (v.step ext e).Sole := by
  obtain ⟨hrec, huniq, hhold⟩ := h
  have keeps (hr : ∀ i entry, e ≠ .registered i entry) (hd : ∀ i entry, e ≠ .denied i entry) :
      (v.step ext e).Sole := by
    refine ⟨fun i hi => ?_, fun i j hi hj => ?_, fun i hi => ?_⟩
    · rw [registered_step hr hd] at hi
      obtain ⟨entry, he⟩ := hrec i hi
      exact ⟨entry, .tail _ he⟩
    · rw [registered_step hr hd] at hi hj
      exact huniq i j hi hj
    · rw [registered_step hr hd]
      obtain hp | hp : (v.step ext e).pendingPam = v.pendingPam ∨ (v.step ext e).pendingPam = none :=
        pendingPam_step hr
      · exact hhold i (hp ▸ hi)
      · rw [hp] at hi
        cases hi
  cases e with
  | registered i entry =>
    obtain ⟨hi, -⟩ := ha
    have other : ∀ j, ((v.step ext (.registered i entry)).client j).registered = true → j = i := by
      intro j hj
      by_contra hne
      rw [client_of_ne (by simpa [Ev.actor] using Ne.symm hne)] at hj
      obtain ⟨entry', he⟩ := hrec j hj
      simp only [sole, List.all_eq_true] at hok
      simpa [hj, hne] using hok _ he
    refine ⟨fun j hj => ?_, fun j k hj hk => (other j hj).trans (other k hk).symm, fun j hj => ?_⟩
    · exact ⟨entry, other j hj ▸ .head _⟩
    · obtain rfl : i = j := by simpa [act] using hj
      simp [client_step hi, Ev.actor, ClientAux.step]
  | denied i entry =>
    obtain ⟨-, hi⟩ := ha
    have kept : ∀ j, ((v.step ext (.denied i entry)).client j).registered = true →
        (v.client j).registered = true := by
      intro j hj
      by_cases hij : i = j
      · exact hij ▸ hi
      · rwa [client_of_ne (by simpa [Ev.actor] using hij)] at hj
    refine ⟨fun j hj => ?_, fun j k hj hk => huniq j k (kept j hj) (kept k hk), fun j hj => ?_⟩
    · obtain ⟨entry', he⟩ := hrec j (kept j hj)
      exact ⟨entry', .tail _ he⟩
    · simp [act] at hj
  | _ => exact keeps (by simp) (by simp)

theorem View.still_sole (h : (machine ext files).Trace (fun v e => sole v e = true) es v) :
    v.Sole := by
  refine h.invariant (I := fun _ v => v.Sole) ?_ ?_
  · exact ⟨fun _ h => (nomatch h), fun _ _ h => (nomatch h), fun _ h => (nomatch h)⟩
  · intro es v e hs ha hok
    exact hs.step ha hok

/-- Where the users of the slot take turns, each cleans up after itself only. -/
theorem own_denials
    (h : (system ext).Run (During observed fun v e => sole v e = true) (start ext files) c) :
    OwnDenials c.shared.log := by
  intro i j l hl
  obtain ⟨u, hu, ⟨hp, hr⟩, -⟩ := (traced h).suffix hl
  have hs := View.still_sole hu
  exact hs.unique i j hr (hs.holder j hp.symm)

theorem own_denials_touched : ∃ c : Config Daemon, OwnDenials c.shared.log ∧
    .denied 1 (some 1) ∈ c.shared.log := by
  obtain ⟨c, hr, hc⟩ := System.exists_run (system .sample) (during observed sole)
    (start .sample .sample) touched (fun s => s.log.contains (.denied 1 (some 1)))
    (by decide +kernel)
  exact ⟨c, own_denials (hr.mono fun _ _ => During.of_check), List.contains_iff_mem.mp hc⟩

/-- A match takes the entry of the first `AUTH` from the slot, and the second
registers before the first has cleaned up. -/
def overtaken : List (Event Env Conn) :=
  session ++ ask 1 "AUTH:u:sudo" ++ go 1 10 ++ .env (.frame ⟨sampleMatch, none⟩) :: go 0 6 ++
    confirm :: go 0 5 ++ ask 2 "AUTH:u:sudo" ++ go 2 10 ++ go 1 4

theorem cleanup_denies_another : ∃ c, (system .sample).Reach (start .sample .sample) c ∧
    ¬ OwnDenials c.shared.log := by
  obtain ⟨c, hr, hc⟩ := System.exists_run (system .sample) (fun _ _ => true)
    (start .sample .sample) overtaken (fun s => s.log.head? == some (.denied 1 (some 2)))
    (by decide +kernel)
  refine ⟨c, hr.reach, fun h => ?_⟩
  obtain ⟨l, hl⟩ := List.head?_eq_some_iff.mp (eq_of_beq hc)
  have hij := h 1 2 l (hl ▸ List.suffix_rfl)
  cases hij

end Immurok
