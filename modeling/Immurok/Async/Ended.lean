import Immurok.Async.Part

/-!
# What a task leaves

A task is served from a precondition, which holds of every name that is not in
use yet, to a postcondition. What its triple says at the end holds as long as
the task is over, whatever the others do in the meantime.
-/

namespace Async

variable {σ E R α β : Type} {P : Protocol σ} {i : TaskId}

namespace Protocol

theorem wp_and {t : Proc σ α} {Q Q' : α → σ → Prop} {s : σ} (h : P.wp i t Q s)
    (h' : P.wp i t Q' s) : P.wp i t (fun a s => Q a s ∧ Q' a s) s := by
  induction t generalizing s with
  | ret a => exact fun s' hr hi => ⟨h s' hr hi, h' s' hr hi⟩
  | act f k ih =>
    intro s' hr hi b s'' hm
    obtain ⟨hg, hi', hk⟩ := h s' hr hi b s'' hm
    exact ⟨hg, hi', ih b hk (h' s' hr hi b s'' hm).2.2⟩
  | iter body j k ihb ihk =>
    obtain ⟨J, hst, hj, hbody⟩ := h
    obtain ⟨J', hst', hj', hbody'⟩ := h'
    refine ⟨fun j s => J j s ∧ J' j s, fun j s s' hjs hr hi => ?_, ⟨hj, hj'⟩,
      fun j s' hi hjs => ?_⟩
    · exact ⟨hst j s s' hjs.1 hr hi, hst' j s s' hjs.2 hr hi⟩
    · refine wp_mono ?_ (ihb j (hbody j s' hi hjs.1) (hbody' j s' hi hjs.2))
      rintro (j' | b) s'' - hq
      · exact hq
      · exact ihk b hq.1 hq.2

theorem Triple.and {A A' : σ → Prop} {B B' : α → σ → Prop} {t : Proc σ α}
    (h : P.Triple i A t B) (h' : P.Triple i A' t B') :
    P.Triple i (fun s => A s ∧ A' s) t fun a s => B a s ∧ B' a s :=
  fun s hi ha => wp_and (h s hi ha.1) (h' s hi ha.2)

-- ---------------------------------------------------------------------------
-- Systems
-- ---------------------------------------------------------------------------

/-- A name that is not in use has `A`; the task under a name is on its way to `B`. -/
def Bound (P : Protocol σ) (A B : TaskId → σ → Prop) (c : Config σ) : Prop :=
  ∀ i, match c.pool i with
    | none => A i c.shared
    | some t => P.wp i t (fun _ => B i) c.shared

variable {S : System σ E R} {A B : TaskId → σ → Prop} {c₀ c c' : Config σ}

theorem Sound.bound_step (hS : P.Sound S) (hA : ∀ i, P.Stable i (A i))
    (hserve : ∀ i r, P.Triple i (A i) (S.serve i r) fun _ => B i) (hsafe : P.Safe c)
    (h : P.Bound A B c) {e : Event E R} (hs : S.step c e = some c') : P.Bound A B c' := by
  have hi' : P.inv c'.shared := (hS.step hsafe hs).1.1
  -- the others see a step they may rely on
  have other (j : TaskId) (hr : P.rely j c.shared c'.shared) (hp : c'.pool j = c.pool j) :
      match c'.pool j with
      | none => A j c'.shared
      | some t => P.wp j t (fun _ => B j) c'.shared := by
    have hj := h j
    rw [hp]
    cases hpool : c.pool j with
    | none =>
      rw [hpool] at hj
      exact hA j _ _ hj hr hi'
    | some t =>
      rw [hpool] at hj
      exact wp_stable t _ _ _ hj hr hi'
  intro j
  obtain ⟨i, t, t', ht, hm, hp⟩ | ⟨e, he, hp⟩ | ⟨i, r, hn, hsh, hp⟩ := System.step_cases hs
  · by_cases hji : j = i
    · subst hji
      have hj := h j
      rw [ht] at hj
      rw [hp, Function.update_self]
      exact (wp_step (hS.guar_refl j) hsafe.1 hj hm).2.2
    · have hg := (wp_step (hS.guar_refl i) hsafe.1 (hsafe.2 i t ht) hm).1
      refine other j (hS.guar_rely i j _ _ (Ne.symm hji) hsafe.1 hg) ?_
      rw [hp, Function.update_of_ne hji]
  · exact other j ((hS.env e _ _ hsafe.1 he).2 j) (by rw [hp])
  · by_cases hji : j = i
    · subst hji
      have hj := h j
      rw [hn] at hj
      rw [hp, Function.update_self, hsh]
      exact hserve j r _ hsafe.1 hj
    · refine other j ?_ ?_
      · rw [hsh]
        exact P.rely_refl _ _
      · rw [hp, Function.update_of_ne hji]

theorem Sound.bound (hS : P.Sound S) (hA : ∀ i, P.Stable i (A i))
    (hserve : ∀ i r, P.Triple i (A i) (S.serve i r) fun _ => B i) (h₀ : P.Safe c₀)
    (hb : P.Bound A B c₀) (h : S.Reach c₀ c) : P.Bound A B c := by
  induction h with
  | refl => exact hb
  | step hrun hs _ ih => exact hS.bound_step hA hserve (hS.safe h₀ hrun) ih hs

/-- Where a task is over, what its triple says at the end holds. -/
theorem Bound.ended (h : P.Bound A B c) (hi : P.inv c.shared) {a : Unit}
    (ht : c.pool i = some (.ret a)) : B i c.shared := by
  have hj := h i
  rw [ht] at hj
  exact hj c.shared (P.rely_refl _ _) hi

end Protocol

/-- Two triples about a part are one. -/
theorem Machine.Part.Triple.and {V W : Type} {M : Machine V E} {O : Observed σ V E}
    {p : M.Part i W} {A A' : W → Prop} {B B' : α → W → Prop} {t : Proc σ α}
    (h : p.Triple O A t B) (h' : p.Triple O A' t B') :
    p.Triple O (fun w => A w ∧ A' w) t fun a w => B a w ∧ B' a w :=
  Protocol.Triple.and h h'

end Async
