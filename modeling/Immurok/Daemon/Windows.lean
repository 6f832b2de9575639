import Immurok.Daemon.Approval

/-!
# Pre-auth windows

A window that is open was armed in time for the service, and armed for a
reason: an approved agent request, an unlocked screen, or a match on a locked
screen. The last is a reason only if the match has approved an `AUTH`.
-/

namespace Immurok

open Async Machine

variable {ext : Extern} {files : Files} {v : View} {e : Ev} {es l : List Ev}
  {ok : View → Ev → Prop} {c : Config Daemon}

/-- The routing of a frame starts. -/
def Ev.routes : Ev → Bool
  | .routed _ => true
  | _ => false

def Ev.setsWindow : Ev → Bool
  | .windowArmed _ _ _ _ _ | .windowCleared => true
  | _ => false

/-- Connection `i` has registered with this entry last. -/
def LastEntry (i : TaskId) (entry : Entry) (l : List Ev) : Prop :=
  ∃ l', l = sinceEntry i l ++ .registered i entry :: l'

/-- What has happened where a window is armed for a good reason. A match counts
if it has approved an `AUTH` whose handler waits, and then found the screen
locked, both while the same frame is routed. -/
def Genuine (ext : Extern) (files : Files) (services : List Str) (l : List Ev) : Arming → Prop
  | .matched _ =>
    services = unlockFollowupServices ∧
      (∃ i f, (machine ext files).SawSince Ev.routes l (.approved i f true) fun v =>
        LastEntry i .auth v.past) ∧
      (machine ext files).SawSince Ev.routes l (.lockedRead true) (·.screenLocked = true)
  | .unlocked =>
    services = unlockFollowupServices ∧ ∃ session, .unlocked session ∈ since Ev.routes l
  | .agent i =>
    services = sudoServices ∧ LastEntry i .agent l ∧ (OwnTouch i l ∨ OwnEntry i l)

/-- Windows are armed for good reasons, and a service that finds one open was
in its set and in time, with nothing done to it since. -/
structure GenuineWindows (ext : Extern) (files : Files) (log : List Ev) : Prop where
  armed : ∀ a why t duration services l,
    (.windowArmed a why t duration services :: l) <:+ log → Genuine ext files services l why
  hit : ∀ i service t l, (.windowRead i service t true :: l) <:+ log →
    ∃ a why t₀ duration services m l',
      l = m ++ .windowArmed a why t₀ duration services :: l' ∧
      (∀ x ∈ m, x.setsWindow = false) ∧ t < t₀ + duration ∧
      ext.toLowercase service ∈ services.map ext.toLowercase ∧
      Genuine ext files services l' why

/-- Where a match finds the screen locked, what it has taken from the slot is
the entry of an `AUTH` that still waits. -/
def authTaken (v : View) : Ev → Bool
  | .lockedRead true => v.worker.taken.all fun (_, entry, waiting) => entry == some .auth && waiting
  | _ => true

-- ---------------------------------------------------------------------------
-- The window
-- ---------------------------------------------------------------------------

/-- A window that is there is the last one armed. -/
def View.Armed (ext : Extern) (v : View) (es : List Ev) : Prop :=
  ∀ p, v.preAuth = some p → ∃ a why t₀ duration services m l,
    es = m ++ .windowArmed a why t₀ duration services :: l ∧
      (∀ x ∈ m, x.setsWindow = false) ∧
      p = { deadline := t₀ + duration, services := services.map ext.toLowercase }

theorem View.Armed.step (h : v.Armed ext es) : (v.step ext e).Armed ext (e :: es) := by
  have keeps (hp : (v.step ext e).preAuth = v.preAuth) (he : e.setsWindow = false) :
      (v.step ext e).Armed ext (e :: es) := by
    intro p hp'
    obtain ⟨a, why, t₀, duration, services, m, l, rfl, hm, rfl⟩ := h p (hp ▸ hp')
    refine ⟨a, why, t₀, duration, services, e :: m, l, rfl, fun x hx => ?_, rfl⟩
    obtain rfl | hx := List.mem_cons.mp hx
    · exact he
    · exact hm x hx
  cases e with
  | windowArmed a why t duration services =>
    intro p hp
    obtain rfl := Option.some.inj hp
    exact ⟨a, why, t, duration, services, [], es, rfl, fun _ h => (nomatch h), rfl⟩
  | windowCleared =>
    intro p hp
    cases hp
  | delivered d _ _ => exact keeps (by cases d <;> rfl) rfl
  | _ => exact keeps rfl rfl

theorem View.armed (h : (machine ext files).Trace ok es v) : v.Armed ext es :=
  h.invariant (I := fun es v => v.Armed ext es) (fun _ h => nomatch h) fun _ _ _ ha _ _ => ha.step

-- ---------------------------------------------------------------------------
-- The frame being routed
-- ---------------------------------------------------------------------------

/-- What the worker keeps of the frame it routes changes. -/
def Ev.finds : Ev → Bool
  | .routed _ | .approved _ _ _ | .lockedRead _ | .unlocked _ => true
  | _ => false

theorem WorkerAux.found_step {client : TaskId → ClientAux} {w : WorkerAux} (h : e.finds = false) :
    (w.step client e).taken = w.taken ∧ (w.step client e).sawLocked = w.sawLocked ∧
      (w.step client e).unlocked = w.unlocked := by
  cases e with
  | routed _ | approved _ _ _ | lockedRead _ | unlocked _ => cases h
  | _ => exact ⟨rfl, rfl, rfl⟩

theorem View.found_step (h : e.finds = false) :
    (v.step ext e).worker.taken = v.worker.taken ∧
      (v.step ext e).worker.sawLocked = v.worker.sawLocked ∧
      (v.step ext e).worker.unlocked = v.worker.unlocked := by
  rw [worker_step]
  split
  · exact WorkerAux.found_step h
  · exact ⟨rfl, rfl, rfl⟩

/-- What the worker has found while it routes a frame. -/
structure View.Found (ext : Extern) (files : Files) (v : View) (es : List Ev) : Prop where
  taken : ∀ i entry waiting, v.worker.taken = some (i, some entry, waiting) →
    ∃ f, (machine ext files).SawSince Ev.routes es (.approved i f waiting) fun u =>
      (u.client i).entry = some entry
  locked : v.worker.sawLocked = true →
    (machine ext files).SawSince Ev.routes es (.lockedRead true) (·.screenLocked = true)
  unlocked : v.worker.unlocked = true → ∃ session, .unlocked session ∈ since Ev.routes es

theorem View.Found.cons (h : v.Found ext files es) (hr : e.routes = false) :
    v.Found ext files (e :: es) := by
  obtain ⟨ht, hl, hu⟩ := h
  refine ⟨fun i entry waiting h => ?_, fun h => (hl h).cons hr, fun h => ?_⟩
  · obtain ⟨f, hf⟩ := ht i entry waiting h
    exact ⟨f, hf.cons hr⟩
  · obtain ⟨session, hs⟩ := hu h
    exact ⟨session, mem_since_cons hr hs⟩

theorem View.Found.step (h : v.Found ext files es) (ha : v.allowed ext e)
    (hv : v = (machine ext files).replay es) : (v.step ext e).Found ext files (e :: es) := by
  have keeps (hf : e.finds = false) (hr : e.routes = false) :
      (v.step ext e).Found ext files (e :: es) := by
    obtain ⟨ht, hl, hu⟩ := h.cons hr
    obtain ⟨ht', hl', hu'⟩ : (v.step ext e).worker.taken = v.worker.taken ∧ _ ∧ _ := found_step hf
    exact ⟨ht' ▸ ht, hl' ▸ hl, hu' ▸ hu⟩
  cases e with
  | routed f => constructor <;> simp [WorkerAux.step, Ev.actor]
  | approved i f waiting =>
    refine ⟨fun j entry waiting' h => ?_, fun h => absurd h Bool.false_ne_true,
      (h.cons rfl).unlocked⟩
    obtain ⟨rfl, he, rfl⟩ : i = j ∧ (v.client i).entry = some entry ∧ waiting = waiting' := by
      simpa [WorkerAux.step, Ev.actor] using h
    exact ⟨f, .head (hv ▸ he)⟩
  | lockedRead b =>
    refine ⟨(h.cons rfl).taken, fun h => ?_, (h.cons rfl).unlocked⟩
    obtain rfl : b = true := h
    exact .head (hv ▸ ha.symm)
  | unlocked session =>
    exact ⟨(h.cons rfl).taken, (h.cons rfl).locked, fun _ => ⟨session, mem_since_head rfl⟩⟩
  | _ => exact keeps rfl rfl

theorem View.found (h : (machine ext files).Trace ok es v) : v.Found ext files es := by
  have h' : v = (machine ext files).replay es ∧ v.Found ext files es := by
    refine h.invariant (I := fun es v => v = (machine ext files).replay es ∧
      v.Found ext files es) ⟨rfl, ?_⟩ ?_
    · exact ⟨fun _ _ _ h => (nomatch h), fun h => (nomatch h), fun h => (nomatch h)⟩
    · rintro es v e ⟨hv, hf⟩ ha -
      exact ⟨by rw [replay, ← hv], hf.step ha hv⟩
  exact h'.2

/-- The entry taken before the screen was found locked is that of an `AUTH`. -/
def View.AuthTaken (v : View) : Prop :=
  v.worker.sawLocked = true →
    v.worker.taken.all (fun (_, entry, waiting) => entry == some .auth && waiting) = true

theorem View.AuthTaken.step (h : v.AuthTaken) (hok : authTaken v e = true) :
    (v.step ext e).AuthTaken := by
  have keeps (hf : e.finds = false) : (v.step ext e).AuthTaken := by
    obtain ⟨ht, hl, -⟩ : (v.step ext e).worker.taken = v.worker.taken ∧ _ ∧ _ := found_step hf
    rw [AuthTaken, ht, hl]
    exact h
  cases e with
  | routed _ | approved _ _ _ => exact fun h => nomatch h
  | lockedRead b =>
    intro hb
    obtain rfl : b = true := hb
    exact hok
  | unlocked _ => exact h
  | _ => exact keeps rfl

theorem View.auth_taken (h : (machine ext files).Trace (fun v e => authTaken v e = true) es v) :
    v.AuthTaken :=
  h.invariant (I := fun _ v => v.AuthTaken) (fun h => nomatch h) fun _ _ _ ht _ hok => ht.step hok

theorem View.last_entry {i : TaskId} {entry : Entry} (h : (machine ext files).Trace ok es v)
    (he : (v.client i).entry = some entry) : LastEntry i entry es := by
  have hi : i ≠ 0 := by
    rintro rfl
    rw [View.no_client h] at he
    cases he
  exact (View.recalls h hi).entry entry he

-- ---------------------------------------------------------------------------
-- Runs
-- ---------------------------------------------------------------------------

theorem View.Grounds.genuine {a : TaskId} {duration : Nat} {services : List Str} {why : Arming}
    (h : (machine ext files).Trace (fun v e => authTaken v e = true) es v)
    (hg : v.Grounds a duration services why) : Genuine ext files services es why := by
  have hf := View.found h
  cases why with
  | matched taken =>
    obtain ⟨-, -, hs, -, htaken, hlocked⟩ := hg
    obtain ⟨⟨i, entry, waiting⟩, ht⟩ := Option.isSome_iff_exists.mp htaken
    have hauth := View.auth_taken h hlocked
    obtain ⟨rfl, rfl⟩ : entry = some .auth ∧ waiting = true := by simpa [ht] using hauth
    obtain ⟨f, hsaw⟩ := hf.taken i .auth true ht
    refine ⟨hs, ⟨i, f, hsaw.imp h fun l u hu he => ?_⟩, hf.locked hlocked⟩
    rw [View.past_eq hu]
    exact View.last_entry hu he
  | unlocked =>
    obtain ⟨-, -, hs, hu⟩ := hg
    exact ⟨hs, hf.unlocked hu⟩
  | agent i =>
    obtain ⟨-, -, hs, he, happ⟩ := hg
    have hi : i ≠ 0 := by
      rintro rfl
      rw [View.no_client h] at he
      cases he
    have hr := View.recalls h hi
    exact ⟨hs, View.last_entry h he, happ.imp hr.touched hr.granted⟩

/-- Where matches on a locked screen find an `AUTH` that waits, windows are
genuine. -/
theorem windows_genuine
    (h : (system ext).Run (During observed fun v e => authTaken v e = true) (start ext files) c) :
    GenuineWindows ext files c.shared.log := by
  have armed : ∀ a why t duration services l,
      (.windowArmed a why t duration services :: l) <:+ c.shared.log →
        Genuine ext files services l why := by
    intro a why t duration services l hl
    obtain ⟨u, hu, hg, -⟩ := (traced h).suffix hl
    exact View.Grounds.genuine hu hg
  refine ⟨armed, fun i service t l hl => ?_⟩
  obtain ⟨u, hu, ⟨-, hhit⟩, -⟩ := (traced h).suffix hl
  obtain ⟨p, hp, hgrants⟩ := (Option.any_eq_true _ _).mp hhit.symm
  obtain ⟨a, why, t₀, duration, services, m, l', rfl, hm, rfl⟩ := View.armed hu p hp
  obtain ⟨ht, hs⟩ : t < t₀ + duration ∧
      ext.toLowercase service ∈ services.map ext.toLowercase := by
    simpa [PreAuth.grants] using hgrants
  refine ⟨a, why, t₀, duration, services, m, l', rfl, hm, ht, hs, armed a why t₀ duration services l' ?_⟩
  exact (List.suffix_append _ _).trans ((List.suffix_cons _ _).trans hl)

/-- A match on a locked screen finds what connection 1 has put into the slot,
and connection 2 asks for `gdm-password`. -/
def unlocking (line : String) (n : Nat) : List (Event Env Conn) :=
  session ++ ask 1 line ++ go 1 n ++ .env (.screen true) :: .env (.frame ⟨sampleMatch, none⟩) ::
    go 0 6 ++ confirm :: go 0 10 ++ ask 2 "AUTH:u:gdm-password" ++ go 2 5

theorem windows_genuine_unlocking : ∃ c : Config Daemon,
    GenuineWindows .sample .sample c.shared.log ∧
      .windowRead 2 "gdm-password".toList 5000 true ∈ c.shared.log := by
  obtain ⟨c, hr, hc⟩ := System.exists_run (system .sample) (during observed authTaken)
    (start .sample .sample) (unlocking "AUTH:u:sudo" 10)
    (fun s => s.log.contains (.windowRead 2 "gdm-password".toList 5000 true)) (by decide +kernel)
  exact ⟨c, windows_genuine (hr.mono fun _ _ => During.of_check), List.contains_iff_mem.mp hc⟩

/-- Nobody has asked for an approval, and the screen was not unlocked. -/
def groundless : Ev → Bool
  | .registered _ .placeholder => true
  | .registered _ _ | .unlocked _ => false
  | _ => true

theorem replay_past : ((machine ext files).replay l).past = l := by
  induction l with
  | nil => rfl
  | cons e l ih => exact congrArg (e :: ·) ih

theorem Genuine.not_groundless {services : List Str} {why : Arming}
    (h : Genuine ext files services l why) : ∃ e ∈ l, groundless e = false := by
  cases why with
  | matched taken =>
    obtain ⟨-, ⟨i, f, m, l', rfl, -, l'', hl⟩, -⟩ := h
    rw [replay_past] at hl
    refine ⟨.registered i .auth, ?_, rfl⟩
    have hmem : .registered i .auth ∈ l' := by
      rw [hl]
      exact List.mem_append_right _ (.head _)
    exact List.mem_append_right _ (.tail _ hmem)
  | unlocked =>
    obtain ⟨-, session, hs⟩ := h
    exact ⟨.unlocked session, mem_of_mem_since hs, rfl⟩
  | agent i =>
    obtain ⟨-, ⟨l', hl⟩, -⟩ := h
    refine ⟨.registered i .agent, ?_, rfl⟩
    rw [hl]
    exact List.mem_append_right _ (.head _)

/-- `GET:otp` keeps a placeholder in the slot; the match that it waits for opens
a window for the login. -/
theorem placeholder_opens_window : ∃ c, (system .sample).Reach (start .sample .sample) c ∧
    ¬ GenuineWindows .sample .sample c.shared.log := by
  obtain ⟨c, hr, hc⟩ := System.exists_run (system .sample) (fun _ _ => true)
    (start .sample .sample) (unlocking "GET:otp:n" 5)
    (fun s => s.log.contains (.windowRead 2 "gdm-password".toList 5000 true) &&
      s.log.all groundless) (by decide +kernel)
  obtain ⟨hhit, hall⟩ := Bool.and_eq_true_iff.mp hc
  refine ⟨c, hr.reach, fun h => ?_⟩
  obtain ⟨m, l, hl⟩ := List.append_of_mem (List.contains_iff_mem.mp hhit)
  obtain ⟨a, why, t, duration, services, m', l', rfl, -, -, -, hg⟩ :=
    h.hit 2 "gdm-password".toList 5000 l (hl ▸ List.suffix_append _ _)
  obtain ⟨e, he, hne⟩ := hg.not_groundless
  have hlog : e ∈ c.shared.log := by
    rw [hl]
    exact List.mem_append_right _ (.tail _ (List.mem_append_right _ (.tail _ he)))
  rw [List.all_eq_true.mp hall e hlog] at hne
  cases hne

end Immurok
