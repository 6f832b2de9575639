import Immurok.Daemon.Sound
import Immurok.Daemon.Suspend

/-!
# No connection attempt across a suspend

The driver and the monitor keep to the machine. From its traces it can be read
off when a `Connect()` may go out while the system is going to sleep, and when
one may be left pending.
-/

namespace Immurok.Suspend

open Async Machine

variable {ext : Extern} {v : View} {e : Ev} {s s₁ : State} {a : Address} {i : TaskId}

-- ---------------------------------------------------------------------------
-- Events
-- ---------------------------------------------------------------------------

@[simp] theorem pending_setLink {link : Link} :
    (s.setLink a link).pending = Function.update s.pending a (link == .pending) := by
  funext b
  by_cases h : b = a
  · subst h
    simp [State.pending, State.setLink]
  · simp [State.pending, State.setLink, h]

@[simp] theorem ours_setLink (ext : Extern) {link : Link} :
    (s.setLink a link).ours ext = s.ours ext := by
  funext b
  by_cases h : b = a
  · subst h
    simp [State.ours, State.setLink]
  · simp [State.ours, State.setLink, h]

/-- The event `e` noted in `s₁`, which is `s` but for what `e` changes. -/
theorem note_emits (hlog : s₁.log = s.log)
    (hsuspending : s₁.isSuspending = ((s.view ext).step e).isSuspending)
    (hpending : s₁.pending = ((s.view ext).step e).pending)
    (hours : s₁.ours ext = ((s.view ext).step e).ours)
    (haux : ((s₁.view ext).step e).aux = ((s.view ext).step e).aux)
    (ha : allowed (s.view ext) e) :
    (machine ext).Emits (observed ext) e s (s₁.note ext e) := by
  refine ⟨ha, congrArg (e :: ·) hlog, ?_⟩
  show View.mk s₁.isSuspending s₁.pending (s₁.ours ext) ((s₁.view ext).step e).aux =
    (s.view ext).step e
  rw [hsuspending, hpending, hours, haux]

theorem note_follows (ext : Extern) (s s₁ : State) (e : Ev) (hlog : s₁.log = s.log)
    (hsuspending : s₁.isSuspending = ((s.view ext).step e).isSuspending)
    (hpending : s₁.pending = ((s.view ext).step e).pending)
    (hours : s₁.ours ext = ((s.view ext).step e).ours)
    (haux : ((s₁.view ext).step e).aux = ((s.view ext).step e).aux)
    (ha : allowed (s.view ext) e) :
    (machine ext).Follows (observed ext) (actor e) s (s₁.note ext e) ∧
      (s₁.note ext e).view ext = (s.view ext).step e := by
  have he := note_emits hlog hsuspending hpending hours haux ha
  exact ⟨.inr ⟨e, rfl, he⟩, he.2.2⟩

/-- An event that changes nothing but the history. -/
theorem unanswered_follows (ext : Extern) (s : State) (i : TaskId) :
    (machine ext).Follows (observed ext) (some i) s (s.note ext (.unanswered i)) ∧
      (s.note ext (.unanswered i)).view ext = (s.view ext).step (.unanswered i) :=
  note_follows ext s s (.unanswered i) rfl rfl rfl rfl rfl trivial

/-- Nothing is pending, or of ours, that is taken to be. -/
def Sane (v : View) : Prop :=
  (∀ a, v.aux.held a = true → v.pending a = true) ∧ ∀ a, v.aux.steady a = true → v.ours a = true

theorem sane_step (h : Sane v) : Sane (v.step e) := by
  obtain ⟨hp, ho⟩ := h
  cases e with
  | awake | attemptOver | passOver | unanswered i => exact ⟨hp, ho⟩
  | connectCalled a begun =>
    refine ⟨fun b hb => ?_, ho⟩
    by_cases h : b = a
    · subst h
      simp [View.step, hp b hb]
    · simp [View.step, h, hp b hb]
  | flagSet b => cases b <;> simp_all [Sane, View.step]
  | cancelled i a | settled a =>
    refine ⟨fun b hb => ?_, ho⟩
    by_cases h : b = a
    · subst h
      simp [View.step] at hb
    · simp_all [View.step]
  | listed a ours =>
    refine ⟨hp, fun b hb => ?_⟩
    by_cases h : b = a
    · subst h
      simp_all [View.step]
    · simp_all [View.step]
  | forgotten a =>
    refine ⟨fun b hb => ?_, fun b hb => ?_⟩
    · by_cases h : b = a
      · subst h
        simp [View.step] at hb
      · simp_all [View.step]
    · by_cases h : b = a
      · subst h
        simp [View.step] at hb
      · simp_all [View.step]

variable {ok : View → Ev → Prop} {es : List Ev}

theorem Sane.of_trace (h : (machine ext).Trace ok es v) : Sane v :=
  h.invariant (I := fun _ v => Sane v) ⟨fun _ => nofun, fun _ => nofun⟩
    fun _ _ _ hs _ _ => sane_step hs

-- ---------------------------------------------------------------------------
-- Code that may be dropped
-- ---------------------------------------------------------------------------

variable {α β : Type} {A A' C : View → Prop} {B : α → View → Prop} {c : Caller}

/-- Where the code is dropped `C` holds. -/
def Spec (ext : Extern) (i : TaskId) (A : View → Prop) (t : Await α) (B : α → View → Prop)
    (C : View → Prop) : Prop :=
  (machine ext).Triple (observed ext) i A t.run fun r v => r.elim (C v) (B · v)

namespace Spec

theorem pure {x : α} (hA : (machine ext).Owned i A) (h : ∀ v, A v → B x v) :
    Spec ext i A (Pure.pure x) B C :=
  .ret hA h

theorem bind {t : Await β} {g : β → Await α} {M : β → View → Prop} (h : Spec ext i A t M C)
    (hC : (machine ext).Owned i C) (hg : ∀ b, Spec ext i (M b) (g b) B C) :
    Spec ext i A (t >>= g) B C := by
  refine Machine.Triple.bind h fun r => ?_
  cases r with
  | none => exact .ret hC fun _ => id
  | some b => exact hg b

theorem pre {t : Await α} (h : Spec ext i A t B C) (hA : ∀ v, A' v → A v) :
    Spec ext i A' t B C :=
  Machine.Triple.pre h hA

theorem post {t : Await α} {B' : α → View → Prop} (h : Spec ext i A t B C)
    (hB : ∀ x v, B x v → B' x v) : Spec ext i A t B' C :=
  Machine.Triple.post h fun r v hr => by
    cases r with
    | none => exact hr
    | some x => exact hB x v hr

theorem lift {t : Proc State α} (h : (machine ext).Triple (observed ext) i A t B)
    (hB : ∀ x, (machine ext).Owned i (B x)) : Spec ext i A (liftM t) B C :=
  Machine.Triple.bind h fun x => .ret (hB x) fun _ => id

theorem clock (hA : (machine ext).Owned i A) : Spec ext i A clock (fun _ => A) C :=
  lift (.act hA (fun _ => hA) fun s x s' _ ha hm => by
    obtain ⟨-, rfl⟩ := Prod.mk.inj (List.mem_singleton.mp hm)
    exact ⟨.inl .refl, ha⟩) fun _ => hA

/-- The code waits as `c`, a task `i`, and is dropped with `C`. -/
structure Drops (ext : Extern) (i : TaskId) (c : Caller) (C : View → Prop) : Prop where
  task : c.task = i
  owned : (machine ext).Owned i C
  drop : ∀ s s', s' ∈ c.drop s →
    (machine ext).Follows (observed ext) (some i) s s' ∧ C (s'.view ext)

theorem await {f : State → List (α × State)} (hc : Drops ext i c C) (hA : (machine ext).Owned i A)
    (hB : ∀ x, (machine ext).Owned i (B x))
    (h : ∀ s x s', (machine ext).Trace (fun _ _ => True) s.log (s.view ext) → A (s.view ext) →
      (x, s') ∈ f s →
        (machine ext).Follows (observed ext) (some i) s s' ∧ B x (s'.view ext)) :
    Spec ext i A (c.await f) B C := by
  refine .act hA (fun r => ?_) fun s r s' ht ha hm => ?_
  · cases r with
    | none => exact hc.owned
    | some x => exact hB x
  · obtain hm | hm := List.mem_append.mp hm
    · obtain ⟨p, hx, he⟩ := List.mem_map.mp hm
      cases he
      exact h s _ _ ht ha hx
    · obtain ⟨s'', hx, he⟩ := List.mem_map.mp hm
      cases he
      exact hc.drop s _ hx

theorem ask {d : α} {f : State → α} (hc : Drops ext i c C) (hA : (machine ext).Owned i A)
    (hB : ∀ x, (machine ext).Owned i (B x))
    (h : ∀ s, (machine ext).Trace (fun _ _ => True) s.log (s.view ext) → A (s.view ext) →
      B (f s) (s.view ext))
    (hun : ∀ v, A v → B d (v.step (.unanswered i))) : Spec ext i A (c.ask ext d f) B C := by
  refine await hc hA hB fun s x s' ht ha hm => ?_
  obtain hm | hm := List.mem_pair.mp hm
  · obtain ⟨rfl, rfl⟩ := Prod.mk.inj hm
    exact ⟨.inl .refl, h s' ht ha⟩
  · obtain ⟨rfl, rfl⟩ := Prod.mk.inj hm
    rw [hc.task]
    obtain ⟨hf, hv⟩ := unanswered_follows ext s i
    exact ⟨hf, hv ▸ hun _ ha⟩

theorem repeatFrom {ι : Type} {body : ι → Await (ι ⊕ α)} {J : ι → View → Prop} {j : ι}
    (hJ : ∀ j, (machine ext).Owned i (J j)) (hB : ∀ x, (machine ext).Owned i (B x))
    (hC : (machine ext).Owned i C)
    (h : ∀ j, Spec ext i (J j) (body j) (fun r v => r.elim (J · v) (B · v)) C) :
    Spec ext i (J j) (Suspend.repeatFrom j body) B C := by
  refine Machine.Triple.iter hJ (fun r => ?_) fun j => Machine.Triple.bind (h j) fun r => ?_
  · cases r with
    | none => exact hC
    | some x => exact hB x
  · match r with
    | none => exact Machine.Triple.ret hC fun _ => id
    | some (.inl j') => exact Machine.Triple.ret (hJ j') fun _ => id
    | some (.inr x) => exact Machine.Triple.ret (hB x) fun _ => id

end Spec

-- ---------------------------------------------------------------------------
-- The monitor
-- ---------------------------------------------------------------------------

/-- A call of the monitor has gone unanswered. -/
def Lost (v : View) : Prop := v.aux.unanswered = true

/-- Only in `l` may there be something left to cancel. -/
def Left (l : List Address) (v : View) : Prop :=
  Lost v ∨ ∀ a, v.aux.held a = true → v.aux.steady a = true → a ∈ l

/-- Others only make what is left to cancel less. -/
theorem shrinks (hn : actor e ≠ some 1) :
    (v.step e).aux.unanswered = v.aux.unanswered ∧
      (∀ a, (v.step e).aux.held a = true → v.aux.held a = true) ∧
      ∀ a, (v.step e).aux.steady a = true → v.aux.steady a = true := by
  cases e with
  | awake | attemptOver | connectCalled a begun => exact ⟨rfl, fun _ => id, fun _ => id⟩
  | flagSet b | passOver => exact absurd rfl hn
  | unanswered i =>
    have hi : (i == 1) = false := by simpa [actor] using hn
    exact ⟨by simp [View.step, hi], fun _ => id, fun _ => id⟩
  | cancelled i a | settled a =>
    refine ⟨rfl, fun b hb => ?_, fun _ => id⟩
    by_cases h : b = a
    · subst h
      simp [View.step] at hb
    · simpa [View.step, h] using hb
  | listed a ours =>
    refine ⟨rfl, fun _ => id, fun b hb => ?_⟩
    by_cases h : b = a
    · subst h
      simp_all [View.step]
    · simpa [View.step, h] using hb
  | forgotten a =>
    refine ⟨rfl, fun b hb => ?_, fun b hb => ?_⟩
    · by_cases h : b = a
      · subst h
        simp [View.step] at hb
      · simpa [View.step, h] using hb
    · by_cases h : b = a
      · subst h
        simp [View.step] at hb
      · simpa [View.step, h] using hb

theorem lost_owned : (machine ext).Owned 1 Lost := by
  intro v e hn _ h
  exact (shrinks hn).1.trans h

theorem left_owned (l : List Address) : (machine ext).Owned 1 (Left l) := by
  rintro v e hn _ (h | h)
  · exact .inl ((shrinks hn).1.trans h)
  · exact .inr fun a hh hs => h a ((shrinks hn).2.1 a hh) ((shrinks hn).2.2 a hs)

theorem monitorUntil_drops (t : Nat) : Spec.Drops ext 1 (monitorUntil ext t) Lost where
  task := rfl
  owned := lost_owned
  drop s s' hm := by
    simp only [monitorUntil] at hm
    split at hm
    · obtain rfl := List.mem_singleton.mp hm
      obtain ⟨hf, hv⟩ := unanswered_follows ext s 1
      refine ⟨hf, ?_⟩
      rw [hv]
      exact Bool.or_true _
    · cases hm

/-- What is not as it must be is not among what is left to cancel. -/
theorem Left.tail {rest : List Address} (h : Left (a :: rest) v)
    (ha : v.aux.held a = true → v.aux.steady a = true → False) : Left rest v := by
  obtain h | h := h
  · exact .inl h
  · refine .inr fun b hb hs => ?_
    obtain rfl | hm := List.mem_cons.mp (h b hb hs)
    · exact (ha hb hs).elim
    · exact hm

/-- What is true of the answer, or else nothing can be said any more. -/
theorem ask_spec {d : α} {f : State → α} (hc : Spec.Drops ext 1 c Lost)
    (hA : (machine ext).Owned 1 A) (hB : ∀ x, (machine ext).Owned 1 (B x))
    (h : ∀ s, Sane (s.view ext) → A (s.view ext) → B (f s) (s.view ext))
    (hun : ∀ v, Lost v → B d v) : Spec ext 1 A (c.ask ext d f) B Lost :=
  Spec.ask hc hA hB (fun s ht => h s (.of_trace ht)) fun _ _ => hun _ (Bool.or_true _)

/-- What has been cancelled is not left. -/
theorem Left.cancelled {rest : List Address} (h : Left (a :: rest) v) :
    Left rest (v.step (.cancelled i a)) := by
  have held {b : Address} (hb : (v.step (.cancelled i a)).aux.held b = true) :
      b ≠ a ∧ v.aux.held b = true := by
    by_cases hba : b = a
    · subst hba
      simp [View.step] at hb
    · exact ⟨hba, by simpa [View.step, hba] using hb⟩
  have hl : Left (a :: rest) (v.step (.cancelled i a)) :=
    h.imp id fun h b hb hs => h b (held hb).2 hs
  exact hl.tail fun ha _ => (held ha).1 rfl

theorem ite_owned {b : Bool} (hA : (machine ext).Owned i A) (hA' : (machine ext).Owned i A') :
    (machine ext).Owned i fun v => if b then A v else A' v := by
  cases b with
  | true => exact hA
  | false => exact hA'

theorem deviceAddresses_spec (hc : Spec.Drops ext 1 c Lost) :
    Spec ext 1 (fun _ => True) (c.deviceAddresses ext)
      (fun r v => r.elim (Lost v) (Left · v)) Lost := by
  have htrue : ∀ b : Bool, (machine ext).Owned 1 fun v => if b then True else Lost v :=
    fun _ => ite_owned .true lost_owned
  have hdone : ∀ r : Option (List Address), (machine ext).Owned 1 fun v =>
      r.elim (Lost v) (Left · v) := fun r => by
    cases r with
    | none => exact lost_owned
    | some l => exact left_owned l
  refine .bind (ask_spec hc .true htrue (fun _ _ _ => trivial) fun _ => id) lost_owned
    fun session => ?_
  cases session with
  | false => exact .pure lost_owned fun _ => id
  | true =>
    refine .bind (ask_spec hc .true htrue (fun _ _ _ => trivial) fun _ => id) lost_owned
      fun adapter => ?_
    cases adapter with
    | false => exact .pure lost_owned fun _ => id
    | true =>
      refine ask_spec hc .true hdone (fun s hs _ => .inr fun a _ ha => ?_) fun _ => id
      have hours : s.ours ext a = true := hs.2 a ha
      simp only [State.ours, Bool.and_eq_true] at hours
      simpa using hours.1.1

theorem isOurs_spec {rest : List Address} (hc : Spec.Drops ext 1 c Lost) :
    Spec ext 1 (Left (a :: rest)) (c.isOurs ext a)
      (fun b v => if b then Left (a :: rest) v else Left rest v) Lost := by
  have howned (b : Bool) : (machine ext).Owned 1 fun v =>
      if b then Left (a :: rest) v else Left rest v :=
    ite_owned (left_owned _) (left_owned _)
  refine .bind (ask_spec hc (left_owned _) howned (fun s hs hl => ?_) fun _ => .inl) lost_owned
    fun paired => ?_
  · split
    next => exact hl
    next hp =>
      refine hl.tail fun _ ha => hp ?_
      have hours : s.ours ext a = true := hs.2 a ha
      simp only [State.ours, Bool.and_eq_true] at hours
      exact hours.1.2
  · cases paired with
    | false => exact .pure (left_owned _) fun _ => id
    | true =>
      refine .bind (M := fun name v =>
        if nameMatch ext name then Left (a :: rest) v else Left rest v)
        (ask_spec hc (left_owned _) (fun name => howned (nameMatch ext name))
          (fun s hs hl => ?_) fun _ => .inl) lost_owned fun name => .pure (howned _) fun _ => id
      split
      next => exact hl
      next hp =>
        refine hl.tail fun _ ha => hp ?_
        have hours : s.ours ext a = true := hs.2 a ha
        simp only [State.ours, Bool.and_eq_true] at hours
        exact hours.2

theorem cancelConnectOn_spec {rest : List Address} (hc : Spec.Drops ext 1 c Lost) :
    Spec ext 1 (Left (a :: rest)) (c.cancelConnectOn ext a) (fun _ => Left rest) Lost := by
  refine .bind (ask_spec hc (left_owned _)
    (B := fun b v => if b then Left rest v else Left (a :: rest) v)
    (fun _ => ite_owned (left_owned _) (left_owned _)) (fun s hs hl => ?_) fun _ => .inl)
    lost_owned fun connected => ?_
  · split
    next hconnected =>
      refine hl.tail fun ha _ => ?_
      have hpending : (s.device a).link = .pending := eq_of_beq (hs.1 a ha)
      rw [hpending] at hconnected
      cases hconnected
    next => exact hl
  · cases connected with
    | true => exact .pure (left_owned _) fun _ => id
    | false =>
      refine Spec.await hc (left_owned _) (fun _ => left_owned _) fun s _ s' _ hl hm => ?_
      obtain hm | hm := List.mem_pair.mp hm
      · obtain ⟨-, rfl⟩ := Prod.mk.inj hm
        rw [hc.task]
        obtain ⟨hf, hv⟩ := note_follows ext s (s.setLink a .idle) (.cancelled 1 a) rfl rfl
          pending_setLink (ours_setLink ext) rfl trivial
        refine ⟨hf, ?_⟩
        rw [hv]
        exact hl.cancelled
      · obtain ⟨-, rfl⟩ := Prod.mk.inj hm
        rw [hc.task]
        obtain ⟨hf, hv⟩ := unanswered_follows ext s 1
        refine ⟨hf, .inl ?_⟩
        rw [hv]
        exact Bool.or_true _

theorem cancelAll_spec (hc : Spec.Drops ext 1 c Lost) (l : List Address) :
    Spec ext 1 (Left l) (c.cancelAll ext l) (fun _ => Left []) Lost := by
  induction l with
  | nil => exact .pure (left_owned _) fun _ => id
  | cons a rest ih =>
    refine .bind (isOurs_spec hc) lost_owned fun ours => ?_
    cases ours with
    | true => exact .bind (cancelConnectOn_spec hc) lost_owned fun _ => ih
    | false => exact ih

/-- A pass whose calls are all answered leaves nothing. -/
theorem cancelPendingConnect_spec (hc : Spec.Drops ext 1 c Lost) :
    Spec ext 1 (fun _ => True) (c.cancelPendingConnect ext) (fun _ => Left []) Lost := by
  refine .bind (deviceAddresses_spec hc) lost_owned fun r => ?_
  cases r with
  | none => exact .pure lost_owned fun _ => .inl
  | some addresses => exact cancelAll_spec hc addresses

abbrev Task (ext : Extern) (i : TaskId) (t : Proc State α) : Prop :=
  (machine ext).Triple (observed ext) i (fun _ => True) t fun _ _ => True

theorem Task.bind {t : Proc State β} {g : β → Proc State α} (h : Task ext i t)
    (hg : ∀ b, Task ext i (g b)) : Task ext i (t.bind g) :=
  Machine.Triple.bind h hg

theorem Task.ret {x : α} : Task ext i (.ret x) := Machine.Triple.ret .true fun _ => id

theorem Task.act {f : State → List (α × State)}
    (h : ∀ s x s', (x, s') ∈ f s → (machine ext).Follows (observed ext) (some i) s s') :
    Task ext i (.act f .ret) :=
  Machine.Triple.act .true (fun _ => .true) fun s x s' _ _ hm => ⟨h s x s' hm, trivial⟩

theorem Task.quiet {f : State → List (α × State)}
    (h : ∀ s x s', (x, s') ∈ f s → Quiet (observed ext) s s') : Task ext i (.act f .ret) :=
  .act fun s x s' hm => .inl (h s x s' hm)

theorem Task.get {f : State → α} : Task ext i (Proc.get f) :=
  .quiet fun s x s' hm => by
    obtain ⟨-, rfl⟩ := Prod.mk.inj (List.mem_singleton.mp hm)
    exact .refl

theorem Task.modify {f : State → State}
    (h : ∀ s, (machine ext).Follows (observed ext) (some i) s (f s)) :
    Task ext i (Proc.modify f) :=
  .act fun s x s' hm => by
    obtain ⟨-, rfl⟩ := Prod.mk.inj (List.mem_singleton.mp hm)
    exact h s

theorem Task.loop {body : Proc State (Option α)} (h : Task ext i body) :
    Task ext i (Proc.loop body) :=
  Machine.Triple.loop .true (fun _ => .true) (h.post fun r _ _ => by cases r <;> trivial)

theorem handleSignal_task {b : Bool} : Task ext 1 (handleSignal ext b) := by
  refine .bind (.modify fun s => ?_) fun _ => ?_
  · cases b with
    | true =>
      exact (note_follows ext s { s with isSuspending := true } (.flagSet true) rfl rfl rfl rfl
        rfl trivial).1
    | false =>
      exact (note_follows ext s { s with isSuspending := false } (.flagSet false) rfl rfl rfl rfl
        rfl trivial).1
  · cases b with
    | true =>
      refine .bind .get fun now => ?_
      refine Machine.Triple.bind (cancelPendingConnect_spec (monitorUntil_drops _)) fun r => ?_
      have hpass : (machine ext).Triple (observed ext) 1 (Left []) (Proc.modify
          (·.note ext .passOver)) fun _ _ => True := by
        refine Machine.Triple.act (left_owned _) (fun _ => .true) fun s _ s' _ hl hm => ?_
        obtain ⟨-, rfl⟩ := Prod.mk.inj (List.mem_singleton.mp hm)
        refine ⟨(note_follows ext s s .passOver rfl rfl rfl rfl rfl (hl.imp id fun h a hh => ?_)).1,
          trivial⟩
        exact eq_false_of_ne_true fun hs => nomatch h a hh hs
      refine hpass.pre fun v hv => ?_
      cases r with
      | none => exact .inl hv
      | some _ => exact hv
    | false => exact .modify fun s => .inl .refl

theorem monitor_task : Task ext 1 (monitor ext) := by
  refine .loop (.bind ?_ fun _ => .bind .get fun now => .bind (.quiet fun s x s' hm => ?_)
    fun _ => .ret)
  · refine .bind (.quiet fun s b s' hm => ?_) fun ok => .bind (.modify fun s => .inl .refl)
      fun _ => ?_
    · obtain ⟨b, -, he⟩ := List.mem_map.mp hm
      cases he
      exact .refl
    · cases ok with
      | false => exact .ret
      | true =>
        refine .loop (.bind (.quiet fun s m s' hm => ?_) fun m => ?_)
        · obtain hm | hm := List.mem_cons.mp hm
          · cases hm
            exact .refl
          · cases hs : s.signals with
            | nil => simp [hs] at hm
            | cons m' rest =>
              rw [hs] at hm
              cases List.mem_singleton.mp hm
              exact .refl
        · match m with
          | none => exact .ret
          | some none => exact .ret
          | some (some b) => exact .bind handleSignal_task fun _ => .ret
  · simp only [Option.mem_toList, Option.ite_none_right_eq_some, Option.some.injEq,
      Prod.mk.injEq] at hm
    obtain ⟨-, -, rfl⟩ := hm
    exact .refl

-- ---------------------------------------------------------------------------
-- The driver
-- ---------------------------------------------------------------------------

/-- The driver has found the flag not set. -/
def Checking (v : View) : Prop := v.aux.checking = true

theorem checking_owned : (machine ext).Owned 0 Checking := by
  intro v e hn _ h
  cases e with
  | awake | connectCalled a begun | attemptOver => exact absurd rfl hn
  | flagSet b => cases b <;> exact h
  | _ => exact h

/-- What the driver knows, and an unanswered call leaves alone. -/
structure Kept (ext : Extern) (A : View → Prop) : Prop where
  owned : (machine ext).Owned 0 A
  unanswered : ∀ v, A v → A (v.step (.unanswered 0))

theorem checking_kept : Kept ext Checking := ⟨checking_owned, fun _ => id⟩

theorem true_kept : Kept ext fun _ => True := ⟨.true, fun _ => id⟩

abbrev DriverSpec (ext : Extern) (A : View → Prop) (t : Await α) (B : α → View → Prop) : Prop :=
  Spec ext 0 A t B fun _ => True

theorem driver_drops : Spec.Drops ext 0 (driver ext) fun _ => True where
  task := rfl
  owned := .true
  drop s s' hm := by
    obtain rfl := List.mem_singleton.mp hm
    exact ⟨(note_follows ext s s .attemptOver rfl rfl rfl rfl rfl trivial).1, trivial⟩

theorem worker_drops : Spec.Drops ext 0 worker fun _ => True where
  task := rfl
  owned := .true
  drop _ _ hm := nomatch hm

section

variable (hc : Spec.Drops ext 0 c fun _ => True) (hA : Kept ext A)

include hc hA

theorem ask_keeps {d : α} {f : State → α} : DriverSpec ext A (c.ask ext d f) fun _ => A :=
  Spec.ask hc hA.owned (fun _ => hA.owned) (fun _ _ => id) hA.unanswered

theorem deviceAddresses_keeps : DriverSpec ext A (c.deviceAddresses ext) fun _ => A := by
  refine .bind (ask_keeps hc hA) .true fun session => ?_
  cases session with
  | false => exact .pure hA.owned fun _ => id
  | true =>
    refine .bind (ask_keeps hc hA) .true fun adapter => ?_
    cases adapter with
    | false => exact .pure hA.owned fun _ => id
    | true => exact ask_keeps hc hA

theorem isOurs_keeps : DriverSpec ext A (c.isOurs ext a) fun _ => A := by
  refine .bind (ask_keeps hc hA) .true fun paired => ?_
  cases paired with
  | false => exact .pure hA.owned fun _ => id
  | true => exact .bind (ask_keeps hc hA) .true fun name => .pure hA.owned fun _ => id

omit hc in
theorem onlyIf_keeps {b : Bool} {d : α} {t : Await α} (h : DriverSpec ext A t fun _ => A) :
    DriverSpec ext A (onlyIf b d t) fun _ => A := by
  cases b with
  | false => exact .pure hA.owned fun _ => id
  | true => exact h

theorem anyConnected_keeps (l : List Address) :
    DriverSpec ext A (c.anyConnected ext l) fun _ => A := by
  induction l with
  | nil => exact .pure hA.owned fun _ => id
  | cons a rest ih =>
    refine .bind (ask_keeps hc hA) .true fun connected =>
      .bind (onlyIf_keeps hA (ask_keeps hc hA)) .true fun resolved =>
        .bind (onlyIf_keeps hA (ask_keeps hc hA)) .true fun name => ?_
    split
    · exact .pure hA.owned fun _ => id
    · exact ih

theorem checkImmurokConnected_keeps :
    DriverSpec ext A (c.checkImmurokConnected ext) fun _ => A := by
  refine .bind (deviceAddresses_keeps hc hA) .true fun r => ?_
  cases r with
  | none => exact .pure hA.owned fun _ => id
  | some addresses => exact anyConnected_keeps hc hA addresses

end

section

variable (hc : Spec.Drops ext 0 c fun _ => True)

include hc

theorem await_task {f : State → List (α × State)}
    (h : ∀ s x s', (x, s') ∈ f s → (machine ext).Follows (observed ext) (some 0) s s') :
    DriverSpec ext (fun _ => True) (c.await f) fun _ _ => True :=
  Spec.await hc .true (fun _ => .true) fun s x s' _ _ hm => ⟨h s x s' hm, trivial⟩

theorem cancelConnectOn_task :
    DriverSpec ext (fun _ => True) (c.cancelConnectOn ext a) fun _ _ => True := by
  refine .bind (ask_keeps hc true_kept) .true fun connected => ?_
  cases connected with
  | true => exact .pure .true fun _ => id
  | false =>
    refine await_task hc fun s _ s' hm => ?_
    obtain hm | hm := List.mem_pair.mp hm
    · obtain ⟨-, rfl⟩ := Prod.mk.inj hm
      rw [hc.task]
      exact (note_follows ext s (s.setLink a .idle) (.cancelled 0 a) rfl rfl pending_setLink
        (ours_setLink ext) rfl trivial).1
    · obtain ⟨-, rfl⟩ := Prod.mk.inj hm
      rw [hc.task]
      exact (unanswered_follows ext s 0).1

theorem waitResolved_task (n : Nat) :
    DriverSpec ext (fun _ => True) (c.waitResolved ext a n) fun _ _ => True := by
  induction n with
  | zero => exact ask_keeps hc true_kept
  | succ n ih =>
    refine .bind (ask_keeps hc true_kept) .true fun resolved => ?_
    cases resolved with
    | true => exact .pure .true fun _ => id
    | false =>
      refine .bind (.bind (.clock .true) .true fun now =>
        await_task hc fun s _ s' hm => ?_) .true fun _ => ih
      split at hm
      · cases List.mem_singleton.mp hm
        exact .inl .refl
      · cases hm

omit hc in
/-- The driver calls `Connect()` only after it has found the flag not set. -/
theorem callConnect_spec : DriverSpec ext Checking (callConnect ext a) fun _ _ => True := by
  refine .lift (Machine.Triple.act checking_owned (fun _ => .true) fun s begun s' _ hk hm =>
    ⟨?_, trivial⟩) fun _ => .true
  have hnot : (machine ext).Follows (observed ext) (some 0) s
      (s.note ext (.connectCalled a false)) :=
    (note_follows ext s s (.connectCalled a false) rfl rfl (by simp [View.step, State.view]) rfl rfl
      hk).1
  obtain hm | hm := List.mem_pair.mp hm
  · obtain ⟨-, rfl⟩ := Prod.mk.inj hm
    split
    next hbegun =>
      rw [hbegun]
      exact (note_follows ext s (s.setLink a .pending) (.connectCalled a true) rfl rfl
        (by simp [View.step, State.view]) (ours_setLink ext) rfl hk).1
    next hbegun =>
      rw [eq_false_of_ne_true hbegun]
      exact hnot
  · obtain ⟨-, rfl⟩ := Prod.mk.inj hm
    exact hnot

theorem connect_spec : DriverSpec ext Checking (c.connect ext a) fun _ _ => True := by
  refine .bind (.clock checking_owned) .true fun now =>
    .bind callConnect_spec .true fun begun => await_task hc fun s r s' hm => ?_
  have heq : s' = s := by
    simp only [List.mem_append] at hm
    obtain (hm | hm) | hm := hm
    all_goals
      split at hm
      · exact (Prod.mk.inj (List.mem_singleton.mp hm)).2
      · cases hm
  exact heq ▸ .inl .refl

theorem connectFirst_spec (l : List Address) :
    DriverSpec ext Checking (c.connectFirst ext l) fun _ _ => True := by
  induction l with
  | nil => exact .pure checking_owned fun _ _ => trivial
  | cons a rest ih =>
    refine .bind (isOurs_keeps hc checking_kept) .true fun ours => ?_
    cases ours with
    | false => exact ih
    | true =>
      refine .bind (ask_keeps hc checking_kept) .true fun connected =>
        .bind (onlyIf_keeps checking_kept (ask_keeps hc checking_kept)) .true fun resolved => ?_
      cases resolved with
      | true => exact .pure checking_owned fun _ _ => trivial
      | false =>
        refine .bind (ask_keeps hc checking_kept) .true fun _ =>
          .bind (connect_spec hc) .true fun r => ?_
        cases r with
        | ok => exact waitResolved_task hc 50
        | failed | timeout =>
          exact .bind (cancelConnectOn_task hc) .true fun _ => .pure .true fun _ => id

theorem tryActiveConnect_spec :
    DriverSpec ext Checking (c.tryActiveConnect ext) fun _ _ => True := by
  refine .bind (deviceAddresses_keeps hc checking_kept) .true fun r => ?_
  cases r with
  | none => exact .pure checking_owned fun _ _ => trivial
  | some addresses => exact connectFirst_spec hc addresses

theorem waitAwake_spec {k : Cadence} :
    DriverSpec ext (fun _ => True) (c.waitAwake ext k) fun _ => Checking := by
  refine Spec.repeatFrom (J := fun _ _ => True) (fun _ => .true) (fun _ => checking_owned) .true
    fun k => ?_
  have hload : DriverSpec ext (fun _ => True) (loadSuspending ext) fun b v =>
      if b then True else Checking v := by
    refine .lift (Machine.Triple.act .true (fun _ => ite_owned .true checking_owned)
      fun s b s' _ _ hm => ?_) fun _ => ite_owned .true checking_owned
    obtain ⟨rfl, rfl⟩ := Prod.mk.inj (List.mem_singleton.mp hm)
    cases hb : s.isSuspending with
    | true => exact ⟨.inl .refl, trivial⟩
    | false =>
      obtain ⟨hf, hv⟩ := note_follows ext s s .awake rfl rfl rfl rfl rfl hb
      have hk : Checking ((s.note ext .awake).view ext) := by
        rw [hv]
        rfl
      exact ⟨hf, hk⟩
  refine .bind hload .true fun suspending => ?_
  cases suspending with
  | false => exact .pure checking_owned fun _ => id
  | true =>
    refine .bind (await_task hc fun s _ s' hm => ?_) .true fun _ => .pure .true fun _ => id
    unfold notifiedBranch at hm
    split at hm
    · cases List.mem_singleton.mp hm
      exact .inl .refl
    · cases hm

theorem attempt_task {k : Cadence} :
    DriverSpec ext (fun _ => True) (c.attempt ext k) fun _ _ => True := by
  refine .bind (waitAwake_spec hc) .true fun k =>
    .bind (checkImmurokConnected_keeps hc checking_kept) .true fun connected => ?_
  cases connected with
  | true => exact .pure checking_owned fun _ _ => trivial
  | false =>
    refine .bind (tryActiveConnect_spec hc) .true fun connected => ?_
    cases connected with
    | true => exact .pure .true fun _ => id
    | false =>
      have hover : Task ext 0 (Proc.atomically fun s => (s.now, s.note ext .attemptOver)) :=
        .act fun s now s' hm => by
          cases List.mem_singleton.mp hm
          exact (note_follows ext s s .attemptOver rfl rfl rfl rfl rfl trivial).1
      refine .bind (.lift hover fun _ => .true) .true fun now => await_task hc fun s r s' hm => ?_
      obtain hm | hm := List.mem_append.mp hm
      · split at hm
        · cases List.mem_singleton.mp hm
          exact .inl .refl
        · cases hm
      · unfold notifiedBranch at hm
        split at hm
        · cases List.mem_singleton.mp hm
          exact .inl .refl
        · cases hm

theorem connectDriver_task :
    DriverSpec ext (fun _ => True) (c.connectDriver ext) fun _ _ => True :=
  Spec.repeatFrom (J := fun _ _ => True) (fun _ => .true) (fun _ => .true) .true fun k =>
    (attempt_task hc).post fun r _ _ => by cases r <;> trivial

end

/-- Droppable code that leaves nothing to be known. -/
theorem Spec.task {t : Await α} (h : Spec ext i (fun _ => True) t (fun _ _ => True) fun _ => True) :
    Task ext i t.run :=
  Machine.Triple.post h fun _ _ _ => trivial

theorem run_task : Task ext 0 (run ext) := by
  refine .loop (.bind (.modify fun s => ?_) fun _ => .bind ?_ fun _ => .ret)
  · exact (note_follows ext s s .attemptOver rfl rfl rfl rfl rfl trivial).1
  · refine .bind (Spec.task (checkImmurokConnected_keeps worker_drops true_kept)) fun r => ?_
    split
    · exact .ret
    · exact .bind (Spec.task (connectDriver_task driver_drops)) fun _ => .ret

-- ---------------------------------------------------------------------------
-- The system
-- ---------------------------------------------------------------------------

theorem envStep_follows {x : Env} {s s' : State} (h : envStep ext x s = some s') :
    (machine ext).Follows (observed ext) none s s' := by
  cases x with
  | tick d | message m =>
    cases h
    exact .inl .refl
  | established a =>
    cases h
    exact (note_follows ext s (s.setLink a (.connected false)) (.settled a) rfl rfl
      pending_setLink (ours_setLink ext) rfl trivial).1
  | dropped a =>
    cases h
    exact (note_follows ext s (s.setLink a .idle) (.settled a) rfl rfl pending_setLink
      (ours_setLink ext) rfl trivial).1
  | resolved a =>
    simp only [envStep] at h
    split at h
    next hlink =>
      cases h
      have hpending : (s.setLink a (.connected true)).pending = s.pending := by
        rw [pending_setLink, Function.update_eq_self_iff]
        cases hl : (s.device a).link with
        | connected r => simp [State.pending, hl]
        | _ => simp [hl, Link.isConnected] at hlink
      exact .inl ⟨rfl, by
        show View.mk _ _ _ _ = View.mk _ _ _ _
        rw [hpending, ours_setLink]
        rfl⟩
    next => cases h
  | list a paired name =>
    cases h
    refine (note_follows ext s (s.list a paired name) (.listed a (paired && nameMatch ext name))
      rfl rfl ?_ ?_ rfl trivial).1
    · funext b
      by_cases hb : b = a
      · subst hb
        simp [State.pending, State.list, View.step, State.view]
      · simp [State.pending, State.list, View.step, State.view, hb]
    · funext b
      by_cases hb : b = a
      · subst hb
        by_cases hm : b ∈ s.addresses <;> simp [State.ours, State.list, View.step, hm]
      · by_cases hm : a ∈ s.addresses <;>
          simp [State.ours, State.list, View.step, State.view, hb, hm]
  | forget a =>
    cases h
    refine (note_follows ext s (s.forget a) (.forgotten a) rfl rfl pending_setLink ?_ rfl
      trivial).1
    funext b
    by_cases hb : b = a
    · subst hb
      simp [State.ours, State.forget, View.step]
    · simp [State.ours, State.forget, State.setLink, View.step, State.view, hb]

theorem serves : (machine ext).Serves (observed ext) (system ext) where
  env _ _ _ h _ := envStep_follows h
  serve _ r := r.elim

theorem start_safe : ((machine ext).protocol (observed ext)).Safe (start ext) := by
  refine ⟨.nil, fun i t ht => ?_⟩
  match i with
  | 0 =>
    cases Option.some.inj ht
    exact run_task _ .nil trivial
  | 1 =>
    cases Option.some.inj ht
    exact monitor_task _ .nil trivial
  | i + 2 => cases ht

-- ---------------------------------------------------------------------------
-- Runs
-- ---------------------------------------------------------------------------

/-- The signal does not come between the driver's look at the flag and its
`Connect()`; bluetoothd answers the monitor, and neither unpairs nor renames a
device it has a `Connect()` for. -/
def orderly (v : View) : Ev → Bool
  | .flagSet true => !v.aux.checking
  | .unanswered i => i != 1
  | .connectCalled a begun => !begun || v.ours a
  | .listed a ours => !v.pending a || ours
  | _ => true

/-- No `Connect()` goes out while the system is going to sleep, and once the
monitor goes on none is left of those that were pending. -/
def Careful (v : View) : Ev → Prop
  | .connectCalled _ _ => v.isSuspending = false
  | .passOver => ∀ a, v.aux.held a = false
  | _ => True

/-- What an orderly course keeps. -/
structure InOrder (v : View) : Prop where
  awake : v.aux.checking = true → v.isSuspending = false
  pending : ∀ a, v.pending a = true → v.ours a = true
  held : ∀ a, v.aux.held a = true → v.aux.steady a = true
  answered : v.aux.unanswered = false

theorem inOrder_step (hs : Sane v) (h : InOrder v) (ha : allowed v e) (hok : orderly v e = true) :
    InOrder (v.step e) := by
  obtain ⟨hawake, hpending, hheld, hanswered⟩ := h
  cases e with
  | awake => exact ⟨fun _ => ha, hpending, hheld, hanswered⟩
  | attemptOver => exact ⟨nofun, hpending, hheld, hanswered⟩
  | passOver => exact ⟨hawake, hpending, hheld, hanswered⟩
  | connectCalled a begun =>
    refine ⟨nofun, fun b hb => ?_, hheld, hanswered⟩
    by_cases h : b = a
    · subst h
      cases begun with
      | true => exact hok
      | false => exact hpending b (by simpa [View.step] using hb)
    · exact hpending b (by simpa [View.step, h] using hb)
  | flagSet b =>
    cases b with
    | true =>
      have hnot : v.aux.checking = false := by simpa [orderly] using hok
      exact ⟨fun hk => (nomatch hnot.symm.trans hk), hpending, hpending, rfl⟩
    | false => exact ⟨fun _ => rfl, hpending, hheld, hanswered⟩
  | unanswered i =>
    refine ⟨hawake, hpending, hheld, ?_⟩
    simpa [View.step, hanswered, orderly] using hok
  | cancelled i a | settled a =>
    refine ⟨hawake, fun b hb => ?_, fun b hb => ?_, hanswered⟩
    · by_cases h : b = a
      · subst h
        simp [View.step] at hb
      · exact hpending b (by simpa [View.step, h] using hb)
    · by_cases h : b = a
      · subst h
        simp [View.step] at hb
      · exact hheld b (by simpa [View.step, h] using hb)
  | listed a ours =>
    have hours : v.pending a = true → ours = true := fun hp => by simpa [orderly, hp] using hok
    refine ⟨hawake, fun b hb => ?_, fun b hb => ?_, hanswered⟩
    · by_cases h : b = a
      · subst h
        simpa [View.step] using hours hb
      · simpa [View.step, h] using hpending b hb
    · by_cases h : b = a
      · subst h
        simpa [View.step, hours (hs.1 b hb)] using hheld b hb
      · simpa [View.step, h] using hheld b hb
  | forgotten a =>
    refine ⟨hawake, fun b hb => ?_, fun b hb => ?_, hanswered⟩
    · by_cases h : b = a
      · subst h
        simp [View.step] at hb
      · simpa [View.step, h] using hpending b (by simpa [View.step, h] using hb)
    · by_cases h : b = a
      · subst h
        simp [View.step] at hb
      · simpa [View.step, h] using hheld b (by simpa [View.step, h] using hb)

theorem Careful.of_inOrder (h : InOrder v) (ha : allowed v e) : Careful v e := by
  cases e with
  | connectCalled a begun => exact h.awake ha
  | passOver =>
    obtain hu | hl := ha
    · exact absurd (hu.symm.trans h.answered) (by decide)
    · intro a
      cases hh : v.aux.held a with
      | false => rfl
      | true => exact absurd ((hl a hh).symm.trans (h.held a hh)) (by decide)
  | _ => trivial

theorem InOrder.of_trace (h : (machine ext).Trace (fun v e => orderly v e = true) es v) :
    InOrder v := by
  have key : Sane v ∧ InOrder v := by
    refine h.invariant (I := fun _ v => Sane v ∧ InOrder v) ?_ fun _ _ _ hi ha hok => ?_
    · refine ⟨⟨fun _ => nofun, fun _ => nofun⟩, ⟨nofun, fun _ => nofun, fun _ => nofun, rfl⟩⟩
    · exact ⟨sane_step hi.1, inOrder_step hi.1 hi.2 ha hok⟩
  exact key.2

variable {cfg : Config State} {l : List Ev}

/-- Every `Connect()` and every end of a pass of an orderly run is careful. -/
theorem suspend_careful
    (h : (system ext).Run (During (observed ext) fun v e => orderly v e = true) (start ext) cfg)
    (he : (e :: l) <:+ cfg.shared.log) : Careful ((machine ext).replay l) e := by
  have ht := serves.trace start_safe rfl rfl h
  obtain ⟨u, hu, ha, -⟩ := ht.suffix he
  rw [← hu.eq_replay]
  exact .of_inOrder (.of_trace hu) ha

-- ---------------------------------------------------------------------------
-- Two runs
-- ---------------------------------------------------------------------------

/-- Task `i` takes the first outcome of each of its next `n` steps. -/
def steps (i : TaskId) (n : Nat) : List (Event Env Empty) := List.replicate n (.run i 0)

/-- The monitor reads the signal `b` and writes the flag. -/
def signal (b : Bool) : List (Event Env Empty) :=
  steps 1 4 ++ [.env (.message (some b)), .run 1 1] ++ steps 1 1

/-- A device in reach, and the driver up to before its `Connect()`. -/
def approach : List (Event Env Empty) :=
  .env (.list 7 true (some "immurok-1".toList)) :: steps 0 21

/-- The pass comes to its end just after it has cancelled a `Connect()`. -/
def cancelledLast (s : State) : Bool :=
  match s.log with
  | .passOver :: .cancelled 1 7 :: _ => true
  | _ => false

/-- A `Connect()` is cancelled in time. -/
theorem pass_careful : ∃ cfg l, (system .sample).Reach (start .sample) cfg ∧
    (.passOver :: .cancelled 1 7 :: l) <:+ cfg.shared.log ∧
      Careful ((machine .sample).replay (.cancelled 1 7 :: l)) .passOver := by
  obtain ⟨cfg, hrun, hp⟩ := System.exists_run (system .sample) (during (observed .sample) orderly)
    (start .sample) (approach ++ steps 0 1 ++ signal true ++ steps 1 9) cancelledLast
    (by decide)
  unfold cancelledLast at hp
  split at hp
  next l hl =>
    have he : (.passOver :: .cancelled 1 7 :: l) <:+ cfg.shared.log := hl ▸ List.suffix_rfl
    exact ⟨cfg, l, hrun.reach, he, suspend_careful (hrun.mono fun _ _ => During.of_check) he⟩
  next => cases hp

/-- A `Connect()` has just gone out while the flag is set. -/
def connectedLast (s : State) : Bool :=
  match s.log with
  | .connectCalled 7 true :: l => ((machine .sample).replay l).isSuspending
  | _ => false

/-- The signal comes when the driver has looked at the flag. -/
theorem connect_while_suspending : ∃ cfg e l, (system .sample).Reach (start .sample) cfg ∧
    (e :: l) <:+ cfg.shared.log ∧ ¬ Careful ((machine .sample).replay l) e := by
  obtain ⟨cfg, hrun, hp⟩ := System.exists_run (system .sample) (fun _ _ => true) (start .sample)
    (approach ++ signal true ++ steps 0 1) connectedLast (by decide)
  unfold connectedLast at hp
  split at hp
  next l hl =>
    refine ⟨cfg, .connectCalled 7 true, l, hrun.reach, hl ▸ List.suffix_rfl, fun h => ?_⟩
    exact nomatch hp.symm.trans h
  next => cases hp

end Immurok.Suspend
