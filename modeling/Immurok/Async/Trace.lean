import Immurok.Async.Logic

/-!
# Machines and traces

A machine says which events may happen and what each of them does to a view
of the shared state. A task follows the machine when each of its steps is
either invisible in the view or an event the machine allows it. What is true
of every trace of the machine is then true of every run of the tasks.
-/

namespace Async

/-- From `init`, the event `e` may happen in the view `v` if `allowed v e`, and
`step v e` is the next view. `actor e` is the task that makes it happen,
`none` for the outside world. -/
structure Machine (V E : Type) where
  init : V
  step : V → E → V
  actor : E → Option TaskId
  allowed : V → E → Prop

/-- What a shared state shows: a view and the events so far, newest first. -/
structure Observed (σ V E : Type) where
  view : σ → V
  log : σ → List E

variable {σ V E α β γ ι : Type}

namespace Machine

/-- The traces of `M` whose events all satisfy `ok`. -/
inductive Trace (M : Machine V E) (ok : V → E → Prop) : List E → V → Prop
  | nil : Trace M ok [] M.init
  | cons : Trace M ok es v → M.allowed v e → ok v e → Trace M ok (e :: es) (M.step v e)

/-- What the tasks other than `i`, and the outside world, can do. -/
inductive Drift (M : Machine V E) (i : TaskId) (l : List E) (v : V) : List E → V → Prop
  | refl : Drift M i l v l v
  | step : Drift M i l v l' v' → M.actor e ≠ some i → M.allowed v' e →
      Drift M i l v (e :: l') (M.step v' e)

variable {M : Machine V E} {O : Observed σ V E} {ok ok' : V → E → Prop} {v v' : V}
  {es l l' l'' : List E} {e : E} {i j : TaskId} {s s' : σ}

theorem Trace.mono (h : M.Trace ok es v) (himp : ∀ v e, ok v e → ok' v e) :
    M.Trace ok' es v := by
  induction h with
  | nil => exact .nil
  | cons _ ha hok ih => exact ih.cons ha (himp _ _ hok)

/-- An invariant of all traces: of the first view, and kept by every allowed
event. -/
theorem Trace.invariant {I : List E → V → Prop} (h : M.Trace ok es v) (h₀ : I [] M.init)
    (hstep : ∀ es v e, I es v → M.allowed v e → ok v e → I (e :: es) (M.step v e)) : I es v := by
  induction h with
  | nil => exact h₀
  | cons _ ha hok ih => exact hstep _ _ _ ih ha hok

/-- Where an event of a trace happened. -/
theorem Trace.at (h : M.Trace ok es v) (he : es = l ++ e :: l') :
    ∃ u, M.Trace ok l' u ∧ M.allowed u e ∧ ok u e := by
  induction h generalizing l with
  | nil => simp at he
  | cons ht ha hok ih =>
    cases l with
    | nil =>
      obtain ⟨rfl, rfl⟩ := List.cons.inj he
      exact ⟨_, ht, ha, hok⟩
    | cons _ l => exact ih (List.cons.inj he).2

theorem Trace.of_mem (h : M.Trace ok es v) (he : e ∈ es) :
    ∃ l l' u, es = l ++ e :: l' ∧ M.Trace ok l' u ∧ M.allowed u e ∧ ok u e := by
  obtain ⟨l, l', rfl⟩ := List.append_of_mem he
  obtain ⟨u, hu⟩ := h.at rfl
  exact ⟨l, l', u, rfl, hu⟩

/-- What an event of a trace came after. -/
theorem Trace.suffix (h : M.Trace ok es v) (he : (e :: l) <:+ es) :
    ∃ u, M.Trace ok l u ∧ M.allowed u e ∧ ok u e := by
  obtain ⟨l', he⟩ := he
  exact h.at he.symm

theorem Drift.trans (h : M.Drift i l v l' v') {v'' : V} (h' : M.Drift i l' v' l'' v'') :
    M.Drift i l v l'' v'' := by
  induction h' with
  | refl => exact h
  | step _ ha hok ih => exact ih.step ha hok

-- ---------------------------------------------------------------------------
-- Steps of tasks
-- ---------------------------------------------------------------------------

/-- A step that cannot be seen. -/
def Quiet (O : Observed σ V E) (s s' : σ) : Prop := O.log s' = O.log s ∧ O.view s' = O.view s

/-- A step that is the event `e`. -/
def Emits (M : Machine V E) (O : Observed σ V E) (e : E) (s s' : σ) : Prop :=
  M.allowed (O.view s) e ∧ O.log s' = e :: O.log s ∧ O.view s' = M.step (O.view s) e

/-- A step the machine allows to `a`. -/
def Follows (M : Machine V E) (O : Observed σ V E) (a : Option TaskId) (s s' : σ) : Prop :=
  Quiet O s s' ∨ ∃ e, M.actor e = a ∧ M.Emits O e s s'

/-- The protocol of following `M`. -/
def protocol (M : Machine V E) (O : Observed σ V E) : Protocol σ where
  inv s := M.Trace (fun _ _ => True) (O.log s) (O.view s)
  rely i s s' := M.Drift i (O.log s) (O.view s) (O.log s') (O.view s')
  guar i s s' := M.Follows O (some i) s s'
  rely_refl _ _ := .refl
  rely_trans _ _ _ _ h h' := h.trans h'

theorem Quiet.refl : Quiet O s s := ⟨rfl, rfl⟩

theorem Follows.trace {a : Option TaskId} (h : M.Follows O a s s')
    (ht : M.Trace ok (O.log s) (O.view s))
    (hok : ∀ e, M.Emits O e s s' → ok (O.view s) e) : M.Trace ok (O.log s') (O.view s') := by
  obtain ⟨hl, hv⟩ | ⟨e, -, he⟩ := h
  · rw [hl, hv]
    exact ht
  · have hok := hok e he
    obtain ⟨ha, hl, hv⟩ := he
    rw [hl, hv]
    exact ht.cons ha hok

theorem Follows.drift {a : Option TaskId} (h : M.Follows O a s s') (ha : a ≠ some j) :
    M.Drift j (O.log s) (O.view s) (O.log s') (O.view s') := by
  obtain ⟨hl, hv⟩ | ⟨e, rfl, hal, hl, hv⟩ := h
  · rw [hl, hv]
    exact .refl
  · rw [hl, hv]
    exact Drift.refl.step ha hal

-- ---------------------------------------------------------------------------
-- Triples over views
-- ---------------------------------------------------------------------------

/-- Only task `i` can make `A` false. -/
def Owned (M : Machine V E) (i : TaskId) (A : V → Prop) : Prop :=
  ∀ v e, M.actor e ≠ some i → M.allowed v e → A v → A (M.step v e)

/-- Started in a view with `A`, the task follows `M`, and where it ends `B`
holds of its result and the view. -/
def Triple (M : Machine V E) (O : Observed σ V E) (i : TaskId) (A : V → Prop)
    (t : Proc σ α) (B : α → V → Prop) : Prop :=
  (M.protocol O).Triple i (fun s => A (O.view s)) t fun a s => B a (O.view s)

variable {A A' : V → Prop} {B B' : α → V → Prop}

theorem Owned.stable (h : M.Owned i A) :
    (M.protocol O).Stable i fun s => A (O.view s) := by
  intro s s' ha hr _
  have key : ∀ {l' v'}, M.Drift i (O.log s) (O.view s) l' v' → A v' := by
    intro l' v' hd
    induction hd with
    | refl => exact ha
    | step _ he hal ih => exact h _ _ he hal ih
  exact key hr

theorem Owned.true : M.Owned i fun _ => True := fun _ _ _ _ _ => trivial

theorem Owned.and (h : M.Owned i A) (h' : M.Owned i A') : M.Owned i fun v => A v ∧ A' v :=
  fun v e hn hal ⟨ha, ha'⟩ => ⟨h v e hn hal ha, h' v e hn hal ha'⟩

theorem Owned.const {p : Prop} : M.Owned i fun _ => p := fun _ _ _ _ h => h

theorem Owned.exists {A : ι → V → Prop} (h : ∀ j, M.Owned i (A j)) :
    M.Owned i fun v => ∃ j, A j v :=
  fun v e hn hal ⟨j, hj⟩ => ⟨j, h j v e hn hal hj⟩

theorem Triple.conseq {t : Proc σ α} (h : M.Triple O i A t B)
    (hA : ∀ v, A' v → A v) (hB : ∀ a v, B a v → B' a v) : M.Triple O i A' t B' :=
  Protocol.Triple.conseq h (fun _ _ => hA _) fun _ _ _ => hB _ _

theorem Triple.post {t : Proc σ α} (h : M.Triple O i A t B)
    (hB : ∀ a v, B a v → B' a v) : M.Triple O i A t B' :=
  h.conseq (fun _ => id) hB

theorem Triple.pre {t : Proc σ α} (h : M.Triple O i A t B) (hA : ∀ v, A' v → A v) :
    M.Triple O i A' t B :=
  h.conseq hA fun _ _ => id

theorem Triple.ret {a : α} (hA : M.Owned i A) (h : ∀ v, A v → B a v) :
    M.Triple O i A (.ret a) B :=
  Protocol.Triple.ret hA.stable fun _ _ => h _

theorem Triple.bind {t : Proc σ α} {g : α → Proc σ β} {C : α → V → Prop} {B : β → V → Prop}
    (h : M.Triple O i A t C) (hg : ∀ a, M.Triple O i (C a) (g a) B) :
    M.Triple O i A (t.bind g) B :=
  Protocol.Triple.bind h hg

/-- One atomic step: each outcome follows the machine and establishes `B`. -/
theorem Triple.act {f : σ → List (α × σ)} (hA : M.Owned i A) (hB : ∀ a, M.Owned i (B a))
    (hstep : ∀ s a s', M.Trace (fun _ _ => True) (O.log s) (O.view s) → A (O.view s) →
      (a, s') ∈ f s → M.Follows O (some i) s s' ∧ B a (O.view s')) :
    M.Triple O i A (.act f .ret) B := by
  refine Protocol.Triple.act hA.stable (M := fun a s => B a (O.view s)) ?_ fun a => ?_
  · intro s a s' hi ha hm
    obtain ⟨hf, hb⟩ := hstep s a s' hi ha hm
    exact ⟨hf, hf.trace hi fun _ _ => trivial, hb⟩
  · exact Protocol.Triple.ret (hB a).stable fun _ _ => id

theorem Triple.iter {body : ι → Proc σ (ι ⊕ α)} {J : ι → V → Prop} {j : ι}
    (hJ : ∀ j, M.Owned i (J j)) (hB : ∀ a, M.Owned i (B a))
    (hbody : ∀ j, M.Triple O i (J j) (body j) fun
      | .inl j' => J j'
      | .inr a => B a) : M.Triple O i (J j) (Proc.repeatFrom j body) B := by
  refine Protocol.Triple.iter (J := fun j s => J j (O.view s)) (M := fun a s => B a (O.view s))
    (fun j => (hJ j).stable) (fun j => ?_) fun a => ?_
  · refine Protocol.Triple.post (hbody j) ?_
    rintro (j' | a) s - h
    · exact h
    · exact h
  · exact Protocol.Triple.ret (hB a).stable fun _ _ => id

theorem Triple.loop {body : Proc σ (Option α)} {B : α → V → Prop} (hA : M.Owned i A)
    (hB : ∀ a, M.Owned i (B a))
    (hbody : M.Triple O i A body fun r v => r.elim (A v) fun a => B a v) :
    M.Triple O i A (Proc.loop body) B := by
  have hr : ∀ (r : Option α), M.Owned i fun v => r.elim (A v) fun a => B a v := by
    rintro (_ | a)
    · exact hA
    · exact hB a
  refine Triple.iter (J := fun _ => A) (fun _ => hA) hB fun _ => ?_
  refine Triple.bind hbody fun r => Triple.ret (hr r) ?_
  rintro v h
  cases r with
  | none => exact h
  | some a => exact h

-- ---------------------------------------------------------------------------
-- Tasks without preconditions
-- ---------------------------------------------------------------------------

/-- A step that cannot be seen, or an event of the kind `K` by task `i`. -/
def Makes (M : Machine V E) (O : Observed σ V E) (i : TaskId) (K : E → Prop) (s s' : σ) : Prop :=
  Quiet O s s' ∨ ∃ e, M.actor e = some i ∧ K e ∧ M.Emits O e s s'

/-- Whatever the state, every step of `t` is invisible or an event of the kind
`K` that the machine allows to task `i`. -/
def Within (M : Machine V E) (O : Observed σ V E) (i : TaskId) (K : E → Prop) :
    {α : Type} → Proc σ α → Prop
  | _, .ret _ => True
  | _, .act f k =>
    (∀ s a s', (a, s') ∈ f s → M.Makes O i K s s') ∧ ∀ a, M.Within O i K (k a)
  | _, .iter body _ k => (∀ j, M.Within O i K (body j)) ∧ ∀ a, M.Within O i K (k a)

variable {K K' : E → Prop}

theorem Within.ret {a : α} : M.Within O i K (.ret a : Proc σ α) := trivial

theorem Within.bind {t : Proc σ α} {g : α → Proc σ β} (h : M.Within O i K t)
    (hg : ∀ a, M.Within O i K (g a)) : M.Within O i K (t.bind g) := by
  induction t with
  | ret a => exact hg a
  | act f k ih => exact ⟨h.1, fun a => ih a (h.2 a) hg⟩
  | iter body j k _ ih => exact ⟨h.1, fun a => ih a (h.2 a) hg⟩

theorem Within.repeatFrom {body : ι → Proc σ (ι ⊕ α)} {j : ι}
    (h : ∀ j, M.Within O i K (body j)) : M.Within O i K (Proc.repeatFrom j body) :=
  ⟨h, fun _ => trivial⟩

theorem Within.loop {body : Proc σ (Option α)} (h : M.Within O i K body) :
    M.Within O i K (Proc.loop body) :=
  .repeatFrom fun _ => .bind h fun _ => trivial

theorem Within.act {f : σ → List (α × σ)}
    (h : ∀ s a s', (a, s') ∈ f s → M.Makes O i K s s') : M.Within O i K (.act f .ret) :=
  ⟨h, fun _ => trivial⟩

theorem Within.quiet {f : σ → List (α × σ)} (h : ∀ s a s', (a, s') ∈ f s → Quiet O s s') :
    M.Within O i K (.act f .ret) :=
  .act fun s a s' hm => .inl (h s a s' hm)

theorem Within.map {t : Proc σ α} {g : α → β} (h : M.Within O i K t) :
    M.Within O i K (g <$> t) :=
  .bind h fun _ => .ret

theorem Within.when {b : Bool} {t : Proc σ Unit} (h : M.Within O i K t) :
    M.Within O i K (Proc.when b t) := by
  unfold Proc.when
  split
  · exact h
  · exact .ret

theorem Within.ite {p : Prop} [Decidable p] {t u : Proc σ α} (ht : M.Within O i K t)
    (hu : M.Within O i K u) : M.Within O i K (if p then t else u) := by
  split
  · exact ht
  · exact hu

theorem Within.mono {t : Proc σ α} (h : M.Within O i K t) (himp : ∀ e, K e → K' e) :
    M.Within O i K' t := by
  induction t with
  | ret a => trivial
  | act f k ih =>
    refine ⟨fun s a s' hm => ?_, fun a => ih a (h.2 a)⟩
    exact (h.1 s a s' hm).imp_right fun ⟨e, ha, hk, he⟩ => ⟨e, ha, himp e hk, he⟩
  | iter body j k ihb ihk => exact ⟨fun j => ihb j (h.1 j), fun a => ihk a (h.2 a)⟩

/-- A task without preconditions keeps what its kind of events keeps. -/
theorem Within.triple {t : Proc σ α} (h : M.Within O i K t) (hA : M.Owned i A)
    (hK : ∀ v e, K e → M.allowed v e → A v → A (M.step v e)) :
    M.Triple O i A t fun _ => A := by
  have hact {s s' : σ} : M.Makes O i K s s' → A (O.view s) →
      M.Follows O (some i) s s' ∧ A (O.view s') := by
    rintro (hq | ⟨e, ha, hk, he⟩) hav
    · exact ⟨.inl hq, hq.2 ▸ hav⟩
    · exact ⟨.inr ⟨e, ha, he⟩, he.2.2 ▸ hK _ e hk he.1 hav⟩
  induction t with
  | ret a => exact .ret hA fun _ => id
  | act f k ih =>
    refine Protocol.Triple.act hA.stable (M := fun _ s => A (O.view s)) ?_ fun a => ih a (h.2 a)
    intro s a s' hi hav hm
    obtain ⟨hf, hav'⟩ := hact (h.1 s a s' hm) hav
    exact ⟨hf, hf.trace hi fun _ _ => trivial, hav'⟩
  | iter body j k ihb ihk =>
    refine Protocol.Triple.iter (J := fun _ s => A (O.view s)) (M := fun _ s => A (O.view s))
      (fun _ => hA.stable) (fun j => ?_) fun a => ihk a (h.2 a)
    refine Protocol.Triple.post (ihb j (h.1 j)) ?_
    rintro (j' | b) s - h
    · exact h
    · exact h

-- ---------------------------------------------------------------------------
-- Systems
-- ---------------------------------------------------------------------------

variable {R X : Type}

/-- Every task a system serves and the outside world follow the machine. -/
structure Serves (M : Machine V E) (O : Observed σ V E) (S : System σ X R) : Prop where
  env : ∀ x s s', S.env x s = some s' → M.Trace (fun _ _ => True) (O.log s) (O.view s) →
    M.Follows O none s s'
  serve : ∀ i r, M.Triple O i (fun _ => True) (S.serve i r) fun _ _ => True

variable {S : System σ X R} {c₀ c : Config σ}

theorem Serves.sound (h : M.Serves O S) : (M.protocol O).Sound S where
  guar_refl _ _ := .inl .refl
  guar_rely _ _ _ _ hij _ hg := hg.drift (by simpa using hij)
  env x s s' hi hx :=
    have hf := h.env x s s' hx hi
    ⟨hf.trace hi fun _ _ => trivial, fun _ => hf.drift (by simp)⟩
  serve := h.serve

/-- A condition on events as a condition on the steps of a run. -/
def During (O : Observed σ V E) (cond : V → E → Prop) (s s' : σ) : Prop :=
  ∀ e, O.log s' = e :: O.log s → cond (O.view s) e

/-- A condition on steps that can be checked, for one given as a check on
events. -/
def during (O : Observed σ V E) (cond : V → E → Bool) (s s' : σ) : Bool :=
  (O.log s').length == (O.log s).length || (O.log s').head?.all (cond (O.view s))

theorem During.of_check {cond : V → E → Bool} (h : during O cond s s' = true) :
    During O (fun v e => cond v e = true) s s' := by
  intro e he
  simpa [during, he] using h

/-- A run whose steps meet a condition is seen as a trace whose events do. -/
theorem Serves.trace (h : M.Serves O S) {cond : V → E → Prop}
    (h₀ : (M.protocol O).Safe c₀) (hl : O.log c₀.shared = []) (hv : O.view c₀.shared = M.init)
    (hr : S.Run (During O cond) c₀ c) : M.Trace cond (O.log c.shared) (O.view c.shared) := by
  refine h.sound.invariant h₀ (I := fun s => M.Trace cond (O.log s) (O.view s)) ?_ ?_ hr
  · rw [hl, hv]
    exact .nil
  · rintro s s' hi - hok hm ht
    have hf : ∃ a, M.Follows O a s s' := by
      obtain ⟨i, hg⟩ | ⟨x, hx⟩ := hm
      · exact ⟨some i, hg⟩
      · exact ⟨none, h.env x s s' hx hi⟩
    obtain ⟨a, hf⟩ := hf
    exact hf.trace ht fun e he => hok e he.2.1

end Machine

end Async
