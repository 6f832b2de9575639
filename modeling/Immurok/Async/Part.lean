import Immurok.Async.Trace

/-!
# Parts of a view

A part of the view that only one task changes can be reasoned about as if the
task were alone: what holds of it between two steps of the task holds across
its waits.
-/

namespace Async.Machine

variable {σ V E W α β γ ι : Type} {M : Machine V E} {O : Observed σ V E} {i : TaskId}

/-- A part of the view that only task `i` changes. -/
structure Part (M : Machine V E) (i : TaskId) (W : Type) where
  of : V → W
  keep : ∀ v e, M.actor e ≠ some i → of (M.step v e) = of v

namespace Part

variable {p : Part M i W} {P P' : W → Prop} {Q Q' : α → W → Prop} {K : E → Prop}

theorem owned (p : Part M i W) (P : W → Prop) : M.Owned i fun v => P (p.of v) := by
  intro v e hn _ h
  show P (p.of (M.step v e))
  rwa [p.keep v e hn]

/-- A triple about the part. -/
def Triple (p : Part M i W) (O : Observed σ V E) (P : W → Prop) (t : Proc σ α)
    (Q : α → W → Prop) : Prop :=
  M.Triple O i (fun v => P (p.of v)) t fun a v => Q a (p.of v)

theorem Triple.conseq {t : Proc σ α} (h : p.Triple O P t Q) (hP : ∀ w, P' w → P w)
    (hQ : ∀ a w, Q a w → Q' a w) : p.Triple O P' t Q' :=
  Machine.Triple.conseq h (fun _ => hP _) fun _ _ => hQ _ _

theorem Triple.pre {t : Proc σ α} (h : p.Triple O P t Q) (hP : ∀ w, P' w → P w) :
    p.Triple O P' t Q :=
  h.conseq hP fun _ _ => id

theorem Triple.post {t : Proc σ α} (h : p.Triple O P t Q) (hQ : ∀ a w, Q a w → Q' a w) :
    p.Triple O P t Q' :=
  h.conseq (fun _ => id) hQ

theorem Triple.ret {a : α} (h : ∀ w, P w → Q a w) : p.Triple O P (.ret a) Q :=
  Machine.Triple.ret (p.owned P) fun _ => h _

theorem Triple.bind {t : Proc σ β} {g : β → Proc σ α} {C : β → W → Prop} (h : p.Triple O P t C)
    (hg : ∀ b, p.Triple O (C b) (g b) Q) : p.Triple O P (t.bind g) Q :=
  Machine.Triple.bind h hg

theorem Triple.ite {q : Prop} [Decidable q] {t u : Proc σ α} (ht : p.Triple O P t Q)
    (hu : p.Triple O P u Q) : p.Triple O P (if q then t else u) Q := by
  split
  · exact ht
  · exact hu

theorem Triple.act {f : σ → List (α × σ)}
    (h : ∀ s a s', M.Trace (fun _ _ => True) (O.log s) (O.view s) → P (p.of (O.view s)) →
      (a, s') ∈ f s → M.Follows O (some i) s s' ∧ Q a (p.of (O.view s'))) :
    p.Triple O P (.act f .ret) Q :=
  Machine.Triple.act (p.owned P) (fun a => p.owned (Q a)) h

theorem Triple.loop {body : Proc σ (Option α)}
    (h : p.Triple O P body fun r w => r.elim (P w) fun a => Q a w) :
    p.Triple O P (Proc.loop body) Q :=
  Machine.Triple.loop (p.owned P) (fun a => p.owned (Q a)) h

theorem Triple.iter {body : ι → Proc σ (ι ⊕ α)} {J : ι → W → Prop} {j : ι}
    (h : ∀ j, p.Triple O (J j) (body j) fun r w => r.elim (J · w) (Q · w)) :
    p.Triple O (J j) (Proc.repeatFrom j body) Q :=
  Machine.Triple.iter (fun j => p.owned (J j)) (fun a => p.owned (Q a))
    fun j => Machine.Triple.post (h j) fun r v h => by cases r <;> exact h

-- ---------------------------------------------------------------------------
-- What code leaves alone
-- ---------------------------------------------------------------------------

/-- The code leaves `P` as it is. -/
abbrev Keeps (p : Part M i W) (O : Observed σ V E) (P : W → Prop) (t : Proc σ α) : Prop :=
  p.Triple O P t fun _ => P

theorem keeps_loop {body : Proc σ (Option α)} (h : p.Keeps O P body) :
    p.Keeps O P (Proc.loop body) :=
  .loop (h.post fun r _ hp => by cases r <;> exact hp)

theorem keeps_iter {body : ι → Proc σ (ι ⊕ α)} {j : ι} (h : ∀ j, p.Keeps O P (body j)) :
    p.Keeps O P (Proc.repeatFrom j body) :=
  Triple.iter (J := fun _ => P) fun j => (h j).post fun r _ hp => by cases r <;> exact hp

theorem keeps_when {b : Bool} {t : Proc σ Unit} (h : p.Keeps O P t) :
    p.Keeps O P (Proc.when b t) := by
  unfold Proc.when
  split
  · exact h
  · exact .ret fun _ => id

/-- Code whose events leave the part alone. -/
theorem keeps_of_within {t : Proc σ α} (h : M.Within O i K t)
    (hK : ∀ v e, K e → M.allowed v e → P (p.of v) → P (p.of (M.step v e))) : p.Keeps O P t :=
  h.triple (p.owned P) hK

end Part

end Async.Machine
