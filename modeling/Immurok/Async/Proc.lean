import Mathlib.Logic.Function.Basic

/-!
# Tasks over a shared state

An asynchronous task is a tree of atomic steps over a state it shares with
other tasks. Between two atomic steps anything may happen to the state; a
step whose list of outcomes is empty is waiting. `Async.System` runs a pool
of tasks, `Async.Logic` reasons about one task against what the others do.
-/

namespace Async

/-- A task over shared states `σ` with a result in `α`: finished, before an
atomic step with the possible outcomes `f s`, or in a loop whose body says
with `.inl` to go round again and with `.inr` to leave. -/
inductive Proc (σ : Type) : Type → Type 1
  | ret {α : Type} (a : α) : Proc σ α
  | act {α β : Type} (f : σ → List (β × σ)) (k : β → Proc σ α) : Proc σ α
  | iter {α ι β : Type} (body : ι → Proc σ (ι ⊕ β)) (i : ι) (k : β → Proc σ α) : Proc σ α

namespace Proc

variable {σ α β γ ι : Type}

def bind : Proc σ α → (α → Proc σ β) → Proc σ β
  | .ret a, g => g a
  | .act f k, g => .act f fun b => (k b).bind g
  | .iter body i k, g => .iter body i fun b => (k b).bind g

instance : Monad (Proc σ) where
  pure := .ret
  bind := bind

@[simp] theorem pure_eq (a : α) : (pure a : Proc σ α) = .ret a := rfl

@[simp] theorem bind_eq (t : Proc σ α) (g : α → Proc σ β) : t >>= g = t.bind g := rfl

@[simp] theorem ret_bind (a : α) (g : α → Proc σ β) : (Proc.ret a).bind g = g a := rfl

theorem bind_ret (t : Proc σ α) : t.bind .ret = t := by
  induction t with
  | ret a => rfl
  | act f k ih => simp only [bind, ih]
  | iter body i k _ ih => simp only [bind, ih]

theorem bind_bind (t : Proc σ α) (g : α → Proc σ β) (h : β → Proc σ γ) :
    (t.bind g).bind h = t.bind fun a => (g a).bind h := by
  induction t with
  | ret a => rfl
  | act f k ih => simp only [bind, ih]
  | iter body i k _ ih => simp only [bind, ih]

instance : LawfulMonad (Proc σ) := LawfulMonad.mk' _ bind_ret (fun _ _ => rfl) bind_bind

-- ---------------------------------------------------------------------------
-- Atomic steps
-- ---------------------------------------------------------------------------

/-- The state read through `f`. -/
def get (f : σ → α) : Proc σ α := .act (fun s => [(f s, s)]) .ret

/-- The state replaced by `f` of it. -/
def modify (f : σ → σ) : Proc σ Unit := .act (fun s => [((), f s)]) .ret

/-- Read and write as one step. -/
def atomically (f : σ → α × σ) : Proc σ α := .act (fun s => [f s]) .ret

/-- Waits until `f` has an answer. -/
def await (f : σ → Option (α × σ)) : Proc σ α := .act (fun s => (f s).toList) .ret

/-- Any one of `as`: what the code learns from outside the state. -/
def choose (as : List α) : Proc σ α := .act (fun s => as.map fun a => (a, s)) .ret

/-- Waits for several things at once and takes any branch that is ready. -/
def select (branches : List (σ → Option (α × σ))) : Proc σ α :=
  .act (fun s => branches.filterMap fun f => f s) .ret

def when (b : Bool) (t : Proc σ Unit) : Proc σ Unit := if b then t else .ret ()

/-- A loop without a loop variable: `none` goes round again. -/
def loop (body : Proc σ (Option β)) : Proc σ β :=
  .iter (fun _ : Unit => body.bind fun r => .ret (r.elim (.inl ()) .inr)) () .ret

/-- A loop with a loop variable. -/
def repeatFrom (i : ι) (body : ι → Proc σ (ι ⊕ β)) : Proc σ β := .iter body i .ret

/-- The round of a loop from which it is decided whether to go on. -/
def resume (body : ι → Proc σ (ι ⊕ β)) (k : β → Proc σ α) : ι ⊕ β → Proc σ α
  | .inl j => .iter body j k
  | .inr b => k b

/-- What a task may do next: each outcome of its first atomic step. Entering a
round of a loop is a step that leaves the state alone. -/
def step : Proc σ α → σ → List (Proc σ α × σ)
  | .ret _, _ => []
  | .act f k, s => (f s).map fun p => (k p.1, p.2)
  | .iter body i k, s => [((body i).bind (resume body k), s)]

end Proc

end Async
