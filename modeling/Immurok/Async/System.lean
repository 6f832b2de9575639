import Immurok.Async.Proc

/-!
# Pools of tasks

A system says what the outside world may do to the shared state and which
task serves a request. Its configurations are the shared state and the tasks
in flight; every interleaving is a sequence of events.
-/

namespace Async

abbrev TaskId := Nat

/-- `env e s` is the state after the outside event `e`, if it may happen in
`s`; `serve i r` is the task that serves the request `r` under the name `i`. -/
structure System (σ E R : Type) where
  env : E → σ → Option σ
  serve : TaskId → R → Proc σ Unit

structure Config (σ : Type) where
  shared : σ
  pool : TaskId → Option (Proc σ Unit)

/-- One step of an interleaving: a task takes the outcome number `n` of its
next step, the outside world acts, or a request arrives. -/
inductive Event (E R : Type)
  | run (i : TaskId) (n : Nat)
  | env (e : E)
  | spawn (i : TaskId) (r : R)

variable {σ E R : Type}

namespace System

def step (S : System σ E R) (c : Config σ) : Event E R → Option (Config σ)
  | .run i n =>
    (c.pool i).bind fun t => (t.step c.shared)[n]?.map fun (t', s') =>
      ⟨s', Function.update c.pool i (some t')⟩
  | .env e => (S.env e c.shared).map fun s' => { c with shared := s' }
  | .spawn i r =>
    if (c.pool i).isNone then some { c with pool := Function.update c.pool i (some (S.serve i r)) }
    else none

/-- The configuration after a given interleaving whose steps all pass the
check `ok`. -/
def exec (S : System σ E R) (ok : σ → σ → Bool) (c : Config σ) :
    List (Event E R) → Option (Config σ)
  | [] => some c
  | e :: es =>
    (S.step c e).bind fun c' => if ok c.shared c'.shared then S.exec ok c' es else none

/-- The configurations reached from `c₀` by runs whose steps all satisfy `ok`. -/
inductive Run (S : System σ E R) (ok : σ → σ → Prop) (c₀ : Config σ) : Config σ → Prop
  | refl : Run S ok c₀ c₀
  | step : Run S ok c₀ c → S.step c e = some c' → ok c.shared c'.shared → Run S ok c₀ c'

/-- The configurations reached by any run at all. -/
abbrev Reach (S : System σ E R) (c₀ : Config σ) : Config σ → Prop := S.Run (fun _ _ => True) c₀

variable {S : System σ E R} {ok ok' : σ → σ → Prop} {c₀ c c' : Config σ}

theorem Run.mono (h : S.Run ok c₀ c) (himp : ∀ s s', ok s s' → ok' s s') : S.Run ok' c₀ c := by
  induction h with
  | refl => exact .refl
  | step _ hs hok ih => exact ih.step hs (himp _ _ hok)

theorem Run.reach (h : S.Run ok c₀ c) : S.Reach c₀ c := h.mono fun _ _ _ => trivial

theorem Run.trans (h : S.Run ok c₀ c) (h' : S.Run ok c c') : S.Run ok c₀ c' := by
  induction h' with
  | refl => exact h
  | step _ hs hok ih => exact ih.step hs hok

theorem run_of_exec {chk : σ → σ → Bool} {es : List (Event E R)}
    (h : S.exec chk c es = some c') : S.Run (fun s s' => chk s s' = true) c c' := by
  induction es generalizing c with
  | nil =>
    cases Option.some.inj h
    exact .refl
  | cons e es ih =>
    obtain ⟨c₁, hs, he⟩ := Option.bind_eq_some_iff.mp h
    split at he
    next hok => exact (Run.refl.step hs hok).trans (ih he)
    next => cases he

/-- A configuration with the property `p` is reached. -/
theorem exists_run (S : System σ E R) (chk : σ → σ → Bool) (c : Config σ)
    (es : List (Event E R)) (p : σ → Bool)
    (h : (S.exec chk c es).any (fun c' => p c'.shared) = true) :
    ∃ c', S.Run (fun s s' => chk s s' = true) c c' ∧ p c'.shared = true := by
  obtain ⟨c', hc, hp⟩ := (Option.any_eq_true _ _).mp h
  exact ⟨c', run_of_exec hc, hp⟩

/-- What a step of a configuration is: a step of one task, of the outside
world, or a new task. -/
theorem step_cases {e : Event E R} (h : S.step c e = some c') :
    (∃ i t t', c.pool i = some t ∧ (t', c'.shared) ∈ t.step c.shared ∧
        c'.pool = Function.update c.pool i (some t')) ∨
    (∃ e, S.env e c.shared = some c'.shared ∧ c'.pool = c.pool) ∨
    (∃ i r, c.pool i = none ∧ c'.shared = c.shared ∧
        c'.pool = Function.update c.pool i (some (S.serve i r))) := by
  cases e with
  | run i n =>
    simp only [step, Option.bind_eq_some_iff, Option.map_eq_some_iff] at h
    obtain ⟨t, ht, ⟨t', s'⟩, hn, rfl⟩ := h
    exact .inl ⟨i, t, t', ht, List.mem_of_getElem? hn, rfl⟩
  | env e =>
    simp only [step, Option.map_eq_some_iff] at h
    obtain ⟨s', hs, rfl⟩ := h
    exact .inr (.inl ⟨e, hs, rfl⟩)
  | spawn i r =>
    simp only [step] at h
    split at h
    next hn =>
      cases h
      exact .inr (.inr ⟨i, r, Option.isNone_iff_eq_none.mp hn, rfl, rfl⟩)
    next => cases h

end System

end Async
