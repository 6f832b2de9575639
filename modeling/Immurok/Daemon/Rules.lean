import Immurok.Daemon.Invariant

/-!
# Rules for the daemon's code

What an atomic step of the code has to do to keep to the view, and the steps
that do not touch the view at all. `Only K t` says that whatever the state,
`t` makes no events but those of the kind `K`; `WorkerTriple` is a triple over
what the worker knows.
-/

namespace Immurok

open Async Machine

variable {ext : Extern} {files : Files} {i : TaskId} {K : Ev → Prop} {s s' : Daemon} {e : Ev}
  {α β : Type}

-- ---------------------------------------------------------------------------
-- Steps
-- ---------------------------------------------------------------------------

@[simp] theorem View.act_aux (v : View) : (v.act ext e).aux = v.aux := by
  cases e <;> simp [act]
  case delivered d _ _ => cases d <;> rfl

@[simp] theorem View.act_past (v : View) : (v.act ext e).past = v.past := by
  cases e <;> simp [act]
  case delivered d _ _ => cases d <;> rfl

/-- An event is noted together with what it does. -/
theorem Daemon.note_emits (hv : s'.view = s.view.act ext e) (ha : s.view.allowed ext e) :
    (machine ext files).Emits observed e s (s'.note e) := by
  have haux : s'.aux = s.aux := by simpa [Daemon.view] using congrArg View.aux hv
  have hlog : s'.log = s.log := by simpa [Daemon.view] using congrArg View.past hv
  refine ⟨ha, ?_, ?_⟩
  · show e :: s'.log = e :: s.log
    rw [hlog]
  · show (s'.note e).view = s.view.step ext e
    calc (s'.note e).view
        = { s'.view with aux := s'.aux.step e, past := e :: s'.log } := rfl
      _ = s.view.step ext e := by rw [hv, haux, hlog]; rfl

theorem Daemon.quiet (hv : s'.view = s.view) : Machine.Quiet observed s s' :=
  ⟨congrArg View.past hv, hv⟩

-- ---------------------------------------------------------------------------
-- Code that does not look at what it changes
-- ---------------------------------------------------------------------------

/-- The events `t` makes as task `i`, in whatever state, are of the kind `K`. -/
abbrev Only (ext : Extern) (files : Files) (i : TaskId) (K : Ev → Prop) (t : Code α) : Prop :=
  (machine ext files).Within observed i K t

theorem only_quiet {f : Daemon → List (α × Daemon)}
    (h : ∀ s a s', (a, s') ∈ f s → s'.view = s.view) : Only ext files i K (.act f .ret) :=
  .quiet fun s a s' hm => Daemon.quiet (h s a s' hm)

theorem get_only {f : Daemon → α} : Only ext files i K (Proc.get f) :=
  only_quiet fun s a s' hm => by
    simp only [List.mem_singleton, Prod.mk.injEq] at hm
    rw [hm.2]

theorem modify_only {f : Daemon → Daemon}
    (hf : ∀ s, (f s).view = s.view) :
    Only ext files i K (Proc.modify f) :=
  only_quiet fun s a s' hm => by
    simp only [List.mem_singleton, Prod.mk.injEq] at hm
    rw [hm.2, hf]

theorem atomically_only {f : Daemon → α × Daemon} (hf : ∀ s, (f s).2.view = s.view) :
    Only ext files i K (Proc.atomically f) :=
  only_quiet fun s a s' hm => by
    rw [List.mem_singleton] at hm
    rw [← hf s, ← hm]

theorem await_only {f : Daemon → Option (α × Daemon)}
    (hf : ∀ s a s', f s = some (a, s') → s'.view = s.view) : Only ext files i K (Proc.await f) :=
  only_quiet fun s a s' hm => hf s a s' (by simpa using hm)

theorem choose_only {as : List α} : Only ext files i K (Proc.choose as : Code α) :=
  only_quiet fun s a s' hm => by
    simp only [List.mem_map, Prod.mk.injEq] at hm
    obtain ⟨_, _, _, rfl⟩ := hm
    rfl

theorem select_only {branches : List (Daemon → Option (α × Daemon))}
    (h : ∀ f ∈ branches, ∀ s a s', f s = some (a, s') → s'.view = s.view) :
    Only ext files i K (Proc.select branches) :=
  only_quiet fun s a s' hm => by
    simp only [List.mem_filterMap] at hm
    obtain ⟨f, hf, hs⟩ := hm
    exact h f hf s a s' hs

theorem load_only {f : Coordinator → α} : Only ext files i K (load f) := get_only

theorem store_only {f : Coordinator → Coordinator}
    (hf : ∀ s : Daemon, { s with coord := f s.coord }.view = s.view) :
    Only ext files i K (store f) := modify_only hf

theorem clock_only : Only ext files i K clock := get_only

-- ---------------------------------------------------------------------------
-- The worker
-- ---------------------------------------------------------------------------

/-- What the worker knows, which nobody else changes. -/
def workerPart (ext : Extern) (files : Files) : Part (machine ext files) 0 WorkerAux where
  of := View.worker
  keep v e h := by
    show (v.step ext e).worker = v.worker
    rw [View.worker_step, if_neg (show e.actor ≠ some 0 from h)]

/-- A triple over what the worker knows. -/
abbrev WorkerTriple (ext : Extern) (files : Files) (P : WorkerAux → Prop) (t : Code α)
    (Q : α → WorkerAux → Prop) : Prop :=
  (workerPart ext files).Triple observed P t Q

abbrev Keeps (ext : Extern) (files : Files) (P : WorkerAux → Prop) (t : Code α) : Prop :=
  WorkerTriple ext files P t fun _ => P

section
variable {P : WorkerAux → Prop} {Q : α → WorkerAux → Prop}

theorem worker_act {f : Daemon → List (α × Daemon)}
    (h : ∀ s a s', s.view.Waits → s.view.Answers → P s.aux.worker → (a, s') ∈ f s →
      (machine ext files).Follows observed (some 0) s s' ∧ Q a s'.aux.worker) :
    WorkerTriple ext files P (.act f .ret) Q := by
  refine .act fun s a s' ht hp hm => ?_
  obtain ⟨hw, ha⟩ := View.waiting ht
  exact h s a s' hw ha hp hm

/-- An event of the worker, and what it learns from it. -/
theorem Daemon.follows_worker (hv : s'.view = s.view.act ext e) (ha : s.view.allowed ext e)
    (he : e.actor = some 0) :
    (machine ext files).Follows observed (some 0) s (s'.note e) ∧
      (s'.note e).aux.worker = s.aux.worker.step s.aux.client e := by
  have hem : (machine ext files).Emits observed e s (s'.note e) := Daemon.note_emits hv ha
  refine ⟨.inr ⟨e, he, hem⟩, ?_⟩
  have hv' : (s'.note e).view = s.view.step ext e := hem.2.2
  calc (s'.note e).aux.worker
      = (s.view.step ext e).worker := congrArg View.worker hv'
    _ = s.aux.worker.step s.aux.client e := by rw [View.worker_step, if_pos he]; rfl

theorem worker_note {g : Daemon → Daemon} {ev : Daemon → Ev} {Q : Unit → WorkerAux → Prop}
    (he : ∀ s, (ev s).actor = some 0)
    (hv : ∀ s : Daemon, (g s).view = s.view.act ext (ev s))
    (h : ∀ s : Daemon, s.view.Waits → P s.aux.worker →
      s.view.allowed ext (ev s) ∧ Q () (s.aux.worker.step s.aux.client (ev s))) :
    WorkerTriple ext files P (Proc.modify fun s => (g s).note (ev s)) Q := by
  refine worker_act fun s a s' hw _ hp hm => ?_
  obtain rfl : s' = (g s).note (ev s) := by simpa using hm
  obtain ⟨ha, hq⟩ := h s hw hp
  obtain ⟨hf, hx⟩ := Daemon.follows_worker (hv s) ha (he s)
  exact ⟨hf, hx ▸ hq⟩

/-- A branch of the worker's `select` that is ready. -/
theorem worker_select {branches : List (Daemon → Option (α × Daemon))}
    (h : ∀ f ∈ branches, ∀ s a s', s.view.Waits → s.view.Answers → P s.aux.worker →
      f s = some (a, s') →
      (machine ext files).Follows observed (some 0) s s' ∧ Q a s'.aux.worker) :
    WorkerTriple ext files P (Proc.select branches) Q := by
  refine worker_act fun s a s' hw ha hp hm => ?_
  simp only [List.mem_filterMap] at hm
  obtain ⟨f, hf, hs⟩ := hm
  exact h f hf s a s' hw ha hp hs

/-- Code that makes no events. -/
theorem Only.silent {t : Code α} (h : Only ext files 0 (fun _ => False) t) :
    Keeps ext files P t :=
  Part.keeps_of_within h fun _ _ hk => hk.elim

end

end Immurok
