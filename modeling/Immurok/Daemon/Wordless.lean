import Immurok.Daemon.Handlers

/-!
# What is said on the connections

Only the task of a connection writes to its peer, and only where a handler has
come to an answer. Every other step of the daemon leaves what was written to
each peer as it was, and what each peer has sent as well, save that a
connection reads its own.
-/

namespace Immurok

open Async

/-- Nothing is written, and only connection `i` may have read. -/
structure Daemon.Wordless (i : TaskId) (s s' : Daemon) : Prop where
  outbox : ∀ j, (s'.socket j).outbox = (s.socket j).outbox
  inbox : ∀ j, j ≠ i → (s'.socket j).inbox = (s.socket j).inbox
  own : (s'.socket i).inbox <:+ (s.socket i).inbox
  log : s.log <:+ s'.log

/-- No step of the code writes to a peer. -/
abbrev Mute (i : TaskId) (t : Code α) : Prop := Proc.Every (Daemon.Wordless i) t

variable {ext : Extern} {i : TaskId} {s s' : Daemon} {f : Frame} {α β : Type}

-- ---------------------------------------------------------------------------
-- Steps
-- ---------------------------------------------------------------------------

namespace Daemon.Wordless

theorem silent (hs : s'.socket = s.socket) (hl : s.log <:+ s'.log) : s.Wordless i s' where
  outbox _ := by rw [hs]
  inbox _ _ := by rw [hs]
  own := by simp only [hs, List.suffix_refl]
  log := hl

theorem refl (s : Daemon) : s.Wordless i s := silent rfl (List.suffix_refl _)

theorem of_eq (h : s' = s) : s.Wordless i s' := h.symm ▸ refl s

theorem event {e : Ev} (hs : s'.socket = s.socket) (hl : s'.log = e :: s.log) : s.Wordless i s' :=
  silent hs (hl ▸ List.suffix_cons e s.log)

theorem updateSocket {g : Socket → Socket} (ho : (g (s.socket i)).outbox = (s.socket i).outbox)
    (hin : (g (s.socket i)).inbox <:+ (s.socket i).inbox) : s.Wordless i (s.updateSocket i g) where
  outbox j := by
    by_cases hj : j = i
    · subst hj
      simpa [Daemon.updateSocket] using ho
    · simp [Daemon.updateSocket, Function.update_of_ne hj]
  inbox j hj := by simp [Daemon.updateSocket, Function.update_of_ne hj]
  own := by simpa [Daemon.updateSocket] using hin
  log := List.suffix_refl _

end Daemon.Wordless

end Immurok
