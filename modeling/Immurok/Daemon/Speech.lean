import Immurok.Daemon.Wordless

/-!
# Who speaks on a connection

A connection writes to its own peer and to no other, and the worker to none.
-/

namespace Immurok

open Async

/-- Only connection `i` may have read or written. -/
structure Daemon.Spoke (i : TaskId) (s s' : Daemon) : Prop where
  outbox : ∀ j, j ≠ i → (s'.socket j).outbox = (s.socket j).outbox
  inbox : ∀ j, j ≠ i → (s'.socket j).inbox = (s.socket j).inbox
  own : (s'.socket i).inbox <:+ (s.socket i).inbox
  log : s.log <:+ s'.log

/-- The code writes to no other peer. -/
abbrev Speaks (i : TaskId) (t : Code α) : Prop := Proc.Every (Daemon.Spoke i) t

variable {ext : Extern} {i : TaskId} {s s' : Daemon} {f : Frame} {α β : Type}

theorem Daemon.Wordless.spoke (h : s.Wordless i s') : s.Spoke i s' :=
  ⟨fun j _ => h.outbox j, h.inbox, h.own, h.log⟩

namespace Daemon.Spoke

theorem refl (s : Daemon) : s.Spoke i s := (Wordless.refl s).spoke

theorem event {e : Ev} (hs : s'.socket = s.socket) (hl : s'.log = e :: s.log) : s.Spoke i s' :=
  (Wordless.event hs hl).spoke

theorem updateSocket {g : Socket → Socket} (hin : (g (s.socket i)).inbox <:+ (s.socket i).inbox) :
    s.Spoke i (s.updateSocket i g) where
  outbox j hj := by simp [Daemon.updateSocket, Function.update_of_ne hj]
  inbox j hj := by simp [Daemon.updateSocket, Function.update_of_ne hj]
  own := by simpa [Daemon.updateSocket] using hin
  log := List.suffix_refl _

end Daemon.Spoke

-- ---------------------------------------------------------------------------
-- Long connections
-- ---------------------------------------------------------------------------

end Immurok
