import Mathlib.Data.List.Infix
import Immurok.Async.Fresh
import Immurok.Async.Within
import Immurok.Daemon.Lines
import Immurok.Daemon.Sound
import Immurok.Daemon.Speech

/-!
# One request, one answer

A peer that sends one request is written to once at most, and what is written
then is the answer of the handler of what was read of the request, whatever
the others do in the meantime.
-/

namespace Immurok

open Async

variable {ext : Extern} {files : Files} {i j : TaskId} {request chunk : Bytes} {s s' : Daemon}
  {c : Config Daemon} {log log' : List Ev} {out : Bytes} {α β : Type}

-- ---------------------------------------------------------------------------
-- Answers
-- ---------------------------------------------------------------------------

/-- A response as it is written. -/
def wire (response : Response) : Bytes := utf8 (serializeResponse response ++ "\n".toList)

/-- The connection ends once it has answered. -/
def Dispatch.Brief : Dispatch → Prop
  | .sessionAgent | .logStream | .ota => False
  | _ => True

instance Dispatch.decidableBrief : (d : Dispatch) → Decidable d.Brief
  | .sessionAgent | .logStream | .ota => .isFalse id
  | .key | .agentApprove _ | .list _ | .get _ | .request _ | .unparsable _ => .isTrue trivial

/-- A request of a line, whatever part of it is read, that is no message to
the SSH agent. -/
structure Brief (request : Bytes) : Prop where
  dispatch : ∀ chunk line, chunk <+: request → splitRequestChunk chunk = .ok line →
    (dispatchOf line).Brief
  length : 4 ≤ request.length → maxAgentMessage < u32OfBe (request.take 4)

/-- A window was armed for what connection `i` had approved. -/
def AgentArmed (i : TaskId) (log : List Ev) : Prop :=
  ∃ t l, (.windowArmed i (.agent i) t (secs 10) sudoServices :: l) <:+ log

/-- What connection `i` writes when it has read `chunk`. -/
inductive Answer (i : TaskId) (chunk : Bytes) (log : List Ev) : Bytes → Prop
  | malformed (e : RequestError) (h : splitRequestChunk chunk = .error e) :
    Answer i chunk log (wire (.error e.wireCode))
  | denied (line : Str) (h : splitRequestChunk chunk = .ok line) (ht : tierOf line ≠ .anyone) :
    Answer i chunk log (wire (.deny "NOT_AUTHORIZED"))
  | unparsable (line : Str) (e : ParseError) (h : splitRequestChunk chunk = .ok line)
    (hd : dispatchOf line = .unparsable e) :
    Answer i chunk log (utf8 (serializeResponse (.error ("PARSE_ERROR:".toList ++ e.message))))
  | request (line : Str) (r : Request) (response : Response) (l : List Ev)
    (h : splitRequestChunk chunk = .ok line) (hd : dispatchOf line = .request r)
    (hl : (.answered i r response :: l) <:+ log) : Answer i chunk log (wire response)
  | approval (line cmd : Str) (response : Response) (h : splitRequestChunk chunk = .ok line)
    (hd : dispatchOf line = .agentApprove cmd)
    (ha : ∀ m, response = .ok m → AgentArmed i log) : Answer i chunk log (wire response)
  | text (line : Str) (out : Bytes) (h : splitRequestChunk chunk = .ok line)
    (hd : dispatchOf line = .key ∨ (∃ cat, dispatchOf line = .list cat) ∨
      ∃ after, dispatchOf line = .get after) : Answer i chunk log out

theorem AgentArmed.mono (h : AgentArmed i log) (hl : log <:+ log') : AgentArmed i log' := by
  obtain ⟨t, l, ha⟩ := h
  exact ⟨t, l, ha.trans hl⟩

theorem Answer.mono (h : Answer i chunk log out) (hl : log <:+ log') : Answer i chunk log' out := by
  cases h with
  | malformed e h => exact .malformed e h
  | denied line h ht => exact .denied line h ht
  | unparsable line e h hd => exact .unparsable line e h hd
  | request line r response l h hd hlog => exact .request line r response l h hd (hlog.trans hl)
  | approval line cmd response h hd ha =>
    exact .approval line cmd response h hd fun m hm => (ha m hm).mono hl
  | text line out h hd => exact .text line out h hd

/-- Connection `i` has written nothing, or the answer to what was read of its
request. -/
def Daemon.Answers (i : TaskId) (request : Bytes) (s : Daemon) : Prop :=
  (s.socket i).outbox = [] ∨
    ∃ chunk, chunk <+: request ∧ Answer i chunk s.log (s.socket i).outbox

-- ---------------------------------------------------------------------------
-- The protocol
-- ---------------------------------------------------------------------------

/-- Whatever arrives on connection `i` is this request, as a whole. -/
def Asks (i : TaskId) (request : Bytes) (s s' : Daemon) : Prop :=
  (s'.socket i).inbox <:+ (s.socket i).inbox ∨
    (s.socket i).inbox = [] ∧ (s'.socket i).inbox = request

instance : Decidable (Asks i request s s') := inferInstanceAs (Decidable (_ ∨ _))

/-- What the others do to connection `i`. -/
structure Attends (i : TaskId) (request : Bytes) (s s' : Daemon) : Prop where
  outbox : (s'.socket i).outbox = (s.socket i).outbox
  inbox : (s'.socket i).inbox = (s.socket i).inbox ∨
    (s.socket i).inbox = [] ∧ (s'.socket i).inbox = request
  log : s.log <:+ s'.log

theorem Attends.refl (s : Daemon) : Attends i request s s := ⟨rfl, .inl rfl, List.suffix_refl _⟩

theorem Attends.trans {s'' : Daemon} (h : Attends i request s s') (h' : Attends i request s' s'') :
    Attends i request s s'' where
  outbox := h'.outbox.trans h.outbox
  inbox := by
    obtain he' | ⟨hn', he'⟩ := h'.inbox
    · rw [he']
      exact h.inbox
    · obtain he | ⟨hn, -⟩ := h.inbox
      · exact .inr ⟨he ▸ hn', he'⟩
      · exact .inr ⟨hn, he'⟩
  log := h.log.trans h'.log

theorem Attends.answers (h : Attends i request s s') (ha : s.Answers i request) :
    s'.Answers i request := by
  unfold Daemon.Answers
  rw [h.outbox]
  exact ha.imp_right fun ⟨chunk, hc, ha⟩ => ⟨chunk, hc, ha.mono h.log⟩

/-- One request on connection `i`. -/
def askedOnce (i : TaskId) (request : Bytes) : Protocol Daemon where
  inv := Daemon.Answers i request
  rely j s s' := j = i → Attends i request s s'
  guar j s s' := j ≠ i → Attends i request s s'
  rely_refl _ _ _ := .refl _
  rely_trans _ _ _ _ h h' hj := (h hj).trans (h' hj)

/-- Nothing was written yet, and the request is there or still to come. -/
structure Daemon.Fresh (i : TaskId) (request : Bytes) (s : Daemon) : Prop where
  outbox : (s.socket i).outbox = []
  inbox : (s.socket i).inbox = [] ∨ (s.socket i).inbox = request

theorem Daemon.Fresh.stable :
    (askedOnce i request).Stable j fun s => j = i → s.Fresh i request := by
  rintro s s' h hr - hj
  have ha := hr hj
  refine ⟨ha.outbox.trans (h hj).outbox, ?_⟩
  obtain he | ⟨-, he⟩ := ha.inbox
  · exact he ▸ (h hj).inbox
  · exact .inr he

/-- Nothing was written yet. -/
def Daemon.Unanswered (i : TaskId) (s : Daemon) : Prop := (s.socket i).outbox = []

theorem Daemon.Unanswered.stable : (askedOnce i request).Stable i (Daemon.Unanswered i) :=
  fun _ _ h hr _ => (hr rfl).outbox.trans h

theorem Daemon.Unanswered.answers (h : s.Unanswered i) : s.Answers i request := .inl h

theorem Daemon.Spoke.attends (h : s.Spoke j s') (hj : j ≠ i) : Attends i request s s' :=
  ⟨h.outbox i (Ne.symm hj), .inl (h.inbox i (Ne.symm hj)), h.log⟩

/-- The outside world writes to nobody's peer, and what it sends comes after
what was sent before. -/
structure EnvFrame (x : Env) (s s' : Daemon) : Prop where
  outbox : ∀ j, (s'.socket j).outbox = (s.socket j).outbox
  inbox : ∀ j, (s'.socket j).inbox = (s.socket j).inbox ∨
    ∃ bs, x = .socketData j bs ∧ (s'.socket j).inbox = (s.socket j).inbox ++ bs
  log : s.log <:+ s'.log

/-- What the outside world does where it sends nothing but the request. -/
theorem EnvFrame.attends {x : Env} (h : EnvFrame x s s') (hok : Asks i request s s') :
    Attends i request s s' := by
  refine ⟨h.outbox i, ?_, h.log⟩
  obtain hin | ⟨bs, -, hin⟩ := h.inbox i
  · exact .inl hin
  · obtain ⟨l, hl⟩ | hsent := hok
    · have hlen := congrArg List.length hl
      simp only [hin, List.length_append] at hlen
      obtain rfl : bs = [] := List.eq_nil_of_length_eq_zero (by omega)
      exact .inl (hin.trans (List.append_nil _))
    · exact .inr hsent

-- ---------------------------------------------------------------------------
-- The connection
-- ---------------------------------------------------------------------------

/-- A triple about connection `i`, which takes no steps but those of `Asks`. -/
abbrev Attending (i : TaskId) (request : Bytes) (A : Daemon → Prop) (t : Code α)
    (B : α → Daemon → Prop) : Prop :=
  (askedOnce i request).Triple i A (t.within (Asks i request)) B

variable {A : Daemon → Prop} {B : α → Daemon → Prop}

theorem true_stable : (askedOnce i request).Stable j fun _ => True := fun _ _ _ _ _ => trivial

/-- Code that writes nothing leaves the peer without an answer. -/
theorem Mute.attends {t : Code α} (h : Mute i t) :
    Attending i request (Daemon.Unanswered i) t fun _ => Daemon.Unanswered i :=
  Proc.Every.keeps h Daemon.Unanswered.stable fun s s' _ _ hu hw => by
    have hu' : s'.Unanswered i := (hw.outbox i).trans hu
    exact ⟨fun hne => absurd rfl hne, hu'.answers, hu'⟩

/-- The task of another connection follows the protocol whatever it does. -/
theorem Speaks.askedOnce {t : Code Unit} (h : Speaks j t) (hj : j ≠ i) :
    (askedOnce i request).Triple j (fun _ => True) (t.within (Asks i request)) fun _ _ => True :=
  h.keeps true_stable fun _ _ hi _ _ hs =>
    ⟨fun _ => hs.attends hj, (hs.attends hj).answers hi, trivial⟩

end Immurok
