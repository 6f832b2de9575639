import Immurok.Async.Beside
import Immurok.Daemon.Sound
import Mathlib.Data.List.Forall2

/-!
# The stream of agent messages

One connection of the SSH agent, from its first byte. The messages a client
sends one behind the other are read and answered one by one as long as no byte
comes in while a signature waits for the touch: that wait reads the socket too,
to see the client go, and drops what it reads.
-/

namespace Immurok

open Async

-- ---------------------------------------------------------------------------
-- Messages
-- ---------------------------------------------------------------------------

/-- A message the agent takes. -/
def Framed (m : Bytes) : Prop := m ≠ [] ∧ m.length ≤ maxAgentMessage

/-- The messages on the wire. -/
def frames (ms : List Bytes) : Bytes := ms.flatMap sshString

/-- What may come back for a message. -/
def AgentAnswers (m reply : Bytes) : Prop :=
  match m with
  | [] => reply = [sshAgentFailure]
  | kind :: _ =>
    if kind = sshAgentcRequestIdentities then ∃ keys, reply = identitiesAnswer keys
    else if kind = sshAgentcSignRequest then
      reply = [sshAgentFailure] ∨ ∃ signature, reply = signResponse signature
    else reply = [sshAgentFailure]

/-- What the handler has read and not answered. -/
inductive Hand
  | empty
  /-- the length of the message -/
  | header (m : Bytes)
  | whole (m : Bytes)

def Hand.message : Hand → List Bytes
  | .empty => []
  | .header m | .whole m => [m]

/-- What is still to be read of it. -/
def Hand.missing : Hand → Bytes
  | .empty | .whole _ => []
  | .header m => m

/-- The connection, with what its client is still going to send. -/
structure Strand where
  inbox : Bytes
  future : Bytes
  outbox : Bytes
  closed : Bool

def strand (i : TaskId) (p : Daemon × Bytes) : Strand where
  inbox := (p.1.socket i).inbox
  future := p.2
  outbox := (p.1.socket i).outbox
  closed := (p.1.socket i).closed

/-- Of the messages `ms` the first have been answered, one after the other, the
next may be in hand, and what is unread are the others. -/
def Stands (ms : List Bytes) (h : Hand) (st : Strand) : Prop :=
  ∃ done rest replies, ms = done ++ h.message ++ rest ∧
    st.inbox ++ st.future = h.missing ++ frames rest ∧
      st.outbox = frames replies ∧ List.Forall₂ AgentAnswers done replies

def InStep (ms : List Bytes) (st : Strand) : Prop := ∃ h, Stands ms h st

variable {ext : Extern} {i : TaskId} {ms : List Bytes} {m : Bytes} {h : Hand} {st st' : Strand}
  {α β : Type}

theorem Framed.length (h : Framed m) : 0 < m.length ∧ m.length ≤ maxAgentMessage :=
  ⟨List.length_pos_iff.mpr h.1, h.2⟩

theorem frames_cons {rest : List Bytes} :
    frames (m :: rest) = u32Be m.length ++ (m ++ frames rest) := by
  simp [frames, sshString]

theorem frames_append {ms' : List Bytes} : frames (ms ++ ms') = frames ms ++ frames ms' :=
  List.flatMap_append

-- ---------------------------------------------------------------------------
-- The surroundings
-- ---------------------------------------------------------------------------

/-- The client sends on or closes; a closed connection stays as it is. -/
structure Strand.Onward (st st' : Strand) : Prop where
  outbox : st'.outbox = st.outbox
  unread : st'.inbox ++ st'.future = st.inbox ++ st.future
  inbox : st.inbox <+: st'.inbox
  closed : st.closed = true → st' = st

theorem Strand.Onward.refl : st.Onward st := ⟨rfl, rfl, List.prefix_rfl, fun _ => rfl⟩

theorem Strand.Onward.trans {st'' : Strand} (h : st.Onward st') (h' : st'.Onward st'') :
    st.Onward st'' where
  outbox := h'.outbox.trans h.outbox
  unread := h'.unread.trans h.unread
  inbox := h.inbox.trans h'.inbox
  closed hc := by
    have he := h.closed hc
    rw [← he] at hc ⊢
    exact h'.closed hc

/-- The wait for a signature, for the touch or for room in the queue before. -/
inductive SignWait (i : TaskId) : ∀ β : Type, (Daemon → List (β × Daemon)) → Prop
  | mk (payload : Bytes) (r : Option ReplyId) (deadline : Nat) :
    SignWait i _ fun s => (ownBranch i (.sendFpGated cmdKeySign payload) r ::
      [deadlineBranch deadline (some SignEnd.deadline),
        probeBranch i fun data => if data then none else some SignEnd.hangup].map
          fun f s => (f s).map fun p => (Raced.other p.1, p.2)).filterMap fun f => f s

/-- What a read of exactly `n` bytes takes. -/
def readBranch (i : TaskId) (n : Nat) (s : Daemon) : Option (Option Bytes × Daemon) :=
  let inbox := (s.socket i).inbox
  if n ≤ inbox.length then
    some (some (inbox.take n), s.updateSocket i fun c => { c with inbox := inbox.drop n })
  else if (s.socket i).closed then some (none, s)
  else none

/-- The read of a message begun at the time `now`. -/
inductive ReadWait (i : TaskId) (now : Nat) : ∀ β : Type, (Daemon → List (β × Daemon)) → Prop
  | mk (n : Nat) : ReadWait i now _ fun s =>
      [readBranch i n, deadlineBranch (now + secs 120) none].filterMap fun f => f s

/-- No byte is there while a signature is waited for, and a message is read
before its time is over. -/
def Unhurried (i : TaskId) : Guard Daemon := fun β f s =>
  (SignWait i β f → (s.socket i).inbox = []) ∧
    ∀ now, ReadWait i now β f → s.now < now + secs 120

/-- The connection `i` is the handler's and its client's alone. -/
def aroundAgent (i : TaskId) (ms : List Bytes) : Protocol (Daemon × Bytes) where
  inv p := InStep ms (strand i p)
  rely _ p p' := (strand i p).Onward (strand i p')
  guar _ _ _ := True
  rely_refl _ _ := .refl
  rely_trans _ _ _ _ h h' := h.trans h'

abbrev AgentTriple (i : TaskId) (ms : List Bytes) (A : Strand → Prop) (t : Code α)
    (B : α → Strand → Prop) : Prop :=
  (aroundAgent i ms).Triple 0 (fun p => A (strand i p)) (t.beside Bytes (Unhurried i))
    fun a p => B a (strand i p)

/-- The client does not change it. -/
def Steadfast (A : Strand → Prop) : Prop := ∀ st st', A st → st.Onward st' → A st'

variable {A A' : Strand → Prop} {B B' : α → Strand → Prop}

theorem Steadfast.stable (h : Steadfast A) :
    (aroundAgent i ms).Stable 0 fun p => A (strand i p) :=
  fun _ _ ha hr _ => h _ _ ha hr

theorem Steadfast.or (h : Steadfast A) (h' : Steadfast A') : Steadfast fun st => A st ∨ A' st :=
  fun st st' ha hr => ha.imp (h st st' · hr) (h' st st' · hr)

namespace AgentTriple

theorem ret {a : α} (hA : Steadfast A) (h : ∀ st, A st → B a st) :
    AgentTriple i ms A (.ret a) B :=
  Protocol.Triple.ret hA.stable fun p _ => h (strand i p)

theorem bind {t : Code β} {g : β → Code α} {M : β → Strand → Prop} (h : AgentTriple i ms A t M)
    (hg : ∀ b, AgentTriple i ms (M b) (g b) B) : AgentTriple i ms A (t.bind g) B :=
  Beside.bind h hg

theorem pre {t : Code α} (h : AgentTriple i ms A t B) (hA : ∀ st, A' st → A st) :
    AgentTriple i ms A' t B :=
  Protocol.Triple.pre h fun p _ => hA (strand i p)

theorem post {t : Code α} (h : AgentTriple i ms A t B) (hB : ∀ a st, B a st → B' a st) :
    AgentTriple i ms A t B' :=
  Protocol.Triple.post h fun a p _ => hB a (strand i p)

theorem act {f : Daemon → List (α × Daemon)} (hA : Steadfast A) (hB : ∀ a, Steadfast (B a))
    (h : ∀ s F a s', InStep ms (strand i (s, F)) → Unhurried i _ f s → A (strand i (s, F)) →
      (a, s') ∈ f s → InStep ms (strand i (s', F)) ∧ B a (strand i (s', F))) :
    AgentTriple i ms A (.act f .ret) B :=
  Beside.act hA.stable (fun a => (hB a).stable) fun s F a s' hi hok ha hm =>
    ⟨trivial, h s F a s' hi hok ha hm⟩

theorem repeatFrom {ι : Type} {body : ι → Code (ι ⊕ α)} {J : ι → Strand → Prop} {j : ι}
    (hJ : ∀ j, Steadfast (J j)) (hB : ∀ a, Steadfast (B a))
    (h : ∀ j, AgentTriple i ms (J j) (body j) fun r st => r.elim (J · st) (B · st)) :
    AgentTriple i ms (J j) (Proc.repeatFrom j body) B :=
  Beside.repeatFrom (fun j => (hJ j).stable) (fun a => (hB a).stable) fun j =>
    Protocol.Triple.post (h j) fun r p _ hr => by cases r <;> exact hr

theorem loop {body : Code (Option α)} (hA : Steadfast A) (hB : ∀ a, Steadfast (B a))
    (h : AgentTriple i ms A body fun r st => r.elim (A st) (B · st)) :
    AgentTriple i ms A (Proc.loop body) B := by
  refine repeatFrom (J := fun _ => A) (fun _ => hA) hB fun _ => .bind h fun r => ?_
  cases r with
  | none => exact ret hA fun _ => id
  | some a => exact ret (hB a) fun _ => id

end AgentTriple

-- ---------------------------------------------------------------------------
-- Code that leaves the connection alone
-- ---------------------------------------------------------------------------

/-- The code does not touch the connection. -/
def Apart (i : TaskId) (ms : List Bytes) (t : Code α) : Prop :=
  ∀ A, Steadfast A → AgentTriple i ms A t fun _ => A

namespace Apart

theorem ret {a : α} : Apart i ms (.ret a : Code α) := fun _ hA => .ret hA fun _ => id

theorem bind {t : Code β} {g : β → Code α} (h : Apart i ms t) (hg : ∀ b, Apart i ms (g b)) :
    Apart i ms (t.bind g) :=
  fun A hA => .bind (h A hA) fun b => hg b A hA

theorem act {f : Daemon → List (α × Daemon)}
    (h : ∀ s a s', (a, s') ∈ f s → s'.socket = s.socket) : Apart i ms (.act f .ret) :=
  fun A hA => .act hA (fun _ => hA) fun s F a s' hi _ ha hm => by
    have hst : strand i (s', F) = strand i (s, F) := by simp only [strand, h s a s' hm]
    rw [hst]
    exact ⟨hi, ha⟩

theorem get {g : Daemon → α} : Apart i ms (Proc.get g) :=
  act fun s a s' hm => by rw [(Prod.mk.inj (List.mem_singleton.mp hm)).2]

theorem modify {g : Daemon → Daemon} (h : ∀ s, (g s).socket = s.socket) :
    Apart i ms (Proc.modify g) :=
  act fun s a s' hm => by rw [(Prod.mk.inj (List.mem_singleton.mp hm)).2, h]

theorem choose {as : List α} : Apart i ms (Proc.choose as) :=
  act fun s a s' hm => by
    obtain ⟨b, -, he⟩ := List.mem_map.mp hm
    cases he
    rfl

theorem await {f : Daemon → Option (α × Daemon)}
    (h : ∀ s a s', f s = some (a, s') → s'.socket = s.socket) : Apart i ms (Proc.await f) :=
  act fun s a s' hm => h s a s' (Option.mem_toList.mp hm)

theorem when {b : Bool} {t : Code Unit} (h : Apart i ms t) : Apart i ms (Proc.when b t) := by
  unfold Proc.when
  split
  · exact h
  · exact ret

theorem repeatFrom {ι : Type} {body : ι → Code (ι ⊕ α)} {j : ι} (h : ∀ j, Apart i ms (body j)) :
    Apart i ms (Proc.repeatFrom j body) :=
  fun A hA => .repeatFrom (J := fun _ => A) (fun _ => hA) (fun _ => hA) fun j =>
    (h j A hA).post fun r _ ha => by cases r <;> exact ha

end Apart

/-- The client has gone, and nothing it sent is left to read. -/
def Gone (ms : List Bytes) (st : Strand) : Prop :=
  st.closed = true ∧ st.inbox = [] ∧ InStep ms st

/-- Between two messages. -/
def Settled (ms : List Bytes) (st : Strand) : Prop := Stands ms .empty st ∨ Gone ms st

theorem Settled.inStep (h : Settled ms st) : InStep ms st :=
  h.elim (⟨.empty, ·⟩) (·.2.2)

theorem Stands.mem (hst : Stands ms h st) : ∀ m ∈ h.message, m ∈ ms := by
  obtain ⟨done, rest, replies, rfl, -⟩ := hst
  intro m hm
  exact List.mem_append_left _ (List.mem_append_right _ hm)

/-- The length of the next message is read. -/
theorem Stands.header (hst : Stands ms .empty st) (hn : 4 ≤ st.inbox.length) :
    ∃ m, st.inbox.take 4 = u32Be m.length ∧
      Stands ms (.header m) { st with inbox := st.inbox.drop 4 } := by
  obtain ⟨done, rest, replies, hms, hunread, hout, hans⟩ := hst
  cases rest with
  | nil =>
    have : st.inbox = [] := (List.append_eq_nil_iff.mp hunread).1
    simp [this] at hn
  | cons m rest =>
    have hsplit : st.inbox ++ st.future = u32Be m.length ++ (m ++ frames rest) := by
      rw [← frames_cons]
      exact hunread
    have htake : (st.inbox ++ st.future).take 4 = st.inbox.take 4 :=
      List.take_append_of_le_length hn
    rw [hsplit] at htake
    refine ⟨m, htake.symm, done, rest, replies, by simpa [Hand.message] using hms, ?_, hout, hans⟩
    show st.inbox.drop 4 ++ st.future = m ++ frames rest
    rw [← List.drop_append_of_le_length hn, hsplit]
    rfl

/-- Then the message itself. -/
theorem Stands.whole (hst : Stands ms (.header m) st) (hn : m.length ≤ st.inbox.length) :
    st.inbox.take m.length = m ∧
      Stands ms (.whole m) { st with inbox := st.inbox.drop m.length } := by
  obtain ⟨done, rest, replies, hms, hunread, hout, hans⟩ := hst
  have hsplit : st.inbox ++ st.future = m ++ frames rest := hunread
  refine ⟨?_, done, rest, replies, hms, ?_, hout, hans⟩
  · have htake : (st.inbox ++ st.future).take m.length = st.inbox.take m.length :=
      List.take_append_of_le_length hn
    rw [← htake, hsplit]
    exact List.take_left
  · show st.inbox.drop m.length ++ st.future = frames rest
    rw [← List.drop_append_of_le_length hn, hsplit]
    exact List.drop_left

theorem Stands.answered {reply : Bytes} (hst : Stands ms (.whole m) st)
    (ha : AgentAnswers m reply) :
    Stands ms .empty { st with outbox := st.outbox ++ sshString reply } := by
  obtain ⟨done, rest, replies, hms, hunread, hout, hans⟩ := hst
  refine ⟨done ++ [m], rest, replies ++ [reply], by simpa [Hand.message] using hms, hunread, ?_,
    List.rel_append hans (.cons ha .nil)⟩
  show st.outbox ++ sshString reply = frames (replies ++ [reply])
  rw [hout, frames_append]
  simp [frames]

/-- How things stand when the wait for a signature is over. -/
def AfterWait (ms : List Bytes) (m : Bytes) (hangup : Prop) (st : Strand) : Prop :=
  (hangup → Gone ms st) ∧ (¬hangup → Stands ms (.whole m) st)

theorem AfterWait.goesOn {p : Prop} (hp : ¬p) (hst : Stands ms (.whole m) st) :
    AfterWait ms m p st :=
  ⟨fun h => absurd h hp, fun _ => hst⟩

section

variable (hfailure : AgentAnswers m [sshAgentFailure])
  (hsign : ∀ signature, AgentAnswers m (signResponse signature))

include hfailure

include hsign

end

/-- A wait for a signature always may be over at once where the queue has room
and nobody replies. -/
theorem SignWait.ready {f : Daemon → List (β × Daemon)} (h : SignWait i β f) :
    f (Daemon.start .sample) ≠ [] := by
  cases h with
  | mk payload r d =>
    cases r with
    | none => simp [ownBranch, enqueueBranch, Daemon.start, queueCapacity]
    | some r => simp [ownBranch, replyBranch, Daemon.start, Oneshot.recv, Oneshot.gone]

/-- The bytes have come in. -/
def Daemon.listed : Daemon :=
  (Daemon.start .sample).updateSocket 1 fun c =>
    { c with inbox := frames [[sshAgentcRequestIdentities]] }

end Immurok
