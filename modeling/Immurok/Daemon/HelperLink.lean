import Immurok.Async.Trace
import Immurok.Daemon.System

/-!
# The link to the helper

The helper prints its replies and the device's notifications as lines of one
stream. A reader task takes the lines apart and passes them on through two
bounded channels; the worker writes a request, waits for a line of the one
channel and leaves the other alone meanwhile.
-/

namespace Immurok

open Async Machine

-- ---------------------------------------------------------------------------
-- Lines
-- ---------------------------------------------------------------------------

/-- What the reader does with a line. -/
inductive Routed
  | skip
  | notify (data : Bytes)
  | disconnect
  | response (line : Str)
  deriving DecidableEq

def routeLine (line : Str) : Routed :=
  let trimmed := Str.trim line
  if trimmed = [] then .skip
  else
    match Str.stripPrefix "NOTIFY:" trimmed with
    | some hexData =>
      match Str.hexDecode hexData with
      | .ok (b :: bs) => .notify (b :: bs)
      | _ => .skip
    | none => if trimmed = "DISCONNECT".toList then .disconnect else .response trimmed

/-- The reader task: whether it has had its first line, whether that was
READY, and whether it has stopped. -/
structure Reader where
  started : Bool
  ready : Bool
  stopped : Bool
  deriving DecidableEq

def Reader.new : Reader := { started := false, ready := false, stopped := false }

/-- The first line is only looked at for READY. -/
def Reader.read (r : Reader) (line : Str) : Reader × Routed :=
  if !r.started then
    ({ r with started := true, ready := Str.trim line = "READY".toList }, .skip)
  else
    match routeLine line with
    | .disconnect => ({ r with stopped := true }, .disconnect)
    | routed => (r, routed)

/-- The reader over all lines of the helper, with what it has passed on. -/
def Reader.readAll (r : Reader) : List Str → Reader × List Routed
  | [] => (r, [])
  | line :: lines =>
    if r.stopped then (r, [])
    else
      let (r, routed) := r.read line
      let (r, rest) := r.readAll lines
      (r, routed :: rest)

def Routed.notification : Routed → Option Bytes
  | .notify data => some data
  | _ => none

def Routed.responseLine : Routed → Option Str
  | .response line => some line
  | _ => none

-- ---------------------------------------------------------------------------
-- Before READY
-- ---------------------------------------------------------------------------

/-- The helper prints no notification without data. -/
abbrev Notification := { data : Bytes // data ≠ [] }

def notifyLine (n : Notification) : Str := "NOTIFY:".toList ++ Str.hexEncode n.1

/-- Subscribed before it prints READY, the helper may report notifications
first. -/
def helperLines (before after : List Notification) : List Str :=
  before.map notifyLine ++ "READY".toList :: after.map notifyLine

/-- READY is reported, nothing is taken for a reply, and every notification is
passed on in its order. -/
structure Faithful (before after : List Notification) : Prop where
  ready : (Reader.new.readAll (helperLines before after)).1.ready = true
  responses : (Reader.new.readAll (helperLines before after)).2.filterMap Routed.responseLine = []
  notifications : (Reader.new.readAll (helperLines before after)).2.filterMap Routed.notification =
    (before ++ after).map (·.1)

theorem trim_notifyLine {n : Notification} : Str.trim (notifyLine n) = notifyLine n := by
  have tag : ∀ c ∈ "NOTIFY:".toList, Str.isWhitespace c = false := by decide
  refine Str.trim_eq_self fun c hc => ?_
  obtain hc | hc := List.mem_append.mp hc
  · exact tag c hc
  · obtain ⟨k, hk, rfl⟩ := Str.exists_of_mem_hexEncode hc
    exact (Str.hexDigit_spec hk).2.2

theorem routeLine_notifyLine {n : Notification} : routeLine (notifyLine n) = .notify n.1 := by
  have hne : notifyLine n ≠ [] := List.append_ne_nil_of_left_ne_nil (by decide) _
  have hp : Str.stripPrefix "NOTIFY:" (notifyLine n) = some (Str.hexEncode n.1) :=
    Str.stripPrefix_append
  obtain ⟨data, hn⟩ := n
  cases data with
  | nil => exact absurd rfl hn
  | cons b bs =>
    rw [routeLine, trim_notifyLine, if_neg hne, hp]
    dsimp only
    rw [Str.hexDecode_hexEncode]

section
variable {r : Reader} {line : Str} {lines : List Str} {before after : List Notification}

theorem Reader.ready_readAll (hs : r.started = true) : (r.readAll lines).1.ready = r.ready := by
  induction lines generalizing r with
  | nil => rfl
  | cons line lines ih =>
    have hread : (r.read line).1.started = true ∧ (r.read line).1.ready = r.ready := by
      rw [read, if_neg (by simp [hs])]
      split
      · exact ⟨hs, rfl⟩
      · exact ⟨hs, rfl⟩
    rw [readAll]
    split
    · rfl
    · exact (ih hread.1).trans hread.2

theorem Reader.readAll_notifications (hs : r.started = true) (hr : r.stopped = false) :
    r.readAll (after.map notifyLine) = (r, after.map fun n => .notify n.1) := by
  induction after with
  | nil => rfl
  | cons n ns ih =>
    have hread : r.read (notifyLine n) = (r, .notify n.1) := by
      rw [Reader.read, if_neg (by simp [hs]), routeLine_notifyLine]
    rw [List.map_cons, Reader.readAll, if_neg (by simp [hr]), hread]
    dsimp only
    rw [ih]
    rfl

/-- The reader after its first line. -/
def Reader.first (line : Str) : Reader :=
  { started := true, ready := Str.trim line = "READY".toList, stopped := false }

theorem Reader.readAll_cons : Reader.new.readAll (line :: lines) =
    (((first line).readAll lines).1, .skip :: ((first line).readAll lines).2) := rfl

/-- The reader and the helper agree exactly where READY comes first. -/
theorem faithful_iff : Faithful before after ↔ before = [] := by
  constructor
  · rintro ⟨hready, -, -⟩
    cases before with
    | nil => rfl
    | cons n before =>
      rw [helperLines, List.map_cons, List.cons_append, Reader.readAll_cons,
        Reader.ready_readAll rfl, Reader.first, trim_notifyLine, decide_eq_true_iff] at hready
      have hhead : some 'N' = some 'R' := congrArg List.head? hready
      exact absurd hhead (by decide)
  · rintro rfl
    have hall : Reader.new.readAll (helperLines [] after) =
        (.first "READY", .skip :: after.map fun n => .notify n.1) := by
      rw [helperLines, List.map_nil, List.nil_append, Reader.readAll_cons,
        Reader.readAll_notifications rfl rfl]
    have hready : (Reader.first "READY").ready = true := by decide
    refine ⟨hall ▸ hready, ?_, ?_⟩
    · simp [hall, Routed.responseLine, List.filterMap_cons]
    · simp [hall, Routed.notification, List.filterMap_cons, List.filterMap_map, Function.comp_def]

/-- A notification that comes first is lost, and READY is taken for a reply. -/
theorem early_notification_swallowed :
    ¬ Faithful [⟨[0x21], List.cons_ne_nil _ _⟩] [] := by
  intro h
  exact absurd h.ready (by decide)

end

-- ---------------------------------------------------------------------------
-- Requests
-- ---------------------------------------------------------------------------

/-- The number of a request in the order they are written. -/
abbrev AskId := Nat

inductive HelperCmd
  | cmdWrite (data : Bytes)
  | otaWrite (data : Bytes)
  | otaRead
  deriving DecidableEq

/-- What a request returns. -/
inductive Returned
  | wrote (r : Except Str Unit)
  | read (r : Except Str Bytes)
  deriving DecidableEq

def Returned.isOk : Returned → Bool
  | .wrote r => r.isOk
  | .read r => r.isOk

def writeResult : HelperReply → Except Str Unit
  | .line line =>
    if line = "WRITE_OK".toList then .ok ()
    else
      match Str.stripPrefix "WRITE_ERR:" line with
      | some err => .error ("write failed: ".toList ++ err)
      | none => .error ("unexpected response: ".toList ++ line)
  | .closed => .error "helper response channel closed"
  | .timeout => .error "write response timeout"

def readResult : HelperReply → Except Str Bytes
  | .line line =>
    match Str.stripPrefix "READ_OK:" line with
    | some hexData => (Str.hexDecode hexData).mapError fun e => "hex decode error: ".toList ++ e
    | none =>
      match Str.stripPrefix "READ_ERR:" line with
      | some err => .error ("read failed: ".toList ++ err)
      | none => .error ("unexpected response: ".toList ++ line)
  | .closed => .error "helper response channel closed"
  | .timeout => .error "read response timeout"

def HelperCmd.result (reply : HelperReply) : HelperCmd → Returned
  | .otaRead => .read (readResult reply)
  | _ => .wrote (writeResult reply)

theorem waitWriteOk_eq : waitWriteOk = awaitHelper.bind fun reply => .ret (writeResult reply) := by
  refine congrArg awaitHelper.bind (funext fun reply => ?_)
  cases reply with
  | line line =>
    by_cases hok : line = "WRITE_OK".toList
    · simp only [writeResult, hok, if_true, Proc.pure_eq]
    · simp only [writeResult, hok, if_false, Proc.pure_eq]
      cases Str.stripPrefix "WRITE_ERR:".toList line <;> rfl
  | closed => rfl
  | timeout => rfl

theorem waitReadResponse_eq :
    waitReadResponse = awaitHelper.bind fun reply => .ret (readResult reply) := by
  refine congrArg awaitHelper.bind (funext fun reply => ?_)
  cases reply with
  | line line =>
    simp only [readResult, Proc.pure_eq]
    cases Str.stripPrefix "READ_OK:".toList line with
    | some hexData => rfl
    | none => cases Str.stripPrefix "READ_ERR:".toList line <;> rfl
  | closed => rfl
  | timeout => rfl

-- ---------------------------------------------------------------------------
-- The link
-- ---------------------------------------------------------------------------

/-- A line of the helper after READY; a reply knows its request. -/
inductive Line
  | reply (id : AskId) (text : Str)
  | notify (n : Notification)
  | disconnect
  deriving DecidableEq

def Line.text : Line → Str
  | .reply _ text => text
  | .notify n => notifyLine n
  | .disconnect => "DISCONNECT"

def Line.asked : Line → Option AskId
  | .reply id _ => some id
  | _ => none

/-- The two programs from READY on: the worker with the request it waits for
and its deadline, the helper with the requests written to it, the lines it has
printed, the reader with what it is about to pass on, and the two channels. -/
structure HelperLink where
  now : Nat
  nextAsk : AskId
  waiting : Option (AskId × HelperCmd × Nat)
  stdin : List AskId
  serving : Option AskId
  stdout : List Line
  exited : Bool
  reader : Reader
  held : Option (Routed × Option AskId)
  notifyRx : List Bytes
  responseRx : List (Str × Option AskId)
  /-- what requests returned, with the request whose reply it was made from -/
  returned : List (AskId × Option AskId × Returned)

def HelperLink.start : HelperLink :=
  { now := 0, nextAsk := 0, waiting := none, stdin := [], serving := none, stdout := []
    exited := false, reader := .first "READY", held := none, notifyRx := [], responseRx := []
    returned := [] }

inductive LinkAct
  -- the worker
  | ask (cmd : HelperCmd)
  | askFails (cmd : HelperCmd) (e : Str)
  | receive
  | receiveClosed
  | timeout
  | drain
  -- the helper; an error message may run over several lines
  | take
  | answer (texts : List Str)
  | notify (n : Notification)
  | disconnect
  | exit
  -- the reader
  | read
  | pass
  | tick (d : Nat)

namespace HelperLink

/-- The reader has come to its end. -/
def closed (s : HelperLink) : Bool :=
  s.held.isNone && (s.reader.stopped || s.exited && s.stdout.isEmpty)

/-- What the reader has in hand fits into its channel. -/
def fits (s : HelperLink) : Routed → Bool
  | .notify _ => decide (s.notifyRx.length < notifyCapacity)
  | _ => decide (s.responseRx.length < responseCapacity)

def enabled (s : HelperLink) : LinkAct → Bool
  | .ask _ | .askFails _ _ => s.waiting.isNone
  | .receive => s.waiting.isSome && !s.responseRx.isEmpty
  | .receiveClosed => s.waiting.isSome && s.responseRx.isEmpty && s.closed
  | .timeout => s.waiting.any fun w => w.2.2 ≤ s.now
  | .drain => s.waiting.isNone && !s.notifyRx.isEmpty
  | .take => s.serving.isNone && !s.stdin.isEmpty && !s.exited
  | .answer _ => s.serving.isSome && !s.exited
  | .notify _ | .disconnect => !s.exited
  | .exit => true
  | .read => s.held.isNone && !s.stdout.isEmpty && !s.reader.stopped
  | .pass => s.held.any fun h => s.fits h.1
  | .tick _ => true

/-- The request that is waited for returns. -/
def finish (reply : HelperReply) (from_ : Option AskId) (s : HelperLink) : HelperLink :=
  match s.waiting with
  | some (id, cmd, _) =>
    { s with waiting := none, returned := (id, from_, cmd.result reply) :: s.returned }
  | none => s

def readLine (s : HelperLink) : HelperLink :=
  match s.stdout with
  | [] => s
  | line :: rest =>
    let (reader, routed) := s.reader.read line.text
    { s with
      stdout := rest
      reader
      held := match routed with
        | .notify _ | .response _ => some (routed, line.asked)
        | _ => none }

def pass (s : HelperLink) : HelperLink :=
  match s.held with
  | some (.notify data, _) => { s with held := none, notifyRx := s.notifyRx ++ [data] }
  | some (.response text, id) => { s with held := none, responseRx := s.responseRx ++ [(text, id)] }
  | _ => s

def step (s : HelperLink) : LinkAct → HelperLink
  | .ask cmd =>
    { s with
      waiting := some (s.nextAsk, cmd, s.now + secs 5)
      stdin := s.stdin ++ [s.nextAsk]
      nextAsk := s.nextAsk + 1 }
  | .askFails cmd e =>
    { s with
      nextAsk := s.nextAsk + 1
      returned := (s.nextAsk, none, match cmd with
        | .otaRead => .read (.error e)
        | _ => .wrote (.error e)) :: s.returned }
  | .receive =>
    match s.responseRx with
    | [] => s
    | (text, id) :: rest => { s with responseRx := rest }.finish (.line text) id
  | .receiveClosed => s.finish .closed none
  | .timeout => s.finish .timeout none
  | .drain => { s with notifyRx := s.notifyRx.tail }
  | .take => { s with serving := s.stdin.head?, stdin := s.stdin.tail }
  | .answer texts =>
    match s.serving with
    | some id => { s with serving := none, stdout := s.stdout ++ texts.map (.reply id) }
    | none => s
  | .notify n => { s with stdout := s.stdout ++ [.notify n] }
  | .disconnect => { s with stdout := s.stdout ++ [.disconnect] }
  | .exit => { s with exited := true }
  | .read => s.readLine
  | .pass => s.pass
  | .tick d => { s with now := s.now + d }

end HelperLink

def helperLink : Machine HelperLink LinkAct where
  init := .start
  step := HelperLink.step
  actor _ := none
  allowed s a := s.enabled a = true

-- ---------------------------------------------------------------------------
-- Requests and their replies
-- ---------------------------------------------------------------------------

/-- A value is made from the request's own reply, or is an error, and no reply
that was printed is kept from its request by unread notifications. -/
structure HelperLink.Paired (s : HelperLink) : Prop where
  own : ∀ id j v, (id, some j, v) ∈ s.returned → j = id
  error : ∀ id v, (id, none, v) ∈ s.returned → v.isOk = false
  flows : ∀ id cmd t text data j, s.waiting = some (id, cmd, t) → .reply id text ∈ s.stdout →
    s.held = some (.notify data, j) → s.notifyRx.length < notifyCapacity

/-- The replies the worker may still take, the oldest first. -/
def HelperLink.onTheWay (s : HelperLink) : List AskId :=
  s.responseRx.filterMap (·.2) ++ (s.held.bind (·.2)).toList ++
    if s.reader.stopped then [] else s.stdout.filterMap Line.asked

def isNotifyText (text : Str) : Bool := (routeLine text).notification.isSome

/-- The notifications the worker has not taken. -/
def HelperLink.unread (s : HelperLink) : Nat :=
  s.notifyRx.length + (if s.held.any (·.1.notification.isSome) then 1 else 0) +
    s.stdout.countP fun line => isNotifyText line.text

/-- A request is answered in one line and while it is waited for, or not
answered at all, and while one is waited for no more notifications are unread
than their channel holds. -/
def promptly (s : HelperLink) : LinkAct → Bool
  | .answer texts =>
    texts.length ≤ 1 && texts.all (!isNotifyText ·) && s.waiting.map (·.1) == s.serving
  | .timeout => s.onTheWay.isEmpty
  | .ask _ => s.unread ≤ notifyCapacity
  | .notify _ => s.waiting.isNone || s.unread < notifyCapacity
  | _ => true

/-- The request on its way to the helper or being served. -/
def HelperLink.pendingAsks (s : HelperLink) : List AskId := s.stdin ++ s.serving.toList

/-- What every such run keeps. -/
structure HelperLink.Orderly (s : HelperLink) : Prop where
  own : ∀ id j v, (id, some j, v) ∈ s.returned → j = id
  error : ∀ id v, (id, none, v) ∈ s.returned → v.isOk = false
  started : s.reader.started = true
  pending : s.pendingAsks.Nodup
  below : ∀ j, j ∈ s.pendingAsks ∨ j ∈ s.onTheWay → j < s.nextAsk
  unanswered : ∀ j ∈ s.pendingAsks, j ∉ s.onTheWay
  single : s.onTheWay.length ≤ 1
  current : ∀ j ∈ s.onTheWay, ∃ cmd t, s.waiting = some (j, cmd, t)
  tagged : ∀ text id, (text, id) ∈ s.responseRx ∨ s.held = some (.response text, id) → id.isSome
  room : s.waiting.isSome → s.unread ≤ notifyCapacity

theorem HelperLink.Orderly.paired {s : HelperLink} (h : s.Orderly) : s.Paired := by
  refine ⟨h.own, h.error, fun id cmd t text data j hw _ hh => ?_⟩
  have hroom := h.room (by rw [hw]; rfl)
  rw [unread, hh] at hroom
  simp only [Option.any_some, Routed.notification, Option.isSome_some, if_true] at hroom
  omega

section
variable {s s' : HelperLink} {a : LinkAct}

/-- Nothing is on its way while nothing is waited for. -/
theorem HelperLink.Orderly.idle (h : s.Orderly) (hw : s.waiting = none) : s.onTheWay = [] := by
  refine List.eq_nil_iff_forall_not_mem.mpr fun j hj => ?_
  obtain ⟨cmd, t, hc⟩ := h.current j hj
  rw [hw] at hc
  cases hc

/-- Steps after which no more is on its way and no other request is pending. -/
theorem HelperLink.Orderly.shrink (h : s.Orderly) (hret : s'.returned = s.returned)
    (hstart : s'.reader.started = true) (hpend : s'.pendingAsks.Perm s.pendingAsks)
    (hnext : s'.nextAsk = s.nextAsk) (hway : s'.onTheWay.Sublist s.onTheWay)
    (hwait : s'.waiting = s.waiting) (hroom : s'.waiting.isSome → s'.unread ≤ notifyCapacity)
    (htag : ∀ text id, (text, id) ∈ s'.responseRx ∨ s'.held = some (.response text, id) →
      id.isSome) : s'.Orderly where
  own := hret ▸ h.own
  error := hret ▸ h.error
  started := hstart
  pending := hpend.nodup_iff.mpr h.pending
  below j hj := by
    rw [hnext]
    exact h.below j (hj.imp hpend.mem_iff.mp (hway.subset ·))
  unanswered j hj hm := h.unanswered j (hpend.mem_iff.mp hj) (hway.subset hm)
  single := Nat.le_trans hway.length_le h.single
  current j hj := hwait ▸ h.current j (hway.subset hj)
  tagged := htag
  room := hroom

/-- The request waited for returns, and nothing is left on its way. -/
theorem HelperLink.Orderly.finish {reply : HelperReply} {from_ : Option AskId} (h : s.Orderly)
    (hway : s.onTheWay = []) (hown : ∀ id cmd t j, s.waiting = some (id, cmd, t) →
      from_ = some j → j = id)
    (herr : from_ = none → ∀ cmd : HelperCmd, (cmd.result reply).isOk = false) :
    (s.finish reply from_).Orderly := by
  unfold HelperLink.finish
  split
  next id cmd t hw =>
    refine ⟨fun id' j v hm => ?_, fun id' v hm => ?_, h.started, h.pending, h.below, h.unanswered,
      h.single, fun j hj => ?_, h.tagged, fun hs => nomatch hs⟩
    · obtain he | hm := List.mem_cons.mp hm
      · obtain ⟨rfl, hf, rfl⟩ : id' = id ∧ some j = from_ ∧ v = cmd.result reply := by simpa using he
        exact hown _ cmd t j hw hf.symm
      · exact h.own id' j v hm
    · obtain he | hm := List.mem_cons.mp hm
      · obtain ⟨rfl, hf, rfl⟩ : id' = id ∧ none = from_ ∧ v = cmd.result reply := by simpa using he
        exact herr hf.symm cmd
      · exact h.error id' v hm
    · exact absurd (hway ▸ hj) List.not_mem_nil
  next => exact h

theorem isNotifyText_notifyLine {n : Notification} : isNotifyText (notifyLine n) = true := by
  rw [isNotifyText, routeLine_notifyLine]
  rfl

/-- Only a reply is taken for a response. -/
theorem Line.asked_of_response {line : Line} {text : Str}
    (h : routeLine line.text = .response text) : line.asked.isSome := by
  cases line with
  | reply id t => rfl
  | notify n => exact nomatch (routeLine_notifyLine (n := n)).symm.trans h
  | disconnect =>
    have hd : routeLine "DISCONNECT" = .disconnect := by decide
    exact nomatch hd.symm.trans h

/-- The reader takes a line. -/
theorem HelperLink.Orderly.took {line : Line} {rest : List Line} {reader : Reader}
    {held : Option (Routed × Option AskId)} (h : s.Orderly) (hheld : s.held = none)
    (hstop : s.reader.stopped = false) (hout : s.stdout = line :: rest)
    (hstart : reader.started = true) (htag : ∀ id, held.bind (·.2) = some id → line.asked = some id)
    (hnotify : held.any (·.1.notification.isSome) = true → isNotifyText line.text = true)
    (hresponse : ∀ text id, held = some (.response text, id) → id.isSome) :
    { s with stdout := rest, reader, held }.Orderly := by
  have hway : s.onTheWay = s.responseRx.filterMap (·.2) ++ line.asked.toList ++
      rest.filterMap Line.asked := by
    cases hl : line.asked <;> simp [HelperLink.onTheWay, hheld, hstop, hout, hl]
  have hunread : s.unread = s.notifyRx.length + (if isNotifyText line.text = true then 1 else 0) +
      rest.countP fun line => isNotifyText line.text := by
    simp only [HelperLink.unread, hheld, hout, List.countP_cons, Option.any_none]
    simp only [Bool.false_eq_true, if_false]
    omega
  refine h.shrink rfl hstart (.refl _) rfl ?_ rfl (fun hw => ?_) fun text id ht => ?_
  · rw [hway]
    refine .append (.append (.refl _) ?_) ?_
    · cases ht : held.bind (·.2) with
      | none => exact List.nil_sublist _
      | some id =>
        rw [htag id ht]
    · dsimp only
      split
      · exact List.nil_sublist _
      · exact .refl _
  · have hroom := h.room hw
    rw [hunread] at hroom
    refine Nat.le_trans ?_ hroom
    simp only [HelperLink.unread]
    by_cases hn : held.any (·.1.notification.isSome) = true
    · rw [if_pos hn, if_pos (hnotify hn)]
    · rw [if_neg hn]
      omega
  · exact ht.elim (fun ht => h.tagged text id (.inl ht)) (hresponse text id)

theorem HelperLink.Orderly.read (h : s.Orderly) (ha : s.enabled .read = true) :
    s.readLine.Orderly := by
  simp only [HelperLink.enabled, Bool.and_eq_true, Option.isNone_iff_eq_none,
    Bool.not_eq_true'] at ha
  obtain ⟨⟨hheld, -⟩, hstop⟩ := ha
  cases hout : s.stdout with
  | nil =>
    rw [HelperLink.readLine, hout]
    exact h
  | cons line rest =>
    have hread : s.reader.read line.text = match routeLine line.text with
        | .disconnect => ({ s.reader with stopped := true }, .disconnect)
        | routed => (s.reader, routed) := by
      rw [Reader.read, if_neg (by simp [h.started])]
    cases hr : routeLine line.text with
    | skip | disconnect =>
      simp only [hr] at hread
      simp only [HelperLink.readLine, hout, hread]
      exact h.took hheld hstop hout h.started (fun _ ht => nomatch ht) (fun hn => nomatch hn)
        fun _ _ ht => nomatch ht
    | notify data =>
      simp only [hr] at hread
      simp only [HelperLink.readLine, hout, hread]
      refine h.took hheld hstop hout h.started (fun _ => id) (fun _ => ?_) fun _ _ ht => ?_
      · rw [isNotifyText, hr]
        rfl
      · cases ht
    | response text =>
      simp only [hr] at hread
      simp only [HelperLink.readLine, hout, hread]
      refine h.took hheld hstop hout h.started (fun _ => id) (fun hn => nomatch hn) fun _ _ ht => ?_
      obtain ⟨-, rfl⟩ : text = _ ∧ line.asked = _ := by simpa using ht
      exact Line.asked_of_response hr

theorem HelperLink.Orderly.pass (h : s.Orderly) : s.pass.Orderly := by
  unfold HelperLink.pass
  split
  next data id hheld =>
    refine h.shrink rfl h.started (.refl _) rfl ?_ rfl (fun hw => ?_) fun text id ht => ?_
    · simp [HelperLink.onTheWay, hheld]
    · refine Nat.le_trans (Nat.le_of_eq ?_) (h.room hw)
      simp [HelperLink.unread, hheld, Routed.notification]
    · exact h.tagged text id (ht.imp_right fun h => nomatch h)
  next text id hheld =>
    refine h.shrink rfl h.started (.refl _) rfl ?_ rfl (fun hw => ?_) fun text' id' ht => ?_
    · cases id <;> simp [HelperLink.onTheWay, hheld]
    · refine Nat.le_trans (Nat.le_of_eq ?_) (h.room hw)
      simp [HelperLink.unread, hheld, Routed.notification]
    · obtain ht | ht := ht
      · obtain ht | ht := List.mem_append.mp ht
        · exact h.tagged text' id' (.inl ht)
        · obtain ⟨rfl, rfl⟩ : text' = text ∧ id' = id := by simpa using ht
          exact h.tagged _ _ (.inr hheld)
      · cases ht
  next => exact h

/-- A request is written. -/
theorem HelperLink.Orderly.ask {cmd : HelperCmd} (h : s.Orderly) (hw : s.waiting = none)
    (hroom : s.unread ≤ notifyCapacity) : (s.step (.ask cmd)).Orderly := by
  have hway : (s.step (.ask cmd)).onTheWay = [] := h.idle hw
  have hperm : (s.step (.ask cmd)).pendingAsks.Perm (s.nextAsk :: s.pendingAsks) := by
    rw [HelperLink.pendingAsks, HelperLink.pendingAsks]
    simp [HelperLink.step]
  refine ⟨h.own, h.error, h.started, ?_, ?_, ?_, ?_, ?_, h.tagged, fun _ => hroom⟩
  · refine hperm.nodup_iff.mpr (List.nodup_cons.mpr ⟨fun hm => ?_, h.pending⟩)
    exact Nat.lt_irrefl _ (h.below _ (.inl hm))
  · rintro j (hj | hj)
    · obtain rfl | hj := List.mem_cons.mp (hperm.mem_iff.mp hj)
      · exact Nat.lt_succ_self _
      · exact Nat.lt_succ_of_lt (h.below j (.inl hj))
    · exact absurd (hway ▸ hj) List.not_mem_nil
  · intro j _ hj
    exact absurd (hway ▸ hj) List.not_mem_nil
  · rw [hway]
    exact Nat.zero_le _
  · intro j hj
    exact absurd (hway ▸ hj) List.not_mem_nil

/-- The next line of the responses is the reply to the request waited for. -/
theorem HelperLink.Orderly.receive (h : s.Orderly) (ha : s.enabled .receive = true) :
    (s.step .receive).Orderly := by
  cases hrx : s.responseRx with
  | nil => simp [HelperLink.enabled, hrx] at ha
  | cons r rest =>
    obtain ⟨text, id⟩ := r
    obtain ⟨j, rfl⟩ := Option.isSome_iff_exists.mp (h.tagged text id (.inl (hrx ▸ .head _)))
    let s' : HelperLink := { s with responseRx := rest }
    have hway : s.onTheWay = j :: s'.onTheWay := by simp [HelperLink.onTheWay, hrx, s']
    have hrest : s'.onTheWay = [] := by
      have hs := h.single
      rw [hway, List.length_cons] at hs
      exact List.length_eq_zero_iff.mp (by omega)
    have hs' : s'.Orderly := h.shrink rfl h.started (.refl _) rfl (hrest ▸ List.nil_sublist _) rfl
      h.room fun text id ht => h.tagged text id (ht.imp_left fun hm => hrx ▸ .tail _ hm)
    have hstep : s.step .receive = s'.finish (.line text) (some j) := by
      simp only [HelperLink.step, hrx, s']
    rw [hstep]
    refine hs'.finish hrest (fun id cmd t j' hw hj => ?_) fun hn => nomatch hn
    obtain ⟨cmd', t', hc⟩ := h.current j (hway ▸ .head _)
    obtain rfl := Option.some.inj hj
    obtain ⟨rfl, -⟩ : id = j ∧ _ := by simpa using (hw.symm.trans hc)
    rfl

theorem countP_replies {texts : List Str} {id : AskId}
    (h : texts.all (!isNotifyText ·) = true) :
    (texts.map (Line.reply id)).countP (fun line => isNotifyText line.text) = 0 := by
  rw [List.countP_map]
  refine List.countP_eq_zero.mpr fun text ht hn => ?_
  have hplain : (!isNotifyText text) = true := List.all_eq_true.mp h text ht
  have hn : isNotifyText text = true := hn
  rw [hn] at hplain
  cases hplain

/-- The request being served is answered. -/
theorem HelperLink.Orderly.answer {texts : List Str} (h : s.Orderly)
    (ha : s.enabled (.answer texts) = true) (hok : promptly s (.answer texts) = true) :
    (s.step (.answer texts)).Orderly := by
  simp only [promptly, Bool.and_eq_true, decide_eq_true_eq, beq_iff_eq] at hok
  obtain ⟨⟨hlen, htexts⟩, hserve⟩ := hok
  obtain ⟨id, hid⟩ := Option.isSome_iff_exists.mp (Bool.and_eq_true_iff.mp ha).1
  rw [hid] at hserve
  obtain ⟨⟨id', cmd, t⟩, hw, rfl⟩ := Option.map_eq_some_iff.mp hserve
  have hnone : s.onTheWay = [] := by
    refine List.eq_nil_iff_forall_not_mem.mpr fun j hj => ?_
    obtain ⟨cmd', t', hc⟩ := h.current j hj
    obtain ⟨rfl, -⟩ : id' = j ∧ _ := by simpa using (hw.symm.trans hc)
    exact h.unanswered id' (by simp [HelperLink.pendingAsks, hid]) hj
  let s' : HelperLink := { s with serving := none, stdout := s.stdout ++ texts.map (.reply id') }
  have hway : s'.onTheWay.Sublist (texts.map fun _ => id') := by
    have hempty := hnone
    simp only [HelperLink.onTheWay, List.append_eq_nil_iff] at hempty
    obtain ⟨⟨hr, hh⟩, ho⟩ := hempty
    simp only [HelperLink.onTheWay, s', hr, hh, List.nil_append]
    split at ho
    next hstop =>
      rw [if_pos hstop]
      exact List.nil_sublist _
    next hstop =>
      have htags : (texts.map (.reply id')).filterMap Line.asked = texts.map fun _ => id' := by
        simp [List.filterMap_map, Function.comp_def, Line.asked]
      rw [if_neg hstop, List.filterMap_append, ho, List.nil_append, htags]
  have hmem {j : AskId} (hj : j ∈ s'.onTheWay) : j = id' := by
    obtain ⟨_, -, rfl⟩ := List.mem_map.mp (hway.subset hj)
    rfl
  have hstep : s.step (.answer texts) = s' := by
    simp only [HelperLink.step, hid, s']
  have hpend : s.pendingAsks = s'.pendingAsks ++ [id'] := by simp [HelperLink.pendingAsks, hid, s']
  have hnodup := h.pending
  rw [hpend] at hnodup
  rw [hstep]
  refine ⟨h.own, h.error, h.started, (List.nodup_append.mp hnodup).1, ?_, ?_, ?_, ?_, h.tagged, ?_⟩
  · rintro j (hj | hj)
    · exact h.below j (.inl (hpend ▸ List.mem_append_left _ hj))
    · exact h.below j (.inl (hmem hj ▸ hpend ▸ List.mem_append_right _ (.head _)))
  · intro j hj hway
    exact (List.nodup_append.mp hnodup).2.2 j hj id' (.head _) (hmem hway)
  · exact Nat.le_trans hway.length_le (by simpa using hlen)
  · intro j hj
    exact ⟨cmd, t, hmem hj ▸ hw⟩
  · intro hw'
    refine Nat.le_trans (Nat.le_of_eq ?_) (h.room hw')
    simp only [HelperLink.unread, s', List.countP_append, countP_replies htexts, Nat.add_zero]

/-- With the reader at its end and its channel empty, nothing is on its way. -/
theorem HelperLink.onTheWay_of_closed (hrx : s.responseRx = []) (hc : s.closed = true) :
    s.onTheWay = [] := by
  simp only [HelperLink.closed, Bool.and_eq_true, Bool.or_eq_true, Option.isNone_iff_eq_none,
    List.isEmpty_iff] at hc
  obtain ⟨hheld, hstop | ⟨-, hout⟩⟩ := hc
  · simp [HelperLink.onTheWay, hrx, hheld, hstop]
  · simp [HelperLink.onTheWay, hrx, hheld, hout]

theorem HelperLink.Orderly.askFails {cmd : HelperCmd} {e : Str} (h : s.Orderly) :
    (s.step (.askFails cmd e)).Orderly := by
  refine ⟨fun id j v hm => ?_, fun id v hm => ?_, h.started, h.pending, fun j hj => ?_,
    h.unanswered, h.single, h.current, h.tagged, h.room⟩
  · obtain he | hm := List.mem_cons.mp hm
    · simp at he
    · exact h.own id j v hm
  · obtain he | hm := List.mem_cons.mp hm
    · obtain ⟨-, -, rfl⟩ := by simpa using he
      cases cmd <;> rfl
    · exact h.error id v hm
  · exact Nat.lt_succ_of_lt (h.below j hj)

/-- The helper prints a line that is no reply. -/
theorem HelperLink.Orderly.print {line : Line} (h : s.Orderly) (hl : line.asked = none)
    (hroom : s.waiting.isSome → isNotifyText line.text = true → s.unread < notifyCapacity) :
    { s with stdout := s.stdout ++ [line] }.Orderly := by
  refine h.shrink rfl h.started (.refl _) rfl ?_ rfl (fun hw => ?_) h.tagged
  · simp [HelperLink.onTheWay, List.filterMap_append, hl]
  · have hle := h.room hw
    have hlt := hroom hw
    simp only [HelperLink.unread, List.countP_append, List.countP_singleton] at hle hlt ⊢
    by_cases hn : isNotifyText line.text = true
    · have hlt := hlt hn
      rw [if_pos hn]
      omega
    · rw [if_neg hn]
      omega

theorem HelperLink.Orderly.step (h : s.Orderly) (ha : s.enabled a = true)
    (hok : promptly s a = true) : (s.step a).Orderly := by
  have closed (cmd : HelperCmd) : (cmd.result .closed).isOk = false := by cases cmd <;> rfl
  have late (cmd : HelperCmd) : (cmd.result .timeout).isOk = false := by cases cmd <;> rfl
  cases a with
  | ask cmd => exact h.ask (Option.isNone_iff_eq_none.mp ha) (of_decide_eq_true hok)
  | askFails cmd e => exact h.askFails
  | receive => exact h.receive ha
  | receiveClosed =>
    simp only [enabled, Bool.and_eq_true, List.isEmpty_iff] at ha
    obtain ⟨⟨-, hrx⟩, hc⟩ := ha
    exact h.finish (onTheWay_of_closed hrx hc) (fun _ _ _ _ _ h => nomatch h) fun _ => closed
  | timeout =>
    exact h.finish (List.isEmpty_iff.mp hok) (fun _ _ _ _ _ h => nomatch h) fun _ => late
  | drain =>
    refine h.shrink rfl h.started (.refl _) rfl (.refl _) rfl (fun hw => ?_) h.tagged
    refine Nat.le_trans ?_ (h.room hw)
    have htail : s.notifyRx.tail.length ≤ s.notifyRx.length := by simp
    exact Nat.add_le_add_right (Nat.add_le_add_right htail _) _
  | take =>
    refine h.shrink rfl h.started ?_ rfl (.refl _) rfl h.room h.tagged
    simp only [enabled, Bool.and_eq_true, Option.isNone_iff_eq_none] at ha
    obtain ⟨⟨hserve, -⟩, -⟩ := ha
    simp only [pendingAsks, HelperLink.step, hserve]
    cases s.stdin with
    | nil => exact .refl _
    | cons id rest => simp
  | answer texts => exact h.answer ha hok
  | notify n =>
    refine h.print rfl fun hw _ => ?_
    simpa [promptly, Option.isSome_iff_ne_none.mp hw] using hok
  | disconnect =>
    have hd : isNotifyText "DISCONNECT" = false := by decide
    exact h.print rfl fun _ hn => absurd (hd.symm.trans hn) (by decide)
  | exit => exact h.shrink rfl h.started (.refl _) rfl (.refl _) rfl h.room h.tagged
  | read => exact h.read ha
  | pass => exact h.pass
  | tick d => exact h.shrink rfl h.started (.refl _) rfl (.refl _) rfl h.room h.tagged

end

/-- In runs of this kind every value comes from the request's own reply or is
an error, and no reply is withheld. -/
theorem paired_of_promptly {es : List LinkAct} {s : HelperLink}
    (h : helperLink.Trace (fun s a => promptly s a = true) es s) : s.Paired := by
  have orderly : s.Orderly := by
    refine h.invariant (I := fun _ s => s.Orderly) ?_ fun _ _ _ hi ha hok => hi.step ha hok
    exact ⟨nofun, nofun, rfl, .nil, nofun, nofun, Nat.zero_le _, nofun, nofun, nofun⟩
  exact orderly.paired

-- ---------------------------------------------------------------------------
-- The channels of the daemon
-- ---------------------------------------------------------------------------

/-- The daemon's link has the same lines in its channels. -/
structure HelperLink.Shows (h : HelperLink) (l : Link) : Prop where
  responses : l.responseRx = h.responseRx.map Prod.fst
  notifications : l.notifyRx.map Frame.data = h.notifyRx

section
variable {h : HelperLink} {s : Daemon} {id : Option AskId}

theorem HelperLink.Shows.pass_response {text : Str} (hs : h.Shows s.link)
    (hheld : h.held = some (.response text, id)) (ha : h.enabled .pass = true) :
    ∃ s', envStep (.replyLine text) s = some s' ∧ h.pass.Shows s'.link := by
  have hroom : s.link.responseRx.length < responseCapacity := by
    rw [hs.responses, List.length_map]
    simpa [enabled, hheld, fits] using ha
  refine ⟨_, if_pos hroom, ?_, ?_⟩
  · simp [pass, hheld, hs.responses]
  · simp [pass, hheld, hs.notifications]

theorem HelperLink.Shows.pass_notify {f : Frame} (hs : h.Shows s.link)
    (hheld : h.held = some (.notify f.data, id)) (ha : h.enabled .pass = true)
    (hf : genuine f s.aux.worker.nextCmd = true) :
    ∃ s', envStep (.frame f) s = some s' ∧ h.pass.Shows s'.link := by
  have hroom : s.link.notifyRx.length < notifyCapacity := by
    rw [← List.length_map (f := Frame.data), hs.notifications]
    simpa [enabled, hheld, fits] using ha
  refine ⟨_, if_pos ⟨hroom, hf⟩, ?_, ?_⟩
  · simp [pass, hheld, hs.responses, Daemon.note]
  · simp [pass, hheld, ← hs.notifications, Daemon.note]

theorem HelperLink.Shows.receive {k : Option Str → β} {text : Str}
    {rest : List (Str × Option AskId)} (hs : h.Shows s.link)
    (hrx : h.responseRx = (text, id) :: rest) :
    ∃ s', replyLineBranch k s = some (k (some text), s') ∧
      (h.step .receive).Shows s'.link := by
  have hl : s.link.responseRx = text :: rest.map Prod.fst := by rw [hs.responses, hrx]; rfl
  refine ⟨{ s with link := { s.link with responseRx := rest.map Prod.fst } }, ?_, ?_⟩
  · rw [replyLineBranch, hl]
  · simp only [step, hrx, finish]
    split
    · exact ⟨rfl, hs.notifications⟩
    · exact ⟨rfl, hs.notifications⟩

end

-- ---------------------------------------------------------------------------
-- Runs
-- ---------------------------------------------------------------------------

/-- A run of these steps, while each is enabled and `ok`. -/
def HelperLink.run (ok : HelperLink → LinkAct → Bool) (s : HelperLink) :
    List LinkAct → Option HelperLink
  | [] => some s
  | a :: as => if s.enabled a && ok s a then (s.step a).run ok as else none

theorem HelperLink.trace_of_run {ok : HelperLink → LinkAct → Bool} {s s' : HelperLink}
    {es as : List LinkAct} (h : helperLink.Trace (fun s a => ok s a = true) es s)
    (hr : s.run ok as = some s') :
    helperLink.Trace (fun s a => ok s a = true) (as.reverse ++ es) s' := by
  induction as generalizing s es with
  | nil =>
    obtain rfl := Option.some.inj hr
    exact h
  | cons a as ih =>
    rw [run] at hr
    split at hr
    next hc =>
      obtain ⟨ha, hok⟩ := Bool.and_eq_true_iff.mp hc
      simpa using ih (h.cons ha hok) hr
    next => cases hr

/-- A write answered in time, with a notification before the answer. -/
def promptRun : List LinkAct :=
  [.ask (.cmdWrite [0x01, 0x00]), .take, .notify ⟨[0x24], List.cons_ne_nil _ _⟩, .read, .pass,
    .answer ["WRITE_OK"], .read, .pass, .receive, .drain]

theorem paired_of_promptly_write : ∃ s, HelperLink.start.run promptly promptRun = some s ∧
    s.returned = [(0, some 0, .wrote (.ok ()))] ∧ s.Paired := by
  obtain ⟨s, hr, hret⟩ : ∃ s, HelperLink.start.run promptly promptRun = some s ∧
      s.returned = [(0, some 0, .wrote (.ok ()))] := by
    have h : (HelperLink.start.run promptly promptRun).map HelperLink.returned =
        some [(0, some 0, .wrote (.ok ()))] := by decide
    exact Option.map_eq_some_iff.mp h
  exact ⟨s, hr, hret, paired_of_promptly (HelperLink.trace_of_run .nil hr)⟩

/-- The first write is given up, its answer comes and is taken for the answer
to the second. -/
def lateRun : List LinkAct :=
  [.ask (.cmdWrite [0x01, 0x00]), .take, .tick 5000, .timeout, .answer ["WRITE_OK"], .read, .pass,
    .ask (.cmdWrite [0x22, 0x00]), .receive]

/-- A full channel of notifications, and one in front of the answer. -/
def floodRun : List LinkAct :=
  .ask (.cmdWrite [0x01, 0x00]) :: .take ::
    (List.replicate 65 [.notify ⟨[0x24], List.cons_ne_nil _ _⟩, .read, .pass]).flatten.dropLast ++
    [.answer ["WRITE_OK"]]

/-- A late answer goes to the next request, and unread notifications keep an
answer from its request. -/
theorem late_and_withheld :
    (¬ ∀ es s, helperLink.Trace (fun _ _ => True) es s →
      ∀ id j v, (id, some j, v) ∈ s.returned → j = id) ∧
    ¬ ∀ es s, helperLink.Trace (fun _ _ => True) es s →
      ∀ id cmd t text data j, s.waiting = some (id, cmd, t) → .reply id text ∈ s.stdout →
        s.held = some (.notify data, j) → s.notifyRx.length < notifyCapacity := by
  have any {as s} (hr : HelperLink.start.run (fun _ _ => true) as = some s) :
      helperLink.Trace (fun _ _ => True) (as.reverse ++ []) s :=
    (HelperLink.trace_of_run .nil hr).mono fun _ _ _ => trivial
  constructor
  · intro h
    have hrun : (HelperLink.start.run (fun _ _ => true) lateRun).any
        (fun s => (1, some 0, .wrote (.ok ())) ∈ s.returned) = true := by decide
    obtain ⟨s, hr, hs⟩ := (Option.any_eq_true _ _).mp hrun
    exact absurd (h _ s (any hr) 1 0 _ (of_decide_eq_true hs)) (by decide)
  · intro h
    have hrun : (HelperLink.start.run (fun _ _ => true) floodRun).any (fun s =>
        decide (s.waiting = some (0, .cmdWrite [0x01, 0x00], 5000) ∧
          .reply 0 "WRITE_OK" ∈ s.stdout ∧ s.held = some (.notify [0x24], none) ∧
          s.notifyRx.length = notifyCapacity)) = true := by decide +kernel
    obtain ⟨s, hr, hs⟩ := (Option.any_eq_true _ _).mp hrun
    obtain ⟨hw, ho, hh, hfull⟩ := of_decide_eq_true hs
    exact absurd (h _ s (any hr) 0 _ _ _ _ _ hw ho hh) (by rw [hfull]; exact Nat.lt_irrefl _)

end Immurok
