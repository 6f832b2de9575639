import Immurok.Async.Ended
import Immurok.Cli.PanelKeys
import Immurok.DualHost

/-!
# The threads of the panel

The loop of the terminal interface and the threads that its keys start. A thread asks
the daemon and tells the panel; the loop receives what was told in the order in which
it came. Whatever a thread waits for comes at any time.
-/

namespace Immurok.Tui

open Async

-- ---------------------------------------------------------------------------
-- Requests and reports of the jobs
-- ---------------------------------------------------------------------------

/-- All that a job asks the daemon. What is asked for an update is left out. -/
def Job.commands : Job → List Str
  | .slotClear slot => ["SLOT:CLEAR:".toList ++ Str.ofNat slot.toNat]
  | .factoryReset => ["PAIR:FACTORY_RESET"]
  | .pairProgress .. => ["PAIR:PROGRESS"]
  | .pair _ => ["PAIR:START"]
  | .unpair => ["SLOT:CLEAR"]
  | .enroll slot => ["FP:ENROLL:".toList ++ Str.ofNat slot.toNat, "FP:STATUS", "FP:LIST"]
  | .enrollCancel => ["FP:ENROLL_CANCEL"]
  | .delete slot => ["FP:DELETE:".toList ++ Str.ofNat slot.toNat]
  | .verify => ["FP:VERIFY"]
  | .toggle _ cmdKey enabling _ =>
    ["SET:".toList ++ cmdKey ++ ":".toList ++ (if enabling then "1" else "0").toList]
  | .keyAdd cat _ name service secret => [buildKeyAddCmd cat name service secret]
  | .showApi name => ["GET:api:".toList ++ name]
  | .generate name => [generateSsh name]
  | .keyDelete tab idx =>
    ["KEY:DELETE:".toList ++ Str.ofNat tab.catByte.toNat ++ ":".toList ++ Str.ofNat idx.toNat]
  | .otp name => ["GET:otp:".toList ++ name]
  | .fwSilentCheck | .fwCheck | .fwUpdate _ | .logStream => []

/-- The last report of a thread. -/
def Report.final : Report → Bool
  | .done | .logEnded | .fwSilentCheck _ | .fwPrepared _ | .fwFinished _ => true
  | _ => false

def Job.isCheck : Job → Bool
  | .fwCheck => true
  | _ => false

/-- The end of the job is told. -/
def Job.heard : Job → Bool
  | .pairProgress .. | .enrollCancel => false
  | _ => true

/-- Whose report it may be. -/
def Report.of (job : Job) : Report → Bool
  | .message .. =>
    match job with
    | .pairProgress .. => true
    | _ => job.acting && !job.isPush
  | .refresh | .secretMessage _ | .enrollStarted | .enrollProgress .. | .done =>
    job.acting && !job.isPush
  | .logLine _ | .logEnded =>
    match job with
    | .logStream => true
    | _ => false
  | .fwSilentCheck _ =>
    match job with
    | .fwSilentCheck => true
    | _ => false
  | .fwPrepared _ => job.isCheck
  | .fwProgress .. | .fwFinished _ => job.isPush

-- ---------------------------------------------------------------------------
-- The loop
-- ---------------------------------------------------------------------------

/-- The course of a thread: which job it does, and whether it has asked anything. -/
inductive Thread
  | unborn
  | running (job : Job) (asked : Bool)
  | ended (job : Job)

def Thread.ask : Thread → Thread
  | .running job _ => .running job true
  | t => t

def Thread.tell (r : Report) : Thread → Thread
  | .running job asked => if r.final then .ended job else .running job asked
  | t => t

/-- Where the loop is; `helper` waits for the helper of PAM. -/
inductive Phase
  | start
  | poll
  | helper (req : PamRequest)
  | drain
  | refresh
  | closed
  | crashed
  deriving DecidableEq

/-- `queue` is what was told and not received, with who told it; `overlaps` counts the
updates that were begun while something else kept the panel busy. -/
structure Loop where
  panel : Panel
  phase : Phase
  queue : List (TaskId × Report)
  threads : TaskId → Thread
  overlaps : Nat

def Loop.new : Loop :=
  { panel := .new, phase := .start, queue := [], threads := fun _ => .unborn, overlaps := 0 }

/-- What the loop comes upon, from one point of it to the next. -/
inductive Turn
  | started (o : Outside)
  | key (key : Key) (o : Outside)
  | noKey
  | helped (ok : Bool) (o : Outside)
  | drained (elapsed : Bool)
  | refreshed (o : Outside)

namespace Loop

/-- `drain_actions`. -/
def receive (s : Loop) : Loop :=
  { s with panel := s.panel.drainActions (s.queue.map (·.2)), queue := [] }

/-- The updates that a key begins. -/
def pushes (s : Loop) (p : Panel) : Nat :=
  (p.spawned.drop s.panel.spawned.length).countP Job.isPush

def press (s : Loop) (p : Panel) : Loop :=
  { s with panel := p, overlaps := if s.panel.busy then s.overlaps + s.pushes p else s.overlaps }

def pressed (s : Loop) : Checked Outcome → Loop
  | .error _ => { s with phase := .crashed }
  | .ok .quit => { s with phase := .closed }
  | .ok (.again p) => s.press p
  | .ok (.on p req) => { (s.press p) with phase := req.elim .drain .helper }

def wantsRefresh (s : Loop) : Bool := s.queue.any fun told => told.2.wantsRefresh

def turn (s : Loop) : Turn → Option Loop
  | .started o =>
    match s.phase with
    | .start =>
      some { s.receive with
        panel := (s.receive.panel.refresh [] o).spawnFwSilentCheck, phase := .poll }
    | _ => none
  | .key key o =>
    match s.phase with
    | .poll => some (s.pressed (s.panel.handleKey key o))
    | _ => none
  | .noKey =>
    match s.phase with
    | .poll => some { s with phase := .drain }
    | _ => none
  | .helped ok o =>
    match s.phase with
    | .helper req =>
      let s := { s with panel := s.panel.afterPamAction req ok }
      some { s.receive with panel := s.receive.panel.refresh [] o, phase := .drain }
    | _ => none
  | .drained elapsed =>
    match s.phase with
    | .drain =>
      some { s.receive with
        phase := if s.wantsRefresh || elapsed && !s.receive.panel.busy then .refresh else .poll }
    | _ => none
  | .refreshed o =>
    match s.phase with
    | .refresh => some { s.receive with panel := s.receive.panel.refresh [] o, phase := .poll }
    | _ => none

end Loop

inductive LoopEvent
  | turn (t : Turn)
  | began (i : TaskId) (job : Job)
  | asked (i : TaskId) (cmd : Str)
  | told (i : TaskId) (r : Report)

/-- A thread that is to destroy something asks once. -/
def loopMachine : Machine Loop LoopEvent where
  init := .new
  step s
    | .turn t => (s.turn t).getD s
    | .began i job =>
      { s with threads := Function.update s.threads i (.running job false) }
    | .asked i _ => { s with threads := Function.update s.threads i (s.threads i).ask }
    | .told i r =>
      { s with
        queue := s.queue ++ [(i, r)], threads := Function.update s.threads i ((s.threads i).tell r) }
  actor
    | .turn _ => none
    | .began i _ | .asked i _ | .told i _ => some i
  allowed s
    | .turn t => (s.turn t).isSome = true
    | .began i job => s.threads i = .unborn ∧ s.panel.spawned[i]? = some job
    | .asked i cmd => ∃ job asked, s.threads i = .running job asked ∧ cmd ∈ job.commands ∧
      (job.harmless = true ∨ asked = false)
    | .told i r => ∃ job asked, s.threads i = .running job asked ∧ r.of job = true

-- ---------------------------------------------------------------------------
-- The state that the threads share
-- ---------------------------------------------------------------------------

/-- `ProgressEvent`, without the fraction that is transferred. -/
inductive ProgressEvent
  | stage (hop hops : Nat) (name : Str)
  | transfer (hop hops : Nat)
  | reconnect (hop hops : Nat)

/-- What a thread waits for: an answer of the daemon, the next line of the log, and what
comes of a check or an update. -/
inductive Reply
  | answer (r : Except Str Str)
  | line (l : Option Str)
  | newer (v : Option Str)
  | prepared (r : Except Str (Option PreparedUpdate))
  | progress (e : ProgressEvent)
  | finished (r : Except Str Unit)

inductive Wait
  | idle
  | waiting
  | came (r : Reply)

/-- `stops` are the flags by which pairings end their pollers. -/
structure Ui where
  loop : Loop
  log : List LoopEvent
  waits : TaskId → Wait
  stops : Nat → Bool

def Ui.start : Ui :=
  { loop := .new, log := [], waits := fun _ => .idle, stops := fun _ => false }

def Ui.emit (e : LoopEvent) (w : Ui) : Ui :=
  { w with loop := loopMachine.step w.loop e, log := e :: w.log }

def Ui.observed : Observed Ui Loop LoopEvent where
  view := (·.loop)
  log := (·.log)

section
variable (i : TaskId)

def tell (r : Report) : Proc Ui Unit := .modify (·.emit (.told i r))

/-- A notice of something that goes on, if there is one. -/
def notice : Option Str → Proc Ui Unit
  | some msg => tell i (.message msg .yellow)
  | none => .ret ()

def tellAll : List Report → Proc Ui Unit
  | [] => .ret ()
  | r :: rs => do
    tell i r
    tellAll rs

/-- What has come, if it is what `take` is for. -/
def Ui.taken {α : Type} (take : Reply → Option α) (w : Ui) : Option (α × Ui) :=
  match w.waits i with
  | .came r => (take r).map fun a => (a, { w with waits := Function.update w.waits i .idle })
  | _ => none

/-- Waits for something that is not up to the interface. -/
def call {α : Type} (take : Reply → Option α) : Proc Ui α := do
  .modify fun w => { w with waits := Function.update w.waits i .waiting }
  .await (Ui.taken i take)

def Reply.answer? : Reply → Option (Except Str Str)
  | .answer r => some r
  | _ => none

/-- `daemon_send`. -/
def ask (cmd : Str) : Proc Ui (Except Str Str) := do
  .modify (·.emit (.asked i cmd))
  call i Reply.answer?

/-- One request: what is told of its answer, whether the panel is to be refreshed, and
that the action is done. -/
def request (cmd : Str) (say : Except Str Str → Report) (again : Bool) : Proc Ui Unit := do
  let answer ← ask i cmd
  tell i (say answer)
  .when again (tell i .refresh)
  tell i .done

-- ---------------------------------------------------------------------------
-- What is said of an answer
-- ---------------------------------------------------------------------------

def slotClearSaid : Except Str Str → Report
  | .ok rsp =>
    match classifyUnpairResponse rsp with
    | .cleared => .message "Host slot cleared." .green
    | .clearedUnconfirmed | .clearedLocalOnly =>
      .message ("The device's active slot changed — the request was re-routed to ".toList ++
        "THIS computer's own slot, which is now unpaired. The other slot ".toList ++
        "was NOT touched.".toList) .yellow
    | .clearedSlotUnpaired =>
      .message ("The device is on an empty slot and refused the command. No slot ".toList ++
        "was cleared; the local pairing record was dropped. Touch the ".toList ++
        "host-switch finger to bring it back to a paired slot.".toList) .yellow
    | .refused => .message "The device refused to clear that slot. Nothing changed." .red
    | .failed => .message ("Clear failed: ".toList ++ rsp) .red
  | .error e => .message ("Clear error: ".toList ++ e) .red

def factoryResetSaid : Except Str Str → Report
  | .ok rsp =>
    if rsp = "OK:RESET".toList then .message "Device wiped and pairing cleared." .green
    else .message ("Factory reset failed: ".toList ++ rsp ++
      ". Device was NOT wiped — this computer is still paired.".toList) .red
  | .error e => .message ("Factory reset error: ".toList ++ e ++
    ". Device was NOT wiped — this computer is still paired.".toList) .red

/-- What the poller of a pairing says of a stage. -/
def progressSaid (secondHost : Bool) (stage : Str) : Option Str :=
  if stage = "WAIT_FP".toList then some "(1/2) Waiting for your fingerprint on the device…"
  else if stage = "WAIT_BUTTON".toList then
    if secondHost then
      some "(1/2) ✓ fingerprint accepted — (2/2) now press the device button"
    else some "Press the device button…"
  else if stage = "ECDH".toList then some "Button pressed — exchanging keys…"
  else none

def pairSaid : Except Str Str → Report
  | .ok rsp =>
    if rsp = "OK:PAIRED".toList then .message "Pairing successful." .green
    else if rsp = "ERROR:PAIRING_IN_PROGRESS".toList then
      .message ("Another pairing attempt is already in progress — wait for it to ".toList ++
        "finish or time out.".toList) .yellow
    else .message ("Pairing failed: ".toList ++ rsp) .red
  | .error e => .message ("Pairing error: ".toList ++ e) .red

def unpairSaid : Except Str Str → Report
  | .ok rsp =>
    match classifyUnpairResponse rsp with
    | .cleared => .message "This computer unpaired." .green
    | .clearedUnconfirmed =>
      .message ("This computer unpaired (device likely rebooted after clearing; ".toList ++
        "on firmware < 1.6.12 it may still hold this slot — check slot status).".toList) .yellow
    | .clearedLocalOnly =>
      .message ("Local pairing cleared, but the device was unreachable — its slot ".toList ++
        "still holds this host's key. Re-run this while connected.".toList) .yellow
    | .clearedSlotUnpaired =>
      .message ("Local pairing cleared — nothing on the device changed. It is ".toList ++
        "sitting on an empty slot and refuses every command; if this ".toList ++
        "host's key is in the other slot it is still there. Touch the ".toList ++
        "host-switch finger to bring the device back to it.".toList) .yellow
    | .refused =>
      .message ("The device refused to clear this slot. Nothing cleared — this ".toList ++
        "computer is still paired.".toList) .red
    | .failed => .message ("Unpair failed: ".toList ++ rsp) .red
  | .error e => .message ("Unpair error: ".toList ++ e) .red

def deleteSaid (slot : UInt8) : Except Str Str → Report
  | .ok rsp =>
    if Str.contains "DELETED" rsp then
      .message ("Slot ".toList ++ Str.ofNat slot.toNat ++ " deleted.".toList) .green
    else .message ("Delete failed: ".toList ++ rsp) .red
  | .error e => .message ("Delete error: ".toList ++ e) .red

def verifySaid : Except Str Str → Report
  | .ok rsp =>
    if Str.contains "MATCH" rsp ∧ ¬ Str.contains "NO_MATCH" rsp then
      .message "Fingerprint verified." .green
    else if Str.contains "NO_MATCH" rsp then .message "Fingerprint did not match." .red
    else .message ("Verify: ".toList ++ rsp) .red
  | .error e => .message ("Verify error: ".toList ++ e) .red

def toggleSaid (name : Str) (enabling : Bool) (note : Option Str) : Except Str Str → Report
  | .ok rsp =>
    if Str.startsWith "OK" rsp then
      let state := name ++ " → ".toList ++ (if enabling then "ON" else "OFF").toList
      .message (note.elim state fun n => state ++ " — ".toList ++ n) .green
    else .message ("Setting ".toList ++ name ++ " failed: ".toList ++ rsp) .red
  | .error e => .message ("Setting ".toList ++ name ++ " error: ".toList ++ e) .red

def keyAddSaid (label name : Str) : Except Str Str → Report
  | .ok rsp =>
    if Str.startsWith "OK" rsp then
      .message (label ++ " key '".toList ++ name ++ "' added.".toList) .green
    else .message ("Add failed: ".toList ++ rsp) .red
  | .error e => .message ("Add error: ".toList ++ e) .red

def showApiSaid (name : Str) : Except Str Str → Report
  | .ok rsp =>
    match parseSecretReply rsp with
    | .ok value => .secretMessage ("API key '".toList ++ name ++ "': ".toList ++ value)
    | .error rsp => .message ("Fetch failed: ".toList ++ rsp) .red
  | .error e => .message ("Fetch error: ".toList ++ e) .red

/-- `parse_write_reply`, behind an error of the connection. -/
def parseWriteReply (answer : Except Str Str) : Except Str Unit := do
  let rsp ← answer
  if Str.startsWith "OK" (Str.trim rsp) then .ok () else .error (Str.trim rsp)

def generateSaid (name : Str) (answer : Except Str Str) : Report :=
  match parseWriteReply answer with
  | .ok () => .message ("SSH keypair '".toList ++ name ++ "' generated.".toList) .green
  | .error e => .message ("Generate failed: ".toList ++ e) .red

def keyDeleteSaid (tab : KeyTab) (idx : UInt8) : Except Str Str → Report
  | .ok rsp =>
    if Str.startsWith "OK" rsp then
      .message (tab.label ++ " key [".toList ++ Str.ofNat idx.toNat ++ "] deleted.".toList) .green
    else .message ("Delete failed: ".toList ++ rsp) .red
  | .error e => .message ("Delete error: ".toList ++ e) .red

def otpSaid (name : Str) : Except Str Str → Report
  | .ok rsp =>
    match parseSecretReply rsp with
    | .ok code => .secretMessage ("OTP code for '".toList ++ name ++ "': ".toList ++ code)
    | .error rsp => .message ("OTP failed: ".toList ++ rsp) .red
  | .error e => .message ("OTP error: ".toList ++ e) .red

-- ---------------------------------------------------------------------------
-- Pairing
-- ---------------------------------------------------------------------------

def runPairProgress (flag : Nat) (secondHost : Bool) : Proc Ui Unit :=
  .repeatFrom ([] : Str) fun last => do
    if ← .get (·.stops flag) then .ret (.inr ())
    else do
      let answer ← ask i "PAIR:PROGRESS"
      match answer with
      | .error _ => .ret (.inl last)
      | .ok line =>
        let stage := ((line.splitOn ':')[1]?).getD []
        if stage = last then .ret (.inl last)
        else do
          notice i (progressSaid secondHost stage)
          .ret (.inl stage)

def runPair (flag : Nat) : Proc Ui Unit := do
  let answer ← ask i "PAIR:START"
  .modify fun w => { w with stops := Function.update w.stops flag true }
  tellAll i [pairSaid answer, .refresh, .done]

-- ---------------------------------------------------------------------------
-- Enrollment
-- ---------------------------------------------------------------------------

/-- What `FP:STATUS` is read as; `other` is what the loop goes over. -/
inductive EnrollLine
  | other
  | idle
  | event (event current total : UInt8)

def readEnrollLine (rsp : Str) : EnrollLine :=
  match rsp.splitOn ':' with
  | kind :: second :: rest =>
    if kind ≠ "OK".toList then .other
    else if second = "IDLE".toList then .idle
    else
      match Str.parseU8 second with
      | .error _ => .other
      | .ok event =>
        .event event ((rest[0]?.bind fun s => (Str.parseU8 s).toOption).getD 0)
          ((rest[1]?.bind fun s => (Str.parseU8 s).toOption).getD 6)
  | _ => .other

/-- The bit of the slot in the answer to `FP:LIST`. -/
def listsSlot (slot : UInt8) (rsp : Str) : Bool :=
  match rsp.splitOn ':' with
  | kind :: bitmap :: _ =>
    kind == "OK".toList && (Str.parseU8 bitmap).toOption.any fun bm => bm &&& (1 <<< slot) != 0
  | _ => false

/-- `left` are the polls that are left. -/
structure Polling where
  left : Nat
  lastEvent : UInt8
  lastCurrent : UInt8
  bitmapPolls : Nat

def enrolled (slot : UInt8) : List Report :=
  [.message ("Slot ".toList ++ Str.ofNat slot.toNat ++ " enrolled.".toList) .green, .refresh, .done]

/-- What is said of an event that is not the end. -/
def eventSaid (event current total : UInt8) : Option Str :=
  if event = 0x00 then some "Place finger on sensor…"
  else if event = 0x01 then
    let captured := "Captured [".toList ++ Str.ofNat current.toNat ++ "/".toList ++
      Str.ofNat total.toNat ++ "]".toList
    some (if current < total then captured ++ " — lift and press again".toList else captured)
  else if event = 0x02 then some "Processing…"
  else none

/-- A poll, with `.inr` for the end of the enrollment. -/
def enrollPoll (slot : UInt8) (s : Polling) : Proc Ui (Polling ⊕ Except Str Unit) :=
  if s.left = 0 then .ret (.inr (.error "Enrollment timed out"))
  else do
    let s := { s with left := s.left - 1 }
    let answer ← ask i "FP:STATUS"
    match answer with
    | .error _ => .ret (.inl s)
    | .ok rsp =>
      match readEnrollLine rsp with
      | .other => .ret (.inl s)
      | .idle => do
        let s := { s with bitmapPolls := s.bitmapPolls + 1 }
        if s.bitmapPolls % 20 ≠ 0 then .ret (.inl s)
        else do
          let listed ← ask i "FP:LIST"
          match listed with
          | .error _ => .ret (.inl s)
          | .ok listed =>
            if listsSlot slot listed then do
              tellAll i (enrolled slot)
              .ret (.inr (.ok ()))
            else .ret (.inl s)
      | .event event current total => do
        tell i (.enrollProgress current total)
        if event = s.lastEvent ∧ current = s.lastCurrent then .ret (.inl s)
        else do
          let s := { s with lastEvent := event, lastCurrent := current }
          if event = 0x04 then do
            tellAll i (enrolled slot)
            .ret (.inr (.ok ()))
          else if event = 0xFF then .ret (.inr (.error "Enrollment failed"))
          else do
            notice i (eventSaid event current total)
            .ret (.inl s)

def enrollSteps (slot : UInt8) : Proc Ui (Except Str Unit) := do
  let answer ← ask i ("FP:ENROLL:".toList ++ Str.ofNat slot.toNat)
  match answer with
  | .error e => .ret (.error e)
  | .ok rsp =>
    if Str.contains "ENROLL_STARTED" rsp then do
      tell i .enrollStarted
      tell i (.message "Enrollment started — place finger…" .yellow)
      .repeatFrom (⟨2400, 255, 255, 0⟩ : Polling) (enrollPoll i slot)
    else .ret (.error ("Start failed: ".toList ++ rsp))

def runEnroll (slot : UInt8) : Proc Ui Unit := do
  let result ← enrollSteps i slot
  match result with
  | .ok () => .ret ()
  | .error e => tellAll i [.message ("Enroll error: ".toList ++ e) .red, .refresh, .done]

-- ---------------------------------------------------------------------------
-- Firmware and the log
-- ---------------------------------------------------------------------------

def stageLabel (name : Str) : Str :=
  if name = "info".toList then "querying device"
  else if name = "erase".toList then "erasing Image B"
  else if name = "header".toList then "sending header"
  else if name = "write".toList then "writing firmware"
  else if name = "end".toList then "verifying + rebooting"
  else if name = "retry".toList then "retrying after transfer error"
  else "working"

def ProgressEvent.report : ProgressEvent → Report
  | .stage hop hops name => .fwProgress (stageLabel name) (hop + 1) hops
  | .transfer hop hops => .fwProgress "writing firmware" (hop + 1) hops
  | .reconnect hop hops => .fwProgress "waiting for device reboot" (hop + 1) hops

def Reply.newer? : Reply → Option (Option Str)
  | .newer v => some v
  | _ => none

def Reply.prepared? : Reply → Option (Except Str (Option PreparedUpdate))
  | .prepared r => some r
  | _ => none

def Reply.update? : Reply → Option (ProgressEvent ⊕ Except Str Unit)
  | .progress e => some (.inl e)
  | .finished r => some (.inr r)
  | _ => none

def Reply.line? : Reply → Option (Option Str)
  | .line l => some l
  | _ => none

def runFwUpdate (prep : PreparedUpdate) : Proc Ui Unit := do
  let result ← .loop do
    let reply ← call i Reply.update?
    match reply with
    | .inl e => do
      tell i e.report
      .ret none
    | .inr r => .ret (some r)
  tell i (.fwFinished (result.map fun _ => prep.targetVersion))

def runLogStream : Proc Ui Unit := do
  .loop do
    let line ← call i Reply.line?
    match line with
    | some l => do
      tell i (.logLine l)
      .ret none
    | none => .ret (some ())
  tell i .logEnded

/-- The code of a thread. -/
def Job.run : Job → Proc Ui Unit
  | .slotClear slot =>
    request i ("SLOT:CLEAR:".toList ++ Str.ofNat slot.toNat) slotClearSaid true
  | .factoryReset => request i "PAIR:FACTORY_RESET" factoryResetSaid true
  | .pairProgress flag secondHost => runPairProgress i flag secondHost
  | .pair flag => runPair i flag
  | .unpair => request i "SLOT:CLEAR" unpairSaid true
  | .enroll slot => runEnroll i slot
  | .enrollCancel => do
    let _ ← ask i "FP:ENROLL_CANCEL"
    .ret ()
  | .delete slot =>
    request i ("FP:DELETE:".toList ++ Str.ofNat slot.toNat) (deleteSaid slot) true
  | .verify => request i "FP:VERIFY" verifySaid false
  | .toggle name cmdKey enabling note =>
    request i ("SET:".toList ++ cmdKey ++ ":".toList ++ (if enabling then "1" else "0").toList)
      (toggleSaid name enabling note) true
  | .keyAdd cat label name service secret =>
    request i (buildKeyAddCmd cat name service secret) (keyAddSaid label name) true
  | .showApi name => request i ("GET:api:".toList ++ name) (showApiSaid name) false
  | .generate name => request i (generateSsh name) (generateSaid name) true
  | .keyDelete tab idx =>
    request i ("KEY:DELETE:".toList ++ Str.ofNat tab.catByte.toNat ++ ":".toList ++
      Str.ofNat idx.toNat) (keyDeleteSaid tab idx) true
  | .otp name => request i ("GET:otp:".toList ++ name) (otpSaid name) false
  | .fwSilentCheck => do
    let v ← call i Reply.newer?
    tell i (.fwSilentCheck v)
  | .fwCheck => do
    let r ← call i Reply.prepared?
    tell i (.fwPrepared r)
  | .fwUpdate prep => runFwUpdate i prep
  | .logStream => runLogStream i

/-- The job that was started under the number of the thread. -/
def Ui.begun (w : Ui) : Option (Job × Ui) :=
  match w.loop.threads i with
  | .unborn => w.loop.panel.spawned[i]?.map fun job => (job, w.emit (.began i job))
  | _ => none

def thread : Proc Ui Unit := do
  let job ← .await (Ui.begun i)
  job.run i

end

inductive Outer
  | turn (t : Turn)
  | reply (i : TaskId) (r : Reply)

def interface : System Ui Outer Unit where
  env
    | .turn t, w =>
      (w.loop.turn t).map fun s => { w with loop := s, log := .turn t :: w.log }
    | .reply i r, w =>
      match w.waits i with
      | .waiting => some { w with waits := Function.update w.waits i (.came r) }
      | _ => none
  serve i _ := thread i

end Immurok.Tui
