import Immurok.Daemon.Keystore
import Immurok.DualHost

/-!
# The BLE worker

The one task that talks to the device: it connects through a helper process,
serves queued commands one at a time, and routes the frames of the device to
whatever it is waiting for. While it waits for the answer of one command it
takes frames from the same channel as in its main loop.
-/

namespace Immurok

open Async

-- ---------------------------------------------------------------------------
-- The helper process
-- ---------------------------------------------------------------------------

/-- A line written to the helper; `written` happens if it gets through. -/
def writeLine (written : Daemon → Daemon) : Code (Except Str Unit) :=
  .act (fun s => [(.ok (), written s),
    (.error "helper stdin write failed: Broken pipe (os error 32)", s)]) .ret

/-- The next reply line of the helper; `none` once its output has ended. -/
def replyLineBranch (k : Option Str → β) (s : Daemon) : Option (β × Daemon) :=
  match s.link.responseRx with
  | line :: rest => some (k (some line), { s with link := { s.link with responseRx := rest } })
  | [] => if s.link.exited then some (k none, s) else none

/-- The next reply line, its absence, or the end of the wait. -/
inductive HelperReply
  | line (line : Str)
  | closed
  | timeout

def awaitHelper : Code HelperReply := do
  let now ← clock
  Proc.select [replyLineBranch fun line => line.elim .closed .line,
    deadlineBranch (now + secs 5) .timeout]

def waitWriteOk : Code (Except Str Unit) := do
  match ← awaitHelper with
  | .line line =>
    if line = "WRITE_OK".toList then pure (.ok ())
    else
      match Str.stripPrefix "WRITE_ERR:" line with
      | some err => pure (.error ("write failed: ".toList ++ err))
      | none => pure (.error ("unexpected response: ".toList ++ line))
  | .closed => pure (.error "helper response channel closed")
  | .timeout => pure (.error "write response timeout")

def waitReadResponse : Code (Except Str Bytes) := do
  match ← awaitHelper with
  | .line line =>
    match Str.stripPrefix "READ_OK:" line with
    | some hexData =>
      pure ((Str.hexDecode hexData).mapError fun e => "hex decode error: ".toList ++ e)
    | none =>
      match Str.stripPrefix "READ_ERR:" line with
      | some err => pure (.error ("read failed: ".toList ++ err))
      | none => pure (.error ("unexpected response: ".toList ++ line))
  | .closed => pure (.error "helper response channel closed")
  | .timeout => pure (.error "read response timeout")

/-- A frame written to the command characteristic; `ev` is its event. -/
def cmdWrite (ev : Aux → Ev) : Code (Except Str Unit) :=
  tryThen (writeLine fun s => s.note (ev s.aux)) fun _ => waitWriteOk

def otaCharWrite (_data : Bytes) : Code (Except Str Unit) :=
  tryThen (writeLine id) fun _ => waitWriteOk

def otaCharRead : Code (Except Str Bytes) :=
  tryThen (writeLine id) fun _ => waitReadResponse

/-- The frame of a command, and one that is written beside it. -/
def commandWritten (data : Bytes) (a : Aux) : Ev := .wrote a.worker.nextCmd data a.worker.job

def pokeWritten (data : Bytes) (a : Aux) : Ev := .poked a.worker.nextCmd data

-- ---------------------------------------------------------------------------
-- Routing
-- ---------------------------------------------------------------------------

def updateBle (f : BleState → BleState) : Code Unit :=
  Proc.modify fun s => { s with ble := f s.ble }

def readBle (f : BleState → α) : Code α := Proc.get fun s => f s.ble

def sendAck : Code Unit := do
  let _ ← cmdWrite (pokeWritten [cmdFpMatchAck, 0x00])
  pure ()

def hmacTruncated (ext : Extern) (key data : Bytes) : Bytes := (ext.hmacSha256 key data).take 8

def verifyFpMatchSigned (ext : Extern) (key : Bytes) (f : Frame) : Bool :=
  hmacTruncated ext key (0x21 :: (f.data.drop 1).take 2) == f.data.drop 3

/-- The pairing read on the way of a match. -/
def loadPairing : Code (Option PairingData) :=
  Proc.atomically fun s =>
    (s.coord.pairing, s.note (.pairingRead (s.coord.pairing.map PairingData.sharedKey)))

def handleFpMatchSigned (ext : Extern) (f : Frame) : Code Unit := do
  let pairFpGate ← readBle (·.pairFpGate)
  if pairFpGate then sendAck
  else
    match ← loadPairing with
    | none => pure ()
    | some p =>
      if !verifyFpMatchSigned ext p.sharedKey f then pure ()
      else
        Proc.modify (Daemon.note (.matchVerified p.sharedKey f))
        sendAck
        let waiting ← readBle fun b => b.gatePending || b.authPending
        Proc.when (!waiting) (onFpMatch ext f)

/-- The events of the pairing button, a frame of any length. -/
def routePairButton (data : Bytes) : Code Unit :=
  match data with
  | [_, status] => do
    let pending ← readBle (·.pairButtonPending)
    match classifyPairButton status with
    | .confirmed => Proc.when pending (setPairProgress .ecdh)
    | .fingerprintOk => Proc.when pending do
      updateBle fun b => { b with pairButtonFpOk := true }
      setPairProgress .waitButton
    | .terminal st => Proc.when pending do
      updateBle fun b => { b with pairButton := b.pairButton.send st }
    | .ignore => pure ()
  | _ => pure ()

/-- The command whose answer the worker waits for. -/
def Daemon.awaited (s : Daemon) : CmdId := s.aux.worker.phase.awaiting.getD 0

/-- The frame resolves a wait, if its receiver is still there. -/
def deliver (d : Delivery) (f : Frame) (isOpen : Daemon → Bool) (send : Daemon → Daemon) :
    Code Unit :=
  Proc.modify fun s => if isOpen s then (send s).note (.delivered d s.awaited f) else send s

def resolveGate (f : Frame) (r : GateResult) : Code Unit :=
  deliver (.gate r) f (·.ble.gate.isOpen) fun s =>
    { s with ble := { s.ble with gate := s.ble.gate.send r, gatePending := false } }

def resolveAuth (f : Frame) (b : Bool) : Code Unit :=
  deliver (.auth b) f (·.ble.auth.isOpen) fun s =>
    { s with ble := { s.ble with auth := s.ble.auth.send b, authPending := false } }

def resolveResponse (f : Frame) : Code Unit :=
  deliver .response f (·.ble.response.isOpen) fun s =>
    { s with ble := { s.ble with response := s.ble.response.send f.data } }

/-- A mismatch counts against the wait for a touch; the last one ends it. -/
def countFailure (last : Code Unit) : Code Unit := do
  let failures ← Proc.atomically fun s =>
    (s.ble.authFailures + 1, { s with ble := { s.ble with authFailures := s.ble.authFailures + 1 } })
  Proc.when (fpGateMaxFailures ≤ failures) last

/-- The errors that end a wait for a touch. -/
def isTouchError (first : UInt8) : Bool :=
  first = rspErrTimeout || first = rspInvalidParam || first = rspError

/-- What is no notification is an answer, and goes to what is waiting. -/
def routeAnswer (f : Frame) (first : UInt8) : Code Unit := do
  let gatePending ← readBle (·.gatePending)
  let authPending ← readBle (·.authPending)
  let pairFpGate ← readBle (·.pairFpGate)
  if first = rspFpGateApproved ∧ (gatePending ∨ pairFpGate) then pure ()
  else if first = rspErrFpNotMatch ∧ gatePending then
    countFailure (resolveGate f (false, some rspErrFpNotMatch))
  else if first = rspErrFpNotMatch ∧ authPending then countFailure (resolveAuth f false)
  else if first = rspOk ∧ gatePending then resolveGate f (true, none)
  else if first = rspOk ∧ authPending then resolveAuth f true
  else if gatePending ∧ isTouchError first then resolveGate f (false, some first)
  else if authPending ∧ isTouchError first then resolveAuth f false
  else resolveResponse f

/-- What the device sends on its own, told by its first byte and length. -/
def isNotification (data : Bytes) : Bool :=
  match data with
  | [] => false
  | first :: _ =>
    first = notifyFpMatchSigned && data.length = 11 ||
    first = notifyLockRequest && data.length = 1 ||
    first = notifyEnrollKeepalive && data.length = 4 ||
    first = notifyEnrollProgress && data.length = 4 ||
    first = notifyConnParamUpdate && data.length = 6 ||
    first = cmdPairButton

/-- `0x04` says that an enrollment is complete. -/
def routeEnroll (status current total : UInt8) : Code Unit := do
  Proc.when (status = 0x04) (store fun c => { c with fpBitmapStale := true })
  store fun c => { c with lastEnrollEvent := some (status, current, total) }

def routeNotification (ext : Extern) (f : Frame) : Code Unit :=
  match f.data with
  | [] => pure ()
  | first :: rest =>
    let len := f.data.length
    if first = notifyFpMatchSigned ∧ len = 11 then handleFpMatchSigned ext f
    else if first = notifyLockRequest ∧ len = 1 then handleLockRequest ext
    else if first = notifyEnrollKeepalive ∧ len = 4 then pure ()
    else if first = notifyEnrollProgress ∧ len = 4 then
      routeEnroll (rest.getD 0 0) (rest.getD 1 0) (rest.getD 2 0)
    else if first = notifyConnParamUpdate ∧ len = 6 then pure ()
    else if first = cmdPairButton then routePairButton f.data
    else routeAnswer f first

-- ---------------------------------------------------------------------------
-- Commands
-- ---------------------------------------------------------------------------

/-- The branch of a `select` that takes the next frame. -/
def notifyBranch (k : Frame → β) (s : Daemon) : Option (β × Daemon) :=
  match s.link.notifyRx with
  | [] => none
  | f :: rest =>
    some (k f, Daemon.note (.routed f) { s with link := { s.link with notifyRx := rest } })

/-- A new channel for the response; a stale sender is dropped. -/
def armResponse : Code Unit :=
  Proc.modify fun s => Daemon.note (.responseArmed s.aux.worker.nextCmd)
    { s with ble := { s.ble with response := .new } }

/-- The receiver of the response is dropped on the way out. -/
def leaveResponse : Code Unit :=
  Proc.modify fun s => Daemon.note .responseLeft
    { s with ble := { s.ble with response := s.ble.response.dropRx } }

/-- What ends a wait: the channel, a frame to route, or the deadline. -/
inductive Waited (α : Type)
  | resolved (a : α)
  | frame (f : Frame)
  | cancelled
  | timeout

def responseBranch (s : Daemon) : Option (Waited (Option Bytes) × Daemon) :=
  s.ble.response.recv.map fun got => (.resolved got, s)

/-- `[cmd][len][payload]`. -/
def packet (cmd : UInt8) (payload : Bytes) : Bytes := cmd :: UInt8.ofNat payload.length :: payload

/-- The response until the deadline; frames that arrive in the meantime are
routed. -/
def awaitResponse (ext : Extern) (cmd : UInt8) (deadline : Nat) : Code (Except Str Bytes) :=
  Proc.loop do
    match ← Proc.select [responseBranch, notifyBranch .frame, deadlineBranch deadline .timeout] with
    | .resolved (some data) => pure (some (.ok data))
    | .resolved none => pure (some (.error ("response dropped: 0x".toList ++ Str.hexByte cmd)))
    | .frame f => do
      routeNotification ext f
      pure none
    | .cancelled => pure none
    | .timeout => do
      updateBle fun b => { b with response := b.response.dropTx }
      pure (some (.error ("timeout: 0x".toList ++ Str.hexByte cmd)))

/-- The packet is written and its response awaited. -/
def sendCommandInner (ext : Extern) (cmd : UInt8) (payload : Bytes) (timeout : Nat) :
    Code (Except Str Bytes) := do
  armResponse
  match ← cmdWrite (commandWritten (packet cmd payload)) with
  | .error e =>
    leaveResponse
    pure (.error e)
  | .ok () => do
    let now ← clock
    let result ← awaitResponse ext cmd (now + timeout)
    leaveResponse
    pure result

-- ---------------------------------------------------------------------------
-- Waiting for a touch
-- ---------------------------------------------------------------------------

/-- The request the worker has in hand. -/
def Daemon.request (s : Daemon) : ReplyId := (s.aux.worker.job.map Job.reply).getD 0

def armGate : Code Unit :=
  Proc.modify fun s => Daemon.note (.touchArmed .gate s.request s.awaited)
    { s with ble := { s.ble with gatePending := true, gate := .new, authFailures := 0 } }

def armAuth : Code Unit :=
  Proc.modify fun s => Daemon.note (.touchArmed .auth s.request s.awaited)
    { s with ble := { s.ble with authPending := true, auth := .new, authFailures := 0 } }

/-- A round of the wait begins with a new `notified()`. -/
def parkTouch (w : Touch) : Code Unit :=
  Proc.modify fun s => Daemon.note (.touchParked w) { s with
    coord := { s.coord with
      cancels := s.coord.cancels.set w (s.coord.cancels.get w).park } }

/-- The wait's `notified()` is dropped when another branch is taken. -/
def Daemon.unparkTouch (w : Touch) (s : Daemon) : Daemon :=
  { s with coord := { s.coord with
    cancels := s.coord.cancels.set w (s.coord.cancels.get w).unpark } }

/-- The channel and the flag of a wait, once it is over. -/
def Daemon.closeTouch (w : Touch) (s : Daemon) : Daemon :=
  match w with
  | .gate => { s with ble := { s.ble with gatePending := false, gate := s.ble.gate.dropTx.dropRx } }
  | .auth => { s with ble := { s.ble with authPending := false, auth := s.ble.auth.dropTx.dropRx } }

def leaveTouch (w : Touch) (s : Daemon) : Daemon :=
  Daemon.note (.touchLeft w s.request) ((s.unparkTouch w).closeTouch w)

def gateBranch (s : Daemon) : Option (Waited GateResult × Daemon) :=
  s.ble.gate.recv.map fun got =>
    (.resolved (got.getD (false, some rspError)), leaveTouch .gate s)

def authBranch (s : Daemon) : Option (Waited Bool × Daemon) :=
  s.ble.auth.recv.map fun got => (.resolved (got.getD false), leaveTouch .auth s)

def touchFrameBranch (w : Touch) (s : Daemon) : Option (Waited α × Daemon) :=
  notifyBranch .frame (s.unparkTouch w)

def cancelBranch (w : Touch) (s : Daemon) : Option (Waited α × Daemon) :=
  (s.coord.cancels.get w).notified.map fun p =>
    (.cancelled, Daemon.note (.touchCancelled w s.request p.1)
      (Daemon.closeTouch w
        { s with coord := { s.coord with cancels := s.coord.cancels.set w p.2 } }))

def touchDeadlineBranch (w : Touch) (t : Nat) (s : Daemon) : Option (Waited α × Daemon) :=
  deadlineBranch t .timeout (leaveTouch w s)

/-- A wait for a touch until it is resolved, cancelled or over; frames that
arrive in the meantime are routed. -/
def touchLoop (ext : Extern) (w : Touch) (resolved : Daemon → Option (Waited α × Daemon))
    (deadline : Nat) : Code (Waited α) :=
  Proc.loop do
    parkTouch w
    match ← Proc.select [resolved, touchFrameBranch w, cancelBranch w,
        touchDeadlineBranch w deadline] with
    | .frame f => do
      routeNotification ext f
      pure none
    | result => pure (some result)

/-- The caller's cancel goes on the wire from here: the queue is blocked. -/
def writeGateCancel : Code Unit := do
  let _ ← cmdWrite (pokeWritten [cmdGateCancel, 0x00])
  pure ()

def gateFailure : GateResult → BleResult
  | (true, _) => .ok (rspOk, [rspOk])
  | (false, some e) => .error ("FP-gate failed: 0x".toList ++ Str.hexByte e)
  | (false, none) => .error "FP-gate failed"

/-- How the wait of a gated command ended. -/
def gateOutcome : Waited GateResult → Code BleResult
  | .resolved r => pure (gateFailure r)
  | .cancelled => do
    writeGateCancel
    pure (.error "FP-gate cancelled")
  | _ => pure (.error "FP-gate timeout")

/-- Send, be told to wait for a finger, wait. `gate_active` is set for the
wait and, on its way out after a cancel, for the write of `GATE_CANCEL`. -/
def sendFpGatedInner (ext : Extern) (cmd : UInt8) (payload : Bytes) : Code BleResult := do
  match ← sendCommandInner ext cmd payload bleCommandTimeout with
  | .error e => pure (.error e)
  | .ok [] => pure (.error "empty response")
  | .ok (status :: rest) =>
    if status = rspOk then pure (.ok (rspOk, rest))
    else if status ≠ rspWaitFp ∧ status ≠ rspFpGateApproved then
      pure (.error ("0x".toList ++ Str.hexByte cmd ++ " failed: 0x".toList ++ Str.hexByte status))
    else do
      armGate
      let now ← clock
      store fun c => { c with gateActive := true }
      let waited ← touchLoop ext .gate gateBranch (now + bleFpGateTimeout)
      let result ← gateOutcome waited
      store fun c => { c with gateActive := false }
      pure result

/-- How the wait of an `AUTH_REQUEST` ended. -/
def authOutcome : Waited Bool → Code (Except Str Bool)
  | .resolved b => pure (.ok b)
  | .cancelled => do
    writeGateCancel
    pure (.ok false)
  | _ => pure (.ok false)

/-- `AUTH_REQUEST`: send, be told to wait for a finger, wait. -/
def doAuthRequest (ext : Extern) : Code (Except Str Bool) := do
  match ← sendCommandInner ext cmdAuthRequest [] bleCommandTimeout with
  | .error e => pure (.error e)
  | .ok [] => pure (.error "empty response")
  | .ok (status :: _) =>
    if status = rspOk then pure (.ok true)
    else if status ≠ rspWaitFp then
      pure (.error ("AUTH_REQUEST failed: 0x".toList ++ Str.hexByte status))
    else do
      armAuth
      let now ← clock
      let waited ← touchLoop ext .auth authBranch (now + bleAuthTimeout)
      authOutcome waited

-- ---------------------------------------------------------------------------
-- Pairing
-- ---------------------------------------------------------------------------

/-- A new channel for the answer that is still to come. -/
def armPairing : Code Unit :=
  Proc.modify fun s => Daemon.note (.pairingArmed s.awaited)
    { s with ble := { s.ble with response := .new } }

inductive ButtonWait
  | response (r : Option Bytes)
  | button (status : Option UInt8)
  | frame (f : Frame)
  | timeout

def buttonError (status : Option UInt8) : Str :=
  match status with
  | none => "pair: button channel dropped"
  | some s =>
    if s = pairButtonTimeout then "pair timeout: button not pressed within 30s"
    else if s = pairButtonCancelled then "pair cancelled (long-press on device)"
    else "unknown button status: 0x".toList ++ Str.hexByte s

/-- The round of the wait that was reached with this deadline; the deadline
moves once, when the device reports the fingerprint half done. -/
def pairButtonRound (ext : Extern) (deadline : Nat) (extended : Bool) :
    Code ((Nat × Bool) ⊕ Except Str Bytes) := do
  match ← Proc.select [
      fun s => s.ble.response.recv.map fun got => (ButtonWait.response got, s),
      fun s => s.ble.pairButton.recv.map fun got => (ButtonWait.button got, s),
      notifyBranch .frame,
      deadlineBranch deadline .timeout] with
  | .response (some data) => pure (.inr (.ok data))
  | .response none => pure (.inr (.error "pair: response channel dropped"))
  | .button status => pure (.inr (.error (buttonError status)))
  | .frame f => do
    routeNotification ext f
    let fpOk ← readBle (·.pairButtonFpOk)
    if fpOk && !extended then do
      let now ← clock
      pure (.inl (now + blePairButtonTimeout, true))
    else pure (.inl (deadline, extended))
  | .timeout => pure (.inr (.error "pair timeout: no button event"))

def waitPairButton (ext : Extern) : Code (Except Str Bytes) := do
  updateBle fun b =>
    { b with pairButtonPending := true, pairButton := .new, pairButtonFpOk := false }
  armPairing
  let now ← clock
  let result ← Proc.repeatFrom (now + blePairButtonTimeout, false) fun (deadline, extended) =>
    pairButtonRound ext deadline extended
  updateBle fun b =>
    { b with
      pairButtonPending := false
      pairButton := b.pairButton.dropTx.dropRx
      pairButtonFpOk := false }
  leaveResponse
  pure result

/-- One answer of the pairing's fingerprint gate. -/
def pairFpGateAnswer (ext : Extern) (deadline : Nat) : Code (Except Str Bytes) := do
  armPairing
  let answer ← Proc.loop do
    match ← Proc.select [responseBranch, notifyBranch .frame, deadlineBranch deadline .timeout] with
    | .resolved (some data) => pure (some (.ok data))
    | .resolved none => pure (some (.error "pair FP-gate: channel dropped"))
    | .frame f => do
      routeNotification ext f
      pure none
    | .cancelled => pure none
    | .timeout => pure (some (.error "pair FP-gate timeout"))
  leaveResponse
  pure answer

def waitPairFpGate (ext : Extern) : Code (Except Str Bytes) := do
  updateBle fun b => { b with pairFpGate := true, authFailures := 0 }
  let now ← clock
  let result ← Proc.loop do
    match ← pairFpGateAnswer ext (now + secs 30) with
    | .error e => pure (some (.error e))
    | .ok rsp =>
      if rsp = [rspErrFpNotMatch] then do
        let failures ← Proc.atomically fun s => (s.ble.authFailures + 1,
          { s with ble := { s.ble with authFailures := s.ble.authFailures + 1 } })
        if fpGateMaxFailures ≤ failures then pure (some (.error "too many FP mismatches"))
        else pure none
      else if rsp = [rspErrTimeout] ∨ rsp = [rspError] ∨ rsp = [rspBusy] then
        pure (some (.error ("pair FP-gate error: 0x".toList ++ Str.hexByte (rsp.headD 0))))
      else pure (some (.ok rsp))
  updateBle fun b => { b with pairFpGate := false }
  pure result

/-- What `PAIR_INIT` has come to: to be tried again, failed, or answered. -/
inductive PairInit
  | retry
  | failed (e : Str)
  | answered (rsp : Bytes)

/-- `PAIR_INIT` with the touch and the button its answer asks for. -/
def pairInit (ext : Extern) (secondHost : Bool) : Code PairInit := do
  match ← sendCommandInner ext cmdPairInit [] (secs 30) with
  | .error e => pure (.failed e)
  | .ok rsp =>
    if rsp = [0xE1] then pure .retry
    else if rsp = [cmdPairInit, rspPairNeedsReset] then
      pure (.failed "device still has fingerprints; factory reset before re-pair")
    else if rsp = [cmdPairInit, rspPairWaitButton] then do
      setPairProgress (if secondHost then .waitFp else .waitButton)
      match ← waitPairButton ext with
      | .error e => pure (.failed e)
      | .ok rsp => pure (if rsp = [0xE1] then .retry else .answered rsp)
    else if rsp = [rspWaitFp] then do
      match ← waitPairFpGate ext with
      | .error e => pure (.failed e)
      | .ok rsp => pure (if rsp = [0xE1] then .retry else .answered rsp)
    else pure (.answered rsp)

/-- The keys agreed on and kept; a failure to save is only logged. -/
def establishPairing (devicePubkey sharedKey : Bytes) : Code Unit := do
  let now ← clock
  let pairing : PairingData :=
    { deviceUuid := Str.hexEncode devicePubkey
      sharedKey
      pairedAt := Str.ofNat (now / 1000) ++ "Z".toList }
  setPairing 0 (some pairing)
  let saved ← Proc.choose [true, false]
  Proc.when saved (Proc.modify fun s => { s with files := { s.files with pairing := some pairing } })
  store fun c => { c with deviceReportsUnpaired := false }
  setVerified 0 true

/-- From the device's public key to a pairing. -/
def confirmPairing (ext : Extern) (rsp : Bytes) : Code BleResult := do
  if rsp.length < 1 + compressedPubkeyLen ∨ rsp.headD 0 ≠ cmdPairInit then
    pure (.error ("PAIR_INIT bad response: ".toList ++ Str.hexEncode rsp))
  else do
    let devicePubkey := (rsp.drop 1).take compressedPubkeyLen
    let (appSecret, appPubkey) ← Proc.atomically fun s =>
      (ext.generateKeypair s.drawn, { s with drawn := s.drawn + 1 })
    tryThen (sendCommandInner ext cmdPairConfirm appPubkey (secs 30)) fun crsp =>
      if crsp.length < 2 ∨ crsp.getD 0 0 ≠ cmdPairConfirm ∨ crsp.getD 1 0xFF ≠ rspOk then
        pure (.error ("PAIR_CONFIRM failed: ".toList ++ Str.hexEncode crsp))
      else
        match ext.ecdhSharedSecret appSecret devicePubkey with
        | .error e => pure (.error ("ECDH: ".toList ++ e))
        | .ok shared =>
          match ext.deriveSharedKey shared with
          | .error e => pure (.error ("HKDF: ".toList ++ e))
          | .ok sharedKey => do
            establishPairing devicePubkey sharedKey
            pure (.ok (rspOk, [rspOk]))

def doPair (ext : Extern) : Code BleResult := do
  let slots ← sendCommandInner ext cmdSlotStatus [] bleCommandTimeout
  let secondHost := (parseSlotStatus (slots.toOption.getD [])).isSecondHost
  Proc.repeatFrom 3 fun (retries : Nat) => do
    match ← pairInit ext secondHost with
    | .failed e => pure (.inr (.error e))
    | .retry =>
      if 0 < retries then do
        sleep (secs 5)
        pure (.inl (retries - 1))
      else pure (.inr (.error "PAIR_INIT: conn param update incomplete"))
    | .answered rsp => do
      let result ← confirmPairing ext rsp
      pure (.inr result)

-- ---------------------------------------------------------------------------
-- Serving commands
-- ---------------------------------------------------------------------------

def otaWriteAndReadInner (data : Bytes) (timeoutMs : Nat) : Code (Except Str Bytes) :=
  tryThen (otaCharWrite data) fun _ => do
    let start ← clock
    Proc.loop do
      sleep otaReadPollInterval
      let now ← clock
      if start + timeoutMs ≤ now then pure (some (.error "OTA read timeout"))
      else
        match ← otaCharRead with
        | .ok (b :: bs) => pure (some (.ok (b :: bs)))
        | _ => pure none

/-- What the key cache uses, as the worker supplies it. -/
def keyIo (ext : Extern) : KeyIo Daemon where
  send cmd payload := sendCommandInner ext cmd payload bleCommandTimeout
  loadDigests := Proc.get fun s => s.files.digests
  saveDigests d := saveFile "keystore_digests.tmp" fun files => { files with digests := d }
  saveSshKeys keys := saveFile "ssh_keys.tmp" fun files => { files with sshKeys := keys }
  loadKeyNames := Proc.get fun s => s.files.keyNames
  saveKeyNames names := saveFile "key_names.tmp" fun files => { files with keyNames := names }
where
  /-- Write to a temporary file and rename: all or nothing. -/
  saveFile (tmp : Str) (f : Files → Files) : Code (Except Str Unit) :=
    .act (fun s => [(.ok (), { s with files := f s.files }),
      (.error ("Write ".toList ++ tmp ++ ": No space left on device (os error 28)".toList), s)]) .ret

/-- The reply of the command in hand. -/
def replyTo (r : ReplyId) (reply : Reply) : Code Unit :=
  Proc.modify fun s => Daemon.note (.replied r reply)
    { s with replies := Function.update s.replies r ((s.replies r).send reply) }

def abortPending : Code Unit :=
  Proc.modify fun s => { s with ble := { s.ble with
    gate := s.ble.gate.send (false, some rspError)
    gatePending := false
    auth := s.ble.auth.send false
    authPending := false
    pairButton := s.ble.pairButton.send pairButtonCancelled
    pairButtonPending := false
    pairButtonFpOk := false
    response := s.ble.response.dropTx } }

/-- The status byte of a response taken off. -/
def splitStatus (r : Except Str Bytes) : BleResult :=
  r.map fun data => (data.headD rspError, data.drop 1)

def handleBleCommand (ext : Extern) (j : Job) : Code Unit :=
  match j.cmd with
  | .sendCommand cmd payload => do
    let result ← sendCommandInner ext cmd payload bleCommandTimeout
    replyTo j.reply (.ble (splitStatus result))
  | .sendFpGated cmd payload => do
    let result ← sendFpGatedInner ext cmd payload
    replyTo j.reply (.ble result)
  | .pair => do
    let result ← doPair ext
    setPairProgress (if result.isOk then .done else .failed)
    replyTo j.reply (.ble result)
  | .authRequest => do
    let result ← doAuthRequest ext
    replyTo j.reply (.auth result)
  | .otaWriteRead data timeoutMs => do
    let result ← otaWriteAndReadInner data timeoutMs
    replyTo j.reply (.bytes result)
  | .otaWrite data => do
    let result ← otaCharWrite data
    replyTo j.reply (.unit result)
  | .syncKeys => do
    let result ← syncSshKeys ext (keyIo ext)
    replyTo j.reply (.unit result)
  | .disconnect => abortPending

-- ---------------------------------------------------------------------------
-- A session
-- ---------------------------------------------------------------------------

/-- READY, the end of the helper, or the end of the wait for it. -/
def waitReady : Code (Except Str Unit) := do
  let now ← clock
  Proc.select [
    fun s => if s.link.ready then some (.ok (), s) else none,
    fun s => if s.link.exited && !s.link.ready then
      some (.error "BLE helper exited before READY", s) else none,
    deadlineBranch (now + secs 5) (.error "BLE helper did not report READY within 5s")]

def firmwareVersion (rsp : Bytes) : Str :=
  let dotted := Str.ofNat (rsp.getD 4 0).toNat ++ ".".toList ++ Str.ofNat (rsp.getD 5 0).toNat ++
    ".".toList ++ Str.ofNat (rsp.getD 6 0).toNat
  if 8 ≤ rsp.length then
    let build := (rsp.getD 7 0).toNat * 256 + (rsp.getD 8 0).toNat
    dotted ++ ".".toList ++ Nat.toDigits 16 build
  else if 7 ≤ rsp.length then dotted
  else []

/-- `GET_STATUS` on connecting: whether the device says it is paired. -/
def queryStatus (ext : Extern) : Code (Option Bool) := do
  match ← sendCommandInner ext cmdGetStatus [] bleCommandTimeout with
  | .error _ => pure none
  | .ok rsp =>
    if rsp.length < 4 ∨ rsp.headD rspError ≠ rspOk then pure none
    else do
      let paired := rsp.getD 2 0 != 0
      let status : DeviceStatus :=
        { fpBitmap := rsp.getD 1 0
          paired
          battery := rsp.getD 3 0
          fwVersion := firmwareVersion rsp }
      store fun c => { c with deviceStatus := some status }
      pure (some paired)

/-- The answer `[0x38][hmac:8]` to the challenge. -/
def isChallengeAnswer (rsp : Bytes) : Bool := 9 ≤ rsp.length && rsp.headD 0 = cmdChallenge

def verifyChallengeResponse (ext : Extern) (key nonce rsp : Bytes) : Bool :=
  hmacTruncated ext key nonce == (rsp.drop 1).take 8

def markVerified : Code Unit := do
  setVerified 0 true
  store fun c => { c with challengeVerified := true }

/-- The challenge, asked again once after an unexpected answer. -/
def challenge (ext : Extern) (key : Bytes) (reportedPaired : Option Bool) :
    Code (Except Str Unit) := do
  let nonce ← drawRandom ext
  match ← sendCommandInner ext cmdChallenge nonce bleCommandTimeout with
  | .ok rsp =>
    if isChallengeAnswer rsp then
      if verifyChallengeResponse ext key nonce rsp then do
        markVerified
        pure (.ok ())
      else pure (.ok ())
    else do
      let nonce2 ← drawRandom ext
      let rsp2 ← sendCommandInner ext cmdChallenge nonce2 bleCommandTimeout
      if rsp2.toOption.any isChallengeAnswer then
        if verifyChallengeResponse ext key nonce2 (rsp2.toOption.getD []) then do
          markVerified
          pure (.ok ())
        else pure (.ok ())
      else do
        -- taken for firmware that knows no challenge
        setVerified 0 true
        pure (.ok ())
  | .error e =>
    if reportedPaired.isSome then do
      setVerified 0 true
      pure (.ok ())
    else pure (.error ("no usable BLE link: ".toList ++ e))

def unpairedNotice : Str :=
  "NOTIFY:Device is no longer paired with this computer — run 'immurok-cli pair' to pair again"

/-- What the device says about the pairing is kept for the user to see. -/
def reportUnpaired (disownsUs : Bool) : Code Unit := do
  store fun c => { c with deviceReportsUnpaired := disownsUs }
  Proc.when disownsUs do
    let _ ← pushUi unpairedNotice
    pure ()

/-- The challenge, where there is a key to ask it for. -/
def verifyDevice (ext : Extern) (reportedPaired : Option Bool) : Code (Except Str Unit) := do
  match ← load (·.pairing) with
  | some p => challenge ext p.sharedKey reportedPaired
  | none => do
    setVerified 0 true
    pure (.ok ())

/-- The key cache is synchronised; a failure is only logged. -/
def syncWhenVerified (ext : Extern) : Code Unit := do
  let verified ← load (·.isDeviceVerified)
  Proc.when verified do
    let _ ← syncSshKeys ext (keyIo ext)
    pure ()

/-- Status, challenge and key cache at the start of a session. -/
def openSession (ext : Extern) : Code (Except Str Unit) := do
  let reportedPaired ← queryStatus ext
  let hasLocalPairing ← load (·.pairing.isSome)
  let disownsUs := hasLocalPairing && reportedPaired == some false
  reportUnpaired disownsUs
  tryThen (if disownsUs then pure (.ok ()) else verifyDevice ext reportedPaired) fun _ => do
    syncWhenVerified ext
    pure (.ok ())

inductive Serve
  | frame (f : Frame)
  | command (j : Job)
  | disconnected

def commandBranch (s : Daemon) : Option (Serve × Daemon) :=
  match s.queue with
  | [] => none
  | j :: rest => some (.command j, Daemon.note (.dequeued j) { s with queue := rest })

def disconnectBranch (s : Daemon) : Option (Serve × Daemon) :=
  if s.link.disconnected || s.link.exited then some (.disconnected, s) else none

/-- The command in hand is done with. -/
def rest : Code Unit := Proc.modify (Daemon.note .rested)

def serveLoop (ext : Extern) : Code Str :=
  Proc.loop do
    match ← Proc.select [notifyBranch .frame, commandBranch, disconnectBranch] with
    | .frame f => do
      routeNotification ext f
      pure none
    | .command j => do
      handleBleCommand ext j
      rest
      pure none
    | .disconnected => do
      abortPending
      pure (some "device disconnected")

/-- The device and its characteristics are looked up and the helper started;
each of these can fail. -/
def startHelper : Code Bool := Proc.choose [true, false]

def connectAndServe (ext : Extern) : Code Str := do
  let started ← startHelper
  if !started then pure "no device"
  else do
    Proc.modify fun s => Daemon.note .sessionStarted { s with link := .new }
    match ← waitReady with
    | .error e => pure e
    | .ok () => do
      setConnected
      setVerified 0 false
      store fun c => { c with challengeVerified := false }
      updateBle fun _ => .new
      match ← openSession ext with
      | .error e => pure e
      | .ok () => do
        rest
        serveLoop ext

/-- What a session leaves behind. -/
def closeSession : Code Unit := do
  Proc.modify fun s => Daemon.note .sessionEnded { s with
    coord := { s.coord with isConnected := false } }
  setVerified 0 false
  store fun c => { c with challengeVerified := false }
  store fun c => { c with deviceStatus := none }

/-- Reconnecting takes as long as it takes. -/
def waitForDeviceConnected : Code Unit := Proc.choose [()]

def run (ext : Extern) : Code Unit :=
  Proc.repeatFrom bleReconnectInterval fun backoff => do
    let started ← clock
    let _ ← connectAndServe ext
    closeSession
    let ended ← clock
    let backoff := if started + bleSessionStable ≤ ended then bleReconnectInterval else backoff
    sleep backoff
    waitForDeviceConnected
    pure (.inl (min (backoff * 2) bleReconnectBackoffMax))

end Immurok
