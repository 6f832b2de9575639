import Immurok.Async.System
import Immurok.Async.Sync
import Immurok.Protocol
import Immurok.SocketProto

/-!
# The daemon's state

What the connections and the one BLE worker of the daemon share: the
coordinator, the channels between them, the link to the BLE helper, the files
in the state directory and the clock. `log` and `aux` are auxiliary: the
history of a run and what each task has learnt so far. The code writes them
and never reads them.
-/

namespace Immurok

open Async

/-- The number of a command frame in the order the frames are written. -/
abbrev CmdId := Nat

/-- The reply channel of one queued command; it names the request. -/
abbrev ReplyId := Nat

/-- A frame of the device. `src` is the command it answers, `none` for what
the device sends on its own. -/
structure Frame where
  data : Bytes
  src : Option CmdId
  deriving DecidableEq

-- ---------------------------------------------------------------------------
-- Records
-- ---------------------------------------------------------------------------

structure PairingData where
  deviceUuid : Str
  sharedKey : Bytes
  pairedAt : Str
  deriving DecidableEq

structure DeviceStatus where
  fpBitmap : UInt8
  paired : Bool
  battery : UInt8
  fwVersion : Str
  deriving DecidableEq

structure Settings where
  unlockSudo : Bool
  unlockPolkit : Bool
  unlockScreen : Bool
  lockScreen : Bool
  sshTakeover : Bool
  deriving DecidableEq

def Settings.default : Settings :=
  { unlockSudo := true, unlockPolkit := true, unlockScreen := true, lockScreen := false,
    sshTakeover := false }

inductive PairProgress
  | idle
  | waitFp
  | waitButton
  | ecdh
  | done
  | failed
  deriving DecidableEq

def PairProgress.asWire : PairProgress → Str
  | .idle => "IDLE"
  | .waitFp => "WAIT_FP"
  | .waitButton => "WAIT_BUTTON"
  | .ecdh => "ECDH"
  | .done => "DONE"
  | .failed => "FAILED"

structure SshKeyCacheEntry where
  index : UInt8
  name : Str
  publicKeyBlob : Bytes
  fingerprint : Str
  deriving DecidableEq

structure KeyNameEntry where
  index : UInt8
  category : Str
  name : Str
  service : Str
  deriving DecidableEq

structure DigestEntry where
  count : UInt8
  checksum : Nat
  deriving DecidableEq

/-- A window in which the named services need no touch. -/
structure PreAuth where
  deadline : Nat
  services : List Str
  deriving DecidableEq

-- ---------------------------------------------------------------------------
-- Commands to the BLE worker
-- ---------------------------------------------------------------------------

inductive BleCommand
  | sendCommand (cmd : UInt8) (payload : Bytes)
  | sendFpGated (cmd : UInt8) (payload : Bytes)
  | pair
  | syncKeys
  | authRequest
  | otaWriteRead (data : Bytes) (timeoutMs : Nat)
  | otaWrite (data : Bytes)
  | disconnect
  deriving DecidableEq

/-- A command whose frame makes the device wait for a touch before it acts. -/
def BleCommand.gated : BleCommand → Bool
  | .sendFpGated _ _ => true
  | _ => false

abbrev BleResult := Except Str (UInt8 × Bytes)

/-- What goes back over a reply channel. -/
inductive Reply
  | ble (r : BleResult)
  | unit (r : Except Str Unit)
  | auth (r : Except Str Bool)
  | bytes (r : Except Str Bytes)
  deriving DecidableEq

/-- A queued command with its reply channel. -/
structure Job where
  reply : ReplyId
  cmd : BleCommand
  deriving DecidableEq

-- ---------------------------------------------------------------------------
-- The coordinator
-- ---------------------------------------------------------------------------

/-- The two waits for a touch that another task can cut short. -/
inductive Touch
  | gate
  | auth
  deriving DecidableEq

/-- Whom a cancel is meant for: the task that sent it, the request it gives up
and the request whose wait was in progress at that moment. -/
structure Cancel where
  by_ : TaskId
  target : Option ReplyId
  inProgress : Option ReplyId
  deriving DecidableEq

/-- `gate_cancel` and `auth_dialog_cancel`. -/
structure Cancels where
  gate : Notify Cancel
  auth : Notify Cancel
  deriving DecidableEq

def Cancels.get (c : Cancels) : Touch → Notify Cancel
  | .gate => c.gate
  | .auth => c.auth

def Cancels.set (c : Cancels) (w : Touch) (n : Notify Cancel) : Cancels :=
  match w with
  | .gate => { c with gate := n }
  | .auth => { c with auth := n }

structure Coordinator where
  pairing : Option PairingData
  settings : Settings
  deviceStatus : Option DeviceStatus
  isDeviceVerified : Bool
  deviceReportsUnpaired : Bool
  challengeVerified : Bool
  isConnected : Bool
  screenLocked : Bool
  fpBitmapStale : Bool
  lastEnrollEvent : Option (UInt8 × UInt8 × UInt8)
  pairProgress : PairProgress
  /-- The connection whose sender is in the slot. -/
  pendingPam : Option TaskId
  preAuth : Option PreAuth
  lastAuthFlow : Option Nat
  /-- The connection of the session agent. -/
  uiOut : Option TaskId
  /-- How often `ui_cancel_tx` has been sent on. -/
  uiCancels : Nat
  cancels : Cancels
  gateActive : Bool

-- ---------------------------------------------------------------------------
-- The BLE worker
-- ---------------------------------------------------------------------------

abbrev GateResult := Bool × Option UInt8

/-- Per-connection state of the worker. A one-shot channel stands for the
sender in the source's field together with the worker's own receiver. -/
structure BleState where
  response : Oneshot Bytes
  gatePending : Bool
  gate : Oneshot GateResult
  authPending : Bool
  auth : Oneshot Bool
  authFailures : UInt8
  pairFpGate : Bool
  pairButtonPending : Bool
  pairButton : Oneshot UInt8
  pairButtonFpOk : Bool

def BleState.new : BleState :=
  { response := .gone, gatePending := false, gate := .gone, authPending := false, auth := .gone,
    authFailures := 0, pairFpGate := false, pairButtonPending := false, pairButton := .gone,
    pairButtonFpOk := false }

/-- The helper process and the task that reads its output: the lines of the
helper not yet taken from the two channels, and whether it reported READY,
reported DISCONNECT or stopped. -/
structure Link where
  ready : Bool
  responseRx : List Str
  notifyRx : List Frame
  disconnected : Bool
  exited : Bool

def Link.new : Link :=
  { ready := false, responseRx := [], notifyRx := [], disconnected := false, exited := false }

-- ---------------------------------------------------------------------------
-- Connections and files
-- ---------------------------------------------------------------------------

/-- The credentials of a connection's peer, if the kernel gives them. -/
structure Peer where
  uid : Nat
  pid : Nat
  deriving DecidableEq

/-- One connection: the bytes sent and not read, whether the peer has closed
it, what was written back, and the lines for the session agent. -/
structure Socket where
  inbox : Bytes
  closed : Bool
  outbox : Bytes
  uiLines : List Str

def Socket.new : Socket := { inbox := [], closed := false, outbox := [], uiLines := [] }

/-- The files of the state directory, as the daemon reads them back. -/
structure Files where
  owner : Option Str
  pairing : Option PairingData
  settings : Settings
  sshKeys : List SshKeyCacheEntry
  keyNames : List KeyNameEntry
  digests : List (Str × DigestEntry)

-- ---------------------------------------------------------------------------
-- History
-- ---------------------------------------------------------------------------

/-- Who has put a sender into the slot of pending requests. -/
inductive Entry
  | auth
  | agent
  | placeholder
  deriving DecidableEq

/-- Why a window was armed. -/
inductive Arming
  /-- a match found the screen locked; it had taken this entry from the slot,
  whose handler was still waiting or not -/
  | matched (taken : Option (TaskId × Option Entry × Bool))
  | unlocked
  | agent (i : TaskId)
  deriving DecidableEq

/-- What a frame of the device resolves, and with what. -/
inductive Delivery
  | response
  | gate (r : GateResult)
  | auth (b : Bool)
  deriving DecidableEq

inductive Ev
  -- connections
  | ownerRead (i : TaskId) (owner : Option Nat)
  | settingsRead (i : TaskId) (settings : Settings)
  | windowRead (i : TaskId) (service : Str) (now : Nat) (hit : Bool)
  | connectedRead (i : TaskId) (b : Bool)
  | verifiedRead (i : TaskId) (b : Bool)
  | registered (i : TaskId) (entry : Entry)
  | queued (i : TaskId) (r : ReplyId) (cmd : BleCommand)
  | gotReply (i : TaskId) (r : ReplyId) (reply : Reply)
  | gotPending (i : TaskId) (b : Bool)
  | replyDropped (i : TaskId) (r : ReplyId)
  | pendingDropped (i : TaskId)
  | cancelSent (i : TaskId) (w : Touch) (tag : Cancel)
  | denied (i : TaskId) (entry : Option TaskId)
  | answered (i : TaskId) (request : Request) (response : Response)
  -- records, by connections and by the worker
  | windowArmed (a : TaskId) (why : Arming) (now duration : Nat) (services : List Str)
  | pairingSet (a : TaskId) (key : Option Bytes)
  | ownerSet (a : TaskId) (owner : Option Nat)
  | settingsSet (a : TaskId) (settings : Settings)
  | verifiedSet (a : TaskId) (b : Bool)
  -- the worker
  | sessionStarted
  | sessionEnded
  | connectedSet
  | dequeued (j : Job)
  | responseArmed (c : CmdId)
  | wrote (c : CmdId) (data : Bytes) (job : Option Job)
  | poked (c : CmdId) (data : Bytes)
  | routed (f : Frame)
  | delivered (d : Delivery) (c : CmdId) (f : Frame)
  | responseLeft
  | pairingArmed (c : CmdId)
  | touchArmed (w : Touch) (r : ReplyId) (c : CmdId)
  | touchParked (w : Touch)
  | touchCancelled (w : Touch) (r : ReplyId) (tag : Cancel)
  | touchLeft (w : Touch) (r : ReplyId)
  | pairingRead (key : Option Bytes)
  | matchVerified (key : Bytes) (f : Frame)
  | approved (i : TaskId) (f : Frame) (waiting : Bool)
  | lockedRead (b : Bool)
  | unlocked (session : Str)
  | windowCleared
  | replied (r : ReplyId) (reply : Reply)
  | rested
  -- the outside world
  | arrived (f : Frame)
  | screen (locked : Bool)
  | ticked (d : Nat)
  deriving DecidableEq

/-- Where the worker stands with the command it has in hand. -/
inductive Phase
  | idle
  /-- the channel for the answer of `c` is there, `c` is not written yet -/
  | armed (c : CmdId)
  /-- `send_command_inner` waits for the answer of `c` -/
  | response (c : CmdId)
  /-- that wait is over, the worker goes on with `c` -/
  | held (c : CmdId)
  /-- the pairing waits, after `c` -/
  | pairing (c : CmdId)
  /-- the wait for the touch that request `r` asked for with `c` -/
  | touch (w : Touch) (r : ReplyId) (c : CmdId)
  deriving DecidableEq

/-- The command whose answers the worker is waiting for. -/
def Phase.awaiting : Phase → Option CmdId
  | .idle => none
  | .armed c | .response c | .held c | .pairing c | .touch _ _ c => some c

/-- The request whose wait for a touch is in progress. -/
def Phase.inProgress (w : Touch) : Phase → Option ReplyId
  | .touch w' r _ => if w' = w then some r else none
  | _ => none

/-- No channel of the device is being waited on. -/
def Phase.resting : Phase → Bool
  | .idle | .held _ => true
  | _ => false

structure WorkerAux where
  phase : Phase
  /-- the next frame's number -/
  nextCmd : CmdId
  job : Option Job
  /-- the frame of the job in hand was written -/
  written : Bool
  /-- the last command written, with the job it was written for -/
  lastWrote : Option (CmdId × Bytes × Option Job)
  /-- the frame that resolved the last wait, and the command waited for -/
  answer : Option (CmdId × Frame)
  /-- the frame being routed -/
  routing : Option Frame
  /-- the key read for checking it -/
  readKey : Option Bytes
  /-- the signed match whose HMAC was verified while routing it -/
  matched : Option Frame
  /-- the entry that match took from the slot, and whether its handler waited -/
  taken : Option (TaskId × Option Entry × Bool)
  /-- the screen was found locked since -/
  sawLocked : Bool
  unlocked : Bool
  deriving DecidableEq

def WorkerAux.new : WorkerAux :=
  { phase := .idle, nextCmd := 0, job := none, written := false, lastWrote := none, answer := none,
    routing := none, readKey := none, matched := none, taken := none, sawLocked := false,
    unlocked := false }

/-- What the handler of a connection knows. -/
structure ClientAux where
  owner : Option (Option Nat)
  settings : Option Settings
  window : Option (Str × Nat × Bool)
  connected : Bool
  verified : Bool
  /-- the entry it has put into the slot -/
  entry : Option Entry
  /-- it has not cleaned up after that entry -/
  registered : Bool
  /-- its own `AuthRequest` returned true since it registered -/
  touched : Bool
  /-- its own entry was resolved with true since it registered -/
  granted : Bool
  /-- the commands it has queued since it registered -/
  requests : List (ReplyId × BleCommand)
  deriving DecidableEq

def ClientAux.new : ClientAux :=
  { owner := none, settings := none, window := none, connected := false, verified := false,
    entry := none, registered := false, touched := false, granted := false, requests := [] }

structure Aux where
  worker : WorkerAux
  client : TaskId → ClientAux

def Aux.new : Aux := { worker := .new, client := fun _ => .new }

def Aux.onWorker (a : Aux) (f : WorkerAux → WorkerAux) : Aux := { a with worker := f a.worker }

def Aux.onClient (a : Aux) (i : TaskId) (f : ClientAux → ClientAux) : Aux :=
  { a with client := Function.update a.client i (f (a.client i)) }

/-- The command the worker was after goes on or is over. -/
def Phase.leave : Phase → Phase
  | .response c | .pairing c | .touch _ _ c => .held c
  | _ => .idle

/-- What the worker learns from its events. -/
def WorkerAux.step (client : TaskId → ClientAux) (w : WorkerAux) : Ev → WorkerAux
  | .dequeued j => { w with job := some j, written := false }
  | .responseArmed c => { w with phase := .armed c, answer := none, routing := none }
  | .wrote c data job =>
    { w with
      phase := .response c, nextCmd := c + 1, written := true, lastWrote := some (c, data, job) }
  | .poked c _ => { w with nextCmd := c + 1 }
  | .routed f =>
    { w with
      routing := some f, readKey := none, matched := none, taken := none, sawLocked := false
      unlocked := false }
  | .delivered _ c f => { w with answer := some (c, f) }
  | .responseLeft => { w with phase := w.phase.leave }
  | .pairingArmed c => { w with phase := .pairing c, answer := none }
  | .touchArmed t r c => { w with phase := .touch t r c, answer := none }
  | .touchCancelled _ _ _ => { w with phase := w.phase.leave }
  | .touchLeft _ _ => { w with phase := w.phase.leave }
  | .pairingRead key => { w with readKey := key }
  | .matchVerified _ f => { w with matched := some f }
  | .approved i _ waiting =>
    { w with taken := some (i, (client i).entry, waiting), sawLocked := false }
  | .lockedRead b => { w with sawLocked := b }
  | .unlocked _ => { w with unlocked := true }
  | .replied _ _ => { w with job := none }
  | .rested => { w with job := none, phase := .idle }
  | .sessionStarted => { w with phase := .idle }
  | .sessionEnded => { w with phase := .idle }
  | _ => w

/-- What handler `i` learns from its events. -/
def ClientAux.step (c : ClientAux) : Ev → ClientAux
  | .ownerRead _ owner => { c with owner := some owner }
  | .settingsRead _ settings => { c with settings := some settings }
  | .windowRead _ service now hit => { c with window := some (service, now, hit) }
  | .connectedRead _ b => { c with connected := b }
  | .verifiedRead _ b => { c with verified := b }
  | .registered _ entry =>
    { c with
      entry := some entry, registered := true, touched := false, granted := false, requests := [] }
  | .queued _ r cmd => { c with requests := (r, cmd) :: c.requests }
  | .gotReply _ r reply =>
    { c with touched := c.touched ||
        decide ((r, .authRequest) ∈ c.requests ∧ reply = .auth (.ok true)) }
  | .gotPending _ b => { c with granted := c.granted || b }
  | .denied _ _ => { c with registered := false }
  | _ => c

/-- The task an event is made by: the worker is task 0, connections come
after it, `none` is the outside world. -/
def Ev.actor : Ev → Option TaskId
  | .ownerRead i _ | .settingsRead i _ | .windowRead i _ _ _ | .connectedRead i _
  | .verifiedRead i _ | .registered i _ | .queued i _ _ | .gotReply i _ _ | .gotPending i _
  | .replyDropped i _ | .pendingDropped i | .cancelSent i _ _ | .denied i _ | .answered i _ _
  | .windowArmed i _ _ _ _ | .pairingSet i _ | .ownerSet i _ | .settingsSet i _
  | .verifiedSet i _ => some i
  | .arrived _ | .screen _ | .ticked _ => none
  | _ => some 0

def Aux.step (a : Aux) (e : Ev) : Aux :=
  match e.actor with
  | none => a
  | some 0 => a.onWorker fun w => w.step a.client e
  | some i => a.onClient i fun c => c.step e

-- ---------------------------------------------------------------------------
-- The shared state
-- ---------------------------------------------------------------------------

structure Daemon where
  coord : Coordinator
  ble : BleState
  link : Link
  socket : TaskId → Socket
  /-- The receiver a handler keeps of the sender it put into the slot. -/
  pending : TaskId → Oneshot Bool
  /-- The commands on their way to the worker. -/
  queue : List Job
  replies : ReplyId → Oneshot Reply
  nextReply : ReplyId
  files : Files
  now : Nat
  /-- How many random values have been drawn. -/
  drawn : Nat
  log : List Ev
  aux : Aux

namespace Daemon

/-- Writes an event into the history. -/
def note (e : Ev) (s : Daemon) : Daemon := { s with log := e :: s.log, aux := s.aux.step e }

/-- The request whose wait for a touch is in progress. -/
def inProgress (s : Daemon) (w : Touch) : Option ReplyId := s.aux.worker.phase.inProgress w

end Daemon

end Immurok
