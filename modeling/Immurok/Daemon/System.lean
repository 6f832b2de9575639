import Immurok.Daemon.Ble
import Immurok.Daemon.Ota
import Immurok.Daemon.SshAgent

/-!
# The daemon

The BLE worker and the connections as one system. The outside world is the
clock, the helper process with the device behind it, the lock screen and the
peers of the connections.
-/

namespace Immurok

open Async

-- ---------------------------------------------------------------------------
-- Connections
-- ---------------------------------------------------------------------------

/-- The handler of a parsed request, for the connection `i` of `peer`. -/
def runRequest (ext : Extern) (i : TaskId) (peer : Peer) : Request → Code Response
  | .status => handleStatus
  | .auth user service => handleAuth ext i user service
  | .fpList => handleFpList i
  | .fpEnroll slot => handleFpEnroll i slot
  | .fpEnrollCancel => handleFpEnrollCancel i
  | .fpDelete slot => handleFpDelete i slot
  | .fpVerify => handleFpVerify i
  | .fpStatus => handleFpStatus
  | .fpLastMatch => handleFpLastMatch
  | .gateCancel => handleGateCancel i
  | .pairStatus => handlePairStatus
  | .pairStart => pairStart i peer
  | .pairProgress => handlePairProgress
  | .slotStatus => handleSlotStatus i
  | .slotClear slot => handleSlotClear i slot
  | .factoryReset => handleFactoryReset ext i
  | .setUnlockSudo v => handleSetSetting i fun s => { s with unlockSudo := v }
  | .setUnlockPolkit v => handleSetSetting i fun s => { s with unlockPolkit := v }
  | .setUnlockScreen v => handleSetSetting i fun s => { s with unlockScreen := v }
  | .setLockScreen v => handleSetSetting i fun s => { s with lockScreen := v }
  | .setSshTakeover v => handleSetSshTakeover i v
  | .getSettings => handleGetSettings
  | .getInfo => handleGetInfo ext
  | .otaStart _ _ | .otaData _ | .otaFinish => pure (.error "OTA commands require OTA session")

/-- A request is run and its response goes into the history. -/
def dispatchRequest (ext : Extern) (i : TaskId) (peer : Peer) (request : Request) :
    Code Response := do
  let response ← runRequest ext i peer request
  Proc.modify (Daemon.note (.answered i request response))
  pure response

/-- What an authorized line does. -/
def serveDispatch (ext : Extern) (i : TaskId) (peer : Peer) (line : Str) : Dispatch → Code Unit
  | .sessionAgent => serveSessionAgent i
  | .logStream => serveLogStream i
  | .ota => handleOtaSession ext i line
  | .key => do
    let response ← handleKeyCommand ext i line
    writeLineTo i response
  | .agentApprove cmd => do
    let response ← handleAgentApprove ext i cmd
    writeLineTo i (serializeResponse response)
  | .list cat => do
    let response ← handleListKeys ext cat
    writeText i response
  | .get after => do
    let response ← handleGetKey ext i after
    writeText i response
  | .request r => do
    let response ← dispatchRequest ext i peer r
    writeLineTo i (serializeResponse response)
  | .unparsable e => writeText i (serializeResponse (.error ("PARSE_ERROR:".toList ++ e.message)))

/-- The line of a chunk is authorized and served. -/
def serveLine (ext : Extern) (i : TaskId) (peer : Peer) (line : Str) : Code Unit := do
  let allowed ← authorize ext (tierOf line) peer.uid
  if !allowed then writeLineTo i (serializeResponse (.deny "NOT_AUTHORIZED"))
  else serveDispatch ext i peer line (dispatchOf line)

def serveChunk (ext : Extern) (i : TaskId) (peer : Peer) (chunk : Bytes) : Code Unit :=
  match splitRequestChunk chunk with
  | .error e => writeLineTo i (serializeResponse (.error e.wireCode))
  | .ok line => serveLine ext i peer line

def handleClient (ext : Extern) (i : TaskId) (peer : Peer) : Code Unit := do
  let now ← clock
  match ← readUntil i maxRequestBytes (now + secs 5) with
  | .data chunk => serveChunk ext i peer chunk
  | _ => pure ()

-- ---------------------------------------------------------------------------
-- The outside world
-- ---------------------------------------------------------------------------

inductive Env
  | tick (d : Nat)
  | ready
  | replyLine (line : Str)
  | frame (f : Frame)
  | disconnect
  | exit
  | screen (locked : Bool)
  | socketData (i : TaskId) (bs : Bytes)
  | socketClose (i : TaskId)

/-- The helper's reader task stops at a full channel. -/
def responseCapacity : Nat := 16

def notifyCapacity : Nat := 64

/-- The device answers a frame that was written to it, or sends a notification
of its own. -/
def genuine (f : Frame) (nextCmd : CmdId) : Bool :=
  !f.data.isEmpty &&
    match f.src with
    | some c => decide (c < nextCmd)
    | none => isNotification f.data

def Daemon.onLink (f : Link → Link) (s : Daemon) : Option Daemon := some { s with link := f s.link }

def envStep : Env → Daemon → Option Daemon
  | .tick d, s => some (Daemon.note (.ticked d) { s with now := s.now + d })
  | .ready, s => s.onLink fun l => { l with ready := true }
  | .replyLine line, s =>
    if s.link.responseRx.length < responseCapacity then
      s.onLink fun l => { l with responseRx := l.responseRx ++ [line] }
    else none
  | .frame f, s =>
    if s.link.notifyRx.length < notifyCapacity ∧ genuine f s.aux.worker.nextCmd then
      some (Daemon.note (.arrived f)
        { s with link := { s.link with notifyRx := s.link.notifyRx ++ [f] } })
    else none
  | .disconnect, s => s.onLink fun l => { l with disconnected := true }
  | .exit, s => s.onLink fun l => { l with exited := true }
  | .screen b, s =>
    some (Daemon.note (.screen b) { s with coord := { s.coord with screenLocked := b } })
  | .socketData i bs, s =>
    if (s.socket i).closed then none
    else some (s.updateSocket i fun c => { c with inbox := c.inbox ++ bs })
  | .socketClose i, s => some (s.updateSocket i fun c => { c with closed := true })

-- ---------------------------------------------------------------------------
-- The system
-- ---------------------------------------------------------------------------

/-- A connection to one of the two sockets, with its peer's credentials if
the kernel gives them. -/
inductive Conn
  | pam (peer : Option Peer)
  | agent (peer : Option Peer)

def serveConn (ext : Extern) (i : TaskId) : Conn → Code Unit
  | .pam (some peer) => handleClient ext i peer
  | .agent (some peer) => handleAgentClient ext i peer
  | .pam none | .agent none => pure ()

/-- Connections are served under the names from 1 on. -/
def system (ext : Extern) : System Daemon Env Conn where
  env := envStep
  serve
    | 0, _ => pure ()
    | i + 1, conn => serveConn ext (i + 1) conn

def Coordinator.start (files : Files) : Coordinator :=
  { pairing := files.pairing
    settings := files.settings
    deviceStatus := none
    isDeviceVerified := false
    deviceReportsUnpaired := false
    challengeVerified := false
    isConnected := false
    screenLocked := false
    fpBitmapStale := false
    lastEnrollEvent := none
    pairProgress := .idle
    pendingPam := none
    preAuth := none
    lastAuthFlow := none
    uiOut := none
    uiCancels := 0
    cancels := { gate := .new, auth := .new }
    gateActive := false }

/-- The daemon as it starts on these files. -/
def Daemon.start (files : Files) : Daemon :=
  { coord := .start files
    ble := .new
    link := .new
    socket := fun _ => .new
    pending := fun _ => .gone
    queue := []
    replies := fun _ => .gone
    nextReply := 0
    files
    now := 0
    drawn := 0
    log := []
    aux := .new }

/-- The worker alone. -/
def start (ext : Extern) (files : Files) : Config Daemon :=
  { shared := .start files
    pool := Function.update (fun _ => none) 0 (some (run ext)) }

end Immurok
