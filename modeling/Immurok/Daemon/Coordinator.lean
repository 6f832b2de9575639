import Immurok.Daemon.State

/-!
# The coordinator

The operations connections and the BLE worker use on what they share. One
atomic step is one critical section of a lock, one access of an atomic or one
channel operation of the source. Task 0 is the BLE worker; the other tasks are
connections, and an operation of a connection takes its name.
-/

namespace Immurok

open Async

abbrev Code := Proc Daemon

/-- The code outside the repository: cryptography, Unicode's lower case, the
user database, the login manager and the random source. -/
structure Extern where
  hmacSha256 : Bytes → Bytes → Bytes
  sha256 : Bytes → Bytes
  toLowercase : Str → Str
  uidOfUser : Str → Option Nat
  polkitdUid : Option Nat
  daemonUid : Nat
  graphicalSession : Nat → Str
  random : Nat → Bytes
  generateKeypair : Nat → Bytes × Bytes
  ecdhSharedSecret : Bytes → Bytes → Except Str Bytes
  deriveSharedKey : Bytes → Except Str Bytes
  base64Encode : Bytes → Str
  base64Decode : Str → Option Bytes
  sshKeysJson : List SshKeyCacheEntry → Str
  keyNamesJson : List KeyNameEntry → Str

-- ---------------------------------------------------------------------------
-- Access to the state
-- ---------------------------------------------------------------------------

/-- A field of the coordinator read. -/
def load (f : Coordinator → α) : Code α := Proc.get fun s => f s.coord

/-- Fields of the coordinator written. -/
def store (f : Coordinator → Coordinator) : Code Unit :=
  Proc.modify fun s => { s with coord := f s.coord }

def clock : Code Nat := Proc.get (·.now)

def sleepUntil (t : Nat) : Code Unit :=
  Proc.await fun s => if t ≤ s.now then some ((), s) else none

def sleep (d : Nat) : Code Unit := do
  let now ← clock
  sleepUntil (now + d)

/-- One of the ways to wait in a `select`: until the time `t`. -/
def deadlineBranch (t : Nat) (b : β) (s : Daemon) : Option (β × Daemon) :=
  if t ≤ s.now then some (b, s) else none

def drawRandom (ext : Extern) : Code Bytes :=
  Proc.atomically fun s => (ext.random s.drawn, { s with drawn := s.drawn + 1 })

-- ---------------------------------------------------------------------------
-- Sessions and files
-- ---------------------------------------------------------------------------

def readOwner (file : Option Str) : Option Nat :=
  file.bind fun text => (Str.parseU32 (Str.trim text)).toOption

def ownerUid : Code (Option Nat) := Proc.get fun s => readOwner s.files.owner

/-- `loginctl show-user`; `none` when it cannot be asked. -/
def uidIsActive (_uid : Nat) : Code (Option Bool) := Proc.choose [some true, some false, none]

def graphicalSessionId (ext : Extern) (uid : Nat) : Code (Option Str) :=
  Proc.choose [some (ext.graphicalSession uid), none]

/-- The owner's file written, by connection `i`. -/
def writeOwner (i : TaskId) (text : Str) : Code Unit :=
  Proc.modify fun s => Daemon.note (.ownerSet i (readOwner (some text)))
    { s with files := { s.files with owner := some text } }

/-- Writes the owner's record unless there is one. -/
def recordOwner (i : TaskId) (uid : Nat) : Code Unit := do
  let present ← Proc.get fun s => s.files.owner.isSome
  Proc.when (!present) do
    let written ← Proc.choose [true, false]
    Proc.when written (writeOwner i (Str.ofNat uid ++ "\n".toList))

-- ---------------------------------------------------------------------------
-- Session agent
-- ---------------------------------------------------------------------------

/-- A line for the session agent; `false` when there is none. -/
def pushUi (line : Str) : Code Bool :=
  Proc.atomically fun s =>
    match s.coord.uiOut with
    | none => (false, s)
    | some j =>
      let socket := { s.socket j with uiLines := (s.socket j).uiLines ++ [line] }
      (true, { s with socket := Function.update s.socket j socket })

/-- The broadcast channel keeps four messages; a receiver further behind gets
an error, and the branch that waits for a message is out of the race. -/
def uiCancelBranch (subscribed : Nat) (b : β) (s : Daemon) : Option (β × Daemon) :=
  if subscribed < s.coord.uiCancels ∧ s.coord.uiCancels ≤ subscribed + 4 then some (b, s) else none

-- ---------------------------------------------------------------------------
-- Pairing progress
-- ---------------------------------------------------------------------------

def setPairProgress (p : PairProgress) : Code Unit := store fun c => { c with pairProgress := p }

def tryBeginPairing : Code Bool :=
  Proc.atomically fun s =>
    match s.coord.pairProgress with
    | .waitFp | .waitButton | .ecdh => (false, s)
    | _ => (true, { s with coord := { s.coord with pairProgress := .idle } })

/-- The pairing written by task `a`. -/
def setPairing (a : TaskId) (p : Option PairingData) : Code Unit :=
  Proc.modify fun s => Daemon.note (.pairingSet a (p.map PairingData.sharedKey))
    { s with coord := { s.coord with pairing := p } }

/-- `is_connected` set by the worker. -/
def setConnected : Code Unit :=
  Proc.modify fun s => Daemon.note .connectedSet
    { s with coord := { s.coord with isConnected := true } }

/-- `is_device_verified` written by task `a`. -/
def setVerified (a : TaskId) (b : Bool) : Code Unit :=
  Proc.modify fun s => Daemon.note (.verifiedSet a b)
    { s with coord := { s.coord with isDeviceVerified := b } }

-- ---------------------------------------------------------------------------
-- The pre-auth window
-- ---------------------------------------------------------------------------

def unlockFollowupServices : List Str :=
  ["polkit-1".toList, "login".toList, "gdm-password".toList]

def sudoServices : List Str := ["sudo".toList, "sudo_local".toList, "sudo-i".toList]

/-- Armed by task `a`. -/
def setPreAuth (ext : Extern) (a : TaskId) (why : Aux → Arming) (duration : Nat)
    (services : List Str) : Code Unit := do
  let now ← clock
  let entry : PreAuth :=
    { deadline := now + duration, services := services.map ext.toLowercase }
  Proc.modify fun s => Daemon.note (.windowArmed a (why s.aux) now duration services)
    { s with coord := { s.coord with preAuth := some entry } }

def PreAuth.grants (ext : Extern) (p : PreAuth) (now : Nat) (service : Str) : Bool :=
  now < p.deadline && p.services.contains (ext.toLowercase service)

def consumePreAuth (ext : Extern) (i : TaskId) (service : Str) : Code Bool :=
  Proc.atomically fun s =>
    let hit := s.coord.preAuth.any fun p => p.grants ext s.now service
    (hit, s.note (.windowRead i service s.now hit))

-- ---------------------------------------------------------------------------
-- The slot of pending requests
-- ---------------------------------------------------------------------------

def trySetPendingPam (i : TaskId) (entry : Entry) : Code Bool :=
  Proc.atomically fun s =>
    if s.coord.pendingPam.isSome then (false, s)
    else
      (true, Daemon.note (.registered i entry) { s with
        coord := { s.coord with pendingPam := some i }
        pending := Function.update s.pending i .new })

/-- The channels of the entries once the one in the slot is told `b`. -/
def resolveEntry (slot : Option TaskId) (pending : TaskId → Oneshot Bool) (b : Bool) :
    TaskId → Oneshot Bool :=
  match slot with
  | none => pending
  | some i => Function.update pending i ((pending i).send b)

/-- The slot emptied and its receiver told `b`. -/
def Daemon.resolvePending (s : Daemon) (b : Bool) : Daemon :=
  { s with
    coord := { s.coord with pendingPam := none }
    pending := resolveEntry s.coord.pendingPam s.pending b }

def approvePendingPam (f : Frame) : Code Bool :=
  Proc.atomically fun s =>
    match s.coord.pendingPam with
    | none => (false, s)
    | some i => (true, (s.resolvePending true).note (.approved i f (s.pending i).isOpen))

/-- What handler `i` runs on its way out. -/
def denyPendingPam (i : TaskId) : Code Unit :=
  Proc.modify fun s => (s.resolvePending false).note (.denied i s.coord.pendingPam)

/-- The branch of a `select` that waits for handler `i`'s own entry. -/
def pendingBranch (i : TaskId) (k : Bool → β) (s : Daemon) : Option (β × Daemon) :=
  (s.pending i).recv.map fun got =>
    let b := got.getD false
    (k b, s.note (.gotPending i b))

def dropPending (i : TaskId) : Code Unit :=
  Proc.modify fun s => Daemon.note (.pendingDropped i)
    { s with pending := Function.update s.pending i (s.pending i).dropRx }

-- ---------------------------------------------------------------------------
-- The screen
-- ---------------------------------------------------------------------------

def targetSession (ext : Extern) : Code (Option Str) := do
  match ← ownerUid with
  | none => pure none
  | some uid => graphicalSessionId ext uid

def unlockScreen (ext : Extern) : Code Unit := do
  match ← targetSession ext with
  | none => pure ()
  | some session =>
    let success ← Proc.choose [true, false]
    Proc.when success do
      Proc.modify (Daemon.note (.unlocked session))
      setPreAuth ext 0 (fun _ => .unlocked) preAuthDuration unlockFollowupServices

def lockScreen (ext : Extern) : Code Unit := do
  match ← targetSession ext with
  | none => pure ()
  | some _ =>
    let _ ← Proc.choose [true, false]
    pure ()

/-- `screen_locked` read on the way of a match. -/
def loadScreenLocked : Code Bool :=
  Proc.atomically fun s => (s.coord.screenLocked, s.note (.lockedRead s.coord.screenLocked))

def setLastAuthFlow : Code Unit := do
  let now ← clock
  store fun c => { c with lastAuthFlow := some now }

/-- A screen unlock may be followed by further requests. -/
def onApproved (ext : Extern) : Code Unit := do
  setLastAuthFlow
  let locked ← loadScreenLocked
  Proc.when locked
    (setPreAuth ext 0 (fun a => .matched a.worker.taken) preAuthDuration unlockFollowupServices)

def onNoRequest (ext : Extern) : Code Unit := do
  let unlockEnabled ← load fun c => c.settings.unlockScreen
  let locked ← load (·.screenLocked)
  Proc.when (locked && unlockEnabled) do
    setLastAuthFlow
    unlockScreen ext

/-- What the match `f`, whose HMAC was verified, is used for: a pending
request, else a locked screen, else nothing. -/
def onFpMatch (ext : Extern) (f : Frame) : Code Unit := do
  let approved ← approvePendingPam f
  if approved then onApproved ext else onNoRequest ext

def clearPreAuth : Code Unit :=
  Proc.modify fun s => Daemon.note .windowCleared { s with coord := { s.coord with preAuth := none } }

/-- The firmware asks for a lock after every touch; the tail of a real flow
is no such wish. -/
def isRecent (last : Option Nat) (now : Nat) : Bool :=
  last.any fun t => now - t < lockSuppressWindow

def handleLockRequest (ext : Extern) : Code Unit := do
  let enabled ← load fun c => c.settings.lockScreen
  Proc.when enabled do
    let locked ← load (·.screenLocked)
    Proc.when (!locked) do
      let last ← load (·.lastAuthFlow)
      let now ← clock
      Proc.when (!isRecent last now) do
        clearPreAuth
        lockScreen ext

-- ---------------------------------------------------------------------------
-- Commands to the worker
-- ---------------------------------------------------------------------------

/-- The command channel holds 32 commands. -/
def queueCapacity : Nat := 32

/-- Connection `i` queues `cmd` with a new reply channel, once there is room. -/
def enqueueBranch (i : TaskId) (cmd : BleCommand) (k : ReplyId → β) (s : Daemon) :
    Option (β × Daemon) :=
  if s.queue.length < queueCapacity then
    some (k s.nextReply, Daemon.note (.queued i s.nextReply cmd) { s with
      queue := s.queue ++ [⟨s.nextReply, cmd⟩]
      replies := Function.update s.replies s.nextReply .new
      nextReply := s.nextReply + 1 })
  else none

/-- `none` when the worker dropped the channel. -/
def replyBranch (i : TaskId) (r : ReplyId) (k : Option Reply → β) (s : Daemon) :
    Option (β × Daemon) :=
  (s.replies r).recv.map fun
    | some reply => (k (some reply), s.note (.gotReply i r reply))
    | none => (k none, s)

def dropReply (i : TaskId) (r : ReplyId) : Code Unit :=
  Proc.modify fun s => Daemon.note (.replyDropped i r)
    { s with replies := Function.update s.replies r (s.replies r).dropRx }

/-- A command queued and its reply awaited. -/
def bleRequest (i : TaskId) (cmd : BleCommand) : Code (Option Reply) := do
  let r ← Proc.await (enqueueBranch i cmd id)
  Proc.await (replyBranch i r id)

/-- What a race between a command and other branches comes to next. -/
inductive Raced (β : Type)
  | queued (r : ReplyId)
  | replied (reply : Option Reply)
  | other (b : Option β)

/-- The branch of the command itself: first to be queued, then its reply. -/
def ownBranch (i : TaskId) (cmd : BleCommand) (r : Option ReplyId) :
    Daemon → Option (Raced β × Daemon) :=
  match r with
  | none => enqueueBranch i cmd .queued
  | some r => replyBranch i r .replied

/-- A `select` between `cmd` and `others`. A branch of `others` that ends in
`none` goes round again; one that ends in `some` ends the race. Also says
which request was queued. -/
def race (i : TaskId) (cmd : BleCommand)
    (others : List (Daemon → Option (Option β × Daemon))) :
    Code (Option ReplyId × (Option Reply ⊕ β)) :=
  Proc.repeatFrom none fun r => do
    let next ← Proc.select (ownBranch i cmd r ::
      others.map fun f s => (f s).map fun p => (.other p.1, p.2))
    match next with
    | .queued r' => pure (.inl (some r'))
    | .replied reply => pure (.inr (r, .inl reply))
    | .other none => pure (.inl r)
    | .other (some b) => pure (.inr (r, .inr b))

/-- The reply channel is dropped where another branch ended the race. -/
def dropLoser (i : TaskId) : Option ReplyId × (Option Reply ⊕ β) → Code Unit
  | (some r, .inr _) => dropReply i r
  | _ => pure ()

/-- A race whose losers are dropped at once. -/
def raceRequest (i : TaskId) (cmd : BleCommand)
    (others : List (Daemon → Option (Option β × Daemon))) :
    Code (Option ReplyId × (Option Reply ⊕ β)) := do
  let result ← race i cmd others
  dropLoser i result
  pure result

def Reply.toBle : Option Reply → BleResult
  | some (.ble r) => r
  | _ => .error "BLE reply dropped"

def Reply.toAuth : Option Reply → Except Str Bool
  | some (.auth r) => r
  | _ => .error "BLE reply dropped"

def Reply.toUnit : Option Reply → Except Str Unit
  | some (.unit r) => r
  | _ => .error "BLE reply dropped"

def Reply.toBytes : Option Reply → Except Str Bytes
  | some (.bytes r) => r
  | _ => .error "BLE reply dropped"

def bleSend (i : TaskId) (cmd : UInt8) (payload : Bytes) : Code BleResult :=
  Reply.toBle <$> bleRequest i (.sendCommand cmd payload)

def bleSendFpGated (i : TaskId) (cmd : UInt8) (payload : Bytes) : Code BleResult :=
  Reply.toBle <$> bleRequest i (.sendFpGated cmd payload)

def otaWriteAndRead (i : TaskId) (data : Bytes) (timeoutMs : Nat) : Code (Except Str Bytes) :=
  Reply.toBytes <$> bleRequest i (.otaWriteRead data timeoutMs)

def otaWrite (i : TaskId) (data : Bytes) : Code (Except Str Unit) :=
  Reply.toUnit <$> bleRequest i (.otaWrite data)

def syncKeys (i : TaskId) : Code (Except Str Unit) := Reply.toUnit <$> bleRequest i .syncKeys

-- ---------------------------------------------------------------------------
-- Cancels
-- ---------------------------------------------------------------------------

/-- `notify_one` on the wait `w`, by connection `i` for the request `target`. -/
def notifyCancel (i : TaskId) (w : Touch) (target : Option ReplyId) : Code Unit :=
  Proc.modify fun s =>
    let tag : Cancel := { by_ := i, target, inProgress := s.inProgress w }
    let cancels := s.coord.cancels.set w ((s.coord.cancels.get w).notifyOne tag)
    Daemon.note (.cancelSent i w tag) { s with coord := { s.coord with cancels } }

/-- The flag is read first and the notification sent after it. -/
def cancelActiveGate (i : TaskId) : Code Bool := do
  let (active, target) ← Proc.get fun s => (s.coord.gateActive, s.inProgress .gate)
  if active then
    notifyCancel i .gate target
    pure true
  else pure false

end Immurok
