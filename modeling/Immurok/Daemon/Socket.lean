import Immurok.Daemon.Coordinator
import Immurok.Daemon.Keystore
import Immurok.Daemon.RequestLine
import Immurok.DualHost

/-!
# The socket server

One task per connection: it reads one request line, checks that the peer may
ask for it, runs the handler and writes the response. A handler takes the
name `i` of its connection.
-/

namespace Immurok

open Async

-- ---------------------------------------------------------------------------
-- The stream
-- ---------------------------------------------------------------------------

def utf8 (s : Str) : Bytes := s.flatMap String.utf8EncodeChar

theorem utf8_append {a b : Str} : utf8 (a ++ b) = utf8 a ++ utf8 b := List.flatMap_append

def Daemon.updateSocket (i : TaskId) (f : Socket → Socket) (s : Daemon) : Daemon :=
  { s with socket := Function.update s.socket i (f (s.socket i)) }

inductive Read
  | data (bs : Bytes)
  | eof
  | timeout

/-- A read takes any part of what has arrived, up to `n` bytes. -/
def readOutcomes (i : TaskId) (n : Nat) (s : Daemon) : List (Read × Daemon) :=
  let inbox := (s.socket i).inbox
  let taken := (List.range (min n inbox.length)).map fun k =>
    (.data (inbox.take (k + 1)), s.updateSocket i fun c => { c with inbox := inbox.drop (k + 1) })
  if inbox = [] ∧ (s.socket i).closed then (.eof, s) :: taken else taken

def readUntil (i : TaskId) (n : Nat) (deadline : Nat) : Code Read :=
  .act (fun s => readOutcomes i n s ++ (deadlineBranch deadline .timeout s).toList) .ret

/-- The branch of a `select` that reads one byte: `true` for data, `false`
for the end of the stream. -/
def probeBranch (i : TaskId) (k : Bool → β) (s : Daemon) : Option (β × Daemon) :=
  match (s.socket i).inbox with
  | _ :: rest => some (k true, s.updateSocket i fun c => { c with inbox := rest })
  | [] => if (s.socket i).closed then some (k false, s) else none

def writeBytes (i : TaskId) (bs : Bytes) : Code Unit :=
  Proc.modify (Daemon.updateSocket i fun c => { c with outbox := c.outbox ++ bs })

def writeText (i : TaskId) (text : Str) : Code Unit := writeBytes i (utf8 text)

def writeLineTo (i : TaskId) (text : Str) : Code Unit := writeText i (text ++ "\n".toList)

-- ---------------------------------------------------------------------------
-- Authorization
-- ---------------------------------------------------------------------------

/-- Management is for whoever is logged in, or the owner when that cannot be
told. -/
def authorize (ext : Extern) (tier : Tier) (uid : Nat) : Code Bool :=
  if uid = 0 then pure true
  else
    match tier with
    | .anyone => pure true
    | .auth => pure (ext.polkitdUid == some uid)
    | .manage => do
      match ← uidIsActive uid with
      | some active => pure active
      | none => do
        let owner ← ownerUid
        pure (owner == some uid)

-- ---------------------------------------------------------------------------
-- AUTH
-- ---------------------------------------------------------------------------

def isServiceAllowed (ext : Extern) (settings : Settings) (service : Str) : Bool :=
  let s := ext.toLowercase service
  if Str.contains "gdm" s || Str.contains "login" s then settings.unlockScreen
  else if s = "polkit-1".toList then settings.unlockPolkit
  else settings.unlockSudo

def isGraphical (ext : Extern) (service : Str) : Bool :=
  let s := ext.toLowercase service
  Str.contains "gdm" s || Str.contains "login" s || s = "polkit-1".toList

/-- Reads for handler `i`, each with its event. -/
def readOwnerFor (i : TaskId) : Code (Option Nat) :=
  Proc.atomically fun s =>
    (readOwner s.files.owner, s.note (.ownerRead i (readOwner s.files.owner)))

def readSettingsFor (i : TaskId) : Code Settings :=
  Proc.atomically fun s => (s.coord.settings, s.note (.settingsRead i s.coord.settings))

def loadConnected (i : TaskId) : Code Bool :=
  Proc.atomically fun s => (s.coord.isConnected, s.note (.connectedRead i s.coord.isConnected))

def loadVerified (i : TaskId) : Code Bool :=
  Proc.atomically fun s =>
    (s.coord.isDeviceVerified, s.note (.verifiedRead i s.coord.isDeviceVerified))

/-- What ends the wait of a handler beside its own command. -/
inductive Ended
  | pending (b : Bool)
  | dialog
  | socket (data : Bool)
  | timeout

/-- The dialog's cancel is only waited for where a dialog is shown. -/
def dialogBranch (showing : Bool) (subscribed : Nat) (s : Daemon) :
    Option (Option Ended × Daemon) :=
  if showing then uiCancelBranch subscribed (some .dialog) s else none

/-- Whether the outcome of the race is an approval; giving up sends a cancel
for the request that was queued. -/
def settleTouch (i : TaskId) (request : Option ReplyId) : Option Reply ⊕ Ended → Code Bool
  | .inl reply => pure (Reply.toAuth reply matches .ok true)
  | .inr (.pending b) => pure b
  | .inr _ => do
    notifyCancel i .auth request
    pure false

def dismiss (showing : Bool) : Code Unit :=
  Proc.when showing do
    let _ ← pushUi "UI:DISMISS"
    pure ()

/-- The race of a registered AUTH between its `AuthRequest`, its own entry,
the dialog and the end of the connection. -/
def raceAuth (i : TaskId) (showing : Bool) (subscribed : Nat) : Code Bool := do
  let (request, outcome) ← raceRequest i .authRequest
    [pendingBranch i fun b => some (.pending b), dialogBranch showing subscribed,
      probeBranch i fun data => some (.socket data)]
  dropPending i
  let approved ← settleTouch i request outcome
  dismiss showing
  denyPendingPam i
  pure approved

/-- Only a graphical service gets a dialog. -/
def showDialog (graphical : Bool) : Code Bool :=
  if graphical then pushUi "UI:DIALOG:AUTH" else pure false

/-- From the touch on: the dialog, the slot, the race. -/
def authTouch (ext : Extern) (i : TaskId) (service : Str) : Code Response := do
  let subscribed ← load (·.uiCancels)
  let showing ← showDialog (isGraphical ext service)
  let registered ← trySetPendingPam i .auth
  if !registered then do
    dismiss showing
    pure (.error "BUSY")
  else do
    let approved ← raceAuth i showing subscribed
    pure (if approved then .ok "AUTHENTICATED" else .deny "FP_DENIED")

/-- The device has to be there and verified. -/
def authDevice (ext : Extern) (i : TaskId) (service : Str) : Code Response := do
  let connected ← loadConnected i
  if !connected then pure (.deny "NOT_CONNECTED")
  else do
    let verified ← loadVerified i
    if !verified then pure (.deny "NOT_VERIFIED") else authTouch ext i service

/-- An open window answers without a touch. -/
def authWindow (ext : Extern) (i : TaskId) (service : Str) : Code Response := do
  let hit ← consumePreAuth ext i service
  if hit then pure (.ok "PRE_AUTH") else authDevice ext i service

/-- The service has to be enabled. -/
def authService (ext : Extern) (i : TaskId) (service : Str) : Code Response := do
  let settings ← readSettingsFor i
  if !isServiceAllowed ext settings service then pure (.deny "SERVICE_DISABLED")
  else authWindow ext i service

/-- The request has to be for the owner, where one is on record. -/
def handleAuth (ext : Extern) (i : TaskId) (user service : Str) : Code Response := do
  let owner ← readOwnerFor i
  if owner.any fun uid => ext.uidOfUser user ≠ some uid then pure (.deny "NOT_OWNER")
  else authService ext i service

-- ---------------------------------------------------------------------------
-- AGENT_APPROVE
-- ---------------------------------------------------------------------------

def isProtocolError : Option Reply ⊕ Ended → Bool
  | .inr (.socket true) => true
  | _ => false

/-- The race of a registered AGENT_APPROVE; also says whether it was ended by
data on the socket. -/
def raceAgent (i : TaskId) (showing : Bool) (subscribed : Nat) : Code (Bool × Bool) := do
  let now ← clock
  let (request, outcome) ← raceRequest i .authRequest
    [pendingBranch i fun b => some (.pending b), probeBranch i fun data => some (.socket data),
      dialogBranch showing subscribed, deadlineBranch (now + secs 35) (some .timeout)]
  dropPending i
  let approved ← settleTouch i request outcome
  dismiss showing
  denyPendingPam i
  pure (approved, isProtocolError outcome)

/-- An approval opens the window for the wrapped command's sudo. -/
def answerAgent (ext : Extern) (i : TaskId) (approved protocolError : Bool) : Code Response :=
  if protocolError then pure (.error "PROTOCOL")
  else if approved then do
    setPreAuth ext i (fun _ => .agent i) (secs 10) sudoServices
    pure (.ok "APPROVED")
  else pure (.deny "REJECTED")

def agentTouch (ext : Extern) (i : TaskId) (cmd : Str) : Code Response := do
  let registered ← trySetPendingPam i .agent
  if !registered then pure (.error "BUSY")
  else do
    let subscribed ← load (·.uiCancels)
    let showing ← pushUi ("UI:DIALOG:AGENT:30:".toList ++ cmd)
    let (approved, protocolError) ← raceAgent i showing subscribed
    answerAgent ext i approved protocolError

def handleAgentApprove (ext : Extern) (i : TaskId) (cmd : Str) : Code Response :=
  if cmd = [] then pure (.error "EMPTY_COMMAND")
  else do
    let connected ← loadConnected i
    if !connected then pure (.error "NOT_CONNECTED")
    else do
      let verified ← loadVerified i
      if !verified then pure (.error "NOT_VERIFIED") else agentTouch ext i cmd

-- ---------------------------------------------------------------------------
-- Fingerprints
-- ---------------------------------------------------------------------------

def handleStatus : Code Response := do
  let connected ← load (·.isConnected)
  let status ← load (·.deviceStatus)
  let unpaired ← load (·.deviceReportsUnpaired)
  match status with
  | some s => pure (.status connected "immurok" s.battery s.fwVersion unpaired)
  | none => pure (.status connected [] 0 [] unpaired)

/-- The bitmap of the answer goes into the cached status. -/
def refreshBitmap (i : TaskId) : Code Unit := do
  match ← bleSend i cmdFpList [] with
  | .ok (status, bitmap :: _) =>
    Proc.when (status = rspOk) do
      store fun c => { c with
        deviceStatus := c.deviceStatus.map fun s => { s with fpBitmap := bitmap } }
      store fun c => { c with fpBitmapStale := false }
  | _ => pure ()

def handleFpList (i : TaskId) : Code Response := do
  let connected ← load (·.isConnected)
  if !connected then pure (.error "NOT_CONNECTED")
  else do
    let haveCache ← load (·.deviceStatus.isSome)
    let stale ← load (·.fpBitmapStale)
    Proc.when (stale || !haveCache) (refreshBitmap i)
    match ← load (·.deviceStatus) with
    | some s => pure (.ok (Str.ofNat s.fpBitmap.toNat))
    | none => pure (.error "NO_STATUS")

/-- A gated command that is given up when its client goes away. -/
def gatedUntilHangup (i : TaskId) (cmd : UInt8) (payload : Bytes) : Code BleResult := do
  let (request, outcome) ← raceRequest i (.sendFpGated cmd payload)
    [probeBranch i fun _ => some ()]
  match outcome with
  | .inl reply => pure (Reply.toBle reply)
  | .inr () => do
    notifyCancel i .gate request
    pure (.error "cancelled")

def handleFpEnroll (i : TaskId) (slot : UInt8) : Code Response :=
  if switchFingerSlot < slot then pure (.error "INVALID_SLOT")
  else do
    let connected ← load (·.isConnected)
    if !connected then pure (.error "NOT_CONNECTED")
    else do
      store fun c => { c with lastEnrollEvent := none }
      match ← gatedUntilHangup i cmdEnrollStart [slot] with
      | .ok _ => pure (.ok "ENROLL_STARTED")
      | .error e => pure (.error ("ENROLL_FAILED:".toList ++ e))

def handleFpEnrollCancel (i : TaskId) : Code Response := do
  let connected ← load (·.isConnected)
  if !connected then pure (.error "NOT_CONNECTED")
  else do
    store fun c => { c with lastEnrollEvent := none }
    let _ ← cancelActiveGate i
    match ← bleSend i cmdEnrollCancel [] with
    | .ok _ => pure (.ok "ENROLL_CANCELLED")
    | .error e => pure (.error ("BLE_SEND_FAILED:".toList ++ e))

def handleFpDelete (i : TaskId) (slot : UInt8) : Code Response := do
  let connected ← load (·.isConnected)
  if !connected then pure (.error "NOT_CONNECTED")
  else do
    match ← gatedUntilHangup i cmdDeleteFp [slot] with
    | .ok _ => do
      store fun c => { c with fpBitmapStale := true }
      pure (.ok "DELETED")
    | .error e => pure (.error ("DELETE_FAILED:".toList ++ e))

/-- The answer to a verification by touch. -/
def verifyResponse : BleResult → Response
  | .error e => .error ("BLE_SEND_FAILED:".toList ++ e)
  | .ok (status, _) =>
    if status = rspOk ∨ status = rspFpGateApproved then .ok "MATCH"
    else if status = rspErrFpNotMatch ∨ status = rspErrTimeout then .ok "NO_MATCH"
    else .error ("VERIFY_FAILED:0x".toList ++ Str.hexByte status)

def handleFpVerify (i : TaskId) : Code Response := do
  let connected ← load (·.isConnected)
  if !connected then pure (.error "NOT_CONNECTED")
  else do
    let verified ← load (·.isDeviceVerified)
    if !verified then pure (.error "NOT_VERIFIED")
    else verifyResponse <$> bleSendFpGated i cmdAuthRequest []

def handleFpStatus : Code Response := do
  match ← load (·.lastEnrollEvent) with
  | some (status, current, total) =>
    pure (.ok (Str.ofNat status.toNat ++ ":".toList ++ Str.ofNat current.toNat ++ ":".toList ++
      Str.ofNat total.toNat))
  | none => pure (.ok "IDLE")

def handleFpLastMatch : Code Response := pure (.ok "-1")

def handleGateCancel (i : TaskId) : Code Response := do
  let connected ← load (·.isConnected)
  if !connected then pure (.error "NOT_CONNECTED")
  else do
    let cancelled ← cancelActiveGate i
    if cancelled then pure (.ok "GATE_CANCELLED")
    else do
      match ← bleSend i cmdGateCancel [] with
      | .ok _ => pure (.ok "GATE_CANCELLED")
      | .error e => pure (.error ("BLE_SEND_FAILED:".toList ++ e))

-- ---------------------------------------------------------------------------
-- Pairing
-- ---------------------------------------------------------------------------

def handlePairStatus : Code Response := do
  let paired ← load (·.pairing.isSome)
  pure (.ok (if paired then "PAIRED" else "UNPAIRED"))

def handlePairStart (i : TaskId) : Code Response := do
  let connected ← load (·.isConnected)
  if !connected then pure (.error "NOT_CONNECTED")
  else do
    let begun ← tryBeginPairing
    if !begun then pure (.error "PAIRING_IN_PROGRESS")
    else do
      match ← bleRequest i .pair with
      | some (.ble (.ok _)) => pure (.ok "PAIRED")
      | some (.ble (.error e)) => pure (.error ("PAIRING_FAILED:".toList ++ e))
      | _ => do
        setPairProgress .failed
        pure (.error "PAIR_REPLY_DROPPED")

/-- Whoever paired the device owns it. -/
def pairStart (i : TaskId) (peer : Peer) : Code Response := do
  let response ← handlePairStart i
  Proc.when (response matches .ok _) (recordOwner i peer.uid)
  pure response

def handlePairProgress : Code Response := do
  let p ← load (·.pairProgress)
  pure (.ok p.asWire)

def clearLocalPairing (i : TaskId) : Code Unit := do
  let removed ← Proc.choose [true, false]
  Proc.when removed (Proc.modify fun s => { s with files := { s.files with pairing := none } })
  setPairing i none
  setVerified i false
  store fun c => { c with challengeVerified := false }

def querySlotStatus (i : TaskId) : Code (Except Str SlotStatus) := do
  let answer ← bleSend i cmdSlotStatus []
  pure (answer.map fun (first, rest) => parseSlotStatus (first :: rest))

/-- The slot that is provably this host's, or 0. -/
def ownSlot (bitmap active : UInt8) : Code UInt8 :=
  if bitmap &&& (1 <<< (active - 1)) = 0 then pure 0
  else do
    let proven ← load (·.challengeVerified)
    if !proven then pure 0
    else do
      let paired ← load (·.pairing.isSome)
      pure (if paired then active else 0)

def handleSlotStatus (i : TaskId) : Code Response := do
  let connected ← load (·.isConnected)
  if !connected then pure (.error "NOT_CONNECTED")
  else do
    match ← querySlotStatus i with
    | .ok (.supported bitmap active) => do
      let mine ← ownSlot bitmap active
      pure (.ok (Str.ofNat bitmap.toNat ++ ":".toList ++ Str.ofNat active.toNat ++ ":".toList ++
        Str.ofNat mine.toNat))
    | .ok .unsupported => pure (.ok "UNSUPPORTED")
    | .error e => pure (.error ("SLOT_STATUS_FAILED:".toList ++ e))

def clearOwnSlot (i : TaskId) (target : Option UInt8) : Code Response := do
  match ← bleSend i cmdSlotClear target.toList with
  | .ok (first, rest) =>
    match classifySlotClearAck first rest with
    | .cleared => do
      clearLocalPairing i
      pure (.ok "CLEARED")
    | .slotUnpaired => do
      clearLocalPairing i
      pure (.ok "CLEARED_SLOT_UNPAIRED")
    | .refused => pure (.error "SLOT_CLEAR_REFUSED")
    | .unrecognised => do
      clearLocalPairing i
      pure (.ok "CLEARED_UNCONFIRMED")
  | .error _ => do
    -- the reboot takes the answer with it
    clearLocalPairing i
    pure (.ok "CLEARED_UNCONFIRMED")

def clearOtherSlot (i : TaskId) (target : UInt8) : Code Response := do
  match ← bleSendFpGated i cmdSlotClear [target] with
  | .ok _ => pure (.ok "CLEARED")
  | .error e => pure (.error ("SLOT_CLEAR_FAILED:".toList ++ e))

/-- Where there is no device, only this host's own record can be dropped. -/
def clearOffline (i : TaskId) (slot : Option UInt8) : Code Response :=
  match slot with
  | none => do
    clearLocalPairing i
    pure (.ok "CLEARED_LOCAL_ONLY")
  | some _ => pure (.error "NOT_CONNECTED")

/-- The bare form needs no status. -/
def slotStatusFor (i : TaskId) (slot : Option UInt8) : Code (Except Str SlotStatus) :=
  if slot.isSome then querySlotStatus i else pure (.ok .unsupported)

def handleSlotClear (i : TaskId) (slot : Option UInt8) : Code Response := do
  let connected ← load (·.isConnected)
  if !connected then clearOffline i slot
  else do
    match ← slotStatusFor i slot with
    | .error e => pure (.error ("SLOT_STATUS_FAILED:".toList ++ e))
    | .ok status =>
      match resolveClearPath slot status with
      | .own => clearOwnSlot i slot
      | .other target => clearOtherSlot i target
      | .invalidSlot => pure (.error "INVALID_SLOT")
      | .unsupported => pure (.error "DUAL_HOST_UNSUPPORTED")

def computeResetHmac (ext : Extern) (key : Bytes) : Bytes :=
  ext.hmacSha256 key (ascii "factory-reset")

def handleFactoryReset (ext : Extern) (i : TaskId) : Code Response := do
  let connected ← load (·.isConnected)
  if !connected then pure (.error "NOT_CONNECTED")
  else do
    let pairing ← load (·.pairing)
    let payload := (pairing.map fun p => computeResetHmac ext p.sharedKey).getD []
    match ← bleSendFpGated i cmdFactoryReset payload with
    | .ok (status, _) =>
      if status = rspOk ∨ status = rspFpGateApproved then do
        clearLocalPairing i
        pure (.ok "RESET")
      else pure (.error ("FACTORY_RESET_FAILED:0x".toList ++ Str.hexByte status))
    | .error e => pure (.error ("FACTORY_RESET_FAILED:".toList ++ e))

-- ---------------------------------------------------------------------------
-- Settings and information
-- ---------------------------------------------------------------------------

def pushSshTakeover : Code Unit := do
  let on ← load fun c => c.settings.sshTakeover
  let _ ← pushUi ("SSH_TAKEOVER:".toList ++ if on then "ON" else "OFF")
  pure ()

/-- A setting is changed and saved under one lock. -/
def handleSetSetting (i : TaskId) (set : Settings → Settings) : Code Response :=
  .act (fun s =>
    let settings := set s.coord.settings
    let changed := { s with coord := { s.coord with settings } }
    let saved := { changed with files := { s.files with settings } }
    [(.ok [], saved.note (.settingsSet i settings)),
      (.error "SAVE_FAILED:No space left on device (os error 28)",
        changed.note (.settingsSet i settings))]) .ret

def handleSetSshTakeover (i : TaskId) (v : Bool) : Code Response := do
  let response ← handleSetSetting i fun s => { s with sshTakeover := v }
  Proc.when (response matches .ok _) pushSshTakeover
  pure response

def handleGetSettings : Code Response := do
  let s ← load (·.settings)
  pure (.ok ("sudo=".toList ++ flag s.unlockSudo ++ ":polkit=".toList ++ flag s.unlockPolkit ++
    ":screen=".toList ++ flag s.unlockScreen ++ ":lock=".toList ++ flag s.lockScreen ++
    ":ssh=".toList ++ flag s.sshTakeover))

def handleGetInfo (ext : Extern) : Code Response := do
  let status ← load (·.deviceStatus)
  let connected ← load (·.isConnected)
  let fw : Str := (status.map (·.fwVersion)).getD "-".toList
  let battery := (status.map (·.battery)).getD 0
  pure (.ok ("fw=".toList ++ fw ++ ":model=IK-1:connected=".toList ++ flag connected ++
    ":battery=".toList ++ Str.ofNat battery.toNat ++ ":uid=".toList ++ Str.ofNat ext.daemonUid ++
    ":sock=/run/immurok/pam.sock".toList))

-- ---------------------------------------------------------------------------
-- Keys: reading
-- ---------------------------------------------------------------------------

def loadSshKeys : Code (List SshKeyCacheEntry) := Proc.get fun s => s.files.sshKeys

def loadKeyNames : Code (List KeyNameEntry) := Proc.get fun s => s.files.keyNames

def keyCacheJson (ext : Extern) (kind : Str) : Code Str :=
  let kind := Str.trim kind
  if kind = "ssh".toList then do
    let keys ← loadSshKeys
    pure ("OK:".toList ++ ext.sshKeysJson keys)
  else if kind = "names".toList then do
    let names ← loadKeyNames
    pure ("OK:".toList ++ ext.keyNamesJson names)
  else pure "ERROR:UNKNOWN_CACHE"

def sshKeyText (ext : Extern) (e : SshKeyCacheEntry) : Str :=
  "ecdsa-sha2-nistp256 ".toList ++ ext.base64Encode e.publicKeyBlob

def handleListKeys (ext : Extern) (cat : Str) : Code Str :=
  let cat := Str.trim cat
  if cat = "ssh".toList then do
    let entries ← loadSshKeys
    pure ("OK:".toList ++ Str.ofNat entries.length ++ "\n".toList ++
      (entries.flatMap fun e => e.name ++ "\t".toList ++ sshKeyText ext e ++ "\n".toList) ++
      "\n".toList)
  else if cat = "otp".toList ∨ cat = "api".toList then do
    let names ← loadKeyNames
    let filtered := names.filter fun e => e.category = cat
    pure ("OK:".toList ++ Str.ofNat filtered.length ++ "\n".toList ++
      (filtered.flatMap fun e => e.name ++ "\n".toList) ++ "\n".toList)
  else pure "ERROR:UNKNOWN_CATEGORY\n"

def handleGetSsh (ext : Extern) (name : Str) : Code Str := do
  let entries ← loadSshKeys
  match entries.find? fun e => e.name = name with
  | some e => pure ("OK:".toList ++ sshKeyText ext e ++ " ".toList ++ e.name ++ "\n".toList)
  | none => pure ("ERROR:NOT_FOUND:".toList ++ name ++ "\n".toList)

def findKeyIndex (cat name : Str) : Code (Option UInt8) := do
  let names ← loadKeyNames
  pure ((names.find? fun e => e.category = cat ∧ e.name = name).map (·.index))

def readFailed (what : Str) (status : UInt8) : Str :=
  "ERROR:".toList ++ what ++ "_FAILED:0x".toList ++ Str.hexByte status ++ "\n".toList

def readError (what e : Str) : Str :=
  "ERROR:".toList ++ what ++ "_FAILED:".toList ++ e ++ "\n".toList

def decodeApiSecret (entry : Bytes) (name : Str) : Str :=
  if entry.length ≤ nameLenApi then "ERROR:INVALID_DATA:".toList ++ name ++ "\n".toList
  else
    let trimmed := (entry.drop nameLenApi).takeWhile (· ≠ 0)
    if trimmed = [] then "ERROR:EMPTY_SECRET:".toList ++ name ++ "\n".toList
    else
      match Utf8.strict trimmed with
      | some s => "OK:".toList ++ s ++ "\n".toList
      | none => "ERROR:NON_UTF8:".toList ++ name ++ "\n".toList

/-- The entry read in chunks, once the touch has opened the cooldown. -/
def readApiEntry (i : TaskId) (idx : UInt8) (name : Str) : Code Str :=
  Proc.repeatFrom [] fun full => do
    match ← bleSend i cmdKeyRead [keyCatApi, idx, UInt8.ofNat full.length] with
    | .error e => pure (.inr (readError "READ" e))
    | .ok (status, total :: _ :: chunk) =>
      if status ≠ rspOk then pure (.inr (readFailed "READ" status))
      else
        let full := full ++ chunk
        if total.toNat ≤ full.length then
          pure (.inr (decodeApiSecret (full.take total.toNat) name))
        else pure (.inl full)
    | .ok (status, _) => pure (.inr (readFailed "READ" status))

/-- The touch for one API entry. -/
def touchApiEntry (i : TaskId) (idx : UInt8) : Code BleResult := do
  let result ← bleSendFpGated i cmdKeyRead [keyCatApi, idx, 0]
  denyPendingPam i
  pure result

def handleGetApi (i : TaskId) (name : Str) : Code Str := do
  match ← findKeyIndex "api" name with
  | none => pure ("ERROR:NOT_FOUND:".toList ++ name ++ "\n".toList)
  | some idx => do
    let registered ← trySetPendingPam i .placeholder
    if !registered then pure "ERROR:BUSY\n"
    else do
      match ← touchApiEntry i idx with
      | .ok (status, _) =>
        if status = rspOk then readApiEntry i idx name else pure (readFailed "READ" status)
      | .error e => pure (readError "READ" e)

/-- `[idx][unix_time:4 LE]`. -/
def otpGetPayload (idx : UInt8) : Code Bytes := do
  let now ← clock
  pure (idx :: u32Le (now / 1000))

def isAsciiDigit (b : UInt8) : Bool := 0x30 ≤ b && b ≤ 0x39

def formatOtpResponse (code : Bytes) : Str :=
  if code.length < 6 ∨ !(code.take 6).all isAsciiDigit then
    "ERROR:OTP_INVALID:".toList ++ Str.hexEncode code ++ "\n".toList
  else "OK:".toList ++ Utf8.lossy (code.take 6) ++ "\n".toList

/-- The code itself, where the touch brought none. -/
def otpAfterTouch (i : TaskId) (idx : UInt8) : Code Str := do
  let payload ← otpGetPayload idx
  match ← bleSend i cmdKeyOtpGet payload with
  | .ok (status, code) =>
    if status = rspOk ∧ 6 ≤ code.length then pure (formatOtpResponse code)
    else pure (readFailed "OTP" status)
  | .error e => pure (readError "OTP" e)

def otpGetInner (i : TaskId) (idx : UInt8) : Code Str := do
  let payload ← otpGetPayload idx
  match ← bleSendFpGated i cmdKeyOtpGet payload with
  | .ok (status, code) =>
    if status = rspOk then
      if 6 ≤ code.length then pure (formatOtpResponse code) else otpAfterTouch i idx
    else pure (readFailed "OTP" status)
  | .error e => pure (readError "OTP" e)

/-- The slot is borrowed so that only one touch is asked for at a time. -/
def otpWithSlot (i : TaskId) (idx : UInt8) (busy : Str) : Code Str := do
  let registered ← trySetPendingPam i .placeholder
  if !registered then pure busy
  else do
    let result ← otpGetInner i idx
    denyPendingPam i
    pure result

def handleGetOtp (i : TaskId) (name : Str) : Code Str := do
  match ← findKeyIndex "otp" name with
  | none => pure ("ERROR:NOT_FOUND:".toList ++ name ++ "\n".toList)
  | some idx => otpWithSlot i idx "ERROR:BUSY\n"

/-- `cat:name`; the public key comes from the cache, the others need the
device. -/
def handleGetKey (ext : Extern) (i : TaskId) (afterGet : Str) : Code Str :=
  match Str.splitOnce ':' afterGet with
  | none | some (_, []) => pure "ERROR:USAGE\n"
  | some (cat, name) => do
    let connected ← load (·.isConnected)
    if !connected && cat ≠ "ssh".toList then pure "ERROR:NOT_CONNECTED\n"
    else if cat = "ssh".toList then handleGetSsh ext name
    else if cat = "api".toList then handleGetApi i name
    else if cat = "otp".toList then handleGetOtp i name
    else pure "ERROR:UNKNOWN_CATEGORY\n"

-- ---------------------------------------------------------------------------
-- Keys: changing
-- ---------------------------------------------------------------------------

def fmtWriteStatus (what : Str) (status : UInt8) : Str :=
  if status = rspErrLowBattery then
    "ERROR:LOW_BATTERY:".toList ++ what ++ " refused (device <5%, charge to retry)".toList
  else "ERROR:".toList ++ what ++ "_FAILED:0x".toList ++ Str.hexByte status

def generateKey (i : TaskId) (nameHex : Str) : Code Str :=
  match Str.hexDecode nameHex with
  | .ok name =>
    if name.length ≠ 16 then pure "ERROR:INVALID_NAME"
    else do
      match ← bleSendFpGated i cmdKeyGenerate (keyCatSsh :: name) with
      | .ok (status, data) =>
        if status = rspOk then do
          let _ ← syncKeys i
          pure ("OK:".toList ++ Str.ofNat (data.getD 2 0).toNat)
        else pure (fmtWriteStatus "GENERATE" status)
      | .error e => pure ("ERROR:".toList ++ e)
  | .error _ => pure "ERROR:INVALID_NAME"

def parseCategory (s : Str) : Option UInt8 :=
  if s = "ssh".toList ∨ s = "0".toList then some keyCatSsh
  else if s = "otp".toList ∨ s = "1".toList then some keyCatOtp
  else if s = "api".toList ∨ s = "2".toList then some keyCatApi
  else none

def deleteKey (i : TaskId) (cat idx : Str) : Code Str :=
  match parseCategory cat, Str.parseU8 idx with
  | none, _ => pure "ERROR:INVALID_CATEGORY"
  | some _, .error _ => pure "ERROR:INVALID_INDEX"
  | some cat, .ok idx => do
    match ← bleSendFpGated i cmdKeyDelete [cat, idx] with
    | .ok (status, _) =>
      if status = rspOk then do
        let _ ← syncKeys i
        pure "OK:DELETED"
      else pure (fmtWriteStatus "KEY_DELETE" status)
    | .error e => pure ("ERROR:".toList ++ e)

/-- One KEY_WRITE carries 59 bytes. -/
def maxChunk : Nat := 59

/-- The data staged chunk by chunk; an error is the handler's answer. -/
def writeChunks (i : TaskId) (cat idx : UInt8) (keyData : Bytes) : Code (Option Str) :=
  Proc.repeatFrom 0 fun (offset : Nat) => do
    if keyData.length ≤ offset then pure (.inr none)
    else
      let chunk := (keyData.drop offset).take maxChunk
      match ← bleSend i cmdKeyWrite (cat :: idx :: UInt8.ofNat offset :: chunk) with
      | .ok (status, _) =>
        if status = rspOk then pure (.inl (min (offset + maxChunk) keyData.length))
        else if status = rspErrLowBattery then
          pure (.inr (some "ERROR:LOW_BATTERY:KEY_WRITE refused (device <5%, charge to retry)"))
        else
          pure (.inr (some ("ERROR:KEY_WRITE_FAILED:offset=".toList ++ Str.ofNat offset ++
            ":0x".toList ++ Str.hexByte status)))
      | .error e => pure (.inr (some ("ERROR:KEY_WRITE_FAILED:".toList ++ e)))

def commitKey (i : TaskId) (cat idx count : UInt8) : Code Str := do
  match ← bleSendFpGated i cmdKeyCommit [cat, idx] with
  | .ok (status, _) =>
    if status = rspOk ∨ status = rspFpGateApproved then do
      let _ ← syncKeys i
      pure ("OK:".toList ++ Str.ofNat count.toNat)
    else pure (fmtWriteStatus "KEY_COMMIT" status)
  | .error e => pure ("ERROR:KEY_COMMIT_FAILED:".toList ++ e)

/-- Stage and commit; index 0xFF appends. -/
def handleKeyImportInner (i : TaskId) (cat : UInt8) (keyData : Bytes) (label : Str)
    (maxCount : UInt8) : Code Str := do
  match ← bleSend i cmdKeyCount [cat] with
  | .error e => pure ("ERROR:KEY_COUNT_FAILED:".toList ++ e)
  | .ok (status, []) => pure ("ERROR:KEY_COUNT_FAILED:0x".toList ++ Str.hexByte status ++
      ":len=0".toList)
  | .ok (status, count :: rest) =>
    if status ≠ rspOk then
      pure ("ERROR:KEY_COUNT_FAILED:0x".toList ++ Str.hexByte status ++ ":len=".toList ++
        Str.ofNat (rest.length + 1))
    else if maxCount ≤ count then
      pure ("ERROR:KEYSTORE_FULL:".toList ++ label ++ " at capacity (".toList ++
        Str.ofNat count.toNat ++ "/".toList ++ Str.ofNat maxCount.toNat ++ ")".toList)
    else do
      match ← writeChunks i cat 0xFF keyData with
      | some e => pure e
      | none => commitKey i cat 0xFF count

/-- The lengths an entry of a category may have, as the error message names
them. -/
structure ImportKind where
  cat : UInt8
  label : Str
  maxCount : UInt8
  lo : Nat
  hi : Nat
  expected : Str

def importSsh : ImportKind :=
  { cat := keyCatSsh, label := "SSH", maxCount := keyMaxSsh, lo := 112, hi := 112,
    expected := "112 bytes" }

def importOtp : ImportKind :=
  { cat := keyCatOtp, label := "OTP", maxCount := keyMaxOtp
    lo := nameLenOtp + serviceLenOtp + 1
    hi := nameLenOtp + serviceLenOtp + secretLenOtp
    expected := "61..=92 bytes (name+service+secret)" }

def importApi : ImportKind :=
  { cat := keyCatApi, label := "API", maxCount := keyMaxApi
    lo := nameLenApi + 1
    hi := nameLenApi + valueLenApi
    expected := "33..=160 bytes (name+value)" }

def importKey (i : TaskId) (kind : ImportKind) (hexData : Str) : Code Str :=
  match Str.hexDecode hexData with
  | .ok keyData =>
    if keyData.length < kind.lo ∨ kind.hi < keyData.length then
      pure ("ERROR:INVALID_DATA_LEN:expected ".toList ++ kind.expected ++ ", got ".toList ++
        Str.ofNat keyData.length)
    else handleKeyImportInner i kind.cat keyData kind.label kind.maxCount
  | .error e => pure ("ERROR:INVALID_HEX:".toList ++ e)

def otpCommand (i : TaskId) (idx : Str) : Code Str :=
  match Str.parseU8 idx with
  | .error _ => pure "ERROR:INVALID_INDEX"
  | .ok idx => Str.trimEnd <$> otpWithSlot i idx "ERROR:BUSY"

/-- The commands that need the device. -/
def keyOnDevice (i : TaskId) (parts : List Str) : Code Str :=
  match parts with
  | [_, sub, arg] =>
    if sub = "GENERATE".toList then generateKey i arg
    else if sub = "IMPORT".toList then importKey i importSsh arg
    else if sub = "OTP_IMPORT".toList then importKey i importOtp arg
    else if sub = "OTP".toList then otpCommand i arg
    else if sub = "API_IMPORT".toList then importKey i importApi arg
    else pure "ERROR:UNKNOWN_KEY_CMD"
  | _ :: sub :: arg :: arg' :: _ =>
    if sub = "GENERATE".toList then generateKey i arg
    else if sub = "DELETE".toList then deleteKey i arg arg'
    else if sub = "IMPORT".toList then importKey i importSsh arg
    else if sub = "OTP_IMPORT".toList then importKey i importOtp arg
    else if sub = "OTP".toList then otpCommand i arg
    else if sub = "API_IMPORT".toList then importKey i importApi arg
    else pure "ERROR:UNKNOWN_KEY_CMD"
  | _ => pure "ERROR:UNKNOWN_KEY_CMD"

/-- Reads of the cache work with the device away. -/
def handleKeyCommand (ext : Extern) (i : TaskId) (line : Str) : Code Str :=
  let parts := Str.splitn ':' 3 line
  if parts.length < 2 then pure "ERROR:INVALID_FORMAT"
  else if parts.getD 1 [] = "CACHE".toList ∧ 3 ≤ parts.length then
    keyCacheJson ext (parts.getD 2 [])
  else do
    let connected ← load (·.isConnected)
    if !connected then pure "ERROR:NOT_CONNECTED"
    else do
      let verified ← load (·.isDeviceVerified)
      if !verified then pure "ERROR:NOT_VERIFIED" else keyOnDevice i parts

-- ---------------------------------------------------------------------------
-- Long connections
-- ---------------------------------------------------------------------------

/-- The next line for the agent. -/
def uiLineBranch (i : TaskId) (k : Str → β) (s : Daemon) : Option (β × Daemon) :=
  match (s.socket i).uiLines with
  | [] => none
  | l :: rest => some (k l, s.updateSocket i fun c => { c with uiLines := rest })

inductive AgentEvent
  | line (l : Str)
  | read (r : Read)

/-- A write fails only on a connection the peer has closed. -/
def tryWriteLine (i : TaskId) (l : Str) : Code Bool :=
  .act (fun s =>
    let written := s.updateSocket i fun c => { c with outbox := c.outbox ++ utf8 (l ++ "\n".toList) }
    if (s.socket i).closed then [(true, written), (false, s)] else [(true, written)]) .ret

def sendUiCancel : Code Unit := store fun c => { c with uiCancels := c.uiCancels + 1 }

/-- The lines of one read; only a cancel means anything. -/
def agentLines : List Str → Code Unit
  | [] => pure ()
  | l :: rest => do
    Proc.when (Str.trim l = "UI:CANCEL".toList) sendUiCancel
    agentLines rest

def agentRound (i : TaskId) : Code (Option Unit) := do
  match ← Proc.act (fun s => (uiLineBranch i .line s).toList ++
      (readOutcomes i 512 s).map fun (r, s') => (AgentEvent.read r, s')) .ret with
  | .line l => do
    let written ← tryWriteLine i l
    pure (if written then none else some ())
  | .read (.data bs) => do
    agentLines ((Utf8.lossy bs).splitOn '\n')
    pure none
  | .read _ => pure (some ())

/-- The connection the session agent keeps open. A newer one replaces it; on
its way out it withdraws only itself. -/
def serveSessionAgent (i : TaskId) : Code Unit := do
  store fun c => { c with uiOut := some i }
  pushSshTakeover
  Proc.loop (agentRound i)
  store fun c => if c.uiOut = some i then { c with uiOut := none } else c

/-- A viewer of the log, until it goes away. -/
def serveLogStream (i : TaskId) : Code Unit :=
  Proc.await fun s => if (s.socket i).closed then some ((), s) else none

end Immurok
