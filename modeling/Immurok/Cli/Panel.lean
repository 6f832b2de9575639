import Immurok.Cli.AgentCommand
import Immurok.Cli.Tui
import Immurok.Client.Keys
import Immurok.Client.Pam
import Immurok.Client.Planning
import Immurok.Text.Json

/-!
# The panel of the terminal interface

All that the interface keeps, what each key does with it, and which threads a key
starts. What a thread tells the panel is put in by `receive`.
-/

namespace Immurok.Tui

-- ---------------------------------------------------------------------------
-- The state
-- ---------------------------------------------------------------------------

inductive Tab
  | dashboard
  | keys
  | pam
  | logs
  | firmware
  deriving DecidableEq

inductive Mode
  | normal
  | deleteSelect
  | keyInput
  | keyDeleteConfirm
  | help
  | enrollKindSelect
  | hostMenu
  | hostConfirm
  deriving DecidableEq

inductive MessageStyle
  | dim
  | green
  | red
  | yellow
  deriving DecidableEq

/-- A host action that awaits confirmation. -/
inductive HostAction
  | unpairSelf
  | unpairSlot (slot : UInt8)
  | factoryReset
  | enrollSwitch
  deriving DecidableEq

def HostAction.prompt (mine : Option UInt8) : HostAction → Str
  | .unpairSelf => Tui.unpairSelf
  | .unpairSlot s =>
    match mine with
    | some m =>
      if m = s then "Clear host slot ".toList ++ Str.ofNat s.toNat ++
        " — THIS computer's own pairing? (y/n)".toList
      else "Clear host slot ".toList ++ Str.ofNat s.toNat ++
        " — the OTHER computer? Needs a fingerprint. (y/n)".toList
    | none => "Clear host slot ".toList ++ Str.ofNat s.toNat ++
        "? Cannot tell whether it is this computer's — needs a fingerprint. (y/n)".toList
  | .factoryReset => "WIPE the device: all fingerprints, ALL SSH keys, both hosts? (y/n)"
  | .enrollSwitch => "Enroll the host-switch finger in slot 5? (y/n)"

inductive FwState
  | idle
  | checking
  | upToDate
  | ready
  | updating (stage : Str) (hop hops : Nat)
  | success (version : Str)
  | failed (e : Str)
  deriving DecidableEq

inductive KeyTab
  | ssh
  | otp
  | api
  deriving DecidableEq

def KeyTab.label : KeyTab → Str
  | .ssh => "SSH"
  | .otp => "OTP"
  | .api => "API"

def KeyTab.catByte : KeyTab → UInt8
  | .ssh => 0
  | .otp => 1
  | .api => 2

def KeyTab.next : KeyTab → KeyTab
  | .ssh => .otp
  | .otp => .api
  | .api => .ssh

def KeyTab.prev : KeyTab → KeyTab
  | .ssh => .api
  | .otp => .ssh
  | .api => .otp

/-- SSH asks for a name, API for a name and a value, OTP for a name, a service and a
secret. -/
structure KeyAddFlow where
  cat : KeyTab
  name : Option Str
  service : Option Str
  deriving DecidableEq

inductive KeyInputStage
  | name
  | service
  | secret
  deriving DecidableEq

def KeyAddFlow.stage (f : KeyAddFlow) : KeyInputStage :=
  if f.name.isNone then .name
  else if f.cat = .otp ∧ f.service.isNone then .service
  else .secret

structure EventEntry where
  text : Str
  style : MessageStyle
  deriving DecidableEq

structure SshKeyRow where
  index : UInt8
  name : Str
  fingerprint : Str
  blobB64 : Str

structure NameKeyRow where
  index : UInt8
  name : Str
  service : Str

/-- `PAM_SERVICES` of the panel, by the names of the services. -/
def pamPanelServices : List Str := ["sudo", "polkit-1", "gdm-password"]

structure PamRequest where
  action : Str
  services : List Str
  deriving DecidableEq

/-- The work of a thread. Of a pairing there are two threads, with a flag by which the
one stops the other. -/
inductive Job
  | slotClear (slot : UInt8)
  | factoryReset
  | pairProgress (flag : Nat) (secondHost : Bool)
  | pair (flag : Nat)
  | unpair
  | enroll (slot : UInt8)
  | enrollCancel
  | delete (slot : UInt8)
  | verify
  | toggle (name cmdKey : Str) (enabling : Bool) (note : Option Str)
  | keyAdd (cat : KeyAddCat) (label name service : Str) (secret : Bytes)
  | showApi (name : Str)
  | generate (name : Str)
  | keyDelete (tab : KeyTab) (idx : UInt8)
  | otp (name : Str)
  | fwSilentCheck
  | fwCheck
  | fwUpdate (prep : PreparedUpdate)
  | logStream

/-- `ActionResult`. The fraction of a transfer that is done is left out. -/
inductive Report
  | refresh
  | message (msg : Str) (style : MessageStyle)
  | secretMessage (msg : Str)
  | enrollStarted
  | enrollProgress (current total : UInt8)
  | logLine (line : Str)
  | logEnded
  | fwSilentCheck (v : Option Str)
  | fwPrepared (r : Except Str (Option PreparedUpdate))
  | fwProgress (stage : Str) (hop hops : Nat)
  | fwFinished (r : Except Str Str)
  | done

/-- The report asks for a refresh. -/
def Report.wantsRefresh : Report → Bool
  | .refresh | .fwFinished (.ok _) => true
  | _ => false

def eventBufferCap : Nat := 200
def logBufferCap : Nat := 1000
def logPageStep : Nat := 20

/-- `spawned` are the threads started so far, in their order. -/
structure Panel extends App where
  fwUpdateAvailable : Option Str
  fwState : FwState
  fwPrepared : Option PreparedUpdate
  unlockSudo : Bool
  unlockPolkit : Bool
  unlockScreen : Bool
  lockScreen : Bool
  sshTakeover : Bool
  pamSudo : Bool
  pamPolkit : Bool
  pamScreen : Bool
  tab : Tab
  mode : Mode
  messageStyle : MessageStyle
  events : List EventEntry
  enrollActive : Bool
  enrollGate : Bool
  enrollSlot : UInt8
  enrollCurrent : UInt8
  enrollTotal : UInt8
  keyTab : KeyTab
  keyCursor : Nat
  sshKeys : List SshKeyRow
  otpKeys : List NameKeyRow
  apiKeys : List NameKeyRow
  inputBuf : Str
  keyAddFlow : Option KeyAddFlow
  pendingDelete : Option (KeyTab × UInt8)
  pendingHostAction : Option HostAction
  pamCursor : Nat
  logLines : List Str
  logScroll : Nat
  isolated : Option Bool
  logStream : Bool
  spawned : List Job

def Panel.new : Panel :=
  { App.new with
    fwUpdateAvailable := none, fwState := .idle, fwPrepared := none
    unlockSudo := true, unlockPolkit := true, unlockScreen := true, lockScreen := false
    sshTakeover := false, pamSudo := false, pamPolkit := false, pamScreen := false
    tab := .dashboard, mode := .normal, messageStyle := .dim, events := []
    enrollActive := false, enrollGate := false, enrollSlot := 0, enrollCurrent := 0
    enrollTotal := 0, keyTab := .ssh, keyCursor := 0, sshKeys := [], otpKeys := [], apiKeys := []
    inputBuf := [], keyAddFlow := none, pendingDelete := none, pendingHostAction := none
    pamCursor := 0, logLines := [], logScroll := 0, isolated := none, logStream := false
    spawned := [] }

/-- What the daemon and the file system answer where the panel waits for them. -/
structure Outside extends Answers where
  settings : Option Str
  pamDir : Pam.Dir
  sshCache : List Json
  nameCache : List Json
  isolated : Option Bool
  info : Except Str Str
  logStream : Except Str Unit

namespace Panel

-- ---------------------------------------------------------------------------
-- Messages
-- ---------------------------------------------------------------------------

/-- An element behind the others, of which the first one goes where there is no room. -/
def pushBack {α : Type} (cap : Nat) (xs : List α) (x : α) : List α :=
  (if cap ≤ xs.length then xs.tail else xs) ++ [x]

def setMsg (msg : Str) (style : MessageStyle) (p : Panel) : Panel :=
  let p := { p with message := msg, messageStyle := style }
  if msg = [] ∨ msg = "Ready".toList ∨ style = .dim then p
  else if p.events.getLast?.any (·.text == msg) then p
  else { p with events := pushBack eventBufferCap p.events ⟨msg, style⟩ }

def setMsgDim (msg : Str) (p : Panel) : Panel := p.setMsg msg .dim

/-- Never in the feed of events. -/
def setMsgPrompt (msg : Str) (style : MessageStyle) (p : Panel) : Panel :=
  { p with message := msg, messageStyle := style }

/-- `guard_paired`, with what is done behind it. -/
def guardPaired (f : Panel → Panel) (p : Panel) : Panel :=
  if p.paired then f p else p.setMsg "Pair the device first (press p)." .yellow

/-- The check of the connection before an action. -/
def guardConnected (f : Panel → Panel) (p : Panel) : Panel :=
  if p.connected then f p else p.setMsg "Device not connected" .red

def unlessBusy (f : Panel → Panel) (p : Panel) : Panel := if p.busy then p else f p

/-- An action is begun: the panel is busy until its thread says that it is done. -/
def begin (job : Job) (msg : Str) (style : MessageStyle) (p : Panel) : Panel :=
  { p with busy := true, spawned := p.spawned ++ [job] }.setMsg msg style

-- ---------------------------------------------------------------------------
-- Keys of the device
-- ---------------------------------------------------------------------------

def currentKeyLen (p : Panel) : Nat :=
  match p.keyTab with
  | .ssh => p.sshKeys.length
  | .otp => p.otpKeys.length
  | .api => p.apiKeys.length

def currentKeyIndex (p : Panel) : Option UInt8 :=
  match p.keyTab with
  | .ssh => p.sshKeys[p.keyCursor]?.map (·.index)
  | .otp => p.otpKeys[p.keyCursor]?.map (·.index)
  | .api => p.apiKeys[p.keyCursor]?.map (·.index)

def currentKeyName (p : Panel) : Option Str :=
  match p.keyTab with
  | .ssh => p.sshKeys[p.keyCursor]?.map (·.name)
  | .otp => p.otpKeys[p.keyCursor]?.map (·.name)
  | .api => p.apiKeys[p.keyCursor]?.map (·.name)

def textOf (key : String) (other : Str) (e : Json) : Str :=
  ((e.get key.toList).bind (·.asStr)).getD other

def indexOf (e : Json) : UInt8 :=
  UInt8.ofNat (((e.get "index".toList).bind (·.asU64)).getD 0)

def sshRow (e : Json) : SshKeyRow :=
  { index := indexOf e, name := textOf "name" "-" e, fingerprint := textOf "fingerprint" [] e
    blobB64 := textOf "public_key_blob" [] e }

def nameRow (e : Json) : NameKeyRow :=
  { index := indexOf e, name := textOf "name" "-" e, service := textOf "service" [] e }

def ofCategory (cat : String) (es : List Json) : List NameKeyRow :=
  (es.filter fun e => textOf "category" [] e == cat.toList).map nameRow

def refreshKeys (o : Outside) (p : Panel) : Panel :=
  let p := { p with
    sshKeys := o.sshCache.map sshRow
    otpKeys := ofCategory "otp" o.nameCache
    apiKeys := ofCategory "api" o.nameCache }
  let len := p.currentKeyLen
  if len = 0 then { p with keyCursor := 0 }
  else if len ≤ p.keyCursor then { p with keyCursor := len - 1 }
  else p

def keysNextTab (p : Panel) : Panel := { p with keyTab := p.keyTab.next, keyCursor := 0 }

def keysSetTab (tab : KeyTab) (p : Panel) : Panel := { p with keyTab := tab, keyCursor := 0 }

def keysCursorUp (p : Panel) : Panel :=
  if 0 < p.keyCursor then { p with keyCursor := p.keyCursor - 1 } else p

def keysCursorDown (p : Panel) : Panel :=
  if 0 < p.currentKeyLen ∧ p.keyCursor + 1 < p.currentKeyLen then
    { p with keyCursor := p.keyCursor + 1 }
  else p

-- ---------------------------------------------------------------------------
-- Fingerprints
-- ---------------------------------------------------------------------------

def hasFinger (p : Panel) (slot : UInt8) : Bool := p.fpBitmap &&& (1 <<< slot) != 0

def switchFingerAvailable (p : Panel) : Bool := p.dualHost && !p.hasFinger switchFingerSlot

def actionEnroll (slot : UInt8) : Panel → Panel :=
  unlessBusy fun p =>
    let gate := p.fpBitmap != 0
    let p := { p with
      mode := .normal, busy := true, enrollActive := true, enrollGate := gate, enrollSlot := slot
      enrollCurrent := 0, enrollTotal := 6, spawned := p.spawned ++ [Job.enroll slot] }
    if gate then
      p.setMsg ("Enrolling slot ".toList ++ Str.ofNat slot.toNat ++
        " — verify with an enrolled finger to authorize…".toList) .yellow
    else
      p.setMsg ("Enrolling slot ".toList ++ Str.ofNat slot.toNat ++
        " — place finger on sensor…".toList) .yellow

/-- `0..MAX_FINGERPRINT_SLOTS`. -/
def authSlots : List UInt8 := (List.range maxFingerprintSlots.toNat).map UInt8.ofNat

def enrollAuthFinger (p : Panel) : Panel :=
  match authSlots.find? fun i => !p.hasFinger i with
  | some s => p.actionEnroll s
  | none => { p with mode := .normal }.setMsg "All authentication slots are full" .red

def autoEnroll : Panel → Panel :=
  guardPaired <| guardConnected <| unlessBusy fun p =>
    if p.switchFingerAvailable then
      { p with mode := .enrollKindSelect }.setMsg
        "Enroll:  a = authentication finger  ·  s = host-switch finger (slot 5)  ·  Esc" .yellow
    else p.enrollAuthFinger

def enrollKindPick (c : Char) (p : Panel) : Panel :=
  if c = 'a' ∨ c = 'A' then { p with mode := .normal }.enrollAuthFinger
  else if c = 's' ∨ c = 'S' then { p with mode := .normal }.actionEnroll switchFingerSlot
  else p

def cancelEnrollKind (p : Panel) : Panel := { p with mode := .normal }.setMsg "Ready" .dim

def enterDeleteSelect : Panel → Panel :=
  guardPaired <| guardConnected fun p =>
    { p with mode := .deleteSelect }.setMsg
      ("Press 0-".toList ++ Str.ofNat switchFingerSlot.toNat ++
        " to choose slot to delete (".toList ++ Str.ofNat switchFingerSlot.toNat ++
        " = host-switch finger, Esc to cancel)".toList) .yellow

def cancelSelect (p : Panel) : Panel := { p with mode := .normal }.setMsg "Ready" .dim

def actionEnrollCancel (p : Panel) : Panel :=
  if !p.enrollActive then p
  else { p with spawned := p.spawned ++ [Job.enrollCancel] }.setMsg "Enrollment cancelled." .yellow

def actionDelete (slot : UInt8) : Panel → Panel :=
  unlessBusy fun p =>
    { p with mode := .normal }.begin (.delete slot) ("Deleting slot ".toList ++
      Str.ofNat slot.toNat ++ " — touch sensor to confirm".toList) .yellow

def actionVerify : Panel → Panel :=
  guardPaired <| unlessBusy <| guardConnected (begin .verify "Touch sensor to verify…" .yellow)

-- ---------------------------------------------------------------------------
-- Hosts
-- ---------------------------------------------------------------------------

def enterHostMenu : Panel → Panel :=
  unlessBusy fun p =>
    if !p.dualHost then
      p.setMsg "This device's firmware has no dual-host support." .yellow
    else
      { p with mode := .hostMenu }.setMsg
        "Hosts:  1 / 2 unpair that host  ·  s enroll switch finger  ·  R factory reset  ·  Esc"
        .yellow

def hostMenuAction (c : Char) : Option HostAction :=
  if c = '1' then some (.unpairSlot 1)
  else if c = '2' then some (.unpairSlot 2)
  else if c = 's' then some .enrollSwitch
  else if c = 'R' then some .factoryReset
  else none

/-- The action awaits its `y`. -/
def stage (action : HostAction) (prompt : Str) (p : Panel) : Panel :=
  { p with pendingHostAction := some action, mode := .hostConfirm }.setMsg prompt .red

def hostMenuPick (c : Char) (p : Panel) : Panel :=
  match hostMenuAction c with
  | none => p
  | some action =>
    -- no action of the menu is `unpairSelf`
    let staged := p.stage action (action.prompt p.slotMine)
    match action with
    | .unpairSlot slot =>
      if p.slotBitmap &&& (1 <<< (slot - 1)) == 0 then
        { p with mode := .normal }.setMsg
          ("Host slot ".toList ++ Str.ofNat slot.toNat ++ " is already empty.".toList) .yellow
      else staged
    | .enrollSwitch =>
      if !p.paired then
        { (p.setMsg "Pair the device first (press p)." .yellow) with mode := .normal }
      else if !p.connected then { p with mode := .normal }.setMsg "Device not connected" .red
      else if p.hasFinger switchFingerSlot then
        { p with mode := .normal }.setMsg
          "Host-switch finger (slot 5) is already enrolled — delete it first." .yellow
      else staged
    | _ => staged

def requestUnpairSelf (p : Panel) : Checked Panel :=
  if p.busy then .ok p
  else do
    let prompt ← p.unpairSelfPrompt
    .ok (p.stage .unpairSelf prompt)

def cancelHostAction (p : Panel) : Panel :=
  { p with pendingHostAction := none, mode := .normal }.setMsg "Ready" .dim

def actionSlotClear (slot : UInt8) : Panel → Panel :=
  unlessBusy <| begin (.slotClear slot) ("Clearing host slot ".toList ++ Str.ofNat slot.toNat ++
    " — touch an enrolled finger…".toList) .yellow

def actionFactoryReset : Panel → Panel :=
  unlessBusy <| begin .factoryReset "Wiping device — touch an enrolled finger to authorize…" .red

def actionUnpair : Panel → Panel :=
  unlessBusy <| begin .unpair "Unpairing this computer…" .yellow

def confirmHostAction (p : Panel) : Panel :=
  match p.pendingHostAction with
  | none => { p with mode := .normal }
  | some action =>
    let p := { p with pendingHostAction := none, mode := .normal }
    match action with
    | .unpairSelf => p.actionUnpair
    | .unpairSlot slot => if some slot = p.slotMine then p.actionUnpair else p.actionSlotClear slot
    | .factoryReset => p.actionFactoryReset
    | .enrollSwitch => p.actionEnroll switchFingerSlot

def actionPair (p : Panel) : Checked Panel :=
  if p.busy then .ok p
  else if p.paired then .ok (p.setMsg "Already paired — unpair first." .yellow)
  else if !p.connected then .ok (p.setMsg "Device not connected" .red)
  else do
    let secondHost ← Checked.andThen p.dualHost
      (isSecondHost (.supported p.slotBitmap p.slotActive))
    let flag := p.spawned.length
    .ok ({ p with
      busy := true
      spawned := p.spawned ++ [Job.pairProgress flag secondHost, Job.pair flag] }.setMsg
      (if secondHost then "Pairing as second host — (1/2) touch an enrolled finger, " ++
          "(2/2) press the device button"
        else "Pairing… press the device button within 30s") .yellow)

-- ---------------------------------------------------------------------------
-- Settings
-- ---------------------------------------------------------------------------

def toggleSettingWithNote (name cmdKey : Str) (current : Bool) (note : Option Str) :
    Panel → Panel :=
  unlessBusy fun p =>
    let onOff := if !current then "ON".toList else "OFF".toList
    p.begin (.toggle name cmdKey (!current) note)
      ("Setting ".toList ++ name ++ " ".toList ++ onOff ++ "…".toList) .yellow

def toggleSetting (name cmdKey : Str) (current : Bool) : Panel → Panel :=
  toggleSettingWithNote name cmdKey current none

def actionToggleSudo : Panel → Panel :=
  guardPaired fun p => p.toggleSetting "sudo" "UNLOCK_SUDO" p.unlockSudo

def actionTogglePolkit : Panel → Panel :=
  guardPaired fun p => p.toggleSetting "polkit" "UNLOCK_POLKIT" p.unlockPolkit

def actionToggleScreen : Panel → Panel :=
  guardPaired fun p => p.toggleSetting "screen" "UNLOCK_SCREEN" p.unlockScreen

def actionToggleLock : Panel → Panel :=
  guardPaired fun p => p.toggleSetting "lock" "LOCK_SCREEN" p.lockScreen

def actionToggleSsh : Panel → Panel :=
  guardPaired fun p => p.toggleSettingWithNote "ssh" "SSH_TAKEOVER" p.sshTakeover <| some <|
    if !p.sshTakeover then
      "routing all SSH through the device key; on-disk keys stay as fallback"
    else "reverting SSH to your system keys/agent"

/-- One field of the answer to `GET:INFO`. -/
def infoLine (part : Str) : Option Str :=
  (Str.splitOnce '=' part).map fun (k, v) =>
    let label :=
      if k = "model".toList then "Model".toList
      else if k = "fw".toList then "Firmware".toList
      else if k = "battery".toList then "Battery".toList
      else if k = "connected".toList then "Connected".toList
      else k
    let display :=
      if k = "battery".toList ∧ v ≠ "-1".toList then v ++ "%".toList
      else if k = "connected".toList then if v = "1".toList then "Yes".toList else "No".toList
      else v
    label ++ ": ".toList ++ display

def actionInfo (o : Outside) : Panel → Panel :=
  guardPaired fun p =>
    match o.info with
    | .ok rsp =>
      match rsp.splitOn ':' with
      | kind :: parts =>
        if kind = "OK".toList then
          p.setMsg (" │ ".toList.intercalate (parts.filterMap infoLine)) .dim
        else p.setMsg ("Info: ".toList ++ rsp) .red
      | [] => p.setMsg ("Info: ".toList ++ rsp) .red
    | .error e => p.setMsg ("Info error: ".toList ++ e) .red

-- ---------------------------------------------------------------------------
-- Tabs
-- ---------------------------------------------------------------------------

def toggleHelp (p : Panel) : Panel := { p with mode := if p.mode = .help then .normal else .help }

def startLogStream (o : Outside) (p : Panel) : Panel :=
  if p.logStream then p
  else
    match o.logStream with
    | .error e => p.setMsg ("Log stream failed: ".toList ++ e) .red
    | .ok () =>
      { p with
        logLines := [], logScroll := 0, spawned := p.spawned ++ [Job.logStream], logStream := true }

def stopLogStream (p : Panel) : Panel :=
  { p with logStream := false, logLines := [], logScroll := 0 }

/-- The side effects of leaving a tab. -/
def leaveTab (p : Panel) : Panel := if p.tab = .logs then p.stopLogStream else p

def turnTo (tab : Tab) (p : Panel) : Panel := { p with tab, mode := .normal }

def keysFromStart (p : Panel) : Panel :=
  if max p.currentKeyLen 1 ≤ p.keyCursor then { p with keyCursor := 0 } else p

/-- The side effects of entering a tab. -/
def enterTab (o : Outside) (p : Panel) : Tab → Panel
  | .dashboard | .firmware => p
  | .keys => (p.refreshKeys o).keysFromStart
  | .pam => if pamPanelServices.length ≤ p.pamCursor then { p with pamCursor := 0 } else p
  | .logs => p.startLogStream o

def setTab (tab : Tab) (o : Outside) (p : Panel) : Panel :=
  if p.tab = tab then p else ((p.leaveTab.turnTo tab).enterTab o tab).setMsgDim "Ready"

def pamCursorUp (p : Panel) : Panel :=
  if 0 < p.pamCursor then { p with pamCursor := p.pamCursor - 1 } else p

def pamCursorDown (p : Panel) : Panel :=
  if p.pamCursor + 1 < pamPanelServices.length then { p with pamCursor := p.pamCursor + 1 } else p

def requestPamAction (install : Bool) (p : Panel) : Option PamRequest :=
  pamPanelServices[p.pamCursor]?.map fun svc =>
    { action := if install then "add" else "remove", services := [svc] }

def requestPamRepair (o : Outside) (p : Panel) : Option PamRequest :=
  let services := Pam.servicesToRepairIn o.pamDir p.unlockSudo p.unlockPolkit
  if services = [] then none else some { action := "add", services }

def afterPamAction (req : PamRequest) (ok : Bool) (p : Panel) : Panel :=
  let verb := if req.action = "add".toList then "installed".toList else "removed".toList
  let svcList := ", ".toList.intercalate req.services
  if ok then p.setMsg ("PAM ".toList ++ verb ++ " done: ".toList ++ svcList) .green
  else p.setMsg ("PAM ".toList ++ verb ++ " for ".toList ++ svcList ++
    " failed (see terminal output above).".toList) .red

def logScrollUp (p : Panel) : Panel :=
  if p.logScroll < p.logLines.length then { p with logScroll := p.logScroll + 1 } else p

def logScrollDown (p : Panel) : Panel :=
  if 0 < p.logScroll then { p with logScroll := p.logScroll - 1 } else p

def logPageUp (p : Panel) : Panel :=
  { p with logScroll := min (p.logScroll + logPageStep) p.logLines.length }

def logPageDown (p : Panel) : Panel := { p with logScroll := p.logScroll - logPageStep }

def logJumpTop (p : Panel) : Panel := { p with logScroll := p.logLines.length }

def logJumpBottom (p : Panel) : Panel := { p with logScroll := 0 }

-- ---------------------------------------------------------------------------
-- Actions on keys
-- ---------------------------------------------------------------------------

def actionKeyShowPubkey : Panel → Panel :=
  guardPaired fun p =>
    if p.keyTab ≠ .ssh then p.setMsg "Public key view is SSH-only." .yellow
    else
      match p.sshKeys[p.keyCursor]? with
      | none => p.setMsg "No SSH key selected." .yellow
      | some row =>
        if row.blobB64 = [] then p.setMsg "No public key data cached for this entry." .red
        else
          p.setMsg ("ecdsa-sha2-nistp256 ".toList ++ row.blobB64 ++ " ".toList ++ row.name) .green

def keyCapacity (p : Panel) : Nat × UInt8 :=
  match p.keyTab with
  | .ssh => (p.sshKeys.length, keyMaxSsh)
  | .otp => (p.otpKeys.length, keyMaxOtp)
  | .api => (p.apiKeys.length, keyMaxApi)

def enterKeyAdd : Panel → Panel :=
  guardPaired <| guardConnected fun p =>
    let (count, max) := p.keyCapacity
    if max.toNat ≤ count then
      p.setMsg (p.keyTab.label ++ " keystore full (".toList ++ Str.ofNat count ++ "/".toList ++
        Str.ofNat max.toNat ++ ") — delete an entry first.".toList) .red
    else
      { p with
        inputBuf := []
        keyAddFlow := some ⟨p.keyTab, none, none⟩
        mode := .keyInput }.setMsgPrompt
        (match p.keyTab with
        | .ssh => "Name the new SSH keypair (generated on-device)."
        | .otp => "Name the OTP entry (secret comes next)."
        | .api => "Name the API key (value comes next).") .yellow

def inputMax (p : Panel) : Nat :=
  match p.keyAddFlow with
  | some f =>
    match f.stage with
    | .name =>
      match f.cat with
      | .ssh => nameLenSsh - 1
      | .otp => nameLenOtp - 1
      | .api => nameLenApi - 1
    | .service => serviceLenOtp - 1
    | .secret => 256
  | none => 15

def inputPushChar (c : Char) (p : Panel) : Panel :=
  if p.inputBuf.length < p.inputMax ∧ isControl c = false then
    { p with inputBuf := p.inputBuf ++ [c] }
  else p

def inputPopChar (p : Panel) : Panel := { p with inputBuf := p.inputBuf.dropLast }

def inputCancel (p : Panel) : Panel :=
  { p with inputBuf := [], keyAddFlow := none, mode := .normal }.setMsg "Cancelled." .dim

def actionKeyGenerate (name : Str) : Panel → Panel :=
  unlessBusy <| begin (.generate name) ("Generating SSH keypair '".toList ++ name ++
    "' — touch sensor to authorize…".toList) .yellow

def actionKeyAdd (cat : KeyTab) (name service : Str) (secret : Bytes) (p : Panel) :
    Checked Panel :=
  if p.busy then .ok p
  else do
    let addCat ←
      match cat with
      | .otp => .ok KeyAddCat.otp
      | .api => .ok KeyAddCat.api
      | .ssh => .error .panic
    .ok (p.begin (.keyAdd addCat cat.label name service secret)
      ("Adding ".toList ++ cat.label ++ " key '".toList ++ name ++
        "' — touch sensor to authorize…".toList) .yellow)

/-- The bytes of the last stage, or what is said instead. -/
def secretOf (cat : KeyTab) (text : Str) : Checked (Except Str Bytes) :=
  match cat with
  | .otp =>
    match base32Decode text with
    | some b =>
      if b = [] then .ok (.error "Invalid base32 secret — check for typos.")
      else if secretLenOtp < b.length then
        .ok (.error ("Secret too long: ".toList ++ Str.ofNat b.length ++
          " bytes decoded (limit ".toList ++ Str.ofNat secretLenOtp ++ ").".toList))
      else .ok (.ok b)
    | none => .ok (.error "Invalid base32 secret — check for typos.")
  | .api =>
    if valueLenApi < (utf8 text).length then
      .ok (.error ("Value too long: ".toList ++ Str.ofNat (utf8 text).length ++
        " bytes (limit ".toList ++ Str.ofNat valueLenApi ++ ").".toList))
    else .ok (.ok (utf8 text))
  | .ssh => .error .panic

def inputSubmitKey (p : Panel) : Checked Panel :=
  match p.keyAddFlow with
  | none => .ok { p with mode := .normal }
  | some flow =>
    let text := Str.trim p.inputBuf
    match flow.stage with
    | .name =>
      if text = [] then .ok (p.setMsgPrompt "Name cannot be empty." .red)
      else if flow.cat = .ssh then
        .ok ({ p with inputBuf := [], keyAddFlow := none, mode := .normal }.actionKeyGenerate text)
      else do
        let p := { p with keyAddFlow := some { flow with name := some text }, inputBuf := [] }
        let hint ←
          match flow.cat with
          | .otp => .ok "Service / issuer — Enter alone to skip.".toList
          | .api => .ok "Paste the API key value.".toList
          | .ssh => .error .panic
        .ok (p.setMsgPrompt hint .yellow)
    | .service =>
      let p := { p with keyAddFlow := some { flow with service := some text }, inputBuf := [] }
      .ok (p.setMsgPrompt "Paste the TOTP secret (base32)." .yellow)
    | .secret =>
      if text = [] then .ok (p.setMsgPrompt "Secret cannot be empty." .red)
      else do
        let secret ← secretOf flow.cat text
        match secret with
        | .error msg => .ok (p.setMsgPrompt msg .red)
        | .ok secret =>
          ({ p with inputBuf := [], keyAddFlow := none, mode := .normal } : Panel).actionKeyAdd
            flow.cat (flow.name.getD []) (flow.service.getD []) secret

def actionKeyShowApi : Panel → Panel :=
  guardPaired <| unlessBusy fun p =>
    if p.keyTab ≠ .api then p.setMsg "Show value is only available on the API tab." .yellow
    else p.guardConnected fun p =>
      match p.currentKeyName with
      | none => p.setMsg "No API key selected." .yellow
      | some name =>
        p.begin (.showApi name) ("Fetching '".toList ++ name ++
          "' — touch sensor to authorize…".toList) .yellow

def actionKeyOtp : Panel → Panel :=
  guardPaired <| unlessBusy fun p =>
    if p.keyTab ≠ .otp then p.setMsg "OTP code is only available on the OTP tab." .yellow
    else p.guardConnected fun p =>
      match p.currentKeyName with
      | none => p.setMsg "No OTP key selected." .yellow
      | some name =>
        p.begin (.otp name) ("Fetching OTP for '".toList ++ name ++
          "' — touch sensor to authorize…".toList) .yellow

def enterKeyDeleteConfirm : Panel → Panel :=
  guardPaired <| unlessBusy <| guardConnected fun p =>
    match p.currentKeyIndex with
    | none => p.setMsg "No key selected." .yellow
    | some idx =>
      { p with pendingDelete := some (p.keyTab, idx), mode := .keyDeleteConfirm }.setMsg
        ("Delete ".toList ++ p.keyTab.label ++ " key [".toList ++ Str.ofNat idx.toNat ++
          "] '".toList ++ p.currentKeyName.getD "-" ++
          "'? [y] confirm  [n/Esc] cancel".toList) .yellow

def cancelKeyDelete (p : Panel) : Panel :=
  { p with pendingDelete := none, mode := .normal }.setMsg "Cancelled." .dim

def confirmKeyDelete (p : Panel) : Panel :=
  match p.pendingDelete with
  | none => { p with mode := .normal }
  | some (tab, idx) =>
    { p with pendingDelete := none, mode := .normal }.unlessBusy <|
      begin (.keyDelete tab idx) ("Deleting ".toList ++ tab.label ++ " key [".toList ++
        Str.ofNat idx.toNat ++ "] — touch sensor to authorize…".toList) .yellow

-- ---------------------------------------------------------------------------
-- Firmware
-- ---------------------------------------------------------------------------

def spawnFwSilentCheck (p : Panel) : Panel := { p with spawned := p.spawned ++ [Job.fwSilentCheck] }

def fwUpdating (p : Panel) : Bool :=
  match p.fwState with
  | .updating .. => true
  | _ => false

def fwRecheck (p : Panel) : Panel :=
  if p.fwUpdating || p.fwState = .checking then p
  else { p with fwState := .checking, fwPrepared := none, spawned := p.spawned ++ [Job.fwCheck] }

def fwEnter (o : Outside) (p : Panel) : Panel :=
  let p := p.setTab .firmware o
  match p.fwState with
  | .idle | .success _ | .failed _ => p.fwRecheck
  | _ => p

/-- Whether the panel is busy with something else is not asked. -/
def fwStartUpdate (p : Panel) : Panel :=
  if p.fwState ≠ .ready then p
  else
    match p.fwPrepared with
    | none => p
    | some prep =>
      { p with
        fwState := .updating "starting" 1 prep.hops.length
        busy := true
        spawned := p.spawned ++ [Job.fwUpdate prep] }

-- ---------------------------------------------------------------------------
-- What threads tell, and what is asked for
-- ---------------------------------------------------------------------------

def pushLog (line : Str) (p : Panel) : Panel :=
  { p with logLines := pushBack logBufferCap p.logLines line }

/-- One turn of the loop in `drain_actions`. -/
def receive (p : Panel) : Report → Panel
  | .message msg style => p.setMsg msg style
  | .secretMessage msg => { p with message := msg, messageStyle := .green }
  | .refresh => p
  | .enrollStarted => { p with enrollGate := false }
  | .enrollProgress current total => { p with enrollCurrent := current, enrollTotal := total }
  | .logLine line => p.pushLog line
  | .logEnded => if p.tab = .logs then p.pushLog "[log stream ended]" else p
  | .done => { p with busy := false, enrollActive := false, enrollGate := false }
  | .fwSilentCheck v => { p with fwUpdateAvailable := v }
  | .fwPrepared (.ok (some prep)) =>
    { p with
      fwUpdateAvailable := some prep.targetVersion, fwPrepared := some prep, fwState := .ready }
  | .fwPrepared (.ok none) => { p with fwUpdateAvailable := none, fwState := .upToDate }
  | .fwPrepared (.error e) => { p with fwState := .failed e }
  | .fwProgress stage hop hops => { p with fwState := .updating stage hop hops }
  | .fwFinished (.ok v) =>
    { p with busy := false, fwState := .success v, fwUpdateAvailable := none }
  | .fwFinished (.error e) => { p with busy := false, fwState := .failed e }

def drainActions (reports : List Report) (p : Panel) : Panel := reports.foldl receive p

def onSettings (rsp : Str) (p : Panel) : Panel :=
  match rsp.splitOn ':' with
  | kind :: parts =>
    if kind = "OK".toList then
      parts.foldl (fun p part =>
        match Str.splitOnce '=' part with
        | some (k, v) =>
          let on := v == "1".toList
          if k = "sudo".toList then { p with unlockSudo := on }
          else if k = "polkit".toList then { p with unlockPolkit := on }
          else if k = "screen".toList then { p with unlockScreen := on }
          else if k = "lock".toList then { p with lockScreen := on }
          else if k = "ssh".toList then { p with sshTakeover := on }
          else p
        | none => p) p
    else p
  | [] => p

/-- `refresh`; the reports are those that have come by then. -/
def refresh (reports : List Report) (o : Outside) (p : Panel) : Panel :=
  let p := p.drainActions reports
  match o.status with
  | none => { p with daemonOk := false, connected := false }
  | some rsp =>
    let app := ((p.onStatus rsp).onPairStatus o.pairStatus).onFpList o.fpList
    let app := app.pollSlots o.slotStatus
    let p := { p with toApp := app }
    let p := o.settings.elim p fun rsp => p.onSettings rsp
    let p := { p with
      pamSudo := PamHelper.pamLinePresentIn (o.pamDir "sudo")
      pamPolkit := PamHelper.pamLinePresentIn (o.pamDir "polkit-1")
      pamScreen := PamHelper.pamLinePresentIn (o.pamDir "gdm-password") }
    { (p.refreshKeys o) with isolated := o.isolated }

end Panel

-- ---------------------------------------------------------------------------
-- Keys of the keyboard
-- ---------------------------------------------------------------------------

inductive KeyCode
  | char (c : Char)
  | esc
  | enter
  | backspace
  | tab
  | backTab
  | left
  | right
  | up
  | down
  | pageUp
  | pageDown
  | home
  | last
  | other
  deriving DecidableEq

structure Key where
  code : KeyCode
  control : Bool
  deriving DecidableEq

/-- What a key leads to: the end of the loop, its next turn at once, or the rest of this
one, with a request for the helper. -/
inductive Outcome
  | quit
  | again (p : Panel)
  | on (p : Panel) (req : Option PamRequest)

namespace Panel

def toOutcome (p : Checked Panel) : Checked Outcome := p.map (.on · none)

def pleaseWait : Str := "Firmware update in progress — please wait."

def dashboardKey (code : KeyCode) (o : Outside) (p : Panel) : Checked Panel :=
  match code with
  | .char 'p' => p.actionPair
  | .char 'u' => p.requestUnpairSelf
  | .char 'e' | .char 'E' => .ok p.autoEnroll
  | .char 'd' => .ok p.enterDeleteSelect
  | .char 'v' => .ok p.actionVerify
  | .char 's' => .ok p.actionToggleSudo
  | .char 'o' => .ok p.actionTogglePolkit
  | .char 'k' => .ok p.actionToggleScreen
  | .char 'L' => .ok p.actionToggleLock
  | .char 'h' => .ok p.actionToggleSsh
  | .char 'i' => .ok (p.actionInfo o)
  | .char 'H' => .ok p.enterHostMenu
  | .char 'U' => .ok (p.fwEnter o)
  | .esc => .ok (if p.enrollActive then p.actionEnrollCancel else p)
  | _ => .ok p

def keysKey (code : KeyCode) (o : Outside) (p : Panel) : Panel :=
  match code with
  | .esc => p.setTab .dashboard o
  | .tab | .right | .char 'l' => p.keysNextTab
  | .backTab | .left | .char 'h' => p.keysSetTab p.keyTab.prev
  | .char 'S' => p.keysSetTab .ssh
  | .char 'O' => p.keysSetTab .otp
  | .char 'A' => p.keysSetTab .api
  | .up | .char 'k' => p.keysCursorUp
  | .down | .char 'j' => p.keysCursorDown
  | .char 'r' => (p.refreshKeys o).setMsgDim "Key cache reloaded."
  | .char 'a' | .char 'g' => p.enterKeyAdd
  | .char 'd' => p.enterKeyDeleteConfirm
  | .char 'o' => p.actionKeyOtp
  | .char 'c' => p.actionKeyShowPubkey
  | .char 's' => p.actionKeyShowApi
  | _ => p

def pamKey (code : KeyCode) (o : Outside) (p : Panel) : Panel × Option PamRequest :=
  let unpaired := p.setMsg "Pair the device first (press p)." .yellow
  match code with
  | .esc => (p.setTab .dashboard o, none)
  | .up | .char 'k' => (p.pamCursorUp, none)
  | .down | .char 'j' => (p.pamCursorDown, none)
  | .char 'i' => if p.paired then (p, p.requestPamAction true) else (unpaired, none)
  | .char 'r' => if p.paired then (p, p.requestPamAction false) else (unpaired, none)
  | .char 'R' =>
    if p.paired then
      match p.requestPamRepair o with
      | some req => (p, some req)
      | none => (p.setMsg "PAM already configured — nothing to repair." .green, none)
    else (unpaired, none)
  | _ => (p, none)

def logsKey (code : KeyCode) (o : Outside) (p : Panel) : Panel :=
  match code with
  | .esc => p.setTab .dashboard o
  | .up | .char 'k' => p.logScrollUp
  | .down | .char 'j' => p.logScrollDown
  | .pageUp => p.logPageUp
  | .pageDown => p.logPageDown
  | .home => p.logJumpTop
  | .last => p.logJumpBottom
  | _ => p

def firmwareKey (code : KeyCode) (o : Outside) (p : Panel) : Panel :=
  match code with
  | .esc => if !p.fwUpdating then p.setTab .dashboard o else p
  | .char 'r' => p.fwRecheck
  | .enter => p.fwStartUpdate
  | _ => p

def normalKey (code : KeyCode) (o : Outside) (p : Panel) : Checked Outcome :=
  match code with
  | .char 'q' => if p.fwUpdating then .ok (.on (p.setMsg pleaseWait .yellow) none) else .ok .quit
  | .char '?' => .ok (.on p.toggleHelp none)
  | .char '1' => .ok (.on (p.setTab .dashboard o) none)
  | .char '2' => .ok (.on (p.setTab .keys o) none)
  | .char '3' => .ok (.on (p.setTab .pam o) none)
  | .char '4' => .ok (.on (p.setTab .logs o) none)
  | .char '5' => .ok (.on (p.fwEnter o) none)
  | code =>
    match p.tab with
    | .dashboard => toOutcome (p.dashboardKey code o)
    | .keys => .ok (.on (p.keysKey code o) none)
    | .pam => .ok (.on (p.pamKey code o).1 (p.pamKey code o).2)
    | .logs => .ok (.on (p.logsKey code o) none)
    | .firmware => .ok (.on (p.firmwareKey code o) none)

def helpKey (code : KeyCode) (p : Panel) : Panel :=
  match code with
  | .esc | .char '?' | .char 'q' => p.toggleHelp
  | _ => p

def deleteSelectKey (code : KeyCode) (p : Panel) : Panel :=
  match code with
  | .esc => p.cancelSelect
  | .char c =>
    if '0' ≤ c ∧ c ≤ '9' then
      let slot := UInt8.ofNat (c.toNat - '0'.toNat)
      if slot ≤ switchFingerSlot then p.actionDelete slot else p
    else p
  | _ => p

def enrollKindKey (code : KeyCode) (p : Panel) : Panel :=
  match code with
  | .esc => p.cancelEnrollKind
  | .char c => p.enrollKindPick c
  | _ => p

def keyInputKey (code : KeyCode) (p : Panel) : Checked Panel :=
  match code with
  | .esc => .ok p.inputCancel
  | .enter => p.inputSubmitKey
  | .backspace => .ok p.inputPopChar
  | .char c => .ok (p.inputPushChar c)
  | _ => .ok p

def keyDeleteKey (code : KeyCode) (p : Panel) : Panel :=
  match code with
  | .char 'y' | .char 'Y' | .enter => p.confirmKeyDelete
  | .esc | .char 'n' | .char 'N' => p.cancelKeyDelete
  | _ => p

def hostMenuKey (code : KeyCode) (p : Panel) : Panel :=
  match code with
  | .esc => p.cancelHostAction
  | .char c => p.hostMenuPick c
  | _ => p

/-- Not with `enter`. -/
def hostConfirmKey (code : KeyCode) (p : Panel) : Panel :=
  match code with
  | .char 'y' | .char 'Y' => p.confirmHostAction
  | .esc | .char 'n' | .char 'N' => p.cancelHostAction
  | _ => p

def handleKey (key : Key) (o : Outside) (p : Panel) : Checked Outcome :=
  if key.control ∧ key.code = .char 'c' then
    if p.fwUpdating then .ok (.again (p.setMsg pleaseWait .yellow)) else .ok .quit
  else
    match p.mode with
    | .normal => p.normalKey key.code o
    | .help => .ok (.on (p.helpKey key.code) none)
    | .deleteSelect => .ok (.on (p.deleteSelectKey key.code) none)
    | .enrollKindSelect => .ok (.on (p.enrollKindKey key.code) none)
    | .keyInput => toOutcome (p.keyInputKey key.code)
    | .keyDeleteConfirm => .ok (.on (p.keyDeleteKey key.code) none)
    | .hostMenu => .ok (.on (p.hostMenuKey key.code) none)
    | .hostConfirm => .ok (.on (p.hostConfirmKey key.code) none)

end Panel

end Immurok.Tui
