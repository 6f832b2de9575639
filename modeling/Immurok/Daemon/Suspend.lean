import Immurok.Async.History
import Immurok.Daemon.Coordinator

/-!
# Sleep and reconnection

While no device is connected a driver calls `Device.Connect()` of bluetoothd
now and then, and a monitor of the sleep signals tells it not to and cancels
what is pending. The two share a flag and bluetoothd's devices. Task 0 is the
BLE worker, task 1 the monitor.
-/

namespace Immurok.Suspend

open Async

-- ---------------------------------------------------------------------------
-- State
-- ---------------------------------------------------------------------------

abbrev Address := Nat

/-- The link to a device; while it is `pending` bluetoothd tries to connect. -/
inductive Link
  | idle
  | pending
  | connected (servicesResolved : Bool)
  deriving DecidableEq

def Link.isConnected : Link → Bool
  | .connected _ => true
  | _ => false

/-- What bluetoothd knows of a device. -/
structure Device where
  paired : Bool
  name : Option Str
  link : Link
  deriving DecidableEq

inductive Ev
  /-- the driver found the flag not set -/
  | awake
  /-- `Connect()` called on a device, and whether bluetoothd took it up -/
  | connectCalled (a : Address) (begun : Bool)
  /-- the driver is through with an attempt, or dropped -/
  | attemptOver
  /-- the monitor wrote the flag -/
  | flagSet (b : Bool)
  /-- a call of task `i` was not answered, or not in time -/
  | unanswered (i : TaskId)
  /-- bluetoothd carried out a `Disconnect()` of task `i` -/
  | cancelled (i : TaskId) (a : Address)
  /-- the monitor goes on after its cancellations -/
  | passOver
  /-- a `Connect()` of the device has come to an end -/
  | settled (a : Address)
  /-- the device is now there, paired and of the right name, or is not -/
  | listed (a : Address) (ours : Bool)
  /-- bluetoothd has dropped the device -/
  | forgotten (a : Address)

/-- What the history says besides the state. -/
structure Aux where
  /-- the driver has found the flag not set and not yet called `Connect()` -/
  checking : Bool
  /-- pending when the monitor last set the flag, and ever since -/
  held : Address → Bool
  /-- of ours then, and ever since -/
  steady : Address → Bool
  /-- a call of the monitor has gone unanswered since -/
  unanswered : Bool

structure State where
  isSuspending : Bool
  /-- the permit of `resume_notify` -/
  resumeNotify : Bool
  /-- the sleep signals not yet read; `none` is a message of another shape -/
  signals : List (Option Bool)
  addresses : List Address
  device : Address → Device
  now : Nat
  log : List Ev
  aux : Aux

structure View where
  isSuspending : Bool
  pending : Address → Bool
  ours : Address → Bool
  aux : Aux

def deviceNamePrefix : Str := "immurok".toList

variable (ext : Extern)

def nameMatch (name : Option Str) : Bool :=
  name.any fun n => deviceNamePrefix.isPrefixOf (ext.toLowercase n)

/-- The device is there, paired and of the right name. -/
def State.ours (s : State) (a : Address) : Bool :=
  s.addresses.contains a && (s.device a).paired && nameMatch ext (s.device a).name

def State.pending (s : State) (a : Address) : Bool := (s.device a).link == .pending

def State.view (s : State) : View where
  isSuspending := s.isSuspending
  pending := s.pending
  ours := s.ours ext
  aux := s.aux

/-- What an event does to the view. -/
def View.step (v : View) : Ev → View
  | .awake => { v with aux := { v.aux with checking := true } }
  | .connectCalled a begun =>
    { v with
      pending := Function.update v.pending a (v.pending a || begun)
      aux := { v.aux with checking := false } }
  | .attemptOver => { v with aux := { v.aux with checking := false } }
  | .flagSet true =>
    { v with
      isSuspending := true
      aux := { v.aux with held := v.pending, steady := v.ours, unanswered := false } }
  | .flagSet false => { v with isSuspending := false }
  | .unanswered i => { v with aux := { v.aux with unanswered := v.aux.unanswered || i == 1 } }
  | .cancelled _ a | .settled a =>
    { v with
      pending := Function.update v.pending a false
      aux := { v.aux with held := Function.update v.aux.held a false } }
  | .passOver => v
  | .listed a ours =>
    { v with
      ours := Function.update v.ours a ours
      aux := { v.aux with steady := Function.update v.aux.steady a (v.aux.steady a && ours) } }
  | .forgotten a =>
    { v with
      pending := Function.update v.pending a false
      ours := Function.update v.ours a false
      aux := { v.aux with
        held := Function.update v.aux.held a false
        steady := Function.update v.aux.steady a false } }

/-- The event goes into the history. -/
def State.note (e : Ev) (s : State) : State :=
  { s with log := e :: s.log, aux := ((s.view ext).step e).aux }

def State.setLink (s : State) (a : Address) (link : Link) : State :=
  { s with device := Function.update s.device a { s.device a with link } }

-- ---------------------------------------------------------------------------
-- Calls
-- ---------------------------------------------------------------------------

/-- Code that a `select` or a `timeout` around it may drop where it waits. -/
abbrev Await := OptionT (Proc State)

/-- A task in such code, and the states it may be left in when it is dropped. -/
structure Caller where
  task : TaskId
  drop : State → List State

/-- The driver is dropped once an event shows the device connected, or no
events can be had. -/
def driver : Caller := ⟨0, fun s => [s.note ext .attemptOver]⟩

/-- The worker before that race. -/
def worker : Caller := ⟨0, fun _ => []⟩

/-- The monitor waits until the time `t`. -/
def monitorUntil (t : Nat) : Caller :=
  ⟨1, fun s => if t ≤ s.now then [s.note ext (.unanswered 1)] else []⟩

variable (c : Caller)

/-- Waits for one of the outcomes of `f`. -/
def Caller.await (f : State → List (α × State)) : Await α :=
  .mk (.act (fun s => (f s).map (fun p => (some p.1, p.2)) ++ (c.drop s).map (none, ·)) .ret)

/-- A question to bluetoothd, with what the code goes on with if it fails. -/
def Caller.ask (default : α) (f : State → α) : Await α :=
  c.await fun s => [(f s, s), (default, s.note ext (.unanswered c.task))]

def clock : Await Nat := liftM (Proc.get (·.now) : Proc State Nat)

def Caller.sleep (d : Nat) : Await Unit := do
  let now ← clock
  c.await fun s => if now + d ≤ s.now then [((), s)] else []

/-- The session, the adapter and its devices. -/
def Caller.deviceAddresses : Await (Option (List Address)) := do
  let session ← c.ask ext false fun _ => true
  if !session then pure none
  else
    let adapter ← c.ask ext false fun _ => true
    if !adapter then pure none
    else c.ask ext none fun s => some s.addresses

/-- Asked after a yes only. -/
def onlyIf (b : Bool) (default : α) (t : Await α) : Await α := if b then t else pure default

def Caller.isConnected (a : Address) : Await Bool :=
  c.ask ext false fun s => (s.device a).link.isConnected

def Caller.isServicesResolved (a : Address) : Await Bool :=
  c.ask ext false fun s => (s.device a).link == .connected true

/-- Paired and of the right name. -/
def Caller.isOurs (a : Address) : Await Bool := do
  let paired ← c.ask ext false fun s => (s.device a).paired
  if !paired then pure false
  else
    let name ← c.ask ext none fun s => (s.device a).name
    pure (nameMatch ext name)

/-- `Disconnect()`, which also aborts a `Connect()`, unless the device is
connected. The call may fail, or not be answered within two seconds. -/
def Caller.cancelConnectOn (a : Address) : Await Unit := do
  let connected ← c.isConnected ext a
  if connected then pure ()
  else
    c.await fun s =>
      [((), (s.setLink a .idle).note ext (.cancelled c.task a)),
        ((), s.note ext (.unanswered c.task))]

/-- The branch for each device found. -/
def Caller.cancelAll : List Address → Await Unit
  | [] => pure ()
  | a :: rest => do
    let ours ← c.isOurs ext a
    if ours then c.cancelConnectOn ext a
    cancelAll rest

def Caller.cancelPendingConnect : Await Unit := do
  match ← c.deviceAddresses ext with
  | none => pure ()
  | some addresses => c.cancelAll ext addresses

/-- Any device of the right name connected, with its services. -/
def Caller.anyConnected : List Address → Await Bool
  | [] => pure false
  | a :: rest => do
    let connected ← c.isConnected ext a
    let resolved ← onlyIf connected false (c.isServicesResolved ext a)
    let name ← onlyIf resolved none (c.ask ext none fun s => (s.device a).name)
    if nameMatch ext name then pure true else anyConnected rest

def Caller.checkImmurokConnected : Await Bool := do
  match ← c.deviceAddresses ext with
  | none => pure false
  | some addresses => c.anyConnected ext addresses

-- ---------------------------------------------------------------------------
-- The driver
-- ---------------------------------------------------------------------------

inductive ConnectResult
  | ok
  | failed
  | timeout

/-- `Connect()` goes out; `false` when bluetoothd is busy or does not take it. -/
def callConnect (a : Address) : Await Bool :=
  liftM (Proc.act (fun s =>
    let begun := (s.device a).link == .idle && s.addresses.contains a
    [(begun, (if begun then s.setLink a .pending else s).note ext (.connectCalled a begun)),
      (false, s.note ext (.connectCalled a false))]) .ret : Proc State Bool)

/-- Its answer, for twelve seconds. -/
def Caller.connect (a : Address) : Await ConnectResult := do
  let now ← clock
  let begun ← callConnect ext a
  c.await fun s =>
    (if (s.device a).link.isConnected then [(.ok, s)] else []) ++
      (if !begun || (s.device a).link != .pending then [(.failed, s)] else []) ++
      if now + secs 12 ≤ s.now then [(.timeout, s)] else []

/-- Up to five seconds for the services, in `n` rounds. -/
def Caller.waitResolved (a : Address) : Nat → Await Bool
  | 0 => c.isConnected ext a
  | n + 1 => do
    let resolved ← c.isServicesResolved ext a
    if resolved then pure true
    else
      c.sleep 100
      waitResolved a n

def Caller.connectFirst : List Address → Await Bool
  | [] => pure false
  | a :: rest => do
    let ours ← c.isOurs ext a
    if !ours then connectFirst rest
    else
      let connected ← c.isConnected ext a
      let resolved ← onlyIf connected false (c.isServicesResolved ext a)
      if resolved then pure true
      else
        -- the name, for the message
        let _ ← c.ask ext none fun s => (s.device a).name
        match ← c.connect ext a with
        | .ok => c.waitResolved ext a 50
        | .failed | .timeout =>
          c.cancelConnectOn ext a
          pure false

def Caller.tryActiveConnect : Await Bool := do
  match ← c.deviceAddresses ext with
  | none => pure false
  | some addresses => c.connectFirst ext addresses

/-- A loop that may be dropped. -/
def repeatFrom (i : ι) (body : ι → Await (ι ⊕ α)) : Await α :=
  .mk <| Proc.repeatFrom i fun i => do
    match ← (body i).run with
    | none => pure (.inr none)
    | some (.inl j) => pure (.inl j)
    | some (.inr a) => pure (.inr (some a))

/-- The pauses between attempts: the next one while no device is near, and how
many short ones are left after a resume. -/
structure Cadence where
  idle : Nat
  burstLeft : Nat

def Cadence.start : Cadence := ⟨bleActiveReconnectInterval, 0⟩

def Cadence.resumed : Cadence := ⟨bleActiveReconnectInterval, bleResumeBurstAttempts⟩

/-- The pause after a failed attempt, and the cadence from there. -/
def Cadence.next (k : Cadence) : Nat × Cadence :=
  if 0 < k.burstLeft then (bleResumeBurstInterval, { k with burstLeft := k.burstLeft - 1 })
  else (k.idle, { k with idle := min (k.idle * 2) bleActiveReconnectMax })

/-- `notified()`: takes the permit. -/
def notifiedBranch (b : β) (s : State) : List (β × State) :=
  if s.resumeNotify then [(b, { s with resumeNotify := false })] else []

/-- `is_suspending` read by the driver. -/
def loadSuspending : Await Bool :=
  liftM (Proc.atomically fun s =>
    (s.isSuspending, if s.isSuspending then s else s.note ext .awake) : Proc State Bool)

/-- No attempt while the system is going to sleep. -/
def Caller.waitAwake (k : Cadence) : Await Cadence :=
  repeatFrom k fun k => do
    let suspending ← loadSuspending ext
    if !suspending then pure (.inr k)
    else
      c.await (notifiedBranch ())
      pure (.inl .resumed)

/-- The attempt has come to nothing. -/
def attemptOver : Await Nat :=
  liftM (Proc.atomically fun s => (s.now, s.note ext .attemptOver) : Proc State Nat)

/-- One attempt and the pause after it. -/
def Caller.attempt (k : Cadence) : Await (Cadence ⊕ Unit) := do
  let k ← c.waitAwake ext k
  let connected ← c.checkImmurokConnected ext
  if connected then pure (.inr ())
  else
    let connected ← c.tryActiveConnect ext
    if connected then pure (.inr ())
    else
      let now ← attemptOver ext
      c.await fun s =>
        (if now + k.next.1 ≤ s.now then [(.inl k.next.2, s)] else []) ++
          notifiedBranch (.inl .resumed) s

def Caller.connectDriver : Await Unit := repeatFrom .start (c.attempt ext)

/-- The events race the driver. -/
def waitForDeviceConnected : Proc State Unit := do
  let connected ← (worker.checkImmurokConnected ext).run
  if connected == some true then pure ()
  else
    let _ ← ((driver ext).connectDriver ext).run
    pure ()

/-- A session of any length and the pause after it. -/
def connectAndServe : Proc State Unit := Proc.modify (·.note ext .attemptOver)

def run : Proc State Unit :=
  Proc.loop do
    connectAndServe ext
    waitForDeviceConnected ext
    pure none

-- ---------------------------------------------------------------------------
-- The monitor
-- ---------------------------------------------------------------------------

def storeSuspending (b : Bool) : Proc State Unit :=
  Proc.modify fun s => State.note ext (.flagSet b) { s with isSuspending := b }

def notifyOne : Proc State Unit := Proc.modify fun s => { s with resumeNotify := true }

/-- The next message; `none` when the stream ends. -/
def nextMessage : Proc State (Option (Option Bool)) :=
  .act (fun s => (none, s) ::
    match s.signals with
    | [] => []
    | m :: rest => [(some m, { s with signals := rest })]) .ret

def handleSignal (goingToSleep : Bool) : Proc State Unit := do
  storeSuspending ext goingToSleep
  if goingToSleep then
    let now ← Proc.get (·.now)
    let _ ← ((monitorUntil ext (now + secs 3)).cancelPendingConnect ext).run
    Proc.modify (·.note ext .passOver)
  else notifyOne

def monitorInner : Proc State Unit := do
  -- the connection and the match rule; signals from before are not seen
  let ok ← Proc.choose [true, false]
  Proc.modify fun s => { s with signals := [] }
  Proc.when ok <| Proc.loop do
    match ← nextMessage with
    | none => pure (some ())
    | some none => pure none
    | some (some goingToSleep) =>
      handleSignal ext goingToSleep
      pure none

def monitor : Proc State Unit :=
  Proc.loop do
    monitorInner ext
    let now ← Proc.get (·.now)
    Proc.await fun s => if now + secs 5 ≤ s.now then some ((), s) else none
    pure none

-- ---------------------------------------------------------------------------
-- The outside world
-- ---------------------------------------------------------------------------

inductive Env
  | tick (d : Nat)
  | message (m : Option Bool)
  /-- a link comes up, whoever asked for it -/
  | established (a : Address)
  | resolved (a : Address)
  /-- a link breaks, or an attempt ends without one -/
  | dropped (a : Address)
  /-- a device is there, paired or not, under a name -/
  | list (a : Address) (paired : Bool) (name : Option Str)
  | forget (a : Address)

def State.list (s : State) (a : Address) (paired : Bool) (name : Option Str) : State :=
  { s with
    addresses := if s.addresses.contains a then s.addresses else a :: s.addresses
    device := Function.update s.device a { s.device a with paired, name } }

def State.forget (s : State) (a : Address) : State :=
  { s.setLink a .idle with addresses := s.addresses.filter (· != a) }

def envStep : Env → State → Option State
  | .tick d, s => some { s with now := s.now + d }
  | .message m, s => some { s with signals := s.signals ++ [m] }
  | .established a, s => some ((s.setLink a (.connected false)).note ext (.settled a))
  | .resolved a, s =>
    if (s.device a).link.isConnected then some (s.setLink a (.connected true)) else none
  | .dropped a, s => some ((s.setLink a .idle).note ext (.settled a))
  | .list a paired name, s =>
    some ((s.list a paired name).note ext (.listed a (paired && nameMatch ext name)))
  | .forget a, s => some ((s.forget a).note ext (.forgotten a))

-- ---------------------------------------------------------------------------
-- The system
-- ---------------------------------------------------------------------------

def system : System State Env Empty where
  env := envStep ext
  serve _ r := r.elim

def State.start : State where
  isSuspending := false
  resumeNotify := false
  signals := []
  addresses := []
  device := fun _ => ⟨false, none, .idle⟩
  now := 0
  log := []
  aux := ⟨false, fun _ => false, fun _ => false, false⟩

/-- The BLE worker and the monitor, and no device known. -/
def start : Config State where
  shared := .start
  pool
    | 0 => some (run ext)
    | 1 => some (monitor ext)
    | _ => none

-- ---------------------------------------------------------------------------
-- The machine
-- ---------------------------------------------------------------------------

def actor : Ev → Option TaskId
  | .awake | .connectCalled _ _ | .attemptOver => some 0
  | .flagSet _ | .passOver => some 1
  | .unanswered i | .cancelled i _ => some i
  | .settled _ | .listed _ _ | .forgotten _ => none

/-- What the code sees to: the flag is read before a `Connect()`, and a pass
whose calls are all answered leaves nothing that could be cancelled. -/
def allowed (v : View) : Ev → Prop
  | .awake => v.isSuspending = false
  | .connectCalled _ _ => v.aux.checking = true
  | .passOver =>
    v.aux.unanswered = true ∨ ∀ a, v.aux.held a = true → v.aux.steady a = false
  | _ => True

def machine : Machine View Ev where
  init := State.start.view ext
  step := View.step
  actor
  allowed

def observed : Observed State View Ev where
  view := State.view ext
  log := (·.log)

end Immurok.Suspend
