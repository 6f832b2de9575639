import Immurok.Daemon.System
import Immurok.Async.Part

/-!
# What the daemon shows

The part of the daemon's state that its safety depends on, and the events that
may happen in it. `View.allowed` says what is true whenever the code makes an
event, `View.step` what the event does; the rest of the state changes behind
the view's back. That the code keeps to both is `Daemon.serves`.
-/

namespace Immurok

open Async

structure View where
  pendingPam : Option TaskId
  pending : TaskId → Oneshot Bool
  queue : List Job
  replies : ReplyId → Oneshot Reply
  nextReply : ReplyId
  cancels : Cancels
  preAuth : Option PreAuth
  screenLocked : Bool
  key : Option Bytes
  owner : Option Nat
  settings : Settings
  connected : Bool
  verified : Bool
  now : Nat
  inbox : List Frame
  /-- What the worker's receivers see. -/
  response : Option (Option Bytes)
  gate : Option (Option GateResult)
  auth : Option (Option Bool)
  aux : Aux
  past : List Ev

def Daemon.view (s : Daemon) : View :=
  { pendingPam := s.coord.pendingPam
    pending := s.pending
    queue := s.queue
    replies := s.replies
    nextReply := s.nextReply
    cancels := s.coord.cancels
    preAuth := s.coord.preAuth
    screenLocked := s.coord.screenLocked
    key := s.coord.pairing.map PairingData.sharedKey
    owner := readOwner s.files.owner
    settings := s.coord.settings
    connected := s.coord.isConnected
    verified := s.coord.isDeviceVerified
    now := s.now
    inbox := s.link.notifyRx
    response := s.ble.response.shown
    gate := s.ble.gate.shown
    auth := s.ble.auth.shown
    aux := s.aux
    past := s.log }

def observed : Observed Daemon View Ev := { view := Daemon.view, log := Daemon.log }

namespace View

abbrev worker (v : View) : WorkerAux := v.aux.worker

abbrev client (v : View) (i : TaskId) : ClientAux := v.aux.client i

-- ---------------------------------------------------------------------------
-- What events do
-- ---------------------------------------------------------------------------

/-- A receiver that is there, with nothing in it, or is gone. -/
def receiver (there : Bool) : Option (Option α) := if there then some none else none

/-- The receiver of a wait for a touch. -/
@[simp] def setTouch (w : Touch) (there : Bool) (v : View) : View :=
  { v with
    gate := if w = .gate then receiver there else v.gate
    auth := if w = .auth then receiver there else v.auth }

@[simp] def setCancels (w : Touch) (f : Notify Cancel → Notify Cancel) (v : View) : View :=
  { v with cancels := v.cancels.set w (f (v.cancels.get w)) }

/-- A frame taken from the wait for a touch ends the wait's `notified()`. -/
def unparked (v : View) : Cancels :=
  match v.worker.phase with
  | .touch w _ _ => v.cancels.set w (v.cancels.get w).unpark
  | _ => v.cancels

def deliver (f : Frame) (v : View) : Delivery → View
  | .response => { v with response := some (some f.data) }
  | .gate r => { v with gate := some (some r) }
  | .auth b => { v with auth := some (some b) }

@[simp] def resolve (b : Bool) (v : View) : View :=
  { v with pendingPam := none, pending := resolveEntry v.pendingPam v.pending b }

def act (ext : Extern) (v : View) : Ev → View
  | .registered i _ =>
    { v with pendingPam := some i, pending := Function.update v.pending i .new }
  | .queued _ r cmd =>
    { v with
      queue := v.queue ++ [⟨r, cmd⟩]
      replies := Function.update v.replies r .new
      nextReply := r + 1 }
  | .replyDropped _ r => { v with replies := Function.update v.replies r (v.replies r).dropRx }
  | .pendingDropped i => { v with pending := Function.update v.pending i (v.pending i).dropRx }
  | .cancelSent _ w tag => v.setCancels w (·.notifyOne tag)
  | .denied _ _ => v.resolve false
  | .windowArmed _ _ now duration services =>
    { v with
      preAuth := some { deadline := now + duration, services := services.map ext.toLowercase } }
  | .pairingSet _ key => { v with key }
  | .ownerSet _ owner => { v with owner }
  | .settingsSet _ settings => { v with settings }
  | .verifiedSet _ verified => { v with verified }
  | .connectedSet => { v with connected := true }
  | .sessionStarted => { v with inbox := [] }
  | .sessionEnded => { v with connected := false }
  | .dequeued _ => { v with queue := v.queue.tail }
  | .responseArmed _ | .pairingArmed _ => { v with response := some none }
  | .routed _ => { v with cancels := v.unparked, inbox := v.inbox.tail }
  | .delivered d _ f => v.deliver f d
  | .responseLeft => { v with response := none }
  | .touchArmed w _ _ => v.setTouch w true
  | .touchParked w => v.setCancels w .park
  | .touchCancelled w _ _ =>
    (v.setCancels w fun n => (n.notified.map Prod.snd).getD n).setTouch w false
  | .touchLeft w _ => (v.setCancels w .unpark).setTouch w false
  | .approved _ _ _ => v.resolve true
  | .windowCleared => { v with preAuth := none }
  | .replied r reply =>
    { v with replies := Function.update v.replies r ((v.replies r).send reply) }
  | .arrived f => { v with inbox := v.inbox ++ [f] }
  | .screen b => { v with screenLocked := b }
  | .ticked d => { v with now := v.now + d }
  | _ => v

def step (ext : Extern) (v : View) (e : Ev) : View :=
  { v.act ext e with aux := v.aux.step e, past := e :: v.past }

section
variable {ext : Extern} {v : View} {e : Ev}

@[simp] theorem step_pendingPam : (v.step ext e).pendingPam = (v.act ext e).pendingPam := rfl
@[simp] theorem step_pending : (v.step ext e).pending = (v.act ext e).pending := rfl
@[simp] theorem step_queue : (v.step ext e).queue = (v.act ext e).queue := rfl
@[simp] theorem step_replies : (v.step ext e).replies = (v.act ext e).replies := rfl
@[simp] theorem step_nextReply : (v.step ext e).nextReply = (v.act ext e).nextReply := rfl
@[simp] theorem step_cancels : (v.step ext e).cancels = (v.act ext e).cancels := rfl
@[simp] theorem step_preAuth : (v.step ext e).preAuth = (v.act ext e).preAuth := rfl
@[simp] theorem step_screenLocked : (v.step ext e).screenLocked = (v.act ext e).screenLocked := rfl
@[simp] theorem step_key : (v.step ext e).key = (v.act ext e).key := rfl
@[simp] theorem step_owner : (v.step ext e).owner = (v.act ext e).owner := rfl
@[simp] theorem step_settings : (v.step ext e).settings = (v.act ext e).settings := rfl
@[simp] theorem step_connected : (v.step ext e).connected = (v.act ext e).connected := rfl
@[simp] theorem step_verified : (v.step ext e).verified = (v.act ext e).verified := rfl
@[simp] theorem step_now : (v.step ext e).now = (v.act ext e).now := rfl
@[simp] theorem step_inbox : (v.step ext e).inbox = (v.act ext e).inbox := rfl
@[simp] theorem step_response : (v.step ext e).response = (v.act ext e).response := rfl
@[simp] theorem step_gate : (v.step ext e).gate = (v.act ext e).gate := rfl
@[simp] theorem step_auth : (v.step ext e).auth = (v.act ext e).auth := rfl
@[simp] theorem step_past : (v.step ext e).past = e :: v.past := rfl

end

-- ---------------------------------------------------------------------------
-- When events happen
-- ---------------------------------------------------------------------------

/-- The receiver that a delivery goes to is there. -/
def accepts (v : View) : Delivery → Prop
  | .response => v.response.isSome
  | .gate _ => v.gate.isSome
  | .auth _ => v.auth.isSome

end View

/-- A wait resolved with true was resolved by a frame that says so. -/
def Delivery.Honest (f : Frame) : Delivery → Prop
  | .auth true => f.data.head? = some rspOk
  | _ => True

/-- The command that ends in a wait for this touch. -/
def BleCommand.waitsFor : BleCommand → Option Touch
  | .sendFpGated _ _ => some .gate
  | .authRequest => some .auth
  | _ => none

/-- A signed match by its first byte and length. -/
def Frame.isMatch (f : Frame) : Bool :=
  f.data.head? == some notifyFpMatchSigned && f.data.length == 11

namespace WorkerAux

/-- The command written for the job in hand was answered by `f`. -/
def AnsweredBy (w : WorkerAux) (data : Bytes) (f : Frame) : Prop :=
  ∃ c, w.answer = some (c, f) ∧ w.lastWrote = some (c, data, w.job)

/-- The `AUTH_REQUEST` of the job in hand was answered with OK. -/
def Touched (w : WorkerAux) : Prop :=
  ∃ f, w.AnsweredBy (packet cmdAuthRequest []) f ∧ f.data.head? = some rspOk

/-- A gated job's frame is not written twice. -/
def Writable (w : WorkerAux) : Prop :=
  ∀ j, w.job = some j → j.cmd.gated = true → w.written = false

end WorkerAux

/-- The user is the owner, where one is on record. -/
def ClientAux.Owned (ext : Extern) (user : Str) (c : ClientAux) : Prop :=
  ∃ owner, c.owner = some owner ∧ ∀ uid, owner = some uid → ext.uidOfUser user = some uid

/-- The settings read allow the service. -/
def ClientAux.Enabled (ext : Extern) (service : Str) (c : ClientAux) : Prop :=
  ∃ settings, c.settings = some settings ∧ isServiceAllowed ext settings service = true

/-- What an OK to `AUTH:user:service` takes. -/
structure ClientAux.Justified (ext : Extern) (user service : Str) (c : ClientAux) : Prop where
  owned : c.Owned ext user
  enabled : c.Enabled ext service
  touch : (∃ t, c.window = some (service, t, true)) ∨
    c.connected = true ∧ c.verified = true ∧ c.entry = some .auth ∧
      (c.touched = true ∨ c.granted = true)

/-- Why task `a` may arm a window, for how long and for which services. -/
def View.Grounds (v : View) (a : TaskId) (duration : Nat) (services : List Str) : Arming → Prop
  | .matched taken =>
    a = 0 ∧ duration = preAuthDuration ∧ services = unlockFollowupServices ∧
      taken = v.worker.taken ∧ v.worker.taken.isSome ∧ v.worker.sawLocked = true
  | .unlocked =>
    a = 0 ∧ duration = preAuthDuration ∧ services = unlockFollowupServices ∧
      v.worker.unlocked = true
  | .agent i =>
    a = i ∧ duration = secs 10 ∧ services = sudoServices ∧ (v.client i).entry = some .agent ∧
      ((v.client i).touched = true ∨ (v.client i).granted = true)

def View.allowed (ext : Extern) (v : View) : Ev → Prop
  | .ownerRead _ owner => owner = v.owner
  | .settingsRead _ settings => settings = v.settings
  | .connectedRead _ b => b = v.connected
  | .verifiedRead _ b => b = v.verified
  | .windowRead _ service now hit =>
    now = v.now ∧ hit = v.preAuth.any (·.grants ext now service)
  | .registered i _ => i ≠ 0 ∧ v.pendingPam = none
  | .queued _ r _ => r = v.nextReply
  | .gotReply _ r reply => (v.replies r).value = some reply
  | .gotPending i b => b = true → (v.pending i).value = some true
  | .cancelSent i w tag => tag.by_ = i ∧ tag.inProgress = v.worker.phase.inProgress w
  | .denied i entry => entry = v.pendingPam ∧ (v.client i).registered = true
  | .answered i (.auth user service) (.ok _) => (v.client i).Justified ext user service
  | .windowArmed a why _ duration services => v.Grounds a duration services why
  | .sessionStarted | .sessionEnded => v.worker.phase.resting = true ∧ v.worker.job = none
  | .dequeued j => v.queue.head? = some j ∧ v.worker.phase = .idle ∧ v.worker.job = none
  | .responseArmed c => v.worker.phase.resting = true ∧ c = v.worker.nextCmd
  | .wrote c _ job =>
    v.worker.phase = .armed c ∧ c = v.worker.nextCmd ∧ job = v.worker.job ∧ v.worker.Writable
  | .poked c _ => c = v.worker.nextCmd
  | .routed f => v.inbox.head? = some f ∧ ∀ c, v.worker.phase ≠ .armed c
  | .delivered d c f =>
    v.accepts d ∧ d.Honest f ∧ v.worker.phase.awaiting = some c ∧ v.worker.routing = some f ∧
      isNotification f.data = false
  | .responseLeft => v.response.isSome
  | .pairingArmed c => v.worker.phase = .held c
  | .touchArmed w r c => v.worker.phase = .held c ∧
    ∃ j data, v.worker.job = some j ∧ j.reply = r ∧ j.cmd.waitsFor = some w ∧
      v.worker.lastWrote = some (c, data, some j)
  | .touchParked w => ∃ r c, v.worker.phase = .touch w r c
  | .touchCancelled w r tag =>
    (∃ c, v.worker.phase = .touch w r c) ∧ ∃ n, (v.cancels.get w).notified = some (tag, n)
  | .touchLeft w r => ∃ c, v.worker.phase = .touch w r c
  | .pairingRead key => key = v.key ∧ v.worker.routing.isSome
  | .matchVerified key f =>
    v.worker.routing = some f ∧ v.worker.readKey = some key ∧ f.isMatch = true ∧
      verifyFpMatchSigned ext key f = true
  | .approved i f waiting =>
    v.pendingPam = some i ∧ v.worker.matched = some f ∧ waiting = (v.pending i).isOpen
  | .lockedRead b => b = v.screenLocked
  | .replied r reply =>
    v.worker.phase.resting = true ∧ (∃ j, v.worker.job = some j ∧ j.reply = r) ∧
      (reply = .auth (.ok true) → v.worker.Touched)
  | .rested => v.worker.phase.resting = true
  | .arrived f => genuine f v.worker.nextCmd = true
  | _ => True

/-- Connection `i` puts a sender into the slot. -/
def Ev.registers (i : TaskId) : Ev → Bool
  | .registered j _ => j == i
  | _ => false

/-- The request `r` is queued. -/
def Ev.queues (r : ReplyId) : Ev → Bool
  | .queued _ r' _ => r' == r
  | _ => false

def machine (ext : Extern) (files : Files) : Machine View Ev where
  init := (Daemon.start files).view
  step := View.step ext
  actor := Ev.actor
  allowed := View.allowed ext

end Immurok
