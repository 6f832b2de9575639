import Immurok.Async.Solo
import Immurok.Daemon.Sound

/-!
# The handshake of a session

`GET_STATUS`, and one or two `CHALLENGE`s after it. The handshake is written
over what it uses of the worker, `SessionIo`, and runs against a device that
answers anything or nothing.
-/

namespace Immurok

open Async

variable {σ : Type}

/-- What the handshake uses: `send` is `send_command_inner` with the command
timeout, `sync` the synchronisation of the key cache. -/
structure SessionIo (σ : Type) where
  send : UInt8 → Bytes → Proc σ (Except Str Bytes)
  random : Proc σ Bytes
  setStatus : DeviceStatus → Proc σ Unit
  hasPairing : Proc σ Bool
  pairing : Proc σ (Option PairingData)
  verified : Proc σ Bool
  setVerified : Bool → Proc σ Unit
  setChallengeVerified : Proc σ Unit
  setUnpaired : Bool → Proc σ Unit
  pushUi : Str → Proc σ Bool
  sync : Proc σ (Except Str Unit)

namespace SessionIo

def queryStatus (io : SessionIo σ) : Proc σ (Option Bool) := do
  match ← io.send cmdGetStatus [] with
  | .error _ => pure none
  | .ok rsp =>
    if rsp.length < 4 ∨ rsp.headD rspError ≠ rspOk then pure none
    else do
      let paired := rsp.getD 2 0 != 0
      io.setStatus
        { fpBitmap := rsp.getD 1 0
          paired
          battery := rsp.getD 3 0
          fwVersion := firmwareVersion rsp }
      pure (some paired)

def markVerified (io : SessionIo σ) : Proc σ Unit := do
  io.setVerified true
  io.setChallengeVerified

def challenge (io : SessionIo σ) (ext : Extern) (key : Bytes) (reportedPaired : Option Bool) :
    Proc σ (Except Str Unit) := do
  let nonce ← io.random
  match ← io.send cmdChallenge nonce with
  | .ok rsp =>
    if isChallengeAnswer rsp then
      if verifyChallengeResponse ext key nonce rsp then do
        io.markVerified
        pure (.ok ())
      else pure (.ok ())
    else do
      let nonce2 ← io.random
      let rsp2 ← io.send cmdChallenge nonce2
      if rsp2.toOption.any isChallengeAnswer then
        if verifyChallengeResponse ext key nonce2 (rsp2.toOption.getD []) then do
          io.markVerified
          pure (.ok ())
        else pure (.ok ())
      else do
        io.setVerified true
        pure (.ok ())
  | .error e =>
    if reportedPaired.isSome then do
      io.setVerified true
      pure (.ok ())
    else pure (.error ("no usable BLE link: ".toList ++ e))

def reportUnpaired (io : SessionIo σ) (disownsUs : Bool) : Proc σ Unit := do
  io.setUnpaired disownsUs
  Proc.when disownsUs do
    let _ ← io.pushUi unpairedNotice
    pure ()

def verifyDevice (io : SessionIo σ) (ext : Extern) (reportedPaired : Option Bool) :
    Proc σ (Except Str Unit) := do
  match ← io.pairing with
  | some p => io.challenge ext p.sharedKey reportedPaired
  | none => do
    io.setVerified true
    pure (.ok ())

def syncWhenVerified (io : SessionIo σ) : Proc σ Unit := do
  let verified ← io.verified
  Proc.when verified do
    let _ ← io.sync
    pure ()

def openSession (io : SessionIo σ) (ext : Extern) : Proc σ (Except Str Unit) := do
  let reportedPaired ← io.queryStatus
  let hasLocalPairing ← io.hasPairing
  let disownsUs := hasLocalPairing && reportedPaired == some false
  io.reportUnpaired disownsUs
  tryThen (if disownsUs then pure (.ok ()) else io.verifyDevice ext reportedPaired) fun _ => do
    io.syncWhenVerified
    pure (.ok ())

end SessionIo

/-- The worker's own. -/
def sessionIo (ext : Extern) : SessionIo Daemon where
  send cmd payload := sendCommandInner ext cmd payload bleCommandTimeout
  random := drawRandom ext
  setStatus status := store fun c => { c with deviceStatus := some status }
  hasPairing := load (·.pairing.isSome)
  pairing := load (·.pairing)
  verified := load (·.isDeviceVerified)
  setVerified b := setVerified 0 b
  setChallengeVerified := store fun c => { c with challengeVerified := true }
  setUnpaired b := store fun c => { c with deviceReportsUnpaired := b }
  pushUi := pushUi
  sync := syncSshKeys ext (keyIo ext)

theorem openSession_eq {ext : Extern} : openSession ext = (sessionIo ext).openSession ext := by
  rfl

-- ---------------------------------------------------------------------------
-- Exchanges
-- ---------------------------------------------------------------------------

/-- A command and what came of it. -/
structure Exchange where
  cmd : UInt8
  payload : Bytes
  answer : Except Str Bytes

/-- The answer to `GET_STATUS` says whether the device is paired. -/
def isStatusAnswer (rsp : Bytes) : Bool := 4 ≤ rsp.length && rsp.headD rspError == rspOk

/-- The status 0xF2, alone or after the command's byte. -/
def isRefusal (rsp : Bytes) : Bool :=
  !isChallengeAnswer rsp &&
    (rsp.head? == some rspErrNotPaired ||
      rsp.head? == some cmdChallenge && rsp[1]? == some rspErrNotPaired)

namespace Exchange

/-- The device has shown that it holds the key. -/
def proves (ext : Extern) (key : Bytes) (x : Exchange) : Bool :=
  x.cmd == cmdChallenge && x.answer.toOption.any fun rsp =>
    isChallengeAnswer rsp && verifyChallengeResponse ext key x.payload rsp

/-- The device has said, or shown, that it does not. -/
def disowns (ext : Extern) (key : Bytes) (x : Exchange) : Bool :=
  x.answer.toOption.any fun rsp =>
    if x.cmd = cmdGetStatus then isStatusAnswer rsp && rsp.getD 2 0 == 0
    else isRefusal rsp || isChallengeAnswer rsp && !verifyChallengeResponse ext key x.payload rsp

/-- The answer is one to its command. -/
def answered (x : Exchange) : Bool :=
  x.answer.toOption.any fun rsp =>
    if x.cmd = cmdGetStatus then isStatusAnswer rsp else isChallengeAnswer rsp

end Exchange

/-- What the handshake reads and writes, with the answers the device still has
in store and the exchanges there have been, the last one first. -/
structure Handshake where
  drawn : Nat
  pairing : Option PairingData
  status : Option DeviceStatus
  verified : Bool
  challengeVerified : Bool
  unpaired : Bool
  notices : List Str
  synced : Bool
  answers : List (Except Str Bytes)
  exchanges : List Exchange

/-- A session begins. -/
def Handshake.begin (drawn : Nat) (p : PairingData) (answers : List (Except Str Bytes)) :
    Handshake :=
  { drawn, pairing := some p, status := none, verified := false, challengeVerified := false
    unpaired := false, notices := [], synced := false, answers, exchanges := [] }

/-- A command; one without an answer times out. -/
def Handshake.exchange (cmd : UInt8) (payload : Bytes) (s : Handshake) :
    Except Str Bytes × Handshake :=
  let answer := s.answers.headD (.error "Response timeout")
  (answer, { s with
    answers := s.answers.tail, exchanges := ⟨cmd, payload, answer⟩ :: s.exchanges })

def handshakeIo (ext : Extern) : SessionIo Handshake where
  send cmd payload := Proc.atomically (·.exchange cmd payload)
  random := Proc.atomically fun s => (ext.random s.drawn, { s with drawn := s.drawn + 1 })
  setStatus status := Proc.modify fun s => { s with status := some status }
  hasPairing := Proc.get (·.pairing.isSome)
  pairing := Proc.get (·.pairing)
  verified := Proc.get (·.verified)
  setVerified verified := Proc.modify fun s => { s with verified }
  setChallengeVerified := Proc.modify fun s => { s with challengeVerified := true }
  setUnpaired unpaired := Proc.modify fun s => { s with unpaired }
  pushUi line := Proc.atomically fun s => (true, { s with notices := line :: s.notices })
  sync := Proc.atomically fun s => (.ok (), { s with synced := true })

-- ---------------------------------------------------------------------------
-- What verified means
-- ---------------------------------------------------------------------------

/-- The flags say no more than the device has shown. -/
structure Handshake.Sound (ext : Extern) (key : Bytes) (s : Handshake) : Prop where
  proven : s.challengeVerified = true → s.exchanges.any (·.proves ext key) = true
  disowned : s.exchanges.any (·.disowns ext key) = true → s.verified = false
  unknown : s.exchanges.any (·.answered) = false → s.verified = false

/-- What `GET_STATUS` says of the pairing. -/
def statusPaired (answer : Except Str Bytes) : Option Bool :=
  (answer.toOption.filter isStatusAnswer).map fun rsp => rsp.getD 2 0 != 0

/-- The answers after which `verified` is right: the status says unpaired, the
first challenge fails or has its answer, the second one has a wrong answer, or
no challenge is refused and one of status and second challenge is answered. -/
def settles (ext : Extern) (key nonce2 : Bytes) (status first second : Except Str Bytes) : Bool :=
  statusPaired status == some false || first.toOption.all isChallengeAnswer ||
    second.toOption.any (fun rsp =>
      isChallengeAnswer rsp && !verifyChallengeResponse ext key nonce2 rsp) ||
    !first.toOption.any isRefusal && (second.toOption.any isChallengeAnswer ||
      !second.toOption.any isRefusal && (statusPaired status).isSome)

section
variable {ext : Extern} {p : PairingData} {s : Handshake}
  {status first second answer : Except Str Bytes} {rest : List (Except Str Bytes)}
  {key payload rsp nonce : Bytes}

theorem exchange_eq {cmd : UInt8} (hs : s.answers = answer :: rest) :
    [s.exchange cmd payload] = [(answer, { s with
      answers := rest, exchanges := ⟨cmd, payload, answer⟩ :: s.exchanges })] := by
  simp [Handshake.exchange, hs]

namespace Exchange

@[simp] theorem proves_status : (mk cmdGetStatus payload answer).proves ext key = false := rfl

@[simp] theorem disowns_status :
    (mk cmdGetStatus payload answer).disowns ext key = (statusPaired answer == some false) := by
  cases answer with
  | error e => rfl
  | ok rsp =>
    simp only [disowns, statusPaired, Except.toOption, Option.any, Option.filter, if_true]
    cases isStatusAnswer rsp with
    | false => rfl
    | true => cases hb : rsp.getD 2 0 == 0 <;> simp_all

@[simp] theorem answered_status :
    (mk cmdGetStatus payload answer).answered = (statusPaired answer).isSome := by
  cases answer with
  | error e => rfl
  | ok rsp =>
    simp only [answered, statusPaired, Except.toOption, Option.any, Option.filter, if_true]
    cases isStatusAnswer rsp <;> rfl

@[simp] theorem proves_challenge : (mk cmdChallenge nonce answer).proves ext key =
    answer.toOption.any fun rsp =>
      isChallengeAnswer rsp && verifyChallengeResponse ext key nonce rsp := rfl

@[simp] theorem disowns_challenge : (mk cmdChallenge nonce answer).disowns ext key =
    answer.toOption.any fun rsp => isRefusal rsp ||
      isChallengeAnswer rsp && !verifyChallengeResponse ext key nonce rsp := rfl

@[simp] theorem answered_challenge :
    (mk cmdChallenge nonce answer).answered = answer.toOption.any isChallengeAnswer := rfl

end Exchange

theorem Handshake.sound_iff : s.Sound ext key ↔
    (s.challengeVerified = true → s.exchanges.any (·.proves ext key) = true) ∧
    (s.exchanges.any (·.disowns ext key) = true → s.verified = false) ∧
    (s.exchanges.any (·.answered) = false → s.verified = false) :=
  ⟨fun h => ⟨h.proven, h.disowned, h.unknown⟩, fun h => ⟨h.1, h.2.1, h.2.2⟩⟩

theorem isRefusal_eq_false (h : isChallengeAnswer rsp = true) : isRefusal rsp = false := by
  simp [isRefusal, h]

theorem queryStatus_reaches (hs : s.answers = status :: rest) :
    (handshakeIo ext).queryStatus.Reaches s fun known s' => known = statusPaired status ∧
      ∃ r, s' = { s with
        status := r, answers := rest, exchanges := ⟨cmdGetStatus, [], status⟩ :: s.exchanges } := by
  refine .act (exchange_eq hs) ?_
  cases status with
  | error e => exact .ret ⟨rfl, _, rfl⟩
  | ok rsp =>
    by_cases hr : rsp.length < 4 ∨ rsp.headD rspError ≠ rspOk
    · have hn : isStatusAnswer rsp = false := by
        simp only [isStatusAnswer]
        grind
      simp only [Proc.bind, hr, if_true, statusPaired, Except.toOption, Option.filter, hn]
      exact .ret ⟨rfl, _, rfl⟩
    · have hn : isStatusAnswer rsp = true := by
        simp only [isStatusAnswer]
        grind
      simp only [Proc.bind, hr, if_false, statusPaired, Except.toOption, Option.filter, hn]
      exact .act rfl (.ret ⟨rfl, _, rfl⟩)

theorem challenge_reaches (hs : s.answers = [first, second])
    (hx : s.exchanges = [⟨cmdGetStatus, [], status⟩]) (hv : s.verified = false)
    (hc : s.challengeVerified = false) (hp : statusPaired status ≠ some false) :
    ((handshakeIo ext).challenge ext key (statusPaired status)).Reaches s fun _ s' =>
      (s'.Sound ext key ↔ settles ext key (ext.random (s.drawn + 1)) status first second = true) := by
  refine .act rfl (.act (exchange_eq hs) ?_)
  cases first with
  | error e =>
    by_cases hk : (statusPaired status).isSome
    · simp only [Proc.bind, hk, if_true]
      refine .act rfl (.ret ?_)
      simp [Handshake.sound_iff, settles, hx, hc, hp, hk, Except.toOption]
    · simp only [Proc.bind, hk]
      refine .ret ?_
      simp [Handshake.sound_iff, settles, hx, hv, hc, Except.toOption]
  | ok rsp =>
    by_cases hwf : isChallengeAnswer rsp = true
    · by_cases hright : verifyChallengeResponse ext key (ext.random s.drawn) rsp = true
      · simp only [Proc.bind, hwf, hright, if_true]
        refine .act rfl (.act rfl (.ret ?_))
        simp [Handshake.sound_iff, settles, hx, hp, hwf, hright, isRefusal_eq_false hwf,
          Except.toOption]
      · simp only [Proc.bind, hwf, hright, if_true]
        refine .ret ?_
        simp [Handshake.sound_iff, settles, hv, hc, hwf, Except.toOption]
    · simp only [Proc.bind, hwf]
      refine .act rfl (.act (exchange_eq rfl) ?_)
      by_cases hany : second.toOption.any isChallengeAnswer = true
      · obtain ⟨rsp2, rfl, hwf2⟩ : ∃ rsp2, second = .ok rsp2 ∧ isChallengeAnswer rsp2 = true := by
          cases second with
          | error e => cases hany
          | ok rsp2 => exact ⟨rsp2, rfl, hany⟩
        by_cases hright : verifyChallengeResponse ext key (ext.random (s.drawn + 1)) rsp2 = true
        · have hgot : verifyChallengeResponse ext key (ext.random (s.drawn + 1))
            ((Except.ok rsp2 : Except Str Bytes).toOption.getD []) = true := hright
          simp only [Proc.bind, hany, hgot, if_true]
          refine .act rfl (.act rfl (.ret ?_))
          simp [Handshake.sound_iff, settles, hx, hp, hwf, hwf2, hright, isRefusal_eq_false hwf2,
            Except.toOption]
        · have hgot : ¬ verifyChallengeResponse ext key (ext.random (s.drawn + 1))
            ((Except.ok rsp2 : Except Str Bytes).toOption.getD []) = true := hright
          simp only [Proc.bind, hany, hgot, if_true]
          refine .ret ?_
          simp [Handshake.sound_iff, settles, hv, hc, hwf2, hright, Except.toOption]
      · simp only [Proc.bind, hany]
        refine .act rfl (.ret ?_)
        cases second with
        | error e =>
          simp [Handshake.sound_iff, settles, hx, hc, hp, hwf, Except.toOption,
            Option.isSome_iff_ne_none]
        | ok rsp2 =>
          have hwf2 : ¬ isChallengeAnswer rsp2 = true := hany
          simp [Handshake.sound_iff, settles, hx, hc, hp, hwf, hwf2, Except.toOption,
            Option.isSome_iff_ne_none]
          exact ⟨fun h => ⟨h.1.2, h.1.1, h.2⟩, fun h => ⟨⟨h.2.1, h.1⟩, h.2.2⟩⟩

theorem syncWhenVerified_reaches {p : Prop} (h : s.Sound ext key ↔ p) :
    (do (handshakeIo ext).syncWhenVerified
        pure (.ok ()) : Proc Handshake (Except Str Unit)).Reaches s fun _ s' =>
      s'.Sound ext key ↔ p := by
  refine .act rfl ?_
  simp only [Proc.bind, Proc.when]
  by_cases hv : s.verified = true
  · simp only [hv, if_true]
    refine .act rfl (.ret ?_)
    simpa [Handshake.sound_iff] using h
  · simp only [hv]
    exact .ret h

theorem openSession_reaches {drawn : Nat} : ((handshakeIo ext).openSession ext).Reaches
    (.begin drawn p [status, first, second]) fun _ s' => s'.Sound ext p.sharedKey ↔
      settles ext p.sharedKey (ext.random (drawn + 1)) status first second = true := by
  refine .bind (queryStatus_reaches rfl) ?_
  rintro known _ ⟨rfl, r, rfl⟩
  refine .act rfl (.act rfl ?_)
  by_cases hp : statusPaired status = some false
  · rw [hp]
    refine .act rfl (syncWhenVerified_reaches ?_)
    simp [Handshake.sound_iff, settles, hp, Handshake.begin]
  · have hb : (statusPaired status == some false) = false := by simpa using hp
    simp only [hb]
    refine .act rfl (.bind (challenge_reaches rfl rfl rfl rfl hp) fun r s' h => ?_)
    cases r with
    | error e => exact .ret h
    | ok => exact syncWhenVerified_reaches h

/-- However the handshake ends, its flags are right exactly after these
answers. -/
theorem handshake_sound_iff {drawn : Nat} : (∀ r s', ((handshakeIo ext).openSession ext).Stops
      (.begin drawn p [status, first, second]) (.ret r) s' → s'.Sound ext p.sharedKey) ↔
    settles ext p.sharedKey (ext.random (drawn + 1)) status first second = true :=
  openSession_reaches.forall_iff

/-- Two refusals are taken for old firmware. -/
theorem refused_twice_verified : ¬ ∀ (ext : Extern) (drawn : Nat) (p : PairingData)
    (status first second : Except Str Bytes) (r : Except Str Unit) (s' : Handshake),
    ((handshakeIo ext).openSession ext).Stops (.begin drawn p [status, first, second]) (.ret r) s' →
      s'.Sound ext p.sharedKey := by
  intro h
  let p : PairingData := { deviceUuid := "d", sharedKey := List.replicate 32 0, pairedAt := "1Z" }
  let refused : Except Str Bytes := .ok [cmdChallenge, rspErrNotPaired]
  have hs := openSession_reaches.forall_iff.mp (h .sample 0 p (.ok [rspOk, 1, 1, 80]) refused refused)
  exact absurd hs (by decide)

end
end Immurok
