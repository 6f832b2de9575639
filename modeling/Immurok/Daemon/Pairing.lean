import Immurok.Daemon.Unpairing

/-!
# What a pairing leaves behind

A pairing is kept three times, in memory, in a file and on the device.
`PAIR:START` over what it uses of the daemon, and with it every operation that
changes the pairing, where each file operation may fail.
-/

namespace Immurok

open Async

variable {σ : Type}

/-- What `do_pair` uses of the worker: `init` is `PAIR_INIT` with the touch and
the button, `confirm` is `PAIR_CONFIRM`, `savePairing` says nothing of a failure. -/
structure PairIo (σ : Type) where
  slotStatus : Proc σ (Except Str Bytes)
  init : Bool → Proc σ PairInit
  pause : Proc σ Unit
  keypair : Proc σ (Bytes × Bytes)
  confirm : Bytes → Proc σ (Except Str Bytes)
  now : Proc σ Nat
  setPairing : Option PairingData → Proc σ Unit
  savePairing : PairingData → Proc σ Unit
  setReportsUnpaired : Bool → Proc σ Unit
  setVerified : Bool → Proc σ Unit

namespace PairIo

def establishPairing (io : PairIo σ) (devicePubkey sharedKey : Bytes) : Proc σ Unit := do
  let now ← io.now
  let pairing : PairingData :=
    { deviceUuid := Str.hexEncode devicePubkey
      sharedKey
      pairedAt := Str.ofNat (now / 1000) ++ "Z".toList }
  io.setPairing (some pairing)
  io.savePairing pairing
  io.setReportsUnpaired false
  io.setVerified true

def confirmPairing (io : PairIo σ) (ext : Extern) (rsp : Bytes) : Proc σ BleResult := do
  if rsp.length < 1 + compressedPubkeyLen ∨ rsp.headD 0 ≠ cmdPairInit then
    pure (.error ("PAIR_INIT bad response: ".toList ++ Str.hexEncode rsp))
  else do
    let devicePubkey := (rsp.drop 1).take compressedPubkeyLen
    let (appSecret, appPubkey) ← io.keypair
    tryThen (io.confirm appPubkey) fun crsp =>
      if crsp.length < 2 ∨ crsp.getD 0 0 ≠ cmdPairConfirm ∨ crsp.getD 1 0xFF ≠ rspOk then
        pure (.error ("PAIR_CONFIRM failed: ".toList ++ Str.hexEncode crsp))
      else
        match ext.ecdhSharedSecret appSecret devicePubkey with
        | .error e => pure (.error ("ECDH: ".toList ++ e))
        | .ok shared =>
          match ext.deriveSharedKey shared with
          | .error e => pure (.error ("HKDF: ".toList ++ e))
          | .ok sharedKey => do
            io.establishPairing devicePubkey sharedKey
            pure (.ok (rspOk, [rspOk]))

def doPair (io : PairIo σ) (ext : Extern) : Proc σ BleResult := do
  let slots ← io.slotStatus
  let secondHost := (parseSlotStatus (slots.toOption.getD [])).isSecondHost
  Proc.repeatFrom 3 fun (retries : Nat) => do
    match ← io.init secondHost with
    | .failed e => pure (.inr (.error e))
    | .retry =>
      if 0 < retries then do
        io.pause
        pure (.inl (retries - 1))
      else pure (.inr (.error "PAIR_INIT: conn param update incomplete"))
    | .answered rsp => do
      let result ← io.confirmPairing ext rsp
      pure (.inr result)

end PairIo

/-- What `PAIR:START` uses: `request` is the worker's command with its reply. -/
structure StartIo (σ : Type) where
  connected : Proc σ Bool
  tryBegin : Proc σ Bool
  request : Proc σ (Option Reply)
  setProgress : PairProgress → Proc σ Unit

def StartIo.handlePairStart (io : StartIo σ) : Proc σ Response := do
  let connected ← io.connected
  if !connected then pure (.error "NOT_CONNECTED")
  else do
    let begun ← io.tryBegin
    if !begun then pure (.error "PAIRING_IN_PROGRESS")
    else do
      match ← io.request with
      | some (.ble (.ok _)) => pure (.ok "PAIRED")
      | some (.ble (.error e)) => pure (.error ("PAIRING_FAILED:".toList ++ e))
      | _ => do
        io.setProgress .failed
        pure (.error "PAIR_REPLY_DROPPED")

/-- The worker's own. -/
def pairIo (ext : Extern) : PairIo Daemon where
  slotStatus := sendCommandInner ext cmdSlotStatus [] bleCommandTimeout
  init := pairInit ext
  pause := sleep (secs 5)
  keypair := Proc.atomically fun s =>
    (ext.generateKeypair s.drawn, { s with drawn := s.drawn + 1 })
  confirm appPubkey := sendCommandInner ext cmdPairConfirm appPubkey (secs 30)
  now := clock
  setPairing := setPairing 0
  savePairing pairing := do
    let saved ← Proc.choose [true, false]
    Proc.when saved
      (Proc.modify fun s => { s with files := { s.files with pairing := some pairing } })
  setReportsUnpaired b := store fun c => { c with deviceReportsUnpaired := b }
  setVerified := setVerified 0

/-- The daemon's own, for connection `i`. -/
def startIo (i : TaskId) : StartIo Daemon where
  connected := load (·.isConnected)
  tryBegin := tryBeginPairing
  request := bleRequest i .pair
  setProgress := setPairProgress

theorem handlePairStart_eq {i : TaskId} : handlePairStart i = (startIo i).handlePairStart := rfl

theorem establishPairing_eq {ext : Extern} {devicePubkey sharedKey : Bytes} :
    establishPairing devicePubkey sharedKey =
      (pairIo ext).establishPairing devicePubkey sharedKey := by
  refine congrArg (Proc.act _) (funext fun now => ?_)
  refine congrArg (Proc.act _) (funext fun _ => ?_)
  refine congrArg (Proc.act _) (funext fun saved => ?_)
  cases saved <;> rfl

theorem doPair_eq {ext : Extern} : doPair ext = (pairIo ext).doPair ext := by
  have confirm {rsp : Bytes} : confirmPairing ext rsp = (pairIo ext).confirmPairing ext rsp := by
    unfold confirmPairing
    rw [funext fun d => funext fun k => @establishPairing_eq ext d k]
    rfl
  unfold doPair
  simp only [confirm]
  rfl

-- ---------------------------------------------------------------------------
-- Three records
-- ---------------------------------------------------------------------------

/-- The pairing in memory, what `load_pairing` returns, the owner's file, and the
app's public key that the device has confirmed in this attempt. -/
structure Records where
  pairing : Option PairingData
  file : Option PairingData
  owner : Option Str
  confirmed : Option Bytes
  tries : Nat
  drawn : Nat

/-- What an operation meets: the device's answers, the `n`th of them to
`PAIR_INIT`, whether it commits the key at `PAIR_CONFIRM`, and how the file
operations end. -/
structure Setting where
  connected : Bool
  status : BleResult
  ack : BleResult
  gated : BleResult
  begun : Bool
  slots : Except Str Bytes
  init : Nat → PairInit
  commits : Bool
  confirm : Except Str Bytes
  replies : Bool
  now : Nat
  saves : Bool
  removes : Bool

def Setting.clearIo (w : Setting) : ClearIo Records where
  connected := .get fun _ => w.connected
  pairing := .get (·.pairing)
  send cmd _ := .ret (if cmd = cmdSlotStatus then w.status else w.ack)
  sendGated _ _ := .ret w.gated
  removePairing := .modify fun s => if w.removes then { s with file := none } else s
  setPairing p := .modify fun s => { s with pairing := p }
  setVerified _ := .ret ()
  setChallengeVerified _ := .ret ()

def Setting.pairIo (w : Setting) (ext : Extern) : PairIo Records where
  slotStatus := .ret w.slots
  init _ := .atomically fun s => (w.init s.tries, { s with tries := s.tries + 1 })
  pause := .ret ()
  keypair := .atomically fun s => (ext.generateKeypair s.drawn, { s with drawn := s.drawn + 1 })
  confirm appPubkey := .atomically fun s =>
    (w.confirm, if w.commits then { s with confirmed := some appPubkey } else s)
  now := .ret w.now
  setPairing p := .modify fun s => { s with pairing := p }
  savePairing p := .modify fun s => if w.saves then { s with file := some p } else s
  setReportsUnpaired _ := .ret ()
  setVerified _ := .ret ()

def Setting.startIo (w : Setting) (ext : Extern) : StartIo Records where
  connected := .get fun _ => w.connected
  tryBegin := .ret w.begun
  request := do
    let result ← (w.pairIo ext).doPair ext
    pure (if w.replies then some (.ble result) else none)
  setProgress _ := .ret ()

/-- The operations that change the pairing. -/
inductive PairingOp
  | pairStart
  | slotClear (slot : Option UInt8)
  | factoryReset

def Setting.perform (w : Setting) (ext : Extern) : PairingOp → Proc Records Response
  | .pairStart => (w.startIo ext).handlePairStart
  | .slotClear slot => w.clearIo.handleSlotClear slot
  | .factoryReset => w.clearIo.handleFactoryReset ext

/-- After a success, a restart finds the pairing that is in memory. -/
def Lasting (reply : Response) (s : Records) : Prop :=
  ∀ text, reply = .ok text → s.pairing = s.file

/-- After a failure, the device has confirmed no key. -/
def Unclaimed (result : BleResult) (s : Records) : Prop :=
  ∀ e, result = .error e → s.confirmed = none

-- ---------------------------------------------------------------------------
-- What happens
-- ---------------------------------------------------------------------------

/-- The answer to `PAIR_INIT` that is neither a failure nor tried again. -/
def offered (init : Nat → PairInit) : Nat → Nat → Option Bytes
  | retries, n =>
    match init n with
    | .answered rsp => some rsp
    | .failed _ => none
    | .retry =>
      match retries with
      | 0 => none
      | retries + 1 => offered init retries (n + 1)

/-- The key that the device offers. -/
def Setting.devicePubkey (w : Setting) : Option Bytes :=
  (offered w.init 3 0).bind fun rsp =>
    if rsp.length < 1 + compressedPubkeyLen ∨ rsp.headD 0 ≠ cmdPairInit then none
    else some ((rsp.drop 1).take compressedPubkeyLen)

def Setting.confirms (w : Setting) : Bool :=
  match w.confirm with
  | .error _ => false
  | .ok crsp => !(crsp.length < 2 ∨ crsp.getD 0 0 ≠ cmdPairConfirm ∨ crsp.getD 1 0xFF ≠ rspOk)

/-- The key that the two agree on with the `n`th pair of the app's keys. -/
def agreed (ext : Extern) (n : Nat) (devicePubkey : Bytes) : Option Bytes :=
  (ext.ecdhSharedSecret (ext.generateKeypair n).1 devicePubkey).toOption.bind fun shared =>
    (ext.deriveSharedKey shared).toOption

/-- The pairing that comes of it. -/
def Setting.madePairing (w : Setting) (devicePubkey sharedKey : Bytes) : PairingData :=
  { deviceUuid := Str.hexEncode devicePubkey
    sharedKey
    pairedAt := Str.ofNat (w.now / 1000) ++ "Z".toList }

/-- The pairing that an attempt comes to, with the `n`th pair of keys. -/
def Setting.paired (w : Setting) (ext : Extern) (n : Nat) : Option PairingData :=
  w.devicePubkey.bind fun pub =>
    if w.confirms then (agreed ext n pub).map (w.madePairing pub) else none

/-- The key that the device is left with. -/
def Setting.committed (w : Setting) (ext : Extern) (n : Nat) : Option Bytes :=
  if w.commits then w.devicePubkey.map fun _ => (ext.generateKeypair n).2 else none

/-- What the device's answers call for: a pairing to be made or dropped, or a
success in which it is neither. -/
inductive Effect
  | makes (p : PairingData)
  | drops
  | keeps
  | fails

def Setting.effect (w : Setting) (ext : Extern) (n : Nat) : PairingOp → Effect
  | .pairStart =>
    if w.connected && w.begun && w.replies then
      (w.paired ext n).elim .fails .makes
    else .fails
  | .slotClear slot =>
    if !w.connected then (if slot.isNone then .drops else .fails)
    else
      match clearPathAfter w.status slot with
      | some .own =>
        match w.ack with
        | .ok (first, rest) =>
          if classifySlotClearAck first rest = .refused then .fails else .drops
        | .error _ => .drops
      | some (.other _) => if w.gated.isOk then .keeps else .fails
      | _ => .fails
  | .factoryReset =>
    if !w.connected then .fails
    else
      match w.gated with
      | .ok (status, _) =>
        if status = rspOk ∨ status = rspFpGateApproved then .drops else .fails
      | .error _ => .fails

/-- The file operation succeeds, or the file was already as it would leave it. -/
def Effect.Recorded (w : Setting) (pairing file : Option PairingData) : Effect → Prop
  | .makes p => w.saves = true ∨ file = some p
  | .drops => w.removes = true ∨ file = none
  | .keeps => pairing = file
  | .fails => True

section
variable {w : Setting} {ext : Extern} {s : Records} {slot : Option UInt8}

/-- What an attempt leaves: a pairing in memory, and in the file if that was
saved, or an error and both as they were. -/
structure Setting.Attempted (w : Setting) (ext : Extern) (s : Records) (result : BleResult)
    (s' : Records) : Prop where
  owner : s'.owner = s.owner
  confirmed : s'.confirmed = w.committed ext s.drawn
  succeeded : ∀ p, w.paired ext s.drawn = some p → (∃ r, result = .ok r) ∧ s'.pairing = some p ∧
    s'.file = if w.saves then some p else s.file
  failed : w.paired ext s.drawn = none → (∃ e, result = .error e) ∧ s'.pairing = s.pairing ∧
    s'.file = s.file

theorem establishPairing_reaches {devicePubkey sharedKey : Bytes} :
    ((w.pairIo ext).establishPairing devicePubkey sharedKey).Reaches s fun _ s' =>
      s'.owner = s.owner ∧ s'.confirmed = s.confirmed ∧
        s'.pairing = some (w.madePairing devicePubkey sharedKey) ∧
        s'.file = if w.saves then some (w.madePairing devicePubkey sharedKey) else s.file := by
  refine .act rfl (.act rfl (.ret ⟨?_, ?_, ?_, ?_⟩))
  · split <;> rfl
  · split <;> rfl
  · split <;> rfl
  · split <;> rfl

/-- Nothing comes of it. -/
theorem failed_reaches {e : Str} {s' : Records} (hnone : w.paired ext s.drawn = none)
    (ho : s'.owner = s.owner) (hc : s'.confirmed = w.committed ext s.drawn) (hp : s'.pairing = s.pairing)
    (hf : s'.file = s.file) : (Proc.ret (.error e)).Reaches s' (w.Attempted ext s) :=
  .ret ⟨ho, hc, fun p h => absurd (hnone.symm.trans h) (by simp), fun _ => ⟨⟨e, rfl⟩, hp, hf⟩⟩

theorem confirmPairing_reaches {rsp : Bytes} (hn : s.confirmed = none)
    (ho : offered w.init 3 0 = some rsp) :
    ((w.pairIo ext).confirmPairing ext rsp).Reaches s (w.Attempted ext s) := by
  unfold PairIo.confirmPairing
  by_cases hrsp : rsp.length < 1 + compressedPubkeyLen ∨ rsp.headD 0 ≠ cmdPairInit
  · have hkey : w.devicePubkey = none := by
      rw [Setting.devicePubkey, ho]
      exact if_pos hrsp
    rw [if_pos hrsp]
    refine failed_reaches (by rw [Setting.paired, hkey]; rfl) rfl ?_ rfl rfl
    rw [hn, Setting.committed, hkey]
    split <;> rfl
  · have hkey : w.devicePubkey = some ((rsp.drop 1).take compressedPubkeyLen) := by
      rw [Setting.devicePubkey, ho]
      exact if_neg hrsp
    rw [if_neg hrsp]
    refine .bind (R := fun r s' => r = ext.generateKeypair s.drawn ∧ s'.owner = s.owner ∧
      s'.confirmed = none ∧ s'.pairing = s.pairing ∧ s'.file = s.file)
      (.atomically ⟨rfl, rfl, hn, rfl, rfl⟩) ?_
    rintro _ s₁ ⟨rfl, ho₁, hc₁, hp₁, hf₁⟩
    refine .bind (R := fun r s' => r = w.confirm ∧ s'.owner = s.owner ∧
      s'.confirmed = w.committed ext s.drawn ∧ s'.pairing = s.pairing ∧ s'.file = s.file)
      (.atomically ⟨rfl, ?_, ?_, ?_, ?_⟩) ?_
    · cases w.commits <;> exact ho₁
    · rw [Setting.committed, hkey]
      cases w.commits with
      | false => exact hc₁
      | true => rfl
    · cases w.commits <;> exact hp₁
    · cases w.commits <;> exact hf₁
    rintro _ s₂ ⟨rfl, ho₂, hc₂, hp₂, hf₂⟩
    have hpaired : w.paired ext s.drawn = if w.confirms then
        (agreed ext s.drawn ((rsp.drop 1).take compressedPubkeyLen)).map
          (w.madePairing ((rsp.drop 1).take compressedPubkeyLen)) else none := by
      rw [Setting.paired, hkey]
      rfl
    cases hcrsp : w.confirm with
    | error e =>
      refine failed_reaches ?_ ho₂ hc₂ hp₂ hf₂
      rw [hpaired, Setting.confirms, hcrsp]
      rfl
    | ok crsp =>
      have hconfirms : w.confirms = !decide (crsp.length < 2 ∨ crsp.getD 0 0 ≠ cmdPairConfirm ∨
          crsp.getD 1 0xFF ≠ rspOk) := by rw [Setting.confirms, hcrsp]
      dsimp only
      split
      next hbad =>
        refine failed_reaches ?_ ho₂ hc₂ hp₂ hf₂
        rw [hpaired, hconfirms, decide_eq_true hbad]
        rfl
      next hgood =>
        rw [hconfirms, decide_eq_false hgood, Bool.not_false, if_pos rfl] at hpaired
        unfold agreed at hpaired
        cases hshared : ext.ecdhSharedSecret (ext.generateKeypair s.drawn).1
            ((rsp.drop 1).take compressedPubkeyLen) with
        | error e => exact failed_reaches (by rw [hpaired, hshared]; rfl) ho₂ hc₂ hp₂ hf₂
        | ok shared =>
          rw [hshared] at hpaired
          dsimp only
          cases hderived : ext.deriveSharedKey shared with
          | error e =>
            refine failed_reaches ?_ ho₂ hc₂ hp₂ hf₂
            rw [hpaired, Except.toOption, Option.bind_some, hderived]
            rfl
          | ok sharedKey =>
            rw [Except.toOption, Option.bind_some, hderived] at hpaired
            refine .bind establishPairing_reaches fun _ s' hs' => .ret ⟨?_, ?_, ?_, ?_⟩
            · exact hs'.1.trans ho₂
            · exact hs'.2.1.trans hc₂
            · intro p hp
              obtain rfl := Option.some.inj (hpaired.symm.trans hp)
              exact ⟨⟨_, rfl⟩, hs'.2.2.1, hf₂ ▸ hs'.2.2.2⟩
            · exact fun h => nomatch hpaired.symm.trans h

/-- An attempt comes to the pairing that the device's answers lead to. -/
theorem doPair_reaches (hn : s.confirmed = none) (ht : s.tries = 0) :
    ((w.pairIo ext).doPair ext).Reaches s (w.Attempted ext s) := by
  refine .repeatFrom (J := fun retries s' => offered w.init retries s'.tries = offered w.init 3 0 ∧
    s' = { s with tries := s'.tries }) id ?_ ⟨by rw [ht], rfl⟩
  rintro retries s' ⟨ho, hs'⟩
  refine .bind (R := fun r s₁ => r = w.init s'.tries ∧ s₁ = { s with tries := s'.tries + 1 })
    (.atomically ⟨rfl, by rw [hs']⟩) ?_
  rintro _ s₁ ⟨rfl, hs₁⟩
  have hc₁ : s₁.confirmed = none := by rw [hs₁]; exact hn
  -- an attempt that ends here agrees on no key
  have ends {e : Str} (hnone : offered w.init retries s'.tries = none) :
      (Proc.ret (.inr (.error e)) : Proc Records (Nat ⊕ BleResult)).Reaches s₁ fun r s' =>
        r.elim (fun j => (offered w.init j s'.tries = offered w.init 3 0 ∧
          s' = { s with tries := s'.tries }) ∧ j < retries) (w.Attempted ext s · s') := by
    have hkey : w.devicePubkey = none := by rw [Setting.devicePubkey, ← ho, hnone]; rfl
    refine .ret ⟨by rw [hs₁], ?_, fun p h => ?_, fun _ => ⟨⟨e, rfl⟩, by rw [hs₁], by rw [hs₁]⟩⟩
    · rw [hc₁, Setting.committed, hkey]
      split <;> rfl
    · rw [Setting.paired, hkey] at h
      exact nomatch h
  cases hinit : w.init s'.tries with
  | failed e => exact ends (by unfold offered; rw [hinit])
  | retry =>
    cases retries with
    | zero => exact ends (by unfold offered; rw [hinit])
    | succ retries =>
      refine .ret ⟨⟨?_, by rw [hs₁]⟩, Nat.lt_succ_self _⟩
      rw [← ho, hs₁]
      conv_rhs => unfold offered
      rw [hinit]
      rfl
  | answered rsp =>
    have hoffer : offered w.init 3 0 = some rsp := by
      rw [← ho]
      unfold offered
      rw [hinit]
    refine .bind (confirmPairing_reaches hc₁ hoffer) fun r s'' h => .ret ?_
    have hd : s₁.drawn = s.drawn := by rw [hs₁]
    have hp : s₁.pairing = s.pairing := by rw [hs₁]
    have hf : s₁.file = s.file := by rw [hs₁]
    have ho : s₁.owner = s.owner := by rw [hs₁]
    exact ⟨ho ▸ h.owner, hd ▸ h.confirmed, hd ▸ hf ▸ h.succeeded, hd ▸ hp ▸ hf ▸ h.failed⟩

/-- What an operation leaves: the reply, the two copies of the pairing, and the
owner as it was. -/
structure Effect.Left (w : Setting) (s : Records) (effect : Effect) (reply : Response)
    (s' : Records) : Prop where
  owner : s'.owner = s.owner
  copies : match effect with
    | .makes p => (∃ text, reply = .ok text) ∧ s'.pairing = some p ∧
      s'.file = if w.saves then some p else s.file
    | .drops => (∃ text, reply = .ok text) ∧ s'.pairing = none ∧
      s'.file = if w.removes then none else s.file
    | .keeps => (∃ text, reply = .ok text) ∧ s'.pairing = s.pairing ∧ s'.file = s.file
    | .fails => ∃ e, reply = .error e

theorem clearLocalPairing_left {text : Str} :
    (w.clearIo.clearLocalPairing.bind fun _ => .ret (.ok text)).Reaches s
      (Effect.Left w s .drops) := by
  refine .act rfl (.act rfl (.ret ⟨?_, ⟨text, rfl⟩, rfl, ?_⟩))
  · cases w.removes <;> rfl
  · cases w.removes <;> rfl

theorem error_left {e : Str} : (Proc.ret (.error e)).Reaches s (Effect.Left w s .fails) :=
  .ret ⟨rfl, e, rfl⟩

theorem clearOwnSlot_left : (w.clearIo.clearOwnSlot slot).Reaches s
    (Effect.Left w s (match w.ack with
      | .ok (first, rest) =>
        if classifySlotClearAck first rest = .refused then .fails else .drops
      | .error _ => .drops)) := by
  show (match w.ack with
    | .ok (first, rest) => _
    | .error _ => _ : Proc Records Response).Reaches s _
  cases w.ack with
  | error e => exact clearLocalPairing_left
  | ok r =>
    dsimp only
    cases classifySlotClearAck r.1 r.2 with
    | cleared => exact clearLocalPairing_left
    | slotUnpaired => exact clearLocalPairing_left
    | refused => exact error_left
    | unrecognised => exact clearLocalPairing_left

theorem clearOtherSlot_left {target : UInt8} : (w.clearIo.clearOtherSlot target).Reaches s
    (Effect.Left w s (if w.gated.isOk then .keeps else .fails)) := by
  refine .bind (R := fun r s' => r = w.gated ∧ s' = s) (.ret ⟨rfl, rfl⟩) ?_
  rintro _ s ⟨rfl, rfl⟩
  cases w.gated with
  | error e => exact error_left
  | ok r => exact .ret ⟨rfl, ⟨_, rfl⟩, rfl, rfl⟩

theorem handleSlotClear_left : (w.clearIo.handleSlotClear slot).Reaches s
    (Effect.Left w s (w.effect ext s.drawn (.slotClear slot))) := by
  refine .bind (R := fun c s' => c = w.connected ∧ s' = s) (.get ⟨rfl, rfl⟩) ?_
  rintro _ s ⟨rfl, rfl⟩
  unfold Setting.effect
  cases w.connected with
  | false =>
    cases slot with
    | none => exact clearLocalPairing_left
    | some => exact error_left
  | true =>
    cases slot with
    | none => exact clearOwnSlot_left
    | some target =>
      rw [if_neg (by decide : ¬(!true) = true)]
      refine .bind (R := fun r s' => s' = s ∧
        r = w.status.map fun answer => parseSlotStatus (answer.1 :: answer.2)) (.ret ⟨rfl, rfl⟩) ?_
      rintro _ s ⟨rfl, rfl⟩
      cases w.status with
      | error e => exact error_left
      | ok r =>
        dsimp only [clearPathAfter, Except.map, Except.toOption, Option.isSome, Option.map, if_true]
        cases resolveClearPath (some target) (parseSlotStatus (r.1 :: r.2)) with
        | own => exact clearOwnSlot_left
        | other target => exact clearOtherSlot_left
        | invalidSlot => exact error_left
        | unsupported => exact error_left

theorem handleFactoryReset_left : (w.clearIo.handleFactoryReset ext).Reaches s
    (Effect.Left w s (w.effect ext s.drawn .factoryReset)) := by
  refine .bind (R := fun c s' => c = w.connected ∧ s' = s) (.get ⟨rfl, rfl⟩) ?_
  rintro _ s ⟨rfl, rfl⟩
  unfold Setting.effect
  cases w.connected with
  | false => exact error_left
  | true =>
    refine .act rfl ?_
    show (match w.gated with
      | .ok (status, _) => _
      | .error e => _ : Proc Records Response).Reaches _ _
    cases w.gated with
    | error e => exact error_left
    | ok r =>
      dsimp only
      split
      · exact clearLocalPairing_left
      · exact error_left

theorem handlePairStart_left (hn : s.confirmed = none) (ht : s.tries = 0) :
    (w.startIo ext).handlePairStart.Reaches s
      (Effect.Left w s (w.effect ext s.drawn .pairStart)) := by
  refine .bind (R := fun c s' => c = w.connected ∧ s' = s) (.get ⟨rfl, rfl⟩) ?_
  rintro _ s ⟨rfl, rfl⟩
  unfold Setting.effect
  cases w.connected with
  | false => exact error_left
  | true =>
    show (if !w.begun then _ else _ : Proc Records Response).Reaches _ _
    cases w.begun with
    | false => exact error_left
    | true =>
      refine .bind (R := fun r' s' => ∃ r, r' = (if w.replies then some (.ble r) else none) ∧
        w.Attempted ext s r s') ?_ ?_
      · exact .bind (doPair_reaches hn ht) fun r s' h => .ret ⟨r, rfl, h⟩
      rintro _ s' ⟨r, rfl, h⟩
      cases w.replies with
      | false => exact .ret ⟨h.owner, _, rfl⟩
      | true =>
        cases hpaired : w.paired ext s.drawn with
        | none =>
          obtain ⟨⟨e, rfl⟩, -⟩ := h.failed hpaired
          exact .ret ⟨h.owner, _, rfl⟩
        | some p =>
          obtain ⟨⟨r, rfl⟩, hp, hf⟩ := h.succeeded p hpaired
          exact .ret ⟨h.owner, ⟨_, rfl⟩, hp, hf⟩

theorem perform_left {op : PairingOp} (hn : s.confirmed = none) (ht : s.tries = 0) :
    (w.perform ext op).Reaches s (Effect.Left w s (w.effect ext s.drawn op)) := by
  cases op with
  | pairStart => exact handlePairStart_left hn ht
  | slotClear slot => exact handleSlotClear_left
  | factoryReset => exact handleFactoryReset_left

/-- Memory and file agree on `x` if it got there or was there. -/
theorem copies_agree {x old memory file : Option PairingData} {b : Bool} (hm : memory = x)
    (hf : file = if b then x else old) : memory = file ↔ b = true ∨ old = x := by
  rw [hm, hf]
  cases b with
  | true => simp
  | false => simp [eq_comm]

/-- A success says that the two copies agree. -/
theorem lasting_ok {text : Str} : Lasting (.ok text) s ↔ s.pairing = s.file :=
  ⟨fun h => h text rfl, fun h _ _ => h⟩

theorem Effect.Left.lasting {effect : Effect} {reply : Response} {s' : Records}
    (h : effect.Left w s reply s') : Lasting reply s' ↔ effect.Recorded w s.pairing s.file := by
  obtain ⟨-, h⟩ := h
  cases effect with
  | makes p =>
    obtain ⟨⟨text, rfl⟩, hp, hf⟩ := h
    exact lasting_ok.trans (copies_agree hp hf)
  | drops =>
    obtain ⟨⟨text, rfl⟩, hp, hf⟩ := h
    exact lasting_ok.trans (copies_agree hp hf)
  | keeps =>
    obtain ⟨⟨text, rfl⟩, hp, hf⟩ := h
    rw [lasting_ok, hp, hf]
    rfl
  | fails =>
    obtain ⟨e, rfl⟩ := h
    exact iff_of_true (fun _ h => nomatch h) trivial

theorem perform_lasting {op : PairingOp} (hn : s.confirmed = none) (ht : s.tries = 0) :
    (w.perform ext op).Reaches s fun reply s' =>
      Lasting reply s' ↔ (w.effect ext s.drawn op).Recorded w s.pairing s.file :=
  (perform_left hn ht).mono fun _ _ h => h.lasting

/-- A failed attempt leaves a key on the device just if the device has committed one. -/
theorem doPair_unclaimed (hn : s.confirmed = none) (ht : s.tries = 0) :
    ((w.pairIo ext).doPair ext).Reaches s fun result s' =>
      Unclaimed result s' ↔ w.paired ext s.drawn = none → w.committed ext s.drawn = none := by
  refine (doPair_reaches hn ht).mono fun result s' h => ?_
  cases hpaired : w.paired ext s.drawn with
  | none =>
    obtain ⟨⟨e, rfl⟩, -⟩ := h.failed hpaired
    exact ⟨fun hu _ => h.confirmed.symm.trans (hu e rfl),
      fun hc _ _ => h.confirmed.trans (hc rfl)⟩
  | some p =>
    obtain ⟨⟨r, rfl⟩, -⟩ := h.succeeded p hpaired
    exact iff_of_true (fun _ h => nomatch h) fun h => nomatch h

end

/-- Before an operation. -/
def Records.before (pairing file : Option PairingData) (owner : Option Str) (drawn : Nat) :
    Records :=
  { pairing, file, owner, confirmed := none, tries := 0, drawn }

/-- Whatever fails: an operation that succeeds lasts just if its file operation
did what it was to do, and an attempt that fails leaves no key on the device
unless the device committed one and its answer was lost or led to no key. -/
theorem pairing_lasts_iff {w : Setting} {ext : Extern} {op : PairingOp}
    {pairing file : Option PairingData} {owner : Option Str} {drawn : Nat} :
    ((w.perform ext op).Reaches (.before pairing file owner drawn) fun reply s' =>
      Lasting reply s' ↔ (w.effect ext drawn op).Recorded w pairing file) ∧
    ((w.pairIo ext).doPair ext).Reaches (.before pairing file owner drawn) fun result s' =>
      Unclaimed result s' ↔ w.paired ext drawn = none → w.committed ext drawn = none :=
  ⟨perform_lasting rfl rfl, doPair_unclaimed rfl rfl⟩

/-- A disk on which nothing can be changed, and a device that commits the key
and whose answer is lost. -/
def Setting.faulty : Setting where
  connected := true
  status := .error "BLE response timeout"
  ack := .ok (cmdSlotClear, [rspOk])
  gated := .error "BLE response timeout"
  begun := true
  slots := .error "BLE response timeout"
  init _ := .answered (cmdPairInit :: List.replicate compressedPubkeyLen 2)
  commits := true
  confirm := .error "BLE response timeout"
  replies := true
  now := 0
  saves := false
  removes := false

/-- A cleared pairing is still on disk, and a failed attempt has left its key on
the device. -/
theorem cleared_comes_back :
    ((Setting.faulty.perform .sample (.slotClear none)).Reaches
      (.before (some ⟨"d", [], "1Z"⟩) (some ⟨"d", [], "1Z"⟩) none 0) fun reply s' =>
        ¬Lasting reply s' ∧ decide (s'.pairing = none ∧ s'.file = some ⟨"d", [], "1Z"⟩) = true) ∧
    ((Setting.faulty.pairIo .sample).doPair .sample).Reaches (.before none none none 0)
      fun result s' => ¬Unclaimed result s' ∧ decide (s'.confirmed.isSome) = true := by
  constructor
  · refine .follow [0, 0, 0] (perform_lasting rfl rfl |>.mono fun _ _ h hl => ?_) (by decide)
    obtain hr | hf : Effect.Recorded .faulty _ _ .drops := h.mp hl
    · exact nomatch hr
    · exact nomatch hf
  · refine .follow [0, 0, 0, 0] (doPair_unclaimed rfl rfl |>.mono fun _ _ h hu => ?_) (by decide)
    exact absurd (h.mp hu (by decide)) (by decide)

end Immurok
