import Immurok.Client.Values
import Immurok.Daemon.GatedReply

/-!
# Giving up a pairing

`SLOT:CLEAR` and `PAIR:FACTORY_RESET` over what they use of the daemon,
`ClearIo`, against a device that answers anything, whatever slot it has
switched to since it was asked.
-/

namespace Immurok

open Async

variable {σ : Type}

/-- What the handlers use: `send` is `ble_send`, `sendGated` the one that waits
for a touch, `removePairing` deletes the file and says nothing of it. -/
structure ClearIo (σ : Type) where
  connected : Proc σ Bool
  pairing : Proc σ (Option PairingData)
  send : UInt8 → Bytes → Proc σ BleResult
  sendGated : UInt8 → Bytes → Proc σ BleResult
  removePairing : Proc σ Unit
  setPairing : Option PairingData → Proc σ Unit
  setVerified : Bool → Proc σ Unit
  setChallengeVerified : Bool → Proc σ Unit

namespace ClearIo

def clearLocalPairing (io : ClearIo σ) : Proc σ Unit := do
  io.removePairing
  io.setPairing none
  io.setVerified false
  io.setChallengeVerified false

def querySlotStatus (io : ClearIo σ) : Proc σ (Except Str SlotStatus) := do
  let answer ← io.send cmdSlotStatus []
  pure (answer.map fun (first, rest) => parseSlotStatus (first :: rest))

def clearOwnSlot (io : ClearIo σ) (target : Option UInt8) : Proc σ Response := do
  match ← io.send cmdSlotClear target.toList with
  | .ok (first, rest) =>
    match classifySlotClearAck first rest with
    | .cleared => do
      io.clearLocalPairing
      pure (.ok "CLEARED")
    | .slotUnpaired => do
      io.clearLocalPairing
      pure (.ok "CLEARED_SLOT_UNPAIRED")
    | .refused => pure (.error "SLOT_CLEAR_REFUSED")
    | .unrecognised => do
      io.clearLocalPairing
      pure (.ok "CLEARED_UNCONFIRMED")
  | .error _ => do
    io.clearLocalPairing
    pure (.ok "CLEARED_UNCONFIRMED")

def clearOtherSlot (io : ClearIo σ) (target : UInt8) : Proc σ Response := do
  match ← io.sendGated cmdSlotClear [target] with
  | .ok _ => pure (.ok "CLEARED")
  | .error e => pure (.error ("SLOT_CLEAR_FAILED:".toList ++ e))

def clearOffline (io : ClearIo σ) (slot : Option UInt8) : Proc σ Response :=
  match slot with
  | none => do
    io.clearLocalPairing
    pure (.ok "CLEARED_LOCAL_ONLY")
  | some _ => pure (.error "NOT_CONNECTED")

def slotStatusFor (io : ClearIo σ) (slot : Option UInt8) : Proc σ (Except Str SlotStatus) :=
  if slot.isSome then io.querySlotStatus else pure (.ok .unsupported)

def handleSlotClear (io : ClearIo σ) (slot : Option UInt8) : Proc σ Response := do
  let connected ← io.connected
  if !connected then io.clearOffline slot
  else do
    match ← io.slotStatusFor slot with
    | .error e => pure (.error ("SLOT_STATUS_FAILED:".toList ++ e))
    | .ok status =>
      match resolveClearPath slot status with
      | .own => io.clearOwnSlot slot
      | .other target => io.clearOtherSlot target
      | .invalidSlot => pure (.error "INVALID_SLOT")
      | .unsupported => pure (.error "DUAL_HOST_UNSUPPORTED")

def handleFactoryReset (io : ClearIo σ) (ext : Extern) : Proc σ Response := do
  let connected ← io.connected
  if !connected then pure (.error "NOT_CONNECTED")
  else do
    let pairing ← io.pairing
    let payload := (pairing.map fun p => computeResetHmac ext p.sharedKey).getD []
    match ← io.sendGated cmdFactoryReset payload with
    | .ok (status, _) =>
      if status = rspOk ∨ status = rspFpGateApproved then do
        io.clearLocalPairing
        pure (.ok "RESET")
      else pure (.error ("FACTORY_RESET_FAILED:0x".toList ++ Str.hexByte status))
    | .error e => pure (.error ("FACTORY_RESET_FAILED:".toList ++ e))

end ClearIo

/-- The daemon's own, for connection `i`. -/
def clearIo (i : TaskId) : ClearIo Daemon where
  connected := load (·.isConnected)
  pairing := load (·.pairing)
  send := bleSend i
  sendGated := bleSendFpGated i
  removePairing := do
    let removed ← Proc.choose [true, false]
    Proc.when removed (Proc.modify fun s => { s with files := { s.files with pairing := none } })
  setPairing := setPairing i
  setVerified := setVerified i
  setChallengeVerified b := store fun c => { c with challengeVerified := b }

theorem clearLocalPairing_eq {i : TaskId} :
    clearLocalPairing i = (clearIo i).clearLocalPairing := by
  refine congrArg (Proc.act _) (funext fun removed => ?_)
  cases removed <;> rfl

theorem handleSlotClear_eq {i : TaskId} {slot : Option UInt8} :
    handleSlotClear i slot = (clearIo i).handleSlotClear slot := by
  have own {target : Option UInt8} : clearOwnSlot i target = (clearIo i).clearOwnSlot target := by
    unfold clearOwnSlot
    rw [clearLocalPairing_eq]
    rfl
  have offline : clearOffline i slot = (clearIo i).clearOffline slot := by
    unfold clearOffline
    rw [clearLocalPairing_eq]
    rfl
  unfold handleSlotClear
  simp only [own, offline]
  rfl

theorem handleFactoryReset_eq {ext : Extern} {i : TaskId} :
    handleFactoryReset ext i = (clearIo i).handleFactoryReset ext := by
  unfold handleFactoryReset
  rw [clearLocalPairing_eq]
  rfl

-- ---------------------------------------------------------------------------
-- The device
-- ---------------------------------------------------------------------------

/-- What the device has said of the clear. The answer about the slot it presents
names the command, `[0x3C][status]`; about the other slot it says `[0x11]`,
and a status alone after the touch. -/
inductive Said
  | nothing
  | cleared
  | otherCleared
  | slotUnpaired
  | refused
  | waits
  | unclear
  deriving DecidableEq

def saidBy : Bytes → Said
  | [] => .unclear
  | first :: rest =>
    if first = rspWaitFp then .waits
    else if first ≠ cmdSlotClear then .unclear
    else
      match rest with
      | [] => .unclear
      | status :: _ =>
        if status = rspOk then .cleared
        else if status = rspErrNotPaired then .slotUnpaired
        else .refused

/-- How the gated command ends: without an answer, by a timeout or a cancel, or
with a last frame, a status alone unless the device took the other path. -/
inductive GatedEnd
  | lost (e : Str)
  | ends {status : UInt8} {payload answer : Bytes} {frames : List Bytes} :
    EndsWith status payload answer frames → GatedEnd

def GatedEnd.said : GatedEnd → Said
  | .lost _ => .nothing
  | @ends status payload _ _ _ =>
    if status = rspOk then .otherCleared else saidBy (status :: payload)

/-- What the caller gets; a wait that nothing ends times out. -/
def GatedEnd.result : GatedEnd → BleResult
  | .lost e => .error e
  | @ends _ _ answer frames _ =>
    (gatedReply cmdSlotClear answer frames).getD (.error "FP-gate timeout")

/-- The device clears the slot it presents, as it was asked for by now. -/
def GatedEnd.ownAck : GatedEnd → Prop
  | .lost _ => False
  | @ends status payload _ _ _ => saidBy (status :: payload) = .cleared

/-- What a request meets: the answers to `SLOT_STATUS` and to `SLOT_CLEAR` on
either path, with no relation between them. -/
structure Meeting where
  connected : Bool
  status : BleResult
  ack : BleResult
  gated : GatedEnd

/-- This host's record of the pairing, and what it has heard. -/
structure LocalRecord where
  pairing : Option PairingData
  verified : Bool
  challengeVerified : Bool
  heard : Said

def saidIn : BleResult → Said
  | .ok (first, rest) => saidBy (first :: rest)
  | .error _ => .nothing

def meetingIo (w : Meeting) : ClearIo LocalRecord where
  connected := .get fun _ => w.connected
  pairing := .get (·.pairing)
  send cmd _ := .atomically fun s =>
    if cmd = cmdSlotStatus then (w.status, s) else (w.ack, { s with heard := saidIn w.ack })
  sendGated _ _ := .atomically fun s => (w.gated.result, { s with heard := w.gated.said })
  removePairing := pure ()
  setPairing p := .modify fun s => { s with pairing := p }
  setVerified b := .modify fun s => { s with verified := b }
  setChallengeVerified b := .modify fun s => { s with challengeVerified := b }

-- ---------------------------------------------------------------------------
-- What the answer says
-- ---------------------------------------------------------------------------

/-- Nothing is left of the pairing. -/
def LocalRecord.Dropped (s : LocalRecord) : Prop :=
  s.pairing = none ∧ s.verified = false ∧ s.challengeVerified = false

instance {s : LocalRecord} : Decidable s.Dropped := inferInstanceAs (Decidable (_ ∧ _))

/-- The pairing is as it was. -/
def LocalRecord.Kept (s s' : LocalRecord) : Prop :=
  s'.pairing = s.pairing ∧ s'.verified = s.verified ∧ s'.challengeVerified = s.challengeVerified

/-- What an outcome tells the user. -/
def UnpairOutcome.Means (connected : Bool) (s s' : LocalRecord) : UnpairOutcome → Prop
  | .cleared => s'.heard = .cleared ∧ s'.Dropped ∨ s'.heard = .otherCleared ∧ s.Kept s'
  | .clearedUnconfirmed => (s'.heard = .nothing ∨ s'.heard = .unclear) ∧ s'.Dropped
  | .clearedLocalOnly => connected = false ∧ s'.Dropped
  | .clearedSlotUnpaired => s'.heard = .slotUnpaired ∧ s'.Dropped
  | .refused => s'.heard = .refused ∧ s.Kept s'
  | .failed => s'.heard ≠ .cleared ∧ s'.heard ≠ .otherCleared ∧ s.Kept s'

/-- The pairing is only dropped when this host's slot was cleared or is unpaired
or there is no telling, and the client is told what happened. -/
structure ClearSound (w : Meeting) (s : LocalRecord) (reply : Response) (s' : LocalRecord) :
    Prop where
  licensed : ¬s.Kept s' → s'.heard = .cleared ∨ s'.heard = .slotUnpaired ∨
    s'.heard = .nothing ∨ s'.heard = .unclear
  reported : (classifyUnpairResponse (serializeResponse reply)).Means w.connected s s'

/-- The path that a request takes after this answer to `SLOT_STATUS`, if it gets
that far. -/
def clearPathAfter (status : BleResult) (slot : Option UInt8) : Option ClearPath :=
  if slot.isSome then
    status.toOption.map fun (first, rest) => resolveClearPath slot (parseSlotStatus (first :: rest))
  else some .own

/-- The device took the other path. -/
def Meeting.CrossedOn (w : Meeting) : ClearPath → Prop
  | .own => saidIn w.ack = .waits
  | .other _ => w.gated.ownAck
  | _ => False

def Meeting.Crossed (w : Meeting) (slot : Option UInt8) : Prop :=
  w.connected = true ∧ ∃ path, clearPathAfter w.status slot = some path ∧ w.CrossedOn path

-- ---------------------------------------------------------------------------
-- The handler
-- ---------------------------------------------------------------------------

/-- An error with a detail is a failure, whatever the detail. -/
theorem classify_detail {kind detail : Str} (hk : ':' ∉ kind)
    (hne : kind ≠ "SLOT_CLEAR_REFUSED".toList) :
    classifyUnpairResponse ("ERROR:".toList ++ (kind ++ ':' :: detail)) = .failed := by
  have hhead : ("ERROR:".toList ++ (kind ++ ':' :: detail)).dropWhile Str.isWhitespace =
      "ERROR:".toList ++ (kind ++ ':' :: detail) := List.dropWhile_cons_of_neg (by decide)
  have htrim : Str.trim ("ERROR:".toList ++ (kind ++ ':' :: detail)) =
      "ERROR:".toList ++ (kind ++ ':' :: Str.trimEnd detail) := by
    rw [Str.trim, Str.trimMatches, hhead, ← List.append_assoc, ← List.append_assoc]
    exact Str.trimEndMatches_append (by decide)
  have herror : ':' ∉ "ERROR".toList := by decide
  have hsplit : ("ERROR:".toList ++ (kind ++ ':' :: Str.trimEnd detail)).splitOn ':' =
      "ERROR".toList :: kind :: (Str.trimEnd detail).splitOn ':' :=
    (List.splitOn_append_cons_self_of_not_mem herror _).trans
      (congrArg _ (List.splitOn_append_cons_self_of_not_mem hk _))
  rw [classifyUnpairResponse, htrim, hsplit]
  dsimp only
  rw [if_neg (by decide), if_neg fun h => hne h.2]

/-- A frame of the device's own tells of nothing but itself. -/
theorem saidBy_ne {frame : Bytes} : saidBy frame ≠ .otherCleared ∧ saidBy frame ≠ .nothing := by
  unfold saidBy
  split
  · decide
  · split
    · decide
    · split
      · decide
      · split
        · decide
        · split
          · decide
          · split <;> decide

theorem GatedEnd.ownAck_iff {g : GatedEnd} : g.ownAck ↔ g.said = .cleared := by
  cases g with
  | lost e => exact ⟨False.elim, fun h => nomatch h⟩
  | @ends status payload answer frames h =>
    have hsaid : (ends h).said =
        if status = rspOk then .otherCleared else saidBy (status :: payload) := rfl
    rw [hsaid]
    split
    next hok =>
      refine ⟨fun hown => ?_, fun hc => nomatch hc⟩
      have : saidBy (status :: payload) = .cleared := hown
      unfold saidBy at this
      dsimp only at this
      rw [hok, if_neg (by decide), if_pos (by decide)] at this
      cases this
    next => exact Iff.rfl

theorem gateEnd_error {status : UInt8} (h : status ≠ rspOk) :
    ∃ e, ((gateEnd status).map gateFailure).getD (.error "FP-gate timeout") = .error e := by
  unfold gateEnd
  split
  · exact ⟨_, rfl⟩
  · split <;> exact ⟨_, rfl⟩

/-- The gated command succeeds just if the last frame is an OK. -/
theorem GatedEnd.result_said (g : GatedEnd) :
    (∃ r, g.result = .ok r) ∧ g.said = .otherCleared ∨
      (∃ e, g.result = .error e) ∧ g.said ≠ .otherCleared := by
  cases g with
  | lost e => exact .inr ⟨⟨e, rfl⟩, fun h => nomatch h⟩
  | @ends status payload answer frames h =>
    have hsaid : (ends h).said =
        if status = rspOk then .otherCleared else saidBy (status :: payload) := rfl
    have hresult : (ends h).result =
        (gatedReply cmdSlotClear answer frames).getD (.error "FP-gate timeout") := rfl
    rw [hsaid, hresult]
    by_cases hok : status = rspOk
    · subst hok
      rw [if_pos rfl]
      refine .inl ⟨?_, rfl⟩
      cases h with
      | immediate => exact ⟨_, rfl⟩
      | touch hfirst hmids htries hfinal hlast =>
        rw [gatedReply_touch hfirst hmids htries hfinal hlast]
        exact ⟨_, rfl⟩
    · rw [if_neg hok]
      refine .inr ⟨?_, saidBy_ne.1⟩
      cases h with
      | immediate hmore =>
        rw [gatedReply, if_neg hok, if_neg (by rw [hmore]; decide)]
        exact ⟨_, rfl⟩
      | touch hfirst hmids htries hfinal hlast =>
        rw [gatedReply_touch hfirst hmids htries hfinal hlast]
        exact gateEnd_error hok

section
variable {w : Meeting} {s : LocalRecord} {slot : Option UInt8}

theorem clearLocalPairing_reaches : (meetingIo w).clearLocalPairing.Reaches s fun _ s' =>
    s'.Dropped ∧ s'.heard = s.heard := by
  refine .bind (R := fun _ s' => s'.heard = s.heard) (.ret rfl) fun _ s₁ h₁ => ?_
  refine .bind (R := fun _ s' => s'.heard = s.heard ∧ s'.pairing = none) (.modify ⟨h₁, rfl⟩)
    fun _ s₂ h₂ => ?_
  refine .bind (R := fun _ s' => s'.heard = s.heard ∧ s'.pairing = none ∧ s'.verified = false)
    (.modify ⟨h₂.1, h₂.2, rfl⟩) fun _ s₃ h₃ => ?_
  exact .modify ⟨⟨h₃.2.1, h₃.2.2, rfl⟩, h₃.1⟩

/-- A frame is taken for what it says, but for a wait. -/
theorem classify_said {first : UInt8} {rest : Bytes} : classifySlotClearAck first rest =
    match saidBy (first :: rest) with
    | .cleared => .cleared
    | .slotUnpaired => .slotUnpaired
    | .refused => .refused
    | _ => .unrecognised := by
  unfold classifySlotClearAck saidBy
  dsimp only
  by_cases hw : first = rspWaitFp
  · rw [if_pos hw, hw, if_pos (by decide)]
  · rw [if_neg hw]
    split
    · rfl
    · cases rest with
      | nil => rfl
      | cons status rest =>
        dsimp only
        split
        · rfl
        · split <;> rfl

/-- The pairing is dropped, and the client told so. -/
theorem drop_reaches {text : Str} {s₁ : LocalRecord} {p : Prop}
    (h : ∀ s' : LocalRecord, s'.Dropped → s'.heard = s₁.heard →
      (ClearSound w s (.ok text) s' ↔ p)) :
    ((meetingIo w).clearLocalPairing.bind fun _ => .ret (.ok text)).Reaches s₁ fun reply s' =>
      ClearSound w s reply s' ↔ p :=
  .bind clearLocalPairing_reaches fun _ s' hs' => .ret (h s' hs'.1 hs'.2)

/-- A dropped pairing is sound if the device's answer licenses it and the reply says it. -/
theorem dropped_sound {text : Str} {s' : LocalRecord} (outcome : UnpairOutcome)
    (htext : classifyUnpairResponse (serializeResponse (.ok text)) = outcome)
    (hl : s'.heard = .cleared ∨ s'.heard = .slotUnpaired ∨ s'.heard = .nothing ∨
      s'.heard = .unclear) (hm : outcome.Means w.connected s s') :
    ClearSound w s (.ok text) s' :=
  ⟨fun _ => hl, htext ▸ hm⟩

/-- A kept pairing is sound if the reply says what happened. -/
theorem kept_sound {reply : Response} {s' : LocalRecord} (outcome : UnpairOutcome)
    (hk : s.Kept s') (htext : classifyUnpairResponse (serializeResponse reply) = outcome)
    (hm : outcome.Means w.connected s s') : ClearSound w s reply s' :=
  ⟨fun h => absurd hk h, htext ▸ hm⟩

theorem clearOwnSlot_reaches : ((meetingIo w).clearOwnSlot slot).Reaches s fun reply s' =>
    ClearSound w s reply s' ↔ saidIn w.ack ≠ .waits := by
  refine .bind (R := fun r s' => r = w.ack ∧ s' = { s with heard := saidIn w.ack })
    (.atomically ⟨rfl, rfl⟩) ?_
  rintro _ s₁ ⟨rfl, hs₁⟩
  have heard : s₁.heard = saidIn w.ack := by rw [hs₁]
  have kept : s.Kept s₁ := by rw [hs₁]; exact ⟨rfl, rfl, rfl⟩
  cases hack : w.ack with
  | error e =>
    rw [hack] at heard
    refine drop_reaches fun s' hd hh => iff_of_true ?_ (by rintro ⟨⟩)
    have hn : s'.heard = .nothing := hh.trans heard
    exact dropped_sound .clearedUnconfirmed (by decide) (.inr (.inr (.inl hn))) ⟨.inl hn, hd⟩
  | ok r =>
    obtain ⟨first, rest⟩ := r
    rw [hack] at heard
    show (match classifySlotClearAck first rest with
      | .cleared => _
      | .slotUnpaired => _
      | .refused => _
      | .unrecognised => _ : Proc LocalRecord Response).Reaches s₁ _
    rw [classify_said]
    cases hsaid : saidBy (first :: rest) with
    | cleared =>
      refine drop_reaches fun s' hd hh => iff_of_true ?_ (by simp [saidIn, hsaid])
      have hn : s'.heard = .cleared := (hh.trans heard).trans hsaid
      exact dropped_sound .cleared (by decide) (.inl hn) (.inl ⟨hn, hd⟩)
    | slotUnpaired =>
      refine drop_reaches fun s' hd hh => iff_of_true ?_ (by simp [saidIn, hsaid])
      have hn : s'.heard = .slotUnpaired := (hh.trans heard).trans hsaid
      exact dropped_sound .clearedSlotUnpaired (by decide) (.inr (.inl hn)) ⟨hn, hd⟩
    | refused =>
      refine .ret (iff_of_true ?_ (by simp [saidIn, hsaid]))
      exact kept_sound .refused kept (by decide) ⟨heard.trans hsaid, kept⟩
    | unclear =>
      refine drop_reaches fun s' hd hh => iff_of_true ?_ (by simp [saidIn, hsaid])
      have hn : s'.heard = .unclear := (hh.trans heard).trans hsaid
      exact dropped_sound .clearedUnconfirmed (by decide) (.inr (.inr (.inr hn))) ⟨.inr hn, hd⟩
    | waits =>
      -- the pairing is dropped although the device waits for a touch
      refine drop_reaches fun s' hd hh => iff_of_false (fun h => ?_) (by simp [saidIn, hsaid])
      have hn : s'.heard = .waits := (hh.trans heard).trans hsaid
      have htext : classifyUnpairResponse
          (serializeResponse (.ok "CLEARED_UNCONFIRMED".toList)) = .clearedUnconfirmed := by decide
      have hm := h.reported
      rw [htext] at hm
      obtain ⟨hm | hm, -⟩ := hm
      · exact nomatch hn.symm.trans hm
      · exact nomatch hn.symm.trans hm
    | nothing => exact absurd hsaid saidBy_ne.2
    | otherCleared => exact absurd hsaid saidBy_ne.1

theorem clearOtherSlot_reaches {target : UInt8} :
    ((meetingIo w).clearOtherSlot target).Reaches s fun reply s' =>
      ClearSound w s reply s' ↔ ¬w.gated.ownAck := by
  refine .bind (R := fun r s' => r = w.gated.result ∧ s' = { s with heard := w.gated.said })
    (.atomically ⟨rfl, rfl⟩) ?_
  rintro _ s₁ ⟨rfl, hs₁⟩
  have heard : s₁.heard = w.gated.said := by rw [hs₁]
  have kept : s.Kept s₁ := by rw [hs₁]; exact ⟨rfl, rfl, rfl⟩
  rw [GatedEnd.ownAck_iff]
  obtain ⟨⟨r, hr⟩, hsaid⟩ | ⟨⟨e, he⟩, hsaid⟩ := w.gated.result_said
  · rw [hr]
    have hn : s₁.heard = .otherCleared := heard.trans hsaid
    refine .ret (iff_of_true ?_ fun h => nomatch hsaid.symm.trans h)
    exact kept_sound .cleared kept (by decide) (.inr ⟨hn, kept⟩)
  · rw [he]
    have hfailed : classifyUnpairResponse
        (serializeResponse (.error ("SLOT_CLEAR_FAILED:".toList ++ e))) = .failed :=
      @classify_detail "SLOT_CLEAR_FAILED".toList e (by decide) (by decide)
    refine .ret ⟨fun h hown => ?_, fun hown => ?_⟩
    · -- this host's slot was cleared, and the client is told of a failure
      have hm := h.reported
      rw [hfailed] at hm
      exact hm.1 (heard.trans hown)
    · exact kept_sound .failed kept hfailed ⟨fun h => hown (heard.symm.trans h),
        fun h => hsaid (heard.symm.trans h), kept⟩

/-- A request that stops before the clear leaves everything as it is. -/
theorem stopped_sound {reply : Response} (hs : s.heard = .nothing)
    (hreply : classifyUnpairResponse (serializeResponse reply) = .failed) :
    ClearSound w s reply s :=
  kept_sound .failed ⟨rfl, rfl, rfl⟩ hreply
    ⟨by rw [hs]; decide, by rw [hs]; decide, rfl, rfl, rfl⟩

theorem clearOffline_reaches (hc : w.connected = false) (hs : s.heard = .nothing) :
    ((meetingIo w).clearOffline slot).Reaches s fun reply s' => ClearSound w s reply s' := by
  cases slot with
  | none =>
    refine .bind clearLocalPairing_reaches fun _ s' hs' => .ret ?_
    have hn : s'.heard = .nothing := hs'.2.trans hs
    exact dropped_sound .clearedLocalOnly (by decide) (.inr (.inr (.inl hn))) ⟨hc, hs'.1⟩
  | some => exact .ret (stopped_sound hs (by decide))

/-- The status is asked for where a slot was named, and changes nothing. -/
theorem slotStatusFor_reaches : ((meetingIo w).slotStatusFor slot).Reaches s fun r s' =>
    s' = s ∧ r = if slot.isSome then
      w.status.map fun (first, rest) => parseSlotStatus (first :: rest) else .ok .unsupported := by
  unfold ClearIo.slotStatusFor
  split
  · exact .bind (R := fun r s' => r = w.status ∧ s' = s) (.atomically ⟨rfl, rfl⟩)
      fun _ _ h => .ret ⟨h.2, by rw [h.1]⟩
  · exact .ret ⟨rfl, rfl⟩

/-- What the request comes to, once the status is known. -/
theorem clearPath_reaches {status : SlotStatus} (hs : s.heard = .nothing) :
    (match resolveClearPath slot status with
      | .own => (meetingIo w).clearOwnSlot slot
      | .other target => (meetingIo w).clearOtherSlot target
      | .invalidSlot => .ret (.error "INVALID_SLOT".toList)
      | .unsupported => .ret (.error "DUAL_HOST_UNSUPPORTED".toList)).Reaches s fun reply s' =>
      ClearSound w s reply s' ↔ ¬w.CrossedOn (resolveClearPath slot status) := by
  cases resolveClearPath slot status with
  | own => exact clearOwnSlot_reaches
  | other target => exact clearOtherSlot_reaches
  | invalidSlot => exact .ret (iff_of_true (stopped_sound hs (by decide)) id)
  | unsupported => exact .ret (iff_of_true (stopped_sound hs (by decide)) id)

/-- The path of a request with an answer about the slots. -/
theorem crossed_iff {path : ClearPath} (hc : w.connected = true)
    (hpath : clearPathAfter w.status slot = some path) :
    w.Crossed slot ↔ w.CrossedOn path := by
  refine ⟨?_, fun h => ⟨hc, path, hpath, h⟩⟩
  rintro ⟨-, path', hpath', h⟩
  cases hpath.symm.trans hpath'
  exact h

/-- Whatever the device answers, and whatever it has switched to since it was
asked: the clear is sound unless the device took the other path. -/
theorem handleSlotClear_reaches (hs : s.heard = .nothing) :
    ((meetingIo w).handleSlotClear slot).Reaches s fun reply s' =>
      ClearSound w s reply s' ↔ ¬w.Crossed slot := by
  refine .bind (R := fun c s' => c = w.connected ∧ s' = s) (.get ⟨rfl, rfl⟩) ?_
  rintro _ _ ⟨rfl, rfl⟩
  cases hc : w.connected with
  | false =>
    refine (clearOffline_reaches hc hs).mono fun _ _ h => iff_of_true h fun hx => ?_
    exact nomatch hc.symm.trans hx.1
  | true =>
    refine .bind slotStatusFor_reaches ?_
    rintro _ _ ⟨rfl, rfl⟩
    cases slot with
    | none =>
      rw [crossed_iff hc rfl]
      exact @clearPath_reaches w _ none .unsupported hs
    | some target =>
      cases hstatus : w.status with
      | error e =>
        refine .ret (iff_of_true (stopped_sound hs ?_) ?_)
        · exact @classify_detail "SLOT_STATUS_FAILED".toList e (by decide) (by decide)
        · rintro ⟨-, path, hpath, -⟩
          rw [clearPathAfter, hstatus] at hpath
          exact nomatch hpath
      | ok r =>
        rw [crossed_iff hc (by rw [clearPathAfter, hstatus]; rfl)]
        exact @clearPath_reaches w _ (some target) (parseSlotStatus (r.1 :: r.2)) hs

end

/-- For a device that has said nothing of the clear yet. -/
theorem slotClear_sound_iff {w : Meeting} {s : LocalRecord} {slot : Option UInt8} :
    ((meetingIo w).handleSlotClear slot).Reaches { s with heard := .nothing } fun reply s' =>
      ClearSound w s reply s' ↔ ¬w.Crossed slot :=
  (handleSlotClear_reaches rfl).mono fun _ _ h => ⟨fun hc => h.mp ⟨hc.licensed, hc.reported⟩,
    fun hc => ⟨(h.mpr hc).licensed, (h.mpr hc).reported⟩⟩

/-- Slot 1 was active when the device was asked, and slot 2 when it was told to
clear slot 1: it waits for a touch. -/
def Meeting.switched : Meeting :=
  { connected := true, status := .ok (cmdSlotStatus, [rspOk, 3, slot1]),
    ack := .ok (rspWaitFp, []), gated := .lost "timeout" }

def LocalRecord.paired : LocalRecord :=
  { pairing := some ⟨"d", List.replicate 32 0, "1Z"⟩, verified := true, challengeVerified := true,
    heard := .nothing }

/-- The pairing is gone, on an answer that says the clear is not done. -/
theorem slotClear_drops_waiting :
    ((meetingIo .switched).handleSlotClear (some slot1)).Reaches .paired fun reply s' =>
      ¬ClearSound .switched .paired reply s' ∧
        (decide (s'.Dropped ∧ s'.heard = .waits ∧ reply = .ok "CLEARED_UNCONFIRMED")) = true := by
  refine .follow [0, 0, 0, 0, 0, 0] ?_ (by decide)
  refine (handleSlotClear_reaches rfl).mono fun _ _ h hs => ?_
  exact h.mp hs ⟨rfl, .own, by decide, (by decide : saidIn Meeting.switched.ack = .waits)⟩

end Immurok
