import Immurok.Protocol

/-!
# Two host slots

How the daemon reads the device's answers about its host slots and the events
of its pairing button.
-/

namespace Immurok

/-- Slot occupancy as reported by `cmdSlotStatus`; `active` is 1 or 2. -/
inductive SlotStatus
  | supported (bitmap active : UInt8)
  | unsupported
  deriving DecidableEq

/-- Pairing now would enroll this machine as the second host. -/
def SlotStatus.isSecondHost : SlotStatus → Bool
  | .supported bitmap active => bitmap != 0 && bitmap &&& (1 <<< (active - 1)) == 0
  | .unsupported => false

/-- The answer `[0x39][0x00][bitmap][active]`; anything else is firmware
without host slots. -/
def parseSlotStatus : Bytes → SlotStatus
  | cmd :: status :: bitmap :: active :: _ =>
    if cmd = cmdSlotStatus ∧ status = rspOk ∧ (active = slot1 ∨ active = slot2) then
      .supported (bitmap &&& 0x03) active
    else .unsupported
  | _ => .unsupported

/-- The daemon's answer to `SLOT:STATUS`; nothing if it is none. -/
def parseSlotStatusLine (line : Str) : Option SlotStatus :=
  match (Str.trim line).splitOn ':' with
  | kind :: first :: rest =>
    if kind ≠ "OK".toList then none
    else if first = "UNSUPPORTED".toList then some .unsupported
    else do
      let bitmap ← (Str.parseU8 first).toOption
      let active ← (Str.parseU8 (← rest.head?)).toOption
      if active ≠ slot1 ∧ active ≠ slot2 then none
      else some (.supported (bitmap &&& 0x03) active)
  | _ => none

theorem parseSlotStatusLine_active {line : Str} {bitmap active : UInt8}
    (h : parseSlotStatusLine line = some (.supported bitmap active)) :
    active = slot1 ∨ active = slot2 := by
  unfold parseSlotStatusLine at h
  split at h
  next rest _ =>
    split at h
    next => nomatch h
    next =>
      split at h
      next => nomatch h
      next =>
        obtain ⟨b, -, h⟩ := Option.bind_eq_some_iff.mp h
        obtain ⟨field, -, h⟩ := Option.bind_eq_some_iff.mp h
        obtain ⟨a, -, h⟩ := Option.bind_eq_some_iff.mp h
        split at h
        next => nomatch h
        next hslot =>
          obtain ⟨-, rfl⟩ := SlotStatus.supported.inj (Option.some.inj h)
          exact Decidable.or_iff_not_not_and_not.mpr hslot
  next => nomatch h

/-- The slot of this computer, if the daemon has proved it. -/
def parseSlotOwner (line : Str) : Option UInt8 := do
  let owner ← (Str.parseU8 (← ((Str.trim line).splitOn ':')[3]?)).toOption
  if owner = slot1 ∨ owner = slot2 then some owner else none

inductive ClearPath
  | own
  | other (slot : UInt8)
  | invalidSlot
  | unsupported
  deriving DecidableEq

def resolveClearPath (target : Option UInt8) (status : SlotStatus) : ClearPath :=
  match target with
  | none => .own
  | some slot =>
    if slot ≠ slot1 ∧ slot ≠ slot2 then .invalidSlot
    else
      match status with
      | .supported _ active => if slot = active then .own else .other slot
      | .unsupported => .unsupported

inductive SlotClearAck
  | cleared
  | slotUnpaired
  | refused
  | unrecognised
  deriving DecidableEq

def classifySlotClearAck (first : UInt8) (rest : Bytes) : SlotClearAck :=
  if first ≠ cmdSlotClear then .unrecognised
  else
    match rest with
    | [] => .unrecognised
    | status :: _ =>
      if status = rspOk then .cleared
      else if status = rspErrNotPaired then .slotUnpaired
      else .refused

/-- What a client makes of the answer to `SLOT:CLEAR`. -/
inductive UnpairOutcome
  | cleared
  | clearedUnconfirmed
  | clearedLocalOnly
  | clearedSlotUnpaired
  | refused
  | failed
  deriving DecidableEq

def classifyUnpairResponse (line : Str) : UnpairOutcome :=
  match (Str.trim line).splitOn ':' with
  | kind :: status :: _ =>
    if kind = "OK".toList then
      if status = "CLEARED".toList then .cleared
      else if status = "CLEARED_UNCONFIRMED".toList then .clearedUnconfirmed
      else if status = "CLEARED_LOCAL_ONLY".toList then .clearedLocalOnly
      else if status = "CLEARED_SLOT_UNPAIRED".toList then .clearedSlotUnpaired
      else .failed
    else if kind = "ERROR".toList ∧ status = "SLOT_CLEAR_REFUSED".toList then .refused
    else .failed
  | _ => .failed

inductive PairButtonEvent
  | confirmed
  | fingerprintOk
  | terminal (status : UInt8)
  | ignore
  deriving DecidableEq

def classifyPairButton (status : UInt8) : PairButtonEvent :=
  if status = pairButtonConfirmed then .confirmed
  else if status = pairButtonFpOk then .fingerprintOk
  else if status = pairButtonTimeout ∨ status = pairButtonCancelled then .terminal status
  else .ignore

end Immurok
