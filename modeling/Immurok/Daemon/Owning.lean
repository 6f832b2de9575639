import Immurok.Daemon.Pairing

/-!
# Who owns the device

The owner is put on record by a successful `PAIR:START` and never again. Users
pair, unpair and reset the device one after the other, where every file
operation may fail.
-/

namespace Immurok

open Async

variable {σ : Type}

/-- The owner's file; `write` says nothing of a failure. -/
structure OwnerIo (σ : Type) where
  present : Proc σ Bool
  write : Str → Proc σ Unit

def ownerText (uid : Nat) : Str := Str.ofNat uid ++ "\n".toList

def OwnerIo.recordOwner (io : OwnerIo σ) (uid : Nat) : Proc σ Unit := do
  let present ← io.present
  Proc.when (!present) (io.write (ownerText uid))

def StartIo.pairStart (io : StartIo σ) (owner : OwnerIo σ) (uid : Nat) : Proc σ Response := do
  let response ← io.handlePairStart
  Proc.when (response matches .ok _) (owner.recordOwner uid)
  pure response

/-- The daemon's own, for connection `i`. -/
def ownerIo (i : TaskId) : OwnerIo Daemon where
  present := Proc.get fun s => s.files.owner.isSome
  write text := do
    let written ← Proc.choose [true, false]
    Proc.when written (writeOwner i text)

theorem recordOwner_eq {i : TaskId} {uid : Nat} : recordOwner i uid = (ownerIo i).recordOwner uid :=
  rfl

theorem pairStart_eq {i : TaskId} {peer : Peer} :
    pairStart i peer = (startIo i).pairStart (ownerIo i) peer.uid := rfl

/-- `AUTH` turns the user away. -/
def refusesOwner (ext : Extern) (owner : Option Nat) (user : Str) : Bool :=
  owner.any fun uid => ext.uidOfUser user ≠ some uid

theorem handleAuth_eq {ext : Extern} {i : TaskId} {user service : Str} :
    handleAuth ext i user service = (do
      let owner ← readOwnerFor i
      if refusesOwner ext owner user then pure (.deny "NOT_OWNER")
      else authService ext i service) := rfl

-- ---------------------------------------------------------------------------
-- One request after the other
-- ---------------------------------------------------------------------------

/-- A request of user `uid` with what it meets. `leaves` is what is on disk after
a text was written to the owner's file, `none` if the file could not be made. -/
structure Turn where
  setting : Setting
  leaves : Str → Option Str
  uid : Nat
  op : PairingOp

def Turn.ownerIo (t : Turn) : OwnerIo Records where
  present := .get fun s => s.owner.isSome
  write text := .modify fun s => { s with owner := t.leaves text }

def Turn.serve (t : Turn) (ext : Extern) : Proc Records Response :=
  match t.op with
  | .pairStart => (t.setting.startIo ext).pairStart t.ownerIo t.uid
  | op => t.setting.perform ext op

/-- A new request. -/
def Records.fresh (s : Records) : Records := { s with confirmed := none, tries := 0 }

/-- A reset has succeeded, and no pairing since. -/
def resetAfter (op : PairingOp) (reply : Response) (reset : Bool) : Bool :=
  match op, reply with
  | .factoryReset, .ok _ => true
  | .pairStart, .ok _ => false
  | _, _ => reset

/-- A request with the records before and after it. -/
structure TurnTaken where
  before : Records
  reset : Bool
  turn : Turn
  reply : Response
  after : Records

inductive Turns (ext : Extern) (s₀ : Records) : List TurnTaken → Records → Bool → Prop
  | start : Turns ext s₀ [] s₀ false
  | next {es : List TurnTaken} {s s' : Records} {reset : Bool} {t : Turn} {reply : Response} :
    Turns ext s₀ es s reset → (t.serve ext).Ends s.fresh reply s' →
      Turns ext s₀ (⟨s, reset, t, reply, s'⟩ :: es) s' (resetAfter t.op reply reset)

/-- The owner's file after a pairing. -/
def Turn.ownerAfter (t : Turn) (s : Records) : Option Str :=
  s.owner.or (t.leaves (ownerText t.uid))

section
variable {ext : Extern} {t : Turn} {s s' s₀ : Records} {reply : Response} {p : PairingData}

theorem effect_pairStart {w : Setting} {n : Nat} :
    (∃ p, w.effect ext n .pairStart = .makes p) ∨ w.effect ext n .pairStart = .fails := by
  unfold Setting.effect
  dsimp only
  split
  · cases w.paired ext n with
    | none => exact .inr rfl
    | some p => exact .inl ⟨p, rfl⟩
  · exact .inr rfl

theorem effect_slotClear {w : Setting} {n : Nat} {slot : Option UInt8} :
    w.effect ext n (.slotClear slot) ≠ .makes p := by
  unfold Setting.effect
  dsimp only
  split
  · split <;> exact fun h => nomatch h
  · split
    · split
      · split <;> exact fun h => nomatch h
      · exact fun h => nomatch h
    · split <;> exact fun h => nomatch h
    · exact fun h => nomatch h

theorem effect_factoryReset {w : Setting} {n : Nat} : w.effect ext n .factoryReset ≠ .makes p := by
  unfold Setting.effect
  dsimp only
  split
  · exact fun h => nomatch h
  · split
    · split <;> exact fun h => nomatch h
    · exact fun h => nomatch h

/-- What a request leaves of the pairing and of the owner. -/
structure Turn.Left (t : Turn) (ext : Extern) (s : Records) (reply : Response) (s' : Records) :
    Prop where
  made : ∀ p, t.setting.effect ext s.drawn t.op = .makes p → t.op = .pairStart ∧
    (∃ text, reply = .ok text) ∧ s'.pairing = some p ∧ s'.owner = t.ownerAfter s
  others : (∀ p, t.setting.effect ext s.drawn t.op ≠ .makes p) → s'.owner = s.owner ∧
    (t.op = .pairStart → ∃ e, reply = .error e)
  dropped : t.setting.effect ext s.drawn t.op = .drops → ∃ text, reply = .ok text

theorem recordOwner_reaches : (t.ownerIo.recordOwner t.uid).Reaches s fun _ s' =>
    s' = { s with owner := t.ownerAfter s } := by
  refine .act rfl ?_
  obtain ⟨pairing, file, owner, confirmed, tries, drawn⟩ := s
  cases owner with
  | none => exact .act rfl (.ret rfl)
  | some text => exact .ret rfl

theorem Effect.Left.dropped {w : Setting} {effect : Effect} (h : effect.Left w s reply s')
    (hd : effect = .drops) : ∃ text, reply = .ok text := by
  subst hd
  exact h.copies.1

theorem serve_reaches : (t.serve ext).Reaches s.fresh (t.Left ext s) := by
  have hperform := @perform_left t.setting ext s.fresh t.op rfl rfl
  obtain ⟨w, leaves, uid, op⟩ := t
  cases op with
  | pairStart =>
    refine .bind hperform fun reply s₁ h => ?_
    obtain ⟨ho, h⟩ := h
    obtain ⟨p, hp⟩ | hf := @effect_pairStart ext w s.drawn
    · rw [show w.effect ext s.fresh.drawn .pairStart = .makes p from hp] at h
      obtain ⟨⟨text, rfl⟩, hpair, -⟩ := h
      refine .bind (@recordOwner_reaches ⟨w, leaves, uid, .pairStart⟩ s₁) ?_
      rintro - _ rfl
      refine .ret ⟨fun p' hp' => ?_, fun hn => absurd hp (hn p), fun _ => ⟨text, rfl⟩⟩
      obtain rfl : p = p' := Effect.makes.inj (hp.symm.trans hp')
      refine ⟨rfl, ⟨text, rfl⟩, hpair, ?_⟩
      show s₁.owner.or _ = s.owner.or _
      rw [ho]
      rfl
    · rw [show w.effect ext s.fresh.drawn .pairStart = .fails from hf] at h
      obtain ⟨e, rfl⟩ := h
      exact .ret ⟨fun p hp => (nomatch hf.symm.trans hp), fun _ => ⟨ho, fun _ => ⟨e, rfl⟩⟩,
        fun hd => (nomatch hf.symm.trans hd)⟩
  | slotClear slot =>
    exact hperform.mono fun reply s' h => ⟨fun p hp => absurd hp effect_slotClear,
      fun _ => ⟨h.owner, fun ho => nomatch ho⟩, fun hd => h.dropped hd⟩
  | factoryReset =>
    exact hperform.mono fun reply s' h => ⟨fun p hp => absurd hp effect_factoryReset,
      fun _ => ⟨h.owner, fun ho => nomatch ho⟩, fun hd => h.dropped hd⟩

end

/-- The device and the disk do everything they are asked for. -/
def Setting.smooth : Setting where
  connected := true
  status := .ok (cmdSlotStatus, [rspOk, 1, slot1])
  ack := .ok (cmdSlotClear, [rspOk])
  gated := .ok (rspOk, [rspOk])
  begun := true
  slots := .ok [cmdSlotStatus, rspOk, 0, slot1]
  init _ := .answered (cmdPairInit :: List.replicate compressedPubkeyLen 2)
  commits := true
  confirm := .ok [cmdPairConfirm, rspOk]
  replies := true
  now := 0
  saves := true
  removes := true

def Extern.agreeing : Extern :=
  { Extern.sample with
    ecdhSharedSecret := fun _ _ => .ok []
    deriveSharedKey := fun _ => .ok (List.replicate 32 0) }

def smoothTurn (uid : Nat) (op : PairingOp) : Turn := { setting := .smooth, leaves := some, uid, op }

/-- Another such request. -/
theorem Turns.smooth {s₀ s : Records} {es : List TurnTaken} {reset : Bool} (uid : Nat)
    (op : PairingOp) (h : Turns .agreeing s₀ es s reset) :
    ∃ reply s', (smoothTurn uid op).Left .agreeing s reply s' ∧
      Turns .agreeing s₀ (⟨s, reset, smoothTurn uid op, reply, s'⟩ :: es) s'
        (resetAfter op reply reset) := by
  obtain ⟨reply, s', he, hl⟩ := @serve_reaches .agreeing (smoothTurn uid op) s
  exact ⟨reply, s', hl, h.next he⟩

/-- Nobody has paired the device yet. -/
def Records.empty : Records := .before none none none 0

end Immurok
