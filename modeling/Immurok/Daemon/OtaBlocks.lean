import Immurok.Client.Push

/-!
# Blocks of an image

`OTA:WRITE` and `OTA:VERIFY` take an offset of 32 bits and data of any length.
The frame has one byte for the length and two for the offset, in units of 16.
-/

namespace Immurok

open Async

variable {δ : Type} {ext : Extern} {parts : List Str} {line : Str} {offset : Nat} {data : Bytes}
  {op : UInt8}

/-- A frame has room for the request. -/
structure Representable (offset : Nat) (data : Bytes) : Prop where
  aligned : offset % 16 = 0
  low : offset < 2 ^ 20
  short : data.length ≤ 255

/-- The frame says what was asked for. -/
def Denotes (frame : Bytes) (offset : Nat) (data : Bytes) : Prop :=
  ∃ op len lo hi, frame = op :: len :: lo :: hi :: data ∧ len.toNat = data.length ∧
    le16 lo hi * 16 = offset

/-- The length and the address wrap around. -/
theorem blockFrame_denotes :
    Denotes (blockFrame op offset data) offset data ↔ Representable offset data := by
  have haddr : le16 (UInt8.ofNat (offset / 16)) (UInt8.ofNat (offset / 16 / 2 ^ 8)) =
      offset / 16 % 2 ^ 16 := by
    rw [le16, UInt8.toNat_ofNat', UInt8.toNat_ofNat']
    omega
  have hlen : (UInt8.ofNat data.length).toNat = data.length % 2 ^ 8 := UInt8.toNat_ofNat'
  constructor
  · rintro ⟨op', len, lo, hi, hframe, hl, ha⟩
    simp only [blockFrame, List.cons.injEq] at hframe
    obtain ⟨-, rfl, rfl, rfl, -⟩ := hframe
    rw [hlen] at hl
    rw [haddr] at ha
    exact ⟨by omega, by omega, by omega⟩
  · intro h
    have := h.aligned
    have := h.low
    have := h.short
    refine ⟨op, _, _, _, rfl, ?_, ?_⟩
    · rw [hlen]
      omega
    · rw [haddr]
      omega

/-- The offset and the data, where a command on a block has both. -/
def blockOf (ext : Extern) (parts : List Str) : Option (Nat × Bytes) :=
  if parts.length < 4 then none
  else
    match Str.parseHexU32 (parts.getD 2 []), ext.base64Decode (rejoin 3 parts) with
    | .ok offset, some data => some (offset, data)
    | _, _ => none

/-- What a line asks to be written or verified. -/
def blockRequest (ext : Extern) (line : Str) : Option (Nat × Bytes) :=
  let parts := Str.splitn ':' 4 line
  let sub := parts.getD 1 []
  if parts.headD [] = "OTA".toList ∧ (sub = "WRITE".toList ∨ sub = "VERIFY".toList) then
    blockOf ext parts
  else none

/-- The frames say what the line asks for, and what no frame can say is refused. -/
structure FramesFaithful (ext : Extern) (line reply : Str) (frames : List Bytes) : Prop where
  denotes : ∀ offset data, blockRequest ext line = some (offset, data) →
    ∀ frame ∈ frames, Denotes frame offset data
  refused : ∀ offset data, blockRequest ext line = some (offset, data) →
    ¬Representable offset data → frames = [] ∧ ∃ rest, reply = 'E' :: rest

/-- The command wrote the frame of its block, if the device was there. -/
def BlockWritten (ext : Extern) (parts : List Str) (op : UInt8) (connected : Bool) (reply : Str)
    (frames : List Bytes) : Prop :=
  ∀ offset data, blockOf ext parts = some (offset, data) →
    if connected then frames = [blockFrame op offset data]
    else frames = [] ∧ ∃ rest, reply = 'E' :: rest

section
variable {dev : OtaDevice δ} {u : Updater δ}

theorem withBlock_written {send : Bytes → Proc (Updater δ) Str} (hu : u.frames = [])
    (hsend : ∀ (frame : Bytes) (u : Updater δ),
      (send frame).Reaches u fun _ u' => u'.frames = u.frames ++ [frame]) :
    ((updaterIo dev).withBlock ext parts op send).Reaches u fun reply u' =>
      BlockWritten ext parts op (dev.connected u.device).1 reply u'.frames := by
  unfold OtaIo.withBlock BlockWritten blockOf
  split
  · exact .ret nofun
  · refine .bind (R := fun c u' => c = (dev.connected u.device).1 ∧ u'.frames = [])
      (.atomically ⟨rfl, hu⟩) ?_
    rintro _ u₁ ⟨rfl, hu₁⟩
    cases (dev.connected u.device).1 with
    | false => exact .ret fun _ _ _ => ⟨hu₁, _, rfl⟩
    | true =>
      cases Str.parseHexU32 (parts.getD 2 []) with
      | error e => exact .ret nofun
      | ok offset =>
        cases ext.base64Decode (rejoin 3 parts) with
        | none => exact .ret nofun
        | some data =>
          refine (hsend _ u₁).mono fun reply u' h => ?_
          rintro _ _ ⟨⟩
          simpa [hu₁] using h

theorem handleOtaWrite_written (hu : u.frames = []) :
    ((updaterIo dev).handleOtaWrite ext parts).Reaches u fun reply u' =>
      BlockWritten ext parts 0x80 (dev.connected u.device).1 reply u'.frames :=
  withBlock_written hu fun frame u => .bind put_reaches fun r u' h => by
    cases r <;> exact .ret h.frames

theorem handleOtaVerify_written (hu : u.frames = []) :
    ((updaterIo dev).handleOtaVerify ext parts).Reaches u fun reply u' =>
      BlockWritten ext parts 0x82 (dev.connected u.device).1 reply u'.frames :=
  withBlock_written hu fun frame u => .bind put_reaches fun r u' h => by
    cases r <;> exact .ret h.frames

/-- A frame of the block is faithful just if there is room in it. -/
theorem BlockWritten.faithful {connected : Bool} {reply : Str} {frames : List Bytes}
    (h : BlockWritten ext (Str.splitn ':' 4 line) op connected reply frames)
    (hline : blockRequest ext line = blockOf ext (Str.splitn ':' 4 line)) :
    FramesFaithful ext line reply frames ↔ (connected = true →
      ∀ offset data, blockRequest ext line = some (offset, data) → Representable offset data) := by
  constructor
  · rintro hf rfl offset data hreq
    have hframes : frames = [blockFrame op offset data] := h offset data (hline ▸ hreq)
    refine blockFrame_denotes.mp (hf.denotes offset data hreq (blockFrame op offset data) ?_)
    rw [hframes]
    exact List.mem_singleton_self _
  · intro hr
    cases connected with
    | false =>
      refine ⟨fun offset data hreq => ?_, fun offset data hreq _ => h offset data (hline ▸ hreq)⟩
      have hframes : frames = [] := (h offset data (hline ▸ hreq)).1
      exact hframes ▸ fun _ hm => nomatch hm
    | true =>
      refine ⟨fun offset data hreq frame hm => ?_, fun offset data hreq hn =>
        absurd (hr rfl offset data hreq) hn⟩
      have hframes : frames = [blockFrame op offset data] := h offset data (hline ▸ hreq)
      rw [hframes] at hm
      rw [List.mem_singleton.mp hm]
      exact blockFrame_denotes.mpr (hr rfl offset data hreq)

/-- Another command asks for no block. -/
theorem faithful_of_none {connected : Bool} {reply : Str} {frames : List Bytes}
    (h : blockRequest ext line = none) : FramesFaithful ext line reply frames ↔ (connected = true →
      ∀ offset data, blockRequest ext line = some (offset, data) → Representable offset data) := by
  simp only [h, reduceCtorEq, false_implies, implies_true, iff_true]
  exact ⟨by simp [h], by simp [h]⟩

theorem handleOtaHeader_reaches : ((updaterIo dev).handleOtaHeader ext parts).Reaches u
    fun _ _ => True := by
  unfold OtaIo.handleOtaHeader
  split
  · exact .ret trivial
  · refine .bind (R := fun _ _ => True) (.atomically trivial) fun connected u _ => ?_
    cases connected with
    | false => exact .ret trivial
    | true =>
      rw [if_neg (by decide)]
      cases ext.base64Decode (rejoin 2 parts) with
      | none => exact .ret trivial
      | some header =>
        dsimp only
        split
        · exact .ret trivial
        · exact .bind put_reaches fun r u' _ => by cases r <;> exact .ret trivial

theorem blockRequest_none (h : (Str.splitn ':' 4 line).getD 1 [] ≠ "WRITE".toList)
    (h' : (Str.splitn ':' 4 line).getD 1 [] ≠ "VERIFY".toList) : blockRequest ext line = none :=
  if_neg fun ⟨_, hsub⟩ => hsub.elim h h'

/-- Every line comes to a reply, and its frames are faithful just if there was
room in them for what it asks for. -/
theorem processOtaCommand_faithful (hu : u.frames = []) :
    ((updaterIo dev).processOtaCommand ext line).Reaches u fun reply u' =>
      FramesFaithful ext line reply u'.frames ↔ ((dev.connected u.device).1 = true →
        ∀ offset data, blockRequest ext line = some (offset, data) →
          Representable offset data) := by
  have named {name : Str} (h : (Str.splitn ':' 4 line).getD 1 [] = name)
      (hname : name ≠ "WRITE".toList ∧ name ≠ "VERIFY".toList) : blockRequest ext line = none :=
    blockRequest_none (h ▸ hname.1) (h ▸ hname.2)
  unfold OtaIo.processOtaCommand
  dsimp only
  split
  next hform =>
    refine .ret (faithful_of_none ?_)
    obtain hlen | hhead := hform
    · have hsub : (Str.splitn ':' 4 line).getD 1 [] = [] := by
        rw [List.getD_eq_getElem?_getD, List.getElem?_eq_none (Nat.le_of_lt_succ hlen)]
        rfl
      exact named hsub (by decide)
    · exact if_neg fun h => hhead h.1
  next hform =>
  obtain ⟨-, hhead⟩ := not_or.mp hform
  have hblock (h : (Str.splitn ':' 4 line).getD 1 [] = "WRITE".toList ∨
      (Str.splitn ':' 4 line).getD 1 [] = "VERIFY".toList) :
      blockRequest ext line = blockOf ext (Str.splitn ':' 4 line) :=
    if_pos ⟨not_not.mp hhead, h⟩
  split
  next h =>
    refine .bind (R := fun _ _ => True) (.get trivial) fun status u' _ => .ret ?_
    exact faithful_of_none (named h (by decide))
  next =>
  split
  next h => exact handleOtaInfo_wrote.mono fun _ _ _ => faithful_of_none (named h (by decide))
  next =>
  split
  next h => exact handleOtaErase_wrote.mono fun _ _ _ => faithful_of_none (named h (by decide))
  next =>
  split
  next h => exact handleOtaHeader_reaches.mono fun _ _ _ => faithful_of_none (named h (by decide))
  next =>
  split
  next h => exact (handleOtaWrite_written hu).mono fun _ _ hw => hw.faithful (hblock (.inl h))
  next hwrite =>
  split
  next h => exact (handleOtaVerify_written hu).mono fun _ _ hw => hw.faithful (hblock (.inr h))
  next hverify =>
  have hnone : blockRequest ext line = none := blockRequest_none hwrite hverify
  split
  next => exact handleOtaEnd_wrote.mono fun _ _ _ => faithful_of_none hnone
  next => exact .ret (faithful_of_none hnone)

end

/-- Whatever device, daemon and line: a frame that is written for a block says
what the line asks for, and what no frame can say is refused, just if the device
is not there or the request fits a frame. -/
theorem block_frames_iff {dev : OtaDevice δ} {device : δ} :
    ((updaterIo dev).processOtaCommand ext line).Reaches (.fresh device) fun reply u =>
      FramesFaithful ext line reply u.frames ↔ ((dev.connected device).1 = true →
        ∀ offset data, blockRequest ext line = some (offset, data) → Representable offset data) :=
  processOtaCommand_faithful rfl

/-- A block past the first megabyte is written over its beginning. -/
theorem block_wraps : ((updaterIo willing).processOtaCommand .coded "OTA:WRITE:100000:AAAA").Reaches
    (.fresh ()) fun reply u => ¬FramesFaithful .coded "OTA:WRITE:100000:AAAA" reply u.frames ∧
      decide (reply = "OK".toList ∧ u.frames = [[0x80, 3, 0, 0, 0, 0, 0]]) = true := by
  refine .follow [0, 0] ((processOtaCommand_faithful rfl).mono fun reply u h hf => ?_)
    (by decide)
  have hreq : blockRequest .coded "OTA:WRITE:100000:AAAA" = some (2 ^ 20, [0, 0, 0]) := by
    decide
  exact absurd (h.mp hf rfl _ _ hreq).low (Nat.lt_irrefl _)

end Immurok
