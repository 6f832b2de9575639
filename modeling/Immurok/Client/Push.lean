import Immurok.Daemon.ByName
import Immurok.Daemon.Transfer
import Immurok.Client.Planning
import Immurok.Firmware

/-!
# Sending an update

The client sends a package line by line. What the device gets is the package
again, in frames.
-/

namespace Immurok

open Async

-- ---------------------------------------------------------------------------
-- The client
-- ---------------------------------------------------------------------------

inductive PushEvent
  | stage (name : Str)
  | deviceInfo (payload : Str)
  | chunk (done total : Nat)

/-- A connection to the daemon, and where progress is shown. -/
structure OtaChannel (σ : Type) where
  send : Str → Proc σ (Except Str Str)
  progress : PushEvent → Proc σ Unit

/-- The reply says that the command was carried out. -/
def isOk (resp : Str) : Bool :=
  let t := Str.trim resp
  t == "OK".toList || Str.startsWith "OK:" t

def mapDeviceError (stage resp : Str) : FwUpdateError :=
  if Str.contains "LOW_BATTERY" resp then .lowBattery else .transfer stage resp

def headerError (resp : Str) : FwUpdateError :=
  if Str.contains "LOW_BATTERY" resp then .lowBattery else .headerRejected (Str.trim resp)

def endError (resp : Str) : FwUpdateError :=
  if Str.contains "SHA256" resp then .sha256Mismatch
  else if Str.contains "HMAC" resp || Str.contains "SIG" resp then .signatureRejected
  else mapDeviceError "end" resp

variable {σ δ α : Type}

/-- Goes on when the reply is OK. -/
def OtaChannel.ask (ch : OtaChannel σ) (stage line : Str) (failed : Str → FwUpdateError)
    (k : Str → Proc σ (Except FwUpdateError α)) : Proc σ (Except FwUpdateError α) := do
  match ← ch.send line with
  | .error e => pure (.error (.transfer stage e))
  | .ok resp => if !isOk resp then pure (.error (failed resp)) else k resp

/-- What the device says of itself. -/
def OtaChannel.showDevice (ch : OtaChannel σ) (resp : Str) : Proc σ Unit :=
  match Str.stripPrefix "OK:" (Str.trim resp) with
  | some payload => ch.progress (.deviceInfo payload)
  | none => pure ()

/-- The piece of the image at an offset. -/
def chunkAt (fw : Bytes) (offset : Nat) : Bytes :=
  let last := min (offset + chunkSize) fw.length
  (fw.drop offset).take (last - offset)

def otaWriteLine (ext : Extern) (fw : Bytes) (offset : Nat) : Str :=
  "OTA:WRITE:".toList ++ Str.hexNat 4 offset ++ ":".toList ++ ext.base64Encode (chunkAt fw offset)

def writeFirmware (ch : OtaChannel σ) (ext : Extern) (fw : Bytes) :
    Proc σ (Except FwUpdateError Unit) :=
  let total := (fw.length + (chunkSize - 1)) / chunkSize
  Proc.repeatFrom 0 fun i =>
    if total ≤ i then pure (.inr (.ok ()))
    else do
      let r ← ch.ask "write" (otaWriteLine ext fw (i * chunkSize)) (mapDeviceError "write") fun _ => do
        ch.progress (.chunk (i + 1) total)
        pure (.ok ())
      match r with
      | .ok () => pure (.inl (i + 1))
      | .error e => pure (.inr (.error e))

def pushOnce (ch : OtaChannel σ) (ext : Extern) (pkg : ImfwPackage) :
    Proc σ (Except FwUpdateError Unit) := do
  ch.progress (.stage "info")
  ch.ask "info" "OTA:INFO" (mapDeviceError "info") fun resp => do
    ch.showDevice resp
    ch.progress (.stage "erase")
    ch.ask "erase" "OTA:ERASE" (mapDeviceError "erase") fun _ => do
      ch.progress (.stage "header")
      ch.ask "header" ("OTA:HEADER:".toList ++ ext.base64Encode pkg.header) headerError fun _ => do
        ch.progress (.stage "write")
        match ← writeFirmware ch ext pkg.firmware with
        | .error e => pure (.error e)
        | .ok () => do
          ch.progress (.stage "end")
          ch.ask "end" "OTA:END" endError fun _ => pure (.ok ())

-- ---------------------------------------------------------------------------
-- The connection
-- ---------------------------------------------------------------------------

/-- A line is sent, executed and answered with a line. -/
def updaterChannel (dev : OtaDevice δ) (ext : Extern) : OtaChannel (Updater δ) where
  send line := do
    Proc.modify fun u => { u with lines := u.lines ++ [line] }
    let reply ← (updaterIo dev).processOtaCommand ext (Str.trim line)
    let answer := readLine (reply ++ "\n".toList)
    Proc.modify fun u => { u with replies := u.replies ++ [answer] }
    pure (.ok answer)
  progress _ := pure ()

/-- An error is no success. -/
theorem not_isOk {rest : Str} : isOk (readLine ('E' :: rest ++ "\n".toList)) = false := by
  have htrim {t : Str} : Str.trim ('E' :: t) = 'E' :: Str.trimEnd t := by
    have hhead : ('E' :: t).dropWhile Str.isWhitespace = 'E' :: t :=
      List.dropWhile_cons_of_neg (by decide)
    rw [Str.trim, Str.trimMatches, hhead]
    exact Str.trimEndMatches_append (a := []) (by decide)
  rw [readLine, List.cons_append, List.takeWhile_cons_of_pos (by decide), htrim, isOk, htrim]
  rfl

/-- These lines were sent, and if all went well these frames were written. -/
structure Transferred (frames : List Bytes) (u : Updater δ) : Prop where
  frames : (∀ reply ∈ u.replies, isOk reply = true) → u.frames = frames
  lines : ∀ l ∈ u.lines, (utf8 (l ++ "\n".toList)).length < maxRequestBytes

/-- How a part of the transfer ends: it went on, or a reply was an error. -/
def Progressed (M : Updater δ → Prop) (r : Except FwUpdateError α) (u : Updater δ) : Prop :=
  match r with
  | .ok _ => M u
  | .error _ => ∃ reply ∈ u.replies, isOk reply = false

section
variable {dev : OtaDevice δ} {ext : Extern} {u : Updater δ} {frames : List Bytes} {frame : Bytes}
  {line stage : Str} {failed : Str → FwUpdateError} {M : Updater δ → Prop}

theorem send_reaches (hs : Transferred frames u)
    (hp : ∀ u : Updater δ, ((updaterIo dev).processOtaCommand ext (Str.trim line)).Reaches u
      (Wrote u frame)) (hlen : (utf8 (line ++ "\n".toList)).length < maxRequestBytes) :
    ((updaterChannel dev ext).send line).Reaches u fun r u' => ∃ reply, r = .ok reply ∧
      reply ∈ u'.replies ∧ (isOk reply = true → Transferred (frames ++ [frame]) u') := by
  refine .bind (R := fun _ u' => u'.frames = u.frames ∧ u'.lines = u.lines ++ [line] ∧
    u'.replies = u.replies) (.modify ⟨rfl, rfl, rfl⟩) fun _ u₁ ⟨hf₁, hl₁, hr₁⟩ => ?_
  refine .bind (hp u₁) fun reply u₂ hw => ?_
  refine .bind (R := fun _ u' => u'.frames = u₂.frames ∧ u'.lines = u₂.lines ∧ u'.replies =
    u₂.replies ++ [readLine (reply ++ "\n".toList)]) (.modify ⟨rfl, rfl, rfl⟩)
    fun _ u₃ ⟨hf₃, hl₃, hr₃⟩ => .ret ⟨_, rfl, ?_, fun hok => ⟨fun hall => ?_, fun l hl => ?_⟩⟩
  · rw [hr₃]
    exact List.mem_append_right _ (.head _)
  · have hbefore : u.frames = frames := by
      refine hs.frames fun reply hm => hall reply ?_
      rw [hr₃, hw.replies, hr₁]
      exact List.mem_append_left _ hm
    obtain ⟨rest, rfl⟩ | hframe := hw.frames
    · exact absurd (hok.symm.trans not_isOk) (by decide)
    · rw [hf₃, hframe, hf₁, hbefore]
  · rw [hl₃, hw.lines, hl₁] at hl
    obtain hl | hl := List.mem_append.mp hl
    · exact hs.lines l hl
    · rw [List.mem_singleton.mp hl]
      exact hlen

/-- One command of the transfer. -/
theorem ask_reaches {k : Str → Proc (Updater δ) (Except FwUpdateError α)} (hs : Transferred frames u)
    (hp : ∀ u : Updater δ, ((updaterIo dev).processOtaCommand ext (Str.trim line)).Reaches u
      (Wrote u frame)) (hlen : (utf8 (line ++ "\n".toList)).length < maxRequestBytes)
    (hk : ∀ reply u, Transferred (frames ++ [frame]) u → (k reply).Reaches u (Progressed M)) :
    ((updaterChannel dev ext).ask stage line failed k).Reaches u (Progressed M) := by
  refine .bind (send_reaches hs hp hlen) ?_
  rintro _ u' ⟨reply, rfl, hm, hsent⟩
  dsimp only
  cases hok : isOk reply with
  | false => exact .ret ⟨reply, hm, hok⟩
  | true => exact hk reply u' (hsent hok)

end

-- ---------------------------------------------------------------------------
-- The pieces
-- ---------------------------------------------------------------------------

/-- Pieces that make up the image: each begins where the ones before it end. -/
inductive Tiles : List (Nat × Bytes) → Bytes → Prop
  | nil : Tiles [] []
  | snoc {blocks : List (Nat × Bytes)} {fw data : Bytes} : Tiles blocks fw → data ≠ [] →
    Tiles (blocks ++ [(fw.length, data)]) (fw ++ data)

/-- The piece that a device takes from a frame, and where it puts it. -/
def readBlock : Bytes → Option (Nat × Bytes)
  | op :: len :: lo :: hi :: data =>
    if op = 0x80 ∧ len.toNat = data.length then some ((lo.toNat + 2 ^ 8 * hi.toNat) * 16, data)
    else none
  | _ => none

/-- Pieces that fit a frame and its address. -/
structure Fits (block : Nat × Bytes) : Prop where
  aligned : block.1 % 16 = 0
  low : block.1 < 2 ^ 20
  short : block.2.length ≤ chunkSize

theorem Fits.read {block : Nat × Bytes} (h : Fits block) :
    readBlock (blockFrame 0x80 block.1 block.2) = some block := by
  have hlen : (UInt8.ofNat block.2.length).toNat = block.2.length :=
    UInt8.toNat_ofNat_of_lt' (Nat.lt_of_le_of_lt h.short (by decide))
  have haddr : ((UInt8.ofNat (block.1 / 16)).toNat + 2 ^ 8 *
      (UInt8.ofNat (block.1 / 16 / 2 ^ 8)).toNat) * 16 = block.1 := by
    have := h.aligned
    have := h.low
    rw [UInt8.toNat_ofNat', UInt8.toNat_ofNat']
    omega
  rw [blockFrame, readBlock, if_pos ⟨rfl, hlen⟩, haddr]

theorem chunkAt_eq {fw : Bytes} {offset : Nat} :
    chunkAt fw offset = (fw.drop offset).take chunkSize := by
  rw [chunkAt, List.take_eq_take_iff, List.length_drop]
  omega

theorem length_chunkAt {fw : Bytes} {offset : Nat} : (chunkAt fw offset).length ≤ chunkSize := by
  rw [chunkAt_eq]
  exact List.length_take_le _ _

/-- One piece more. -/
theorem Tiles.next {fw : Bytes} {blocks : List (Nat × Bytes)} {offset : Nat}
    (h : Tiles blocks (fw.take offset)) (hlt : offset < fw.length) :
    Tiles (blocks ++ [(offset, chunkAt fw offset)]) (fw.take (offset + chunkSize)) := by
  have hlen : (fw.take offset).length = offset := List.length_take_of_le (Nat.le_of_lt hlt)
  have hne : chunkAt fw offset ≠ [] := by
    rw [chunkAt_eq, ← List.length_pos_iff, List.length_take, List.length_drop]
    have : 0 < chunkSize := by decide
    omega
  have := h.snoc hne
  rwa [hlen, chunkAt_eq, ← List.take_add, ← chunkAt_eq] at this

-- ---------------------------------------------------------------------------
-- The lines
-- ---------------------------------------------------------------------------

section
variable {ext : Extern} {bs : Bytes}

theorem encoded_char (hb : Base64.Laws ext.base64Encode ext.base64Decode) {c : Char}
    (hc : c ∈ ext.base64Encode bs) : Str.isWhitespace c = false ∧ c ≠ ':' := by
  have all : ∀ c ∈ '=' :: Base64.alphabet, Str.isWhitespace c = false ∧ c ≠ ':' := by decide
  exact all c (hb.chars bs c hc)

theorem trim_line {a b : Str} (ha : ∀ c ∈ a, Str.isWhitespace c = false)
    (hb : ∀ c ∈ b, Str.isWhitespace c = false) : Str.trim (a ++ b) = a ++ b := by
  refine Str.trim_eq_self fun c hc => ?_
  obtain hc | hc := List.mem_append.mp hc
  · exact ha c hc
  · exact hb c hc

/-- A line of base64 is short enough if what is encoded is. -/
theorem length_line {a : Str} (hb : Base64.Laws ext.base64Encode ext.base64Decode)
    (ha : a.length ≤ 32) (hbs : bs.length ≤ chunkSize) :
    (utf8 (a ++ ext.base64Encode bs ++ "\n".toList)).length < maxRequestBytes := by
  refine Nat.lt_of_le_of_lt length_utf8_le ?_
  have hbs : bs.length ≤ 240 := hbs
  rw [List.length_append, List.length_append, hb.length_encode]
  show 4 * (a.length + 4 * ((bs.length + 2) / 3) + 1) < 65536
  omega

end

-- ---------------------------------------------------------------------------
-- The transfer
-- ---------------------------------------------------------------------------

def blockFrames (blocks : List (Nat × Bytes)) : List Bytes :=
  blocks.map fun b => blockFrame 0x80 b.1 b.2

section
variable {dev : OtaDevice δ} {ext : Extern} {u : Updater δ} {pre : List Bytes} {fw : Bytes}

/-- The line of a piece: what is read of it is its offset and its bytes. -/
theorem otaWriteLine_wrote (hb : Base64.Laws ext.base64Encode ext.base64Decode) {offset : Nat}
    (hlow : offset < 2 ^ 20) :
    ((updaterIo dev).processOtaCommand ext (Str.trim (otaWriteLine ext fw offset))).Reaches u
      (Wrote u (blockFrame 0x80 offset (chunkAt fw offset))) ∧
    (utf8 (otaWriteLine ext fw offset ++ "\n".toList)).length < maxRequestBytes := by
  have hhex : offset < 2 ^ 32 := Nat.lt_of_lt_of_le hlow (by decide)
  have hdigits : ∀ c ∈ Str.hexNat 4 offset, Str.isWhitespace c = false ∧ c ≠ ':' :=
    fun c hc => Str.hexValue_isSome
      (Str.hexValue_of_parseHexDigits (Str.parseHexDigits_hexNat hhex) c hc)
  have hword : ∀ c ∈ "OTA:WRITE:".toList, Str.isWhitespace c = false := by decide
  have hcolon : ∀ c ∈ ":".toList, Str.isWhitespace c = false := by decide
  have hhead : ∀ c ∈ "OTA:WRITE:".toList ++ Str.hexNat 4 offset ++ ":".toList,
      Str.isWhitespace c = false := by
    intro c hc
    obtain hc | hc := List.mem_append.mp hc
    · obtain hc | hc := List.mem_append.mp hc
      · exact hword c hc
      · exact (hdigits c hc).1
    · exact hcolon c hc
  have hhexColon : ':' ∉ Str.hexNat 4 offset := fun h => (hdigits ':' h).2 rfl
  have hb64Colon : ':' ∉ ext.base64Encode (chunkAt fw offset) :=
    fun h => (encoded_char hb h).2 rfl
  have htrim : Str.trim (otaWriteLine ext fw offset) = otaWriteLine ext fw offset :=
    trim_line hhead fun c hc => (encoded_char hb hc).1
  refine ⟨?_, ?_⟩
  · rw [htrim]
    exact processOtaCommand_write hhexColon hb64Colon (Str.parseHexU32_hexNat hhex)
      (hb.decode_encode _)
  · refine length_line hb ?_ length_chunkAt
    have : (Str.hexNat 4 offset).length ≤ 5 :=
      Str.length_hexNat_le (by decide) (by decide) hlow
    rw [List.length_append, List.length_append]
    show 10 + (Str.hexNat 4 offset).length + 1 ≤ 32
    omega

theorem headerLine_wrote (hb : Base64.Laws ext.base64Encode ext.base64Decode) {header : Bytes}
    (hlen : header.length = headerSizeV1 ∨ header.length = headerSizeV2) :
    ((updaterIo dev).processOtaCommand ext
      (Str.trim ("OTA:HEADER:".toList ++ ext.base64Encode header))).Reaches u
      (Wrote u (headerFrame header)) ∧
    (utf8 ("OTA:HEADER:".toList ++ ext.base64Encode header ++ "\n".toList)).length <
      maxRequestBytes := by
  have hword : ∀ c ∈ "OTA:HEADER:".toList, Str.isWhitespace c = false := by decide
  constructor
  · rw [trim_line hword fun c hc => (encoded_char hb hc).1]
    exact processOtaCommand_header (fun h => (encoded_char hb h).2 rfl) (hb.decode_encode _) hlen
  · refine length_line hb (by decide) ?_
    obtain h | h := hlen
    · rw [h]
      decide
    · rw [h]
      decide

/-- The image goes out piece by piece. -/
theorem writeFirmware_reaches (hb : Base64.Laws ext.base64Encode ext.base64Decode)
    (hs : Transferred pre u) (hfit : fw.length ≤ imageBSize) :
    (writeFirmware (updaterChannel dev ext) ext fw).Reaches u (Progressed fun u' =>
      ∃ blocks, Tiles blocks fw ∧ (∀ b ∈ blocks, Fits b) ∧ Transferred (pre ++ blockFrames blocks) u') := by
  have hsize : fw.length ≤ 221184 := hfit
  refine Proc.Reaches.repeatFrom (J := fun i u => ∃ blocks, Tiles blocks (fw.take (i * chunkSize)) ∧
    (∀ b ∈ blocks, Fits b) ∧ Transferred (pre ++ blockFrames blocks) u)
    (fun i => (fw.length + (chunkSize - 1)) / chunkSize - i) (fun i u hj => ?_)
    ⟨[], by rw [Nat.zero_mul]; exact .nil, fun _ h => (nomatch h), by
      rw [blockFrames, List.map_nil, List.append_nil]; exact hs⟩
  obtain ⟨blocks, htiles, hfits, hsent⟩ := hj
  split
  next hge =>
    -- nothing is left
    have hall : fw.take (i * chunkSize) = fw := by
      refine List.take_of_length_le ?_
      simp only [chunkSize] at hge ⊢
      omega
    exact .ret ⟨blocks, hall ▸ htiles, hfits, hsent⟩
  next hlt =>
    have hoff : i * chunkSize < fw.length := by
      simp only [chunkSize] at hlt ⊢
      omega
    have hblock : Fits (i * chunkSize, chunkAt fw (i * chunkSize)) := by
      refine ⟨?_, ?_, length_chunkAt⟩
      · simp only [chunkSize]
        omega
      · exact Nat.lt_of_lt_of_le hoff (Nat.le_trans hsize (by decide))
    have hline {u : Updater δ} := @otaWriteLine_wrote δ dev ext u fw hb _ hblock.low
    refine .bind (ask_reaches (M := fun u' => Transferred (pre ++ blockFrames (blocks ++
        [(i * chunkSize, chunkAt fw (i * chunkSize))])) u') hsent (fun u => hline.1) (@hline u).2
      fun _ u' hu => .ret ?_) fun r u' hr => ?_
    · rw [List.append_assoc] at hu
      rw [blockFrames, List.map_append]
      exact hu
    · cases r with
      | error e => exact .ret hr
      | ok a =>
        refine .ret ⟨⟨_, ?_, fun b hm => ?_, hr⟩, Nat.sub_lt_sub_left (Nat.lt_of_not_le hlt)
          (Nat.lt_succ_self i)⟩
        · rw [Nat.succ_mul]
          exact htiles.next hoff
        · obtain hm | hm := List.mem_append.mp hm
          · exact hfits b hm
          · rw [List.mem_singleton.mp hm]
            exact hblock

end

/-- A client that has not sent anything. -/
def Updater.fresh (device : δ) : Updater δ := { device, frames := [], lines := [], replies := [] }

def infoFrame : Bytes := [0x84, 0x02, 0x00, 0x00]

def endFrame : Bytes := [0x83, 0x02, 0x00, 0x00]

/-- What follows the length in a frame, and in a block the address. -/
def frameData : Bytes → Bytes
  | 0x80 :: _ :: _ :: _ :: data => data
  | frame => frame.drop 2

/-- The package has arrived. -/
structure Pushed (pkg : ImfwPackage) (u : Updater δ) : Prop where
  frames : ∃ blocks, Tiles blocks pkg.firmware ∧
    (∀ b ∈ blocks, readBlock (blockFrame 0x80 b.1 b.2) = some b) ∧
    u.frames = [infoFrame, eraseFrame, headerFrame pkg.header] ++ blockFrames blocks ++ [endFrame]
  lengths : ∀ f ∈ u.frames, (f.getD 1 0).toNat = (frameData f).length ∧ (frameData f).length ≤ 240
  lines : ∀ l ∈ u.lines, (utf8 (l ++ "\n".toList)).length < maxRequestBytes

section
variable {dev : OtaDevice δ} {ext : Extern} {u : Updater δ} {pkg : ImfwPackage} {data : Bytes}
  {blocks : List (Nat × Bytes)}

theorem lengths_of_fits (hlen : pkg.header.length = headerSizeV1 ∨ pkg.header.length = headerSizeV2)
    (hfits : ∀ b ∈ blocks, Fits b) : ∀ f ∈ [infoFrame, eraseFrame, headerFrame pkg.header] ++
      blockFrames blocks ++ [endFrame],
      (f.getD 1 0).toNat = (frameData f).length ∧ (frameData f).length ≤ 240 := by
  intro f hf
  obtain hf | hf := List.mem_append.mp hf
  · obtain hf | hf := List.mem_append.mp hf
    · simp only [List.mem_cons, List.not_mem_nil, or_false] at hf
      obtain rfl | rfl | rfl := hf
      · decide
      · decide
      · have hle : pkg.header.length ≤ 128 := by
          obtain h | h := hlen <;> rw [h] <;> decide
        show (UInt8.ofNat pkg.header.length).toNat = pkg.header.length ∧ pkg.header.length ≤ 240
        refine ⟨UInt8.toNat_ofNat_of_lt' (Nat.lt_of_le_of_lt hle (by decide)), ?_⟩
        exact Nat.le_trans hle (by decide)
    · obtain ⟨b, hb, rfl⟩ := List.mem_map.mp hf
      have hshort := (hfits b hb).short
      exact ⟨UInt8.toNat_ofNat_of_lt' (Nat.lt_of_le_of_lt hshort (by decide)), hshort⟩
  · rw [List.mem_singleton.mp hf]
    decide

theorem pushOnce_reaches (hb : Base64.Laws ext.base64Encode ext.base64Decode)
    (hlen : pkg.header.length = headerSizeV1 ∨ pkg.header.length = headerSizeV2)
    (hfit : pkg.firmware.length ≤ imageBSize) (device : δ) :
    (pushOnce (updaterChannel dev ext) ext pkg).Reaches (.fresh device) (Progressed fun u =>
      ∃ blocks, Tiles blocks pkg.firmware ∧ (∀ b ∈ blocks, Fits b) ∧ Transferred ([infoFrame, eraseFrame,
        headerFrame pkg.header] ++ blockFrames blocks ++ [endFrame]) u) := by
  have fresh : Transferred [] (Updater.fresh device) := ⟨fun _ => rfl, fun _ h => nomatch h⟩
  have hheader {u : Updater δ} := @headerLine_wrote δ dev ext u hb _ hlen
  refine ask_reaches fresh (fun u => processOtaCommand_info) (by decide) fun reply u hu => ?_
  refine .bind (R := fun _ u' => u' = u) ?_ ?_
  · unfold OtaChannel.showDevice
    split <;> exact .ret rfl
  rintro _ _ rfl
  refine ask_reaches hu (fun u => processOtaCommand_erase) (by decide) fun _ u hu => ?_
  refine ask_reaches hu (fun u => hheader.1) (@hheader u).2 fun _ u hu => ?_
  refine .bind (R := fun _ u' => u' = u) (.ret rfl) ?_
  rintro _ _ rfl
  refine .bind (writeFirmware_reaches hb hu hfit) fun r u hr => ?_
  cases r with
  | error e => exact .ret hr
  | ok a =>
    obtain ⟨blocks, htiles, hfits, hsent⟩ := hr
    exact ask_reaches hsent (fun u => processOtaCommand_end) (by decide)
      fun _ u hu => .ret ⟨blocks, htiles, hfits, hu⟩

/-- With every reply OK the package arrives, frame by frame. -/
theorem pushOnce_pushes (hb : Base64.Laws ext.base64Encode ext.base64Decode)
    (hp : Imfw.parse data = .ok pkg) (dev : OtaDevice δ) (device : δ) :
    (pushOnce (updaterChannel dev ext) ext pkg).Reaches (.fresh device) fun r u =>
      (∀ reply ∈ u.replies, isOk reply = true) → r = .ok () ∧ Pushed pkg u := by
  obtain ⟨hlen, hfit, -⟩ := Imfw.parse_ok hp
  refine (pushOnce_reaches hb hlen hfit device).mono fun r u hr hall => ?_
  cases r with
  | error e =>
    obtain ⟨reply, hm, hbad⟩ := hr
    exact absurd ((hall reply hm).symm.trans hbad) (by decide)
  | ok a =>
    obtain ⟨blocks, htiles, hfits, hsent⟩ := hr
    have hframes := hsent.frames hall
    exact ⟨rfl, ⟨blocks, htiles, fun b hm => (hfits b hm).read, hframes⟩,
      hframes ▸ lengths_of_fits hlen hfits, hsent.lines⟩

end

/-- A package with an image of one block and a bit. -/
def smallPackage : Bytes :=
  [0x57, 0x46, 0x4D, 0x49, 1, 0, 1, 0, 250, 0, 0, 0] ++ List.replicate 84 7 ++ List.replicate 250 9

/-- A device that takes everything. -/
def willing : OtaDevice Unit where
  connected _ := (true, ())
  status _ := none
  write _ _ := (.ok (), ())
  writeAndRead frame _ := (.ok (if frame = infoFrame then List.replicate 9 0 else [0]), ())

def smallImage : ImfwPackage :=
  { header := smallPackage.take 96, firmware := List.replicate 250 9, formatVersion := 1, hwId := 1
    fwSize := 250, secVersion := none }

theorem pushOnce_pushes_small : (pushOnce (updaterChannel willing .coded) .coded smallImage).Reaches
    (.fresh ()) fun r u => r = .ok () ∧ Pushed smallImage u := by
  have hparse : Imfw.parse smallPackage = .ok smallImage := by decide +kernel
  have hpush := @pushOnce_pushes _ .coded smallImage smallPackage Base64.laws hparse willing ()
  have hrun := hpush.follow (p := fun _ u => u.replies.all isOk) (List.replicate 27 0)
    (by decide +kernel)
  exact hrun.mono fun r u ⟨h, hok⟩ => h (List.all_eq_true.mp hok)

end Immurok
