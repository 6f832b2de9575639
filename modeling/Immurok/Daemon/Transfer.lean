import Immurok.Async.Solo
import Immurok.Daemon.Ota

/-!
# Firmware updates, command by command

The handlers of the `OTA:` commands over what they use of the daemon, `OtaIo`,
and what each one writes to the device.
-/

namespace Immurok

open Async

variable {σ : Type}

/-- `ota_write` and `ota_write_and_read`, and what the daemon knows of the
device. -/
structure OtaIo (σ : Type) where
  connected : Proc σ Bool
  status : Proc σ (Option DeviceStatus)
  write : Bytes → Proc σ (Except Str Unit)
  writeAndRead : Bytes → Nat → Proc σ (Except Str Bytes)

namespace OtaIo

def handleOtaVersion (io : OtaIo σ) : Proc σ Str := do
  let status ← io.status
  let version := (status.map (·.fwVersion)).getD []
  pure ("OK:".toList ++ if version = [] then "unknown".toList else version)

def whenConnected (io : OtaIo σ) (t : Proc σ Str) : Proc σ Str := do
  let connected ← io.connected
  if !connected then pure "ERROR:OTA_NOT_AVAILABLE" else t

def handleOtaInfo (io : OtaIo σ) : Proc σ Str := io.whenConnected do
  match ← io.writeAndRead [0x84, 0x02, 0x00, 0x00] otaCmdTimeoutMs with
  | .ok resp => pure (formatOtaInfo resp)
  | .error e => pure ("ERROR:".toList ++ e)

def handleOtaErase (io : OtaIo σ) : Proc σ Str := io.whenConnected do
  let frame := [0x81, 0x04, 0x00, 0x00, UInt8.ofNat otaImageBBlocks,
    UInt8.ofNat (otaImageBBlocks / 2 ^ 8)]
  match ← io.writeAndRead frame otaEraseTimeoutMs with
  | .ok resp => pure (eraseResult resp)
  | .error e => pure ("ERROR:ERASE_TIMEOUT:".toList ++ e)

def handleOtaHeader (io : OtaIo σ) (ext : Extern) (parts : List Str) : Proc σ Str :=
  if parts.length < 3 then pure "ERROR:INVALID_FORMAT"
  else io.whenConnected do
    match ext.base64Decode (rejoin 2 parts) with
    | none => pure "ERROR:INVALID_DATA"
    | some header =>
      if header.length ≠ 96 ∧ header.length ≠ 128 then pure "ERROR:INVALID_HEADER_SIZE"
      else do
        let frame := 0x85 :: UInt8.ofNat header.length :: header
        match ← io.writeAndRead frame otaCmdTimeoutMs with
        | .ok resp => pure (headerResult resp)
        | .error _ => pure "ERROR:HEADER_TIMEOUT"

def withBlock (io : OtaIo σ) (ext : Extern) (parts : List Str) (op : UInt8)
    (send : Bytes → Proc σ Str) : Proc σ Str :=
  if parts.length < 4 then pure "ERROR:INVALID_FORMAT"
  else io.whenConnected (
    match Str.parseHexU32 (parts.getD 2 []) with
    | .error _ => pure "ERROR:INVALID_OFFSET"
    | .ok offset =>
      match ext.base64Decode (rejoin 3 parts) with
      | none => pure "ERROR:INVALID_DATA"
      | some data => send (blockFrame op offset data))

def handleOtaWrite (io : OtaIo σ) (ext : Extern) (parts : List Str) : Proc σ Str :=
  io.withBlock ext parts 0x80 fun frame => do
    match ← io.write frame with
    | .ok () => pure "OK"
    | .error _ => pure "ERROR:WRITE_FAILED"

def handleOtaVerify (io : OtaIo σ) (ext : Extern) (parts : List Str) : Proc σ Str :=
  io.withBlock ext parts 0x82 fun frame => do
    match ← io.writeAndRead frame otaCmdTimeoutMs with
    | .ok resp => pure (verifyResult resp)
    | .error _ => pure "ERROR:VERIFY_TIMEOUT"

def handleOtaEnd (io : OtaIo σ) : Proc σ Str := io.whenConnected do
  match ← io.writeAndRead [0x83, 0x02, 0x00, 0x00] otaCmdTimeoutMs with
  | .ok (0xF1 :: _) => pure "ERROR:SHA256_MISMATCH"
  | .ok (0xF2 :: _) => pure "ERROR:HMAC_MISMATCH"
  | _ => pure "OK"

def processOtaCommand (io : OtaIo σ) (ext : Extern) (line : Str) : Proc σ Str :=
  let parts := Str.splitn ':' 4 line
  let sub := parts.getD 1 []
  if parts.length < 2 ∨ parts.headD [] ≠ "OTA".toList then pure "ERROR:INVALID_FORMAT"
  else if sub = "VERSION".toList then io.handleOtaVersion
  else if sub = "INFO".toList then io.handleOtaInfo
  else if sub = "ERASE".toList then io.handleOtaErase
  else if sub = "HEADER".toList then io.handleOtaHeader ext parts
  else if sub = "WRITE".toList then io.handleOtaWrite ext parts
  else if sub = "VERIFY".toList then io.handleOtaVerify ext parts
  else if sub = "END".toList then io.handleOtaEnd
  else pure "ERROR:UNKNOWN_OTA_CMD"

end OtaIo

/-- The daemon's own, for connection `i`. -/
def otaIo (i : TaskId) : OtaIo Daemon where
  connected := load (·.isConnected)
  status := load (·.deviceStatus)
  write := otaWrite i
  writeAndRead := otaWriteAndRead i

theorem processOtaCommand_eq {ext : Extern} {i : TaskId} {line : Str} :
    processOtaCommand ext i line = (otaIo i).processOtaCommand ext line := by
  rfl

-- ---------------------------------------------------------------------------
-- A device
-- ---------------------------------------------------------------------------

/-- What a device does with a frame, and whether it is there. -/
structure OtaDevice (δ : Type) where
  connected : δ → Bool × δ
  status : δ → Option DeviceStatus
  write : Bytes → δ → Except Str Unit × δ
  writeAndRead : Bytes → δ → Except Str Bytes × δ

/-- A client with its daemon and device: the frames that were written, the
lines that were sent and the replies to them. -/
structure Updater (δ : Type) where
  device : δ
  frames : List Bytes
  lines : List Str
  replies : List Str

variable {δ : Type}

/-- The frame is written, whatever comes of it. -/
def Updater.put {α : Type} (f : Bytes → δ → α × δ) (frame : Bytes) (u : Updater δ) :
    α × Updater δ :=
  let r := f frame u.device
  (r.1, { u with device := r.2, frames := u.frames ++ [frame] })

def updaterIo (dev : OtaDevice δ) : OtaIo (Updater δ) where
  connected := .atomically fun u => ((dev.connected u.device).1,
    { u with device := (dev.connected u.device).2 })
  status := .get fun u => dev.status u.device
  write frame := .atomically (Updater.put dev.write frame)
  writeAndRead frame _ := .atomically (Updater.put dev.writeAndRead frame)

/-- Only the frame was written. -/
structure Put (u : Updater δ) (frame : Bytes) (u' : Updater δ) : Prop where
  frames : u'.frames = u.frames ++ [frame]
  lines : u'.lines = u.lines
  replies : u'.replies = u.replies

/-- The reply is an error, or the frame was written. -/
structure Wrote (u : Updater δ) (frame : Bytes) (reply : Str) (u' : Updater δ) : Prop where
  frames : (∃ rest, reply = 'E' :: rest) ∨ u'.frames = u.frames ++ [frame]
  lines : u'.lines = u.lines
  replies : u'.replies = u.replies

theorem Put.wrote {u u' : Updater δ} {frame : Bytes} {reply : Str} (h : Put u frame u') :
    Wrote u frame reply u' := ⟨.inr h.frames, h.lines, h.replies⟩

section
variable {dev : OtaDevice δ} {u : Updater δ} {frame : Bytes} {ext : Extern}

theorem put_reaches {α : Type} {f : Bytes → δ → α × δ} :
    (Proc.atomically (Updater.put f frame)).Reaches u fun _ u' => Put u frame u' :=
  .atomically ⟨rfl, rfl, rfl⟩

/-- Without the device the reply is an error. -/
theorem whenConnected_wrote {t : Proc (Updater δ) Str}
    (h : ∀ u : Updater δ, t.Reaches u (Wrote u frame)) :
    ((updaterIo dev).whenConnected t).Reaches u (Wrote u frame) := by
  refine .bind (R := fun _ u' => u'.frames = u.frames ∧ u'.lines = u.lines ∧ u'.replies = u.replies)
    (.atomically ⟨rfl, rfl, rfl⟩) fun connected u' ⟨hf, hl, hr⟩ => ?_
  cases connected with
  | false => exact .ret ⟨.inl ⟨_, rfl⟩, hl, hr⟩
  | true => exact (h u').mono fun r u'' hw => ⟨hf ▸ hw.frames, hl ▸ hw.lines, hr ▸ hw.replies⟩

theorem handleOtaInfo_wrote : (updaterIo dev).handleOtaInfo.Reaches u
    (Wrote u [0x84, 0x02, 0x00, 0x00]) := by
  refine whenConnected_wrote fun u => .bind put_reaches fun r u' h => ?_
  cases r with
  | ok resp => exact .ret h.wrote
  | error e => exact .ret h.wrote

/-- The frame of `OTA:ERASE`. -/
def eraseFrame : Bytes :=
  [0x81, 0x04, 0x00, 0x00, UInt8.ofNat otaImageBBlocks, UInt8.ofNat (otaImageBBlocks / 2 ^ 8)]

theorem handleOtaErase_wrote : (updaterIo dev).handleOtaErase.Reaches u (Wrote u eraseFrame) := by
  refine whenConnected_wrote fun u => .bind put_reaches fun r u' h => ?_
  cases r with
  | ok resp => exact .ret h.wrote
  | error e => exact .ret h.wrote

def headerFrame (header : Bytes) : Bytes := 0x85 :: UInt8.ofNat header.length :: header

theorem handleOtaHeader_wrote {b64 : Str} {header : Bytes} (hd : ext.base64Decode b64 = some header)
    (hlen : header.length = 96 ∨ header.length = 128) :
    ((updaterIo dev).handleOtaHeader ext ["OTA", "HEADER", b64]).Reaches u
      (Wrote u (headerFrame header)) := by
  have hjoin : rejoin 2 ["OTA", "HEADER", b64] = b64 := by simp [rejoin]
  have hlong : ¬ ["OTA".toList, "HEADER".toList, b64].length < 3 := Nat.lt_irrefl 3
  rw [OtaIo.handleOtaHeader, if_neg hlong]
  refine whenConnected_wrote fun u => ?_
  rw [hjoin, hd]
  dsimp only
  rw [if_neg (by omega)]
  refine .bind put_reaches fun r u' h => ?_
  cases r with
  | ok resp => exact .ret h.wrote
  | error e => exact .ret h.wrote

theorem handleOtaWrite_wrote {hex b64 : Str} {offset : Nat} {data : Bytes}
    (ho : Str.parseHexU32 hex = .ok offset) (hd : ext.base64Decode b64 = some data) :
    ((updaterIo dev).handleOtaWrite ext ["OTA", "WRITE", hex, b64]).Reaches u
      (Wrote u (blockFrame 0x80 offset data)) := by
  have hjoin : rejoin 3 ["OTA", "WRITE", hex, b64] = b64 := by simp [rejoin]
  have hlong : ¬ ["OTA".toList, "WRITE".toList, hex, b64].length < 4 := Nat.lt_irrefl 4
  rw [OtaIo.handleOtaWrite, OtaIo.withBlock, if_neg hlong]
  refine whenConnected_wrote fun u => ?_
  rw [hjoin, hd]
  simp only [List.getD_cons_succ, List.getD_cons_zero, ho]
  refine .bind put_reaches fun r u' h => ?_
  cases r with
  | ok resp => exact .ret h.wrote
  | error e => exact .ret h.wrote

theorem handleOtaEnd_wrote : (updaterIo dev).handleOtaEnd.Reaches u
    (Wrote u [0x83, 0x02, 0x00, 0x00]) := by
  refine whenConnected_wrote fun u => .bind put_reaches fun r u' h => ?_
  split <;> exact .ret h.wrote

/-- The lines of a transfer, each with its frame. -/
theorem processOtaCommand_info : ((updaterIo dev).processOtaCommand ext "OTA:INFO").Reaches u
    (Wrote u [0x84, 0x02, 0x00, 0x00]) := handleOtaInfo_wrote

theorem processOtaCommand_erase : ((updaterIo dev).processOtaCommand ext "OTA:ERASE").Reaches u
    (Wrote u eraseFrame) := handleOtaErase_wrote

theorem processOtaCommand_end : ((updaterIo dev).processOtaCommand ext "OTA:END").Reaches u
    (Wrote u [0x83, 0x02, 0x00, 0x00]) := handleOtaEnd_wrote

theorem processOtaCommand_header {b64 : Str} {header : Bytes} (hb : ':' ∉ b64)
    (hd : ext.base64Decode b64 = some header) (hlen : header.length = 96 ∨ header.length = 128) :
    ((updaterIo dev).processOtaCommand ext ("OTA:HEADER:".toList ++ b64)).Reaches u
      (Wrote u (headerFrame header)) := by
  have hparts : Str.splitn ':' 4 ("OTA:HEADER:".toList ++ b64) =
      ["OTA".toList, "HEADER".toList, b64] := by
    refine (Str.splitn_append (a := "OTA") (b := "HEADER:".toList ++ b64) (by decide)).trans ?_
    refine congrArg _ ((Str.splitn_append (a := "HEADER") (b := b64) (by decide)).trans ?_)
    rw [Str.splitn_eq_singleton hb]
  rw [OtaIo.processOtaCommand, hparts]
  exact handleOtaHeader_wrote hd hlen

theorem processOtaCommand_write {hex b64 : Str} {offset : Nat} {data : Bytes} (hh : ':' ∉ hex)
    (hb : ':' ∉ b64) (ho : Str.parseHexU32 hex = .ok offset) (hd : ext.base64Decode b64 = some data) :
    ((updaterIo dev).processOtaCommand ext ("OTA:WRITE:".toList ++ hex ++ ":".toList ++ b64)).Reaches
      u (Wrote u (blockFrame 0x80 offset data)) := by
  have hparts : Str.splitn ':' 4 ("OTA:WRITE:".toList ++ hex ++ ":".toList ++ b64) =
      ["OTA".toList, "WRITE".toList, hex, b64] := by
    rw [List.append_assoc, List.append_assoc]
    refine (Str.splitn_append (a := "OTA") (b := "WRITE:".toList ++ (hex ++ ':' :: b64))
      (by decide)).trans ?_
    refine congrArg _ ((Str.splitn_append (a := "WRITE") (b := hex ++ ':' :: b64)
      (by decide)).trans ?_)
    rw [Str.splitn_append hh, Str.splitn_eq_singleton hb]
  rw [OtaIo.processOtaCommand, hparts]
  exact handleOtaWrite_wrote ho hd

end

end Immurok
