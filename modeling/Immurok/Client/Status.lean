import Immurok.Client.EnrollRun
import Immurok.Client.Updating
import Immurok.Daemon.Handshake
import Immurok.Daemon.Transfer
import Immurok.Text.Lines

/-!
# The status of the device

From the device's answer to `GET_STATUS` to what the clients read of the daemon's
line.
-/

namespace Immurok

open Async

-- ---------------------------------------------------------------------------
-- The daemon
-- ---------------------------------------------------------------------------

/-- What the daemon keeps of an answer to `GET_STATUS`. -/
def decodeStatus (rsp : Bytes) : Option DeviceStatus :=
  if rsp.length < 4 ∨ rsp.headD rspError ≠ rspOk then none
  else
    some
      { fpBitmap := rsp.getD 1 0
        paired := rsp.getD 2 0 != 0
        battery := rsp.getD 3 0
        fwVersion := firmwareVersion rsp }

theorem SessionIo.queryStatus_eq {σ : Type} {io : SessionIo σ} : io.queryStatus = (do
    match ← io.send cmdGetStatus [] with
    | .error _ => pure none
    | .ok rsp =>
      match decodeStatus rsp with
      | none => pure none
      | some status => do
        io.setStatus status
        pure (some status.paired)) := by
  unfold SessionIo.queryStatus decodeStatus
  congr 1
  funext r
  cases r with
  | error _ => rfl
  | ok rsp =>
    dsimp only
    split
    · rfl
    · rfl

/-- What `STATUS` is answered with. -/
def statusResponse (connected : Bool) (status : Option DeviceStatus) (unpaired : Bool) : Response :=
  match status with
  | some s => .status connected "immurok" s.battery s.fwVersion unpaired
  | none => .status connected [] 0 [] unpaired

theorem handleStatus_eq : handleStatus = (do
    let connected ← load (·.isConnected)
    let status ← load (·.deviceStatus)
    let unpaired ← load (·.deviceReportsUnpaired)
    pure (statusResponse connected status unpaired)) := by
  unfold handleStatus
  congr 1
  funext connected
  congr 1
  funext status
  congr 1
  funext unpaired
  cases status with
  | none => rfl
  | some s => rfl

/-- What `OTA:VERSION` is answered with. -/
def versionLine (status : Option DeviceStatus) : Str :=
  let version := (status.map (·.fwVersion)).getD []
  "OK:".toList ++ if version = [] then "unknown".toList else version

theorem OtaIo.handleOtaVersion_eq {σ : Type} {io : OtaIo σ} :
    io.handleOtaVersion = io.status >>= fun status => pure (versionLine status) := rfl

-- ---------------------------------------------------------------------------
-- The clients
-- ---------------------------------------------------------------------------

/-- `DeviceStatus` of the client. -/
structure ReportedStatus where
  connected : Bool
  name : Str
  battery : UInt8
  fwVersion : Str
  deviceUnpaired : Bool

def parseStatusLine (line : Str) : Option ReportedStatus :=
  let parts := (Str.trim line).splitOn ':'
  if parts.headD [] ≠ "STATUS".toList ∨ parts.length < 5 then none
  else
    some
      { connected := parts.getD 1 [] = "1".toList
        name := parts.getD 2 []
        battery := (Str.parseU8 (parts.getD 3 [])).toOption.getD 0
        fwVersion := parts.getD 4 []
        deviceUnpaired := parts[5]? = some "1".toList }

/-- The line of a reply as the client has it. -/
def receivedLine (line : Str) : Str := Str.trim (line ++ ['\n'])

-- ---------------------------------------------------------------------------
-- The version
-- ---------------------------------------------------------------------------

section
variable {rsp : Bytes} {status : DeviceStatus} {connected unpaired : Bool} {n : Nat} {c : Char}
  {line : Str}

/-- The version that the device has sent. -/
def sentVersion (rsp : Bytes) : FirmwareVersion :=
  ⟨(rsp.getD 4 0).toNat, (rsp.getD 5 0).toNat, (rsp.getD 6 0).toNat⟩

/-- A character that a field may have: it is not trimmed and separates nothing. -/
def InField (c : Char) : Prop := Str.isWhitespace c = false ∧ c ≠ ':'

theorem inField_of_mem_ofNat (h : c ∈ Str.ofNat n) : InField c ∧ c ≠ '.' :=
  have h := Str.isDigit_spec (Str.isDigit_of_mem_ofNat h)
  ⟨⟨h.1, h.2.1⟩, h.2.2⟩

theorem inField_of_mem_toDigits (hn : n < 2 ^ 32) (h : c ∈ Nat.toDigits 16 n) :
    InField c ∧ c ≠ '.' := by
  have hhex := Str.hexValue_of_parseHexDigits (Str.parseHexDigits_toDigits hn) c h
  refine ⟨Str.hexValue_isSome hhex, ?_⟩
  rintro rfl
  nomatch hhex

/-- The segments of the version in an answer of seven bytes or more. -/
theorem firmwareVersion_segments (h : 7 ≤ rsp.length) :
    ∃ build : List Str, (∀ b ∈ build, ∀ c ∈ b, InField c ∧ c ≠ '.') ∧
      firmwareVersion rsp = ['.'].intercalate ([Str.ofNat (rsp.getD 4 0).toNat,
        Str.ofNat (rsp.getD 5 0).toNat, Str.ofNat (rsp.getD 6 0).toNat] ++ build) := by
  have hbuild : (rsp.getD 7 0).toNat * 256 + (rsp.getD 8 0).toNat < 2 ^ 32 := by
    have h7 := (rsp.getD 7 0).toNat_lt
    have h8 := (rsp.getD 8 0).toNat_lt
    omega
  unfold firmwareVersion
  dsimp only
  split
  · refine ⟨[Nat.toDigits 16 ((rsp.getD 7 0).toNat * 256 + (rsp.getD 8 0).toNat)], ?_,
      by simp [List.intercalate]⟩
    rintro b hb c hc
    obtain rfl := List.mem_singleton.mp hb
    exact inField_of_mem_toDigits hbuild hc
  · exact ⟨[], (fun _ h => nomatch h), by simp [List.intercalate]⟩

theorem inField_of_mem_segments {build : List Str}
    (hbuild : ∀ b ∈ build, ∀ c ∈ b, InField c ∧ c ≠ '.') :
    ∀ x ∈ [Str.ofNat (rsp.getD 4 0).toNat, Str.ofNat (rsp.getD 5 0).toNat,
      Str.ofNat (rsp.getD 6 0).toNat] ++ build, ∀ c ∈ x, InField c ∧ c ≠ '.' := by
  intro x hx c hc
  simp only [List.mem_append, List.mem_cons, List.not_mem_nil, or_false] at hx
  obtain (rfl | rfl | rfl) | hx := hx
  · exact inField_of_mem_ofNat hc
  · exact inField_of_mem_ofNat hc
  · exact inField_of_mem_ofNat hc
  · exact hbuild x hx c hc

theorem firmwareVersion_inField (h : 7 ≤ rsp.length) : ∀ c ∈ firmwareVersion rsp, InField c := by
  obtain ⟨build, hbuild, heq⟩ := firmwareVersion_segments h
  have hdot : InField '.' := ⟨by decide, by decide⟩
  have hall := @inField_of_mem_segments rsp _ hbuild
  intro c hc
  rw [heq] at hc
  obtain rfl | ⟨x, hx, hc⟩ := Lines.mem_join hc
  · exact hdot
  · exact (hall x hx c hc).1

/-- The device's version is what is kept of it. -/
theorem parse_firmwareVersion (h : 7 ≤ rsp.length) :
    FirmwareVersion.parse (normalizeSemver (firmwareVersion rsp)) = some (sentVersion rsp) := by
  obtain ⟨build, hbuild, heq⟩ := firmwareVersion_segments h
  have hdots : ∀ x ∈ [Str.ofNat (rsp.getD 4 0).toNat, Str.ofNat (rsp.getD 5 0).toNat,
      Str.ofNat (rsp.getD 6 0).toNat] ++ build, '.' ∉ x :=
    fun x hx hc => (inField_of_mem_segments hbuild x hx '.' hc).2 rfl
  have hsplit : (firmwareVersion rsp).splitOn '.' = [Str.ofNat (rsp.getD 4 0).toNat,
      Str.ofNat (rsp.getD 5 0).toNat, Str.ofNat (rsp.getD 6 0).toNat] ++ build := by
    rw [heq, List.splitOn_intercalate _ hdots (by simp)]
  have hnormal : normalizeSemver (firmwareVersion rsp) = (sentVersion rsp).text := by
    rw [normalizeSemver, hsplit]
    simp [sentVersion, FirmwareVersion.text, List.intercalate]
  have hbyte (b : UInt8) : b.toNat < 2 ^ 32 := Nat.lt_trans b.toNat_lt (by decide)
  rw [hnormal, FirmwareVersion.parse_text (hbyte _) (hbyte _) (hbyte _)]

-- ---------------------------------------------------------------------------
-- The line
-- ---------------------------------------------------------------------------

/-- Fields come through a line and can be told apart. -/
theorem receivedLine_fields {fields : List Str} (h : ∀ x ∈ fields, ∀ c ∈ x, InField c)
    (hne : fields ≠ []) :
    Str.trim (receivedLine ([':'].intercalate fields)) = receivedLine ([':'].intercalate fields) ∧
    (receivedLine ([':'].intercalate fields)).splitOn ':' = fields := by
  have hcolon : Str.isWhitespace ':' = false := by decide
  have hwhite : ∀ c ∈ [':'].intercalate fields, Str.isWhitespace c = false := by
    intro c hc
    obtain rfl | ⟨x, hx, hc⟩ := Lines.mem_join hc
    · exact hcolon
    · exact (h x hx c hc).1
  have hline : receivedLine ([':'].intercalate fields) = [':'].intercalate fields := by
    rw [receivedLine, Str.trim, Str.trimMatches_concat (by decide)]
    exact Str.trim_eq_self hwhite
  rw [hline]
  exact ⟨Str.trim_eq_self hwhite,
    List.splitOn_intercalate _ (fun x hx hc => (h x hx ':' hc).2 rfl) hne⟩

theorem inField_flag {b : Bool} : ∀ c ∈ flag b, InField c := by
  unfold InField
  cases b with
  | true => decide
  | false => decide

/-- The fields of the daemon's line. -/
theorem serializeResponse_status {battery : UInt8} {version : Str} :
    serializeResponse (.status connected "immurok" battery version unpaired) =
      [':'].intercalate ["STATUS".toList, flag connected, "immurok".toList,
        Str.ofNat battery.toNat, version, flag unpaired] := by
  have hhead : "STATUS:".toList = "STATUS".toList ++ [':'] := rfl
  have hcolon : ":".toList = [':'] := rfl
  unfold serializeResponse
  simp only [hhead, hcolon, List.intercalate_cons_cons, List.intercalate_singleton,
    List.append_assoc]

/-- What both clients make of a line with a version whose characters a field may have. -/
theorem status_read {battery : UInt8} {version : Str} (h : ∀ c ∈ version, InField c) :
    parseStatusLine (receivedLine
        (serializeResponse (.status connected "immurok" battery version unpaired))) =
      some { connected, name := "immurok", battery, fwVersion := version
             deviceUnpaired := unpaired } ∧
    parseDeviceStatus (receivedLine
        (serializeResponse (.status connected "immurok" battery version unpaired))) =
      .ok { connected, battery, version } := by
  have hfields : ∀ x ∈ ["STATUS".toList, flag connected, "immurok".toList,
      Str.ofNat battery.toNat, version, flag unpaired], ∀ c ∈ x, InField c := by
    intro x hx
    simp only [List.mem_cons, List.not_mem_nil, or_false] at hx
    obtain rfl | rfl | rfl | rfl | rfl | rfl := hx
    · unfold InField
      decide
    · exact inField_flag
    · unfold InField
      decide
    · exact fun c hc => (inField_of_mem_ofNat hc).1
    · exact h
    · exact inField_flag
  have hflag (b : Bool) : decide (flag b = "1".toList) = b := by
    cases b with
    | true => rfl
    | false => rfl
  have hfirst (b : Bool) : decide (some (flag b) = some "1".toList) = b := by
    cases b with
    | true => rfl
    | false => rfl
  have hwhole {fields : List Str} : ¬(("STATUS".toList :: fields).headD [] ≠ "STATUS".toList ∨
      (fields.length + 1) < 5) ↔ 4 ≤ fields.length := by
    simp
  obtain ⟨htrim, hsplit⟩ := receivedLine_fields hfields (List.cons_ne_nil _ _)
  rw [serializeResponse_status]
  constructor
  · rw [parseStatusLine, htrim, hsplit]
    refine (if_neg (hwhole.mpr (by simp))).trans ?_
    simp only [List.getD_cons_succ, List.getD_cons_zero, List.getElem?_cons_succ,
      List.getElem?_cons_zero, hflag, hfirst, Str.parseU8_ofNat]
    rfl
  · rw [parseDeviceStatus, hsplit]
    refine (if_neg (hwhole.mpr (by simp))).trans ?_
    simp only [List.getD_cons_succ, List.getD_cons_zero, hflag, Str.parseU8_ofNat]
    rfl

/-- What `wait_for_version` makes of the daemon's line. -/
theorem version_read {tgt : FirmwareVersion} (h : 7 ≤ rsp.length)
    (hversion : status.fwVersion = firmwareVersion rsp) :
    isVersion tgt (.ok (receivedLine (versionLine (some status)))) =
      decide (tgt ≤ sentVersion rsp) := by
  have hchars := firmwareVersion_inField h
  have hne : firmwareVersion rsp ≠ [] := by
    intro hnil
    have hparse := parse_firmwareVersion h
    rw [hnil] at hparse
    nomatch hparse
  have hwhite : ∀ c ∈ "OK:".toList ++ firmwareVersion rsp, Str.isWhitespace c = false := by
    have hok : ∀ c ∈ "OK:".toList, Str.isWhitespace c = false := by decide
    intro c hc
    exact (List.mem_append.mp hc).elim (hok c) fun hc => (hchars c hc).1
  have hline : receivedLine (versionLine (some status)) = "OK:".toList ++ firmwareVersion rsp := by
    have hversionLine : versionLine (some status) = "OK:".toList ++ firmwareVersion rsp := by
      rw [versionLine, Option.map_some, Option.getD_some, hversion]
      exact congrArg _ (if_neg hne)
    rw [hversionLine, receivedLine, Str.trim, Str.trimMatches_concat (by decide)]
    exact Str.trim_eq_self hwhite
  rw [hline, isVersion, Str.trim_eq_self hwhite, Str.stripPrefix_append, Option.bind_some,
    Str.trim_eq_self fun c hc => (hchars c hc).1, parse_firmwareVersion h, Option.any_some]

/-- For an answer of seven bytes or more, both clients read the flag, the battery
and the version that the daemon has, and the version is the device's. The bitmap may
have been asked for since. -/
theorem device_status_read (h : 7 ≤ rsp.length) (hok : rsp.headD rspError = rspOk)
    (bitmap : UInt8) (connected unpaired : Bool) (tgt : FirmwareVersion) :
    ∃ status, decodeStatus rsp = some status ∧
      parseStatusLine (receivedLine (serializeResponse
          (statusResponse connected (some { status with fpBitmap := bitmap }) unpaired))) =
        some { connected, name := "immurok", battery := rsp.getD 3 0, fwVersion := status.fwVersion
               deviceUnpaired := unpaired } ∧
      parseDeviceStatus (receivedLine (serializeResponse
          (statusResponse connected (some { status with fpBitmap := bitmap }) unpaired))) =
        .ok { connected, battery := rsp.getD 3 0, version := status.fwVersion } ∧
      FirmwareVersion.parse (normalizeSemver status.fwVersion) = some (sentVersion rsp) ∧
      isVersion tgt (.ok (receivedLine (versionLine (some { status with fpBitmap := bitmap })))) =
        decide (tgt ≤ sentVersion rsp) := by
  have hshort : ¬(rsp.length < 4 ∨ rsp.headD rspError ≠ rspOk) := by
    rw [not_or, not_lt, not_not]
    exact ⟨Nat.le_trans (by decide) h, hok⟩
  refine ⟨_, if_neg hshort, ?_, ?_, parse_firmwareVersion h, version_read h rfl⟩
  · exact (status_read (firmwareVersion_inField h)).1
  · exact (status_read (firmwareVersion_inField h)).2

/-- An answer with a build number. -/
theorem device_status_read_build : ∃ status,
    decodeStatus [0, 1, 1, 87, 1, 6, 2, 0xAB, 0xCD] = some status ∧
    parseStatusLine (receivedLine (serializeResponse
        (statusResponse true (some { status with fpBitmap := 3 }) false))) =
      some { connected := true, name := "immurok", battery := 87, fwVersion := status.fwVersion
             deviceUnpaired := false } ∧
    parseDeviceStatus (receivedLine (serializeResponse
        (statusResponse true (some { status with fpBitmap := 3 }) false))) =
      .ok { connected := true, battery := 87, version := status.fwVersion } ∧
    FirmwareVersion.parse (normalizeSemver status.fwVersion) = some ⟨1, 6, 2⟩ ∧
    isVersion ⟨1, 6, 2⟩
      (.ok (receivedLine (versionLine (some { status with fpBitmap := 3 })))) = true :=
  device_status_read (by decide) (by decide) 3 true false ⟨1, 6, 2⟩

end

end Immurok
