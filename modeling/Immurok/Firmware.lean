import Immurok.Text.Str

/-!
# Firmware packages

The `.imfw` container: a header of 96 or 128 bytes and the encrypted image.
-/

namespace Immurok

inductive ImfwError
  | truncated
  | badMagic
  | unsupportedVersion (version : UInt8)
  | sizeMismatch
  | tooLarge
  deriving DecidableEq

def ImfwError.message : ImfwError → Str
  | .truncated => "file truncated"
  | .badMagic => "bad magic (not an .imfw package)"
  | .unsupportedVersion version => "unsupported format version ".toList ++ Str.ofNat version.toNat
  | .sizeMismatch => "payload shorter than declared fw_size"
  | .tooLarge => "firmware exceeds Image B size (216KB)"

def imfwMagic : Nat := 0x494D4657

def headerSizeV1 : Nat := 96

def headerSizeV2 : Nat := 128

def imageBSize : Nat := 216 * 1024

/-- The largest multiple of 16 that fits a write. -/
def chunkSize : Nat := 240

structure ImfwPackage where
  header : Bytes
  firmware : Bytes
  formatVersion : UInt8
  hwId : Nat
  fwSize : Nat
  secVersion : Option Nat
  deriving DecidableEq

namespace Imfw

/-- `u16::from_le_bytes` and `u32::from_le_bytes` at an offset. -/
def le16At (data : Bytes) (i : Nat) : Nat := (data.getD i 0).toNat + 2 ^ 8 * (data.getD (i + 1) 0).toNat

def le32At (data : Bytes) (i : Nat) : Nat := le16At data i + 2 ^ 16 * le16At data (i + 2)

def parse (data : Bytes) : Except ImfwError ImfwPackage :=
  if data.length < headerSizeV1 then .error .truncated
  else if le32At data 0 ≠ imfwMagic then .error .badMagic
  else
    let version := data.getD 4 0
    if version ≠ 1 ∧ version ≠ 2 then .error (.unsupportedVersion version)
    else
      let headerSize := if 2 ≤ version then headerSizeV2 else headerSizeV1
      if data.length < headerSize then .error .truncated
      else
        let hwId := le16At data 6
        let fwSize := le32At data 8
        let secVersion := if 2 ≤ version then some (le16At data 0x0C) else none
        let firmware := data.drop headerSize
        if imageBSize < fwSize ∨ imageBSize < firmware.length then .error .tooLarge
        else if fwSize = 0 ∨ firmware.length < fwSize then .error .sizeMismatch
        else .ok { header := data.take headerSize, firmware, formatVersion := version, hwId, fwSize
                   secVersion }

variable {data : Bytes} {pkg : ImfwPackage}

/-- What is accepted has a header of one of the two sizes, and an image that
fits. -/
theorem parse_ok (h : parse data = .ok pkg) :
    (pkg.header.length = headerSizeV1 ∨ pkg.header.length = headerSizeV2) ∧
      pkg.firmware.length ≤ imageBSize ∧ data = pkg.header ++ pkg.firmware := by
  have hsize : ∀ n, n = (if 2 ≤ data.getD 4 0 then headerSizeV2 else headerSizeV1) →
      n = headerSizeV1 ∨ n = headerSizeV2 := by
    rintro n rfl
    split
    · exact .inr rfl
    · exact .inl rfl
  unfold parse at h
  dsimp only at h
  generalize hn : (if 2 ≤ data.getD 4 0 then headerSizeV2 else headerSizeV1) = n at h
  split at h
  next => cases h
  next =>
    split at h
    next => cases h
    next =>
      split at h
      next => cases h
      next =>
        split at h
        next => cases h
        next hlen =>
          split at h
          next => cases h
          next hfit =>
            split at h
            next => cases h
            next =>
              obtain rfl := Except.ok.inj h
              refine ⟨?_, Nat.le_of_not_lt (not_or.mp hfit).2, (List.take_append_drop _ _).symm⟩
              rw [List.length_take, Nat.min_eq_left (Nat.le_of_not_lt hlen)]
              exact hsize n hn.symm

end Imfw

end Immurok
