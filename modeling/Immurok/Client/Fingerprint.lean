import Immurok.Protocol

/-!
# Fingerprint slots and enrollment

What a client makes of the answers to `FP:LIST` and `FP:STATUS`.
-/

namespace Immurok

abbrev totalFingerprintSlots : UInt8 := 6

abbrev enrollWaiting : UInt8 := 0x00
abbrev enrollCaptured : UInt8 := 0x01
abbrev enrollProcessing : UInt8 := 0x02
abbrev enrollLiftFinger : UInt8 := 0x03
abbrev enrollComplete : UInt8 := 0x04
abbrev enrollOverlap : UInt8 := 0x06

structure FpSlots where
  bitmap : UInt8
  deriving DecidableEq

def FpSlots.isEnrolled (s : FpSlots) (slot : UInt8) : Bool :=
  slot < totalFingerprintSlots && s.bitmap &&& (1 <<< slot) != 0

def parseFpList (line : Str) : Option FpSlots := do
  let rest ← Str.stripPrefix "OK:" (Str.trim line)
  let bitmap ← (Str.parseU8 rest).toOption
  some { bitmap }

inductive EnrollStatus
  | idle
  | waiting (current total : UInt8)
  | captured (current total : UInt8)
  | processing
  | liftFinger
  | overlap
  | complete
  | failed
  deriving DecidableEq

/-- An unknown code is a failure. -/
def EnrollStatus.ofCode (status current total : UInt8) : EnrollStatus :=
  if status = enrollWaiting then .waiting current total
  else if status = enrollCaptured then .captured current total
  else if status = enrollProcessing then .processing
  else if status = enrollLiftFinger then .liftFinger
  else if status = enrollOverlap then .overlap
  else if status = enrollComplete then .complete
  else .failed

def parseFpStatus (line : Str) : Option EnrollStatus :=
  let parts := (Str.trim line).splitOn ':'
  if parts.head? ≠ some "OK".toList then none
  else do
    let second ← parts[1]?
    if second = "IDLE".toList then some .idle
    else do
      let status ← (Str.parseU8 second).toOption
      let current := (parts[2]?.bind fun v => (Str.parseU8 v).toOption).getD 0
      let total := (parts[3]?.bind fun v => (Str.parseU8 v).toOption).getD 6
      some (.ofCode status current total)

example : parseFpStatus "OK:1:2:6" = some (.captured 2 6) := by decide

end Immurok
