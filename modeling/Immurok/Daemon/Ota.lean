import Immurok.Daemon.Socket

/-!
# Firmware updates

The `OTA:` session of a connection: one command a line, each proxied to the
OTA characteristic through the BLE worker, until `OTA:END` or the client goes
away.
-/

namespace Immurok

open Async

def otaSessionTimeout : Nat := secs 120

def otaCmdTimeoutMs : Nat := 5000

def otaEraseTimeoutMs : Nat := 15000

-- ---------------------------------------------------------------------------
-- Commands
-- ---------------------------------------------------------------------------

def handleOtaVersion : Code Str := do
  let status ← load (·.deviceStatus)
  let version := (status.map (·.fwVersion)).getD []
  pure ("OK:".toList ++ if version = [] then "unknown".toList else version)

/-- Every command but the version needs the device. -/
def whenConnected (t : Code Str) : Code Str := do
  let connected ← load (·.isConnected)
  if !connected then pure "ERROR:OTA_NOT_AVAILABLE" else t

def le16 (lo hi : UInt8) : Nat := lo.toNat + 2 ^ 8 * hi.toNat

/-- `OK:flag:size:block:chip` of the answer to INFO. -/
def formatOtaInfo (resp : Bytes) : Str :=
  match resp with
  | flag :: a :: b :: c :: d :: e :: f :: g :: h :: _ =>
    "OK:".toList ++ Str.hexByte flag ++ ":".toList ++
      Str.hexNat 8 (le16 a b + 2 ^ 16 * le16 c d) ++ ":".toList ++
      Str.hexNat 4 (le16 e f) ++ ":".toList ++ Str.hexNat 4 (le16 g h)
  | _ => "ERROR:NO_RESPONSE"

def handleOtaInfo (i : TaskId) : Code Str := whenConnected do
  match ← otaWriteAndRead i [0x84, 0x02, 0x00, 0x00] otaCmdTimeoutMs with
  | .ok resp => pure (formatOtaInfo resp)
  | .error e => pure ("ERROR:".toList ++ e)

def otaLowBattery : Str := "ERROR:LOW_BATTERY:OTA refused (device <5%, charge to retry)"

def eraseResult : Bytes → Str
  | [] => "ERROR:ERASE_TIMEOUT"
  | status :: _ =>
    if status = 0x00 then "OK"
    else if status = rspErrLowBattery then otaLowBattery
    else "ERROR:ERASE_FAILED:".toList ++ Str.hexByte status

def handleOtaErase (i : TaskId) : Code Str := whenConnected do
  let frame := [0x81, 0x04, 0x00, 0x00, UInt8.ofNat otaImageBBlocks,
    UInt8.ofNat (otaImageBBlocks / 2 ^ 8)]
  match ← otaWriteAndRead i frame otaEraseTimeoutMs with
  | .ok resp => pure (eraseResult resp)
  | .error e => pure ("ERROR:ERASE_TIMEOUT:".toList ++ e)

def headerResult : Bytes → Str
  | [] => "ERROR:HEADER_TIMEOUT"
  | status :: _ =>
    if status = 0x00 then "OK" else "ERROR:HEADER_REJECTED:".toList ++ Str.hexByte status

/-- The field `n` of a command and what follows it, which base64 may have
been split into. -/
def rejoin (n : Nat) (parts : List Str) : Str := [':'].intercalate (parts.drop n)

def handleOtaHeader (ext : Extern) (i : TaskId) (parts : List Str) : Code Str :=
  if parts.length < 3 then pure "ERROR:INVALID_FORMAT"
  else whenConnected do
    match ext.base64Decode (rejoin 2 parts) with
    | none => pure "ERROR:INVALID_DATA"
    | some header =>
      if header.length ≠ 96 ∧ header.length ≠ 128 then pure "ERROR:INVALID_HEADER_SIZE"
      else do
        let frame := 0x85 :: UInt8.ofNat header.length :: header
        match ← otaWriteAndRead i frame otaCmdTimeoutMs with
        | .ok resp => pure (headerResult resp)
        | .error _ => pure "ERROR:HEADER_TIMEOUT"

/-- `[op][len][addr][data]` of a block; addresses count in units of 16. -/
def blockFrame (op : UInt8) (offset : Nat) (data : Bytes) : Bytes :=
  let addr := offset / 16
  op :: UInt8.ofNat data.length :: UInt8.ofNat addr :: UInt8.ofNat (addr / 2 ^ 8) :: data

/-- A command on a block, `OTA:<op>:<hex offset>:<base64>`. -/
def withBlock (ext : Extern) (parts : List Str) (op : UInt8) (send : Bytes → Code Str) :
    Code Str :=
  if parts.length < 4 then pure "ERROR:INVALID_FORMAT"
  else whenConnected (
    match Str.parseHexU32 (parts.getD 2 []) with
    | .error _ => pure "ERROR:INVALID_OFFSET"
    | .ok offset =>
      match ext.base64Decode (rejoin 3 parts) with
      | none => pure "ERROR:INVALID_DATA"
      | some data => send (blockFrame op offset data))

def handleOtaWrite (ext : Extern) (i : TaskId) (parts : List Str) : Code Str :=
  withBlock ext parts 0x80 fun frame => do
    match ← otaWrite i frame with
    | .ok () => pure "OK"
    | .error _ => pure "ERROR:WRITE_FAILED"

def verifyResult : Bytes → Str
  | [] => "ERROR:VERIFY_TIMEOUT"
  | status :: _ =>
    if status = 0x00 then "OK"
    else if status = rspErrLowBattery then otaLowBattery
    else "ERROR:VERIFY_FAILED:".toList ++ Str.hexByte status

def handleOtaVerify (ext : Extern) (i : TaskId) (parts : List Str) : Code Str :=
  withBlock ext parts 0x82 fun frame => do
    match ← otaWriteAndRead i frame otaCmdTimeoutMs with
    | .ok resp => pure (verifyResult resp)
    | .error _ => pure "ERROR:VERIFY_TIMEOUT"

/-- The device reboots, so no answer counts as success. -/
def handleOtaEnd (i : TaskId) : Code Str := whenConnected do
  match ← otaWriteAndRead i [0x83, 0x02, 0x00, 0x00] otaCmdTimeoutMs with
  | .ok (0xF1 :: _) => pure "ERROR:SHA256_MISMATCH"
  | .ok (0xF2 :: _) => pure "ERROR:HMAC_MISMATCH"
  | _ => pure "OK"

def processOtaCommand (ext : Extern) (i : TaskId) (line : Str) : Code Str :=
  let parts := Str.splitn ':' 4 line
  let sub := parts.getD 1 []
  if parts.length < 2 ∨ parts.headD [] ≠ "OTA".toList then pure "ERROR:INVALID_FORMAT"
  else if sub = "VERSION".toList then handleOtaVersion
  else if sub = "INFO".toList then handleOtaInfo i
  else if sub = "ERASE".toList then handleOtaErase i
  else if sub = "HEADER".toList then handleOtaHeader ext i parts
  else if sub = "WRITE".toList then handleOtaWrite ext i parts
  else if sub = "VERIFY".toList then handleOtaVerify ext i parts
  else if sub = "END".toList then handleOtaEnd i
  else pure "ERROR:UNKNOWN_OTA_CMD"

-- ---------------------------------------------------------------------------
-- The session
-- ---------------------------------------------------------------------------

/-- A line up to its newline, or what is left at the end of the stream. -/
def takeLine (inbox : Bytes) (closed : Bool) : Option (Bytes × Bytes) :=
  match inbox.idxOf? 0x0A with
  | some n => some (inbox.take (n + 1), inbox.drop (n + 1))
  | none => if closed then some (inbox, []) else none

def lineBranch (i : TaskId) (k : Bytes → β) (s : Daemon) : Option (β × Daemon) :=
  (takeLine (s.socket i).inbox (s.socket i).closed).map fun (line, rest) =>
    (k line, s.updateSocket i fun c => { c with inbox := rest })

/-- The next line of the session; `none` at its end. -/
def readOtaLine (i : TaskId) : Code (Option Str) := do
  let now ← clock
  let line ← Proc.select [lineBranch i some, deadlineBranch (now + otaSessionTimeout) none]
  pure ((line.filter (· ≠ [])).bind Utf8.strict)

/-- One command answered; whether the session goes on. -/
def otaStep (ext : Extern) (i : TaskId) (request : Str) : Code Bool := do
  let response ← processOtaCommand ext i request
  let sent ← tryWriteLine i response
  pure (sent && !Str.startsWith "OTA:END" request)

def otaRound (ext : Extern) (i : TaskId) : Code (Option Unit) := do
  match ← readOtaLine i with
  | none => pure (some ())
  | some line =>
    let request := Str.trim line
    if request = [] then pure none
    else do
      let more ← otaStep ext i request
      pure (if more then none else some ())

def handleOtaSession (ext : Extern) (i : TaskId) (firstLine : Str) : Code Unit := do
  let more ← otaStep ext i firstLine
  Proc.when more (Proc.loop (otaRound ext i))

end Immurok
