import Immurok.Protocol

/-!
# The socket protocol

Requests and responses are lines of colon-separated text.
-/

namespace Immurok

inductive ParseError
  | empty
  | unknownCommand (cmd : Str)
  | missingField (command field : Str)
  | invalidField (command field detail : Str)
  deriving DecidableEq

def ParseError.message : ParseError → Str
  | .empty => "empty input"
  | .unknownCommand cmd => "unknown command: ".toList ++ cmd
  | .missingField command field => command ++ ": missing field '".toList ++ field ++ "'".toList
  | .invalidField command field detail =>
    command ++ ": invalid field '".toList ++ field ++ "': ".toList ++ detail

/-- The commands a client can send to the daemon. -/
inductive Request
  | auth (user service : Str)
  | status
  | fpList
  | fpEnroll (slot : UInt8)
  | fpEnrollCancel
  | fpDelete (slot : UInt8)
  | fpVerify
  | fpStatus
  | fpLastMatch
  | gateCancel
  | pairStatus
  | pairStart
  | slotStatus
  | slotClear (slot : Option UInt8)
  | factoryReset
  | pairProgress
  | setUnlockSudo (value : Bool)
  | setUnlockPolkit (value : Bool)
  | setUnlockScreen (value : Bool)
  | setLockScreen (value : Bool)
  | setSshTakeover (value : Bool)
  | getSettings
  | getInfo
  | otaStart (size : Nat) (version : Str)
  | otaData (data : Bytes)
  | otaFinish
  deriving DecidableEq

inductive Response
  | ok (message : Str)
  | deny (message : Str)
  | retry (remaining : UInt8)
  | error (message : Str)
  | status (connected : Bool) (name : Str) (battery : UInt8) (version : Str) (deviceUnpaired : Bool)
  deriving DecidableEq

-- ---------------------------------------------------------------------------
-- Fields
-- ---------------------------------------------------------------------------

def requireField (parts : List Str) (idx : Nat) (command field : Str) : Except ParseError Str :=
  match parts[idx]? with
  | some s => .ok s
  | none => .error (.missingField command field)

def fieldU8 (parts : List Str) (idx : Nat) (command field : Str) : Except ParseError UInt8 := do
  let s ← requireField parts idx command field
  (Str.parseU8 s).mapError fun e => .invalidField command field e.message

def fieldU32 (parts : List Str) (idx : Nat) (command field : Str) : Except ParseError Nat := do
  let s ← requireField parts idx command field
  (Str.parseU32 s).mapError fun e => .invalidField command field e.message

def fieldBool (parts : List Str) (idx : Nat) (command field : Str) : Except ParseError Bool := do
  let s ← requireField parts idx command field
  if s = "1".toList then .ok true
  else if s = "0".toList then .ok false
  else .error (.invalidField command field ("expected '1' or '0', got '".toList ++ s ++ "'".toList))

-- ---------------------------------------------------------------------------
-- Requests
-- ---------------------------------------------------------------------------

def parseFp (parts : List Str) : Except ParseError Request := do
  let sub ← requireField parts 1 "FP" "subcommand"
  if sub = "LIST".toList then .ok .fpList
  else if sub = "ENROLL".toList then .fpEnroll <$> fieldU8 parts 2 "FP:ENROLL" "slot"
  else if sub = "ENROLL_CANCEL".toList then .ok .fpEnrollCancel
  else if sub = "DELETE".toList then .fpDelete <$> fieldU8 parts 2 "FP:DELETE" "slot"
  else if sub = "VERIFY".toList then .ok .fpVerify
  else if sub = "STATUS".toList then .ok .fpStatus
  else if sub = "LAST_MATCH".toList then .ok .fpLastMatch
  else .error (.unknownCommand ("FP:".toList ++ sub))

def parsePair (parts : List Str) : Except ParseError Request := do
  let sub ← requireField parts 1 "PAIR" "subcommand"
  if sub = "STATUS".toList then .ok .pairStatus
  else if sub = "START".toList then .ok .pairStart
  else if sub = "PROGRESS".toList then .ok .pairProgress
  -- the deprecated alias must not wipe the device
  else if sub = "RESET".toList then .ok (.slotClear none)
  else if sub = "FACTORY_RESET".toList then .ok .factoryReset
  else .error (.unknownCommand ("PAIR:".toList ++ sub))

def parseSlot (parts : List Str) : Except ParseError Request := do
  let sub ← requireField parts 1 "SLOT" "subcommand"
  if sub = "STATUS".toList then .ok .slotStatus
  else if sub = "CLEAR".toList then
    if parts[2]?.isNone then .ok (.slotClear none)
    else (.slotClear ∘ some) <$> fieldU8 parts 2 "SLOT:CLEAR" "slot"
  else .error (.unknownCommand ("SLOT:".toList ++ sub))

def parseSet (parts : List Str) : Except ParseError Request := do
  let sub ← requireField parts 1 "SET" "subcommand"
  if sub = "UNLOCK_SUDO".toList then
    .setUnlockSudo <$> fieldBool parts 2 "SET:UNLOCK_SUDO" "value"
  else if sub = "UNLOCK_POLKIT".toList then
    .setUnlockPolkit <$> fieldBool parts 2 "SET:UNLOCK_POLKIT" "value"
  else if sub = "UNLOCK_SCREEN".toList then
    .setUnlockScreen <$> fieldBool parts 2 "SET:UNLOCK_SCREEN" "value"
  else if sub = "LOCK_SCREEN".toList then
    .setLockScreen <$> fieldBool parts 2 "SET:LOCK_SCREEN" "value"
  else if sub = "SSH_TAKEOVER".toList then
    .setSshTakeover <$> fieldBool parts 2 "SET:SSH_TAKEOVER" "value"
  else .error (.unknownCommand ("SET:".toList ++ sub))

def parseOta (parts : List Str) : Except ParseError Request := do
  let sub ← requireField parts 1 "OTA" "subcommand"
  if sub = "START".toList then
    let size ← fieldU32 parts 2 "OTA:START" "size"
    let version ← requireField parts 3 "OTA:START" "version"
    .ok (.otaStart size version)
  else if sub = "DATA".toList then
    let hex ← requireField parts 2 "OTA:DATA" "hex_bytes"
    let data ← (Str.hexDecode hex).mapError (.invalidField "OTA:DATA" "hex_bytes")
    .ok (.otaData data)
  else if sub = "FINISH".toList then .ok .otaFinish
  else .error (.unknownCommand ("OTA:".toList ++ sub))

def parseAuth (parts : List Str) : Except ParseError Request := do
  let user ← requireField parts 1 "AUTH" "user"
  let service ← requireField parts 2 "AUTH" "service"
  .ok (.auth user service)

def parseGate (parts : List Str) : Except ParseError Request := do
  let sub ← requireField parts 1 "GATE" "subcommand"
  if sub = "CANCEL".toList then .ok .gateCancel
  else .error (.unknownCommand ("GATE:".toList ++ sub))

def parseGet (parts : List Str) : Except ParseError Request := do
  let sub ← requireField parts 1 "GET" "subcommand"
  if sub = "SETTINGS".toList then .ok .getSettings
  else if sub = "INFO".toList then .ok .getInfo
  else .error (.unknownCommand ("GET:".toList ++ sub))

/-- The request on the fields of a line. -/
def parseParts (parts : List Str) : Except ParseError Request :=
  let cmd := parts.headD []
  if cmd = "AUTH".toList then parseAuth parts
  else if cmd = "STATUS".toList then .ok .status
  else if cmd = "FP".toList then parseFp parts
  else if cmd = "GATE".toList then parseGate parts
  else if cmd = "PAIR".toList then parsePair parts
  else if cmd = "SLOT".toList then parseSlot parts
  else if cmd = "SET".toList then parseSet parts
  else if cmd = "GET".toList then parseGet parts
  else if cmd = "OTA".toList then parseOta parts
  else .error (.unknownCommand cmd)

def parseRequest (line : Str) : Except ParseError Request :=
  let line := Str.trim line
  if line = [] then .error .empty else parseParts (Str.splitn ':' 9 line)

-- ---------------------------------------------------------------------------
-- Responses
-- ---------------------------------------------------------------------------

def flag (b : Bool) : Str := if b then "1" else "0"

def serializeResponse : Response → Str
  | .ok msg => "OK:".toList ++ msg
  | .deny msg => "DENY:".toList ++ msg
  | .retry remaining => "RETRY:".toList ++ Str.ofNat remaining.toNat
  | .error msg => "ERROR:".toList ++ msg
  | .status connected name battery version deviceUnpaired =>
    "STATUS:".toList ++ flag connected ++ ":".toList ++ name ++ ":".toList ++
      Str.ofNat battery.toNat ++ ":".toList ++ version ++ ":".toList ++ flag deviceUnpaired

example : parseRequest "FP:DELETE:12".toList = .ok (.fpDelete 12) := by decide

end Immurok
