import Immurok.SocketProto
import Immurok.Text.Utf8

/-!
# Request lines

How the daemon gets a request out of the first bytes it reads from a
connection, what the request requires of its caller, and which handler it
goes to.
-/

namespace Immurok

-- ---------------------------------------------------------------------------
-- The line
-- ---------------------------------------------------------------------------

inductive RequestError
  | tooLong
  | trailingData
  deriving DecidableEq

def RequestError.wireCode : RequestError → Str
  | .tooLong => "TOO_LONG"
  | .trailingData => "PROTOCOL"

def isStripped (c : Char) : Bool := c = '\x00' || c = '\n' || c = '\r' || c = ' '

def strip (s : Str) : Str := Str.trimMatches isStripped s

/-- The single request line of the first chunk; without a newline the whole
chunk is the line. -/
def splitRequestChunk (chunk : Bytes) : Except RequestError Str :=
  if maxRequestBytes ≤ chunk.length then .error .tooLong
  else
    let raw := Utf8.lossy chunk
    match Str.splitOnce '\n' raw with
    | some (first, rest) => if strip rest ≠ [] then .error .trailingData else .ok (strip first)
    | none => .ok (strip raw)

-- ---------------------------------------------------------------------------
-- Authorization
-- ---------------------------------------------------------------------------

/-- What a request requires of its caller: to be root or polkit, nothing, or
to be logged in. -/
inductive Tier
  | auth
  | anyone
  | manage
  deriving DecidableEq

def tierOf (line : Str) : Tier :=
  if Str.startsWith "AUTH:" line then .auth
  else if line = "STATUS".toList ∨ line = "GET:INFO".toList ∨ line = "GET:SETTINGS".toList ∨
    line = "PAIR:STATUS".toList then .anyone
  else .manage

-- ---------------------------------------------------------------------------
-- Handlers
-- ---------------------------------------------------------------------------

/-- Where a line goes. -/
inductive Dispatch
  | sessionAgent
  | logStream
  | ota
  | key
  | agentApprove (cmd : Str)
  | list (cat : Str)
  | get (after : Str)
  | request (r : Request)
  | unparsable (e : ParseError)
  deriving DecidableEq

/-- The key categories, which tell `GET:ssh:` from `GET:SETTINGS`. -/
def isKeyGet (after : Str) : Bool :=
  Str.startsWith "ssh:" after || Str.startsWith "otp:" after || Str.startsWith "api:" after

def dispatchParsed (line : Str) : Dispatch :=
  match parseRequest line with
  | .ok r => .request r
  | .error e => .unparsable e

def dispatchOf (line : Str) : Dispatch :=
  if line = "SUBSCRIBE:SESSION".toList then .sessionAgent
  else if line = "SUBSCRIBE:LOG".toList then .logStream
  else if Str.startsWith "OTA:" line then .ota
  else if Str.startsWith "KEY:" line then .key
  else
    match Str.stripPrefix "AGENT_APPROVE:" line with
    | some cmd => .agentApprove cmd
    | none =>
      match Str.stripPrefix "LIST:" line with
      | some cat => .list cat
      | none =>
        match Str.stripPrefix "GET:" line with
        | some after => if isKeyGet after then .get after else dispatchParsed line
        | none => dispatchParsed line

end Immurok
