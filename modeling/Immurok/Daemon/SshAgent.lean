import Immurok.Daemon.Socket

/-!
# The SSH agent

The OpenSSH agent protocol over a second socket: the identities come from the
key cache, a signature from the device, after a touch.
-/

namespace Immurok

open Async

abbrev sshAgentFailure : UInt8 := 5
abbrev sshAgentcRequestIdentities : UInt8 := 11
abbrev sshAgentIdentitiesAnswer : UInt8 := 12
abbrev sshAgentcSignRequest : UInt8 := 13
abbrev sshAgentSignResponse : UInt8 := 14

-- ---------------------------------------------------------------------------
-- Wire format
-- ---------------------------------------------------------------------------

def u32OfBe : Bytes → Nat
  | [a, b, c, d] => 2 ^ 24 * a.toNat + 2 ^ 16 * b.toNat + 2 ^ 8 * c.toNat + d.toNat
  | _ => 0

theorem length_u32Be {n : Nat} : (u32Be n).length = 4 := rfl

theorem u32OfBe_u32Be {n : Nat} (h : n < 2 ^ 32) : u32OfBe (u32Be n) = n := by
  simp only [u32Be, u32OfBe, UInt8.toNat_ofNat']
  omega

/-- A big-endian integer as an SSH mpint: a zero byte in front of a set sign
bit. -/
def sshMpint : Bytes → Bytes
  | [] => u32Be 0
  | b :: bs =>
    if b &&& 0x80 ≠ 0 then u32Be (bs.length + 2) ++ 0x00 :: b :: bs
    else u32Be (bs.length + 1) ++ b :: bs

/-- The SSH string at an offset, and the offset after it. -/
def readSshString (data : Bytes) (offset : Nat) : Option (Bytes × Nat) :=
  if data.length < offset + 4 then none
  else
    let len := u32OfBe ((data.drop offset).take 4)
    if data.length < offset + 4 + len then none
    else some ((data.drop (offset + 4)).take len, offset + 4 + len)

def maxAgentMessage : Nat := 256 * 1024

/-- Exactly `n` bytes; `none` at the end of the stream or of the wait. -/
def readExact (i : TaskId) (n deadline : Nat) : Code (Option Bytes) :=
  Proc.select [
    fun s =>
      let inbox := (s.socket i).inbox
      if n ≤ inbox.length then
        some (some (inbox.take n), s.updateSocket i fun c => { c with inbox := inbox.drop n })
      else if (s.socket i).closed then some (none, s)
      else none,
    deadlineBranch deadline none]

/-- `[length][body]`; `none` ends the connection. -/
def readAgentMessage (i : TaskId) (deadline : Nat) : Code (Option Bytes) := do
  match ← readExact i 4 deadline with
  | none => pure none
  | some len =>
    if u32OfBe len = 0 ∨ maxAgentMessage < u32OfBe len then pure none
    else readExact i (u32OfBe len) deadline

def sendAgentMessage (i : TaskId) (body : Bytes) : Code Unit := writeBytes i (sshString body)

def sendFailure (i : TaskId) : Code Unit := sendAgentMessage i [sshAgentFailure]

-- ---------------------------------------------------------------------------
-- Identities
-- ---------------------------------------------------------------------------

def identitiesAnswer (keys : List SshKeyCacheEntry) : Bytes :=
  sshAgentIdentitiesAnswer :: u32Be keys.length ++
    keys.flatMap fun e => sshString e.publicKeyBlob ++ sshString (utf8 e.name)

def handleRequestIdentities (i : TaskId) : Code Unit := do
  let keys ← loadSshKeys
  sendAgentMessage i (identitiesAnswer keys)

-- ---------------------------------------------------------------------------
-- Signing
-- ---------------------------------------------------------------------------

/-- Key blob and data of a sign request. -/
def parseSignRequest (payload : Bytes) : Option (Bytes × Bytes) := do
  let (blob, offset) ← readSshString payload 0
  let (data, _) ← readSshString payload offset
  pure (blob, data)

/-- A device that is away may come back within five seconds. -/
def awaitReconnect : Code Bool := do
  let connected ← load (·.isConnected)
  if connected then pure true
  else
    let back ← Proc.repeatFrom 50 fun (left : Nat) => do
      sleep 100
      let connected ← load (·.isConnected)
      if connected then pure (.inr true)
      else pure (if left ≤ 1 then .inr false else .inl (left - 1))
    Proc.when back (sleep 300)
    pure back

inductive SignEnd
  | hangup
  | deadline

/-- The gated command, raced against the client going away; data on the
socket is ignored. Its reply channel outlives the race until the handler
returns. -/
def gatedSign (i : TaskId) (payload : Bytes) : Code (Option BleResult) := do
  let now ← clock
  let result ← race i (.sendFpGated cmdKeySign payload)
    [deadlineBranch (now + secs 50) (some SignEnd.deadline),
      probeBranch i fun data => if data then none else some SignEnd.hangup]
  match result.2 with
  | .inl reply => pure (some (Reply.toBle reply))
  | .inr .deadline => do
    sendFailure i
    dropLoser i result
    pure none
  | .inr .hangup => do
    notifyCancel i .gate result.1
    dropLoser i result
    pure none

/-- The signature, in the chunks of four tries at most. -/
def readSignature (i : TaskId) : Code (Option Bytes) :=
  Proc.repeatFrom (4, []) fun (tries, signature) => do
    match tries with
    | 0 => pure (.inr none)
    | tries + 1 =>
      match ← bleSend i cmdKeyResult [UInt8.ofNat signature.length] with
      | .ok (status, total :: _ :: chunk) =>
        if status ≠ rspOk then pure (.inr none)
        else
          let signature := signature ++ chunk
          if total.toNat ≤ signature.length then pure (.inr (some (signature.take total.toNat)))
          else pure (.inl (tries, signature))
      | _ => pure (.inr none)

/-- The response for the device's two little-endian scalars. -/
def signResponse (signature : Bytes) : Bytes :=
  let r := (signature.take 32).reverse
  let s := ((signature.drop 32).take 32).reverse
  sshAgentSignResponse ::
    sshString (sshString (ascii "ecdsa-sha2-nistp256") ++ sshString (sshMpint r ++ sshMpint s))

/-- What was read with KEY_RESULT, else what came with the approval. -/
def chooseSignature (read : Option Bytes) (direct : Bytes) : Option Bytes :=
  match read with
  | some signature => if signature.length = 64 then some signature else fallback
  | none => fallback
where
  fallback := if direct.length = 64 then some direct else none

def answerSign (i : TaskId) (direct : Bytes) : Code Unit := do
  let read ← readSignature i
  match chooseSignature read direct with
  | some signature => sendAgentMessage i (signResponse signature)
  | none => sendFailure i

def signWith (ext : Extern) (i : TaskId) (idx : UInt8) (data : Bytes) : Code Unit := do
  match ← gatedSign i (keyCatSsh :: idx :: 0 :: ext.sha256 data) with
  | some (.ok (status, direct)) =>
    if status = rspOk ∨ status = rspFpGateApproved then answerSign i direct else sendFailure i
  | some (.error _) => sendFailure i
  | none => pure ()

def handleSignRequest (ext : Extern) (i : TaskId) (payload : Bytes) : Code Unit :=
  match parseSignRequest payload with
  | none => sendFailure i
  | some (blob, data) => do
    let keys ← loadSshKeys
    match keys.find? fun e => e.publicKeyBlob = blob with
    | none => sendFailure i
    | some e => do
      let connected ← awaitReconnect
      if !connected then sendFailure i
      else do
        let verified ← load (·.isDeviceVerified)
        if !verified then sendFailure i else signWith ext i e.index data

-- ---------------------------------------------------------------------------
-- The connection
-- ---------------------------------------------------------------------------

/-- The keys belong to whoever is logged in, or the owner when that cannot be
told. -/
def verifyPeerUid (uid : Nat) : Code Bool :=
  if uid = 0 then pure true
  else do
    match ← uidIsActive uid with
    | some active => pure active
    | none => do
      let owner ← ownerUid
      pure (owner == some uid)

def agentMessage (ext : Extern) (i : TaskId) : Bytes → Code Unit
  | [] => sendFailure i
  | kind :: payload =>
    if kind = sshAgentcRequestIdentities then handleRequestIdentities i
    else if kind = sshAgentcSignRequest then handleSignRequest ext i payload
    else sendFailure i

def handleAgentClient (ext : Extern) (i : TaskId) (peer : Peer) : Code Unit := do
  let allowed ← verifyPeerUid peer.uid
  Proc.when allowed <| Proc.loop do
    let now ← clock
    match ← readAgentMessage i (now + secs 120) with
    | none => pure (some ())
    | some msg => do
      agentMessage ext i msg
      pure none

end Immurok
