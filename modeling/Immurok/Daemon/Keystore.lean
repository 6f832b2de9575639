import Immurok.Async.Closed
import Immurok.Daemon.Coordinator
import Immurok.Text.Utf8

/-!
# The key cache

The cache files of the device's keys and their synchronisation. The code is
written over what it uses of its surroundings, `KeyIo`: commands to the device
and the three files. The BLE worker supplies its own.
-/

namespace Immurok

open Async

abbrev Digests := List (Str × DigestEntry)

def Digests.get (d : Digests) (cat : Str) : Option DigestEntry := d.lookup cat

def Digests.insert (d : Digests) (cat : Str) (e : DigestEntry) : Digests :=
  (cat, e) :: d.filter fun p => p.1 ≠ cat

-- ---------------------------------------------------------------------------
-- Entries
-- ---------------------------------------------------------------------------

def u32Be (n : Nat) : Bytes :=
  [UInt8.ofNat (n / 2 ^ 24), UInt8.ofNat (n / 2 ^ 16), UInt8.ofNat (n / 2 ^ 8), UInt8.ofNat n]

def u32Le (n : Nat) : Bytes := (u32Be n).reverse

def ascii (s : String) : Bytes := s.toList.map fun c => UInt8.ofNat c.toNat

def sshString (bs : Bytes) : Bytes := u32Be bs.length ++ bs

def buildSshPublicKeyBlob (pubkeyBe : Bytes) : Option Bytes :=
  if pubkeyBe.length ≠ 64 then none
  else
    some (sshString (ascii "ecdsa-sha2-nistp256") ++ sshString (ascii "nistp256") ++
      u32Be 65 ++ 0x04 :: pubkeyBe)

def computeFingerprint (ext : Extern) (blob : Bytes) : Str :=
  "SHA256:".toList ++ Str.trimEndMatches (· == '=') (ext.base64Encode (ext.sha256 blob))

/-- Both coordinates from the device's byte order to that of SSH. -/
def convertEndianness64 (le : Bytes) : Bytes :=
  if le.length ≠ 64 then le else (le.take 32).reverse ++ (le.drop 32).reverse

/-- A text field of an entry: up to the first zero byte. -/
def textField (bs : Bytes) : Str := Utf8.lossy (bs.takeWhile (· ≠ 0))

/-- The SSH key of an entry `name[16] ++ pubkey[64]`, if the entry is long
enough. -/
def decodeSshEntry (ext : Extern) (idx : UInt8) (data : Bytes) : Option SshKeyCacheEntry :=
  if data.length < 80 then none
  else
    let pubkeyBe := convertEndianness64 ((data.drop 16).take 64)
    (buildSshPublicKeyBlob pubkeyBe).map fun blob =>
      { index := idx
        name := textField (data.take 16)
        publicKeyBlob := blob
        fingerprint := computeFingerprint ext blob }

def nameLen (category : UInt8) : Nat :=
  if category = keyCatOtp then nameLenOtp
  else if category = keyCatApi then nameLenApi
  else nameLenSsh

/-- The name, and for OTP the service, of an entry that has them. -/
def decodeNameEntry (category : UInt8) (catStr : Str) (idx : UInt8) (data : Bytes) :
    Option KeyNameEntry :=
  let n := nameLen category
  if data.length < n then none
  else
    some
      { index := idx
        category := catStr
        name := textField (data.take n)
        service :=
          if category = keyCatOtp ∧ n + serviceLenOtp ≤ data.length then
            textField ((data.drop n).take serviceLenOtp)
          else [] }

-- ---------------------------------------------------------------------------
-- Reading the device
-- ---------------------------------------------------------------------------

variable {σ : Type}

/-- What the synchronisation uses: `send` is `send_command_inner` with the
command timeout, saving may fail. -/
structure KeyIo (σ : Type) where
  send : UInt8 → Bytes → Proc σ (Except Str Bytes)
  loadDigests : Proc σ Digests
  saveDigests : Digests → Proc σ (Except Str Unit)
  saveSshKeys : List SshKeyCacheEntry → Proc σ (Except Str Unit)
  loadKeyNames : Proc σ (List KeyNameEntry)
  saveKeyNames : List KeyNameEntry → Proc σ (Except Str Unit)

/-- `?`: goes on with the value, or ends with the error. -/
def tryThen (t : Proc σ (Except Str α)) (k : α → Proc σ (Except Str β)) : Proc σ (Except Str β) :=
  t.bind fun
    | .ok a => k a
    | .error e => .ret (.error e)

/-- A digest hit; a checksum of 0 never is one. -/
def digestHit (saved : Option DigestEntry) (count : UInt8) (checksum : Nat) : Bool :=
  checksum != 0 && saved.any fun s => s.count == count && s.checksum == checksum

/-- Count and checksum in the answer of `KEY_COUNT`. -/
def parseKeyCount : Bytes → Except Str (UInt8 × Nat)
  | status :: count :: rest =>
    if status ≠ rspOk then
      .error ("KEY_COUNT failed: [".toList ++ Str.hexEncode (status :: count :: rest) ++ "]".toList)
    else
      match rest with
      | a :: b :: c :: d :: _ =>
        .ok (count, a.toNat + 2 ^ 8 * b.toNat + 2 ^ 16 * c.toNat + 2 ^ 24 * d.toNat)
      | _ => .ok (count, 0)
  | rsp => .error ("KEY_COUNT failed: [".toList ++ Str.hexEncode rsp ++ "]".toList)

def getKeyCountInner (io : KeyIo σ) (category : UInt8) : Proc σ (Except Str (UInt8 × Nat)) :=
  tryThen (io.send cmdKeyCount [category]) fun rsp => pure (parseKeyCount rsp)

/-- One entry, read in chunks `[status][total][offset][data]`. -/
def readKeyEntryInner (io : KeyIo σ) (category index : UInt8) : Proc σ (Except Str Bytes) :=
  Proc.repeatFrom [] fun full => do
    match ← io.send cmdKeyRead [category, index, UInt8.ofNat full.length] with
    | .error e => pure (.inr (.error e))
    | .ok rsp =>
      match rsp with
      | status :: total :: _ :: chunk =>
        if status ≠ rspOk then
          pure (.inr (.error ("KEY_READ failed: [".toList ++ Str.hexEncode rsp ++ "]".toList)))
        else
          let full := full ++ chunk
          if total.toNat ≤ full.length then pure (.inr (.ok (full.take total.toNat)))
          else pure (.inl full)
      | _ => pure (.inr (.error ("KEY_READ failed: [".toList ++ Str.hexEncode rsp ++ "]".toList)))

/-- The entries `0..count` that decode; one that cannot be read is skipped
with a warning. -/
def readEntries (io : KeyIo σ) (category count : UInt8) (decode : UInt8 → Bytes → Option ε) :
    Proc σ (Except Str (List ε)) :=
  Proc.repeatFrom ((0, []) : Nat × List ε) fun (idx, entries) =>
    if count.toNat ≤ idx then pure (.inr (.ok entries))
    else do
      match ← readKeyEntryInner io category (UInt8.ofNat idx) with
      | .ok data => pure (.inl (idx + 1, entries ++ (decode (UInt8.ofNat idx) data).toList))
      | .error _ => pure (.inl (idx + 1, entries))

def readSshEntries (ext : Extern) (io : KeyIo σ) (category count : UInt8) :
    Proc σ (Except Str (List SshKeyCacheEntry)) :=
  readEntries io category count (decodeSshEntry ext)

def readNameEntries (io : KeyIo σ) (category count : UInt8) (catStr : Str) :
    Proc σ (Except Str (List KeyNameEntry)) :=
  readEntries io category count (decodeNameEntry category catStr)

-- ---------------------------------------------------------------------------
-- Synchronisation
-- ---------------------------------------------------------------------------

/-- The SSH part: a digest hit, or a full read whose digest is recorded. -/
def syncSsh (ext : Extern) (io : KeyIo σ) (saved fresh : Digests) : Proc σ (Except Str Digests) :=
  tryThen (getKeyCountInner io keyCatSsh) fun (count, checksum) =>
    if digestHit (saved.get "ssh") count checksum then pure (.ok fresh)
    else
      tryThen (readSshEntries ext io keyCatSsh count) fun entries =>
        tryThen (io.saveSshKeys entries) fun _ =>
          pure (.ok (fresh.insert "ssh" { count, checksum }))

/-- The entries of one category of names: those on disk on a hit. -/
def nameEntries (io : KeyIo σ) (cached : List KeyNameEntry) (hit : Bool) (category count : UInt8)
    (catStr : Str) : Proc σ (Except Str (List KeyNameEntry)) :=
  if hit then pure (.ok (cached.filter fun e => e.category = catStr))
  else readNameEntries io category count catStr

/-- The OTP and API part: the two categories share one file. -/
def syncNames (io : KeyIo σ) (saved fresh : Digests) : Proc σ (Except Str Digests) :=
  tryThen (getKeyCountInner io keyCatOtp) fun (otpCount, otpChecksum) =>
    tryThen (getKeyCountInner io keyCatApi) fun (apiCount, apiChecksum) =>
      let otpHit := digestHit (saved.get "otp") otpCount otpChecksum
      let apiHit := digestHit (saved.get "api") apiCount apiChecksum
      if otpHit && apiHit then pure (.ok fresh)
      else do
        let cached ← io.loadKeyNames
        tryThen (nameEntries io cached otpHit keyCatOtp otpCount "otp") fun otpEntries =>
          tryThen (nameEntries io cached apiHit keyCatApi apiCount "api") fun apiEntries =>
            tryThen (io.saveKeyNames (otpEntries ++ apiEntries)) fun _ =>
              pure (.ok ((fresh.insert "otp" { count := otpCount, checksum := otpChecksum }).insert
                "api" { count := apiCount, checksum := apiChecksum }))

def syncSshKeys (ext : Extern) (io : KeyIo σ) : Proc σ (Except Str Unit) := do
  let saved ← io.loadDigests
  tryThen (syncSsh ext io saved saved) fun fresh =>
    tryThen (syncNames io saved fresh) fun fresh => do
      -- a failure to save is only logged
      let _ ← io.saveDigests fresh
      pure (.ok ())

-- ---------------------------------------------------------------------------
-- Kinds of code
-- ---------------------------------------------------------------------------

/-- All that the synchronisation uses is of the kind `K`. -/
structure KeyIo.All (K : ∀ {α : Type}, Proc σ α → Prop) (io : KeyIo σ) : Prop where
  send : ∀ cmd payload, K (io.send cmd payload)
  loadDigests : K io.loadDigests
  saveDigests : ∀ d, K (io.saveDigests d)
  saveSshKeys : ∀ keys, K (io.saveSshKeys keys)
  loadKeyNames : K io.loadKeyNames
  saveKeyNames : ∀ names, K (io.saveKeyNames names)

section
variable {K : ∀ {α : Type}, Proc σ α → Prop} {io : KeyIo σ} {ext : Extern} {ε : Type}

theorem tryThen_all (hK : Proc.Closed K) {t : Proc σ (Except Str α)}
    {k : α → Proc σ (Except Str β)} (ht : K t) (hk : ∀ a, K (k a)) : K (tryThen t k) := by
  refine hK.bind ht fun r => ?_
  cases r with
  | ok a => exact hk a
  | error e => exact hK.ret

variable (hK : Proc.Closed K) (hio : io.All K)

include hK hio

theorem getKeyCountInner_all {category : UInt8} : K (getKeyCountInner io category) :=
  tryThen_all hK (hio.send _ _) fun _ => hK.ret

theorem readKeyEntryInner_all {category index : UInt8} : K (readKeyEntryInner io category index) := by
  refine hK.repeatFrom fun full => hK.bind (hio.send _ _) fun r => ?_
  cases r with
  | error e => exact hK.ret
  | ok rsp =>
    dsimp only
    split
    · exact hK.ite hK.ret (hK.ite hK.ret hK.ret)
    · exact hK.ret

theorem readEntries_all {category count : UInt8} {decode : UInt8 → Bytes → Option ε} :
    K (readEntries io category count decode) := by
  refine hK.repeatFrom fun (idx, entries) => hK.ite hK.ret ?_
  refine hK.bind (readKeyEntryInner_all hK hio) fun r => ?_
  cases r <;> exact hK.ret

theorem syncSsh_all {saved fresh : Digests} : K (syncSsh ext io saved fresh) := by
  refine tryThen_all hK (getKeyCountInner_all hK hio) fun (count, checksum) => ?_
  refine hK.ite hK.ret (tryThen_all hK (readEntries_all hK hio) fun entries => ?_)
  exact tryThen_all hK (hio.saveSshKeys _) fun _ => hK.ret

theorem nameEntries_all {cached : List KeyNameEntry} {hit : Bool} {category count : UInt8}
    {catStr : Str} : K (nameEntries io cached hit category count catStr) :=
  hK.ite hK.ret (readEntries_all hK hio)

theorem syncNames_all {saved fresh : Digests} : K (syncNames io saved fresh) := by
  refine tryThen_all hK (getKeyCountInner_all hK hio) fun (otpCount, otpChecksum) => ?_
  refine tryThen_all hK (getKeyCountInner_all hK hio) fun (apiCount, apiChecksum) => ?_
  refine hK.ite hK.ret (hK.bind hio.loadKeyNames fun cached => ?_)
  refine tryThen_all hK (nameEntries_all hK hio) fun otpEntries => ?_
  refine tryThen_all hK (nameEntries_all hK hio) fun apiEntries => ?_
  exact tryThen_all hK (hio.saveKeyNames _) fun _ => hK.ret

theorem syncSshKeys_all : K (syncSshKeys ext io) := by
  refine hK.bind hio.loadDigests fun saved => tryThen_all hK (syncSsh_all hK hio) fun fresh => ?_
  refine tryThen_all hK (syncNames_all hK hio) fun fresh => ?_
  exact hK.bind (hio.saveDigests _) fun _ => hK.ret

end

end Immurok
