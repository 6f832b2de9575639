import Immurok.Daemon.Socket

/-!
# Keys, as the clients add and read them

The entries a client takes from a form or a file, the payload it sends for one
and what it makes of the daemon's answers.
-/

namespace Immurok

-- ---------------------------------------------------------------------------
-- Import files
-- ---------------------------------------------------------------------------

structure OtpEntry where
  name : Str
  service : Str
  secret : Bytes
  deriving DecidableEq

def base32Value? (c : Char) : Option UInt32 :=
  if 'A' ≤ c ∧ c ≤ 'Z' then some (UInt32.ofNat (c.toNat - 'A'.toNat))
  else if '2' ≤ c ∧ c ≤ '7' then some (UInt32.ofNat (c.toNat - '2'.toNat + 26))
  else none

/-- The last `nbits` of `bits` have not gone into a byte yet. -/
def base32Digits (bits : UInt32) (nbits : Nat) : Str → Option Bytes
  | [] => some []
  | c :: s =>
    (base32Value? c).bind fun v =>
      let bits := bits <<< 5 ||| v
      let nbits := nbits + 5
      if 8 ≤ nbits then
        (base32Digits bits (nbits - 8) s).map ((bits >>> UInt32.ofNat (nbits - 8)).toUInt8 :: ·)
      else base32Digits bits nbits s

def base32Decode (s : Str) : Option Bytes :=
  base32Digits 0 0 ((s.filter fun c => !Str.isWhitespace c && c != '=').map Char.toUpper)

/-- The longest beginning of at most `max` bytes. -/
def truncateUtf8 : Str → Nat → Str
  | [], _ => []
  | c :: s, max => if c.utf8Size ≤ max then c :: truncateUtf8 s (max - c.utf8Size) else []

/-- Issuer and label as the device's service and name; without an account the
service is the name. -/
def splitOtpFields (issuer label : Str) : Str × Str :=
  let issuer := Str.trim issuer
  let label := Str.trim label
  let (service, account) :=
    if issuer ≠ [] then (issuer, label)
    else
      match Str.splitOnce ':' label with
      | some (svc, acc) => (Str.trim svc, Str.trim acc)
      | none => ([], label)
  let (service, account) := if account = [] then ([], service) else (service, account)
  (truncateUtf8 service (serviceLenOtp - 1), truncateUtf8 account (nameLenOtp - 1))

/-- The byte that stands after a percent sign. -/
def percentByte : Bytes → Option UInt8
  | hi :: lo :: _ =>
    (Str.hexValue? (Char.ofNat hi.toNat)).bind fun h =>
      (Str.hexValue? (Char.ofNat lo.toNat)).map fun l => h * 16 + l
  | _ => none

/-- The next `skip` bytes belong to the one decoded before them. -/
def urlDecodeFrom : Nat → Bytes → Bytes
  | _, [] => []
  | skip + 1, _ :: bs => urlDecodeFrom skip bs
  | 0, b :: bs =>
    match if b = 0x25 then percentByte bs else none with
    | some v => v :: urlDecodeFrom 2 bs
    | none => b :: urlDecodeFrom 0 bs

def urlDecode (s : Str) : Str := Utf8.lossy (urlDecodeFrom 0 (utf8 s))

/-- `str::parse::<u64>`. -/
def parseU64 (s : Str) : Option Nat := (Str.parseUnsigned (2 ^ 64) s).toOption

structure OtpQuery where
  secret : Option Str
  issuer : Str
  digits : Nat
  period : Nat
  algo : Str

def OtpQuery.default : OtpQuery :=
  { secret := none, issuer := [], digits := 6, period := 30, algo := "SHA1" }

/-- One `key=value` of the query. -/
def OtpQuery.read (ext : Extern) (toUppercase : Str → Str) (q : OtpQuery) (pair : Str) : OtpQuery :=
  match Str.splitOnce '=' pair with
  | none => q
  | some (k, v) =>
    let decoded := urlDecode v
    let k := ext.toLowercase k
    if k = "secret".toList then { q with secret := some decoded }
    else if k = "issuer".toList then { q with issuer := decoded }
    else if k = "digits".toList then { q with digits := (parseU64 decoded).getD 6 }
    else if k = "period".toList then { q with period := (parseU64 decoded).getD 30 }
    else if k = "algorithm".toList then { q with algo := toUppercase decoded }
    else q

/-- Service and name; an issuer in the query wins over one in the path. -/
def otpauthFields (issuer path : Str) : Str × Str :=
  if issuer ≠ [] then
    match Str.splitOnce ':' path with
    | some (_, acc) => splitOtpFields issuer acc
    | none => splitOtpFields issuer path
  else splitOtpFields [] path

/-- An entry of these fields, if it has a secret and a name. -/
def otpEntry (secret : Option Str) (fields : Str × Str) : Option OtpEntry := do
  let secret ← base32Decode (← secret)
  if secret = [] then none
  else if fields.2 = [] then none
  else some { name := fields.2, service := fields.1, secret }

/-- `otpauth://totp/<label>?secret=…&issuer=…`. -/
def parseOtpauthUri (ext : Extern) (toUppercase : Str → Str) (uri : Str) : Option OtpEntry := do
  let rest ← Str.stripPrefix "otpauth://" (Str.trim uri)
  let (host, afterHost) ← Str.splitOnce '/' rest
  if host.map Char.toLower ≠ "totp".toList then none
  else
    let (pathRaw, queryRaw) := (Str.splitOnce '?' afterHost).getD (afterHost, [])
    let path := urlDecode pathRaw
    let q := (queryRaw.splitOn '&').foldl (OtpQuery.read ext toUppercase) .default
    if q.digits ≠ 6 ∨ q.period ≠ 30 ∨ q.algo ≠ "SHA1".toList then none
    else otpEntry q.secret (otpauthFields q.issuer path)

/-- An element of an andOTP backup, its fields where they are there. -/
structure AndOtp where
  secret : Option Str
  issuer : Option Str
  label : Option Str
  kind : Option Str
  algorithm : Option Str
  digits : Option Nat
  period : Option Nat

def andOtpEntry (toUppercase : Str → Str) (v : AndOtp) : Option OtpEntry :=
  if toUppercase (v.kind.getD "TOTP") ≠ "TOTP".toList ∨
      toUppercase (v.algorithm.getD "SHA1") ≠ "SHA1".toList ∨
      v.digits.getD 6 ≠ 6 ∨ v.period.getD 30 ≠ 30 then none
  else otpEntry v.secret (splitOtpFields (v.issuer.getD []) (v.label.getD []))

/-- The entries, and how many were skipped. -/
def parseAndotp (toUppercase : Str → Str) (arr : List AndOtp) : List OtpEntry × Nat :=
  let entries := arr.filterMap (andOtpEntry toUppercase)
  (entries, arr.length - entries.length)

-- ---------------------------------------------------------------------------
-- Adding
-- ---------------------------------------------------------------------------

def padField (text : Str) (len : Nat) : Bytes :=
  let bytes := utf8 (truncateUtf8 text (len - 1))
  bytes ++ List.replicate (len - bytes.length) 0

def buildOtpEntryPayload (e : OtpEntry) : Bytes :=
  padField e.name nameLenOtp ++ padField e.service serviceLenOtp ++ e.secret

inductive KeyAddCat
  | otp
  | api

def keyAddPayload (cat : KeyAddCat) (name service : Str) (secret : Bytes) : Bytes :=
  match cat with
  | .otp => padField name nameLenOtp ++ padField service serviceLenOtp ++ secret
  | .api => padField name nameLenApi ++ secret

def KeyAddCat.verb : KeyAddCat → Str
  | .otp => "OTP_IMPORT"
  | .api => "API_IMPORT"

def buildKeyAddCmd (cat : KeyAddCat) (name service : Str) (secret : Bytes) : Str :=
  "KEY:".toList ++ cat.verb ++ ":".toList ++ Str.hexEncode (keyAddPayload cat name service secret)

/-- The command that adds the entry, or why there is none. -/
def addOtp (e : OtpEntry) : Except Str Str :=
  if e.secret = [] then .error "Secret cannot be empty."
  else if secretLenOtp < e.secret.length then
    .error ("Secret too long: ".toList ++ Str.ofNat e.secret.length ++
      " bytes decoded (device limit ".toList ++ Str.ofNat secretLenOtp ++ ").".toList)
  else .ok ("KEY:OTP_IMPORT:".toList ++ Str.hexEncode (buildOtpEntryPayload e))

def addApi (name value : Str) : Except Str Str :=
  if value = [] then .error "Value cannot be empty."
  else if valueLenApi < (utf8 value).length then
    .error ("Value too long: ".toList ++ Str.ofNat (utf8 value).length ++
      " bytes (device limit ".toList ++ Str.ofNat valueLenApi ++ ").".toList)
  else .ok (buildKeyAddCmd .api name [] (utf8 value))

def buildSshNamePayload (name : Str) : Bytes := padField name nameLenSsh

def generateSsh (name : Str) : Str :=
  "KEY:GENERATE:".toList ++ Str.hexEncode (buildSshNamePayload name)

/-- Name, public key and private key, each coordinate little-endian. -/
def buildSshImportPayload (name : Str) (privkey pubkey : Bytes) : Bytes :=
  buildSshNamePayload name ++ (pubkey.take 32).reverse ++ (pubkey.drop 32).reverse ++
    privkey.reverse

/-- `keypair` is what comes of the PEM text. -/
def importSshKey (name : Str) (keypair : Except Str (Bytes × Bytes)) : Except Str Str :=
  keypair.map fun (privkey, pubkey) =>
    "KEY:IMPORT:".toList ++ Str.hexEncode (buildSshImportPayload name privkey pubkey)

-- ---------------------------------------------------------------------------
-- Listing
-- ---------------------------------------------------------------------------

inductive KeyCategory
  | ssh
  | otp
  | api
  deriving DecidableEq

def KeyCategory.wire : KeyCategory → Str
  | .ssh => "ssh"
  | .otp => "otp"
  | .api => "api"

structure KeyEntry where
  index : UInt8
  category : KeyCategory
  name : Str
  service : Str
  sshPubkeyB64 : Str

def nameEntry (category : KeyCategory) (e : KeyNameEntry) : KeyEntry :=
  { index := e.index, category, name := e.name, service := e.service, sshPubkeyB64 := [] }

/-- OTP, API and SSH entries of the two caches, each by index. -/
def parseKeyCache (ext : Extern) (ssh : List SshKeyCacheEntry) (names : List KeyNameEntry) :
    List KeyEntry :=
  let byIndex (entries : List KeyEntry) := entries.mergeSort fun a b => a.index ≤ b.index
  byIndex ((names.filter fun e => e.category = "otp".toList).map (nameEntry .otp)) ++
    byIndex ((names.filter fun e => e.category = "api".toList).map (nameEntry .api)) ++
    byIndex (ssh.map fun e =>
      { index := e.index, category := .ssh, name := e.name, service := []
        sshPubkeyB64 := ext.base64Encode e.publicKeyBlob })

/-- The entries `imk list` prints of a response: its lines after the first
one, but for empty ones. -/
def listedLines (resp : Str) : List Str := (resp.splitOn '\n').tail.filter (· ≠ [])

-- ---------------------------------------------------------------------------
-- Reading
-- ---------------------------------------------------------------------------

/-- The first line of a response, trimmed. -/
def readLine (resp : Str) : Str := Str.trim (resp.takeWhile (· ≠ '\n'))

def parseSecretReply (rsp : Str) : Except Str Str :=
  match Str.stripPrefix "OK:" (Str.trim rsp) with
  | some v => .ok v
  | none => .error (Str.trim rsp)

/-- The request of `get_otp` and `get_api`. -/
def getRequest (cat : KeyCategory) (name : Str) : Str :=
  "GET:".toList ++ cat.wire ++ ":".toList ++ name

-- ---------------------------------------------------------------------------
-- Laws
-- ---------------------------------------------------------------------------

section
variable {ext : Extern} {s t name service : Str} {n k : Nat} {c : Char}

theorem length_utf8_cons : (utf8 (c :: s)).length = c.utf8Size + (utf8 s).length := by
  rw [utf8, List.flatMap_cons, List.length_append, String.length_utf8EncodeChar, utf8]

theorem length_utf8_le {s : Str} : (utf8 s).length ≤ 4 * s.length := by
  induction s with
  | nil => exact Nat.le_refl 0
  | cons c s ih =>
    have := Char.utf8Size_le_four c
    rw [length_utf8_cons, List.length_cons]
    omega

theorem length_le_utf8 {s : Str} : s.length ≤ (utf8 s).length := by
  induction s with
  | nil => exact Nat.le_refl _
  | cons c s ih =>
    have := c.utf8Size_pos
    rw [length_utf8_cons, List.length_cons]
    omega

theorem truncateUtf8_begins : truncateUtf8 s n <+: s := by
  induction s generalizing n with
  | nil => exact List.nil_prefix
  | cons c s ih =>
    rw [truncateUtf8]
    split
    · exact (List.prefix_cons_inj c).mpr ih
    · exact List.nil_prefix

theorem length_truncateUtf8 : (utf8 (truncateUtf8 s n)).length ≤ n := by
  induction s generalizing n with
  | nil => exact Nat.zero_le n
  | cons c s ih =>
    rw [truncateUtf8]
    split
    next h =>
      have := ih (n := n - c.utf8Size)
      rw [length_utf8_cons]
      omega
    next => exact Nat.zero_le n

/-- Text that fits is left as it is. -/
theorem truncateUtf8_eq (h : (utf8 s).length ≤ n) : truncateUtf8 s n = s := by
  induction s generalizing n with
  | nil => rfl
  | cons c s ih =>
    rw [length_utf8_cons] at h
    rw [truncateUtf8, if_pos (by omega), ih (by omega)]

theorem length_padField (h : 0 < n) : (padField s n).length = n := by
  have := length_truncateUtf8 (s := s) (n := n - 1)
  rw [padField, List.length_append, List.length_replicate]
  omega

/-- A field is read back up to a zero byte of the text itself. -/
theorem textField_padField (h : 0 < n) :
    textField (padField s n) = (truncateUtf8 s (n - 1)).takeWhile (· ≠ '\x00') := by
  have hlen := length_truncateUtf8 (s := s) (n := n - 1)
  obtain ⟨k, hk⟩ : ∃ k, n - (utf8 (truncateUtf8 s (n - 1))).length = k + 1 :=
    ⟨n - (utf8 (truncateUtf8 s (n - 1))).length - 1, by omega⟩
  rw [textField, padField, hk, List.replicate_succ]
  exact (congrArg Utf8.lossy (Utf8.takeWhile_encode (c := '\x00') (by decide))).trans
    Utf8.lossy_encode

/-- What a parser takes has a name, which fits its field. -/
theorem otpEntry_name {secret : Option Str} {fields : Str × Str} {e : OtpEntry}
    (h : otpEntry secret fields = some e) : e.name = fields.2 ∧ e.name ≠ [] := by
  obtain ⟨sec, -, h⟩ := Option.bind_eq_some_iff.mp h
  obtain ⟨bytes, -, h⟩ := Option.bind_eq_some_iff.mp h
  obtain ⟨-, h⟩ := Option.ite_none_left_eq_some.mp h
  obtain ⟨hne, h⟩ := Option.ite_none_left_eq_some.mp h
  obtain rfl := Option.some.inj h
  exact ⟨rfl, hne⟩

theorem length_splitOtpFields {issuer label : Str} :
    (utf8 (splitOtpFields issuer label).2).length ≤ nameLenOtp - 1 := length_truncateUtf8

theorem length_otpauthFields {issuer path : Str} :
    (utf8 (otpauthFields issuer path).2).length ≤ nameLenOtp - 1 := by
  unfold otpauthFields
  split
  · split <;> exact length_splitOtpFields
  · exact length_splitOtpFields

theorem parseOtpauthUri_name {toUppercase : Str → Str} {uri : Str} {e : OtpEntry}
    (h : parseOtpauthUri ext toUppercase uri = some e) :
    e.name ≠ [] ∧ truncateUtf8 e.name (nameLenOtp - 1) = e.name := by
  obtain ⟨rest, -, h⟩ := Option.bind_eq_some_iff.mp h
  obtain ⟨⟨host, afterHost⟩, -, h⟩ := Option.bind_eq_some_iff.mp h
  obtain ⟨-, h⟩ := Option.ite_none_left_eq_some.mp h
  obtain ⟨-, h⟩ := Option.ite_none_left_eq_some.mp h
  obtain ⟨hn, hne⟩ := otpEntry_name h
  exact ⟨hne, truncateUtf8_eq (hn ▸ length_otpauthFields)⟩

theorem andOtpEntry_name {toUppercase : Str → Str} {v : AndOtp} {e : OtpEntry}
    (h : andOtpEntry toUppercase v = some e) :
    e.name ≠ [] ∧ truncateUtf8 e.name (nameLenOtp - 1) = e.name := by
  obtain ⟨-, h⟩ := Option.ite_none_left_eq_some.mp h
  obtain ⟨hn, hne⟩ := otpEntry_name h
  exact ⟨hne, truncateUtf8_eq (hn ▸ length_splitOtpFields)⟩

end

end Immurok
