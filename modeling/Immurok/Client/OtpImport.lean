import Immurok.Client.Keys
import Immurok.Daemon.Sound
import Immurok.Text.Json

/-!
# What an import takes for a standard entry

The device computes codes of six digits for periods of thirty seconds with SHA1.
The parsers skip an entry that says something else, where they can read it.
-/

namespace Immurok

-- ---------------------------------------------------------------------------
-- Backups
-- ---------------------------------------------------------------------------

/-- The fields of an element, a value of another type counting as no value. -/
def AndOtp.ofJson (v : Json) : AndOtp where
  secret := (v.get "secret").bind Json.asStr
  issuer := (v.get "issuer").bind Json.asStr
  label := (v.get "label").bind Json.asStr
  kind := (v.get "type").bind Json.asStr
  algorithm := (v.get "algorithm").bind Json.asStr
  digits := (v.get "digits").bind Json.asU64
  period := (v.get "period").bind Json.asU64

/-- The entry of an element. -/
def andotpElement (toUppercase : Str → Str) (v : Json) : Option OtpEntry :=
  andOtpEntry toUppercase (.ofJson v)

/-- One round of the loop over the array. -/
def andotpRound (toUppercase : Str → Str) (acc : List OtpEntry × Nat) (v : Json) :
    List OtpEntry × Nat :=
  match andotpElement toUppercase v with
  | some e => (acc.1 ++ [e], acc.2)
  | none => (acc.1, acc.2 + 1)

/-- `fromStr` reads an array of values. -/
def parseAndotpJson (fromStr : Str → Option (List Json)) (toUppercase : Str → Str) (data : Str) :
    Option (List OtpEntry × Nat) :=
  (fromStr data).map fun arr => arr.foldl (andotpRound toUppercase) ([], 0)

-- ---------------------------------------------------------------------------
-- Sources
-- ---------------------------------------------------------------------------

/-- Host, path and query of an `otpauth` URI. -/
def uriParts (uri : Str) : Option (Str × Str × Str) := do
  let rest ← Str.stripPrefix "otpauth://" (Str.trim uri)
  let (host, afterHost) ← Str.splitOnce '/' rest
  some (host, (Str.splitOnce '?' afterHost).getD (afterHost, []))

/-- The value of `key`, if the pair has it. -/
def pairValue (ext : Extern) (key pair : Str) : Option Str :=
  (Str.splitOnce '=' pair).bind fun (k, v) =>
    if ext.toLowercase k = key then some (urlDecode v) else none

/-- The values of `key` in a query. -/
def queryValues (ext : Extern) (key query : Str) : List Str :=
  (query.splitOn '&').filterMap (pairValue ext key)

/-- A standard TOTP is described: each value says what the device does. -/
structure StandardUri (ext : Extern) (toUppercase : Str → Str) (host query : Str) : Prop where
  totp : host.map Char.toLower = "totp".toList
  digits : ∀ v ∈ queryValues ext "digits" query, parseU64 v = some 6
  period : ∀ v ∈ queryValues ext "period" query, parseU64 v = some 30
  algorithm : ∀ v ∈ queryValues ext "algorithm" query, toUppercase v = "SHA1".toList

/-- An entry comes of the URI although it describes something else: a value of
`digits` or `period` that cannot be read counts as none, and of several values the
last one counts. -/
structure MisreadUri (ext : Extern) (toUppercase : Str → Str) (host path query : Str) : Prop where
  totp : host.map Char.toLower = "totp".toList
  usable : otpEntry (queryValues ext "secret" query).getLast?
    (otpauthFields ((queryValues ext "issuer" query).getLast?.getD []) (urlDecode path)) ≠ none
  digits : ∀ v ∈ (queryValues ext "digits" query).getLast?, parseU64 v = some 6 ∨ parseU64 v = none
  period : ∀ v ∈ (queryValues ext "period" query).getLast?, parseU64 v = some 30 ∨ parseU64 v = none
  algorithm : ∀ v ∈ (queryValues ext "algorithm" query).getLast?, toUppercase v = "SHA1".toList
  other : (∃ v ∈ queryValues ext "digits" query, parseU64 v ≠ some 6) ∨
    (∃ v ∈ queryValues ext "period" query, parseU64 v ≠ some 30) ∨
    ∃ v ∈ queryValues ext "algorithm" query, toUppercase v ≠ "SHA1".toList

/-- The text of a value. -/
def Json.Spells (toUppercase : Str → Str) (text : Str) (v : Json) : Prop :=
  ∃ s, v = .str s ∧ toUppercase s = text

/-- The number of a value. -/
def Json.Denotes (n : Nat) : Json → Prop
  | .posInt m => m = n
  | .float q => q = n
  | _ => False

/-- The same of an element of a backup. -/
structure StandardJson (toUppercase : Str → Str) (v : Json) : Prop where
  kind : ∀ k ∈ v.get "type", k.Spells toUppercase "TOTP"
  algorithm : ∀ a ∈ v.get "algorithm", a.Spells toUppercase "SHA1"
  digits : ∀ d ∈ v.get "digits", d.Denotes 6
  period : ∀ p ∈ v.get "period", p.Denotes 30

/-- An entry comes of the element although it describes something else: a value of
another type counts as none. -/
structure MisreadJson (toUppercase : Str → Str) (v : Json) : Prop where
  usable : otpEntry ((v.get "secret").bind Json.asStr)
    (splitOtpFields (((v.get "issuer").bind Json.asStr).getD [])
      (((v.get "label").bind Json.asStr).getD [])) ≠ none
  kind : ∀ s, v.get "type" = some (.str s) → toUppercase s = "TOTP".toList
  algorithm : ∀ s, v.get "algorithm" = some (.str s) → toUppercase s = "SHA1".toList
  digits : ∀ n, v.get "digits" = some (.posInt n) → n = 6
  period : ∀ n, v.get "period" = some (.posInt n) → n = 30
  other : (∃ k ∈ v.get "type", k.asStr = none) ∨ (∃ a ∈ v.get "algorithm", a.asStr = none) ∨
    (∃ d ∈ v.get "digits", d.asU64 = none ∧ ¬d.Denotes 6) ∨
    ∃ p ∈ v.get "period", p.asU64 = none ∧ ¬p.Denotes 30

-- ---------------------------------------------------------------------------
-- URIs
-- ---------------------------------------------------------------------------

section
variable {ext : Extern} {toUppercase : Str → Str} {uri host path query key pair : Str}
  {q : OtpQuery} {pairs : List Str} {f : OtpQuery → α} {g : Str → α}

/-- What a pair sets, field by field. -/
theorem read_fields : q.read ext toUppercase pair =
    { secret := ((pairValue ext "secret" pair).map some).getD q.secret
      issuer := (pairValue ext "issuer" pair).getD q.issuer
      digits := ((pairValue ext "digits" pair).map fun v => (parseU64 v).getD 6).getD q.digits
      period := ((pairValue ext "period" pair).map fun v => (parseU64 v).getD 30).getD q.period
      algo := ((pairValue ext "algorithm" pair).map toUppercase).getD q.algo } := by
  unfold OtpQuery.read pairValue
  cases Str.splitOnce '=' pair with
  | none => rfl
  | some kv =>
    simp only [Option.bind_some]
    generalize ext.toLowercase kv.1 = k
    split
    next hk => subst hk; rfl
    next hsecret =>
      split
      next hk => subst hk; rfl
      next hissuer =>
        split
        next hk => subst hk; rfl
        next hdigits =>
          split
          next hk => subst hk; rfl
          next hperiod =>
            split
            next hk => subst hk; rfl
            next halgorithm =>
              rfl

/-- A field that each pair with the key sets is what the last one sets. -/
theorem foldl_read (key : Str) (f : OtpQuery → α) (g : Str → α)
    (h : ∀ q pair, f (q.read ext toUppercase pair) =
      ((pairValue ext key pair).map g).getD (f q)) :
    f (pairs.foldl (OtpQuery.read ext toUppercase) q) =
      ((pairs.filterMap (pairValue ext key)).getLast?.map g).getD (f q) := by
  induction pairs generalizing q with
  | nil => rfl
  | cons pair pairs ih =>
    rw [List.foldl_cons, ih, h]
    cases hv : pairValue ext key pair with
    | none => rw [List.filterMap_cons_none hv]; rfl
    | some v =>
      rw [List.filterMap_cons_some hv, List.getLast?_cons]
      cases (pairs.filterMap (pairValue ext key)).getLast? <;> rfl

/-- The query as it is after the loop. -/
def readQuery (ext : Extern) (toUppercase : Str → Str) (query : Str) : OtpQuery :=
  (query.splitOn '&').foldl (OtpQuery.read ext toUppercase) .default

theorem readQuery_eq : readQuery ext toUppercase query =
    { secret := (queryValues ext "secret" query).getLast?
      issuer := (queryValues ext "issuer" query).getLast?.getD []
      digits := ((queryValues ext "digits" query).getLast?.map fun v =>
        (parseU64 v).getD 6).getD 6
      period := ((queryValues ext "period" query).getLast?.map fun v =>
        (parseU64 v).getD 30).getD 30
      algo := ((queryValues ext "algorithm" query).getLast?.map toUppercase).getD "SHA1" } := by
  have hsecret : (readQuery ext toUppercase query).secret = _ :=
    foldl_read "secret" OtpQuery.secret some fun q pair => by rw [read_fields]
  have hissuer : (readQuery ext toUppercase query).issuer = _ :=
    foldl_read "issuer" OtpQuery.issuer id fun q pair => by rw [read_fields, Option.map_id]; rfl
  have hdigits : (readQuery ext toUppercase query).digits = _ :=
    foldl_read "digits" OtpQuery.digits _ fun q pair => by rw [read_fields]
  have hperiod : (readQuery ext toUppercase query).period = _ :=
    foldl_read "period" OtpQuery.period _ fun q pair => by rw [read_fields]
  have halgo : (readQuery ext toUppercase query).algo = _ :=
    foldl_read "algorithm" OtpQuery.algo toUppercase fun q pair => by rw [read_fields]
  have hsome {o : Option Str} : (o.map some).getD none = o := by cases o <;> rfl
  replace hsecret := hsecret.trans hsome
  rw [Option.map_id] at hissuer
  generalize readQuery ext toUppercase query = r at *
  obtain ⟨secret, issuer, digits, period, algo⟩ := r
  subst hsecret hissuer hdigits hperiod halgo
  rfl

theorem ite_none_ne_none {p : Prop} [Decidable p] {x : Option α} :
    (if p then none else x) ≠ none ↔ ¬p ∧ x ≠ none := by
  split <;> simp [*]

theorem parseOtpauthUri_eq : parseOtpauthUri ext toUppercase uri =
    (uriParts uri).bind fun (host, path, query) =>
      let q := readQuery ext toUppercase query
      if host.map Char.toLower ≠ "totp".toList then none
      else if q.digits ≠ 6 ∨ q.period ≠ 30 ∨ q.algo ≠ "SHA1".toList then none
      else otpEntry q.secret (otpauthFields q.issuer (urlDecode path)) := by
  unfold parseOtpauthUri uriParts
  cases Str.stripPrefix "otpauth://" (Str.trim uri) with
  | none => rfl
  | some rest =>
    simp only [Option.bind_eq_bind, Option.bind_some]
    cases Str.splitOnce '/' rest <;> rfl

/-- The last value counts as the default. -/
theorem last_number {d : Nat} {vs : List Str} :
    (vs.getLast?.map fun v => (parseU64 v).getD d).getD d = d ↔
      ∀ v ∈ vs.getLast?, parseU64 v = some d ∨ parseU64 v = none := by
  cases vs.getLast? with
  | none => simp
  | some v => cases h : parseU64 v <;> simp [h]

theorem last_text {text : Str} {vs : List Str} :
    (vs.getLast?.map toUppercase).getD text = text ↔
      ∀ v ∈ vs.getLast?, toUppercase v = text := by
  cases vs.getLast? <;> simp

theorem readQuery_counts :
    ¬((readQuery ext toUppercase query).digits ≠ 6 ∨ (readQuery ext toUppercase query).period ≠ 30 ∨
      (readQuery ext toUppercase query).algo ≠ "SHA1".toList) ↔
    (∀ v ∈ (queryValues ext "digits" query).getLast?, parseU64 v = some 6 ∨ parseU64 v = none) ∧
    (∀ v ∈ (queryValues ext "period" query).getLast?, parseU64 v = some 30 ∨ parseU64 v = none) ∧
    ∀ v ∈ (queryValues ext "algorithm" query).getLast?, toUppercase v = "SHA1".toList := by
  rw [readQuery_eq, not_or, not_or, not_not, not_not, not_not, last_number, last_number, last_text]

/-- An entry that comes of a URI is for a standard TOTP just where it is not misread. -/
theorem parseOtpauthUri_standard :
    (∀ e, parseOtpauthUri ext toUppercase uri = some e →
      ∃ host path query, uriParts uri = some (host, path, query) ∧
        StandardUri ext toUppercase host query) ↔
    ∀ host path query, uriParts uri = some (host, path, query) →
      ¬MisreadUri ext toUppercase host path query := by
  rw [parseOtpauthUri_eq]
  cases uriParts uri with
  | none => simp
  | some parts =>
    obtain ⟨host, path, query⟩ := parts
    have husable : otpEntry (readQuery ext toUppercase query).secret
        (otpauthFields (readQuery ext toUppercase query).issuer (urlDecode path)) =
        otpEntry (queryValues ext "secret" query).getLast?
          (otpauthFields ((queryValues ext "issuer" query).getLast?.getD []) (urlDecode path)) := by
      rw [readQuery_eq]
    simp only [Option.bind_some]
    constructor
    · rintro h _ _ _ ⟨⟩ hm
      obtain ⟨e, he⟩ := Option.ne_none_iff_exists'.mp hm.usable
      have hread := readQuery_counts.mpr ⟨hm.digits, hm.period, hm.algorithm⟩
      obtain ⟨_, _, _, ⟨⟩, hstd⟩ := h e (by
        rw [if_neg (not_not_intro hm.totp), if_neg hread, husable, he])
      obtain ⟨v, hv, hne⟩ | ⟨v, hv, hne⟩ | ⟨v, hv, hne⟩ := hm.other
      · exact hne (hstd.digits v hv)
      · exact hne (hstd.period v hv)
      · exact hne (hstd.algorithm v hv)
    · intro h e he
      obtain ⟨hhost, he⟩ := Option.ite_none_left_eq_some.mp he
      obtain ⟨hread, he⟩ := Option.ite_none_left_eq_some.mp he
      obtain ⟨hdigits, hperiod, halgo⟩ := readQuery_counts.mp hread
      have hother := fun o => h host path query rfl
        ⟨not_not.mp hhost, fun hnone => (nomatch (husable.trans hnone).symm.trans he),
          hdigits, hperiod, halgo, o⟩
      refine ⟨host, path, query, rfl, not_not.mp hhost, fun v hv => ?_, fun v hv => ?_,
        fun v hv => ?_⟩
      · by_contra hne
        exact hother (.inl ⟨v, hv, hne⟩)
      · by_contra hne
        exact hother (.inr (.inl ⟨v, hv, hne⟩))
      · by_contra hne
        exact hother (.inr (.inr ⟨v, hv, hne⟩))

end

-- ---------------------------------------------------------------------------
-- Backups
-- ---------------------------------------------------------------------------

section
variable {ext : Extern} {toUppercase : Str → Str} {v : Json} {arr : List Json}
  {fromStr : Str → Option (List Json)} {data : Str}

/-- Text in upper case stays as it is, as that of `str::to_uppercase` does. -/
def KeepsUpper (toUppercase : Str → Str) : Prop :=
  ∀ s : Str, (∀ c ∈ s, c.isUpper = true ∨ c.isDigit = true) → toUppercase s = s

theorem getD_text {o : Option Json} {text : Str} (h : toUppercase text = text) :
    toUppercase ((o.bind Json.asStr).getD text) = text ↔
      ∀ s, o = some (.str s) → toUppercase s = text := by
  cases o with
  | none => simp [h]
  | some j => cases j <;> simp [Json.asStr, h]

theorem getD_number {o : Option Json} {d : Nat} :
    (o.bind Json.asU64).getD d = d ↔ ∀ n, o = some (.posInt n) → n = d := by
  cases o with
  | none => simp
  | some j => cases j <;> simp [Json.asU64]

theorem andOtp_counts (hup : KeepsUpper toUppercase) :
    ¬(toUppercase (((v.get "type").bind Json.asStr).getD "TOTP") ≠ "TOTP".toList ∨
      toUppercase (((v.get "algorithm").bind Json.asStr).getD "SHA1") ≠ "SHA1".toList ∨
      ((v.get "digits").bind Json.asU64).getD 6 ≠ 6 ∨
      ((v.get "period").bind Json.asU64).getD 30 ≠ 30) ↔
    (∀ s, v.get "type" = some (.str s) → toUppercase s = "TOTP".toList) ∧
    (∀ s, v.get "algorithm" = some (.str s) → toUppercase s = "SHA1".toList) ∧
    (∀ n, v.get "digits" = some (.posInt n) → n = 6) ∧
    ∀ n, v.get "period" = some (.posInt n) → n = 30 := by
  have htotp : toUppercase "TOTP".toList = "TOTP".toList := hup _ (by decide)
  have hsha : toUppercase "SHA1".toList = "SHA1".toList := hup _ (by decide)
  rw [not_or, not_or, not_or, not_not, not_not, not_not, not_not, getD_text htotp,
    getD_text hsha, getD_number, getD_number]

theorem spells_of {o : Option Json} {text : Str}
    (h : ∀ s, o = some (.str s) → toUppercase s = text) (hother : ¬∃ j ∈ o, j.asStr = none) :
    ∀ j ∈ o, j.Spells toUppercase text := by
  intro j hj
  cases j with
  | str s => exact ⟨s, rfl, h s hj⟩
  | _ => exact absurd ⟨_, hj, rfl⟩ hother

theorem denotes_of {o : Option Json} {d : Nat} (h : ∀ n, o = some (.posInt n) → n = d)
    (hother : ¬∃ j ∈ o, j.asU64 = none ∧ ¬j.Denotes d) : ∀ j ∈ o, j.Denotes d := by
  intro j hj
  cases j with
  | posInt n => exact h n hj
  | _ => exact not_not.mp fun hne => hother ⟨_, hj, rfl, hne⟩

/-- An entry that comes of an element is for a standard TOTP just where it is not misread. -/
theorem andotpElement_standard (hup : KeepsUpper toUppercase) :
    (∀ e, andotpElement toUppercase v = some e → StandardJson toUppercase v) ↔
      ¬MisreadJson toUppercase v := by
  constructor
  · intro h hm
    obtain ⟨e, he⟩ := Option.ne_none_iff_exists'.mp hm.usable
    have hread := (andOtp_counts hup).mpr ⟨hm.kind, hm.algorithm, hm.digits, hm.period⟩
    have hstd := h e ((if_neg hread).trans he)
    obtain ⟨j, hj, hne⟩ | ⟨j, hj, hne⟩ | ⟨j, hj, -, hne⟩ | ⟨j, hj, -, hne⟩ := hm.other
    · obtain ⟨s, rfl, -⟩ := hstd.kind j hj
      nomatch hne
    · obtain ⟨s, rfl, -⟩ := hstd.algorithm j hj
      nomatch hne
    · exact hne (hstd.digits j hj)
    · exact hne (hstd.period j hj)
  · intro h e he
    obtain ⟨hread, he⟩ := Option.ite_none_left_eq_some.mp he
    obtain ⟨hkind, halgo, hdigits, hperiod⟩ := (andOtp_counts hup).mp hread
    have hother := fun o => h ⟨fun hnone => (nomatch hnone.symm.trans he), hkind, halgo, hdigits,
      hperiod, o⟩
    obtain ⟨hk, ha, hd, hp⟩ : ¬_ ∧ ¬_ ∧ ¬_ ∧ ¬_ := by
      rwa [← not_or, ← not_or, ← not_or]
    exact ⟨spells_of hkind hk, spells_of halgo ha, denotes_of hdigits hd, denotes_of hperiod hp⟩

/-- Each element of the array becomes an entry or is counted. -/
theorem foldl_andotpRound {acc acc' : List OtpEntry × Nat}
    (h : arr.foldl (andotpRound toUppercase) acc = acc') :
    acc'.1 = acc.1 ++ arr.filterMap (andotpElement toUppercase) ∧
      acc'.1.length + acc'.2 = acc.1.length + acc.2 + arr.length := by
  induction arr generalizing acc with
  | nil => exact h ▸ ⟨(List.append_nil _).symm, rfl⟩
  | cons v arr ih =>
    obtain ⟨hentries, hlen⟩ := ih h
    unfold andotpRound at hentries hlen
    cases hv : andotpElement toUppercase v with
    | none =>
      rw [hv] at hentries hlen
      refine ⟨by rw [List.filterMap_cons_none hv]; exact hentries, ?_⟩
      simp only [List.length_cons] at hlen ⊢
      omega
    | some e =>
      rw [hv] at hentries hlen
      refine ⟨?_, ?_⟩
      · rw [List.filterMap_cons_some hv, List.append_cons]
        exact hentries
      · simp only [List.length_append, List.length_cons, List.length_nil] at hlen ⊢
        omega

/-- An entry comes of a URI or of an element of a backup for a standard TOTP only,
but for the ones that are misread. -/
theorem otp_standard_iff (hup : KeepsUpper toUppercase) :
    (∀ uri, (∀ e, parseOtpauthUri ext toUppercase uri = some e →
        ∃ host path query, uriParts uri = some (host, path, query) ∧
          StandardUri ext toUppercase host query) ↔
      ∀ host path query, uriParts uri = some (host, path, query) →
        ¬MisreadUri ext toUppercase host path query) ∧
    (∀ v, (∀ e, andotpElement toUppercase v = some e → StandardJson toUppercase v) ↔
      ¬MisreadJson toUppercase v) ∧
    ∀ fromStr data arr, fromStr data = some arr → ∃ entries skipped,
      parseAndotpJson fromStr toUppercase data = some (entries, skipped) ∧
      entries = arr.filterMap (andotpElement toUppercase) ∧
      entries.length + skipped = arr.length := by
  refine ⟨fun uri => parseOtpauthUri_standard, fun v => andotpElement_standard hup,
    fun fromStr data arr harr => ?_⟩
  have hround : arr.foldl (andotpRound toUppercase) ([], 0) = _ := rfl
  obtain ⟨hentries, hlen⟩ := foldl_andotpRound hround
  refine ⟨_, _, by rw [parseAndotpJson, harr]; rfl, hentries, ?_⟩
  simpa using hlen

end

theorem keepsUpper_ascii : KeepsUpper (List.map Char.toUpper) := by
  intro s hs
  refine (List.map_congr_left fun c hc => ?_).trans (List.map_id s)
  refine dif_neg fun hlower => ?_
  have hle : 97 ≤ c.toNat := UInt32.le_iff_toNat_le.mp hlower.1
  obtain h | h := hs c hc
  · have hZ : c.toNat ≤ 90 := UInt32.le_iff_toNat_le.mp (of_decide_eq_true h).2
    omega
  · have h9 : c.toNat ≤ 57 := by
      rw [Char.isDigit, Bool.and_eq_true, decide_eq_true_eq, decide_eq_true_eq] at h
      exact UInt32.le_iff_toNat_le.mp h.2
    omega

/-- An element that gives the number of digits. -/
def sixDigits : Json :=
  .obj [("secret", .str "MZXW6"), ("label", .str "a"), ("digits", .posInt 6)]

theorem otp_standard_six : StandardJson (List.map Char.toUpper) sixDigits := by
  have hread : ¬MisreadJson (List.map Char.toUpper) sixDigits := by
    rintro ⟨-, -, -, -, -, ⟨_, h, -⟩ | ⟨_, h, -⟩ | ⟨_, h, hnone, -⟩ | ⟨_, h, -⟩⟩
    · nomatch h
    · nomatch h
    · obtain rfl := Option.some.inj h
      nomatch hnone
    · nomatch h
  refine ((@otp_standard_iff .sample _ keepsUpper_ascii).2.1 sixDigits).mpr hread
    ⟨"a", [], [0x66, 0x6F, 0x6F]⟩ ?_
  decide

/-- Eight digits, as a text. -/
def eightDigits : Json :=
  .obj [("secret", .str "MZXW6"), ("label", .str "a"), ("digits", .str "8")]

/-- The same in a URI. -/
def eightUri : Str := "otpauth://totp/a?secret=MZXW6&digits=8.0".toList

/-- Both are taken for entries of six digits. -/
theorem eight_digits_taken :
    andotpElement (List.map Char.toUpper) eightDigits = some ⟨"a", [], [0x66, 0x6F, 0x6F]⟩ ∧
    ¬StandardJson (List.map Char.toUpper) eightDigits ∧
    parseOtpauthUri .sample (List.map Char.toUpper) eightUri =
      some ⟨"a", [], [0x66, 0x6F, 0x6F]⟩ ∧
    ¬∃ host path query, uriParts eightUri = some (host, path, query) ∧
      StandardUri .sample (List.map Char.toUpper) host query := by
  refine ⟨by decide, fun h => h.digits _ rfl, by decide, ?_⟩
  rintro ⟨_, _, _, hparts, hstd⟩
  have hquery : uriParts eightUri =
      some ("totp".toList, "a".toList, "secret=MZXW6&digits=8.0".toList) := by decide
  obtain ⟨⟩ := hparts.symm.trans hquery
  have hvalues : queryValues .sample "digits" "secret=MZXW6&digits=8.0" = ["8.0".toList] := by
    decide
  have hdigits := hstd.digits
  rw [hvalues] at hdigits
  exact absurd (hdigits _ (.head _)) (by decide)

end Immurok
