import Immurok.Client.SshImport

/-!
# Key files

The OpenSSH and the SEC1 file of a key pair, as other programs write them, and
what the two parsers make of them.
-/

namespace Immurok

open Checked

-- ---------------------------------------------------------------------------
-- Numbers
-- ---------------------------------------------------------------------------

/-- The lower `n` bytes of a number, big-endian. -/
def bigEndian : Nat → Nat → Bytes
  | 0, _ => []
  | n + 1, d => UInt8.ofNat (d / 2 ^ (8 * n)) :: bigEndian n d

/-- An mpint of up to 32 bytes: no more bytes than needed for the number with a
sign bit. -/
def mpint (d : Nat) : Bytes :=
  let bs := (bigEndian 32 d).dropWhile (· = 0)
  if 0x80 ≤ (bs.headD 0).toNat then 0 :: bs else bs

theorem length_bigEndian {n d : Nat} : (bigEndian n d).length = n := by
  induction n with
  | zero => rfl
  | succ n ih => rw [bigEndian, List.length_cons, ih]

-- ---------------------------------------------------------------------------
-- Files
-- ---------------------------------------------------------------------------

/-- The order of the group. -/
def p256Order : Nat := 0xFFFFFFFF00000000FFFFFFFFFFFFFFFFBCE6FAADA7179E84F3B9CAC2FC632551

/-- A secret number with its public point. -/
structure KeyPair (x : KeyCrates) (d : Nat) (q : Bytes) : Prop where
  pos : 0 < d
  lt : d < p256Order
  length : q.length = 64
  point : x.publicPoint (bigEndian 32 d) = .ok (0x04 :: q)

/-- What an OpenSSH file holds beside the key. -/
structure OpensshFile where
  check : UInt32
  comment : Bytes
  padding : Bytes
  short : comment.length + padding.length < 2 ^ 31

def sshPublicKey (q : Bytes) : Bytes :=
  sshString (ascii "ecdsa-sha2-nistp256") ++ (sshString (ascii "nistp256") ++ sshString (0x04 :: q))

def OpensshFile.privSection (f : OpensshFile) (d : Nat) (q : Bytes) : Bytes :=
  u32Be f.check.toNat ++ (u32Be f.check.toNat ++ (sshString (ascii "ecdsa-sha2-nistp256") ++
    (sshString (ascii "nistp256") ++ (sshString (0x04 :: q) ++ (sshString (mpint d) ++
      (sshString f.comment ++ f.padding))))))

/-- The unencrypted file. -/
def OpensshFile.encode (f : OpensshFile) (d : Nat) (q : Bytes) : Bytes :=
  opensshMagic ++ (sshString (ascii "none") ++ (sshString (ascii "none") ++ (sshString [] ++
    (u32Be 1 ++ (sshString (sshPublicKey q) ++ (sshString (f.privSection d q) ++ []))))))

/-- `[0]`, the name of the curve. -/
def sec1Curve : Bytes := [0xA0, 0x0A, 0x06, 0x08, 0x2A, 0x86, 0x48, 0xCE, 0x3D, 0x03, 0x01, 0x07]

inductive PublicForm
  | absent
  | compressed (form : UInt8)
  | uncompressed

/-- `[1]`, the public key. -/
def PublicForm.encode (q : Bytes) : PublicForm → Bytes
  | absent => []
  | compressed form => 0xA1 :: 0x24 :: 0x03 :: 0x22 :: 0x00 :: form :: q.take 32
  | uncompressed => 0xA1 :: 0x44 :: 0x03 :: 0x42 :: 0x00 :: 0x04 :: q

/-- What follows the private key; the curve may be left out. -/
def sec1Rest (curve : Bool) (form : PublicForm) (q : Bytes) : Bytes :=
  (if curve then sec1Curve else []) ++ (form.encode q ++ [])

def sec1Encode (curve : Bool) (form : PublicForm) (d : Nat) (q : Bytes) : Bytes :=
  let content := 0x02 :: 0x01 :: (0x01 :: 0x04 :: 0x20 :: (bigEndian 32 d ++ sec1Rest curve form q))
  0x30 :: UInt8.ofNat content.length :: content

/-- The text of a file, its base64 divided into lines. -/
def pemText (label : Str) (lines : List Str) : Str :=
  "-----BEGIN ".toList ++ label ++ "-----".toList ++ '\n' :: (lines.flatMap (· ++ ['\n']) ++
    ("-----END ".toList ++ label ++ "-----".toList ++ ['\n']))

def IsPem (encode : Bytes → Str) (label : Str) (data : Bytes) (text : Str) : Prop :=
  ∃ lines : List Str, lines.flatten = encode data ∧ text = pemText label lines

-- ---------------------------------------------------------------------------
-- The text
-- ---------------------------------------------------------------------------

section
variable {x : KeyCrates} {encode : Bytes → Str} {label text l s : Str} {lines : List Str}
  {data : Bytes}

theorem lines_cons (hl : '\n' ∉ l) (hr : l.getLast? ≠ some '\r') :
    Str.lines (l ++ '\n' :: s) = l :: Str.lines s := by
  rw [Str.lines, Lines.splitInclusive_line hl, List.map_cons, Str.stripLine,
    if_pos List.getLast?_concat, List.dropLast_concat, Lines.content_eq_self.mpr hr]
  rfl

/-- Neither a newline nor a carriage return. -/
def Unbroken (l : Str) : Prop := '\n' ∉ l ∧ '\r' ∉ l

theorem Unbroken.lines_cons (h : Unbroken l) : Str.lines (l ++ '\n' :: s) = l :: Str.lines s :=
  Immurok.lines_cons h.1 fun hr => h.2 (List.mem_of_getLast? hr)

theorem lines_flatMap (h : ∀ l ∈ lines, Unbroken l) :
    Str.lines (lines.flatMap (· ++ ['\n']) ++ s) = lines ++ Str.lines s := by
  induction lines with
  | nil => rfl
  | cons l lines ih =>
    obtain ⟨hl, hlines⟩ := List.forall_mem_cons.mp h
    rw [List.flatMap_cons, List.append_assoc, List.append_assoc, List.singleton_append,
      hl.lines_cons, ih hlines, List.cons_append]

theorem Unbroken.marker (hl : Unbroken l) (hlabel : Unbroken label) :
    Unbroken (l ++ label ++ "-----".toList) := by
  unfold Unbroken at hl hlabel ⊢
  simp only [List.mem_append, not_or]
  exact ⟨⟨⟨hl.1, hlabel.1⟩, by decide⟩, ⟨⟨hl.2, hlabel.2⟩, by decide⟩⟩

theorem lines_pemText (hlabel : Unbroken label) (h : ∀ l ∈ lines, Unbroken l) :
    Str.lines (pemText label lines) = ("-----BEGIN ".toList ++ label ++ "-----".toList) ::
      (lines ++ ["-----END ".toList ++ label ++ "-----".toList]) := by
  have hbegin : Unbroken ("-----BEGIN ".toList ++ label ++ "-----".toList) :=
    .marker ⟨by decide, by decide⟩ hlabel
  have hend : Unbroken ("-----END ".toList ++ label ++ "-----".toList) :=
    .marker ⟨by decide, by decide⟩ hlabel
  have hlast : Str.lines (("-----END ".toList ++ label ++ "-----".toList) ++ ['\n']) =
      ["-----END ".toList ++ label ++ "-----".toList] := hend.lines_cons
  unfold pemText
  rw [hbegin.lines_cons, lines_flatMap h, hlast]

theorem filter_between {α : Type} {p : α → Bool} {a b : α} {as : List α} (ha : p a = false)
    (hb : p b = false) (h : ∀ c ∈ as, p c = true) : (a :: (as ++ [b])).filter p = as := by
  rw [List.filter_cons_of_neg (Bool.eq_false_iff.mp ha), List.filter_append,
    List.filter_eq_self.mpr h, List.filter_cons_of_neg (Bool.eq_false_iff.mp hb), List.filter_nil,
    List.append_nil]

/-- The body of a file is what was encoded. -/
theorem pemBodyB64_eq (hb : Base64.Laws encode fun s => (x.base64Decode s).toOption)
    (hlabel : Unbroken label) (h : IsPem encode label data text) :
    pemBodyB64 x text = .ok data := by
  obtain ⟨lines, hflat, rfl⟩ := h
  have hchar {l : Str} (hl : l ∈ lines) {c : Char} (hc : c ∈ l) : c ∈ '=' :: Base64.alphabet :=
    hb.chars data c (hflat ▸ List.mem_flatten.mpr ⟨l, hl, hc⟩)
  have all : ∀ c ∈ '=' :: Base64.alphabet, Str.isWhitespace c = false ∧ c ≠ '-' := by decide
  have hplain : ∀ l ∈ lines, Unbroken l := fun l hl =>
    ⟨fun h => absurd (all _ (hchar hl h)).1 (by decide),
      fun h => absurd (all _ (hchar hl h)).1 (by decide)⟩
  have hkept : ∀ l ∈ lines, (!Str.startsWith "-----" l) = true := by
    intro l hl
    cases l with
    | nil => rfl
    | cons c l =>
      have hc : c ≠ '-' := (all c (hchar hl List.mem_cons_self)).2
      rw [Bool.not_eq_true', Bool.eq_false_iff]
      intro hs
      exact hc (List.cons_prefix_cons.mp (Str.startsWith_iff.mp hs)).1.symm
  have hdropped (a : Str) (ha : "-----".toList <+: a) :
      (!Str.startsWith "-----" (a ++ label ++ "-----".toList)) = false := by
    rw [Bool.not_eq_false', Str.startsWith_iff, List.append_assoc]
    exact ha.trans (List.prefix_append a _)
  have hbody : ((Str.lines (pemText label lines)).filter fun l =>
      !Str.startsWith "-----" l).flatten = encode data := by
    have hbegin := hdropped "-----BEGIN ".toList ⟨"BEGIN ".toList, by decide⟩
    have hend := hdropped "-----END ".toList ⟨"END ".toList, by decide⟩
    rw [lines_pemText hlabel hplain,
      filter_between (p := fun l => !Str.startsWith "-----" l) hbegin hend hkept, hflat]
  have htrim : Str.trim (encode data) = encode data :=
    Str.trim_eq_self fun c hc => (all c (hb.chars data c hc)).1
  have hdecode := hb.decode_encode data
  unfold pemBodyB64
  dsimp only at hdecode ⊢
  rw [hbody, htrim]
  cases hx : x.base64Decode (encode data) with
  | error e => rw [hx] at hdecode; cases hdecode
  | ok bytes =>
    rw [hx] at hdecode
    rw [Option.some.inj hdecode]

end

-- ---------------------------------------------------------------------------
-- Reading on
-- ---------------------------------------------------------------------------

/-- What lies behind a position. -/
structure Ahead (data : Bytes) (pos : Nat) (rest : Bytes) : Prop where
  small : InMemory data
  le : pos ≤ data.length
  drop : data.drop pos = rest

section
variable {data rest s : Bytes} {pos n k : Nat} {b tag len : UInt8} {α β : Type} {t u : Checked α}
  {g : α → Checked β} {a : α} {r : Checked β}

theorem bind_eq (h : t = .ok a) (hg : g a = r) : t >>= g = r := by
  rw [h]
  exact hg

theorem else_eq {p : Prop} [Decidable p] {r : Checked α} (h : ¬p) (hu : u = r) :
    (if p then t else u) = r := (if_neg h).trans hu

namespace Ahead

theorem length (h : Ahead data pos rest) : pos + rest.length = data.length := by
  have := h.le
  rw [← h.drop, List.length_drop]
  omega

theorem add (h : Ahead data pos (s ++ rest)) (hn : n ≤ s.length) :
    Checked.add pos n = .ok (pos + n) := by
  have := h.length
  have := h.small
  rw [List.length_append] at *
  exact add_eq (by omega)

theorem index (h : Ahead data pos s) (hb : s[k]? = some b) :
    Checked.index data (pos + k) = .ok b := by
  unfold Checked.index
  rw [← List.getElem?_drop, h.drop, hb]

theorem forward (h : Ahead data pos (s ++ rest)) : Ahead data (pos + s.length) rest where
  small := h.small
  le := by
    have := h.length
    rw [List.length_append] at this
    omega
  drop := by rw [← List.drop_drop, h.drop, List.drop_left]

theorem slice (h : Ahead data pos (s ++ rest)) :
    Checked.slice data pos (pos + s.length) = .ok s := by
  rw [slice_eq (Nat.le_add_right _ _) h.forward.le, h.drop, Nat.add_sub_cancel_left,
    List.take_left]

end Ahead

theorem readU32_ahead (h : Ahead data pos (u32Be n ++ rest)) (hn : n < 2 ^ 32) :
    ∃ pos', readU32 data pos = .ok (n, pos') ∧ Ahead data pos' rest := by
  have hlen : 4 ≤ (u32Be n).length := le_rfl
  have hroom := h.forward.le
  rw [length_u32Be] at hroom
  refine ⟨pos + 4, ?_, h.forward⟩
  refine bind_eq (h.add hlen) (else_eq (by omega) ?_)
  refine bind_eq (h.index (k := 0) rfl) ?_
  refine bind_eq (h.add (by omega)) (bind_eq (h.index (k := 1) rfl) ?_)
  refine bind_eq (h.add (by omega)) (bind_eq (h.index (k := 2) rfl) ?_)
  refine bind_eq (h.add (by omega)) (bind_eq (h.index (k := 3) rfl) ?_)
  refine bind_eq (h.add hlen) ?_
  exact congrArg (fun m => Except.ok (m, pos + 4)) (u32OfBe_u32Be hn)

theorem readString_ahead (h : Ahead data pos (sshString s ++ rest)) (hs : s.length < 2 ^ 32) :
    ∃ pos', readString data pos = .ok (s, pos') ∧ Ahead data pos' rest := by
  rw [sshString, List.append_assoc] at h
  obtain ⟨pos', hread, h⟩ := readU32_ahead h hs
  have hroom := h.forward.le
  refine ⟨pos' + s.length, bind_eq hread ?_, h.forward⟩
  refine bind_eq (h.add le_rfl) (else_eq (by omega) ?_)
  refine bind_eq (h.add le_rfl) (bind_eq h.slice (bind_eq (h.add le_rfl) ?_))
  rfl

/-- The header of an element with a length of one byte. -/
theorem derTagLen_ahead (h : Ahead data pos ([tag, len] ++ rest)) (hlen : len &&& 0x80 = 0)
    (hfit : len.toNat ≤ rest.length) :
    derTagLen data pos = .ok ((tag, len.toNat), pos + 2) ∧ Ahead data (pos + 2) rest := by
  have hrest : Ahead data (pos + 2) rest := h.forward
  have hroom := hrest.length
  refine ⟨?_, hrest⟩
  refine bind_eq (h.add le_rfl) (else_eq (by omega) ?_)
  refine bind_eq (h.index (k := 0) rfl) ?_
  refine bind_eq (h.add (Nat.le_succ 1)) (bind_eq (h.index (k := 1) rfl) ?_)
  refine bind_eq (h.add le_rfl) ?_
  refine bind_eq (if_pos hlen) ?_
  refine bind_eq (sub_eq hrest.le) (else_eq (by omega) ?_)
  rfl

end

-- ---------------------------------------------------------------------------
-- OpenSSH
-- ---------------------------------------------------------------------------

section
variable {x : KeyCrates} {d n : Nat} {q : Bytes} {f : OpensshFile} {form : PublicForm}
  {curve : Bool}

theorem length_sshString {bs : Bytes} : (sshString bs).length = 4 + bs.length := by
  rw [sshString, List.length_append, length_u32Be]

theorem length_mpint_le : (mpint d).length ≤ 33 := by
  have h : ((bigEndian 32 d).dropWhile (· = 0)).length ≤ 32 :=
    (List.dropWhile_suffix _).length_le.trans_eq length_bigEndian
  unfold mpint
  dsimp only
  split
  · rw [List.length_cons]
    omega
  · omega

/-- The point of a key pair, in both files. -/
theorem readPoint_eq (hq : q.length = 64) :
    (orElse ((0x04 :: q).length ≠ 65) do
      let first ← index (0x04 :: q) 0
      pure (first != 0x04)) = .ok false ∧
    slice (0x04 :: q) 1 65 = .ok q := by
  have hlen : (0x04 :: q).length = 65 := by rw [List.length_cons, hq]
  constructor
  · unfold orElse
    rw [if_neg (by simpa using hlen)]
    rfl
  · rw [slice_eq (by decide) hlen.ge]
    exact congrArg _ (List.take_of_length_le hq.le)

theorem length_privSection_lt (hq : q.length = 64) : (f.privSection d q).length < 2 ^ 32 := by
  have hshort := f.short
  have hm := length_mpint_le (d := d)
  have htype : (ascii "ecdsa-sha2-nistp256").length = 19 := rfl
  have hcurve : (ascii "nistp256").length = 8 := rfl
  unfold OpensshFile.privSection
  simp only [List.length_append, length_u32Be, length_sshString, List.length_cons, htype, hcurve]
  omega

theorem readNumber_eq {m : Bytes} :
    (do
      let signed ← andThen (m.length = 33) do
        let first ← index m 0
        pure (first == 0x00)
      let privkey := if signed then m.drop 1 else m
      if privkey.length ≠ 32 then
        fail ("Invalid private key length ".toList ++ Str.ofNat privkey.length ++
          " (expected 32 bytes)".toList)
      else pure (privkey, q)) =
      if m.length = 33 ∧ m.head? = some 0 then .ok (m.tail, q)
      else if m.length = 32 then .ok (m, q)
      else fail ("Invalid private key length ".toList ++ Str.ofNat m.length ++
        " (expected 32 bytes)".toList) := by
  have hsigned : (andThen (m.length = 33) do
      let first ← index m 0
      pure (first == 0x00)) = .ok (decide (m.length = 33 ∧ m.head? = some 0)) := by
    unfold andThen
    cases m with
    | nil => rfl
    | cons b bs =>
      simp only [List.head?_cons, Option.some.injEq, decide_eq_true_eq, Bool.decide_and]
      split
      next h =>
        rw [decide_eq_true h, Bool.true_and]
        rfl
      next h => rw [decide_eq_false h, Bool.false_and]
  refine bind_eq hsigned ?_
  simp only [decide_eq_true_eq]
  by_cases h : m.length = 33 ∧ m.head? = some 0
  · have htail : m.tail.length = 32 := by rw [List.length_tail, h.1]
    rw [if_pos h, if_pos h, List.drop_one, if_neg (not_not.mpr htail)]
    rfl
  · rw [if_neg h, if_neg h]
    by_cases hlen : m.length = 32
    · rw [if_pos hlen, if_neg (not_not.mpr hlen)]
      rfl
    · rw [if_neg hlen, if_pos hlen]

/-- The private section, up to the number. -/
theorem readOpensshPrivate_eq (hk : KeyPair x d q) :
    readOpensshPrivate (f.privSection d q) =
      if (mpint d).length = 33 ∧ (mpint d).head? = some 0 then .ok ((mpint d).tail, q)
      else if (mpint d).length = 32 then .ok (mpint d, q)
      else fail ("Invalid private key length ".toList ++ Str.ofNat (mpint d).length ++
        " (expected 32 bytes)".toList) := by
  have hq := hk.length
  have hm := length_mpint_le (d := d)
  have h : Ahead (f.privSection d q) 0 (f.privSection d q) :=
    ⟨(length_privSection_lt hq).trans (by decide), Nat.zero_le _, rfl⟩
  obtain ⟨p, hread, h⟩ := readU32_ahead h (UInt32.toNat_lt _)
  refine bind_eq hread ?_
  obtain ⟨p, hread, h⟩ := readU32_ahead h (UInt32.toNat_lt _)
  refine bind_eq hread (else_eq (fun h => h rfl) ?_)
  obtain ⟨p, hread, h⟩ := readString_ahead h (by decide)
  refine bind_eq hread (else_eq (fun h => h rfl) ?_)
  obtain ⟨p, hread, h⟩ := readString_ahead h (by decide)
  refine bind_eq hread (else_eq (fun h => h rfl) ?_)
  obtain ⟨p, hread, h⟩ := readString_ahead h (by rw [List.length_cons, hq]; decide)
  refine bind_eq hread ?_
  obtain ⟨hform, hpub⟩ := readPoint_eq hq
  refine bind_eq hform (else_eq Bool.false_ne_true (bind_eq hpub ?_))
  obtain ⟨p, hread, h⟩ := readString_ahead h (by omega)
  refine bind_eq hread ?_
  exact readNumber_eq

theorem readOpensshKey_eq (hk : KeyPair x d q) :
    readOpensshKey (f.encode d q) = readOpensshPrivate (f.privSection d q) := by
  have hq := hk.length
  have htype : (ascii "ecdsa-sha2-nistp256").length = 19 := rfl
  have hcurve : (ascii "nistp256").length = 8 := rfl
  have hnone : (ascii "none").length = 4 := rfl
  have hmagic : opensshMagic.length = 15 := rfl
  have hpriv := length_privSection_lt (f := f) (d := d) hq
  have hpub : (sshPublicKey q).length < 2 ^ 32 := by
    unfold sshPublicKey
    simp only [List.length_append, length_sshString, List.length_cons, htype, hcurve]
    omega
  have h : Ahead (f.encode d q) 0 (f.encode d q) := by
    refine ⟨?_, Nat.zero_le _, rfl⟩
    unfold OpensshFile.encode InMemory
    simp only [List.length_append, length_u32Be, length_sshString, List.length_nil, hnone, hmagic]
    omega
  have hwrong : (orElse ((f.encode d q).length < opensshMagic.length) do
      let magic ← slice (f.encode d q) 0 opensshMagic.length
      pure (magic != opensshMagic)) = .ok false := by
    have hle : opensshMagic.length ≤ (f.encode d q).length :=
      (List.prefix_append _ _).length_le
    unfold orElse
    rw [if_neg (by simpa using hle)]
    have hs := h.slice
    rw [Nat.zero_add] at hs
    refine bind_eq hs ?_
    rw [bne_self_eq_false]
    rfl
  have h := h.forward
  rw [Nat.zero_add] at h
  refine bind_eq hwrong (else_eq Bool.false_ne_true ?_)
  obtain ⟨p, hread, h⟩ := readString_ahead h (by decide)
  refine bind_eq hread (else_eq (fun h => h rfl) ?_)
  obtain ⟨p, hread, h⟩ := readString_ahead h (by decide)
  refine bind_eq hread (else_eq (fun h => h rfl) ?_)
  obtain ⟨p, hread, h⟩ := readString_ahead h (by decide)
  refine bind_eq hread ?_
  obtain ⟨p, hread, h⟩ := readU32_ahead h (by decide)
  refine bind_eq hread (else_eq (fun h => h rfl) ?_)
  obtain ⟨p, hread, h⟩ := readString_ahead h hpub
  refine bind_eq hread ?_
  obtain ⟨p, hread, h⟩ := readString_ahead h hpriv
  exact bind_eq hread rfl

/-- The number with its first byte and its second apart. -/
theorem bigEndian_32 : bigEndian 32 d =
    UInt8.ofNat (d / 2 ^ 248) :: UInt8.ofNat (d / 2 ^ 240) :: bigEndian 30 d := rfl

theorem ofNat_eq_zero (h : n < 256) : UInt8.ofNat n = 0 ↔ n = 0 := by
  rw [← UInt8.toNat_inj, UInt8.toNat_ofNat', Nat.mod_eq_of_lt h]
  rfl

theorem dropWhile_zero {bs : Bytes} :
    (0 :: bs).dropWhile (· = 0) = bs.dropWhile (· = 0) := rfl

theorem dropWhile_of_ne {b : UInt8} {bs : Bytes} (h : b ≠ 0) :
    (b :: bs).dropWhile (· = 0) = b :: bs := List.dropWhile_cons_of_neg (by simpa using h)

theorem mpint_of_le (h : 2 ^ 247 ≤ d) (hd : d < 2 ^ 256) :
    mpint d = bigEndian 32 d ∨ mpint d = 0 :: bigEndian 32 d := by
  have hfirst : d / 2 ^ 248 < 256 := by omega
  unfold mpint
  dsimp only
  by_cases h0 : d / 2 ^ 248 = 0
  · -- the second byte has its sign bit set
    have hzero : UInt8.ofNat (d / 2 ^ 248) = 0 := (ofNat_eq_zero hfirst).mpr h0
    have hsecond : d / 2 ^ 240 < 256 ∧ 128 ≤ d / 2 ^ 240 := by omega
    have hne : UInt8.ofNat (d / 2 ^ 240) ≠ 0 := fun h => by
      have := (ofNat_eq_zero hsecond.1).mp h
      omega
    have hsign : 0x80 ≤ (UInt8.ofNat (d / 2 ^ 240)).toNat := by
      rw [UInt8.toNat_ofNat', Nat.mod_eq_of_lt hsecond.1]
      exact hsecond.2
    left
    rw [bigEndian_32, hzero, dropWhile_zero, dropWhile_of_ne hne,
      List.headD_cons, if_pos hsign]
  · have hne : UInt8.ofNat (d / 2 ^ 248) ≠ 0 := fun h => h0 ((ofNat_eq_zero hfirst).mp h)
    rw [bigEndian_32, dropWhile_of_ne hne]
    split
    · exact .inr rfl
    · exact .inl rfl

theorem length_mpint_of_lt (h : d < 2 ^ 247) : (mpint d).length < 32 := by
  have hzero : UInt8.ofNat (d / 2 ^ 248) = 0 := (ofNat_eq_zero (by omega)).mpr (by omega)
  have hsecond : d / 2 ^ 240 < 128 := by omega
  have hrest : (bigEndian 30 d).length = 30 := length_bigEndian
  unfold mpint
  dsimp only
  rw [bigEndian_32, hzero, dropWhile_zero]
  by_cases h0 : UInt8.ofNat (d / 2 ^ 240) = 0
  · have hlen := (List.dropWhile_suffix (l := bigEndian 30 d) (· = (0 : UInt8))).length_le
    rw [h0, dropWhile_zero]
    split
    · rw [List.length_cons]
      omega
    · omega
  · have hsign : ¬0x80 ≤ (UInt8.ofNat (d / 2 ^ 240)).toNat := by
      rw [UInt8.toNat_ofNat', Nat.mod_eq_of_lt (by omega)]
      omega
    rw [dropWhile_of_ne h0, List.headD_cons, if_neg hsign,
      List.length_cons, hrest]
    decide

/-- A number of fewer than 32 bytes is not accepted. -/
theorem readOpensshKey_iff (hk : KeyPair x d q) :
    readOpensshKey (f.encode d q) = .ok (bigEndian 32 d, q) ↔ 2 ^ 247 ≤ d := by
  have hd : d < 2 ^ 256 := hk.lt.trans (by decide)
  rw [readOpensshKey_eq hk, readOpensshPrivate_eq hk]
  constructor
  · intro h
    by_contra hlt
    have hlen := length_mpint_of_lt (Nat.lt_of_not_le hlt)
    rw [if_neg (by omega), if_neg (by omega)] at h
    nomatch h
  · intro h
    have hlen : (bigEndian 32 d).length = 32 := length_bigEndian
    rcases mpint_of_le h hd with hm | hm
    · rw [hm, if_neg (by omega), if_pos hlen]
    · rw [hm, if_pos ⟨by rw [List.length_cons, hlen], rfl⟩]
      rfl

end

-- ---------------------------------------------------------------------------
-- SEC1
-- ---------------------------------------------------------------------------

/-- The public key of a file that has one without compression. -/
def PublicForm.pubkey (q : Bytes) : PublicForm → Option Bytes
  | uncompressed => some q
  | _ => none

section
variable {x : KeyCrates} {data rest : Bytes} {pos pos' rounds d : Nat} {q : Bytes}
  {pk pk' : Option Bytes} {form : PublicForm} {curve : Bool}

theorem sec1Element_curve (pk : Option Bytes) (h : Ahead data pos (sec1Curve ++ rest)) :
    ∃ pos', sec1Element data pos pk = .ok (pos', pk) ∧ Ahead data pos' rest := by
  have h : Ahead data pos ([0xA0, 0x0A] ++ (sec1Curve.drop 2 ++ rest)) := h
  obtain ⟨hread, h⟩ := derTagLen_ahead h rfl
    (by rw [List.length_append]; exact Nat.le_add_right _ _)
  refine ⟨_, ?_, h.forward⟩
  have htagged : (andThen ((0xA0 : UInt8) = 0xA1) do
      let last ← add (pos + 2) 0x0A
      pure (decide (last ≤ data.length))) = .ok false := rfl
  refine bind_eq hread (bind_eq htagged (else_eq Bool.false_ne_true ?_))
  exact bind_eq (h.add le_rfl) rfl

/-- The header of a public key of 128 bytes at most: what is inside it is read. -/
theorem sec1Tagged_eq {len : UInt8} {s : Bytes} (h : Ahead data pos (s ++ rest))
    (hs : len.toNat = s.length) :
    (andThen ((0xA1 : UInt8) = 0xA1) do
      let last ← add pos len.toNat
      pure (decide (last ≤ data.length))) = .ok true := by
  refine bind_eq (h.add hs.le) ?_
  rw [hs, decide_eq_true h.forward.le]
  rfl

theorem sec1Element_compressed {b : UInt8} (pk : Option Bytes) (hq : q.length = 64)
    (h : Ahead data pos ((PublicForm.compressed b).encode q ++ rest)) :
    ∃ pos', sec1Element data pos pk = .ok (pos', pk) ∧ Ahead data pos' rest := by
  have hlen : (0x24 : UInt8).toNat = (0x03 :: 0x22 :: 0x00 :: b :: q.take 32).length := by
    simp only [List.length_cons, List.length_take, hq]
    decide
  have h : Ahead data pos ([0xA1, 0x24] ++ ((0x03 :: 0x22 :: 0x00 :: b :: q.take 32) ++ rest)) := h
  obtain ⟨hread, h⟩ := derTagLen_ahead h rfl
    (by rw [List.length_append, hlen]; exact Nat.le_add_right _ _)
  have hlast := h.forward
  rw [← hlen] at hlast
  refine ⟨_, ?_, hlast⟩
  refine bind_eq hread (bind_eq (sec1Tagged_eq h hlen) ?_)
  have hinner : Ahead data (pos + 2) ([0x03, 0x22] ++ ((0x00 :: b :: q.take 32) ++ rest)) := h
  obtain ⟨hread, _⟩ := derTagLen_ahead hinner rfl (by
    simp only [List.length_append, List.length_cons, List.length_take, hq]
    exact Nat.le_add_right _ _)
  -- the content is too short for a whole point
  refine bind_eq hread (bind_eq (a := false) rfl (bind_eq (a := pk) rfl ?_))
  exact bind_eq (h.add hlen.le) rfl

theorem sec1Element_uncompressed (pk : Option Bytes) (hq : q.length = 64)
    (h : Ahead data pos (PublicForm.uncompressed.encode q ++ rest)) :
    ∃ pos', sec1Element data pos pk = .ok (pos', some q) ∧ Ahead data pos' rest := by
  have hlen : (0x44 : UInt8).toNat = (0x03 :: 0x42 :: 0x00 :: 0x04 :: q).length := by
    simp only [List.length_cons, hq]
    decide
  have h : Ahead data pos ([0xA1, 0x44] ++ ((0x03 :: 0x42 :: 0x00 :: 0x04 :: q) ++ rest)) := h
  obtain ⟨hread, h⟩ := derTagLen_ahead h rfl
    (by rw [List.length_append, hlen]; exact Nat.le_add_right _ _)
  have hlast := h.forward
  rw [← hlen] at hlast
  refine ⟨_, ?_, hlast⟩
  refine bind_eq hread (bind_eq (sec1Tagged_eq h hlen) ?_)
  have hinner : Ahead data (pos + 2) ([0x03, 0x42] ++ ((0x00 :: 0x04 :: q) ++ rest)) := h
  have hbits : (0x00 :: 0x04 :: q).length = 66 := by simp only [List.length_cons, hq]
  obtain ⟨hread, hinner⟩ := derTagLen_ahead hinner rfl
    (by rw [List.length_append, hbits]; exact Nat.le_add_right _ _)
  have hroom := hinner.forward.le
  rw [hbits] at hroom
  have hkey : (andThen ((0x03 : UInt8) = 0x03 ∧ 66 ≤ (0x42 : UInt8).toNat) do
      let last ← add (pos + 2 + 2) 66
      andThen (last ≤ data.length) do
        let unused ← index data (pos + 2 + 2)
        andThen (unused = 0x00) do
          let form ← index data (← add (pos + 2 + 2) 1)
          pure (form == 0x04)) = .ok true := by
    refine bind_eq (hinner.add hbits.ge) ?_
    rw [decide_eq_true hroom]
    refine bind_eq (hinner.index (k := 0) rfl) ?_
    exact bind_eq (hinner.add (by omega)) (bind_eq (hinner.index (k := 1) rfl) rfl)
  have hpoint : Ahead data (pos + 2 + 2 + 2) (q ++ rest) := by
    have hinner : Ahead data (pos + 2 + 2) ([0x00, 0x04] ++ (q ++ rest)) := hinner
    exact hinner.forward
  have hslice := hpoint.slice
  rw [hq] at hslice
  have hget : (do
      let q ← slice data (← add (pos + 2 + 2) 2) (← add (pos + 2 + 2) 66)
      pure (some q)) = .ok (some q) :=
    bind_eq (hinner.add (by omega)) (bind_eq (hinner.add hbits.ge) (bind_eq hslice rfl))
  refine bind_eq hread (bind_eq hkey (bind_eq hget ?_))
  exact bind_eq (h.add hlen.le) rfl

theorem sec1Elements_end (h : Ahead data pos []) : sec1Elements data rounds pos pk = .ok pk := by
  have hlen : ¬pos < data.length := by
    have := h.length
    rw [List.length_nil] at this
    omega
  cases rounds <;> exact if_neg hlen

theorem sec1Elements_step (h : Ahead data pos rest) (hne : rest ≠ [])
    (hstep : sec1Element data pos pk = .ok (pos', pk')) :
    sec1Elements data (rounds + 1) pos pk = sec1Elements data rounds pos' pk' := by
  have hlt : pos < data.length := by
    have := h.length
    have := List.length_pos_iff.mpr hne
    omega
  exact (if_pos hlt).trans (bind_eq hstep rfl)

theorem sec1Elements_form (hq : q.length = 64) (h : Ahead data pos (form.encode q ++ [])) :
    sec1Elements data (rounds + 1) pos none = .ok (form.pubkey q) := by
  cases form with
  | absent => exact sec1Elements_end h
  | compressed b =>
    obtain ⟨pos', hstep, hrest⟩ := sec1Element_compressed none hq h
    rw [sec1Elements_step h (List.cons_ne_nil _ _) hstep, sec1Elements_end hrest]
    rfl
  | uncompressed =>
    obtain ⟨pos', hstep, hrest⟩ := sec1Element_uncompressed none hq h
    rw [sec1Elements_step h (List.cons_ne_nil _ _) hstep, sec1Elements_end hrest]
    rfl

theorem sec1Elements_rest (hq : q.length = 64) (h : Ahead data pos (sec1Rest curve form q)) :
    sec1Elements data (rounds + 2) pos none = .ok (form.pubkey q) := by
  cases curve with
  | false => exact sec1Elements_form hq h
  | true =>
    have h : Ahead data pos (sec1Curve ++ (form.encode q ++ [])) := h
    obtain ⟨pos', hstep, hrest⟩ := sec1Element_curve none h
    rw [sec1Elements_step h (List.cons_ne_nil _ _) hstep, sec1Elements_form hq hrest]

theorem derivePubkey_eq (hk : KeyPair x d q) : derivePubkey x (bigEndian 32 d) = .ok q := by
  obtain ⟨hform, hpub⟩ := readPoint_eq hk.length
  unfold derivePubkey
  rw [hk.point]
  exact bind_eq hform (else_eq Bool.false_ne_true hpub)

theorem length_sec1Rest_le (hq : q.length = 64) : (sec1Rest curve form q).length ≤ 82 := by
  have hcurve : (if curve then sec1Curve else []).length ≤ 12 := by cases curve <;> decide
  have hform : (form.encode q).length ≤ 70 := by
    cases form with
    | absent => exact Nat.zero_le _
    | compressed b =>
      simp only [PublicForm.encode, List.length_cons, List.length_take, hq]
      decide
    | uncompressed => simp only [PublicForm.encode, List.length_cons, hq, le_refl]
  rw [sec1Rest, List.length_append, List.append_nil]
  omega

theorem readSec1Key_eq (hk : KeyPair x d q) :
    readSec1Key x (sec1Encode curve form d q) = .ok (bigEndian 32 d, q) := by
  have hd : (bigEndian 32 d).length = 32 := length_bigEndian
  have hrest : (sec1Rest curve form q).length ≤ 82 := length_sec1Rest_le hk.length
  set content : Bytes := 0x02 :: 0x01 :: (0x01 :: 0x04 :: 0x20 ::
    (bigEndian 32 d ++ sec1Rest curve form q)) with hcontent
  have hlen : content.length = 37 + (sec1Rest curve form q).length := by
    rw [hcontent]
    simp only [List.length_cons, List.length_append, hd]
    omega
  have hder : sec1Encode curve form d q = [0x30, UInt8.ofNat content.length] ++ content := rfl
  rw [hder]
  set der : Bytes := [0x30, UInt8.ofNat content.length] ++ content
  have hsmall : ∀ n < 128, UInt8.ofNat n &&& 0x80 = 0 := by decide
  have h : Ahead der 0 ([0x30, UInt8.ofNat content.length] ++ content) := by
    refine ⟨?_, Nat.zero_le _, rfl⟩
    unfold InMemory
    rw [List.length_append]
    simp only [List.length_cons, List.length_nil]
    omega
  have hrounds : der.length = content.length + 2 := List.length_append.trans (Nat.add_comm _ _)
  obtain ⟨hread, h⟩ := derTagLen_ahead h (hsmall _ (by omega))
    (by rw [UInt8.toNat_ofNat']; exact Nat.mod_le _ _)
  refine bind_eq hread (else_eq (fun h => h rfl) ?_)
  have h : Ahead der (0 + 2) ([0x02, 0x01] ++ ([0x01] ++ ([0x04, 0x20] ++
    (bigEndian 32 d ++ sec1Rest curve form q)))) := h
  obtain ⟨hread, h⟩ := derTagLen_ahead h rfl
    (by rw [List.length_append]; exact Nat.le_add_right _ _)
  refine bind_eq hread (else_eq (fun h => h rfl) (bind_eq (h.add le_rfl) ?_))
  obtain ⟨hread, h⟩ := derTagLen_ahead h.forward rfl
    (by rw [List.length_append, hd]; exact Nat.le_add_right _ _)
  refine bind_eq hread (else_eq (fun h => h rfl) ?_)
  have hroom := h.forward.le
  rw [hd] at hroom
  have hwrong : (orElse ((0x20 : UInt8).toNat ≠ 32) do
      let last ← add (0 + 2 + 2 + 1 + 2) 32
      pure (decide (der.length < last))) = .ok false := by
    refine bind_eq (h.add hd.ge) ?_
    rw [decide_eq_false (Nat.not_lt.mpr hroom)]
    rfl
  have hslice := h.slice
  have hrest := h.forward
  rw [hd] at hslice hrest
  refine bind_eq hwrong (else_eq Bool.false_ne_true ?_)
  refine bind_eq (h.add hd.ge) (bind_eq hslice (bind_eq (h.add hd.ge) ?_))
  rw [hrounds]
  refine bind_eq (sec1Elements_rest hk.length hrest) ?_
  cases form with
  | uncompressed => rfl
  | absent => exact bind_eq (derivePubkey_eq hk) rfl
  | compressed b => exact bind_eq (derivePubkey_eq hk) rfl

end

-- ---------------------------------------------------------------------------
-- Both files
-- ---------------------------------------------------------------------------

theorem parseOpensshKey_eq {x : KeyCrates} {encode : Bytes → Str} {d : Nat} {q : Bytes}
    {f : OpensshFile} {text : Str}
    (hb : Base64.Laws encode fun s => (x.base64Decode s).toOption)
    (h : IsPem encode "OPENSSH PRIVATE KEY".toList (f.encode d q) text) :
    parseOpensshKey x text = readOpensshKey (f.encode d q) :=
  bind_eq (pemBodyB64_eq hb ⟨by decide, by decide⟩ h) rfl

/-- The two files of a key pair are read alike, as the secret number in 32 bytes
and the public key, if and only if the number has 32 bytes as an mpint. A shorter
one makes the OpenSSH file unreadable; the SEC1 file is always read. -/
theorem key_files_agree_iff {x : KeyCrates} {encode : Bytes → Str} {d : Nat} {q : Bytes}
    {f : OpensshFile} {curve : Bool} {form : PublicForm} {openssh sec1 : Str}
    (hb : Base64.Laws encode fun s => (x.base64Decode s).toOption) (hk : KeyPair x d q)
    (h₁ : IsPem encode "OPENSSH PRIVATE KEY".toList (f.encode d q) openssh)
    (h₂ : IsPem encode "EC PRIVATE KEY".toList (sec1Encode curve form d q) sec1) :
    (parseOpensshKey x openssh = .ok (bigEndian 32 d, q) ∧
      parseSec1Pem x sec1 = .ok (bigEndian 32 d, q)) ↔ 2 ^ 247 ≤ d := by
  have hsec1 : parseSec1Pem x sec1 = .ok (bigEndian 32 d, q) :=
    bind_eq (pemBodyB64_eq hb ⟨by decide, by decide⟩ h₂) (readSec1Key_eq hk)
  rw [parseOpensshKey_eq hb h₁, ← readOpensshKey_iff hk (f := f)]
  exact and_iff_left hsec1

theorem KeyCrates.sample_laws :
    Base64.Laws Base64.encode fun s => (KeyCrates.sample.base64Decode s).toOption := by
  have hdecode : (fun s => (KeyCrates.sample.base64Decode s).toOption) = Base64.decode := by
    funext s
    unfold sample
    dsimp only
    cases Base64.decode s <;> rfl
  rw [hdecode]
  exact Base64.laws

/-- The number of `someSecret`. -/
def someNumber : Nat := 0x4A3F861D6B6D9523655FF8824C30C0DDA103FFABFAEE07A8B1E79E8FB8DD3519

def fixtureFile : OpensshFile where
  check := 0xB7F23C62
  comment := ascii "fixture"
  padding := [1]
  short := by decide

def fixtureOpenssh : List Str :=
  ["b3BlbnNzaC1rZXktdjEAAAAABG5vbmUAAAAEbm9uZQAAAAAAAAABAAAAaAAAABNlY2RzYS".toList,
    "1zaGEyLW5pc3RwMjU2AAAACG5pc3RwMjU2AAAAQQRPPVQM5IubdgjP7hppZgl8ohYUtKmb".toList,
    "bMKL25uMuJDsf5H4AdzUVC97r2FyzB0/N+nUilcaxdmRIz767UYGZP4VAAAAoLfyPGK38j".toList,
    "xiAAAAE2VjZHNhLXNoYTItbmlzdHAyNTYAAAAIbmlzdHAyNTYAAABBBE89VAzki5t2CM/u".toList,
    "GmlmCXyiFhS0qZtswovbm4y4kOx/kfgB3NRUL3uvYXLMHT836dSKVxrF2ZEjPvrtRgZk/h".toList,
    "UAAAAgSj+GHWttlSNlX/iCTDDA3aED/6v67geoseeej7jdNRkAAAAHZml4dHVyZQE=".toList]

def fixtureSec1 : List Str :=
  ["MHcCAQEEIEo/hh1rbZUjZV/4gkwwwN2hA/+r+u4HqLHnno+43TUZoAoGCCqGSM49".toList,
    "AwEHoUQDQgAETz1UDOSLm3YIz+4aaWYJfKIWFLSpm2zCi9ubjLiQ7H+R+AHc1FQv".toList,
    "e69hcswdPzfp1IpXGsXZkSM++u1GBmT+FQ==".toList]

/-- The characters of a literal, which need not be decoded. -/
theorem cons_toList {l : Str} {ls ls' : List Str} (h : ls = ls') :
    (String.ofList l).toList :: ls = l :: ls' := by rw [String.toList_ofList, h]

theorem bigEndian_someNumber : bigEndian 32 someNumber = someSecret := by decide

theorem fixture_keyPair : KeyPair .sample someNumber somePublic :=
  ⟨by decide, by decide, by decide, by rw [bigEndian_someNumber]; decide⟩

theorem fixture_isPem : IsPem Base64.encode "OPENSSH PRIVATE KEY".toList
    (fixtureFile.encode someNumber somePublic)
    (pemText "OPENSSH PRIVATE KEY".toList fixtureOpenssh) := by
  have hlines : fixtureOpenssh = _ :=
    cons_toList (cons_toList (cons_toList (cons_toList (cons_toList (cons_toList rfl)))))
  refine ⟨_, ?_, rfl⟩
  rw [hlines]
  decide +kernel

theorem key_files_agree_fixture :
    parseOpensshKey .sample (pemText "OPENSSH PRIVATE KEY".toList fixtureOpenssh) =
        .ok (someSecret, somePublic) ∧
      parseSec1Pem .sample (pemText "EC PRIVATE KEY".toList fixtureSec1) =
        .ok (someSecret, somePublic) := by
  have h₂ : fixtureSec1.flatten =
      Base64.encode (sec1Encode true .uncompressed someNumber somePublic) := by
    have hlines : fixtureSec1 = _ := cons_toList (cons_toList (cons_toList rfl))
    rw [hlines]
    decide +kernel
  rw [← bigEndian_someNumber]
  exact (key_files_agree_iff KeyCrates.sample_laws fixture_keyPair fixture_isPem
    ⟨_, h₂, rfl⟩).mpr (by decide)

def shortFile : OpensshFile := { fixtureFile with padding := [], short := by decide }

def shortOpenssh : List Str :=
  ["b3BlbnNzaC1rZXktdjEAAAAABG5vbmUAAAAEbm9uZQAAAAAAAAABAAAAaAAAABNlY2RzYS".toList,
    "1zaGEyLW5pc3RwMjU2AAAACG5pc3RwMjU2AAAAQQRrF9Hy4SxCR/i85uVjpEDydwN9gS3r".toList,
    "M6D0oTlF2JjClk/jQuL+Gn+bjufrSnwPnhYrzjNXazFezsu2QGg3v1H1AAAAgLfyPGK38j".toList,
    "xiAAAAE2VjZHNhLXNoYTItbmlzdHAyNTYAAAAIbmlzdHAyNTYAAABBBGsX0fLhLEJH+Lzm".toList,
    "5WOkQPJ3A32BLeszoPShOUXYmMKWT+NC4v4af5uO5+tKfA+eFivOM1drMV7Oy7ZAaDe/Uf".toList,
    "UAAAABAQAAAAdmaXh0dXJl".toList]

/-- The file of the secret number one. -/
theorem short_number_unread :
    KeyPair .sample 1 publicOne ∧
    IsPem Base64.encode "OPENSSH PRIVATE KEY".toList (shortFile.encode 1 publicOne)
      (pemText "OPENSSH PRIVATE KEY".toList shortOpenssh) ∧
    parseOpensshKey .sample (pemText "OPENSSH PRIVATE KEY".toList shortOpenssh) =
      fail "Invalid private key length 1 (expected 32 bytes)" := by
  have hk : KeyPair .sample 1 publicOne := ⟨by decide, by decide, by decide, by decide⟩
  have hpem : IsPem Base64.encode "OPENSSH PRIVATE KEY".toList (shortFile.encode 1 publicOne)
      (pemText "OPENSSH PRIVATE KEY".toList shortOpenssh) := by
    have hlines : shortOpenssh = _ :=
      cons_toList (cons_toList (cons_toList (cons_toList (cons_toList (cons_toList rfl)))))
    refine ⟨_, ?_, rfl⟩
    rw [hlines]
    decide +kernel
  refine ⟨hk, hpem, ?_⟩
  rw [parseOpensshKey_eq KeyCrates.sample_laws hpem, readOpensshKey_eq hk, readOpensshPrivate_eq hk]
  decide

end Immurok
