import Mathlib.Algebra.Ring.Nat
import Mathlib.Data.List.DropRight

/-!
# Text

Strings as lists of characters, with the operations of Rust's `str` that take
a line apart: trimming, prefixes, splitting at a separator, and reading
numbers.
-/

abbrev Bytes := List UInt8

abbrev Str := List Char

namespace Str

instance : Coe String Str := ⟨String.toList⟩

/-- What holds of every character of a text is decided along the text. -/
instance (priority := high) decidableForallMem (p : Char → Prop) [DecidablePred p] (s : Str) :
    Decidable (∀ c ∈ s, p c) := List.decidableBAll p s

instance (priority := high) decidableForallSome (p : Char → Prop) [DecidablePred p] :
    (o : Option Char) → Decidable (∀ c, o = some c → p c)
  | none => isTrue fun _ h => nomatch h
  | some a => decidable_of_iff (p a) ⟨fun h _ hc => Option.some.inj hc ▸ h, fun h => h a rfl⟩

-- ---------------------------------------------------------------------------
-- Trimming
-- ---------------------------------------------------------------------------

/-- Unicode's `White_Space`. -/
def isWhitespace (c : Char) : Bool :=
  (0x09 ≤ c.toNat && c.toNat ≤ 0x0D) || c.toNat == 0x20 || c.toNat == 0x85 || c.toNat == 0xA0 ||
  c.toNat == 0x1680 || (0x2000 ≤ c.toNat && c.toNat ≤ 0x200A) || c.toNat == 0x2028 ||
  c.toNat == 0x2029 || c.toNat == 0x202F || c.toNat == 0x205F || c.toNat == 0x3000

def trimEndMatches (p : Char → Bool) (s : Str) : Str := (s.reverse.dropWhile p).reverse

def trimMatches (p : Char → Bool) (s : Str) : Str := trimEndMatches p (s.dropWhile p)

def trim (s : Str) : Str := trimMatches isWhitespace s

def trimEnd (s : Str) : Str := trimEndMatches isWhitespace s

-- ---------------------------------------------------------------------------
-- Prefixes and separators
-- ---------------------------------------------------------------------------

def startsWith (p s : Str) : Bool := p.isPrefixOf s

def stripPrefix (p s : Str) : Option Str := if startsWith p s then some (s.drop p.length) else none

/-- What stands before and after the first `sep`. -/
def splitOnce (sep : Char) : Str → Option (Str × Str)
  | [] => none
  | c :: s => if c = sep then some ([], s) else (splitOnce sep s).map fun (a, b) => (c :: a, b)

/-- The pieces between separators, `n + 1` at most; the last one keeps the
rest. -/
def splitn (sep : Char) : Nat → Str → List Str
  | 0, s => [s]
  | n + 1, s =>
    match splitOnce sep s with
    | none => [s]
    | some (a, b) => a :: splitn sep n b

/-- `needle` stands somewhere in `s`. -/
def contains (needle s : Str) : Bool := s.tails.any (startsWith needle)

-- ---------------------------------------------------------------------------
-- Numbers
-- ---------------------------------------------------------------------------

inductive ParseIntError
  | empty
  | invalidDigit
  | posOverflow
  deriving DecidableEq

def ParseIntError.message : ParseIntError → Str
  | .empty => "cannot parse integer from empty string"
  | .invalidDigit => "invalid digit found in string"
  | .posOverflow => "number too large to fit in target type"

def digit? (c : Char) : Option Nat :=
  if '0' ≤ c ∧ c ≤ '9' then some (c.toNat - '0'.toNat) else none

def parseDigits (bound : Nat) (n : Nat) : Str → Except ParseIntError Nat
  | [] => .ok n
  | c :: s =>
    match digit? c with
    | none => .error .invalidDigit
    | some d => if n * 10 + d < bound then parseDigits bound (n * 10 + d) s else .error .posOverflow

/-- A number below `bound` in decimal, with an optional plus sign. -/
def parseUnsigned (bound : Nat) : Str → Except ParseIntError Nat
  | [] => .error .empty
  | ['+'] => .error .invalidDigit
  | '+' :: s => parseDigits bound 0 s
  | s => parseDigits bound 0 s

def parseU8 (s : Str) : Except ParseIntError UInt8 := (parseUnsigned (2 ^ 8) s).map UInt8.ofNat

def parseU32 (s : Str) : Except ParseIntError Nat := parseUnsigned (2 ^ 32) s

def ofNat (n : Nat) : Str := Nat.toDigits 10 n

def hexDigit (n : UInt8) : Char :=
  if n < 10 then Char.ofNat ('0'.toNat + n.toNat) else Char.ofNat ('a'.toNat + (n.toNat - 10))

/-- A byte as two hex digits. -/
def hexByte (b : UInt8) : Str := [hexDigit (b / 16), hexDigit (b % 16)]

def hexEncode (bs : Bytes) : Str := bs.flatMap hexByte

def hexValue? (c : Char) : Option UInt8 :=
  if '0' ≤ c ∧ c ≤ '9' then some (UInt8.ofNat (c.toNat - '0'.toNat))
  else if 'a' ≤ c ∧ c ≤ 'f' then some (UInt8.ofNat (c.toNat - 'a'.toNat + 10))
  else if 'A' ≤ c ∧ c ≤ 'F' then some (UInt8.ofNat (c.toNat - 'A'.toNat + 10))
  else none

def parseHexDigits (bound : Nat) (n : Nat) : Str → Except ParseIntError Nat
  | [] => .ok n
  | c :: s =>
    match hexValue? c with
    | none => .error .invalidDigit
    | some d =>
      if n * 16 + d.toNat < bound then parseHexDigits bound (n * 16 + d.toNat) s
      else .error .posOverflow

/-- `u32::from_str_radix(s, 16)`. -/
def parseHexU32 : Str → Except ParseIntError Nat
  | [] => .error .empty
  | ['+'] => .error .invalidDigit
  | '+' :: s => parseHexDigits (2 ^ 32) 0 s
  | s => parseHexDigits (2 ^ 32) 0 s

/-- A number in hex with at least `width` digits. -/
def hexNat (width n : Nat) : Str :=
  let digits := Nat.toDigits 16 n
  List.replicate (width - digits.length) '0' ++ digits

def hexPairs : Str → Option Bytes
  | [] => some []
  | [_] => none
  | a :: b :: s =>
    (hexValue? a).bind fun x => (hexValue? b).bind fun y => (hexPairs s).map ((x * 16 + y) :: ·)

/-- A Latin-1 character as `{:?}` prints it. -/
def debugChar (c : Char) : Str :=
  let n := c.toNat
  if c = '\x00' then "'\\0'"
  else if c = '\t' then "'\\t'"
  else if c = '\n' then "'\\n'"
  else if c = '\r' then "'\\r'"
  else if c = '\'' then "'\\''"
  else if c = '\\' then "'\\\\'"
  else if n < 0x20 ∨ 0x7F ≤ n ∧ n ≤ 0xA0 ∨ n = 0xAD then
    "'\\u\x7b".toList ++ Nat.toDigits 16 n ++ "\x7d'".toList
  else ['\'', c, '\'']

/-- `hex::decode`, which looks at the bytes of the string. -/
def hexDecode (s : Str) : Except Str Bytes :=
  let raw : Str := (s.flatMap String.utf8EncodeChar).map fun b => Char.ofNat b.toNat
  if raw.length % 2 = 1 then .error "Odd number of digits"
  else
    match hexPairs raw, raw.zipIdx.find? fun p => (hexValue? p.1).isNone with
    | some bs, _ => .ok bs
    | none, some (c, i) =>
      .error ("Invalid character ".toList ++ debugChar c ++ " at position ".toList ++ ofNat i)
    | none, none => .error []

-- ---------------------------------------------------------------------------
-- Laws
-- ---------------------------------------------------------------------------

section
variable {p q : Char → Bool} {sep c : Char} {s a b : Str}

theorem trimEndMatches_begins : trimEndMatches p s <+: s := by
  have h : s.reverse.dropWhile p <:+ s.reverse := List.dropWhile_suffix p
  rw [← List.reverse_prefix, List.reverse_reverse] at h
  exact h

/-- Text that does not begin with what is trimmed keeps its beginning. -/
theorem trimMatches_prefix (h : s.head?.any p = false) : trimMatches p s <+: s := by
  cases s with
  | nil => exact List.prefix_rfl
  | cons c s =>
    have hc : p c = false := by simpa using h
    rw [trimMatches, List.dropWhile_cons_of_neg (by simp [hc])]
    exact trimEndMatches_begins

/-- Nothing is trimmed beyond a character that stays. -/
theorem trimEndMatches_append (hc : p c = false) :
    trimEndMatches p (a ++ c :: b) = a ++ c :: trimEndMatches p b := by
  have hdrop : (b.reverse ++ (c :: a.reverse)).dropWhile p =
      b.reverse.dropWhile p ++ (c :: a.reverse) := by
    rw [List.dropWhile_append]
    split
    next h => rw [List.isEmpty_iff.mp h, List.dropWhile_cons_of_neg (by simp [hc]), List.nil_append]
    next => rfl
  simp only [trimEndMatches, List.reverse_append, List.reverse_cons, List.append_assoc,
    List.singleton_append, hdrop, List.reverse_reverse]

theorem trimEndMatches_eq_self : trimEndMatches p s = s ↔ ∀ c, s.getLast? = some c → p c = false := by
  obtain rfl | ⟨t, c, rfl⟩ := s.eq_nil_or_concat
  · simp [trimEndMatches]
  · cases hc : p c with
    | false => simp [trimEndMatches, hc]
    | true =>
      refine iff_of_false (fun h => ?_) (fun h => by simpa [hc] using h c)
      have hlen := congrArg List.length h
      have := (trimEndMatches_begins (p := p) (s := t)).length_le
      simp only [trimEndMatches, List.concat_eq_append, List.reverse_append, List.reverse_cons,
        List.reverse_nil, List.nil_append, List.singleton_append, List.dropWhile_cons, hc, if_true,
        List.length_reverse, List.length_append, List.length_singleton] at hlen this
      omega

/-- What stands before an element that does not belong. -/
theorem takeWhile_append_neg {α : Type} {q : α → Bool} {l l' : List α} {x : α} (h : q x = false) :
    (l ++ x :: l').takeWhile q = l.takeWhile q := by
  rw [List.takeWhile_append, List.takeWhile_cons_of_neg (by simp [h])]
  split
  next hl => rw [List.append_nil, (List.takeWhile_prefix _).eq_of_length hl]
  next => rfl

theorem trimEndMatches_idem :
    trimEndMatches p (trimEndMatches p s) = trimEndMatches p s := by
  rw [trimEndMatches, trimEndMatches, List.reverse_reverse, List.dropWhile_idempotent]

theorem trimEndMatches_congr (h : ∀ c ∈ s, p c = q c) :
    trimEndMatches p s = trimEndMatches q s := by
  unfold trimEndMatches
  congr 1
  generalize hr : s.reverse = r
  have hall : ∀ c ∈ r, p c = q c := fun c hc => h c (List.mem_reverse.mp (hr ▸ hc))
  clear hr
  induction r with
  | nil => rfl
  | cons c r ih =>
    rw [List.dropWhile_cons, List.dropWhile_cons, hall c (by simp),
      ih fun d hd => hall d (by simp [hd])]

/-- Between a beginning that stays and the s behind it nothing is lost. -/
theorem trimMatches_append {d : Char} (hd : p d = false) (hc : p c = false) :
    trimMatches p (d :: a ++ c :: s) = d :: a ++ c :: trimEndMatches p s := by
  rw [trimMatches, List.cons_append, List.dropWhile_cons_of_neg (by simp [hd]),
    ← List.cons_append, trimEndMatches_append hc]

/-- Whitespace behind a text is trimmed with it. -/
theorem trimMatches_concat (h : p c = true) : trimMatches p (s ++ [c]) = trimMatches p s := by
  unfold trimMatches trimEndMatches
  rw [List.dropWhile_append]
  split
  next hs =>
    rw [List.isEmpty_iff.mp hs, List.dropWhile_cons_of_pos h]
    rfl
  next =>
    rw [List.reverse_append, List.reverse_singleton, List.singleton_append,
      List.dropWhile_cons_of_pos h]
theorem trimMatches_eq_nil : trimMatches p s = [] ↔ ∀ c ∈ s, p c = true := by
  rw [trimMatches, trimEndMatches, List.reverse_eq_nil_iff, List.dropWhile_eq_nil_iff]
  constructor
  · intro h c hc
    rw [← List.takeWhile_append_dropWhile (p := p) (l := s)] at hc
    obtain hc | hc := List.mem_append.mp hc
    · exact List.mem_takeWhile_imp hc
    · exact h c (List.mem_reverse.mpr hc)
  · intro h c hc
    exact h c ((List.dropWhile_suffix p).subset (List.mem_reverse.mp hc))

theorem startsWith_iff {q : Str} : startsWith q s = true ↔ q <+: s := List.isPrefixOf_iff_prefix

theorem stripPrefix_append : stripPrefix a (a ++ b) = some b := by
  have h : startsWith a (a ++ b) = true := startsWith_iff.mpr (List.prefix_append a b)
  simp [stripPrefix, h]

theorem splitOnce_eq_none : splitOnce sep s = none ↔ sep ∉ s := by
  induction s with
  | nil => simp [splitOnce]
  | cons c s ih =>
    by_cases hc : c = sep
    · simp [splitOnce, hc]
    · simp [splitOnce, hc, ih, Ne.symm hc]

theorem splitOnce_eq_some : splitOnce sep s = some (a, b) ↔ s = a ++ sep :: b ∧ sep ∉ a := by
  induction s generalizing a with
  | nil => simp [splitOnce]
  | cons c s ih =>
    by_cases hc : c = sep
    · subst hc
      cases a with
      | nil => simp [splitOnce, eq_comm]
      | cons d a =>
        simp only [splitOnce, if_true, Option.some.injEq, Prod.mk.injEq, reduceCtorEq, false_and,
          List.cons_append, List.cons.injEq, List.mem_cons, not_or, false_iff]
        exact fun h => h.2.1 h.1.1
    · cases a with
      | nil => simp [splitOnce, hc]
      | cons d a =>
        simp only [splitOnce, hc, if_false, Option.map_eq_some_iff, Prod.exists, Prod.mk.injEq,
          List.cons.injEq, List.cons_append, List.mem_cons, not_or]
        constructor
        · rintro ⟨a', b', h, ⟨rfl, rfl⟩, rfl⟩
          obtain ⟨rfl, hs⟩ := ih.mp h
          exact ⟨⟨rfl, rfl⟩, Ne.symm hc, hs⟩
        · rintro ⟨⟨rfl, rfl⟩, -, hs⟩
          exact ⟨a, b, ih.mpr ⟨rfl, hs⟩, ⟨rfl, rfl⟩, rfl⟩

theorem length_splitn_pos {n : Nat} : 1 ≤ (splitn sep n s).length := by
  cases n with
  | zero => exact Nat.le_refl 1
  | succ n =>
    rw [splitn]
    split
    · exact Nat.le_refl 1
    · exact Nat.le_add_left 1 _

theorem two_le_length_splitn {n : Nat} : 2 ≤ (splitn sep (n + 1) s).length ↔ sep ∈ s := by
  rw [splitn]
  cases h : splitOnce sep s with
  | none => simp [splitOnce_eq_none.mp h]
  | some p =>
    obtain ⟨rfl, -⟩ := splitOnce_eq_some.mp h
    simpa using length_splitn_pos

theorem splitn_append {b : Str} {n : Nat} (h : sep ∉ a) :
    splitn sep (n + 1) (a ++ sep :: b) = a :: splitn sep n b := by
  rw [splitn, splitOnce_eq_some.mpr ⟨rfl, h⟩]

theorem splitn_eq_singleton {n : Nat} (h : sep ∉ s) : splitn sep n s = [s] := by
  cases n with
  | zero => rfl
  | succ n => rw [splitn, splitOnce_eq_none.mpr h]

-- ---------------------------------------------------------------------------
-- Hex
-- ---------------------------------------------------------------------------

/-- A hex digit reads back as its value, is one byte and no whitespace. -/
theorem hexDigit_spec {n : UInt8} (h : n < 16) : hexValue? (hexDigit n) = some n ∧
    (String.utf8EncodeChar (hexDigit n)).map (fun b => Char.ofNat b.toNat) = [hexDigit n] ∧
    isWhitespace (hexDigit n) = false := by
  have all : ∀ k : Fin 16, hexValue? (hexDigit (UInt8.ofNat k)) = some (UInt8.ofNat k) ∧
      (String.utf8EncodeChar (hexDigit (UInt8.ofNat k))).map (fun b => Char.ofNat b.toNat) =
        [hexDigit (UInt8.ofNat k)] ∧ isWhitespace (hexDigit (UInt8.ofNat k)) = false := by decide
  have hn := all ⟨n.toNat, h⟩
  rwa [UInt8.ofNat_toNat] at hn

theorem nibbles (b : UInt8) : b / 16 < 16 ∧ b % 16 < 16 ∧ b / 16 * 16 + b % 16 = b := by
  have := b.toNat_lt
  refine ⟨?_, UInt8.mod_lt b (by decide), UInt8.toNat_inj.mp ?_⟩
  · rw [UInt8.lt_iff_toNat_lt, UInt8.toNat_div]
    exact Nat.div_lt_of_lt_mul this
  · simp only [UInt8.toNat_add, UInt8.toNat_mul, UInt8.toNat_div, UInt8.toNat_mod, UInt8.reduceToNat]
    omega

theorem exists_of_mem_hexEncode {bs : Bytes} (h : c ∈ hexEncode bs) :
    ∃ n < 16, c = hexDigit n := by
  obtain ⟨b, -, hb⟩ := List.mem_flatMap.mp h
  obtain ⟨hi, lo, -⟩ := nibbles b
  obtain rfl | hb := List.mem_cons.mp hb
  · exact ⟨b / 16, hi, rfl⟩
  · exact ⟨b % 16, lo, List.mem_singleton.mp hb⟩

theorem length_hexEncode {bs : Bytes} : (hexEncode bs).length = 2 * bs.length := by
  induction bs with
  | nil => rfl
  | cons b bs ih =>
    show (hexEncode bs).length + 2 = 2 * (bs.length + 1)
    omega

theorem hexPairs_hexEncode {bs : Bytes} : hexPairs (hexEncode bs) = some bs := by
  induction bs with
  | nil => rfl
  | cons b bs ih =>
    obtain ⟨hi, lo, hb⟩ := nibbles b
    show (hexValue? (hexDigit (b / 16))).bind _ = _
    rw [(hexDigit_spec hi).1, Option.bind_some, (hexDigit_spec lo).1, Option.bind_some]
    show (hexPairs (hexEncode bs)).map _ = _
    rw [ih, Option.map_some, hb]

theorem hexDecode_hexEncode {bs : Bytes} : hexDecode (hexEncode bs) = .ok bs := by
  have raw : ((hexEncode bs).flatMap String.utf8EncodeChar).map (fun b => Char.ofNat b.toNat) =
      hexEncode bs := by
    rw [List.map_flatMap]
    refine (List.flatMap_congr fun c hc => ?_).trans (List.flatMap_singleton' _)
    obtain ⟨n, hn, rfl⟩ := exists_of_mem_hexEncode hc
    exact (hexDigit_spec hn).2.1
  unfold hexDecode
  simp only [raw]
  rw [if_neg (by rw [length_hexEncode]; omega), hexPairs_hexEncode]

/-- A hex digit as `format!` writes it. -/
theorem hexValue_digitChar {d : Nat} (h : d < 16) : hexValue? d.digitChar = some (UInt8.ofNat d) := by
  have all : ∀ d : Fin 16, hexValue? (Nat.digitChar d) = some (UInt8.ofNat d) := by decide
  exact all ⟨d, h⟩

theorem parseHexDigits_append {bound n m : Nat} {t : Str} (h : parseHexDigits bound n s = .ok m) :
    parseHexDigits bound n (s ++ t) = parseHexDigits bound m t := by
  fun_induction parseHexDigits bound n s with
  | case1 n =>
    cases h
    rfl
  | case2 => cases h
  | case3 n c s d hd hlt ih =>
    rw [List.cons_append, parseHexDigits, hd]
    dsimp only
    rw [if_pos hlt, ih h]
  | case4 => cases h

/-- What is read as a number is of hex digits. -/
theorem hexValue_of_parseHexDigits {bound n m : Nat} (h : parseHexDigits bound n s = .ok m) :
    ∀ c ∈ s, (hexValue? c).isSome := by
  fun_induction parseHexDigits bound n s with
  | case1 => exact fun _ hc => nomatch hc
  | case2 => cases h
  | case3 n c s d hd hlt ih =>
    intro c' hc
    obtain rfl | hc := List.mem_cons.mp hc
    · rw [hd]
      rfl
    · exact ih h c' hc
  | case4 => cases h

/-- Zeros before a number say nothing. -/
theorem parseHexDigits_zeros {bound k : Nat} (h : 0 < bound) :
    parseHexDigits bound 0 (List.replicate k '0') = .ok 0 := by
  induction k with
  | zero => rfl
  | succ k ih =>
    have hzero : hexValue? '0' = some 0 := rfl
    rw [List.replicate_succ, parseHexDigits, hzero]
    exact (if_pos h).trans ih

theorem parseHexDigits_toDigits {bound n : Nat} (h : n < bound) :
    parseHexDigits bound 0 (Nat.toDigits 16 n) = .ok n := by
  have digit {m d : Nat} (hd : d < 16) (hlt : m * 16 + d < bound) :
      parseHexDigits bound m [d.digitChar] = .ok (m * 16 + d) := by
    have hnat : (UInt8.ofNat d).toNat = d := UInt8.toNat_ofNat_of_lt' (Nat.lt_trans hd (by decide))
    rw [parseHexDigits, hexValue_digitChar hd]
    dsimp only
    rw [hnat, if_pos hlt, parseHexDigits]
  induction n using Nat.strongRecOn with
  | ind n ih =>
    rw [Nat.toDigits_eq_if (by decide)]
    split
    next hlt =>
      have := @digit 0 n hlt (by omega)
      rwa [Nat.zero_mul, Nat.zero_add] at this
    next hge =>
      rw [parseHexDigits_append (ih (n / 16) (by omega) (by omega)), digit (by omega) (by omega)]
      congr 1
      omega

theorem digit?_digitChar {d : Nat} (h : d < 10) : digit? d.digitChar = some d := by
  have all : ∀ d : Fin 10, digit? (Nat.digitChar d) = some d.val := by decide
  exact all ⟨d, h⟩

theorem parseDigits_append {bound n m : Nat} {t : Str} (h : parseDigits bound n s = .ok m) :
    parseDigits bound n (s ++ t) = parseDigits bound m t := by
  fun_induction parseDigits bound n s with
  | case1 n =>
    cases h
    rfl
  | case2 => cases h
  | case3 n c s d hd hlt ih =>
    rw [List.cons_append, parseDigits, hd]
    dsimp only
    rw [if_pos hlt, ih h]
  | case4 => cases h

theorem parseDigits_toDigits {bound n : Nat} (h : n < bound) :
    parseDigits bound 0 (Nat.toDigits 10 n) = .ok n := by
  have digit {m d : Nat} (hd : d < 10) (hlt : m * 10 + d < bound) :
      parseDigits bound m [d.digitChar] = .ok (m * 10 + d) := by
    rw [parseDigits, digit?_digitChar hd]
    dsimp only
    rw [if_pos hlt, parseDigits]
  induction n using Nat.strongRecOn with
  | ind n ih =>
    rw [Nat.toDigits_eq_if (by decide)]
    split
    next hlt =>
      have := @digit 0 n hlt (by omega)
      rwa [Nat.zero_mul, Nat.zero_add] at this
    next hge =>
      rw [parseDigits_append (ih (n / 10) (by omega) (by omega)), digit (by omega) (by omega)]
      congr 1
      omega

theorem parseUnsigned_ofNat {bound n : Nat} (h : n < bound) :
    parseUnsigned bound (ofNat n) = .ok n := by
  have hparse := parseDigits_toDigits h
  have hplus {s : Str} : parseDigits bound 0 ('+' :: s) = .error .invalidDigit := rfl
  unfold parseUnsigned ofNat
  split
  next he => exact absurd he Nat.toDigits_ne_nil
  next he =>
    rw [he, hplus] at hparse
    cases hparse
  next he =>
    rw [he, hplus] at hparse
    cases hparse
  next => exact hparse

theorem parseU32_ofNat {n : Nat} (h : n < 2 ^ 32) : parseU32 (ofNat n) = .ok n :=
  parseUnsigned_ofNat h

theorem parseU8_ofNat {n : UInt8} : parseU8 (ofNat n.toNat) = .ok n := by
  have h : parseUnsigned (2 ^ 8) (ofNat n.toNat) = _ := parseUnsigned_ofNat n.toNat_lt
  rw [parseU8, h]
  exact congrArg Except.ok (UInt8.ofNat_toNat)

theorem isDigit_of_mem_ofNat {n : Nat} (h : c ∈ ofNat n) : c.isDigit = true :=
  Nat.isDigit_of_mem_toDigits (by decide) (by decide) h

/-- No digit is whitespace, a colon or a dot. -/
theorem isDigit_spec (h : c.isDigit = true) : isWhitespace c = false ∧ c ≠ ':' ∧ c ≠ '.' := by
  have hlt : c.toNat < 128 := by
    rw [Char.isDigit, Bool.and_eq_true, decide_eq_true_eq, decide_eq_true_eq] at h
    exact Nat.lt_of_le_of_lt (show c.toNat ≤ 57 from h.2) (by decide)
  have all : ∀ k : Fin 128, (Char.ofNat k).isDigit = true →
      isWhitespace (Char.ofNat k) = false ∧ Char.ofNat k ≠ ':' ∧ Char.ofNat k ≠ '.' := by decide
  have hc := all ⟨c.toNat, hlt⟩
  rw [Char.ofNat_toNat] at hc
  exact hc h

theorem parseDigits_lt {bound n m : Nat} (hn : n < bound) (h : parseDigits bound n s = .ok m) :
    m < bound := by
  fun_induction parseDigits bound n s with
  | case1 n => exact Except.ok.inj h ▸ hn
  | case2 => cases h
  | case3 n c s d hd hlt ih => exact ih hlt h
  | case4 => cases h

theorem parseU32_lt {n : Nat} (h : parseU32 s = .ok n) : n < 2 ^ 32 := by
  unfold parseU32 parseUnsigned at h
  split at h
  next => cases h
  next => cases h
  next => exact parseDigits_lt (by decide) h
  next => exact parseDigits_lt (by decide) h

theorem parseHexDigits_hexNat {w n : Nat} (h : n < 2 ^ 32) :
    parseHexDigits (2 ^ 32) 0 (hexNat w n) = .ok n := by
  rw [hexNat, parseHexDigits_append (parseHexDigits_zeros (by decide)), parseHexDigits_toDigits h]

theorem parseHexU32_hexNat {w n : Nat} (h : n < 2 ^ 32) : parseHexU32 (hexNat w n) = .ok n := by
  have hparse := parseHexDigits_hexNat (w := w) h
  have hplus {s : Str} : parseHexDigits (2 ^ 32) 0 ('+' :: s) = .error .invalidDigit := rfl
  unfold parseHexU32
  split
  next he => exact absurd (List.append_eq_nil_iff.mp he).2 Nat.toDigits_ne_nil
  next he =>
    rw [he, hplus] at hparse
    cases hparse
  next he =>
    rw [he, hplus] at hparse
    cases hparse
  next => exact hparse

/-- No hex digit is whitespace or a colon. -/
theorem hexValue_isSome (h : (hexValue? c).isSome) : isWhitespace c = false ∧ c ≠ ':' := by
  have hlt : c.toNat < 128 := by
    unfold hexValue? at h
    split at h
    next hc => exact Nat.lt_of_le_of_lt (show c.toNat ≤ 57 from hc.2) (by decide)
    next =>
      split at h
      next hc => exact Nat.lt_of_le_of_lt (show c.toNat ≤ 102 from hc.2) (by decide)
      next =>
        split at h
        next hc => exact Nat.lt_of_le_of_lt (show c.toNat ≤ 70 from hc.2) (by decide)
        next => cases h
  have all : ∀ k : Fin 128, (hexValue? (Char.ofNat k)).isSome →
      isWhitespace (Char.ofNat k) = false ∧ Char.ofNat k ≠ ':' := by decide
  have hc := all ⟨c.toNat, hlt⟩
  rw [Char.ofNat_toNat] at hc
  exact hc h

theorem length_hexNat_le {w k n : Nat} (hk : 0 < k) (hw : w ≤ k) (h : n < 16 ^ k) :
    (hexNat w n).length ≤ k := by
  have := (Nat.length_toDigits_le_iff (b := 16) (by decide) hk).mpr h
  rw [hexNat, List.length_append, List.length_replicate]
  omega

/-- Text without whitespace is left as it is. -/
theorem trim_eq_self (hs : ∀ c ∈ s, isWhitespace c = false) : trim s = s := by
  have drop {t : Str} (ht : ∀ c ∈ t, isWhitespace c = false) : t.dropWhile isWhitespace = t := by
    cases t with
    | nil => rfl
    | cons c t => exact List.dropWhile_cons_of_neg (by simp [ht c (.head _)])
  rw [trim, trimMatches, trimEndMatches, drop hs,
    drop fun c hc => hs c (List.mem_reverse.mp hc), List.reverse_reverse]

end

example : hexEncode [0x33, 0xfd] = "33fd".toList := by decide

example : parseU8 "+12".toList = .ok 12 ∧ parseU8 "256".toList = .error .posOverflow := by decide

end Str
