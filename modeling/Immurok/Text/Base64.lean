import Immurok.Text.Str

/-!
# Base64

The standard alphabet with padding, and what the code relies on of an engine
for it.
-/

namespace Base64

def alphabet : Str := "ABCDEFGHIJKLMNOPQRSTUVWXYZabcdefghijklmnopqrstuvwxyz0123456789+/"

/-- A codec for base64 text: it reads back what it writes, three bytes are
four characters, and these are of the alphabet or padding. -/
structure Laws (encode : Bytes → Str) (decode : Str → Option Bytes) : Prop where
  decode_encode : ∀ bs, decode (encode bs) = some bs
  length_encode : ∀ bs, (encode bs).length = 4 * ((bs.length + 2) / 3)
  chars : ∀ bs, ∀ c ∈ encode bs, c ∈ '=' :: alphabet

-- ---------------------------------------------------------------------------
-- The codec
-- ---------------------------------------------------------------------------

def digit (n : Nat) : Char := alphabet.getD n '='

def value? (c : Char) : Option Nat := alphabet.findIdx? (· = c)

def encode : Bytes → Str
  | [] => []
  | [a] => [digit (a.toNat / 4), digit (a.toNat % 4 * 16), '=', '=']
  | [a, b] => [digit (a.toNat / 4), digit (a.toNat % 4 * 16 + b.toNat / 16),
      digit (b.toNat % 16 * 4), '=']
  | a :: b :: c :: bs =>
    digit (a.toNat / 4) :: digit (a.toNat % 4 * 16 + b.toNat / 16) ::
      digit (b.toNat % 16 * 4 + c.toNat / 64) :: digit (c.toNat % 64) :: encode bs

/-- Four characters; only the last four may be padded, with the bits left
over zero. -/
def decodeQuad (last : Bool) (a b c d : Char) : Option Bytes :=
  (value? a).bind fun x => (value? b).bind fun y =>
    match value? c, value? d with
    | some z, some w => some [UInt8.ofNat (x * 4 + y / 16), UInt8.ofNat (y % 16 * 16 + z / 4),
        UInt8.ofNat (z % 4 * 64 + w)]
    | some z, none =>
      if last ∧ d = '=' ∧ z % 4 = 0 then
        some [UInt8.ofNat (x * 4 + y / 16), UInt8.ofNat (y % 16 * 16 + z / 4)]
      else none
    | none, none =>
      if last ∧ c = '=' ∧ d = '=' ∧ y % 16 = 0 then some [UInt8.ofNat (x * 4 + y / 16)] else none
    | none, some _ => none

def decode : Str → Option Bytes
  | [] => some []
  | a :: b :: c :: d :: s =>
    (decodeQuad s.isEmpty a b c d).bind fun bs => (decode s).map (bs ++ ·)
  | _ => none

-- ---------------------------------------------------------------------------
-- Laws
-- ---------------------------------------------------------------------------

theorem value_digit {n : Nat} (h : n < 64) : value? (digit n) = some n := by
  have all : ∀ n : Fin 64, value? (digit n) = some n.val := by decide +kernel
  exact all ⟨n, h⟩

theorem digit_mem {n : Nat} (h : n < 64) : digit n ∈ '=' :: alphabet := by
  have all : ∀ n : Fin 64, digit n ∈ '=' :: alphabet := by decide +kernel
  exact all ⟨n, h⟩

theorem value_pad : value? '=' = none := by decide

/-- A byte from its upper and lower bits. -/
theorem ofNat_eq {b : UInt8} {n : Nat} (h : n = b.toNat) : UInt8.ofNat n = b := by
  rw [h, UInt8.ofNat_toNat]

theorem decode_encode (bs : Bytes) : decode (encode bs) = some bs := by
  induction bs using encode.induct with
  | case1 => rfl
  | case2 a =>
    have ha := a.toNat_lt
    have h : decodeQuad true (digit (a.toNat / 4)) (digit (a.toNat % 4 * 16)) '=' '=' =
        some [a] := by
      rw [decodeQuad, value_digit (by omega), value_digit (by omega), value_pad]
      simp only [Option.bind_some]
      rw [if_pos ⟨trivial, trivial, trivial, by omega⟩, ofNat_eq (b := a) (by omega)]
    simp [encode, decode, h]
  | case3 a b =>
    have ha := a.toNat_lt
    have hb := b.toNat_lt
    have h : decodeQuad true (digit (a.toNat / 4)) (digit (a.toNat % 4 * 16 + b.toNat / 16))
        (digit (b.toNat % 16 * 4)) '=' = some [a, b] := by
      rw [decodeQuad, value_digit (by omega), value_digit (by omega), value_digit (by omega),
        value_pad]
      simp only [Option.bind_some]
      rw [if_pos ⟨trivial, trivial, by omega⟩, ofNat_eq (b := a) (by omega), ofNat_eq (b := b) (by omega)]
    simp [encode, decode, h]
  | case4 a b c bs ih =>
    have ha := a.toNat_lt
    have hb := b.toNat_lt
    have hc := c.toNat_lt
    have h {last : Bool} : decodeQuad last (digit (a.toNat / 4))
        (digit (a.toNat % 4 * 16 + b.toNat / 16)) (digit (b.toNat % 16 * 4 + c.toNat / 64))
        (digit (c.toNat % 64)) = some [a, b, c] := by
      rw [decodeQuad, value_digit (by omega), value_digit (by omega), value_digit (by omega),
        value_digit (by omega)]
      simp only [Option.bind_some]
      rw [ofNat_eq (b := a) (by omega), ofNat_eq (b := b) (by omega), ofNat_eq (b := c) (by omega)]
    simp [encode, decode, h, ih]

theorem length_encode (bs : Bytes) : (encode bs).length = 4 * ((bs.length + 2) / 3) := by
  induction bs using encode.induct with
  | case1 => rfl
  | case2 a => simp [encode]
  | case3 a b => simp [encode]
  | case4 a b c bs ih =>
    simp only [encode, List.length_cons, ih]
    omega

theorem chars (bs : Bytes) : ∀ c ∈ encode bs, c ∈ '=' :: alphabet := by
  induction bs using encode.induct with
  | case1 => exact fun _ h => (nomatch h)
  | case2 a =>
    have ha := a.toNat_lt
    simp only [encode, List.forall_mem_cons]
    exact ⟨digit_mem (by omega), digit_mem (by omega), .head _, .head _, fun _ h => (nomatch h)⟩
  | case3 a b =>
    have ha := a.toNat_lt
    have hb := b.toNat_lt
    simp only [encode, List.forall_mem_cons]
    exact ⟨digit_mem (by omega), digit_mem (by omega), digit_mem (by omega), .head _,
      fun _ h => (nomatch h)⟩
  | case4 a b c bs ih =>
    have ha := a.toNat_lt
    have hb := b.toNat_lt
    have hc := c.toNat_lt
    simp only [encode, List.forall_mem_cons]
    exact ⟨digit_mem (by omega), digit_mem (by omega), digit_mem (by omega), digit_mem (by omega),
      ih⟩

theorem laws : Laws encode decode := ⟨decode_encode, length_encode, chars⟩

end Base64
