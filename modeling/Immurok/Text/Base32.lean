import Immurok.Text.BigEndian

/-!
# Base32

The encoding of RFC 4648: the bits of the bytes, filled up with zeros to groups
of five, a character for each group, and padding up to eight characters.
-/

namespace Base32

variable {n : Nat} {c : Char} {b : Bytes}

def alphabet : Str := "ABCDEFGHIJKLMNOPQRSTUVWXYZ234567".toList

def digit (n : Nat) : Char := alphabet.getD n '='

/-- How many groups there are. -/
def groups (len : Nat) : Nat := (8 * len + 4) / 5

/-- The characters before the padding. -/
def letters (b : Bytes) : Str :=
  let m := groups b.length
  (digitsOf 32 m (natOfBe b * 2 ^ (5 * m - 8 * b.length))).map digit

def padding (b : Bytes) : Str := List.replicate ((8 - groups b.length % 8) % 8) '='

def encode (b : Bytes) : Str := letters b ++ padding b

example : encode [0x66, 0x6F, 0x6F, 0x62, 0x61, 0x72] = "MZXW6YTBOI======".toList := by
  decide

/-- A letter in either case, with whitespace in between. -/
inductive Spells (white : Char → Bool) : Str → Str → Prop
  | nil : Spells white [] []
  | white {w : Char} {s t : Str} : white w = true → Spells white s t → Spells white s (w :: t)
  | char {c : Char} {s t : Str} : Spells white s t → Spells white (c :: s) (c :: t)
  | lower {c : Char} {s t : Str} : Spells white s t → Spells white (c :: s) (c.toLower :: t)

/-- An encoding of `b`, with or without padding. -/
def IsEncoding (white : Char → Bool) (b : Bytes) (e : Str) : Prop :=
  Spells white (letters b) e ∨ Spells white (encode b) e

end Base32
