import Immurok.Text.BigEndian
import Mathlib.Algebra.Ring.Int.Defs

/-!
# The wire format of SSH

Strings and mpints as a reader takes them, apart from how they are written. An
mpint is a number in two's complement, in as few bytes as it can be.
-/

namespace SshWire

variable {b c : UInt8} {bs s rest : Bytes} {n : Nat}

-- ---------------------------------------------------------------------------
-- Strings
-- ---------------------------------------------------------------------------

/-- A string and what is behind it. -/
def string? : Bytes → Option (Bytes × Bytes)
  | b₀ :: b₁ :: b₂ :: b₃ :: rest =>
    let n := natOfBe [b₀, b₁, b₂, b₃]
    if n ≤ rest.length then some (rest.take n, rest.drop n) else none
  | _ => none

theorem string?_append {size : Bytes} (hsize : size.length = 4) (hn : natOfBe size = s.length) :
    string? (size ++ (s ++ rest)) = some (s, rest) := by
  match size, hsize with
  | [b₀, b₁, b₂, b₃], _ =>
    have hle : s.length ≤ (s ++ rest).length := by
      rw [List.length_append]
      exact Nat.le_add_right _ _
    have hread : string? (b₀ :: b₁ :: b₂ :: b₃ :: (s ++ rest)) = some (s, rest) := by
      unfold string?
      dsimp only
      rw [hn, if_pos hle, List.take_left, List.drop_left]
    exact hread

-- ---------------------------------------------------------------------------
-- Mpints
-- ---------------------------------------------------------------------------

def mpintValue (bs : Bytes) : Int :=
  if 0x80 ≤ bs.headD 0 then natOfBe bs - 256 ^ bs.length else natOfBe bs

/-- Without a byte in front that only repeats the sign; zero has no bytes. -/
def Minimal : Bytes → Prop
  | [] => True
  | [b] => b ≠ 0
  | b :: c :: _ => ¬(b = 0 ∧ c < 0x80) ∧ ¬(b = 0xFF ∧ 0x80 ≤ c)

instance : DecidablePred Minimal
  | [] => inferInstanceAs (Decidable True)
  | [b] => inferInstanceAs (Decidable (b ≠ 0))
  | b :: c :: _ => inferInstanceAs (Decidable (¬(b = 0 ∧ c < 0x80) ∧ ¬(b = 0xFF ∧ 0x80 ≤ c)))

/-- The canonical mpint of a number. -/
structure IsMpint (bs : Bytes) (n : Int) : Prop where
  value : mpintValue bs = n
  minimal : Minimal bs

/-- A number with a zero byte in front of a set sign bit. -/
def signed : Bytes → Bytes
  | [] => []
  | b :: bs => if 0x80 ≤ b then 0 :: b :: bs else b :: bs

theorem signed_cons : signed (b :: bs) = if 0x80 ≤ b then 0 :: b :: bs else b :: bs := rfl

theorem mpintValue_signed : mpintValue (signed bs) = natOfBe bs := by
  cases bs with
  | nil => rfl
  | cons b bs =>
    rw [signed_cons]
    split
    next h => rw [mpintValue, List.headD_cons, if_neg (by decide), natOfBe_zero]
    next h => rw [mpintValue, List.headD_cons, if_neg h]

/-- Whether the number fills all bytes but one, with its sign, is seen from the
first two. -/
theorem le_natOfBe_iff (hlen : bs.length = n) :
    128 * 256 ^ n ≤ natOfBe (b :: c :: bs) ↔ b ≠ 0 ∨ 0x80 ≤ c := by
  have hlt : natOfBe bs < 256 ^ n := hlen ▸ natOfBe_lt
  have hvalue : natOfBe (b :: c :: bs) =
      b.toNat * 256 * 256 ^ n + (c.toNat * 256 ^ n + natOfBe bs) := by
    rw [natOfBe, natOfBe, List.length_cons, hlen, Nat.pow_succ, Nat.mul_assoc, Nat.mul_comm 256]
  rw [hvalue]
  by_cases hb : b = 0
  · have hzero : b.toNat * 256 * 256 ^ n = 0 := by
      simp only [hb, UInt8.toNat_zero, Nat.zero_mul]
    have hle : (0x80 : UInt8) ≤ c ↔ 128 ≤ c.toNat := UInt8.le_iff_toNat_le
    rw [hzero, Nat.zero_add, or_iff_right (not_not.mpr hb), hle]
    constructor
    · intro h
      by_contra hc
      have hmul : (c.toNat + 1) * 256 ^ n ≤ 128 * 256 ^ n :=
        Nat.mul_le_mul_right _ (Nat.lt_of_not_le hc)
      rw [Nat.succ_mul] at hmul
      omega
    · intro hc
      have hmul : 128 * 256 ^ n ≤ c.toNat * 256 ^ n := Nat.mul_le_mul_right _ hc
      omega
  · have hpos : 1 ≤ b.toNat := Nat.pos_of_ne_zero fun h => hb (UInt8.toNat_inj.mp h)
    have hmul : 1 * 256 * 256 ^ n ≤ b.toNat * 256 * 256 ^ n :=
      Nat.mul_le_mul_right _ (Nat.mul_le_mul_right _ hpos)
    exact iff_of_true (by omega) (.inl hb)

theorem minimal_signed_iff (hlen : bs.length = n + 2) :
    Minimal (signed bs) ↔ 128 * 256 ^ n ≤ natOfBe bs := by
  match bs, hlen with
  | b :: c :: bs, hlen =>
    rw [le_natOfBe_iff (Nat.succ_inj.mp (Nat.succ_inj.mp hlen)), signed_cons]
    split
    next hb =>
      refine iff_of_true ⟨fun h => UInt8.not_le.mpr h.2 hb, nofun⟩ (.inl ?_)
      rintro rfl
      exact absurd hb (by decide)
    next hb =>
      have hff : ¬(b = 0xFF ∧ 0x80 ≤ c) := by
        rintro ⟨rfl, -⟩
        exact hb (by decide)
      rw [Minimal, and_iff_left hff, not_and, UInt8.not_lt, or_iff_not_imp_left, not_not]

end SshWire
