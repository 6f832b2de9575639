import Immurok.Text.Str

/-!
# Numbers

A number from its bytes or from its digits, the first of them the most
significant.
-/

variable {b : UInt8} {bs cs : Bytes} {base m n v : Nat} {vs : List Nat}

-- ---------------------------------------------------------------------------
-- Bytes
-- ---------------------------------------------------------------------------

def natOfBe : Bytes → Nat
  | [] => 0
  | b :: bs => b.toNat * 256 ^ bs.length + natOfBe bs

def natOfLe (bs : Bytes) : Nat := natOfBe bs.reverse

theorem natOfBe_lt : natOfBe bs < 256 ^ bs.length := by
  induction bs with
  | nil => exact Nat.one_pos
  | cons b bs ih =>
    have hb := b.toNat_lt
    calc natOfBe (b :: bs) < b.toNat * 256 ^ bs.length + 256 ^ bs.length := by
          rw [natOfBe]
          exact Nat.add_lt_add_left ih _
      _ = (b.toNat + 1) * 256 ^ bs.length := (Nat.succ_mul _ _).symm
      _ ≤ 256 * 256 ^ bs.length := Nat.mul_le_mul_right _ hb
      _ = 256 ^ (b :: bs).length := by rw [List.length_cons, Nat.pow_succ, Nat.mul_comm]

theorem natOfBe_zero : natOfBe (0 :: bs) = natOfBe bs := by
  rw [natOfBe, UInt8.toNat_zero, Nat.zero_mul, Nat.zero_add]

theorem natOfBe_concat : natOfBe (bs ++ [b]) = natOfBe bs * 256 + b.toNat := by
  induction bs with
  | nil => simp [natOfBe]
  | cons c bs ih =>
    rw [List.cons_append, natOfBe, natOfBe, ih, List.length_append, List.length_singleton,
      Nat.pow_succ, Nat.add_mul, Nat.mul_assoc, Nat.add_assoc]

/-- Bytes of one length have different numbers. -/
theorem natOfBe_inj (hlen : bs.length = cs.length) (h : natOfBe bs = natOfBe cs) : bs = cs := by
  induction bs generalizing cs with
  | nil => exact (List.length_eq_zero_iff.mp hlen.symm).symm
  | cons b bs ih =>
    match cs, hlen with
    | c :: cs, hlen =>
      have heq : bs.length = cs.length := Nat.succ_inj.mp hlen
      have hdiv {x r : Nat} (hr : r < 256 ^ cs.length) :
          (x * 256 ^ cs.length + r) / 256 ^ cs.length = x := by
        rw [Nat.mul_comm, Nat.mul_add_div (Nat.pow_pos (by decide)), Nat.div_eq_of_lt hr,
          Nat.add_zero]
      have hbs : natOfBe bs < 256 ^ cs.length := heq ▸ natOfBe_lt
      rw [natOfBe, natOfBe, heq] at h
      have hb : b.toNat = c.toNat := by
        rw [← hdiv (x := b.toNat) hbs, h, hdiv natOfBe_lt]
      obtain rfl := UInt8.toNat_inj.mp hb
      rw [ih heq (Nat.add_left_cancel h)]

-- ---------------------------------------------------------------------------
-- Digits
-- ---------------------------------------------------------------------------

/-- The last `m` digits of a number. -/
def digitsOf (base : Nat) : Nat → Nat → List Nat
  | 0, _ => []
  | m + 1, n => n / base ^ m % base :: digitsOf base m n

def ofDigits (base : Nat) (vs : List Nat) : Nat := vs.foldl (fun n v => n * base + v) 0

theorem length_digitsOf : (digitsOf base m n).length = m := by
  induction m with
  | zero => rfl
  | succ m ih => rw [digitsOf, List.length_cons, ih]

theorem digitsOf_lt (hb : 0 < base) (h : v ∈ digitsOf base m n) : v < base := by
  induction m with
  | zero => nomatch h
  | succ m ih =>
    obtain rfl | h := List.mem_cons.mp h
    · exact Nat.mod_lt _ hb
    · exact ih h

theorem ofDigits_concat : ofDigits base (vs ++ [v]) = ofDigits base vs * base + v :=
  List.foldl_append

theorem ofDigits_digitsOf : ofDigits base (digitsOf base m n) = n % base ^ m := by
  have all : ∀ m acc, (digitsOf base m n).foldl (fun n v => n * base + v) acc =
      acc * base ^ m + n % base ^ m := by
    intro m
    induction m with
    | zero => simp [digitsOf, Nat.mod_one]
    | succ m ih =>
      intro acc
      rw [digitsOf, List.foldl_cons, ih, Nat.add_mul, Nat.pow_succ, Nat.mod_mul,
        Nat.mul_assoc, Nat.mul_comm base, Nat.add_assoc, Nat.add_comm (n % base ^ m),
        Nat.mul_comm (n / base ^ m % base)]
  rw [ofDigits, all, Nat.zero_mul, Nat.zero_add]
