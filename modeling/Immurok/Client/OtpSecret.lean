import Immurok.Client.Keys
import Immurok.Text.Base32

/-!
# Base32 secrets

The loop that decodes a secret keeps the number of the digits in the bytes that
it has given out and the bits that it has not.
-/

namespace Immurok

-- ---------------------------------------------------------------------------
-- The loop
-- ---------------------------------------------------------------------------

/-- The variables `bits`, `nbits` and `out` of the loop. -/
structure Base32State where
  bits : UInt32
  nbits : Nat
  out : Bytes

def Base32State.init : Base32State := { bits := 0, nbits := 0, out := [] }

def Base32State.step (st : Base32State) (v : UInt32) : Base32State :=
  let bits := st.bits <<< 5 ||| v
  let nbits := st.nbits + 5
  if 8 ≤ nbits then
    { bits, nbits := nbits - 8
      out := st.out ++ [(bits >>> UInt32.ofNat (nbits - 8)).toUInt8] }
  else { st with bits, nbits }

/-- Nothing is lost: the number of the digits so far is in the bytes and the last
`nbits` of the accumulator. -/
structure Base32State.Holds (st : Base32State) (vs : List Nat) : Prop where
  nbits : st.nbits = 5 * vs.length % 8
  length : st.out.length = 5 * vs.length / 8
  number : ofDigits 32 vs = natOfBe st.out * 2 ^ st.nbits + st.bits.toNat % 2 ^ st.nbits

section
variable {st : Base32State} {vs : List Nat} {v : UInt32} {bits : UInt32} {n : Nat}

theorem init_holds : Base32State.init.Holds [] := ⟨rfl, rfl, rfl⟩

/-- The accumulator with a digit more; what leaves it above is gone. -/
theorem shift_or (hv : v.toNat < 32) :
    (bits <<< 5 ||| v).toNat = 32 * (bits.toNat % 2 ^ 27) + v.toNat := by
  have hshift : (bits <<< 5).toNat = 2 ^ 5 * (bits.toNat % 2 ^ 27) := by
    rw [UInt32.toNat_shiftLeft, Nat.shiftLeft_eq]
    show bits.toNat * 2 ^ 5 % 2 ^ 32 = _
    omega
  rw [UInt32.toNat_or, hshift, ← Nat.two_pow_add_eq_or_of_lt hv]

/-- Of its last bits none is. -/
theorem shift_or_mod (hv : v.toNat < 32) (hn : n ≤ 27) :
    (bits <<< 5 ||| v).toNat % 2 ^ (n + 5) = bits.toNat % 2 ^ n * 32 + v.toNat := by
  have hpow : 2 ^ (n + 5) = 32 * 2 ^ n := by rw [Nat.pow_add, Nat.mul_comm]
  have hmod : (32 * (bits.toNat % 2 ^ 27) + v.toNat) % 32 = v.toNat := by omega
  have hdiv : (32 * (bits.toNat % 2 ^ 27) + v.toNat) / 32 = bits.toNat % 2 ^ 27 := by omega
  rw [shift_or hv, hpow, Nat.mod_mul, hmod, hdiv, Nat.mod_mod_of_dvd _ (Nat.pow_dvd_pow 2 hn)]
  omega

theorem Base32State.Holds.step (h : st.Holds vs) (hv : v.toNat < 32) :
    (st.step v).Holds (vs ++ [v.toNat]) := by
  have hn := h.nbits
  have hlen : (vs ++ [v.toNat]).length = vs.length + 1 := by simp
  have hlive : (st.bits <<< 5 ||| v).toNat % 2 ^ (st.nbits + 5) = _ := shift_or_mod hv (by omega)
  have hnumber : ofDigits 32 (vs ++ [v.toNat]) = natOfBe st.out * 2 ^ (st.nbits + 5) +
      (st.bits <<< 5 ||| v).toNat % 2 ^ (st.nbits + 5) := by
    rw [ofDigits_concat, h.number, hlive, Nat.pow_add, Nat.add_mul, Nat.mul_assoc, Nat.add_assoc]
  unfold Base32State.step
  dsimp only
  split
  next hbyte =>
    obtain ⟨k, hk⟩ : ∃ k, st.nbits + 5 = k + 8 := ⟨st.nbits + 5 - 8, by omega⟩
    have hk' : (UInt32.ofNat k).toNat % 32 = k := by
      have hsmall : k < 8 := by omega
      rw [UInt32.toNat_ofNat_of_lt' (Nat.lt_trans hsmall (by decide)), Nat.mod_eq_of_lt (by omega)]
    have hout : ((st.bits <<< 5 ||| v) >>> UInt32.ofNat k).toUInt8.toNat =
        (st.bits <<< 5 ||| v).toNat % 2 ^ (k + 8) / 2 ^ k := by
      rw [UInt32.toNat_toUInt8, UInt32.toNat_shiftRight, hk', Nat.shiftRight_eq_div_pow,
        Nat.pow_add, Nat.mod_mul_right_div_self]
    have hrest : (st.bits <<< 5 ||| v).toNat % 2 ^ (k + 8) % 2 ^ k =
        (st.bits <<< 5 ||| v).toNat % 2 ^ k :=
      Nat.mod_mod_of_dvd _ (Nat.pow_dvd_pow 2 (Nat.le_add_right _ _))
    rw [hk] at hnumber
    rw [hk, Nat.add_sub_cancel]
    refine ⟨?_, ?_, ?_⟩
    · show k = _
      omega
    · have := h.length
      rw [List.length_append, List.length_singleton]
      omega
    · show _ = natOfBe (st.out ++ [_]) * 2 ^ k + (st.bits <<< 5 ||| v).toNat % 2 ^ k
      rw [natOfBe_concat, hout, hnumber, ← hrest, Nat.add_mul, Nat.add_assoc,
        Nat.mul_comm (_ / 2 ^ k), Nat.div_add_mod, Nat.pow_add, Nat.mul_comm (2 ^ k), Nat.mul_assoc]
  next hmore =>
    refine ⟨?_, ?_, hnumber⟩
    · show st.nbits + 5 = _
      omega
    · have := h.length
      show st.out.length = _
      omega

/-- Every state of the loop, and the one in the middle of its next round. -/
theorem foldl_step_holds {ds : List UInt32} (hds : ∀ v ∈ ds, v.toNat < 32) (h : st.Holds vs) :
    (ds.foldl Base32State.step st).Holds (vs ++ ds.map UInt32.toNat) := by
  induction ds generalizing st vs with
  | nil => rwa [List.map_nil, List.append_nil]
  | cons v ds ih =>
    obtain ⟨hv, hds⟩ := List.forall_mem_cons.mp hds
    rw [List.map_cons, List.append_cons]
    exact ih hds (h.step hv)

end

-- ---------------------------------------------------------------------------
-- Decoding
-- ---------------------------------------------------------------------------

section
variable {s : Str} {bits : UInt32} {nbits : Nat} {out : Bytes} {c : Char}

/-- The digits of a text, if it has nothing else. -/
def base32Values (s : Str) : Option (List UInt32) := s.mapM base32Value?

theorem base32Values_cons : base32Values (c :: s) =
    (base32Value? c).bind fun v => (base32Values s).map (v :: ·) := by
  unfold base32Values
  rw [List.mapM_cons]
  cases base32Value? c with
  | none => rfl
  | some v => cases s.mapM base32Value? <;> rfl

theorem base32Value_lt {v : UInt32} (h : base32Value? c = some v) : v.toNat < 32 := by
  unfold base32Value? at h
  split at h
  next hc =>
    have hle : c.toNat ≤ 'Z'.toNat := UInt32.le_iff_toNat_le.mp hc.2
    have hZ : 'Z'.toNat = 90 := rfl
    have hA : 'A'.toNat = 65 := rfl
    obtain rfl := Option.some.inj h
    have hsmall : c.toNat - 'A'.toNat < 32 := by omega
    rwa [UInt32.toNat_ofNat_of_lt' (Nat.lt_trans hsmall (by decide))]
  next =>
    split at h
    next hc =>
      have hle : c.toNat ≤ '7'.toNat := UInt32.le_iff_toNat_le.mp hc.2
      have h7 : '7'.toNat = 55 := rfl
      have h2 : '2'.toNat = 50 := rfl
      obtain rfl := Option.some.inj h
      have hsmall : c.toNat - '2'.toNat + 26 < 32 := by omega
      rwa [UInt32.toNat_ofNat_of_lt' (Nat.lt_trans hsmall (by decide))]
    next => nomatch h

theorem base32Values_lt {ds : List UInt32} (h : base32Values s = some ds) :
    ∀ v ∈ ds, v.toNat < 32 := by
  induction s generalizing ds with
  | nil =>
    obtain rfl : [] = ds := Option.some.inj h
    exact List.forall_mem_nil _
  | cons c s ih =>
    rw [base32Values_cons] at h
    obtain ⟨v, hv, h⟩ := Option.bind_eq_some_iff.mp h
    obtain ⟨ds', hds, rfl⟩ := Option.map_eq_some_iff.mp h
    exact List.forall_mem_cons.mpr ⟨base32Value_lt hv, ih hds⟩

theorem base32Digits_eq : (base32Digits bits nbits s).map (out ++ ·) =
    (base32Values s).map fun ds => (ds.foldl Base32State.step ⟨bits, nbits, out⟩).out := by
  induction s generalizing bits nbits out with
  | nil => exact congrArg some (List.append_nil out)
  | cons c s ih =>
    rw [base32Values_cons, base32Digits]
    cases base32Value? c with
    | none => rfl
    | some v =>
      simp only [Option.bind_some, Option.map_map, Function.comp_def, List.foldl_cons]
      rw [Base32State.step]
      dsimp only
      split
      · rw [← ih, Option.map_map]
        simp only [Function.comp_def, List.append_assoc, List.singleton_append]
      · exact ih

theorem base32Values_eq_none : base32Values s = none ↔ ∃ c ∈ s, base32Value? c = none := by
  induction s with
  | nil => simp [base32Values]
  | cons c s ih =>
    rw [base32Values_cons, List.exists_mem_cons_iff, ← ih]
    cases base32Value? c <;> simp

/-- What the loop reads of a text. -/
def base32Cleaned (s : Str) : Str :=
  (s.filter fun c => !Str.isWhitespace c && c != '=').map Char.toUpper

theorem base32Decode_eq : base32Decode s = (base32Values (base32Cleaned s)).map fun ds =>
    (ds.foldl Base32State.step .init).out := by
  have h : (base32Digits 0 0 (base32Cleaned s)).map ([] ++ ·) = _ := base32Digits_eq
  simp only [List.nil_append, Option.map_id'] at h
  exact h

theorem base32Value_eq_none :
    base32Value? c = none ↔ ¬(('A' ≤ c ∧ c ≤ 'Z') ∨ '2' ≤ c ∧ c ≤ '7') := by
  unfold base32Value?
  split
  next h => simp [h]
  next h =>
    split
    next h' => simp [h']
    next h' => simp [h, h']

theorem base32Value_toUpper : base32Value? c.toUpper = none ↔
    ¬(c.isAlpha = true ∨ '2' ≤ c ∧ c ≤ '7') := by
  by_cases hlower : 'a'.val ≤ c.val ∧ c.val ≤ 'z'.val
  · have all : ∀ n : Fin 26, (Char.ofNat (97 + n)).isAlpha = true ∧
        base32Value? (Char.ofNat (97 + n)).toUpper ≠ none := by decide
    have hle : 97 ≤ c.toNat ∧ c.toNat ≤ 122 :=
      ⟨UInt32.le_iff_toNat_le.mp hlower.1, UInt32.le_iff_toNat_le.mp hlower.2⟩
    have hc := all ⟨c.toNat - 97, by omega⟩
    rw [Nat.add_sub_cancel' hle.1, Char.ofNat_toNat] at hc
    exact iff_of_false hc.2 fun h => h (.inl hc.1)
  · have hupper : c.toUpper = c := dif_neg hlower
    have halpha : c.isAlpha = true ↔ 'A' ≤ c ∧ c ≤ 'Z' := by
      have hnot : c.isLower = false := by
        rw [← Bool.not_eq_true]
        exact fun h => hlower ((Bool.and_eq_true _ _).mp h |>.imp of_decide_eq_true of_decide_eq_true)
      have hupper : c.isUpper = true ↔ 'A' ≤ c ∧ c ≤ 'Z' := decide_eq_true_iff
      have halpha : c.isAlpha = (c.isUpper || c.isLower) := rfl
      rw [halpha, hnot, Bool.or_false, hupper]
    rw [hupper, base32Value_eq_none, halpha]

theorem base32Decode_eq_none : base32Decode s = none ↔ ∃ c ∈ s, Str.isWhitespace c = false ∧
    c ≠ '=' ∧ ¬(c.isAlpha = true ∨ '2' ≤ c ∧ c ≤ '7') := by
  rw [base32Decode_eq, Option.map_eq_none_iff, base32Values_eq_none]
  constructor
  · rintro ⟨_, hc, hnone⟩
    obtain ⟨c, hm, rfl⟩ := List.mem_map.mp hc
    obtain ⟨hs, hkept⟩ := List.mem_filter.mp hm
    rw [Bool.and_eq_true, Bool.not_eq_true', bne_iff_ne] at hkept
    exact ⟨c, hs, hkept.1, hkept.2, base32Value_toUpper.mp hnone⟩
  · rintro ⟨c, hs, hwhite, hpad, hbad⟩
    have hkept : (!Str.isWhitespace c && c != '=') = true := by
      rw [hwhite, Bool.not_false, Bool.true_and, bne_iff_ne]
      exact hpad
    exact ⟨c.toUpper, List.mem_map.mpr ⟨c, List.mem_filter.mpr ⟨hs, hkept⟩, rfl⟩,
      base32Value_toUpper.mpr hbad⟩

-- ---------------------------------------------------------------------------
-- Encodings
-- ---------------------------------------------------------------------------

open Base32

theorem cleaned_spells {t : Str} (h : Spells Str.isWhitespace s t)
    (hs : ∀ c ∈ s, c ∈ '=' :: alphabet) : base32Cleaned t = base32Cleaned s := by
  have all : ∀ c ∈ '=' :: alphabet, c.toLower.toUpper = c.toUpper ∧
      (!Str.isWhitespace c.toLower && c.toLower != '=') =
        (!Str.isWhitespace c && c != '=') := by decide
  unfold base32Cleaned at *
  induction h with
  | nil => rfl
  | white hw _ ih => rw [List.filter_cons_of_neg (by simp [hw]), ih hs]
  | @char c s t _ ih =>
    rw [List.filter_cons, List.filter_cons]
    split
    · rw [List.map_cons, List.map_cons, ih fun d hd => hs d (.tail _ hd)]
    · exact ih fun d hd => hs d (.tail _ hd)
  | @lower c s t _ ih =>
    obtain ⟨hupper, hkept⟩ := all c (hs c (.head _))
    rw [List.filter_cons, List.filter_cons, hkept]
    split
    · rw [List.map_cons, List.map_cons, hupper, ih fun d hd => hs d (.tail _ hd)]
    · exact ih fun d hd => hs d (.tail _ hd)

theorem digit_mem {n : Nat} (h : n < 32) : digit n ∈ alphabet := by
  have all : ∀ n : Fin 32, digit n ∈ alphabet := by decide
  exact all ⟨n, h⟩

theorem base32Value_digit {n : Nat} (h : n < 32) :
    base32Value? (digit n) = some (UInt32.ofNat n) := by
  have all : ∀ n : Fin 32, base32Value? (digit n) = some (UInt32.ofNat n) := by decide
  exact all ⟨n, h⟩

theorem base32Values_digits {ns : List Nat} (h : ∀ n ∈ ns, n < 32) :
    base32Values (ns.map digit) = some (ns.map UInt32.ofNat) := by
  induction ns with
  | nil => rfl
  | cons n ns ih =>
    obtain ⟨hn, hns⟩ := List.forall_mem_cons.mp h
    rw [List.map_cons, base32Values_cons, base32Value_digit hn, ih hns]
    rfl

theorem letters_mem {b : Bytes} (hc : c ∈ letters b) : c ∈ alphabet := by
  obtain ⟨n, hn, rfl⟩ := List.mem_map.mp hc
  exact digit_mem (digitsOf_lt (by decide) hn)

theorem cleaned_letters {b : Bytes} : base32Cleaned (letters b) = letters b := by
  have all : ∀ c ∈ alphabet, (!Str.isWhitespace c && c != '=') = true ∧ c.toUpper = c := by
    decide
  unfold base32Cleaned
  rw [List.filter_eq_self.mpr fun c hc => (all c (letters_mem hc)).1]
  exact (List.map_congr_left fun c hc => (all c (letters_mem hc)).2).trans (List.map_id _)

theorem cleaned_padding {b : Bytes} : base32Cleaned (padding b) = [] := by
  unfold base32Cleaned
  rw [List.filter_eq_nil_iff.mpr fun c hc => ?_, List.map_nil]
  rw [List.eq_of_mem_replicate hc]
  decide

theorem cleaned_encoding {b : Bytes} {e : Str} (h : IsEncoding Str.isWhitespace b e) :
    base32Cleaned e = letters b := by
  obtain h | h := h
  · rw [cleaned_spells h fun c hc => .tail _ (letters_mem hc), cleaned_letters]
  · have hmem : ∀ c ∈ encode b, c ∈ '=' :: alphabet := by
      intro c hc
      obtain hc | hc := List.mem_append.mp hc
      · exact .tail _ (letters_mem hc)
      · exact List.eq_of_mem_replicate hc ▸ .head _
    have happend : base32Cleaned (letters b ++ padding b) =
        base32Cleaned (letters b) ++ base32Cleaned (padding b) := by
      unfold base32Cleaned
      rw [List.filter_append, List.map_append]
    rw [cleaned_spells h hmem, encode, happend, cleaned_letters, cleaned_padding, List.append_nil]

/-- The loop gives the bytes of an encoding back. -/
theorem base32Decode_encoding {b : Bytes} {e : Str} (h : IsEncoding Str.isWhitespace b e) :
    base32Decode e = some b := by
  have hlt {n v : Nat} (h : v ∈ digitsOf 32 (groups b.length) n) : v < 32 :=
    digitsOf_lt (by decide) h
  rw [base32Decode_eq, cleaned_encoding h, letters, base32Values_digits fun _ => hlt,
    Option.map_some]
  generalize hm : groups b.length = m at hlt ⊢
  unfold groups at hm
  generalize hn : natOfBe b * 2 ^ (5 * m - 8 * b.length) = n
  have hds : ∀ v ∈ (digitsOf 32 m n).map UInt32.ofNat, v.toNat < 32 := by
    intro v hv
    obtain ⟨k, hk, rfl⟩ := List.mem_map.mp hv
    rw [UInt32.toNat_ofNat_of_lt' (Nat.lt_trans (hlt hk) (by decide))]
    exact hlt hk
  have hback : ((digitsOf 32 m n).map UInt32.ofNat).map UInt32.toNat = digitsOf 32 m n := by
    rw [List.map_map]
    refine (List.map_congr_left fun k hk => ?_).trans (List.map_id _)
    exact UInt32.toNat_ofNat_of_lt' (Nat.lt_trans (hlt hk) (by decide))
  have hst := foldl_step_holds hds init_holds
  rw [hback, List.nil_append] at hst
  set st := ((digitsOf 32 m n).map UInt32.ofNat).foldl Base32State.step .init
  obtain ⟨hnbits, hlength, hnumber⟩ := hst
  rw [length_digitsOf] at hnbits hlength
  have hk : st.nbits = 5 * m - 8 * b.length := by omega
  have hwidth : 8 * b.length + (5 * m - 8 * b.length) = 5 * m := by omega
  have hsmall : n < 32 ^ m := by
    have hbytes : natOfBe b < 2 ^ (8 * b.length) := by
      have : natOfBe b < 256 ^ b.length := natOfBe_lt
      rwa [show 256 = 2 ^ 8 from rfl, ← Nat.pow_mul] at this
    have h32 : 32 ^ m = 2 ^ (5 * m) := by rw [Nat.pow_mul]
    calc n = natOfBe b * 2 ^ (5 * m - 8 * b.length) := hn.symm
      _ < 2 ^ (8 * b.length) * 2 ^ (5 * m - 8 * b.length) :=
        Nat.mul_lt_mul_of_pos_right hbytes (Nat.two_pow_pos _)
      _ = 32 ^ m := by rw [← Nat.pow_add, hwidth, h32]
  rw [ofDigits_digitsOf, Nat.mod_eq_of_lt hsmall, ← hn, ← hk] at hnumber
  have hnat : natOfBe b = natOfBe st.out := by
    have hpos := Nat.two_pow_pos st.nbits
    have h : natOfBe b * 2 ^ st.nbits / 2 ^ st.nbits = _ := congrArg (· / 2 ^ st.nbits) hnumber
    rwa [Nat.mul_div_cancel _ hpos, Nat.mul_comm, Nat.mul_add_div hpos,
      Nat.div_eq_of_lt (Nat.mod_lt _ hpos), Nat.add_zero] at h
  rw [natOfBe_inj (by omega) hnat]

/-- A base32 secret decodes to what was encoded, in either case, with or without
padding and with whitespace anywhere; only other characters make it invalid; and
wherever the loop stands, its accumulator has all bits that have not gone into a
byte yet, at most seven before and twelve after the next digit. -/
theorem base32_decode_laws :
    (∀ b e, IsEncoding Str.isWhitespace b e → base32Decode e = some b) ∧
    (∀ s, base32Decode s = none ↔ ∃ c ∈ s, Str.isWhitespace c = false ∧ c ≠ '=' ∧
      ¬(c.isAlpha = true ∨ '2' ≤ c ∧ c ≤ '7')) ∧
    ∀ s ds, base32Values (base32Cleaned s) = some ds →
      base32Decode s = some (ds.foldl Base32State.step .init).out ∧
      ∀ ds', ds' <+: ds → (ds'.foldl Base32State.step .init).nbits + 5 ≤ 12 ∧
        (ds'.foldl Base32State.step .init).Holds (ds'.map UInt32.toNat) := by
  refine ⟨fun b e => base32Decode_encoding, fun s => base32Decode_eq_none, fun s ds hds => ⟨?_, ?_⟩⟩
  · rw [base32Decode_eq, hds, Option.map_some]
  · intro ds' hpre
    have hlt := fun v hv => base32Values_lt hds v (hpre.subset hv)
    have hst := foldl_step_holds hlt init_holds
    refine ⟨?_, hst⟩
    have := hst.nbits
    omega

end

end Immurok
