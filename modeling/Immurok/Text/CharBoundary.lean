import Immurok.Text.Utf8

/-!
# Character boundaries

Where the encoding of a text may be cut, as it is seen from its bytes alone: between
two characters.
-/

namespace Utf8

/-- The byte goes on with a character. -/
def continues (b : UInt8) : Bool := 0x80 ≤ b && b < 0xC0

def isCharBoundary (bs : Bytes) (i : Nat) : Bool :=
  if i = 0 then true
  else
    match bs[i]? with
    | some b => !continues b
    | none => i == bs.length

/-- The last boundary that is not behind `cut`. -/
def floorCharBoundary (bs : Bytes) : Nat → Nat
  | 0 => 0
  | cut + 1 => if isCharBoundary bs (cut + 1) then cut + 1 else floorCharBoundary bs cut

section
variable {a c : Char} {b : UInt8} {bs : Bytes} {s p q : Str} {i k n : Nat}

-- ---------------------------------------------------------------------------
-- One character
-- ---------------------------------------------------------------------------

theorem continues_ofNat (h : k < 64) : continues (UInt8.ofNat (k + 0x80)) = true := by
  have all : ∀ k : Fin 64, continues (UInt8.ofNat (k.val + 0x80)) = true := by decide
  exact all ⟨k, h⟩

/-- Only the first byte of a character does not go on with one. -/
theorem utf8EncodeChar_eq (c : Char) : ∃ b bs, String.utf8EncodeChar c = b :: bs ∧
    continues b = false ∧ ∀ x ∈ bs, continues x = true := by
  have hmod {v : Nat} : continues (UInt8.ofNat (v % 64 + 0x80)) = true :=
    continues_ofNat (Nat.mod_lt _ (by decide))
  have hone : ∀ k : Fin 128, continues (UInt8.ofNat k.val) = false := by decide
  have htwo : ∀ k : Fin 32, continues (UInt8.ofNat (k.val + 0xC0)) = false := by decide
  have hthree : ∀ k : Fin 16, continues (UInt8.ofNat (k.val + 0xE0)) = false := by decide
  have hfour : ∀ k : Fin 8, continues (UInt8.ofNat (k.val + 0xF0)) = false := by decide
  unfold String.utf8EncodeChar
  generalize c.val.toNat = v
  dsimp only
  split
  next h => exact ⟨_, _, rfl, hone ⟨v, Nat.lt_succ_of_le h⟩, fun _ hx => nomatch hx⟩
  next =>
    split
    next => exact ⟨_, _, rfl, htwo ⟨v / 64 % 32, Nat.mod_lt _ (by decide)⟩,
        List.forall_mem_singleton.mpr hmod⟩
    next =>
      split
      next => exact ⟨_, _, rfl, hthree ⟨v / 4096 % 16, Nat.mod_lt _ (by decide)⟩,
          List.forall_mem_cons.mpr ⟨hmod, List.forall_mem_singleton.mpr hmod⟩⟩
      next => exact ⟨_, _, rfl, hfour ⟨v / 262144 % 8, Nat.mod_lt _ (by decide)⟩,
          List.forall_mem_cons.mpr
            ⟨hmod, List.forall_mem_cons.mpr ⟨hmod, List.forall_mem_singleton.mpr hmod⟩⟩⟩

theorem continues_getElem (h : (String.utf8EncodeChar c)[k]? = some b) :
    continues b = decide (0 < k) := by
  obtain ⟨b₀, bs, heq, hfirst, hrest⟩ := utf8EncodeChar_eq c
  rw [heq] at h
  cases k with
  | zero =>
    obtain rfl := Option.some.inj h
    exact hfirst
  | succ k => exact hrest b (List.mem_of_getElem? h)

-- ---------------------------------------------------------------------------
-- A text
-- ---------------------------------------------------------------------------

theorem isCharBoundary_encode :
    isCharBoundary (s.flatMap String.utf8EncodeChar) i = true ↔
      ∃ p, p <+: s ∧ (p.flatMap String.utf8EncodeChar).length = i := by
  constructor
  · intro h
    by_cases hi : i < (s.flatMap String.utf8EncodeChar).length
    · obtain ⟨p, c, t, k, rfl, rfl, hk, -⟩ := take_encode i hi
      refine ⟨p, List.prefix_append _ _, ?_⟩
      obtain ⟨b, hb⟩ : ∃ b, (String.utf8EncodeChar c)[k]? = some b :=
        ⟨_, List.getElem?_eq_getElem hk⟩
      have hat : ((p ++ c :: t).flatMap String.utf8EncodeChar)[
          (p.flatMap String.utf8EncodeChar).length + k]? = some b := by
        rw [List.flatMap_append, List.flatMap_cons, List.getElem?_append_right (Nat.le_add_right _ _),
          Nat.add_sub_cancel_left, List.getElem?_append_left hk, hb]
      unfold isCharBoundary at h
      split at h
      next hzero => exact (Nat.eq_zero_of_add_eq_zero_right hzero).trans hzero.symm
      next =>
        rw [hat] at h
        dsimp only at h
        rw [continues_getElem hb] at h
        have hk : k = 0 := by simpa using h
        rw [hk, Nat.add_zero]
    · refine ⟨s, List.prefix_rfl, ?_⟩
      unfold isCharBoundary at h
      split at h
      next hzero => omega
      next =>
        rw [List.getElem?_eq_none (Nat.le_of_not_lt hi)] at h
        exact (beq_iff_eq.mp h).symm
  · rintro ⟨p, ⟨t, rfl⟩, rfl⟩
    unfold isCharBoundary
    split
    next => rfl
    next =>
      rw [List.flatMap_append, List.getElem?_append_right (Nat.le_refl _), Nat.sub_self]
      cases t with
      | nil => simp
      | cons c t =>
        obtain ⟨b, bs, heq, hfirst, -⟩ := utf8EncodeChar_eq c
        rw [List.flatMap_cons, heq]
        simp [hfirst]

/-- Of two beginnings of a text the one with fewer bytes begins the other. -/
theorem prefix_of_length_encode (hp : p <+: s) (hq : q <+: s)
    (h : (p.flatMap String.utf8EncodeChar).length ≤ (q.flatMap String.utf8EncodeChar).length) :
    p <+: q := by
  obtain hpq | ⟨r, rfl⟩ := List.prefix_or_prefix_of_prefix hp hq
  · exact hpq
  · rw [List.flatMap_append, List.length_append] at h
    cases r with
    | nil => exact ⟨[], by rw [List.append_nil, List.append_nil]⟩
    | cons c r =>
      have := c.utf8Size_pos
      rw [List.flatMap_cons, List.length_append, String.length_utf8EncodeChar] at h
      omega

-- ---------------------------------------------------------------------------
-- Looking for a text
-- ---------------------------------------------------------------------------

theorem toNat_ascii (h : a.toNat < 0x80) : (UInt8.ofNat a.toNat).toNat = a.toNat :=
  UInt8.toNat_ofNat_of_lt' (Nat.lt_trans h (by decide))

/-- An ASCII character whose byte is one of a character is that character. -/
theorem eq_of_ascii_mem (ha : a.toNat < 0x80)
    (h : UInt8.ofNat a.toNat ∈ String.utf8EncodeChar c) : c = a := by
  have hlt : UInt8.ofNat a.toNat < 0x80 := by
    rw [UInt8.lt_iff_toNat_lt, toNat_ascii ha]
    exact ha
  refine Char.toNat_inj.mp ?_
  rw [(ascii_mem_char hlt h).2, toNat_ascii ha]

/-- Where the bytes of an ASCII text begin, the text begins. -/
theorem prefix_of_encode (hp : ∀ a ∈ p, a.toNat < 0x80)
    (h : p.flatMap String.utf8EncodeChar <+: s.flatMap String.utf8EncodeChar) : p <+: s := by
  induction p generalizing s with
  | nil => exact List.nil_prefix
  | cons a p ih =>
    obtain ⟨ha, hps⟩ := List.forall_mem_cons.mp hp
    rw [List.flatMap_cons, char_ascii ha, List.singleton_append] at h
    cases s with
    | nil => exact absurd (List.prefix_nil.mp h) (List.cons_ne_nil _ _)
    | cons c s =>
      obtain ⟨b, cs, hc, -⟩ := utf8EncodeChar_eq c
      rw [List.flatMap_cons, hc, List.cons_append, List.cons_prefix_cons] at h
      obtain ⟨rfl, h⟩ := h
      obtain rfl := eq_of_ascii_mem ha (hc ▸ List.mem_cons_self)
      obtain ⟨-, rfl⟩ := List.cons.inj (hc.symm.trans (char_ascii ha))
      rw [List.cons_prefix_cons]
      exact ⟨rfl, ih hps h⟩

/-- What does not begin in the first part is in the second. -/
theorem infix_of_append {α : Type} {x : α} {xs ys zs : List α} (hx : x ∉ ys)
    (h : x :: xs <:+: ys ++ zs) : x :: xs <:+: zs := by
  induction ys with
  | nil => exact h
  | cons y ys ih =>
    obtain h | h := List.infix_cons_iff.mp h
    · exact absurd (List.cons_prefix_cons.mp h).1 (List.ne_of_not_mem_cons hx)
    · exact ih (List.not_mem_of_not_mem_cons hx) h

/-- Where the bytes of an ASCII text are, the text is. -/
theorem infix_of_encode (hp : ∀ a ∈ p, a.toNat < 0x80) (hne : p ≠ [])
    (h : p.flatMap String.utf8EncodeChar <:+: s.flatMap String.utf8EncodeChar) : p <:+: s := by
  obtain ⟨a, q, rfl⟩ := List.exists_cons_of_ne_nil hne
  have ha := hp a List.mem_cons_self
  have hcons : (a :: q).flatMap String.utf8EncodeChar =
      UInt8.ofNat a.toNat :: q.flatMap String.utf8EncodeChar := by
    rw [List.flatMap_cons, char_ascii ha, List.singleton_append]
  induction s with
  | nil => exact absurd (hcons ▸ List.infix_nil.mp h) (List.cons_ne_nil _ _)
  | cons c s ih =>
    by_cases hmem : UInt8.ofNat a.toNat ∈ String.utf8EncodeChar c
    · obtain rfl := eq_of_ascii_mem ha hmem
      have hfirst : (c :: s).flatMap String.utf8EncodeChar =
          UInt8.ofNat c.toNat :: s.flatMap String.utf8EncodeChar := by
        rw [List.flatMap_cons, char_ascii ha, List.singleton_append]
      rw [hfirst] at h
      obtain hpre | hin := List.infix_cons_iff.mp h
      · rw [← hfirst] at hpre
        exact (prefix_of_encode hp hpre).isInfix
      · exact List.infix_cons (ih hin)
    · rw [hcons, List.flatMap_cons] at h
      have hin := infix_of_append hmem h
      rw [← hcons] at hin
      exact List.infix_cons (ih hin)

-- ---------------------------------------------------------------------------
-- Looking for a boundary
-- ---------------------------------------------------------------------------

theorem floorCharBoundary_le : floorCharBoundary bs n ≤ n := by
  induction n with
  | zero => exact Nat.le_refl 0
  | succ n ih =>
    rw [floorCharBoundary]
    split
    · exact Nat.le_refl _
    · exact Nat.le_succ_of_le ih

theorem isCharBoundary_floor : isCharBoundary bs (floorCharBoundary bs n) = true := by
  induction n with
  | zero => rfl
  | succ n ih =>
    rw [floorCharBoundary]
    split
    next h => exact h
    next => exact ih

/-- No boundary up to `n` is behind the one that is found. -/
theorem le_floorCharBoundary (hi : i ≤ n) (h : isCharBoundary bs i = true) :
    i ≤ floorCharBoundary bs n := by
  induction n with
  | zero => exact hi
  | succ n ih =>
    rw [floorCharBoundary]
    split
    next => exact hi
    next hnot =>
      refine ih (Nat.le_of_lt_succ (Nat.lt_of_le_of_ne hi ?_))
      rintro rfl
      exact hnot h

end

end Utf8
