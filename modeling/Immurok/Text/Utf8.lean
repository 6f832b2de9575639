import Immurok.Text.Str

/-!
# UTF-8

Decoding bytes into text one byte at a time, as `String::from_utf8_lossy`
does: a byte that cannot continue the character begun ends it with U+FFFD and
is read again as the first byte of the next one.
-/

namespace Utf8

/-- A character begun: its bits so far, how many bytes are to come, and the
range the next of them has to be in. -/
structure Partial where
  bits : Nat
  more : Nat
  lo : UInt8
  hi : UInt8
  deriving DecidableEq

inductive Fed
  | char (c : Char)
  | more (p : Partial)
  | bad
  deriving DecidableEq

/-- The first byte of a character. -/
def first (b : UInt8) : Fed :=
  if b < 0x80 then .char (Char.ofNat b.toNat)
  else if 0xC2 ≤ b ∧ b ≤ 0xDF then .more ⟨b.toNat - 0xC0, 1, 0x80, 0xBF⟩
  else if b = 0xE0 then .more ⟨0, 2, 0xA0, 0xBF⟩
  else if b = 0xED then .more ⟨0xD, 2, 0x80, 0x9F⟩
  else if 0xE1 ≤ b ∧ b ≤ 0xEF then .more ⟨b.toNat - 0xE0, 2, 0x80, 0xBF⟩
  else if b = 0xF0 then .more ⟨0, 3, 0x90, 0xBF⟩
  else if 0xF1 ≤ b ∧ b ≤ 0xF3 then .more ⟨b.toNat - 0xF0, 3, 0x80, 0xBF⟩
  else if b = 0xF4 then .more ⟨4, 3, 0x80, 0x8F⟩
  else .bad

/-- A further byte of it. -/
def Partial.feed (p : Partial) (b : UInt8) : Fed :=
  if p.lo ≤ b ∧ b ≤ p.hi then
    if p.more = 1 then .char (Char.ofNat (p.bits * 64 + (b.toNat - 0x80)))
    else .more ⟨p.bits * 64 + (b.toNat - 0x80), p.more - 1, 0x80, 0xBF⟩
  else .bad

def replacement : Char := Char.ofNat 0xFFFD

def emit (rest : Option Partial → Str) : Fed → Str
  | .char c => c :: rest none
  | .more p => rest (some p)
  | .bad => replacement :: rest none

def lossyFrom : Option Partial → Bytes → Str
  | none, [] => []
  | some _, [] => [replacement]
  | none, b :: bs => emit (fun q => lossyFrom q bs) (first b)
  | some p, b :: bs =>
    match p.feed b with
    | .bad => replacement :: emit (fun q => lossyFrom q bs) (first b)
    | fed => emit (fun q => lossyFrom q bs) fed

/-- `String::from_utf8_lossy`. -/
def lossy (bs : Bytes) : Str := lossyFrom none bs

def strictFrom : Option Partial → Bytes → Option Str
  | none, [] => some []
  | some _, [] => none
  | q, b :: bs =>
    match q.elim (first b) (·.feed b) with
    | .char c => (strictFrom none bs).map (c :: ·)
    | .more p => strictFrom (some p) bs
    | .bad => none

/-- `std::str::from_utf8`. -/
def strict (bs : Bytes) : Option Str := strictFrom none bs

/-- The continuation bytes a character may ask for are no ASCII. -/
def Partial.Continues (p : Partial) : Prop := 0x80 ≤ p.lo

theorem Partial.continues_mk {bits more : Nat} {lo hi : UInt8} (h : 0x80 ≤ lo) :
    (Partial.mk bits more lo hi).Continues := h

theorem first_continues {b : UInt8} {p : Partial} (h : first b = .more p) : p.Continues := by
  unfold first at h
  repeat' split at h
  all_goals simp only [Fed.more.injEq, reduceCtorEq] at h
  all_goals
    subst h
    exact Partial.continues_mk (by decide)

theorem feed_continues {p q : Partial} {b : UInt8} (h : p.feed b = .more q) : q.Continues := by
  unfold Partial.feed at h
  repeat' split at h
  all_goals simp only [Fed.more.injEq, reduceCtorEq] at h
  subst h
  exact Partial.continues_mk (by decide)

theorem feed_ascii {p : Partial} {b : UInt8} (hp : p.Continues) (hb : b < 0x80) :
    p.feed b = .bad := by
  have h : ¬(p.lo ≤ b ∧ b ≤ p.hi) := fun h => absurd (UInt8.le_trans hp h.1) (UInt8.not_le.mpr hb)
  simp [Partial.feed, h]

theorem first_ascii {b : UInt8} (hb : b < 0x80) : first b = .char (Char.ofNat b.toNat) := by
  simp [first, hb]

/-- An ASCII byte is a character of its own wherever it stands. -/
theorem lossyFrom_append_ascii {q : Option Partial} {xs ys : Bytes} {b : UInt8}
    (hq : ∀ p, q = some p → p.Continues) (hb : b < 0x80) :
    lossyFrom q (xs ++ b :: ys) = lossyFrom q xs ++ Char.ofNat b.toNat :: lossy ys := by
  induction xs generalizing q with
  | nil =>
    cases q with
    | none => simp [lossyFrom, first_ascii hb, emit, lossy]
    | some p => simp [lossyFrom, feed_ascii (hq p rfl) hb, first_ascii hb, emit, lossy]
  | cons x xs ih =>
    have hfirst : emit (fun q => lossyFrom q (xs ++ b :: ys)) (first x) =
        emit (fun q => lossyFrom q xs) (first x) ++ Char.ofNat b.toNat :: lossy ys := by
      cases hx : first x with
      | char c => simp [emit, ih (q := none) (by simp)]
      | more p =>
        simp only [emit]
        exact ih fun _ h => Option.some.inj h ▸ first_continues hx
      | bad => simp [emit, ih (q := none) (by simp)]
    cases q with
    | none => simpa [lossyFrom] using hfirst
    | some p =>
      simp only [List.cons_append, lossyFrom]
      cases hf : p.feed x with
      | char c => simp [emit, ih (q := none) (by simp)]
      | more p' =>
        simp only [emit]
        exact ih fun _ h => Option.some.inj h ▸ feed_continues hf
      | bad => simp [hfirst]

/-- The value of a character begun is beyond ASCII already. -/
structure Partial.Beyond (p : Partial) : Prop where
  more : 1 ≤ p.more
  value : 0x80 ≤ (p.bits * 64 + (p.lo.toNat - 0x80)) * 64 ^ (p.more - 1)

theorem first_beyond {b : UInt8} {p : Partial} (h : first b = .more p) : p.Beyond := by
  unfold first at h
  simp only [UInt8.le_iff_toNat_le] at h
  repeat' split at h
  all_goals simp only [Fed.more.injEq, reduceCtorEq] at h
  all_goals
    subst h
    refine ⟨by simp, ?_⟩
  -- the ranges that begin at the least byte, by how many bytes follow
  next hb => have := hb.1; simp at this ⊢; omega
  next => decide
  next => decide
  next hb => have := hb.1; simp at this ⊢; omega
  next => decide
  next hb => have := hb.1; simp at this ⊢; omega
  next => decide

/-- What a further byte adds up to. -/
theorem feed_value {p : Partial} {b : UInt8} (hp : p.Beyond) (hb : p.lo ≤ b) :
    0x80 ≤ (p.bits * 64 + (b.toNat - 0x80)) * 64 ^ (p.more - 1) := by
  refine Nat.le_trans hp.value (Nat.mul_le_mul_right _ ?_)
  have := UInt8.le_iff_toNat_le.mp hb
  omega

theorem feed_beyond {p q : Partial} {b : UInt8} (hp : p.Beyond) (h : p.feed b = .more q) :
    q.Beyond := by
  unfold Partial.feed at h
  repeat' split at h
  all_goals simp only [Fed.more.injEq, reduceCtorEq] at h
  next hb hmore =>
    subst h
    have h1 := hp.more
    have hv := feed_value hp hb.1
    obtain ⟨k, hk⟩ : ∃ k, p.more = k + 2 := ⟨p.more - 2, by omega⟩
    rw [hk] at hv ⊢
    refine ⟨Nat.le_add_left 1 k, ?_⟩
    have hlo : (0x80 : UInt8).toNat - 0x80 = 0 := by decide
    have hk' : k + 2 - 1 - 1 = k := by omega
    dsimp only
    rw [hlo, hk', Nat.add_zero]
    calc 0x80 ≤ (p.bits * 64 + (b.toNat - 0x80)) * 64 ^ (k + 1) := hv
      _ = (p.bits * 64 + (b.toNat - 0x80)) * 64 * 64 ^ k := by
        rw [Nat.pow_succ, Nat.mul_comm (64 ^ k), ← Nat.mul_assoc]

theorem feed_char {p : Partial} {b : UInt8} {c : Char} (hp : p.Beyond) (h : p.feed b = .char c) :
    ∃ n, 0x80 ≤ n ∧ c = Char.ofNat n := by
  unfold Partial.feed at h
  repeat' split at h
  all_goals simp only [Fed.char.injEq, reduceCtorEq] at h
  next hb hmore =>
    have hv := feed_value hp hb.1
    exact ⟨_, by simpa [hmore] using hv, h.symm⟩

theorem first_char {b : UInt8} {c : Char} (h : first b = .char c) : c = Char.ofNat b.toNat := by
  unfold first at h
  repeat' split at h
  all_goals simp only [Fed.char.injEq, reduceCtorEq] at h
  exact h.symm

theorem ofNat_eq {n : Nat} {a : Char} (ha : a ≠ '\x00') (h : Char.ofNat n = a) : n = a.toNat := by
  by_cases hv : n.isValidChar
  · rw [Char.ofNat, dif_pos hv] at h
    subst h
    rfl
  · rw [Char.ofNat, dif_neg hv] at h
    exact absurd h.symm ha

/-- An ASCII character is read where its byte stands. -/
theorem ascii_mem_lossyFrom {a : Char} {q : Option Partial} {bs : Bytes} (h0 : a ≠ '\x00')
    (ha : a.toNat < 0x80) (hq : ∀ p, q = some p → p.Beyond) (h : a ∈ lossyFrom q bs) :
    UInt8.ofNat a.toNat ∈ bs := by
  have hbyte : (UInt8.ofNat a.toNat).toNat = a.toNat :=
    UInt8.toNat_ofNat_of_lt' (Nat.lt_trans ha (by decide))
  have hrep : a ≠ replacement := by
    rintro rfl
    exact absurd ha (by decide)
  induction bs generalizing q with
  | nil =>
    cases q with
    | none => simp [lossyFrom] at h
    | some p => exact absurd (List.mem_singleton.mp h) hrep
  | cons b bs ih =>
    have hfirst (h : a ∈ emit (fun q => lossyFrom q bs) (first b)) :
        UInt8.ofNat a.toNat ∈ b :: bs := by
      cases hf : first b with
      | char c =>
        rw [hf] at h
        obtain h | h := List.mem_cons.mp h
        · have hb := ofNat_eq h0 ((first_char hf).symm.trans h.symm)
          have hb' : b = UInt8.ofNat a.toNat := UInt8.toNat_inj.mp (hb.trans hbyte.symm)
          exact hb' ▸ .head _
        · exact .tail _ (ih (by simp) h)
      | more p =>
        rw [hf] at h
        exact .tail _ (ih (fun _ hp => Option.some.inj hp ▸ first_beyond hf) h)
      | bad =>
        rw [hf] at h
        obtain h | h := List.mem_cons.mp h
        · exact absurd h hrep
        · exact .tail _ (ih (by simp) h)
    cases q with
    | none => exact hfirst h
    | some p =>
      simp only [lossyFrom] at h
      cases hf : p.feed b with
      | char c =>
        rw [hf] at h
        obtain h | h := List.mem_cons.mp h
        · obtain ⟨n, hn, hc⟩ := feed_char (hq p rfl) hf
          have := ofNat_eq h0 (hc.symm.trans h.symm)
          omega
        · exact .tail _ (ih (by simp) h)
      | more p' =>
        rw [hf] at h
        exact .tail _ (ih (fun _ hp => Option.some.inj hp ▸ feed_beyond (hq p rfl) hf) h)
      | bad =>
        rw [hf] at h
        obtain h | h := List.mem_cons.mp h
        · exact absurd h hrep
        · exact hfirst h

theorem ascii_mem_lossy {a : Char} {bs : Bytes} (h0 : a ≠ '\x00') (ha : a.toNat < 0x80)
    (h : a ∈ lossy bs) : UInt8.ofNat a.toNat ∈ bs :=
  ascii_mem_lossyFrom h0 ha (by simp) h

theorem newline_mem_lossy {bs : Bytes} (h : '\n' ∈ lossy bs) : (10 : UInt8) ∈ bs :=
  ascii_mem_lossy (by decide) (by decide) h

theorem lossy_append_ascii {xs ys : Bytes} {b : UInt8} (hb : b < 0x80) :
    lossy (xs ++ b :: ys) = lossy xs ++ Char.ofNat b.toNat :: lossy ys :=
  lossyFrom_append_ascii (by simp) hb

theorem length_emit {rest : Option Partial → Str} {f : Fed} {n : Nat}
    (h : ∀ q, (rest q).length ≤ n + q.toList.length) : (emit rest f).length ≤ n + 1 := by
  cases f with
  | char c => exact Nat.succ_le_succ (h none)
  | more p => exact h (some p)
  | bad => exact Nat.succ_le_succ (h none)

/-- No more characters than bytes, and one for a character begun. -/
theorem length_lossyFrom {q : Option Partial} {bs : Bytes} :
    (lossyFrom q bs).length ≤ bs.length + q.toList.length := by
  induction bs generalizing q with
  | nil => cases q <;> simp [lossyFrom]
  | cons b bs ih =>
    have hemit (f : Fed) : (emit (fun q => lossyFrom q bs) f).length ≤ bs.length + 1 :=
      length_emit fun q => ih
    cases q with
    | none => exact hemit (first b)
    | some p =>
      simp only [lossyFrom]
      split
      · exact Nat.succ_le_succ (hemit (first b))
      · exact Nat.le_succ_of_le (hemit _)

theorem length_lossy {bs : Bytes} : (lossy bs).length ≤ bs.length := length_lossyFrom

-- ---------------------------------------------------------------------------
-- Encoding
-- ---------------------------------------------------------------------------

section
variable {a : UInt8} {c : Char} {s : Str} {bs : Bytes}

theorem first_two {k : Nat} (hlo : 2 ≤ k) (hhi : k < 32) :
    first (UInt8.ofNat (k + 0xC0)) = .more ⟨k, 1, 0x80, 0xBF⟩ := by
  have all : ∀ k : Fin 32, 2 ≤ k.val →
      first (UInt8.ofNat (k.val + 0xC0)) = .more ⟨k, 1, 0x80, 0xBF⟩ := by decide
  exact all ⟨k, hhi⟩ hlo

theorem first_three {k : Nat} (hk : k < 16) : first (UInt8.ofNat (k + 0xE0)) =
    .more ⟨k, 2, if k = 0 then 0xA0 else 0x80, if k = 0xD then 0x9F else 0xBF⟩ := by
  have all : ∀ k : Fin 16, first (UInt8.ofNat (k.val + 0xE0)) =
      .more ⟨k, 2, if k.val = 0 then 0xA0 else 0x80, if k.val = 0xD then 0x9F else 0xBF⟩ := by
    decide
  exact all ⟨k, hk⟩

theorem first_four {k : Nat} (hk : k < 5) : first (UInt8.ofNat (k + 0xF0)) =
    .more ⟨k, 3, if k = 0 then 0x90 else 0x80, if k = 4 then 0x8F else 0xBF⟩ := by
  have all : ∀ k : Fin 5, first (UInt8.ofNat (k.val + 0xF0)) =
      .more ⟨k, 3, if k.val = 0 then 0x90 else 0x80, if k.val = 4 then 0x8F else 0xBF⟩ := by decide
  exact all ⟨k, hk⟩

/-- A continuation byte in the range asked for. -/
theorem feed_next {p : Partial} {k : Nat} (hk : k < 64) (hlo : p.lo.toNat ≤ k + 0x80)
    (hhi : k + 0x80 ≤ p.hi.toNat) : p.feed (UInt8.ofNat (k + 0x80)) =
      if p.more = 1 then .char (Char.ofNat (p.bits * 64 + k))
      else .more ⟨p.bits * 64 + k, p.more - 1, 0x80, 0xBF⟩ := by
  have hb : (UInt8.ofNat (k + 0x80)).toNat = k + 0x80 := UInt8.toNat_ofNat_of_lt' (by
    show k + 0x80 < 256
    omega)
  rw [Partial.feed, if_pos ⟨UInt8.le_iff_toNat_le.mpr (by omega),
    UInt8.le_iff_toNat_le.mpr (by omega)⟩, hb, Nat.add_sub_cancel]

/-- The bytes of a character, and what they are read as one after the other. -/
inductive Encodes (c : Char) : Bytes → Prop
  | one {b : UInt8} : first b = .char c → b.toNat = c.toNat → Encodes c [b]
  | two {b b₁ : UInt8} {p : Partial} : first b = .more p → p.feed b₁ = .char c →
    Encodes c [b, b₁]
  | three {b b₁ b₂ : UInt8} {p p₁ : Partial} : first b = .more p → p.feed b₁ = .more p₁ →
    p₁.feed b₂ = .char c → Encodes c [b, b₁, b₂]
  | four {b b₁ b₂ b₃ : UInt8} {p p₁ p₂ : Partial} : first b = .more p → p.feed b₁ = .more p₁ →
    p₁.feed b₂ = .more p₂ → p₂.feed b₃ = .char c → Encodes c [b, b₁, b₂, b₃]

theorem encodes_char (c : Char) : Encodes c (String.utf8EncodeChar c) := by
  have hv : c.val.toNat < 0xD800 ∨ 0xDFFF < c.val.toNat ∧ c.val.toNat < 0x110000 := c.valid
  have hc : Char.ofNat c.val.toNat = c := Char.ofNat_toNat c
  have hone : c.toNat = c.val.toNat := rfl
  unfold String.utf8EncodeChar
  generalize c.val.toNat = v at hv hc hone
  have last {p : Partial} (hm : p.more = 1) (hlo : p.lo.toNat ≤ v % 64 + 0x80)
      (hhi : v % 64 + 0x80 ≤ p.hi.toNat) (hp : p.bits = v / 64) :
      p.feed (UInt8.ofNat (v % 64 + 0x80)) = .char c := by
    rw [feed_next (Nat.mod_lt _ (by decide)) hlo hhi, if_pos hm, hp, Nat.div_add_mod', hc]
  dsimp only
  split
  next h =>
    have hb : (UInt8.ofNat v).toNat = v := UInt8.toNat_ofNat_of_lt' (by show v < 256; omega)
    refine .one ?_ (hb.trans hone.symm)
    rw [first_ascii (UInt8.lt_iff_toNat_lt.mpr (by rw [hb]; exact Nat.lt_succ_of_le h)), hb, hc]
  next h =>
    split
    next h2 =>
      refine .two (first_two (by omega) (Nat.mod_lt _ (by decide))) (last rfl ?_ ?_ ?_)
      · show 0x80 ≤ _
        omega
      · show _ ≤ 0xBF
        omega
      · show v / 64 % 32 = v / 64
        omega
    next h2 =>
      split
      next h3 =>
        have second : Partial.feed ⟨v / 4096 % 16, 2, if v / 4096 % 16 = 0 then 0xA0 else 0x80,
            if v / 4096 % 16 = 0xD then 0x9F else 0xBF⟩ (UInt8.ofNat (v / 64 % 64 + 0x80)) =
              .more ⟨v / 4096 % 16 * 64 + v / 64 % 64, 1, 0x80, 0xBF⟩ := by
          refine (feed_next (Nat.mod_lt _ (by decide)) ?_ ?_).trans rfl
          · dsimp only
            split
            · show 0xA0 ≤ _
              omega
            · show 0x80 ≤ _
              omega
          · dsimp only
            split
            · show _ ≤ 0x9F
              omega
            · show _ ≤ 0xBF
              omega
        refine .three (first_three (Nat.mod_lt _ (by decide))) second (last rfl ?_ ?_ ?_)
        · show 0x80 ≤ _
          omega
        · show _ ≤ 0xBF
          omega
        · show v / 4096 % 16 * 64 + v / 64 % 64 = v / 64
          omega
      next h3 =>
        have second : Partial.feed ⟨v / 262144 % 8, 3, if v / 262144 % 8 = 0 then 0x90 else 0x80,
            if v / 262144 % 8 = 4 then 0x8F else 0xBF⟩ (UInt8.ofNat (v / 4096 % 64 + 0x80)) =
              .more ⟨v / 262144 % 8 * 64 + v / 4096 % 64, 2, 0x80, 0xBF⟩ := by
          refine (feed_next (Nat.mod_lt _ (by decide)) ?_ ?_).trans rfl
          · dsimp only
            split
            · show 0x90 ≤ _
              omega
            · show 0x80 ≤ _
              omega
          · dsimp only
            split
            · show _ ≤ 0x8F
              omega
            · show _ ≤ 0xBF
              omega
        have third : Partial.feed ⟨v / 262144 % 8 * 64 + v / 4096 % 64, 2, 0x80, 0xBF⟩
            (UInt8.ofNat (v / 64 % 64 + 0x80)) =
              .more ⟨(v / 262144 % 8 * 64 + v / 4096 % 64) * 64 + v / 64 % 64, 1, 0x80, 0xBF⟩ := by
          refine (feed_next (Nat.mod_lt _ (by decide)) ?_ ?_).trans rfl
          · show 0x80 ≤ _
            omega
          · show _ ≤ 0xBF
            omega
        refine .four (first_four (by omega)) second third (last rfl ?_ ?_ ?_)
        · show 0x80 ≤ _
          omega
        · show _ ≤ 0xBF
          omega
        · show (v / 262144 % 8 * 64 + v / 4096 % 64) * 64 + v / 64 % 64 = v / 64
          omega

theorem lossyFrom_char : lossyFrom none (String.utf8EncodeChar c ++ bs) = c :: lossy bs := by
  have h := encodes_char c
  generalize String.utf8EncodeChar c = xs at h
  cases h with
  | one h => simp [lossyFrom, h, emit, lossy]
  | two h h1 => simp [lossyFrom, h, h1, emit, lossy]
  | three h h1 h2 => simp [lossyFrom, h, h1, h2, emit, lossy]
  | four h h1 h2 h3 => simp [lossyFrom, h, h1, h2, h3, emit, lossy]

/-- A text is read in two at an ASCII byte. -/
theorem strictFrom_append_ascii {q : Option Partial} {xs ys : Bytes} {b : UInt8}
    (hq : ∀ p, q = some p → p.Continues) (hb : b < 0x80) :
    strictFrom q (xs ++ b :: ys) =
      (strictFrom q (xs ++ [b])).bind fun s => (strict ys).map (s ++ ·) := by
  induction xs generalizing q with
  | nil =>
    cases q with
    | none => simp [strictFrom, first_ascii hb, strict]
    | some p => simp [strictFrom, feed_ascii (hq p rfl) hb]
  | cons x xs ih =>
    cases hx : q.elim (first x) (·.feed x) with
    | char c =>
      simp only [List.cons_append, strictFrom, hx, ih (q := none) (fun _ h => nomatch h)]
      cases strictFrom none (xs ++ [b]) with
      | none => rfl
      | some t => simp [Function.comp_def]
    | more p =>
      have hp : p.Continues := by
        cases q with
        | none => exact first_continues hx
        | some p' => exact feed_continues hx
      simp only [List.cons_append, strictFrom, hx]
      exact ih fun _ h => Option.some.inj h ▸ hp
    | bad => simp only [List.cons_append, strictFrom, hx, Option.bind_none]

theorem strictFrom_char :
    strictFrom none (String.utf8EncodeChar c ++ bs) = (strict bs).map (c :: ·) := by
  have h := encodes_char c
  generalize String.utf8EncodeChar c = xs at h
  cases h with
  | one h => simp [strictFrom, h, strict]
  | two h h1 => simp [strictFrom, h, h1, strict]
  | three h h1 h2 => simp [strictFrom, h, h1, h2, strict]
  | four h h1 h2 h3 => simp [strictFrom, h, h1, h2, h3, strict]

theorem lossy_encode_append :
    lossy (s.flatMap String.utf8EncodeChar ++ bs) = s ++ lossy bs := by
  induction s with
  | nil => rfl
  | cons c s ih =>
    rw [List.flatMap_cons, List.append_assoc, lossy, lossyFrom_char, ih, List.cons_append]

/-- Text is read back from its bytes. -/
theorem lossy_encode {s : Str} : lossy (s.flatMap String.utf8EncodeChar) = s := by
  have h := @lossy_encode_append s []
  rwa [List.append_nil, show lossy [] = [] from rfl, List.append_nil] at h

/-- A character that is cut off is replaced. -/
theorem lossy_take_char {k : Nat} (hpos : 0 < k) (hlt : k < (String.utf8EncodeChar c).length) :
    lossy ((String.utf8EncodeChar c).take k) = [replacement] := by
  have h := encodes_char c
  generalize String.utf8EncodeChar c = xs at h hlt
  cases h with
  | one h => exact absurd hlt (Nat.not_lt.mpr hpos)
  | two h h1 =>
    obtain rfl : k = 1 := Nat.le_antisymm (Nat.le_of_lt_succ hlt) hpos
    simp [lossy, lossyFrom, h, emit]
  | three h h1 h2 =>
    obtain rfl | rfl : k = 1 ∨ k = 2 := by
      simp only [List.length_cons, List.length_nil] at hlt
      omega
    · simp [lossy, lossyFrom, h, emit]
    · simp [lossy, lossyFrom, h, h1, emit]
  | four h h1 h2 h3 =>
    obtain rfl | rfl | rfl : k = 1 ∨ k = 2 ∨ k = 3 := by
      simp only [List.length_cons, List.length_nil] at hlt
      omega
    · simp [lossy, lossyFrom, h, emit]
    · simp [lossy, lossyFrom, h, h1, emit]
    · simp [lossy, lossyFrom, h, h1, h2, emit]

/-- Text that does not fit into `n` bytes is cut at one of its characters. -/
theorem take_encode (n : Nat) (hn : n < (s.flatMap String.utf8EncodeChar).length) :
    ∃ a c b k, s = a ++ c :: b ∧ n = (a.flatMap String.utf8EncodeChar).length + k ∧
      k < (String.utf8EncodeChar c).length ∧ (s.flatMap String.utf8EncodeChar).take n =
        a.flatMap String.utf8EncodeChar ++ (String.utf8EncodeChar c).take k := by
  induction s generalizing n with
  | nil => exact absurd hn (Nat.not_lt_zero n)
  | cons c s ih =>
    rw [List.flatMap_cons, List.length_append] at hn
    by_cases hc : n < (String.utf8EncodeChar c).length
    · refine ⟨[], c, s, n, rfl, by simp, hc, ?_⟩
      rw [List.flatMap_cons, List.take_append_of_le_length (Nat.le_of_lt hc)]
      rfl
    · obtain ⟨m, rfl⟩ := Nat.exists_eq_add_of_le (Nat.not_lt.mp hc)
      obtain ⟨a, d, b, k, rfl, rfl, hk, htake⟩ := ih m (Nat.lt_of_add_lt_add_left hn)
      refine ⟨c :: a, d, b, k, rfl, ?_, hk, ?_⟩
      · rw [List.flatMap_cons, List.length_append, Nat.add_assoc]
      · rw [List.flatMap_cons, List.take_length_add_append, htake, List.flatMap_cons,
          List.append_assoc]

theorem length_encode_replacement : (String.utf8EncodeChar replacement).length = 3 := by decide

/-- Text in a buffer of `n` bytes: it fits, or what is cut of it stands for a
cut anyway. -/
theorem lossy_take_encode {n : Nat} (h : (s.flatMap String.utf8EncodeChar).length ≤ n ∨
    s.getLast? = some replacement ∧ (s.flatMap String.utf8EncodeChar).length ≤ n + 2) :
    lossy ((s.flatMap String.utf8EncodeChar).take n) = s := by
  by_cases hfit : (s.flatMap String.utf8EncodeChar).length ≤ n
  · rw [List.take_of_length_le hfit, lossy_encode]
  · obtain ⟨hlast, hlen⟩ := h.resolve_left hfit
    obtain ⟨a, rfl⟩ := List.getLast?_eq_some_iff.mp hlast
    have h3 := length_encode_replacement
    rw [List.flatMap_append, List.flatMap_singleton, List.length_append, h3] at hlen hfit
    rw [List.flatMap_append, List.flatMap_singleton, List.take_append,
      List.take_of_length_le (by omega), lossy_encode_append, lossy_take_char (by omega) (by omega)]

theorem of_prefix_lossy_take {n : Nat}
    (h : s <+: lossy ((s.flatMap String.utf8EncodeChar).take n)) :
    (s.flatMap String.utf8EncodeChar).length ≤ n ∨
      s.getLast? = some replacement ∧ (s.flatMap String.utf8EncodeChar).length ≤ n + 2 := by
  refine Classical.or_iff_not_imp_left.mpr fun hfit => ?_
  obtain ⟨a, c, b, k, rfl, hn, hk, htake⟩ := take_encode n (Nat.lt_of_not_le hfit)
  rw [htake, lossy_encode_append, List.prefix_append_right_inj] at h
  obtain rfl | hpos := Nat.eq_zero_or_pos k
  · exact absurd h.length_le (by simp [lossy, lossyFrom])
  · rw [lossy_take_char hpos hk] at h
    obtain ⟨d, hd⟩ := h
    obtain ⟨rfl, hnil⟩ := List.cons.inj hd
    obtain rfl := (List.append_eq_nil_iff.mp hnil).1
    refine ⟨by simp, ?_⟩
    have h3 := length_encode_replacement
    rw [List.flatMap_append, List.flatMap_singleton, List.length_append, h3]
    omega

theorem strict_encode {s : Str} : strict (s.flatMap String.utf8EncodeChar) = some s := by
  induction s with
  | nil => rfl
  | cons c s ih => rw [List.flatMap_cons, strict, strictFrom_char, ih, Option.map_some]

/-- An ASCII byte stands for itself. -/
theorem ascii_mem_char (ha : a < 0x80) (h : a ∈ String.utf8EncodeChar c) :
    String.utf8EncodeChar c = [a] ∧ c.toNat = a.toNat := by
  have hf {p : Partial} {b : UInt8} (hb : first b = .more p) : a ≠ b := by
    rintro rfl
    rw [first_ascii ha] at hb
    cases hb
  have hn {p : Partial} {b : UInt8} {f : Fed} (hp : p.Continues) (hb : p.feed b = f)
      (hne : f ≠ .bad) : a ≠ b := by
    rintro rfl
    exact hne (hb.symm.trans (feed_ascii hp ha))
  have he := encodes_char c
  generalize String.utf8EncodeChar c = xs at h he
  cases he with
  | one _ hc =>
    obtain rfl := List.mem_singleton.mp h
    exact ⟨rfl, hc.symm⟩
  | two h0 h1 =>
    simp only [List.mem_cons, List.not_mem_nil, or_false, hf h0,
      hn (first_continues h0) h1 (by simp)] at h
  | three h0 h1 h2 =>
    simp only [List.mem_cons, List.not_mem_nil, or_false, hf h0,
      hn (first_continues h0) h1 (by simp), hn (feed_continues h1) h2 (by simp)] at h
  | four h0 h1 h2 h3 =>
    simp only [List.mem_cons, List.not_mem_nil, or_false, hf h0,
      hn (first_continues h0) h1 (by simp), hn (feed_continues h1) h2 (by simp),
      hn (feed_continues h2) h3 (by simp)] at h

theorem ascii_mem_encode (ha : a < 0x80) (h : a ∈ s.flatMap String.utf8EncodeChar) :
    Char.ofNat a.toNat ∈ s := by
  obtain ⟨c, hc, hm⟩ := List.mem_flatMap.mp h
  rw [← (ascii_mem_char ha hm).2, Char.ofNat_toNat]
  exact hc

theorem char_ascii (h : c.toNat < 0x80) : String.utf8EncodeChar c = [UInt8.ofNat c.toNat] :=
  if_pos (Nat.le_of_lt_succ h)

/-- Bytes up to an ASCII byte are the text up to its character. -/
theorem takeWhile_encode (hc : c.toNat < 0x80) :
    (s.flatMap String.utf8EncodeChar ++ UInt8.ofNat c.toNat :: bs).takeWhile
        (· ≠ UInt8.ofNat c.toNat) =
      (s.takeWhile (· ≠ c)).flatMap String.utf8EncodeChar := by
  have hb : (UInt8.ofNat c.toNat).toNat = c.toNat :=
    UInt8.toNat_ofNat_of_lt' (Nat.lt_trans hc (by decide))
  induction s with
  | nil => simp
  | cons d s ih =>
    rw [List.flatMap_cons, List.append_assoc]
    by_cases hd : d = c
    · rw [hd, char_ascii hc]
      simp
    · have hne : ∀ b ∈ String.utf8EncodeChar d, decide (b ≠ UInt8.ofNat c.toNat) = true := by
        intro b hm
        refine decide_eq_true ?_
        rintro rfl
        have := (ascii_mem_char (UInt8.lt_iff_toNat_lt.mpr (hb.symm ▸ hc)) hm).2
        exact hd (by rw [← Char.ofNat_toNat d, this, hb, Char.ofNat_toNat])
      rw [List.takeWhile_append_of_pos hne, ih, List.takeWhile_cons_of_pos (by simpa using hd),
        List.flatMap_cons]

-- ---------------------------------------------------------------------------
-- What is accepted
-- ---------------------------------------------------------------------------

variable {b : UInt8} {xs : Bytes} {p q : Partial}

/-- The bytes of a character begun. -/
inductive Begun : Partial → Bytes → Prop
  | two {b : UInt8} {k : Nat} (h : b.toNat = k + 0xC0) (hlo : 2 ≤ k) (hhi : k < 32) :
    Begun ⟨k, 1, 0x80, 0xBF⟩ [b]
  | three {b : UInt8} {k : Nat} (h : b.toNat = k + 0xE0) (hhi : k < 16) :
    Begun ⟨k, 2, if k = 0 then 0xA0 else 0x80, if k = 0xD then 0x9F else 0xBF⟩ [b]
  | four {b : UInt8} {k : Nat} (h : b.toNat = k + 0xF0) (hhi : k < 5) :
    Begun ⟨k, 3, if k = 0 then 0x90 else 0x80, if k = 4 then 0x8F else 0xBF⟩ [b]
  | threeTwo {b b₁ : UInt8} {n : Nat} (h : b.toNat = n / 64 + 0xE0)
    (h₁ : b₁.toNat = n % 64 + 0x80) (hlo : 32 ≤ n) (hhi : n < 0x360 ∨ 0x37F < n ∧ n < 1024) :
    Begun ⟨n, 1, 0x80, 0xBF⟩ [b, b₁]
  | fourTwo {b b₁ : UInt8} {n : Nat} (h : b.toNat = n / 64 + 0xF0)
    (h₁ : b₁.toNat = n % 64 + 0x80) (hlo : 16 ≤ n) (hhi : n < 272) :
    Begun ⟨n, 2, 0x80, 0xBF⟩ [b, b₁]
  | fourThree {b b₁ b₂ : UInt8} {n : Nat} (h : b.toNat = n / 4096 + 0xF0)
    (h₁ : b₁.toNat = n / 64 % 64 + 0x80) (h₂ : b₂.toNat = n % 64 + 0x80) (hlo : 1024 ≤ n)
    (hhi : n < 17408) : Begun ⟨n, 1, 0x80, 0xBF⟩ [b, b₁, b₂]

theorem first_begun (h : first b = .more p) : Begun p [b] := by
  unfold first at h
  simp only [UInt8.le_iff_toNat_le, ← UInt8.toNat_inj, UInt8.reduceToNat] at h
  repeat' split at h
  all_goals simp only [Fed.more.injEq, reduceCtorEq] at h
  all_goals subst h
  next hb => exact .two (by omega) (by omega) (by omega)
  next hb => exact .three (show _ = 0 + 0xE0 from hb) (by decide)
  next hb => exact .three (show _ = 0xD + 0xE0 from hb) (by decide)
  next hn hd hb =>
    have hp : Begun _ [b] := .three (show _ = (b.toNat - 0xE0) + 0xE0 by omega) (by omega)
    rwa [if_neg (by omega), if_neg (by omega)] at hp
  next hb => exact .four (show _ = 0 + 0xF0 from hb) (by decide)
  next hb =>
    have hp : Begun _ [b] := .four (show _ = (b.toNat - 0xF0) + 0xF0 by omega) (by omega)
    rwa [if_neg (by omega), if_neg (by omega)] at hp
  next hb => exact .four (show _ = 4 + 0xF0 from hb) (by decide)

theorem feed_begun (hp : Begun p xs) (h : p.feed b = .more q) : Begun q (xs ++ [b]) := by
  unfold Partial.feed at h
  repeat' split at h
  all_goals simp only [Fed.more.injEq, reduceCtorEq] at h
  subst h
  next hr hm =>
  rw [UInt8.le_iff_toNat_le, UInt8.le_iff_toNat_le] at hr
  cases hp with
  | two | threeTwo | fourThree => exact absurd rfl hm
  | @three b' k h hhi =>
    dsimp only at hr ⊢
    split_ifs at hr <;> simp only [UInt8.reduceToNat] at hr <;>
      exact .threeTwo (by omega) (by omega) (by omega) (by omega)
  | @four b' k h hhi =>
    dsimp only at hr ⊢
    split_ifs at hr <;> simp only [UInt8.reduceToNat] at hr <;>
      exact .fourTwo (by omega) (by omega) (by omega) (by omega)
  | @fourTwo b' b₁ n h h₁ hlo hhi =>
    simp only [UInt8.reduceToNat] at hr ⊢
    exact .fourThree (by omega) (by omega) (by omega) (by omega) (by omega)

theorem toNat_ofNat {n : Nat} (h : n < 0xD800 ∨ 0xDFFF < n ∧ n < 0x110000) :
    (Char.ofNat n).val.toNat = n := by
  have hv : n.isValidChar := h
  rw [Char.ofNat, dif_pos hv]
  rfl

theorem first_encodes (h : first b = .char c) : String.utf8EncodeChar c = [b] := by
  unfold first at h
  repeat' split at h
  all_goals simp only [Fed.char.injEq, reduceCtorEq] at h
  subst h
  next hb =>
  have hlt : b.toNat < 0x80 := hb
  have hv := toNat_ofNat (n := b.toNat) (by omega)
  rw [String.utf8EncodeChar, hv, if_pos (by omega)]
  simp

theorem feed_encodes (hp : Begun p xs) (h : p.feed b = .char c) :
    String.utf8EncodeChar c = xs ++ [b] := by
  unfold Partial.feed at h
  repeat' split at h
  all_goals simp only [Fed.char.injEq, reduceCtorEq] at h
  subst h
  next hr hm =>
  rw [UInt8.le_iff_toNat_le, UInt8.le_iff_toNat_le] at hr
  have byte {x : UInt8} {m : Nat} (h : m = x.toNat) : UInt8.ofNat m = x := by
    rw [h]; simp
  cases hp with
  | three | four | fourTwo => cases hm
  | @two b' k h hlo hhi =>
    simp only [UInt8.reduceToNat] at hr
    have hv := toNat_ofNat (n := k * 64 + (b.toNat - 0x80)) (by omega)
    simp only [String.utf8EncodeChar, hv]
    rw [if_neg (by omega), if_pos (by omega)]
    rw [byte (x := b') (by omega), byte (x := b) (by omega)]
    rfl
  | @threeTwo b' b₁ n h h₁ hlo hhi =>
    simp only [UInt8.reduceToNat] at hr
    have hv := toNat_ofNat (n := n * 64 + (b.toNat - 0x80)) (by omega)
    simp only [String.utf8EncodeChar, hv]
    rw [if_neg (by omega), if_neg (by omega), if_pos (by omega)]
    rw [byte (x := b') (by omega), byte (x := b₁) (by omega), byte (x := b) (by omega)]
    rfl
  | @fourThree b' b₁ b₂ n h h₁ h₂ hlo hhi =>
    simp only [UInt8.reduceToNat] at hr
    have hv := toNat_ofNat (n := n * 64 + (b.toNat - 0x80)) (by omega)
    simp only [String.utf8EncodeChar, hv]
    rw [if_neg (by omega), if_neg (by omega), if_neg (by omega)]
    rw [byte (x := b') (by omega), byte (x := b₁) (by omega), byte (x := b₂) (by omega),
      byte (x := b) (by omega)]
    rfl

/-- The bytes that are held back of a character begun. -/
def Held : Option Partial → Bytes → Prop
  | none, xs => xs = []
  | some p, xs => Begun p xs

theorem strictFrom_eq_some {q : Option Partial} (hq : Held q xs) (h : strictFrom q bs = some s) :
    xs ++ bs = s.flatMap String.utf8EncodeChar := by
  induction bs generalizing q xs s with
  | nil =>
    cases q with
    | none =>
      obtain rfl : xs = [] := hq
      cases h
      rfl
    | some p => cases h
  | cons b bs ih =>
    have hb : strictFrom q (b :: bs) = match q.elim (first b) (·.feed b) with
      | .char c => (strictFrom none bs).map (c :: ·)
      | .more p => strictFrom (some p) bs
      | .bad => none := by cases q <;> rfl
    rw [hb] at h
    rw [List.append_cons]
    split at h
    next c hf =>
      obtain ⟨s, hs, rfl⟩ := Option.map_eq_some_iff.mp h
      have hc : String.utf8EncodeChar c = xs ++ [b] := by
        cases q with
        | none =>
          obtain rfl : xs = [] := hq
          exact first_encodes hf
        | some p => exact feed_encodes hq hf
      have ihs : [] ++ bs = s.flatMap String.utf8EncodeChar := @ih s [] none rfl hs
      rw [List.flatMap_cons, hc, ← ihs, List.nil_append]
    next p hf =>
      refine @ih s (xs ++ [b]) (some p) ?_ h
      cases q with
      | none =>
        obtain rfl : xs = [] := hq
        exact first_begun hf
      | some p => exact feed_begun hq hf
    · cases h

/-- Only what text is encoded as is read as it. -/
theorem strict_eq_some : strict bs = some s ↔ bs = s.flatMap String.utf8EncodeChar :=
  ⟨@strictFrom_eq_some s bs [] none rfl, fun h => h ▸ strict_encode⟩

end

end Utf8
