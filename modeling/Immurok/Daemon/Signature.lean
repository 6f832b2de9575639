import Immurok.Daemon.SshAgent
import Immurok.Text.SshWire

/-!
# The signature in a sign response

What a reader of the wire format finds in the response to a sign request: two
mpints, which are canonical where the scalars of the device are not short.
-/

namespace Immurok

open SshWire

variable {bs rest signature s : Bytes}

/-- The algorithm and the two mpints of a response, read to its last byte. -/
def decodeSignResponse : Bytes → Option (Bytes × Bytes × Bytes)
  | [] => none
  | kind :: body => do
    let (blob, end₁) ← string? body
    let (algorithm, rest) ← string? blob
    let (numbers, end₂) ← string? rest
    let (r, rest) ← string? numbers
    let (s, end₃) ← string? rest
    if kind = sshAgentSignResponse ∧ end₁ = [] ∧ end₂ = [] ∧ end₃ = [] then some (algorithm, r, s)
    else none

/-- The response decodes to the device's two little-endian scalars, as canonical
mpints. -/
def SignedCanonically (signature : Bytes) : Prop :=
  ∃ r s, decodeSignResponse (signResponse signature) =
      some (ascii "ecdsa-sha2-nistp256", r, s) ∧
    IsMpint r (natOfLe (signature.take 32)) ∧ IsMpint s (natOfLe (signature.drop 32))

-- ---------------------------------------------------------------------------
-- What is written
-- ---------------------------------------------------------------------------

theorem natOfBe_u32Be {n : Nat} (h : n < 2 ^ 32) : natOfBe (u32Be n) = n := by
  simp only [u32Be, natOfBe, UInt8.toNat_ofNat', List.length_cons, List.length_nil]
  omega

theorem string?_sshString (h : s.length < 2 ^ 32) :
    string? (sshString s ++ rest) = some (s, rest) := by
  rw [sshString, List.append_assoc]
  exact string?_append length_u32Be (natOfBe_u32Be h)

theorem string?_last (h : s.length < 2 ^ 32) : string? (sshString s) = some (s, []) := by
  have hread := @string?_sshString [] s h
  rwa [List.append_nil] at hread

theorem signBit {b : UInt8} : b &&& 0x80 ≠ 0 ↔ 0x80 ≤ b := by
  have all : ∀ n : Fin 256, UInt8.ofNat n &&& 0x80 ≠ 0 ↔ 0x80 ≤ UInt8.ofNat n := by decide +kernel
  have := all ⟨b.toNat, b.toNat_lt⟩
  rwa [UInt8.ofNat_toNat] at this

theorem sshMpint_eq : sshMpint bs = sshString (signed bs) := by
  cases bs with
  | nil => rfl
  | cons b bs =>
    rw [sshMpint, signed_cons]
    simp only [signBit]
    split <;> rfl

theorem length_signed_le : (signed bs).length ≤ bs.length + 1 := by
  cases bs with
  | nil => exact Nat.zero_le _
  | cons b bs =>
    rw [signed_cons]
    split
    · exact Nat.le_refl _
    · exact Nat.le_succ _

/-- Both scalars are read back, in the bytes that they were given. -/
theorem decodeSignResponse_eq (h : signature.length = 64) :
    decodeSignResponse (signResponse signature) = some (ascii "ecdsa-sha2-nistp256",
      signed (signature.take 32).reverse, signed (signature.drop 32).reverse) := by
  have halg : (ascii "ecdsa-sha2-nistp256").length = 19 := rfl
  have hr : (signature.take 32).reverse.length = 32 := by
    rw [List.length_reverse, List.length_take, h]
    rfl
  have hs : (signature.drop 32).reverse.length = 32 := by
    rw [List.length_reverse, List.length_drop, h]
  have hdrop : (signature.drop 32).take 32 = signature.drop 32 :=
    List.take_of_length_le (by rw [List.length_drop, h])
  have hstring {s : Bytes} : (sshString s).length = 4 + s.length := by
    rw [sshString, List.length_append, length_u32Be]
  unfold signResponse decodeSignResponse
  dsimp only
  rw [hdrop, sshMpint_eq, sshMpint_eq]
  generalize hx : signed (signature.take 32).reverse = x
  generalize hy : signed (signature.drop 32).reverse = y
  have hxlen : x.length ≤ 33 := hx ▸ length_signed_le.trans (by rw [hr])
  have hylen : y.length ≤ 33 := hy ▸ length_signed_le.trans (by rw [hs])
  have hnumbers : (sshString x ++ sshString y).length < 2 ^ 32 := by
    rw [List.length_append, hstring, hstring]
    omega
  have hblob : (sshString (ascii "ecdsa-sha2-nistp256") ++
      sshString (sshString x ++ sshString y)).length < 2 ^ 32 := by
    simp only [List.length_append, hstring, halg]
    omega
  rw [string?_last hblob, Option.bind_eq_bind, Option.bind_some]
  dsimp only
  rw [string?_sshString (by decide), Option.bind_some]
  dsimp only
  rw [string?_last hnumbers, Option.bind_some]
  dsimp only
  rw [string?_sshString (by omega), Option.bind_some]
  dsimp only
  rw [string?_last (by omega), Option.bind_some]
  exact if_pos ⟨rfl, rfl, rfl, rfl⟩

-- ---------------------------------------------------------------------------
-- What is read
-- ---------------------------------------------------------------------------

/-- It does so if and only if each scalar fills its 32 bytes, the sign included. -/
theorem sign_response_iff (h : signature.length = 64) : SignedCanonically signature ↔
    2 ^ 247 ≤ natOfLe (signature.take 32) ∧ 2 ^ 247 ≤ natOfLe (signature.drop 32) := by
  have hr : (signature.take 32).reverse.length = 30 + 2 := by
    rw [List.length_reverse, List.length_take, h]
    rfl
  have hs : (signature.drop 32).reverse.length = 30 + 2 := by
    rw [List.length_reverse, List.length_drop, h]
  have hpow : 2 ^ 247 = 128 * 256 ^ 30 := by decide
  unfold SignedCanonically
  rw [hpow, natOfLe, natOfLe, ← minimal_signed_iff hr, ← minimal_signed_iff hs,
    decodeSignResponse_eq h]
  constructor
  · rintro ⟨r, s, he, hr, hs⟩
    obtain ⟨-, hpair⟩ := Prod.mk.inj (Option.some.inj he)
    obtain ⟨rfl, rfl⟩ := Prod.mk.inj hpair
    exact ⟨hr.minimal, hs.minimal⟩
  · rintro ⟨hr, hs⟩
    exact ⟨_, _, rfl, ⟨mpintValue_signed, hr⟩, ⟨mpintValue_signed, hs⟩⟩

/-- Scalars with all bits set. -/
theorem sign_response_full : SignedCanonically (List.replicate 64 0xFF) :=
  (sign_response_iff List.length_replicate).mpr (by decide)

/-- A scalar of 31 bytes is written with the zero byte behind them in front. -/
theorem short_scalar_padded :
    ¬SignedCanonically (List.replicate 31 0x01 ++ 0x00 :: List.replicate 32 0x01) := by
  rintro ⟨r, s, he, hr, -⟩
  rw [decodeSignResponse_eq (by decide)] at he
  obtain ⟨-, hpair⟩ := Prod.mk.inj (Option.some.inj he)
  obtain ⟨rfl, -⟩ := Prod.mk.inj hpair
  exact absurd hr.minimal (by decide)

end Immurok
