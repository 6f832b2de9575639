import Immurok.Client.SshPayload
import Immurok.Text.CharBoundary

/-!
# Text in fields

How a text is cut to a field of the device: with the search for a boundary as the
code makes it, and with an overflow, a cut inside a character or a copy outside the
buffer as a panic.
-/

namespace Immurok.Fields

-- ---------------------------------------------------------------------------
-- The code
-- ---------------------------------------------------------------------------

/-- `s[..cut]`. -/
def cutAt : Str → Nat → Checked Str
  | [], cut => if cut = 0 then .ok [] else .error .panic
  | c :: s, cut =>
    if cut = 0 then .ok []
    else if c.utf8Size ≤ cut then (cutAt s (cut - c.utf8Size)).map (c :: ·)
    else .error .panic

def truncateUtf8 (s : Str) (max : Nat) : Checked Str :=
  if (utf8 s).length ≤ max then .ok s
  else cutAt s (Utf8.floorCharBoundary (utf8 s) max)

/-- `buf[..bytes.len()].copy_from_slice(bytes)`. -/
def copyToStart (buf bytes : Bytes) : Checked Bytes :=
  if bytes.length ≤ buf.length then .ok (bytes ++ buf.drop bytes.length) else .error .panic

def padField (text : Str) (len : Nat) : Checked Bytes := do
  let buf := List.replicate len 0
  let max ← Checked.sub len 1
  let text ← truncateUtf8 text max
  copyToStart buf (utf8 text)

def buildOtpEntryPayload (e : OtpEntry) : Checked Bytes := do
  let name ← padField e.name nameLenOtp
  let service ← padField e.service serviceLenOtp
  .ok (name ++ service ++ e.secret)

def keyAddPayload (cat : KeyAddCat) (name service : Str) (secret : Bytes) : Checked Bytes :=
  match cat with
  | .otp => do
    let name ← padField name nameLenOtp
    let service ← padField service serviceLenOtp
    .ok (name ++ service ++ secret)
  | .api => do
    let name ← padField name nameLenApi
    .ok (name ++ secret)

def buildKeyAddCmd (cat : KeyAddCat) (name service : Str) (secret : Bytes) : Checked Str := do
  let payload ← keyAddPayload cat name service secret
  .ok ("KEY:".toList ++ cat.verb ++ ":".toList ++ Str.hexEncode payload)

def buildSshNamePayload (name : Str) : Checked Bytes := do
  let buf := List.replicate 16 0
  let truncated ← truncateUtf8 name 15
  copyToStart buf (utf8 truncated)

-- ---------------------------------------------------------------------------
-- Cutting
-- ---------------------------------------------------------------------------

section
variable {s p q name service : Str} {bs secret : Bytes} {n w max : Nat} {e : OtpEntry}
  {cat : KeyAddCat}

theorem cutAt_eq (h : p <+: s) : cutAt s (utf8 p).length = .ok p := by
  induction s generalizing p with
  | nil =>
    obtain rfl := List.prefix_nil.mp h
    rfl
  | cons c s ih =>
    cases p with
    | nil => rfl
    | cons c' p =>
      obtain ⟨rfl, hp⟩ := List.cons_prefix_cons.mp h
      have := c'.utf8Size_pos
      rw [cutAt, length_utf8_cons, if_neg (by omega), if_pos (Nat.le_add_right _ _),
        Nat.add_sub_cancel_left, ih hp]
      rfl

theorem longestFit_unique (hp : LongestFit n s p) (hq : LongestFit n s q) : p = q :=
  (hq.longest p hp.begins hp.fits).eq_of_length_le
    (hp.longest q hq.begins hq.fits).length_le

/-- The search ends at the longest beginning that fits. -/
theorem longestFit_floor (hp : p <+: s)
    (hlen : (utf8 p).length = Utf8.floorCharBoundary (utf8 s) n) : LongestFit n s p := by
  refine ⟨hp, hlen ▸ Utf8.floorCharBoundary_le, fun q hq hfits => ?_⟩
  have hboundary : Utf8.isCharBoundary (utf8 s) (utf8 q).length = true :=
    Utf8.isCharBoundary_encode.mpr ⟨q, hq, rfl⟩
  have hle : (utf8 q).length ≤ (utf8 p).length :=
    hlen ▸ Utf8.le_floorCharBoundary hfits hboundary
  exact Utf8.prefix_of_length_encode hq hp hle

theorem truncateUtf8_eq : truncateUtf8 s n = .ok (Immurok.truncateUtf8 s n) := by
  unfold truncateUtf8
  split
  next hfits => rw [Immurok.truncateUtf8_eq hfits]
  next =>
    have hfloor : Utf8.isCharBoundary (utf8 s) (Utf8.floorCharBoundary (utf8 s) n) = true :=
      Utf8.isCharBoundary_floor
    obtain ⟨p, hp, hlen⟩ := Utf8.isCharBoundary_encode.mp hfloor
    have hcut : cutAt s (Utf8.floorCharBoundary (utf8 s) n) = .ok p := hlen ▸ cutAt_eq hp
    rw [hcut, longestFit_unique (longestFit_floor hp hlen) longestFit_truncateUtf8]

-- ---------------------------------------------------------------------------
-- Fields
-- ---------------------------------------------------------------------------

/-- The longest beginning of the text that leaves room for a zero byte, and zero
bytes up to the width. -/
def IsField (w : Nat) (s : Str) (bs : Bytes) : Prop :=
  ∃ p, LongestFit (w - 1) s p ∧ bs = utf8 p ++ List.replicate (w - (utf8 p).length) 0 ∧
    bs.length = w

theorem isField_padField (h : 1 ≤ w) : IsField w s (Immurok.padField s w) :=
  ⟨Immurok.truncateUtf8 s (w - 1), longestFit_truncateUtf8, rfl, length_padField h⟩

theorem copyToStart_zeros (h : bs.length ≤ n) :
    copyToStart (List.replicate n 0) bs = .ok (bs ++ List.replicate (n - bs.length) 0) := by
  rw [copyToStart, if_pos (by rwa [List.length_replicate]), List.drop_replicate]

theorem padField_eq (h : 1 ≤ w) : padField s w = .ok (Immurok.padField s w) := by
  have hfits : (utf8 (Immurok.truncateUtf8 s (w - 1))).length ≤ w :=
    length_truncateUtf8.trans (Nat.sub_le _ _)
  unfold padField
  simp only [Checked.sub_eq h, bind, Except.bind, truncateUtf8_eq, copyToStart_zeros hfits]
  rfl

theorem buildOtpEntryPayload_eq : buildOtpEntryPayload e = .ok (Immurok.buildOtpEntryPayload e) := by
  have hname : padField e.name nameLenOtp = .ok _ := padField_eq (by decide)
  have hservice : padField e.service serviceLenOtp = .ok _ := padField_eq (by decide)
  simp only [buildOtpEntryPayload, hname, hservice, bind, Except.bind]
  rfl

theorem keyAddPayload_eq :
    keyAddPayload cat name service secret = .ok (Immurok.keyAddPayload cat name service secret) := by
  cases cat with
  | otp =>
    have hname : padField name nameLenOtp = .ok _ := padField_eq (by decide)
    have hservice : padField service serviceLenOtp = .ok _ := padField_eq (by decide)
    simp only [keyAddPayload, hname, hservice, bind, Except.bind]
    rfl
  | api =>
    have hname : padField name nameLenApi = .ok _ := padField_eq (by decide)
    simp only [keyAddPayload, hname, bind, Except.bind]
    rfl

theorem buildKeyAddCmd_eq :
    buildKeyAddCmd cat name service secret = .ok (Immurok.buildKeyAddCmd cat name service secret) := by
  simp only [buildKeyAddCmd, keyAddPayload_eq, bind, Except.bind]
  rfl

theorem buildSshNamePayload_eq :
    buildSshNamePayload name = .ok (Immurok.buildSshNamePayload name) := by
  have hfits : (utf8 (Immurok.truncateUtf8 name 15)).length ≤ 16 :=
    length_truncateUtf8.trans (by decide)
  simp only [buildSshNamePayload, truncateUtf8_eq, bind, Except.bind, copyToStart_zeros hfits]
  rfl

/-- In bytes, the cut is at the last boundary that is not behind `n`. -/
theorem longestFit_boundary (h : LongestFit n s p) :
    Utf8.isCharBoundary (utf8 s) (utf8 p).length = true ∧
      ∀ i, i ≤ n → Utf8.isCharBoundary (utf8 s) i = true → i ≤ (utf8 p).length := by
  refine ⟨Utf8.isCharBoundary_encode.mpr ⟨p, h.begins, rfl⟩, fun i hi hboundary => ?_⟩
  obtain ⟨q, hq, rfl⟩ := Utf8.isCharBoundary_encode.mp hboundary
  obtain ⟨t, rfl⟩ := h.longest q hq hi
  have happend : utf8 (q ++ t) = utf8 q ++ utf8 t := List.flatMap_append
  rw [happend, List.length_append]
  exact Nat.le_add_right _ _

/-- Every text is cut to the longest beginning that fits, at a boundary; a field has
its width, with this beginning and zero bytes; and each field of an entry is where the
device has it, with the rest behind. -/
theorem fields_aligned :
    (∀ s max, ∃ p, truncateUtf8 s max = .ok p ∧ LongestFit max s p ∧
      Utf8.isCharBoundary (utf8 s) (utf8 p).length = true ∧
      ∀ i, i ≤ max → Utf8.isCharBoundary (utf8 s) i = true → i ≤ (utf8 p).length) ∧
    (∀ s w, 1 ≤ w → ∃ bs, padField s w = .ok bs ∧ IsField w s bs) ∧
    (∀ e, ∃ name service, IsField nameLenOtp e.name name ∧ IsField serviceLenOtp e.service service ∧
      buildOtpEntryPayload e = .ok (name ++ service ++ e.secret)) ∧
    (∀ name service secret, ∃ nameField serviceField, IsField nameLenOtp name nameField ∧
      IsField serviceLenOtp service serviceField ∧
      buildKeyAddCmd .otp name service secret = .ok ("KEY:OTP_IMPORT:".toList ++
        Str.hexEncode (nameField ++ serviceField ++ secret))) ∧
    (∀ name service secret, ∃ nameField, IsField nameLenApi name nameField ∧
      buildKeyAddCmd .api name service secret = .ok ("KEY:API_IMPORT:".toList ++
        Str.hexEncode (nameField ++ secret))) ∧
    (∀ name, ∃ bs, buildSshNamePayload name = .ok bs ∧ IsField nameLenSsh name bs) := by
  refine ⟨fun s max => ?_, fun s w hw => ?_, fun e => ?_, fun name service secret => ?_,
    fun name service secret => ?_, fun name => ?_⟩
  · exact ⟨_, truncateUtf8_eq, longestFit_truncateUtf8, longestFit_boundary longestFit_truncateUtf8⟩
  · exact ⟨_, padField_eq hw, isField_padField hw⟩
  · exact ⟨_, _, isField_padField (by decide), isField_padField (by decide), buildOtpEntryPayload_eq⟩
  · exact ⟨_, _, isField_padField (by decide), isField_padField (by decide), buildKeyAddCmd_eq⟩
  · exact ⟨_, isField_padField (by decide), buildKeyAddCmd_eq⟩
  · exact ⟨_, buildSshNamePayload_eq, isField_padField (by decide)⟩

end

/-- Twenty characters of two bytes: the fifteenth does not fit before the zero byte. -/
theorem fields_aligned_cut :
    ∃ bs, padField (List.replicate 20 'é') 30 = .ok bs ∧ bs.length = 30 ∧
      bs.drop 28 = [0, 0] := by
  obtain ⟨bs, hpad, hfield⟩ := fields_aligned.2.1 (List.replicate 20 'é') 30 (by decide)
  have hread : padField (List.replicate 20 'é') 30 = .ok
      ((utf8 (List.replicate 14 'é')) ++ [0, 0]) := by decide
  obtain rfl := Except.ok.inj (hpad.symm.trans hread)
  exact ⟨_, hread, hfield.choose_spec.2.2, by decide⟩

end Immurok.Fields
