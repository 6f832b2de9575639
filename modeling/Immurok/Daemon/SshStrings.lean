import Immurok.Daemon.SshAgent
import Immurok.Text.Checked

/-!
# SSH strings in a buffer

How the agent writes strings one behind the other and reads them back, with the
offset as the code moves it: also where there is no string, and with an overflow
or an index outside the buffer as a panic.
-/

namespace Immurok.SshStrings

-- ---------------------------------------------------------------------------
-- The code
-- ---------------------------------------------------------------------------

def appendU32Be (buf : Bytes) (value : Nat) : Bytes := buf ++ u32Be value

def appendSshString (buf data : Bytes) : Bytes := appendU32Be buf data.length ++ data

/-- The string, if there is one, and the offset after the call. -/
def readSshString (data : Bytes) (offset : Nat) : Checked (Option Bytes × Nat) := do
  let start ← Checked.add offset 4
  if data.length < start then .ok (none, offset)
  else
    let b₀ ← Checked.index data offset
    let b₁ ← Checked.index data (offset + 1)
    let b₂ ← Checked.index data (offset + 2)
    let b₃ ← Checked.index data (offset + 3)
    let len := u32OfBe [b₀, b₁, b₂, b₃]
    let stop ← Checked.add start len
    if data.length < stop then .ok (none, start)
    else
      let result ← Checked.slice data start stop
      .ok (some result, stop)

/-- As many strings, one after the other. -/
def readSshStrings (data : Bytes) : Nat → Nat → Checked (List (Option Bytes) × Nat)
  | 0, offset => .ok ([], offset)
  | n + 1, offset => do
    let (result, offset) ← readSshString data offset
    let (results, offset) ← readSshStrings data n offset
    .ok (result :: results, offset)

-- ---------------------------------------------------------------------------
-- One string
-- ---------------------------------------------------------------------------

/-- At the offset are a length in four bytes and that many bytes. -/
def StringAt (data : Bytes) (offset : Nat) (s : Bytes) : Prop :=
  ∃ size rest, data.drop offset = size ++ (s ++ rest) ∧ size.length = 4 ∧ u32OfBe size = s.length

section
variable {data buf s rest : Bytes} {offset next : Nat} {ss : List Bytes}

theorem u32OfBe_lt {size : Bytes} : u32OfBe size < 2 ^ 32 := by
  unfold u32OfBe
  split
  next a b c d =>
    have := a.toNat_lt
    have := b.toNat_lt
    have := c.toNat_lt
    have := d.toNat_lt
    omega
  next => decide

/-- The four bytes at an offset. -/
theorem take_four (h : offset + 4 ≤ data.length) : (data.drop offset).take 4 =
    [data[offset], data[offset + 1], data[offset + 2], data[offset + 3]] := by
  have hone (i : Nat) (hi : i < data.length) : data.drop i = data[i] :: data.drop (i + 1) :=
    List.drop_eq_getElem_cons hi
  rw [hone offset (by omega), hone (offset + 1) (by omega), hone (offset + 2) (by omega),
    hone (offset + 3) (by omega)]
  rfl

/-- Where the sum with the offset is no overflow, the code does what it does on
numbers without a bound. -/
theorem readSshString_eq (hdata : data.length < 2 ^ 63) (hoffset : offset + 4 < 2 ^ 64) :
    readSshString data offset = .ok (match Immurok.readSshString data offset with
      | some (s, next) => (some s, next)
      | none => (none, if data.length < offset + 4 then offset else offset + 4)) := by
  have hsum : Checked.add offset 4 = .ok (offset + 4) := Checked.add_eq hoffset
  unfold readSshString Immurok.readSshString
  rw [hsum]
  by_cases hshort : data.length < offset + 4
  · simp only [bind, Except.bind, if_pos hshort]
  · have hlen := @u32OfBe_lt ((data.drop offset).take 4)
    have hfour := take_four (Nat.le_of_not_lt hshort)
    have hstop : Checked.add (offset + 4) (u32OfBe ((data.drop offset).take 4)) =
        .ok (offset + 4 + u32OfBe ((data.drop offset).take 4)) := Checked.add_eq (by omega)
    simp only [bind, Except.bind, if_neg hshort, Checked.index_eq (show offset < data.length by omega),
      Checked.index_eq (show offset + 1 < data.length by omega),
      Checked.index_eq (show offset + 2 < data.length by omega),
      Checked.index_eq (show offset + 3 < data.length by omega), ← hfour, hstop]
    split
    next => rfl
    next hfits =>
      rw [Checked.slice_eq (Nat.le_add_right _ _) (Nat.le_of_not_lt hfits), Nat.add_sub_cancel_left]

/-- What the code finds at an offset is what is there. -/
theorem readSshString_eq_some : Immurok.readSshString data offset = some (s, next) ↔
    StringAt data offset s ∧ next = offset + 4 + s.length ∧ next ≤ data.length := by
  unfold Immurok.readSshString
  constructor
  · intro h
    split at h
    next => nomatch h
    next hfour =>
      dsimp only at h
      generalize hsize : u32OfBe ((data.drop offset).take 4) = len at h
      split at h
      next => nomatch h
      next hfits =>
        obtain ⟨rfl, rfl⟩ := Prod.mk.inj (Option.some.inj h)
        have hlen : ((data.drop (offset + 4)).take len).length = len :=
          List.length_take_of_le (by rw [List.length_drop]; omega)
        refine ⟨⟨(data.drop offset).take 4, (data.drop (offset + 4)).drop len, ?_, ?_, ?_⟩,
          by rw [hlen], Nat.le_of_not_lt hfits⟩
        · rw [List.take_append_drop, ← List.drop_drop, List.take_append_drop]
        · exact List.length_take_of_le (by rw [List.length_drop]; omega)
        · rw [hsize, hlen]
  · rintro ⟨⟨size, rest, hdrop, hsize, hlen⟩, rfl, hnext⟩
    have htake : (data.drop offset).take 4 = size := by rw [hdrop, ← hsize, List.take_left]
    have hbehind : data.drop (offset + 4) = s ++ rest := by
      rw [← List.drop_drop, hdrop, ← hsize, List.drop_left]
    rw [if_neg (by omega)]
    dsimp only
    rw [htake, hlen, if_neg (by omega), hbehind, List.take_left]

theorem StringAt.le_length (h : StringAt data offset s) : offset + 4 + s.length ≤ data.length := by
  obtain ⟨size, rest, hdrop, hsize, -⟩ := h
  have hlength := congrArg List.length hdrop
  rw [List.length_drop, List.length_append, List.length_append, hsize] at hlength
  omega

theorem readSshString_eq_none :
    Immurok.readSshString data offset = none ↔ ∀ s, ¬StringAt data offset s := by
  rw [Option.eq_none_iff_forall_ne_some]
  constructor
  · exact fun h s hs => h (s, _) (readSshString_eq_some.mpr ⟨hs, rfl, hs.le_length⟩)
  · exact fun h r hr => h r.1 (readSshString_eq_some.mp hr).1

/-- A call: the string at the offset, with the offset behind it, or nothing, with
the offset where it was or behind the length. It stops only where the offset is
outside the buffer and four more are too many for it. -/
theorem readSshString_spec (hdata : data.length < 2 ^ 63) :
    match readSshString data offset with
    | .ok (some s, next) =>
      StringAt data offset s ∧ next = offset + 4 + s.length ∧ next ≤ data.length
    | .ok (none, next) => (∀ s, ¬StringAt data offset s) ∧
      (next = offset ∨ next = offset + 4 ∧ next ≤ data.length)
    | .error f => f = .panic ∧ data.length < offset ∧ 2 ^ 64 ≤ offset + 4 := by
  by_cases hoffset : offset + 4 < 2 ^ 64
  · rw [readSshString_eq hdata hoffset]
    cases h : Immurok.readSshString data offset with
    | some r => exact readSshString_eq_some.mp h
    | none =>
      refine ⟨readSshString_eq_none.mp h, ?_⟩
      split
      next => exact .inl rfl
      next hfour => exact .inr ⟨rfl, Nat.le_of_not_lt hfour⟩
  · have hstop : Checked.add offset 4 = .error .panic := if_neg hoffset
    have hread : readSshString data offset = .error .panic := by
      unfold readSshString
      rw [hstop]
      rfl
    rw [hread]
    exact ⟨rfl, by omega, Nat.le_of_not_lt hoffset⟩

-- ---------------------------------------------------------------------------
-- Many strings
-- ---------------------------------------------------------------------------

theorem appendSshString_eq : appendSshString buf s = buf ++ sshString s := List.append_assoc ..

theorem foldl_appendSshString :
    ss.foldl appendSshString buf = buf ++ ss.flatMap sshString := by
  induction ss generalizing buf with
  | nil => exact (List.append_nil buf).symm
  | cons s ss ih => rw [List.foldl_cons, ih, appendSshString_eq, List.append_assoc, List.flatMap_cons]

theorem stringAt_sshString (hs : s.length < 2 ^ 32) :
    StringAt (buf ++ (sshString s ++ rest)) buf.length s := by
  refine ⟨u32Be s.length, rest, ?_, length_u32Be, u32OfBe_u32Be hs⟩
  rw [List.drop_left, sshString, List.append_assoc]

/-- What was appended is read back, to the end of the buffer. -/
theorem readSshStrings_append (hs : ∀ s ∈ ss, s.length < 2 ^ 32)
    (hlen : (buf ++ ss.flatMap sshString).length < 2 ^ 63) :
    readSshStrings (buf ++ ss.flatMap sshString) ss.length buf.length =
      .ok (ss.map some, (buf ++ ss.flatMap sshString).length) := by
  induction ss generalizing buf with
  | nil => rw [List.flatMap_nil, List.append_nil]; rfl
  | cons s ss ih =>
    obtain ⟨hfits, hss⟩ := List.forall_mem_cons.mp hs
    have hdata : buf ++ (s :: ss).flatMap sshString = (buf ++ sshString s) ++ ss.flatMap sshString := by
      rw [List.flatMap_cons, List.append_assoc]
    have hat : StringAt (buf ++ (s :: ss).flatMap sshString) buf.length s := by
      rw [List.flatMap_cons]
      exact stringAt_sshString hfits
    have hnext : buf.length + 4 + s.length = (buf ++ sshString s).length := by
      rw [List.length_append, sshString, List.length_append, length_u32Be, Nat.add_assoc]
    have hread : readSshString (buf ++ (s :: ss).flatMap sshString) buf.length =
        .ok (some s, (buf ++ sshString s).length) := by
      have hle := hat.le_length
      rw [readSshString_eq hlen (by omega), readSshString_eq_some.mpr ⟨hat, rfl, hle⟩, hnext]
    rw [List.length_cons, readSshStrings, hread]
    rw [hdata] at hlen ⊢
    have hrest := ih hss hlen
    simp only [bind, Except.bind, hrest]
    rfl

/-- Every call reads what is at its offset, inside the buffer, and moves the offset
only to where that ends; one string after the other is read back as it was appended,
to the end of the buffer. -/
theorem ssh_strings_read (hdata : data.length < 2 ^ 63) :
    (match readSshString data offset with
    | .ok (some s, next) =>
      StringAt data offset s ∧ next = offset + 4 + s.length ∧ next ≤ data.length
    | .ok (none, next) => (∀ s, ¬StringAt data offset s) ∧
      (next = offset ∨ next = offset + 4 ∧ next ≤ data.length)
    | .error f => f = .panic ∧ data.length < offset ∧ 2 ^ 64 ≤ offset + 4) ∧
    ∀ ss : List Bytes, (∀ s ∈ ss, s.length < 2 ^ 32) →
      (ss.foldl appendSshString buf).length < 2 ^ 63 →
      readSshStrings (ss.foldl appendSshString buf) ss.length buf.length =
        .ok (ss.map some, (ss.foldl appendSshString buf).length) := by
  refine ⟨readSshString_spec hdata, fun ss hs hlen => ?_⟩
  rw [foldl_appendSshString] at hlen ⊢
  exact readSshStrings_append hs hlen

end

/-- Two strings are read back, and a length that promises too much is none. -/
theorem ssh_strings_read_two :
    readSshStrings ([[0x68, 0x69], []].foldl appendSshString []) 2 0 =
      .ok ([some [0x68, 0x69], some []], 10) ∧
    ∀ s, ¬StringAt [0x00, 0x00, 0x00, 0x02, 0x68] 0 s := by
  obtain ⟨hone, hmany⟩ := @ssh_strings_read [0x00, 0x00, 0x00, 0x02, 0x68] [] 0 (by decide)
  have hread : readSshString [0x00, 0x00, 0x00, 0x02, 0x68] 0 = .ok (none, 4) := rfl
  rw [hread] at hone
  exact ⟨hmany [[0x68, 0x69], []] (by decide) (by decide), hone.1⟩

end Immurok.SshStrings
