import Immurok.SocketProto

/-!
# The request table

The documented lines of the protocol, field by field, and the lines that are
taken for requests.
-/

namespace Immurok

-- ---------------------------------------------------------------------------
-- Rows
-- ---------------------------------------------------------------------------

/-- The commands without a field. -/
inductive FixedRow : List Str → Request → Prop
  | status : FixedRow ["STATUS"] .status
  | fpList : FixedRow ["FP", "LIST"] .fpList
  | fpEnrollCancel : FixedRow ["FP", "ENROLL_CANCEL"] .fpEnrollCancel
  | fpVerify : FixedRow ["FP", "VERIFY"] .fpVerify
  | fpStatus : FixedRow ["FP", "STATUS"] .fpStatus
  | fpLastMatch : FixedRow ["FP", "LAST_MATCH"] .fpLastMatch
  | gateCancel : FixedRow ["GATE", "CANCEL"] .gateCancel
  | pairStatus : FixedRow ["PAIR", "STATUS"] .pairStatus
  | pairStart : FixedRow ["PAIR", "START"] .pairStart
  | pairProgress : FixedRow ["PAIR", "PROGRESS"] .pairProgress
  | pairReset : FixedRow ["PAIR", "RESET"] (.slotClear none)
  | factoryReset : FixedRow ["PAIR", "FACTORY_RESET"] .factoryReset
  | slotStatus : FixedRow ["SLOT", "STATUS"] .slotStatus
  | slotClear : FixedRow ["SLOT", "CLEAR"] (.slotClear none)
  | getSettings : FixedRow ["GET", "SETTINGS"] .getSettings
  | getInfo : FixedRow ["GET", "INFO"] .getInfo
  | otaFinish : FixedRow ["OTA", "FINISH"] .otaFinish

/-- The commands on a slot. -/
inductive SlotRow : List Str → (UInt8 → Request) → Prop
  | enroll : SlotRow ["FP", "ENROLL"] .fpEnroll
  | delete : SlotRow ["FP", "DELETE"] .fpDelete
  | clear : SlotRow ["SLOT", "CLEAR"] (.slotClear ∘ some)

/-- The settings. -/
inductive SetRow : List Str → (Bool → Request) → Prop
  | unlockSudo : SetRow ["SET", "UNLOCK_SUDO"] .setUnlockSudo
  | unlockPolkit : SetRow ["SET", "UNLOCK_POLKIT"] .setUnlockPolkit
  | unlockScreen : SetRow ["SET", "UNLOCK_SCREEN"] .setUnlockScreen
  | lockScreen : SetRow ["SET", "LOCK_SCREEN"] .setLockScreen
  | sshTakeover : SetRow ["SET", "SSH_TAKEOVER"] .setSshTakeover

/-- The lines of the table, in fields; a version and data keep the colons after
theirs. -/
inductive Row : List Str → Request → Prop
  | auth {user service : Str} : Row ["AUTH", user, service] (.auth user service)
  | fixed {words : List Str} {req : Request} : FixedRow words req → Row words req
  | slot {words : List Str} {f : UInt8 → Request} {s : Str} {slot : UInt8} : SlotRow words f →
    Str.parseU8 s = .ok slot → Row (words ++ [s]) (f slot)
  | set {words : List Str} {f : Bool → Request} {value : Bool} : SetRow words f →
    Row (words ++ [flag value]) (f value)
  | otaStart {s v : Str} {vs : List Str} {size : Nat} : Str.parseU32 s = .ok size →
    Row ("OTA".toList :: "START".toList :: s :: v :: vs)
      (.otaStart size ([':'].intercalate (v :: vs)))
  | otaData {h : Str} {hs : List Str} {data : Bytes} :
    Str.hexDecode ([':'].intercalate (h :: hs)) = .ok data →
    Row ("OTA".toList :: "DATA".toList :: h :: hs) (.otaData data)

/-- More fields stand behind a line of the table than it has, other than the
slot of `SLOT:CLEAR`. -/
def Overlong (fields : List Str) : Prop :=
  ∃ row rest req, fields = row ++ rest ∧ Row row req ∧ rest ≠ [] ∧
    row ≠ ["SLOT".toList, "CLEAR".toList]

/-- The fields begin with a line of the table for the request. -/
def Taken (fields : List Str) (req : Request) : Prop :=
  ∃ row rest, fields = row ++ rest ∧ Row row req ∧ row.length ≤ 4 ∧
    (row = ["SLOT".toList, "CLEAR".toList] → rest = [])

-- ---------------------------------------------------------------------------
-- Fields
-- ---------------------------------------------------------------------------

section
variable {parts parts' rest tl : List Str} {i n : Nat} {sep : Char} {s line command field : Str}
  {req : Request}

theorem splitn_getElem? (h : i < n) : (Str.splitn sep n s)[i]? = (s.splitOn sep)[i]? := by
  induction n generalizing s i with
  | zero => nomatch h
  | succ n ih =>
    rw [Str.splitn]
    cases hs : Str.splitOnce sep s with
    | none => rw [List.splitOn_eq_singleton (Str.splitOnce_eq_none.mp hs)]
    | some p =>
      obtain ⟨rfl, hsep⟩ := Str.splitOnce_eq_some.mp hs
      rw [List.splitOn_append_cons_self_of_not_mem hsep]
      cases i with
      | zero => rfl
      | succ i => exact ih (Nat.lt_of_succ_lt_succ h)

/-- Nothing behind the fourth field is looked at. -/
theorem parseParts_congr (h : ∀ i < 4, parts[i]? = parts'[i]?) :
    parseParts parts = parseParts parts' := by
  have h0 := h 0 (by decide)
  have h1 := h 1 (by decide)
  have h2 := h 2 (by decide)
  have h3 := h 3 (by decide)
  have hcmd : parts.headD [] = parts'.headD [] := by
    rw [List.headD_eq_head?_getD, List.headD_eq_head?_getD, List.head?_eq_getElem?,
      List.head?_eq_getElem?, h0]
  simp only [parseParts, parseAuth, parseFp, parseGate, parsePair, parseSlot, parseSet, parseGet,
    parseOta, fieldU8, fieldU32, fieldBool, requireField, hcmd, h1, h2, h3]

theorem parseRequest_fields : parseRequest line = .ok req ↔
    parseParts ((Str.trim line).splitOn ':') = .ok req := by
  rw [parseRequest, parseParts_congr fun i hi => splitn_getElem? (Nat.lt_trans hi (by decide))]
  split
  next h =>
    rw [h]
    exact iff_of_false (fun h => nomatch h) (fun h => nomatch h)
  next => rfl

-- ---------------------------------------------------------------------------
-- Parsing
-- ---------------------------------------------------------------------------

theorem requireField_ok : requireField parts i command field = .ok s ↔ parts[i]? = some s := by
  unfold requireField
  cases parts[i]? <;> simp

theorem map_fieldU8_ok {f : UInt8 → Request} : f <$> fieldU8 parts i command field = .ok req ↔
    ∃ s slot, parts[i]? = some s ∧ Str.parseU8 s = .ok slot ∧ f slot = req := by
  unfold fieldU8 requireField
  cases parts[i]? with
  | none => exact iff_of_false (fun h => nomatch h) (fun h => nomatch h)
  | some s =>
    cases hs : Str.parseU8 s <;>
      simp [bind, Except.bind, Except.mapError, Functor.map, Except.map, hs]

theorem map_fieldBool_ok {f : Bool → Request} :
    f <$> fieldBool parts i command field = .ok req ↔
      ∃ value, parts[i]? = some (flag value) ∧ f value = req := by
  unfold fieldBool requireField flag
  cases parts[i]? with
  | none => exact iff_of_false (fun h => nomatch h) (fun h => nomatch h)
  | some s =>
    simp only [bind, Except.bind, Bool.exists_bool, Option.some.injEq]
    split
    next h => simp [h, Functor.map, Except.map]
    next h =>
      split
      next h' => simp [h', Functor.map, Except.map]
      next h' =>
        refine iff_of_false (fun h => nomatch h) ?_
        rintro (⟨rfl, -⟩ | ⟨rfl, -⟩)
        · exact h' rfl
        · exact h rfl

theorem Taken.fixed (h : FixedRow parts req)
    (hclear : parts = ["SLOT".toList, "CLEAR".toList] → rest = []) : Taken (parts ++ rest) req :=
  ⟨parts, rest, rfl, .fixed h, by cases h <;> decide, hclear⟩

theorem Taken.slot {f : UInt8 → Request} (h : SlotRow parts f)
    (hs : f <$> fieldU8 (parts ++ rest) 2 command field = .ok req) : Taken (parts ++ rest) req := by
  obtain ⟨s, slot, hget, hslot, rfl⟩ := map_fieldU8_ok.mp hs
  have hlen : parts.length = 2 := by cases h <;> rfl
  cases rest with
  | nil => simp [hlen] at hget
  | cons s' rest =>
    obtain rfl : s' = s := by simpa [hlen, List.getElem?_append_right] using hget
    refine ⟨parts ++ [s'], rest, List.append_cons .., .slot h hslot, by simp [hlen], fun he => ?_⟩
    have := congrArg List.length he
    simp [hlen] at this

theorem Taken.set {f : Bool → Request} (h : SetRow parts f)
    (hs : f <$> fieldBool (parts ++ rest) 2 command field = .ok req) :
    Taken (parts ++ rest) req := by
  obtain ⟨value, hget, rfl⟩ := map_fieldBool_ok.mp hs
  have hlen : parts.length = 2 := by cases h <;> rfl
  cases rest with
  | nil => simp [hlen] at hget
  | cons s' rest =>
    obtain rfl : s' = flag value := by simpa [hlen, List.getElem?_append_right] using hget
    refine ⟨parts ++ [flag value], rest, List.append_cons .., .set h, by simp [hlen], fun he => ?_⟩
    have := congrArg List.length he
    simp [hlen] at this

theorem parseFp_taken (h : parseFp ("FP".toList :: tl) = .ok req) :
    Taken ("FP".toList :: tl) req := by
  cases tl with
  | nil => nomatch h
  | cons sub rest =>
    simp only [parseFp, requireField, List.getElem?_cons_succ, List.getElem?_cons_zero, bind,
      Except.bind] at h
    obtain ⟨rfl, h⟩ | ⟨-, h⟩ := ite_eq_iff.mp h
    · obtain rfl := Except.ok.inj h
      exact .fixed .fpList fun he => absurd he (by decide)
    obtain ⟨rfl, h⟩ | ⟨-, h⟩ := ite_eq_iff.mp h
    · exact .slot .enroll h
    obtain ⟨rfl, h⟩ | ⟨-, h⟩ := ite_eq_iff.mp h
    · obtain rfl := Except.ok.inj h
      exact .fixed .fpEnrollCancel fun he => absurd he (by decide)
    obtain ⟨rfl, h⟩ | ⟨-, h⟩ := ite_eq_iff.mp h
    · exact .slot .delete h
    obtain ⟨rfl, h⟩ | ⟨-, h⟩ := ite_eq_iff.mp h
    · obtain rfl := Except.ok.inj h
      exact .fixed .fpVerify fun he => absurd he (by decide)
    obtain ⟨rfl, h⟩ | ⟨-, h⟩ := ite_eq_iff.mp h
    · obtain rfl := Except.ok.inj h
      exact .fixed .fpStatus fun he => absurd he (by decide)
    obtain ⟨rfl, h⟩ | ⟨-, h⟩ := ite_eq_iff.mp h
    · obtain rfl := Except.ok.inj h
      exact .fixed .fpLastMatch fun he => absurd he (by decide)
    · nomatch h

theorem parseGate_taken (h : parseGate ("GATE".toList :: tl) = .ok req) :
    Taken ("GATE".toList :: tl) req := by
  cases tl with
  | nil => nomatch h
  | cons sub rest =>
    simp only [parseGate, requireField, List.getElem?_cons_succ, List.getElem?_cons_zero, bind,
      Except.bind] at h
    obtain ⟨rfl, h⟩ | ⟨-, h⟩ := ite_eq_iff.mp h
    · obtain rfl := Except.ok.inj h
      exact .fixed .gateCancel fun he => absurd he (by decide)
    · nomatch h

theorem parsePair_taken (h : parsePair ("PAIR".toList :: tl) = .ok req) :
    Taken ("PAIR".toList :: tl) req := by
  cases tl with
  | nil => nomatch h
  | cons sub rest =>
    simp only [parsePair, requireField, List.getElem?_cons_succ, List.getElem?_cons_zero, bind,
      Except.bind] at h
    obtain ⟨rfl, h⟩ | ⟨-, h⟩ := ite_eq_iff.mp h
    · obtain rfl := Except.ok.inj h
      exact .fixed .pairStatus fun he => absurd he (by decide)
    obtain ⟨rfl, h⟩ | ⟨-, h⟩ := ite_eq_iff.mp h
    · obtain rfl := Except.ok.inj h
      exact .fixed .pairStart fun he => absurd he (by decide)
    obtain ⟨rfl, h⟩ | ⟨-, h⟩ := ite_eq_iff.mp h
    · obtain rfl := Except.ok.inj h
      exact .fixed .pairProgress fun he => absurd he (by decide)
    obtain ⟨rfl, h⟩ | ⟨-, h⟩ := ite_eq_iff.mp h
    · obtain rfl := Except.ok.inj h
      exact .fixed .pairReset fun he => absurd he (by decide)
    obtain ⟨rfl, h⟩ | ⟨-, h⟩ := ite_eq_iff.mp h
    · obtain rfl := Except.ok.inj h
      exact .fixed .factoryReset fun he => absurd he (by decide)
    · nomatch h

theorem parseSlot_taken (h : parseSlot ("SLOT".toList :: tl) = .ok req) :
    Taken ("SLOT".toList :: tl) req := by
  cases tl with
  | nil => nomatch h
  | cons sub rest =>
    simp only [parseSlot, requireField, List.getElem?_cons_succ, List.getElem?_cons_zero, bind,
      Except.bind] at h
    obtain ⟨rfl, h⟩ | ⟨-, h⟩ := ite_eq_iff.mp h
    · obtain rfl := Except.ok.inj h
      exact .fixed .slotStatus fun he => absurd he (by decide)
    obtain ⟨rfl, h⟩ | ⟨-, h⟩ := ite_eq_iff.mp h
    · obtain ⟨hnone, h⟩ | ⟨-, h⟩ := ite_eq_iff.mp h
      · obtain rfl := Except.ok.inj h
        refine .fixed .slotClear fun _ => ?_
        cases rest with
        | nil => rfl
        | cons s rest => nomatch hnone
      · exact .slot .clear h
    · nomatch h

theorem parseSet_taken (h : parseSet ("SET".toList :: tl) = .ok req) :
    Taken ("SET".toList :: tl) req := by
  cases tl with
  | nil => nomatch h
  | cons sub rest =>
    simp only [parseSet, requireField, List.getElem?_cons_succ, List.getElem?_cons_zero, bind,
      Except.bind] at h
    obtain ⟨rfl, h⟩ | ⟨-, h⟩ := ite_eq_iff.mp h
    · exact .set .unlockSudo h
    obtain ⟨rfl, h⟩ | ⟨-, h⟩ := ite_eq_iff.mp h
    · exact .set .unlockPolkit h
    obtain ⟨rfl, h⟩ | ⟨-, h⟩ := ite_eq_iff.mp h
    · exact .set .unlockScreen h
    obtain ⟨rfl, h⟩ | ⟨-, h⟩ := ite_eq_iff.mp h
    · exact .set .lockScreen h
    obtain ⟨rfl, h⟩ | ⟨-, h⟩ := ite_eq_iff.mp h
    · exact .set .sshTakeover h
    · nomatch h

theorem parseGet_taken (h : parseGet ("GET".toList :: tl) = .ok req) :
    Taken ("GET".toList :: tl) req := by
  cases tl with
  | nil => nomatch h
  | cons sub rest =>
    simp only [parseGet, requireField, List.getElem?_cons_succ, List.getElem?_cons_zero, bind,
      Except.bind] at h
    obtain ⟨rfl, h⟩ | ⟨-, h⟩ := ite_eq_iff.mp h
    · obtain rfl := Except.ok.inj h
      exact .fixed .getSettings fun he => absurd he (by decide)
    obtain ⟨rfl, h⟩ | ⟨-, h⟩ := ite_eq_iff.mp h
    · obtain rfl := Except.ok.inj h
      exact .fixed .getInfo fun he => absurd he (by decide)
    · nomatch h

theorem fieldU32_ok : fieldU32 parts i command field = .ok n ↔
    ∃ s, parts[i]? = some s ∧ Str.parseU32 s = .ok n := by
  unfold fieldU32 requireField
  cases parts[i]? with
  | none => exact iff_of_false (fun h => nomatch h) (fun h => nomatch h)
  | some s => cases hs : Str.parseU32 s <;> simp [bind, Except.bind, Except.mapError, hs]

theorem bind_ok {x : Except ε α} {f : α → Except ε β} {b : β} :
    x >>= f = .ok b ↔ ∃ a, x = .ok a ∧ f a = .ok b := by
  cases x <;> simp [bind, Except.bind]

theorem mapError_ok {x : Except ε α} {f : ε → ε'} {a : α} :
    x.mapError f = .ok a ↔ x = .ok a := by
  cases x <;> simp [Except.mapError]

theorem parseOta_taken (h : parseOta ("OTA".toList :: tl) = .ok req) :
    Taken ("OTA".toList :: tl) req := by
  obtain ⟨sub, hsub, h⟩ := bind_ok.mp h
  obtain _ | ⟨sub', rest⟩ := tl
  · nomatch hsub
  obtain rfl : sub' = sub := Option.some.inj (requireField_ok.mp hsub)
  obtain ⟨rfl, h⟩ | ⟨-, h⟩ := ite_eq_iff.mp h
  · obtain ⟨size, hsize, h⟩ := bind_ok.mp h
    obtain ⟨version, hversion, h⟩ := bind_ok.mp h
    obtain ⟨s, hs, hsize⟩ := fieldU32_ok.mp hsize
    replace hversion := requireField_ok.mp hversion
    obtain rfl := Except.ok.inj h
    match rest, hs, hversion with
    | s' :: v :: rest, hs, hversion =>
      obtain rfl := Option.some.inj hs
      obtain rfl := Option.some.inj hversion
      have hrow : Row ["OTA", "START", s', v] _ := .otaStart hsize
      rw [List.intercalate_singleton] at hrow
      exact ⟨_, rest, rfl, hrow, Nat.le_refl 4, fun he => by simp at he⟩
  obtain ⟨rfl, h⟩ | ⟨-, h⟩ := ite_eq_iff.mp h
  · obtain ⟨hex, hhex, h⟩ := bind_ok.mp h
    obtain ⟨data, hdata, h⟩ := bind_ok.mp h
    replace hhex := requireField_ok.mp hhex
    obtain rfl := Except.ok.inj h
    match rest, hhex with
    | hex' :: rest, hhex =>
      obtain rfl := Option.some.inj hhex
      have hrow : Row ["OTA", "DATA", hex'] (.otaData data) := by
        refine .otaData ?_
        rw [List.intercalate_singleton]
        exact mapError_ok.mp hdata
      exact ⟨_, rest, rfl, hrow, by simp, fun he => by simp at he⟩
  obtain ⟨rfl, h⟩ | ⟨-, h⟩ := ite_eq_iff.mp h
  · obtain rfl := Except.ok.inj h
    exact .fixed .otaFinish fun he => absurd he (by decide)
  · nomatch h

theorem parseAuth_taken (h : parseAuth ("AUTH".toList :: tl) = .ok req) :
    Taken ("AUTH".toList :: tl) req := by
  obtain ⟨user, huser, h⟩ := bind_ok.mp h
  obtain ⟨service, hservice, h⟩ := bind_ok.mp h
  replace huser := requireField_ok.mp huser
  replace hservice := requireField_ok.mp hservice
  obtain rfl := Except.ok.inj h
  match tl, huser, hservice with
  | user' :: service' :: rest, huser, hservice =>
    obtain rfl := Option.some.inj huser
    obtain rfl := Option.some.inj hservice
    exact ⟨["AUTH", user', service'], rest, rfl, .auth, by simp, fun he => by simp at he⟩

/-- What is taken begins with a line of the table. -/
theorem parseParts_taken (h : parseParts parts = .ok req) : Taken parts req := by
  obtain _ | ⟨cmd, tl⟩ := parts
  · nomatch h
  unfold parseParts at h
  obtain ⟨rfl, h⟩ | ⟨-, h⟩ := ite_eq_iff.mp h
  · exact parseAuth_taken h
  obtain ⟨rfl, h⟩ | ⟨-, h⟩ := ite_eq_iff.mp h
  · obtain rfl := Except.ok.inj h
    exact .fixed .status fun he => absurd he (by decide)
  obtain ⟨rfl, h⟩ | ⟨-, h⟩ := ite_eq_iff.mp h
  · exact parseFp_taken h
  obtain ⟨rfl, h⟩ | ⟨-, h⟩ := ite_eq_iff.mp h
  · exact parseGate_taken h
  obtain ⟨rfl, h⟩ | ⟨-, h⟩ := ite_eq_iff.mp h
  · exact parsePair_taken h
  obtain ⟨rfl, h⟩ | ⟨-, h⟩ := ite_eq_iff.mp h
  · exact parseSlot_taken h
  obtain ⟨rfl, h⟩ | ⟨-, h⟩ := ite_eq_iff.mp h
  · exact parseSet_taken h
  obtain ⟨rfl, h⟩ | ⟨-, h⟩ := ite_eq_iff.mp h
  · exact parseGet_taken h
  obtain ⟨rfl, h⟩ | ⟨-, h⟩ := ite_eq_iff.mp h
  · exact parseOta_taken h
  · nomatch h

theorem hexValue_of_hexPairs {data : Bytes} (h : Str.hexPairs s = some data) :
    ∀ c ∈ s, (Str.hexValue? c).isSome := by
  fun_induction Str.hexPairs s generalizing data with
  | case1 => exact fun _ hc => nomatch hc
  | case2 => nomatch h
  | case3 a b s ih =>
    obtain ⟨x, hx, h⟩ := Option.bind_eq_some_iff.mp h
    obtain ⟨y, hy, h⟩ := Option.bind_eq_some_iff.mp h
    obtain ⟨bs, hbs, -⟩ := Option.map_eq_some_iff.mp h
    intro c hc
    obtain rfl | hc := List.mem_cons.mp hc
    · rw [hx]
      rfl
    obtain rfl | hc := List.mem_cons.mp hc
    · rw [hy]
      rfl
    · exact ih hbs c hc

/-- Data has no colon. -/
theorem colon_notMem_of_hexDecode {data : Bytes} (h : Str.hexDecode s = .ok data) : ':' ∉ s := by
  intro hc
  have hraw : ':' ∈ (s.flatMap String.utf8EncodeChar).map fun b => Char.ofNat b.toNat :=
    List.mem_map.mpr ⟨0x3A, List.mem_flatMap.mpr ⟨':', hc, by decide⟩, by decide⟩
  unfold Str.hexDecode at h
  dsimp only at h
  split at h
  next => nomatch h
  next =>
    split at h
    next _ _ hsome => exact absurd (hexValue_of_hexPairs hsome ':' hraw) (by decide)
    next => nomatch h
    next => nomatch h

theorem otaData_singleton {hex : Str} {hs : List Str} {data : Bytes}
    (h : Str.hexDecode ([':'].intercalate (hex :: hs)) = .ok data) : hs = [] := by
  cases hs with
  | nil => rfl
  | cons hex' hs =>
    refine absurd ?_ (colon_notMem_of_hexDecode h)
    rw [List.intercalate_cons_cons]
    simp

theorem eq_nil_of_length_le {a b c d : Str} {rest : List Str}
    (h : (a :: b :: c :: d :: rest).length ≤ 4) : rest = [] := by
  refine List.length_eq_zero_iff.mp ?_
  simp only [List.length_cons] at h
  omega

theorem taken_parseParts (h : Taken parts req) : parseParts parts = .ok req := by
  obtain ⟨row, rest, rfl, hrow, hlen, hclear⟩ := h
  cases hrow with
  | auth => rfl
  | fixed hf =>
    cases hf with
    | slotClear =>
      obtain rfl := hclear rfl
      rfl
    | _ => rfl
  | slot hs hslot =>
    cases hs with
    | clear => exact map_fieldU8_ok.mpr ⟨_, _, rfl, hslot, rfl⟩
    | _ => exact map_fieldU8_ok.mpr ⟨_, _, rfl, hslot, rfl⟩
  | set hs => cases hs <;> exact map_fieldBool_ok.mpr ⟨_, rfl, rfl⟩
  | @otaStart s v vs size hsize =>
    obtain rfl := eq_nil_of_length_le hlen
    rw [List.intercalate_singleton]
    refine bind_ok.mpr ⟨"START", rfl, ?_⟩
    exact bind_ok.mpr ⟨size, fieldU32_ok.mpr ⟨s, rfl, hsize⟩, rfl⟩
  | @otaData hex hs data hdata =>
    obtain rfl := otaData_singleton hdata
    rw [List.intercalate_singleton] at hdata
    refine bind_ok.mpr ⟨"DATA", rfl, ?_⟩
    refine bind_ok.mpr ⟨hex, rfl, ?_⟩
    exact bind_ok.mpr ⟨data, mapError_ok.mpr hdata, rfl⟩

theorem parseParts_taken_iff : parseParts parts = .ok req ↔ Taken parts req :=
  ⟨parseParts_taken, taken_parseParts⟩

-- ---------------------------------------------------------------------------
-- The table
-- ---------------------------------------------------------------------------

/-- A line of the table is taken, but for a version with colons. -/
theorem Row.taken (h : Row parts req) (hlen : parts.length ≤ 4) : Taken parts req :=
  ⟨parts, [], (List.append_nil _).symm, h, hlen, fun _ => rfl⟩

/-- How many fields the line for a request has at least. -/
def rowLength : Request → Nat
  | .status => 1
  | .auth _ _ | .fpEnroll _ | .fpDelete _ | .slotClear (some _) => 3
  | .setUnlockSudo _ | .setUnlockPolkit _ | .setUnlockScreen _ | .setLockScreen _
  | .setSshTakeover _ | .otaData _ => 3
  | .otaStart _ _ => 4
  | _ => 2

theorem Row.length (h : Row parts req) (hlen : parts.length ≤ 4) :
    parts.length = rowLength req := by
  cases h with
  | auth => rfl
  | fixed h => cases h <;> rfl
  | slot h => cases h <;> rfl
  | set h => cases h <;> rfl
  | @otaStart s v vs =>
    obtain rfl := eq_nil_of_length_le hlen
    rfl
  | otaData h =>
    obtain rfl := otaData_singleton h
    rfl

theorem Row.otaStart_short {size : Nat} {v : Str} (h : Str.parseU32 s = .ok size) :
    Row ["OTA", "START", s, v] (.otaStart size v) := by
  have hrow : Row ["OTA", "START", s, v] _ := .otaStart h
  rwa [List.intercalate_singleton] at hrow

/-- Only a version goes on behind the fourth field. -/
theorem Row.long (h : Row parts req) : parts.length ≤ 4 ∨ ∃ s v vs size, vs ≠ [] ∧
    Str.parseU32 s = .ok size ∧ parts = "OTA".toList :: "START".toList :: s :: v :: vs ∧
    req = .otaStart size ([':'].intercalate (v :: vs)) := by
  cases h with
  | auth => exact .inl (by simp)
  | fixed h => exact .inl (by cases h <;> decide)
  | slot h => exact .inl (by cases h <;> simp)
  | set h => exact .inl (by cases h <;> simp)
  | @otaStart s v vs size hsize =>
    by_cases hvs : vs = []
    · exact .inl (by simp [hvs])
    · exact .inr ⟨s, v, vs, size, hvs, hsize, rfl, rfl⟩
  | otaData h => exact .inl (by simp [otaData_singleton h])

/-- The first four fields of the line for a version are a line for its beginning. -/
theorem Overlong.short (h : Overlong parts) : ∃ row rest req, parts = row ++ rest ∧ Row row req ∧
    row.length ≤ 4 ∧ rest ≠ [] ∧ row ≠ ["SLOT".toList, "CLEAR".toList] := by
  obtain ⟨row, rest, req, rfl, hrow, hrest, hne⟩ := h
  obtain hlen | ⟨s, v, vs, size, hvs, hsize, rfl, -⟩ := hrow.long
  · exact ⟨row, rest, req, rfl, hrow, hlen, hrest, hne⟩
  · exact ⟨["OTA", "START", s, v], vs ++ rest, _, rfl, .otaStart_short hsize, by simp,
      List.append_ne_nil_of_left_ne_nil hvs _, by simp⟩

/-- A request has one version. -/
theorem Row.version {size : Nat} {w : Str} (h : Row parts (.otaStart size w))
    (hlen : parts.length ≤ 4) : parts[3]? = some w := by
  generalize hreq : Request.otaStart size w = req at h
  cases h with
  | auth => nomatch hreq
  | fixed h => cases h <;> nomatch hreq
  | slot h => cases h <;> nomatch hreq
  | set h => cases h <;> nomatch hreq
  | @otaStart s v vs =>
    obtain rfl := eq_nil_of_length_le hlen
    obtain ⟨-, rfl⟩ := Request.otaStart.inj hreq
    rw [List.intercalate_singleton]
    rfl
  | otaData => nomatch hreq

/-- No line of the table goes on behind another one for the same request. -/
theorem Row.append (h : Row parts req) (hlen : parts.length ≤ 4) (hrow : Row (parts ++ rest) req) :
    rest = [] := by
  obtain hlen' | ⟨s, v, vs, size, hvs, -, hparts, rfl⟩ := hrow.long
  · have hlength := (h.length hlen).trans (hrow.length hlen').symm
    rw [List.length_append] at hlength
    exact List.length_eq_zero_iff.mp (by omega)
  · exfalso
    have hversion := h.version hlen
    have hv : (parts ++ rest)[3]? = some v := by rw [hparts]; rfl
    rw [List.getElem?_append_left (List.getElem?_eq_some_iff.mp hversion).1, hversion] at hv
    obtain ⟨v', vs', rfl⟩ := List.exists_cons_of_ne_nil hvs
    have hlength := congrArg List.length (Option.some.inj hv)
    rw [List.intercalate_cons_cons] at hlength
    simp at hlength

/-- The lines of the table are the ones that are taken just where nothing stands
behind one. -/
theorem parseParts_row_iff : (∀ req, parseParts parts = .ok req ↔ Row parts req) ↔
    ¬Overlong parts := by
  constructor
  · intro h hover
    obtain ⟨row, rest, req, rfl, hrow, hlen, hrest, hne⟩ := hover.short
    have htaken : Taken (row ++ rest) req := ⟨row, rest, rfl, hrow, hlen, fun he => absurd he hne⟩
    exact hrest (hrow.append hlen ((h req).mp (parseParts_taken_iff.mpr htaken)))
  · intro h req
    rw [parseParts_taken_iff]
    constructor
    · rintro ⟨row, rest, rfl, hrow, -, hclear⟩
      obtain rfl : rest = [] := by
        by_contra hrest
        exact h ⟨row, rest, req, rfl, hrow, hrest, fun he => hrest (hclear he)⟩
      rwa [List.append_nil]
    · intro hrow
      obtain hlen | ⟨s, v, vs, size, hvs, hsize, rfl, -⟩ := hrow.long
      · exact hrow.taken hlen
      · exact absurd ⟨["OTA", "START", s, v], vs, _, rfl, .otaStart_short hsize, hvs, by simp⟩ h

/-- A line is taken for the request of its row in the table, and no other line
is, just where it does not go on behind a row. -/
theorem parse_request_iff : (∀ req, parseRequest line = .ok req ↔
    Row ((Str.trim line).splitOn ':') req) ↔ ¬Overlong ((Str.trim line).splitOn ':') := by
  rw [← parseParts_row_iff]
  exact forall_congr' fun req => by rw [parseRequest_fields]

/-- A deletion is made of a line that goes on, and a version is cut at its colon. -/
theorem lines_go_on :
    parseRequest "FP:DELETE:3:9".toList = .ok (.fpDelete 3) ∧
    ¬Row ((Str.trim "FP:DELETE:3:9".toList).splitOn ':') (.fpDelete 3) ∧
    parseRequest "OTA:START:5:1:2".toList = .ok (.otaStart 5 "1") ∧
    Row ((Str.trim "OTA:START:5:1:2".toList).splitOn ':') (.otaStart 5 "1:2") := by
  have hdelete : (Str.trim "FP:DELETE:3:9".toList).splitOn ':' = ["FP", "DELETE", "3", "9"] := by
    decide
  have hstart : (Str.trim "OTA:START:5:1:2".toList).splitOn ':' =
      ["OTA", "START", "5", "1", "2"] := by decide
  refine ⟨by decide, fun h => ?_, by decide, ?_⟩
  · rw [hdelete] at h
    exact absurd (h.length (by simp)) (by decide)
  · rw [hstart]
    exact .otaStart (by decide)

end

end Immurok
