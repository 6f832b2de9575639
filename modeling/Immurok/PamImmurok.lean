import Immurok.Daemon.Lines

/-!
# The PAM module

The module writes a request into a buffer of fixed size, from two strings it
does not look at, and the daemon reads the two fields back.
-/

namespace Immurok

-- ---------------------------------------------------------------------------
-- The request
-- ---------------------------------------------------------------------------

/-- A string of C: its bytes up to the one that is zero. -/
structure CString where
  bytes : Bytes
  nonzero : 0 ∉ bytes

def CString.lit (s : Str) (h : 0 ∉ utf8 s) : CString := ⟨utf8 s, h⟩

def bufferSize : Nat := 256

/-- `snprintf` leaves one byte of the buffer for the zero. -/
def authRequest (user service : CString) : Bytes :=
  (utf8 "AUTH:".toList ++ user.bytes ++ utf8 ":".toList ++ service.bytes).take (bufferSize - 1)

def immurokShouldSkipFp (service : CString) : Bool := service.bytes = utf8 "gdm-password".toList

inductive PamStep
  | authErr
  | ignore
  | sends (request : Bytes)

/-- What the module does with the names that PAM has, as far as the request. -/
def pamSmAuthenticate (user service : Option CString) : PamStep :=
  match user with
  | none => .authErr
  | some user =>
    let service := service.getD (.lit "unknown" (by decide))
    if immurokShouldSkipFp service then .ignore else .sends (authRequest user service)

-- ---------------------------------------------------------------------------
-- What comes of it
-- ---------------------------------------------------------------------------

/-- The daemon takes the request for these two names, or refuses it. -/
def AskedOrRefused (user service : CString) (request : Bytes) : Prop :=
  ∀ line r, splitRequestChunk request = .ok line → parseRequest line = .ok r →
    ∃ u s, r = .auth u s ∧ utf8 u = user.bytes ∧ utf8 s = service.bytes

/-- The two fields, as far as they fit. -/
def authFields (user service : CString) : Bytes :=
  (user.bytes ++ 58 :: service.bytes).take (bufferSize - 6)

/-- There is no second field before the end of the line, or more than line
ends, spaces and zeros after it. -/
def Malformed (user service : CString) : Prop :=
  58 ∉ (authFields user service).takeWhile (· ≠ 10) ∨
    ∃ c ∈ Utf8.lossy ((authFields user service).dropWhile (· ≠ 10)), isStripped c = false

/-- Both names are text that the separators do not occur in and the trimming
does not change, and they fit into the buffer. The last character may be cut
if it is the one that stands for a cut. -/
def PlainFields (user service : CString) : Prop :=
  ∃ u s, utf8 u = user.bytes ∧ utf8 s = service.bytes ∧ (∀ c ∈ u ++ s, c ≠ ':' ∧ c ≠ '\n') ∧
    (∀ c, s.getLast? = some c → Str.isWhitespace c = false) ∧
    (user.bytes.length + service.bytes.length < bufferSize - 6 ∨
      s.getLast? = some Utf8.replacement ∧
        user.bytes.length + service.bytes.length < bufferSize - 4)

section
variable {user service : CString} {line u s t text : Str} {fields : Bytes}

theorem authRequest_eq :
    authRequest user service = utf8 "AUTH:".toList ++ authFields user service := by
  have hlen : bufferSize - 1 = (utf8 "AUTH:".toList).length + (bufferSize - 6) := by decide
  rw [authRequest, hlen, List.append_assoc, List.append_assoc, List.take_length_add_append]
  rfl

theorem length_utf8_auth : (utf8 "AUTH:".toList).length = 5 := by decide

/-- What stands before an element, and what from there on. -/
theorem span_at {α : Type} [DecidableEq α] {a b : List α} {x : α} (h : x ∉ a) :
    (a ++ x :: b).takeWhile (· ≠ x) = a ∧ (a ++ x :: b).dropWhile (· ≠ x) = x :: b := by
  have hall : ∀ y ∈ a, decide (y ≠ x) = true := by
    rintro y hy
    rw [decide_eq_true_eq]
    rintro rfl
    exact h hy
  rw [List.takeWhile_append_of_pos hall, List.dropWhile_append_of_pos hall]
  simp

theorem span_whole {α : Type} [DecidableEq α] {a : List α} {x : α} (h : x ∉ a) :
    a.takeWhile (· ≠ x) = a ∧ a.dropWhile (· ≠ x) = [] := by
  rw [List.takeWhile_eq_self_iff, List.dropWhile_eq_nil_iff]
  have hall : ∀ y ∈ a, decide (y ≠ x) = true := by
    rintro y hy
    rw [decide_eq_true_eq]
    rintro rfl
    exact h hy
  exact ⟨hall, hall⟩

/-- The line that is read is the fields up to the newline. -/
theorem splitRequestChunk_auth (hlen : fields.length ≤ bufferSize - 6) :
    splitRequestChunk (utf8 "AUTH:".toList ++ fields) =
      if strip (Utf8.lossy (fields.dropWhile (· ≠ 10))) ≠ [] then .error .trailingData
      else .ok (strip ("AUTH:".toList ++ Utf8.lossy (fields.takeWhile (· ≠ 10)))) := by
  have hshort : (utf8 "AUTH:".toList ++ fields).length < maxRequestBytes := by
    rw [List.length_append, length_utf8_auth]
    exact Nat.lt_of_le_of_lt (Nat.add_le_add_left hlen 5) (by decide)
  have hraw : Utf8.lossy (utf8 "AUTH:".toList ++ fields) = "AUTH:".toList ++ Utf8.lossy fields :=
    Utf8.lossy_encode_append
  have hnew {bs : Bytes} (h : (10 : UInt8) ∉ bs) : '\n' ∉ "AUTH:".toList ++ Utf8.lossy bs := by
    intro hm
    obtain hm | hm := List.mem_append.mp hm
    · exact absurd hm (by decide)
    · exact h (Utf8.newline_mem_lossy hm)
  rw [splitRequestChunk, if_neg (Nat.not_le.mpr hshort)]
  dsimp only
  rw [hraw]
  by_cases hm : (10 : UInt8) ∈ fields
  · obtain ⟨a, b, rfl, ha⟩ := List.eq_append_cons_of_mem hm
    have hlossy : Utf8.lossy (a ++ 10 :: b) = Utf8.lossy a ++ '\n' :: Utf8.lossy b :=
      Utf8.lossy_append_ascii (by decide)
    have hbehind : Utf8.lossy (10 :: b) = '\n' :: Utf8.lossy b :=
      @Utf8.lossy_append_ascii [] b 10 (by decide)
    have hsplit : Str.splitOnce '\n' ("AUTH:".toList ++ Utf8.lossy (a ++ 10 :: b)) =
        some ("AUTH:".toList ++ Utf8.lossy a, Utf8.lossy b) := by
      rw [hlossy, ← List.append_assoc]
      exact Str.splitOnce_eq_some.mpr ⟨rfl, hnew ha⟩
    have hstrip : strip ('\n' :: Utf8.lossy b) = strip (Utf8.lossy b) := rfl
    rw [hsplit, (span_at ha).1, (span_at ha).2, hbehind, hstrip]
  · rw [Str.splitOnce_eq_none.mpr (hnew hm), (span_whole hm).1, (span_whole hm).2]
    rfl

/-- The fields of a line, the last up to the next colon. -/
theorem parseRequest_auth (hline : Str.trim line = "AUTH:".toList ++ (u ++ ':' :: t))
    (hu : ':' ∉ u) : parseRequest line = .ok (.auth u (t.takeWhile (· ≠ ':'))) := by
  have hfields : ∃ rest, Str.splitn ':' 9 ("AUTH:".toList ++ (u ++ ':' :: t)) =
      "AUTH".toList :: u :: t.takeWhile (· ≠ ':') :: rest := by
    have hauth : ':' ∉ "AUTH".toList := by decide
    have hcut : "AUTH:".toList ++ (u ++ ':' :: t) = "AUTH".toList ++ ':' :: (u ++ ':' :: t) := rfl
    rw [hcut, Str.splitn_append hauth, Str.splitn_append hu]
    by_cases ht : ':' ∈ t
    · obtain ⟨a, b, rfl, ha⟩ := List.eq_append_cons_of_mem ht
      rw [Str.splitn_append ha, (span_at ha).1]
      exact ⟨_, rfl⟩
    · rw [Str.splitn_eq_singleton ht, (span_whole ht).1]
      exact ⟨_, rfl⟩
  obtain ⟨rest, hrest⟩ := hfields
  rw [parseRequest, hline, if_neg (by simp), hrest]
  rfl

theorem parseRequest_no_service {body : Str} (hline : Str.trim line = "AUTH:".toList ++ body)
    (hb : ':' ∉ body) : ∃ e, parseRequest line = .error e := by
  have hauth : ':' ∉ "AUTH".toList := by decide
  have hcut : "AUTH:".toList ++ body = "AUTH".toList ++ ':' :: body := rfl
  rw [parseRequest, hline, if_neg (by simp), hcut, Str.splitn_append hauth,
    Str.splitn_eq_singleton hb]
  exact ⟨_, rfl⟩

/-- What is left of the fields of a line in the end. -/
def trimmedFields (fields : Bytes) : Str :=
  Str.trimEnd (Str.trimEndMatches isStripped (Utf8.lossy (fields.takeWhile (· ≠ 10))))

theorem trim_strip_auth {s : Str} : Str.trim (strip ("AUTH:".toList ++ s)) =
    "AUTH:".toList ++ Str.trimEnd (Str.trimEndMatches isStripped s) := by
  have hstrip : strip ("AUTH:".toList ++ s) = "AUTH:".toList ++ Str.trimEndMatches isStripped s :=
    @Str.trimMatches_append isStripped ':' s "UTH".toList 'A' (by decide) (by decide)
  rw [hstrip]
  exact @Str.trimMatches_append Str.isWhitespace ':' _ "UTH".toList 'A' (by decide) (by decide)

theorem trimmedFields_begins :
    trimmedFields fields <+: Utf8.lossy (fields.takeWhile (· ≠ 10)) :=
  Str.trimEndMatches_begins.trans Str.trimEndMatches_begins

/-- A colon is in the way of every trimming. -/
theorem colon_mem_trimmed : ':' ∈ trimmedFields fields ↔ 58 ∈ fields.takeWhile (· ≠ 10) := by
  constructor
  · intro h
    exact Utf8.ascii_mem_lossy (by decide) (by decide) (trimmedFields_begins.subset h)
  · intro h
    obtain ⟨a, b, hab⟩ := List.append_of_mem h
    have hlossy : Utf8.lossy (a ++ 58 :: b) = Utf8.lossy a ++ ':' :: Utf8.lossy b :=
      Utf8.lossy_append_ascii (by decide)
    rw [trimmedFields, hab, hlossy, Str.trimEndMatches_append (by decide), Str.trimEnd,
      Str.trimEndMatches_append (by decide)]
    simp

theorem length_authFields : (authFields user service).length ≤ bufferSize - 6 := by
  rw [authFields, List.length_take]
  exact Nat.min_le_left _ _

/-- The request is refused, or read as an `AUTH` of the two fields. -/
theorem asked_iff (hm : ¬ Malformed user service) : ∃ u t,
    trimmedFields (authFields user service) = u ++ ':' :: t ∧ ':' ∉ u ∧
      (AskedOrRefused user service (authRequest user service) ↔
        utf8 u = user.bytes ∧ utf8 (t.takeWhile (· ≠ ':')) = service.bytes) := by
  obtain ⟨hcolon, htail⟩ := not_or.mp hm
  have hstrip : strip (Utf8.lossy ((authFields user service).dropWhile (· ≠ 10))) = [] := by
    refine Str.trimMatches_eq_nil.mpr fun c hc => ?_
    cases hs : isStripped c with
    | true => rfl
    | false => exact absurd ⟨c, hc, hs⟩ htail
  obtain ⟨u, t, hut, hu⟩ :=
    List.eq_append_cons_of_mem (colon_mem_trimmed.mpr (not_not.mp hcolon))
  refine ⟨u, t, hut, hu, ?_⟩
  have hlen : (authFields user service).length ≤ bufferSize - 6 := length_authFields
  have hsplit := splitRequestChunk_auth hlen
  rw [if_neg (not_not.mpr hstrip)] at hsplit
  have hparse := parseRequest_auth ((trim_strip_auth).trans (congrArg _ hut)) hu
  rw [AskedOrRefused, authRequest_eq, hsplit]
  constructor
  · intro h
    obtain ⟨_, _, hr, h⟩ := h _ _ rfl hparse
    cases hr
    exact h
  · rintro h _ r ⟨⟩ hr
    rw [hparse] at hr
    cases hr
    exact ⟨_, _, rfl, h⟩

theorem refused_of_malformed (hm : Malformed user service) :
    AskedOrRefused user service (authRequest user service) := by
  intro line r hsplit hr
  rw [authRequest_eq, splitRequestChunk_auth length_authFields] at hsplit
  obtain hcolon | ⟨c, hc, hs⟩ := hm
  · split at hsplit
    next => cases hsplit
    next =>
      obtain rfl := Except.ok.inj hsplit
      obtain ⟨e, he⟩ := parseRequest_no_service trim_strip_auth (mt colon_mem_trimmed.mp hcolon)
      rw [he] at hr
      cases hr
  · rw [if_pos fun h => ?_] at hsplit
    · cases hsplit
    · rw [Str.trimMatches_eq_nil.mp h c hc] at hs
      cases hs

/-- The fields are the text of the two names, as far as it fits. -/
theorem authFields_of_utf8 (hu : utf8 u = user.bytes) (hs : utf8 s = service.bytes) :
    authFields user service = (utf8 (u ++ ':' :: s)).take (bufferSize - 6) := by
  rw [authFields, ← hu, ← hs, utf8_append]
  rfl

theorem length_fields (hu : utf8 u = user.bytes) (hs : utf8 s = service.bytes) :
    (utf8 (u ++ ':' :: s)).length = user.bytes.length + service.bytes.length + 1 := by
  have hcolon : utf8 (':' :: s) = 58 :: utf8 s := rfl
  rw [← hu, ← hs, utf8_append, List.length_append, hcolon, List.length_cons, Nat.add_assoc]

theorem no_newline (h : ∀ c ∈ u ++ s, c ≠ ':' ∧ c ≠ '\n') : '\n' ∉ u ++ ':' :: s := by
  intro hm
  obtain hm | hm := List.mem_append.mp hm
  · exact (h '\n' (by simp [hm])).2 rfl
  · obtain hm | hm := List.mem_cons.mp hm
    · exact absurd hm (by decide)
    · exact (h '\n' (by simp [hm])).2 rfl

theorem newline_not_mem_take {n : Nat} (h : '\n' ∉ text) : (10 : UInt8) ∉ (utf8 text).take n :=
  fun hm => h (Utf8.ascii_mem_encode (by decide) (List.mem_of_mem_take hm))

/-- What stands after a colon ends the whole. -/
theorem getLast?_fields {c : Char} (hc : c ≠ ':') :
    (u ++ ':' :: s).getLast? = some c ↔ s.getLast? = some c := by
  cases s with
  | nil => simp [Ne.symm hc]
  | cons d s => simp

theorem asked_of_plain (h : PlainFields user service) :
    AskedOrRefused user service (authRequest user service) := by
  by_cases hm : Malformed user service
  · exact refused_of_malformed hm
  obtain ⟨u, s, hu, hs, hsep, hlast, hlen⟩ := h
  obtain ⟨u', t, hut, hu', hiff⟩ := asked_iff hm
  have hfields := authFields_of_utf8 hu hs
  have hsize := length_fields hu hs
  have hread : Utf8.lossy (authFields user service) = u ++ ':' :: s := by
    rw [hfields]
    refine Utf8.lossy_take_encode (hlen.imp (fun h => ?_) fun ⟨hr, h⟩ => ⟨?_, ?_⟩)
    · exact hsize.trans_le h
    · exact (getLast?_fields (by decide)).mpr hr
    · exact hsize.trans_le h
  have hline : (authFields user service).takeWhile (· ≠ 10) = authFields user service := by
    rw [hfields]
    exact (span_whole (newline_not_mem_take (no_newline hsep))).1
  -- nothing is trimmed: the last character is no whitespace, and none is zero
  have hzero : '\x00' ∉ s := fun h0 => service.nonzero <| by
    rw [← hs]
    exact List.mem_flatMap.mpr ⟨_, h0, by decide⟩
  have hkept {p : Char → Bool} (hp : ∀ c, s.getLast? = some c → p c = false) (hc : p ':' = false) :
      Str.trimEndMatches p (u ++ ':' :: s) = u ++ ':' :: s := by
    rw [Str.trimEndMatches_append hc, Str.trimEndMatches_eq_self.mpr hp]
  have htrim : trimmedFields (authFields user service) = u ++ ':' :: s := by
    rw [trimmedFields, hline, hread, hkept _ (by decide), Str.trimEnd, hkept hlast (by decide)]
    intro c hc
    have hw := hlast c hc
    cases hstrip : isStripped c with
    | false => rfl
    | true =>
      simp only [isStripped, Bool.or_eq_true, decide_eq_true_eq] at hstrip
      obtain ((rfl | rfl) | rfl) | rfl := hstrip
      · exact absurd (List.mem_of_getLast? hc) hzero
      · exact absurd hw (by decide)
      · exact absurd hw (by decide)
      · exact absurd hw (by decide)
  have hcolon : ':' ∉ u ∧ ':' ∉ s :=
    ⟨fun h => (hsep ':' (by simp [h])).1 rfl, fun h => (hsep ':' (by simp [h])).1 rfl⟩
  have hsplit : Str.splitOnce ':' (u ++ ':' :: s) = some (u, s) :=
    Str.splitOnce_eq_some.mpr ⟨rfl, hcolon.1⟩
  rw [← htrim, hut, Str.splitOnce_eq_some.mpr ⟨rfl, hu'⟩] at hsplit
  obtain ⟨rfl, rfl⟩ := Prod.mk.inj (Option.some.inj hsplit)
  rw [hiff, (span_whole hcolon.2).1]
  exact ⟨hu, hs⟩

theorem plain_of_asked (hm : ¬ Malformed user service)
    (h : AskedOrRefused user service (authRequest user service)) : PlainFields user service := by
  obtain ⟨u, t, hut, hu', hiff⟩ := asked_iff hm
  obtain ⟨hu, hs⟩ := hiff.mp h
  have hst : t.takeWhile (· ≠ ':') <+: t := List.takeWhile_prefix _
  have hs' : ':' ∉ t.takeWhile (· ≠ ':') := fun hc => by
    simpa using List.mem_takeWhile_imp hc
  generalize t.takeWhile (· ≠ ':') = s at hs hst hs'
  have hfields := authFields_of_utf8 hu hs
  have hsize := length_fields hu hs
  have hpre : u ++ ':' :: s <+: trimmedFields (authFields user service) := by
    rw [hut, List.prefix_append_right_inj, List.prefix_cons_inj]
    exact hst
  have hread := hpre.trans trimmedFields_begins
  have hnew : '\n' ∉ u ++ ':' :: s := fun hc => by
    simpa using List.mem_takeWhile_imp (Utf8.newline_mem_lossy (hread.subset hc))
  have hline : (authFields user service).takeWhile (· ≠ 10) = authFields user service := by
    rw [hfields]
    exact (span_whole (newline_not_mem_take hnew)).1
  rw [hline, hfields] at hread
  have hfit := Utf8.of_prefix_lossy_take hread
  have htrim : Str.trimEnd (Str.trimEndMatches isStripped (u ++ ':' :: s)) = u ++ ':' :: s := by
    rw [trimmedFields, hline, hfields, utf8, Utf8.lossy_take_encode hfit] at hpre
    refine (hpre.eq_of_length_le ?_).symm
    exact (Str.trimEndMatches_begins.trans Str.trimEndMatches_begins).length_le
  have hend : Str.trimEnd (u ++ ':' :: s) = u ++ ':' :: s := by
    rw [← htrim]
    exact Str.trimEndMatches_idem
  refine ⟨u, s, hu, hs, ?_, fun c hc => ?_, ?_⟩
  · intro c hc
    refine ⟨?_, ?_⟩
    · rintro rfl
      exact (List.mem_append.mp hc).elim hu' hs'
    · rintro rfl
      refine hnew ((List.mem_append.mp hc).elim (fun h => ?_) fun h => ?_)
      · exact List.mem_append_left _ h
      · exact List.mem_append_right _ (.tail _ h)
  · by_cases hcolon : c = ':'
    · rw [hcolon]
      decide
    · exact Str.trimEndMatches_eq_self.mp hend c ((getLast?_fields hcolon).mpr hc)
  · refine hfit.imp (fun h => ?_) fun ⟨hr, h⟩ => ⟨(getLast?_fields (by decide)).mp hr, ?_⟩
    · exact hsize.symm.trans_le h
    · exact hsize.symm.trans_le h

/-- The request that the module sends is read as it was meant, or refused,
for names that are plain, and for those that spoil the line. -/
theorem pam_request_iff {service : Option CString} {request : Bytes}
    (h : pamSmAuthenticate (some user) service = .sends request) :
    AskedOrRefused user (service.getD (.lit "unknown" (by decide))) request ↔
      PlainFields user (service.getD (.lit "unknown" (by decide))) ∨
        Malformed user (service.getD (.lit "unknown" (by decide))) := by
  unfold pamSmAuthenticate at h
  dsimp only at h
  split at h
  next => cases h
  next =>
    obtain rfl := PamStep.sends.inj h
    constructor
    · intro hasked
      by_cases hm : Malformed user (service.getD (.lit "unknown" (by decide)))
      · exact .inr hm
      · exact .inl (plain_of_asked hm hasked)
    · rintro (hplain | hm)
      · exact asked_of_plain hplain
      · exact refused_of_malformed hm

end

def CString.root : CString := .lit "root" (by decide)

/-- A service whose name has a colon is taken for a shorter one. -/
theorem service_cut_at_colon : ¬ ∀ user service request,
    pamSmAuthenticate (some user) service = .sends request →
      AskedOrRefused user (service.getD (.lit "unknown" (by decide))) request := by
  intro h
  have hasked := h .root (some (.lit "sudo:x" (by decide))) _ rfl
  obtain ⟨u, s, hr, -, hs⟩ := hasked "AUTH:root:sudo:x".toList (.auth "root" "sudo") (by decide)
    (by decide)
  cases hr
  exact absurd hs (by decide)

theorem pam_request_sudo : pamSmAuthenticate (some .root) (some (.lit "sudo" (by decide))) =
      .sends (utf8 "AUTH:root:sudo".toList) ∧
    (AskedOrRefused .root (.lit "sudo" (by decide)) (utf8 "AUTH:root:sudo".toList) ↔
      PlainFields .root (.lit "sudo" (by decide)) ∨ Malformed .root (.lit "sudo" (by decide))) := by
  have hsends : pamSmAuthenticate (some .root) (some (.lit "sudo" (by decide))) =
      .sends (utf8 "AUTH:root:sudo".toList) := rfl
  exact ⟨hsends, pam_request_iff hsends⟩

end Immurok
