import Immurok.Daemon.Sound

/-!
# Request lines, read and classified

The tier of a line is told by its beginning, its handler after more is
trimmed: the two agree unless whitespace hides an `AUTH`. The line is what the
first read brings, whether the newline has come with it or not.
-/

namespace Immurok

open Async

variable {line : Str} {user service : Str} {x y : Except ParseError Request} {α : Type}

-- ---------------------------------------------------------------------------
-- What parses as an `AUTH`
-- ---------------------------------------------------------------------------

/-- No `AUTH` comes out. -/
def Authless (x : Except ParseError Request) : Prop := ∀ user service, x ≠ .ok (.auth user service)

namespace Authless

theorem error {e : ParseError} : Authless (.error e) := fun _ _ h => nomatch h

theorem ok {r : Request} (h : ∀ user service, r ≠ .auth user service) : Authless (.ok r) :=
  fun user service hr => h user service (Except.ok.inj hr)

theorem ite {p : Prop} [Decidable p] (hx : Authless x) (hy : Authless y) :
    Authless (if p then x else y) := by
  split
  · exact hx
  · exact hy

theorem bind {a : Except ParseError α} {f : α → Except ParseError Request}
    (h : ∀ v, Authless (f v)) : Authless (a >>= f) := by
  cases a with
  | error e => exact error
  | ok v => exact h v

theorem map {a : Except ParseError α} {f : α → Request}
    (h : ∀ v user service, f v ≠ .auth user service) : Authless (f <$> a) := by
  cases a with
  | error e => exact error
  | ok v => exact ok (h v)

end Authless

section
variable {parts : List Str}

theorem parseFp_authless : Authless (parseFp parts) :=
  .bind fun _ => .ite (.ok (by simp)) <| .ite (.map (by simp)) <| .ite (.ok (by simp)) <|
    .ite (.map (by simp)) <| .ite (.ok (by simp)) <| .ite (.ok (by simp)) <|
    .ite (.ok (by simp)) .error

theorem parsePair_authless : Authless (parsePair parts) :=
  .bind fun _ => .ite (.ok (by simp)) <| .ite (.ok (by simp)) <| .ite (.ok (by simp)) <|
    .ite (.ok (by simp)) <| .ite (.ok (by simp)) .error

theorem parseSlot_authless : Authless (parseSlot parts) :=
  .bind fun _ => .ite (.ok (by simp)) <|
    .ite (.ite (.ok (by simp)) (.map (by simp))) .error

theorem parseSet_authless : Authless (parseSet parts) :=
  .bind fun _ => .ite (.map (by simp)) <| .ite (.map (by simp)) <| .ite (.map (by simp)) <|
    .ite (.map (by simp)) <| .ite (.map (by simp)) .error

theorem parseOta_authless : Authless (parseOta parts) :=
  .bind fun _ => .ite (.bind fun _ => .bind fun _ => .ok (by simp)) <|
    .ite (.bind fun _ => .bind fun _ => .ok (by simp)) <| .ite (.ok (by simp)) .error

theorem parseGate_authless : Authless (parseGate parts) :=
  .bind fun _ => .ite (.ok (by simp)) .error

theorem parseGet_authless : Authless (parseGet parts) :=
  .bind fun _ => .ite (.ok (by simp)) <| .ite (.ok (by simp)) .error

theorem parseAuth_iff : (∃ user service, parseAuth parts = .ok (.auth user service)) ↔
    3 ≤ parts.length := by
  match parts with
  | [] | [_] | [_, _] => simp [parseAuth, requireField, bind, Except.bind]
  | _ :: _ :: _ :: _ => simp [parseAuth, requireField, bind, Except.bind]

theorem parseParts_iff : (∃ user service, parseParts parts = .ok (.auth user service)) ↔
    parts.headD [] = "AUTH".toList ∧ 3 ≤ parts.length := by
  by_cases h : parts.headD [] = "AUTH".toList
  · rw [parseParts, if_pos h, parseAuth_iff, and_iff_right h]
  · have hless : Authless (parseParts parts) := by
      rw [parseParts, if_neg h]
      exact .ite (.ok (by simp)) <| .ite parseFp_authless <| .ite parseGate_authless <|
        .ite parsePair_authless <| .ite parseSlot_authless <| .ite parseSet_authless <|
        .ite parseGet_authless <| .ite parseOta_authless .error
    simp only [h, false_and, iff_false, not_exists]
    exact hless

end

/-- `AUTH:` and both its fields. -/
def AuthForm (t : Str) : Prop := Str.startsWith "AUTH:" t = true ∧ ':' ∈ t.drop 5

theorem authForm_iff {t : Str} :
    AuthForm t ↔ ∃ b, Str.splitOnce ':' t = some ("AUTH".toList, b) ∧ ':' ∈ b := by
  rw [AuthForm, Str.startsWith_iff]
  constructor
  · rintro ⟨⟨b, rfl⟩, hb⟩
    exact ⟨b, Str.splitOnce_eq_some.mpr ⟨rfl, by decide⟩, hb⟩
  · rintro ⟨b, h, hb⟩
    obtain ⟨rfl, -⟩ := Str.splitOnce_eq_some.mp h
    exact ⟨⟨b, rfl⟩, hb⟩

theorem fields_iff {t : Str} : ((Str.splitn ':' 9 t).headD [] = "AUTH".toList ∧
    3 ≤ (Str.splitn ':' 9 t).length) ↔ AuthForm t := by
  rw [authForm_iff, Str.splitn]
  cases h : Str.splitOnce ':' t with
  | none => simp
  | some p =>
    obtain ⟨a, b⟩ := p
    have hlen : 3 ≤ (a :: Str.splitn ':' 8 b).length ↔ ':' ∈ b := by
      rw [List.length_cons, Nat.succ_le_succ_iff, Str.two_le_length_splitn]
    simp only [List.headD_cons, hlen, Option.some.injEq, Prod.mk.injEq]
    constructor
    · rintro ⟨rfl, hb⟩
      exact ⟨b, ⟨rfl, rfl⟩, hb⟩
    · rintro ⟨b, ⟨rfl, rfl⟩, hb⟩
      exact ⟨rfl, hb⟩

theorem parseRequest_iff : (∃ user service, parseRequest line = .ok (.auth user service)) ↔
    AuthForm (Str.trim line) := by
  by_cases h : Str.trim line = []
  · refine iff_of_false ?_ ?_
    · rintro ⟨user, service, he⟩
      rw [parseRequest, if_pos h] at he
      cases he
    · rw [h]
      exact fun hf => absurd hf.1 (by decide)
  · rw [← fields_iff, ← parseParts_iff, parseRequest, if_neg h]

-- ---------------------------------------------------------------------------
-- Tiers
-- ---------------------------------------------------------------------------

/-- Whitespace that stripping leaves stands before an `AUTH`. -/
structure Hidden (line : Str) : Prop where
  space : line.head?.any Str.isWhitespace = true
  auth : AuthForm (Str.trim line)

/-- What the first read of a connection is authorized as is what is run. -/
structure TierMatches (chunk : Bytes) : Prop where
  auth : ∀ line user service, splitRequestChunk chunk = .ok line →
    dispatchOf line = .request (.auth user service) → tierOf line = .auth
  anyone : ∀ line, splitRequestChunk chunk = .ok line → tierOf line = .anyone →
    ∃ r, dispatchOf line = .request r ∧ r ∈ [.status, .getInfo, .getSettings, .pairStatus]

theorem startsWith_space {p : Str} (h : line.head?.any Str.isWhitespace = true)
    (hp : p.head?.any (!Str.isWhitespace ·) = true) : Str.startsWith p line = false := by
  cases hs : Str.startsWith p line with
  | false => rfl
  | true =>
    obtain ⟨q, rfl⟩ := Str.startsWith_iff.mp hs
    cases p with
    | nil => cases hp
    | cons c p =>
      have hc : Str.isWhitespace c = true := h
      simp [hc] at hp

theorem ne_of_space {p : Str} (h : line.head?.any Str.isWhitespace = true)
    (hp : p.head?.any (!Str.isWhitespace ·) = true) : line ≠ p := by
  rintro rfl
  have hs := startsWith_space h hp
  rw [Str.startsWith_iff.mpr List.prefix_rfl] at hs
  cases hs

/-- No handler but that of parsed requests takes a line that begins with
whitespace. -/
theorem dispatchOf_space (h : line.head?.any Str.isWhitespace = true) :
    dispatchOf line = dispatchParsed line := by
  have strip {p : Str} (hp : p.head?.any (!Str.isWhitespace ·) = true) :
      Str.stripPrefix p line = none := by
    rw [Str.stripPrefix, startsWith_space h hp]
    rfl
  rw [dispatchOf, if_neg (ne_of_space h (by decide)), if_neg (ne_of_space h (by decide)),
    startsWith_space h (by decide), startsWith_space h (by decide), strip (by decide),
    strip (by decide), strip (by decide)]
  rfl

theorem parseRequest_of_dispatchOf {r : Request} (h : dispatchOf line = .request r) :
    parseRequest line = .ok r := by
  have hp : dispatchParsed line = .request r := by
    unfold dispatchOf at h
    repeat' split at h
    all_goals first
      | exact h
      | cases h
  unfold dispatchParsed at hp
  split at hp
  next r' hr => rw [hr, Dispatch.request.inj hp]
  next => cases hp

theorem tierOf_eq_auth : tierOf line = .auth ↔ Str.startsWith "AUTH:" line = true := by
  by_cases h : Str.startsWith "AUTH:" line = true
  · rw [tierOf, if_pos h]
    exact iff_of_true rfl h
  · rw [tierOf, if_neg h]
    split <;> exact iff_of_false (fun h => nomatch h) h

theorem tierOf_eq_anyone (h : tierOf line = .anyone) : line = "STATUS".toList ∨
    line = "GET:INFO".toList ∨ line = "GET:SETTINGS".toList ∨ line = "PAIR:STATUS".toList := by
  unfold tierOf at h
  split at h
  · cases h
  · split at h
    · assumption
    · cases h

/-- The tiers fit exactly where no `AUTH` is hidden. -/
theorem tier_matches_iff {chunk : Bytes} : TierMatches chunk ↔
    ∀ line, splitRequestChunk chunk = .ok line → ¬ Hidden line := by
  constructor
  · rintro ⟨hauth, -⟩ line hline ⟨hspace, hform⟩
    obtain ⟨user, service, hp⟩ := parseRequest_iff.mpr hform
    have hd : dispatchOf line = .request (.auth user service) := by
      rw [dispatchOf_space hspace, dispatchParsed, hp]
    have ht := tierOf_eq_auth.mp (hauth line user service hline hd)
    rw [startsWith_space hspace (by decide)] at ht
    cases ht
  · refine fun h => ⟨fun line user service hline hd => ?_, fun line _ ht => ?_⟩
    · have hform := parseRequest_iff.mp ⟨user, service, parseRequest_of_dispatchOf hd⟩
      cases hs : line.head?.any Str.isWhitespace with
      | true => exact absurd ⟨hs, hform⟩ (h line hline)
      | false =>
        rw [tierOf_eq_auth, Str.startsWith_iff]
        exact (Str.startsWith_iff.mp hform.1).trans (Str.trimMatches_prefix hs)
    · obtain rfl | rfl | rfl | rfl := tierOf_eq_anyone ht
      · exact ⟨.status, by decide, by simp⟩
      · exact ⟨.getInfo, by decide, by simp⟩
      · exact ⟨.getSettings, by decide, by simp⟩
      · exact ⟨.pairStatus, by decide, by simp⟩

theorem tab_hides_auth : ¬ TierMatches (utf8 "\tAUTH:u:s".toList) := by
  intro h
  exact absurd (h.auth "\tAUTH:u:s".toList "u".toList "s".toList (by decide) (by decide)) (by decide)

-- ---------------------------------------------------------------------------
-- The first read
-- ---------------------------------------------------------------------------

section
variable {ext : Extern} {i : TaskId} {peer : Peer} {bytes chunk : Bytes} {s s' : Daemon}

/-- The text of a line, as the daemon takes it. -/
def requestText (bytes : Bytes) : Str := strip (Utf8.lossy bytes)

/-- The line is served as it is, or refused. -/
def ExactOrRefused (bytes chunk : Bytes) : Prop :=
  ∀ line, splitRequestChunk chunk = .ok line →
    line = requestText bytes ∨ ∃ e, dispatchOf line = .unparsable e

theorem splitRequestChunk_whole (hn : (10 : UInt8) ∉ bytes)
    (hlen : (bytes ++ [10]).length < maxRequestBytes) :
    splitRequestChunk (bytes ++ [10]) = .ok (requestText bytes) := by
  have hraw : Utf8.lossy (bytes ++ [10]) = Utf8.lossy bytes ++ '\n' :: [] :=
    Utf8.lossy_append_ascii (by decide)
  have hsplit : Str.splitOnce '\n' (Utf8.lossy (bytes ++ [10])) = some (Utf8.lossy bytes, []) :=
    Str.splitOnce_eq_some.mpr ⟨hraw, fun h => hn (Utf8.newline_mem_lossy h)⟩
  rw [splitRequestChunk, if_neg (Nat.not_le.mpr hlen)]
  simp only [hsplit]
  rfl

theorem splitRequestChunk_cut (hn : (10 : UInt8) ∉ chunk) (hlen : chunk.length < maxRequestBytes) :
    splitRequestChunk chunk = .ok (requestText chunk) := by
  have hsplit : Str.splitOnce '\n' (Utf8.lossy chunk) = none :=
    Str.splitOnce_eq_none.mpr fun h => hn (Utf8.newline_mem_lossy h)
  rw [splitRequestChunk, if_neg (Nat.not_le.mpr hlen)]
  simp only [hsplit]
  rfl

/-- A read brings some of what is there, from its beginning on. -/
theorem data_prefix {n : Nat} (h : (.data chunk, s') ∈ readOutcomes i n s) :
    chunk ≠ [] ∧ chunk <+: (s.socket i).inbox := by
  have taken (h : (Read.data chunk, s') ∈ (List.range (min n (s.socket i).inbox.length)).map
      fun k => (Read.data ((s.socket i).inbox.take (k + 1)),
        s.updateSocket i fun c => { c with inbox := (s.socket i).inbox.drop (k + 1) })) :
      chunk ≠ [] ∧ chunk <+: (s.socket i).inbox := by
    obtain ⟨k, hk, he⟩ := List.mem_map.mp h
    obtain ⟨hc, -⟩ := Prod.mk.inj he
    obtain rfl := Read.data.inj hc
    refine ⟨fun h0 => ?_, List.take_prefix _ _⟩
    have hlen := congrArg List.length h0
    simp only [List.length_take, List.length_nil, List.mem_range] at hlen hk
    omega
  unfold readOutcomes at h
  dsimp only at h
  split at h
  · obtain h | h := List.mem_cons.mp h
    · cases (Prod.mk.inj h).1
    · exact taken h
  · exact taken h

/-- The first read of a request line is the request: the whole line with its
newline, or what has come of it, as if a line without a newline. -/
theorem first_read_decides (hn : (10 : UInt8) ∉ bytes)
    (hb : (s.socket i).inbox <+: bytes ++ [10])
    (hr : (.data chunk, s') ∈ readOutcomes i maxRequestBytes s) :
    (maxRequestBytes ≤ chunk.length ∧
      serveChunk ext i peer chunk = writeLineTo i "ERROR:TOO_LONG") ∨
    (chunk = bytes ++ [10] ∧ serveChunk ext i peer chunk = serveLine ext i peer (requestText bytes)) ∨
    (chunk ≠ [] ∧ chunk <+: bytes ∧
      serveChunk ext i peer chunk = serveLine ext i peer (requestText chunk)) := by
  obtain ⟨hne, hpre⟩ := data_prefix hr
  by_cases hlen : maxRequestBytes ≤ chunk.length
  · refine .inl ⟨hlen, ?_⟩
    rw [serveChunk, splitRequestChunk, if_pos hlen]
    rfl
  · refine .inr ?_
    obtain h | h := List.prefix_concat_iff.mp (hpre.trans hb)
    · refine .inl ⟨h, ?_⟩
      subst h
      rw [serveChunk, splitRequestChunk_whole hn (Nat.not_le.mp hlen)]
    · refine .inr ⟨hne, h, ?_⟩
      rw [serveChunk, splitRequestChunk_cut (fun hm => hn (h.subset hm)) (Nat.not_le.mp hlen)]

end

/-- A client's `SLOT:CLEAR:2` comes in two pieces. -/
def cut : List (Event Env Conn) :=
  [.spawn 1 (.pam (some ⟨0, 1⟩)), .env (.socketData 1 (utf8 "SLOT:CLEAR".toList)), .run 1 0,
    .run 1 9, .env (.socketData 1 (utf8 ":2\n".toList))] ++ go 1 8

theorem first_read_decides_cut :
    serveChunk .sample 1 ⟨0, 1⟩ (utf8 "SLOT:CLEAR".toList) =
      serveLine .sample 1 ⟨0, 1⟩ (requestText (utf8 "SLOT:CLEAR".toList)) := by
  let s : Daemon := (Daemon.start .sample).updateSocket 1 fun c =>
    { c with inbox := utf8 "SLOT:CLEAR".toList }
  have hr : (.data (utf8 "SLOT:CLEAR".toList), s.updateSocket 1 fun c =>
      { c with inbox := (s.socket 1).inbox.drop 10 }) ∈ readOutcomes 1 maxRequestBytes s :=
    List.mem_map.mpr ⟨9, by decide, rfl⟩
  obtain ⟨hlen, -⟩ | ⟨he, -⟩ | ⟨-, -, h⟩ := @first_read_decides .sample 1 ⟨0, 1⟩
    (utf8 "SLOT:CLEAR:2".toList) _ _ _ (by decide) ⟨utf8 ":2\n".toList, by decide⟩ hr
  · exact absurd hlen (by decide)
  · exact absurd he (by decide)
  · exact h

def answersSlotClear : Ev → Bool
  | .answered 1 (.slotClear none) _ => true
  | _ => false

/-- The host's own slot is cleared instead of the other. -/
theorem cut_line_clears_own_slot :
    (∃ c, (system .sample).Reach (start .sample .sample) c ∧
      ∃ r, .answered 1 (.slotClear none) r ∈ c.shared.log) ∧
    ¬ ExactOrRefused (utf8 "SLOT:CLEAR:2".toList) (utf8 "SLOT:CLEAR".toList) := by
  refine ⟨?_, fun h => ?_⟩
  · obtain ⟨c, hr, hc⟩ := System.exists_run (system .sample) (fun _ _ => true)
      (start .sample .sample) cut
      (fun s => s.log.any answersSlotClear) (by decide)
    refine ⟨c, hr.reach, ?_⟩
    obtain ⟨e, he, hm⟩ := List.any_eq_true.mp hc
    unfold answersSlotClear at hm
    split at hm
    next r => exact ⟨r, he⟩
    next => cases hm
  · obtain h | ⟨e, he⟩ := h "SLOT:CLEAR".toList (by decide)
    · exact absurd h (by decide)
    · have hd : dispatchOf "SLOT:CLEAR".toList = .request (.slotClear none) := by decide
      rw [hd] at he
      cases he

end Immurok
