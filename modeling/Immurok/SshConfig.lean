import Immurok.Daemon.Socket
import Immurok.Text.Lines

/-!
# The block in the ssh configuration

The part of `~/.ssh/config` that routes SSH through the daemon's agent. It is
put in front of the user's own lines and taken out again.
-/

namespace Immurok.SshConfig

open Lines

def beginMark : Str := "# >>> immurok managed — do not edit (toggle in immurok app) >>>"

def endMark : Str := "# <<< immurok managed <<<"

-- ---------------------------------------------------------------------------
-- The block
-- ---------------------------------------------------------------------------

/-- What the path is shown as is put in. -/
def block (agentSock : Bytes) : Str :=
  beginMark ++ "\nHost *\n    IdentityAgent ".toList ++ Utf8.lossy agentSock ++
    '\n' :: endMark ++ ['\n']

/-- The lines but for a block between two markers; everything where one of
them is missing. -/
def stripBlock (content : Str) : Str :=
  let lines := Str.lines content
  match lines.findIdx? fun line => Str.trim line = beginMark with
  | none => content
  | some beginIdx =>
    match (lines.drop (beginIdx + 1)).findIdx? fun line => Str.trim line = endMark with
    | none => content
    | some relativeIdx =>
      let endIdx := beginIdx + 1 + relativeIdx
      Str.trimNewlines (['\n'].intercalate (lines.take beginIdx ++ lines.drop (endIdx + 1)))

-- ---------------------------------------------------------------------------
-- The file
-- ---------------------------------------------------------------------------

inductive IoError
  | notFound
  | invalidData
  | other

/-- `~/.ssh/config`; a file may be there and not be readable. -/
inductive ConfigFile
  | absent
  | file (content : Bytes) (readable : Bool)

def ConfigFile.content : ConfigFile → Bytes
  | .absent => []
  | .file content _ => content

/-- Which system calls succeed. -/
structure Syscalls where
  createDirAll : Bool
  setDirPermissions : Bool
  write : Bool
  setPermissions : Bool
  rename : Bool

def allSucceed : Syscalls := ⟨true, true, true, true, true⟩

def readToString : ConfigFile → Except IoError Str
  | .absent => .error .notFound
  | .file content readable =>
    if !readable then .error .other
    else
      match Utf8.strict content with
      | some s => .ok s
      | none => .error .invalidData

/-- Written beside the file and moved over it. -/
def writeAtomic (os : Syscalls) (content : Str) (f : ConfigFile) :
    Except IoError Unit × ConfigFile :=
  if !os.write then (.error .other, f)
  else if !os.setPermissions then (.error .other, f)
  else if !os.rename then (.error .other, f)
  else (.ok (), .file (utf8 content) true)

/-- The block in front of what there is without one. -/
def withBlock (agentSock : Bytes) (existing : Str) : Str :=
  let body := stripBlock existing
  block agentSock ++ if body = [] then [] else '\n' :: body ++ ['\n']

def enable (os : Syscalls) (agentSock : Bytes) (f : ConfigFile) :
    Except IoError Unit × ConfigFile :=
  if !os.createDirAll then (.error .other, f)
  else if !os.setDirPermissions then (.error .other, f)
  else
    let existing := (readToString f).toOption.getD []
    writeAtomic os (withBlock agentSock existing) f

/-- What there is without the block. -/
def withoutBlock (existing : Str) : Str :=
  let body := stripBlock existing
  if body = [] then [] else body ++ ['\n']

def disable (os : Syscalls) (f : ConfigFile) : Except IoError Unit × ConfigFile :=
  match readToString f with
  | .error .notFound => (.ok (), f)
  | .error e => (.error e, f)
  | .ok existing =>
    if !Str.contains beginMark existing then (.ok (), f)
    else writeAtomic os (withoutBlock existing) f

def isEnabled (f : ConfigFile) : Bool :=
  match readToString f with
  | .ok s => Str.contains beginMark s
  | .error _ => false

-- ---------------------------------------------------------------------------
-- Lines of the file
-- ---------------------------------------------------------------------------

/-- The markers, on lines with or without their endings. -/
def marks : Marks Str where
  isBegin l := Str.trim l = beginMark
  isEnd l := Str.trim l = endMark
  disjoint l h := by
    rw [decide_eq_true_eq] at h
    rw [h]
    decide

/-- The markers in a file of any bytes. -/
def fileMarks : Marks Bytes where
  isBegin l := (Utf8.strict l).any marks.isBegin
  isEnd l := (Utf8.strict l).any marks.isEnd
  disjoint l h := by
    cases hs : Utf8.strict l with
    | none => rfl
    | some s =>
      rw [hs] at h
      exact marks.disjoint s h

/-- The user's lines: those outside the managed block, but for empty ones
before and behind them. -/
def userLines (content : Bytes) : List Bytes :=
  trimBlank ((fileMarks.outside (splitInclusive 0x0A content)).map (Lines.content 0x0A))

variable {s t l b e : Str} {pre mid post : List Str} {agentSock : Bytes} {f : ConfigFile}
  {os : Syscalls}

theorem strict_utf8 : Utf8.strict (utf8 s) = some s := Utf8.strict_encode

theorem utf8_injective : Function.Injective utf8 := fun s t h => by
  have hs : Utf8.strict (utf8 s) = Utf8.strict (utf8 t) := by rw [h]
  rw [strict_utf8, strict_utf8] at hs
  exact Option.some.inj hs

theorem newline_mem_utf8 : (0x0A : UInt8) ∈ utf8 s ↔ '\n' ∈ s := by
  refine ⟨fun h => Utf8.ascii_mem_encode (by decide) h, fun h => ?_⟩
  exact List.mem_flatMap.mpr ⟨'\n', h, by decide⟩

theorem splitInclusive_utf8 :
    splitInclusive 0x0A (utf8 s) = (splitInclusive '\n' s).map utf8 := by
  induction s using induct '\n' with
  | last l hl =>
    by_cases hnil : l = []
    · rw [hnil]
      rfl
    · have hne : utf8 l ≠ [] := fun h => hnil (utf8_injective (h.trans rfl))
      rw [splitInclusive_last hl hnil,
        splitInclusive_last (fun h => hl (newline_mem_utf8.mp h)) hne]
      rfl
  | line l s hl ih =>
    have hsplit : utf8 (l ++ '\n' :: s) = utf8 l ++ 0x0A :: utf8 s := utf8_append
    rw [hsplit, splitInclusive_line fun h => hl (newline_mem_utf8.mp h), splitInclusive_line hl,
      List.map_cons, ih, utf8_append]
    rfl

theorem content_utf8 : Lines.content 0x0A (utf8 l) = utf8 (Lines.content '\n' l) := by
  obtain rfl | ⟨l, c, rfl⟩ := l.eq_nil_or_concat
  · rfl
  · rw [List.concat_eq_append, utf8_append]
    by_cases hc : c = '\n'
    · subst hc
      exact (content_line (l := utf8 l)).trans (congrArg utf8 content_line.symm)
    · have hlast : (l ++ [c]).getLast? ≠ some '\n' := by simpa using hc
      rw [content_eq_self.mpr hlast, utf8_append, content_eq_self]
      intro h
      obtain ⟨bs, b, hbs⟩ : ∃ bs b, utf8 [c] = bs ++ [b] := by
        obtain hnil | ⟨bs, b, h⟩ := (utf8 [c]).eq_nil_or_concat
        · have he : utf8 [c] = utf8 [] := hnil
          exact absurd (utf8_injective he) (List.cons_ne_nil _ _)
        · exact ⟨bs, b, by rw [h, List.concat_eq_append]⟩
      have hb : b = 0x0A := by simpa [hbs, ← List.append_assoc] using h
      have hmem : (0x0A : UInt8) ∈ utf8 [c] := by rw [hbs, hb]; simp
      exact hc (List.mem_singleton.mp (newline_mem_utf8.mp hmem)).symm

theorem fileMarks_utf8 : fileMarks.comap utf8 = marks := by
  have h (g : Str → Bool) : (fun l => (Utf8.strict (utf8 l)).any g) = g :=
    funext fun l => by rw [strict_utf8]; rfl
  have hb : fileMarks.isBegin ∘ utf8 = marks.isBegin := h _
  have he : fileMarks.isEnd ∘ utf8 = marks.isEnd := h _
  simp only [Marks.comap, hb, he]

theorem trimBlank_utf8 {ls : List Str} : trimBlank (ls.map utf8) = (trimBlank ls).map utf8 := by
  have h : List.isEmpty ∘ utf8 = List.isEmpty := funext fun l => by
    rw [Bool.eq_iff_iff]
    exact List.isEmpty_iff.trans (⟨fun h => utf8_injective h, fun h => by rw [h]; rfl⟩ :
      utf8 l = [] ↔ l = []) |>.trans List.isEmpty_iff.symm
  simp only [trimBlank, List.rdropWhile, List.dropWhile_map, ← List.map_reverse, h]

/-- Those of a text. -/
theorem userLines_utf8 : userLines (utf8 s) =
    (trimBlank ((marks.outside (splitInclusive '\n' s)).map (Lines.content '\n'))).map utf8 := by
  have hc : Lines.content 0x0A ∘ utf8 = utf8 ∘ Lines.content '\n' := funext fun _ => content_utf8
  rw [userLines, splitInclusive_utf8, Marks.comap_outside, fileMarks_utf8, List.map_map, hc,
    ← List.map_map, trimBlank_utf8]

-- ---------------------------------------------------------------------------
-- Taking the block out
-- ---------------------------------------------------------------------------

theorem findIdx_lines {mark : Str} {ls : List Str} :
    (ls.map Str.stripLine).findIdx? (fun line => decide (Str.trim line = mark)) =
      ls.findIdx? fun l => decide (Str.trim l = mark) := by
  rw [List.findIdx?_map]
  congr 1
  funext l
  simp [Str.trim_stripLine]

theorem findIdx_append {α : Type} {q : α → Bool} {xs ys : List α} {x : α}
    (h : ∀ y ∈ xs, q y = false) (hx : q x = true) :
    (xs ++ x :: ys).findIdx? q = some xs.length := by
  rw [List.findIdx?_append, List.findIdx?_eq_none_iff.mpr h, List.findIdx?_cons, if_pos hx]
  simp

theorem stripBlock_uncut (h : marks.Uncut (splitInclusive '\n' s)) : stripBlock s = s := by
  unfold stripBlock Str.lines
  simp only [findIdx_lines]
  obtain h | ⟨pre, b, post, heq, hpre, hb, hpost⟩ := h
  · have hi : (splitInclusive '\n' s).findIdx? (fun l => decide (Str.trim l = beginMark)) = none :=
      List.findIdx?_eq_none_iff.mpr h
    rw [hi]
  · have hi : (splitInclusive '\n' s).findIdx? (fun l => decide (Str.trim l = beginMark)) =
        some pre.length := heq ▸ findIdx_append hpre hb
    have hdrop : ((splitInclusive '\n' s).map Str.stripLine).drop (pre.length + 1) =
        post.map Str.stripLine := by
      rw [heq, ← List.map_drop]
      simp
    have hj : post.findIdx? (fun l => decide (Str.trim l = endMark)) = none :=
      List.findIdx?_eq_none_iff.mpr hpost
    simp only [hi, hdrop, findIdx_lines, hj]

theorem stripBlock_cut (h : marks.Cut pre b mid e post (splitInclusive '\n' s)) :
    stripBlock s = Str.trimNewlines (['\n'].intercalate ((pre ++ post).map Str.stripLine)) := by
  unfold stripBlock Str.lines
  simp only [findIdx_lines]
  have hi : (splitInclusive '\n' s).findIdx? (fun l => decide (Str.trim l = beginMark)) =
      some pre.length := h.eq ▸ findIdx_append h.before h.isBegin
  have hdrop : ((splitInclusive '\n' s).map Str.stripLine).drop (pre.length + 1) =
      (mid ++ e :: post).map Str.stripLine := by
    rw [h.eq, ← List.map_drop]
    simp
  have hj : (mid ++ e :: post).findIdx? (fun l => decide (Str.trim l = endMark)) =
      some mid.length := findIdx_append h.between h.isEnd
  simp only [hi, hdrop, findIdx_lines, hj]
  have hrest : ((splitInclusive '\n' s).map Str.stripLine).take pre.length ++
      ((splitInclusive '\n' s).map Str.stripLine).drop (pre.length + 1 + mid.length + 1) =
        (pre ++ post).map Str.stripLine := by
    rw [h.eq, ← List.map_take, ← List.map_drop, ← List.map_append]
    congr 2
    · simp
    · rw [show pre ++ b :: (mid ++ e :: post) = (pre ++ b :: mid ++ [e]) ++ post by simp,
        List.drop_left' (by simp; omega)]
  rw [hrest]

-- ---------------------------------------------------------------------------
-- What is kept of the user's lines
-- ---------------------------------------------------------------------------

/-- Behind `top`, which the operation wrote, the user's lines are there as
before, or nothing was done. -/
def Keeps (top : Str) (f : ConfigFile) (r : Except IoError Unit × ConfigFile) : Prop :=
  (∃ e, r = (.error e, f)) ∨
    ∃ below, r.2.content = utf8 top ++ below ∧ (userLines f.content).Sublist (raw 0x0A below)

/-- The block that is taken out begins once, and no line beside it ends in a
carriage return and a newline. -/
def Arranged (s : Str) : Prop :=
  ∀ pre b mid e post, marks.Cut pre b mid e post (splitInclusive '\n' s) →
    (∀ l ∈ mid, marks.isBegin l = false) ∧ ∀ l ∈ pre ++ post, ¬ ['\r', '\n'] <:+ l

theorem suffix_concat {x : Str} {c d : Char} : [c, d] <:+ x ++ [d] ↔ x.getLast? = some c := by
  rw [List.suffix_concat_iff]
  constructor
  · rintro (h | ⟨t, ht, hs⟩)
    · cases h
    · obtain rfl : t = [c] := (List.append_inj_left' (show [c] ++ [d] = t ++ [d] from ht) rfl).symm
      obtain ⟨y, rfl⟩ := hs
      simp
  · intro h
    exact .inr ⟨[c], rfl, x.dropLast, List.dropLast_append_getLast? c h⟩

theorem stripLine_line : Str.stripLine (l ++ ['\n']) = Lines.content '\r' l := by
  simp [Str.stripLine]

theorem stripLine_last (h : '\n' ∉ l) : Str.stripLine l = l :=
  if_neg fun hl => h (List.mem_of_getLast? hl)

/-- A line is taken as it is, but for a carriage return at its end. -/
theorem stripLine_begins (h : l ∈ splitInclusive '\n' s) :
    Str.stripLine l <+: Lines.content '\n' l ∧
      (Str.stripLine l = Lines.content '\n' l ↔ ¬ ['\r', '\n'] <:+ l) := by
  obtain ⟨x, rfl, hx⟩ | hl := piece_cases h
  · rw [stripLine_line, content_line, content_eq_self, suffix_concat]
    exact ⟨content_isPrefix, Iff.rfl⟩
  · rw [stripLine_last hl, content_last hl]
    exact ⟨List.prefix_rfl, iff_of_true rfl fun hs => hl (hs.mem (by simp))⟩

theorem notMem_stripLine (h : l ∈ splitInclusive '\n' s) : '\n' ∉ Str.stripLine l := fun hm =>
  notMem_of_mem_raw (List.mem_map.mpr ⟨l, h, rfl⟩) ((stripLine_begins h).1.subset hm)

theorem mem_of_cut (h : marks.Cut pre b mid e post (splitInclusive '\n' s)) (hl : l ∈ pre ++ post) :
    l ∈ splitInclusive '\n' s := by
  rw [h.eq]
  exact (List.mem_append.mp hl).elim (fun hl => by simp [hl]) fun hl => by simp [hl]

theorem raw_stripBlock (h : marks.Cut pre b mid e post (splitInclusive '\n' s)) :
    raw '\n' (stripBlock s) = trimBlank ((pre ++ post).map Str.stripLine) := by
  rw [stripBlock_cut h]
  refine raw_trimSep_join fun _ hm => ?_
  obtain ⟨l, hl, rfl⟩ := List.mem_map.mp hm
  exact notMem_stripLine (mem_of_cut h hl)

/-- The lines of what `stripBlock` leaves are the user's where the text is
arranged. -/
theorem kept_iff :
    (trimBlank ((marks.outside (splitInclusive '\n' s)).map (Lines.content '\n'))).Sublist
      (raw '\n' (stripBlock s)) ↔ Arranged s := by
  obtain h | ⟨pre, b, mid, e, post, h⟩ := marks.uncut_or_cut (splitInclusive '\n' s)
  · rw [h.outside, stripBlock_uncut h]
    exact iff_of_true trimBlank_sublist fun _ _ _ _ _ hc => absurd h hc.not_uncut
  have hle (l : Str) (hl : l ∈ pre ++ post) :
      (Str.stripLine l).length ≤ (Lines.content '\n' l).length :=
    (stripLine_begins (mem_of_cut h hl)).1.length_le
  rw [raw_stripBlock h]
  by_cases hmid : ∀ l ∈ mid, marks.isBegin l = false
  · rw [h.outside hmid]
    constructor
    · intro hs pre' b' mid' e' post' h'
      obtain ⟨rfl, rfl, rfl⟩ := h.unique h'
      refine ⟨hmid, fun l hl hcr => ?_⟩
      obtain ⟨hpre, heq⟩ := stripLine_begins (mem_of_cut h hl)
      have hlt := List.sum_lt_sum (List.length ∘ Str.stripLine) (List.length ∘ Lines.content '\n')
        hle ⟨l, hl, hpre.length_le.lt_of_ne fun hlen => heq.mp (hpre.eq_of_length hlen) hcr⟩
      have hsum := sum_length_le_of_sublist hs
      rw [List.map_map, List.map_map] at hsum
      omega
    · intro ha
      have heq : ∀ l ∈ pre ++ post, Lines.content '\n' l = Str.stripLine l := fun l hl =>
        ((stripLine_begins (mem_of_cut h hl)).2.mpr ((ha pre b mid e post h).2 l hl)).symm
      rw [List.map_congr_left heq]
  -- a beginning inside the cut stays the user's, and the cut takes it
  · refine iff_of_false (fun hs => ?_) fun ha => hmid (ha pre b mid e post h).1
    have hb : ∃ l ∈ mid, marks.isBegin l = true := by simpa using hmid
    have hsum := sum_length_le_of_sublist hs
    have hout := (((h.sublist_outside hb).map (Lines.content '\n')).map List.length).sum_le_sum
      fun _ _ => Nat.zero_le _
    have hins : ((pre ++ post).map (List.length ∘ Str.stripLine)).sum ≤
        ((pre ++ post).map (List.length ∘ Lines.content '\n')).sum := List.sum_le_sum hle
    have hpos : 0 < (Lines.content '\n' b).length := List.length_pos_of_ne_nil fun hnil => by
      have hm : Str.trim b = beginMark := of_decide_eq_true h.isBegin
      rw [← Str.trim_content, hnil] at hm
      exact absurd hm (by decide)
    simp only [List.map_map, List.map_append, List.map_cons, List.sum_append, List.sum_cons]
      at hsum hout hins
    omega

/-- Empty lines around them make no difference. -/
theorem kept_between {ls : List Str} {body : Str} :
    (trimBlank ls).Sublist (raw '\n' (body ++ ['\n'])) ↔
      (trimBlank ls).Sublist (raw '\n' body) := by
  obtain h | h := @raw_concat _ _ '\n' body
  · rw [h]
  · rw [h, trimBlank_sublist_concat]

theorem raw_utf8 : raw 0x0A (utf8 s) = (raw '\n' s).map utf8 := by
  have hc : Lines.content 0x0A ∘ utf8 = utf8 ∘ Lines.content '\n' := funext fun _ => content_utf8
  rw [raw, splitInclusive_utf8, List.map_map, hc, ← List.map_map]
  rfl

theorem sublist_utf8 {xs ys : List Str} :
    (xs.map utf8).Sublist (ys.map utf8) ↔ xs.Sublist ys := by
  refine ⟨fun h => ?_, fun h => h.map utf8⟩
  obtain ⟨zs, hzs, heq⟩ := List.sublist_map_iff.mp h
  rwa [utf8_injective.list_map heq]

theorem userLines_sublist {content : Bytes} : (userLines content).Sublist (raw 0x0A content) :=
  trimBlank_sublist.trans (Marks.outside_sublist.map _)

/-- What is left of a text, between newlines. -/
theorem kept_rest (ht : t = stripBlock s ∨ t = '\n' :: stripBlock s ++ ['\n'] ∨
    t = stripBlock s ++ ['\n']) :
    (userLines (utf8 s)).Sublist (raw 0x0A (utf8 t)) ↔ Arranged s := by
  rw [userLines_utf8, raw_utf8, sublist_utf8, ← kept_iff]
  obtain rfl | rfl | rfl := ht
  · rfl
  · have hline : raw '\n' ('\n' :: stripBlock s ++ ['\n']) =
        [] :: raw '\n' (stripBlock s ++ ['\n']) :=
      raw_line List.not_mem_nil
    rw [hline, trimBlank_sublist_cons, kept_between]
  · rw [kept_between]

-- ---------------------------------------------------------------------------
-- The file afterwards
-- ---------------------------------------------------------------------------

/-- Whether a file can be written and put in place. -/
def Syscalls.Writes (os : Syscalls) : Prop := os.write ∧ os.setPermissions ∧ os.rename

def Syscalls.Enables (os : Syscalls) : Prop := os.createDirAll ∧ os.setDirPermissions ∧ os.Writes

theorem writeAtomic_cases {content : Str} :
    os.Writes ∧ writeAtomic os content f = (.ok (), .file (utf8 content) true) ∨
      ¬os.Writes ∧ writeAtomic os content f = (.error .other, f) := by
  obtain ⟨_, _, w, p, r⟩ := os
  cases w <;> cases p <;> cases r <;> simp [writeAtomic, Syscalls.Writes]

theorem enable_cases :
    os.Enables ∧ enable os agentSock f =
        (.ok (), .file (utf8 (withBlock agentSock ((readToString f).toOption.getD []))) true) ∨
      ¬os.Enables ∧ enable os agentSock f = (.error .other, f) := by
  obtain hw | hw :=
    @writeAtomic_cases f os (withBlock agentSock ((readToString f).toOption.getD []))
  all_goals
    rw [enable, hw.2]
    obtain ⟨c, d, _⟩ := os
    cases c <;> cases d <;> simp [Syscalls.Enables, hw.1]

theorem keeps_untouched {top : Str} {e : IoError} : Keeps top f (.error e, f) := .inl ⟨e, rfl⟩

theorem keeps_same {r : Except IoError Unit} : Keeps [] f (r, f) :=
  .inr ⟨f.content, rfl, userLines_sublist⟩

/-- Where a text was written, what counts is what it has below. -/
theorem keeps_written {top : Str} :
    Keeps top f (.ok (), .file (utf8 (top ++ t)) true) ↔
      (userLines f.content).Sublist (raw 0x0A (utf8 t)) := by
  constructor
  · rintro (⟨e, he⟩ | ⟨below, hb, hs⟩)
    · cases congrArg Prod.fst he
    · have heq : utf8 top ++ utf8 t = utf8 top ++ below := utf8_append.symm.trans hb
      rwa [List.append_cancel_left heq]
  · exact fun h => .inr ⟨utf8 t, utf8_append, h⟩

theorem content_of_read (h : readToString f = .ok s) : f.content = utf8 s := by
  cases f with
  | absent => cases h
  | file content readable =>
    cases readable with
    | false => cases h
    | true =>
      cases hs : Utf8.strict content with
      | none =>
        have he : readToString (.file content true) = .error .invalidData := by
          simp [readToString, hs]
        cases he.symm.trans h
      | some t =>
        have he : readToString (.file content true) = .ok t := by simp [readToString, hs]
        cases he.symm.trans h
        exact Utf8.strict_eq_some.mp hs

theorem contains_of_cut (h : marks.Cut pre b mid e post (splitInclusive '\n' s)) :
    Str.contains beginMark s = true := by
  have hb : Str.trim b = beginMark := of_decide_eq_true h.isBegin
  have hmem : b ∈ splitInclusive '\n' s := by rw [h.eq]; simp
  rw [Str.contains_iff, ← hb]
  exact Str.trim_infix.trans (infix_of_mem hmem)

/-- The text the file is read as, where it is, is arranged. -/
def ConfigFile.Arranged (f : ConfigFile) : Prop :=
  ∀ s, readToString f = .ok s → SshConfig.Arranged s

theorem arranged_of_read (h : readToString f = .ok s) : f.Arranged ↔ Arranged s := by
  simp [ConfigFile.Arranged, h]

/-- Exactly when no line of the user's is lost. -/
theorem user_lines_kept :
    (Keeps (block agentSock) f (enable os agentSock f) ↔ ¬os.Enables ∨
      f.Arranged ∧ ((readToString f).toOption = none → userLines f.content = [])) ∧
    (Keeps [] f (disable os f) ↔ ¬os.Writes ∨ f.Arranged) := by
  constructor
  · obtain ⟨he, h⟩ | ⟨he, h⟩ := @enable_cases agentSock f os
    · rw [h]
      cases hr : readToString f with
      | error e =>
        have ha : f.Arranged := fun s hs => by cases hr.symm.trans hs
        refine (@keeps_written [] f (block agentSock)).trans ?_
        refine List.sublist_nil.trans ⟨fun hnil => .inr ⟨ha, fun _ => hnil⟩, fun hor => ?_⟩
        exact (hor.resolve_left (not_not.mpr he)).2 rfl
      | ok s =>
        have hex : (Except.ok s : Except IoError Str).toOption.getD [] = s := rfl
        rw [arranged_of_read hr, hex, withBlock, keeps_written, content_of_read hr]
        have hiff : (¬os.Enables ∨ Arranged s ∧
            ((some s : Option Str) = none → userLines (utf8 s) = [])) ↔ Arranged s := by simp [he]
        refine Iff.trans ?_ hiff.symm
        split
        next hnil => exact kept_rest (.inl hnil.symm)
        · exact kept_rest (.inr (.inl rfl))
    · rw [h]
      exact iff_of_true keeps_untouched (.inl he)
  · unfold disable
    cases hr : readToString f with
    | error e =>
      have ha : f.Arranged := fun s hs => by cases hr.symm.trans hs
      cases e <;> exact iff_of_true keeps_same (.inr ha)
    | ok s =>
      rw [arranged_of_read hr]
      dsimp only
      split
      next hc =>
        refine iff_of_true keeps_same (.inr fun _ _ _ _ _ hcut => ?_)
        simp [contains_of_cut hcut] at hc
      next hc =>
        obtain ⟨hw, h⟩ | ⟨hw, h⟩ := @writeAtomic_cases f os (withoutBlock s)
        · rw [h]
          refine (@keeps_written (withoutBlock s) f []).trans ?_
          rw [withoutBlock, content_of_read hr, or_iff_right (not_not.mpr hw)]
          split
          next hnil => exact kept_rest (.inl hnil.symm)
          · exact kept_rest (.inr (.inr rfl))
        · rw [h]
          exact iff_of_true keeps_untouched (.inl hw)

/-- A file that is no text is written over. -/
theorem enable_loses_line :
    let agentSock := utf8 "/run/immurok/agent.sock"
    let f : ConfigFile := .file (utf8 "Host mine\n" ++ [0xFF]) true
    let r := enable allSucceed agentSock f
    r.1 = .ok () ∧ utf8 "Host mine" ∈ userLines f.content ∧
      utf8 "Host mine" ∉ raw 0x0A r.2.content :=
  ⟨rfl, by decide, by decide⟩

-- ---------------------------------------------------------------------------
-- On and off
-- ---------------------------------------------------------------------------

def agentLine (agentSock : Bytes) : Str :=
  "    IdentityAgent ".toList ++ Utf8.lossy agentSock ++ ['\n']

/-- What is written below the block. -/
def below (body : Str) : Str := if body = [] then [] else '\n' :: body ++ ['\n']

theorem withBlock_eq : withBlock agentSock s = block agentSock ++ below (stripBlock s) := rfl

theorem below_injective : Function.Injective below := by
  intro x y h
  unfold below at h
  split at h <;> split at h
  next hx hy => rw [hx, hy]
  · cases h
  · cases h
  · exact List.append_cancel_right (List.cons.inj h).2

theorem block_pieces {rest : Str} : splitInclusive '\n' (block agentSock ++ rest) =
    (beginMark ++ ['\n']) :: "Host *\n".toList :: (splitInclusive '\n' (agentLine agentSock) ++
      (endMark ++ ['\n']) :: splitInclusive '\n' rest) := by
  have h : block agentSock ++ rest = beginMark ++ '\n' :: ("Host *".toList ++ '\n' ::
      (("    IdentityAgent ".toList ++ Utf8.lossy agentSock) ++ '\n' ::
        (endMark ++ '\n' :: rest))) := by
    simp [block, List.append_assoc]
  have hb : '\n' ∉ beginMark := by decide
  have hh : '\n' ∉ "Host *".toList := by decide
  have he : '\n' ∉ endMark := by decide
  rw [h, splitInclusive_line hb, splitInclusive_line hh, splitInclusive_append,
    splitInclusive_line he]
  rfl

/-- A path whose lines are no markers where it is put in. -/
def SockPlain (agentSock : Bytes) : Prop :=
  (∃ p : Str, agentSock = utf8 p) ∧ ∀ l ∈ splitInclusive '\n' (agentLine agentSock),
    marks.isBegin l = false ∧ marks.isEnd l = false

theorem block_cut {rest : Str} (h : SockPlain agentSock) :
    marks.Cut [] (beginMark ++ ['\n'])
      ("Host *\n".toList :: splitInclusive '\n' (agentLine agentSock)) (endMark ++ ['\n']) (splitInclusive '\n' rest)
      (splitInclusive '\n' (block agentSock ++ rest)) where
  eq := block_pieces
  before := nofun
  isBegin := by decide
  between l hl := by
    obtain rfl | hl := List.mem_cons.mp hl
    · decide
    · exact (h.2 l hl).2
  isEnd := by decide

/-- What the next operation takes for the user's, and whether it is what was
written. -/
theorem join_below {body : Str} :
    Str.trimNewlines (['\n'].intercalate (Str.lines (below body))) = body ↔
      Str.trimNewlines body = body ∧ ∀ l ∈ raw '\n' body, l.getLast? ≠ some '\r' := by
  unfold below
  by_cases hnil : body = []
  · rw [if_pos hnil, hnil]
    exact iff_of_true rfl ⟨rfl, nofun⟩
  · rw [if_neg hnil, ← Str.trimNewlines_join_lines]
    have hline : Str.lines ('\n' :: body ++ ['\n']) = [] :: Str.lines (body ++ ['\n']) := by
      rw [Str.lines, show '\n' :: body ++ ['\n'] = [] ++ '\n' :: (body ++ ['\n']) from rfl,
        splitInclusive_line List.not_mem_nil]
      rfl
    have hne : Str.lines (body ++ ['\n']) ≠ [] := fun h => by
      simpa using splitInclusive_eq_nil.mp (List.map_eq_nil_iff.mp h)
    rw [hline, List.intercalate_cons_of_ne_nil hne, List.nil_append]
    exact iff_of_eq (congrArg (· = body) (Str.trimMatches_cons rfl))

theorem stripBlock_written {rest : Str} (h : SockPlain agentSock) :
    stripBlock (block agentSock ++ rest) =
      Str.trimNewlines (['\n'].intercalate (Str.lines rest)) :=
  stripBlock_cut (block_cut h)

/-- One block, of the first lines, which names the socket. -/
def Heads (agentSock : Bytes) (f : ConfigFile) : Prop :=
  ∃ rest, f.content = utf8 (beginMark ++ "\nHost *\n    IdentityAgent ".toList) ++ agentSock ++
      0x0A :: (utf8 (endMark ++ ['\n']) ++ rest) ∧
    fileMarks.outside (splitInclusive 0x0A f.content) = splitInclusive 0x0A rest ∧
    fileMarks.blocks false (splitInclusive 0x0A f.content) = 1

/-- What turning the agent on and off makes of a file of the text `s`. -/
structure Toggles (agentSock : Bytes) (s : Str) : Prop where
  idempotent : ∀ os f, enable os agentSock (.file (utf8 s) true) = (.ok (), f) →
    ∀ os', (enable os' agentSock f).2 = f
  heads : ∀ os f, enable os agentSock (.file (utf8 s) true) = (.ok (), f) → Heads agentSock f
  restores : marks.blocks false (splitInclusive '\n' s) = 0 → ∀ os f os' f',
    enable os agentSock (.file (utf8 s) true) = (.ok (), f) → disable os' f = (.ok (), f') →
      ∃ t, f' = .file (utf8 t) true ∧ Str.trimNewlines t = Str.trimNewlines s
  off : ∀ os f, disable os (.file (utf8 s) true) = (.ok (), f) → isEnabled f = false

/-- A text without a marker that is written and read again as it is. -/
def Settled (body : Str) : Prop :=
  Str.contains beginMark body = false ∧ Str.trimNewlines body = body ∧
    ∀ l ∈ raw '\n' body, l.getLast? ≠ some '\r'

theorem read_utf8 : readToString (.file (utf8 s) true) = .ok s := by
  simp [readToString, strict_utf8]

theorem enable_text (h : enable os agentSock (.file (utf8 s) true) = (.ok (), f)) :
    f = .file (utf8 (withBlock agentSock s)) true := by
  obtain ⟨-, he⟩ | ⟨-, he⟩ := @enable_cases agentSock (.file (utf8 s) true) os
  · rw [read_utf8] at he
    exact (Prod.mk.inj (h.symm.trans he)).2
  · cases congrArg Prod.fst (h.symm.trans he)

/-- What is there once the agent was turned off. -/
def disabled (s : Str) : Str := if Str.contains beginMark s then withoutBlock s else s

theorem disable_text (h : disable os (.file (utf8 s) true) = (.ok (), f)) :
    f = .file (utf8 (disabled s)) true := by
  rw [disable, read_utf8] at h
  unfold disabled
  dsimp only at h
  split at h
  next hc =>
    rw [if_neg (by simpa using hc)]
    exact (Prod.mk.inj h).2.symm
  next hc =>
    rw [if_pos (by simpa using hc)]
    obtain ⟨-, hw⟩ | ⟨-, hw⟩ := @writeAtomic_cases (.file (utf8 s) true) os (withoutBlock s)
    · exact (Prod.mk.inj (h.symm.trans hw)).2
    · cases congrArg Prod.fst (h.symm.trans hw)

theorem enable_allSucceed : enable allSucceed agentSock (.file (utf8 s) true) =
    (.ok (), .file (utf8 (withBlock agentSock s)) true) := by
  simp [enable, writeAtomic, allSucceed, read_utf8, Except.toOption]

theorem disable_allSucceed : disable allSucceed (.file (utf8 s) true) =
    (.ok (), .file (utf8 (disabled s)) true) := by
  rw [disable, read_utf8, disabled]
  cases hc : Str.contains beginMark s <;> simp [hc, writeAtomic, allSucceed]

theorem isEnabled_text : isEnabled (.file (utf8 s) true) = Str.contains beginMark s := by
  rw [isEnabled, read_utf8]

theorem splits_utf8 {bs rest : Bytes} (h : utf8 s = bs ++ 0x0A :: rest) : ∃ x, bs = utf8 x := by
  induction s generalizing bs with
  | nil => simp [utf8] at h
  | cons c s ih =>
    have hc : utf8 (c :: s) = String.utf8EncodeChar c ++ utf8 s := rfl
    rw [hc] at h
    obtain ⟨as, rfl, has⟩ | ⟨as, has, hs⟩ := List.append_eq_append_iff.mp h
    · obtain ⟨x, rfl⟩ := ih has
      exact ⟨c :: x, rfl⟩
    · cases as with
      | nil =>
        rw [List.append_nil] at has
        exact ⟨[c], by rw [← has]; simp [utf8]⟩
      | cons a as =>
        obtain ⟨rfl, -⟩ := List.cons.inj hs
        have hm : (0x0A : UInt8) ∈ String.utf8EncodeChar c := by rw [has]; simp
        have hone := (Utf8.ascii_mem_char (by decide) hm).1
        rw [hone] at has
        cases bs with
        | nil => exact ⟨[], rfl⟩
        | cons b bs => simp at has

theorem strict_begins {bs : Bytes} (h : utf8 s = utf8 t ++ bs) : ∃ x, bs = utf8 x := by
  induction t generalizing s with
  | nil => exact ⟨s, h.symm⟩
  | cons c t ih =>
    have hs : Utf8.strict (utf8 (c :: t) ++ bs) = (Utf8.strict (utf8 t ++ bs)).map (c :: ·) := by
      rw [show utf8 (c :: t) ++ bs = String.utf8EncodeChar c ++ (utf8 t ++ bs) by simp [utf8]]
      exact Utf8.strictFrom_char
    rw [← h, strict_utf8] at hs
    obtain ⟨s', hs', -⟩ := Option.map_eq_some_iff.mp hs.symm
    exact ih (Utf8.strict_eq_some.mp hs').symm

theorem outside_utf8 : fileMarks.outside (splitInclusive 0x0A (utf8 s)) =
    (marks.outside (splitInclusive '\n' s)).map utf8 := by
  rw [splitInclusive_utf8, Marks.comap_outside, fileMarks_utf8]

theorem blocks_utf8 : fileMarks.blocks false (splitInclusive 0x0A (utf8 s)) =
    marks.blocks false (splitInclusive '\n' s) := by
  rw [splitInclusive_utf8, Marks.comap_blocks, fileMarks_utf8]

theorem block_utf8 {p rest : Str} : utf8 (block (utf8 p) ++ rest) =
    utf8 (beginMark ++ "\nHost *\n    IdentityAgent ".toList) ++ utf8 p ++
      0x0A :: (utf8 (endMark ++ ['\n']) ++ utf8 rest) := by
  have hp : Utf8.lossy (utf8 p) = p := Utf8.lossy_encode
  rw [block, hp]
  simp only [List.append_assoc, utf8_append]
  rfl

theorem sockPlain_of_heads {rest : Str}
    (h : Heads agentSock (.file (utf8 (block agentSock ++ rest)) true)) : SockPlain agentSock := by
  obtain ⟨rest', heq, hout, -⟩ := h
  obtain ⟨x, hx⟩ := splits_utf8 (heq : utf8 _ = _)
  obtain ⟨p, rfl⟩ := strict_begins hx.symm
  refine ⟨⟨p, rfl⟩, ?_⟩
  have hrest : rest' = utf8 rest := by
    have := (block_utf8).symm.trans (heq : utf8 _ = _)
    simpa using this.symm
  have hlen : (marks.outside (splitInclusive '\n' (block (utf8 p) ++ rest))).length =
      (splitInclusive '\n' rest).length := by
    have := congrArg List.length ((outside_utf8).symm.trans hout)
    rwa [List.length_map, hrest, splitInclusive_utf8, List.length_map] at this
  -- a marker in the path leaves more outside than what is below the block
  have hhost : ∀ l ∈ ["Host *\n".toList], marks.isEnd l = false := by decide
  obtain hno | ⟨xs, y, ys, hsplit, hxs, hy⟩ := Marks.first_or marks.isEnd
    (splitInclusive '\n' (agentLine (utf8 p)))
  · have hcut : marks.Cut [] (beginMark ++ ['\n'])
        ("Host *\n".toList :: splitInclusive '\n' (agentLine (utf8 p))) (endMark ++ ['\n'])
        (splitInclusive '\n' rest) (splitInclusive '\n' (block (utf8 p) ++ rest)) :=
      ⟨block_pieces, nofun, by decide, List.forall_mem_cons.mpr ⟨by decide, hno⟩, by decide⟩
    exact fun l hl => ⟨hcut.post_of_length hlen.le l (List.mem_cons_of_mem _ hl), hno l hl⟩
  · have hcut : marks.Cut [] (beginMark ++ ['\n']) ("Host *\n".toList :: xs) y
        (ys ++ (endMark ++ ['\n']) :: splitInclusive '\n' rest)
        (splitInclusive '\n' (block (utf8 p) ++ rest)) :=
      ⟨by rw [block_pieces, hsplit]; simp, nofun, by decide,
        List.forall_mem_cons.mpr ⟨by decide, hxs⟩, hy⟩
    have hlong : (splitInclusive '\n' rest).length <
        (ys ++ (endMark ++ ['\n']) :: splitInclusive '\n' rest).length := by
      simp
      omega
    have hout := hcut.outside (hcut.post_of_length (by omega))
    rw [hout] at hlen
    exact absurd hlen (by simpa using hlong.ne')

theorem newline_notMem_beginMark : '\n' ∉ beginMark := by decide

theorem beginMark_ne_nil : beginMark ≠ [] := by decide

theorem contains_below {body : Str} :
    Str.contains beginMark (below body) = Str.contains beginMark body := by
  unfold below
  split
  next hnil => rw [hnil]
  · rw [Str.contains_concat newline_notMem_beginMark beginMark_ne_nil,
      Str.contains_cons newline_notMem_beginMark beginMark_ne_nil]

theorem contains_withoutBlock :
    Str.contains beginMark (withoutBlock s) = Str.contains beginMark (stripBlock s) := by
  unfold withoutBlock
  dsimp only
  split
  next hnil => rw [hnil]
  · rw [Str.contains_concat newline_notMem_beginMark beginMark_ne_nil]

theorem uncut_of_not_contains (h : Str.contains beginMark s = false) :
    marks.Uncut (splitInclusive '\n' s) :=
  (marks.uncut_or_cut _).resolve_right fun ⟨_, _, _, _, _, hc⟩ => by
    rw [contains_of_cut hc] at h
    cases h

theorem heads_withBlock (hs : SockPlain agentSock)
    (hb : Str.contains beginMark (stripBlock s) = false) :
    Heads agentSock (.file (utf8 (withBlock agentSock s)) true) := by
  have hcut := @block_cut agentSock (below (stripBlock s)) hs
  obtain ⟨⟨p, rfl⟩, hplain⟩ := hs
  refine ⟨utf8 (below (stripBlock s)), block_utf8, ?_, ?_⟩
  · have hmid : ∀ l ∈ "Host *\n".toList :: splitInclusive '\n' (agentLine (utf8 p)),
        marks.isBegin l = false :=
      List.forall_mem_cons.mpr ⟨by decide, fun l hl => (hplain l hl).1⟩
    exact (outside_utf8).trans ((congrArg (List.map utf8) (hcut.outside hmid)).trans
      splitInclusive_utf8.symm)
  · have hu := uncut_of_not_contains ((contains_below).trans hb)
    refine (blocks_utf8).trans (hcut.blocks.trans ?_)
    rw [Marks.uncut_iff.mp hu]

theorem stripBlock_withBlock (hs : SockPlain agentSock) :
    stripBlock (withBlock agentSock s) = stripBlock s ↔
      Str.trimNewlines (stripBlock s) = stripBlock s ∧ ∀ l ∈ raw '\n' (stripBlock s), l.getLast? ≠ some '\r' := by
  rw [withBlock_eq, stripBlock_written hs, join_below]

theorem contains_withBlock : Str.contains beginMark (withBlock agentSock s) = true := by
  rw [Str.contains_iff, withBlock_eq, block]
  simp only [List.append_assoc]
  exact (List.prefix_append _ _).isInfix

theorem trimNewlines_withoutBlock :
    Str.trimNewlines (withoutBlock s) = Str.trimNewlines (stripBlock s) := by
  unfold withoutBlock
  dsimp only
  split
  next hnil => rw [hnil]
  · exact Str.trimMatches_concat rfl

/-- By what is left of the text without the block. -/
theorem toggles_body :
    Toggles agentSock s ↔ SockPlain agentSock ∧ Settled (stripBlock s) := by
  constructor
  · intro h
    have hs := sockPlain_of_heads (h.heads allSucceed _ enable_allSucceed)
    refine ⟨hs, ?_, ?_⟩
    · have hoff := h.off allSucceed _ disable_allSucceed
      rw [isEnabled_text, disabled] at hoff
      split at hoff
      · exact (contains_withoutBlock).symm.trans hoff
      next hc => rwa [stripBlock_uncut (uncut_of_not_contains hoff)]
    · have hid := h.idempotent allSucceed _ enable_allSucceed allSucceed
      rw [enable_allSucceed] at hid
      have heq : withBlock agentSock (withBlock agentSock s) = withBlock agentSock s :=
        utf8_injective (ConfigFile.file.inj hid).1
      exact (stripBlock_withBlock hs).mp (below_injective (List.append_cancel_left heq))
  · rintro ⟨hs, hb, hsteady⟩
    have hstrip := (stripBlock_withBlock hs).mpr hsteady
    refine ⟨fun os f h os' => ?_, fun os f h => ?_, fun h0 os f os' f' h h' => ?_, fun os f h => ?_⟩
    · rw [enable_text h]
      obtain ⟨-, he⟩ | ⟨-, he⟩ := @enable_cases agentSock _ os'
      · rw [he, read_utf8, withBlock_eq, Except.toOption, Option.getD_some, hstrip, ← withBlock_eq]
      · rw [he]
    · rw [enable_text h]
      exact heads_withBlock hs hb
    · rw [enable_text h] at h'
      refine ⟨_, disable_text h', ?_⟩
      rw [disabled, if_pos contains_withBlock, trimNewlines_withoutBlock, hstrip,
        stripBlock_uncut (Marks.uncut_iff.mpr h0)]
    · rw [disable_text h, isEnabled_text, disabled]
      split
      · exact (contains_withoutBlock).trans hb
      next hc => simpa using hc

/-- Of a text where a block ends nothing else is a marker and no line ends in a
carriage return; one where no block ends is settled. -/
def Steady (s : Str) : Prop :=
  (marks.Uncut (splitInclusive '\n' s) → Settled s) ∧
    ∀ pre b mid e post, marks.Cut pre b mid e post (splitInclusive '\n' s) →
      ∀ l ∈ (pre ++ post).map Str.stripLine,
        Str.contains beginMark l = false ∧ l.getLast? ≠ some '\r'

theorem steady_iff : Steady s ↔ Settled (stripBlock s) := by
  obtain h | ⟨pre, b, mid, e, post, h⟩ := marks.uncut_or_cut (splitInclusive '\n' s)
  · rw [stripBlock_uncut h]
    exact ⟨fun hs => hs.1 h, fun hs => ⟨fun _ => hs, fun _ _ _ _ _ hc => absurd h hc.not_uncut⟩⟩
  · have htrim : Str.trimNewlines (stripBlock s) = stripBlock s := by
      rw [stripBlock_cut h]
      exact Str.trimMatches_idem
    have hcontains : Str.contains beginMark (stripBlock s) = false ↔
        ∀ l ∈ raw '\n' (stripBlock s), Str.contains beginMark l = false := by
      simp only [← Bool.not_eq_true, Str.contains_iff]
      rw [infix_iff_raw newline_notMem_beginMark beginMark_ne_nil]
      exact not_exists.trans (forall_congr' fun l => not_and)
    have hlines : Settled (stripBlock s) ↔ ∀ l ∈ (pre ++ post).map Str.stripLine,
        Str.contains beginMark l = false ∧ l.getLast? ≠ some '\r' := by
      rw [Settled, hcontains, raw_stripBlock h, and_iff_right htrim]
      exact forall₂_and.symm.trans (forall_mem_trimBlank ⟨by decide, nofun⟩)
    rw [hlines]
    refine ⟨fun hs => hs.2 pre b mid e post h, fun hs => ⟨fun hu => absurd hu h.not_uncut, ?_⟩⟩
    intro pre' b' mid' e' post' h'
    obtain ⟨rfl, rfl, rfl⟩ := h.unique h'
    exact hs

/-- Exactly when the agent is turned on and off as it should be. -/
theorem toggles_iff : Toggles agentSock s ↔ SockPlain agentSock ∧ Steady s := by
  rw [toggles_body, steady_iff]

/-- Turned on twice, a file that ends in a newline has one less behind it. -/
theorem enable_twice :
    let agentSock := utf8 "/run/immurok/agent.sock"
    let r := enable allSucceed agentSock (.file (utf8 "Host mine\n") true)
    let r' := enable allSucceed agentSock r.2
    r.1 = .ok () ∧ r'.1 = .ok () ∧ r'.2.content.length + 1 = r.2.content.length :=
  ⟨rfl, rfl, by decide +kernel⟩

end Immurok.SshConfig
