import Immurok.Daemon.Socket
import Immurok.Text.Lines

/-!
# The rule in a PAM file

What the helper script does to the file of a service: its rule is put in front of
the first rule it knows, and taken out again.
-/

namespace Immurok.PamHelper

open Lines

def pamLine : Bytes := utf8 "auth        sufficient    pam_immurok.so".toList

def pamModule : Bytes := utf8 "pam_immurok.so".toList

def createdMark : Bytes := utf8 "Created by immurok".toList

-- ---------------------------------------------------------------------------
-- The tools
-- ---------------------------------------------------------------------------

/-- What `grep` does with a file depends on the locale, which is one with ASCII as
it is: what is a space, and which files are not text. -/
structure Tools where
  /-- What stands in front of these bytes is matched by `[[:space:]]`. -/
  spaceAt : Bytes → Bool
  spaceAt_nil : spaceAt [] = false
  spaceAt_ascii {b : UInt8} {bs : Bytes} (h : b < 0x80) :
    spaceAt (b :: bs) = decide (b = 0x20 ∨ 0x09 ≤ b ∧ b ≤ 0x0D)
  /-- No matching line is shown, but a message that there is one. -/
  takesBinary : Bytes → Bool
  takesBinary_text {content : Bytes} (h : (Utf8.strict content).isSome) (h0 : 0 ∉ content) :
    takesBinary content = false

/-- `grep -q` for a text. -/
def grepQuiet (pattern content : Bytes) : Bool :=
  (raw 0x0A content).any fun l => decide (pattern <:+: l)

/-- `sed -i` with `i\`, before the line with this number, counted from zero. -/
def sedInsert (n : Nat) (line content : Bytes) : Bytes :=
  let pieces := splitInclusive 0x0A content
  (pieces.take n).flatten ++ (line ++ 0x0A :: (pieces.drop n).flatten)

/-- `sed -i` with `d`. -/
def sedDelete (pattern content : Bytes) : Bytes :=
  ((splitInclusive 0x0A content).filter fun l => !decide (pattern <:+: l)).flatten

namespace Tools
variable (t : Tools)

/-- `^(auth[[:space:]]|@include[[:space:]])` -/
def startsRule (l : Bytes) : Bool :=
  ["auth", "@include"].any fun word =>
    (utf8 word.toList).isPrefixOf l && t.spaceAt (l.drop (utf8 word.toList).length)

/-- The line that `grep -n` shows first; `none` is a message instead of it. -/
def firstAuth (content : Bytes) : Option (Option Nat) :=
  ((raw 0x0A content).findIdx? t.startsRule).map fun n =>
    if t.takesBinary content then none else some n

end Tools

-- ---------------------------------------------------------------------------
-- The helper
-- ---------------------------------------------------------------------------

def report (what : String) (service : Str) : Str :=
  what.toList ++ "(".toList ++ service ++ ")".toList

/-- What the script finds on the system. -/
structure System where
  tools : Tools
  moduleInstalled : Bool
  /-- `password-auth` or `common-auth`. -/
  includeTarget : Str

namespace System
variable (sys : System)

def polkitTemplate : Bytes :=
  utf8 ("#%PAM-1.0\n# Created by immurok\nauth        sufficient    pam_immurok.so timeout=10".toList
    ++ "\nauth        include       ".toList ++ sys.includeTarget
    ++ "\naccount     include       ".toList ++ sys.includeTarget
    ++ "\npassword    include       ".toList ++ sys.includeTarget
    ++ "\nsession     include       ".toList ++ sys.includeTarget ++ "\n".toList)

/-- The branch `add`. With a number that is none `sed` ends with an error, and nobody
looks at that. -/
def add (service : Str) (file : Option Bytes) : Str × Option Bytes :=
  if !sys.moduleInstalled then (report "ERROR:MODULE_NOT_INSTALLED" service, file)
  else
    match file with
    | none =>
      if service = "polkit-1".toList then (report "OK:CREATED" service, some sys.polkitTemplate)
      else (report "ERROR:FILE_NOT_FOUND" service, none)
    | some content =>
      if grepQuiet pamModule content then (report "OK:ALREADY_PRESENT" service, some content)
      else
        match sys.tools.firstAuth content with
        | none => (report "ERROR:NO_AUTH_LINE" service, some content)
        | some none => (report "OK:ADDED" service, some content)
        | some (some n) => (report "OK:ADDED" service, some (sedInsert n pamLine content))

/-- The branch `remove`. -/
def remove (service : Str) (file : Option Bytes) : Str × Option Bytes :=
  match file with
  | none => (report "OK:NOT_PRESENT" service, none)
  | some content =>
    if !grepQuiet pamModule content then (report "OK:NOT_PRESENT" service, some content)
    else if service = "polkit-1".toList ∧ grepQuiet createdMark content then
      (report "OK:REMOVED" service, none)
    else (report "OK:REMOVED" service, some (sedDelete pamModule content))

/-- What is reported, and the file of the service. -/
def processOne (action service : Str) (file : Option Bytes) : Str × Option Bytes :=
  if service ≠ "sudo".toList ∧ service ≠ "gdm-password".toList ∧ service ≠ "polkit-1".toList then
    (report "ERROR:INVALID_SERVICE" service, file)
  else if action = "add".toList then sys.add service file
  else if action = "remove".toList then remove service file
  else ("ERROR:INVALID_ACTION".toList, file)

end System

/-- `pam_line_present_in`, of the file of the service. -/
def pamLinePresentIn (file : Option Bytes) : Bool :=
  match file.bind Utf8.strict with
  | some contents => Str.contains "pam_immurok.so" contents
  | none => false

-- ---------------------------------------------------------------------------
-- The rules of a file
-- ---------------------------------------------------------------------------

/-- The words between blanks and tabs. -/
def words (l : Bytes) : List Bytes :=
  (l.splitOnP fun b => b = 0x20 || b = 0x09).filter (· ≠ [])

/-- The rules so far, and the words of one that goes on. -/
structure Reading where
  rules : List (List Bytes)
  words : List Bytes
  deriving DecidableEq

/-- One line: a comment ends it, and a backslash at its end continues it. An empty
one in a rule that goes on is passed over. -/
def Reading.line (r : Reading) (l : Bytes) : Reading :=
  let text := l.takeWhile (· ≠ 0x23)
  if text = l ∧ l.getLast? = some 0x5C then { r with words := r.words ++ PamHelper.words l.dropLast }
  else if PamHelper.words text = [] then r
  else { rules := r.rules ++ [r.words ++ PamHelper.words text], words := [] }

def readRules (ls : List Bytes) : Reading := ls.foldl Reading.line ⟨[], []⟩

def Reading.all (r : Reading) : List (List Bytes) :=
  if r.words = [] then r.rules else r.rules ++ [r.words]

/-- The rules of a file, each with its words. -/
def rules (content : Bytes) : List (List Bytes) := (readRules (raw 0x0A content)).all

section
variable (sys : System) (hasAuth : List Bytes → Bool) (service : Str) (content : Bytes)

end

-- ---------------------------------------------------------------------------
-- Words and rules
-- ---------------------------------------------------------------------------

section
variable {l w : Bytes} {ls ls' : List Bytes} {r : Reading} {rs : List (List Bytes)}
  {ws rule : List Bytes}

end

-- ---------------------------------------------------------------------------
-- A line put in and taken out
-- ---------------------------------------------------------------------------

section
variable {sys : System} {service : Str} {content pattern line q : Bytes} {ps qs : List Bytes}
  {n : Nat} {hasAuth : List Bytes → Bool}

theorem grepQuiet_iff (hnl : 0x0A ∉ pattern) (hne : pattern ≠ []) :
    grepQuiet pattern content = true ↔ pattern <:+: content := by
  rw [infix_iff_raw hnl hne, grepQuiet, List.any_eq_true]
  simp only [decide_eq_true_eq]

/-- The line before which `sed` inserts. -/
theorem pieces_at (h : ((raw 0x0A content).findIdx? sys.tools.startsRule) = some n) :
    ∃ ps q qs, splitInclusive 0x0A content = ps ++ q :: qs ∧
      (raw 0x0A content).takeWhile (fun l => !sys.tools.startsRule l) = ps.map (Lines.content 0x0A) ∧
      ∀ line, sedInsert n line content = ps.flatten ++ (line ++ 0x0A :: (q :: qs).flatten) := by
  obtain ⟨hn, -⟩ := List.findIdx?_eq_some_iff_getElem.mp h
  rw [raw, List.length_map] at hn
  obtain ⟨q, qs, hdrop⟩ : ∃ q qs, (splitInclusive 0x0A content).drop n = q :: qs :=
    ⟨_, _, List.drop_eq_getElem_cons hn⟩
  refine ⟨(splitInclusive 0x0A content).take n, q, qs, ?_, ?_, ?_⟩
  · rw [← hdrop, List.take_append_drop]
  · have hidx := (List.findIdx?_eq_some_iff_findIdx_eq.mp h).2
    have hnot : (fun l => !!sys.tools.startsRule l) = sys.tools.startsRule :=
      funext fun _ => Bool.not_not _
    rw [List.takeWhile_eq_take_findIdx_not, hnot, hidx, raw, List.map_take]
  · intro line
    rw [sedInsert, ← hdrop]

theorem strict_lines {bs cs : Bytes} (h : bs = [] ∨ ∃ x, bs = x ++ [0x0A]) :
    Utf8.strict (bs ++ cs) = (Utf8.strict bs).bind fun s => (Utf8.strict cs).map (s ++ ·) := by
  obtain rfl | ⟨x, rfl⟩ := h
  · have hnil : Utf8.strict [] = some [] := rfl
    rw [List.nil_append, hnil]
    simp
  · rw [List.append_assoc]
    exact Utf8.strictFrom_append_ascii (fun _ h => nomatch h) (by decide)

/-- With the helper's line in it, a file has the line if it is text without. -/
theorem present_iff (h : splitInclusive 0x0A content = ps ++ q :: qs) :
    pamLinePresentIn (some (ps.flatten ++ (pamLine ++ 0x0A :: (q :: qs).flatten))) = true ↔
      (Utf8.strict content).isSome := by
  obtain ⟨hps, hlast⟩ := splitInclusive_before h
  have hends : ps.flatten = [] ∨ ∃ x, ps.flatten = x ++ [0x0A] := hlast.imp_left fun h => by rw [h]; rfl
  have hline : Utf8.strict (pamLine ++ [0x0A]) =
      some ("auth        sufficient    pam_immurok.so".toList ++ ['\n']) := by decide
  have hcontent : content = ps.flatten ++ (q :: qs).flatten := by
    rw [← List.flatten_append, ← h, flatten_splitInclusive]
  have hbehind : pamLine ++ 0x0A :: (q :: qs).flatten =
      pamLine ++ [0x0A] ++ (q :: qs).flatten := List.append_cons _ _ _
  rw [pamLinePresentIn, Option.bind_some, strict_lines hends, hbehind,
    strict_lines (.inr ⟨pamLine, rfl⟩), hline]
  conv_rhs => rw [hcontent, strict_lines hends]
  have hsub : "pam_immurok.so".toList <:+:
      "auth        sufficient    pam_immurok.so".toList ++ ['\n'] := by decide
  generalize "auth        sufficient    pam_immurok.so".toList ++ ['\n'] = line at hsub
  cases Utf8.strict ps.flatten with
  | none => exact iff_of_false Bool.false_ne_true Bool.false_ne_true
  | some s =>
    cases Utf8.strict (q :: qs).flatten with
    | none => exact iff_of_false Bool.false_ne_true Bool.false_ne_true
    | some t => exact iff_of_true (Str.contains_iff.mpr (hsub.trans ⟨s, t, List.append_assoc ..⟩)) rfl

-- ---------------------------------------------------------------------------
-- Adding and removing
-- ---------------------------------------------------------------------------

theorem newline_notMem : (0x0A : UInt8) ∉ pamLine ∧ (0x0A : UInt8) ∉ pamModule ∧
    (0x0A : UInt8) ∉ createdMark := by decide

end

-- ---------------------------------------------------------------------------
-- Two files
-- ---------------------------------------------------------------------------

/-- The locale `C`, where every byte is a character. -/
def Tools.posix : Tools where
  spaceAt bs := bs.head?.any fun b => b = 0x20 ∨ 0x09 ≤ b ∧ b ≤ 0x0D
  spaceAt_nil := rfl
  spaceAt_ascii _ := rfl
  takesBinary content := decide (0 ∈ content)
  takesBinary_text _ h0 := decide_eq_false h0

def System.debian : System where
  tools := .posix
  moduleInstalled := true
  includeTarget := "common-auth"

/-- A file as distributions have it. -/
def plainFile : Bytes := utf8 "#%PAM-1.0\n@include common-auth\naccount required pam_unix.so".toList

end Immurok.PamHelper
