import Immurok.Client.SshKeyFiles
import Immurok.PamHelper
import Immurok.Text.CharBoundary

/-!
# Repairing the PAM configuration

Which services lack the rule of the module, and the run of the helper over them:
what it reports of each, what the client makes of that, and the files afterwards.
-/

namespace Immurok.Pam

open PamHelper

structure PamService where
  label : Str
  service : Str
  path : Str

def pamServices : List PamService :=
  [⟨"sudo", "sudo", "/etc/pam.d/sudo"⟩,
   ⟨"System authorization (polkit)", "polkit-1", "/etc/pam.d/polkit-1"⟩,
   ⟨"Login screen (gdm)", "gdm-password", "/etc/pam.d/gdm-password"⟩]

def isKnownService (s : Str) : Bool := pamServices.any (·.service == s)

/-- The files of `/etc/pam.d`. -/
abbrev Dir := Str → Option Bytes

-- ---------------------------------------------------------------------------
-- What is to be done
-- ---------------------------------------------------------------------------

def desiredServices (sudoOn polkitOn : Bool) : List Str :=
  (if sudoOn then ["sudo".toList] else []) ++ if polkitOn then ["polkit-1".toList] else []

/-- What the switches ask for and is missing, and the login screen where it has a file
without the rule. -/
def servicesToRepairIn (dir : Dir) (sudoOn polkitOn : Bool) : List Str :=
  (desiredServices sudoOn polkitOn).filter (fun s => !pamLinePresentIn (dir s)) ++
    if (dir "gdm-password").isSome && !pamLinePresentIn (dir "gdm-password") then
      ["gdm-password".toList]
    else []

-- ---------------------------------------------------------------------------
-- The helper
-- ---------------------------------------------------------------------------

/-- `process_one` of each service in turn: the lines of its output, and the files. -/
def processAll (sys : System) (action : Str) : List Str → Dir → List Str × Dir
  | [], dir => ([], dir)
  | s :: services, dir =>
    let (line, file) := sys.processOne action s (dir s)
    let (lines, dir) := processAll sys action services (Function.update dir s file)
    (line :: lines, dir)

/-- The script with the action `add` or `remove`: its exit code, its output and the files. -/
def script (sys : System) (action : Str) (services : List Str) (dir : Dir) : Nat × Str × Dir :=
  if services = [] then (1, "ERROR:NO_SERVICE\n", dir)
  else
    let (lines, dir) := processAll sys action services dir
    (0, lines.flatMap (· ++ ['\n']), dir)

-- ---------------------------------------------------------------------------
-- The client
-- ---------------------------------------------------------------------------

def helperOutputHasError (output : Str) : Bool :=
  (Str.lines output).any fun l => Str.startsWith "ERROR:" (l.dropWhile Str.isWhitespace)

def trimmedLines (stdout : Str) : List Str :=
  ((Str.lines stdout).map Str.trim).filter (· ≠ [])

structure HelperReport where
  lines : List Str

inductive PamError
  | helperNotFound
  | noPolkitAgent
  | authCancelled
  | helperFailed (code : Int) (lines : List Str)
  | spawn (e : Str)

/-- With no code it was killed by a signal. -/
def classifyExit (code : Option Int) (stdout : Str) : Except PamError HelperReport :=
  let lines := trimmedLines stdout
  match code with
  | some 0 =>
    if !helperOutputHasError stdout then .ok ⟨lines⟩ else .error (.helperFailed 0 lines)
  | some 126 => .error .authCancelled
  | some 127 => .error .noPolkitAgent
  | some c => .error (.helperFailed c lines)
  | none => .error (.helperFailed (-1) lines)

/-- What becomes of `pkexec`: it lets the helper run, or ends without it. -/
inductive Pkexec
  | allowed
  | ended (code : Option Int)
  | notStarted (e : Str)

def runHelper (sys : System) (found : Bool) (pkexec : Pkexec) (action : Str) (services : List Str)
    (dir : Dir) : Except PamError HelperReport × Dir :=
  let valid := (action == "add".toList || action == "remove".toList) && !services.isEmpty &&
    services.all isKnownService
  if !valid then (.error (.spawn "invalid request"), dir)
  else if !found then (.error .helperNotFound, dir)
  else
    match pkexec with
    | .allowed =>
      let (code, stdout, dir) := script sys action services dir
      (classifyExit (some code) stdout, dir)
    | .ended code => (classifyExit code [], dir)
    | .notStarted e => (.error (.spawn e), dir)

/-- `immurok-cli pam repair`, where there is something to repair. -/
def runRepair (sys : System) (found : Bool) (pkexec : Pkexec) (sudoOn polkitOn : Bool) (dir : Dir) :
    Option (Except PamError HelperReport) × Dir :=
  match servicesToRepairIn dir sudoOn polkitOn with
  | [] => (none, dir)
  | toFix => (runHelper sys found pkexec "add" toFix dir).map some id

-- ---------------------------------------------------------------------------
-- One service
-- ---------------------------------------------------------------------------

/-- Text for everybody who reads it, if there is a file. -/
def IsText (file : Option Bytes) : Prop :=
  ∀ content ∈ file, (Utf8.strict content).isSome = true ∧ 0 ∉ content

/-- The helper finds where the rule goes, or creates the file. -/
def canAdd (sys : System) (service : Str) : Option Bytes → Bool
  | none => service == "polkit-1".toList
  | some content => grepQuiet pamModule content || (Lines.raw 0x0A content).any sys.tools.startsRule

section
variable {sys : System} {dir dir' : Dir} {s service : Str} {services lines : List Str}
  {file : Option Bytes} {content : Bytes} {sudoOn polkitOn : Bool}

/-- On a text the client finds the module where the helper does. -/
theorem present_eq_grep (h : (Utf8.strict content).isSome = true) :
    pamLinePresentIn (some content) = grepQuiet pamModule content := by
  obtain ⟨text, htext⟩ := Option.isSome_iff_exists.mp h
  obtain rfl := Utf8.strict_eq_some.mp htext
  rw [pamLinePresentIn, Option.bind_some, htext, Bool.eq_iff_iff,
    grepQuiet_iff newline_notMem.2.1 (by decide), Str.contains_iff]
  constructor
  · rintro ⟨xs, ys, hxy⟩
    rw [← hxy, List.flatMap_append, List.flatMap_append]
    exact ⟨_, _, rfl⟩
  · exact Utf8.infix_of_encode (by decide) (by decide)

theorem template_present : pamLinePresentIn (some sys.polkitTemplate) = true := by
  have hfront : "pam_immurok.so".toList <:+: ("#%PAM-1.0\n# Created by immurok\n" ++
      "auth        sufficient    pam_immurok.so timeout=10").toList := by
    decide
  rw [pamLinePresentIn, Option.bind_some, System.polkitTemplate, utf8, Utf8.strict_encode]
  refine Str.contains_iff.mpr (hfront.trans ?_)
  change _ <:+: ("#%PAM-1.0\n# Created by immurok\n" ++
      "auth        sufficient    pam_immurok.so timeout=10").toList ++ _ ++ _ ++ _ ++ _ ++ _ ++ _ ++
    _ ++ _ ++ _
  generalize ("#%PAM-1.0\n# Created by immurok\n" ++
    "auth        sufficient    pam_immurok.so timeout=10").toList = front
  simp only [List.append_assoc]
  exact (List.prefix_append front _).isInfix

theorem known_of_isKnownService (h : isKnownService service = true) :
    service = "sudo".toList ∨ service = "polkit-1".toList ∨ service = "gdm-password".toList := by
  obtain ⟨p, hp, heq⟩ := List.any_eq_true.mp h
  obtain rfl := eq_of_beq heq
  simp only [pamServices, List.mem_cons, List.not_mem_nil, or_false] at hp
  obtain rfl | rfl | rfl := hp
  · exact .inl rfl
  · exact .inr (.inl rfl)
  · exact .inr (.inr rfl)

theorem processOne_eq_add (hs : isKnownService service = true) :
    sys.processOne "add" service file = sys.add service file := by
  have hknown := known_of_isKnownService hs
  unfold System.processOne
  rw [if_neg (by tauto), if_pos rfl]

/-- The rule is in the file. -/
structure Added (service : Str) (r : Str × Option Bytes) : Prop where
  line : ∃ what ∈ ["OK:CREATED", "OK:ALREADY_PRESENT", "OK:ADDED"], r.1 = report what service
  file : r.2.isSome = true
  present : pamLinePresentIn r.2 = true

/-- The file is as it was. -/
structure Refused (service : Str) (file : Option Bytes) (r : Str × Option Bytes) : Prop where
  line : ∃ what ∈ ["ERROR:MODULE_NOT_INSTALLED", "ERROR:FILE_NOT_FOUND", "ERROR:NO_AUTH_LINE"],
    r.1 = report what service
  file : r.2 = file

theorem added_of_canAdd (hs : isKnownService service = true) (htext : IsText file)
    (hmodule : sys.moduleInstalled = true) (hcan : canAdd sys service file = true) :
    Added service (sys.processOne "add" service file) := by
  rw [processOne_eq_add hs]
  unfold System.add
  rw [hmodule, Bool.not_true, if_neg Bool.false_ne_true]
  cases file with
  | none =>
    dsimp only
    rw [if_pos (eq_of_beq hcan)]
    exact ⟨⟨"OK:CREATED", by simp, rfl⟩, rfl, template_present⟩
  | some content =>
    obtain ⟨hstrict, hzero⟩ := htext content rfl
    dsimp only
    by_cases hgrep : grepQuiet pamModule content = true
    · rw [if_pos hgrep]
      exact ⟨⟨"OK:ALREADY_PRESENT", by simp, rfl⟩, rfl, (present_eq_grep hstrict).trans hgrep⟩
    · rw [if_neg hgrep]
      have hrule : (Lines.raw 0x0A content).any sys.tools.startsRule = true :=
        ((Bool.or_eq_true _ _).mp hcan).resolve_left hgrep
      obtain ⟨n, hn⟩ := Option.isSome_iff_exists.mp (List.findIdx?_isSome.trans hrule)
      obtain ⟨ps, q, qs, hpieces, -, hinsert⟩ := pieces_at hn
      have hfirst : sys.tools.firstAuth content = some (some n) := by
        rw [Tools.firstAuth, hn, Option.map_some, sys.tools.takesBinary_text hstrict hzero,
          if_neg Bool.false_ne_true]
      rw [hfirst]
      refine ⟨⟨"OK:ADDED", by simp, rfl⟩, rfl, ?_⟩
      dsimp only
      rw [hinsert]
      exact (present_iff hpieces).mpr hstrict

theorem refused_of_not_canAdd (hs : isKnownService service = true)
    (hcan : (sys.moduleInstalled && canAdd sys service file) = false) :
    Refused service file (sys.processOne "add" service file) := by
  rw [processOne_eq_add hs]
  unfold System.add
  by_cases hmodule : sys.moduleInstalled = true
  · rw [hmodule, Bool.true_and] at hcan
    rw [hmodule, Bool.not_true, if_neg Bool.false_ne_true]
    cases file with
    | none =>
      dsimp only
      rw [if_neg (ne_of_beq_false hcan)]
      exact ⟨⟨"ERROR:FILE_NOT_FOUND", by simp, rfl⟩, rfl⟩
    | some content =>
      obtain ⟨hgrep, hrule⟩ := (Bool.or_eq_false_iff).mp hcan
      have hfirst : sys.tools.firstAuth content = none := by
        rw [Tools.firstAuth, Option.map_eq_none_iff, ← Option.not_isSome_iff_eq_none,
          List.findIdx?_isSome, hrule]
        exact Bool.false_ne_true
      dsimp only
      rw [hgrep, if_neg Bool.false_ne_true, hfirst]
      exact ⟨⟨"ERROR:NO_AUTH_LINE", by simp, rfl⟩, rfl⟩
  · have hoff : (!sys.moduleInstalled) = true := by simpa using hmodule
    rw [if_pos hoff]
    exact ⟨⟨"ERROR:MODULE_NOT_INSTALLED", by simp, rfl⟩, rfl⟩

-- ---------------------------------------------------------------------------
-- All of them
-- ---------------------------------------------------------------------------

theorem processAll_eq {action : Str} (hn : services.Nodup) : processAll sys action services dir =
    (services.map fun s => (sys.processOne action s (dir s)).1,
      fun s => if s ∈ services then (sys.processOne action s (dir s)).2 else dir s) := by
  induction services generalizing dir with
  | nil => rfl
  | cons s services ih =>
    obtain ⟨hs, hn⟩ := List.nodup_cons.mp hn
    have hother {t : Str} (ht : t ≠ s) {file : Option Bytes} :
        Function.update dir s file t = dir t := Function.update_of_ne ht _ _
    have hcons : processAll sys action (s :: services) dir =
        ((sys.processOne action s (dir s)).1 :: (processAll sys action services
          (Function.update dir s (sys.processOne action s (dir s)).2)).1,
        (processAll sys action services
          (Function.update dir s (sys.processOne action s (dir s)).2)).2) := rfl
    rw [hcons, ih hn, List.map_cons]
    generalize hfile : (sys.processOne action s (dir s)).2 = file at hcons ⊢
    refine congrArg₂ Prod.mk (congrArg _ (List.map_congr_left fun t ht => ?_)) (funext fun t => ?_)
    · rw [hother (ne_of_mem_of_not_mem ht hs)]
    · dsimp only
      by_cases hts : t = s
      · subst hts
        rw [if_neg hs, if_pos List.mem_cons_self, Function.update_self, hfile]
      · rw [hother hts]
        simp only [List.mem_cons, hts, false_or]

theorem unbroken_report {what : String} (hs : isKnownService service = true)
    (hwhat : what ∈ ["OK:CREATED", "OK:ALREADY_PRESENT", "OK:ADDED", "ERROR:MODULE_NOT_INSTALLED",
      "ERROR:FILE_NOT_FOUND", "ERROR:NO_AUTH_LINE"]) : Unbroken (report what service) := by
  have all : ∀ what ∈ ["OK:CREATED", "OK:ALREADY_PRESENT", "OK:ADDED",
      "ERROR:MODULE_NOT_INSTALLED", "ERROR:FILE_NOT_FOUND", "ERROR:NO_AUTH_LINE"],
      ∀ s ∈ ["sudo".toList, "polkit-1".toList, "gdm-password".toList],
        '\n' ∉ report what s ∧ '\r' ∉ report what s := by
    decide
  exact all what hwhat service (by simpa using known_of_isKnownService hs)

/-- An error is in the output if and only if some service was refused. -/
theorem hasError_iff (hs : ∀ s ∈ services, isKnownService s = true)
    (htext : ∀ s ∈ services, IsText (dir s)) :
    helperOutputHasError ((services.map fun s => (sys.processOne "add" s (dir s)).1).flatMap
      (· ++ ['\n'])) = true ↔
    ∃ s ∈ services, (sys.moduleInstalled && canAdd sys s (dir s)) = false := by
  have hline (s : Str) (h : s ∈ services) :
      Unbroken (sys.processOne "add" s (dir s)).1 ∧
      (Str.startsWith "ERROR:"
          ((sys.processOne "add" s (dir s)).1.dropWhile Str.isWhitespace) = true ↔
        (sys.moduleInstalled && canAdd sys s (dir s)) = false) := by
    cases hcan : sys.moduleInstalled && canAdd sys s (dir s) with
    | true =>
      obtain ⟨hmodule, hcan⟩ := Bool.and_eq_true_iff.mp hcan
      obtain ⟨what, hwhat, hreport⟩ := (added_of_canAdd (hs s h) (htext s h) hmodule hcan).line
      rw [hreport]
      refine ⟨unbroken_report (hs s h) (by simp at hwhat ⊢; tauto), iff_of_false ?_ nofun⟩
      simp only [List.mem_cons, List.not_mem_nil, or_false] at hwhat
      obtain rfl | rfl | rfl := hwhat <;> exact Bool.false_ne_true
    | false =>
      obtain ⟨what, hwhat, hreport⟩ := (refused_of_not_canAdd (hs s h) hcan).line
      rw [hreport]
      refine ⟨unbroken_report (hs s h) (by simp at hwhat ⊢; tauto), iff_of_true ?_ rfl⟩
      simp only [List.mem_cons, List.not_mem_nil, or_false] at hwhat
      obtain rfl | rfl | rfl := hwhat <;> rfl
  have hlines := @lines_flatMap [] (services.map fun s => (sys.processOne "add" s (dir s)).1)
    (List.forall_mem_map.mpr fun s h => (hline s h).1)
  rw [List.append_nil] at hlines
  rw [helperOutputHasError, hlines]
  simp only [Str.lines, Lines.splitInclusive, List.map_nil, List.append_nil, List.any_map,
    List.any_eq_true, Function.comp_apply]
  exact exists_congr fun s => and_congr_right fun h => (hline s h).2

-- ---------------------------------------------------------------------------
-- What is left
-- ---------------------------------------------------------------------------

/-- The rule is missing, and not for want of a login screen. -/
def lacks (dir : Dir) (s : Str) : Bool :=
  !pamLinePresentIn (dir s) && (s != "gdm-password".toList || (dir s).isSome)

def candidates (sudoOn polkitOn : Bool) : List Str :=
  desiredServices sudoOn polkitOn ++ ["gdm-password".toList]

theorem servicesToRepairIn_eq :
    servicesToRepairIn dir sudoOn polkitOn = (candidates sudoOn polkitOn).filter (lacks dir) := by
  have hgdm : "gdm-password".toList ∉ desiredServices sudoOn polkitOn := by
    cases sudoOn <;> cases polkitOn <;> decide
  rw [servicesToRepairIn, candidates, List.filter_append]
  refine congrArg₂ _ (List.filter_congr fun s hs => ?_) ?_
  · have hne : (s != "gdm-password".toList) = true := bne_iff_ne.mpr (ne_of_mem_of_not_mem hs hgdm)
    rw [lacks, hne, Bool.true_or, Bool.and_true]
  · rw [List.filter_singleton, lacks, bne_self_eq_false, Bool.false_or, Bool.and_comm]
    exact (Bool.cond_eq_ite ..).symm

theorem candidates_known : (candidates sudoOn polkitOn).Nodup ∧
    ∀ s ∈ candidates sudoOn polkitOn, isKnownService s = true := by
  cases sudoOn <;> cases polkitOn <;> decide

/-- Where the helper may run, what is missing afterwards is what the rule could not be put
into; that there is no such thing is what success says. The other files are as they
were, and another repair changes nothing. -/
structure Converges (sys : System) (sudoOn polkitOn : Bool) (dir : Dir)
    (result : Option (Except PamError HelperReport)) (dir' : Dir) : Prop where
  left : servicesToRepairIn dir' sudoOn polkitOn = (servicesToRepairIn dir sudoOn polkitOn).filter
    fun s => !(sys.moduleInstalled && canAdd sys s (dir s))
  told : ∀ r, result = some r → (r.isOk = true ↔ servicesToRepairIn dir' sudoOn polkitOn = [])
  silent : result = none ↔ servicesToRepairIn dir sudoOn polkitOn = []
  others : ∀ s, s ∉ servicesToRepairIn dir sudoOn polkitOn → dir' s = dir s
  again : (runRepair sys true .allowed sudoOn polkitOn dir').2 = dir'

/-- The run of the helper over what is missing. -/
theorem runHelper_eq (hs : ∀ s ∈ services, isKnownService s = true) (hne : services ≠ [])
    (hn : services.Nodup) :
    runHelper sys true .allowed "add" services dir =
      (classifyExit (some 0) ((services.map fun s => (sys.processOne "add" s (dir s)).1).flatMap
        (· ++ ['\n'])),
      fun s => if s ∈ services then (sys.processOne "add" s (dir s)).2 else dir s) := by
  have hempty : services.isEmpty = false := by simpa using hne
  have hvalid : (("add".toList == "add".toList || "add".toList == "remove".toList) &&
      !services.isEmpty && services.all isKnownService) = true := by
    rw [hempty, List.all_eq_true.mpr hs]
    rfl
  unfold runHelper
  simp only [hvalid, Bool.not_true, Bool.false_eq_true, if_false]
  rw [script, if_neg hne, processAll_eq hn]
  rfl

/-- After a run over what is missing. -/
theorem lacks_after (hs : isKnownService s = true) (htext : IsText (dir s))
    (hdir : dir' s = if lacks dir s = true then (sys.processOne "add" s (dir s)).2 else dir s) :
    lacks dir' s = (lacks dir s && !(sys.moduleInstalled && canAdd sys s (dir s))) := by
  cases hlacks : lacks dir s with
  | false =>
    rw [hlacks, if_neg Bool.false_ne_true] at hdir
    rw [Bool.false_and, lacks, hdir]
    exact hlacks
  | true =>
    rw [hlacks, if_pos rfl] at hdir
    cases hcan : sys.moduleInstalled && canAdd sys s (dir s) with
    | true =>
      obtain ⟨hmodule, hcan⟩ := Bool.and_eq_true_iff.mp hcan
      rw [lacks, hdir, (added_of_canAdd hs htext hmodule hcan).present]
      rfl
    | false =>
      rw [lacks, hdir, (refused_of_not_canAdd hs hcan).file]
      exact hlacks

/-- The files after a repair, and what is said of it. -/
theorem runRepair_eq : runRepair sys true .allowed sudoOn polkitOn dir =
    (if servicesToRepairIn dir sudoOn polkitOn = [] then none
      else some (classifyExit (some 0) (((servicesToRepairIn dir sudoOn polkitOn).map fun s =>
        (sys.processOne "add" s (dir s)).1).flatMap (· ++ ['\n']))),
    fun s => if s ∈ servicesToRepairIn dir sudoOn polkitOn then
      (sys.processOne "add" s (dir s)).2 else dir s) := by
  have hsub : ∀ s ∈ servicesToRepairIn dir sudoOn polkitOn, isKnownService s = true := by
    intro s hs
    rw [servicesToRepairIn_eq] at hs
    exact candidates_known.2 s (List.mem_of_mem_filter hs)
  have hn : (servicesToRepairIn dir sudoOn polkitOn).Nodup := by
    rw [servicesToRepairIn_eq]
    exact candidates_known.1.filter _
  unfold runRepair
  generalize servicesToRepairIn dir sudoOn polkitOn = toFix at hsub hn
  cases toFix with
  | nil =>
    refine Prod.ext rfl (funext fun s => ?_)
    dsimp only
    rw [if_neg List.not_mem_nil]
  | cons s toFix =>
    dsimp only
    rw [runHelper_eq hsub (List.cons_ne_nil _ _) hn, if_neg (List.cons_ne_nil _ _)]
    rfl

theorem mem_servicesToRepairIn : s ∈ servicesToRepairIn dir sudoOn polkitOn ↔
    s ∈ candidates sudoOn polkitOn ∧ lacks dir s = true := by
  rw [servicesToRepairIn_eq, List.mem_filter]

theorem left_after (htext : ∀ s, IsText (dir s)) :
    servicesToRepairIn (runRepair sys true .allowed sudoOn polkitOn dir).2 sudoOn polkitOn =
      (servicesToRepairIn dir sudoOn polkitOn).filter fun s =>
        !(sys.moduleInstalled && canAdd sys s (dir s)) := by
  rw [runRepair_eq, servicesToRepairIn_eq, servicesToRepairIn_eq, List.filter_filter]
  refine List.filter_congr fun s hs => ?_
  rw [Bool.and_comm]
  refine lacks_after (candidates_known.2 s hs) (htext s) ?_
  dsimp only
  by_cases hlacks : lacks dir s = true
  · rw [if_pos hlacks, if_pos (List.mem_filter.mpr ⟨hs, hlacks⟩)]
  · rw [if_neg hlacks, if_neg fun hm => hlacks (List.mem_filter.mp hm).2]

theorem repair_converges (htext : ∀ s, IsText (dir s)) :
    Converges sys sudoOn polkitOn dir (runRepair sys true .allowed sudoOn polkitOn dir).1
      (runRepair sys true .allowed sudoOn polkitOn dir).2 := by
  have hleft := @left_after sys dir sudoOn polkitOn htext
  refine ⟨hleft, fun r hr => ?_, ?_, fun s hs => ?_, ?_⟩
  · have herr := @hasError_iff sys dir (servicesToRepairIn dir sudoOn polkitOn)
      (fun s hs => candidates_known.2 s (mem_servicesToRepairIn.mp hs).1) fun s _ => htext s
    rw [runRepair_eq] at hr
    dsimp only at hr
    split at hr
    next => nomatch hr
    next =>
      obtain rfl := Option.some.inj hr
      rw [hleft, List.filter_eq_nil_iff]
      unfold classifyExit
      dsimp only
      cases hbad : helperOutputHasError (((servicesToRepairIn dir sudoOn polkitOn).map fun s =>
          (sys.processOne "add" s (dir s)).1).flatMap (· ++ ['\n'])) with
      | true =>
        obtain ⟨s, hs, hcan⟩ := herr.mp hbad
        refine iff_of_false Bool.false_ne_true fun h => h s hs ?_
        rw [hcan]
        rfl
      | false =>
        refine iff_of_true rfl fun s hs hcan => Bool.false_ne_true (hbad.symm.trans (herr.mpr ?_))
        exact ⟨s, hs, (Bool.not_eq_true' _).mp hcan⟩
  · rw [runRepair_eq]
    dsimp only
    split
    next h => exact iff_of_true rfl h
    next h => exact iff_of_false nofun h
  · rw [runRepair_eq]
    exact if_neg hs
  · generalize hdir : (runRepair sys true .allowed sudoOn polkitOn dir).2 = dir' at hleft
    rw [runRepair_eq]
    refine funext fun s => ?_
    dsimp only
    split
    next hs =>
      rw [hleft, List.mem_filter] at hs
      obtain ⟨hs, hcan⟩ := hs
      have hrefused : Refused s (dir s) (sys.processOne "add" s (dir s)) :=
        refused_of_not_canAdd (candidates_known.2 s (mem_servicesToRepairIn.mp hs).1)
          ((Bool.not_eq_true' _).mp hcan)
      have hsame : dir' s = dir s := by
        rw [← hdir, runRepair_eq]
        exact (if_pos hs).trans hrefused.file
      rw [hsame]
      exact hrefused.file
    next => rfl

end

/-- The rule is missing for `sudo` and for the system's authorization, which has no file
yet. -/
theorem repair_sample :
    let dir : Dir := fun s => if s = "sudo".toList then some plainFile else none
    servicesToRepairIn dir true true = ["sudo".toList, "polkit-1".toList] ∧
      Converges .debian true true dir (runRepair .debian true .allowed true true dir).1
        (runRepair .debian true .allowed true true dir).2 := by
  refine ⟨by decide, repair_converges fun s content hs => ?_⟩
  by_cases h : s = "sudo".toList
  · rw [if_pos h] at hs
    obtain rfl := Option.some.inj hs
    decide
  · rw [if_neg h] at hs
    nomatch hs

end Immurok.Pam
