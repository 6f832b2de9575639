import Immurok.Daemon.Lines

/-!
# Commands that need an approval

`imk --agent` puts the command it is about to run into one line of text. The
line goes to the daemon as a request, and from there to the dialog of the
session agent.
-/

namespace Immurok

open Async

-- ---------------------------------------------------------------------------
-- The text of a command
-- ---------------------------------------------------------------------------

/-- Newlines and the like are made visible. -/
def visible (c : Char) : Str :=
  if c = '\n' then "\\n"
  else if c = '\r' then "\\r"
  else if c = '\x00' then "\\0"
  else [c]

def shown (cmdArgs : List Str) : Str := [' '].intercalate (cmdArgs.map (·.flatMap visible))

def approveOverhead : Nat := "AGENT_APPROVE:\n".length

def prepareAgentCommand (cmdArgs : List Str) : Except Str Str :=
  let out := shown cmdArgs
  if maxRequestBytes ≤ (utf8 out).length + approveOverhead then
    .error ("command too long for agent approval (".toList ++ Str.ofNat (utf8 out).length ++
      " bytes, limit ".toList ++ Str.ofNat (maxRequestBytes - approveOverhead - 1) ++
      "); put it in a script file and wrap that instead".toList)
  else .ok out

/-- `char::is_control`. -/
def isControl (c : Char) : Bool := c.toNat < 0x20 || (0x7F ≤ c.toNat && c.toNat < 0xA0)

/-- Nothing but `cmdArgs` is shown as `text`, and it is shown as it is. -/
structure Identifies (cmdArgs : List Str) (text : Str) : Prop where
  unique : ∀ other, prepareAgentCommand other = .ok text → other = cmdArgs
  plain : ∀ c ∈ text, isControl c = false

/-- A single word without control characters, in which no backslash stands
before an `n`, an `r` or a `0`. -/
def PlainWord (cmdArgs : List Str) : Prop :=
  ∃ word, cmdArgs = [word] ∧ word ≠ [] ∧ ' ' ∉ word ∧ (∀ c ∈ word, isControl c = false) ∧
    ∀ e ∈ ['n', 'r', '0'], ¬ ['\\', e] <:+: word

section
variable {c : Char} {s t cmd text word : Str} {cmdArgs : List Str}

/-- The characters that are not shown as they are. -/
def isHidden (c : Char) : Bool := c = '\n' || c = '\r' || c = '\x00'

theorem visible_eq_self (h : isHidden c = false) : visible c = [c] := by
  simp only [isHidden, Bool.or_eq_false_iff, decide_eq_false_iff_not] at h
  simp [visible, h]

theorem visible_hidden (h : isHidden c = true) : ∃ e ∈ ['n', 'r', '0'], visible c = ['\\', e] := by
  simp only [isHidden, Bool.or_eq_true, decide_eq_true_eq] at h
  obtain (rfl | rfl) | rfl := h
  · exact ⟨'n', by simp, rfl⟩
  · exact ⟨'r', by simp, rfl⟩
  · exact ⟨'0', by simp, rfl⟩

theorem not_hidden_of_visible {d : Char} (h : c ∈ visible d) : isHidden c = false := by
  cases hd : isHidden d with
  | false =>
    rw [visible_eq_self hd] at h
    rw [List.mem_singleton.mp h, hd]
  | true =>
    obtain ⟨e, he, hv⟩ := visible_hidden hd
    rw [hv] at h
    simp only [List.mem_cons, List.not_mem_nil, or_false] at he h
    obtain rfl | rfl := h
    · rfl
    · obtain rfl | rfl | rfl := he
      · rfl
      · rfl
      · rfl

theorem flatMap_visible (h : ∀ c ∈ s, isHidden c = false) : s.flatMap visible = s := by
  induction s with
  | nil => rfl
  | cons c s ih =>
    rw [List.flatMap_cons, visible_eq_self (h c (by simp)), ih fun d hd => h d (by simp [hd])]
    rfl

/-- Words that are shown with nothing hidden are shown with spaces between. -/
theorem shown_of_plain (h : ∀ w ∈ cmdArgs, ∀ c ∈ w, isHidden c = false) :
    shown cmdArgs = [' '].intercalate cmdArgs := by
  rw [shown, List.map_congr_left fun w hw => flatMap_visible (h w hw), List.map_id']

theorem intercalate_cons_cons {w w' : Str} {ws : List Str} :
    [' '].intercalate (w :: w' :: ws) = w ++ ' ' :: [' '].intercalate (w' :: ws) := by
  simp [List.intercalate]

theorem not_hidden_of_shown (h : c ∈ shown cmdArgs) : isHidden c = false := by
  induction cmdArgs with
  | nil => cases h
  | cons w ws ih =>
    have word (h : c ∈ w.flatMap visible) : isHidden c = false := by
      obtain ⟨d, -, hd⟩ := List.mem_flatMap.mp h
      exact not_hidden_of_visible hd
    cases ws with
    | nil => exact word (by simpa [shown] using h)
    | cons w' ws =>
      rw [shown, List.map_cons, List.map_cons, intercalate_cons_cons, List.mem_append,
        List.mem_cons] at h
      obtain h | rfl | h := h
      · exact word h
      · rfl
      · exact ih h

theorem prepare_eq_ok : prepareAgentCommand cmdArgs = .ok text ↔
    shown cmdArgs = text ∧ (utf8 text).length + approveOverhead < maxRequestBytes := by
  unfold prepareAgentCommand
  dsimp only
  split
  next h =>
    refine iff_of_false (fun h => nomatch h) ?_
    rintro ⟨rfl, hlt⟩
    exact Nat.not_le.mpr hlt h
  next h =>
    rw [Except.ok.injEq]
    refine ⟨?_, And.left⟩
    rintro rfl
    exact ⟨rfl, Nat.not_le.mp h⟩

/-- A character that is not shown as it is leaves a backslash and a letter. -/
theorem escape_infix (hc : c ∈ word) (h : isHidden c = true) :
    ∃ e ∈ ['n', 'r', '0'], ['\\', e] <:+: word.flatMap visible := by
  obtain ⟨e, he, hv⟩ := visible_hidden h
  obtain ⟨a, b, rfl⟩ := List.append_of_mem hc
  refine ⟨e, he, a.flatMap visible, b.flatMap visible, ?_⟩
  simp [hv]

theorem hidden_isControl (h : isHidden c = true) : isControl c = true := by
  simp only [isHidden, Bool.or_eq_true, decide_eq_true_eq] at h
  obtain (rfl | rfl) | rfl := h
  · rfl
  · rfl
  · rfl

/-- Only a plain word is told from every other command by its text. -/
theorem identifies_iff (h : prepareAgentCommand cmdArgs = .ok text) :
    Identifies cmdArgs text ↔ PlainWord cmdArgs := by
  obtain ⟨htext, hlen⟩ := prepare_eq_ok.mp h
  have accepted {other : List Str} (ho : shown other = text) :
      prepareAgentCommand other = .ok text := prepare_eq_ok.mpr ⟨ho, hlen⟩
  have hplain : ∀ c ∈ text, isHidden c = false := fun c hc => not_hidden_of_shown (htext ▸ hc)
  constructor
  · rintro ⟨hunique, hcontrol⟩
    -- the text itself, as one word, is shown as the text
    have hself : [text] = cmdArgs := hunique _ (accepted (by simp [shown, flatMap_visible hplain]))
    refine ⟨text, hself.symm, ?_, fun hspace => ?_, hcontrol, fun e he hin => ?_⟩
    · rintro rfl
      have hnone := hunique [] (accepted rfl)
      rw [← hself] at hnone
      cases hnone
    · obtain ⟨a, b, hab⟩ := List.append_of_mem hspace
      have htwo : [a, b] = cmdArgs := hunique _ (accepted ?_)
      · rw [← hself] at htwo
        cases htwo
      · rw [shown_of_plain, intercalate_cons_cons, hab]
        · simp
        · simp only [List.mem_cons, List.not_mem_nil, or_false]
          rintro w (rfl | rfl) c hc
          · exact hplain c (by simp [hab, hc])
          · exact hplain c (by simp [hab, hc])
    · obtain ⟨a, b, hab⟩ := hin
      obtain ⟨c, hc, hv⟩ : ∃ c, isHidden c = true ∧ visible c = ['\\', e] := by
        simp only [List.mem_cons, List.not_mem_nil, or_false] at he
        obtain rfl | rfl | rfl := he
        · exact ⟨'\n', rfl, rfl⟩
        · exact ⟨'\r', rfl, rfl⟩
        · exact ⟨'\x00', rfl, rfl⟩
      have hraw : [a ++ c :: b] = cmdArgs := hunique _ (accepted ?_)
      · rw [← hself] at hraw
        have hc' := hplain c (by simp [← List.singleton_inj.mp hraw])
        rw [hc] at hc'
        cases hc'
      · have ha : a.flatMap visible = a :=
          flatMap_visible fun c hc => hplain c (by simp [← hab, hc])
        have hb : b.flatMap visible = b :=
          flatMap_visible fun c hc => hplain c (by simp [← hab, hc])
        simp [shown, ha, hb, hv, ← hab]
  · rintro ⟨word, rfl, hne, hspace, hcontrol, hescape⟩
    have hword : ∀ c ∈ word, isHidden c = false := fun c hc => by
      cases hh : isHidden c with
      | false => rfl
      | true => exact (hidden_isControl hh).symm.trans (hcontrol c hc)
    have hself : text = word := by
      rw [← htext, shown_of_plain (by simpa using hword)]
      simp
    subst hself
    refine ⟨fun other ho => ?_, hcontrol⟩
    obtain ⟨hother, -⟩ := prepare_eq_ok.mp ho
    match other with
    | [] => exact absurd hother.symm hne
    | [w] =>
      have hw : w.flatMap visible = text := by simpa [shown] using hother
      have hall : ∀ c ∈ w, isHidden c = false := fun c hc => by
        cases hh : isHidden c with
        | false => rfl
        | true =>
          obtain ⟨e, he, hin⟩ := escape_infix hc hh
          exact absurd (hw ▸ hin) (hescape e he)
      rw [← hw, flatMap_visible hall]
    | w :: w' :: ws =>
      refine absurd ?_ hspace
      rw [← hother, shown, List.map_cons, List.map_cons, intercalate_cons_cons]
      simp

/-- Two words are shown like one, and an escape sequence as it is. -/
theorem shown_ambiguous : ¬ ∀ cmdArgs text, prepareAgentCommand cmdArgs = .ok text →
    Identifies cmdArgs text := by
  intro h
  have hone := h ["rm".toList, "a b".toList] "rm a b".toList (by decide)
  have hother := hone.unique ["rm".toList, "a".toList, "b".toList] (by decide)
  exact absurd hother (by decide)

theorem plainWord_identified : prepareAgentCommand ["ls".toList] = .ok "ls".toList ∧
    (Identifies ["ls".toList] "ls".toList ↔ PlainWord ["ls".toList]) :=
  ⟨by decide, identifies_iff (by decide)⟩

-- ---------------------------------------------------------------------------
-- The request and the dialog
-- ---------------------------------------------------------------------------

end

def agentRequest (cmd : Str) : Str := "AGENT_APPROVE:".toList ++ cmd ++ "\n".toList

def agentDialog (cmd : Str) : Str := "UI:DIALOG:AGENT:30:".toList ++ cmd

/-- What the session agent does about a line. -/
inductive AgentAction
  | dialog (args : List Str)
  | dismiss
  | notify (text : Str)
  | sshTakeover (on : Bool)
  | unknown (line : Str)
  | ignore
  deriving DecidableEq

def agentDialogArgs (rest : Str) : List Str :=
  let (secs, cmd) := (Str.splitOnce ':' rest).getD ("30".toList, rest)
  ["--agent", "--command", cmd, "--timeout", secs]

def handle (line : Str) : AgentAction :=
  if line = "UI:DIALOG:AUTH".toList then .dialog []
  else
    match Str.stripPrefix "UI:DIALOG:AGENT:" line with
    | some rest => .dialog (agentDialogArgs rest)
    | none =>
      if line = "UI:DISMISS".toList then .dismiss
      else
        match Str.stripPrefix "NOTIFY:" line with
        | some text => .notify text
        | none =>
          match Str.stripPrefix "SSH_TAKEOVER:" line with
          | some state => .sshTakeover (state = "ON".toList)
          | none => if line = [] then .ignore else .unknown line

/-- The next of the lines of a stream, without the end of the line. -/
def nextLine (stream : Bytes) : Option Str :=
  (Utf8.strict (stream.takeWhile (· ≠ 10))).map fun line =>
    if line.getLast? = some '\r' then line.dropLast else line

/-- The session agent with its next line. -/
def runAgent (stream : Bytes) : Option AgentAction :=
  (nextLine stream).map fun line => handle (Str.trim line)

section
variable {ext : Extern} {i : TaskId} {peer : Peer} {cmd text : Str}
  {cmdArgs : List Str} {rest : Bytes}

theorem newline_not_mem_utf8 (h : '\n' ∉ text) : (10 : UInt8) ∉ utf8 text :=
  fun hm => h (Utf8.ascii_mem_encode (by decide) hm)

theorem splitRequestChunk_agent (htext : ∀ c ∈ text, isHidden c = false)
    (hlen : (utf8 text).length + approveOverhead < maxRequestBytes) :
    splitRequestChunk (utf8 (agentRequest text)) =
      .ok ("AGENT_APPROVE:".toList ++ Str.trimEndMatches (· = ' ') text) := by
  have hnew : '\n' ∉ "AGENT_APPROVE:".toList ++ text := fun h => by
    obtain h | h := List.mem_append.mp h
    · exact absurd h (by decide)
    · exact absurd (htext _ h) (by decide)
  have hsize : (utf8 ("AGENT_APPROVE:".toList ++ text) ++ [10]).length < maxRequestBytes := by
    have hover : (utf8 "AGENT_APPROVE:".toList).length + 1 = approveOverhead := by decide
    rw [utf8_append, List.length_append, List.length_append, List.length_singleton]
    omega
  have hwhole := splitRequestChunk_whole (newline_not_mem_utf8 hnew) hsize
  have hchunk : utf8 (agentRequest text) = utf8 ("AGENT_APPROVE:".toList ++ text) ++ [10] :=
    utf8_append
  have hend : Str.trimEndMatches isStripped text = Str.trimEndMatches (· = ' ') text :=
    Str.trimEndMatches_congr fun c hc => by
      have hc := htext c hc
      simp only [isHidden, Bool.or_eq_false_iff, decide_eq_false_iff_not] at hc
      simp [isStripped, hc]
  have hstrip : strip ("AGENT_APPROVE:".toList ++ text) =
      "AGENT_APPROVE:".toList ++ Str.trimEndMatches isStripped text :=
    @Str.trimMatches_append isStripped ':' text "GENT_APPROVE".toList 'A' (by decide) (by decide)
  rw [hchunk, hwhole, requestText, utf8, Utf8.lossy_encode, hstrip, hend]

theorem dispatchOf_agent : dispatchOf ("AGENT_APPROVE:".toList ++ cmd) = .agentApprove cmd := by
  have hne {line : Str} (h : line.head? ≠ some 'A') : "AGENT_APPROVE:".toList ++ cmd ≠ line := by
    rintro rfl
    exact h rfl
  rw [dispatchOf, if_neg (hne (by decide)), if_neg (hne (by decide)),
    if_neg (by simp [Str.startsWith]), if_neg (by simp [Str.startsWith]), Str.stripPrefix_append]

theorem nextLine_utf8 (hnew : '\n' ∉ text) (hlast : text.getLast? ≠ some '\r') :
    nextLine (utf8 text ++ 10 :: rest) = some text := by
  have htake : (utf8 text ++ 10 :: rest).takeWhile (· ≠ 10) = utf8 text := by
    have hall : text.takeWhile (· ≠ '\n') = text := by
      rw [List.takeWhile_eq_self_iff]
      intro c hc
      rw [decide_eq_true_eq]
      rintro rfl
      exact hnew hc
    have hbyte : UInt8.ofNat '\n'.toNat = 10 := rfl
    have h := @Utf8.takeWhile_encode '\n' text rest (by decide)
    rw [hall, hbyte] at h
    exact h
  rw [nextLine, htake, utf8, Utf8.strict_encode, Option.map_some, if_neg hlast]

theorem handle_dialog : handle ("UI:DIALOG:AGENT:30:".toList ++ cmd) =
    .dialog ["--agent".toList, "--command".toList, cmd, "--timeout".toList, "30".toList] := by
  have hrest : "UI:DIALOG:AGENT:30:".toList ++ cmd =
      "UI:DIALOG:AGENT:".toList ++ ("30:".toList ++ cmd) :=
    rfl
  have hsplit : Str.splitOnce ':' ("30:".toList ++ cmd) = some ("30".toList, cmd) :=
    Str.splitOnce_eq_some.mpr ⟨rfl, by decide⟩
  have hne : "UI:DIALOG:AGENT:".toList ++ ("30:".toList ++ cmd) ≠ "UI:DIALOG:AUTH".toList := by
    intro h
    have hc := congrArg (·[11]?) h
    simp at hc
  rw [hrest, handle, if_neg hne, Str.stripPrefix_append]
  simp only [agentDialogArgs, hsplit, Option.getD_some]

theorem runAgent_dialog (htext : ∀ c ∈ cmd, isHidden c = false) :
    runAgent (utf8 (agentDialog cmd) ++ 10 :: rest) = some (.dialog
      ["--agent".toList, "--command".toList, Str.trimEnd cmd, "--timeout".toList,
        "30".toList]) := by
  have hlabel : ∀ c ∈ "UI:DIALOG:AGENT:30:".toList, c ≠ '\n' ∧ c ≠ '\r' := by decide
  have hmem {c : Char} (h : c ∈ agentDialog cmd) : c ≠ '\n' ∧ c ≠ '\r' := by
    obtain h | h := List.mem_append.mp h
    · exact hlabel c h
    · have hc := htext c h
      simp only [isHidden, Bool.or_eq_false_iff, decide_eq_false_iff_not] at hc
      exact hc.1
  have hline : nextLine (utf8 (agentDialog cmd) ++ 10 :: rest) = some (agentDialog cmd) :=
    nextLine_utf8 (fun h => (hmem h).1 rfl) fun h => (hmem (List.mem_of_getLast? h)).2 rfl
  have htrim : Str.trim (agentDialog cmd) = "UI:DIALOG:AGENT:30:".toList ++ Str.trimEnd cmd := by
    rw [show agentDialog cmd = 'U' :: "I:DIALOG:AGENT:30".toList ++ ':' :: cmd from rfl, Str.trim,
      Str.trimMatches_append (by decide) (by decide)]
    rfl
  rw [runAgent, hline, Option.map_some, htrim, handle_dialog]

/-- The dialog that the daemon asks for is that of the command it got. -/
theorem agentTouch_eq : agentTouch ext i cmd = (do
    let registered ← trySetPendingPam i .agent
    if !registered then pure (.error "BUSY")
    else do
      let subscribed ← load (·.uiCancels)
      let showing ← pushUi (agentDialog cmd)
      let (approved, protocolError) ← raceAgent i showing subscribed
      answerAgent ext i approved protocolError) :=
  rfl

/-- A command that is accepted is not cut, refused or taken for another
request: the dialog gets it whole, but for whitespace at its end. -/
theorem approval_text_arrives (h : prepareAgentCommand cmdArgs = .ok text) :
    let cmd := Str.trimEndMatches (· = ' ') text
    splitRequestChunk (utf8 (agentRequest text)) = .ok ("AGENT_APPROVE:".toList ++ cmd) ∧
      serveChunk ext i peer (utf8 (agentRequest text)) =
        serveLine ext i peer ("AGENT_APPROVE:".toList ++ cmd) ∧
      dispatchOf ("AGENT_APPROVE:".toList ++ cmd) = .agentApprove cmd ∧
      ∀ rest, runAgent (utf8 (agentDialog cmd) ++ 10 :: rest) = some (.dialog
        ["--agent".toList, "--command".toList, Str.trimEnd cmd, "--timeout".toList,
          "30".toList]) := by
  intro cmd
  obtain ⟨htext, hlen⟩ := prepare_eq_ok.mp h
  have hplain : ∀ c ∈ text, isHidden c = false := fun c hc => not_hidden_of_shown (htext ▸ hc)
  have hsplit := splitRequestChunk_agent hplain hlen
  refine ⟨hsplit, ?_, dispatchOf_agent, fun rest => runAgent_dialog fun c hc => ?_⟩
  · rw [serveChunk, hsplit]
  · exact hplain c (Str.trimEndMatches_begins.subset hc)

theorem approval_text_arrives_trimmed :
    prepareAgentCommand ["echo".toList, "a:b \t ".toList] = .ok "echo a:b \t ".toList ∧
      ∀ rest, runAgent (utf8 (agentDialog "echo a:b \t".toList) ++ 10 :: rest) = some (.dialog
        ["--agent".toList, "--command".toList, "echo a:b".toList, "--timeout".toList,
          "30".toList]) := by
  have h : prepareAgentCommand ["echo".toList, "a:b \t ".toList] = .ok "echo a:b \t ".toList := by
    decide
  obtain ⟨-, -, -, hdialog⟩ := @approval_text_arrives .sample 1 ⟨0, 1⟩ _ _ h
  refine ⟨h, fun rest => ?_⟩
  rw [show "echo a:b \t".toList = Str.trimEndMatches (· = ' ') "echo a:b \t ".toList by decide,
    hdialog]
  decide

end

end Immurok
