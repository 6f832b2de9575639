import Immurok.Async.History
import Immurok.Cli.PanelAccounts

/-!
# Runs of the panel

The panel is of one piece in every run and fails at one key only. It knows which checks,
updates and actions are in the works, does not close during an update, and asks for
nothing that destroys something unless this was confirmed.
-/

namespace Immurok.Tui

open Async

def Ui.init : Config Ui := ⟨.start, fun _ => none⟩

section
variable {c : Config Ui} {ok : Loop → LoopEvent → Prop} {es l : List LoopEvent} {s s' : Loop}
  {e : LoopEvent} {i : TaskId} {job : Job} {cmd : Str} {key : Key} {o : Outside}

theorem init_safe : (loopMachine.protocol Ui.observed).Safe Ui.init :=
  ⟨Machine.Trace.nil (M := loopMachine), fun _ _ h => nomatch h⟩

theorem reach_trace (h : interface.Reach Ui.init c) :
    loopMachine.Trace (fun _ _ => True) c.shared.log c.shared.loop :=
  interface_serves.trace init_safe rfl rfl (h.mono fun _ _ _ _ _ => trivial)

/-- A thread that is over has told its end. -/
theorem reach_left (h : interface.Reach Ui.init c) (hi : c.pool i = some (.ret ())) :
    (c.shared.loop.threads i).Left := by
  have hbound : (loopMachine.protocol Ui.observed).Bound (fun _ _ => True)
      (fun i w => (w.loop.threads i).Left) c :=
    interface_serves.sound.bound (fun _ _ _ _ _ _ => trivial) (fun _ _ => thread_left) init_safe
      (fun _ => trivial) h
  exact hbound.ended (reach_trace h) hi

-- ---------------------------------------------------------------------------
-- Failing
-- ---------------------------------------------------------------------------

/-- The key is pressed where the interface fails at it. -/
def Loop.Fatal (key : Key) (s : Loop) : Prop :=
  key.code = .char 'p' ∧ s.panel.mode = .normal ∧ s.panel.tab = .dashboard ∧ s.panel.PairsBlindly

/-- The loop goes on. -/
def Phase.live : Phase → Bool
  | .closed | .crashed => false
  | _ => true

theorem turn_live {t : Turn} (ht : (s.turn t).isSome = true) : s.phase.live = true := by
  cases hp : s.phase with
  | closed | crashed =>
    cases t with
    | _ =>
      unfold Loop.turn at ht
      rw [hp] at ht
      nomatch ht
  | _ => rfl

def Turn.isKey : Turn → Bool
  | .key .. => true
  | _ => false

/-- A turn is a key, or the loop goes on. -/
theorem turn_cases {t : Turn} (ht : s.turn t = some s') :
    (∃ key o, t = .key key o ∧ s' = s.pressed (s.panel.handleKey key o)) ∨
    t.isKey = false ∧ s'.phase.live = true := by
  cases t with
  | key key o =>
    unfold Loop.turn at ht
    dsimp only at ht
    split at ht
    · exact .inl ⟨key, o, rfl, (Option.some.inj ht).symm⟩
    · nomatch ht
  | drained elapsed =>
    unfold Loop.turn at ht
    dsimp only at ht
    split at ht
    · rw [← Option.some.inj ht]
      refine .inr ⟨rfl, ?_⟩
      show Phase.live (if _ then _ else _) = true
      split
      · rfl
      · rfl
    · nomatch ht
  | _ =>
    unfold Loop.turn at ht
    dsimp only at ht
    split at ht
    · rw [← Option.some.inj ht]
      exact .inr ⟨rfl, rfl⟩
    · nomatch ht

theorem ne_of_live {phase : Phase} (h : phase.live = true) : phase ≠ .closed ∧ phase ≠ .crashed := by
  cases phase with
  | closed | crashed => nomatch h
  | _ => exact ⟨nofun, nofun⟩

theorem pressed_live {p : Panel} {out : Outcome} (hl : s.phase.live = true)
    (hp : out.panel? = some p) : (s.pressed (.ok out)).phase.live = true := by
  cases out with
  | quit => nomatch hp
  | again p => exact hl
  | on p req =>
    cases req with
    | none => rfl
    | some req => rfl

theorem turn_crashed {t : Turn} (h : s.Accounts) (ht : s.turn t = some s') :
    s'.phase = .crashed ↔ ∃ key o, t = .key key o ∧ s.Fatal key := by
  obtain ⟨key, o, rfl, rfl⟩ | ⟨hne, hl⟩ := turn_cases ht
  · have hfails := @Panel.handleKey_fails s.panel o key .panic h.sane
    cases hout : s.panel.handleKey key o with
    | error e =>
      have hfatal := (Panel.handleKey_fails h.sane).mp hout
      exact ⟨fun _ => ⟨key, o, rfl, hfatal.2⟩, fun _ => rfl⟩
    | ok out =>
      rw [hout] at hfails
      have hne : (s.pressed (.ok out)).phase ≠ .crashed := by
        cases hp : out.panel? with
        | none =>
          cases out with
          | quit => exact Phase.noConfusion
          | again p => nomatch hp
          | on p req => nomatch hp
        | some p => exact (ne_of_live (pressed_live (turn_live (by rw [ht]; rfl)) hp)).2
      refine ⟨fun hc => absurd hc hne, ?_⟩
      rintro ⟨key', o', hk, hfatal⟩
      obtain ⟨rfl, rfl⟩ := Turn.key.inj hk
      nomatch hfails.mpr ⟨rfl, hfatal⟩
  · refine ⟨fun hc => absurd hc (ne_of_live hl).2, ?_⟩
    rintro ⟨key, o, rfl, -⟩
    nomatch hne

theorem crashed_iff (h : loopMachine.Trace ok es s) : s.phase = .crashed ↔
    ∃ key o, loopMachine.Saw es (.turn (.key key o)) (Loop.Fatal key) := by
  induction h with
  | nil =>
    refine ⟨nofun, ?_⟩
    rintro ⟨key, o, l, hl, -⟩
    nomatch List.suffix_nil.mp hl
  | @cons es v e ht ha _ ih =>
    have hreplay := ht.eq_replay
    cases e with
    | turn t =>
      obtain ⟨v', hv'⟩ := Option.isSome_iff_exists.mp ha
      rw [step_turn hv', turn_crashed (Loop.accounts ht) hv']
      constructor
      · rintro ⟨key, o, rfl, hfatal⟩
        exact ⟨key, o, .head (by rwa [← hreplay])⟩
      · rintro ⟨key, o, l, hl, hfatal⟩
        obtain heq | hl := List.suffix_cons_iff.mp hl
        · obtain ⟨he, rfl⟩ := List.cons.inj heq
          rw [← hreplay] at hfatal
          exact ⟨key, o, (LoopEvent.turn.inj he).symm, hfatal⟩
        · exact absurd (ih.mpr ⟨key, o, l, hl, hfatal⟩) (ne_of_live (turn_live ha)).2
    | began i job | asked i cmd | told i r =>
      refine Iff.trans (Iff.trans ?_ ih) ?_
      · exact Iff.rfl
      · constructor
        · rintro ⟨key, o, hsaw⟩
          exact ⟨key, o, hsaw.cons⟩
        · rintro ⟨key, o, l, hl, hfatal⟩
          obtain heq | hl := List.suffix_cons_iff.mp hl
          · nomatch (List.cons.inj heq).1
          · exact ⟨key, o, l, hl, hfatal⟩

/-- The interface comes down exactly where `p` is pressed for a pairing of which the
slot is not known, and is of one piece until then. -/
theorem panel_sane (h : interface.Reach Ui.init c) : c.shared.loop.panel.Sane ∧
    (c.shared.loop.phase = .crashed ↔
      ∃ key o, loopMachine.Saw c.shared.log (.turn (.key key o)) (Loop.Fatal key)) :=
  ⟨(Loop.accounts (reach_trace h)).sane, crashed_iff (reach_trace h)⟩

/-- Answers of a daemon that is up, with a device that is connected. -/
def Outside.sample (pairStatus : Str) : Outside :=
  { status := some "STATUS:1:immurok:90:1.6.12:0", pairStatus := some pairStatus
    fpList := some "OK:1", slotStatus := some "OK:1:1:1", settings := some "OK:sudo=1:polkit=1"
    pamDir := fun _ => none, sshCache := [], nameCache := [], isolated := some true
    info := .error "-", logStream := .error "-" }

/-- A key, and the rest of its turn. -/
def typing (c : Char) (o : Outside) : List (Async.Event Outer Unit) :=
  [.env (.turn (.key ⟨.char c, false⟩ o)), .env (.turn (.drained false))]

/-- The second refresh does not ask for the slots. -/
theorem panel_sane_sample : ∃ c, interface.Reach Ui.init c ∧ c.shared.loop.phase = .crashed ∧
    c.shared.loop.panel.Sane ∧
    ∃ key o, loopMachine.Saw c.shared.log (.turn (.key key o)) (Loop.Fatal key) := by
  let o := Outside.sample "OK:UNPAIRED"
  obtain ⟨c, hr, hc⟩ := System.exists_run interface (fun _ _ => true) Ui.init
    ([.env (.turn (.started o)), .env (.turn .noKey), .env (.turn (.drained true)),
      .env (.turn (.refreshed o))] ++ (typing 'p' o).take 1)
    (fun w => w.loop.phase == .crashed) (by decide +kernel)
  have hcrashed := eq_of_beq hc
  have hs := panel_sane hr.reach
  exact ⟨c, hr.reach, hcrashed, hs.1, hs.2.mp hcrashed⟩

-- ---------------------------------------------------------------------------
-- Firmware
-- ---------------------------------------------------------------------------

theorem Panel.toOutcome_ne_quit {q : Checked Panel} : toOutcome q ≠ .ok .quit := by
  cases q with
  | error e => nofun
  | ok q => nofun

theorem Panel.normalKey_quit {p : Panel} {code : KeyCode} (h : p.normalKey code o = .ok .quit) :
    p.fwUpdating = false := by
  unfold normalKey at h
  split at h
  · split at h
    · nomatch h
    next hu => exact Bool.eq_false_iff.mpr hu
  iterate 6 nomatch h
  split at h
  · exact absurd h toOutcome_ne_quit
  all_goals nomatch h

theorem Panel.handleKey_quit {p : Panel} (h : p.handleKey key o = .ok .quit) :
    p.fwUpdating = false := by
  unfold handleKey at h
  split at h
  · split at h
    · nomatch h
    next hu => exact Bool.eq_false_iff.mpr hu
  split at h
  · exact normalKey_quit h
  iterate 3 nomatch h
  · exact absurd h toOutcome_ne_quit
  all_goals nomatch h

/-- The loop is left only outside of updates. -/
theorem closed_idle (h : loopMachine.Trace ok es s) (hc : s.phase = .closed) :
    s.panel.fwUpdating = false := by
  induction h with
  | nil => nomatch hc
  | @cons es v e ht ha _ ih =>
    cases e with
    | turn t =>
      obtain ⟨v', hv'⟩ := Option.isSome_iff_exists.mp ha
      rw [step_turn hv'] at hc ⊢
      obtain ⟨key, o, rfl, rfl⟩ | ⟨-, hl⟩ := turn_cases hv'
      · cases hout : v.panel.handleKey key o with
        | error e =>
          rw [hout] at hc
          nomatch hc
        | ok out =>
          cases hp : out.panel? with
          | none =>
            cases out with
            | quit => exact Panel.handleKey_quit hout
            | again p => nomatch hp
            | on p req => nomatch hp
          | some p =>
            rw [hout] at hc
            exact absurd hc (ne_of_live (pressed_live (turn_live ha) hp)).1
      · exact absurd hc (ne_of_live hl).1
    | began i job => exact ih hc
    | asked i cmd => exact ih hc
    | told i r => exact ih hc

/-- The panel knows which check and which update is in the works: there is at most one
of either, and the interface does not close during an update. -/
theorem firmware_known (h : interface.Reach Ui.init c) :
    c.shared.loop.count Job.isCheck =
      (if c.shared.loop.panel.fwState = .checking then 1 else 0) ∧
    c.shared.loop.count Job.isPush =
      (if c.shared.loop.panel.fwUpdating = true then 1 else 0) ∧
    (c.shared.loop.phase = .closed → c.shared.loop.count Job.isPush = 0) := by
  have hs := Loop.accounts (reach_trace h)
  refine ⟨hs.checks, hs.updates, fun hc => ?_⟩
  rw [hs.updates, closed_idle (reach_trace h) hc]
  rfl

/-- What thread `i` does in its next `n` steps. -/
def working (i : TaskId) (n : Nat) : List (Async.Event Outer Unit) := List.replicate n (.run i 0)

def sampleUpdate : PreparedUpdate :=
  { deviceVersion := "1.6.12", targetVersion := "1.6.13", notes := none, hops := []
    resumed := false }

/-- An update that goes on. -/
def updating (o : Outside) : List (Async.Event Outer Unit) :=
  [.env (.turn (.started o))] ++ typing '5' o ++ [.spawn 1 ()] ++ working 1 2 ++
  [.env (.reply 1 (.prepared (.ok (some sampleUpdate))))] ++ working 1 2 ++
  [.env (.turn .noKey), .env (.turn (.drained false)),
    .env (.turn (.key ⟨.enter, false⟩ o)), .env (.turn (.drained false))]

theorem firmware_known_sample : ∃ c, interface.Reach Ui.init c ∧
    c.shared.loop.panel.fwUpdating = true ∧ c.shared.loop.count Job.isPush = 1 ∧
    c.shared.loop.phase ≠ .closed := by
  let o := Outside.sample "OK:PAIRED"
  obtain ⟨c, hr, hc⟩ := System.exists_run interface (fun _ _ => true) Ui.init
    (updating o ++ typing 'q' o) (fun w => w.loop.panel.fwUpdating) (by decide +kernel)
  have hs := firmware_known hr.reach
  have hone := hs.2.1.trans (if_pos hc)
  refine ⟨c, hr.reach, hc, hone, fun hclosed => ?_⟩
  nomatch hone.symm.trans (hs.2.2 hclosed)

-- ---------------------------------------------------------------------------
-- Actions
-- ---------------------------------------------------------------------------

/-- Actions are one at a time, but for updates that were begun beside one, and a panel
that is busy waits for a thread that is not over or has told its end. -/
theorem actions_exclusive (h : interface.Reach Ui.init c) :
    c.shared.loop.count Job.acting ≤
      c.shared.loop.overlaps + c.shared.loop.panel.busy.toNat ∧
    (c.shared.loop.panel.busy = true →
      ∃ i job, c.shared.loop.panel.spawned[i]? = some job ∧ job.acting = true ∧
        (c.pool i ≠ some (.ret ()) ∨ c.shared.loop.ending i = true)) := by
  have hs := Loop.accounts (reach_trace h)
  refine ⟨hs.acting, fun hb => ?_⟩
  obtain ⟨i, -, hhas⟩ := List.countP_pos_iff.mp (hs.busy hb)
  obtain ⟨hpending, hany⟩ := (Bool.and_eq_true _ _).mp hhas
  obtain ⟨job, hjob, hacting⟩ := (Option.any_eq_true _ _).mp hany
  refine ⟨i, job, hjob, hacting, ?_⟩
  by_cases hpool : c.pool i = some (.ret ())
  · refine .inr ?_
    obtain ⟨job', hover⟩ | ⟨job', hheard, asked, hgoing⟩ := reach_left h hpool
    · unfold Loop.pending at hpending
      rwa [hover] at hpending
    · have hjob' := hs.orderly.job i job' (by rw [hgoing]; rfl)
      obtain rfl := Option.some.inj (hjob.symm.trans hjob')
      cases job with
      | pairProgress | enrollCancel => nomatch hacting
      | _ => nomatch hheard
  · exact .inl hpool

/-- An update that is begun during a check of the fingerprint. -/
theorem actions_exclusive_sample : ∃ c, interface.Reach Ui.init c ∧
    c.shared.loop.panel.busy = true ∧ c.shared.loop.count Job.acting ≤ 1 ∧
    ∃ i job, c.shared.loop.panel.spawned[i]? = some job ∧ job.acting = true ∧
      (c.pool i ≠ some (.ret ()) ∨ c.shared.loop.ending i = true) := by
  let o := Outside.sample "OK:PAIRED"
  obtain ⟨c, hr, hc⟩ := System.exists_run interface (fun _ _ => true) Ui.init
    ([.env (.turn (.started o))] ++ typing 'v' o ++ [.spawn 1 ()] ++ working 1 3)
    (fun w => w.loop.panel.busy && w.loop.overlaps == 0) (by decide +kernel)
  obtain ⟨hb, hov⟩ := Bool.and_eq_true_iff.mp hc
  have hs := actions_exclusive hr.reach
  refine ⟨c, hr.reach, hb, ?_, hs.2 hb⟩
  have hone := hs.1
  rw [eq_of_beq hov, hb] at hone
  exact hone

-- ---------------------------------------------------------------------------
-- What destroys something
-- ---------------------------------------------------------------------------

/-- The commands that unbind a host, wipe the device or delete a key. -/
def destructive (cmd : Str) : Bool :=
  Str.startsWith "SLOT:CLEAR" cmd || cmd == "PAIR:FACTORY_RESET".toList ||
    Str.startsWith "KEY:DELETE:" cmd

theorem harmful (h : cmd ∈ job.commands) (hd : destructive cmd = true) : job.harmless = false := by
  cases job with
  | slotClear slot => rfl
  | factoryReset => rfl
  | unpair => rfl
  | keyDelete tab idx => rfl
  | keyAdd cat label name service secret =>
    rw [List.mem_singleton.mp h] at hd
    cases cat with
    | otp => nomatch hd
    | api => nomatch hd
  | fwSilentCheck | fwCheck | fwUpdate | logStream => nomatch h
  | enroll slot =>
    obtain rfl | h := List.mem_cons.mp h
    · nomatch hd
    obtain rfl | h := List.mem_cons.mp h
    · nomatch hd
    · rw [List.mem_singleton.mp h] at hd
      nomatch hd
  | _ =>
    rw [List.mem_singleton.mp h] at hd
    nomatch hd

theorem commands_harmful (h : cmd ∈ job.commands) (hj : job.harmless = false) :
    job.commands = [cmd] := by
  cases job with
  | slotClear | factoryReset | unpair | keyDelete => rw [List.mem_singleton.mp h]; rfl
  | _ => nomatch hj

theorem drainActions_spawned {p : Panel} {reports : List Report} :
    (p.drainActions reports).spawned = p.spawned := by
  induction reports generalizing p with
  | nil => rfl
  | cons r reports ih => exact ih.trans Loop.receive_spawned

theorem changes_mem {p p' : Panel} {d : Job → Prop} (hc : Panel.Changes d p p')
    (hj : job ∈ p'.spawned) : job ∈ p.spawned ∨ job.harmless = true ∨ d job := by
  obtain ⟨jobs, hjobs, hkind⟩ := Loop.changes_spawned hc
  rw [hjobs] at hj
  obtain hj | hj := List.mem_append.mp hj
  · exact .inl hj
  · exact .inr (hkind job hj).2

/-- Where nothing is confirmed. -/
theorem harmless_mem {p p' : Panel} (hc : Panel.Changes (fun _ => False) p p')
    (hj : job ∈ p'.spawned) : job ∈ p.spawned ∨ job.harmless = true :=
  (changes_mem hc hj).imp_right fun h => h.resolve_right id

theorem receive_mem (hj : job ∈ s.receive.panel.spawned) : job ∈ s.panel.spawned := by
  rwa [show s.receive.panel.spawned = s.panel.spawned from drainActions_spawned] at hj

/-- What a turn begins: jobs that are harmless, or that its key confirms. -/
theorem turn_mem {t : Turn} (h : s.Accounts) (ht : s.turn t = some s')
    (hj : job ∈ s'.panel.spawned) : job ∈ s.panel.spawned ∨ job.harmless = true ∨
      ∃ key o, t = .key key o ∧ s.panel.Confirms key.code job := by
  cases t with
  | key key o =>
    unfold Loop.turn at ht
    dsimp only at ht
    split at ht
    · rw [← Option.some.inj ht] at hj
      cases hout : s.panel.handleKey key o with
      | error e =>
        rw [hout] at hj
        exact .inl hj
      | ok out =>
        rw [hout] at hj
        have hpress {p : Panel} (hp : out.panel? = some p) (hj : job ∈ p.spawned) :
            job ∈ s.panel.spawned ∨ job.harmless = true ∨
              ∃ key' o', Turn.key key o = .key key' o' ∧ s.panel.Confirms key'.code job := by
          obtain hc | ⟨prep, -, -, rfl⟩ := Panel.handleKey_cases h.sane hout hp
          · exact (changes_mem hc hj).imp_right (.imp_right fun hd => ⟨key, o, rfl, hd⟩)
          · obtain hj | hj := List.mem_append.mp hj
            · exact .inl hj
            · rw [List.mem_singleton.mp hj]
              exact .inr (.inl rfl)
        cases out with
        | quit => exact .inl hj
        | again p => exact hpress rfl hj
        | on p req => exact hpress rfl hj
    · nomatch ht
  | started o =>
    unfold Loop.turn at ht
    dsimp only at ht
    split at ht
    · rw [← Option.some.inj ht] at hj
      obtain hj | hj := List.mem_append.mp hj
      · exact (harmless_mem Panel.refresh_changes hj).imp receive_mem .inl
      · rw [List.mem_singleton.mp hj]
        exact .inr (.inl rfl)
    · nomatch ht
  | noKey =>
    unfold Loop.turn at ht
    dsimp only at ht
    split at ht
    · rw [← Option.some.inj ht] at hj
      exact .inl hj
    · nomatch ht
  | helped ok o =>
    unfold Loop.turn at ht
    dsimp only at ht
    split at ht
    next req _ =>
      rw [← Option.some.inj ht] at hj
      obtain hj | hj := harmless_mem Panel.refresh_changes hj
      · exact (harmless_mem Panel.afterPamAction_changes (receive_mem hj)).imp_right .inl
      · exact .inr (.inl hj)
    next => nomatch ht
  | drained elapsed =>
    unfold Loop.turn at ht
    dsimp only at ht
    split at ht
    · rw [← Option.some.inj ht] at hj
      exact .inl (receive_mem hj)
    · nomatch ht
  | refreshed o =>
    unfold Loop.turn at ht
    dsimp only at ht
    split at ht
    · rw [← Option.some.inj ht] at hj
      exact (harmless_mem Panel.refresh_changes hj).imp receive_mem .inl
    · nomatch ht

/-- Every job that is not harmless was confirmed. -/
theorem harmful_confirmed (h : loopMachine.Trace ok es s) (hj : job ∈ s.panel.spawned)
    (hn : job.harmless = false) : ∃ key o,
      loopMachine.Saw es (.turn (.key key o)) fun s => s.panel.Confirms key.code job := by
  induction h with
  | nil => nomatch hj
  | @cons es v e ht ha _ ih =>
    have hold (hj : job ∈ v.panel.spawned) : ∃ key o, loopMachine.Saw (e :: es)
        (.turn (.key key o)) fun s => s.panel.Confirms key.code job := by
      obtain ⟨key, o, hsaw⟩ := ih hj
      exact ⟨key, o, hsaw.cons⟩
    cases e with
    | turn t =>
      obtain ⟨v', hv'⟩ := Option.isSome_iff_exists.mp ha
      rw [step_turn hv'] at hj
      obtain hj | hj | ⟨key, o, rfl, hd⟩ := turn_mem (Loop.accounts ht) hv' hj
      · exact hold hj
      · nomatch hn.symm.trans hj
      · exact ⟨key, o, .head (by rwa [← ht.eq_replay])⟩
    | began i job => exact hold hj
    | asked i cmd => exact hold hj
    | told i r => exact hold hj

/-- The thread has asked something. -/
def Thread.hasAsked : Thread → Bool
  | .unborn | .running _ false => false
  | _ => true

theorem asked_before (h : loopMachine.Trace ok es s) (he : .asked i cmd ∈ es) :
    (s.threads i).hasAsked = true := by
  induction h with
  | nil => nomatch he
  | @cons es v e ht ha _ ih =>
    have hold (j : TaskId) {th : Thread} (hi : j = i → (v.threads i).hasAsked = true →
        th.hasAsked = true) (he : .asked i cmd ∈ es) :
        (Function.update v.threads j th i).hasAsked = true := by
      by_cases hji : j = i
      · subst hji
        rw [Function.update_self]
        exact hi rfl (ih he)
      · rw [Function.update_of_ne (Ne.symm hji)]
        exact ih he
    cases e with
    | turn t =>
      obtain ⟨v', hv'⟩ := Option.isSome_iff_exists.mp ha
      have he := (List.mem_cons.mp he).resolve_left nofun
      rw [step_turn hv', turn_threads hv']
      exact ih he
    | began j job =>
      refine hold j (fun hji hasked => ?_) ((List.mem_cons.mp he).resolve_left nofun)
      rw [← hji, ha.1] at hasked
      nomatch hasked
    | asked j cmd' =>
      obtain ⟨job, asked, hrunning, -⟩ := ha
      obtain he | he := List.mem_cons.mp he
      · obtain ⟨rfl, rfl⟩ := LoopEvent.asked.inj he
        show (Function.update v.threads i (v.threads i).ask i).hasAsked = true
        rw [Function.update_self, hrunning]
        rfl
      · refine hold j (fun hji _ => ?_) he
        rw [hrunning]
        rfl
    | told j r =>
      obtain ⟨job, asked, hrunning, -⟩ := ha
      refine hold j (fun hji hasked => ?_) ((List.mem_cons.mp he).resolve_left nofun)
      rw [← hji, hrunning] at hasked
      rw [hrunning, Thread.tell]
      split
      · rfl
      · exact hasked

/-- What unbinds a host, wipes the device or deletes a key is asked for once by a thread
whose action was confirmed before, as it stood there. -/
theorem destructive_confirmed (h : interface.Reach Ui.init c)
    (hs : .asked i cmd :: l <:+ c.shared.log) (hd : destructive cmd = true) :
    (∃ job key o, job.commands = [cmd] ∧
      loopMachine.Saw l (.turn (.key key o)) fun s => s.panel.Confirms key.code job) ∧
    ∀ cmd', .asked i cmd' ∉ l := by
  obtain ⟨v, ht, ⟨job, asked, hrunning, hcmd, hfirst⟩, -⟩ := (reach_trace h).suffix hs
  have hn := harmful hcmd hd
  have hjob := (Loop.accounts ht).orderly.job i job (by rw [hrunning]; rfl)
  obtain ⟨key, o, hsaw⟩ := harmful_confirmed ht (List.mem_of_getElem? hjob) hn
  refine ⟨⟨job, key, o, commands_harmful hcmd hn, hsaw⟩, fun cmd' he => ?_⟩
  obtain hharmless | rfl := hfirst
  · nomatch hn.symm.trans hharmless
  · have hasked := asked_before ht he
    rw [hrunning] at hasked
    nomatch hasked

/-- The last event is this request. -/
def lastAsked (i : TaskId) (cmd : Str) : List LoopEvent → Bool
  | .asked i' cmd' :: _ => i' == i && cmd' == cmd
  | _ => false

theorem lastAsked_eq (h : lastAsked i cmd es = true) : ∃ l, es = .asked i cmd :: l := by
  unfold lastAsked at h
  split at h
  next i' cmd' l =>
    obtain ⟨hi, hcmd⟩ := Bool.and_eq_true_iff.mp h
    rw [eq_of_beq hi, eq_of_beq hcmd]
    exact ⟨l, rfl⟩
  next => nomatch h

theorem destructive_confirmed_sample : ∃ c l, interface.Reach Ui.init c ∧
    c.shared.log = .asked 1 "PAIR:FACTORY_RESET".toList :: l ∧
    ∃ job key o, job.commands = ["PAIR:FACTORY_RESET".toList] ∧
      loopMachine.Saw l (.turn (.key key o)) fun s => s.panel.Confirms key.code job := by
  let o := Outside.sample "OK:PAIRED"
  obtain ⟨c, hr, hc⟩ := System.exists_run interface (fun _ _ => true) Ui.init
    ([.env (.turn (.started o))] ++ typing 'H' o ++ typing 'R' o ++ typing 'y' o ++
      [.spawn 1 ()] ++ working 1 2)
    (fun w => lastAsked 1 "PAIR:FACTORY_RESET" w.log) (by decide +kernel)
  obtain ⟨l, hl⟩ := lastAsked_eq hc
  exact ⟨c, l, hr.reach, hl, (destructive_confirmed hr.reach (by rw [hl]) (by decide)).1⟩

end

end Immurok.Tui
