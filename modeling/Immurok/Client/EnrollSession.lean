import Immurok.Client.Fingerprint

/-!
# The enrollment driver

The loop that polls the daemon for the progress of an enrollment and reports it.
What it is given to call may change a world of its own; the clock moves when it
sleeps.
-/

namespace Immurok

abbrev pollInterval : Nat := 150
abbrev idleBitmapCheck : Nat := secs 3
abbrev enrollTimeout : Nat := secs 360

inductive EnrollProgress
  | gateWaiting
  | started
  | step (nextStep captured total : UInt8)
  | liftFinger
  | overlap
  | processing
  | complete
  | failed (message : Str)
  deriving DecidableEq

inductive Continue
  | go
  | stop
  deriving DecidableEq

inductive Outcome
  | complete
  | failed
  | cancelled
  deriving DecidableEq

-- ---------------------------------------------------------------------------
-- The loop
-- ---------------------------------------------------------------------------

/-- What the driver calls. -/
structure DriveEnv (W : Type) where
  poll : W → Except Str EnrollStatus × W
  bitmap : W → Except Str FpSlots × W
  stop : W → Bool × W
  tick : EnrollProgress → W → Continue × W

/-- `step_event`, with `saturating_add`. -/
def stepEvent (current total : UInt8) : EnrollProgress :=
  .step (min (if current = 255 then 255 else current + 1) (max total 1)) current total

/-- The variables of the loop. -/
structure DriveVars where
  last : Option EnrollStatus
  idleSince : Option Nat

/-- The event of a status that is not idle. -/
def EnrollStatus.event : EnrollStatus → EnrollProgress
  | .waiting current total | .captured current total => stepEvent current total
  | .liftFinger => .liftFinger
  | .overlap => .overlap
  | .processing => .processing
  | .complete => .complete
  | .failed => .failed "Enrollment failed"
  -- handled before
  | .idle => .processing

section
variable (env : DriveEnv W) (slot : UInt8)

/-- The device says nothing: after a while the bitmap is looked at. -/
def driveIdle (vars : DriveVars) (now : Nat) (w : W) : (Outcome ⊕ DriveVars) × W :=
  match vars.idleSince with
  | none => (.inr { vars with idleSince := some now }, w)
  | some t =>
    if idleBitmapCheck ≤ now - t then
      let vars := { vars with idleSince := some now }
      match env.bitmap w with
      | (.ok b, w) =>
        if b.isEnrolled slot then (.inl .complete, (env.tick .complete w).2) else (.inr vars, w)
      | (.error _, w) => (.inr vars, w)
    else (.inr vars, w)

/-- The rest of a pass after its sleep. -/
def drivePoll (vars : DriveVars) (now : Nat) (w : W) : (Outcome ⊕ DriveVars) × W :=
  match env.poll w with
  | (.error e, w) =>
    if Str.contains "NOT_CONNECTED" e then
      (.inl .failed, (env.tick (.failed "Device disconnected") w).2)
    else (.inr vars, w)
  | (.ok status, w) =>
    if status = .idle then driveIdle env slot vars now w
    else
      let vars := { vars with idleSince := none }
      if vars.last = some status then (.inr vars, w)
      else
        let (cont, w) := env.tick status.event w
        if status = .complete then (.inl .complete, w)
        else if status = .failed then (.inl .failed, w)
        else if cont = .stop then (.inl .cancelled, w)
        else (.inr { vars with last := some status }, w)

/-- The loop, and when it is left. -/
def driveLoop (started : Nat) (vars : DriveVars) (now : Nat) (w : W) : Outcome × Nat × W :=
  if enrollTimeout < now - started then
    (.failed, now, (env.tick (.failed "Enrollment timed out") w).2)
  else
    let (stopped, w) := env.stop w
    if stopped then (.cancelled, now, w)
    else
      let now := now + pollInterval
      match drivePoll env slot vars now w with
      | (.inl outcome, w) => (outcome, now, w)
      | (.inr vars, w) => driveLoop started vars now w
termination_by started + enrollTimeout + pollInterval - now
decreasing_by
  simp only [pollInterval, enrollTimeout, secs] at *
  omega

def drive (now : Nat) (w : W) : Outcome × Nat × W :=
  let (stopped, w) := env.stop w
  if stopped then (.cancelled, now, w)
  else
    let (cont, w) := env.tick .started w
    if cont = .stop then (.cancelled, now, w)
    else driveLoop env slot now { last := none, idleSince := none } now w

end

/-- What a whole run calls besides. -/
structure EnrollEnv (W : Type) extends DriveEnv W where
  enrollStart : UInt8 → W → Except Str Unit × W
  enrollCancel : W → W

/-- An enrollment from end to end. -/
def runEnrollment (env : EnrollEnv W) (slot : UInt8) (now : Nat) (w : W) : W :=
  let (stopped, w) := env.stop w
  if stopped then w
  else
    let (cont, w) := env.tick .gateWaiting w
    if cont = .stop then w
    else
      match env.enrollStart slot w with
      | (.error e, w) => (env.tick (.failed e) w).2
      | (.ok _, w) =>
        let (outcome, _, w) := drive env.toDriveEnv slot now w
        if outcome = .cancelled then env.enrollCancel w else w

-- ---------------------------------------------------------------------------
-- Calls
-- ---------------------------------------------------------------------------

/-- A call and what it returned. -/
inductive DriveCall
  | poll (r : Except Str EnrollStatus)
  | bitmap (r : Except Str FpSlots)
  | stop (r : Bool)
  | tick (ev : EnrollProgress) (r : Continue)

def DriveCall.event? : DriveCall → Option EnrollProgress
  | .tick ev _ => some ev
  | _ => none

/-- The events in order. -/
def driveEvents (calls : List DriveCall) : List EnrollProgress := calls.filterMap DriveCall.event?

/-- The caller wants no more. -/
def DriveCall.Stops : DriveCall → Prop
  | .tick _ r => r = .stop
  | .stop r => r = true
  | _ => False

def EnrollProgress.Terminal : EnrollProgress → Prop
  | .complete | .failed _ => True
  | _ => False

def EnrollProgress.IsProgress : EnrollProgress → Prop
  | .step .. | .liftFinger | .overlap | .processing => True
  | _ => False

/-- A status other than idle is reported at once if it is not the last one
reported, and nothing else is reported as progress. -/
inductive Prompt : Option EnrollStatus → List DriveCall → Prop
  | nil {last : Option EnrollStatus} : Prompt last []
  | changed {last : Option EnrollStatus} {s : EnrollStatus} {c : Continue}
    {calls : List DriveCall} : s ≠ .idle → last ≠ some s → Prompt (some s) calls →
    Prompt last (.poll (.ok s) :: .tick s.event c :: calls)
  | unchanged {last : Option EnrollStatus} {s : EnrollStatus} {calls : List DriveCall} :
    s = .idle ∨ last = some s → Prompt last calls → Prompt last (.poll (.ok s) :: calls)
  | hiccup {last : Option EnrollStatus} {e : Str} {calls : List DriveCall} :
    Prompt last calls → Prompt last (.poll (.error e) :: calls)
  | bitmap {last : Option EnrollStatus} {r : Except Str FpSlots} {calls : List DriveCall} :
    Prompt last calls → Prompt last (.bitmap r :: calls)
  | stop {last : Option EnrollStatus} {r : Bool} {calls : List DriveCall} :
    Prompt last calls → Prompt last (.stop r :: calls)
  | other {last : Option EnrollStatus} {ev : EnrollProgress} {c : Continue}
    {calls : List DriveCall} : ¬ev.IsProgress → Prompt last calls →
    Prompt last (.tick ev c :: calls)

/-- The calls of a pass after its sleep. -/
inductive PollCalls (slot : UInt8) (vars : DriveVars) :
    List DriveCall → Outcome ⊕ DriveVars → Prop
  | disconnected {e : Str} {c : Continue} : PollCalls slot vars
    [.poll (.error e), .tick (.failed "Device disconnected") c] (.inl .failed)
  | hiccup {e : Str} : PollCalls slot vars [.poll (.error e)] (.inr vars)
  | idle {t : Option Nat} : PollCalls slot vars [.poll (.ok .idle)]
    (.inr { vars with idleSince := t })
  | looked {r : Except Str FpSlots} {t : Option Nat} : PollCalls slot vars
    [.poll (.ok .idle), .bitmap r] (.inr { vars with idleSince := t })
  | enrolled {b : FpSlots} {c : Continue} : b.isEnrolled slot = true → PollCalls slot vars
    [.poll (.ok .idle), .bitmap (.ok b), .tick .complete c] (.inl .complete)
  | same {s : EnrollStatus} : vars.last = some s → PollCalls slot vars [.poll (.ok s)]
    (.inr { vars with idleSince := none })
  | changed {s : EnrollStatus} {c : Continue} {r : Outcome ⊕ DriveVars} : s ≠ .idle →
    vars.last ≠ some s →
    r = (if s = .complete then .inl .complete else if s = .failed then .inl .failed
      else if c = .stop then .inl .cancelled else .inr { last := some s, idleSince := none }) →
    PollCalls slot vars [.poll (.ok s), .tick s.event c] r

/-- The calls of the loop. -/
inductive LoopCalls (slot : UInt8) : DriveVars → List DriveCall → Outcome → Prop
  | timeout {vars : DriveVars} {c : Continue} :
    LoopCalls slot vars [.tick (.failed "Enrollment timed out") c] .failed
  | stopped {vars : DriveVars} : LoopCalls slot vars [.stop true] .cancelled
  | ended {vars : DriveVars} {calls : List DriveCall} {outcome : Outcome} :
    PollCalls slot vars calls (.inl outcome) →
    LoopCalls slot vars (.stop false :: calls) outcome
  | again {vars vars' : DriveVars} {calls rest : List DriveCall} {outcome : Outcome} :
    PollCalls slot vars calls (.inr vars') → LoopCalls slot vars' rest outcome →
    LoopCalls slot vars (.stop false :: calls ++ rest) outcome

section
variable {env : DriveEnv W} {slot : UInt8} {vars vars' : DriveVars} {now started : Nat} {w : W}
  {log calls rest : List DriveCall} {outcome : Outcome} {r : Outcome ⊕ DriveVars}

theorem driveLoop_timeout (h : enrollTimeout < now - started) :
    driveLoop env slot started vars now w =
      (.failed, now, (env.tick (.failed "Enrollment timed out") w).2) := by
  rw [driveLoop, if_pos h]

theorem driveLoop_stopped (h : ¬enrollTimeout < now - started) {w' : W}
    (hstop : env.stop w = (true, w')) :
    driveLoop env slot started vars now w = (.cancelled, now, w') := by
  rw [driveLoop, if_neg h, hstop]
  rfl

theorem driveLoop_ended (h : ¬enrollTimeout < now - started) {w' w'' : W}
    (hstop : env.stop w = (false, w'))
    (hpoll : drivePoll env slot vars (now + pollInterval) w' = (.inl outcome, w'')) :
    driveLoop env slot started vars now w = (outcome, now + pollInterval, w'') := by
  rw [driveLoop, if_neg h, hstop]
  dsimp only
  rw [if_neg Bool.false_ne_true, hpoll]

theorem driveLoop_again (h : ¬enrollTimeout < now - started) {w' w'' : W}
    (hstop : env.stop w = (false, w'))
    (hpoll : drivePoll env slot vars (now + pollInterval) w' = (.inr vars', w'')) :
    driveLoop env slot started vars now w =
      driveLoop env slot started vars' (now + pollInterval) w'' := by
  rw [driveLoop, if_neg h, hstop]
  dsimp only
  rw [if_neg Bool.false_ne_true, hpoll]

theorem PollCalls.prompt {last : Option EnrollStatus} (h : PollCalls slot vars calls r)
    (hlast : vars.last = last)
    (hrest : ∀ vars', r = .inr vars' → Prompt vars'.last rest) (hend : ∀ o, r = .inl o → rest = []) :
    Prompt last (calls ++ rest) := by
  subst hlast
  have hdone {o : Outcome} {l : Option EnrollStatus} (h : r = .inl o) : Prompt l rest := by
    rw [hend o h]
    exact .nil
  cases h with
  | disconnected => exact .hiccup (.other (fun h => h) (hdone rfl))
  | hiccup => exact .hiccup (hrest _ rfl)
  | @idle t => exact .unchanged (.inl rfl) (hrest { vars with idleSince := t } rfl)
  | @looked _ t => exact .unchanged (.inl rfl) (.bitmap (hrest { vars with idleSince := t } rfl))
  | enrolled => exact .unchanged (.inl rfl) (.bitmap (.other (fun h => h) (hdone rfl)))
  | same hlast => exact .unchanged (.inr hlast) (hrest { vars with idleSince := none } rfl)
  | changed hidle hlast hr =>
    refine .changed hidle hlast ?_
    split_ifs at hr with h₁ h₂ h₃
    · exact hdone hr
    · exact hdone hr
    · exact hdone hr
    · exact hrest _ hr

/-- The calls up to an outcome: nothing follows the end or a wish to stop. -/
structure Ends (calls : List DriveCall) (outcome : Outcome) : Prop where
  last : (driveEvents calls).Pairwise fun ev _ => ¬ev.Terminal
  complete : .complete ∈ driveEvents calls ↔ outcome = .complete
  failed : (∃ message, .failed message ∈ driveEvents calls) ↔ outcome = .failed
  quiet : calls.Pairwise fun call next => call.Stops → next.event? = none

theorem driveEvents_append {calls calls' : List DriveCall} :
    driveEvents (calls ++ calls') = driveEvents calls ++ driveEvents calls' :=
  List.filterMap_append

/-- A call that neither ends nor stops anything. -/
def DriveCall.Passes (call : DriveCall) : Prop :=
  ¬call.Stops ∧ ∀ ev, call.event? = some ev → ¬ev.Terminal

theorem poll_passes {r : Except Str EnrollStatus} : (DriveCall.poll r).Passes :=
  ⟨fun h => h, fun _ h => nomatch h⟩

theorem bitmap_passes {r : Except Str FpSlots} : (DriveCall.bitmap r).Passes :=
  ⟨fun h => h, fun _ h => nomatch h⟩

theorem stop_passes : (DriveCall.stop false).Passes :=
  ⟨Bool.false_ne_true, fun _ h => nomatch h⟩

/-- Such calls may stand in front. -/
theorem Ends.append (h : Ends rest outcome) (hmild : ∀ call ∈ calls, call.Passes) :
    Ends (calls ++ rest) outcome := by
  have hev : ∀ ev ∈ driveEvents calls, ¬ev.Terminal := by
    intro ev hm
    obtain ⟨call, hcall, hev⟩ := List.mem_filterMap.mp hm
    exact (hmild call hcall).2 ev hev
  refine ⟨?_, ?_, ?_, ?_⟩
  · rw [driveEvents_append, List.pairwise_append]
    refine ⟨List.pairwise_of_forall_mem_list fun ev hm _ _ => hev ev hm, h.last, ?_⟩
    exact fun ev hm _ _ => hev ev hm
  · rw [driveEvents_append, List.mem_append, ← h.complete]
    exact or_iff_right fun hm => hev _ hm trivial
  · rw [← h.failed]
    refine exists_congr fun message => ?_
    rw [driveEvents_append, List.mem_append]
    exact or_iff_right fun hm => hev _ hm trivial
  · rw [List.pairwise_append]
    refine ⟨List.pairwise_of_forall_mem_list fun call hm _ _ hs => ?_, h.quiet, ?_⟩
    · exact absurd hs (hmild call hm).1
    · exact fun call hm _ _ hs => absurd hs (hmild call hm).1

theorem event_terminal {s : EnrollStatus} :
    (s.event = .complete ↔ s = .complete) ∧
    ((∃ message, s.event = .failed message) ↔ s = .failed) := by
  cases s <;> simp [EnrollStatus.event, stepEvent]

theorem Ends.tick {ev : EnrollProgress} {c : Continue} (hcomplete : ev = .complete ↔ outcome = .complete)
    (hfailed : (∃ message, ev = .failed message) ↔ outcome = .failed) :
    Ends [.tick ev c] outcome where
  last := List.pairwise_singleton _ _
  complete := by rw [← hcomplete, eq_comm]; exact List.mem_singleton
  failed := by
    rw [← hfailed]
    exact exists_congr fun message => by rw [eq_comm]; exact List.mem_singleton
  quiet := List.pairwise_singleton _ _

theorem PollCalls.mild (h : PollCalls slot vars calls (.inr vars')) : ∀ call ∈ calls, call.Passes := by
  cases h with
  | hiccup => exact List.forall_mem_singleton.mpr poll_passes
  | idle => exact List.forall_mem_singleton.mpr poll_passes
  | looked =>
    exact List.forall_mem_cons.mpr ⟨poll_passes, List.forall_mem_singleton.mpr bitmap_passes⟩
  | same => exact List.forall_mem_singleton.mpr poll_passes
  | @changed s c _ hidle hlast hr =>
    split_ifs at hr with hcomplete hfailed hstop
    refine List.forall_mem_cons.mpr ⟨poll_passes, List.forall_mem_singleton.mpr ⟨hstop, ?_⟩⟩
    rintro ev ⟨⟩ hterm
    cases s with
    | complete => exact hcomplete rfl
    | failed => exact hfailed rfl
    | _ => exact hterm

theorem PollCalls.ends (h : PollCalls slot vars calls (.inl outcome)) : Ends calls outcome := by
  have hpoll {r : Except Str EnrollStatus} : ∀ call ∈ [DriveCall.poll r], call.Passes :=
    List.forall_mem_singleton.mpr poll_passes
  cases h with
  | disconnected => exact (Ends.tick (by simp) (by simp)).append hpoll
  | @enrolled b c hb =>
    have hlooked : ∀ call ∈ [DriveCall.poll (.ok .idle), .bitmap (.ok b)], call.Passes :=
      List.forall_mem_cons.mpr ⟨poll_passes, List.forall_mem_singleton.mpr bitmap_passes⟩
    exact (Ends.tick (by simp) (by simp)).append hlooked
  | @changed s c _ hidle hlast hr =>
    refine (Ends.tick ?_ ?_).append hpoll
    · rw [event_terminal.1]
      split_ifs at hr <;> simp_all
    · rw [event_terminal.2]
      split_ifs at hr <;> simp_all

theorem LoopCalls.ends (h : LoopCalls slot vars calls outcome) : Ends calls outcome := by
  have hgo : ∀ call ∈ [DriveCall.stop false], call.Passes :=
    List.forall_mem_singleton.mpr stop_passes
  induction h with
  | timeout => exact .tick (by simp) (by simp)
  | stopped =>
    exact ⟨.nil, by simp [driveEvents, DriveCall.event?], by simp [driveEvents, DriveCall.event?],
      List.pairwise_singleton _ _⟩
  | ended hcalls => exact hcalls.ends.append hgo
  | again hcalls _ ih => exact (ih.append hcalls.mild).append hgo

theorem LoopCalls.prompt (h : LoopCalls slot vars calls outcome) : Prompt vars.last calls := by
  induction h with
  | timeout => exact .other (fun h => h) .nil
  | stopped => exact .stop .nil
  | ended hcalls =>
    have hcalls : Prompt _ (_ ++ []) := hcalls.prompt rfl (fun _ h => nomatch h) fun _ _ => rfl
    rw [List.append_nil] at hcalls
    exact .stop hcalls
  | again hcalls _ ih =>
    refine .stop (hcalls.prompt rfl ?_ fun _ h => nomatch h)
    rintro vars' ⟨⟩
    exact ih

theorem drive_stopped {w' : W} (hstop : env.stop w = (true, w')) :
    drive env slot now w = (.cancelled, now, w') := by
  rw [drive, hstop]
  rfl

theorem drive_declined {w' w'' : W} (hstop : env.stop w = (false, w'))
    (htick : env.tick .started w' = (.stop, w'')) :
    drive env slot now w = (.cancelled, now, w'') := by
  simp [drive, hstop, htick]

theorem drive_starts {w' w'' : W} (hstop : env.stop w = (false, w'))
    (htick : env.tick .started w' = (.go, w'')) :
    drive env slot now w = driveLoop env slot now { last := none, idleSince := none } now w'' := by
  simp [drive, hstop, htick]

/-- What every call keeps, and when the end may be reported: after a status that
says so, or a bitmap that has the slot. -/
structure DriveEnv.Keeps (env : DriveEnv W) (slot : UInt8) (I G J : W → Prop) : Prop where
  poll : ∀ w, I w → I (env.poll w).2 ∧ ((env.poll w).1 = .ok .complete → G (env.poll w).2)
  bitmap : ∀ w, I w → I (env.bitmap w).2 ∧
    ∀ b, (env.bitmap w).1 = .ok b → b.isEnrolled slot = true → G (env.bitmap w).2
  stop : ∀ w, I w → I (env.stop w).2
  tick : ∀ ev w, ev ≠ .complete → I w → I (env.tick ev w).2
  complete : ∀ w, I w → G w → J (env.tick .complete w).2

section
variable {I G J : W → Prop}

/-- The invariant or, after the end, what is known then. -/
def Outcome.Holds (I J : W → Prop) (outcome : Outcome) (w : W) : Prop :=
  if outcome = .complete then J w else I w

/-- The same in the middle of the loop. -/
def PassHolds (I J : W → Prop) (r : Outcome ⊕ DriveVars) (w : W) : Prop :=
  match r with
  | .inl outcome => outcome.Holds I J w
  | .inr _ => I w

theorem driveIdle_keeps (h : env.Keeps slot I G J) (hw : I w) :
    PassHolds I J (driveIdle env slot vars now w).1 (driveIdle env slot vars now w).2 := by
  unfold driveIdle
  cases vars.idleSince with
  | none => exact hw
  | some t =>
    dsimp only
    split
    · obtain ⟨hI, hG⟩ := h.bitmap w hw
      rcases hb : env.bitmap w with ⟨_ | b, w'⟩
      · rw [hb] at hI
        exact hI
      · rw [hb] at hI hG
        dsimp only
        split
        next henrolled => exact h.complete w' hI (hG b rfl henrolled)
        next => exact hI
    · exact hw

theorem drivePoll_keeps (h : env.Keeps slot I G J) (hw : I w) :
    PassHolds I J (drivePoll env slot vars now w).1 (drivePoll env slot vars now w).2 := by
  obtain ⟨hI, hG⟩ := h.poll w hw
  unfold drivePoll
  rcases hp : env.poll w with ⟨e | status, w'⟩
  · rw [hp] at hI
    dsimp only
    split
    · exact h.tick _ w' (fun h => nomatch h) hI
    · exact hI
  · rw [hp] at hI hG
    dsimp only
    split
    · exact driveIdle_keeps h hI
    · split
      · exact hI
      · by_cases hcomplete : status = .complete
        · subst hcomplete
          exact h.complete w' hI (hG rfl)
        · have hI' := h.tick status.event w' (mt event_terminal.1.mp hcomplete) hI
          rw [if_neg hcomplete]
          split
          · exact hI'
          · split
            · exact hI'
            · exact hI'

theorem driveLoop_keeps (h : env.Keeps slot I G J) (hw : I w) :
    (driveLoop env slot started vars now w).1.Holds I J
      (driveLoop env slot started vars now w).2.2 := by
  induction vars, now, w using driveLoop.induct env slot started with
  | case1 vars now w hover =>
    rw [driveLoop_timeout hover]
    exact h.tick _ w (fun h => nomatch h) hw
  | case2 vars now w hover w' hstop =>
    have hI := h.stop w hw
    rw [hstop] at hI
    rw [driveLoop_stopped hover hstop]
    exact hI
  | case3 vars now w hover stopped w' hstop hgo now' outcome w'' hpoll =>
    obtain rfl := Bool.eq_false_iff.mpr hgo
    have hI := h.stop w hw
    rw [hstop] at hI
    have hpass : PassHolds I J (drivePoll env slot vars now' w').1 _ := drivePoll_keeps h hI
    rw [hpoll] at hpass
    rw [driveLoop_ended hover hstop hpoll]
    exact hpass
  | case4 vars now w hover stopped w' hstop hgo now' vars' w'' hpoll ih =>
    obtain rfl := Bool.eq_false_iff.mpr hgo
    have hI := h.stop w hw
    rw [hstop] at hI
    have hpass : PassHolds I J (drivePoll env slot vars now' w').1 _ := drivePoll_keeps h hI
    rw [hpoll] at hpass
    rw [driveLoop_again hover hstop hpoll]
    exact ih hpass

/-- The rule for a run of the driver. -/
theorem drive_keeps (h : env.Keeps slot I G J) (hw : I w) :
    (drive env slot now w).1.Holds I J (drive env slot now w).2.2 := by
  have hI := h.stop w hw
  obtain ⟨stopped, w', hstop⟩ : ∃ b w', env.stop w = (b, w') := ⟨_, _, rfl⟩
  rw [hstop] at hI
  cases stopped with
  | true =>
    rw [drive_stopped hstop]
    exact hI
  | false =>
    have hI' := h.tick .started w' (fun h => nomatch h) hI
    obtain ⟨cont, w'', htick⟩ : ∃ c w'', env.tick .started w' = (c, w'') := ⟨_, _, rfl⟩
    rw [htick] at hI'
    cases cont with
    | stop =>
      rw [drive_declined hstop htick]
      exact hI'
    | go =>
      rw [drive_starts hstop htick]
      exact driveLoop_keeps h hI'

/-- A run whose first poll says that the enrollment is complete. -/
theorem runEnrollment_first {env : EnrollEnv W} {w₁ w₂ w₃ w₄ w₅ w₆ w₇ : W}
    (hstop : env.stop w = (false, w₁)) (hgate : env.tick .gateWaiting w₁ = (.go, w₂))
    (hstart : env.enrollStart slot w₂ = (.ok (), w₃)) (hstop' : env.stop w₃ = (false, w₄))
    (hstarted : env.tick .started w₄ = (.go, w₅)) (hgo : env.stop w₅ = (false, w₆))
    (hpoll : env.poll w₆ = (.ok .complete, w₇)) :
    runEnrollment env slot now w = (env.tick .complete w₇).2 := by
  have hpass : drivePoll env.toDriveEnv slot { last := none, idleSince := none }
      (now + pollInterval) w₆ = (.inl .complete, (env.tick .complete w₇).2) := by
    simp [drivePoll, hpoll, EnrollStatus.event]
  have hloop : driveLoop env.toDriveEnv slot now { last := none, idleSince := none } now w₅ = _ :=
    driveLoop_ended (by simp) hgo hpass
  have hdrive := (drive_starts hstop' hstarted).trans hloop
  simp [runEnrollment, hstop, hgate, hstart, hdrive]

/-- The rule for an enrollment from end to end. -/
theorem runEnrollment_keeps {env : EnrollEnv W} (h : env.toDriveEnv.Keeps slot I G J)
    (hstart : ∀ w, I w → I (env.enrollStart slot w).2)
    (hcancel : ∀ w, I w → I (env.enrollCancel w)) (hw : I w) :
    I (runEnrollment env slot now w) ∨ J (runEnrollment env slot now w) := by
  have hstop := h.stop w hw
  unfold runEnrollment
  rcases hs : env.stop w with ⟨stopped, w₁⟩
  rw [hs] at hstop
  dsimp only at hstop ⊢
  split
  · exact .inl hstop
  · have hgate := h.tick .gateWaiting w₁ (fun h => nomatch h) hstop
    split
    · exact .inl hgate
    · have hbegun := hstart _ hgate
      split
      next e w₂ heq =>
        rw [heq] at hbegun
        exact .inl (h.tick _ w₂ (fun h => nomatch h) hbegun)
      next w₂ heq =>
        rw [heq] at hbegun
        have hdrive : (drive env.toDriveEnv slot now w₂).1.Holds I J
            (drive env.toDriveEnv slot now w₂).2.2 := drive_keeps h hbegun
        rcases hd : drive env.toDriveEnv slot now w₂ with ⟨outcome, now', w₃⟩
        rw [hd] at hdrive
        dsimp only
        cases outcome with
        | complete => exact .inr hdrive
        | failed => exact .inl hdrive
        | cancelled => exact .inl (hcancel w₃ hdrive)

end

end

end Immurok
