import Immurok.Daemon.Sound

/-!
# Answers and their commands

The device's frames carry no number: a frame that is no notification goes to
whatever the worker waits for. It answers that command if no answer is
overdue, and only then.
-/

namespace Immurok

open Async Machine

variable {ext : Extern} {files : Files} {v : View} {e : Ev} {es : List Ev} {c : Config Daemon}
  {ok : View → Ev → Prop}

/-- The command written last, with its frame and the job it was written for. -/
def lastWrote : List Ev → Option (CmdId × Bytes × Option Job)
  | [] => none
  | .wrote c data job :: _ => some (c, data, job)
  | _ :: l => lastWrote l

theorem mem_of_lastWrote {c : CmdId} {data : Bytes} {job : Option Job}
    (h : lastWrote es = some (c, data, job)) : .wrote c data job ∈ es := by
  fun_induction lastWrote es with
  | case1 => cases h
  | case2 =>
    obtain ⟨rfl, rfl, rfl⟩ : _ ∧ _ ∧ _ := by simpa using h
    exact .head _
  | case3 _ _ _ ih => exact .tail _ (ih h)

/-- The wait for a touch that a frame resolves. -/
def Delivery.touch : Delivery → Option Touch
  | .response => none
  | .gate _ => some .gate
  | .auth _ => some .auth

/-- Each frame that resolves a wait answers the command that was written last,
and where it resolves a wait for a touch that command asked for the touch. An
`AUTH_REQUEST` is only reported as touched on a frame that answers it with OK. -/
structure Correlated (log : List Ev) : Prop where
  delivered : ∀ d c f l, (.delivered d c f :: l) <:+ log →
    ∃ data job, lastWrote l = some (c, data, job) ∧ f.src = some c ∧
      ∀ w, d.touch = some w → ∃ j, job = some j ∧ j.cmd.waitsFor = some w
  approved : ∀ r l, (.replied r (.auth (.ok true)) :: l) <:+ log →
    ∃ c j d f, .wrote c (packet cmdAuthRequest []) (some j) ∈ l ∧ j.reply = r ∧
      .delivered d c f ∈ l ∧ f.src = some c ∧ f.data.head? = some rspOk

/-- No answer is overdue: there is none in the channel when a command makes
room for its own, and only its own arrive until it is done with. -/
def onTime (v : View) : Ev → Bool
  | .responseArmed _ => v.inbox.all fun f => isNotification f.data
  | .arrived f => isNotification f.data || v.worker.phase.awaiting.all (f.src == some ·)
  | _ => true

-- ---------------------------------------------------------------------------
-- What the worker is after
-- ---------------------------------------------------------------------------

/-- The command in hand, once it is written. -/
def Phase.after : Phase → Option CmdId
  | .armed _ => none
  | p => p.awaiting

/-- The command in hand is the one written last. -/
structure View.Current (v : View) : Prop where
  last : v.worker.lastWrote = lastWrote v.past
  armed : ∀ c, v.worker.phase = .armed c → v.worker.routing = none
  after : ∀ c, v.worker.phase.after = some c → ∃ data job, v.worker.lastWrote = some (c, data, job)
  touch : ∀ w r c, v.worker.phase = .touch w r c →
    ∃ data j, v.worker.lastWrote = some (c, data, some j) ∧ j.cmd.waitsFor = some w

theorem Phase.after_leave {p : Phase} {c : CmdId} (h : p.leave.after = some c) :
    p.after = some c := by
  cases p <;> simp_all [leave, after, awaiting]

theorem View.Current.step (h : v.Current) (ha : v.allowed ext e) : (v.step ext e).Current := by
  obtain ⟨hlast, harm, hafter, htouch⟩ := h
  -- the phase is left for one in which nothing is waited for
  have left (hl : (v.step ext e).worker.lastWrote = lastWrote (e :: v.past))
      (hw : (v.step ext e).worker.lastWrote = v.worker.lastWrote)
      (hp : (v.step ext e).worker.phase = v.worker.phase.leave) : (v.step ext e).Current := by
    refine ⟨hl, fun c h => ?_, fun c h => ?_, fun w r c h => ?_⟩
    · exact absurd (hp ▸ h) Phase.leave_ne_armed
    · rw [hw]
      exact hafter c (Phase.after_leave (hp ▸ h))
    · exact absurd (hp ▸ h) Phase.leave_ne_touch
  cases e with
  | responseArmed c =>
    exact ⟨by simpa [WorkerAux.step, Ev.actor, lastWrote] using hlast,
      by simp [WorkerAux.step, Ev.actor],
      by simp [WorkerAux.step, Ev.actor, Phase.after],
      by simp [WorkerAux.step, Ev.actor]⟩
  | wrote c data job =>
    exact ⟨by simp [WorkerAux.step, Ev.actor, lastWrote],
      by simp [WorkerAux.step, Ev.actor],
      by simp [WorkerAux.step, Ev.actor, Phase.after, Phase.awaiting],
      by simp [WorkerAux.step, Ev.actor]⟩
  | routed f =>
    exact ⟨by simpa [WorkerAux.step, Ev.actor, lastWrote] using hlast,
      fun c h => absurd (by simpa [WorkerAux.step, Ev.actor] using h) (ha.2 c),
      by simpa [WorkerAux.step, Ev.actor] using hafter,
      by simpa [WorkerAux.step, Ev.actor] using htouch⟩
  | responseLeft | touchCancelled _ _ _ | touchLeft _ _ =>
    exact left (by simpa [WorkerAux.step, Ev.actor, lastWrote] using hlast)
      (by simp [WorkerAux.step, Ev.actor]) (by simp [WorkerAux.step, Ev.actor])
  | pairingArmed c =>
    have hc := hafter c (by rw [show v.worker.phase = .held c from ha]; rfl)
    exact ⟨by simpa [WorkerAux.step, Ev.actor, lastWrote] using hlast,
      by simp [WorkerAux.step, Ev.actor],
      by simpa [WorkerAux.step, Ev.actor, Phase.after, Phase.awaiting] using hc,
      by simp [WorkerAux.step, Ev.actor]⟩
  | touchArmed w r c =>
    obtain ⟨hp, j, data, -, -, hj, hw⟩ := ha
    exact ⟨by simpa [WorkerAux.step, Ev.actor, lastWrote] using hlast,
      by simp [WorkerAux.step, Ev.actor],
      by simp [WorkerAux.step, Ev.actor, Phase.after, Phase.awaiting, hw],
      by simp [WorkerAux.step, Ev.actor, hw, hj]⟩
  | sessionStarted | sessionEnded | rested =>
    exact ⟨by simpa [WorkerAux.step, Ev.actor, lastWrote] using hlast,
      by simp [WorkerAux.step, Ev.actor],
      by simp [WorkerAux.step, Ev.actor, Phase.after, Phase.awaiting],
      by simp [WorkerAux.step, Ev.actor]⟩
  | _ =>
    exact ⟨by simpa [WorkerAux.step, Ev.actor, lastWrote] using hlast,
      by simpa [WorkerAux.step, Ev.actor] using harm,
      by simpa [WorkerAux.step, Ev.actor] using hafter,
      by simpa [WorkerAux.step, Ev.actor] using htouch⟩

-- ---------------------------------------------------------------------------
-- What is on its way
-- ---------------------------------------------------------------------------

/-- The frame is a notification or answers `c`. -/
def Frame.For (c : CmdId) (f : Frame) : Prop := isNotification f.data = false → f.src = some c

/-- What is on its way to the worker answers the command in hand, and so did
what resolved its last wait. -/
structure View.OnTime (v : View) : Prop where
  inbox : ∀ c, v.worker.phase.awaiting = some c → ∀ f ∈ v.inbox, f.For c
  routing : ∀ c, v.worker.phase.awaiting = some c → ∀ f, v.worker.routing = some f → f.For c
  answer : ∀ c f, v.worker.answer = some (c, f) → f.src = some c ∧ ∃ d, .delivered d c f ∈ v.past

theorem Phase.awaiting_leave {p : Phase} {c : CmdId} (h : p.leave.awaiting = some c) :
    p.awaiting = some c := by
  cases p <;> simp_all [leave, awaiting]

theorem View.OnTime.step (h : v.OnTime) (ha : v.allowed ext e) (hok : onTime v e = true) :
    (v.step ext e).OnTime := by
  obtain ⟨hin, hrt, hans⟩ := h
  have answered : ∀ c f, v.worker.answer = some (c, f) →
      f.src = some c ∧ ∃ d, .delivered d c f ∈ e :: v.past := fun c f h =>
    have ⟨hsrc, d, hd⟩ := hans c f h
    ⟨hsrc, d, .tail _ hd⟩
  cases e with
  | responseArmed c =>
    refine ⟨fun c' _ f hf hn => ?_, by simp [WorkerAux.step, Ev.actor],
      by simp [WorkerAux.step, Ev.actor]⟩
    have hall : ∀ f ∈ v.inbox, isNotification f.data = true := by simpa [onTime] using hok
    rw [hall f hf] at hn
    cases hn
  | wrote c data job =>
    have hp : v.worker.phase.awaiting = some c := by rw [ha.1]; rfl
    have hc {c' : CmdId} (h : (v.step ext (.wrote c data job)).worker.phase.awaiting = some c') :
        v.worker.phase.awaiting = some c' := by
      rw [hp]
      simpa [WorkerAux.step, Ev.actor, Phase.awaiting] using h
    exact ⟨fun c' h => hin c' (hc h), fun c' h f hf => hrt c' (hc h) f hf, answered⟩
  | arrived f =>
    refine ⟨fun c h g hg hn => ?_, by simpa [Ev.actor] using hrt, answered⟩
    replace h : v.worker.phase.awaiting = some c := by simpa [Ev.actor] using h
    obtain hg | hg := List.mem_append.mp hg
    · exact hin c h g hg hn
    · obtain rfl := List.mem_singleton.mp hg
      simpa [onTime, hn, h] using hok
  | routed f =>
    have hf : f ∈ v.inbox := List.mem_of_head? ha.1
    refine ⟨fun c h g hg => ?_, fun c h g hg => ?_, answered⟩
    · exact hin c (by simpa [WorkerAux.step, Ev.actor] using h) g (List.mem_of_mem_tail hg)
    · obtain rfl : f = g := by simpa [WorkerAux.step, Ev.actor] using hg
      exact hin c (by simpa [WorkerAux.step, Ev.actor] using h) f hf
  | delivered d c f =>
    obtain ⟨-, -, hc, hr, hn⟩ := ha
    refine ⟨by cases d <;> simpa [act, deliver, WorkerAux.step, Ev.actor] using hin,
      by simpa [WorkerAux.step, Ev.actor] using hrt, fun c' f' h => ?_⟩
    obtain ⟨rfl, rfl⟩ : c = c' ∧ f = f' := by simpa [WorkerAux.step, Ev.actor] using h
    exact ⟨hrt c hc f hr hn, d, .head _⟩
  | responseLeft | touchCancelled _ _ _ | touchLeft _ _ =>
    exact ⟨fun c h => hin c (Phase.awaiting_leave (by simpa [WorkerAux.step, Ev.actor] using h)),
      fun c h f hf => hrt c (Phase.awaiting_leave (by simpa [WorkerAux.step, Ev.actor] using h)) f
        (by simpa [WorkerAux.step, Ev.actor] using hf),
      fun c f hf => answered c f (by simpa [WorkerAux.step, Ev.actor] using hf)⟩
  | pairingArmed c =>
    have hp : v.worker.phase.awaiting = some c := by rw [show v.worker.phase = .held c from ha]; rfl
    refine ⟨?_, ?_, by simp [WorkerAux.step, Ev.actor]⟩
    · simpa [act, WorkerAux.step, Ev.actor, Phase.awaiting, hp] using hin c hp
    · simpa [WorkerAux.step, Ev.actor, Phase.awaiting, hp] using hrt c hp
  | touchArmed w r c =>
    have hp : v.worker.phase.awaiting = some c := by rw [ha.1]; rfl
    refine ⟨?_, ?_, by simp [WorkerAux.step, Ev.actor]⟩
    · simpa [act, WorkerAux.step, Ev.actor, Phase.awaiting, hp] using hin c hp
    · simpa [WorkerAux.step, Ev.actor, Phase.awaiting, hp] using hrt c hp
  | sessionStarted | sessionEnded | rested =>
    exact ⟨by simp [WorkerAux.step, Ev.actor, Phase.awaiting],
      by simp [WorkerAux.step, Ev.actor, Phase.awaiting],
      by simpa [WorkerAux.step, Ev.actor] using answered⟩
  | _ =>
    exact ⟨by simpa [act, WorkerAux.step, Ev.actor] using hin,
      by simpa [WorkerAux.step, Ev.actor] using hrt,
      by simpa [WorkerAux.step, Ev.actor] using hans⟩

-- ---------------------------------------------------------------------------
-- Runs
-- ---------------------------------------------------------------------------

theorem View.current (h : (machine ext files).Trace ok es v) : v.Current :=
  h.invariant (I := fun _ v => v.Current)
    ⟨rfl, (fun _ h => nomatch h), (fun _ h => nomatch h), (fun _ _ _ h => nomatch h)⟩
    fun _ _ _ hc ha _ => hc.step ha

theorem View.on_time (h : (machine ext files).Trace (fun v e => onTime v e = true) es v) :
    v.OnTime :=
  h.invariant (I := fun _ v => v.OnTime)
    ⟨(fun _ h => nomatch h), (fun _ h => nomatch h), (fun _ _ h => nomatch h)⟩
    fun _ _ _ ht ha hok => ht.step ha hok

theorem View.Current.delivered {d : Delivery} {c : CmdId} {f : Frame} (h : v.Current)
    (hw : v.Waits) (ha : v.allowed ext (.delivered d c f)) :
    ∃ data job, lastWrote v.past = some (c, data, job) ∧
      ∀ w, d.touch = some w → ∃ j, job = some j ∧ j.cmd.waitsFor = some w := by
  obtain ⟨hacc, -, hc, hr, -⟩ := ha
  have hafter : v.worker.phase.after = some c := by
    cases hp : v.worker.phase <;> simp_all [Phase.after, Phase.awaiting]
    exact absurd (h.armed _ hp) (by simp [hr])
  obtain ⟨data, job, hl⟩ := h.after c hafter
  refine ⟨data, job, h.last ▸ hl, fun w hd => ?_⟩
  have hexp : v.worker.phase.expectsTouch w = true := by
    cases d with
    | response => cases hd
    | gate r =>
      cases hd
      exact hw.gate ▸ hacc
    | auth b =>
      cases hd
      exact hw.auth ▸ hacc
  obtain ⟨r, c', hp⟩ := Phase.eq_touch hexp
  obtain ⟨data', j, hl', hj⟩ := h.touch w r c' hp
  rw [hp] at hc
  obtain rfl : c' = c := by simpa [Phase.awaiting] using hc
  rw [hl] at hl'
  obtain ⟨rfl, rfl⟩ : data = data' ∧ job = some j := by simpa using hl'
  exact ⟨j, rfl, hj⟩

/-- Where no answer is ever overdue, each goes to its own command. -/
theorem correlated
    (h : (system ext).Run (During observed fun v e => onTime v e = true) (start ext files) c) :
    Correlated c.shared.log := by
  have ht := traced h
  constructor
  · intro d cmd f l hl
    obtain ⟨u, hu, ha, -⟩ := ht.suffix hl
    replace ha : u.allowed ext (.delivered d cmd f) := ha
    obtain ⟨data, job, hlast, htouch⟩ := (View.current hu).delivered (View.waiting hu).1 ha
    rw [View.past_eq hu] at hlast
    exact ⟨data, job, hlast, (View.on_time hu).routing cmd ha.2.2.1 f ha.2.2.2.1 ha.2.2.2.2, htouch⟩
  · intro r l hl
    obtain ⟨u, hu, ⟨-, ⟨j, hj, rfl⟩, htouched⟩, -⟩ := ht.suffix hl
    obtain ⟨f, ⟨cmd, hans, hlast⟩, hok⟩ := htouched rfl
    rw [(View.current hu).last, hj, View.past_eq hu] at hlast
    obtain ⟨hsrc, d, hd⟩ := (View.on_time hu).answer cmd f hans
    exact ⟨cmd, j, d, f, mem_of_lastWrote hlast, rfl, View.past_eq hu ▸ hd, hsrc, hok⟩

theorem correlated_touched : ∃ c : Config Daemon, Correlated c.shared.log ∧
    .answered 1 (.auth "u" "sudo") (.ok "AUTHENTICATED") ∈ c.shared.log := by
  obtain ⟨c, hr, hc⟩ := System.exists_run (system .sample) (during observed onTime)
    (start .sample .sample) touched
    (fun s => s.log.contains (.answered 1 (.auth "u" "sudo") (.ok "AUTHENTICATED")))
    (by decide +kernel)
  exact ⟨c, correlated (hr.mono fun _ _ => During.of_check), by simpa using hc⟩

/-- `KEY_COUNT` ran into its timeout when the session began; its answer comes
while the `AUTH_REQUEST` is waited for, and no finger is touched. -/
def lateAnswer : List (Event Env Conn) :=
  asked ++ answer 2 [rspOk, 0, 0, 0, 0, 0] :: go 0 11 ++ go 1 5

theorem late_answer_approves : ∃ c, (system .sample).Reach (start .sample .sample) c ∧
    ¬ Correlated c.shared.log ∧
    .answered 1 (.auth "u" "sudo") (.ok "AUTHENTICATED") ∈ c.shared.log := by
  obtain ⟨c, hr, hc⟩ := System.exists_run (system .sample) (fun _ _ => true)
    (start .sample .sample) lateAnswer
    (fun s => s.log.contains (.delivered .response 3 ⟨[rspOk, 0, 0, 0, 0, 0], some 2⟩) &&
      s.log.contains (.answered 1 (.auth "u" "sudo") (.ok "AUTHENTICATED")))
    (by decide +kernel)
  simp only [Bool.and_eq_true, List.contains_iff_mem] at hc
  refine ⟨c, hr.reach, fun h => ?_, hc.2⟩
  obtain ⟨l', l, hl⟩ := List.append_of_mem hc.1
  obtain ⟨_, _, -, hsrc, -⟩ := h.delivered _ _ _ l ⟨l', hl.symm⟩
  simp at hsrc

end Immurok
