import Immurok.Daemon.View

/-!
# Invariants of the worker's waits

In every trace the receivers that are there are those of the worker's phase,
and what they hold was delivered to the command that is waited for.
-/

namespace Immurok

open Async

variable {ext : Extern} {files : Files} {v : View} {e : Ev} {i : TaskId}

namespace View

-- ---------------------------------------------------------------------------
-- Who changes what
-- ---------------------------------------------------------------------------

@[simp] theorem worker_step : (v.step ext e).worker =
    if e.actor = some 0 then v.worker.step v.client e else v.worker := by
  simp only [worker, step, Aux.step]
  cases e.actor with
  | none => simp
  | some i => cases i <;> simp [Aux.onWorker, Aux.onClient]

theorem client_step (hi : i ≠ 0) : (v.step ext e).client i =
    if e.actor = some i then (v.client i).step e else v.client i := by
  simp only [client, step, Aux.step]
  cases e.actor with
  | none => simp
  | some j =>
    cases j with
    | zero => simp [Aux.onWorker, Ne.symm hi]
    | succ j =>
      by_cases h : j + 1 = i
      · simp [Aux.onClient, h]
      · simp [Aux.onClient, Function.update_of_ne (Ne.symm h), h]

/-- The worker is no connection. -/
@[simp] theorem client_zero : (v.step ext e).client 0 = v.client 0 := by
  simp only [client, step, Aux.step]
  cases e.actor with
  | none => rfl
  | some j =>
    cases j with
    | zero => rfl
    | succ j => simp [Aux.onClient]

theorem client_of_ne (h : e.actor ≠ some i) : (v.step ext e).client i = v.client i := by
  by_cases hi : i = 0
  · subst hi
    exact client_zero
  · rw [client_step hi, if_neg h]

end View

-- ---------------------------------------------------------------------------
-- Receivers
-- ---------------------------------------------------------------------------

def Phase.expectsResponse : Phase → Bool
  | .armed _ | .response _ | .pairing _ => true
  | _ => false

def Phase.expectsTouch (w : Touch) : Phase → Bool
  | .touch w' _ _ => w' = w
  | _ => false

section
variable {p : Phase} {w : Touch}

theorem Phase.expectsResponse_resting (h : p.resting = true) : p.expectsResponse = false := by
  cases p <;> simp_all [resting, expectsResponse]

theorem Phase.expectsTouch_resting (h : p.resting = true) : p.expectsTouch w = false := by
  cases p <;> simp_all [resting, expectsTouch]

theorem Phase.expectsTouch_response (h : p.expectsResponse = true) : p.expectsTouch w = false := by
  cases p <;> simp_all [expectsResponse, expectsTouch]

theorem Phase.eq_touch (h : p.expectsTouch w = true) : ∃ r c, p = .touch w r c := by
  cases p with
  | touch w' r c =>
    obtain rfl : w' = w := by simpa [expectsTouch] using h
    exact ⟨r, c, rfl⟩
  | _ => simp [expectsTouch] at h

@[simp] theorem Phase.resting_leave : p.leave.resting = true := by
  cases p <;> rfl

theorem Phase.leave_ne_armed {c : CmdId} : p.leave ≠ .armed c := by
  cases p <;> simp [leave]

theorem Phase.leave_ne_touch {r : ReplyId} {c : CmdId} : p.leave ≠ .touch w r c := by
  cases p <;> simp [leave]

end

/-- The receivers that are there are those the worker waits on. -/
structure View.Waits (v : View) : Prop where
  response : v.response.isSome = v.worker.phase.expectsResponse
  gate : v.gate.isSome = v.worker.phase.expectsTouch .gate
  auth : v.auth.isSome = v.worker.phase.expectsTouch .auth

theorem View.Waits.rest (h : v.Waits) (hp : v.worker.phase.resting = true) :
    v.response = none ∧ v.gate = none ∧ v.auth = none := by
  obtain ⟨hr, hg, ha⟩ := h
  rw [Phase.expectsResponse_resting hp] at hr
  rw [Phase.expectsTouch_resting hp] at hg ha
  simpa using And.intro hr (And.intro hg ha)

/-- During a wait for a touch its receiver is the only one. -/
theorem View.Waits.touch {w : Touch} {r : ReplyId} {c : CmdId} (h : v.Waits)
    (hp : v.worker.phase = .touch w r c) :
    v.response = none ∧ (w ≠ .gate → v.gate = none) ∧ (w ≠ .auth → v.auth = none) := by
  obtain ⟨hr, hg, ha⟩ := h
  simp only [hp, Phase.expectsResponse, Phase.expectsTouch] at hr hg ha
  refine ⟨by simpa using hr, fun hw => ?_, fun hw => ?_⟩
  · simpa [hw] using hg
  · simpa [hw] using ha

/-- No receiver, and no phase that expects one. -/
theorem View.Waits.of_rest (hr : v.response = none) (hg : v.gate = none) (ha : v.auth = none)
    (hp : v.worker.phase.resting = true) : v.Waits := by
  refine ⟨?_, ?_, ?_⟩
  · rw [hr, Phase.expectsResponse_resting hp, Option.isSome_none]
  · rw [hg, Phase.expectsTouch_resting hp, Option.isSome_none]
  · rw [ha, Phase.expectsTouch_resting hp, Option.isSome_none]

theorem View.Waits.step (h : v.Waits) (ha : v.allowed ext e) : (v.step ext e).Waits := by
  cases e with
  | sessionStarted | sessionEnded =>
    obtain ⟨hr, hg, hau⟩ := h.rest ha.1
    exact .of_rest hr hg hau (by simp [WorkerAux.step, Ev.actor, Phase.resting])
  | rested =>
    obtain ⟨hr, hg, hau⟩ := h.rest ha
    exact .of_rest hr hg hau (by simp [WorkerAux.step, Ev.actor, Phase.resting])
  | responseArmed c =>
    obtain ⟨-, hg, hau⟩ := h.rest ha.1
    constructor <;> simp [act, WorkerAux.step, Ev.actor, Phase.expectsResponse, Phase.expectsTouch, *]
  | wrote c data job =>
    obtain ⟨hr, hg, hau⟩ := h
    rw [ha.1] at hr hg hau
    constructor <;> simp_all [act, WorkerAux.step, Ev.actor, Phase.expectsResponse, Phase.expectsTouch]
  | delivered d c f =>
    obtain ⟨hr, hg, hau⟩ := h
    have hd := ha.1
    cases d <;> constructor <;> simp_all [act, deliver, accepts, WorkerAux.step, Ev.actor]
  | responseLeft =>
    obtain ⟨hr, hg, hau⟩ := h
    have hp : v.worker.phase.expectsResponse = true := hr ▸ ha
    rw [Phase.expectsTouch_response hp] at hg hau
    refine .of_rest rfl ?_ ?_ (by simp [WorkerAux.step, Ev.actor])
    · simpa [act] using hg
    · simpa [act] using hau
  | pairingArmed c =>
    obtain ⟨-, hg, hau⟩ := h.rest (show v.worker.phase.resting = true by rw [ha]; rfl)
    constructor <;> simp [act, WorkerAux.step, Ev.actor, Phase.expectsResponse, Phase.expectsTouch, *]
  | touchArmed w r c =>
    obtain ⟨hr, hg, hau⟩ := h.rest (show v.worker.phase.resting = true by rw [ha.1]; rfl)
    cases w <;> constructor <;>
      simp [act, receiver, WorkerAux.step, Ev.actor, Phase.expectsResponse, Phase.expectsTouch, *]
  | touchCancelled w r tag =>
    obtain ⟨⟨c, hp⟩, -⟩ := ha
    obtain ⟨hr, hg, hau⟩ := h.touch hp
    refine .of_rest hr ?_ ?_ (by simp [WorkerAux.step, Ev.actor])
    · simpa [act, receiver] using hg
    · simpa [act, receiver] using hau
  | touchLeft w r =>
    obtain ⟨c, hp⟩ := ha
    obtain ⟨hr, hg, hau⟩ := h.touch hp
    refine .of_rest hr ?_ ?_ (by simp [WorkerAux.step, Ev.actor])
    · simpa [act, receiver] using hg
    · simpa [act, receiver] using hau
  | _ =>
    obtain ⟨hr, hg, hau⟩ := h
    constructor <;> simp [act, WorkerAux.step, Ev.actor, hr, hg, hau]

-- ---------------------------------------------------------------------------
-- Answers
-- ---------------------------------------------------------------------------

/-- The frame that resolved the wait in progress. -/
def View.Answer (v : View) (ok : Frame → Prop) : Prop :=
  ∃ c f, v.worker.answer = some (c, f) ∧ v.worker.phase.awaiting = some c ∧ ok f

/-- What the receivers hold came with the last frame delivered, which answers
the command that is waited for. -/
structure View.Answers (v : View) : Prop where
  response : ∀ d, v.response = some (some d) → v.Answer fun f => f.data = d
  auth : v.auth = some (some true) → v.Answer fun f => f.data.head? = some rspOk

theorem View.Answers.of_empty (hr : v.response.join = none) (ha : v.auth.join = none) :
    v.Answers := by
  refine ⟨fun d h => ?_, fun h => ?_⟩
  · simp [h] at hr
  · simp [h] at ha

theorem View.Waits.auth_eq_none (h : v.Waits) (hr : v.response.isSome) : v.auth = none := by
  have hp : v.worker.phase.expectsResponse = true := h.response ▸ hr
  simpa [Phase.expectsTouch_response hp] using h.auth

theorem View.Waits.of_gate (h : v.Waits) (hg : v.gate.isSome) :
    v.response = none ∧ v.auth = none := by
  obtain ⟨r, c, hp⟩ := Phase.eq_touch (h.gate ▸ hg)
  obtain ⟨hr, -, ha⟩ := h.touch hp
  exact ⟨hr, ha (by simp)⟩

theorem View.Waits.of_auth (h : v.Waits) (ha : v.auth.isSome) : v.response = none := by
  obtain ⟨r, c, hp⟩ := Phase.eq_touch (h.auth ▸ ha)
  exact (h.touch hp).1

theorem View.Answers.step (h : v.Answers) (hw : v.Waits) (ha : v.allowed ext e) :
    (v.step ext e).Answers := by
  have hw' := hw.step ha
  have rest (hp : (v.step ext e).worker.phase.resting = true) : (v.step ext e).Answers := by
    obtain ⟨hr, -, hau⟩ := hw'.rest hp
    exact .of_empty (by rw [hr]; rfl) (by rw [hau]; rfl)
  cases e with
  | sessionStarted | sessionEnded | rested =>
    exact rest (by simp [WorkerAux.step, Ev.actor, Phase.resting])
  | responseLeft | touchCancelled _ _ _ | touchLeft _ _ =>
    exact rest (by simp [WorkerAux.step, Ev.actor])
  | responseArmed c | pairingArmed c =>
    have hau := hw'.auth_eq_none (by simp [act])
    exact .of_empty rfl (by rw [hau]; rfl)
  | touchArmed w r c =>
    obtain ⟨hr, -, hau⟩ := hw.rest (show v.worker.phase.resting = true by rw [ha.1]; rfl)
    refine .of_empty (by simp [act, hr]) ?_
    cases w <;> simp [act, receiver, hau]
  | wrote c data job =>
    have hp := ha.1
    obtain ⟨hr, hau⟩ := h
    constructor
    · simpa [Answer, act, WorkerAux.step, Ev.actor, hp, Phase.awaiting] using hr
    · simpa [Answer, act, WorkerAux.step, Ev.actor, hp, Phase.awaiting] using hau
  | delivered d c f =>
    obtain ⟨hacc, hon, hc, -, -⟩ := ha
    have here {ok : Frame → Prop} (hok : ok f) : (v.step ext (.delivered d c f)).Answer ok :=
      ⟨c, f, by simp [WorkerAux.step, Ev.actor], by simpa [WorkerAux.step, Ev.actor] using hc, hok⟩
    cases d with
    | response =>
      have hau := hw'.auth_eq_none (by simp [act, deliver])
      refine ⟨fun d hd => here ?_, fun hd => ?_⟩
      · simpa [act, deliver] using hd
      · rw [hau] at hd
        cases hd
    | gate r =>
      obtain ⟨hr, hau⟩ := hw'.of_gate (by simp [act, deliver])
      exact .of_empty (by rw [hr]; rfl) (by rw [hau]; rfl)
    | auth b =>
      have hr := hw'.of_auth (by simp [act, deliver])
      refine ⟨fun d hd => ?_, fun hd => here ?_⟩
      · rw [hr] at hd
        cases hd
      · obtain rfl : b = true := by simpa [act, deliver] using hd
        exact hon
  | _ =>
    obtain ⟨hr, hau⟩ := h
    constructor
    · simpa [Answer, act, WorkerAux.step, Ev.actor] using hr
    · simpa [Answer, act, WorkerAux.step, Ev.actor] using hau

-- ---------------------------------------------------------------------------
-- Over traces
-- ---------------------------------------------------------------------------

variable {ok : View → Ev → Prop} {es : List Ev}

/-- What every trace keeps of the worker's waits. -/
theorem View.waiting (h : (machine ext files).Trace ok es v) : v.Waits ∧ v.Answers := by
  refine h.invariant (I := fun _ v => v.Waits ∧ v.Answers) ?_ ?_
  · exact ⟨⟨rfl, rfl, rfl⟩, .of_empty rfl rfl⟩
  · rintro es v e ⟨hw, hans⟩ ha -
    exact ⟨hw.step ha, hans.step hw ha⟩

theorem View.no_client (h : (machine ext files).Trace ok es v) : v.client 0 = .new :=
  h.invariant (I := fun _ v => v.client 0 = .new) rfl fun _ _ _ hv _ _ =>
    View.client_zero.trans hv

theorem View.past_eq (h : (machine ext files).Trace ok es v) : v.past = es := by
  refine h.invariant (I := fun es v => v.past = es) rfl ?_
  rintro es v e hp - -
  exact congrArg (e :: ·) hp

end Immurok
