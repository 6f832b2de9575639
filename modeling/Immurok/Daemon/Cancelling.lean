import Immurok.Async.History
import Immurok.Daemon.Sound

/-!
# Cancels

A cancel is a notification without an address: it ends the wait in progress,
or is kept for the next one. It ends the wait it is meant for if it is sent
during that wait and no wait ends with a cancel left over.
-/

namespace Immurok

open Async Machine

variable {ext : Extern} {files : Files} {v : View} {e : Ev} {es l : List Ev} {w : Touch}
  {ok : View → Ev → Prop} {c : Config Daemon}

/-- A cancel that ends a wait was sent for the request that waits, during its
wait. -/
def Aimed (ext : Extern) (files : Files) (w : Touch) (log : List Ev) : Prop :=
  ∀ r tag l, (.touchCancelled w r tag :: l) <:+ log →
    tag.target = some r ∧ (machine ext files).Saw l (.cancelSent tag.by_ w tag)
      (·.worker.phase.inProgress w = some r)

/-- Cancels are sent one at a time, each during the wait of the request it is
for, and a wait does not end otherwise with a cancel left over. -/
def aimed (w : Touch) (v : View) : Ev → Bool
  | .cancelSent _ w' tag =>
    w' != w || (v.cancels.get w).outstanding.isEmpty && tag.target.isSome &&
      tag.target == v.worker.phase.inProgress w
  | .touchLeft w' _ => w' != w || (v.cancels.get w).outstanding.isEmpty
  | _ => true

-- ---------------------------------------------------------------------------
-- What is outstanding
-- ---------------------------------------------------------------------------

section
variable {cs : Cancels} {n : Notify Cancel} {w' : Touch}

@[simp] theorem Cancels.get_set : (cs.set w n).get w = n := by cases w <;> rfl

theorem Cancels.get_set_ne (h : w' ≠ w) : (cs.set w' n).get w = cs.get w := by
  cases w <;> cases w' <;> first | rfl | exact absurd rfl h

/-- A notification that only passes on what is there. -/
theorem Cancels.set_sublist (h : n.outstanding.Sublist (cs.get w').outstanding) :
    ((cs.set w' n).get w).outstanding.Sublist (cs.get w).outstanding := by
  by_cases hw : w' = w
  · subst hw
    simpa using h
  · rw [get_set_ne hw]

end

/-- Nothing but a cancel adds to what is outstanding. -/
theorem View.outstanding_step (ha : v.allowed ext e) :
    ((v.step ext e).cancels.get w).outstanding.Sublist (v.cancels.get w).outstanding ∨
      ∃ i tag, e = .cancelSent i w tag := by
  cases e with
  | cancelSent i w' tag =>
    by_cases hw : w' = w
    · exact .inr ⟨i, tag, by rw [hw]⟩
    · exact .inl (by simp [act, Cancels.get_set_ne hw])
  | routed f =>
    refine .inl ?_
    simp only [step_cancels, act, unparked]
    split
    · exact Cancels.set_sublist Notify.outstanding_unpark_sublist
    · exact .refl _
  | touchParked w' => exact .inl (Cancels.set_sublist Notify.outstanding_park_sublist)
  | touchCancelled w' r tag =>
    obtain ⟨-, n, hn⟩ := ha
    refine .inl ?_
    simp only [step_cancels, act, setTouch, setCancels, hn, Option.map_some, Option.getD_some]
    refine Cancels.set_sublist ?_
    rw [Notify.outstanding_notified hn]
    exact List.sublist_append_left _ _
  | touchLeft w' r => exact .inl (Cancels.set_sublist Notify.outstanding_unpark_sublist)
  | delivered d _ _ => cases d <;> exact .inl (.refl _)
  | _ => exact .inl (.refl _)

theorem Phase.inProgress_resting {p : Phase} (h : p.resting = true) : p.inProgress w = none := by
  cases p <;> simp_all [resting, inProgress]

/-- Which wait for a touch is in progress changes where it begins and where it
ends. -/
theorem View.inProgress_step (hw : v.Waits) (ha : v.allowed ext e) :
    (v.step ext e).worker.phase.inProgress w = v.worker.phase.inProgress w ∨
      (∃ r c, e = .touchArmed w r c) ∨ (∃ r tag, e = .touchCancelled w r tag) ∨
        ∃ r, e = .touchLeft w r := by
  cases e with
  | sessionStarted | sessionEnded =>
    refine .inl ?_
    rw [Phase.inProgress_resting ha.1]
    simp [WorkerAux.step, Ev.actor, Phase.inProgress]
  | rested =>
    refine .inl ?_
    rw [Phase.inProgress_resting (show v.worker.phase.resting = true from ha)]
    simp [WorkerAux.step, Ev.actor, Phase.inProgress]
  | responseArmed c =>
    refine .inl ?_
    rw [Phase.inProgress_resting ha.1]
    simp [WorkerAux.step, Ev.actor, Phase.inProgress]
  | wrote c data job =>
    refine .inl ?_
    rw [ha.1]
    simp [WorkerAux.step, Ev.actor, Phase.inProgress]
  | responseLeft =>
    refine .inl ?_
    have hp : v.worker.phase.expectsResponse = true := hw.response ▸ ha
    cases h : v.worker.phase <;>
      simp_all [WorkerAux.step, Ev.actor, Phase.leave, Phase.inProgress, Phase.expectsResponse]
  | pairingArmed c =>
    refine .inl ?_
    rw [show v.worker.phase = .held c from ha]
    simp [WorkerAux.step, Ev.actor, Phase.inProgress]
  | touchArmed w' r c =>
    by_cases hww : w' = w
    · exact .inr (.inl ⟨r, c, by rw [hww]⟩)
    · exact .inl (by rw [ha.1]; simp [WorkerAux.step, Ev.actor, Phase.inProgress, hww])
  | touchCancelled w' r tag =>
    by_cases hww : w' = w
    · exact .inr (.inr (.inl ⟨r, tag, by rw [hww]⟩))
    · obtain ⟨⟨c, hp⟩, -⟩ := ha
      exact .inl (by simp [hp, WorkerAux.step, Ev.actor, Phase.leave, Phase.inProgress, hww])
  | touchLeft w' r =>
    by_cases hww : w' = w
    · exact .inr (.inr (.inr ⟨r, by rw [hww]⟩))
    · obtain ⟨c, hp⟩ := ha
      exact .inl (by simp [hp, WorkerAux.step, Ev.actor, Phase.leave, Phase.inProgress, hww])
  | _ => exact .inl (by simp [WorkerAux.step, Ev.actor])

-- ---------------------------------------------------------------------------
-- Where cancels come from
-- ---------------------------------------------------------------------------

/-- What is outstanding was sent. -/
def View.CancelsSent (ext : Extern) (files : Files) (w : Touch) (v : View) (es : List Ev) : Prop :=
  ∀ tag ∈ (v.cancels.get w).outstanding, (machine ext files).Saw es (.cancelSent tag.by_ w tag)
    (·.worker.phase.inProgress w = tag.inProgress)

theorem View.CancelsSent.step (h : v.CancelsSent ext files w es) (ha : v.allowed ext e)
    (hv : v = (machine ext files).replay es) :
    (v.step ext e).CancelsSent ext files w (e :: es) := by
  intro tag ht
  obtain hsub | ⟨i, tag', rfl⟩ := View.outstanding_step (w := w) ha
  · exact (h tag (hsub.subset ht)).cons
  · obtain rfl | ht := Notify.mem_outstanding_notifyOne (by simpa [act] using ht)
    · obtain ⟨rfl, hp⟩ := ha
      exact .head (hv ▸ hp.symm)
    · exact (h tag ht).cons

theorem View.cancels_sent (h : (machine ext files).Trace ok es v) :
    v.CancelsSent ext files w es := by
  have h' : v = (machine ext files).replay es ∧ v.CancelsSent ext files w es := by
    refine h.invariant (I := fun es v => v = (machine ext files).replay es ∧
      v.CancelsSent ext files w es) ⟨rfl, ?_⟩ ?_
    · cases w <;> exact fun _ ht => nomatch ht
    · rintro es v e ⟨hv, hc⟩ ha -
      exact ⟨by rw [replay, ← hv], hc.step ha hv⟩
  exact h'.2

/-- A cancel that ends a wait was outstanding. -/
theorem View.cancelled_mem {r : ReplyId} {tag : Cancel}
    (ha : v.allowed ext (.touchCancelled w r tag)) :
    tag ∈ (v.cancels.get w).outstanding ∧ v.worker.phase.inProgress w = some r := by
  obtain ⟨⟨c, hp⟩, n, hn⟩ := ha
  refine ⟨by simp [Notify.outstanding_notified hn], ?_⟩
  rw [hp]
  simp [Phase.inProgress]

-- ---------------------------------------------------------------------------
-- Cancels that are aimed
-- ---------------------------------------------------------------------------

/-- There is at most one cancel, and it is for the wait in progress. -/
structure View.OnTarget (w : Touch) (v : View) : Prop where
  few : (v.cancels.get w).outstanding.length ≤ 1
  target : ∀ tag ∈ (v.cancels.get w).outstanding, ∃ r, tag.target = some r ∧
    tag.inProgress = some r ∧ v.worker.phase.inProgress w = some r

/-- Where no touch is waited for there is no cancel. -/
theorem View.OnTarget.eq_nil (h : v.OnTarget w) (hp : v.worker.phase.inProgress w = none) :
    (v.cancels.get w).outstanding = [] := by
  refine List.eq_nil_iff_forall_not_mem.mpr fun tag ht => ?_
  obtain ⟨r, -, -, hr⟩ := h.target tag ht
  rw [hp] at hr
  cases hr

theorem View.OnTarget.of_nil (h : (v.cancels.get w).outstanding = []) : v.OnTarget w :=
  ⟨by simp [h], by simp [h]⟩

theorem View.OnTarget.step (h : v.OnTarget w) (hw : v.Waits) (ha : v.allowed ext e)
    (hok : aimed w v e = true) : (v.step ext e).OnTarget w := by
  obtain hsub | ⟨i, tag, rfl⟩ := View.outstanding_step (w := w) ha
  · have nil (hn : (v.cancels.get w).outstanding = []) : (v.step ext e).OnTarget w :=
      .of_nil (List.sublist_nil.mp (hn ▸ hsub))
    obtain hp | ⟨r, c, rfl⟩ | ⟨r, tag, rfl⟩ | ⟨r, rfl⟩ := View.inProgress_step (w := w) hw ha
    · refine ⟨Nat.le_trans hsub.length_le h.few, fun tag ht => ?_⟩
      rw [hp]
      exact h.target tag (hsub.subset ht)
    · exact nil (h.eq_nil (by rw [ha.1]; rfl))
    · -- the only cancel is taken
      obtain ⟨-, n, hn⟩ := ha
      have hlen := h.few
      rw [Notify.outstanding_notified hn] at hlen
      refine .of_nil ?_
      simpa [act, hn] using hlen
    · exact nil (by simpa [aimed] using hok)
  · obtain ⟨⟨hnil, hsome⟩, htarget⟩ : ((v.cancels.get w).outstanding = [] ∧
        tag.target.isSome = true) ∧ tag.target = v.worker.phase.inProgress w := by
      simpa [aimed] using hok
    have hout : ((v.step ext (.cancelSent i w tag)).cancels.get w).outstanding = [tag] := by
      simpa [act] using Notify.outstanding_notifyOne hnil
    refine ⟨by simp only [hout, List.length_singleton, Nat.le_refl], fun tag' ht => ?_⟩
    rw [hout] at ht
    obtain rfl := List.mem_singleton.mp ht
    obtain ⟨r, hr⟩ := Option.isSome_iff_exists.mp hsome
    have hp : v.worker.phase.inProgress w = some r := htarget.symm.trans hr
    exact ⟨r, hr, ha.2.trans hp, by simpa [WorkerAux.step, Ev.actor] using hp⟩

theorem View.on_target (h : (machine ext files).Trace (fun v e => aimed w v e = true) es v) :
    v.OnTarget w := by
  have h' : v.Waits ∧ v.OnTarget w := by
    refine h.invariant (I := fun _ v => v.Waits ∧ v.OnTarget w) ⟨⟨rfl, rfl, rfl⟩, ?_⟩ ?_
    · exact .of_nil (by cases w <;> rfl)
    · rintro es v e ⟨hw, ht⟩ ha hok
      exact ⟨hw.step ha, ht.step hw ha hok⟩
  exact h'.2

theorem View.aimed_cancelled {r : ReplyId} {tag : Cancel}
    (h : (machine ext files).Trace (fun v e => aimed w v e = true) es v)
    (ha : v.allowed ext (.touchCancelled w r tag)) :
    tag.target = some r ∧ (machine ext files).Saw es (.cancelSent tag.by_ w tag)
      (·.worker.phase.inProgress w = some r) := by
  obtain ⟨hmem, hp⟩ := View.cancelled_mem ha
  obtain ⟨r', htarget, hin, hr'⟩ := (View.on_target h).target tag hmem
  obtain rfl : r' = r := Option.some.inj (hr'.symm.trans hp)
  exact ⟨htarget, (View.cancels_sent h tag hmem).mono fun _ hs => hs.trans hin⟩

/-- Where cancels are aimed and none is left over, none ends the wait of
another request. -/
theorem gate_cancels_aimed
    (h : (system ext).Run (During observed fun v e => aimed .gate v e = true) (start ext files) c) :
    Aimed ext files .gate c.shared.log := by
  intro r tag l hl
  obtain ⟨u, hu, ha, -⟩ := (traced h).suffix hl
  exact View.aimed_cancelled hu ha

/-- `FP:DELETE` whose client goes away during its wait. -/
def cancelled : List (Event Env Conn) :=
  session ++ ask 1 "FP:DELETE:1" ++ go 1 4 ++ go 0 4 ++ confirm :: go 0 3 ++
    answer 3 [rspWaitFp] :: go 0 13 ++ .env (.socketClose 1) :: go 1 5 ++ go 0 3

theorem gate_cancels_aimed_cancelled : ∃ c : Config Daemon,
    Aimed .sample .sample .gate c.shared.log ∧
      ∃ tag, .touchCancelled .gate 0 tag ∈ c.shared.log := by
  obtain ⟨c, hr, hc⟩ := System.exists_run (system .sample) (during observed (aimed .gate))
    (start .sample .sample) cancelled
    (fun s => s.log.contains (.touchCancelled .gate 0 ⟨1, some 0, some 0⟩)) (by decide)
  exact ⟨c, gate_cancels_aimed (hr.mono fun _ _ => During.of_check), _,
    List.contains_iff_mem.mp hc⟩

/-- A first request, whose client goes away before its command is served and
refused, and a second one whose touch is waited for: the requests are queued
after `n` steps, the first gives up within `k`, and the second is answered
after its wait of `m` and `m'`. -/
def stale (line line' : String) (n k m m' : Nat) : List (Event Env Conn) :=
  session ++ ask 1 line ++ go 1 n ++ .env (.socketClose 1) :: go 1 k ++ go 0 4 ++
    confirm :: go 0 3 ++ answer 3 [rspInvalidParam] :: go 0 11 ++ ask 2 line' ++ go 2 n ++
    go 0 4 ++ confirm :: go 0 3 ++ answer 4 [rspWaitFp] :: go 0 m ++ confirm :: go 0 m' ++ go 2 (k - 2)

/-- The cancel of the first request, kept for the next wait, ends the wait of
the second. -/
theorem stale_cancel_ends_gate : ∃ c, (system .sample).Reach (start .sample .sample) c ∧
    ¬ Aimed .sample .sample .gate c.shared.log ∧
    .answered 2 (.fpDelete 2) (.error "DELETE_FAILED:FP-gate cancelled") ∈ c.shared.log := by
  obtain ⟨c, hr, hc⟩ := System.exists_run (system .sample) (fun _ _ => true)
    (start .sample .sample) (stale "FP:DELETE:1" "FP:DELETE:2" 4 5 16 5)
    (fun s => s.log.contains (.touchCancelled .gate 1 ⟨1, some 0, none⟩) &&
      s.log.contains (.answered 2 (.fpDelete 2) (.error "DELETE_FAILED:FP-gate cancelled")))
    (by decide +kernel)
  simp only [Bool.and_eq_true, List.contains_iff_mem] at hc
  refine ⟨c, hr.reach, fun h => ?_, hc.2⟩
  obtain ⟨l', l, hl⟩ := List.append_of_mem hc.1
  obtain ⟨htarget, -⟩ := h 1 _ l ⟨l', hl.symm⟩
  cases htarget

-- ---------------------------------------------------------------------------
-- Touches for an AuthRequest
-- ---------------------------------------------------------------------------

/-- The wait for a touch is that of the job in hand. -/
def View.InHand (v : View) : Prop :=
  ∀ w r c, v.worker.phase = .touch w r c →
    ∃ j, v.worker.job = some j ∧ j.reply = r ∧ j.cmd.waitsFor = some w

theorem View.InHand.step (h : v.InHand) (ha : v.allowed ext e) : (v.step ext e).InHand := by
  intro w r c hp
  have resting (hr : v.worker.phase.resting = true)
      (hs : (v.step ext e).worker.phase = v.worker.phase) :
      ∃ j, (v.step ext e).worker.job = some j ∧ j.reply = r ∧ j.cmd.waitsFor = some w := by
    rw [← hs, hp] at hr
    cases hr
  cases e with
  | touchArmed w' r' c' =>
    obtain ⟨-, j, data, hj, hr, hw, -⟩ := ha
    obtain ⟨rfl, rfl, rfl⟩ : w' = w ∧ r' = r ∧ c' = c := by
      simpa [WorkerAux.step, Ev.actor] using hp
    exact ⟨j, by simpa [WorkerAux.step, Ev.actor] using hj, hr, hw⟩
  | dequeued j => exact resting (by rw [ha.2.1]; rfl) (by simp [WorkerAux.step, Ev.actor])
  | replied r reply => exact resting ha.1 (by simp [WorkerAux.step, Ev.actor])
  | responseLeft | touchCancelled _ _ _ | touchLeft _ _ =>
    exact absurd (by simpa [WorkerAux.step, Ev.actor] using hp) Phase.leave_ne_touch
  | sessionStarted | sessionEnded | rested | responseArmed _ | wrote _ _ _ | pairingArmed _ =>
    simp [WorkerAux.step, Ev.actor] at hp
  | _ =>
    have hp' : v.worker.phase = .touch w r c := by simpa [WorkerAux.step, Ev.actor] using hp
    simpa [WorkerAux.step, Ev.actor] using h w r c hp'

/-- `AUTH` whose client goes away during its wait. -/
def authCancelled : List (Event Env Conn) :=
  asked ++ answer 3 [rspWaitFp] :: go 0 12 ++ .env (.socketClose 1) :: go 1 7 ++ go 0 3

end Immurok
