import Immurok.Async.History
import Immurok.Daemon.Sound

/-!
# Abandoned commands

A queued command outlives its requester and its session. A gated one is
written in vain only if it is taken from the queue, or lies in the worker's
hand, after one of them is gone.
-/

namespace Immurok

open Async Machine

variable {ext : Extern} {files : Files} {v : View} {e : Ev} {es l : List Ev} {c : Config Daemon}

/-- A gated command is not written once its requester has dropped the reply
channel or a session has ended since it was queued. -/
def Timely (log : List Ev) : Prop :=
  ∀ cmd data j l, (.wrote cmd data (some j) :: l) <:+ log → j.cmd.gated = true →
    (∀ i, .replyDropped i j.reply ∉ since (Ev.queues j.reply) l) ∧
      .sessionEnded ∉ since (Ev.queues j.reply) l

/-- A gated command is taken from the queue while its requester waits and in
the session it was queued in, and its requester stays until it is written. -/
def timely (v : View) : Ev → Bool
  | .dequeued j =>
    !j.cmd.gated || (v.replies j.reply).rx &&
      !(since (Ev.queues j.reply) v.past).contains .sessionEnded
  | .replyDropped _ r =>
    !v.worker.job.any fun j => j.cmd.gated && !v.worker.written && j.reply == r
  | _ => true

/-- What has not happened to the requests whose reply is still awaited, and to
the gated command in hand before it is written. -/
structure View.Waiting (v : View) (es : List Ev) : Prop where
  replies : ∀ r, (v.replies r).rx = true → ∀ i, .replyDropped i r ∉ since (Ev.queues r) es
  job : ∀ j, v.worker.job = some j → j.cmd.gated = true → v.worker.written = false →
    (∀ i, .replyDropped i j.reply ∉ since (Ev.queues j.reply) es) ∧
      .sessionEnded ∉ since (Ev.queues j.reply) es

theorem View.Waiting.step (h : v.Waiting es) (hp : v.past = es) (ha : v.allowed ext e)
    (hok : timely v e = true) : (v.step ext e).Waiting (e :: es) := by
  obtain ⟨hr, hj⟩ := h
  have replies (hr' : (v.act ext e).replies = v.replies) (hne : ∀ i r, e ≠ .replyDropped i r) :
      ∀ r, ((v.act ext e).replies r).rx = true → ∀ i,
        .replyDropped i r ∉ since (Ev.queues r) (e :: es) := fun r h i =>
    not_mem_since_cons (hne i r).symm (hr r (hr' ▸ h) i)
  have job (hj' : (v.step ext e).worker.job = v.worker.job)
      (hw : (v.step ext e).worker.written = v.worker.written)
      (hne : ∀ i r, e ≠ .replyDropped i r) (hse : e ≠ .sessionEnded) :
      ∀ j, (v.step ext e).worker.job = some j → j.cmd.gated = true →
        (v.step ext e).worker.written = false →
        (∀ i, .replyDropped i j.reply ∉ since (Ev.queues j.reply) (e :: es)) ∧
          .sessionEnded ∉ since (Ev.queues j.reply) (e :: es) := by
    intro j h hg h'
    obtain ⟨hd, hs⟩ := hj j (hj' ▸ h) hg (hw ▸ h')
    exact ⟨fun i => not_mem_since_cons (hne i _).symm (hd i), not_mem_since_cons hse.symm hs⟩
  cases e with
  | queued i r cmd =>
    refine ⟨fun r' h i' => ?_, job ?_ ?_ (by simp) (by simp)⟩
    · by_cases hrr : r' = r
      · subst hrr
        simp [since_start (p := Ev.queues r') (e := .queued i r' cmd) (by simp [Ev.queues])]
      · refine not_mem_since_cons (by simp) (hr r' ?_ i')
        simpa [act, Function.update_of_ne hrr] using h
    · by_cases hi : i = 0 <;> simp [Ev.actor, WorkerAux.step, hi]
    · by_cases hi : i = 0 <;> simp [Ev.actor, WorkerAux.step, hi]
  | replyDropped i r =>
    refine ⟨fun r' h i' => ?_, fun j h hg h' => ?_⟩
    · by_cases hrr : r' = r
      · subst hrr
        simp [act] at h
      · refine not_mem_since_cons (by simp [hrr]) (hr r' ?_ i')
        simpa [act, Function.update_of_ne hrr] using h
    · have hj' : v.worker.job = some j := by
        by_cases hi : i = 0 <;> simpa [Ev.actor, WorkerAux.step, hi] using h
      have hw' : v.worker.written = false := by
        by_cases hi : i = 0 <;> simpa [Ev.actor, WorkerAux.step, hi] using h'
      obtain ⟨hd, hs⟩ := hj j hj' hg hw'
      have hne : j.reply ≠ r := by simpa [timely, hj', hg, hw'] using hok
      exact ⟨fun i' => not_mem_since_cons (by simp [hne]) (hd i'), not_mem_since_cons (by simp) hs⟩
  | replied r reply =>
    refine ⟨fun r' h i' => ?_, by simp [Ev.actor, WorkerAux.step]⟩
    refine not_mem_since_cons (by simp) (hr r' ?_ i')
    by_cases hrr : r' = r
    · subst hrr
      simpa [act] using h
    · simpa [act, Function.update_of_ne hrr] using h
  | dequeued j =>
    refine ⟨replies rfl (by simp), fun j' h hg _ => ?_⟩
    obtain rfl : j = j' := by simpa [Ev.actor, WorkerAux.step] using h
    obtain ⟨hrx, hse⟩ : (v.replies j.reply).rx = true ∧
        .sessionEnded ∉ since (Ev.queues j.reply) v.past := by simpa [timely, hg] using hok
    exact ⟨fun i => not_mem_since_cons (by simp) (hr _ hrx i),
      not_mem_since_cons (by simp) (hp ▸ hse)⟩
  | sessionEnded =>
    refine ⟨replies rfl (by simp), ?_⟩
    simp [Ev.actor, WorkerAux.step, ha.2]
  | wrote cmd data job => exact ⟨replies rfl (by simp), by simp [Ev.actor, WorkerAux.step]⟩
  | rested => exact ⟨replies rfl (by simp), by simp [Ev.actor, WorkerAux.step]⟩
  | delivered d _ _ =>
    exact ⟨replies (by cases d <;> rfl) (by simp), job (by simp [Ev.actor, WorkerAux.step])
      (by simp [Ev.actor, WorkerAux.step]) (by simp) (by simp)⟩
  | _ =>
    exact ⟨replies rfl (by simp), job (by simp [Ev.actor, WorkerAux.step])
      (by simp [Ev.actor, WorkerAux.step]) (by simp) (by simp)⟩

theorem View.still_waiting (h : (machine ext files).Trace (fun v e => timely v e = true) es v) :
    v.Waiting es := by
  have h' : v.past = es ∧ v.Waiting es := by
    refine h.invariant (I := fun es v => v.past = es ∧ v.Waiting es) ?_ ?_
    · exact ⟨rfl, fun _ _ _ h => (nomatch h), fun _ h => (nomatch h)⟩
    · rintro es v e ⟨hp, hw⟩ ha hok
      exact ⟨congrArg (e :: ·) hp, hw.step hp ha hok⟩
  exact h'.2

/-- Where gated commands are served in time, none is written in vain. -/
theorem gated_timely
    (h : (system ext).Run (During observed fun v e => timely v e = true) (start ext files) c) :
    Timely c.shared.log := by
  intro cmd data j l hl hg
  obtain ⟨u, hu, ⟨-, -, hj, hw⟩, -⟩ := (traced h).suffix hl
  exact (View.still_waiting hu).job j hj.symm hg (hw j hj.symm hg)

/-- `FP:DELETE`, served at once. -/
def deleted : List (Event Env Conn) := session ++ ask 1 "FP:DELETE:1" ++ go 1 4 ++ go 0 4

theorem gated_timely_deleted : ∃ c : Config Daemon, Timely c.shared.log ∧
    .wrote 3 [cmdDeleteFp, 1, 1] (some ⟨0, .sendFpGated cmdDeleteFp [1]⟩) ∈ c.shared.log := by
  obtain ⟨c, hr, hc⟩ := System.exists_run (system .sample) (during observed timely)
    (start .sample .sample) deleted
    (fun s => s.log.contains
      (.wrote 3 [cmdDeleteFp, 1, 1] (some ⟨0, .sendFpGated cmdDeleteFp [1]⟩))) (by decide)
  exact ⟨c, gated_timely (hr.mono fun _ _ => During.of_check), List.contains_iff_mem.mp hc⟩

/-- The client of `FP:DELETE` goes away while the command is queued. -/
def abandoned : List (Event Env Conn) :=
  session ++ ask 1 "FP:DELETE:1" ++ go 1 4 ++ .env (.socketClose 1) :: go 1 5 ++ go 0 4

/-- The last frame was written for the first command, whose requester was gone. -/
def writtenAbandoned : List Ev → Bool
  | .wrote _ _ (some ⟨0, .sendFpGated _ _⟩) :: l =>
    (since (Ev.queues 0) l).contains (.replyDropped 1 0)
  | _ => false

theorem abandoned_delete_written : ∃ c, (system .sample).Reach (start .sample .sample) c ∧
    ¬ Timely c.shared.log := by
  obtain ⟨c, hr, hc⟩ := System.exists_run (system .sample) (fun _ _ => true)
    (start .sample .sample) abandoned
    (fun s => writtenAbandoned s.log) (by decide)
  refine ⟨c, hr.reach, fun h => ?_⟩
  unfold writtenAbandoned at hc
  split at hc
  next l hl =>
    rw [hl] at h
    obtain ⟨hd, -⟩ := h _ _ _ l List.suffix_rfl rfl
    exact hd 1 (List.contains_iff_mem.mp hc)
  next => cases hc

end Immurok
