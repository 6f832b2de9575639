import Mathlib.Data.List.Nodup
import Immurok.Daemon.Approval
import Immurok.Daemon.Bystanders

/-!
# Commands in their order

The worker takes commands in the order in which the connections queue them. So
what reaches the device between two commands of one connection is told by what
the others queue between them.
-/

namespace Immurok

open Async Machine

variable {ext : Extern} {files : Files} {c : Config Daemon} {v : View} {e : Ev} {es : List Ev}
  {ok : View → Ev → Prop}

-- ---------------------------------------------------------------------------
-- Lists
-- ---------------------------------------------------------------------------

/-- `x` comes after `first` and before `last`, the newest being the head. -/
def Between {α : Type} (l : List α) (first last x : α) : Prop := [last, x, first].Sublist l

instance {α : Type} [DecidableEq α] {l : List α} {first last x : α} :
    Decidable (Between l first last x) :=
  inferInstanceAs (Decidable (List.Sublist _ _))

/-- What is told of a history event by event is told in its order. -/
theorem sublist_filterMap {α β : Type} {l : List α} {p : α → Option β} {g : β → α} {bs : List β}
    (hp : ∀ a b, p a = some b ↔ a = g b) : (bs.map g).Sublist l ↔ bs.Sublist (l.filterMap p) := by
  have hg : (bs.map g).filterMap p = bs := by
    rw [List.filterMap_map]
    exact (List.filterMap_congr fun b _ => (hp (g b) b).mpr rfl).trans (List.filterMap_some (l := bs))
  constructor
  · intro h
    exact hg ▸ h.filterMap p
  · intro h
    obtain ⟨l', hl', rfl⟩ := List.sublist_filterMap_iff.mp h
    refine List.Sublist.trans ?_ hl'
    clear h hl' hg
    induction l' with
    | nil => exact .slnil
    | cons a l' ih =>
      cases ha : p a with
      | none => rw [List.filterMap_cons_none ha]; exact ih.cons a
      | some b =>
        rw [List.filterMap_cons_some ha, List.map_cons, ← (hp a b).mp ha]
        exact ih.cons_cons a

/-- What comes before something taken was taken. -/
theorem sublist_of_mem_taken {α : Type} {waiting taken bs : List α} {b : α}
    (hn : (waiting ++ taken).Nodup) (hb : b ∈ taken) (h : (b :: bs).Sublist (waiting ++ taken)) :
    (b :: bs).Sublist taken := by
  induction waiting with
  | nil => exact h
  | cons a waiting ih =>
    obtain ⟨ha, hn⟩ := List.nodup_cons.mp hn
    cases h with
    | cons _ h => exact ih hn h
    | cons_cons _ _ => exact absurd (List.mem_append_right waiting hb) ha

-- ---------------------------------------------------------------------------
-- The queue
-- ---------------------------------------------------------------------------

/-- The commands queued, each with the connection that did, the latest first. -/
def requests (log : List Ev) : List (TaskId × Job) :=
  log.filterMap fun
    | .queued i r cmd => some (i, ⟨r, cmd⟩)
    | _ => none

/-- Commands are queued at one end and taken at the other. -/
def View.InOrder (v : View) (es : List Ev) : Prop :=
  (requests es).map Prod.snd = v.queue.reverse ++ jobsTaken es

theorem View.inOrder_step (h : v.InOrder es) (ha : v.allowed ext e) :
    (v.step ext e).InOrder (e :: es) := by
  have same (hq : (v.act ext e).queue = v.queue) (hr : requests (e :: es) = requests es)
      (hj : jobsTaken (e :: es) = jobsTaken es) : (v.step ext e).InOrder (e :: es) := by
    rw [InOrder, View.step_queue, hq, hr, hj]
    exact h
  cases e with
  | queued i r cmd =>
    have hr : requests (.queued i r cmd :: es) = (i, ⟨r, cmd⟩) :: requests es := rfl
    have hj : jobsTaken (.queued i r cmd :: es) = jobsTaken es := rfl
    rw [InOrder, hr, hj, List.map_cons, h, View.step_queue]
    simp [View.act]
  | dequeued j =>
    obtain ⟨queue, hq⟩ : ∃ queue, v.queue = j :: queue := List.head?_eq_some_iff.mp ha.1
    have hr : requests (.dequeued j :: es) = requests es := rfl
    have hj : jobsTaken (.dequeued j :: es) = j :: jobsTaken es := rfl
    rw [InOrder, hr, hj, h, View.step_queue]
    simp [View.act, hq]
  | delivered d _ _ => exact same (by cases d <;> rfl) rfl rfl
  | _ => exact same rfl rfl rfl

theorem View.inOrder (h : (machine ext files).Trace ok es v) : v.InOrder es :=
  h.invariant (I := fun es v => v.InOrder es) rfl fun _ _ _ hi ha _ => View.inOrder_step hi ha

/-- No two commands have the same reply channel. -/
theorem requests_nodup (h : (system ext).Reach (start ext files) c) :
    (((requests c.shared.log).map Prod.snd).map Job.reply).Nodup := by
  have hn := (senders_fresh h).1
  have hp : ((c.shared.view.queue.reverse ++ jobsTaken c.shared.log).map Job.reply).Perm
      (c.shared.view.senders c.shared.log) :=
    ((List.reverse_perm _).append_right _).map _
  rw [View.inOrder (reached h)]
  exact hp.nodup_iff.mpr hn

theorem jobs_nodup (h : (system ext).Reach (start ext files) c) :
    (c.shared.view.queue.reverse ++ jobsTaken c.shared.log).Nodup := by
  rw [← View.inOrder (reached h)]
  exact (requests_nodup h).of_map

/-- A reply channel tells the command and its connection. -/
theorem request_unique (h : (system ext).Reach (start ext files) c) {p q : TaskId × Job}
    (hp : p ∈ requests c.shared.log) (hq : q ∈ requests c.shared.log)
    (hr : p.2.reply = q.2.reply) : p = q := by
  have hn := requests_nodup h
  rw [List.map_map] at hn
  exact List.inj_on_of_nodup_map hn hp hq hr

/-- The order of commands is that of the requests they were queued by. -/
theorem requests_sublist (h : (system ext).Reach (start ext files) c) {ps : List (TaskId × Job)}
    (hps : ∀ p ∈ ps, p ∈ requests c.shared.log)
    (hs : (ps.map Prod.snd).Sublist ((requests c.shared.log).map Prod.snd)) :
    ps.Sublist (requests c.shared.log) := by
  obtain ⟨qs, hqs, hmap⟩ := List.sublist_map_iff.mp hs
  have heq : ps = qs := by
    replace hqs := hqs.subset
    clear hs
    induction ps generalizing qs with
    | nil => exact (List.map_eq_nil_iff.mp hmap.symm).symm
    | cons p ps ih =>
      obtain ⟨q, qs, rfl, hq, hmap⟩ := List.map_eq_cons_iff.mp hmap.symm
      obtain ⟨hp, hps⟩ := List.forall_mem_cons.mp hps
      obtain ⟨hq', hqs⟩ := List.cons_subset.mp hqs
      rw [request_unique h hp hq' (by rw [hq]), ih hps qs hmap.symm hqs]
  exact heq ▸ hqs

/-- The events of commands queued. -/
def queuedBy (p : TaskId × Job) : Ev := .queued p.1 p.2.reply p.2.cmd

theorem queued_sublist {ps : List (TaskId × Job)} :
    (ps.map queuedBy).Sublist es ↔ ps.Sublist (requests es) := by
  refine sublist_filterMap fun e p => ?_
  cases e with
  | queued i r cmd =>
    obtain ⟨i', r', cmd'⟩ := p
    simp [queuedBy]
  | _ => simp [queuedBy]

theorem mem_requests {p : TaskId × Job} : p ∈ requests es ↔ queuedBy p ∈ es := by
  rw [← List.singleton_sublist, ← queued_sublist, List.map_singleton, List.singleton_sublist]

theorem dequeued_sublist {js : List Job} :
    (js.map Ev.dequeued).Sublist es ↔ js.Sublist (jobsTaken es) := by
  refine sublist_filterMap fun e j => ?_
  cases e <;> simp

/-- What is taken before a command that was taken is what is queued before it. -/
theorem dequeued_iff (h : (system ext).Reach (start ext files) c) {j : Job} {js : List Job}
    (hj : j ∈ jobsTaken c.shared.log) : ((j :: js).map Ev.dequeued).Sublist c.shared.log ↔
      (j :: js).Sublist ((requests c.shared.log).map Prod.snd) := by
  rw [dequeued_sublist, View.inOrder (reached h)]
  constructor
  · exact fun hs => hs.trans (List.sublist_append_right _ _)
  · exact sublist_of_mem_taken (jobs_nodup h) hj

/-- The command in hand was taken. -/
def View.JobTaken (v : View) (es : List Ev) : Prop := ∀ j, v.worker.job = some j → j ∈ jobsTaken es

theorem View.job_step {j : Job} (h : (v.step ext e).worker.job = some j) :
    v.worker.job = some j ∨ e = .dequeued j := by
  rw [View.worker_step] at h
  split at h
  · cases e with
    | dequeued j' => exact .inr (congrArg Ev.dequeued (Option.some.inj h))
    | replied _ _ | rested => cases h
    | _ => exact .inl h
  · exact .inl h

theorem View.jobTaken (h : (machine ext files).Trace ok es v) : v.JobTaken es := by
  refine h.invariant (I := fun es v => v.JobTaken es) (fun _ hj => nomatch hj)
    fun es v e hi _ _ j hj => ?_
  obtain hj | rfl := View.job_step hj
  · exact ((List.sublist_cons_self e es).filterMap _).subset (hi j hj)
  · exact List.mem_cons_self

theorem jobsTaken_suffix {l : List Ev} (h : l <:+ es) : jobsTaken l ⊆ jobsTaken es :=
  (h.sublist.filterMap _).subset

/-- A reply that was got is that of a command that was taken. -/
theorem taken_of_gotReply (h : (machine ext files).Trace ok es v) {i : TaskId} {r : ReplyId}
    {reply : Reply} (hg : .gotReply i r reply ∈ es) : ∃ j ∈ jobsTaken es, j.reply = r := by
  obtain ⟨l, l', rfl⟩ := List.append_of_mem hg
  obtain ⟨u, hu, hval, -⟩ := h.at rfl
  obtain ⟨m, m', rfl⟩ := List.append_of_mem (mem_of_mem_since ((View.sent hu).reply r reply hval))
  obtain ⟨w, hw, ⟨-, ⟨j, hj, hr⟩, -⟩, -⟩ := hu.at rfl
  refine ⟨j, jobsTaken_suffix ?_ (View.jobTaken hw j hj), hr⟩
  exact (List.suffix_cons _ _).trans ((List.suffix_append _ _).trans
    ((List.suffix_cons _ _).trans (List.suffix_append _ _)))

-- ---------------------------------------------------------------------------
-- Commands from end to end
-- ---------------------------------------------------------------------------

/-- Every command queued is taken, in its turn and once, or still waits; no two have
the same reply channel; and a reply that is got was given for a command taken. -/
structure View.Served (v : View) (es : List Ev) : Prop where
  inOrder : (requests es).map Prod.snd = v.queue.reverse ++ jobsTaken es
  apart : ((requests es).map fun p => p.2.reply).Nodup
  answered : ∀ i r reply, .gotReply i r reply ∈ es →
    ∃ j ∈ jobsTaken es, j.reply = r ∧ .replied r reply ∈ es

/-- A reply that was got was given. -/
theorem replied_of_gotReply (h : (machine ext files).Trace ok es v) {i : TaskId} {r : ReplyId}
    {reply : Reply} (hg : .gotReply i r reply ∈ es) : .replied r reply ∈ es := by
  obtain ⟨l, l', rfl⟩ := List.append_of_mem hg
  obtain ⟨u, hu, hval, -⟩ := h.at rfl
  have hmem := mem_of_mem_since ((View.sent hu).reply r reply hval)
  exact List.mem_append_right _ (List.mem_cons_of_mem _ hmem)

theorem commands_served (h : (system ext).Reach (start ext files) c) :
    c.shared.view.Served c.shared.log where
  inOrder := View.inOrder (reached h)
  apart := by
    have hn := requests_nodup h
    rwa [List.map_map] at hn
  answered i r reply hg := by
    obtain ⟨j, hj, hr⟩ := taken_of_gotReply (reached h) hg
    exact ⟨j, hj, hr, replied_of_gotReply (reached h) hg⟩

/-- An `AUTH_REQUEST` on its way, while another command waits. -/
theorem commands_served_sample : ∃ c, (system .sample).Reach (start .sample .sample) c ∧
    c.shared.queue.length = 1 ∧ (jobsTaken c.shared.log).length = 1 ∧
    c.shared.view.Served c.shared.log := by
  obtain ⟨c, hr, hc⟩ := System.exists_run (system .sample) (fun _ _ => true)
    (start .sample .sample) (asked ++ ask 2 "FP:VERIFY" ++ go 2 3)
    (fun s => s.queue.length == 1 && (jobsTaken s.log).length == 1) (by decide +kernel)
  obtain ⟨hqueue, htaken⟩ := Bool.and_eq_true_iff.mp hc
  exact ⟨c, hr.reach, eq_of_beq hqueue, eq_of_beq htaken, commands_served hr.reach⟩

end Immurok
