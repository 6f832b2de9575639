import Immurok.Cli.PanelThreads

/-!
# The threads follow the machine

What each thread asks and tells belongs to its job, and a thread that is over has told
its end.
-/

namespace Immurok.Tui

open Async

/-- The thread is at the job. -/
def Thread.Does (job : Job) (t : Thread) : Prop := ∃ asked, t = .running job asked

/-- What a thread that is over has left. -/
def Thread.Left (t : Thread) : Prop :=
  (∃ job, t = .ended job) ∨ ∃ job, job.heard = false ∧ t.Does job

/-- What is said at the end of an action. -/
def Report.plain : Report → Bool
  | .message .. | .secretMessage _ => true
  | _ => false

section
variable {i : TaskId} {job : Job} {r : Report} {l : List Report} {cmd : Str} {s s' : Loop}
  {answer : Except Str Str} {P : Thread → Prop} {say : Except Str Str → Report} {again : Bool}

theorem turn_threads {t : Turn} (h : s.turn t = some s') : s'.threads = s.threads := by
  have hpressed : ∀ out, (s.pressed out).threads = s.threads := by
    rintro (e | out)
    · rfl
    · cases out with
      | quit => rfl
      | again p => rfl
      | on p req => rfl
  cases t with
  | key key o =>
    unfold Loop.turn at h
    dsimp only at h
    split at h
    · rw [← Option.some.inj h]
      exact hpressed _
    · nomatch h
  | _ =>
    unfold Loop.turn at h
    dsimp only at h
    split at h
    · obtain rfl := Option.some.inj h
      rfl
    · nomatch h

theorem step_turn {t : Turn} (h : s.turn t = some s') : loopMachine.step s (.turn t) = s' := by
  show (s.turn t).getD s = s'
  rw [h]
  rfl

/-- The course of the thread is its own. -/
def threadPart (i : TaskId) : loopMachine.Part i Thread where
  of s := s.threads i
  keep s e hn := by
    have hother {j : TaskId} {t : Thread} (hj : some j ≠ some i) :
        Function.update s.threads j t i = s.threads i :=
      Function.update_of_ne (fun he => hj (congrArg some he.symm)) _ _
    cases e with
    | turn t =>
      show ((s.turn t).getD s).threads i = s.threads i
      cases hs : s.turn t with
      | none => rfl
      | some s' => exact congrFun (turn_threads hs) i
    | began j job => exact hother hn
    | asked j cmd => exact hother hn
    | told j r => exact hother hn

-- ---------------------------------------------------------------------------
-- Steps
-- ---------------------------------------------------------------------------

theorem emit_triple {e : LoopEvent} {Q : Thread → Prop} (ha : loopMachine.actor e = some i)
    (h : ∀ s : Loop, P (s.threads i) →
      loopMachine.allowed s e ∧ Q ((loopMachine.step s e).threads i)) :
    (threadPart i).Triple Ui.observed P (.modify (Ui.emit e)) fun _ => Q := by
  refine .act fun w _ w' _ hp hm => ?_
  obtain rfl := (Prod.mk.inj (List.mem_singleton.mp hm)).2
  obtain ⟨hallowed, hq⟩ := h _ hp
  exact ⟨.inr ⟨e, ha, hallowed, rfl, rfl⟩, hq⟩

theorem call_keeps {α : Type} {take : Reply → Option α} :
    (threadPart i).Keeps Ui.observed P (call i take) := by
  refine Machine.Part.keeps_of_within (K := fun _ => False) (.bind (.quiet ?_) fun _ => .quiet ?_)
    fun _ _ h => h.elim
  · intro w _ w' hm
    obtain rfl := (Prod.mk.inj (List.mem_singleton.mp hm)).2
    exact .refl
  · intro w a w' hm
    have hw := Option.mem_toList.mp hm
    unfold Ui.taken at hw
    split at hw
    · obtain ⟨b, -, hb⟩ := Option.map_eq_some_iff.mp hw
      obtain rfl := (Prod.mk.inj hb).2
      exact .refl
    · nomatch hw

theorem tell_keeps (h : r.of job = true) (hf : r.final = false) :
    (threadPart i).Keeps Ui.observed (Thread.Does job) (tell i r) := by
  refine emit_triple rfl fun s ⟨asked, hs⟩ => ⟨⟨job, asked, hs, h⟩, asked, ?_⟩
  show Function.update s.threads i ((s.threads i).tell r) i = _
  rw [Function.update_self, hs, Thread.tell, hf]
  rfl

theorem tell_last (h : r.of job = true) (hf : r.final = true) :
    (threadPart i).Triple Ui.observed (Thread.Does job) (tell i r) fun _ t => t = .ended job := by
  refine emit_triple rfl fun s ⟨asked, hs⟩ => ⟨⟨job, asked, hs, h⟩, ?_⟩
  show Function.update s.threads i ((s.threads i).tell r) i = _
  rw [Function.update_self, hs, Thread.tell, hf]
  rfl

theorem notice_keeps {msg : Option Str} (h : ∀ msg, (Report.message msg .yellow).of job = true) :
    (threadPart i).Keeps Ui.observed (Thread.Does job) (notice i msg) := by
  cases msg with
  | some msg => exact tell_keeps (h msg) rfl
  | none => exact .ret fun _ => id

/-- The last one is the end. -/
theorem tellAll_last (hr : r.of job = true) (hf : r.final = true) :
    (∀ r ∈ l, r.of job = true ∧ r.final = false) →
    (threadPart i).Triple Ui.observed (Thread.Does job) (tellAll i (l ++ [r])) fun _ t =>
      t = .ended job := by
  induction l with
  | nil => exact fun _ => .bind (tell_last hr hf) fun _ => .ret fun _ => id
  | cons r' l ih =>
    intro h
    obtain ⟨h', hf'⟩ := h r' List.mem_cons_self
    exact .bind (tell_keeps h' hf') fun _ => ih fun r'' hr'' => h r'' (List.mem_cons_of_mem _ hr'')

theorem ask_first (h : cmd ∈ job.commands) : (threadPart i).Triple Ui.observed
    (fun t => t = .running job false) (ask i cmd) fun _ => Thread.Does job := by
  refine .bind (C := fun _ => Thread.Does job) ?_ fun _ => call_keeps
  refine emit_triple rfl fun s hs => ⟨⟨job, false, hs, h, .inr rfl⟩, true, ?_⟩
  show Function.update s.threads i (s.threads i).ask i = _
  rw [Function.update_self, hs]
  rfl

theorem ask_keeps (h : cmd ∈ job.commands) (hj : job.harmless = true) :
    (threadPart i).Keeps Ui.observed (Thread.Does job) (ask i cmd) := by
  refine .bind (C := fun _ => Thread.Does job) ?_ fun _ => call_keeps
  refine emit_triple rfl fun s ⟨asked, hs⟩ => ⟨⟨job, asked, hs, h, .inl hj⟩, true, ?_⟩
  show Function.update s.threads i (s.threads i).ask i = _
  rw [Function.update_self, hs]
  rfl

-- ---------------------------------------------------------------------------
-- Requests
-- ---------------------------------------------------------------------------

theorem Report.of_plain (h : r.plain = true) (ha : job.acting = true) (hp : job.isPush = false) :
    r.of job = true ∧ r.final = false := by
  have hof : (job.acting && !job.isPush) = true := by rw [ha, hp]; rfl
  cases r with
  | message msg style =>
    refine ⟨?_, rfl⟩
    cases job with
    | pairProgress => rfl
    | _ => exact hof
  | secretMessage msg => exact ⟨hof, rfl⟩
  | _ => nomatch h

/-- The reports of an action but for its last one. -/
theorem plain_refresh {r' : Report} (h : r.plain = true) (ha : job.acting = true)
    (hp : job.isPush = false) (hr : r' ∈ [r, .refresh]) :
    r'.of job = true ∧ r'.final = false := by
  obtain hr | hr := List.mem_cons.mp hr
  · rw [hr]
    exact Report.of_plain h ha hp
  · rw [List.mem_singleton.mp hr, Report.of, ha, hp]
    exact ⟨rfl, rfl⟩

theorem of_done (ha : job.acting = true) (hp : job.isPush = false) : Report.done.of job = true := by
  rw [Report.of, ha, hp]
  rfl

theorem request_over (hc : cmd ∈ job.commands) (ha : job.acting = true) (hp : job.isPush = false)
    (hs : ∀ answer, (say answer).plain = true) : (threadPart i).Triple Ui.observed
      (fun t => t = .running job false) (request i cmd say again) fun _ t => t = .ended job := by
  refine .bind (ask_first hc) fun answer => ?_
  obtain ⟨hof, hfinal⟩ := Report.of_plain (hs answer) ha hp
  refine .bind (tell_keeps hof hfinal) fun _ => ?_
  refine .bind ?_ fun _ => tell_last (of_done ha hp) rfl
  exact Machine.Part.keeps_when (tell_keeps (by rw [Report.of, ha, hp]; rfl) rfl)

theorem slotClearSaid_plain : (slotClearSaid answer).plain = true := by
  cases answer with
  | error e => rfl
  | ok rsp =>
    unfold slotClearSaid
    dsimp only
    split
    all_goals rfl

theorem factoryResetSaid_plain : (factoryResetSaid answer).plain = true := by
  cases answer with
  | error e => rfl
  | ok rsp =>
    unfold factoryResetSaid
    dsimp only
    split
    · rfl
    · rfl

theorem pairSaid_plain : (pairSaid answer).plain = true := by
  cases answer with
  | error e => rfl
  | ok rsp =>
    unfold pairSaid
    dsimp only
    split
    · rfl
    split
    · rfl
    · rfl

theorem unpairSaid_plain : (unpairSaid answer).plain = true := by
  cases answer with
  | error e => rfl
  | ok rsp =>
    unfold unpairSaid
    dsimp only
    split
    all_goals rfl

theorem deleteSaid_plain {slot : UInt8} : (deleteSaid slot answer).plain = true := by
  cases answer with
  | error e => rfl
  | ok rsp =>
    unfold deleteSaid
    dsimp only
    split
    · rfl
    · rfl

theorem verifySaid_plain : (verifySaid answer).plain = true := by
  cases answer with
  | error e => rfl
  | ok rsp =>
    unfold verifySaid
    dsimp only
    split
    · rfl
    split
    · rfl
    · rfl

theorem toggleSaid_plain {name : Str} {enabling : Bool} {note : Option Str} :
    (toggleSaid name enabling note answer).plain = true := by
  cases answer with
  | error e => rfl
  | ok rsp =>
    unfold toggleSaid
    dsimp only
    split
    · rfl
    · rfl

theorem keyAddSaid_plain {label name : Str} : (keyAddSaid label name answer).plain = true := by
  cases answer with
  | error e => rfl
  | ok rsp =>
    unfold keyAddSaid
    dsimp only
    split
    · rfl
    · rfl

theorem showApiSaid_plain {name : Str} : (showApiSaid name answer).plain = true := by
  cases answer with
  | error e => rfl
  | ok rsp =>
    unfold showApiSaid
    dsimp only
    split
    · rfl
    · rfl

theorem generateSaid_plain {name : Str} : (generateSaid name answer).plain = true := by
  unfold generateSaid
  split
  · rfl
  · rfl

theorem keyDeleteSaid_plain {tab : KeyTab} {idx : UInt8} :
    (keyDeleteSaid tab idx answer).plain = true := by
  cases answer with
  | error e => rfl
  | ok rsp =>
    unfold keyDeleteSaid
    dsimp only
    split
    · rfl
    · rfl

theorem otpSaid_plain {name : Str} : (otpSaid name answer).plain = true := by
  cases answer with
  | error e => rfl
  | ok rsp =>
    unfold otpSaid
    dsimp only
    split
    · rfl
    · rfl

-- ---------------------------------------------------------------------------
-- Pairing
-- ---------------------------------------------------------------------------

theorem runPairProgress_keeps {flag : Nat} {secondHost : Bool} :
    (threadPart i).Keeps Ui.observed (Thread.Does (.pairProgress flag secondHost))
      (runPairProgress i flag secondHost) := by
  refine Machine.Part.keeps_iter fun last => ?_
  refine .bind (C := fun _ => Thread.Does (.pairProgress flag secondHost)) ?_ fun stop => ?_
  · refine .act fun w a w' _ hp hm => ?_
    obtain rfl := (Prod.mk.inj (List.mem_singleton.mp hm)).2
    exact ⟨.inl .refl, hp⟩
  split
  · exact .ret fun _ => id
  refine .bind (ask_keeps (List.mem_singleton.mpr rfl) rfl) fun answer => ?_
  cases answer with
  | error e => exact .ret fun _ => id
  | ok line =>
    dsimp only
    split
    · exact .ret fun _ => id
    · exact .bind (notice_keeps fun _ => rfl) fun _ => .ret fun _ => id

theorem runPair_over {flag : Nat} : (threadPart i).Triple Ui.observed
    (fun t => t = .running (.pair flag) false) (runPair i flag) fun _ t =>
      t = .ended (.pair flag) := by
  refine .bind (ask_first (List.mem_singleton.mpr rfl)) fun answer => ?_
  refine .bind (C := fun _ => Thread.Does (.pair flag)) ?_ fun _ => ?_
  · refine .act fun w _ w' _ hp hm => ?_
    obtain rfl := (Prod.mk.inj (List.mem_singleton.mp hm)).2
    exact ⟨.inl .refl, hp⟩
  · exact tellAll_last (l := [pairSaid answer, .refresh]) (of_done rfl rfl) rfl
      fun r' => plain_refresh pairSaid_plain rfl rfl

-- ---------------------------------------------------------------------------
-- Enrollment
-- ---------------------------------------------------------------------------

/-- After the end of the enrollment it has been told, after an error not yet. -/
def EnrollLeft (job : Job) : Except Str Unit → Thread → Prop
  | .ok (), t => t = .ended job
  | .error _, t => t.Does job

theorem enrolled_over {slot : UInt8} : (threadPart i).Triple Ui.observed
    (Thread.Does (.enroll slot)) (tellAll i (enrolled slot)) fun _ t =>
      t = .ended (.enroll slot) :=
  tellAll_last (l := [_, .refresh]) (of_done rfl rfl) rfl fun _ => plain_refresh rfl rfl rfl

theorem enrollPoll_spec {slot : UInt8} {polling : Polling} : (threadPart i).Triple Ui.observed
    (Thread.Does (.enroll slot)) (enrollPoll i slot polling) fun r t =>
      r.elim (fun _ => t.Does (.enroll slot)) (EnrollLeft (.enroll slot) · t) := by
  have hstatus {cmd : Str} (h : cmd = "FP:STATUS".toList ∨ cmd = "FP:LIST".toList) :
      cmd ∈ (Job.enroll slot).commands := by
    obtain rfl | rfl := h
    · exact List.mem_cons_of_mem _ List.mem_cons_self
    · exact List.mem_cons_of_mem _ (List.mem_cons_of_mem _ List.mem_cons_self)
  unfold enrollPoll
  split
  · exact .ret fun _ => id
  refine .bind (ask_keeps (hstatus (.inl rfl)) rfl) fun answer => ?_
  cases answer with
  | error e => exact .ret fun _ => id
  | ok rsp =>
    dsimp only
    split
    · exact .ret fun _ => id
    · split
      · exact .ret fun _ => id
      refine .bind (ask_keeps (hstatus (.inr rfl)) rfl) fun listed => ?_
      cases listed with
      | error e => exact .ret fun _ => id
      | ok listed =>
        dsimp only
        split
        · exact .bind enrolled_over fun _ => .ret fun _ => id
        · exact .ret fun _ => id
    · refine .bind (tell_keeps rfl rfl) fun _ => ?_
      split
      · exact .ret fun _ => id
      split
      · exact .bind enrolled_over fun _ => .ret fun _ => id
      split
      · exact .ret fun _ => id
      · exact .bind (notice_keeps fun _ => rfl) fun _ => .ret fun _ => id

theorem runEnroll_over {slot : UInt8} : (threadPart i).Triple Ui.observed
    (fun t => t = .running (.enroll slot) false) (runEnroll i slot) fun _ t =>
      t = .ended (.enroll slot) := by
  refine .bind (C := EnrollLeft (.enroll slot)) ?_ fun result => ?_
  · refine .bind (ask_first List.mem_cons_self) fun answer => ?_
    cases answer with
    | error e => exact .ret fun _ => id
    | ok rsp =>
      dsimp only
      split
      · refine .bind (tell_keeps rfl rfl) fun _ => .bind (tell_keeps rfl rfl) fun _ => ?_
        exact .iter (J := fun _ => Thread.Does _) fun _ => enrollPoll_spec
      · exact .ret fun _ => id
  · cases result with
    | ok _ => exact .ret fun _ => id
    | error e =>
      exact tellAll_last (l := [_, .refresh]) (of_done rfl rfl) rfl
        fun _ => plain_refresh rfl rfl rfl

-- ---------------------------------------------------------------------------
-- The system
-- ---------------------------------------------------------------------------

theorem does_running : Thread.Does job (.running job false) := ⟨false, rfl⟩

theorem runFwUpdate_over {prep : PreparedUpdate} : (threadPart i).Triple Ui.observed
    (Thread.Does (.fwUpdate prep)) (runFwUpdate i prep) fun _ t =>
      t = .ended (.fwUpdate prep) := by
  refine .bind (C := fun _ => Thread.Does _) (.loop ?_) fun result => tell_last rfl rfl
  refine .bind call_keeps fun reply => ?_
  cases reply with
  | inl e => exact .bind (tell_keeps (by cases e <;> rfl) (by cases e <;> rfl)) fun _ => .ret fun _ => id
  | inr result => exact .ret fun _ => id

theorem runLogStream_over : (threadPart i).Triple Ui.observed (Thread.Does .logStream)
    (runLogStream i) fun _ t => t = .ended .logStream := by
  refine .bind (C := fun _ => Thread.Does _) (.loop ?_) fun _ => tell_last rfl rfl
  refine .bind call_keeps fun line => ?_
  cases line with
  | some l => exact .bind (tell_keeps rfl rfl) fun _ => .ret fun _ => id
  | none => exact .ret fun _ => id

theorem run_left : (threadPart i).Triple Ui.observed (fun t => t = .running job false)
    (job.run i) fun _ => Thread.Left := by
  have hover {t : Proc Ui Unit} (h : (threadPart i).Triple Ui.observed
      (fun t => t = .running job false) t fun _ t => t = .ended job) :
      (threadPart i).Triple Ui.observed (fun t => t = .running job false) t fun _ => Thread.Left :=
    h.post fun _ _ ht => .inl ⟨job, ht⟩
  have hgoing {t : Proc Ui Unit} (h : (threadPart i).Triple Ui.observed
      (Thread.Does job) t fun _ t => t = .ended job) :
      (threadPart i).Triple Ui.observed (fun t => t = .running job false) t fun _ => Thread.Left :=
    hover (h.pre fun _ ht => ht ▸ does_running)
  have hc {cmd : Str} : cmd ∈ [cmd] := List.mem_singleton.mpr rfl
  cases job with
  | slotClear slot => exact hover (request_over hc rfl rfl fun _ => slotClearSaid_plain)
  | factoryReset => exact hover (request_over hc rfl rfl fun _ => factoryResetSaid_plain)
  | pairProgress flag secondHost =>
    exact runPairProgress_keeps.conseq (fun _ ht => ht ▸ does_running)
      fun _ _ ht => .inr ⟨_, rfl, ht⟩
  | pair flag => exact hover runPair_over
  | unpair => exact hover (request_over hc rfl rfl fun _ => unpairSaid_plain)
  | enroll slot => exact hover runEnroll_over
  | enrollCancel =>
    exact .bind (ask_first hc) fun _ => .ret fun _ ht => .inr ⟨_, rfl, ht⟩
  | delete slot => exact hover (request_over hc rfl rfl fun _ => deleteSaid_plain)
  | verify => exact hover (request_over hc rfl rfl fun _ => verifySaid_plain)
  | toggle name cmdKey enabling note =>
    exact hover (request_over hc rfl rfl fun _ => toggleSaid_plain)
  | keyAdd cat label name service secret => exact hover (request_over hc rfl rfl fun _ => keyAddSaid_plain)
  | showApi name => exact hover (request_over hc rfl rfl fun _ => showApiSaid_plain)
  | generate name => exact hover (request_over hc rfl rfl fun _ => generateSaid_plain)
  | keyDelete tab idx => exact hover (request_over hc rfl rfl fun _ => keyDeleteSaid_plain)
  | otp name => exact hover (request_over hc rfl rfl fun _ => otpSaid_plain)
  | fwSilentCheck => exact hgoing (.bind call_keeps fun _ => tell_last rfl rfl)
  | fwCheck => exact hgoing (.bind call_keeps fun _ => tell_last rfl rfl)
  | fwUpdate prep => exact hgoing runFwUpdate_over
  | logStream => exact hgoing runLogStream_over

theorem thread_left :
    (threadPart i).Triple Ui.observed (fun _ => True) (thread i) fun _ => Thread.Left := by
  refine .bind (C := fun job t => t = .running job false) ?_ fun job => run_left
  refine .act fun w job w' _ _ hm => ?_
  have hw := Option.mem_toList.mp hm
  unfold Ui.begun at hw
  split at hw
  next hunborn =>
    obtain ⟨job', hspawned, hjob⟩ := Option.map_eq_some_iff.mp hw
    obtain ⟨rfl, rfl⟩ := Prod.mk.inj hjob
    refine ⟨.inr ⟨.began i job', rfl, ⟨hunborn, hspawned⟩, rfl, rfl⟩, ?_⟩
    exact Function.update_self ..
  next => nomatch hw

theorem interface_serves : loopMachine.Serves Ui.observed interface where
  env x w w' h _ := by
    cases x with
    | turn t =>
      obtain ⟨s, hs, rfl⟩ := Option.map_eq_some_iff.mp h
      refine .inr ⟨.turn t, rfl, ?_, rfl, ?_⟩
      · show (w.loop.turn t).isSome = true
        rw [hs]
        rfl
      · exact (step_turn hs).symm
    | reply i r =>
      unfold interface at h
      dsimp only at h
      split at h
      · obtain rfl := Option.some.inj h
        exact .inl .refl
      · nomatch h
  serve i _ := thread_left.post fun _ _ _ => trivial

end

end Immurok.Tui
