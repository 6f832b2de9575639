import Immurok.Daemon.Routing

/-!
# The worker keeps to the view

Between two commands the worker is `Ready`; a command takes it through its
wait and back. `sendCommandInner_spec` and `touchLoop_spec` say what it knows
when a wait is over: which frame ended it, and which command that answers.
-/

namespace Immurok

open Async Machine

variable {ext : Extern} {files : Files} {i : TaskId} {K : Ev → Prop} {f : Frame}
  {A : WorkerAux → Prop} {α β : Type} {j : Option Job} {pkt data : Bytes}

/-- Nothing is waited for, with `j` in hand. -/
structure Ready (j : Option Job) (w : WorkerAux) : Prop where
  resting : w.phase.resting = true
  job : w.job = j

/-- The packet was written for `j` and its answer is waited for. -/
def Sent (pkt : Bytes) (j : Option Job) (w : WorkerAux) : Prop :=
  ∃ c, w.phase = .response c ∧ w.job = j ∧ w.lastWrote = some (c, pkt, j)

/-- `data` has come as its answer. -/
def Got (pkt : Bytes) (j : Option Job) (data : Bytes) (w : WorkerAux) : Prop :=
  ∃ c f, w.phase = .response c ∧ w.job = j ∧ w.lastWrote = some (c, pkt, j) ∧
    w.answer = some (c, f) ∧ f.data = data

/-- The packet was the last one written and `data` is its answer. -/
def Done (pkt : Bytes) (j : Option Job) (data : Bytes) (w : WorkerAux) : Prop :=
  ∃ c f, w.phase = .held c ∧ w.job = j ∧ w.lastWrote = some (c, pkt, j) ∧
    w.answer = some (c, f) ∧ f.data = data

theorem Sent.steady : Steady (Sent pkt j) := by
  rintro w w' hp hj - hl ⟨c, h⟩
  exact ⟨c, by rw [hp, hj, hl]; exact h⟩

theorem Got.sent {w : WorkerAux} (h : Got pkt j data w) : Sent pkt j w := by
  obtain ⟨c, f, hp, hj, hl, -⟩ := h
  exact ⟨c, hp, hj, hl⟩

theorem Got.leave {w : WorkerAux} (h : Got pkt j data w) :
    Done pkt j data { w with phase := w.phase.leave } := by
  obtain ⟨c, f, hp, h⟩ := h
  exact ⟨c, f, by rw [hp]; rfl, h⟩

theorem Done.ready {w : WorkerAux} (h : Done pkt j data w) : Ready j w := by
  obtain ⟨c, f, hp, hj, -⟩ := h
  exact ⟨by rw [hp]; rfl, hj⟩

-- ---------------------------------------------------------------------------
-- Frames
-- ---------------------------------------------------------------------------

/-- The next frame, taken with the wait for a touch unparked where there is
one. -/
theorem takeFrame_follows {k : Frame → α} {s s₀ s' : Daemon} {a : α} (hA : Steady A)
    (hp : A s.aux.worker) (hw : ∀ c, s.aux.worker.phase ≠ .armed c)
    (hv₀ : s₀.view = { s.view with cancels := s.view.unparked })
    (h : notifyBranch k s₀ = some (a, s')) :
    (machine ext files).Follows observed (some 0) s s' ∧
      ∃ f, a = k f ∧ Routes f A s'.aux.worker := by
  unfold notifyBranch at h
  split at h
  next => cases h
  next f rest hr =>
    obtain ⟨rfl, rfl⟩ := Prod.mk.inj (Option.some.inj h)
    have hi : s.view.inbox = f :: rest := by
      calc s.view.inbox
          = s₀.view.inbox := by rw [hv₀]
        _ = f :: rest := hr
    have ha : s.view.allowed ext (.routed f) := ⟨by rw [hi]; rfl, hw⟩
    have hv : { s₀ with link := { s₀.link with notifyRx := rest } }.view =
        s.view.act ext (.routed f) := by
      calc { s₀ with link := { s₀.link with notifyRx := rest } }.view
          = { s₀.view with inbox := rest } := rfl
        _ = s.view.act ext (.routed f) := by rw [hv₀]; simp [View.act, hi]
    obtain ⟨hf, hx⟩ := Daemon.follows_worker hv ha rfl
    exact ⟨hf, f, rfl, hx ▸ hA s.aux.worker _ rfl rfl rfl rfl hp, hx ▸ rfl⟩

/-- Outside a wait for a touch there is nothing to unpark. -/
theorem notifyBranch_follows {k : Frame → α} {s s' : Daemon} {a : α} (hA : Steady A)
    (hp : A s.aux.worker) (hw : ∀ c, s.aux.worker.phase ≠ .armed c)
    (ht : ∀ t r c, s.aux.worker.phase ≠ .touch t r c) (h : notifyBranch k s = some (a, s')) :
    (machine ext files).Follows observed (some 0) s s' ∧
      ∃ f, a = k f ∧ Routes f A s'.aux.worker := by
  refine takeFrame_follows hA hp hw ?_ h
  have hu : s.view.unparked = s.view.cancels := by
    unfold View.unparked
    split
    next hph => exact absurd hph (ht _ _ _)
    next => rfl
  rw [hu]

/-- Routing a frame in a loop that goes round again. -/
theorem route_again {R : α → WorkerAux → Prop} (hA : Steady A) :
    WorkerTriple ext files (Routes f A) (do routeNotification ext f; pure none) fun r w =>
      (r : Option α).elim (A w) fun a => R a w :=
  .bind (routeNotification_keeps hA) fun _ => .ret fun _ h => h.1

-- ---------------------------------------------------------------------------
-- Commands
-- ---------------------------------------------------------------------------

theorem armResponse_spec :
    WorkerTriple ext files (fun w => Ready j w ∧ w.Writable) armResponse fun _ w =>
      w.phase = .armed w.nextCmd ∧ w.job = j ∧ w.Writable :=
  worker_note (fun _ => rfl) (fun _ => rfl) fun _ _ hp => ⟨⟨hp.1.1, rfl⟩, rfl, hp.1.2, hp.2⟩

theorem leaveResponse_spec {P Q : WorkerAux → Prop}
    (h : ∀ w, P w → w.phase.expectsResponse = true ∧ Q { w with phase := w.phase.leave }) :
    WorkerTriple ext files P leaveResponse fun _ => Q :=
  worker_note (fun _ => rfl) (fun _ => rfl) fun s hw hp =>
    ⟨hw.response.trans (h s.aux.worker hp).1, (h s.aux.worker hp).2⟩

/-- The packet goes out for the job in hand, or the wait is as it was. -/
theorem commandWrite_spec :
    WorkerTriple ext files (fun w => w.phase = .armed w.nextCmd ∧ w.job = j ∧ w.Writable)
      (cmdWrite (commandWritten pkt)) fun r w =>
      Sent pkt j w ∨ ((∃ c, w.phase = .armed c) ∧ w.job = j) ∧ r.isOk = false := by
  have h : WorkerTriple ext files (fun w => w.phase = .armed w.nextCmd ∧ w.job = j ∧ w.Writable)
      (cmdWrite (commandWritten pkt)) fun r w => Sent pkt j w ∨
        (w.phase = .armed w.nextCmd ∧ w.job = j ∧ w.Writable) ∧ r.isOk = false :=
    cmdWrite_spec (fun _ => rfl) (fun _ => rfl) fun v ⟨hph, hj, hwr⟩ =>
      ⟨⟨hph, rfl, rfl, hwr⟩, v.worker.nextCmd, rfl, hj, by rw [← hj]; rfl⟩
  exact h.post fun _ w hp => hp.imp_right fun ⟨⟨hph, hj, _⟩, he⟩ => ⟨⟨⟨_, hph⟩, hj⟩, he⟩

/-- What a round of the wait for the response has come to. -/
def Round (pkt : Bytes) (j : Option Job) : Waited (Option Bytes) → WorkerAux → Prop
  | .resolved (some data), w => Got pkt j data w
  | .frame f, w => Routes f (Sent pkt j) w
  | _, w => Sent pkt j w

/-- A response that resolves the wait answers the packet. -/
theorem responseBranch_follows {s s' : Daemon} {a : Waited (Option Bytes)}
    (hw : s.view.Waits) (hans : s.view.Answers) (hp : Sent pkt j s.aux.worker)
    (h : responseBranch s = some (a, s')) :
    (machine ext files).Follows observed (some 0) s s' ∧ Round pkt j a s'.aux.worker := by
  obtain ⟨got, hrecv, rfl, rfl⟩ : ∃ got, s.ble.response.recv = some got ∧
      .resolved got = a ∧ s = s' := by
    simpa [responseBranch] using h
  refine ⟨.inl .refl, ?_⟩
  cases got with
  | none => exact hp
  | some data =>
    obtain ⟨c, hph, hj, hl⟩ := hp
    have hsome : s.view.response.isSome := by
      rw [hw.response, show s.view.worker.phase = .response c from hph]
      rfl
    obtain ⟨c', f, hf, hc, hd⟩ := hans.response data (Oneshot.shown_of_recv hrecv hsome)
    obtain rfl : c = c' := by
      rw [show s.view.worker.phase = .response c from hph] at hc
      exact Option.some.inj hc
    exact ⟨c, f, hph, hj, hl, hf, hd⟩

theorem awaitResponse_spec {cmd : UInt8} {deadline : Nat} :
    WorkerTriple ext files (Sent pkt j) (awaitResponse ext cmd deadline) fun r w =>
      Sent pkt j w ∧ ∀ data, r = .ok data → Got pkt j data w := by
  refine .loop (.bind (C := Round pkt j) (worker_select fun br hbr s a s' hw hans hp h => ?_) fun a => ?_)
  · simp only [List.mem_cons, List.not_mem_nil, or_false] at hbr
    rcases hbr with rfl | rfl | rfl
    · exact responseBranch_follows hw hans hp h
    · have ⟨c, hph, _⟩ := hp
      obtain ⟨hf, f, rfl, hr⟩ := notifyBranch_follows Sent.steady hp (by simp [hph])
        (by simp [hph]) h
      exact ⟨hf, hr⟩
    · obtain ⟨rfl, rfl⟩ := deadlineBranch_some h
      exact ⟨.inl .refl, hp⟩
  · cases a with
    | resolved got =>
      cases got with
      | none => exact .ret fun w h => ⟨h, by simp⟩
      | some data =>
        refine .ret fun w h => ⟨Got.sent h, ?_⟩
        rintro data' hd
        exact Except.ok.inj hd ▸ h
    | frame f => exact route_again Sent.steady
    | cancelled => exact .ret fun w h => h
    | timeout =>
      exact .bind (Only.silent (updateBle_only fun _ => rfl)) fun _ => .ret fun w h => ⟨h, by simp⟩

/-- The command is sent and ready again; with an answer, it is the answer to
the packet. -/
theorem sendCommandInner_spec {cmd : UInt8} {payload : Bytes} {timeout : Nat} :
    WorkerTriple ext files (fun w => Ready j w ∧ w.Writable)
      (sendCommandInner ext cmd payload timeout) fun r w =>
      Ready j w ∧ ∀ data, r = .ok data → Done (packet cmd payload) j data w := by
  refine .bind armResponse_spec fun _ => .bind commandWrite_spec fun r => ?_
  cases r with
  | error e =>
    refine .bind (leaveResponse_spec (Q := Ready j) fun w h => ?_) fun _ => .ret fun w h => ?_
    · obtain ⟨c, hp, hj, -⟩ | ⟨⟨⟨c, hp⟩, hj⟩, -⟩ := h
      · exact ⟨by rw [hp]; rfl, Phase.resting_leave, hj⟩
      · exact ⟨by rw [hp]; rfl, Phase.resting_leave, hj⟩
    · exact ⟨h, by simp⟩
  | ok u =>
    refine .bind (Part.Triple.pre (clock_only).silent (P := Sent (packet cmd payload) j) ?_)
      fun now => ?_
    · rintro w (h | ⟨-, h⟩)
      · exact h
      · simp [Except.isOk, Except.toBool] at h
    refine .bind awaitResponse_spec fun result => ?_
    refine .bind (leaveResponse_spec (Q := fun w => Ready j w ∧
      ∀ data, result = .ok data → Done (packet cmd payload) j data w) ?_) fun _ => .ret fun w h => h
    rintro w ⟨⟨c, hp, hj, hl⟩, hgot⟩
    refine ⟨by rw [hp]; rfl, ⟨Phase.resting_leave, hj⟩, fun data hr => (hgot data hr).leave⟩

-- ---------------------------------------------------------------------------
-- Waiting for a touch
-- ---------------------------------------------------------------------------

section
variable {t : Touch} {job : Job}

/-- The touch is waited for that `job` asked for with the packet. -/
def Touching (t : Touch) (pkt : Bytes) (job : Job) (w : WorkerAux) : Prop :=
  ∃ c, w.phase = .touch t job.reply c ∧ w.job = some job ∧ w.lastWrote = some (c, pkt, some job)

theorem Touching.steady : Steady (Touching t pkt job) := by
  rintro w w' hp hj - hl ⟨c, h⟩
  exact ⟨c, by rw [hp, hj, hl]; exact h⟩

theorem Touching.leave {w : WorkerAux} (h : Touching t pkt job w) :
    Ready (some job) { w with phase := w.phase.leave } := by
  obtain ⟨c, -, hj, -⟩ := h
  exact ⟨Phase.resting_leave, hj⟩

theorem armTouch_spec {g : Daemon → Daemon} (hjob : job.cmd.waitsFor = some t)
    (hv : ∀ s, (g s).view = s.view.setTouch t true) :
    WorkerTriple ext files (Done pkt (some job) data)
      (Proc.modify fun s => Daemon.note (.touchArmed t s.request s.awaited) (g s))
      fun _ => Touching t pkt job := by
  refine worker_note (fun _ => rfl) hv fun s _ hp => ?_
  obtain ⟨c, f, hph, hj, hl, -⟩ := hp
  have hr : s.request = job.reply := by simp [Daemon.request, hj]
  have hc : s.awaited = c := by simp [Daemon.awaited, hph, Phase.awaiting]
  rw [hr, hc]
  exact ⟨⟨hph, job, pkt, hj, rfl, hjob, hl⟩, c, rfl, hj, hl⟩

theorem armGate_spec (hjob : job.cmd.waitsFor = some .gate) :
    WorkerTriple ext files (Done pkt (some job) data) armGate fun _ => Touching .gate pkt job :=
  armTouch_spec hjob fun _ => rfl

theorem armAuth_spec (hjob : job.cmd.waitsFor = some .auth) :
    WorkerTriple ext files (Done pkt (some job) data) armAuth fun _ => Touching .auth pkt job :=
  armTouch_spec hjob fun _ => rfl

theorem parkTouch_keeps : Keeps ext files (Touching t pkt job) (parkTouch t) := by
  refine worker_note (fun _ => rfl) (fun _ => rfl) fun s _ hp => ?_
  have ⟨c, hph, _⟩ := hp
  exact ⟨⟨_, c, hph⟩, hp⟩

theorem Daemon.request_touching {s : Daemon} (h : Touching t pkt job s.aux.worker) :
    s.request = job.reply := by
  obtain ⟨c, -, hj, -⟩ := h
  simp [request, hj]

/-- The wait ends by itself. -/
theorem leaveTouch_follows {s : Daemon} (hp : Touching t pkt job s.aux.worker) :
    (machine ext files).Follows observed (some 0) s (leaveTouch t s) ∧
      (leaveTouch t s).aux.worker =
        { s.aux.worker with phase := s.aux.worker.phase.leave } := by
  have ha : s.view.allowed ext (.touchLeft t s.request) := by
    rw [Daemon.request_touching hp]
    obtain ⟨c, hph, -⟩ := hp
    exact ⟨c, hph⟩
  have hv : ((s.unparkTouch t).closeTouch t).view = s.view.act ext (.touchLeft t s.request) := by
    cases t <;> rfl
  exact Daemon.follows_worker hv ha rfl

/-- A cancel ends the wait. -/
theorem cancelBranch_follows {s s' : Daemon} {a : Waited α} (hp : Touching t pkt job s.aux.worker)
    (h : cancelBranch t s = some (a, s')) :
    (machine ext files).Follows observed (some 0) s s' ∧ a = .cancelled ∧
      Ready (some job) s'.aux.worker := by
  obtain ⟨tag, n, hn, rfl, rfl⟩ : ∃ tag n, (s.coord.cancels.get t).notified = some (tag, n) ∧
      .cancelled = a ∧ _ = s' := by
    simpa [cancelBranch] using h
  have ha : s.view.allowed ext (.touchCancelled t s.request tag) := by
    rw [Daemon.request_touching hp]
    obtain ⟨c, hph, -⟩ := hp
    exact ⟨⟨c, hph⟩, n, hn⟩
  have hv : (Daemon.closeTouch t
      { s with coord := { s.coord with cancels := s.coord.cancels.set t n } }).view =
      s.view.act ext (.touchCancelled t s.request tag) := by
    cases t <;> simp [View.act, View.receiver, hn, Daemon.closeTouch, Daemon.view]
  obtain ⟨hf, hx⟩ := Daemon.follows_worker hv ha rfl
  refine ⟨hf, rfl, ?_⟩
  rw [hx]
  exact hp.leave

/-- A frame taken from the wait. -/
theorem touchFrameBranch_follows {s s' : Daemon} {a : Waited α}
    (hp : Touching t pkt job s.aux.worker) (h : touchFrameBranch t s = some (a, s')) :
    (machine ext files).Follows observed (some 0) s s' ∧
      ∃ f, a = .frame f ∧ Routes f (Touching t pkt job) s'.aux.worker := by
  have ⟨c, hph, _⟩ := hp
  refine takeFrame_follows Touching.steady hp (by simp [hph]) ?_ h
  have hu : s.view.unparked = s.view.cancels.set t (s.view.cancels.get t).unpark := by
    unfold View.unparked
    rw [show s.view.worker.phase = .touch t job.reply c from hph]
  rw [hu]
  rfl

/-- What a round of the wait leaves: a frame to route, or the wait over and what
resolving it tells. -/
def TouchRound (t : Touch) (pkt : Bytes) (job : Job) (R : α → WorkerAux → Prop) :
    Waited α → WorkerAux → Prop
  | .frame f, w => Routes f (Touching t pkt job) w
  | a, w => Ready (some job) w ∧ ∀ b, a = .resolved b → R b w

/-- The wait goes round over frames until it is resolved, cancelled or over;
`R` is what resolving it tells. -/
theorem touchLoop_spec {resolved : Daemon → Option (Waited α × Daemon)} {deadline : Nat}
    {R : α → WorkerAux → Prop}
    (hres : ∀ s a s', s.view.Waits → s.view.Answers → Touching t pkt job s.aux.worker →
      resolved s = some (a, s') → s' = leaveTouch t s ∧ ∃ b, a = .resolved b ∧
        R b { s.aux.worker with phase := s.aux.worker.phase.leave }) :
    WorkerTriple ext files (Touching t pkt job) (touchLoop ext t resolved deadline) fun a w =>
      Ready (some job) w ∧ ∀ b, a = .resolved b → R b w := by
  refine .loop (.bind parkTouch_keeps fun _ => .bind (C := TouchRound t pkt job R)
    (worker_select fun br hbr s a s' hw hans hp h => ?_) fun a => ?_)
  · simp only [List.mem_cons, List.not_mem_nil, or_false] at hbr
    rcases hbr with rfl | rfl | rfl | rfl
    · obtain ⟨rfl, b, rfl, hb⟩ := hres s a s' hw hans hp h
      obtain ⟨hf, hx⟩ := leaveTouch_follows hp
      refine ⟨hf, ?_⟩
      rw [hx]
      refine ⟨hp.leave, ?_⟩
      rintro b' hb'
      cases hb'
      exact hb
    · obtain ⟨hf, f, rfl, hr⟩ := touchFrameBranch_follows hp h
      exact ⟨hf, hr⟩
    · obtain ⟨hf, rfl, hr⟩ := cancelBranch_follows hp h
      exact ⟨hf, hr, by simp⟩
    · obtain ⟨rfl, rfl⟩ := deadlineBranch_some h
      obtain ⟨hf, hx⟩ := leaveTouch_follows hp
      refine ⟨hf, ?_⟩
      rw [hx]
      exact ⟨hp.leave, by simp⟩
  · cases a with
    | frame f => exact route_again Touching.steady
    | resolved b => exact .ret fun w h => h
    | cancelled => exact .ret fun w h => h
    | timeout => exact .ret fun w h => h

theorem writeGateCancel_keeps : Keeps ext files (Ready j) writeGateCancel :=
  .bind (poke_keeps fun _ _ h => ⟨h.resting, h.job⟩) fun _ => .ret fun _ => id

theorem gateOutcome_keeps {a : Waited GateResult} : Keeps ext files (Ready j) (gateOutcome a) := by
  cases a with
  | resolved r => exact .ret fun _ => id
  | cancelled => exact .bind writeGateCancel_keeps fun _ => .ret fun _ => id
  | _ => exact .ret fun _ => id

theorem gateBranch_some {s s' : Daemon} {a : Waited GateResult} (h : gateBranch s = some (a, s')) :
    s' = leaveTouch .gate s ∧ ∃ r, a = .resolved r := by
  obtain ⟨got, -, rfl, rfl⟩ : ∃ got, s.ble.gate.recv = some got ∧
      .resolved (got.getD (false, some rspError)) = a ∧ leaveTouch .gate s = s' := by
    simpa [gateBranch] using h
  exact ⟨rfl, _, rfl⟩

theorem sendFpGatedInner_spec {cmd : UInt8} {payload : Bytes}
    (hjob : job.cmd.waitsFor = some .gate) :
    WorkerTriple ext files (fun w => Ready (some job) w ∧ w.Writable)
      (sendFpGatedInner ext cmd payload) fun _ => Ready (some job) := by
  refine .bind sendCommandInner_spec fun r => ?_
  cases r with
  | error e => exact .ret fun w h => h.1
  | ok rsp =>
    cases rsp with
    | nil => exact .ret fun w h => h.1
    | cons status rest =>
      refine .ite (.ret fun w h => h.1) (.ite (.ret fun w h => h.1) ?_)
      refine .bind ((armGate_spec hjob).pre fun w h => h.2 _ rfl) fun _ => ?_
      refine .bind (clock_only).silent fun now => ?_
      refine .bind (Only.silent (store_only fun _ => rfl)) fun _ => ?_
      refine .bind (touchLoop_spec (R := fun _ _ => True) fun s a s' _ _ _ h => ?_) fun waited => ?_
      · obtain ⟨hs, r, ha⟩ := gateBranch_some h
        exact ⟨hs, r, ha, trivial⟩
      refine .bind ((gateOutcome_keeps).pre fun w h => h.1) fun result => ?_
      exact .bind (Only.silent (store_only fun _ => rfl)) fun _ => .ret fun _ => id

/-- The wait of an `AUTH_REQUEST` resolved with true: it was answered. -/
theorem authBranch_touched {s s' : Daemon} {a : Waited Bool} (hw : s.view.Waits)
    (hans : s.view.Answers) (hp : Touching .auth (packet cmdAuthRequest []) job s.aux.worker)
    (h : authBranch s = some (a, s')) :
    s' = leaveTouch .auth s ∧ ∃ b, a = .resolved b ∧
      (b = true → { s.aux.worker with phase := s.aux.worker.phase.leave }.Touched) := by
  obtain ⟨got, hrecv, rfl, rfl⟩ : ∃ got, s.ble.auth.recv = some got ∧
      .resolved (got.getD false) = a ∧ leaveTouch .auth s = s' := by
    simpa [authBranch] using h
  refine ⟨rfl, _, rfl, fun hb => ?_⟩
  obtain rfl : got = some true := by
    cases got with
    | none => cases hb
    | some b => exact congrArg some hb
  obtain ⟨c, hph, hj, hl⟩ := hp
  replace hph : s.view.worker.phase = .touch .auth job.reply c := hph
  have hsome : s.view.auth.isSome := by
    rw [hw.auth, hph]
    rfl
  obtain ⟨c', f, hf, hc, hd⟩ := hans.auth (Oneshot.shown_of_recv hrecv hsome)
  obtain rfl : c = c' := by
    rw [hph] at hc
    exact Option.some.inj hc
  exact ⟨f, ⟨c, hf, hl.trans (by rw [← hj])⟩, hd⟩

theorem authOutcome_spec {a : Waited Bool} :
    WorkerTriple ext files
      (fun w => Ready (some job) w ∧ ∀ b, a = .resolved b → b = true → w.Touched)
      (authOutcome a) fun r w => Ready (some job) w ∧ (r = .ok true → w.Touched) := by
  cases a with
  | resolved b => exact .ret fun w h => ⟨h.1, fun hr => h.2 b rfl (Except.ok.inj hr)⟩
  | cancelled =>
    refine .bind ((writeGateCancel_keeps).pre fun w h => h.1) fun _ => .ret fun w h => ⟨h, by simp⟩
  | _ => exact .ret fun w h => ⟨h.1, by simp⟩

theorem doAuthRequest_spec (hjob : job.cmd.waitsFor = some .auth) :
    WorkerTriple ext files (fun w => Ready (some job) w ∧ w.Writable) (doAuthRequest ext)
      fun r w => Ready (some job) w ∧ (r = .ok true → w.Touched) := by
  refine .bind sendCommandInner_spec fun r => ?_
  cases r with
  | error e => exact .ret fun w h => ⟨h.1, by simp⟩
  | ok rsp =>
    cases rsp with
    | nil => exact .ret fun w h => ⟨h.1, by simp⟩
    | cons status rest =>
      dsimp only
      split
      next hs =>
        refine .ret fun w h => ⟨h.1, fun _ => ?_⟩
        obtain ⟨c, f, -, hj, hl, hf, hd⟩ := h.2 _ rfl
        exact ⟨f, ⟨c, hf, hl.trans (by rw [← hj])⟩, by rw [hd, hs]; rfl⟩
      next =>
        refine .ite (.ret fun w h => ⟨h.1, by simp⟩) ?_
        refine .bind ((armAuth_spec hjob).pre fun w h => h.2 _ rfl) fun _ => ?_
        refine .bind (clock_only).silent fun now => ?_
        refine .bind (touchLoop_spec fun s a s' hw hans hp h => authBranch_touched hw hans hp h)
          fun waited => authOutcome_spec

end

end Immurok
