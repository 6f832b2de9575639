import Immurok.Daemon.Worker

/-!
# A session keeps to the view

Pairing, the key cache, the queued commands and the worker's main loop: each
command takes the worker from `Ready` to `Ready`, and the loop from idle to
idle.
-/

namespace Immurok

open Async Machine

variable {ext : Extern} {files : Files} {i : TaskId} {K : Ev → Prop} {f : Frame}
  {P : WorkerAux → Prop} {α β ε : Type} {j : Option Job} {pkt data : Bytes}

/-- No gated job is in hand, so there is no frame to be written only once. -/
def Free (j : Option Job) : Prop := ∀ k, j = some k → k.cmd.gated = false

theorem Free.none : Free none := by
  intro k hk
  cases hk

theorem Free.some {k : Job} (h : k.cmd.gated = false) : Free (some k) := by
  rintro _ ⟨⟩
  exact h

theorem Ready.writable {w : WorkerAux} (hj : Free j) (h : Ready j w) : w.Writable := by
  intro k hk hg
  rw [hj k (h.2 ▸ hk)] at hg
  cases hg

/-- The answer of a command is in hand. -/
structure Holding (j : Option Job) (w : WorkerAux) : Prop where
  phase : ∃ c, w.phase = .held c
  job : w.job = j

theorem Holding.ready {w : WorkerAux} (h : Holding j w) : Ready j w := by
  obtain ⟨⟨c, hp⟩, hj⟩ := h
  exact ⟨by rw [hp]; rfl, hj⟩

theorem sendCommandInner_holding {cmd : UInt8} {payload : Bytes} {timeout : Nat} (hj : Free j) :
    WorkerTriple ext files (Ready j) (sendCommandInner ext cmd payload timeout) fun r w =>
      Ready j w ∧ ∀ data, r = .ok data → Holding j w := by
  refine ((sendCommandInner_spec).pre fun w h => ⟨h, h.writable hj⟩).post fun r w h => ?_
  refine ⟨h.1, fun data hr => ?_⟩
  obtain ⟨c, f, hp, hjob, -⟩ := h.2 data hr
  exact ⟨⟨c, hp⟩, hjob⟩

theorem sendCommandInner_keeps {cmd : UInt8} {payload : Bytes} {timeout : Nat} (hj : Free j) :
    Keeps ext files (Ready j) (sendCommandInner ext cmd payload timeout) :=
  (sendCommandInner_holding hj).post fun _ _ h => h.1

theorem keeps_closed : Proc.Closed fun t => Keeps ext files P t where
  ret := .ret fun _ => id
  bind := .bind
  repeatFrom := Part.keeps_iter

theorem tryThen_keeps {t : Code (Except Str α)} {k : α → Code (Except Str β)}
    (ht : Keeps ext files P t) (hk : ∀ a, Keeps ext files P (k a)) :
    Keeps ext files P (tryThen t k) := tryThen_all keeps_closed ht hk

theorem sleepUntil_only {t : Nat} : Only ext files i K (sleepUntil t) := by
  refine await_only fun s a s' h => ?_
  split at h
  · cases h
    rfl
  · cases h

theorem sleep_only {d : Nat} : Only ext files i K (sleep d) :=
  .bind clock_only fun _ => sleepUntil_only

-- ---------------------------------------------------------------------------
-- Pairing
-- ---------------------------------------------------------------------------

/-- The answer that a pairing still waits for. -/
structure Pairing (j : Option Job) (w : WorkerAux) : Prop where
  phase : ∃ c, w.phase = .pairing c
  job : w.job = j

theorem Pairing.steady : Steady (Pairing j) := by
  rintro w w' hp hj - - ⟨⟨c, h⟩, h'⟩
  exact ⟨⟨c, hp.trans h⟩, hj.trans h'⟩

theorem armPairing_spec : WorkerTriple ext files (Holding j) armPairing fun _ => Pairing j := by
  refine worker_note (fun _ => rfl) (fun _ => rfl) fun s _ hp => ?_
  obtain ⟨⟨c, hph⟩, hj⟩ := hp
  have hc : s.awaited = c := by simp [Daemon.awaited, hph, Phase.awaiting]
  rw [hc]
  exact ⟨hph, ⟨c, rfl⟩, hj⟩

theorem leavePairing_spec :
    WorkerTriple ext files (Pairing j) leaveResponse fun _ => Holding j := by
  refine leaveResponse_spec fun w ⟨⟨c, hp⟩, hj⟩ => ⟨by rw [hp]; rfl, ⟨c, ?_⟩, hj⟩
  rw [hp]
  rfl

/-- A `select` of the pairing: a frame to route, or something else that
changes nothing. -/
theorem pairingSelect {k : Frame → α} {branches : List (Daemon → Option (α × Daemon))}
    {Q : α → WorkerAux → Prop} (hk : ∀ f w, Routes f (Pairing j) w → Q (k f) w)
    (hbr : ∀ br ∈ branches, br = notifyBranch k ∨
      ∀ s a s', br s = some (a, s') → s' = s ∧ ∀ w, Pairing j w → Q a w) :
    WorkerTriple ext files (Pairing j) (Proc.select branches) Q := by
  refine worker_select fun br hm s a s' _ _ hp h => ?_
  obtain rfl | ho := hbr br hm
  · have ⟨⟨c, hph⟩, _⟩ := hp
    obtain ⟨hf, f, rfl, hr⟩ := notifyBranch_follows Pairing.steady hp (by simp [hph])
      (by simp [hph]) h
    exact ⟨hf, hk f _ hr⟩
  · obtain ⟨rfl, hq⟩ := ho s a s' h
    exact ⟨.inl .refl, hq _ hp⟩

theorem recvBranch_some {o : Option (Option β)} {k : Option β → α} {s s' : Daemon} {a : α}
    (h : (o.map fun got => (k got, s)) = some (a, s')) : s' = s ∧ ∃ got, a = k got := by
  obtain ⟨got, -, rfl, rfl⟩ : ∃ got, o = some got ∧ k got = a ∧ s = s' := by simpa using h
  exact ⟨rfl, got, rfl⟩

theorem pairButtonRound_keeps {deadline : Nat} {extended : Bool} :
    Keeps ext files (Pairing j) (pairButtonRound ext deadline extended) := by
  let Q : ButtonWait → WorkerAux → Prop
    | .frame f => Routes f (Pairing j)
    | _ => Pairing j
  refine .bind (C := Q) (pairingSelect (k := .frame) (fun f w h => h) ?_) fun a => ?_
  · intro br hm
    simp only [List.mem_cons, List.not_mem_nil, or_false] at hm
    rcases hm with rfl | rfl | rfl | rfl
    · refine .inr fun s a s' h => ?_
      obtain ⟨hs, got, rfl⟩ := recvBranch_some h
      exact ⟨hs, fun w h => h⟩
    · refine .inr fun s a s' h => ?_
      obtain ⟨hs, got, rfl⟩ := recvBranch_some h
      exact ⟨hs, fun w h => h⟩
    · exact .inl rfl
    · refine .inr fun s a s' h => ?_
      obtain ⟨rfl, hs⟩ := deadlineBranch_some h
      exact ⟨hs, fun w h => h⟩
  · cases a with
    | response got => cases got <;> exact .ret fun _ h => h
    | button status => exact .ret fun _ h => h
    | frame f =>
      refine .bind (routeNotification_keeps Pairing.steady) fun _ => ?_
      refine .bind ((readBle_only).silent.pre fun w h => h.1) fun fpOk => ?_
      refine .ite ?_ (.ret fun _ h => h)
      exact .bind (clock_only).silent fun _ => .ret fun _ h => h
    | timeout => exact .ret fun _ h => h

theorem waitPairButton_keeps : Keeps ext files (Holding j) (waitPairButton ext) := by
  refine .bind (Only.silent (updateBle_only fun _ => rfl)) fun _ => .bind armPairing_spec fun _ => ?_
  refine .bind (clock_only).silent fun now => ?_
  refine .bind (Part.keeps_iter fun p => pairButtonRound_keeps) fun result => ?_
  refine .bind (Only.silent (updateBle_only fun _ => rfl)) fun _ => ?_
  exact .bind leavePairing_spec fun _ => .ret fun _ => id

/-- What a round of the wait for the pairing's touch leaves. -/
def PairRound (j : Option Job) : Waited (Option Bytes) → WorkerAux → Prop
  | .frame f => Routes f (Pairing j)
  | _ => Pairing j

theorem pairFpGateAnswer_keeps {deadline : Nat} :
    Keeps ext files (Holding j) (pairFpGateAnswer ext deadline) := by
  refine .bind armPairing_spec fun _ => .bind (Part.Triple.loop (.bind (C := PairRound j)
    (pairingSelect (k := Waited.frame) (fun f w h => h) ?_) fun a => ?_)) fun answer =>
      .bind leavePairing_spec fun _ => .ret fun _ => id
  · intro br hm
    simp only [List.mem_cons, List.not_mem_nil, or_false] at hm
    rcases hm with rfl | rfl | rfl
    · refine .inr fun s a s' h => ?_
      obtain ⟨hs, got, rfl⟩ := recvBranch_some h
      exact ⟨hs, fun w h => h⟩
    · exact .inl rfl
    · refine .inr fun s a s' h => ?_
      obtain ⟨rfl, hs⟩ := deadlineBranch_some h
      exact ⟨hs, fun w h => h⟩
  · cases a with
    | resolved got => cases got <;> exact .ret fun _ h => h
    | frame f => exact route_again Pairing.steady
    | cancelled => exact .ret fun _ h => h
    | timeout => exact .ret fun _ h => h

theorem waitPairFpGate_keeps : Keeps ext files (Holding j) (waitPairFpGate ext) := by
  refine .bind (Only.silent (updateBle_only fun _ => rfl)) fun _ => .bind (clock_only).silent fun now => ?_
  refine .bind (Part.keeps_loop ?_) fun result =>
    .bind (Only.silent (updateBle_only fun _ => rfl)) fun _ => .ret fun _ => id
  refine .bind pairFpGateAnswer_keeps fun answer => ?_
  cases answer with
  | error e => exact .ret fun _ => id
  | ok rsp =>
    refine .ite (.bind (atomically_only fun _ => rfl).silent fun failures => ?_) ?_
    · exact .ite (.ret fun _ => id) (.ret fun _ => id)
    · exact .ite (.ret fun _ => id) (.ret fun _ => id)

theorem pairInit_keeps {secondHost : Bool} (hj : Free j) :
    Keeps ext files (Ready j) (pairInit ext secondHost) := by
  refine .bind (sendCommandInner_holding hj) fun r => ?_
  cases r with
  | error e => exact .ret fun w h => h.1
  | ok rsp =>
    refine Part.Triple.pre (P := Holding j) ?_ fun w h => h.2 rsp rfl
    refine .ite (.ret fun w h => h.ready) (.ite (.ret fun w h => h.ready) (.ite ?_ (.ite ?_ ?_)))
    · refine .bind (Only.silent setPairProgress_only) fun _ => ?_
      refine .bind waitPairButton_keeps fun r => ?_
      cases r <;> exact .ret fun w h => h.ready
    · refine .bind waitPairFpGate_keeps fun r => ?_
      cases r <;> exact .ret fun w h => h.ready
    · exact .ret fun w h => h.ready

theorem setPairing_keeps {p : Option PairingData} : Keeps ext files P (setPairing 0 p) :=
  worker_note (fun _ => rfl) (fun _ => rfl) fun _ _ hp => ⟨trivial, hp⟩

theorem setVerified_keeps {b : Bool} : Keeps ext files P (setVerified 0 b) :=
  worker_note (fun _ => rfl) (fun _ => rfl) fun _ _ hp => ⟨trivial, hp⟩

theorem setConnected_keeps : Keeps ext files P setConnected :=
  worker_note (fun _ => rfl) (fun _ => rfl) fun _ _ hp => ⟨trivial, hp⟩

theorem establishPairing_keeps {devicePubkey sharedKey : Bytes} :
    Keeps ext files P (establishPairing devicePubkey sharedKey) := by
  refine .bind (clock_only).silent fun now => .bind setPairing_keeps fun _ => ?_
  refine .bind (choose_only).silent fun saved => ?_
  refine .bind (Part.keeps_when (Only.silent (modify_only fun _ => rfl))) fun _ => ?_
  exact .bind (Only.silent (store_only fun _ => rfl)) fun _ => setVerified_keeps

theorem confirmPairing_keeps {rsp : Bytes} (hj : Free j) :
    Keeps ext files (Ready j) (confirmPairing ext rsp) := by
  refine .ite (.ret fun _ => id) ?_
  refine .bind (atomically_only fun _ => rfl).silent fun keys => ?_
  refine tryThen_keeps (sendCommandInner_keeps hj) fun crsp => .ite (.ret fun _ => id) ?_
  split
  · exact .ret fun _ => id
  · split
    · exact .ret fun _ => id
    · exact .bind establishPairing_keeps fun _ => .ret fun _ => id

theorem doPair_keeps (hj : Free j) : Keeps ext files (Ready j) (doPair ext) := by
  refine .bind (sendCommandInner_keeps hj) fun slots => Part.keeps_iter fun retries => ?_
  refine .bind (pairInit_keeps hj) fun r => ?_
  cases r with
  | failed e => exact .ret fun _ => id
  | retry =>
    refine .ite (.bind (sleep_only).silent fun _ => .ret fun _ => id) (.ret fun _ => id)
  | answered rsp => exact .bind (confirmPairing_keeps hj) fun _ => .ret fun _ => id

-- ---------------------------------------------------------------------------
-- The key cache
-- ---------------------------------------------------------------------------

theorem saveFile_only {tmp : Str} {g : Files → Files} (hg : ∀ c, (g c).owner = c.owner) :
    Only ext files i K (keyIo.saveFile tmp g) :=
  only_quiet fun s a s' hm => by
    simp only [List.mem_cons, Prod.mk.injEq, List.not_mem_nil, or_false] at hm
    obtain ⟨-, rfl⟩ | ⟨-, rfl⟩ := hm
    · simp [Daemon.view, hg]
    · rfl

theorem keyIo_keeps (hj : Free j) : (keyIo ext).All fun t => Keeps ext files (Ready j) t where
  send _ _ := sendCommandInner_keeps hj
  loadDigests := (get_only).silent
  saveDigests digests := Only.silent (saveFile_only (g := fun c => { c with digests }) fun _ => rfl)
  saveSshKeys keys := Only.silent (saveFile_only (g := fun c => { c with sshKeys := keys }) fun _ => rfl)
  loadKeyNames := (get_only).silent
  saveKeyNames names := Only.silent (saveFile_only (g := fun c => { c with keyNames := names }) fun _ => rfl)

-- ---------------------------------------------------------------------------
-- Queued commands
-- ---------------------------------------------------------------------------

theorem otaCharWrite_only {data : Bytes} : Only ext files i K (otaCharWrite data) := by
  refine tryThen_only (only_quiet fun s a s' hm => ?_) fun _ => waitWriteOk_only
  simp only [id_eq, List.mem_cons, Prod.mk.injEq, List.not_mem_nil, or_false] at hm
  obtain ⟨-, rfl⟩ | ⟨-, rfl⟩ := hm <;> rfl

theorem otaCharRead_only : Only ext files i K otaCharRead := by
  refine tryThen_only (only_quiet fun s a s' hm => ?_) fun _ => waitReadResponse_only
  simp only [id_eq, List.mem_cons, Prod.mk.injEq, List.not_mem_nil, or_false] at hm
  obtain ⟨-, rfl⟩ | ⟨-, rfl⟩ := hm <;> rfl

theorem otaWriteAndReadInner_only {data : Bytes} {timeoutMs : Nat} :
    Only ext files i K (otaWriteAndReadInner data timeoutMs) := by
  refine tryThen_only otaCharWrite_only fun _ => .bind clock_only fun start => .loop ?_
  refine .bind sleep_only fun _ => .bind clock_only fun now => .ite .ret ?_
  refine .bind otaCharRead_only fun r => ?_
  split <;> exact .ret

/-- The worker answers the job in hand; it says true to an `AUTH_REQUEST` only
where it was answered. -/
theorem replyTo_spec {k : Job} {reply : Reply} :
    WorkerTriple ext files
      (fun w => Ready (some k) w ∧ (reply = .auth (.ok true) → w.Touched))
      (replyTo k.reply reply) fun _ w => w.phase.resting = true :=
  worker_note (fun _ => rfl) (fun _ => rfl) fun _ _ hp =>
    ⟨⟨hp.1.1, ⟨k, hp.1.2, rfl⟩, hp.2⟩, hp.1.1⟩

/-- Where nothing is waited for there is nothing to abort. -/
theorem abortPending_keeps (hP : ∀ w, P w → w.phase.resting = true) :
    Keeps ext files P abortPending := by
  refine worker_act fun s a s' hw _ hp hm => ?_
  obtain ⟨rfl, rfl⟩ := Prod.mk.inj (List.mem_singleton.mp hm)
  obtain ⟨hr, hg, ha⟩ := hw.rest (hP _ hp)
  refine ⟨.inl (Daemon.quiet ?_), hp⟩
  replace hg : s.ble.gate.shown = none := hg
  replace ha : s.ble.auth.shown = none := ha
  simp [Daemon.view, Oneshot.shown_send_eq_none, hg, ha]

theorem handleBleCommand_spec {k : Job} :
    WorkerTriple ext files (fun w => Ready (some k) w ∧ w.written = false)
      (handleBleCommand ext k) fun _ w => w.phase.resting = true := by
  have hw : ∀ w, Ready (some k) w ∧ w.written = false → Ready (some k) w ∧ w.Writable :=
    fun w h => ⟨h.1, fun _ _ _ => h.2⟩
  unfold handleBleCommand
  split
  next cmd payload hk =>
    have hj : Free (some k) := .some (by rw [hk]; rfl)
    refine .bind ((sendCommandInner_keeps hj).pre fun w h => h.1) fun result => ?_
    exact (replyTo_spec).pre fun w h => ⟨h, by simp⟩
  next cmd payload hk =>
    refine .bind ((sendFpGatedInner_spec (by rw [hk]; rfl)).pre hw) fun result => ?_
    exact (replyTo_spec).pre fun w h => ⟨h, by simp⟩
  next hk =>
    have hj : Free (some k) := .some (by rw [hk]; rfl)
    refine .bind ((doPair_keeps hj).pre fun w h => h.1) fun result => ?_
    refine .bind (Only.silent setPairProgress_only) fun _ => ?_
    exact (replyTo_spec).pre fun w h => ⟨h, by simp⟩
  next hk =>
    refine .bind ((doAuthRequest_spec (by rw [hk]; rfl)).pre hw) fun result => ?_
    refine (replyTo_spec).pre fun w h => ⟨h.1, fun hr => h.2 ?_⟩
    exact Reply.auth.inj hr
  next data timeoutMs hk =>
    refine .bind ((otaWriteAndReadInner_only).silent.pre fun w h => h.1) fun result => ?_
    exact (replyTo_spec).pre fun w h => ⟨h, by simp⟩
  next data hk =>
    refine .bind ((otaCharWrite_only).silent.pre fun w h => h.1) fun result => ?_
    exact (replyTo_spec).pre fun w h => ⟨h, by simp⟩
  next hk =>
    have hj : Free (some k) := .some (by rw [hk]; rfl)
    refine .bind ((syncSshKeys_all keeps_closed (keyIo_keeps hj)).pre fun w h => h.1) fun result => ?_
    exact (replyTo_spec).pre fun w h => ⟨h, by simp⟩
  next =>
    exact (abortPending_keeps (P := fun w => w.phase.resting = true) fun _ => id).pre
      fun w h => h.1.1

-- ---------------------------------------------------------------------------
-- A session
-- ---------------------------------------------------------------------------

theorem waitReady_only : Only ext files i K waitReady := by
  refine .bind clock_only fun now => select_only ?_
  intro br hm s a s' h
  simp only [List.mem_cons, List.not_mem_nil, or_false] at hm
  rcases hm with rfl | rfl | rfl
  · dsimp only at h
    split at h
    · cases h
      rfl
    · cases h
  · dsimp only at h
    split at h
    · cases h
      rfl
    · cases h
  · rw [(deadlineBranch_some h).2]

theorem queryStatus_keeps : Keeps ext files (Ready none) (queryStatus ext) := by
  refine .bind (sendCommandInner_keeps Free.none) fun r => ?_
  cases r with
  | error e => exact .ret fun _ => id
  | ok rsp =>
    refine .ite (.ret fun _ => id) ?_
    exact .bind (Only.silent (store_only fun _ => rfl)) fun _ => .ret fun _ => id

theorem markVerified_keeps : Keeps ext files P markVerified :=
  .bind setVerified_keeps fun _ => Only.silent (store_only fun _ => rfl)

theorem drawRandom_only : Only ext files i K (drawRandom ext) := atomically_only fun _ => rfl

theorem challenge_keeps {key : Bytes} {reportedPaired : Option Bool} :
    Keeps ext files (Ready none) (challenge ext key reportedPaired) := by
  have verified : Keeps ext files (Ready none)
      (do markVerified; pure (.ok ()) : Code (Except Str Unit)) :=
    .bind markVerified_keeps fun _ => .ret fun _ => id
  have noted : Keeps ext files (Ready none)
      (do setVerified 0 true; pure (.ok ()) : Code (Except Str Unit)) :=
    .bind setVerified_keeps fun _ => .ret fun _ => id
  refine .bind (drawRandom_only).silent fun nonce => ?_
  refine .bind (sendCommandInner_keeps Free.none) fun r => ?_
  cases r with
  | error e => exact .ite noted (.ret fun _ => id)
  | ok rsp =>
    refine .ite (.ite verified (.ret fun _ => id)) ?_
    refine .bind (drawRandom_only).silent fun nonce2 => ?_
    refine .bind (sendCommandInner_keeps Free.none) fun rsp2 => ?_
    exact .ite (.ite verified (.ret fun _ => id)) noted

theorem reportUnpaired_only {b : Bool} : Only ext files i K (reportUnpaired b) :=
  .bind (store_only fun _ => rfl) fun _ => .when (.bind pushUi_only fun _ => .ret)

theorem verifyDevice_keeps {reportedPaired : Option Bool} :
    Keeps ext files (Ready none) (verifyDevice ext reportedPaired) := by
  refine .bind (load_only).silent fun pairing => ?_
  cases pairing with
  | some p => exact challenge_keeps
  | none => exact .bind setVerified_keeps fun _ => .ret fun _ => id

theorem syncWhenVerified_keeps : Keeps ext files (Ready none) (syncWhenVerified ext) := by
  refine .bind (load_only).silent fun verified => Part.keeps_when ?_
  exact .bind (syncSshKeys_all keeps_closed (keyIo_keeps Free.none)) fun _ => .ret fun _ => id

theorem openSession_keeps : Keeps ext files (Ready none) (openSession ext) := by
  refine .bind queryStatus_keeps fun reportedPaired => ?_
  refine .bind (load_only).silent fun hasLocalPairing => ?_
  refine .bind (reportUnpaired_only).silent fun _ => ?_
  refine tryThen_keeps (.ite (.ret fun _ => id) verifyDevice_keeps) fun _ => ?_
  exact .bind syncWhenVerified_keeps fun _ => .ret fun _ => id

/-- Nothing in hand and nothing waited for. -/
structure Resting (w : WorkerAux) : Prop where
  phase : w.phase = .idle
  job : w.job = none

theorem Resting.steady : Steady Resting := by
  rintro w w' hp hj - - ⟨h, h'⟩
  exact ⟨hp.trans h, hj.trans h'⟩

theorem Resting.ready {w : WorkerAux} (h : Resting w) : Ready none w :=
  ⟨by rw [h.1]; rfl, h.2⟩

theorem rest_spec : WorkerTriple ext files (fun w => w.phase.resting = true) rest
    fun _ => Resting :=
  worker_note (fun _ => rfl) (fun _ => rfl) fun _ _ hp => ⟨hp, rfl, rfl⟩

/-- What a round of the main loop has come to. -/
def Served : Serve → WorkerAux → Prop
  | .frame f, w => Routes f Resting w
  | .command k, w => Ready (some k) w ∧ w.written = false
  | .disconnected, w => Resting w

theorem commandBranch_follows {s s' : Daemon} {a : Serve} (hp : Resting s.aux.worker)
    (h : commandBranch s = some (a, s')) :
    (machine ext files).Follows observed (some 0) s s' ∧ Served a s'.aux.worker := by
  unfold commandBranch at h
  split at h
  next => cases h
  next k rest hq =>
    obtain ⟨rfl, rfl⟩ := Prod.mk.inj (Option.some.inj h)
    have ha : s.view.allowed ext (.dequeued k) := ⟨by simp [Daemon.view, hq], hp.phase, hp.job⟩
    have hv : { s with queue := rest }.view = s.view.act ext (.dequeued k) := by
      simp [Daemon.view, View.act, hq]
    obtain ⟨hf, hx⟩ := Daemon.follows_worker hv ha rfl
    refine ⟨hf, ?_⟩
    rw [hx]
    exact ⟨⟨by rw [show (s.aux.worker.step s.aux.client (.dequeued k)).phase = _ from hp.1]; rfl,
      rfl⟩, rfl⟩

theorem serveLoop_spec : Keeps ext files Resting (serveLoop ext) := by
  refine .loop (.bind (C := Served) (worker_select fun br hm s a s' _ _ hp h => ?_) fun a => ?_)
  · simp only [List.mem_cons, List.not_mem_nil, or_false] at hm
    rcases hm with rfl | rfl | rfl
    · obtain ⟨hf, f, rfl, hr⟩ := notifyBranch_follows Resting.steady hp (by simp [hp.1])
        (by simp [hp.1]) h
      exact ⟨hf, hr⟩
    · exact commandBranch_follows hp h
    · unfold disconnectBranch at h
      split at h
      · obtain ⟨rfl, rfl⟩ := Prod.mk.inj (Option.some.inj h)
        exact ⟨.inl .refl, hp⟩
      · cases h
  · cases a with
    | frame f => exact route_again Resting.steady
    | command k =>
      exact .bind handleBleCommand_spec fun _ => .bind rest_spec fun _ => .ret fun _ => id
    | disconnected =>
      exact .bind (abortPending_keeps fun w h => h.ready.1) fun _ => .ret fun _ => id

/-- Where nothing is waited for a new state of the worker looks like the old
one. -/
theorem resetBle_keeps : Keeps ext files (Ready none) (updateBle fun _ => .new) := by
  refine worker_act fun s a s' hw _ hp hm => ?_
  obtain ⟨rfl, rfl⟩ := Prod.mk.inj (List.mem_singleton.mp hm)
  obtain ⟨hr, hg, ha⟩ := hw.rest hp.1
  refine ⟨.inl (Daemon.quiet ?_), hp⟩
  replace hr : s.ble.response.shown = none := hr
  replace hg : s.ble.gate.shown = none := hg
  replace ha : s.ble.auth.shown = none := ha
  simp [Daemon.view, BleState.new, hr, hg, ha]

theorem connectAndServe_spec :
    WorkerTriple ext files (Ready none) (connectAndServe ext) fun _ => Ready none := by
  refine .bind (choose_only).silent fun started => .ite (.ret fun _ => id) ?_
  refine .bind (C := fun _ => Ready none) ?_ fun _ => ?_
  · exact worker_note (fun _ => rfl) (fun _ => rfl) fun _ _ hp =>
      ⟨⟨hp.resting, hp.job⟩, rfl, hp.job⟩
  refine .bind (waitReady_only).silent fun r => ?_
  cases r with
  | error e => exact .ret fun _ => id
  | ok u =>
    refine .bind setConnected_keeps fun _ => .bind setVerified_keeps fun _ => ?_
    refine .bind (Only.silent (store_only fun _ => rfl)) fun _ => ?_
    refine .bind resetBle_keeps fun _ => .bind openSession_keeps fun r => ?_
    cases r with
    | error e => exact .ret fun _ => id
    | ok u =>
      refine .bind ((rest_spec).pre fun w h => h.1) fun _ => ?_
      exact (serveLoop_spec).post fun _ w h => h.ready

theorem closeSession_spec :
    WorkerTriple ext files (Ready none) closeSession fun _ => Ready none := by
  refine .bind (C := fun _ => Ready none) ?_ fun _ => ?_
  · exact worker_note (fun _ => rfl) (fun _ => rfl) fun _ _ hp =>
      ⟨⟨hp.resting, hp.job⟩, rfl, hp.job⟩
  refine .bind setVerified_keeps fun _ => ?_
  exact .bind (Only.silent (store_only fun _ => rfl)) fun _ => Only.silent (store_only fun _ => rfl)

theorem run_spec : WorkerTriple ext files (Ready none) (run ext) fun _ _ => True := by
  refine (Part.keeps_iter fun backoff => ?_).post fun _ _ _ => trivial
  refine .bind (clock_only).silent fun started => ?_
  refine .bind connectAndServe_spec fun _ => .bind closeSession_spec fun _ => ?_
  refine .bind (clock_only).silent fun ended => .bind (sleep_only).silent fun _ => ?_
  exact .bind (choose_only).silent fun _ => .ret fun _ => id

end Immurok
