import Immurok.Daemon.Rules

/-!
# Routing keeps to the view

Routing a frame may resolve the wait in progress, approve a pending request
or arm a window. It leaves alone what the worker is about: its phase, the job
in hand and what it last wrote.
-/

namespace Immurok

open Async Machine

variable {ext : Extern} {files : Files} {i : TaskId} {K : Ev → Prop} {f : Frame}
  {A : WorkerAux → Prop} {α β : Type}

/-- Only about what routing leaves alone. -/
def Steady (A : WorkerAux → Prop) : Prop :=
  ∀ w w' : WorkerAux, w'.phase = w.phase → w'.job = w.job → w'.written = w.written →
    w'.lastWrote = w.lastWrote → A w → A w'

-- ---------------------------------------------------------------------------
-- The helper
-- ---------------------------------------------------------------------------

theorem replyLineBranch_view {k : Option Str → β} {s s' : Daemon} {b : β}
    (h : replyLineBranch k s = some (b, s')) : s'.view = s.view := by
  unfold replyLineBranch at h
  split at h
  · cases h
    rfl
  · split at h
    · cases h
      rfl
    · cases h

theorem deadlineBranch_some {t : Nat} {s s' : Daemon} {b b' : β}
    (h : deadlineBranch t b s = some (b', s')) : b' = b ∧ s' = s := by
  unfold deadlineBranch at h
  split at h
  · cases h
    exact ⟨rfl, rfl⟩
  · cases h

theorem awaitHelper_only : Only ext files i K awaitHelper := by
  refine .bind clock_only fun now => select_only ?_
  intro f hf s a s' h
  simp only [List.mem_cons, List.not_mem_nil, or_false] at hf
  rcases hf with rfl | rfl
  · exact replyLineBranch_view h
  · rw [(deadlineBranch_some h).2]

theorem waitWriteOk_only : Only ext files i K waitWriteOk := by
  refine .bind awaitHelper_only fun r => ?_
  cases r with
  | line l =>
    refine .ite .ret ?_
    split <;> exact .ret
  | _ => exact .ret

theorem waitReadResponse_only : Only ext files i K waitReadResponse := by
  refine .bind awaitHelper_only fun r => ?_
  cases r with
  | line l =>
    dsimp only
    split
    · exact .ret
    · split <;> exact .ret
  | _ => exact .ret

theorem tryThen_only {t : Code (Except Str α)} {k : α → Code (Except Str β)}
    (ht : Only ext files i K t) (hk : ∀ a, Only ext files i K (k a)) :
    Only ext files i K (tryThen t k) := by
  refine .bind ht fun r => ?_
  cases r with
  | ok a => exact hk a
  | error e => exact .ret

theorem writeLine_spec {written : Daemon → Daemon} {P Q : WorkerAux → Prop}
    (h : ∀ s : Daemon, P s.aux.worker →
      (machine ext files).Follows observed (some 0) s (written s) ∧ Q (written s).aux.worker) :
    WorkerTriple ext files P (writeLine written) fun r => if r.isOk then Q else P := by
  refine worker_act fun s a s' _ _ hp hm => ?_
  simp only [List.mem_cons, Prod.mk.injEq, List.not_mem_nil, or_false] at hm
  obtain ⟨rfl, rfl⟩ | ⟨rfl, rfl⟩ := hm
  · exact h s hp
  · exact ⟨.inl .refl, hp⟩

/-- A frame is written, or not and that is an error. -/
theorem cmdWrite_spec {P Q : WorkerAux → Prop} {ev : Aux → Ev} (he : ∀ a, (ev a).actor = some 0)
    (hv : ∀ v : View, v.act ext (ev v.aux) = v)
    (h : ∀ v : View, P v.worker →
      v.allowed ext (ev v.aux) ∧ Q (v.worker.step v.client (ev v.aux))) :
    WorkerTriple ext files P (cmdWrite ev) fun r w => Q w ∨ P w ∧ r.isOk = false := by
  refine .bind (writeLine_spec (P := P) (Q := Q) fun s hp => ?_) fun r => ?_
  · obtain ⟨ha, hq⟩ := h s.view hp
    obtain ⟨hf, hx⟩ := Daemon.follows_worker (hv s.view).symm ha (he _)
    exact ⟨hf, hx ▸ hq⟩
  · cases r with
    | ok u => exact (waitWriteOk_only).silent.post fun _ _ => Or.inl
    | error e => exact .ret fun w hp => .inr ⟨hp, rfl⟩

/-- `FP_MATCH_ACK` and `GATE_CANCEL` only move the numbering on. -/
theorem poke_keeps {P : WorkerAux → Prop} {data : Bytes}
    (hP : ∀ w c, P w → P { w with nextCmd := c }) :
    Keeps ext files P (cmdWrite (pokeWritten data)) := by
  have h : WorkerTriple ext files P (cmdWrite (pokeWritten data)) fun r w =>
      P w ∨ P w ∧ r.isOk = false :=
    cmdWrite_spec (fun _ => rfl) (fun _ => rfl) fun v hp => ⟨rfl, hP _ _ hp⟩
  exact h.post fun _ _ hp => hp.elim id And.left

theorem sendAck_keeps {P : WorkerAux → Prop} (hP : ∀ w c, P w → P { w with nextCmd := c }) :
    Keeps ext files P sendAck :=
  .bind (poke_keeps hP) fun _ => .ret fun _ => id

-- ---------------------------------------------------------------------------
-- Answers
-- ---------------------------------------------------------------------------

/-- While `f` is being routed. -/
structure Routes (f : Frame) (A : WorkerAux → Prop) (w : WorkerAux) : Prop where
  held : A w
  routing : w.routing = some f

theorem Phase.awaiting_of_response {p : Phase} (h : p.expectsResponse = true) :
    p.awaiting = some (p.awaiting.getD 0) := by
  cases p <;> simp_all [expectsResponse, awaiting]

theorem Phase.awaiting_of_touch {p : Phase} {w : Touch} (h : p.expectsTouch w = true) :
    p.awaiting = some (p.awaiting.getD 0) := by
  obtain ⟨r, c, rfl⟩ := Phase.eq_touch h
  rfl

/-- A receiver that is there belongs to a command that is waited for. -/
theorem View.Waits.awaiting {v : View} {d : Delivery} (h : v.Waits) (hd : v.accepts d) :
    v.worker.phase.awaiting = some (v.worker.phase.awaiting.getD 0) := by
  cases d with
  | response => exact Phase.awaiting_of_response (h.response.symm.trans hd)
  | gate r => exact Phase.awaiting_of_touch (h.gate.symm.trans hd)
  | auth b => exact Phase.awaiting_of_touch (h.auth.symm.trans hd)

theorem deliver_keeps {d : Delivery} {isOpen : Daemon → Bool} {send : Daemon → Daemon}
    (hA : Steady A) (hn : isNotification f.data = false) (hd : d.Honest f)
    (hopen : ∀ s, isOpen s = true → s.view.accepts d ∧ (send s).view = s.view.deliver f d)
    (hclosed : ∀ s, isOpen s = false → (send s).view = s.view) :
    Keeps ext files (Routes f A) (deliver d f isOpen send) := by
  refine worker_act fun s a s' hw _ hp hm => ?_
  obtain rfl : s' = if isOpen s then (send s).note (.delivered d s.awaited f) else send s := by
    simpa using hm
  cases ho : isOpen s with
  | true =>
    obtain ⟨hacc, hv⟩ := hopen s ho
    have ha : s.view.allowed ext (.delivered d s.awaited f) :=
      ⟨hacc, hd, hw.awaiting hacc, hp.2, hn⟩
    obtain ⟨hf, hx⟩ := Daemon.follows_worker hv ha rfl
    rw [if_pos rfl]
    refine ⟨hf, ?_⟩
    rw [hx]
    exact ⟨hA s.aux.worker _ rfl rfl rfl rfl hp.1, hp.2⟩
  | false =>
    have hv := hclosed s ho
    refine ⟨.inl (Daemon.quiet hv), ?_⟩
    have hx : (send s).aux = s.aux := congrArg View.aux hv
    simpa [hx] using hp

theorem resolveGate_keeps {r : GateResult} (hA : Steady A) (hn : isNotification f.data = false) :
    Keeps ext files (Routes f A) (resolveGate f r) := by
  refine deliver_keeps hA hn trivial (fun s h => ⟨Oneshot.isOpen_shown h, ?_⟩) fun s h => ?_
  · simp [Daemon.view, View.deliver, Oneshot.shown_send, h]
  · simp [Daemon.view, Oneshot.shown_send, h]

theorem resolveAuth_keeps {b : Bool} (hA : Steady A) (hn : isNotification f.data = false)
    (hb : b = true → f.data.head? = some rspOk) :
    Keeps ext files (Routes f A) (resolveAuth f b) := by
  refine deliver_keeps hA hn ?_ (fun s h => ⟨Oneshot.isOpen_shown h, ?_⟩) fun s h => ?_
  · cases b
    · trivial
    · exact hb rfl
  · simp [Daemon.view, View.deliver, Oneshot.shown_send, h]
  · simp [Daemon.view, Oneshot.shown_send, h]

theorem resolveResponse_keeps (hA : Steady A) (hn : isNotification f.data = false) :
    Keeps ext files (Routes f A) (resolveResponse f) := by
  refine deliver_keeps hA hn trivial (fun s h => ⟨Oneshot.isOpen_shown h, ?_⟩) fun s h => ?_
  · simp [Daemon.view, View.deliver, Oneshot.shown_send, h]
  · simp [Daemon.view, Oneshot.shown_send, h]

theorem readBle_only {g : BleState → α} : Only ext files i K (readBle g) := get_only

theorem updateBle_only {g : BleState → BleState}
    (hg : ∀ s : Daemon, { s with ble := g s.ble }.view = s.view) :
    Only ext files i K (updateBle g) := modify_only hg

theorem countFailure_keeps {P : WorkerAux → Prop} {last : Code Unit}
    (h : Keeps ext files P last) : Keeps ext files P (countFailure last) :=
  .bind (atomically_only fun _ => rfl).silent fun _ => Part.keeps_when h

theorem routeAnswer_keeps {first : UInt8} {rest : Bytes} (hA : Steady A)
    (hf : f.data = first :: rest) (hn : isNotification f.data = false) :
    Keeps ext files (Routes f A) (routeAnswer f first) := by
  refine .bind (readBle_only).silent fun gatePending => ?_
  refine .bind (readBle_only).silent fun authPending => ?_
  refine .bind (readBle_only).silent fun pairFpGate => ?_
  refine .ite (.ret fun _ => id) ?_
  refine .ite (countFailure_keeps (resolveGate_keeps hA hn)) ?_
  refine .ite (countFailure_keeps (resolveAuth_keeps hA hn (by simp))) ?_
  refine .ite (resolveGate_keeps hA hn) ?_
  split
  next h => exact resolveAuth_keeps hA hn fun _ => by simp [hf, h.1]
  next =>
    refine .ite (resolveGate_keeps hA hn) ?_
    exact .ite (resolveAuth_keeps hA hn (by simp)) (resolveResponse_keeps hA hn)

-- ---------------------------------------------------------------------------
-- Notifications
-- ---------------------------------------------------------------------------

theorem setPairProgress_only {p : PairProgress} : Only ext files i K (setPairProgress p) :=
  store_only fun _ => rfl

theorem routePairButton_only {data : Bytes} : Only ext files i K (routePairButton data) := by
  unfold routePairButton
  split
  next status =>
    refine .bind readBle_only fun pending => ?_
    split
    · exact .when setPairProgress_only
    · exact .when (.bind (updateBle_only fun _ => rfl) fun _ => setPairProgress_only)
    · exact .when (updateBle_only fun _ => rfl)
    · exact .ret
  next => exact .ret

theorem routeEnroll_only {status current total : UInt8} :
    Only ext files i K (routeEnroll status current total) :=
  .bind (.when (store_only fun _ => rfl)) fun _ => store_only fun _ => rfl

theorem ownerUid_only : Only ext files i K ownerUid := get_only

theorem targetSession_only : Only ext files i K (targetSession ext) := by
  refine .bind ownerUid_only fun owner => ?_
  cases owner with
  | none => exact .ret
  | some uid => exact choose_only

theorem lockScreen_only : Only ext files i K (lockScreen ext) := by
  refine .bind targetSession_only fun session => ?_
  cases session with
  | none => exact .ret
  | some _ => exact .bind choose_only fun _ => .ret

theorem setLastAuthFlow_only : Only ext files i K setLastAuthFlow :=
  .bind clock_only fun _ => store_only fun _ => rfl

theorem pushUi_only {line : Str} : Only ext files i K (pushUi line) :=
  atomically_only fun s => by
    dsimp only
    split <;> rfl

theorem clearPreAuth_keeps {P : WorkerAux → Prop} : Keeps ext files P clearPreAuth :=
  worker_note (fun _ => rfl) (fun _ => rfl) fun _ _ hp => ⟨trivial, hp⟩

theorem handleLockRequest_keeps {P : WorkerAux → Prop} :
    Keeps ext files P (handleLockRequest ext) := by
  refine .bind (load_only).silent fun enabled => Part.keeps_when ?_
  refine .bind (load_only).silent fun locked => Part.keeps_when ?_
  refine .bind (load_only).silent fun last => ?_
  refine .bind (clock_only).silent fun now => Part.keeps_when ?_
  exact .bind clearPreAuth_keeps fun _ => (lockScreen_only).silent

-- ---------------------------------------------------------------------------
-- Matches
-- ---------------------------------------------------------------------------

/-- While a match is being routed, its HMAC verified. -/
structure Matched (f : Frame) (A : WorkerAux → Prop) (w : WorkerAux) : Prop where
  routes : Routes f A w
  matched : w.matched = some f

/-- A window of the unlock services is armed by the worker. -/
theorem setPreAuth_keeps {P : WorkerAux → Prop} {why : Aux → Arming}
    (h : ∀ v : View, P v.worker →
      v.Grounds 0 preAuthDuration unlockFollowupServices (why v.aux)) :
    Keeps ext files P (setPreAuth ext 0 why preAuthDuration unlockFollowupServices) := by
  refine .bind (clock_only).silent fun now => ?_
  exact worker_note (fun _ => rfl) (fun _ => rfl) fun s _ hp => ⟨h s.view hp, hp⟩

theorem approvePendingPam_spec (hA : Steady A) :
    WorkerTriple ext files (Matched f A) (approvePendingPam f) fun b w =>
      Matched f A w ∧ (b = true → w.taken.isSome) := by
  refine worker_act fun s a s' _ _ hp hm => ?_
  simp only [List.mem_singleton] at hm
  cases hs : s.coord.pendingPam with
  | none =>
    simp only [hs, Prod.mk.injEq] at hm
    obtain ⟨rfl, rfl⟩ := hm
    exact ⟨.inl .refl, hp, by simp⟩
  | some i =>
    simp only [hs, Prod.mk.injEq] at hm
    obtain ⟨rfl, rfl⟩ := hm
    have ha : s.view.allowed ext (.approved i f (s.pending i).isOpen) := ⟨hs, hp.2, rfl⟩
    have hv : (s.resolvePending true).view = s.view.act ext (.approved i f (s.pending i).isOpen) :=
      rfl
    obtain ⟨hf, hx⟩ := Daemon.follows_worker hv ha rfl
    refine ⟨hf, ?_⟩
    rw [hx]
    exact ⟨⟨⟨hA s.aux.worker _ rfl rfl rfl rfl hp.1.1, hp.1.2⟩, hp.2⟩, fun _ => rfl⟩

theorem loadScreenLocked_spec (hA : Steady A) :
    WorkerTriple ext files (fun w => Matched f A w ∧ w.taken.isSome) loadScreenLocked fun b w =>
      (Matched f A w ∧ w.taken.isSome) ∧ (b = true → w.sawLocked = true) := by
  refine worker_act fun s a s' _ _ hp hm => ?_
  obtain ⟨rfl, rfl⟩ : a = s.coord.screenLocked ∧ s' = s.note (.lockedRead s.coord.screenLocked) := by
    simpa using hm
  have ha : s.view.allowed ext (.lockedRead s.coord.screenLocked) := rfl
  obtain ⟨hf, hx⟩ := Daemon.follows_worker rfl ha rfl
  refine ⟨hf, ?_⟩
  rw [hx]
  exact ⟨⟨⟨⟨hA s.aux.worker _ rfl rfl rfl rfl hp.1.1.1, hp.1.1.2⟩, hp.1.2⟩, hp.2⟩, id⟩

theorem onApproved_spec (hA : Steady A) :
    WorkerTriple ext files (fun w => Matched f A w ∧ w.taken.isSome) (onApproved ext)
      fun _ => Matched f A := by
  refine .bind (setLastAuthFlow_only).silent fun _ => ?_
  refine .bind (loadScreenLocked_spec hA) fun locked => ?_
  cases locked with
  | false => exact .ret fun w h => h.1.1
  | true =>
    refine Part.Triple.post (Part.keeps_when (setPreAuth_keeps fun v hv => ?_)) fun _ w h => h.1.1
    exact ⟨rfl, rfl, rfl, rfl, hv.1.2, hv.2 rfl⟩

theorem unlockScreen_keeps (hA : Steady A) :
    Keeps ext files (Matched f A) (unlockScreen ext) := by
  refine .bind (targetSession_only).silent fun session => ?_
  cases session with
  | none => exact .ret fun _ => id
  | some session =>
    refine .bind (choose_only).silent fun success => Part.keeps_when ?_
    refine .bind (C := fun _ w => Matched f A w ∧ w.unlocked = true) ?_ fun _ => ?_
    · exact worker_note (fun _ => rfl) (fun _ => rfl) fun s _ hp =>
        ⟨trivial, ⟨⟨hA s.aux.worker _ rfl rfl rfl rfl hp.1.1, hp.1.2⟩, hp.2⟩, rfl⟩
    · refine (setPreAuth_keeps fun v hv => ?_).post fun _ w h => h.1
      exact ⟨rfl, rfl, rfl, hv.2⟩

theorem onNoRequest_keeps (hA : Steady A) : Keeps ext files (Matched f A) (onNoRequest ext) := by
  refine .bind (load_only).silent fun enabled => ?_
  refine .bind (load_only).silent fun locked => Part.keeps_when ?_
  exact .bind (setLastAuthFlow_only).silent fun _ => unlockScreen_keeps hA

theorem onFpMatch_keeps (hA : Steady A) : Keeps ext files (Matched f A) (onFpMatch ext f) := by
  refine .bind (approvePendingPam_spec hA) fun approved => ?_
  cases approved with
  | true => exact (onApproved_spec hA).pre fun w h => ⟨h.1, h.2 rfl⟩
  | false => exact (onNoRequest_keeps hA).pre fun w h => h.1

theorem loadPairing_spec (hA : Steady A) :
    WorkerTriple ext files (Routes f A) loadPairing fun p w =>
      Routes f A w ∧ w.readKey = p.map PairingData.sharedKey := by
  refine worker_act fun s a s' _ _ hp hm => ?_
  obtain ⟨rfl, rfl⟩ : a = s.coord.pairing ∧
      s' = s.note (.pairingRead (s.coord.pairing.map PairingData.sharedKey)) := by
    simpa using hm
  have ha : s.view.allowed ext (.pairingRead (s.coord.pairing.map PairingData.sharedKey)) :=
    ⟨rfl, by rw [show s.view.worker.routing = some f from hp.2]; rfl⟩
  obtain ⟨hf, hx⟩ := Daemon.follows_worker rfl ha rfl
  refine ⟨hf, ?_⟩
  rw [hx]
  exact ⟨⟨hA s.aux.worker _ rfl rfl rfl rfl hp.1, hp.2⟩, rfl⟩

theorem handleFpMatchSigned_keeps (hA : Steady A) (hm : f.isMatch = true) :
    Keeps ext files (Routes f A) (handleFpMatchSigned ext f) := by
  have hack : Keeps ext files (Routes f A) sendAck :=
    sendAck_keeps fun w c h => ⟨hA w _ rfl rfl rfl rfl h.1, h.2⟩
  refine .bind (readBle_only).silent fun pairFpGate => .ite hack ?_
  refine .bind (loadPairing_spec hA) fun p => ?_
  cases p with
  | none => exact .ret fun w h => h.1
  | some p =>
    dsimp only
    split
    next => exact .ret fun w h => h.1
    next hv =>
      refine .bind (C := fun _ => Matched f A) ?_ fun _ => ?_
      · refine worker_note (fun _ => rfl) (fun _ => rfl) fun s _ hp => ?_
        exact ⟨⟨hp.1.2, hp.2, hm, by simpa using hv⟩,
          ⟨hA s.aux.worker _ rfl rfl rfl rfl hp.1.1, hp.1.2⟩, rfl⟩
      refine .bind (sendAck_keeps fun w c h => ?_) fun _ => ?_
      · exact ⟨⟨hA w _ rfl rfl rfl rfl h.1.1, h.1.2⟩, h.2⟩
      refine .bind (readBle_only).silent fun waiting => ?_
      exact (Part.keeps_when (onFpMatch_keeps hA)).post fun _ w h => h.1

-- ---------------------------------------------------------------------------
-- Frames
-- ---------------------------------------------------------------------------

theorem routeNotification_keeps (hA : Steady A) :
    Keeps ext files (Routes f A) (routeNotification ext f) := by
  unfold routeNotification
  split
  next => exact .ret fun _ => id
  next first rest hf =>
    dsimp only
    split
    next hm => exact handleFpMatchSigned_keeps hA (by rw [Frame.isMatch, hm.2, hf, hm.1]; rfl)
    split
    next => exact handleLockRequest_keeps
    split
    next => exact .ret fun _ => id
    split
    next => exact (routeEnroll_only).silent
    split
    next => exact .ret fun _ => id
    split
    next => exact (routePairButton_only).silent
    next h₁ h₂ h₃ h₄ h₅ h₆ =>
      refine routeAnswer_keeps hA hf ?_
      simp_all [isNotification]

end Immurok
