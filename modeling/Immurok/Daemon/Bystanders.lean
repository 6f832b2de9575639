import Immurok.Async.Amid
import Immurok.Daemon.MainLoop
import Immurok.Daemon.Sound

/-!
# Connections beside the worker

No connection touches the waits of the worker. What is so at its main loop is
so in every configuration that the daemon reaches.
-/

namespace Immurok

open Async

variable {ext : Extern} {files : Files} {i : TaskId} {s s' : Daemon} {α β : Type}

/-- Any files will do, and any surroundings where they play no part. -/
theorem away_of_modest (ext : Extern) {t : Code α} (h : Modest ext .sample i t) : Away t := h.away

-- ---------------------------------------------------------------------------
-- The slot
-- ---------------------------------------------------------------------------

theorem trySetPendingPam_away {entry : Entry} : Away (trySetPendingPam i entry) :=
  .atomically fun s => by
    split
    · exact .refl s
    · exact .note rfl ⟨rfl, rfl, rfl, .inl rfl⟩ rfl

theorem denyPendingPam_away : Away (denyPendingPam i) :=
  event_away fun _ => ⟨⟨rfl, rfl, rfl, .inl rfl⟩, rfl, rfl⟩

theorem dropPending_away : Away (dropPending i) :=
  event_away fun _ => ⟨⟨rfl, rfl, rfl, .inl rfl⟩, rfl, rfl⟩

theorem pendingBranch_apart {k : Bool → β} {b : β} (h : pendingBranch i k s = some (b, s')) :
    s.Apart s' := by
  obtain ⟨got, -, hs⟩ := Option.map_eq_some_iff.mp h
  obtain ⟨-, rfl⟩ := Prod.mk.inj hs
  exact .note rfl (.refl s) rfl

theorem dialogBranch_apart {showing : Bool} {subscribed : Nat} {b : Option Ended}
    (h : dialogBranch showing subscribed s = some (b, s')) : s.Apart s' := by
  unfold dialogBranch uiCancelBranch at h
  split at h
  · split at h
    · exact .of_eq (Prod.mk.inj (Option.some.inj h)).2.symm
    · cases h
  · cases h

theorem race_away {cmd : BleCommand} {others : List (Daemon → Option (Option β × Daemon))}
    (h : ∀ f ∈ others, ∀ s a s', f s = some (a, s') → s.Apart s') : Away (race i cmd others) := by
  refine .repeatFrom fun r => .bind (.act fun s a s' hm => ?_) fun next => ?_
  · obtain ho | ⟨f, hf, b, -, hb⟩ := race_branch hm
    · cases r with
      | none => exact enqueueBranch_apart ho
      | some r => exact replyBranch_apart ho
    · exact h f hf s b s' hb
  · cases next with
    | other b => cases b <;> exact .ret
    | _ => exact .ret

theorem raceRequest_away {cmd : BleCommand} {others : List (Daemon → Option (Option β × Daemon))}
    (h : ∀ f ∈ others, ∀ s a s', f s = some (a, s') → s.Apart s') :
    Away (raceRequest i cmd others) :=
  .bind (race_away h) fun _ =>
    .bind (away_of_modest .sample dropLoser_modest) fun _ => .ret

theorem dismiss_away {showing : Bool} : Away (dismiss showing) :=
  .when (.bind pushUi_away fun _ => .ret)

theorem settleTouch_away {request : Option ReplyId} {outcome : Option Reply ⊕ Ended} :
    Away (settleTouch i request outcome) := by
  unfold settleTouch
  split
  · exact .ret
  · exact .ret
  · exact .bind (away_of_modest .sample notifyCancel_modest) fun _ => .ret

/-- From the end of a race for a touch to the answer. -/
theorem finishTouch_away {request : Option ReplyId} {outcome : Option Reply ⊕ Ended}
    {showing : Bool} {k : Bool → α} :
    Away (do
      dropPending i
      let approved ← settleTouch i request outcome
      dismiss showing
      denyPendingPam i
      pure (k approved)) :=
  .bind dropPending_away fun _ => .bind settleTouch_away fun _ =>
    .bind dismiss_away fun _ => .bind denyPendingPam_away fun _ => .ret

-- ---------------------------------------------------------------------------
-- Approvals
-- ---------------------------------------------------------------------------

theorem raceAuth_away {showing : Bool} {subscribed : Nat} :
    Away (raceAuth i showing subscribed) := by
  refine .bind (raceRequest_away fun f hf s a s' h => ?_) fun (request, outcome) =>
    finishTouch_away
  simp only [List.mem_cons, List.not_mem_nil, or_false] at hf
  obtain rfl | rfl | rfl := hf
  · exact pendingBranch_apart h
  · exact dialogBranch_apart h
  · exact (probeBranch_hidden h).apart

theorem authTouch_away {service : Str} : Away (authTouch ext i service) := by
  refine .bind load_away fun _ => .bind (.ite pushUi_away .ret) fun _ => ?_
  refine .bind trySetPendingPam_away fun _ => .ite (.bind dismiss_away fun _ => .ret) ?_
  exact .bind raceAuth_away fun _ => .ret

theorem loadConnected_away : Away (loadConnected i) :=
  .atomically fun s => .note rfl (.refl s) rfl

theorem loadVerified_away : Away (loadVerified i) :=
  .atomically fun s => .note rfl (.refl s) rfl

theorem authDevice_away {service : Str} : Away (authDevice ext i service) :=
  .bind loadConnected_away fun _ => .ite .ret (.bind loadVerified_away fun _ => .ite .ret authTouch_away)

theorem authWindow_away {service : Str} : Away (authWindow ext i service) :=
  .bind (.atomically fun s => .note rfl (.refl s) rfl) fun _ => .ite .ret authDevice_away

theorem authService_away {service : Str} : Away (authService ext i service) :=
  .bind (.atomically fun s => .note rfl (.refl s) rfl) fun _ => .ite .ret authWindow_away

theorem handleAuth_away {user service : Str} : Away (handleAuth ext i user service) :=
  .bind (.atomically fun s => .note rfl (.refl s) rfl) fun _ => .ite .ret authService_away

theorem raceAgent_away {showing : Bool} {subscribed : Nat} :
    Away (raceAgent i showing subscribed) := by
  refine .bind clock_away fun now => .bind (raceRequest_away fun f hf s a s' h => ?_)
    fun (request, outcome) => finishTouch_away
  simp only [List.mem_cons, List.not_mem_nil, or_false] at hf
  obtain rfl | rfl | rfl | rfl := hf
  · exact pendingBranch_apart h
  · exact (probeBranch_hidden h).apart
  · exact dialogBranch_apart h
  · exact deadlineBranch_apart h

theorem answerAgent_away {approved protocolError : Bool} :
    Away (answerAgent ext i approved protocolError) :=
  .ite .ret (.ite (.bind setPreAuth_away fun _ => .ret) .ret)

theorem agentTouch_away {cmd : Str} : Away (agentTouch ext i cmd) :=
  .bind trySetPendingPam_away fun _ => .ite .ret <|
    .bind load_away fun _ => .bind pushUi_away fun _ => .bind raceAgent_away fun _ =>
      answerAgent_away

theorem handleAgentApprove_away {cmd : Str} : Away (handleAgentApprove ext i cmd) :=
  .ite .ret <| .bind loadConnected_away fun _ => .ite .ret <|
    .bind loadVerified_away fun _ => .ite .ret agentTouch_away

-- ---------------------------------------------------------------------------
-- Placeholders
-- ---------------------------------------------------------------------------

theorem otpWithSlot_away {idx : UInt8} {busy : Str} : Away (otpWithSlot i idx busy) :=
  .bind trySetPendingPam_away fun _ => .ite .ret <|
    .bind (away_of_modest .sample otpGetInner_modest) fun _ =>
      .bind denyPendingPam_away fun _ => .ret

theorem handleGetOtp_away {name : Str} : Away (handleGetOtp i name) := by
  refine .bind (away_of_modest (i := i) .sample findKeyIndex_modest) fun idx => ?_
  cases idx with
  | none => exact .ret
  | some idx => exact otpWithSlot_away

theorem touchApiEntry_away {idx : UInt8} : Away (touchApiEntry i idx) :=
  .bind (away_of_modest .sample bleSendFpGated_modest) fun _ =>
    .bind denyPendingPam_away fun _ => .ret

theorem handleGetApi_away {name : Str} : Away (handleGetApi i name) := by
  refine .bind (away_of_modest (i := i) .sample findKeyIndex_modest) fun idx => ?_
  cases idx with
  | none => exact .ret
  | some idx =>
    refine .bind trySetPendingPam_away fun _ => .ite .ret (.bind touchApiEntry_away fun answer => ?_)
    cases answer with
    | ok _ => exact .ite (away_of_modest .sample readApiEntry_modest) .ret
    | error _ => exact .ret

theorem handleGetKey_away {after : Str} : Away (handleGetKey ext i after) := by
  unfold handleGetKey
  split
  · exact .ret
  · exact .ret
  · exact .bind load_away fun _ => .ite .ret <|
      .ite (away_of_modest (i := i) ext handleGetSsh_modest) <| .ite handleGetApi_away <|
        .ite handleGetOtp_away .ret

theorem otpCommand_away {idx : Str} : Away (otpCommand i idx) := by
  unfold otpCommand
  split
  · exact .ret
  · exact .map otpWithSlot_away

theorem keyOnDevice_away {parts : List Str} : Away (keyOnDevice i parts) := by
  have import' {kind : ImportKind} {hexData : Str} : Away (importKey i kind hexData) :=
    away_of_modest .sample importKey_modest
  have generate {nameHex : Str} : Away (generateKey i nameHex) :=
    away_of_modest .sample generateKey_modest
  unfold keyOnDevice
  split
  · exact .ite generate <| .ite import' <| .ite import' <| .ite otpCommand_away <|
      .ite import' .ret
  · exact .ite generate <| .ite (away_of_modest .sample deleteKey_modest) <| .ite import' <|
      .ite import' <| .ite otpCommand_away <| .ite import' .ret
  · exact .ret

theorem handleKeyCommand_away {line : Str} : Away (handleKeyCommand ext i line) :=
  .ite .ret <| .ite (away_of_modest (i := i) ext keyCacheJson_modest) <|
    .bind load_away fun _ => .ite .ret <| .bind load_away fun _ => .ite .ret keyOnDevice_away

-- ---------------------------------------------------------------------------
-- Requests
-- ---------------------------------------------------------------------------

theorem runRequest_away {peer : Peer} {request : Request} :
    Away (runRequest ext i peer request) := by
  cases request with
  | auth user service => exact handleAuth_away
  | status => exact away_of_modest (i := i) .sample handleStatus_modest
  | fpList => exact away_of_modest .sample handleFpList_modest
  | fpEnroll _ => exact away_of_modest .sample handleFpEnroll_modest
  | fpEnrollCancel => exact away_of_modest .sample handleFpEnrollCancel_modest
  | fpDelete _ => exact away_of_modest .sample handleFpDelete_modest
  | fpVerify => exact away_of_modest .sample handleFpVerify_modest
  | fpStatus => exact away_of_modest (i := i) .sample handleFpStatus_modest
  | gateCancel => exact away_of_modest .sample handleGateCancel_modest
  | pairStatus => exact .bind load_away fun _ => .ret
  | pairStart => exact away_of_modest .sample pairStart_modest
  | pairProgress => exact .bind load_away fun _ => .ret
  | slotStatus => exact away_of_modest .sample handleSlotStatus_modest
  | slotClear _ => exact away_of_modest .sample handleSlotClear_modest
  | factoryReset => exact away_of_modest ext handleFactoryReset_modest
  | setUnlockSudo _ | setUnlockPolkit _ | setUnlockScreen _ | setLockScreen _ =>
    dsimp only [runRequest]
    exact away_of_modest .sample handleSetSetting_modest
  | setSshTakeover _ => exact away_of_modest .sample handleSetSshTakeover_modest
  | getSettings => exact away_of_modest (i := i) .sample handleGetSettings_modest
  | getInfo => exact away_of_modest (i := i) ext handleGetInfo_modest
  | fpLastMatch | otaStart _ _ | otaData _ | otaFinish => exact .ret

theorem serveDispatch_away {peer : Peer} {line : Str} {d : Dispatch} :
    Away (serveDispatch ext i peer line d) := by
  have written {bs : Bytes} : Away (writeBytes i bs) := away_of_modest .sample writeBytes_modest
  cases d with
  | sessionAgent => exact away_of_modest .sample serveSessionAgent_modest
  | logStream => exact away_of_modest .sample serveLogStream_modest
  | ota => exact away_of_modest ext handleOtaSession_modest
  | key => exact .bind handleKeyCommand_away fun _ => written
  | agentApprove cmd => exact .bind handleAgentApprove_away fun _ => written
  | list cat =>
    exact .bind (away_of_modest (i := i) ext handleListKeys_modest) fun _ => written
  | get after => exact .bind handleGetKey_away fun _ => written
  | request r =>
    refine .bind (.bind runRequest_away fun _ => .bind (event_away ?_) fun _ => .ret) fun _ => written
    exact fun _ => ⟨⟨rfl, rfl, rfl, .inl rfl⟩, rfl, rfl⟩
  | unparsable e => exact written

theorem serveLine_away {peer : Peer} {line : Str} : Away (serveLine ext i peer line) :=
  .bind (away_of_modest (i := i) ext authorize_modest) fun _ =>
    .ite (away_of_modest .sample writeLineTo_modest) serveDispatch_away

theorem handleClient_away {peer : Peer} : Away (handleClient ext i peer) := by
  refine .bind clock_away fun now => .bind (away_of_modest .sample readUntil_modest) fun read => ?_
  split
  · unfold serveChunk
    split
    · exact away_of_modest .sample writeLineTo_modest
    · exact serveLine_away
  · exact .ret

theorem serveConn_away {conn : Conn} : Away (serveConn ext i conn) := by
  unfold serveConn
  split
  · exact handleClient_away
  · exact away_of_modest ext handleAgentClient_modest
  · exact .ret
  · exact .ret

-- ---------------------------------------------------------------------------
-- Every run
-- ---------------------------------------------------------------------------

theorem envStep_desk {x : Env} (h : envStep x s = some s') : s'.desk = s.desk := by
  cases x with
  | tick d | ready | disconnect | exit | screen b | socketClose i =>
    cases h
    rfl
  | replyLine line | frame f =>
    simp only [envStep] at h
    split at h
    · cases h
      rfl
    · cases h
  | socketData i bs =>
    simp only [envStep] at h
    split at h
    · cases h
    · cases h
      rfl

/-- The worker minds its desk, and nobody else touches it. -/
theorem deskwork_sound : deskwork.Sound (system ext) where
  guar_refl _ := deskwork_refl
  guar_rely i j s s' hij _ hg hj := hg.1 fun hi => hij (hi.trans hj.symm)
  env x s s' hi h := by
    have hd : s'.desk = s.desk := envStep_desk h
    exact ⟨show s'.desk.Sane by rw [hd]; exact hi, fun _ _ => hd⟩
  serve
    | 0, _ => .ret (fun _ _ _ _ _ => trivial) fun _ _ => id
    | i + 1, conn => (serveConn_away).triple fun s s' hi ha => by
      have hd : s'.desk = s.desk := ha.desk
      refine ⟨⟨fun _ => hd, fun h => ?_⟩, show s'.desk.Sane by rw [hd]; exact hi⟩
      exact absurd (congrArg Desk.taken hd) h

theorem start_rest : (Daemon.start files).desk.Rest :=
  ⟨0, Desk.In.rest
    { gate := nofun
      auth := nofun
      button := nofun
      pairGate := nofun
      active := nofun
      failures := UInt8.le_of_lt noFailure
      response := nofun } rfl⟩

theorem desk_safe : deskwork.Safe (start ext files) := by
  refine ⟨start_rest.sane, fun i t ht => ?_⟩
  cases i with
  | zero =>
    obtain rfl : run ext = t := by simpa [start] using ht
    exact Protocol.wp_mono (fun _ _ _ _ => trivial) (run_minds _ start_rest.sane start_rest)
  | succ i => simp [start] at ht

variable {c : Config Daemon}

theorem desk_reached (h : (system ext).Reach (start ext files) c) : deskwork.Safe c :=
  deskwork_sound.safe desk_safe h

-- ---------------------------------------------------------------------------
-- Replies
-- ---------------------------------------------------------------------------

/-- The commands taken from the queue, the latest first. -/
def jobsTaken (log : List Ev) : List Job :=
  log.filterMap fun
    | .dequeued j => some j
    | _ => none

/-- Their reply senders, where they have one. -/
def sendersTaken (log : List Ev) : List ReplyId := (jobsTaken log).filterMap Job.owes

/-- The senders that were replied to, the latest first. -/
def sendersReplied (log : List Ev) : List ReplyId :=
  log.filterMap fun
    | .replied r _ => some r
    | _ => none

/-- What was taken is replied to, in order, but for what is owed. -/
theorem Ledger.balance {log : List Ev} {l : Ledger} (h : Ledger.of log = some l) :
    sendersTaken log = l.owed.toList ++ sendersReplied log := by
  induction log generalizing l with
  | nil =>
    cases h
    rfl
  | cons e es ih =>
    cases e with
    | dequeued j =>
      obtain ⟨l', hl', hl⟩ := Option.bind_eq_some_iff.mp h
      split at hl
      next ho =>
        cases hl
        have hes := ih hl'
        rw [ho] at hes
        cases hj : j.owes <;> simpa [sendersTaken, jobsTaken, sendersReplied, hj] using hes
      next => cases hl
    | replied r reply =>
      obtain ⟨l', hl', hl⟩ := Option.bind_eq_some_iff.mp h
      split at hl
      next ho =>
        cases hl
        have hes := ih hl'
        rw [ho] at hes
        simpa [sendersTaken, jobsTaken, sendersReplied] using hes
      next => cases hl
    | _ => exact ih h

/-- The senders queued and taken. -/
def View.senders (v : View) (log : List Ev) : List ReplyId := (v.queue ++ jobsTaken log).map Job.reply

/-- Every sender is below the next one, and is there once. -/
def View.SendersFresh (v : View) (log : List Ev) : Prop :=
  (v.senders log).Nodup ∧ ∀ r ∈ v.senders log, r < v.nextReply

theorem View.sendersFresh_step {v : View} {log : List Ev} {e : Ev} (h : v.SendersFresh log)
    (ha : v.allowed ext e) : (v.step ext e).SendersFresh (e :: log) := by
  have same (hq : (v.act ext e).queue = v.queue) (hn : (v.act ext e).nextReply = v.nextReply)
      (hj : jobsTaken (e :: log) = jobsTaken log) : (v.step ext e).SendersFresh (e :: log) := by
    simpa only [SendersFresh, senders, View.step_queue, View.step_nextReply, hq, hn, hj] using h
  cases e with
  | queued i r cmd =>
    obtain rfl : r = v.nextReply := ha
    have hs : ((v.step ext (.queued i v.nextReply cmd)).senders
        (.queued i v.nextReply cmd :: log)).Perm (v.nextReply :: v.senders log) := by
      have hj : jobsTaken (.queued i v.nextReply cmd :: log) = jobsTaken log := rfl
      simp only [senders, View.step_queue, View.act, hj, List.append_assoc, List.map_append,
        List.singleton_append, List.map_cons]
      exact List.perm_middle
    refine ⟨hs.nodup_iff.mpr (List.nodup_cons.mpr ⟨fun hm => ?_, h.1⟩), fun r hr => ?_⟩
    · exact Nat.lt_irrefl _ (h.2 _ hm)
    · obtain rfl | hr := List.mem_cons.mp (hs.mem_iff.mp hr)
      · exact Nat.lt_succ_self _
      · exact Nat.lt_succ_of_lt (h.2 r hr)
  | dequeued j =>
    obtain ⟨rest, hq⟩ : ∃ rest, v.queue = j :: rest := List.head?_eq_some_iff.mp ha.1
    have hs : ((v.step ext (.dequeued j)).senders (.dequeued j :: log)).Perm (v.senders log) := by
      have hj : jobsTaken (.dequeued j :: log) = j :: jobsTaken log := rfl
      simp only [senders, View.step_queue, View.act, hq, hj, List.tail_cons, List.cons_append]
      exact List.perm_middle.map _
    exact ⟨hs.nodup_iff.mpr h.1, fun r hr => h.2 r (hs.mem_iff.mp hr)⟩
  | delivered d _ _ => exact same (by cases d <;> rfl) (by cases d <;> rfl) rfl
  | _ => exact same rfl rfl rfl

theorem Job.owes_sublist {js : List Job} : (js.filterMap Job.owes).Sublist (js.map Job.reply) := by
  induction js with
  | nil => exact .slnil
  | cons j js ih =>
    cases hj : j.cmd.hasReply with
    | false => simpa [Job.owes, hj] using ih.cons j.reply
    | true => simpa [Job.owes, hj] using ih

theorem senders_fresh (h : (system ext).Reach (start ext files) c) :
    c.shared.view.SendersFresh c.shared.log :=
  (reached h).invariant (I := fun es v => v.SendersFresh es)
    ⟨List.nodup_nil, fun _ hr => nomatch hr⟩ fun _ _ _ hi ha _ => View.sendersFresh_step hi ha

/-- No sender is taken twice. -/
theorem sendersTaken_nodup (h : (system ext).Reach (start ext files) c) :
    (sendersTaken c.shared.log).Nodup := by
  refine ((senders_fresh h).1.sublist ?_).sublist Job.owes_sublist
  exact (List.sublist_append_right _ _).map _

-- ---------------------------------------------------------------------------
-- At the main loop
-- ---------------------------------------------------------------------------

/-- The worker waits in its main loop. -/
def AtMainLoop (t : Code Unit) : Prop :=
  ∃ k, t = (Proc.select [notifyBranch Serve.frame, commandBranch, disconnectBranch]).bind k

/-- It takes commands there, so it is at rest. -/
theorem atMainLoop_rest {t : Code Unit} (hs : deskwork.Safe c) (ht : c.pool 0 = some t)
    (hm : AtMainLoop t) : c.shared.desk.Rest := by
  obtain ⟨k, rfl⟩ := hm
  -- whatever the queue holds, the worker may be here with a command in it
  have hw := hs.2 0 _ ht
  let j : Job := ⟨0, .disconnect⟩
  have hd : ({ c.shared with queue := [j] } : Daemon).desk = c.shared.desk := rfl
  obtain ⟨hg, -, -⟩ := hw { c.shared with queue := [j] } (fun _ => hd)
    (show Desk.Sane _ by rw [hd]; exact hs.1) (.command j)
    (Daemon.note (.dequeued j) { c.shared with queue := [] })
    (List.mem_filterMap.mpr ⟨commandBranch, by simp, rfl⟩)
  refine hd ▸ hg.2 fun he => ?_
  obtain ⟨l, hl⟩ := Option.isSome_iff_exists.mp hs.1.2
  have hlog : Ledger.of c.shared.log = some l := hl
  simp only [Desk.taken, Daemon.desk, Daemon.note, Ledger.of, hlog, Option.bind_some,
    Option.map_some] at he
  split at he
  · simp at he
  · cases he

/-- What the worker has open, and owes, at its main loop. -/
structure Daemon.MainLoop (s : Daemon) : Prop where
  gatePending : s.ble.gatePending = false
  authPending : s.ble.authPending = false
  pairFpGate : s.ble.pairFpGate = false
  pairButtonPending : s.ble.pairButtonPending = false
  gateActive : s.coord.gateActive = false
  gate : s.ble.gate.tx = false
  auth : s.ble.auth.tx = false
  pairButton : s.ble.pairButton.tx = false
  replied : sendersTaken s.log = sendersReplied s.log

theorem Desk.Rest.mainLoop (h : s.desk.Rest) : s.MainLoop := by
  obtain ⟨n, h⟩ := h
  have closed {b : Bool} {w : Wait} (hb : b = true → Wait.rest = w) (hw : w ≠ .rest) :
      b = false := by
    cases b with
    | true => exact absurd (hb rfl).symm hw
    | false => rfl
  exact
    { gatePending := closed (fun ho => h.gate (.inl ho)) nofun
      authPending := closed (fun ho => h.auth (.inl ho)) nofun
      pairFpGate := closed h.pairGate nofun
      pairButtonPending := closed (fun ho => h.button (.inl ho)) nofun
      gateActive := closed h.active nofun
      gate := closed (fun ho => h.gate (.inr ho)) nofun
      auth := closed (fun ho => h.auth (.inr ho)) nofun
      pairButton := closed (fun ho => h.button (.inr ho)) nofun
      replied := Ledger.balance h.ledger }

/-- What holds at any time. -/
structure Daemon.Bounded (s : Daemon) : Prop where
  oneTouch : ¬ (s.ble.gatePending = true ∧ s.ble.authPending = true)
  failures : s.ble.authFailures ≤ fpGateMaxFailures
  replied : sendersTaken s.log = sendersReplied s.log ∨
    ∃ r, sendersTaken s.log = r :: sendersReplied s.log

theorem Desk.Sane.bounded (h : s.desk.Sane) : s.Bounded := by
  obtain ⟨⟨w, hw⟩, hl⟩ := h
  refine ⟨fun ⟨hg, ha⟩ => ?_, hw.failures, ?_⟩
  · exact nomatch (hw.gate (.inl hg)).symm.trans (hw.auth (.inl ha))
  · obtain ⟨l, hl⟩ := Option.isSome_iff_exists.mp hl
    have hb := Ledger.balance hl
    cases ho : l.owed with
    | none => exact .inl (by simpa [ho] using hb)
    | some r => exact .inr ⟨r, by simpa [ho] using hb⟩

/-- A response awaited for a command taken at rest has a status byte to take
off. -/
theorem sendCommandInner_nonempty {u : Code (Except Str Bytes)} {cmd : UInt8} {payload : Bytes}
    {timeout : Nat} {data : Bytes} {sent : Daemon} (h : s.desk.Rest)
    (hs : (sendCommandInner ext cmd payload timeout).Amid (fun s s' => s'.desk = s.desk) s u sent)
    (hu : u = .ret (.ok data)) : data ≠ [] := by
  obtain ⟨n, h⟩ := h
  obtain ⟨hi, hw⟩ := Protocol.Triple.amid (sendCommandInner_works (w := .rest) (l := ⟨n, none⟩))
    deskwork_refl
    (fun s s' hi hd => ⟨fun _ => hd, show s'.desk.Sane by rw [hd]; exact hi⟩) h.sane h hs
  subst hu
  exact (hw _ (deskwork.rely_refl _ _) hi).2 data rfl

/-- In every configuration that the daemon reaches. -/
theorem waits_restored (h : (system ext).Reach (start ext files) c) :
    c.shared.Bounded ∧ (sendersTaken c.shared.log).Nodup ∧
      (∀ t, c.pool 0 = some t → AtMainLoop t → c.shared.MainLoop ∧
        ∀ cmd payload data sent, (sendCommandInner ext cmd payload bleCommandTimeout).Amid
          (fun s s' => s'.desk = s.desk) c.shared (.ret (.ok data)) sent → data ≠ []) ∧
      ∀ e c', (system ext).step c e = some c' → (∀ n, e ≠ .run 0 n) →
        c'.shared.desk = c.shared.desk := by
  have hs := desk_reached h
  refine ⟨hs.1.bounded, sendersTaken_nodup h, fun t ht hm => ?_, fun e c' hc he => ?_⟩
  · have hr := atMainLoop_rest hs ht hm
    exact ⟨hr.mainLoop, fun cmd payload data sent hc => sendCommandInner_nonempty hr hc rfl⟩
  · cases e with
    | run i n =>
      obtain ⟨t, ht, hn⟩ := Option.bind_eq_some_iff.mp hc
      obtain ⟨⟨t', s'⟩, hget, rfl⟩ := Option.map_eq_some_iff.mp hn
      obtain ⟨hg, -⟩ := Protocol.wp_step deskwork_refl hs.1
        (hs.2 i t ht) (List.mem_of_getElem? hget)
      exact hg.1 fun hi => he n (by rw [hi])
    | env x =>
      obtain ⟨s', hx, rfl⟩ := Option.map_eq_some_iff.mp hc
      exact envStep_desk hx
    | spawn i r =>
      simp only [System.step] at hc
      split at hc
      · cases hc
        rfl
      · cases hc

theorem waits_restored_touched : ∃ c : Config Daemon, c.shared.Bounded ∧
    (sendersTaken c.shared.log).Nodup ∧ sendersTaken c.shared.log ≠ [] := by
  obtain ⟨c, hr, hc⟩ := System.exists_run (system .sample) (fun _ _ => true)
    (start .sample .sample) touched (fun s => !(sendersTaken s.log).isEmpty) (by decide +kernel)
  obtain ⟨hb, hn, -⟩ := waits_restored hr.reach
  exact ⟨c, hb, hn, by simpa using hc⟩

end Immurok
