import Immurok.Async.Ended
import Immurok.Daemon.Slot

/-!
# The slot is given back

A connection that has put its sender into the slot of pending requests takes
it out before it ends, whichever way its request goes. So who holds the slot
is still at work, and a request is turned away as `BUSY` by a request that is
still being served.
-/

namespace Immurok

open Async Machine

variable {ext : Extern} {files : Files} {i : TaskId} {hi : i ≠ 0} {c : Config Daemon}
  {v : View} {e : Ev} {es : List Ev} {α : Type}

namespace ClientAux

/-- The connection has no entry to clean up after. -/
def Unenlisted (c : ClientAux) : Prop := c.registered = false

theorem unenlisted_steady : Steady Unenlisted := by
  intro c e he h
  cases e with
  | queued _ _ _ | gotReply _ _ _ | replyDropped _ _ | cancelSent _ _ _ | pairingSet _ _
  | ownerSet _ _ | settingsSet _ _ | verifiedSet _ _ => exact h
  | _ => exact he.elim

/-- The connection has an entry. -/
def Enlisted (c : ClientAux) : Prop := c.registered = true

theorem enlisted_steady : Steady Enlisted := by
  intro c e he h
  cases e with
  | queued _ _ _ | gotReply _ _ _ | replyDropped _ _ | cancelSent _ _ _ | pairingSet _ _
  | ownerSet _ _ | settingsSet _ _ | verifiedSet _ _ => exact h
  | _ => exact he.elim

end ClientAux

open ClientAux

/-- The code takes out of the slot what it has put there. -/
abbrev GivesBack (ext : Extern) (files : Files) (hi : i ≠ 0) (t : Code α) : Prop :=
  ClientTriple ext files hi Unenlisted t fun _ => Unenlisted

theorem Modest.givesBack {t : Code α} (h : Modest ext files i t) : GivesBack ext files hi t :=
  h.keeps unenlisted_steady

/-- A read that is noted. -/
theorem read_givesBack {a : Daemon → α} {ev : Daemon → Ev} (he : ∀ s, (ev s).actor = some i)
    (hv : ∀ s : Daemon, s.view = s.view.act ext (ev s)) (ha : ∀ s : Daemon, s.view.allowed ext (ev s))
    (hf : ∀ (s : Daemon) (c : ClientAux), (c.step (ev s)).registered = c.registered) :
    GivesBack ext files hi (Proc.atomically fun s => (a s, s.note (ev s))) :=
  client_note (g := id) he hv fun s hc => ⟨ha s, (hf s _).trans hc⟩

/-- An entry is there where the slot was free. -/
theorem trySetPendingPam_unlisted {entry : Entry} :
    ClientTriple ext files hi Unenlisted (trySetPendingPam i entry) fun b c =>
      if b then c.Enlisted else c.Unenlisted := by
  refine client_act fun s b s' hp hm => ?_
  replace hm := List.mem_singleton.mp hm
  dsimp only at hm
  split at hm
  next =>
    obtain ⟨rfl, rfl⟩ := Prod.mk.inj hm
    exact ⟨.inl .refl, hp⟩
  next hfree =>
    obtain ⟨rfl, rfl⟩ := Prod.mk.inj hm
    have hn : s.coord.pendingPam = none := by simpa using hfree
    let s₁ : Daemon := { s with
      coord := { s.coord with pendingPam := some i }
      pending := Function.update s.pending i .new }
    have hv : s₁.view = s.view.act ext (.registered i entry) := rfl
    obtain ⟨hf, hx⟩ := Daemon.follows_client files hi (Daemon.note_emits hv ⟨hi, hn⟩) rfl
    exact ⟨hf, hx ▸ rfl⟩

theorem denyPendingPam_unlisted :
    ClientTriple ext files hi Enlisted (denyPendingPam i) fun _ => Unenlisted :=
  denyPendingPam_spec fun _ _ hc => ⟨hc, rfl⟩

/-- A placeholder is taken out after the code it is for. -/
theorem placeholder_givesBack {t : Code α} (h : Modest ext files i t) :
    ClientTriple ext files hi Enlisted
      (t >>= fun result => denyPendingPam i >>= fun _ => pure result) fun _ => Unenlisted :=
  .bind (h.keeps enlisted_steady) fun _ => .bind denyPendingPam_unlisted fun _ => .ret fun _ => id

-- ---------------------------------------------------------------------------
-- Races
-- ---------------------------------------------------------------------------

/-- From the race to the cleaning up. -/
theorem touch_givesBack {others : List (Daemon → Option (Option Ended × Daemon))} {showing : Bool}
    {k : Option Reply ⊕ Ended → Bool → α} (h : ∀ f ∈ others, EndsRace ext files i Enlisted f) :
    ClientTriple ext files hi Enlisted
      (do
        let (request, outcome) ← raceRequest i .authRequest others
        dropPending i
        let approved ← settleTouch i request outcome
        dismiss showing
        denyPendingPam i
        pure (k outcome approved)) fun _ => Unenlisted := by
  refine .bind (raceRequest_spec enlisted_steady h) fun (request, outcome) => ?_
  refine (finishTouch_spec (k := k outcome) (R := Unenlisted) enlisted_steady fun c entry hc => ?_).post
    fun _ c hc => hc.1
  exact ⟨hc, rfl⟩

theorem raceAuth_givesBack {showing : Bool} {subscribed : Nat} :
    ClientTriple ext files hi Enlisted (raceAuth i showing subscribed) fun _ => Unenlisted := by
  refine touch_givesBack (k := fun _ approved => approved) ?_
  simp only [List.forall_mem_cons, List.not_mem_nil, false_imp_iff, implies_true, and_true]
  exact ⟨pendingBranch_ends hi fun _ _ => id, dialogBranch_ends, probeBranch_ends⟩

theorem raceAgent_givesBack {showing : Bool} {subscribed : Nat} :
    ClientTriple ext files hi Enlisted (raceAgent i showing subscribed) fun _ => Unenlisted := by
  refine .bind (clock_only).leaves fun now => ?_
  refine touch_givesBack (k := fun outcome approved => (approved, isProtocolError outcome)) ?_
  simp only [List.forall_mem_cons, List.not_mem_nil, false_imp_iff, implies_true, and_true]
  exact ⟨pendingBranch_ends hi fun _ _ => id, probeBranch_ends, dialogBranch_ends,
    deadlineBranch_ends⟩

-- ---------------------------------------------------------------------------
-- Handlers
-- ---------------------------------------------------------------------------

variable {user service cmd name after idx line : Str}

theorem authTouch_givesBack : GivesBack ext files hi (authTouch ext i service) := by
  refine .bind (load_only).leaves fun subscribed => ?_
  refine .bind ((showDialog_modest).givesBack) fun showing => ?_
  refine .bind trySetPendingPam_unlisted fun registered => ?_
  cases registered with
  | false => exact .bind (dismiss_modest).givesBack fun _ => .ret fun _ => id
  | true => exact .bind raceAuth_givesBack fun _ => .ret fun _ => id

theorem authDevice_givesBack : GivesBack ext files hi (authDevice ext i service) := by
  refine .bind (read_givesBack (fun _ => rfl) (fun _ => rfl) (fun _ => rfl) fun _ _ => rfl)
    fun connected => .ite (.ret fun _ => id) ?_
  refine .bind (read_givesBack (fun _ => rfl) (fun _ => rfl) (fun _ => rfl) fun _ _ => rfl)
    fun verified => .ite (.ret fun _ => id) authTouch_givesBack

theorem authWindow_givesBack : GivesBack ext files hi (authWindow ext i service) :=
  .bind (read_givesBack (fun _ => rfl) (fun _ => rfl) (fun _ => ⟨rfl, rfl⟩) fun _ _ => rfl)
    fun _ => .ite (.ret fun _ => id) authDevice_givesBack

theorem handleAuth_givesBack : GivesBack ext files hi (handleAuth ext i user service) := by
  refine .bind (read_givesBack (fun _ => rfl) (fun _ => rfl) (fun _ => rfl) fun _ _ => rfl)
    fun owner => .ite (.ret fun _ => id) ?_
  exact .bind (read_givesBack (fun _ => rfl) (fun _ => rfl) (fun _ => rfl) fun _ _ => rfl)
    fun settings => .ite (.ret fun _ => id) authWindow_givesBack

theorem answerAgent_givesBack {approved protocolError : Bool} :
    ClientTriple ext files hi
      (fun c => (c.entry = some .agent ∧ (approved = true → c.Approved)) ∧ c.Unenlisted)
      (answerAgent ext i approved protocolError) fun _ => Unenlisted := by
  unfold answerAgent
  split
  · exact .ret fun _ hc => hc.2
  · split
    next happ =>
      refine .bind (C := fun _ => Unenlisted) (.bind (clock_only).leaves fun _ =>
        client_note (fun _ => rfl) (fun _ => rfl) fun s hc => ?_) fun _ => .ret fun _ => id
      exact ⟨⟨rfl, rfl, rfl, hc.1.1, hc.1.2 happ⟩, hc.2⟩
    next => exact .ret fun _ hc => hc.2

theorem agentTouch_givesBack : GivesBack ext files hi (agentTouch ext i cmd) := by
  have hset : ClientTriple ext files hi (fun _ => True) (trySetPendingPam i .agent) fun b c =>
      True ∧ (b = true → c.Holds .agent) := trySetPendingPam_spec fun _ => id
  refine .bind ((hset.and trySetPendingPam_unlisted).pre fun c hc => ⟨trivial, hc⟩)
    fun registered => ?_
  cases registered with
  | false => exact .ret fun c hc => hc.2
  | true =>
    have hboth : ClientTriple ext files hi (fun c => c.Holds .agent ∧ c.Enlisted) (load (·.uiCancels))
        fun _ c => c.Holds .agent ∧ c.Enlisted := (load_only).leaves
    refine .bind (hboth.pre fun c hc => ⟨hc.1.2 rfl, hc.2⟩) fun subscribed => ?_
    refine .bind ((pushUi_modest).keeps (holds_steady.and enlisted_steady)) fun showing => ?_
    exact .bind ((raceAgent_spec).and raceAgent_givesBack) fun _ => answerAgent_givesBack

theorem handleAgentApprove_givesBack : GivesBack ext files hi (handleAgentApprove ext i cmd) := by
  refine .ite (.ret fun _ => id) ?_
  refine .bind (read_givesBack (fun _ => rfl) (fun _ => rfl) (fun _ => rfl) fun _ _ => rfl)
    fun connected => .ite (.ret fun _ => id) ?_
  exact .bind (read_givesBack (fun _ => rfl) (fun _ => rfl) (fun _ => rfl) fun _ _ => rfl)
    fun verified => .ite (.ret fun _ => id) agentTouch_givesBack

theorem otpWithSlot_givesBack {idx : UInt8} {busy : Str} :
    GivesBack ext files hi (otpWithSlot i idx busy) := by
  refine .bind trySetPendingPam_unlisted fun registered => ?_
  cases registered with
  | false => exact .ret fun _ => id
  | true => exact placeholder_givesBack otpGetInner_modest

theorem handleGetOtp_givesBack : GivesBack ext files hi (handleGetOtp i name) := by
  refine .bind (findKeyIndex_modest).givesBack fun idx => ?_
  cases idx with
  | none => exact .ret fun _ => id
  | some idx => exact otpWithSlot_givesBack

theorem handleGetApi_givesBack : GivesBack ext files hi (handleGetApi i name) := by
  refine .bind (findKeyIndex_modest).givesBack fun idx => ?_
  cases idx with
  | none => exact .ret fun _ => id
  | some idx =>
    refine .bind trySetPendingPam_unlisted fun registered => ?_
    cases registered with
    | false => exact .ret fun _ => id
    | true =>
      refine .bind (placeholder_givesBack bleSendFpGated_modest) fun answer => ?_
      cases answer with
      | ok _ => exact .ite (readApiEntry_modest).givesBack (.ret fun _ => id)
      | error _ => exact .ret fun _ => id

theorem handleGetKey_givesBack : GivesBack ext files hi (handleGetKey ext i after) := by
  unfold handleGetKey
  split
  · exact .ret fun _ => id
  · exact .ret fun _ => id
  · exact .bind (load_only).leaves fun _ => .ite (.ret fun _ => id) <|
      .ite (handleGetSsh_modest).givesBack <| .ite handleGetApi_givesBack <|
        .ite handleGetOtp_givesBack <| .ret fun _ => id

theorem otpCommand_givesBack : GivesBack ext files hi (otpCommand i idx) := by
  unfold otpCommand
  split
  · exact .ret fun _ => id
  · exact .bind otpWithSlot_givesBack fun _ => .ret fun _ => id

theorem keyOnDevice_givesBack {parts : List Str} :
    GivesBack ext files hi (keyOnDevice i parts) := by
  unfold keyOnDevice
  split
  · exact .ite (generateKey_modest).givesBack <| .ite (importKey_modest).givesBack <|
      .ite (importKey_modest).givesBack <| .ite otpCommand_givesBack <|
        .ite (importKey_modest).givesBack <| .ret fun _ => id
  · exact .ite (generateKey_modest).givesBack <| .ite (deleteKey_modest).givesBack <|
      .ite (importKey_modest).givesBack <| .ite (importKey_modest).givesBack <|
        .ite otpCommand_givesBack <| .ite (importKey_modest).givesBack <| .ret fun _ => id
  · exact .ret fun _ => id

theorem handleKeyCommand_givesBack : GivesBack ext files hi (handleKeyCommand ext i line) :=
  .ite (.ret fun _ => id) <| .ite (keyCacheJson_modest).givesBack <|
    .bind (load_only).leaves fun _ => .ite (.ret fun _ => id) <|
      .bind (load_only).leaves fun _ => .ite (.ret fun _ => id) keyOnDevice_givesBack

-- ---------------------------------------------------------------------------
-- Connections
-- ---------------------------------------------------------------------------

theorem runRequest_givesBack {peer : Peer} {request : Request} :
    GivesBack ext files hi (runRequest ext i peer request) := by
  cases request with
  | auth user service => exact handleAuth_givesBack
  | status => exact (handleStatus_modest).givesBack
  | fpList => exact (handleFpList_modest).givesBack
  | fpEnroll _ => exact (handleFpEnroll_modest).givesBack
  | fpEnrollCancel => exact (handleFpEnrollCancel_modest).givesBack
  | fpDelete _ => exact (handleFpDelete_modest).givesBack
  | fpVerify => exact (handleFpVerify_modest).givesBack
  | fpStatus => exact (handleFpStatus_modest).givesBack
  | gateCancel => exact (handleGateCancel_modest).givesBack
  | pairStatus | pairProgress => exact .bind (load_modest).givesBack fun _ => .ret fun _ => id
  | pairStart => exact (pairStart_modest).givesBack
  | slotStatus => exact (handleSlotStatus_modest).givesBack
  | slotClear _ => exact (handleSlotClear_modest).givesBack
  | factoryReset => exact (handleFactoryReset_modest).givesBack
  | setUnlockSudo _ | setUnlockPolkit _ | setUnlockScreen _ | setLockScreen _ =>
    dsimp only [runRequest]
    exact (handleSetSetting_modest).givesBack
  | setSshTakeover _ => exact (handleSetSshTakeover_modest).givesBack
  | getSettings => exact (handleGetSettings_modest).givesBack
  | getInfo => exact (handleGetInfo_modest).givesBack
  | fpLastMatch | otaStart _ _ | otaData _ | otaFinish => exact .ret fun _ => id

theorem dispatchRequest_givesBack {peer : Peer} {request : Request} :
    GivesBack ext files hi (dispatchRequest ext i peer request) := by
  refine .bind ((runRequest_spec.and runRequest_givesBack).pre fun c hc => ⟨trivial, hc⟩)
    fun response => .bind (C := fun _ => Unenlisted)
      (client_note (g := id) (fun _ => rfl) (fun _ => rfl) fun s hj => ⟨?_, hj.2⟩) fun _ =>
        .ret fun _ => id
  cases request with
  | auth user service =>
    cases response with
    | ok m => exact hj.1 user service rfl m rfl
    | _ => trivial
  | _ => trivial

theorem serveDispatch_givesBack {peer : Peer} {d : Dispatch} :
    GivesBack ext files hi (serveDispatch ext i peer line d) := by
  cases d with
  | sessionAgent => exact (serveSessionAgent_modest).givesBack
  | logStream => exact (serveLogStream_modest).givesBack
  | ota => exact (handleOtaSession_modest).givesBack
  | key => exact .bind handleKeyCommand_givesBack fun _ => (writeLineTo_modest).givesBack
  | agentApprove cmd =>
    exact .bind handleAgentApprove_givesBack fun _ => (writeLineTo_modest).givesBack
  | list cat =>
    exact .bind (handleListKeys_modest).givesBack fun _ => (writeBytes_modest).givesBack
  | get after => exact .bind handleGetKey_givesBack fun _ => (writeBytes_modest).givesBack
  | request r => exact .bind dispatchRequest_givesBack fun _ => (writeLineTo_modest).givesBack
  | unparsable e => exact (writeBytes_modest).givesBack

theorem serveConn_givesBack {conn : Conn} : GivesBack ext files hi (serveConn ext i conn) := by
  unfold serveConn
  split
  · refine .bind (clock_only).leaves fun now => .bind (readUntil_modest).givesBack fun read => ?_
    split
    · unfold serveChunk
      split
      · exact (writeLineTo_modest).givesBack
      · exact .bind (authorize_modest).givesBack fun _ =>
          .ite (writeLineTo_modest).givesBack serveDispatch_givesBack
    · exact .ret fun _ => id
  · exact (handleAgentClient_modest).givesBack
  · exact .ret fun _ => id
  · exact .ret fun _ => id

-- ---------------------------------------------------------------------------
-- Runs
-- ---------------------------------------------------------------------------

/-- Who is in the slot is a connection that has not cleaned up. -/
def View.Held (v : View) : Prop := ∀ i, v.pendingPam = some i → i ≠ 0 ∧ (v.client i).Enlisted

theorem View.held_step (h : v.Held) (ha : v.allowed ext e) : (v.step ext e).Held := by
  intro i hp
  by_cases hr : ∃ j entry, e = .registered j entry
  · obtain ⟨j, entry, rfl⟩ := hr
    obtain rfl : j = i := Option.some.inj hp
    refine ⟨ha.1, ?_⟩
    have hstep := @View.client_step ext v (.registered j entry) j ha.1
    have hown : (Ev.registered j entry).actor = some j := rfl
    rw [if_pos hown] at hstep
    exact congrArg ClientAux.registered hstep
  · have hr (j : TaskId) (entry : Entry) : e ≠ .registered j entry := fun he => hr ⟨j, entry, he⟩
    have hd (j : TaskId) (entry : Option TaskId) : e ≠ .denied j entry := by
      rintro rfl
      nomatch hp
    have hkept : v.pendingPam = some i := by
      obtain hsame | hnone := @View.pendingPam_step ext v e hr
      · exact hsame ▸ hp
      · nomatch hnone.symm.trans hp
    exact ⟨(h i hkept).1, (View.registered_step hr hd).trans (h i hkept).2⟩

theorem View.held {ok : View → Ev → Prop} (h : (machine ext files).Trace ok es v) : v.Held :=
  h.invariant (I := fun _ v => v.Held) (fun _ h => nomatch h) fun _ _ _ hi ha _ =>
    View.held_step hi ha

/-- The connection under a name, if it is one, has no entry to clean up after. -/
def Discharged (i : TaskId) (s : Daemon) : Prop := i ≠ 0 → (s.aux.client i).Unenlisted

theorem unlisted_stable : ((machine ext files).protocol observed).Stable i (Discharged i) := by
  by_cases hi : i = 0
  · exact fun _ _ _ _ _ h => absurd hi h
  · have howned := (clientPart ext files hi).owned (·.Unenlisted)
    exact fun s s' h hr hinv _ => howned.stable (O := observed) s s' (h hi) hr hinv

/-- Every connection is on its way to having cleaned up. -/
theorem bound (h : (system ext).Reach (start ext files) c) :
    ((machine ext files).protocol observed).Bound Discharged Discharged c := by
  refine (serves).sound.bound (fun _ => unlisted_stable) (fun i conn => ?_) start_safe
    (fun i => ?_) h
  · cases i with
    | zero => exact .ret unlisted_stable fun _ _ => id
    | succ i =>
      have hserve : GivesBack ext files i.succ_ne_zero (serveConn ext (i + 1) conn) :=
        serveConn_givesBack
      exact Protocol.Triple.conseq hserve (fun _ _ h => h i.succ_ne_zero) fun _ _ _ h _ => h
  · cases i with
    | zero =>
      exact Protocol.wp_mono (fun _ _ _ _ h => absurd rfl h) (start_safe.2 0 (run ext) rfl)
    | succ i => exact fun _ => rfl

/-- Who holds the slot of pending requests is a connection still at work. -/
theorem slot_holder_at_work (h : (system ext).Reach (start ext files) c)
    (hp : c.shared.coord.pendingPam = some i) : ∃ t, c.pool i = some t ∧ ∀ u, t ≠ .ret u := by
  obtain ⟨hi, hheld⟩ := View.held (reached h) i hp
  have hb := bound h i
  cases ht : c.pool i with
  | none =>
    rw [ht] at hb
    nomatch hheld.symm.trans (hb hi)
  | some t =>
    refine ⟨t, rfl, ?_⟩
    rintro u rfl
    have hended := (bound h).ended (reached h) ht
    nomatch hheld.symm.trans (hended hi)

/-- An `AUTH` that waits for its touch. -/
theorem slot_holder_sample : ∃ c, (system .sample).Reach (start .sample .sample) c ∧
    c.shared.coord.pendingPam = some 1 ∧ ∃ t, c.pool 1 = some t ∧ ∀ u, t ≠ .ret u := by
  obtain ⟨c, hr, hc⟩ := System.exists_run (system .sample) (fun _ _ => true)
    (start .sample .sample) asked (fun s => decide (s.coord.pendingPam = some 1)) (by decide +kernel)
  exact ⟨c, hr.reach, of_decide_eq_true hc, slot_holder_at_work hr.reach (of_decide_eq_true hc)⟩

end Immurok
