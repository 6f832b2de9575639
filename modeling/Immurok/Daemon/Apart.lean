import Immurok.Daemon.System

/-!
# Apart from the waits

Most of the code leaves the waits of the worker alone, and the account of its
commands: it does not touch the session's state, takes no frame and no
command, and sends no reply.
-/

namespace Immurok

open Async

/-- The event takes a command or replies to one. -/
def Ev.settles : Ev → Bool
  | .dequeued _ | .replied _ _ => true
  | _ => false

structure Daemon.Apart (s s' : Daemon) : Prop where
  ble : s'.ble = s.ble
  notifyRx : s'.link.notifyRx = s.link.notifyRx
  gateActive : s'.coord.gateActive = s.coord.gateActive
  log : s'.log = s.log ∨ ∃ e, s'.log = e :: s.log ∧ e.settles = false

/-- Every step of the code is apart from the waits. -/
abbrev Away (t : Code α) : Prop := Proc.Every Daemon.Apart t

variable {ext : Extern} {f : Frame} {s s' : Daemon} {i : TaskId} {α β : Type}

namespace Daemon.Apart

theorem refl (s : Daemon) : s.Apart s := ⟨rfl, rfl, rfl, .inl rfl⟩

theorem note {e : Ev} (he : e.settles = false) (h : s.Apart s') (hl : s'.log = s.log) :
    s.Apart (s'.note e) :=
  ⟨h.ble, h.notifyRx, h.gateActive, .inr ⟨e, congrArg (e :: ·) hl, he⟩⟩

theorem of_eq (h : s' = s) : s.Apart s' := h ▸ .refl s

end Daemon.Apart

theorem get_away {g : Daemon → α} : Away (Proc.get g) := Proc.Every.get .refl

theorem choose_away {as : List α} : Away (Proc.choose as : Code α) := Proc.Every.choose .refl

theorem load_away {g : Coordinator → α} : Away (load g) := get_away

theorem store_away {g : Coordinator → Coordinator}
    (h : ∀ c, (g c).gateActive = c.gateActive) : Away (store g) :=
  Proc.Every.modify fun s => ⟨rfl, rfl, h s.coord, .inl rfl⟩

theorem clock_away : Away clock := get_away

/-- A step that makes an event. -/
theorem event_away {g : Daemon → Daemon} {ev : Daemon → Ev}
    (h : ∀ s, s.Apart (g s) ∧ (g s).log = s.log ∧ (ev s).settles = false) :
    Away (Proc.modify fun s => (g s).note (ev s)) :=
  Proc.Every.modify fun s => .note (h s).2.2 (h s).1 (h s).2.1

theorem tryThen_away {t : Code (Except Str α)} {k : α → Code (Except Str β)} (ht : Away t)
    (hk : ∀ a, Away (k a)) : Away (tryThen t k) :=
  tryThen_all Proc.Every.closed ht hk

-- ---------------------------------------------------------------------------
-- Time and records
-- ---------------------------------------------------------------------------

theorem deadlineBranch_apart {t : Nat} {b a : β} (h : deadlineBranch t b s = some (a, s')) :
    s.Apart s' := by
  unfold deadlineBranch at h
  split at h
  · exact .of_eq (Prod.mk.inj (Option.some.inj h)).2.symm
  · cases h

theorem sleep_away {d : Nat} : Away (sleep d) :=
  .bind clock_away fun _ => .await fun s a s' h => by
    split at h
    · exact .of_eq (Prod.mk.inj (Option.some.inj h)).2.symm
    · cases h

theorem drawRandom_away : Away (drawRandom ext) := .atomically fun _ => ⟨rfl, rfl, rfl, .inl rfl⟩

theorem setPairProgress_away {p : PairProgress} : Away (setPairProgress p) :=
  store_away fun _ => rfl

theorem setPairing_away {p : Option PairingData} : Away (setPairing i p) :=
  event_away fun _ => ⟨⟨rfl, rfl, rfl, .inl rfl⟩, rfl, rfl⟩

theorem setVerified_away {b : Bool} : Away (setVerified i b) :=
  event_away fun _ => ⟨⟨rfl, rfl, rfl, .inl rfl⟩, rfl, rfl⟩

theorem setConnected_away : Away setConnected :=
  event_away fun _ => ⟨⟨rfl, rfl, rfl, .inl rfl⟩, rfl, rfl⟩

theorem pushUi_away {line : Str} : Away (pushUi line) :=
  .atomically fun s => by
    dsimp only
    split
    · exact .refl s
    · exact ⟨rfl, rfl, rfl, .inl rfl⟩

theorem setPreAuth_away {why : Aux → Arming} {duration : Nat} {services : List Str} :
    Away (setPreAuth ext i why duration services) :=
  .bind clock_away fun _ => event_away fun _ => ⟨⟨rfl, rfl, rfl, .inl rfl⟩, rfl, rfl⟩

-- ---------------------------------------------------------------------------
-- The helper
-- ---------------------------------------------------------------------------

theorem awaitHelper_away : Away awaitHelper := by
  refine .bind clock_away fun now => .select fun br hbr s a s' h => ?_
  obtain rfl | hbr := List.mem_cons.mp hbr
  · unfold replyLineBranch at h
    split at h
    · obtain ⟨-, rfl⟩ := Prod.mk.inj (Option.some.inj h)
      exact ⟨rfl, rfl, rfl, .inl rfl⟩
    · split at h
      · exact .of_eq (Prod.mk.inj (Option.some.inj h)).2.symm
      · cases h
  · obtain rfl := List.mem_singleton.mp hbr
    exact deadlineBranch_apart h

theorem waitWriteOk_away : Away waitWriteOk := by
  refine .bind awaitHelper_away fun reply => ?_
  cases reply with
  | line line =>
    refine .ite .ret ?_
    split <;> exact .ret
  | _ => exact .ret

theorem waitReadResponse_away : Away waitReadResponse := by
  refine .bind awaitHelper_away fun reply => ?_
  cases reply with
  | line line =>
    dsimp only
    split
    · exact .ret
    · split <;> exact .ret
  | _ => exact .ret

theorem writeLine_away {written : Daemon → Daemon} (h : ∀ s : Daemon, s.Apart (written s)) :
    Away (writeLine written) :=
  .act fun s a s' hm => by
    obtain hm | hm := List.mem_pair.mp hm
    · exact (Prod.mk.inj hm).2 ▸ h s
    · exact .of_eq (Prod.mk.inj hm).2

theorem cmdWrite_away {ev : Aux → Ev} (h : ∀ a, (ev a).settles = false) : Away (cmdWrite ev) :=
  tryThen_away (writeLine_away fun s => .note (h s.aux) (.refl s) rfl) fun _ => waitWriteOk_away

theorem otaCharWrite_away {data : Bytes} : Away (otaCharWrite data) :=
  tryThen_away (writeLine_away .refl) fun _ => waitWriteOk_away

theorem otaCharRead_away : Away otaCharRead :=
  tryThen_away (writeLine_away .refl) fun _ => waitReadResponse_away

theorem otaWriteAndReadInner_away {data : Bytes} {timeoutMs : Nat} :
    Away (otaWriteAndReadInner data timeoutMs) := by
  refine tryThen_away otaCharWrite_away fun _ => .bind clock_away fun start => .loop ?_
  refine .bind sleep_away fun _ => .bind clock_away fun now => .ite .ret ?_
  refine .bind otaCharRead_away fun r => ?_
  split <;> exact .ret

theorem sendAck_away : Away sendAck := .bind (cmdWrite_away fun _ => rfl) fun _ => .ret

theorem writeGateCancel_away : Away writeGateCancel :=
  .bind (cmdWrite_away fun _ => rfl) fun _ => .ret

theorem waitReady_away : Away waitReady := by
  refine .bind clock_away fun now => .select fun br hbr s a s' h => ?_
  simp only [List.mem_cons, List.not_mem_nil, or_false] at hbr
  obtain rfl | rfl | rfl := hbr
  · dsimp only at h
    split at h
    · exact .of_eq (Prod.mk.inj (Option.some.inj h)).2.symm
    · cases h
  · dsimp only at h
    split at h
    · exact .of_eq (Prod.mk.inj (Option.some.inj h)).2.symm
    · cases h
  · exact deadlineBranch_apart h

-- ---------------------------------------------------------------------------
-- Notifications
-- ---------------------------------------------------------------------------

theorem targetSession_away : Away (targetSession ext) := by
  refine .bind get_away fun owner => ?_
  cases owner with
  | none => exact .ret
  | some uid => exact choose_away

theorem unlockScreen_away : Away (unlockScreen ext) := by
  refine .bind targetSession_away fun session => ?_
  cases session with
  | none => exact .ret
  | some session =>
    refine .bind choose_away fun _ => .when (.bind (event_away ?_) fun _ => setPreAuth_away)
    exact fun _ => ⟨⟨rfl, rfl, rfl, .inl rfl⟩, rfl, rfl⟩

theorem lockScreen_away : Away (lockScreen ext) := by
  refine .bind targetSession_away fun session => ?_
  cases session with
  | none => exact .ret
  | some _ => exact .bind choose_away fun _ => .ret

theorem setLastAuthFlow_away : Away setLastAuthFlow :=
  .bind clock_away fun _ => store_away fun _ => rfl

theorem loadScreenLocked_away : Away loadScreenLocked :=
  .atomically fun s => .note rfl (.refl s) rfl

theorem approvePendingPam_away : Away (approvePendingPam f) :=
  .atomically fun s => by
    split
    · exact .refl s
    · exact .note rfl ⟨rfl, rfl, rfl, .inl rfl⟩ rfl

theorem onFpMatch_away : Away (onFpMatch ext f) := by
  refine .bind approvePendingPam_away fun approved => .ite ?_ ?_
  · exact .bind setLastAuthFlow_away fun _ => .bind loadScreenLocked_away fun _ =>
      .when setPreAuth_away
  · exact .bind load_away fun _ => .bind load_away fun _ =>
      .when (.bind setLastAuthFlow_away fun _ => unlockScreen_away)

theorem loadPairing_away : Away loadPairing := .atomically fun s => .note rfl (.refl s) rfl

theorem handleFpMatchSigned_away : Away (handleFpMatchSigned ext f) := by
  refine .bind get_away fun _ => .ite sendAck_away (.bind loadPairing_away fun pairing => ?_)
  cases pairing with
  | none => exact .ret
  | some p =>
    refine .ite .ret (.bind (event_away ?_) fun _ => .bind sendAck_away fun _ => ?_)
    · exact fun _ => ⟨⟨rfl, rfl, rfl, .inl rfl⟩, rfl, rfl⟩
    · exact .bind get_away fun _ => .when onFpMatch_away

theorem handleLockRequest_away : Away (handleLockRequest ext) := by
  refine .bind load_away fun _ => .when <| .bind load_away fun _ => .when <| .bind load_away fun _ =>
    .bind clock_away fun _ => .when (.bind (event_away ?_) fun _ => lockScreen_away)
  exact fun _ => ⟨⟨rfl, rfl, rfl, .inl rfl⟩, rfl, rfl⟩

theorem routeEnroll_away {status current total : UInt8} :
    Away (routeEnroll status current total) :=
  .bind (.when (store_away fun _ => rfl)) fun _ => store_away fun _ => rfl

-- ---------------------------------------------------------------------------
-- Sessions
-- ---------------------------------------------------------------------------

theorem establishPairing_away {devicePubkey sharedKey : Bytes} :
    Away (establishPairing devicePubkey sharedKey) := by
  refine .bind clock_away fun now => .bind setPairing_away fun _ => .bind choose_away fun saved => ?_
  refine .bind (.when (.modify fun _ => ⟨rfl, rfl, rfl, .inl rfl⟩)) fun _ => ?_
  exact .bind (store_away fun _ => rfl) fun _ => setVerified_away

theorem markVerified_away : Away markVerified :=
  .bind setVerified_away fun _ => store_away fun _ => rfl

theorem reportUnpaired_away {b : Bool} : Away (reportUnpaired b) :=
  .bind (store_away fun _ => rfl) fun _ => .when (.bind pushUi_away fun _ => .ret)

theorem saveFile_away {tmp : Str} {g : Files → Files} : Away (keyIo.saveFile tmp g) :=
  .act fun s a s' hm => by
    obtain hm | hm := List.mem_pair.mp hm
    · exact (Prod.mk.inj hm).2 ▸ ⟨rfl, rfl, rfl, .inl rfl⟩
    · exact .of_eq (Prod.mk.inj hm).2

theorem closeSession_away : Away closeSession := by
  refine .bind (event_away ?_) fun _ => .bind setVerified_away fun _ => ?_
  · exact fun _ => ⟨⟨rfl, rfl, rfl, .inl rfl⟩, rfl, rfl⟩
  · exact .bind (store_away fun _ => rfl) fun _ => store_away fun _ => rfl

end Immurok
