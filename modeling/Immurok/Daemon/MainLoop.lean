import Immurok.Daemon.Waits

/-!
# The main loop

Commands are taken one at a time, and each is replied to before the next.
Between them nothing is open.
-/

namespace Immurok

open Async

variable {ext : Extern} {l : Ledger} {s s' : Daemon} {n : Nat} {α : Type}

-- ---------------------------------------------------------------------------
-- Commands
-- ---------------------------------------------------------------------------

/-- The reply that is owed is sent, and no other. -/
theorem replyTo_works {r : ReplyId} {reply : Reply} :
    Works (Desk.At .rest ⟨n, some r⟩) (replyTo r reply) fun _ => Desk.At .rest ⟨n, none⟩ :=
  desk_modify fun s h => by
    have hl : Ledger.of (.replied r reply :: s.log) = some ⟨n, none⟩ := by
      have hl : Ledger.of s.log = some ⟨n, some r⟩ := h.ledger
      simp [Ledger.of, hl]
    have hr : Desk.At .rest ⟨n, none⟩ { s.desk with ledger := Ledger.of (.replied r reply :: s.log) } :=
      { h with ledger := hl, counts := h.counts }
    exact ⟨hr.taken.trans h.taken.symm, hr.sane, hr⟩

theorem abortPending_minds : Minds (Desk.At .rest l) abortPending :=
  desk_move _ fun _ h => Desk.In.rest { h with
    gate := by
      rintro (ho | ho)
      · cases ho
      · cases Oneshot.send_tx.symm.trans ho
    auth := by
      rintro (ho | ho)
      · cases ho
      · cases Oneshot.send_tx.symm.trans ho
    button := by
      rintro (ho | ho)
      · cases ho
      · cases Oneshot.send_tx.symm.trans ho } h.ledger

theorem keyIo_minds : (keyIo ext).All fun t => Minds (Desk.At .rest l) t where
  send _ _ := sendCommandInner_minds
  loadDigests := (get_away).minds
  saveDigests digests := (saveFile_away (g := fun c => { c with digests })).minds
  saveSshKeys sshKeys := (saveFile_away (g := fun c => { c with sshKeys })).minds
  loadKeyNames := (get_away).minds
  saveKeyNames keyNames := (saveFile_away (g := fun c => { c with keyNames })).minds

/-- A command that is owed a reply gets it. -/
theorem handleBleCommand_works {j : Job} :
    Works (Desk.At .rest ⟨n, j.owes⟩) (handleBleCommand ext j) fun _ =>
      Desk.At .rest ⟨n, none⟩ := by
  have owes (h : j.cmd.hasReply = true) : j.owes = some j.reply := by simp [Job.owes, h]
  unfold handleBleCommand
  split
  next cmd payload hc =>
    rw [owes (by simp [hc, BleCommand.hasReply])]
    exact .bind sendCommandInner_minds fun result => replyTo_works
  next cmd payload hc =>
    rw [owes (by simp [hc, BleCommand.hasReply])]
    exact .bind sendFpGatedInner_minds fun result => replyTo_works
  next hc =>
    rw [owes (by simp [hc, BleCommand.hasReply])]
    exact .bind doPair_minds fun result => .bind (setPairProgress_away).minds fun _ => replyTo_works
  next hc =>
    rw [owes (by simp [hc, BleCommand.hasReply])]
    exact .bind doAuthRequest_minds fun result => replyTo_works
  next data timeoutMs hc =>
    rw [owes (by simp [hc, BleCommand.hasReply])]
    exact .bind (otaWriteAndReadInner_away).minds fun result => replyTo_works
  next data hc =>
    rw [owes (by simp [hc, BleCommand.hasReply])]
    exact .bind (otaCharWrite_away).minds fun result => replyTo_works
  next hc =>
    rw [owes (by simp [hc, BleCommand.hasReply])]
    exact .bind (syncSshKeys_all minds_closed keyIo_minds) fun result => replyTo_works
  next hc =>
    rw [show j.owes = none by simp [Job.owes, hc, BleCommand.hasReply]]
    exact abortPending_minds

-- ---------------------------------------------------------------------------
-- Sessions
-- ---------------------------------------------------------------------------

theorem queryStatus_minds : Minds (Desk.At .rest l) (queryStatus ext) := by
  refine .bind sendCommandInner_minds fun r => ?_
  cases r with
  | error e => exact .ret fun _ => id
  | ok rsp =>
    refine .ite (fun _ => .ret fun _ => id) fun _ => .bind (store_away ?_).minds fun _ => .ret fun _ => id
    exact fun _ => rfl

theorem challenge_minds {key : Bytes} {reportedPaired : Option Bool} :
    Minds (Desk.At .rest l) (challenge ext key reportedPaired) := by
  have verified : Minds (Desk.At .rest l)
      (do markVerified; pure (.ok ()) : Code (Except Str Unit)) :=
    .bind (markVerified_away).minds fun _ => .ret fun _ => id
  have assumed : Minds (Desk.At .rest l)
      (do setVerified 0 true; pure (.ok ()) : Code (Except Str Unit)) :=
    .bind (setVerified_away).minds fun _ => .ret fun _ => id
  refine .bind (drawRandom_away).minds fun nonce => .bind sendCommandInner_minds fun r => ?_
  cases r with
  | error e => exact .ite (fun _ => assumed) fun _ => .ret fun _ => id
  | ok rsp =>
    refine .ite (fun _ => .ite (fun _ => verified) fun _ => .ret fun _ => id) fun _ => ?_
    refine .bind (drawRandom_away).minds fun nonce2 => .bind sendCommandInner_minds fun rsp2 => ?_
    exact .ite (fun _ => .ite (fun _ => verified) fun _ => .ret fun _ => id) fun _ => assumed

theorem verifyDevice_minds {reportedPaired : Option Bool} :
    Minds (Desk.At .rest l) (verifyDevice ext reportedPaired) := by
  refine .bind (load_away).minds fun pairing => ?_
  cases pairing with
  | some p => exact challenge_minds
  | none => exact .bind (setVerified_away).minds fun _ => .ret fun _ => id

theorem openSession_minds : Minds (Desk.At .rest l) (openSession ext) := by
  refine .bind queryStatus_minds fun reportedPaired => .bind (load_away).minds fun paired => ?_
  refine .bind (reportUnpaired_away).minds fun _ => tryThen_all minds_closed
    (.ite (fun _ => .ret fun _ => id) fun _ => verifyDevice_minds) fun _ => ?_
  refine .bind (.bind (load_away).minds fun verified => minds_closed.when ?_) fun _ =>
    .ret fun _ => id
  exact .bind (syncSshKeys_all minds_closed keyIo_minds) fun _ => .ret fun _ => id

/-- What keeps the desk at rest with any account. -/
theorem minds_rest {t : Code α} (h : ∀ n, Minds (Desk.At .rest ⟨n, none⟩) t) :
    Minds Desk.Rest t :=
  fun s hi ⟨n, ha⟩ => Protocol.wp_mono (fun _ _ _ hb => ⟨n, hb⟩) (h n s hi ha)

theorem Desk.Rest.sane {d : Desk} (h : d.Rest) : d.Sane := by
  obtain ⟨n, h⟩ := h
  exact h.sane

/-- What a round of the main loop goes on with: a command in hand, or nothing. -/
def Desk.Serves : Serve → Desk → Prop
  | .command j, d => ∃ n, d.At .rest ⟨n, j.owes⟩
  | _, d => d.Rest

/-- A command is taken at rest. -/
theorem commandBranch_works {a : Serve} (h : s.desk.Rest) (hs : commandBranch s = some (a, s')) :
    s'.desk.Sane ∧ s'.desk.Serves a := by
  obtain ⟨n, h⟩ := h
  unfold commandBranch at hs
  split at hs
  next => cases hs
  next j queue _ =>
    obtain ⟨rfl, rfl⟩ := Prod.mk.inj (Option.some.inj hs)
    have hl : Ledger.of (.dequeued j :: s.log) = some ⟨n + 1, j.owes⟩ := by
      have hl : Ledger.of s.log = some ⟨n, none⟩ := h.ledger
      simp [Ledger.of, hl]
    have hr : Desk.At .rest ⟨n + 1, j.owes⟩
        { s.desk with ledger := Ledger.of (.dequeued j :: s.log) } :=
      { h with ledger := hl, counts := h.counts }
    exact ⟨hr.sane, n + 1, hr⟩

theorem serveLoop_minds : Minds Desk.Rest (serveLoop ext) := by
  refine .loop (.bind (M := Desk.Serves) (.act fun s a s' hi h hm => ?_) fun a => ?_)
  · obtain ⟨br, hbr, hs⟩ := List.mem_filterMap.mp hm
    replace h : s.desk.Rest := h
    refine ⟨⟨fun hn => absurd rfl hn, fun _ => h⟩, ?_⟩
    simp only [List.mem_cons, List.not_mem_nil, or_false] at hbr
    obtain rfl | rfl | rfl := hbr
    · obtain ⟨⟨f, rfl⟩, hd⟩ := notifyBranch_desk hs
      have h' : s'.desk.Rest := hd ▸ h
      exact ⟨h'.sane, h'⟩
    · exact commandBranch_works h hs
    · unfold disconnectBranch at hs
      split at hs
      · obtain ⟨rfl, rfl⟩ := Prod.mk.inj (Option.some.inj hs)
        exact ⟨h.sane, h⟩
      · cases hs
  · cases a with
    | frame f =>
      exact .bind (minds_rest fun n => routeNotification_minds) fun _ => .ret fun _ => id
    | command j =>
      have served : Works (Desk.Serves (.command j)) (handleBleCommand ext j) fun _ => Desk.Rest :=
        fun s hi ⟨n, h⟩ =>
          Protocol.wp_mono (fun _ _ _ hb => ⟨n, hb⟩) (handleBleCommand_works s hi h)
      refine .bind served fun _ => .bind (event_away ?_).minds fun _ => .ret fun _ => id
      exact fun _ => ⟨⟨rfl, rfl, rfl, .inl rfl⟩, rfl, rfl⟩
    | disconnected =>
      exact .bind (minds_rest fun n => abortPending_minds) fun _ => .ret fun _ => id

theorem connectAndServe_minds : Minds Desk.Rest (connectAndServe ext) := by
  refine .bind (choose_away).minds fun started => .ite (fun _ => .ret fun _ => id) fun _ => ?_
  refine .bind (desk_modify (B := Desk.Rest) fun s h => ⟨rfl, h.sane, h⟩) fun _ => ?_
  refine .bind (waitReady_away).minds fun r => ?_
  cases r with
  | error e => exact .ret fun _ => id
  | ok u =>
    refine .bind (setConnected_away).minds fun _ => .bind (setVerified_away).minds fun _ => ?_
    refine .bind (store_away ?_).minds fun _ => .bind (minds_rest fun n => desk_move _ fun _ h => ?_)
      fun _ => ?_
    · exact fun _ => rfl
    · exact Desk.In.rest { h with
        gate := nofun
        auth := nofun
        button := nofun
        pairGate := nofun
        failures := UInt8.le_of_lt noFailure
        response := nofun } h.ledger
    refine .bind (minds_rest fun n => openSession_minds) fun r => ?_
    cases r with
    | error e => exact .ret fun _ => id
    | ok u =>
      refine .bind (event_away ?_).minds fun _ => serveLoop_minds
      exact fun _ => ⟨⟨rfl, rfl, rfl, .inl rfl⟩, rfl, rfl⟩

theorem run_minds : Works Desk.Rest (run ext) fun _ _ => True := by
  refine .post (minds_closed.repeatFrom fun backoff => ?_) fun _ _ _ => trivial
  refine .bind (clock_away).minds fun started => .bind connectAndServe_minds fun _ => ?_
  refine .bind (closeSession_away).minds fun _ => .bind (clock_away).minds fun ended => ?_
  exact .bind (sleep_away).minds fun _ => .bind (choose_away).minds fun _ => .ret fun _ => id

end Immurok
