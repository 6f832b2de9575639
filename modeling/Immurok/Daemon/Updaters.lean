import Immurok.Daemon.InOrder
import Immurok.Daemon.Transfer

/-!
# Updaters side by side

An update is a run of commands on one connection, from `OTA:ERASE` to
`OTA:END`. Nothing keeps another connection from queueing commands for the OTA
characteristic in between, and the worker takes them in their order.
-/

namespace Immurok

open Async Machine

variable {ext : Extern} {files : Files} {c : Config Daemon} {i : TaskId} {log : List Ev}

/-- The command writes to the OTA characteristic. -/
def BleCommand.writesOta : BleCommand → Bool
  | .otaWriteRead _ _ | .otaWrite _ => true
  | _ => false

-- ---------------------------------------------------------------------------
-- Transfers
-- ---------------------------------------------------------------------------

def otaEndFrame : Bytes := [0x83, 0x02, 0x00, 0x00]

/-- The answer to `OTA:END`. -/
def endReport : Except Str Bytes → Str
  | .ok (0xF1 :: _) => "ERROR:SHA256_MISMATCH"
  | .ok (0xF2 :: _) => "ERROR:HMAC_MISMATCH"
  | _ => "OK"

theorem handleOtaEnd_eq : handleOtaEnd i = whenConnected
    ((otaWriteAndRead i otaEndFrame otaCmdTimeoutMs).bind fun answer => .ret (endReport answer)) := by
  unfold handleOtaEnd
  refine congrArg (fun k => whenConnected ((otaWriteAndRead i otaEndFrame otaCmdTimeoutMs).bind k)) ?_
  funext answer
  unfold endReport
  split
  · rfl
  · rfl
  next h₁ h₂ =>
    first
    | rfl
    | split
      next rest => exact absurd rfl (h₁ rest)
      next rest => exact absurd rfl (h₂ rest)
      · rfl

/-- A transfer is told by its connection and by the requests of its `OTA:ERASE`
and its `OTA:END`. -/
structure Transfer where
  conn : TaskId
  erase : ReplyId
  fin : ReplyId

def Transfer.first (t : Transfer) : Job := ⟨t.erase, .otaWriteRead eraseFrame otaEraseTimeoutMs⟩

def Transfer.last (t : Transfer) : Job := ⟨t.fin, .otaWriteRead otaEndFrame otaCmdTimeoutMs⟩

/-- The transfer has come to its end and reports success. -/
structure Transfer.Succeeds (t : Transfer) (log : List Ev) : Prop where
  order : [.queued t.conn t.fin t.last.cmd, .queued t.conn t.erase t.first.cmd].Sublist log
  reported : ∃ reply, .gotReply t.conn t.fin reply ∈ log ∧
    endReport (Reply.toBytes (some reply)) = "OK".toList

/-- What the worker takes to the OTA characteristic from the erase to the end
comes from the transfer's connection. -/
def Transfer.Alone (t : Transfer) (log : List Ev) : Prop :=
  ∀ k j, .queued k j.reply j.cmd ∈ log → j.cmd.writesOta = true →
    Between log (.dequeued t.first) (.dequeued t.last) (.dequeued j) → k = t.conn

/-- No other connection queues a command for the OTA characteristic between the
transfer's own. -/
def Transfer.Undisturbed (t : Transfer) (log : List Ev) : Prop :=
  ∀ k r cmd, cmd.writesOta = true →
    Between log (.queued t.conn t.erase t.first.cmd) (.queued t.conn t.fin t.last.cmd)
      (.queued k r cmd) → k = t.conn

-- ---------------------------------------------------------------------------
-- The order of the queue
-- ---------------------------------------------------------------------------

theorem Transfer.Succeeds.taken {t : Transfer} (h : (system ext).Reach (start ext files) c)
    (ht : t.Succeeds c.shared.log) : t.last ∈ jobsTaken c.shared.log := by
  obtain ⟨reply, hgot, -⟩ := ht.reported
  obtain ⟨j, hj, hr⟩ := taken_of_gotReply (reached h) hgot
  have hlast : (t.conn, t.last) ∈ requests c.shared.log :=
    mem_requests.mpr (ht.order.subset List.mem_cons_self)
  have hmem : j ∈ (requests c.shared.log).map Prod.snd := by
    rw [View.inOrder (reached h)]
    exact List.mem_append_right _ hj
  obtain ⟨p, hp, rfl⟩ := List.mem_map.mp hmem
  rwa [request_unique h hp hlast hr] at hj

/-- The device is one updater's from the erase to the end if and only if the
others queue nothing for it meanwhile. -/
theorem transfer_alone_iff {t : Transfer} (h : (system ext).Reach (start ext files) c)
    (ht : t.Succeeds c.shared.log) : t.Alone c.shared.log ↔ t.Undisturbed c.shared.log := by
  have htaken := ht.taken h
  constructor
  · intro ha k r cmd hw hb
    have hs : [(t.conn, t.last), (k, ⟨r, cmd⟩), (t.conn, t.first)].Sublist
        (requests c.shared.log) := queued_sublist.mp hb
    refine ha k ⟨r, cmd⟩ (hb.subset (by simp)) hw ?_
    have hj : [t.last, ⟨r, cmd⟩, t.first].Sublist ((requests c.shared.log).map Prod.snd) :=
      hs.map Prod.snd
    exact (dequeued_iff h htaken).mpr hj
  · intro hu k j hq hw hb
    have hs : [t.last, j, t.first].Sublist ((requests c.shared.log).map Prod.snd) :=
      (dequeued_iff h htaken).mp hb
    have hps : ∀ p ∈ [(t.conn, t.last), (k, j), (t.conn, t.first)],
        p ∈ requests c.shared.log := by
      simp only [List.forall_mem_cons, mem_requests]
      exact ⟨ht.order.subset List.mem_cons_self, hq,
        ht.order.subset (List.mem_cons_of_mem _ List.mem_cons_self), nofun⟩
    exact hu k j.reply j.cmd hw (queued_sublist.mpr (requests_sublist h hps hs))

-- ---------------------------------------------------------------------------
-- Runs
-- ---------------------------------------------------------------------------

/-- The worker writes the frame of the next command, and the device answers
with 0 when it is asked. -/
def otaServed : List (Event Env Conn) :=
  go 0 3 ++ confirm :: go 0 4 ++ .env (.tick otaReadPollInterval) :: go 0 4 ++
    .env (.replyLine "READ_OK:00") :: go 0 4

def sampleTransfer (fin : ReplyId) : Transfer := { conn := 1, erase := 0, fin }

/-- The events that make the transfer succeed. -/
def succeeds (t : Transfer) (log : List Ev) : Bool :=
  decide ([.queued t.conn t.fin t.last.cmd, .queued t.conn t.erase t.first.cmd].Sublist log) &&
    decide (.gotReply t.conn t.fin (.bytes (.ok [0x00])) ∈ log)

theorem succeeds_spec {t : Transfer} (h : succeeds t log = true) : t.Succeeds log := by
  obtain ⟨ho, hr⟩ := Bool.and_eq_true_iff.mp h
  exact ⟨of_decide_eq_true ho, _, of_decide_eq_true hr, rfl⟩

/-- From the first line of a connection to its `OTA:END`. -/
def eraseThenEnd (between : List (Event Env Conn)) : List (Event Env Conn) :=
  session ++ ask 1 "OTA:ERASE" ++ go 1 2 ++ between ++ otaServed ++ go 1 3 ++
    .env (.socketData 1 (utf8 "OTA:END\n".toList)) :: go 1 4

theorem transfer_alone_sample : ∃ c, (system .sample).Reach (start .sample .sample) c ∧
    (sampleTransfer 1).Succeeds c.shared.log ∧ (sampleTransfer 1).Alone c.shared.log := by
  obtain ⟨c, hr, hc⟩ := System.exists_run (system .sample) (fun _ _ => true)
    (start .sample .sample) (eraseThenEnd [] ++ otaServed ++ go 1 1)
    (fun s => succeeds (sampleTransfer 1) s.log &&
      (requests s.log).all fun p => p.1 == 1) (by decide +kernel)
  obtain ⟨hs, hall⟩ := Bool.and_eq_true_iff.mp hc
  refine ⟨c, hr.reach, succeeds_spec hs,
    (transfer_alone_iff hr.reach (succeeds_spec hs)).mpr fun k r cmd _ hb => ?_⟩
  have hm : (k, ⟨r, cmd⟩) ∈ requests c.shared.log := mem_requests.mpr (hb.subset (by simp [queuedBy]))
  exact eq_of_beq (List.all_eq_true.mp hall _ hm)

/-- Another connection's `OTA:ERASE` is taken in between. -/
theorem updaters_mixed : ∃ c, (system .sample).Reach (start .sample .sample) c ∧
    ∃ t : Transfer, t.Succeeds c.shared.log ∧ ¬ t.Alone c.shared.log := by
  obtain ⟨c, hr, hc⟩ := System.exists_run (system .sample) (fun _ _ => true)
    (start .sample .sample)
    (eraseThenEnd (ask 2 "OTA:ERASE" ++ go 2 2) ++ otaServed ++ otaServed ++ go 1 1)
    (fun s => let t := sampleTransfer 2
      let other : Job := ⟨1, t.first.cmd⟩
      succeeds t s.log && decide (.queued 2 other.reply other.cmd ∈ s.log) &&
        decide (Between s.log (.dequeued t.first) (.dequeued t.last) (.dequeued other)))
    (by decide +kernel)
  rw [Bool.and_eq_true, Bool.and_eq_true] at hc
  refine ⟨c, hr.reach, sampleTransfer 2, succeeds_spec hc.1.1, fun ha => ?_⟩
  exact absurd (ha 2 ⟨1, _⟩ (of_decide_eq_true hc.1.2) rfl (of_decide_eq_true hc.2)) (by decide)

end Immurok
