import Immurok.Async.Aspect
import Immurok.Daemon.Apart
import Immurok.Daemon.Worker

/-!
# What the worker has open

The flags and channels of the waits that share the state of a session, and
the account of the commands taken from the queue and replied to. Only the
worker changes them. A wait opens some of them and closes them on every way
out.
-/

namespace Immurok

open Async

-- ---------------------------------------------------------------------------
-- Commands and replies
-- ---------------------------------------------------------------------------

/-- Every command but one carries the sender of its reply. -/
def BleCommand.hasReply : BleCommand → Bool
  | .disconnect => false
  | _ => true

/-- The reply that a command taken from the queue is owed. -/
def Job.owes (j : Job) : Option ReplyId := if j.cmd.hasReply then some j.reply else none

/-- How many commands were taken, and the reply that is still owed. -/
structure Ledger where
  taken : Nat
  owed : Option ReplyId
  deriving DecidableEq

/-- The account of a history: `none` once a command was taken while a reply
was owed, or a reply sent that was not. -/
def Ledger.of : List Ev → Option Ledger
  | [] => some ⟨0, none⟩
  | .dequeued j :: es =>
    (Ledger.of es).bind fun l => if l.owed = none then some ⟨l.taken + 1, j.owes⟩ else none
  | .replied r _ :: es =>
    (Ledger.of es).bind fun l => if l.owed = some r then some ⟨l.taken, none⟩ else none
  | _ :: es => Ledger.of es

-- ---------------------------------------------------------------------------
-- Waits
-- ---------------------------------------------------------------------------

structure Desk where
  ble : BleState
  gateActive : Bool
  ledger : Option Ledger

def Daemon.desk (s : Daemon) : Desk := ⟨s.ble, s.coord.gateActive, Ledger.of s.log⟩

/-- The waits that frames are routed to, or none of them. -/
inductive Wait
  | rest
  | gate
  | auth
  | button
  | pairGate
  deriving DecidableEq

namespace Desk

/-- Nothing is open but what the wait `w` opens. -/
structure In (w : Wait) (d : Desk) : Prop where
  gate : d.ble.gatePending = true ∨ d.ble.gate.tx = true → w = .gate
  auth : d.ble.authPending = true ∨ d.ble.auth.tx = true → w = .auth
  button : d.ble.pairButtonPending = true ∨ d.ble.pairButton.tx = true → w = .button
  pairGate : d.ble.pairFpGate = true → w = .pairGate
  active : d.gateActive = true → w = .gate
  failures : d.ble.authFailures ≤ fpGateMaxFailures
  response : d.ble.response.value ≠ some []

/-- Where a mismatch counts, one more is allowed. -/
def Counts (w : Wait) (d : Desk) : Prop :=
  d.ble.gatePending = true ∨ d.ble.authPending = true ∨ w = .pairGate →
    d.ble.authFailures < fpGateMaxFailures

/-- The wait `w`, with this account. -/
structure At (w : Wait) (l : Ledger) (d : Desk) : Prop extends In w d where
  counts : d.Counts w
  ledger : d.ledger = some l

/-- At any time. -/
def Sane (d : Desk) : Prop := (∃ w, d.In w) ∧ d.ledger.isSome

/-- Between two commands. -/
def Rest (d : Desk) : Prop := ∃ n, d.At .rest ⟨n, none⟩

def taken (d : Desk) : Option Nat := d.ledger.map Ledger.taken

variable {w : Wait} {l : Ledger} {d : Desk}

theorem At.sane (h : d.At w l) : d.Sane := ⟨⟨w, h.toIn⟩, by rw [h.ledger]; rfl⟩

theorem At.taken (h : d.At w l) : d.taken = some l.taken := by
  rw [Desk.taken, h.ledger]
  rfl

end Desk

-- ---------------------------------------------------------------------------
-- Who changes what
-- ---------------------------------------------------------------------------

/-- Only the worker changes its desk, and it takes a command at rest. -/
def deskwork : Protocol Daemon where
  inv s := s.desk.Sane
  rely i s s' := i = 0 → s'.desk = s.desk
  guar i s s' := (i ≠ 0 → s'.desk = s.desk) ∧ (s'.desk.taken ≠ s.desk.taken → s.desk.Rest)
  rely_refl _ _ _ := rfl
  rely_trans _ _ _ _ h h' hi := (h' hi).trans (h hi)

def worker : Aspect deskwork 0 Desk := ⟨Daemon.desk, fun _ _ h => h rfl⟩

/-- The code goes from `A` to `B`. -/
abbrev Works (A : Desk → Prop) (t : Code α) (B : α → Desk → Prop) : Prop := worker.Triple A t B

abbrev Minds (A : Desk → Prop) (t : Code α) : Prop := Works A t fun _ => A

variable {ext : Extern} {w w' : Wait} {l : Ledger} {f : Frame} {s s' : Daemon} {α β : Type}
  {A A' : Desk → Prop} {B : α → Desk → Prop}

theorem deskwork_refl {i : TaskId} (s : Daemon) : deskwork.guar i s s :=
  ⟨fun _ => rfl, fun h => absurd rfl h⟩

theorem deskwork_guar (h : s'.desk.taken = s.desk.taken) : deskwork.guar 0 s s' :=
  ⟨fun h => absurd rfl h, fun ht => absurd h ht⟩

theorem minds_closed : Proc.Closed fun t => Minds A t where
  ret := .ret fun _ => id
  bind := .bind
  repeatFrom h := .repeatFrom (J := fun _ => A) fun j => (h j).post fun r _ ha => by
    cases r <;> exact ha

/-- A step that takes no command. -/
theorem desk_act {g : Daemon → List (α × Daemon)}
    (h : ∀ s a s', A s.desk → (a, s') ∈ g s →
      s'.desk.taken = s.desk.taken ∧ s'.desk.Sane ∧ B a s'.desk) : Works A (.act g .ret) B :=
  Aspect.Triple.act fun s a s' _ ha hm =>
    have ⟨hl, hs, hb⟩ := h s a s' ha hm
    ⟨deskwork_guar hl, hs, hb⟩

theorem desk_modify {g : Daemon → Daemon} {B : Desk → Prop}
    (h : ∀ s, A s.desk → (g s).desk.taken = s.desk.taken ∧ (g s).desk.Sane ∧ B (g s).desk) :
    Works A (Proc.modify g) fun _ => B :=
  desk_act fun s _ s' ha hm => by
    obtain ⟨-, rfl⟩ := Prod.mk.inj (List.mem_singleton.mp hm)
    exact h s ha

theorem desk_get {g : Daemon → α} (h : ∀ s, A s.desk → B (g s) s.desk) : Works A (Proc.get g) B :=
  Aspect.Triple.get deskwork_refl h

/-- From wait to wait with the same account. -/
theorem desk_move {g : Daemon → Daemon} (w' : Wait)
    (h : ∀ s, s.desk.At w l → (g s).desk.At w' l) :
    Works (Desk.At w l) (Proc.modify g) fun _ => Desk.At w' l :=
  desk_modify fun s ha => ⟨(h s ha).taken.trans ha.taken.symm, (h s ha).sane, h s ha⟩

theorem Ledger.of_cons {e : Ev} {es : List Ev} (he : e.settles = false) :
    Ledger.of (e :: es) = Ledger.of es := by
  cases e with
  | dequeued j => cases he
  | replied r reply => cases he
  | _ => rfl

theorem Daemon.Apart.desk (h : s.Apart s') : s'.desk = s.desk := by
  have hl : Ledger.of s'.log = Ledger.of s.log := by
    obtain hl | ⟨e, hl, he⟩ := h.log
    · rw [hl]
    · rw [hl, Ledger.of_cons he]
  simp only [Daemon.desk, h.ble, h.gateActive, hl]

/-- What is apart from the waits leaves the desk as it is. -/
theorem Away.minds {t : Code α} (h : Away t) : Minds A t :=
  .of_every h fun s s' hi ha => by
    have hd : s'.desk = s.desk := ha.desk
    exact ⟨deskwork_guar (congrArg Desk.taken hd), show s'.desk.Sane by rw [hd]; exact hi, hd⟩

-- ---------------------------------------------------------------------------
-- Routing
-- ---------------------------------------------------------------------------

theorem readBle_works {g : BleState → α} :
    Works A (readBle g) fun a d => A d ∧ a = g d.ble :=
  desk_get fun _ ha => ⟨ha, rfl⟩

theorem readBle_minds {g : BleState → α} : Minds A (readBle g) := desk_get fun _ => id

theorem Oneshot.send_tx {c : Oneshot α} {a : α} : (c.send a).tx = false := by
  unfold Oneshot.send
  split
  · rfl
  next h => simpa using h

/-- The button's channel is used up, whatever is waited for. -/
theorem routePairButton_minds {data : Bytes} : Minds (Desk.At w l) (routePairButton data) := by
  unfold routePairButton
  split
  next status =>
    refine .bind readBle_minds fun pending => ?_
    split
    · exact minds_closed.when (setPairProgress_away).minds
    · refine minds_closed.when (.bind (desk_move _ fun s h => ?_) fun _ => (setPairProgress_away).minds)
      exact { h with counts := h.counts }
    · refine minds_closed.when (desk_move _ fun s h => ?_)
      exact { h with
        button := fun ho => h.button (ho.imp_right fun htx => by cases Oneshot.send_tx.symm.trans htx)
        counts := h.counts }
    · exact .ret fun _ => id
  next => exact .ret fun _ => id

/-- A mismatch was counted; where it was the last, the wait is not over yet. -/
def Desk.Counted (w : Wait) (l : Ledger) (d : Desk) : Prop := d.In w ∧ d.ledger = some l

theorem Desk.At.counted {d : Desk} (h : d.At w l) : d.Counted w l := ⟨h.toIn, h.ledger⟩

theorem Desk.Counted.sane {d : Desk} (h : d.Counted w l) : d.Sane :=
  ⟨⟨w, h.1⟩, by rw [h.2]; rfl⟩

theorem deliver_works {d : Delivery} {isOpen : Daemon → Bool} {send : Daemon → Daemon}
    (h : ∀ s, A s.desk → (send s).desk.At w l ∧ (send s).desk.taken = s.desk.taken) :
    Works A (deliver d f isOpen send) fun _ => Desk.At w l := by
  refine desk_modify fun s ha => ?_
  obtain ⟨ha, hl⟩ := h s ha
  have hd : (if isOpen s then (send s).note (.delivered d s.awaited f) else send s).desk =
      (send s).desk := by
    split <;> rfl
  rw [hd]
  exact ⟨hl, ha.sane, ha⟩

/-- With its flag taken back, the gate's wait takes no more mismatches. -/
theorem resolveGate_works {r : GateResult} :
    Works (fun d => d.Counted w l ∧ d.ble.gatePending = true) (resolveGate f r)
      fun _ => Desk.At w l := by
  refine deliver_works fun s ⟨⟨h, hl⟩, hg⟩ => ⟨?_, rfl⟩
  have hw : w = .gate := h.gate (.inl hg)
  exact { h with
    gate := fun _ => hw
    counts := by
      rintro (ho | ho | ho)
      · cases ho
      · exact nomatch hw.symm.trans (h.auth (.inl ho))
      · exact nomatch hw.symm.trans ho
    ledger := hl }

theorem resolveAuth_works {b : Bool} :
    Works (fun d => d.Counted w l ∧ d.ble.authPending = true) (resolveAuth f b)
      fun _ => Desk.At w l := by
  refine deliver_works fun s ⟨⟨h, hl⟩, hg⟩ => ⟨?_, rfl⟩
  have hw : w = .auth := h.auth (.inl hg)
  exact { h with
    auth := fun _ => hw
    counts := by
      rintro (ho | ho | ho)
      · exact nomatch hw.symm.trans (h.gate (.inl ho))
      · cases ho
      · exact nomatch hw.symm.trans ho
    ledger := hl }

theorem succ_le_failures {n : UInt8} (h : n < fpGateMaxFailures) : n + 1 ≤ fpGateMaxFailures := by
  rw [UInt8.lt_iff_toNat_lt] at h
  rw [UInt8.le_iff_toNat_le, UInt8.toNat_add]
  simp only [fpGateMaxFailures, UInt8.reduceToNat] at h ⊢
  omega

/-- `p` is the flag of the wait that the mismatch counts against. -/
theorem countFailure_works {last : Code Unit} {p : BleState → Bool}
    (hp : ∀ b, p b = true → b.gatePending = true ∨ b.authPending = true)
    (hn : ∀ b n, p { b with authFailures := n } = p b)
    (hlast : Works (fun d => d.Counted w l ∧ p d.ble = true) last fun _ => Desk.At w l) :
    Works (fun d => d.At w l ∧ p d.ble = true) (countFailure last) fun _ => Desk.At w l := by
  refine .bind (M := fun n d => (d.Counted w l ∧ p d.ble = true) ∧ d.ble.authFailures = n) ?_
    fun n => .when (fun _ => hlast.pre fun d h => h.1) fun hle d ⟨⟨h, _⟩, hc⟩ => ?_
  · refine desk_act fun s a s' ⟨h, ht⟩ hm => ?_
    obtain ⟨rfl, rfl⟩ := Prod.mk.inj (List.mem_singleton.mp hm)
    have hlt : s.desk.ble.authFailures < fpGateMaxFailures :=
      h.counts ((hp _ ht).imp_right .inl)
    have hc : Desk.Counted w l { s with
        ble := { s.ble with authFailures := s.ble.authFailures + 1 } }.desk :=
      ⟨{ h.toIn with failures := succ_le_failures hlt }, h.ledger⟩
    exact ⟨rfl, hc.sane, ⟨hc, (hn _ _).trans ht⟩, rfl⟩
  · have hlt : d.ble.authFailures < fpGateMaxFailures := by
      rw [hc]
      exact UInt8.not_le.mp (by simpa using hle)
    exact { h.1 with counts := fun _ => hlt, ledger := h.2 }

/-- A response goes to whoever waits for one; it is not empty. -/
theorem resolveResponse_minds (hd : f.data ≠ []) : Minds (Desk.At w l) (resolveResponse f) := by
  refine deliver_works fun s h => ⟨{ h with response := fun hv => ?_, counts := h.counts }, rfl⟩
  obtain ⟨hf, -⟩ | hv := Oneshot.send_value hv
  · exact hd hf.symm
  · exact h.response hv

theorem routeAnswer_minds {first : UInt8} (hd : f.data ≠ []) :
    Minds (Desk.At w l) (routeAnswer f first) := by
  refine .bind readBle_works fun gatePending => .bind readBle_works fun authPending => ?_
  refine .bind readBle_works fun pairFpGate => ?_
  let K (d : Desk) : Prop := ((d.At w l ∧ gatePending = d.ble.gatePending) ∧
    authPending = d.ble.authPending) ∧ pairFpGate = d.ble.pairFpGate
  have gate (hg : gatePending = true) (d : Desk) (h : K d) :
      d.At w l ∧ d.ble.gatePending = true := ⟨h.1.1.1, h.1.1.2.symm.trans hg⟩
  have auth (ha : authPending = true) (d : Desk) (h : K d) :
      d.At w l ∧ d.ble.authPending = true := ⟨h.1.1.1, h.1.2.symm.trans ha⟩
  have toGate {r : GateResult} (hg : gatePending = true) :
      Works K (resolveGate f r) fun _ => Desk.At w l :=
    (resolveGate_works).pre fun d h =>
      have ⟨h, ho⟩ := gate hg d h
      ⟨h.counted, ho⟩
  have toAuth {b : Bool} (ha : authPending = true) :
      Works K (resolveAuth f b) fun _ => Desk.At w l :=
    (resolveAuth_works).pre fun d h =>
      have ⟨h, ho⟩ := auth ha d h
      ⟨h.counted, ho⟩
  refine .ite (fun _ => .ret fun d h => h.1.1.1) fun _ => .ite (fun h => ?_) fun _ =>
    .ite (fun h => ?_) fun _ => .ite (fun h => toGate h.2) fun _ => .ite (fun h => toAuth h.2)
      fun _ => .ite (fun h => toGate h.1) fun _ => .ite (fun h => toAuth h.1) fun _ => ?_
  · exact (countFailure_works (p := (·.gatePending)) (fun _ => .inl) (fun _ _ => rfl)
      resolveGate_works).pre (gate h.2)
  · exact (countFailure_works (p := (·.authPending)) (fun _ => .inr) (fun _ _ => rfl)
      resolveAuth_works).pre (auth h.2)
  · exact (resolveResponse_minds hd).pre fun d h => h.1.1.1

/-- From whatever wait a frame is routed, it leaves that wait as it should be. -/
theorem routeNotification_minds : Minds (Desk.At w l) (routeNotification ext f) := by
  unfold routeNotification
  split
  next => exact .ret fun _ => id
  next first rest hd =>
    refine .ite (fun _ => (handleFpMatchSigned_away).minds) fun _ => ?_
    refine .ite (fun _ => (handleLockRequest_away).minds) fun _ => ?_
    refine .ite (fun _ => .ret fun _ => id) fun _ => ?_
    refine .ite (fun _ => (routeEnroll_away).minds) fun _ => ?_
    refine .ite (fun _ => .ret fun _ => id) fun _ => ?_
    refine .ite (fun _ => routePairButton_minds) fun _ => ?_
    exact routeAnswer_minds (by simp [hd])

-- ---------------------------------------------------------------------------
-- Commands
-- ---------------------------------------------------------------------------

theorem notifyBranch_desk {k : Frame → β} {b : β} (h : notifyBranch k s = some (b, s')) :
    (∃ f, b = k f) ∧ s'.desk = s.desk := by
  unfold notifyBranch at h
  split at h
  · cases h
  next f rest _ =>
    obtain ⟨rfl, rfl⟩ := Prod.mk.inj (Option.some.inj h)
    exact ⟨⟨f, rfl⟩, rfl⟩

/-- A `select` of a wait none of whose branches touches the desk. -/
theorem desk_select {branches : List (Daemon → Option (α × Daemon))} {Q : α → Prop}
    (h : ∀ br ∈ branches, ∀ s a s', s.desk.At w l → br s = some (a, s') →
      s'.desk = s.desk ∧ Q a) :
    Works (Desk.At w l) (Proc.select branches) fun a d => d.At w l ∧ Q a := by
  refine desk_act fun s a s' ha hm => ?_
  obtain ⟨br, hbr, hs⟩ := List.mem_filterMap.mp hm
  obtain ⟨hd, hq⟩ := h br hbr s a s' ha hs
  rw [hd]
  exact ⟨rfl, ha.sane, ha, hq⟩

theorem armResponse_minds : Minds (Desk.At w l) armResponse :=
  desk_move _ fun _ h => { h with response := nofun, counts := h.counts }

theorem leaveResponse_minds : Minds (Desk.At w l) leaveResponse :=
  desk_move _ fun _ h => { h with response := nofun, counts := h.counts }

/-- A response that arrives is not empty. -/
theorem awaitResponse_works {cmd : UInt8} {deadline : Nat} :
    Works (Desk.At w l) (awaitResponse ext cmd deadline) fun r d =>
      d.At w l ∧ ∀ data, r = .ok data → data ≠ [] := by
  refine .loop (.bind (desk_select (Q := fun a => ∀ data, a = .resolved (some data) → data ≠ [])
    fun br hbr s a s' h hs => ?_) fun a => .known fun hq => ?_)
  · simp only [List.mem_cons, List.not_mem_nil, or_false] at hbr
    obtain rfl | rfl | rfl := hbr
    · obtain ⟨got, hg, he⟩ := Option.map_eq_some_iff.mp hs
      obtain ⟨rfl, rfl⟩ := Prod.mk.inj he
      refine ⟨rfl, fun data hd => ?_⟩
      obtain rfl := Waited.resolved.inj hd
      rintro rfl
      exact h.response (Oneshot.recv_some hg)
    · obtain ⟨⟨f, rfl⟩, hd⟩ := notifyBranch_desk hs
      exact ⟨hd, nofun⟩
    · obtain ⟨rfl, rfl⟩ := deadlineBranch_some hs
      exact ⟨rfl, nofun⟩
  · cases a with
    | resolved got =>
      cases got with
      | none => exact .ret fun d h => ⟨h, nofun⟩
      | some data =>
        exact .ret fun d h => ⟨h, fun data' hd => hq data' (by rw [Except.ok.inj hd])⟩
    | frame f => exact .bind routeNotification_minds fun _ => .ret fun _ => id
    | cancelled => exact .ret fun _ => id
    | timeout =>
      refine .bind (desk_move w fun _ h => ?_) fun _ => .ret fun d h => ⟨h, nofun⟩
      exact { h with response := h.response, counts := h.counts }

theorem sendCommandInner_works {cmd : UInt8} {payload : Bytes} {timeout : Nat} :
    Works (Desk.At w l) (sendCommandInner ext cmd payload timeout) fun r d =>
      d.At w l ∧ ∀ data, r = .ok data → data ≠ [] := by
  refine .bind armResponse_minds fun _ => .bind (cmdWrite_away fun _ => rfl).minds fun r => ?_
  cases r with
  | error e => exact .bind leaveResponse_minds fun _ => .ret fun d h => ⟨h, nofun⟩
  | ok u =>
    refine .bind (clock_away).minds fun now => .bind awaitResponse_works fun result => .known ?_
    exact fun hd => .bind leaveResponse_minds fun _ => .ret fun d h => ⟨h, hd⟩

theorem sendCommandInner_minds {cmd : UInt8} {payload : Bytes} {timeout : Nat} :
    Minds (Desk.At w l) (sendCommandInner ext cmd payload timeout) :=
  (sendCommandInner_works).post fun _ _ h => h.1

end Immurok
