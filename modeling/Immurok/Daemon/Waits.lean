import Immurok.Daemon.Desk
import Immurok.Daemon.Serving

/-!
# The waits of the worker

Each wait opens its flags and channels, is left in one of several ways, and
leaves nothing open behind it.
-/

namespace Immurok

open Async

variable {ext : Extern} {w : Wait} {l : Ledger} {f : Frame} {s s' : Daemon} {α β : Type}
  {A : Desk → Prop} {B : α → Desk → Prop}

namespace Desk

variable {d : Desk}

/-- Where nothing is open, nothing is open but what a wait opens. -/
theorem In.of_rest (h : d.In .rest) : d.In w :=
  { h with
    gate := fun ho => nomatch h.gate ho
    auth := fun ho => nomatch h.auth ho
    button := fun ho => nomatch h.button ho
    pairGate := fun ho => nomatch h.pairGate ho
    active := fun ho => nomatch h.active ho }

/-- At rest no mismatch counts. -/
theorem In.rest (h : d.In .rest) (hl : d.ledger = some l) : d.At .rest l :=
  { h with
    counts := by
      rintro (ho | ho | ho)
      · exact nomatch h.gate (.inl ho)
      · exact nomatch h.auth (.inl ho)
      · cases ho
    ledger := hl }

end Desk

-- ---------------------------------------------------------------------------
-- Touches
-- ---------------------------------------------------------------------------

def Touch.wait : Touch → Wait
  | .gate => .gate
  | .auth => .auth

/-- The wait for the touch is over. -/
def Desk.Closed : Touch → Desk → Prop
  | .gate, d => d.ble.gatePending = false ∧ d.ble.gate.tx = false
  | .auth, d => d.ble.authPending = false ∧ d.ble.auth.tx = false

variable {t : Touch}

theorem closeTouch_desk (hs : s'.desk = s.desk) (h : s.desk.At t.wait l) :
    (s'.closeTouch t).desk.At t.wait l ∧ (s'.closeTouch t).desk.Closed t := by
  have h' : s'.desk.At t.wait l := hs ▸ h
  cases t with
  | gate =>
    exact ⟨{ h' with
      gate := fun _ => rfl
      counts := fun ho => h'.counts (ho.imp_left fun hg => nomatch hg) }, rfl, rfl⟩
  | auth =>
    exact ⟨{ h' with
      auth := fun _ => rfl
      counts := fun ho => h'.counts (ho.imp_right fun ho => ho.imp_left fun ha => nomatch ha) },
      rfl, rfl⟩

theorem unparkTouch_desk : (s.unparkTouch t).desk = s.desk := rfl

theorem leaveTouch_desk (h : s.desk.At t.wait l) :
    (leaveTouch t s).desk.At t.wait l ∧ (leaveTouch t s).desk.Closed t :=
  have hs : (s.unparkTouch t).desk = s.desk := rfl
  closeTouch_desk hs h

/-- Waiting still, with a frame to route, or no longer. -/
def Desk.Round (t : Touch) (l : Ledger) : Waited α → Desk → Prop
  | .frame _, d => d.At t.wait l
  | _, d => d.At t.wait l ∧ d.Closed t

theorem touchLoop_works {resolved : Daemon → Option (Waited α × Daemon)} {deadline : Nat}
    (hres : ∀ s a s', resolved s = some (a, s') → s' = leaveTouch t s ∧ ∃ r, a = .resolved r) :
    Works (Desk.At t.wait l) (touchLoop ext t resolved deadline)
      fun _ d => d.At t.wait l ∧ d.Closed t := by
  refine .loop (.bind (event_away ?_).minds fun _ => .bind (M := Desk.Round t l)
    (desk_act fun s a s' h hm => ?_) fun a => ?_)
  · exact fun _ => ⟨⟨rfl, rfl, rfl, .inl rfl⟩, rfl, rfl⟩
  · obtain ⟨br, hbr, hs⟩ := List.mem_filterMap.mp hm
    have closed (hd : s'.desk.At t.wait l ∧ s'.desk.Closed t) (ha : ∀ f, a ≠ .frame f) :
        s'.desk.taken = s.desk.taken ∧ s'.desk.Sane ∧ Desk.Round t l a s'.desk := by
      refine ⟨hd.1.taken.trans h.taken.symm, hd.1.sane, ?_⟩
      cases a with
      | frame f => exact absurd rfl (ha f)
      | _ => exact hd
    simp only [List.mem_cons, List.not_mem_nil, or_false] at hbr
    obtain rfl | rfl | rfl | rfl := hbr
    · obtain ⟨rfl, r, rfl⟩ := hres s a s' hs
      exact closed (leaveTouch_desk h) nofun
    · obtain ⟨⟨f, rfl⟩, hd⟩ := notifyBranch_desk hs
      have h' : s'.desk.At t.wait l := hd ▸ h
      exact ⟨h'.taken.trans h.taken.symm, h'.sane, h'⟩
    · obtain ⟨p, -, he⟩ := Option.map_eq_some_iff.mp hs
      obtain ⟨rfl, rfl⟩ := Prod.mk.inj he
      exact closed (closeTouch_desk (s := s) rfl h) nofun
    · obtain ⟨rfl, rfl⟩ := deadlineBranch_some hs
      exact closed (leaveTouch_desk h) nofun
  · cases a with
    | frame f => exact .bind routeNotification_minds fun _ => .ret fun _ => id
    | _ => exact .ret fun _ => id

theorem authBranch_some {a : Waited Bool} (h : authBranch s = some (a, s')) :
    s' = leaveTouch .auth s ∧ ∃ b, a = .resolved b := by
  obtain ⟨got, -, he⟩ := Option.map_eq_some_iff.mp h
  obtain ⟨rfl, rfl⟩ := Prod.mk.inj he
  exact ⟨rfl, _, rfl⟩

theorem noFailure : (0 : UInt8) < fpGateMaxFailures := by decide

theorem armGate_works : Works (Desk.At .rest l) armGate fun _ => Desk.At .gate l :=
  desk_move _ fun _ h => { h.toIn.of_rest with
    gate := fun _ => rfl
    failures := UInt8.le_of_lt noFailure
    counts := fun _ => noFailure
    ledger := h.ledger }

theorem armAuth_works : Works (Desk.At .rest l) armAuth fun _ => Desk.At .auth l :=
  desk_move _ fun _ h => { h.toIn.of_rest with
    auth := fun _ => rfl
    failures := UInt8.le_of_lt noFailure
    counts := fun _ => noFailure
    ledger := h.ledger }

theorem gateOutcome_away {a : Waited GateResult} : Away (gateOutcome a) := by
  cases a with
  | cancelled => exact .bind writeGateCancel_away fun _ => .ret
  | _ => exact .ret

theorem authOutcome_away {a : Waited Bool} : Away (authOutcome a) := by
  cases a with
  | cancelled => exact .bind writeGateCancel_away fun _ => .ret
  | _ => exact .ret

theorem sendFpGatedInner_minds {cmd : UInt8} {payload : Bytes} :
    Minds (Desk.At .rest l) (sendFpGatedInner ext cmd payload) := by
  refine .bind sendCommandInner_minds fun r => ?_
  cases r with
  | error e => exact .ret fun _ => id
  | ok rsp =>
    cases rsp with
    | nil => exact .ret fun _ => id
    | cons status rest =>
      refine .ite (fun _ => .ret fun _ => id) fun _ => .ite (fun _ => .ret fun _ => id) fun _ => ?_
      refine .bind armGate_works fun _ => .bind (clock_away).minds fun now => ?_
      refine .bind (desk_move .gate fun _ h => ?_) fun _ => ?_
      · exact { h with active := fun _ => rfl, counts := h.counts }
      refine .bind (touchLoop_works fun _ _ _ => gateBranch_some) fun waited => .bind (gateOutcome_away).minds fun result => ?_
      refine .bind (desk_modify (B := Desk.At .rest l) fun s ⟨h, hp, ht⟩ => ?_) fun _ =>
        .ret fun _ => id
      have hr : Desk.At .rest l { s.desk with gateActive := false } := by
        refine Desk.In.rest { h with
          gate := ?_
          auth := fun ho => nomatch h.auth ho
          button := fun ho => nomatch h.button ho
          pairGate := fun ho => nomatch h.pairGate ho
          active := nofun } h.ledger
        rintro (ho | ho)
        · cases ho.symm.trans hp
        · cases ho.symm.trans ht
      exact ⟨hr.taken.trans h.taken.symm, hr.sane, hr⟩

theorem Desk.At.auth_closed {d : Desk} (h : d.At .auth l) (hc : d.Closed .auth) :
    d.At .rest l := by
  refine Desk.In.rest { h with
    gate := fun ho => nomatch h.gate ho
    auth := ?_
    button := fun ho => nomatch h.button ho
    pairGate := fun ho => nomatch h.pairGate ho
    active := fun ho => nomatch h.active ho } h.ledger
  rintro (ho | ho)
  · cases ho.symm.trans hc.1
  · cases ho.symm.trans hc.2

theorem doAuthRequest_minds : Minds (Desk.At .rest l) (doAuthRequest ext) := by
  refine .bind sendCommandInner_minds fun r => ?_
  cases r with
  | error e => exact .ret fun _ => id
  | ok rsp =>
    cases rsp with
    | nil => exact .ret fun _ => id
    | cons status rest =>
      refine .ite (fun _ => .ret fun _ => id) fun _ => .ite (fun _ => .ret fun _ => id) fun _ => ?_
      refine .bind armAuth_works fun _ => .bind (clock_away).minds fun now => ?_
      refine .bind (touchLoop_works fun _ _ _ => authBranch_some) fun waited => ?_
      exact ((authOutcome_away).minds).pre fun d h => h.1.auth_closed h.2

-- ---------------------------------------------------------------------------
-- Pairing
-- ---------------------------------------------------------------------------

theorem armPairing_minds : Minds (Desk.At w l) armPairing :=
  desk_move _ fun _ h => { h with response := nofun, counts := h.counts }

theorem pairButtonRound_minds {deadline : Nat} {extended : Bool} :
    Minds (Desk.At w l) (pairButtonRound ext deadline extended) := by
  refine .bind (desk_select (Q := fun _ => True) fun br hbr s a s' h hs => ⟨?_, trivial⟩)
    fun a => .known fun _ => ?_
  · simp only [List.mem_cons, List.not_mem_nil, or_false] at hbr
    obtain rfl | rfl | rfl | rfl := hbr
    · rw [(recvBranch_some hs).1]
    · rw [(recvBranch_some hs).1]
    · exact (notifyBranch_desk hs).2
    · rw [(deadlineBranch_some hs).2]
  · cases a with
    | response got => cases got <;> exact .ret fun _ => id
    | button status => exact .ret fun _ => id
    | frame f =>
      refine .bind routeNotification_minds fun _ => .bind readBle_minds fun fpOk => ?_
      exact .ite (fun _ => .bind (clock_away).minds fun _ => .ret fun _ => id)
        fun _ => .ret fun _ => id
    | timeout => exact .ret fun _ => id

theorem waitPairButton_minds : Minds (Desk.At .rest l) (waitPairButton ext) := by
  refine .bind (desk_move .button fun _ h => ?_) fun _ => ?_
  · exact { h.toIn.of_rest with
      button := fun _ => rfl
      counts := fun ho => h.counts (ho.imp_right fun ho => ho.imp_right nofun)
      ledger := h.ledger }
  refine .bind armPairing_minds fun _ => .bind (clock_away).minds fun now => ?_
  refine .bind (minds_closed.repeatFrom fun p => pairButtonRound_minds) fun result => ?_
  refine .bind (desk_move .rest fun _ h => ?_) fun _ =>
    .bind leaveResponse_minds fun _ => .ret fun _ => id
  exact Desk.In.rest { h with
    gate := fun ho => nomatch h.gate ho
    auth := fun ho => nomatch h.auth ho
    button := nofun
    pairGate := fun ho => nomatch h.pairGate ho
    active := fun ho => nomatch h.active ho } h.ledger

theorem pairFpGateAnswer_minds {deadline : Nat} :
    Minds (Desk.At w l) (pairFpGateAnswer ext deadline) := by
  refine .bind armPairing_minds fun _ => .bind (minds_closed.loop ?_) fun answer =>
    .bind leaveResponse_minds fun _ => .ret fun _ => id
  refine .bind (desk_select (Q := fun _ => True) fun br hbr s a s' h hs => ⟨?_, trivial⟩)
    fun a => .known fun _ => ?_
  · simp only [List.mem_cons, List.not_mem_nil, or_false] at hbr
    obtain rfl | rfl | rfl := hbr
    · rw [(recvBranch_some hs).1]
    · exact (notifyBranch_desk hs).2
    · rw [(deadlineBranch_some hs).2]
  · cases a with
    | resolved got => cases got <;> exact .ret fun _ => id
    | frame f => exact .bind routeNotification_minds fun _ => .ret fun _ => id
    | cancelled => exact .ret fun _ => id
    | timeout => exact .ret fun _ => id

/-- The mismatches are counted here, not where frames are routed: the last one
ends the wait. -/
theorem waitPairFpGate_minds : Minds (Desk.At .rest l) (waitPairFpGate ext) := by
  have counted (d : Desk) (h : d.At .pairGate l) : d.Counted .pairGate l := h.counted
  refine .bind (desk_move .pairGate fun _ h => ?_) fun _ => ?_
  · exact { h.toIn.of_rest with
      pairGate := fun _ => rfl
      failures := UInt8.le_of_lt noFailure
      counts := fun _ => noFailure
      ledger := h.ledger }
  refine .bind (clock_away).minds fun now => .bind (M := fun _ => Desk.Counted .pairGate l)
    (.loop (.bind pairFpGateAnswer_minds fun answer => ?_)) fun result => ?_
  · cases answer with
    | error e => exact .ret counted
    | ok rsp =>
      refine .ite (fun _ => ?_) fun _ => .ite (fun _ => .ret counted) fun _ => .ret counted
      refine .bind (M := fun n d => d.Counted .pairGate l ∧ d.ble.authFailures = n) ?_ fun n =>
        .ite (fun _ => .ret fun d h => h.1) fun hle => .ret fun d ⟨⟨h, hl⟩, hn⟩ => ?_
      · refine desk_act fun s a s' h hm => ?_
        obtain ⟨rfl, rfl⟩ := Prod.mk.inj (List.mem_singleton.mp hm)
        have hc : Desk.Counted .pairGate l { s with
            ble := { s.ble with authFailures := s.ble.authFailures + 1 } }.desk :=
          ⟨{ h.toIn with failures := succ_le_failures (h.counts (.inr (.inr rfl))) }, h.ledger⟩
        exact ⟨rfl, hc.sane, hc, rfl⟩
      · exact { h with counts := fun _ => hn ▸ UInt8.not_le.mp hle, ledger := hl }
  · refine .bind (desk_modify (B := Desk.At .rest l) fun s ⟨h, hl⟩ => ?_) fun _ => .ret fun _ => id
    have hr : Desk.At .rest l { s.desk with ble := { s.desk.ble with pairFpGate := false } } :=
      Desk.In.rest { h with
        gate := fun ho => nomatch h.gate ho
        auth := fun ho => nomatch h.auth ho
        button := fun ho => nomatch h.button ho
        pairGate := nofun
        active := fun ho => nomatch h.active ho } hl
    exact ⟨rfl, hr.sane, hr⟩

theorem pairInit_minds {secondHost : Bool} :
    Minds (Desk.At .rest l) (pairInit ext secondHost) := by
  refine .bind sendCommandInner_minds fun r => ?_
  cases r with
  | error e => exact .ret fun _ => id
  | ok rsp =>
    refine .ite (fun _ => .ret fun _ => id) fun _ => .ite (fun _ => .ret fun _ => id) fun _ =>
      .ite (fun _ => ?_) fun _ => .ite (fun _ => ?_) fun _ => .ret fun _ => id
    · refine .bind (setPairProgress_away).minds fun _ => .bind waitPairButton_minds fun r => ?_
      cases r <;> exact .ret fun _ => id
    · refine .bind waitPairFpGate_minds fun r => ?_
      cases r <;> exact .ret fun _ => id

theorem confirmPairing_minds {rsp : Bytes} :
    Minds (Desk.At .rest l) (confirmPairing ext rsp) := by
  have keys : Away (Proc.atomically fun s : Daemon =>
      (ext.generateKeypair s.drawn, { s with drawn := s.drawn + 1 })) :=
    .atomically fun _ => ⟨rfl, rfl, rfl, .inl rfl⟩
  refine .ite (fun _ => .ret fun _ => id) fun _ => .bind keys.minds fun (appSecret, appPubkey) => ?_
  refine tryThen_all minds_closed sendCommandInner_minds fun crsp => ?_
  refine .ite (fun _ => .ret fun _ => id) fun _ => ?_
  split
  · exact .ret fun _ => id
  · split
    · exact .ret fun _ => id
    · exact .bind (establishPairing_away).minds fun _ => .ret fun _ => id

theorem doPair_minds : Minds (Desk.At .rest l) (doPair ext) := by
  refine .bind sendCommandInner_minds fun slots => minds_closed.repeatFrom fun retries => ?_
  refine .bind pairInit_minds fun r => ?_
  cases r with
  | failed e => exact .ret fun _ => id
  | retry =>
    exact .ite (fun _ => .bind (sleep_away).minds fun _ => .ret fun _ => id)
      fun _ => .ret fun _ => id
  | answered rsp => exact .bind confirmPairing_minds fun _ => .ret fun _ => id

end Immurok
