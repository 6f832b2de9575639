import Immurok.Async.Solo
import Immurok.Daemon.Sound

/-!
# What a gated command returns

The answer to a gated command comes at once or after a touch. Either way the
caller gets what `send_fp_gated_inner` makes of the frames: here as a function
of them, with the code that it is the result of below.
-/

namespace Immurok

open Async

-- ---------------------------------------------------------------------------
-- The wait for the touch
-- ---------------------------------------------------------------------------

/-- The wait: the mismatches so far, and what it was resolved with. -/
structure Gate where
  failures : UInt8
  result : Option GateResult

def Gate.armed : Gate := { failures := 0, result := none }

def Gate.resolve (g : Gate) (r : GateResult) : Gate := { g with result := some r }

/-- A frame that is routed while the wait is on. -/
def Gate.route (g : Gate) (data : Bytes) : Gate :=
  match data with
  | [] => g
  | first :: _ =>
    if isNotification data || g.result.isSome then g
    else if first = rspFpGateApproved then g
    else if first = rspErrFpNotMatch then
      let g := { g with failures := g.failures + 1 }
      if fpGateMaxFailures ≤ g.failures then g.resolve (false, some rspErrFpNotMatch) else g
    else if first = rspOk then g.resolve (true, none)
    else if isTouchError first then g.resolve (false, some first)
    else g

/-- The answer says that there is more to come. -/
def promisesMore (status : UInt8) : Bool := status == rspWaitFp || status == rspFpGateApproved

/-- What the caller gets: `none` while the command goes on. -/
def gatedReply (cmd : UInt8) (answer : Bytes) (frames : List Bytes) : Option BleResult :=
  match answer with
  | [] => some (.error "empty response")
  | status :: rest =>
    if status = rspOk then some (.ok (rspOk, rest))
    else if promisesMore status then (frames.foldl Gate.route .armed).result.map gateFailure
    else some (.error ("0x".toList ++ Str.hexByte cmd ++ " failed: 0x".toList ++
      Str.hexByte status))

-- ---------------------------------------------------------------------------
-- The contract
-- ---------------------------------------------------------------------------

/-- Says nothing on how the command ends. -/
def isInterim (data : Bytes) : Bool :=
  data.isEmpty || isNotification data || data.head?.any promisesMore

/-- The finger did not match. -/
def isMismatch (data : Bytes) : Bool := data.head? == some rspErrFpNotMatch

/-- The frames of a device end the command with `status :: payload`: as the
answer itself, or after the answer that promises more. The device allows three
tries. -/
inductive EndsWith (status : UInt8) (payload : Bytes) : Bytes → List Bytes → Prop
  | immediate (h : promisesMore status = false) : EndsWith status payload (status :: payload) []
  | touch {first : UInt8} {rest : Bytes} {mids : List Bytes} (hfirst : promisesMore first = true)
    (hmids : ∀ data ∈ mids, isInterim data = true ∨ isMismatch data = true)
    (htries : mids.countP isMismatch ≤ 2) (hfinal : isInterim (status :: payload) = false)
    (hlast : status = rspErrFpNotMatch → mids.countP isMismatch = 2) :
    EndsWith status payload (first :: rest) (mids ++ [status :: payload])

section
variable {g : Gate} {data payload answer : Bytes} {mids frames : List Bytes} {status cmd : UInt8}

theorem Gate.route_interim (h : isInterim data = true) : g.route data = g := by
  cases data with
  | nil => rfl
  | cons first rest =>
    simp only [route]
    by_cases hn : (isNotification (first :: rest) || g.result.isSome) = true
    · rw [if_pos hn]
    · rw [if_neg hn]
      simp only [Bool.or_eq_true, not_or, Bool.not_eq_true] at hn
      have hp : first = rspWaitFp ∨ first = rspFpGateApproved := by
        simpa [isInterim, hn.1, promisesMore] using h
      obtain rfl | rfl := hp <;> rfl

theorem Gate.route_mismatch (h : isMismatch data = true) (hr : g.result = none)
    (hf : g.failures.toNat + 1 ≤ 2) :
    (g.route data).result = none ∧ (g.route data).failures.toNat = g.failures.toNat + 1 := by
  cases data with
  | nil => cases h
  | cons first rest =>
    obtain rfl : first = rspErrFpNotMatch := by simpa [isMismatch] using h
    have hadd : (g.failures + 1).toNat = g.failures.toNat + 1 := by
      rw [UInt8.toNat_add]
      exact Nat.mod_eq_of_lt (by simp; omega)
    have hlast : ¬ fpGateMaxFailures ≤ g.failures + 1 := by
      rw [UInt8.le_iff_toNat_le, hadd]
      exact Nat.not_le_of_lt (Nat.lt_succ_of_le hf)
    have hn : isNotification (rspErrFpNotMatch :: rest) = false := rfl
    have ha : rspErrFpNotMatch ≠ rspFpGateApproved := by decide
    simp [route, hn, hr, hlast, hadd, ha]

/-- Before the final frame the wait goes on. -/
theorem Gate.foldl_mids (hr : g.result = none)
    (hmids : ∀ data ∈ mids, isInterim data = true ∨ isMismatch data = true)
    (htries : g.failures.toNat + mids.countP isMismatch ≤ 2) :
    (mids.foldl Gate.route g).result = none ∧
      (mids.foldl Gate.route g).failures.toNat = g.failures.toNat + mids.countP isMismatch := by
  induction mids generalizing g with
  | nil => exact ⟨hr, rfl⟩
  | cons data mids ih =>
    have htail := fun d hd => hmids d (.tail _ hd)
    by_cases hm : isMismatch data = true
    · rw [List.countP_cons_of_pos hm] at htries ⊢
      obtain ⟨hr', hf'⟩ := route_mismatch hm hr (by omega)
      obtain ⟨hr'', hf''⟩ := ih hr' htail (by omega)
      exact ⟨hr'', by rw [List.foldl_cons, hf'', hf']; omega⟩
    · rw [List.countP_cons_of_neg hm] at htries ⊢
      have hi := (hmids data (.head _)).resolve_right hm
      rw [List.foldl_cons, route_interim hi]
      exact ih hr htail htries

/-- The wait's end, if the frame is one. -/
def gateEnd (status : UInt8) : Option GateResult :=
  if status = rspErrFpNotMatch then some (false, some rspErrFpNotMatch)
  else if status = rspOk then some (true, none)
  else if isTouchError status then some (false, some status)
  else none

theorem Gate.route_final (hr : g.result = none) (h : isInterim (status :: payload) = false)
    (hlast : status = rspErrFpNotMatch → g.failures.toNat = 2) :
    (g.route (status :: payload)).result = gateEnd status := by
  simp only [isInterim, List.isEmpty_cons, Bool.false_or, List.head?_cons, Option.any_some,
    Bool.or_eq_false_iff, promisesMore, beq_eq_false_iff_ne] at h
  obtain ⟨hn, -, ha⟩ := h
  simp only [route, hn, hr, Option.isSome_none, Bool.or_self, Bool.false_eq_true, if_false, ha,
    gateEnd]
  by_cases hm : status = rspErrFpNotMatch
  · have hadd : fpGateMaxFailures ≤ g.failures + 1 := by
      have hf := hlast hm
      rw [UInt8.le_iff_toNat_le, UInt8.toNat_add, hf]
      decide
    simp [hm, hadd, resolve]
  · by_cases hok : status = rspOk
    · rw [if_neg hm, if_pos hok, if_neg hm, if_pos hok]
      rfl
    · by_cases ht : isTouchError status = true
      · simp [hm, hok, ht, resolve]
      · simp [hm, hok, ht, hr]

theorem gatedReply_touch {first : UInt8} {rest : Bytes} (hfirst : promisesMore first = true)
    (hmids : ∀ data ∈ mids, isInterim data = true ∨ isMismatch data = true)
    (htries : mids.countP isMismatch ≤ 2) (hfinal : isInterim (status :: payload) = false)
    (hlast : status = rspErrFpNotMatch → mids.countP isMismatch = 2) :
    gatedReply cmd (first :: rest) (mids ++ [status :: payload]) =
      (gateEnd status).map gateFailure := by
  have hne : first ≠ rspOk := by
    rintro rfl
    cases hfirst
  obtain ⟨hr, hf⟩ := Gate.foldl_mids (g := .armed) rfl hmids (by simpa [Gate.armed] using htries)
  simp only [gatedReply, if_neg hne, hfirst, if_true, List.foldl_append, List.foldl_cons,
    List.foldl_nil]
  rw [Gate.route_final hr hfinal fun h => by rw [hf, hlast h]; rfl]

/-- The caller gets status and payload exactly where the device says OK and,
after a touch, nothing beside a second OK. -/
theorem gatedReply_contract_iff (h : EndsWith status payload answer frames) :
    gatedReply cmd answer frames = some (.ok (status, payload)) ↔
      status = rspOk ∧ (frames ≠ [] → payload = [rspOk]) := by
  cases h with
  | immediate h =>
    by_cases hok : status = rspOk
    · simp [gatedReply, hok]
    · simp [gatedReply, hok, h]
  | touch hfirst hmids htries hfinal hlast =>
    rw [gatedReply_touch hfirst hmids htries hfinal hlast]
    by_cases hok : status = rspOk
    · subst hok
      have hend : (gateEnd rspOk).map gateFailure = some (.ok (rspOk, [rspOk])) := rfl
      rw [hend]
      simp [eq_comm (a := [rspOk])]
    · have hne (r : GateResult) (hr : gateEnd status = some r) : r.1 = false := by
        simp only [gateEnd, if_neg hok] at hr
        split at hr
        · cases hr
          rfl
        · split at hr
          · cases hr
            rfl
          · cases hr
      cases hr : gateEnd status with
      | none => simp [hok]
      | some r =>
        obtain ⟨_ | _, e⟩ := r
        · cases e <;> simp [hok, gateFailure]
        · cases hne _ hr

theorem gatedReply_contract_touch : gatedReply cmdKeyDelete [rspWaitFp]
    [[rspErrFpNotMatch], [rspOk, rspOk]] = some (.ok (rspOk, [rspOk])) ↔
      rspOk = rspOk ∧ ([[rspErrFpNotMatch], [rspOk, rspOk]] ≠ [] → [rspOk] = [rspOk]) :=
  gatedReply_contract_iff (@EndsWith.touch rspOk [rspOk] rspWaitFp [] [[rspErrFpNotMatch]] rfl
    (by decide) (by decide) rfl (by decide))

/-- A refusal for a low battery comes as an error without a status; after a
touch it is not even taken for the end of the wait, a third mismatch comes as
an error, and the index of a new key is lost. -/
theorem final_status_lost :
    (¬ ∀ cmd status payload answer frames, EndsWith status payload answer frames →
      gatedReply cmd answer frames = some (.ok (status, payload))) ∧
    gatedReply cmdKeyGenerate [rspErrLowBattery] [] = some (.error "0x67 failed: 0xf4") ∧
    gatedReply cmdKeyGenerate [rspWaitFp] [[rspErrLowBattery]] = none ∧
    gatedReply cmdAuthRequest [rspWaitFp] (List.replicate 3 [rspErrFpNotMatch]) =
      some (.error "FP-gate failed: 0x07") ∧
    gatedReply cmdKeyGenerate [rspWaitFp] [[rspOk, 0, 0, 5]] = some (.ok (rspOk, [rspOk])) := by
  refine ⟨fun h => ?_, by decide, by decide, by decide, by decide⟩
  have hlow := h cmdKeyGenerate rspErrLowBattery [] [rspErrLowBattery] [] (.immediate rfl)
  exact absurd hlow (by decide)

end

-- ---------------------------------------------------------------------------
-- The code
-- ---------------------------------------------------------------------------

/-- `send_fp_gated_inner` from the answer on. -/
def gatedAnswer (ext : Extern) (cmd : UInt8) : Except Str Bytes → Code BleResult
  | .error e => pure (.error e)
  | .ok [] => pure (.error "empty response")
  | .ok (status :: rest) =>
    if status = rspOk then pure (.ok (rspOk, rest))
    else if status ≠ rspWaitFp ∧ status ≠ rspFpGateApproved then
      pure (.error ("0x".toList ++ Str.hexByte cmd ++ " failed: 0x".toList ++ Str.hexByte status))
    else do
      armGate
      let now ← clock
      store fun c => { c with gateActive := true }
      let waited ← touchLoop ext .gate gateBranch (now + bleFpGateTimeout)
      let result ← gateOutcome waited
      store fun c => { c with gateActive := false }
      pure result

theorem sendFpGatedInner_eq {ext : Extern} {cmd : UInt8} {payload : Bytes} :
    sendFpGatedInner ext cmd payload =
      (sendCommandInner ext cmd payload bleCommandTimeout).bind (gatedAnswer ext cmd) := by
  refine congrArg _ (funext fun r => ?_)
  obtain e | _ | ⟨status, rest⟩ := r <;> rfl

/-- What the wait works on. -/
structure Gating (g : Gate) (frames : List Bytes) (s : Daemon) : Prop where
  pending : s.ble.gatePending = g.result.isNone
  failures : s.ble.authFailures = g.failures
  channel : s.ble.gate = { value := g.result, tx := g.result.isNone, rx := true }
  auth : s.ble.authPending = false
  pairing : s.ble.pairFpGate = false
  frames : s.link.notifyRx.map Frame.data = frames

def Daemon.gateState (s : Daemon) : Bool × UInt8 × Oneshot GateResult × Bool × Bool × List Frame :=
  (s.ble.gatePending, s.ble.authFailures, s.ble.gate, s.ble.authPending, s.ble.pairFpGate,
    s.link.notifyRx)

section
variable {ext : Extern} {g : Gate} {frames : List Bytes} {s s' : Daemon} {α β : Type} {cmd : UInt8}
  {f : Frame}

theorem Gating.congr (h : Gating g frames s) (he : s'.gateState = s.gateState) :
    Gating g frames s' := by
  simp only [Daemon.gateState, Prod.mk.injEq] at he
  obtain ⟨hp, hf, hc, ha, hg, hn⟩ := he
  exact ⟨hp.trans h.pending, hf.trans h.failures, hc.trans h.channel, ha.trans h.auth,
    hg.trans h.pairing, hn ▸ h.frames⟩

/-- A triple of the worker on its own. -/
abbrev Alone (A : Daemon → Prop) (t : Code α) (B : α → Daemon → Prop) : Prop :=
  (solo fun _ => True).Triple 0 A t B

/-- The code leaves the wait alone. -/
def Spares (t : Code α) : Prop := ∀ g frames, Alone (Gating g frames) t fun _ => Gating g frames

namespace Spares

theorem act {f : Daemon → List (α × Daemon)}
    (h : ∀ s a s', (a, s') ∈ f s → s'.gateState = s.gateState) : Spares (.act f .ret) :=
  fun _ _ => Solo.act fun s a s' _ hs hm => ⟨trivial, hs.congr (h s a s' hm)⟩

theorem ret {a : α} : Spares (.ret a : Code α) := fun _ _ => Solo.ret fun _ => id

theorem bind {t : Code α} {k : α → Code β} (ht : Spares t) (hk : ∀ a, Spares (k a)) :
    Spares (t.bind k) :=
  fun g frames => .bind (ht g frames) fun a => hk a g frames

theorem ite {p : Prop} [Decidable p] {t u : Code α} (ht : Spares t) (hu : Spares u) :
    Spares (if p then t else u) :=
  fun g frames => Solo.ite (fun _ => ht g frames) fun _ => hu g frames

theorem when {b : Bool} {t : Code Unit} (ht : Spares t) : Spares (Proc.when b t) := .ite ht .ret

theorem atomically {f : Daemon → α × Daemon} (h : ∀ s, (f s).2.gateState = s.gateState) :
    Spares (Proc.atomically f) :=
  .act fun s a s' hm => by
    rw [← h s, ← List.mem_singleton.mp hm]

theorem modify {f : Daemon → Daemon} (h : ∀ s, (f s).gateState = s.gateState) :
    Spares (Proc.modify f) :=
  .act fun s a s' hm => by
    rw [← h s, (Prod.mk.inj (List.mem_singleton.mp hm)).2]

theorem get {f : Daemon → α} : Spares (Proc.get f) := .atomically fun _ => rfl

theorem choose {as : List α} : Spares (Proc.choose as : Code α) :=
  .act fun s a s' hm => by
    obtain ⟨_, -, he⟩ := List.mem_map.mp hm
    rw [(Prod.mk.inj he).2]

end Spares

theorem awaitHelper_spares : Spares awaitHelper := by
  refine .bind .get fun now => .act fun s r s' hm => ?_
  simp only [List.mem_filterMap, List.mem_cons, List.not_mem_nil, or_false] at hm
  obtain ⟨b, rfl | rfl, hb⟩ := hm
  · unfold replyLineBranch at hb
    split at hb
    · cases hb
      rfl
    · split at hb
      · cases hb
        rfl
      · cases hb
  · rw [(deadlineBranch_some hb).2]

theorem sendAck_spares : Spares sendAck := by
  refine .bind (.bind (.act fun s r s' hm => ?_) fun r => ?_) fun _ => .ret
  · obtain hm | hm := List.mem_pair.mp hm
    · rw [(Prod.mk.inj hm).2]
      rfl
    · rw [(Prod.mk.inj hm).2]
  · cases r with
    | error e => exact .ret
    | ok =>
      dsimp only
      rw [waitWriteOk]
      refine .bind awaitHelper_spares fun reply => ?_
      cases reply with
      | line line =>
        refine .ite .ret ?_
        split
        · exact .ret
        · exact .ret
      | closed => exact .ret
      | timeout => exact .ret

theorem onFpMatch_spares : Spares (onFpMatch ext f) := by
  refine .bind (.atomically fun s => ?_) fun approved => .ite ?_ ?_
  · split
    · rfl
    · rfl
  · refine .bind (.bind .get fun _ => .modify fun _ => rfl) fun _ => .bind (.atomically fun _ => rfl) fun _ => ?_
    exact .when (.bind .get fun _ => .modify fun _ => rfl)
  · refine .bind .get fun _ => .bind .get fun _ => .when (.bind (.bind .get fun _ => .modify fun _ => rfl) ?_)
    refine fun _ => .bind (.bind .get fun owner => ?_) fun session => ?_
    · cases owner with
      | none => exact .ret
      | some uid => exact .choose
    · cases session with
      | none => exact .ret
      | some session =>
        exact .bind .choose fun _ => .when (.bind (.modify fun _ => rfl) fun _ => .bind .get fun _ => .modify fun _ => rfl)

theorem handleFpMatchSigned_spares : Spares (handleFpMatchSigned ext f) := by
  refine .bind .get fun _ => .ite sendAck_spares (.bind (.atomically fun _ => rfl) fun pairing => ?_)
  cases pairing with
  | none => exact .ret
  | some p =>
    refine .ite .ret (.bind (.modify fun _ => rfl) fun _ => .bind sendAck_spares fun _ => ?_)
    exact .bind .get fun _ => .when onFpMatch_spares

theorem handleLockRequest_spares : Spares (handleLockRequest ext) := by
  refine .bind .get fun _ => .when (.bind .get fun _ => .when (.bind .get fun _ => .bind .get ?_))
  refine fun _ => .when (.bind (.modify fun _ => rfl) fun _ => .bind (.bind .get fun owner => ?_) fun session => ?_)
  · cases owner with
    | none => exact .ret
    | some uid => exact .choose
  · cases session with
    | none => exact .ret
    | some session => exact .bind .choose fun _ => .ret

theorem routePairButton_spares {data : Bytes} : Spares (routePairButton data) := by
  unfold routePairButton
  split
  next status =>
    refine .bind .get fun pending => ?_
    cases classifyPairButton status with
    | confirmed => exact .when (.modify fun _ => rfl)
    | fingerprintOk => exact .when (.bind (.modify fun _ => rfl) fun _ => .modify fun _ => rfl)
    | terminal st => exact .when (.modify fun _ => rfl)
    | ignore => exact .ret
  next => exact .ret

theorem routeEnroll_spares {status current total : UInt8} :
    Spares (routeEnroll status current total) :=
  .bind (.when (.modify fun _ => rfl)) fun _ => .modify fun _ => rfl

/-- What is no answer leaves the wait alone. -/
theorem routeNotification_spares (hn : isNotification f.data = true) :
    Spares (routeNotification ext f) := by
  intro g frames
  unfold routeNotification
  split
  next => exact Spares.ret g frames
  next first rest hd =>
    refine Solo.ite (fun _ => handleFpMatchSigned_spares g frames) fun h₁ => ?_
    refine Solo.ite (fun _ => handleLockRequest_spares g frames) fun h₂ => ?_
    refine Solo.ite (fun _ => Spares.ret g frames) fun h₃ => ?_
    refine Solo.ite (fun _ => routeEnroll_spares g frames) fun h₄ => ?_
    refine Solo.ite (fun _ => Spares.ret g frames) fun h₅ => ?_
    refine Solo.ite (fun _ => routePairButton_spares g frames) fun h₆ => ?_
    rw [hd] at h₁ h₂ h₃ h₄ h₅ hn
    simp only [isNotification, Bool.or_eq_true, Bool.and_eq_true, decide_eq_true_eq] at hn
    obtain ((((h | h) | h) | h) | h) | h := hn
    · exact absurd h h₁
    · exact absurd h h₂
    · exact absurd h h₃
    · exact absurd h h₄
    · exact absurd h h₅
    · exact absurd h h₆

theorem deliver_gating {d : Delivery} {isOpen : Daemon → Bool} {send : Daemon → Daemon}
    {g' : Gate} (h : ∀ s, Gating g frames s → Gating g' frames (send s)) :
    Alone (Gating g frames) (deliver d f isOpen send) fun _ => Gating g' frames := by
  refine Solo.act fun s _ s' _ hs hm => ⟨trivial, ?_⟩
  obtain rfl := (Prod.mk.inj (List.mem_singleton.mp hm)).2
  have hg := h s hs
  dsimp only
  split
  · exact hg.congr rfl
  · exact hg

/-- The wait is resolved once. -/
theorem resolveGate_gating {r : GateResult} (hr : g.result = none) :
    Alone (Gating g frames) (resolveGate f r) fun _ => Gating (g.resolve r) frames := by
  refine deliver_gating fun s h => ⟨rfl, h.failures, ?_, h.auth, h.pairing, h.frames⟩
  simp [h.channel, hr, Oneshot.send, Gate.resolve]

theorem resolveResponse_spares : Spares (resolveResponse f) :=
  fun _ _ => deliver_gating fun _ h => h.congr rfl

theorem readBle_gating {h : BleState → Bool} {k : Bool → Code α} {b : Bool}
    {B : α → Daemon → Prop} (hb : ∀ s, Gating g frames s → h s.ble = b)
    (hk : Alone (Gating g frames) (k b) B) : Alone (Gating g frames) ((readBle h).bind k) B := by
  refine .bind (M := fun b' s => b' = b ∧ Gating g frames s) ?_ fun b' s hi hs => ?_
  · refine Solo.act fun s b' s' _ hs hm => ?_
    obtain ⟨rfl, rfl⟩ := Prod.mk.inj (List.mem_singleton.mp hm)
    exact ⟨trivial, hb _ hs, hs⟩
  · obtain ⟨rfl, hs⟩ := hs
    exact hk s hi hs

/-- A mismatch counts, and the last one ends the wait. -/
theorem countFailure_gating {r : GateResult} (hr : g.result = none) :
    Alone (Gating g frames) (countFailure (resolveGate f r)) fun _ =>
      Gating (let g := { g with failures := g.failures + 1 }
        if fpGateMaxFailures ≤ g.failures then g.resolve r else g) frames := by
  refine .bind (M := fun n s => n = g.failures + 1 ∧
    Gating { g with failures := g.failures + 1 } frames s) ?_ fun n s hi hs => ?_
  · refine Solo.act fun s n s' _ hs hm => ?_
    obtain ⟨rfl, rfl⟩ := Prod.mk.inj (List.mem_singleton.mp hm)
    refine ⟨trivial, by rw [hs.failures], hs.pending, by rw [← hs.failures], hs.channel, hs.auth,
      hs.pairing, hs.frames⟩
  · obtain ⟨rfl, hs⟩ := hs
    unfold Proc.when
    by_cases hl : fpGateMaxFailures ≤ g.failures + 1
    · simp only [hl, decide_true, if_true]
      exact resolveGate_gating (g := { g with failures := g.failures + 1 }) hr s hi hs
    · simp only [hl, decide_false, if_false]
      exact Solo.ret (fun _ => id) s hi hs

theorem routeAnswer_gating {first : UInt8} {rest : Bytes} (hd : f.data = first :: rest)
    (hn : isNotification f.data = false) : Alone (Gating g frames) (routeAnswer f first) fun _ =>
      Gating (g.route f.data) frames := by
  refine readBle_gating (fun _ h => h.pending) ?_
  refine readBle_gating (fun _ h => h.auth) (readBle_gating (fun _ h => h.pairing) ?_)
  rw [hd] at hn ⊢
  cases hr : g.result with
  | some r =>
    simp only [Gate.route, hn, hr]
    simpa using resolveResponse_spares g frames
  | none =>
    simp only [Gate.route, hn, hr, Option.isNone_none, Option.isSome_none, Bool.or_self,
      Bool.false_eq_true, if_false, true_or, and_true, and_false, true_and]
    by_cases h₁ : first = rspFpGateApproved
    · rw [if_pos h₁, if_pos h₁]
      exact Spares.ret g frames
    rw [if_neg h₁, if_neg h₁]
    by_cases h₂ : first = rspErrFpNotMatch
    · rw [if_pos h₂, if_pos h₂]
      simpa [hr] using countFailure_gating (f := f) (r := (false, some rspErrFpNotMatch)) hr
    rw [if_neg h₂, if_neg h₂]
    by_cases h₃ : first = rspOk
    · rw [if_pos h₃, if_pos h₃]
      exact resolveGate_gating hr
    rw [if_neg h₃, if_neg h₃]
    by_cases h₄ : isTouchError first = true
    · rw [if_pos h₄, if_pos h₄]
      exact resolveGate_gating hr
    · rw [if_neg h₄, if_neg h₄, if_neg fun h => h.1]
      exact resolveResponse_spares g frames

theorem routeNotification_gating :
    Alone (Gating g frames) (routeNotification ext f) fun _ => Gating (g.route f.data) frames := by
  cases hn : isNotification f.data with
  | true =>
    have hg : g.route f.data = g := Gate.route_interim (by simp [isInterim, hn])
    rw [hg]
    exact routeNotification_spares hn g frames
  | false =>
    unfold routeNotification
    split
    next hd =>
      rw [hd]
      exact Spares.ret g frames
    next first rest hd =>
      have hn' := hn
      rw [hd] at hn'
      simp only [isNotification, Bool.or_eq_false_iff, Bool.and_eq_false_imp, decide_eq_true_eq,
        decide_eq_false_iff_not] at hn'
      obtain ⟨⟨⟨⟨⟨h₁, h₂⟩, h₃⟩, h₄⟩, h₅⟩, h₆⟩ := hn'
      have hlen : f.data.length = (first :: rest).length := by rw [hd]
      rw [hlen]
      rw [if_neg fun h => h₁ h.1 h.2, if_neg fun h => h₂ h.1 h.2, if_neg fun h => h₃ h.1 h.2,
        if_neg fun h => h₄ h.1 h.2, if_neg fun h => h₅ h.1 h.2, if_neg h₆]
      exact routeAnswer_gating hd hn

theorem Gate.foldl_resolved {r : GateResult} (hr : g.result = some r) :
    frames.foldl Gate.route g = g := by
  induction frames with
  | nil => rfl
  | cons data frames ih =>
    have hroute : g.route data = g := by
      cases data with
      | nil => rfl
      | cons first rest => simp [route, hr]
    rw [List.foldl_cons, hroute, ih]

/-- The frames still to come take the wait to `total`. -/
def Towards (total : Gate) (s : Daemon) : Prop :=
  ∃ g frames, Gating g frames s ∧ frames.foldl Gate.route g = total

/-- How a round of the wait ends. -/
def Rounds (total : Gate) (w : Waited GateResult) (s : Daemon) : Prop :=
  match w with
  | .frame f => ∃ g frames, Gating g frames s ∧ (f.data :: frames).foldl Gate.route g = total
  | .resolved r => total.result = some r
  | _ => True

theorem touchSelect_alone {total : Gate} {deadline : Nat} : Alone (Towards total)
    (Proc.select [gateBranch, touchFrameBranch .gate, cancelBranch .gate,
      touchDeadlineBranch .gate deadline]) (Rounds total) := by
  refine Solo.act fun s w s' _ hs hm => ⟨trivial, ?_⟩
  obtain ⟨g, frames, hg, rfl⟩ := hs
  simp only [List.mem_filterMap, List.mem_cons, List.not_mem_nil, or_false] at hm
  obtain ⟨b, rfl | rfl | rfl | rfl, hb⟩ := hm
  · simp only [gateBranch, hg.channel, Oneshot.recv] at hb
    cases hr : g.result with
    | none => simp [hr] at hb
    | some r =>
      obtain ⟨rfl, -⟩ : Waited.resolved r = w ∧ _ := by simpa [hr] using hb
      rw [Rounds, Gate.foldl_resolved hr, hr]
  · simp only [touchFrameBranch, notifyBranch] at hb
    split at hb
    · cases hb
    · next f rest hrx =>
      obtain ⟨rfl, rfl⟩ := Prod.mk.inj (Option.some.inj hb)
      have hrx : s.link.notifyRx = f :: rest := hrx
      have hframes := hg.frames
      rw [hrx] at hframes
      refine ⟨g, rest.map Frame.data, ⟨hg.pending, hg.failures, hg.channel, hg.auth, hg.pairing,
        rfl⟩, ?_⟩
      rw [← hframes]
      rfl
  · obtain ⟨p, -, hp⟩ := Option.map_eq_some_iff.mp hb
    obtain ⟨rfl, -⟩ := Prod.mk.inj hp
    trivial
  · rw [(deadlineBranch_some hb).1]
    trivial

theorem touchLoop_alone {total : Gate} {deadline : Nat} : Alone (Towards total)
    (touchLoop ext .gate gateBranch deadline) fun w _ => ∀ r, w = .resolved r → total.result = some r := by
  refine Solo.loop (.bind (M := fun _ => Towards total) ?_ fun _ => .bind touchSelect_alone fun w => ?_)
  · refine Solo.act fun s _ s' _ ⟨g, frames, hg, ht⟩ hm => ⟨trivial, g, frames, ?_, ht⟩
    obtain rfl := (Prod.mk.inj (List.mem_singleton.mp hm)).2
    exact hg.congr rfl
  · cases w with
    | frame f =>
      refine .bind (M := fun _ => Towards total) ?_ fun _ => Solo.ret fun _ => id
      rintro s hi ⟨g, frames, hg, ht⟩
      exact Protocol.wp_mono (fun _ s _ h => ⟨_, frames, h, ht⟩) (routeNotification_gating s hi hg)
    | resolved r => exact Solo.ret fun s h r' hr => by cases hr; exact h
    | cancelled => exact Solo.ret fun s h r' hr => nomatch hr
    | timeout => exact Solo.ret fun s h r' hr => nomatch hr

theorem towards_spares {total : Gate} {t : Code α} (h : Spares t) :
    Alone (Towards total) t fun _ => Towards total := by
  rintro s hi ⟨g, frames, hg, ht⟩
  exact Protocol.wp_mono (fun _ _ _ h => ⟨g, frames, h, ht⟩) (h g frames s hi hg)

/-- Alone with the frames, the code returns what they make of the command, if
it is not cancelled and in time. -/
theorem gatedAnswer_alone {answer : Bytes} (data : List Frame) :
    Alone (fun s => s.ble.authPending = false ∧ s.ble.pairFpGate = false ∧ s.link.notifyRx = data)
      (gatedAnswer ext cmd (.ok answer)) fun r _ => r = .error "FP-gate cancelled" ∨
        r = .error "FP-gate timeout" ∨ gatedReply cmd answer (data.map Frame.data) = some r := by
  cases answer with
  | nil => exact Solo.ret fun _ _ => .inr (.inr rfl)
  | cons status rest =>
    refine Solo.ite (fun h => Solo.ret fun _ _ => ?_) fun hok => Solo.ite (fun h => ?_) fun hmore => ?_
    · simp [gatedReply, h]
    · refine Solo.ret fun _ _ => ?_
      simp [gatedReply, hok, promisesMore, h]
    have hmore : promisesMore status = true := by
      simp only [promisesMore]
      grind
    let total := (data.map Frame.data).foldl Gate.route .armed
    refine .bind (M := fun _ => Towards total) ?_ fun _ => ?_
    · refine Solo.act fun s _ s' _ ⟨ha, hp, hn⟩ hm => ⟨trivial, ?_⟩
      obtain rfl := (Prod.mk.inj (List.mem_singleton.mp hm)).2
      exact ⟨.armed, _, ⟨rfl, rfl, rfl, ha, hp, congrArg (List.map Frame.data) hn⟩, rfl⟩
    refine .bind (M := fun _ => Towards total) ?_ fun now => .bind (M := fun _ => Towards total) ?_ ?_
    · exact towards_spares .get
    · exact towards_spares (.modify fun _ => rfl)
    refine fun _ => .bind touchLoop_alone fun w => .bind (M := fun r _ =>
      r = .error "FP-gate cancelled" ∨ r = .error "FP-gate timeout" ∨
        total.result.map gateFailure = some r) ?_ fun r => .bind Solo.const fun _ => ?_
    · cases w with
      | frame f => exact Solo.ret fun _ _ => .inr (.inl rfl)
      | resolved r =>
        refine Solo.ret fun _ h => .inr (.inr ?_)
        rw [h r rfl]
        rfl
      | cancelled => exact .bind Solo.const fun _ => Solo.ret fun _ _ => .inl rfl
      | timeout => exact Solo.ret fun _ _ => .inr (.inl rfl)
    · refine Solo.ret fun _ h => ?_
      simpa only [gatedReply, if_neg hok, if_pos hmore] using h

end

end Immurok
