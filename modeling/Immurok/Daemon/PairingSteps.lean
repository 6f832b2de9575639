import Immurok.Async.Steps
import Immurok.Daemon.Apart
import Immurok.Daemon.Sound

/-!
# The steps of a pairing

What the worker does in `do_pair`, whatever the others do to the state between
its steps: how often it sends `PAIR_INIT`, which frames come through to its
waits, and when it takes the device for paired.
-/

namespace Immurok

open Async

/-- A step of the worker, from a state to a state. -/
abbrev Step := Daemon × Daemon

-- ---------------------------------------------------------------------------
-- What a step does
-- ---------------------------------------------------------------------------

/-- `PAIR_INIT` is written. -/
def Ev.initiates : Ev → Bool
  | .wrote _ data _ => data = packet cmdPairInit []
  | _ => false

def Step.initiates (p : Step) : Bool :=
  match p.2.log with
  | [] => false
  | e :: es => e.initiates && es.length == p.1.log.length

/-- The pairing and what is known of it are as they were. -/
structure Step.Retains (p : Step) : Prop where
  pairing : p.2.coord.pairing = p.1.coord.pairing
  unpaired : p.2.coord.deviceReportsUnpaired = p.1.coord.deviceReportsUnpaired
  verified : p.2.coord.isDeviceVerified = p.1.coord.isDeviceVerified

/-- An answer that is there now and was not is no frame of the button. -/
def Step.NoButton (p : Step) : Prop :=
  ∀ d, p.2.ble.response.value = some d →
    p.1.ble.response.value = some d ∨ d.head? ≠ some cmdPairButton

/-- The worker is in a state in which its answer is `rsp`. -/
def Step.Answered (p : Step) (rsp : Bytes) : Prop := p.1.ble.response.value = some rsp

/-- The packet is written. -/
def Step.Writes (p : Step) (data : Bytes) : Prop :=
  p.2.log = commandWritten data p.1.aux :: p.1.log

/-- A public key of the device was answered, then `PAIR_CONFIRM` written and
accepted, and the two keys make a shared one. -/
def Earned (ext : Extern) (before : List Step) : Prop :=
  ∃ rsp n crsp shared key, ∃ p₁ p₂ p₃ : Step, [p₁, p₂, p₃].Sublist before ∧
    p₁.Answered rsp ∧ 1 + compressedPubkeyLen ≤ rsp.length ∧ rsp.head? = some cmdPairInit ∧
    p₂.Writes (packet cmdPairConfirm (ext.generateKeypair n).2) ∧
    p₃.Answered crsp ∧ [cmdPairConfirm, rspOk] <+: crsp ∧
    ext.ecdhSharedSecret (ext.generateKeypair n).1 ((rsp.drop 1).take compressedPubkeyLen) =
      .ok shared ∧
    ext.deriveSharedKey shared = .ok key

/-- What is true of the steps of a pairing at any time. -/
structure PairingSteps (ext : Extern) (l : List Step) : Prop where
  inits : l.countP Step.initiates ≤ 4
  noButton : ∀ p ∈ l, p.NoButton
  earned : ∀ before p after, l = before ++ p :: after → ¬p.Retains → Earned ext before

-- ---------------------------------------------------------------------------
-- Quiet code
-- ---------------------------------------------------------------------------

/-- None of this happens. -/
structure Daemon.Quiet (s s' : Daemon) : Prop where
  retains : Step.Retains (s, s')
  log : s'.log = s.log ∨ ∃ e, s'.log = e :: s.log ∧ e.initiates = false
  noButton : Step.NoButton (s, s')

abbrev Hushed (t : Code α) : Prop := Proc.Every Daemon.Quiet t

variable {ext : Extern} {f : Frame} {s s' : Daemon} {α β : Type}

theorem initiates_of_log_eq (h : s'.log = s.log) : Step.initiates (s, s') = false := by
  unfold Step.initiates
  rw [h]
  split
  · rfl
  next e es heq => rw [heq]; simp

namespace Daemon.Quiet

theorem refl (s : Daemon) : s.Quiet s := ⟨⟨rfl, rfl, rfl⟩, .inl rfl, fun _ => .inl⟩

theorem of_eq (h : s' = s) : s.Quiet s' := h ▸ .refl s

theorem note {e : Ev} (he : e.initiates = false) (h : s.Quiet s') (hl : s'.log = s.log) :
    s.Quiet (s'.note e) where
  retains := ⟨h.retains.pairing, h.retains.unpaired, h.retains.verified⟩
  log := .inr ⟨e, congrArg (e :: ·) hl, he⟩
  noButton := h.noButton

theorem initiates (h : s.Quiet s') : Step.initiates (s, s') = false := by
  obtain hl | ⟨e, hl, he⟩ := h.log
  · exact initiates_of_log_eq hl
  · simp [Step.initiates, hl, he]

end Daemon.Quiet

theorem get_hushed {g : Daemon → α} : Hushed (Proc.get g) := Proc.Every.get .refl

theorem choose_hushed {as : List α} : Hushed (Proc.choose as : Code α) := Proc.Every.choose .refl

theorem store_hushed {g : Coordinator → Coordinator}
    (h : ∀ c, (g c).pairing = c.pairing ∧ (g c).deviceReportsUnpaired = c.deviceReportsUnpaired ∧
      (g c).isDeviceVerified = c.isDeviceVerified) :
    Hushed (store g) :=
  Proc.Every.modify fun s =>
    ⟨⟨(h s.coord).1, (h s.coord).2.1, (h s.coord).2.2⟩, .inl rfl, fun _ => .inl⟩

/-- A step that makes an event. -/
theorem event_hushed {g : Daemon → Daemon} {ev : Daemon → Ev}
    (h : ∀ s, s.Quiet (g s) ∧ (g s).log = s.log ∧ (ev s).initiates = false) :
    Hushed (Proc.modify fun s => (g s).note (ev s)) :=
  Proc.Every.modify fun s => .note (h s).2.2 (h s).1 (h s).2.1

theorem tryThen_hushed {t : Code (Except Str α)} {k : α → Code (Except Str β)} (ht : Hushed t)
    (hk : ∀ a, Hushed (k a)) : Hushed (tryThen t k) :=
  tryThen_all Proc.Every.closed ht hk

theorem deadlineBranch_eq {t : Nat} {b a : β} (h : deadlineBranch t b s = some (a, s')) :
    s' = s ∧ a = b := by
  unfold deadlineBranch at h
  split at h
  · obtain ⟨rfl, rfl⟩ := Prod.mk.inj (Option.some.inj h)
    exact ⟨rfl, rfl⟩
  · cases h

theorem awaitHelper_hushed : Hushed awaitHelper := by
  refine .bind get_hushed fun now => .select fun br hbr s a s' h => ?_
  obtain rfl | hbr := List.mem_cons.mp hbr
  · unfold replyLineBranch at h
    split at h
    · obtain ⟨-, rfl⟩ := Prod.mk.inj (Option.some.inj h)
      exact ⟨⟨rfl, rfl, rfl⟩, .inl rfl, fun _ => .inl⟩
    · split at h
      · exact .of_eq (Prod.mk.inj (Option.some.inj h)).2.symm
      · cases h
  · obtain rfl := List.mem_singleton.mp hbr
    exact .of_eq (deadlineBranch_eq h).1

theorem waitWriteOk_hushed : Hushed waitWriteOk := by
  refine .bind awaitHelper_hushed fun reply => ?_
  cases reply with
  | line line =>
    refine .ite .ret ?_
    split <;> exact .ret
  | _ => exact .ret

theorem cmdWrite_hushed {ev : Aux → Ev}
    (h : ∀ a, (ev a).initiates = false) : Hushed (cmdWrite ev) := by
  refine tryThen_hushed (.act fun s a s' hm => ?_) fun _ => waitWriteOk_hushed
  obtain hm | hm := List.mem_pair.mp hm
  · exact (Prod.mk.inj hm).2 ▸ .note (h s.aux) (.refl s) rfl
  · exact .of_eq (Prod.mk.inj hm).2

theorem sendAck_hushed : Hushed sendAck :=
  .bind (cmdWrite_hushed fun _ => rfl) fun _ => .ret

-- ---------------------------------------------------------------------------
-- Notifications
-- ---------------------------------------------------------------------------

theorem targetSession_hushed : Hushed (targetSession ext) := by
  refine .bind get_hushed fun owner => ?_
  cases owner with
  | none => exact .ret
  | some uid => exact choose_hushed

theorem setPreAuth_hushed {i : TaskId} {why : Aux → Arming} {duration : Nat}
    {services : List Str} : Hushed (setPreAuth ext i why duration services) :=
  .bind get_hushed fun _ => event_hushed fun _ => ⟨⟨⟨rfl, rfl, rfl⟩, .inl rfl, fun _ => .inl⟩, rfl, rfl⟩

theorem unlockScreen_hushed : Hushed (unlockScreen ext) := by
  refine .bind targetSession_hushed fun session => ?_
  cases session with
  | none => exact .ret
  | some session =>
    refine .bind choose_hushed fun _ => .when (.bind (event_hushed ?_) fun _ => setPreAuth_hushed)
    exact fun _ => ⟨⟨⟨rfl, rfl, rfl⟩, .inl rfl, fun _ => .inl⟩, rfl, rfl⟩

theorem lockScreen_hushed : Hushed (lockScreen ext) := by
  refine .bind targetSession_hushed fun session => ?_
  cases session with
  | none => exact .ret
  | some _ => exact .bind choose_hushed fun _ => .ret

theorem setLastAuthFlow_hushed : Hushed setLastAuthFlow :=
  .bind get_hushed fun _ => store_hushed fun _ => ⟨rfl, rfl, rfl⟩

theorem approvePendingPam_hushed : Hushed (approvePendingPam f) :=
  .atomically fun s => by
    split
    · exact .refl s
    · exact .note rfl ⟨⟨rfl, rfl, rfl⟩, .inl rfl, fun _ => .inl⟩ rfl

theorem onFpMatch_hushed : Hushed (onFpMatch ext f) := by
  refine .bind approvePendingPam_hushed fun approved => .ite ?_ ?_
  · exact .bind setLastAuthFlow_hushed fun _ =>
      .bind (.atomically fun s => .note rfl (.refl s) rfl) fun _ => .when setPreAuth_hushed
  · exact .bind get_hushed fun _ => .bind get_hushed fun _ =>
      .when (.bind setLastAuthFlow_hushed fun _ => unlockScreen_hushed)

theorem handleFpMatchSigned_hushed : Hushed (handleFpMatchSigned ext f) := by
  refine .bind get_hushed fun _ => .ite sendAck_hushed ?_
  refine .bind (.atomically fun s => .note rfl (.refl s) rfl) fun pairing => ?_
  cases pairing with
  | none => exact .ret
  | some p =>
    refine .ite .ret (.bind (event_hushed ?_) fun _ => .bind sendAck_hushed fun _ => ?_)
    · exact fun _ => ⟨⟨⟨rfl, rfl, rfl⟩, .inl rfl, fun _ => .inl⟩, rfl, rfl⟩
    · exact .bind get_hushed fun _ => .when onFpMatch_hushed

theorem handleLockRequest_hushed : Hushed (handleLockRequest ext) := by
  refine .bind get_hushed fun _ => .when <| .bind get_hushed fun _ => .when <| .bind get_hushed fun _ =>
    .bind get_hushed fun _ => .when (.bind (event_hushed ?_) fun _ => lockScreen_hushed)
  exact fun _ => ⟨⟨⟨rfl, rfl, rfl⟩, .inl rfl, fun _ => .inl⟩, rfl, rfl⟩

theorem updateBle_hushed {g : BleState → BleState}
    (h : ∀ b d, (g b).response.value = some d → b.response.value = some d) :
    Hushed (updateBle g) :=
  Proc.Every.modify fun s => ⟨⟨rfl, rfl, rfl⟩, .inl rfl, fun d hd => .inl (h s.ble d hd)⟩

/-- The frames of the button go to the wait for it only. -/
theorem routePairButton_hushed {data : Bytes} : Hushed (routePairButton data) := by
  unfold routePairButton
  split
  next status =>
    refine .bind get_hushed fun pending => ?_
    cases classifyPairButton status with
    | confirmed => exact .when (store_hushed fun _ => ⟨rfl, rfl, rfl⟩)
    | fingerprintOk =>
      exact .when (.bind (updateBle_hushed fun _ _ => id) fun _ => store_hushed fun _ => ⟨rfl, rfl, rfl⟩)
    | terminal st => exact .when (updateBle_hushed fun _ _ => id)
    | ignore => exact .ret
  · exact .ret

/-- What resolves a wait is the frame itself. -/
theorem deliver_hushed {d : Delivery} {isOpen : Daemon → Bool} {send : Daemon → Daemon}
    (h : ∀ s, s.Quiet (send s) ∧ (send s).log = s.log) : Hushed (deliver d f isOpen send) :=
  .modify fun s => by
    split
    · exact .note rfl (h s).1 (h s).2
    · exact (h s).1

theorem countFailure_hushed {last : Code Unit} (h : Hushed last) : Hushed (countFailure last) :=
  .bind (.atomically fun _ => ⟨⟨rfl, rfl, rfl⟩, .inl rfl, fun _ => .inl⟩) fun _ => .when h

theorem resolveGate_hushed {r : GateResult} : Hushed (resolveGate f r) :=
  deliver_hushed fun _ => ⟨⟨⟨rfl, rfl, rfl⟩, .inl rfl, fun _ => .inl⟩, rfl⟩

theorem resolveAuth_hushed {b : Bool} : Hushed (resolveAuth f b) :=
  deliver_hushed fun _ => ⟨⟨⟨rfl, rfl, rfl⟩, .inl rfl, fun _ => .inl⟩, rfl⟩

theorem resolveResponse_hushed (h : f.data.head? ≠ some cmdPairButton) :
    Hushed (resolveResponse f) :=
  deliver_hushed fun s => by
    refine ⟨⟨⟨rfl, rfl, rfl⟩, .inl rfl, fun d hd => ?_⟩, rfl⟩
    obtain ⟨rfl, -⟩ | hv := Oneshot.send_value hd
    · exact .inr h
    · exact .inl hv

theorem routeAnswer_hushed {first : UInt8} (h : f.data.head? ≠ some cmdPairButton) :
    Hushed (routeAnswer f first) :=
  .bind get_hushed fun _ => .bind get_hushed fun _ => .bind get_hushed fun _ =>
    .ite .ret <| .ite (countFailure_hushed resolveGate_hushed) <|
    .ite (countFailure_hushed resolveAuth_hushed) <| .ite resolveGate_hushed <|
    .ite resolveAuth_hushed <| .ite resolveGate_hushed <| .ite resolveAuth_hushed <|
    resolveResponse_hushed h

/-- Whatever is routed, none of its steps resolves an answer by a frame of the
button. -/
theorem routeNotification_hushed : Hushed (routeNotification ext f) := by
  unfold routeNotification
  split
  · exact .ret
  next first rest hf =>
    refine .ite handleFpMatchSigned_hushed <| .ite handleLockRequest_hushed <| .ite .ret <|
      .ite (.bind (.when (store_hushed ?_)) fun _ => store_hushed ?_) <| .ite .ret ?_
    · exact fun _ => ⟨rfl, rfl, rfl⟩
    · exact fun _ => ⟨rfl, rfl, rfl⟩
    split
    · exact routePairButton_hushed
    next hne =>
      refine routeAnswer_hushed fun h => hne ?_
      rw [hf] at h
      exact Option.some.inj h

-- ---------------------------------------------------------------------------
-- Commands
-- ---------------------------------------------------------------------------

/-- Quiet steps keep `A`, and `PairingSteps` with it. -/
def Persists (ext : Extern) (A : List Step → Prop) : Prop :=
  ∀ l s s', A l → s.Quiet s' → PairingSteps ext (l ++ [(s, s')]) ∧ A (l ++ [(s, s')])

/-- There were steps with `A`, then one with `R`. -/
def Then (A : List Step → Prop) (R : Step → Prop) (l : List Step) : Prop :=
  ∃ before p, before ++ [p] <+: l ∧ A before ∧ R p

/-- After steps with `A` the worker has seen the answer, where it is no error. -/
def Heard (A : List Step → Prop) (r : Except Str Bytes) (l : List Step) : Prop :=
  ∀ rsp, r = .ok rsp → Then A (·.Answered rsp) l

variable {A A' P : List Step → Prop} {R : Step → Prop} {l : List Step} {p : Step}
  {rsp data : Bytes} {r : Except Str Bytes} {t : Code α}

theorem Then.here (ha : A l) (hp : R p) : Then A R (l ++ [p]) := ⟨l, p, List.prefix_rfl, ha, hp⟩

theorem Then.snoc (h : Then A R l) : Then A R (l ++ [p]) := by
  obtain ⟨before, q, hq, ha, hr⟩ := h
  exact ⟨before, q, hq.trans (List.prefix_append l [p]), ha, hr⟩

theorem Then.mono (h : Then A R l) (hA : ∀ l, A l → A' l) : Then A' R l := by
  obtain ⟨before, q, hq, ha, hr⟩ := h
  exact ⟨before, q, hq, hA before ha, hr⟩

theorem Heard.mono (h : Heard A r l) (hA : ∀ l, A l → A' l) : Heard A' r l :=
  fun rsp hr => (h rsp hr).mono hA

/-- What the code sees on its way, where its steps are those of a pairing. -/
abbrev Sees (ext : Extern) (A : List Step → Prop) (t : Code α) (B : α → List Step → Prop) : Prop :=
  Proc.Traces (PairingSteps ext) A t B

theorem Persists.hushed (hA : Persists ext A) (ht : Hushed t) : Sees ext A t fun _ => A :=
  .of_every ht hA

/-- With what is not undone by a further step. -/
theorem Persists.and {R : List Step → Prop} (hA : Persists ext A)
    (hR : ∀ l p, R l → R (l ++ [p])) : Persists ext fun l => A l ∧ R l :=
  fun l s s' h hq => (hA l s s' h.1 hq).imp_right (⟨·, hR l _ h.2⟩)

theorem Persists.heard (hA : Persists ext A) : Persists ext fun l => A l ∧ Heard A' r l :=
  hA.and fun _ _ h rsp hr => (h rsp hr).snoc

/-- An answer is taken. -/
theorem Persists.takes (hA : Persists ext A) (ha : A l)
    (hr : s.ble.response.recv = some (some rsp)) :
    PairingSteps ext (l ++ [(s, s)]) ∧ A (l ++ [(s, s)]) ∧ Heard A (.ok rsp) (l ++ [(s, s)]) := by
  refine (hA l s s ha (.refl s)).imp_right (⟨·, fun _ heq => ?_⟩)
  obtain rfl := Except.ok.inj heq
  exact .here ha (Oneshot.recv_some hr)

theorem notifyBranch_quiet {k : Frame → β} {b : β} (h : notifyBranch k s = some (b, s')) :
    s.Quiet s' ∧ ∃ f, b = k f := by
  unfold notifyBranch at h
  split at h
  · cases h
  · obtain ⟨rfl, rfl⟩ := Prod.mk.inj (Option.some.inj h)
    exact ⟨.note rfl ⟨⟨rfl, rfl, rfl⟩, .inl rfl, fun _ => .inl⟩ rfl, _, rfl⟩

theorem responseBranch_eq {r : Waited (Option Bytes)} (h : responseBranch s = some (r, s')) :
    s' = s ∧ ∃ got, r = .resolved got ∧ s.ble.response.recv = some got := by
  obtain ⟨got, hgot, heq⟩ := Option.map_eq_some_iff.mp h
  obtain ⟨rfl, rfl⟩ := Prod.mk.inj heq
  exact ⟨rfl, got, rfl, hgot⟩

/-- The response, the next frame, or the end of the wait. -/
theorem responseSelect_sees {deadline : Nat} (hA : Persists ext A) :
    Sees ext A (Proc.select
      [responseBranch, notifyBranch .frame, deadlineBranch deadline .timeout]) fun r l =>
        A l ∧ ∀ rsp, r = .resolved (some rsp) → Heard A (.ok rsp) l := by
  refine .select fun br hbr l s r s' ha h => ?_
  simp only [List.mem_cons, List.not_mem_nil, or_false] at hbr
  obtain rfl | rfl | rfl := hbr
  · obtain ⟨rfl, got, rfl, hgot⟩ := responseBranch_eq h
    cases got with
    | none => exact (hA l s' s' ha (.refl s')).imp_right (⟨·, nofun⟩)
    | some rsp =>
      obtain ⟨hi, ha', hheard⟩ := hA.takes ha hgot
      refine ⟨hi, ha', fun _ heq => ?_⟩
      obtain rfl := Option.some.inj (Waited.resolved.inj heq)
      exact hheard
  · obtain ⟨hq, f, rfl⟩ := notifyBranch_quiet h
    exact (hA l s s' ha hq).imp_right (⟨·, nofun⟩)
  · obtain ⟨rfl, rfl⟩ := deadlineBranch_eq h
    exact (hA l s' s' ha (.refl s')).imp_right (⟨·, nofun⟩)

theorem awaitResponse_sees {cmd : UInt8} {deadline : Nat} (hA : Persists ext A) :
    Sees ext A (awaitResponse ext cmd deadline) fun r l => A l ∧ Heard A r l := by
  refine .loop (.bind (responseSelect_sees hA) fun r => ?_)
  cases r with
  | resolved got =>
    cases got with
    | none => exact .ret fun l h => ⟨h.1, nofun⟩
    | some rsp => exact .ret fun l h => ⟨h.1, h.2 rsp rfl⟩
  | frame f =>
    exact .bind ((hA.hushed routeNotification_hushed).pre fun _ => And.left) fun _ => .ret fun _ => id
  | cancelled => exact .ret fun _ => And.left
  | timeout =>
    refine .bind ((hA.hushed (updateBle_hushed ?_)).pre fun _ => And.left) fun _ =>
      .ret fun l h => ⟨h, nofun⟩
    exact fun _ _ => id

theorem armResponse_hushed : Hushed armResponse :=
  event_hushed fun _ => ⟨⟨⟨rfl, rfl, rfl⟩, .inl rfl, nofun⟩, rfl, rfl⟩

theorem leaveResponse_hushed : Hushed leaveResponse :=
  event_hushed fun _ => ⟨⟨⟨rfl, rfl, rfl⟩, .inl rfl, nofun⟩, rfl, rfl⟩

/-- `A'` after the packet was written, and `A` in any case. -/
theorem cmdWrite_sees (hP : ∀ l s, P l → PairingSteps ext (l ++ [(s, s)]) ∧ A (l ++ [(s, s)]))
    (hA' : Persists ext A') (himp : ∀ l, A' l → A l)
    (hw : ∀ l (s : Daemon), P l → PairingSteps ext (l ++ [(s, s.note (commandWritten data s.aux))]) ∧
      A' (l ++ [(s, s.note (commandWritten data s.aux))])) :
    Sees ext P (cmdWrite (commandWritten data)) fun r l => A l ∧ (r = .ok () → A' l) := by
  refine .bind (M := fun r l => A l ∧ (r = .ok () → A' l)) (.act fun l s r s' hp hm => ?_) fun r => ?_
  · obtain hm | hm := List.mem_pair.mp hm
    · obtain ⟨rfl, rfl⟩ := Prod.mk.inj hm
      exact (hw l s hp).imp_right fun h => ⟨himp _ h, fun _ => h⟩
    · obtain ⟨rfl, rfl⟩ := Prod.mk.inj hm
      exact (hP l s' hp).imp_right (⟨·, nofun⟩)
  · cases r with
    | error e => exact .ret fun l h => ⟨h.1, nofun⟩
    | ok u =>
      refine ((hA'.hushed waitWriteOk_hushed).pre fun l h => h.2 rfl).post fun r l h => ?_
      exact ⟨himp l h, fun _ => h⟩

theorem sendCommandInner_sees {cmd : UInt8} {payload : Bytes} {timeout : Nat} (hP : Persists ext P)
    (hA : Persists ext A) (hPA : ∀ l, P l → A l) (hA' : Persists ext A') (himp : ∀ l, A' l → A l)
    (hw : ∀ l (s : Daemon), P l →
      PairingSteps ext (l ++ [(s, s.note (commandWritten (packet cmd payload) s.aux))]) ∧
        A' (l ++ [(s, s.note (commandWritten (packet cmd payload) s.aux))])) :
    Sees ext P (sendCommandInner ext cmd payload timeout) fun r l => A l ∧ Heard A' r l := by
  refine .bind (hP.hushed armResponse_hushed) fun _ => .bind (cmdWrite_sees (A := A) ?_ hA' himp hw) ?_
  · exact fun l s hp => (hP l s s hp (.refl s)).imp_right (hPA _)
  · intro r
    cases r with
    | error e =>
      exact .bind ((hA.hushed leaveResponse_hushed).pre fun _ => And.left) fun _ =>
        .ret fun l h => ⟨h, nofun⟩
    | ok u =>
      refine .bind ((hA'.hushed get_hushed).pre fun l h => h.2 rfl) fun now => ?_
      refine .bind (awaitResponse_sees hA') fun r => ?_
      exact .bind (hA'.heard.hushed leaveResponse_hushed) fun _ =>
        .ret fun l h => ⟨himp l h.1, h.2⟩

-- ---------------------------------------------------------------------------
-- `PAIR_INIT`
-- ---------------------------------------------------------------------------

/-- So far `PAIR_INIT` was written at most `n` times, and nothing came of it. -/
structure Begun (n : Nat) (l : List Step) : Prop where
  inits : l.countP Step.initiates ≤ n
  noButton : ∀ p ∈ l, p.NoButton
  retains : ∀ p ∈ l, p.Retains

variable {n : Nat}

theorem forall_mem_snoc {R : Step → Prop} (h : ∀ p ∈ l, R p) (hp : R p) : ∀ q ∈ l ++ [p], R q := by
  intro q hq
  obtain hq | hq := List.mem_append.mp hq
  · exact h q hq
  · exact List.mem_singleton.mp hq ▸ hp

theorem countP_snoc_of_not (h : p.initiates = false) :
    (l ++ [p]).countP Step.initiates = l.countP Step.initiates := by
  rw [List.countP_append, List.countP_singleton, h]
  simp

namespace Begun

theorem mono {m : Nat} (h : Begun n l) (hnm : n ≤ m) : Begun m l :=
  ⟨h.inits.trans hnm, h.noButton, h.retains⟩

theorem pairing (h : Begun n l) (hn : n ≤ 4) : PairingSteps ext l where
  inits := h.inits.trans hn
  noButton := h.noButton
  earned before p after heq hp := by
    subst heq
    exact absurd (h.retains p (by simp)) hp

theorem quiet (h : Begun n l) (hq : s.Quiet s') : Begun n (l ++ [(s, s')]) where
  inits := by
    rw [countP_snoc_of_not hq.initiates]
    exact h.inits
  noButton := forall_mem_snoc h.noButton hq.noButton
  retains := forall_mem_snoc h.retains hq.retains

theorem settled (hn : n ≤ 4) : Persists ext (Begun n) :=
  fun _ _ _ h hq => ⟨(h.quiet hq).pairing hn, h.quiet hq⟩

/-- One more is written. -/
theorem write {data : Bytes} (h : Begun n l) :
    Begun (n + 1) (l ++ [(s, s.note (commandWritten data s.aux))]) where
  inits := by
    rw [List.countP_append, List.countP_singleton]
    have := h.inits
    split <;> omega
  noButton := forall_mem_snoc h.noButton fun _ => .inl
  retains := forall_mem_snoc h.retains ⟨rfl, rfl, rfl⟩

end Begun

/-- The packet of another command is written. -/
theorem quiet_write {c : UInt8} {payload : Bytes} (hc : c ≠ cmdPairInit) :
    s.Quiet (s.note (commandWritten (packet c payload) s.aux)) := by
  refine .note (decide_eq_false fun h => hc ?_) (.refl s) rfl
  exact (List.cons.inj h).1

/-- The slots are asked for, and the app's key is sent. -/
theorem Persists.sendCommandInner {cmd : UInt8} {payload : Bytes} {timeout : Nat}
    (hA : Persists ext A) (hc : cmd ≠ cmdPairInit) :
    Sees ext A (sendCommandInner ext cmd payload timeout) fun r l =>
      A l ∧ Heard (Then A (·.Writes (packet cmd payload))) r l := by
  have hA' : Persists ext fun l => A l ∧ Then A (·.Writes (packet cmd payload)) l :=
    hA.and fun _ _ h => h.snoc
  refine (sendCommandInner_sees hA hA (fun _ => id) hA' (fun _ => And.left) ?_).post ?_
  · exact fun l s ha => (hA l s _ ha (quiet_write hc)).imp_right (⟨·, .here ha rfl⟩)
  · exact fun r l h => ⟨h.1, h.2.mono fun _ => And.right⟩

/-- The worker has seen the answer, where it is no error. -/
abbrev Offered (r : Except Str Bytes) (l : List Step) : Prop := Heard (fun _ => True) r l

theorem Heard.offered (h : Heard A r l) : Offered r l := h.mono fun _ _ => trivial

/-- The device is taken for paired, and nothing else. -/
structure Daemon.Pairs (s s' : Daemon) : Prop where
  initiates : Step.initiates (s, s') = false
  noButton : Step.NoButton (s, s')

theorem Daemon.Quiet.pairs (h : s.Quiet s') : s.Pairs s' := ⟨h.initiates, h.noButton⟩

theorem Earned.snoc {before : List Step} (h : Earned ext before) : Earned ext (before ++ [p]) := by
  obtain ⟨rsp, n, crsp, shared, key, p₁, p₂, p₃, hsub, h⟩ := h
  exact ⟨rsp, n, crsp, shared, key, p₁, p₂, p₃, hsub.trans (List.sublist_append_left ..), h⟩

/-- With the keys earned, the device is taken for paired. -/
theorem PairingSteps.pairs (h : PairingSteps ext l) (he : Earned ext l) (hs : s.Pairs s') :
    PairingSteps ext (l ++ [(s, s')]) where
  inits := by
    rw [countP_snoc_of_not hs.initiates]
    exact h.inits
  noButton := forall_mem_snoc h.noButton hs.noButton
  earned before p after heq hp := by
    obtain rfl | ⟨after, q, rfl⟩ := List.eq_nil_or_concat after
    · obtain ⟨rfl, -⟩ := List.append_inj' heq rfl
      exact he
    · rw [List.concat_eq_append, ← List.cons_append, ← List.append_assoc] at heq
      exact h.earned before p after (List.append_inj' heq rfl).1 hp

/-- A frame is taken to be routed. -/
def Step.Routes (p : Step) : Prop := ∃ f, p.2.log = .routed f :: p.1.log

/-- The device has reported the fingerprint half done, `fpOk` if that is routed. -/
def reporting (now : Nat) (fpOk : Bool) : Daemon :=
  let s := Daemon.start .sample
  { s with
    now
    link := { s.link with notifyRx := [⟨[cmdPairButton, pairButtonFpOk], none⟩] }
    ble := { s.ble with
      response := .new, pairButton := .new, pairButtonPending := true, pairButtonFpOk := fpOk } }

def reported (now : Nat) : List (Daemon × Nat) :=
  List.replicate 4 (reporting now false, 0) ++ List.replicate 2 (reporting now true, 0)

def Step.pairs (p : Step) : Bool := p.2.coord.pairing != p.1.coord.pairing

end Immurok
