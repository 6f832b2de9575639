import Immurok.Daemon.Apart
import Immurok.Daemon.Routing

/-!
# Plain handlers keep to the view

Most handlers read and write the coordinator, queue commands and wait for
their replies: in whatever state, they make no events but these.
-/

namespace Immurok

open Async Machine

variable {ext : Extern} {files : Files} {i : TaskId} {K : Ev → Prop} {s s' : Daemon} {e : Ev}
  {α β : Type}

/-- The events of a handler that does not take part in approvals. -/
def Ev.Plain : Ev → Prop
  | .queued _ _ _ | .gotReply _ _ _ | .replyDropped _ _ | .cancelSent _ _ _ | .pairingSet _ _
  | .ownerSet _ _ | .settingsSet _ _ | .verifiedSet _ _ => True
  | _ => False

abbrev Plain (ext : Extern) (files : Files) (i : TaskId) (t : Code α) : Prop :=
  Only ext files i Ev.Plain t

/-- A step that makes no other events, and is apart from the worker's waits. -/
structure Modestly (ext : Extern) (files : Files) (i : TaskId) (s s' : Daemon) : Prop where
  makes : (machine ext files).Makes observed i Ev.Plain s s'
  apart : s.Apart s'

abbrev Modest (ext : Extern) (files : Files) (i : TaskId) (t : Code α) : Prop :=
  Proc.Every (Modestly ext files i) t

/-- A step that cannot be seen at all. -/
structure Daemon.Hidden (s s' : Daemon) : Prop where
  view : s'.view = s.view
  apart : s.Apart s'

theorem Modest.away {t : Code α} (h : Modest ext files i t) : Away t :=
  Proc.Every.mono h fun _ _ hs => hs.apart

theorem Modest.plain {t : Code α} (h : Modest ext files i t) : Plain ext files i t := by
  induction t with
  | ret a => trivial
  | act f k ih => exact ⟨fun s a s' hm => (h.1 s a s' hm).makes, fun a => ih a (h.2 a)⟩
  | iter body j k ihb ihk => exact ⟨fun j => ihb j (h.1 j), fun a => ihk a (h.2 a)⟩

theorem Daemon.Hidden.refl (s : Daemon) : s.Hidden s := ⟨rfl, .refl s⟩

theorem Daemon.Hidden.of_eq (h : s' = s) : s.Hidden s' := h ▸ .refl s

theorem Daemon.Hidden.modestly (h : s.Hidden s') : Modestly ext files i s s' :=
  ⟨.inl (Daemon.quiet h.view), h.apart⟩

theorem Ev.Plain.settles (h : e.Plain) : e.settles = false := by
  cases e with
  | dequeued j => exact h.elim
  | replied r reply => exact h.elim
  | _ => rfl

-- ---------------------------------------------------------------------------
-- Steps
-- ---------------------------------------------------------------------------

theorem hidden_modest {f : Daemon → List (α × Daemon)}
    (h : ∀ s a s', (a, s') ∈ f s → s.Hidden s') : Modest ext files i (.act f .ret) :=
  .act fun s a s' hm => (h s a s' hm).modestly

theorem get_modest {f : Daemon → α} : Modest ext files i (Proc.get f) :=
  .get fun _ => (Daemon.Hidden.of_eq rfl).modestly

theorem choose_modest {as : List α} : Modest ext files i (Proc.choose as : Code α) :=
  .choose fun _ => (Daemon.Hidden.of_eq rfl).modestly

theorem modify_modest {f : Daemon → Daemon} (h : ∀ s : Daemon, s.Hidden (f s)) :
    Modest ext files i (Proc.modify f) :=
  .modify fun s => (h s).modestly

theorem atomically_modest {f : Daemon → α × Daemon} (h : ∀ s : Daemon, s.Hidden (f s).2) :
    Modest ext files i (Proc.atomically f) :=
  .atomically fun s => (h s).modestly

theorem await_modest {f : Daemon → Option (α × Daemon)}
    (h : ∀ s a s', f s = some (a, s') → s.Hidden s') : Modest ext files i (Proc.await f) :=
  .await fun s a s' hs => (h s a s' hs).modestly

theorem select_modest {branches : List (Daemon → Option (α × Daemon))}
    (h : ∀ f ∈ branches, ∀ s a s', f s = some (a, s') → s.Hidden s') :
    Modest ext files i (Proc.select branches) :=
  .select fun f hf s a s' hs => (h f hf s a s' hs).modestly

theorem load_modest {f : Coordinator → α} : Modest ext files i (load f) := get_modest

theorem clock_modest : Modest ext files i clock := get_modest

theorem store_modest {f : Coordinator → Coordinator}
    (hv : ∀ s : Daemon, { s with coord := f s.coord }.view = s.view)
    (hg : ∀ c, (f c).gateActive = c.gateActive) :
    Modest ext files i (store f) :=
  modify_modest fun s => ⟨hv s, ⟨rfl, rfl, hg s.coord, .inl rfl⟩⟩

theorem Daemon.note_makes (hv : s'.view = s.view.act ext e) (ha : s.view.allowed ext e)
    (he : e.actor = some i) (hk : K e) :
    (machine ext files).Makes observed i K s (s'.note e) :=
  .inr ⟨e, he, hk, Daemon.note_emits hv ha⟩

/-- A step that makes a plain event. -/
theorem Daemon.note_modestly (hv : s'.view = s.view.act ext e) (ha : s.view.allowed ext e)
    (he : e.actor = some i) (hk : e.Plain)
    (hp : s.Apart s') :
    Modestly ext files i s (s'.note e) := by
  refine ⟨Daemon.note_makes hv ha he hk, .note hk.settles hp ?_⟩
  have hlog := congrArg View.past hv
  rwa [View.act_past] at hlog

theorem event_modest {g : Daemon → Daemon} (h : ∀ s, Modestly ext files i s (g s)) :
    Modest ext files i (Proc.modify g) := .modify h

-- ---------------------------------------------------------------------------
-- Commands
-- ---------------------------------------------------------------------------

theorem enqueueBranch_some (ext : Extern) (files : Files) {cmd : BleCommand} {k : ReplyId → α} {a : α}
    (h : enqueueBranch i cmd k s = some (a, s')) :
    a = k s.nextReply ∧
      (machine ext files).Emits observed (.queued i s.nextReply cmd) s s' := by
  unfold enqueueBranch at h
  split at h
  · obtain ⟨rfl, rfl⟩ := Prod.mk.inj (Option.some.inj h)
    exact ⟨rfl, Daemon.note_emits rfl rfl⟩
  · cases h

theorem replyBranch_some (ext : Extern) (files : Files) {r : ReplyId} {k : Option Reply → α} {a : α}
    (h : replyBranch i r k s = some (a, s')) :
    (∃ reply, a = k (some reply) ∧
      (machine ext files).Emits observed (.gotReply i r reply) s s') ∨ a = k none ∧ s' = s := by
  unfold replyBranch at h
  obtain ⟨got, hrecv, ha⟩ := Option.map_eq_some_iff.mp h
  cases got with
  | none =>
    obtain ⟨rfl, rfl⟩ := Prod.mk.inj ha
    exact .inr ⟨rfl, rfl⟩
  | some reply =>
    obtain ⟨rfl, rfl⟩ := Prod.mk.inj ha
    exact .inl ⟨reply, rfl, Daemon.note_emits rfl (Oneshot.recv_some hrecv)⟩

theorem enqueueBranch_apart {cmd : BleCommand} {k : ReplyId → α} {a : α}
    (h : enqueueBranch i cmd k s = some (a, s')) : s.Apart s' := by
  unfold enqueueBranch at h
  split at h
  · obtain ⟨rfl, rfl⟩ := Prod.mk.inj (Option.some.inj h)
    exact .note rfl ⟨rfl, rfl, rfl, .inl rfl⟩ rfl
  · cases h

theorem replyBranch_apart {r : ReplyId} {k : Option Reply → α} {a : α}
    (h : replyBranch i r k s = some (a, s')) : s.Apart s' := by
  unfold replyBranch at h
  obtain ⟨got, -, ha⟩ := Option.map_eq_some_iff.mp h
  cases got with
  | none => exact .of_eq (Prod.mk.inj ha).2.symm
  | some reply =>
    obtain ⟨-, rfl⟩ := Prod.mk.inj ha
    exact .note rfl (.refl s) rfl

theorem enqueueBranch_modestly {cmd : BleCommand} {k : ReplyId → α} {a : α}
    (h : enqueueBranch i cmd k s = some (a, s')) : Modestly ext files i s s' :=
  ⟨.inr ⟨.queued i s.nextReply cmd, rfl, trivial, (enqueueBranch_some ext files h).2⟩,
    enqueueBranch_apart h⟩

theorem replyBranch_modestly {r : ReplyId} {k : Option Reply → α} {a : α}
    (h : replyBranch i r k s = some (a, s')) : Modestly ext files i s s' := by
  refine ⟨?_, replyBranch_apart h⟩
  obtain ⟨reply, -, he⟩ | ⟨-, rfl⟩ := replyBranch_some ext files h
  · exact .inr ⟨.gotReply i r reply, rfl, trivial, he⟩
  · exact .inl .refl

theorem bleRequest_modest {cmd : BleCommand} : Modest ext files i (bleRequest i cmd) :=
  .bind (.await fun _ _ _ => enqueueBranch_modestly) fun _ =>
    .await fun _ _ _ => replyBranch_modestly

theorem bleSend_modest {cmd : UInt8} {payload : Bytes} : Modest ext files i (bleSend i cmd payload) :=
  .map bleRequest_modest

theorem bleSendFpGated_modest {cmd : UInt8} {payload : Bytes} :
    Modest ext files i (bleSendFpGated i cmd payload) :=
  .map bleRequest_modest

theorem dropReply_modest {r : ReplyId} : Modest ext files i (dropReply i r) :=
  event_modest fun _ => Daemon.note_modestly rfl trivial rfl trivial ⟨rfl, rfl, rfl, .inl rfl⟩

theorem notifyCancel_modest {w : Touch} {target : Option ReplyId} :
    Modest ext files i (notifyCancel i w target) :=
  event_modest fun _ => Daemon.note_modestly rfl ⟨rfl, rfl⟩ rfl trivial ⟨rfl, rfl, rfl, .inl rfl⟩

theorem cancelActiveGate_modest : Modest ext files i (cancelActiveGate i) :=
  .bind get_modest fun p => by
    obtain ⟨active, target⟩ := p
    exact .ite (.bind notifyCancel_modest fun _ => .ret) .ret

-- ---------------------------------------------------------------------------
-- Races
-- ---------------------------------------------------------------------------

/-- A round of a race is a step of one of its branches. -/
theorem race_branch {cmd : BleCommand} {r : Option ReplyId}
    {others : List (Daemon → Option (Option β × Daemon))} {a : Raced β}
    (h : (a, s') ∈ (ownBranch i cmd r ::
      others.map fun f s => (f s).map fun p => (Raced.other p.1, p.2)).filterMap fun f => f s) :
    ownBranch i cmd r s = some (a, s') ∨
      ∃ f ∈ others, ∃ b, a = .other b ∧ f s = some (b, s') := by
  simp only [List.mem_filterMap, List.mem_cons, List.mem_map] at h
  obtain ⟨_, rfl | ⟨f, hf, rfl⟩, h⟩ := h
  · exact .inl h
  · obtain ⟨⟨b, s''⟩, hb, hp⟩ := Option.map_eq_some_iff.mp h
    obtain ⟨rfl, rfl⟩ := Prod.mk.inj hp
    exact .inr ⟨f, hf, b, rfl, hb⟩

theorem race_modest {cmd : BleCommand} {others : List (Daemon → Option (Option β × Daemon))}
    (h : ∀ f ∈ others, ∀ s a s', f s = some (a, s') →
      Modestly ext files i s s') :
    Modest ext files i (race i cmd others) := by
  refine .repeatFrom fun r => .bind (.act fun s a s' hm => ?_) fun next => ?_
  · obtain ho | ⟨f, hf, b, -, hb⟩ := race_branch hm
    · cases r with
      | none => exact enqueueBranch_modestly ho
      | some r => exact replyBranch_modestly ho
    · exact h f hf s b s' hb
  · cases next with
    | other b => cases b <;> exact .ret
    | _ => exact .ret

theorem dropLoser_modest {result : Option ReplyId × (Option Reply ⊕ β)} :
    Modest ext files i (dropLoser i result) := by
  unfold dropLoser
  split
  · exact dropReply_modest
  · exact .ret

theorem probeBranch_hidden {k : Bool → β} {a : β} (h : probeBranch i k s = some (a, s')) :
    s.Hidden s' := by
  unfold probeBranch at h
  split at h
  · obtain ⟨-, rfl⟩ := Prod.mk.inj (Option.some.inj h)
    exact ⟨rfl, rfl, rfl, rfl, .inl rfl⟩
  · split at h
    · exact .of_eq (Prod.mk.inj (Option.some.inj h)).2.symm
    · cases h

theorem gatedUntilHangup_modest {cmd : UInt8} {payload : Bytes} :
    Modest ext files i (gatedUntilHangup i cmd payload) := by
  refine .bind (.bind (race_modest fun f hf s a s' h => ?_) fun result =>
    .bind dropLoser_modest fun _ => .ret) fun (request, outcome) => ?_
  · obtain rfl := List.mem_singleton.mp hf
    exact (probeBranch_hidden h).modestly
  · cases outcome with
    | inl reply => exact .ret
    | inr u => exact .bind notifyCancel_modest fun _ => .ret

-- ---------------------------------------------------------------------------
-- Fingerprints
-- ---------------------------------------------------------------------------

theorem handleStatus_modest : Modest ext files i handleStatus := by
  refine .bind load_modest fun _ => .bind load_modest fun status => .bind load_modest fun _ => ?_
  cases status <;> exact .ret

theorem refreshBitmap_modest : Modest ext files i (refreshBitmap i) := by
  refine .bind bleSend_modest fun answer => ?_
  split
  · refine .when (.bind (store_modest ?_ fun _ => rfl) fun _ => store_modest ?_ fun _ => rfl)
    · exact fun _ => rfl
    · exact fun _ => rfl
  · exact .ret

theorem handleFpList_modest : Modest ext files i (handleFpList i) := by
  refine .bind load_modest fun _ => .ite .ret ?_
  refine .bind load_modest fun _ => .bind load_modest fun _ => .bind (.when refreshBitmap_modest) fun _ =>
    .bind load_modest fun status => ?_
  cases status <;> exact .ret

theorem handleFpEnroll_modest {slot : UInt8} : Modest ext files i (handleFpEnroll i slot) := by
  refine .ite .ret (.bind load_modest fun _ => .ite .ret ?_)
  refine .bind (store_modest (fun _ => rfl) fun _ => rfl) fun _ => ?_
  refine .bind gatedUntilHangup_modest fun answer => ?_
  cases answer <;> exact .ret

theorem handleFpEnrollCancel_modest : Modest ext files i (handleFpEnrollCancel i) := by
  refine .bind load_modest fun _ => .ite .ret ?_
  refine .bind (store_modest (fun _ => rfl) fun _ => rfl) fun _ => .bind cancelActiveGate_modest fun _ =>
    .bind bleSend_modest fun answer => ?_
  cases answer <;> exact .ret

theorem handleFpDelete_modest {slot : UInt8} : Modest ext files i (handleFpDelete i slot) := by
  refine .bind load_modest fun _ => .ite .ret (.bind gatedUntilHangup_modest fun answer => ?_)
  cases answer with
  | ok _ => exact .bind (store_modest (fun _ => rfl) fun _ => rfl) fun _ => .ret
  | error _ => exact .ret

theorem handleFpVerify_modest : Modest ext files i (handleFpVerify i) :=
  .bind load_modest fun _ => .ite .ret <|
    .bind load_modest fun _ => .ite .ret (.map bleSendFpGated_modest)

theorem handleFpStatus_modest : Modest ext files i handleFpStatus := by
  refine .bind load_modest fun event => ?_
  cases event <;> exact .ret

theorem handleGateCancel_modest : Modest ext files i (handleGateCancel i) := by
  refine .bind load_modest fun _ => .ite .ret (.bind cancelActiveGate_modest fun _ => .ite .ret ?_)
  refine .bind bleSend_modest fun answer => ?_
  cases answer <;> exact .ret

-- ---------------------------------------------------------------------------
-- Pairing
-- ---------------------------------------------------------------------------

theorem tryBeginPairing_modest : Modest ext files i tryBeginPairing :=
  atomically_modest fun s => by
    split
    · exact .refl s
    · exact .refl s
    · exact .refl s
    · exact ⟨rfl, rfl, rfl, rfl, .inl rfl⟩

theorem handlePairStart_modest : Modest ext files i (handlePairStart i) := by
  refine .bind load_modest fun _ => .ite .ret (.bind tryBeginPairing_modest fun _ => .ite .ret ?_)
  refine .bind bleRequest_modest fun answer => ?_
  split
  · exact .ret
  · exact .ret
  · exact .bind (store_modest (fun _ => rfl) fun _ => rfl) fun _ => .ret

theorem writeOwner_modest {text : Str} : Modest ext files i (writeOwner i text) :=
  event_modest fun _ => Daemon.note_modestly rfl trivial rfl trivial ⟨rfl, rfl, rfl, .inl rfl⟩

theorem recordOwner_modest {uid : Nat} : Modest ext files i (recordOwner i uid) :=
  .bind get_modest fun _ => .when (.bind choose_modest fun _ => .when writeOwner_modest)

theorem pairStart_modest {peer : Peer} : Modest ext files i (pairStart i peer) :=
  .bind handlePairStart_modest fun _ => .bind (.when recordOwner_modest) fun _ => .ret

theorem setPairing_modest {p : Option PairingData} : Modest ext files i (setPairing i p) :=
  event_modest fun _ => Daemon.note_modestly rfl trivial rfl trivial ⟨rfl, rfl, rfl, .inl rfl⟩

theorem setVerified_modest {b : Bool} : Modest ext files i (setVerified i b) :=
  event_modest fun _ => Daemon.note_modestly rfl trivial rfl trivial ⟨rfl, rfl, rfl, .inl rfl⟩

theorem clearLocalPairing_modest : Modest ext files i (clearLocalPairing i) :=
  .bind choose_modest fun _ =>
    .bind (.when (modify_modest fun _ => ⟨rfl, rfl, rfl, rfl, .inl rfl⟩)) fun _ =>
      .bind setPairing_modest fun _ => .bind setVerified_modest fun _ =>
        store_modest (fun _ => rfl) fun _ => rfl

theorem querySlotStatus_modest : Modest ext files i (querySlotStatus i) :=
  .bind bleSend_modest fun _ => .ret

theorem ownSlot_modest {bitmap active : UInt8} : Modest ext files i (ownSlot bitmap active) :=
  .ite .ret (.bind load_modest fun _ => .ite .ret (.bind load_modest fun _ => .ret))

theorem handleSlotStatus_modest : Modest ext files i (handleSlotStatus i) := by
  refine .bind load_modest fun _ => .ite .ret (.bind querySlotStatus_modest fun status => ?_)
  split
  · exact .bind ownSlot_modest fun _ => .ret
  · exact .ret
  · exact .ret

theorem clearOwnSlot_modest {target : Option UInt8} : Modest ext files i (clearOwnSlot i target) := by
  refine .bind bleSend_modest fun answer => ?_
  have cleared {response : Response} :
      Modest ext files i (clearLocalPairing i >>= fun _ => pure response) :=
    .bind clearLocalPairing_modest fun _ => .ret
  cases answer with
  | ok answer =>
    dsimp only
    split
    · exact cleared
    · exact cleared
    · exact .ret
    · exact cleared
  | error _ => exact cleared

theorem clearOtherSlot_modest {target : UInt8} : Modest ext files i (clearOtherSlot i target) := by
  refine .bind bleSendFpGated_modest fun answer => ?_
  cases answer <;> exact .ret

theorem clearOffline_modest {slot : Option UInt8} : Modest ext files i (clearOffline i slot) := by
  cases slot with
  | none => exact .bind clearLocalPairing_modest fun _ => .ret
  | some _ => exact .ret

theorem handleSlotClear_modest {slot : Option UInt8} :
    Modest ext files i (handleSlotClear i slot) := by
  refine .bind load_modest fun _ => .ite clearOffline_modest ?_
  refine .bind (.ite querySlotStatus_modest .ret) fun status => ?_
  cases status with
  | error _ => exact .ret
  | ok status =>
    dsimp only
    split
    · exact clearOwnSlot_modest
    · exact clearOtherSlot_modest
    · exact .ret
    · exact .ret

theorem handleFactoryReset_modest : Modest ext files i (handleFactoryReset ext i) := by
  refine .bind load_modest fun _ => .ite .ret (.bind load_modest fun _ => ?_)
  refine .bind bleSendFpGated_modest fun answer => ?_
  cases answer with
  | ok _ => exact .ite (.bind clearLocalPairing_modest fun _ => .ret) .ret
  | error _ => exact .ret

-- ---------------------------------------------------------------------------
-- Settings and information
-- ---------------------------------------------------------------------------

theorem pushUi_modest {line : Str} : Modest ext files i (pushUi line) :=
  atomically_modest fun s => by
    dsimp only
    split
    · exact .refl s
    · exact ⟨rfl, rfl, rfl, rfl, .inl rfl⟩

theorem pushSshTakeover_modest : Modest ext files i pushSshTakeover :=
  .bind load_modest fun _ => .bind pushUi_modest fun _ => .ret

theorem handleSetSetting_modest {set : Settings → Settings} :
    Modest ext files i (handleSetSetting i set) :=
  .act fun s a s' hm => by
    simp only [List.mem_cons, List.not_mem_nil, or_false, Prod.mk.injEq] at hm
    obtain ⟨-, rfl⟩ | ⟨-, rfl⟩ := hm
    · exact Daemon.note_modestly rfl trivial rfl trivial ⟨rfl, rfl, rfl, .inl rfl⟩
    · exact Daemon.note_modestly rfl trivial rfl trivial ⟨rfl, rfl, rfl, .inl rfl⟩

theorem handleSetSshTakeover_modest {v : Bool} : Modest ext files i (handleSetSshTakeover i v) :=
  .bind handleSetSetting_modest fun _ => .bind (.when pushSshTakeover_modest) fun _ => .ret

theorem handleGetSettings_modest : Modest ext files i handleGetSettings := .bind load_modest fun _ => .ret

theorem handleGetInfo_modest : Modest ext files i (handleGetInfo ext) :=
  .bind load_modest fun _ => .bind load_modest fun _ => .ret

-- ---------------------------------------------------------------------------
-- Keys
-- ---------------------------------------------------------------------------

theorem keyCacheJson_modest {kind : Str} : Modest ext files i (keyCacheJson ext kind) :=
  .ite (.bind get_modest fun _ => .ret) (.ite (.bind get_modest fun _ => .ret) .ret)

theorem handleListKeys_modest {cat : Str} : Modest ext files i (handleListKeys ext cat) :=
  .ite (.bind get_modest fun _ => .ret) (.ite (.bind get_modest fun _ => .ret) .ret)

theorem handleGetSsh_modest {name : Str} : Modest ext files i (handleGetSsh ext name) := by
  refine .bind get_modest fun entries => ?_
  split <;> exact .ret

theorem findKeyIndex_modest {cat name : Str} : Modest ext files i (findKeyIndex cat name) :=
  .bind get_modest fun _ => .ret

theorem readApiEntry_modest {idx : UInt8} {name : Str} :
    Modest ext files i (readApiEntry i idx name) := by
  refine .repeatFrom fun full => .bind bleSend_modest fun answer => ?_
  split
  · exact .ret
  · exact .ite .ret (.ite .ret .ret)
  · exact .ret

theorem otpGetPayload_modest {idx : UInt8} : Modest ext files i (otpGetPayload idx) :=
  .bind clock_modest fun _ => .ret

theorem otpAfterTouch_modest {idx : UInt8} : Modest ext files i (otpAfterTouch i idx) := by
  refine .bind otpGetPayload_modest fun _ => .bind bleSend_modest fun answer => ?_
  cases answer with
  | ok _ => exact .ite .ret .ret
  | error _ => exact .ret

theorem otpGetInner_modest {idx : UInt8} : Modest ext files i (otpGetInner i idx) := by
  refine .bind otpGetPayload_modest fun _ => .bind bleSendFpGated_modest fun answer => ?_
  cases answer with
  | ok _ => exact .ite (.ite .ret otpAfterTouch_modest) .ret
  | error _ => exact .ret

theorem syncKeys_modest : Modest ext files i (syncKeys i) := .map bleRequest_modest

theorem generateKey_modest {nameHex : Str} : Modest ext files i (generateKey i nameHex) := by
  unfold generateKey
  split
  · refine .ite .ret (.bind bleSendFpGated_modest fun answer => ?_)
    cases answer with
    | ok _ => exact .ite (.bind syncKeys_modest fun _ => .ret) .ret
    | error _ => exact .ret
  · exact .ret

theorem deleteKey_modest {cat idx : Str} : Modest ext files i (deleteKey i cat idx) := by
  unfold deleteKey
  split
  · exact .ret
  · exact .ret
  · refine .bind bleSendFpGated_modest fun answer => ?_
    cases answer with
    | ok _ => exact .ite (.bind syncKeys_modest fun _ => .ret) .ret
    | error _ => exact .ret

theorem writeChunks_modest {cat idx : UInt8} {keyData : Bytes} :
    Modest ext files i (writeChunks i cat idx keyData) := by
  refine .repeatFrom fun offset => .ite .ret (.bind bleSend_modest fun answer => ?_)
  cases answer with
  | ok _ => exact .ite .ret (.ite .ret .ret)
  | error _ => exact .ret

theorem commitKey_modest {cat idx count : UInt8} : Modest ext files i (commitKey i cat idx count) := by
  refine .bind bleSendFpGated_modest fun answer => ?_
  cases answer with
  | ok _ => exact .ite (.bind syncKeys_modest fun _ => .ret) .ret
  | error _ => exact .ret

theorem handleKeyImportInner_modest {cat maxCount : UInt8} {keyData : Bytes} {label : Str} :
    Modest ext files i (handleKeyImportInner i cat keyData label maxCount) := by
  refine .bind bleSend_modest fun answer => ?_
  split
  · exact .ret
  · exact .ret
  · refine .ite .ret (.ite .ret (.bind writeChunks_modest fun error => ?_))
    cases error with
    | some _ => exact .ret
    | none => exact commitKey_modest

theorem importKey_modest {kind : ImportKind} {hexData : Str} :
    Modest ext files i (importKey i kind hexData) := by
  unfold importKey
  split
  · exact .ite .ret handleKeyImportInner_modest
  · exact .ret

-- ---------------------------------------------------------------------------
-- Long connections
-- ---------------------------------------------------------------------------

theorem readOutcomes_hidden {n : Nat} {r : Read} (h : (r, s') ∈ readOutcomes i n s) :
    s.Hidden s' := by
  have taken {l : List (Read × Daemon)}
      (hl : l = (List.range (min n (s.socket i).inbox.length)).map fun k =>
        (.data ((s.socket i).inbox.take (k + 1)), s.updateSocket i fun c =>
          { c with inbox := (s.socket i).inbox.drop (k + 1) }))
      (hm : (r, s') ∈ l) : s.Hidden s' := by
    subst hl
    obtain ⟨_, -, hk⟩ := List.mem_map.mp hm
    obtain ⟨-, rfl⟩ := Prod.mk.inj hk
    exact ⟨rfl, rfl, rfl, rfl, .inl rfl⟩
  unfold readOutcomes at h
  dsimp only at h
  split at h
  · obtain h | h := List.mem_cons.mp h
    · exact .of_eq (Prod.mk.inj h).2
    · exact taken rfl h
  · exact taken rfl h

theorem deadlineBranch_hidden {t : Nat} {b a : β} (h : deadlineBranch t b s = some (a, s')) :
    s.Hidden s' := by
  unfold deadlineBranch at h
  split at h
  · exact .of_eq (Prod.mk.inj (Option.some.inj h)).2.symm
  · cases h

theorem readUntil_modest {n deadline : Nat} : Modest ext files i (readUntil i n deadline) :=
  hidden_modest fun s a s' hm => by
    obtain h | h := List.mem_append.mp hm
    · exact readOutcomes_hidden h
    · exact deadlineBranch_hidden (Option.mem_toList.mp h)

theorem writeBytes_modest {bs : Bytes} : Modest ext files i (writeBytes i bs) :=
  modify_modest fun _ => ⟨rfl, rfl, rfl, rfl, .inl rfl⟩

theorem writeLineTo_modest {text : Str} : Modest ext files i (writeLineTo i text) := writeBytes_modest

theorem tryWriteLine_modest {l : Str} : Modest ext files i (tryWriteLine i l) :=
  hidden_modest fun s a s' hm => by
    dsimp only at hm
    split at hm
    · simp only [List.mem_cons, List.not_mem_nil, or_false, Prod.mk.injEq] at hm
      obtain ⟨-, rfl⟩ | ⟨-, rfl⟩ := hm
      · exact ⟨rfl, rfl, rfl, rfl, .inl rfl⟩
      · exact .refl _
    · obtain ⟨-, rfl⟩ := Prod.mk.inj (List.mem_singleton.mp hm)
      exact ⟨rfl, rfl, rfl, rfl, .inl rfl⟩

theorem agentLines_modest {ls : List Str} : Modest ext files i (agentLines ls) := by
  induction ls with
  | nil => exact .ret
  | cons l rest ih => exact .bind (.when (store_modest (fun _ => rfl) fun _ => rfl)) fun _ => ih

theorem uiLineBranch_hidden {k : Str → β} {a : β} (h : uiLineBranch i k s = some (a, s')) :
    s.Hidden s' := by
  unfold uiLineBranch at h
  split at h
  · cases h
  · obtain ⟨-, rfl⟩ := Prod.mk.inj (Option.some.inj h)
    exact ⟨rfl, rfl, rfl, rfl, .inl rfl⟩

theorem agentRound_modest : Modest ext files i (agentRound i) := by
  refine .bind (hidden_modest fun s a s' hm => ?_) fun event => ?_
  · obtain h | h := List.mem_append.mp hm
    · exact uiLineBranch_hidden (Option.mem_toList.mp h)
    · obtain ⟨⟨r, s''⟩, hr, hk⟩ := List.mem_map.mp h
      obtain ⟨-, rfl⟩ := Prod.mk.inj hk
      exact readOutcomes_hidden hr
  · split
    · exact .bind tryWriteLine_modest fun _ => .ret
    · exact .bind agentLines_modest fun _ => .ret
    · exact .ret

theorem serveSessionAgent_modest : Modest ext files i (serveSessionAgent i) := by
  refine .bind (store_modest (fun _ => rfl) fun _ => rfl) fun _ => .bind pushSshTakeover_modest fun _ =>
    .bind (.loop agentRound_modest) fun _ => ?_
  refine store_modest (fun s => ?_) fun c => ?_
  · split <;> rfl
  · split <;> rfl

theorem serveLogStream_modest : Modest ext files i (serveLogStream i) :=
  await_modest fun s a s' h => by
    split at h
    · exact .of_eq (Prod.mk.inj (Option.some.inj h)).2.symm
    · cases h

-- ---------------------------------------------------------------------------
-- Firmware updates
-- ---------------------------------------------------------------------------

theorem whenConnected_modest {t : Code Str} (h : Modest ext files i t) :
    Modest ext files i (whenConnected t) :=
  .bind load_modest fun _ => .ite .ret h

theorem otaWriteAndRead_modest {data : Bytes} {timeoutMs : Nat} :
    Modest ext files i (otaWriteAndRead i data timeoutMs) :=
  .map bleRequest_modest

theorem handleOtaInfo_modest : Modest ext files i (handleOtaInfo i) := by
  refine whenConnected_modest (.bind otaWriteAndRead_modest fun answer => ?_)
  cases answer <;> exact .ret

theorem handleOtaErase_modest : Modest ext files i (handleOtaErase i) := by
  refine whenConnected_modest (.bind otaWriteAndRead_modest fun answer => ?_)
  cases answer <;> exact .ret

theorem handleOtaHeader_modest {parts : List Str} :
    Modest ext files i (handleOtaHeader ext i parts) := by
  refine .ite .ret (whenConnected_modest ?_)
  split
  · exact .ret
  · refine .ite .ret (.bind otaWriteAndRead_modest fun answer => ?_)
    cases answer <;> exact .ret

theorem withBlock_modest {parts : List Str} {op : UInt8} {send : Bytes → Code Str}
    (h : ∀ frame, Modest ext files i (send frame)) :
    Modest ext files i (withBlock ext parts op send) := by
  refine .ite .ret (whenConnected_modest ?_)
  split
  · exact .ret
  · split
    · exact .ret
    · exact h _

theorem handleOtaWrite_modest {parts : List Str} :
    Modest ext files i (handleOtaWrite ext i parts) := by
  refine withBlock_modest fun frame => .bind (.map bleRequest_modest) fun answer => ?_
  cases answer <;> exact .ret

theorem handleOtaVerify_modest {parts : List Str} :
    Modest ext files i (handleOtaVerify ext i parts) := by
  refine withBlock_modest fun frame => .bind otaWriteAndRead_modest fun answer => ?_
  cases answer <;> exact .ret

theorem handleOtaEnd_modest : Modest ext files i (handleOtaEnd i) := by
  refine whenConnected_modest (.bind otaWriteAndRead_modest fun answer => ?_)
  split <;> exact .ret

theorem processOtaCommand_modest {line : Str} :
    Modest ext files i (processOtaCommand ext i line) :=
  .ite .ret <| .ite (.bind load_modest fun _ => .ret) <| .ite handleOtaInfo_modest <|
    .ite handleOtaErase_modest <| .ite handleOtaHeader_modest <| .ite handleOtaWrite_modest <|
      .ite handleOtaVerify_modest <| .ite handleOtaEnd_modest .ret

theorem lineBranch_hidden {k : Bytes → β} {a : β} (h : lineBranch i k s = some (a, s')) :
    s.Hidden s' := by
  obtain ⟨_, -, hk⟩ := Option.map_eq_some_iff.mp h
  obtain ⟨-, rfl⟩ := Prod.mk.inj hk
  exact ⟨rfl, rfl, rfl, rfl, .inl rfl⟩

theorem readOtaLine_modest : Modest ext files i (readOtaLine i) := by
  refine .bind clock_modest fun _ => .bind (select_modest fun f hf s a s' h => ?_) fun _ => .ret
  obtain rfl | hf := List.mem_cons.mp hf
  · exact lineBranch_hidden h
  · obtain rfl := List.mem_singleton.mp hf
    exact deadlineBranch_hidden h

theorem otaStep_modest {request : Str} : Modest ext files i (otaStep ext i request) :=
  .bind processOtaCommand_modest fun _ => .bind tryWriteLine_modest fun _ => .ret

theorem otaRound_modest : Modest ext files i (otaRound ext i) := by
  refine .bind readOtaLine_modest fun line => ?_
  cases line with
  | none => exact .ret
  | some line => exact .ite .ret (.bind otaStep_modest fun _ => .ret)

theorem handleOtaSession_modest {firstLine : Str} :
    Modest ext files i (handleOtaSession ext i firstLine) :=
  .bind otaStep_modest fun _ => .when (.loop otaRound_modest)

-- ---------------------------------------------------------------------------
-- The SSH agent
-- ---------------------------------------------------------------------------

theorem sendAgentMessage_modest {body : Bytes} : Modest ext files i (sendAgentMessage i body) :=
  writeBytes_modest

theorem readExact_modest {n deadline : Nat} : Modest ext files i (readExact i n deadline) := by
  refine select_modest fun f hf s a s' h => ?_
  obtain rfl | hf := List.mem_cons.mp hf
  · dsimp only at h
    split at h
    · obtain ⟨-, rfl⟩ := Prod.mk.inj (Option.some.inj h)
      exact ⟨rfl, rfl, rfl, rfl, .inl rfl⟩
    · split at h
      · exact .of_eq (Prod.mk.inj (Option.some.inj h)).2.symm
      · cases h
  · obtain rfl := List.mem_singleton.mp hf
    exact deadlineBranch_hidden h

theorem readAgentMessage_modest {deadline : Nat} :
    Modest ext files i (readAgentMessage i deadline) := by
  refine .bind readExact_modest fun len => ?_
  cases len with
  | none => exact .ret
  | some len => exact .ite .ret readExact_modest

theorem sleep_modest {d : Nat} : Modest ext files i (sleep d) :=
  .bind clock_modest fun _ => await_modest fun s a s' h => by
    split at h
    · exact .of_eq (Prod.mk.inj (Option.some.inj h)).2.symm
    · cases h

theorem awaitReconnect_modest : Modest ext files i awaitReconnect := by
  refine .bind load_modest fun _ => .ite .ret (.bind (.repeatFrom fun left => ?_) fun _ =>
    .bind (.when sleep_modest) fun _ => .ret)
  exact .bind sleep_modest fun _ => .bind load_modest fun _ => .ite .ret .ret

theorem gatedSign_modest {payload : Bytes} : Modest ext files i (gatedSign i payload) := by
  refine .bind clock_modest fun now => .bind (race_modest fun f hf s a s' h => ?_) fun result => ?_
  · obtain rfl | hf := List.mem_cons.mp hf
    · exact (deadlineBranch_hidden h).modestly
    · obtain rfl := List.mem_singleton.mp hf
      exact (probeBranch_hidden h).modestly
  · split
    · exact .ret
    · exact .bind sendAgentMessage_modest fun _ => .bind dropLoser_modest fun _ => .ret
    · exact .bind notifyCancel_modest fun _ => .bind dropLoser_modest fun _ => .ret

theorem readSignature_modest : Modest ext files i (readSignature i) := by
  refine .repeatFrom fun (tries, signature) => ?_
  cases tries with
  | zero => exact .ret
  | succ tries =>
    refine .bind bleSend_modest fun answer => ?_
    split
    · exact .ite .ret (.ite .ret .ret)
    · exact .ret

theorem answerSign_modest {direct : Bytes} : Modest ext files i (answerSign i direct) := by
  refine .bind readSignature_modest fun read => ?_
  split <;> exact sendAgentMessage_modest

theorem signWith_modest {idx : UInt8} {data : Bytes} :
    Modest ext files i (signWith ext i idx data) := by
  refine .bind gatedSign_modest fun answer => ?_
  split
  · exact .ite answerSign_modest sendAgentMessage_modest
  · exact sendAgentMessage_modest
  · exact .ret

theorem handleSignRequest_modest {payload : Bytes} :
    Modest ext files i (handleSignRequest ext i payload) := by
  unfold handleSignRequest
  split
  · exact sendAgentMessage_modest
  · refine .bind get_modest fun keys => ?_
    split
    · exact sendAgentMessage_modest
    · exact .bind awaitReconnect_modest fun _ => .ite sendAgentMessage_modest <|
        .bind load_modest fun _ => .ite sendAgentMessage_modest signWith_modest

theorem uidIsActive_modest {uid : Nat} : Modest ext files i (uidIsActive uid) := choose_modest

theorem verifyPeerUid_modest {uid : Nat} : Modest ext files i (verifyPeerUid uid) := by
  refine .ite .ret (.bind uidIsActive_modest fun active => ?_)
  cases active with
  | some _ => exact .ret
  | none => exact .bind get_modest fun _ => .ret

theorem agentMessage_modest {msg : Bytes} : Modest ext files i (agentMessage ext i msg) := by
  cases msg with
  | nil => exact sendAgentMessage_modest
  | cons kind payload =>
    refine .ite (.bind get_modest fun _ => sendAgentMessage_modest) ?_
    exact .ite handleSignRequest_modest sendAgentMessage_modest

theorem handleAgentClient_modest {peer : Peer} :
    Modest ext files i (handleAgentClient ext i peer) := by
  refine .bind verifyPeerUid_modest fun _ => .when (.loop (.bind clock_modest fun now => ?_))
  refine .bind readAgentMessage_modest fun msg => ?_
  cases msg with
  | none => exact .ret
  | some msg => exact .bind agentMessage_modest fun _ => .ret

end Immurok
