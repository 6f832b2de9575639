import Immurok.Cli.Panel
import Mathlib.Logic.Relation

/-!
# What a key can change

The changes that a key makes to the panel, one by one, the invariant that each of them
keeps, and the changes that each function of the panel makes.
-/

namespace Immurok.Tui

/-- The modes that wait for nothing that was kept. -/
def Mode.plain : Mode → Bool
  | .normal | .help | .deleteSelect | .enrollKindSelect | .hostMenu => true
  | _ => false

/-- The jobs that keep the panel busy. -/
def Job.acting : Job → Bool
  | .pairProgress .. | .enrollCancel | .fwSilentCheck | .fwCheck | .logStream => false
  | _ => true

def Job.isPush : Job → Bool
  | .fwUpdate _ => true
  | _ => false

/-- The job neither unbinds a host, nor wipes the device, nor deletes a key. -/
def Job.harmless : Job → Bool
  | .slotClear _ | .unpair | .factoryReset | .keyDelete .. => false
  | _ => true

/-- What is collected belongs to the kind of key. -/
structure KeyAddFlow.Valid (f : KeyAddFlow) : Prop where
  ssh : f.cat = .ssh → f.name = none
  service : f.service.isSome = true → f.cat = .otp ∧ f.name.isSome = true

/-- What has been typed. -/
structure Typed (buf : Str) : Prop where
  short : buf.length ≤ 256
  plain : ∀ c ∈ buf, isControl c = false

theorem Typed.push {buf : Str} {c : Char} (h : Typed buf) (hl : buf.length < 256)
    (hc : isControl c = false) : Typed (buf ++ [c]) := by
  refine ⟨?_, fun x hx => ?_⟩
  · rw [List.length_append, List.length_singleton]
    exact hl
  · obtain hx | hx := List.mem_append.mp hx
    · exact h.plain x hx
    · rw [List.mem_singleton.mp hx]
      exact hc

theorem Typed.pop {buf : Str} (h : Typed buf) : Typed buf.dropLast := by
  refine ⟨?_, fun x hx => h.plain x (List.mem_of_mem_dropLast hx)⟩
  rw [List.length_dropLast]
  exact Nat.le_trans (Nat.sub_le _ _) h.short

/-- Slots are counted from one, and nothing else is ever told of the active one. -/
def SlotKnown (active : UInt8) : Prop := active = 0 ∨ active = slot1 ∨ active = slot2

namespace Panel

/-- One change of the panel by a key; `d` are the harmful jobs that may be begun. -/
inductive Change (d : Job → Prop) (p : Panel) : Panel → Prop
  | say {msg : Str} {style : MessageStyle} {events : List EventEntry}
    (h : p.events.length ≤ eventBufferCap → events.length ≤ eventBufferCap) :
    Change d p { p with message := msg, messageStyle := style, events }
  | look {mode : Mode} (h : p.mode.plain = true) (h' : mode.plain = true) :
    Change d p { p with mode }
  | stage {a : HostAction} (h : p.mode.plain = true) :
    Change d p { p with pendingHostAction := some a, mode := .hostConfirm }
  | unstage (h : p.mode.plain = true ∨ p.mode = .hostConfirm) :
    Change d p { p with pendingHostAction := none, mode := .normal }
  | askDelete {idx : UInt8} (h : p.mode.plain = true) :
    Change d p { p with pendingDelete := some (p.keyTab, idx), mode := .keyDeleteConfirm }
  | dropDelete (h : p.mode = .keyDeleteConfirm) :
    Change d p { p with pendingDelete := none, mode := .normal }
  | openInput (h : p.mode.plain = true) :
    Change d p { p with
      inputBuf := [], keyAddFlow := some ⟨p.keyTab, none, none⟩, mode := .keyInput }
  | input {flow : KeyAddFlow} {buf : Str} (h : p.mode = .keyInput) (hf : flow.Valid)
    (hb : Typed p.inputBuf → Typed buf) :
    Change d p { p with keyAddFlow := some flow, inputBuf := buf }
  | closeInput (h : p.mode = .keyInput) :
    Change d p { p with inputBuf := [], keyAddFlow := none, mode := .normal }
  | turn {tab : Tab} (h : p.mode.plain = true) (hlog : p.tab = .logs → p.logStream = false) :
    Change d p { p with tab, mode := .normal }
  | closeLog : Change d p { p with logStream := false, logLines := [], logScroll := 0 }
  | openLog (h : p.tab = .logs) :
    Change d p { p with
      logLines := [], logScroll := 0, spawned := p.spawned ++ [.logStream], logStream := true }
  | rows {sshKeys : List SshKeyRow} {otpKeys apiKeys : List NameKeyRow} {keyCursor : Nat}
    (h : keyCursor < max { p with sshKeys, otpKeys, apiKeys }.currentKeyLen 1) :
    Change d p { p with sshKeys, otpKeys, apiKeys, keyCursor }
  | pick {keyTab : KeyTab} {keyCursor : Nat}
    (h : p.keyCursor < max p.currentKeyLen 1 → keyCursor < max { p with keyTab }.currentKeyLen 1) :
    Change d p { p with keyTab, keyCursor }
  | pamAt {pamCursor : Nat}
    (h : p.pamCursor < pamPanelServices.length → pamCursor < pamPanelServices.length) :
    Change d p { p with pamCursor }
  | scroll {logScroll : Nat} (h : p.logScroll ≤ p.logLines.length → logScroll ≤ p.logLines.length) :
    Change d p { p with logScroll }
  | begin {job : Job} (hb : p.busy = false) (hj : job.acting = true) (hp : job.isPush = false)
    (hd : job.harmless = true ∨ d job) :
    Change d p { p with busy := true, spawned := p.spawned ++ [job] }
  | enroll {slot : UInt8} {gate : Bool} (hb : p.busy = false) (h : p.mode.plain = true) :
    Change d p { p with
      mode := .normal, busy := true, enrollActive := true, enrollGate := gate, enrollSlot := slot
      enrollCurrent := 0, enrollTotal := 6, spawned := p.spawned ++ [.enroll slot] }
  | pair {secondHost : Bool} (hb : p.busy = false) :
    Change d p { p with
      busy := true
      spawned := p.spawned ++ [.pairProgress p.spawned.length secondHost, .pair p.spawned.length] }
  | cancelEnroll : Change d p { p with spawned := p.spawned ++ [.enrollCancel] }
  | silentCheck : Change d p { p with spawned := p.spawned ++ [.fwSilentCheck] }
  | check (h : p.fwState ≠ .checking) (h' : p.fwUpdating = false) :
    Change d p { p with
      fwState := .checking, fwPrepared := none, spawned := p.spawned ++ [.fwCheck] }
  | learn {app : App} {unlockSudo unlockPolkit unlockScreen lockScreen sshTakeover pamSudo pamPolkit
      pamScreen : Bool} {isolated : Option Bool} (h : app.busy = p.busy)
    (hs : SlotKnown p.slotActive → SlotKnown app.slotActive) :
    Change d p { p with
      toApp := app, unlockSudo, unlockPolkit, unlockScreen, lockScreen, sshTakeover, pamSudo
      pamPolkit, pamScreen, isolated }

abbrev Changes (d : Job → Prop) : Panel → Panel → Prop := Relation.ReflTransGen (Change d)

/-- The one change besides, which does not ask whether the panel is busy. -/
def Pushes (p p' : Panel) : Prop :=
  ∃ prep, p.fwState = .ready ∧ p.fwPrepared = some prep ∧
    p' = { p with
      fwState := .updating "starting" 1 prep.hops.length
      busy := true
      spawned := p.spawned ++ [.fwUpdate prep] }

/-- What is kept is what the mode waits for. -/
inductive Waits : Mode → Option HostAction → Option (KeyTab × UInt8) → Option KeyAddFlow → Prop
  | plain {m : Mode} (h : m.plain = true) : Waits m none none none
  | host (a : HostAction) : Waits .hostConfirm (some a) none none
  | delete (key : KeyTab × UInt8) : Waits .keyDeleteConfirm none (some key) none
  | input {flow : KeyAddFlow} (h : flow.Valid) : Waits .keyInput none none (some flow)

/-- The panel is of one piece: the cursors are in their lists and the buffers in their
bounds, too. -/
structure Sane (p : Panel) : Prop where
  waits : Waits p.mode p.pendingHostAction p.pendingDelete p.keyAddFlow
  typed : Typed p.inputBuf
  keyCursor : p.keyCursor < max p.currentKeyLen 1
  pamCursor : p.pamCursor < pamPanelServices.length
  events : p.events.length ≤ eventBufferCap
  logLines : p.logLines.length ≤ logBufferCap
  logScroll : p.logScroll ≤ p.logLines.length
  logStream : p.logStream = true → p.tab = .logs
  ready : p.fwState = .ready → p.fwPrepared.isSome = true
  slot : SlotKnown p.slotActive

section
variable {d d' : Job → Prop} {p p' : Panel} {o : Outside} {msg : Str} {style : MessageStyle}
  {m : Mode} {a : Option HostAction} {key : Option (KeyTab × UInt8)} {flow : Option KeyAddFlow}

theorem typed_nil : Typed [] := ⟨Nat.zero_le _, nofun⟩

theorem sane_new : Panel.new.Sane where
  waits := .plain rfl
  typed := typed_nil
  keyCursor := Nat.zero_lt_one
  pamCursor := by decide
  events := Nat.zero_le _
  logLines := Nat.zero_le _
  logScroll := Nat.le_refl _
  logStream := nofun
  ready := nofun
  slot := .inl rfl

/-- In a plain mode nothing is kept. -/
theorem Waits.of_plain (h : Waits m a key flow) (hm : m.plain = true) :
    a = none ∧ key = none ∧ flow = none := by
  cases h with
  | plain => exact ⟨rfl, rfl, rfl⟩
  | host => nomatch hm
  | delete => nomatch hm
  | input => nomatch hm

theorem Sane.look (h : p.Sane) (hp : p.mode.plain = true) (hm : m.plain = true) :
    Waits m p.pendingHostAction p.pendingDelete p.keyAddFlow := by
  obtain ⟨ha, hkey, hflow⟩ := h.waits.of_plain hp
  rw [ha, hkey, hflow]
  exact .plain hm

theorem Sane.change (h : p.Sane) (hc : Change d p p') : p'.Sane := by
  cases hc with
  | say he => exact { h with events := he h.events }
  | look hp hp' => exact { h with waits := h.look hp hp' }
  | stage hp =>
    obtain ⟨-, hkey, hflow⟩ := h.waits.of_plain hp
    refine { h with waits := ?_ }
    dsimp only
    rw [hkey, hflow]
    exact .host _
  | unstage hp =>
    refine { h with waits := ?_ }
    have hw := h.waits
    dsimp only
    generalize p.mode = m, p.pendingHostAction = a, p.pendingDelete = key,
      p.keyAddFlow = flow at hp hw
    cases hw with
    | plain => exact .plain rfl
    | host => exact .plain rfl
    | delete =>
      obtain hp | hp := hp
      · nomatch hp
      · nomatch hp
    | input =>
      obtain hp | hp := hp
      · nomatch hp
      · nomatch hp
  | askDelete hp =>
    obtain ⟨ha, -, hflow⟩ := h.waits.of_plain hp
    refine { h with waits := ?_ }
    dsimp only
    rw [ha, hflow]
    exact .delete _
  | dropDelete hm =>
    refine { h with waits := ?_ }
    have hw := h.waits
    dsimp only
    rw [hm] at hw
    generalize p.pendingHostAction = a, p.pendingDelete = key, p.keyAddFlow = flow at hw
    cases hw with
    | plain hplain => nomatch hplain
    | delete => exact .plain rfl
  | openInput hp =>
    obtain ⟨ha, hkey, -⟩ := h.waits.of_plain hp
    refine { h with waits := ?_, typed := typed_nil }
    dsimp only
    rw [ha, hkey]
    exact .input ⟨fun _ => rfl, nofun⟩
  | input hm hf hb =>
    refine { h with waits := ?_, typed := hb h.typed }
    have hw := h.waits
    dsimp only
    rw [hm] at hw ⊢
    generalize p.pendingHostAction = a, p.pendingDelete = key, p.keyAddFlow = flow at hw
    cases hw with
    | plain hplain => nomatch hplain
    | input => exact .input hf
  | closeInput hm =>
    refine { h with waits := ?_, typed := typed_nil }
    have hw := h.waits
    dsimp only
    rw [hm] at hw
    generalize p.pendingHostAction = a, p.pendingDelete = key, p.keyAddFlow = flow at hw
    cases hw with
    | plain hplain => nomatch hplain
    | input => exact .plain rfl
  | turn hp hlog =>
    refine { h with waits := h.look hp rfl, logStream := fun hs => ?_ }
    nomatch (hlog (h.logStream hs)).symm.trans hs
  | closeLog =>
    exact { h with logLines := Nat.zero_le _, logScroll := Nat.le_refl _, logStream := nofun }
  | openLog ht =>
    exact { h with
      logLines := Nat.zero_le _, logScroll := Nat.le_refl _, logStream := fun _ => ht }
  | rows hr => exact { h with keyCursor := hr }
  | pick hp => exact { h with keyCursor := hp h.keyCursor }
  | pamAt hp => exact { h with pamCursor := hp h.pamCursor }
  | scroll hs => exact { h with logScroll := hs h.logScroll }
  | begin => exact { h with }
  | enroll hb hp => exact { h with waits := h.look hp rfl }
  | pair => exact { h with }
  | cancelEnroll => exact { h with }
  | silentCheck => exact { h with }
  | check => exact { h with ready := nofun }
  | learn _ hs => exact { h with slot := hs h.slot }

theorem Sane.pushes (h : p.Sane) (hp : p.Pushes p') : p'.Sane := by
  obtain ⟨prep, -, -, rfl⟩ := hp
  exact { h with ready := nofun }

theorem Sane.host (h : p.Sane) (hm : p.mode = .hostConfirm) : ∃ a, p.pendingHostAction = some a := by
  have hw := h.waits
  rw [hm] at hw
  generalize p.pendingHostAction = a, p.pendingDelete = key, p.keyAddFlow = flow at hw
  cases hw with
  | plain hplain => nomatch hplain
  | host a => exact ⟨a, rfl⟩

theorem Sane.delete (h : p.Sane) (hm : p.mode = .keyDeleteConfirm) :
    ∃ key, p.pendingDelete = some key := by
  have hw := h.waits
  rw [hm] at hw
  generalize p.pendingHostAction = a, p.pendingDelete = key, p.keyAddFlow = flow at hw
  cases hw with
  | plain hplain => nomatch hplain
  | delete key => exact ⟨key, rfl⟩

theorem Sane.input (h : p.Sane) (hm : p.mode = .keyInput) :
    ∃ f, p.keyAddFlow = some f ∧ f.Valid := by
  have hw := h.waits
  rw [hm] at hw
  generalize p.pendingHostAction = a, p.pendingDelete = key, p.keyAddFlow = flow at hw
  cases hw with
  | plain hplain => nomatch hplain
  | input hf => exact ⟨_, rfl, hf⟩

theorem Sane.changes (h : p.Sane) (hc : Changes d p p') : p'.Sane := by
  induction hc with
  | refl => exact h
  | tail _ hc ih => exact ih.change hc

-- ---------------------------------------------------------------------------
-- Parts of the code
-- ---------------------------------------------------------------------------

theorem length_pushBack {α : Type} {cap : Nat} {xs : List α} {x : α} (h : xs.length ≤ cap)
    (hcap : 0 < cap) : (pushBack cap xs x).length ≤ cap := by
  rw [pushBack, List.length_append, List.length_singleton]
  split
  · rw [List.length_tail]
    omega
  · omega

theorem setMsg_changes : Changes d p (p.setMsg msg style) := by
  unfold setMsg
  dsimp only
  split
  · exact .single (.say id)
  split
  · exact .single (.say id)
  · exact .single (.say fun h => length_pushBack h (by decide))

theorem setMsg_mode : (p.setMsg msg style).mode = p.mode := by
  unfold setMsg
  dsimp only
  split
  · rfl
  split
  · rfl
  · rfl

theorem setMsgPrompt_changes : Changes d p (p.setMsgPrompt msg style) := .single (.say id)

/-- A change, and what is said of it. -/
theorem Change.said (h : Change d p p') : Changes d p (p'.setMsg msg style) :=
  .trans (.single h) setMsg_changes

theorem guardPaired_changes {f : Panel → Panel} (hf : Changes d p (f p)) :
    Changes d p (p.guardPaired f) := by
  unfold guardPaired
  split
  · exact hf
  · exact setMsg_changes

theorem guardConnected_changes {f : Panel → Panel} (hf : Changes d p (f p)) :
    Changes d p (p.guardConnected f) := by
  unfold guardConnected
  split
  · exact hf
  · exact setMsg_changes

theorem unlessBusy_changes {f : Panel → Panel} (hf : p.busy = false → Changes d p (f p)) :
    Changes d p (p.unlessBusy f) := by
  unfold unlessBusy
  split
  · exact .refl
  next hb => exact hf (Bool.eq_false_iff.mpr hb)

theorem begin_changes {job : Job} (hb : p.busy = false) (hj : job.acting = true)
    (hp : job.isPush = false) (hd : job.harmless = true ∨ d job) :
    Changes d p (p.begin job msg style) := (Change.begin hb hj hp hd).said

-- ---------------------------------------------------------------------------
-- Keys of the device
-- ---------------------------------------------------------------------------

theorem refreshKeys_changes : Changes d p (p.refreshKeys o) := by
  unfold refreshKeys
  dsimp only
  split
  next => exact .single (.rows (Nat.lt_of_lt_of_le Nat.zero_lt_one (Nat.le_max_right _ _)))
  split
  next hlen hle =>
    refine .single (.rows ?_)
    omega
  next hlen hle =>
    refine .single (.rows ?_)
    omega

theorem keysSetTab_changes {tab : KeyTab} : Changes d p (p.keysSetTab tab) :=
  .single (.pick fun _ => by omega)

theorem keysCursorUp_changes : Changes d p p.keysCursorUp := by
  unfold keysCursorUp
  split
  next => exact .single (.pick fun h => Nat.lt_of_le_of_lt (Nat.sub_le _ _) h)
  next => exact .refl

theorem keysCursorDown_changes : Changes d p p.keysCursorDown := by
  unfold keysCursorDown
  split
  next h => exact .single (.pick fun _ => Nat.lt_of_lt_of_le h.2 (Nat.le_max_left _ _))
  next => exact .refl

theorem actionKeyShowPubkey_changes : Changes d p p.actionKeyShowPubkey := by
  refine guardPaired_changes ?_
  split
  · exact setMsg_changes
  split
  · exact setMsg_changes
  split
  · exact setMsg_changes
  · exact setMsg_changes

theorem enterKeyAdd_changes (h : p.mode.plain = true) : Changes d p p.enterKeyAdd := by
  refine guardPaired_changes (guardConnected_changes ?_)
  dsimp only
  split
  · exact setMsg_changes
  · exact .trans (.single (.openInput h)) setMsgPrompt_changes

theorem actionKeyShowApi_changes : Changes d p p.actionKeyShowApi := by
  refine guardPaired_changes (unlessBusy_changes fun hb => ?_)
  split
  · exact setMsg_changes
  refine guardConnected_changes ?_
  split
  · exact setMsg_changes
  · exact begin_changes hb rfl rfl (.inl rfl)

theorem actionKeyOtp_changes : Changes d p p.actionKeyOtp := by
  refine guardPaired_changes (unlessBusy_changes fun hb => ?_)
  split
  · exact setMsg_changes
  refine guardConnected_changes ?_
  split
  · exact setMsg_changes
  · exact begin_changes hb rfl rfl (.inl rfl)

theorem enterKeyDeleteConfirm_changes (h : p.mode.plain = true) :
    Changes d p p.enterKeyDeleteConfirm := by
  refine guardPaired_changes (unlessBusy_changes fun _ => guardConnected_changes ?_)
  split
  · exact setMsg_changes
  · exact (Change.askDelete h).said

theorem cancelKeyDelete_changes (h : p.mode = .keyDeleteConfirm) : Changes d p p.cancelKeyDelete :=
  (Change.dropDelete h).said

-- ---------------------------------------------------------------------------
-- Fingerprints and hosts
-- ---------------------------------------------------------------------------

theorem actionEnroll_changes {slot : UInt8} (h : p.mode.plain = true) :
    Changes d p (p.actionEnroll slot) := by
  refine unlessBusy_changes fun hb => ?_
  dsimp only
  split
  · exact (Change.enroll hb h).said
  · exact (Change.enroll hb h).said

theorem enrollAuthFinger_changes (h : p.mode.plain = true) : Changes d p p.enrollAuthFinger := by
  unfold enrollAuthFinger
  split
  · exact actionEnroll_changes h
  · exact (Change.look h rfl).said

theorem autoEnroll_changes (h : p.mode.plain = true) : Changes d p p.autoEnroll := by
  refine guardPaired_changes (guardConnected_changes (unlessBusy_changes fun _ => ?_))
  split
  · exact (Change.look h rfl).said
  · exact enrollAuthFinger_changes h

theorem enrollKindPick_changes {c : Char} (h : p.mode.plain = true) :
    Changes d p (p.enrollKindPick c) := by
  have hlook : Changes d p { p with mode := .normal } := .single (.look h rfl)
  unfold enrollKindPick
  split
  · exact hlook.trans (enrollAuthFinger_changes rfl)
  split
  · exact hlook.trans (actionEnroll_changes rfl)
  · exact .refl

theorem actionDelete_changes {slot : UInt8} (h : p.mode.plain = true) :
    Changes d p (p.actionDelete slot) :=
  unlessBusy_changes fun hb =>
    .trans (.single (.look h rfl)) (begin_changes hb rfl rfl (.inl rfl))

theorem actionEnrollCancel_changes : Changes d p p.actionEnrollCancel := by
  unfold actionEnrollCancel
  split
  · exact .refl
  · exact Change.cancelEnroll.said

theorem enterHostMenu_changes (h : p.mode.plain = true) : Changes d p p.enterHostMenu := by
  refine unlessBusy_changes fun _ => ?_
  split
  · exact setMsg_changes
  · exact (Change.look h rfl).said

theorem hostMenuPick_changes {c : Char} (h : p.mode.plain = true) :
    Changes d p (p.hostMenuPick c) := by
  have hlook {msg : Str} {style : MessageStyle} :
      Changes d p (({ p with mode := .normal } : Panel).setMsg msg style) :=
    (Change.look h rfl).said
  have hstage {a : HostAction} {prompt : Str} : Changes d p (p.stage a prompt) :=
    (Change.stage h).said
  unfold hostMenuPick
  cases hostMenuAction c with
  | none => exact .refl
  | some action =>
    dsimp only
    cases action with
    | unpairSlot slot =>
      dsimp only
      split
      · exact hlook
      · exact hstage
    | enrollSwitch =>
      dsimp only
      split
      · exact setMsg_changes.trans (.single (.look (setMsg_mode.symm ▸ h) rfl))
      split
      · exact hlook
      split
      · exact hlook
      · exact hstage
    | unpairSelf => exact hstage
    | factoryReset => exact hstage

theorem requestUnpairSelf_changes (h : p.mode.plain = true) (hp : p.requestUnpairSelf = .ok p') :
    Changes d p p' := by
  unfold requestUnpairSelf at hp
  split at hp
  · obtain rfl := Except.ok.inj hp
    exact .refl
  · obtain ⟨prompt, -, hp⟩ := Checked.exists_of_bind hp
    obtain rfl := Except.ok.inj hp
    exact (Change.stage h).said

theorem cancelHostAction_changes (h : p.mode.plain = true ∨ p.mode = .hostConfirm) :
    Changes d p p.cancelHostAction := (Change.unstage h).said

theorem actionPair_changes (hp : p.actionPair = .ok p') : Changes d p p' := by
  unfold actionPair at hp
  split at hp
  · obtain rfl := Except.ok.inj hp
    exact .refl
  next hb =>
    split at hp
    · obtain rfl := Except.ok.inj hp
      exact setMsg_changes
    split at hp
    · obtain rfl := Except.ok.inj hp
      exact setMsg_changes
    · obtain ⟨secondHost, -, hp⟩ := Checked.exists_of_bind hp
      obtain rfl := Except.ok.inj hp
      exact (Change.pair (Bool.eq_false_iff.mpr hb)).said

-- ---------------------------------------------------------------------------
-- Settings and tabs
-- ---------------------------------------------------------------------------

theorem toggleSettingWithNote_changes {name cmdKey : Str} {current : Bool} {note : Option Str} :
    Changes d p (p.toggleSettingWithNote name cmdKey current note) :=
  unlessBusy_changes fun hb => begin_changes hb rfl rfl (.inl rfl)

theorem actionInfo_changes : Changes d p (p.actionInfo o) := by
  refine guardPaired_changes ?_
  split
  · split
    · split
      · exact setMsg_changes
      · exact setMsg_changes
    · exact setMsg_changes
  · exact setMsg_changes

theorem toggleHelp_changes (h : p.mode.plain = true) : Changes d p p.toggleHelp := by
  refine .single (.look h ?_)
  split
  · rfl
  · rfl

theorem startLogStream_changes (h : p.tab = .logs) : Changes d p (p.startLogStream o) := by
  unfold startLogStream
  split
  · exact .refl
  split
  · exact setMsg_changes
  · exact .single (.openLog h)

theorem keysFromStart_changes : Changes d p p.keysFromStart := by
  unfold keysFromStart
  split
  · exact .single (.pick fun _ => Nat.lt_of_lt_of_le Nat.zero_lt_one (Nat.le_max_right _ _))
  · exact .refl

theorem enterTab_changes {tab : Tab} (h : p.tab = tab) : Changes d p (p.enterTab o tab) := by
  cases tab with
  | dashboard | firmware => exact .refl
  | keys => exact .trans (b := p.refreshKeys o) refreshKeys_changes keysFromStart_changes
  | pam =>
    unfold enterTab
    dsimp only
    split
    · exact .single (.pamAt fun _ => by decide)
    · exact .refl
  | logs => exact startLogStream_changes h

theorem setTab_changes {tab : Tab} (h : p.mode.plain = true) : Changes d p (p.setTab tab o) := by
  have hturn : Changes d p (p.leaveTab.turnTo tab) := by
    unfold leaveTab
    split
    next => exact .trans (.single .closeLog) (.single (.turn h fun _ => rfl))
    next hne => exact .single (.turn h fun he => absurd he hne)
  unfold setTab
  split
  · exact .refl
  · exact (hturn.trans (enterTab_changes rfl)).trans setMsg_changes

theorem pamCursorUp_changes : Changes d p p.pamCursorUp := by
  unfold pamCursorUp
  split
  · exact .single (.pamAt fun h => Nat.lt_of_le_of_lt (Nat.sub_le _ _) h)
  · exact .refl

theorem pamCursorDown_changes : Changes d p p.pamCursorDown := by
  unfold pamCursorDown
  split
  next h => exact .single (.pamAt fun _ => h)
  next => exact .refl

theorem logScroll_changes : Changes d p p.logScrollUp ∧ Changes d p p.logScrollDown ∧
    Changes d p p.logPageUp ∧ Changes d p p.logPageDown ∧ Changes d p p.logJumpTop ∧
    Changes d p p.logJumpBottom := by
  refine ⟨?_, ?_, .single (.scroll fun _ => Nat.min_le_right _ _),
    .single (.scroll fun h => Nat.le_trans (Nat.sub_le _ _) h),
    .single (.scroll fun _ => Nat.le_refl _), .single (.scroll fun _ => Nat.zero_le _)⟩
  · unfold logScrollUp
    split
    next h => exact .single (.scroll fun _ => h)
    next => exact .refl
  · unfold logScrollDown
    split
    · exact .single (.scroll fun h => Nat.le_trans (Nat.sub_le _ _) h)
    · exact .refl

theorem afterPamAction_changes {req : PamRequest} {ok : Bool} :
    Changes d p (p.afterPamAction req ok) := by
  unfold afterPamAction
  dsimp only
  split
  · exact setMsg_changes
  · exact setMsg_changes

-- ---------------------------------------------------------------------------
-- A key that is added
-- ---------------------------------------------------------------------------

theorem inputMax_le : p.inputMax ≤ 256 := by
  unfold inputMax
  split
  · split
    · split <;> decide
    · decide
    · decide
  · decide

theorem inputPushChar_changes {c : Char} (h : p.Sane) (hm : p.mode = .keyInput) :
    Changes d p (p.inputPushChar c) := by
  obtain ⟨f, hf, hvalid⟩ := h.input hm
  unfold inputPushChar
  split
  next hc =>
    have hchange := Change.input (d := d) hm hvalid fun ht =>
      Typed.push ht (Nat.lt_of_lt_of_le hc.1 inputMax_le) hc.2
    rw [← hf] at hchange
    exact .single hchange
  next => exact .refl

theorem inputPopChar_changes (h : p.Sane) (hm : p.mode = .keyInput) :
    Changes d p p.inputPopChar := by
  obtain ⟨f, hf, hvalid⟩ := h.input hm
  have hchange := Change.input (d := d) hm hvalid Typed.pop
  rw [← hf] at hchange
  exact .single hchange

theorem inputCancel_changes (hm : p.mode = .keyInput) : Changes d p p.inputCancel :=
  (Change.closeInput hm).said

theorem actionKeyAdd_spec {cat : KeyTab} {name service : Str} {secret : Bytes} (hc : cat ≠ .ssh) :
    ∃ p', p.actionKeyAdd cat name service secret = .ok p' ∧ Changes d p p' := by
  unfold actionKeyAdd
  split
  · exact ⟨_, rfl, .refl⟩
  next hb =>
    have hb := Bool.eq_false_iff.mpr hb
    cases cat with
    | ssh => exact absurd rfl hc
    | otp => exact ⟨_, rfl, begin_changes hb rfl rfl (.inl rfl)⟩
    | api => exact ⟨_, rfl, begin_changes hb rfl rfl (.inl rfl)⟩

theorem secretOf_spec {cat : KeyTab} {text : Str} (hc : cat ≠ .ssh) :
    ∃ r, secretOf cat text = .ok r := by
  cases cat with
  | ssh => exact absurd rfl hc
  | otp =>
    unfold secretOf
    dsimp only
    split
    · split
      · exact ⟨_, rfl⟩
      split
      · exact ⟨_, rfl⟩
      · exact ⟨_, rfl⟩
    · exact ⟨_, rfl⟩
  | api =>
    unfold secretOf
    dsimp only
    split
    · exact ⟨_, rfl⟩
    · exact ⟨_, rfl⟩

theorem stage_name {f : KeyAddFlow} (h : f.stage = .name) : f.name = none := by
  unfold KeyAddFlow.stage at h
  split at h
  next hn => exact Option.isNone_iff_eq_none.mp hn
  next => split at h <;> nomatch h

theorem stage_service {f : KeyAddFlow} (h : f.stage = .service) :
    f.cat = .otp ∧ f.name.isSome = true := by
  unfold KeyAddFlow.stage at h
  split at h
  next => nomatch h
  next hn =>
    split at h
    next hc => exact ⟨hc.1, Option.isSome_iff_ne_none.mpr (by simpa using hn)⟩
    next => nomatch h

/-- The last stage is not one of an SSH key. -/
theorem stage_secret {f : KeyAddFlow} (hf : f.Valid) (h : f.stage = .secret) : f.cat ≠ .ssh := by
  intro hc
  unfold KeyAddFlow.stage at h
  rw [hf.ssh hc] at h
  nomatch h

/-- No stage is reached that there is not for the kind of key. -/
theorem inputSubmitKey_spec (h : p.Sane) (hm : p.mode = .keyInput) :
    ∃ p', p.inputSubmitKey = .ok p' ∧ Changes d p p' := by
  obtain ⟨f, hf, hvalid⟩ := h.input hm
  have hclose : Changes d p { p with inputBuf := [], keyAddFlow := none, mode := .normal } :=
    .single (.closeInput hm)
  have hnext {g : KeyAddFlow} (hg : g.Valid) :
      Changes d p { p with keyAddFlow := some g, inputBuf := [] } :=
    .single (.input hm hg fun _ => typed_nil)
  unfold inputSubmitKey
  rw [hf]
  dsimp only
  cases hstage : f.stage with
  | name =>
    have hname := stage_name hstage
    dsimp only
    split
    · exact ⟨_, rfl, setMsgPrompt_changes⟩
    split
    · refine ⟨_, rfl, hclose.trans (unlessBusy_changes fun hb => ?_)⟩
      exact begin_changes hb rfl rfl (.inl rfl)
    next hcat =>
      have hg : KeyAddFlow.Valid { f with name := some (Str.trim p.inputBuf) } :=
        ⟨fun he => absurd he hcat, fun hs => ⟨(hvalid.service hs).1, rfl⟩⟩
      have hgo := hnext hg
      cases hc : f.cat with
      | ssh => exact absurd hc hcat
      | otp =>
        rw [hc] at hgo
        exact ⟨_, rfl, hgo.trans setMsgPrompt_changes⟩
      | api =>
        rw [hc] at hgo
        exact ⟨_, rfl, hgo.trans setMsgPrompt_changes⟩
  | service =>
    obtain ⟨hcat, hname⟩ := stage_service hstage
    have hg : KeyAddFlow.Valid { f with service := some (Str.trim p.inputBuf) } :=
      ⟨hvalid.ssh, fun _ => ⟨hcat, hname⟩⟩
    exact ⟨_, rfl, (hnext hg).trans setMsgPrompt_changes⟩
  | secret =>
    have hcat := stage_secret hvalid hstage
    dsimp only
    split
    · exact ⟨_, rfl, setMsgPrompt_changes⟩
    obtain ⟨secret, hsecret⟩ := @secretOf_spec f.cat (Str.trim p.inputBuf) hcat
    rw [hsecret]
    cases secret with
    | error msg => exact ⟨_, rfl, setMsgPrompt_changes⟩
    | ok secret =>
      obtain ⟨p', hp', hadd⟩ := @actionKeyAdd_spec d
        { p with inputBuf := [], keyAddFlow := none, mode := .normal } f.cat (f.name.getD [])
        (f.service.getD []) secret hcat
      exact ⟨p', hp', hclose.trans hadd⟩

-- ---------------------------------------------------------------------------
-- Firmware, and what the daemon answers
-- ---------------------------------------------------------------------------

theorem fwRecheck_changes : Changes d p p.fwRecheck := by
  unfold fwRecheck
  split
  · exact .refl
  next h =>
    obtain ⟨hu, hc⟩ := (Bool.or_eq_false_iff).mp (Bool.eq_false_iff.mpr h)
    exact .single (.check (by simpa using hc) hu)

theorem fwEnter_changes (h : p.mode.plain = true) : Changes d p (p.fwEnter o) := by
  unfold fwEnter
  dsimp only
  split
  · exact (setTab_changes h).trans fwRecheck_changes
  · exact (setTab_changes h).trans fwRecheck_changes
  · exact (setTab_changes h).trans fwRecheck_changes
  · exact setTab_changes h

theorem fwStartUpdate_cases : p.fwStartUpdate = p ∨ p.Pushes p.fwStartUpdate := by
  unfold fwStartUpdate
  split
  · exact .inl rfl
  next h =>
    split
    next => exact .inl rfl
    next prep hp => exact .inr ⟨prep, not_not.mp h, hp, rfl⟩

/-- A fold of which every step is some change. -/
theorem foldl_changes {β : Type} {f : Panel → β → Panel} (hf : ∀ p b, Changes d p (f p b))
    (bs : List β) : Changes d p (bs.foldl f p) := by
  induction bs generalizing p with
  | nil => exact .refl
  | cons b bs ih => exact (hf p b).trans ih

theorem onSettings_changes {rsp : Str} : Changes d p (p.onSettings rsp) := by
  unfold onSettings
  split
  next kind parts _ =>
    split
    next =>
      refine foldl_changes (fun p part => ?_) parts
      dsimp only
      split
      next =>
        split
        · exact .single (.learn rfl id)
        split
        · exact .single (.learn rfl id)
        split
        · exact .single (.learn rfl id)
        split
        · exact .single (.learn rfl id)
        split
        · exact .single (.learn rfl id)
        · exact .refl
      next => exact .refl
    next => exact .refl
  next => exact .refl

end

end Panel

section
variable {app : App} {rsp : Str} {answer : Option Str}

theorem onStatus_keeps : (app.onStatus rsp).busy = app.busy ∧
    (app.onStatus rsp).slotActive = app.slotActive := by
  unfold App.onStatus
  split
  · exact ⟨rfl, rfl⟩
  · exact ⟨rfl, rfl⟩

theorem onPairStatus_keeps : (app.onPairStatus answer).busy = app.busy ∧
    (app.onPairStatus answer).slotActive = app.slotActive := by
  unfold App.onPairStatus
  split
  · exact ⟨rfl, rfl⟩
  · exact ⟨rfl, rfl⟩

theorem onFpList_keeps : (app.onFpList answer).busy = app.busy ∧
    (app.onFpList answer).slotActive = app.slotActive := by
  unfold App.onFpList
  split
  · split
    · split
      · exact ⟨rfl, rfl⟩
      · exact ⟨rfl, rfl⟩
    · exact ⟨rfl, rfl⟩
  · exact ⟨rfl, rfl⟩

theorem pollSlots_keeps : (app.pollSlots answer).busy = app.busy ∧
    (SlotKnown app.slotActive → SlotKnown (app.pollSlots answer).slotActive) := by
  unfold App.pollSlots
  dsimp only
  split
  · split
    next bitmap active h =>
      obtain ⟨line, -, hline⟩ := Option.bind_eq_some_iff.mp h
      exact ⟨rfl, fun _ => .inr (parseSlotStatusLine_active hline)⟩
    next => exact ⟨rfl, fun _ => .inl rfl⟩
    next => exact ⟨rfl, id⟩
  · exact ⟨rfl, fun _ => .inl rfl⟩

end

namespace Panel

section
variable {d d' : Job → Prop} {p p' : Panel} {o : Outside}

/-- A refresh, once the reports have been received. -/
theorem refresh_changes : Changes d p (p.refresh [] o) := by
  unfold refresh
  dsimp only [drainActions, List.foldl_nil]
  split
  next => exact .single (.learn rfl id)
  next rsp _ =>
    have happ : Changes d p { p with toApp :=
        (((p.onStatus rsp).onPairStatus o.pairStatus).onFpList o.fpList).pollSlots o.slotStatus } := by
      obtain ⟨hb₁, hs₁⟩ := @onStatus_keeps p.toApp rsp
      obtain ⟨hb₂, hs₂⟩ := @onPairStatus_keeps (p.onStatus rsp) o.pairStatus
      obtain ⟨hb₃, hs₃⟩ := @onFpList_keeps ((p.onStatus rsp).onPairStatus o.pairStatus) o.fpList
      obtain ⟨hb₄, hs₄⟩ := @pollSlots_keeps
        (((p.onStatus rsp).onPairStatus o.pairStatus).onFpList o.fpList) o.slotStatus
      refine .single (.learn (hb₄.trans (hb₃.trans (hb₂.trans hb₁))) fun h => hs₄ ?_)
      rwa [hs₃, hs₂, hs₁]
    refine .trans ?_ (.single (.learn rfl id))
    refine .trans ?_ refreshKeys_changes
    refine .trans ?_ (.single (.learn rfl id))
    refine happ.trans ?_
    cases o.settings with
    | none => exact .refl
    | some rsp => exact onSettings_changes

theorem refresh_eq {reports : List Report} :
    p.refresh reports o = (p.drainActions reports).refresh [] o := rfl

end

end Panel

end Immurok.Tui
