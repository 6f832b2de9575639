import Immurok.Cli.PanelChanges

/-!
# The keys of the panel

What each key of the keyboard changes, at which of them the interface can fail, and
what the panel receives. A job that destroys something is begun only as it was asked for.
-/

namespace Immurok.Tui

/-- The job of a host action, with the slot known for this computer's. -/
def HostAction.job (mine : Option UInt8) : HostAction → Job
  | .unpairSelf => .unpair
  | .unpairSlot slot => if some slot = mine then .unpair else .slotClear slot
  | .factoryReset => .factoryReset
  | .enrollSwitch => .enroll switchFingerSlot

/-- The panel that the loop goes on with. -/
def Outcome.panel? : Outcome → Option Panel
  | .quit => none
  | .again p | .on p _ => some p

namespace Panel

/-- The key confirms the job that the panel waits to begin. -/
def Confirms (p : Panel) (code : KeyCode) (job : Job) : Prop :=
  (p.mode = .hostConfirm ∧ (code = .char 'y' ∨ code = .char 'Y') ∧
    ∃ a, p.pendingHostAction = some a ∧ job = a.job p.slotMine) ∨
  (p.mode = .keyDeleteConfirm ∧ (code = .char 'y' ∨ code = .char 'Y' ∨ code = .enter) ∧
    ∃ tab idx, p.pendingDelete = some (tab, idx) ∧ job = .keyDelete tab idx)

section
variable {d d' : Job → Prop} {p p' : Panel} {o : Outside} {code : KeyCode} {key : Key}
  {out : Outcome}

theorem Change.mono (h : Change d p p') (hd : ∀ job, d job → d' job) : Change d' p p' := by
  cases h with
  | say h => exact .say h
  | look h h' => exact .look h h'
  | stage h => exact .stage h
  | unstage h => exact .unstage h
  | askDelete h => exact .askDelete h
  | dropDelete h => exact .dropDelete h
  | openInput h => exact .openInput h
  | input h hf hb => exact .input h hf hb
  | closeInput h => exact .closeInput h
  | turn h h' => exact .turn h h'
  | closeLog => exact .closeLog
  | openLog h => exact .openLog h
  | rows h => exact .rows h
  | pick h => exact .pick h
  | pamAt h => exact .pamAt h
  | scroll h => exact .scroll h
  | begin hb hj hp h => exact .begin hb hj hp (h.imp_right (hd _))
  | enroll hb h => exact .enroll hb h
  | pair hb => exact .pair hb
  | cancelEnroll => exact .cancelEnroll
  | silentCheck => exact .silentCheck
  | check h h' => exact .check h h'
  | learn h h' => exact .learn h h'

theorem Changes.mono (h : Changes d p p') (hd : ∀ job, d job → d' job) : Changes d' p p' := by
  induction h with
  | refl => exact .refl
  | tail _ hc ih => exact ih.tail (hc.mono hd)

theorem confirmHostAction_changes (h : p.Sane) (hm : p.mode = .hostConfirm)
    (hc : code = .char 'y' ∨ code = .char 'Y') :
    Changes (p.Confirms code) p p.confirmHostAction := by
  obtain ⟨a, ha⟩ := h.host hm
  have hjob : ∀ job, job = a.job p.slotMine → p.Confirms code job :=
    fun job hj => .inl ⟨hm, hc, a, ha, hj⟩
  refine Changes.mono (d := (· = a.job p.slotMine)) ?_ hjob
  have hleave : Changes (· = a.job p.slotMine) p
      { p with pendingHostAction := none, mode := .normal } := .single (.unstage (.inr hm))
  unfold confirmHostAction
  rw [ha]
  refine hleave.trans ?_
  cases a with
  | unpairSelf => exact unlessBusy_changes fun hb => begin_changes hb rfl rfl (.inr rfl)
  | unpairSlot slot =>
    dsimp only
    split
    next hmine =>
      refine unlessBusy_changes fun hb => begin_changes hb rfl rfl (.inr ?_)
      exact (if_pos hmine).symm
    next hmine =>
      refine unlessBusy_changes fun hb => begin_changes hb rfl rfl (.inr ?_)
      exact (if_neg hmine).symm
  | factoryReset => exact unlessBusy_changes fun hb => begin_changes hb rfl rfl (.inr rfl)
  | enrollSwitch => exact actionEnroll_changes rfl

theorem confirmKeyDelete_changes (h : p.Sane) (hm : p.mode = .keyDeleteConfirm)
    (hc : code = .char 'y' ∨ code = .char 'Y' ∨ code = .enter) :
    Changes (p.Confirms code) p p.confirmKeyDelete := by
  obtain ⟨⟨tab, idx⟩, hkey⟩ := h.delete hm
  have hleave : Changes (p.Confirms code) p { p with pendingDelete := none, mode := .normal } :=
    .single (.dropDelete hm)
  unfold confirmKeyDelete
  rw [hkey]
  refine hleave.trans (unlessBusy_changes fun hb => begin_changes hb rfl rfl (.inr ?_))
  exact .inr ⟨hm, hc, tab, idx, hkey, rfl⟩

-- ---------------------------------------------------------------------------
-- Keys of the keyboard
-- ---------------------------------------------------------------------------

theorem dashboardKey_changes (h : p.mode.plain = true) (hp : p.dashboardKey code o = .ok p') :
    Changes d p p' := by
  unfold dashboardKey at hp
  split at hp
  · exact actionPair_changes hp
  · exact requestUnpairSelf_changes h hp
  all_goals obtain rfl := Except.ok.inj hp
  · exact autoEnroll_changes h
  · exact autoEnroll_changes h
  · exact guardPaired_changes (guardConnected_changes (Change.look h rfl).said)
  · exact guardPaired_changes (unlessBusy_changes fun hb =>
      guardConnected_changes (begin_changes hb rfl rfl (.inl rfl)))
  · exact guardPaired_changes toggleSettingWithNote_changes
  · exact guardPaired_changes toggleSettingWithNote_changes
  · exact guardPaired_changes toggleSettingWithNote_changes
  · exact guardPaired_changes toggleSettingWithNote_changes
  · exact guardPaired_changes toggleSettingWithNote_changes
  · exact actionInfo_changes
  · exact enterHostMenu_changes h
  · exact fwEnter_changes h
  · split
    · exact actionEnrollCancel_changes
    · exact .refl
  · exact .refl

theorem keysKey_changes (h : p.mode.plain = true) : Changes d p (p.keysKey code o) := by
  unfold keysKey
  split
  · exact setTab_changes h
  iterate 9 exact keysSetTab_changes
  · exact keysCursorUp_changes
  · exact keysCursorUp_changes
  · exact keysCursorDown_changes
  · exact keysCursorDown_changes
  · exact refreshKeys_changes.trans setMsg_changes
  · exact enterKeyAdd_changes h
  · exact enterKeyAdd_changes h
  · exact enterKeyDeleteConfirm_changes h
  · exact actionKeyOtp_changes
  · exact actionKeyShowPubkey_changes
  · exact actionKeyShowApi_changes
  · exact .refl

theorem pamKey_changes (h : p.mode.plain = true) : Changes d p (p.pamKey code o).1 := by
  have hunpaired : Changes d p (p.setMsg "Pair the device first (press p)." .yellow) :=
    setMsg_changes
  have hdone : Changes d p (p.setMsg "PAM already configured — nothing to repair." .green) :=
    setMsg_changes
  unfold pamKey
  dsimp only
  split
  · exact setTab_changes h
  · exact pamCursorUp_changes
  · exact pamCursorUp_changes
  · exact pamCursorDown_changes
  · exact pamCursorDown_changes
  · split
    · exact .refl
    · exact hunpaired
  · split
    · exact .refl
    · exact hunpaired
  · split
    · split
      · exact .refl
      · exact hdone
    · exact hunpaired
  · exact .refl

theorem logsKey_changes (h : p.mode.plain = true) : Changes d p (p.logsKey code o) := by
  obtain ⟨hup, hdown, hpageUp, hpageDown, htop, hbottom⟩ := @logScroll_changes d p
  unfold logsKey
  split
  · exact setTab_changes h
  · exact hup
  · exact hup
  · exact hdown
  · exact hdown
  · exact hpageUp
  · exact hpageDown
  · exact htop
  · exact hbottom
  · exact .refl

theorem firmwareKey_cases (h : p.mode.plain = true) :
    Changes d p (p.firmwareKey code o) ∨ p.Pushes (p.firmwareKey code o) := by
  unfold firmwareKey
  split
  · split
    · exact .inl (setTab_changes h)
    · exact .inl .refl
  · exact .inl fwRecheck_changes
  · obtain hp | hp := @fwStartUpdate_cases p
    · rw [hp]
      exact .inl .refl
    · exact .inr hp
  · exact .inl .refl

theorem changes_of_on {q : Panel} {req : Option PamRequest} (hq : Changes d p q)
    (hout : (.ok (.on q req) : Checked Outcome) = .ok out) (hp : out.panel? = some p') :
    Changes d p p' := by
  obtain rfl := Except.ok.inj hout
  obtain rfl := Option.some.inj hp
  exact hq

theorem changes_of_toOutcome {q : Checked Panel} (hq : ∀ q', q = .ok q' → Changes d p q')
    (hout : toOutcome q = .ok out) (hp : out.panel? = some p') : Changes d p p' := by
  cases q with
  | error e => nomatch hout
  | ok q => exact changes_of_on (hq q rfl) hout hp

theorem normalKey_cases (h : p.mode.plain = true) (hout : p.normalKey code o = .ok out)
    (hp : out.panel? = some p') : Changes d p p' ∨ p.Pushes p' := by
  unfold normalKey at hout
  split at hout
  · split at hout
    · exact .inl (changes_of_on setMsg_changes hout hp)
    · obtain rfl := Except.ok.inj hout
      nomatch hp
  · exact .inl (changes_of_on (toggleHelp_changes h) hout hp)
  · exact .inl (changes_of_on (setTab_changes h) hout hp)
  · exact .inl (changes_of_on (setTab_changes h) hout hp)
  · exact .inl (changes_of_on (setTab_changes h) hout hp)
  · exact .inl (changes_of_on (setTab_changes h) hout hp)
  · exact .inl (changes_of_on (fwEnter_changes h) hout hp)
  · split at hout
    · exact .inl (changes_of_toOutcome (fun q hq => dashboardKey_changes h hq) hout hp)
    · exact .inl (changes_of_on (keysKey_changes h) hout hp)
    · exact .inl (changes_of_on (pamKey_changes h) hout hp)
    · exact .inl (changes_of_on (logsKey_changes h) hout hp)
    · obtain rfl := Except.ok.inj hout
      obtain rfl := Option.some.inj hp
      exact firmwareKey_cases h

theorem helpKey_changes (h : p.mode.plain = true) : Changes d p (p.helpKey code) := by
  unfold helpKey
  split
  · exact toggleHelp_changes h
  · exact toggleHelp_changes h
  · exact toggleHelp_changes h
  · exact .refl

theorem deleteSelectKey_changes (h : p.mode.plain = true) : Changes d p (p.deleteSelectKey code) := by
  unfold deleteSelectKey
  split
  · exact (Change.look h rfl).said
  · split
    · dsimp only
      split
      · exact actionDelete_changes h
      · exact .refl
    · exact .refl
  · exact .refl

theorem enrollKindKey_changes (h : p.mode.plain = true) : Changes d p (p.enrollKindKey code) := by
  unfold enrollKindKey
  split
  · exact (Change.look h rfl).said
  · exact enrollKindPick_changes h
  · exact .refl

theorem keyInputKey_spec (h : p.Sane) (hm : p.mode = .keyInput) :
    ∃ p', p.keyInputKey code = .ok p' ∧ Changes d p p' := by
  unfold keyInputKey
  split
  · exact ⟨_, rfl, inputCancel_changes hm⟩
  · exact inputSubmitKey_spec h hm
  · exact ⟨_, rfl, inputPopChar_changes h hm⟩
  · exact ⟨_, rfl, inputPushChar_changes h hm⟩
  · exact ⟨_, rfl, .refl⟩

theorem keyDeleteKey_changes (h : p.Sane) (hm : p.mode = .keyDeleteConfirm) :
    Changes (p.Confirms code) p (p.keyDeleteKey code) := by
  unfold keyDeleteKey
  split
  · exact confirmKeyDelete_changes h hm (.inl rfl)
  · exact confirmKeyDelete_changes h hm (.inr (.inl rfl))
  · exact confirmKeyDelete_changes h hm (.inr (.inr rfl))
  · exact cancelKeyDelete_changes hm
  · exact cancelKeyDelete_changes hm
  · exact cancelKeyDelete_changes hm
  · exact .refl

theorem hostMenuKey_changes (h : p.mode.plain = true) : Changes d p (p.hostMenuKey code) := by
  unfold hostMenuKey
  split
  · exact cancelHostAction_changes (.inl h)
  · exact hostMenuPick_changes h
  · exact .refl

theorem hostConfirmKey_changes (h : p.Sane) (hm : p.mode = .hostConfirm) :
    Changes (p.Confirms code) p (p.hostConfirmKey code) := by
  unfold hostConfirmKey
  split
  · exact confirmHostAction_changes h hm (.inl rfl)
  · exact confirmHostAction_changes h hm (.inr rfl)
  · exact cancelHostAction_changes (.inr hm)
  · exact cancelHostAction_changes (.inr hm)
  · exact cancelHostAction_changes (.inr hm)
  · exact .refl

/-- What a key does to the panel. -/
theorem handleKey_cases (h : p.Sane) (hout : p.handleKey key o = .ok out)
    (hp : out.panel? = some p') : Changes (p.Confirms key.code) p p' ∨ p.Pushes p' := by
  have hplain (hm : p.mode = .normal ∨ p.mode = .help ∨ p.mode = .deleteSelect ∨
      p.mode = .enrollKindSelect ∨ p.mode = .hostMenu) : p.mode.plain = true := by
    obtain hm | hm | hm | hm | hm := hm
    all_goals rw [hm]; rfl
  unfold handleKey at hout
  split at hout
  · split at hout
    · obtain rfl := Except.ok.inj hout
      obtain rfl := Option.some.inj hp
      exact .inl setMsg_changes
    · obtain rfl := Except.ok.inj hout
      nomatch hp
  split at hout
  next hm => exact normalKey_cases (hplain (.inl hm)) hout hp
  next hm => exact .inl (changes_of_on (helpKey_changes (hplain (.inr (.inl hm)))) hout hp)
  next hm => exact .inl (changes_of_on (deleteSelectKey_changes (hplain (by simp [hm]))) hout hp)
  next hm => exact .inl (changes_of_on (enrollKindKey_changes (hplain (by simp [hm]))) hout hp)
  next hm =>
    obtain ⟨q, hq, hchanges⟩ := @keyInputKey_spec (p.Confirms key.code) p key.code h hm
    rw [hq] at hout
    exact .inl (changes_of_on hchanges hout hp)
  next hm => exact .inl (changes_of_on (keyDeleteKey_changes h hm) hout hp)
  next hm => exact .inl (changes_of_on (hostMenuKey_changes (hplain (by simp [hm]))) hout hp)
  next hm => exact .inl (changes_of_on (hostConfirmKey_changes h hm) hout hp)

-- ---------------------------------------------------------------------------
-- Panics
-- ---------------------------------------------------------------------------

/-- A pairing for which the interface does not know the slot it would be in. -/
structure PairsBlindly (p : Panel) : Prop where
  idle : p.busy = false
  unpaired : p.paired = false
  connected : p.connected = true
  dualHost : p.dualHost = true
  active : p.slotActive = 0

theorem isSecondHost_ok {bitmap active : UInt8} (h : active = slot1 ∨ active = slot2) :
    ∃ second, isSecondHost (.supported bitmap active) = .ok second := by
  unfold isSecondHost
  dsimp only
  rw [slotBit_eq h]
  exact ⟨_, rfl⟩

theorem actionPair_blind (h : p.PairsBlindly) : p.actionPair = .error .panic := by
  unfold actionPair
  rw [h.idle, h.unpaired, h.connected, h.dualHost, h.active]
  rfl

theorem actionPair_knowing (h : SlotKnown p.slotActive) (hp : ¬ p.PairsBlindly) :
    ∃ p', p.actionPair = .ok p' := by
  unfold actionPair
  split
  next => exact ⟨_, rfl⟩
  next hbusy =>
    split
    next => exact ⟨_, rfl⟩
    next hpaired =>
      split
      next => exact ⟨_, rfl⟩
      next hconnected =>
        cases hdual : p.dualHost with
        | false => exact ⟨_, rfl⟩
        | true =>
          obtain h | h := h
          · refine absurd ⟨?_, ?_, ?_, hdual, h⟩ hp
            · exact Bool.eq_false_iff.mpr hbusy
            · exact Bool.eq_false_iff.mpr hpaired
            · simpa using hconnected
          · obtain ⟨second, hsecond⟩ := @isSecondHost_ok p.slotBitmap p.slotActive h
            simp only [Checked.andThen, if_true, hsecond]
            exact ⟨_, rfl⟩

theorem actionPair_fails {e : Fault} (h : SlotKnown p.slotActive) :
    p.actionPair = .error e ↔ e = .panic ∧ p.PairsBlindly := by
  by_cases hp : p.PairsBlindly
  · rw [actionPair_blind hp]
    exact ⟨fun he => ⟨(Except.error.inj he).symm, hp⟩, fun he => by rw [he.1]⟩
  · obtain ⟨p', hp'⟩ := actionPair_knowing h hp
    rw [hp']
    exact ⟨nofun, fun he => absurd he.2 hp⟩

theorem requestUnpairSelf_ok (h : SlotKnown p.slotActive) : ∃ p', p.requestUnpairSelf = .ok p' := by
  have hprompt : ∃ prompt, p.unpairSelfPrompt = .ok prompt := by
    unfold App.unpairSelfPrompt
    split
    · exact ⟨_, rfl⟩
    · cases hact : p.dualHost && p.slotActive != 0 with
      | false => exact ⟨_, rfl⟩
      | true =>
        rw [Bool.and_eq_true] at hact
        obtain h | h := h
        · rw [h] at hact
          nomatch hact.2
        · rw [slotBit_eq h]
          exact ⟨_, rfl⟩
  unfold requestUnpairSelf
  split
  · exact ⟨_, rfl⟩
  · obtain ⟨prompt, hprompt⟩ := hprompt
    rw [hprompt]
    exact ⟨_, rfl⟩

theorem toOutcome_eq_error {q : Checked Panel} {e : Fault} :
    toOutcome q = .error e ↔ q = .error e := by
  cases q with
  | error e => exact ⟨fun h => congrArg Except.error (Except.error.inj h),
      fun h => congrArg Except.error (Except.error.inj h)⟩
  | ok q => exact ⟨nofun, nofun⟩

theorem dashboardKey_ok (h : SlotKnown p.slotActive) (hcode : code ≠ .char 'p') :
    ∃ p', p.dashboardKey code o = .ok p' := by
  unfold dashboardKey
  split
  · exact absurd rfl hcode
  · exact requestUnpairSelf_ok h
  all_goals exact ⟨_, rfl⟩

theorem normalKey_ok (h : SlotKnown p.slotActive)
    (hcode : code = .char 'p' → p.tab ≠ .dashboard) : ∃ out, p.normalKey code o = .ok out := by
  unfold normalKey
  split
  · split
    · exact ⟨_, rfl⟩
    · exact ⟨_, rfl⟩
  iterate 6 exact ⟨_, rfl⟩
  split
  next htab =>
    obtain ⟨q, hq⟩ := dashboardKey_ok (o := o) h fun hp => hcode hp htab
    rw [hq]
    exact ⟨_, rfl⟩
  all_goals exact ⟨_, rfl⟩

theorem handleKey_ok (h : p.Sane)
    (hcode : key.code = .char 'p' → p.mode = .normal → p.tab ≠ .dashboard) :
    ∃ out, p.handleKey key o = .ok out := by
  unfold handleKey
  split
  · split
    · exact ⟨_, rfl⟩
    · exact ⟨_, rfl⟩
  split
  next hm => exact normalKey_ok h.slot fun hp => hcode hp hm
  iterate 3 exact ⟨_, rfl⟩
  next hm =>
    obtain ⟨q, hq, -⟩ := @keyInputKey_spec (fun _ => False) p key.code h hm
    rw [hq]
    exact ⟨_, rfl⟩
  all_goals exact ⟨_, rfl⟩

/-- The one key at which the interface can fail. -/
theorem handleKey_fails {e : Fault} (h : p.Sane) : p.handleKey key o = .error e ↔
    e = .panic ∧ key.code = .char 'p' ∧ p.mode = .normal ∧ p.tab = .dashboard ∧
      p.PairsBlindly := by
  by_cases hcode : key.code = .char 'p' ∧ p.mode = .normal ∧ p.tab = .dashboard
  · obtain ⟨hp, hm, htab⟩ := hcode
    have heq : p.handleKey key o = toOutcome p.actionPair := by
      unfold handleKey
      rw [hp, hm, if_neg (by simp)]
      unfold normalKey
      dsimp only
      rw [htab]
      rfl
    rw [heq, toOutcome_eq_error, actionPair_fails h.slot]
    simp only [hp, hm, htab, true_and]
  · obtain ⟨out, hout⟩ := @handleKey_ok p o key h fun hp hm htab => hcode ⟨hp, hm, htab⟩
    rw [hout]
    exact ⟨nofun, fun he => absurd ⟨he.2.1, he.2.2.1, he.2.2.2.1⟩ hcode⟩

-- ---------------------------------------------------------------------------
-- Reports
-- ---------------------------------------------------------------------------

theorem Sane.pushLog {line : Str} (h : p.Sane) : (p.pushLog line).Sane := by
  refine { h with logLines := length_pushBack h.logLines (by decide), logScroll := ?_ }
  have hscroll := h.logScroll
  have hlines := h.logLines
  unfold Panel.pushLog pushBack
  dsimp only
  rw [List.length_append, List.length_singleton]
  split
  · rw [List.length_tail]
    omega
  · omega

theorem Sane.receive {r : Report} (h : p.Sane) : (p.receive r).Sane := by
  have hsay {msg : Str} {style : MessageStyle} : (p.setMsg msg style).Sane :=
    h.changes (d := fun _ => False) setMsg_changes
  cases r with
  | message msg style => exact hsay
  | secretMessage msg => exact { h with }
  | refresh => exact h
  | enrollStarted => exact { h with }
  | enrollProgress current total => exact { h with }
  | logLine line => exact h.pushLog
  | logEnded =>
    show Panel.Sane (if p.tab = .logs then p.pushLog "[log stream ended]" else p)
    split
    · exact h.pushLog
    · exact h
  | done => exact { h with }
  | fwSilentCheck v => exact { h with }
  | fwPrepared r =>
    cases r with
    | error e => exact { h with ready := nofun }
    | ok prep =>
      cases prep with
      | none => exact { h with ready := nofun }
      | some prep => exact { h with ready := fun _ => rfl }
  | fwProgress stage hop hops => exact { h with ready := nofun }
  | fwFinished r =>
    cases r with
    | error e => exact { h with ready := nofun }
    | ok v => exact { h with ready := nofun }

theorem Sane.drainActions {reports : List Report} (h : p.Sane) : (p.drainActions reports).Sane := by
  induction reports generalizing p with
  | nil => exact h
  | cons r reports ih => exact ih h.receive

theorem Sane.refresh {reports : List Report} (h : p.Sane) : (p.refresh reports o).Sane := by
  rw [refresh_eq]
  exact h.drainActions.changes (d := fun _ => False) refresh_changes

end

end Panel

end Immurok.Tui
