import Immurok.DualHost
import Immurok.Text.Checked

/-!
# Host slots in the terminal interface

What the interface learns of the device's host slots from tick to tick, and what it
does with it: whether a pairing would be that of a second host, and what is said
before this computer is unpaired.
-/

namespace Immurok.Tui

-- ---------------------------------------------------------------------------
-- Slots
-- ---------------------------------------------------------------------------

/-- `1u8 << (active - 1)`. -/
def slotBit (active : UInt8) : Checked UInt8 :=
  if active = 0 ∨ 8 ≤ active - 1 then .error .panic else .ok (1 <<< (active - 1))

/-- `SlotStatus::is_second_host`, with an overflow as a panic. -/
def isSecondHost : SlotStatus → Checked Bool
  | .supported bitmap active => do
    let activeBit ← slotBit active
    .ok (bitmap != 0 && bitmap &&& activeBit == 0)
  | .unsupported => .ok false

-- ---------------------------------------------------------------------------
-- The state
-- ---------------------------------------------------------------------------

structure App where
  connected : Bool
  deviceName : Str
  battery : UInt8
  fwVersion : Str
  deviceUnpaired : Bool
  paired : Bool
  fpBitmap : UInt8
  daemonOk : Bool
  dualHost : Bool
  slotBitmap : UInt8
  slotActive : UInt8
  slotMine : Option UInt8
  slotPollTick : UInt8
  busy : Bool
  message : Str

def App.new : App :=
  { connected := false, deviceName := [], battery := 0, fwVersion := [], deviceUnpaired := false
    paired := false, fpBitmap := 0, daemonOk := false, dualHost := false, slotBitmap := 0
    slotActive := 0, slotMine := none, slotPollTick := 0, busy := false, message := "Ready" }

/-- What the threads of the actions send; the others change nothing of this. -/
inductive ActionResult
  | message (text : Str)
  | secretMessage (text : Str)
  | done
  | fwFinished
  | other

def App.drainActions (results : List ActionResult) (app : App) : App :=
  results.foldl (fun app r =>
    match r with
    | .message text | .secretMessage text => { app with message := text }
    | .done | .fwFinished => { app with busy := false }
    | .other => app) app

-- ---------------------------------------------------------------------------
-- A tick
-- ---------------------------------------------------------------------------

def slotPollEvery : UInt8 := 5

/-- What the daemon answers in one tick; `none` where the query fails. -/
structure Answers where
  status : Option Str
  pairStatus : Option Str
  fpList : Option Str
  slotStatus : Option Str

structure StatusLine where
  connected : Bool
  deviceName : Str
  battery : UInt8
  fwVersion : Str
  deviceUnpaired : Bool

def parseStatus (rsp : Str) : Option StatusLine :=
  match rsp.splitOn ':' with
  | kind :: connected :: deviceName :: battery :: fwVersion :: rest =>
    if kind = "STATUS".toList then
      some
        { connected := connected = "1".toList
          deviceName
          battery := (Str.parseU8 battery).toOption.getD 0
          fwVersion
          deviceUnpaired := rest.head? = some "1".toList }
    else none
  | _ => none

def App.onStatus (rsp : Str) (app : App) : App :=
  match parseStatus rsp with
  | some line =>
    { app with
      daemonOk := true
      connected := line.connected
      deviceName := line.deviceName
      battery := line.battery
      fwVersion := line.fwVersion
      deviceUnpaired := line.deviceUnpaired }
  | none => { app with daemonOk := true }

def App.onPairStatus (answer : Option Str) (app : App) : App :=
  match answer with
  | some rsp =>
    { app with paired := Str.contains "PAIRED" rsp && !Str.contains "UNPAIRED" rsp }
  | none => app

def App.onFpList (answer : Option Str) (app : App) : App :=
  if app.connected then
    match answer.map (·.splitOn ':') with
    | some (kind :: bitmap :: _) =>
      if kind = "OK".toList then
        { app with fpBitmap := (Str.parseU8 bitmap).toOption.getD 0 }
      else app
    | _ => app
  else { app with fpBitmap := 0 }

/-- Slots are asked for in one tick of `slotPollEvery`. -/
def App.pollSlots (answer : Option Str) (app : App) : App :=
  let app := { app with slotPollTick := app.slotPollTick + 1 }
  let pollSlots := app.slotPollTick % slotPollEvery = 1
  if app.connected ∧ pollSlots then
    match answer.bind parseSlotStatusLine with
    | some (.supported bitmap active) =>
      { app with
        dualHost := true
        slotBitmap := bitmap
        slotActive := active
        slotMine := answer.bind parseSlotOwner }
    | some .unsupported =>
      { app with dualHost := false, slotBitmap := 0, slotActive := 0, slotMine := none }
    | none => app
  else { app with slotActive := 0 }

def App.refresh (results : List ActionResult) (a : Answers) (app : App) : App :=
  let app := app.drainActions results
  match a.status with
  | none => { app with daemonOk := false, connected := false }
  | some rsp =>
    (((app.onStatus rsp).onPairStatus a.pairStatus).onFpList a.fpList).pollSlots a.slotStatus

-- ---------------------------------------------------------------------------
-- Actions
-- ---------------------------------------------------------------------------

def App.actionPair (app : App) : Checked App :=
  if app.busy then .ok app
  else if app.paired then .ok { app with message := "Already paired — unpair first." }
  else if !app.connected then .ok { app with message := "Device not connected" }
  else do
    let secondHost ← Checked.andThen app.dualHost
      (isSecondHost (.supported app.slotBitmap app.slotActive))
    .ok { app with
      busy := true
      message :=
        if secondHost then "Pairing as second host — (1/2) touch an enrolled finger, " ++
          "(2/2) press the device button"
        else "Pairing… press the device button within 30s" }

def oldFirmwareWarning : Str :=
  "Unpair? This firmware predates dual-host support: if fingerprints remain enrolled, " ++
  "re-pairing afterward will need a factory reset (erases ALL keys). " ++
  "Delete fingerprints first to avoid that. (y/n)"

def onlyHostWarning : Str :=
  "Unpair? This is the ONLY paired host and fingerprints remain — re-pairing will be " ++
  "refused and only a 3s button hold (erases ALL keys) recovers. " ++
  "Delete fingerprints first. (y/n)"

def unpairSelf : Str := "Unpair THIS computer? Fingerprints and keys are kept. (y/n)"

def App.unpairSelfPrompt (app : App) : Checked Str :=
  if app.connected && !app.dualHost then .ok oldFirmwareWarning
  else do
    let onlyUs ← Checked.andThen (app.dualHost && app.slotActive != 0) (do
      let activeBit ← slotBit app.slotActive
      .ok (app.slotBitmap == activeBit))
    .ok (if onlyUs && app.fpBitmap != 0 then onlyHostWarning else unpairSelf)

def App.requestUnpairSelf (app : App) : Checked App :=
  if app.busy then .ok app
  else do
    let prompt ← app.unpairSelfPrompt
    .ok { app with message := prompt }

-- ---------------------------------------------------------------------------
-- Runs
-- ---------------------------------------------------------------------------

/-- `other` is any other key: of this state it changes what is said and whether the
interface is busy. -/
inductive Event
  | refresh (results : List ActionResult) (answers : Answers)
  | drain (results : List ActionResult)
  | pair
  | requestUnpairSelf
  | other (busy : Bool) (message : Str)

def App.step (app : App) : Event → Checked App
  | .refresh results answers => .ok (app.refresh results answers)
  | .drain results => .ok (app.drainActions results)
  | .pair => app.actionPair
  | .requestUnpairSelf => app.requestUnpairSelf
  | .other busy message => .ok { app with busy, message }

/-- The four fields that are kept of an answer about the slots. -/
structure Slots where
  dualHost : Bool
  bitmap : UInt8
  active : UInt8
  mine : Option UInt8
  deriving DecidableEq

def App.slots (app : App) : Slots := ⟨app.dualHost, app.slotBitmap, app.slotActive, app.slotMine⟩

def readSlots (line : Str) : Option Slots :=
  (parseSlotStatusLine line).map fun
    | .supported bitmap active => ⟨true, bitmap, active, parseSlotOwner line⟩
    | .unsupported => ⟨false, 0, 0, none⟩

/-- What a tick is told of the connection, if it is told. -/
def Answers.link (a : Answers) : Option Bool := (a.status.bind parseStatus).map (·.connected)

/-- The last answer about the slots that was read, and whether the device has been
connected since, by all that was told. -/
structure Seen where
  answer : Option Slots
  stayed : Bool
  deriving DecidableEq

def App.Polls (app : App) (a : Answers) : Prop :=
  a.link.getD app.connected = true ∧ (app.slotPollTick + 1) % slotPollEvery = 1

instance : DecidablePred (App.Polls app) := fun _ => inferInstanceAs (Decidable (_ ∧ _))

def Seen.next (seen : Seen) (app : App) : Event → Seen
  | .refresh _ a =>
    if a.status = none then seen
    else
      match if app.Polls a then a.slotStatus.bind readSlots else none with
      | some slots => ⟨some slots, true⟩
      | none => { seen with stayed := seen.stayed && a.link != some false }
  | _ => seen

/-- The states that are reached, where each tick has `ok`. -/
inductive Run (ok : App → Answers → Prop) : App → Seen → Prop
  | start : Run ok .new ⟨none, false⟩
  | step {app app' : App} {seen : Seen} {e : Event} : Run ok app seen →
    (∀ results a, e = .refresh results a → ok app a) → app.step e = .ok app' →
    Run ok app' (seen.next app e)

/-- The last answer is what is known of the slots, a pairing asks about a slot that
there is, and the last host is not unpaired without the warning. -/
structure Informed (app : App) (seen : Seen) : Prop where
  kept : seen.stayed = true → ∀ slots, seen.answer = some slots → app.slots = slots
  asked : app.busy = false → app.paired = false → app.connected = true → app.dualHost = true →
    app.slotActive = slot1 ∨ app.slotActive = slot2
  pairs : ∃ app', app.actionPair = .ok app'
  warned : ∀ slots, seen.answer = some slots → app.fpBitmap ≠ 0 → slots.dualHost = true →
    slots.bitmap = 1 <<< (slots.active - 1) → app.unpairSelfPrompt = .ok onlyHostWarning

/-- The tick has no part in what goes wrong: the device has no host slots, or they are
asked for and the active one is told or known; and a disconnection is told where it is
still known. -/
def Answers.Harmless (app : App) (a : Answers) : Prop :=
  a.status ≠ none →
    if a.link.getD app.connected = true then
      app.dualHost = false ∨ app.Polls a ∧
        ((a.slotStatus.bind parseSlotStatusLine).isSome ∨ app.slotActive ≠ 0)
    else a.link = some false ∨ app.slotActive = 0

-- ---------------------------------------------------------------------------
-- What a tick does
-- ---------------------------------------------------------------------------

section
variable {app app' : App} {seen : Seen} {a : Answers} {results : List ActionResult} {e : Event}
  {rsp line : Str} {slots : Slots}

/-- What the slots and the answers about them depend on. -/
structure App.SameDevice (app app' : App) : Prop where
  connected : app'.connected = app.connected
  fpBitmap : app'.fpBitmap = app.fpBitmap
  slots : app'.slots = app.slots
  tick : app'.slotPollTick = app.slotPollTick

theorem drainActions_sameDevice : app.SameDevice (app.drainActions results) := by
  unfold App.drainActions
  induction results generalizing app with
  | nil => exact ⟨rfl, rfl, rfl, rfl⟩
  | cons r results ih =>
    rw [List.foldl_cons]
    cases r with
    | message | secretMessage | done | fwFinished | other =>
      exact ⟨ih.connected, ih.fpBitmap, ih.slots, ih.tick⟩

theorem onStatus_spec : (app.onStatus rsp).connected =
      ((parseStatus rsp).map (·.connected)).getD app.connected ∧
    (app.onStatus rsp).slots = app.slots ∧
    (app.onStatus rsp).slotPollTick = app.slotPollTick := by
  unfold App.onStatus
  cases parseStatus rsp with
  | some line => exact ⟨rfl, rfl, rfl⟩
  | none => exact ⟨rfl, rfl, rfl⟩

theorem onPairStatus_sameDevice {answer : Option Str} :
    app.SameDevice (app.onPairStatus answer) := by
  cases answer with
  | some rsp => exact ⟨rfl, rfl, rfl, rfl⟩
  | none => exact ⟨rfl, rfl, rfl, rfl⟩

theorem onFpList_spec {answer : Option Str} : (app.onFpList answer).connected = app.connected ∧
    (app.onFpList answer).slots = app.slots ∧
    (app.onFpList answer).slotPollTick = app.slotPollTick ∧
    (app.connected = false → (app.onFpList answer).fpBitmap = 0) := by
  unfold App.onFpList
  split
  next hc =>
    have hfalse {p : Prop} : app.connected = false → p := fun h => nomatch hc.symm.trans h
    split
    · split
      · exact ⟨rfl, rfl, rfl, hfalse⟩
      · exact ⟨rfl, rfl, rfl, hfalse⟩
    · exact ⟨rfl, rfl, rfl, hfalse⟩
  next => exact ⟨rfl, rfl, rfl, fun _ => rfl⟩

/-- An answer that is read replaces the slots, one that is not leaves them, and
without a poll the active slot is forgotten. -/
theorem pollSlots_spec {answer : Option Str} :
    (app.pollSlots answer).connected = app.connected ∧
    (app.pollSlots answer).fpBitmap = app.fpBitmap ∧
    (app.pollSlots answer).slots =
      if app.connected = true ∧ (app.slotPollTick + 1) % slotPollEvery = 1 then
        (answer.bind readSlots).getD app.slots
      else { app.slots with active := 0 } := by
  unfold App.pollSlots
  dsimp only
  split
  next hpoll =>
    cases answer with
    | none => exact ⟨rfl, rfl, rfl⟩
    | some line =>
      simp only [Option.bind_some, readSlots]
      cases parseSlotStatusLine line with
      | none => exact ⟨rfl, rfl, rfl⟩
      | some status =>
        cases status with
        | supported bitmap active => exact ⟨rfl, rfl, rfl⟩
        | unsupported => exact ⟨rfl, rfl, rfl⟩
  next => exact ⟨rfl, rfl, rfl⟩

/-- A tick in which the status is answered. -/
theorem refresh_spec (hstatus : a.status = some rsp) :
    (app.refresh results a).connected = a.link.getD app.connected ∧
    (a.link.getD app.connected = false → (app.refresh results a).fpBitmap = 0) ∧
    (app.refresh results a).slots =
      if app.Polls a then (a.slotStatus.bind readSlots).getD app.slots
      else { app.slots with active := 0 } := by
  have hlink : a.link = (parseStatus rsp).map (·.connected) := by
    rw [Answers.link, hstatus, Option.bind_some]
  have hrefresh : app.refresh results a = ((((app.drainActions results).onStatus rsp).onPairStatus
      a.pairStatus).onFpList a.fpList).pollSlots a.slotStatus := by
    rw [App.refresh, hstatus]
  have hdrain := @drainActions_sameDevice app results
  obtain ⟨hconnected, hslots, htick⟩ := @onStatus_spec (app.drainActions results) rsp
  rw [← hlink, hdrain.connected] at hconnected
  rw [hdrain.slots] at hslots
  rw [hdrain.tick] at htick
  have hpair := @onPairStatus_sameDevice ((app.drainActions results).onStatus rsp) a.pairStatus
  rw [hrefresh]
  generalize ((app.drainActions results).onStatus rsp).onPairStatus a.pairStatus = paired at hpair
  obtain ⟨hconnected', hslots', htick', hgone⟩ := @onFpList_spec paired a.fpList
  obtain ⟨hconnected'', hfp, hpoll⟩ := @pollSlots_spec (paired.onFpList a.fpList) a.slotStatus
  have hpaired : paired.connected = a.link.getD app.connected := hpair.connected.trans hconnected
  have hlisted : (paired.onFpList a.fpList).slotPollTick = app.slotPollTick :=
    (htick'.trans hpair.tick).trans htick
  refine ⟨hconnected''.trans (hconnected'.trans hpaired), fun hoff => ?_, ?_⟩
  · exact hfp.trans (hgone (hpaired.trans hoff))
  · rw [hpoll, hconnected', hpaired, hlisted, (hslots'.trans hpair.slots).trans hslots]
    rfl

-- ---------------------------------------------------------------------------
-- What is true all along
-- ---------------------------------------------------------------------------

structure Inv (app : App) (seen : Seen) : Prop where
  off : app.dualHost = false → app.slots = ⟨false, 0, 0, none⟩
  range : app.slotActive = 0 ∨ app.slotActive = slot1 ∨ app.slotActive = slot2
  kept : seen.stayed = true → ∀ slots, seen.answer = some slots → app.slots = slots
  answered : seen.stayed = true → seen.answer.isSome
  same : ∀ slots, seen.answer = some slots → slots.dualHost = app.dualHost
  active : app.slotActive ≠ 0 → seen.stayed = true
  link : app.connected = true → app.dualHost = true → app.slotActive ≠ 0
  prints : app.fpBitmap ≠ 0 → app.dualHost = true → app.slotActive ≠ 0

theorem inv_new : Inv .new ⟨none, false⟩ where
  off _ := rfl
  range := .inl rfl
  kept h := nomatch h
  answered h := nomatch h
  same _ h := nomatch h
  active h := absurd rfl h
  link h := nomatch h
  prints h := absurd rfl h

/-- With the same slots, it is enough to look at the connection and the fingerprints. -/
theorem Inv.keep (h : Inv app seen) (hslots : app'.slots = app.slots)
    (hlink : app'.connected = true → app.dualHost = true → app.slotActive ≠ 0)
    (hprints : app'.fpBitmap ≠ 0 → app.dualHost = true → app.slotActive ≠ 0) :
    Inv app' seen := by
  have hdual : app'.dualHost = app.dualHost := congrArg Slots.dualHost hslots
  have hactive : app'.slotActive = app.slotActive := congrArg Slots.active hslots
  refine ⟨?_, ?_, ?_, h.answered, ?_, ?_, ?_, ?_⟩
  · rw [hdual, hslots]
    exact h.off
  · rw [hactive]
    exact h.range
  · rw [hslots]
    exact h.kept
  · rw [hdual]
    exact h.same
  · rw [hactive]
    exact h.active
  · rw [hdual, hactive]
    exact hlink
  · rw [hdual, hactive]
    exact hprints

theorem Inv.sameDevice (h : Inv app seen) (hs : app.SameDevice app') : Inv app' seen := by
  refine h.keep hs.slots ?_ ?_
  · rw [hs.connected]
    exact h.link
  · rw [hs.fpBitmap]
    exact h.prints

/-- An answer that is read tells of a slot if there are any. -/
theorem readSlots_spec (h : readSlots line = some slots) :
    (slots.dualHost = false → slots = ⟨false, 0, 0, none⟩) ∧
    (slots.dualHost = true → slots.active = slot1 ∨ slots.active = slot2) := by
  obtain ⟨status, hstatus, rfl⟩ := Option.map_eq_some_iff.mp h
  cases status with
  | supported bitmap active => exact ⟨nofun, fun _ => parseSlotStatusLine_active hstatus⟩
  | unsupported => exact ⟨fun _ => rfl, nofun⟩

theorem isSome_readSlots {answer : Option Str} :
    (answer.bind readSlots).isSome = (answer.bind parseSlotStatusLine).isSome := by
  cases answer with
  | none => rfl
  | some line => exact Option.isSome_map

theorem slotBit_eq {active : UInt8} (h : active = slot1 ∨ active = slot2) :
    slotBit active = .ok (1 <<< (active - 1)) := by
  obtain rfl | rfl := h
  · rfl
  · rfl

theorem actionPair_ok (hactive : app.connected = true → app.dualHost = true →
    app.slotActive = slot1 ∨ app.slotActive = slot2) : ∃ app', app.actionPair = .ok app' := by
  unfold App.actionPair
  split
  next => exact ⟨_, rfl⟩
  split
  next => exact ⟨_, rfl⟩
  split
  next => exact ⟨_, rfl⟩
  next hconnected =>
    have hc : app.connected = true := by simpa using hconnected
    cases hd : app.dualHost with
    | false => exact ⟨_, rfl⟩
    | true =>
      simp only [Checked.andThen, isSecondHost, slotBit_eq (hactive hc hd), bind, Except.bind]
      exact ⟨_, rfl⟩

/-- A pairing that begins is nothing to the device yet. -/
theorem actionPair_sameDevice (h : app.actionPair = .ok app') : app.SameDevice app' := by
  unfold App.actionPair at h
  split at h
  next =>
    obtain rfl := Except.ok.inj h
    exact ⟨rfl, rfl, rfl, rfl⟩
  split at h
  next =>
    obtain rfl := Except.ok.inj h
    exact ⟨rfl, rfl, rfl, rfl⟩
  split at h
  next =>
    obtain rfl := Except.ok.inj h
    exact ⟨rfl, rfl, rfl, rfl⟩
  next =>
    obtain ⟨second, -, h⟩ := Checked.exists_of_bind h
    obtain rfl := Except.ok.inj h
    exact ⟨rfl, rfl, rfl, rfl⟩

theorem requestUnpairSelf_sameDevice (h : app.requestUnpairSelf = .ok app') :
    app.SameDevice app' := by
  unfold App.requestUnpairSelf at h
  split at h
  next =>
    obtain rfl := Except.ok.inj h
    exact ⟨rfl, rfl, rfl, rfl⟩
  next =>
    obtain ⟨prompt, -, h⟩ := Checked.exists_of_bind h
    obtain rfl := Except.ok.inj h
    exact ⟨rfl, rfl, rfl, rfl⟩

/-- The slots of an answer that was just read. -/
theorem inv_read (hread : readSlots line = some slots) (hslots : app.slots = slots) :
    Inv app ⟨some slots, true⟩ := by
  subst hslots
  obtain ⟨hoff, hon⟩ := readSlots_spec hread
  have hactive (hd : app.dualHost = true) : app.slotActive ≠ 0 := by
    have hslot : app.slotActive = slot1 ∨ app.slotActive = slot2 := hon hd
    obtain h | h := hslot
    · rw [h]
      decide
    · rw [h]
      decide
  refine ⟨hoff, ?_, fun _ _ h => Option.some.inj h, fun _ => rfl, fun _ h => ?_, fun _ => rfl,
    fun _ => hactive, fun _ => hactive⟩
  · cases hd : app.dualHost with
    | true => exact .inr (hon hd)
    | false => exact .inl (congrArg Slots.active (hoff hd))
  · exact congrArg Slots.dualHost (Option.some.inj h).symm

/-- Told of a disconnection. -/
theorem Inv.disconnect (h : Inv app seen) (hslots : app'.slots = { app.slots with active := 0 })
    (hconnected : app'.connected = false) (hfp : app'.fpBitmap = 0) :
    Inv app' { seen with stayed := false } := by
  have hdual : app'.dualHost = app.dualHost := congrArg Slots.dualHost hslots
  have hactive : app'.slotActive = 0 := congrArg Slots.active hslots
  refine ⟨fun hd => ?_, .inl hactive, nofun, nofun, ?_, fun hne => absurd hactive hne,
    fun hc => (nomatch hconnected.symm.trans hc), fun hne => absurd hfp hne⟩
  · rw [hslots, h.off (hdual.symm.trans hd)]
  · rw [hdual]
    exact h.same

/-- A harmless tick keeps it. -/
theorem Inv.refresh (h : Inv app seen) (ha : a.Harmless app) :
    Inv (app.refresh results a) (seen.next app (.refresh results a)) := by
  cases hstatus : a.status with
  | none =>
    have hnext : seen.next app (.refresh results a) = seen := if_pos hstatus
    have hdrained : Inv (app.drainActions results) seen := h.sameDevice drainActions_sameDevice
    rw [hnext, App.refresh, hstatus]
    exact hdrained.keep rfl nofun hdrained.prints
  | some rsp =>
    obtain ⟨hconnected, hfp, hslots⟩ := @refresh_spec app a results rsp hstatus
    have hne : a.status ≠ none := fun h => nomatch hstatus.symm.trans h
    have hnext : seen.next app (.refresh results a) =
        match if app.Polls a then a.slotStatus.bind readSlots else none with
        | some slots => ⟨some slots, true⟩
        | none => { seen with stayed := seen.stayed && a.link != some false } := if_neg hne
    have hstill (hl : a.link ≠ some false) :
        { seen with stayed := seen.stayed && a.link != some false } = seen := by
      rw [bne_iff_ne.mpr hl, Bool.and_true]
    have hharmless := ha hne
    rw [hnext]
    by_cases hpoll : app.Polls a
    · have hlink : a.link ≠ some false := fun hl => by
        have hup := hpoll.1
        rw [hl] at hup
        nomatch hup
      rw [if_pos hpoll] at hslots ⊢
      cases hread : a.slotStatus.bind readSlots with
      | some slots =>
        obtain ⟨line, -, hline⟩ := Option.bind_eq_some_iff.mp hread
        rw [hread] at hslots
        exact inv_read hline hslots
      | none =>
        rw [hread] at hslots
        rw [if_pos hpoll.1] at hharmless
        have hkept (hd : app.dualHost = true) : app.slotActive ≠ 0 := by
          obtain hoff | ⟨-, hsome | hne⟩ := hharmless
          · nomatch hoff.symm.trans hd
          · rw [← isSome_readSlots, hread] at hsome
            nomatch hsome
          · exact hne
        dsimp only
        rw [hstill hlink]
        exact h.keep hslots (fun _ => hkept) fun _ => hkept
    · rw [if_neg hpoll] at hslots ⊢
      dsimp only
      by_cases hdown : a.link = some false
      · have hoff : a.link.getD app.connected = false := by rw [hdown]; rfl
        have hbne : (a.link != some false) = false := by rw [hdown]; rfl
        rw [hbne, Bool.and_false]
        exact h.disconnect hslots (hconnected.trans hoff) (hfp hoff)
      · have hsame (hzero : app.slotActive = 0) :
            (app.refresh results a).slots = app.slots := by
          rw [hslots, ← hzero]
          rfl
        rw [hstill hdown]
        cases hup : a.link.getD app.connected with
        | true =>
          rw [if_pos hup] at hharmless
          have hoff : app.dualHost = false := hharmless.resolve_right fun hp => hpoll hp.1
          have hzero : app.slotActive = 0 := congrArg Slots.active (h.off hoff)
          refine h.keep (hsame hzero) (fun _ hd => ?_) fun _ hd => ?_
          · nomatch hoff.symm.trans hd
          · nomatch hoff.symm.trans hd
        | false =>
          rw [hup, if_neg Bool.false_ne_true] at hharmless
          have hzero : app.slotActive = 0 := hharmless.resolve_left hdown
          refine h.keep (hsame hzero) (fun hc => ?_) fun hne => absurd (hfp hup) hne
          nomatch (hconnected.trans hup).symm.trans hc

/-- Any other tick shows: the slots are no longer those that were told of, or the device
is connected and nothing is known of the slot it is on. -/
theorem Inv.harmful (h : Inv app seen) (ha : ¬a.Harmless app) :
    (∃ slots, (seen.next app (.refresh results a)) = ⟨some slots, true⟩ ∧
      (app.refresh results a).slots ≠ slots) ∨
    ((app.refresh results a).connected = true ∧ (app.refresh results a).dualHost = true ∧
      (app.refresh results a).slotActive = 0) := by
  obtain ⟨hne, hharm⟩ := Classical.not_imp.mp ha
  obtain ⟨rsp, hstatus⟩ := Option.ne_none_iff_exists'.mp hne
  obtain ⟨hconnected, -, hslots⟩ := @refresh_spec app a results rsp hstatus
  split at hharm
  next hup =>
    obtain ⟨hdual, hpoll⟩ := not_or.mp hharm
    have hon : app.dualHost = true := (Bool.not_eq_false _).mp hdual
    refine .inr ⟨hconnected.trans hup, ?_⟩
    split at hslots
    next hp =>
      obtain ⟨hunread, hzero⟩ := not_or.mp (not_and.mp hpoll hp)
      rw [← isSome_readSlots, Option.not_isSome_iff_eq_none] at hunread
      rw [hunread] at hslots
      exact ⟨(congrArg Slots.dualHost hslots).trans hon,
        (congrArg Slots.active hslots).trans (not_not.mp hzero)⟩
    next => exact ⟨(congrArg Slots.dualHost hslots).trans hon, congrArg Slots.active hslots⟩
  next hdown =>
    obtain ⟨hlink, hactive⟩ := not_or.mp hharm
    have hstayed := h.active hactive
    obtain ⟨slots, hanswer⟩ := Option.isSome_iff_exists.mp (h.answered hstayed)
    have hpoll : ¬app.Polls a := fun hp => hdown hp.1
    rw [if_neg hpoll] at hslots
    refine .inl ⟨slots, ?_, fun heq => hactive ?_⟩
    · have hbne : (a.link != some false) = true := bne_iff_ne.mpr hlink
      rw [Seen.next, if_neg hne, if_neg hpoll, hstayed, hbne, hanswer]
      rfl
    · have hkept := h.kept hstayed slots hanswer
      have hsame := heq.trans hkept.symm
      rw [hslots] at hsame
      exact (congrArg Slots.active hsame).symm

theorem Run.inv (h : Run (fun app a => a.Harmless app) app seen) : Inv app seen := by
  induction h with
  | start => exact inv_new
  | @step app app' seen e _ hok hstep ih =>
    cases e with
    | refresh results a =>
      obtain rfl := Except.ok.inj hstep
      exact ih.refresh (hok results a rfl)
    | drain results =>
      obtain rfl := Except.ok.inj hstep
      exact ih.sameDevice drainActions_sameDevice
    | pair => exact ih.sameDevice (actionPair_sameDevice hstep)
    | requestUnpairSelf => exact ih.sameDevice (requestUnpairSelf_sameDevice hstep)
    | other busy message =>
      obtain rfl := Except.ok.inj hstep
      exact ih.sameDevice ⟨rfl, rfl, rfl, rfl⟩

/-- The warning, where the slots are those of the only host. -/
theorem unpairSelfPrompt_only (hdual : app.dualHost = true)
    (hactive : app.slotActive = slot1 ∨ app.slotActive = slot2)
    (honly : app.slotBitmap = 1 <<< (app.slotActive - 1)) (hfp : app.fpBitmap ≠ 0) :
    app.unpairSelfPrompt = .ok onlyHostWarning := by
  have hne : (app.slotActive != 0) = true := by
    obtain h | h := hactive
    · rw [h]
      rfl
    · rw [h]
      rfl
  have hprints : (app.fpBitmap != 0) = true := bne_iff_ne.mpr hfp
  unfold App.unpairSelfPrompt
  rw [hdual, Bool.not_true, Bool.and_false, if_neg Bool.false_ne_true, hne]
  simp only [Checked.andThen, Bool.and_self, if_true, slotBit_eq hactive, bind, Except.bind, honly,
    beq_self_eq_true, hprints]

theorem Inv.informed (h : Inv app seen) : Informed app seen := by
  have hasked (hc : app.connected = true) (hd : app.dualHost = true) :
      app.slotActive = slot1 ∨ app.slotActive = slot2 := h.range.resolve_left (h.link hc hd)
  refine ⟨h.kept, fun _ _ => hasked, actionPair_ok hasked, fun slots hslots hfp hdual honly => ?_⟩
  have hd : app.dualHost = true := (h.same slots hslots).symm.trans hdual
  have hne := h.prints hfp hd
  obtain rfl := h.kept (h.active hne) slots hslots
  exact unpairSelfPrompt_only hd (h.range.resolve_left hne) honly hfp

/-- Where all ticks are harmless, the interface is informed all along. -/
theorem informed_of_harmless (h : Run (fun app a => a.Harmless app) app seen) :
    Informed app seen := h.inv.informed

end

/-- The device is connected through the first slot, which is the only one taken, and
has a fingerprint. -/
def onlyHost : Answers :=
  { status := some "STATUS:1:immurok:80:1.6.12:0"
    pairStatus := some "OK:UNPAIRED"
    fpList := some "OK:1"
    slotStatus := some "OK:1:1:1" }

theorem informed_of_first_tick :
    ∃ app seen, app = App.new.refresh [] onlyHost ∧ app.slots = ⟨true, 1, 1, some 1⟩ ∧
      Informed app seen := by
  have hrun : Run (fun app a => a.Harmless app) (App.new.refresh [] onlyHost)
      (Seen.next ⟨none, false⟩ .new (.refresh [] onlyHost)) := by
    refine .step .start (fun results a he => ?_) rfl
    obtain ⟨-, rfl⟩ := Event.refresh.inj he
    intro _
    exact .inl rfl
  exact ⟨_, _, rfl, by decide, informed_of_harmless hrun⟩

/-- The second tick does not ask for the slots, and forgets the active one: it is not
what the device said, a pairing stops the interface, and the warning is left out. -/
theorem uninformed_by_second_tick :
    ∃ app seen, Run (fun _ _ => True) app seen ∧ ¬Informed app seen ∧
      seen = ⟨some ⟨true, 1, 1, some 1⟩, true⟩ ∧ app.slots = ⟨true, 1, 0, some 1⟩ ∧
      app.connected = true ∧ app.fpBitmap = 1 ∧ app.actionPair.toOption.isNone ∧
      app.unpairSelfPrompt.toOption = some unpairSelf ∧ unpairSelf ≠ onlyHostWarning := by
  have hfirst : Run (fun _ _ => True) (App.new.refresh [] onlyHost)
      (Seen.next ⟨none, false⟩ .new (.refresh [] onlyHost)) :=
    .step .start (fun _ _ _ => trivial) rfl
  have hsecond : Run (fun _ _ => True) ((App.new.refresh [] onlyHost).refresh [] onlyHost)
      (Seen.next (Seen.next ⟨none, false⟩ .new (.refresh [] onlyHost))
        (App.new.refresh [] onlyHost) (.refresh [] onlyHost)) :=
    .step hfirst (fun _ _ _ => trivial) rfl
  have hseen : Seen.next (Seen.next ⟨none, false⟩ .new (.refresh [] onlyHost))
      (App.new.refresh [] onlyHost) (.refresh [] onlyHost) =
        ⟨some ⟨true, 1, 1, some 1⟩, true⟩ := by decide
  have hslots : ((App.new.refresh [] onlyHost).refresh [] onlyHost).slots =
      ⟨true, 1, 0, some 1⟩ := by decide
  rw [hseen] at hsecond
  refine ⟨_, _, hsecond, fun h => ?_, rfl, hslots, ?_⟩
  · have hkept := h.kept rfl _ rfl
    rw [hslots] at hkept
    exact absurd hkept (by decide)
  · exact ⟨by decide, by decide, by decide, by decide,
      by decide⟩

end Immurok.Tui
