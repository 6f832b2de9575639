import Immurok.Client.EnrollSession
import Immurok.Daemon.Socket

/-!
# An enrollment against the daemon

One run of the driver, the daemon's answers to it and everything else that can
change what they say: the device, the radio link, and the daemon's other tasks
with their clients.
-/

namespace Immurok

-- ---------------------------------------------------------------------------
-- Daemon and device
-- ---------------------------------------------------------------------------

/-- Whose enrollment a notification is about. -/
inductive Owner
  | mine
  | other
  deriving DecidableEq

/-- A notification of progress. -/
structure Notice where
  owner : Owner
  status : UInt8
  current : UInt8
  total : UInt8

/-- What the answers to an enrollment depend on. -/
structure EnrollSys where
  /-- The slot of the run. -/
  slot : UInt8
  isConnected : Bool
  lastEnrollEvent : Option Notice
  fpBitmapStale : Bool
  /-- The bitmap in the cached status. -/
  deviceStatus : Option UInt8
  /-- Bitmaps that the device has answered with and another task holds. -/
  reported : List UInt8
  /-- Notifications on their way. -/
  notices : List Notice
  /-- The device's own bitmap. -/
  bitmap : UInt8
  /-- The daemon has begun with the run's `FP:ENROLL`. -/
  begun : Bool
  /-- The device has begun with its enrollment. -/
  started : Bool
  /-- Its enrollment has completed. -/
  completed : Bool
  /-- An `FP:LIST` of the run is underway. -/
  looking : Bool

/-- What happens without the run. -/
inductive Outside
  | accept
  | notify (owner : Owner) (status current total : UInt8)
  | complete (owner : Owner) (slot current total : UInt8)
  | delete (kept : UInt8)
  | report
  | lose (i : Nat)
  | route (i : Nat)
  | clear
  | store (i : Nat)
  | fresh
  | markStale
  | seed (i : Nat)
  | connect
  | sessionEnd

/-- An enrollment of the run is on the device only after it has accepted one. -/
def Owner.runs (s : EnrollSys) : Owner → Bool
  | .mine => s.started
  | .other => true

def Outside.apply (s : EnrollSys) : Outside → EnrollSys
  | .accept => { s with started := s.started || s.begun }
  | .notify owner status current total =>
    if owner.runs s && status != enrollComplete then
      { s with notices := s.notices ++ [{ owner, status, current, total }] }
    else s
  | .complete .mine _ current total =>
    if s.started then
      { s with
        bitmap := s.bitmap ||| 1 <<< s.slot
        completed := true
        notices := s.notices ++ [{ owner := .mine, status := enrollComplete, current, total }] }
    else s
  | .complete .other slot current total =>
    if slot < totalFingerprintSlots then
      { s with
        bitmap := s.bitmap ||| 1 <<< slot
        notices := s.notices ++ [{ owner := .other, status := enrollComplete, current, total }] }
    else s
  | .delete kept => { s with bitmap := s.bitmap &&& kept }
  | .report => { s with reported := s.reported ++ [s.bitmap] }
  | .lose i => { s with notices := s.notices.eraseIdx i }
  -- `route_notification`
  | .route i =>
    match s.notices[i]? with
    | some n =>
      { s with
        notices := s.notices.eraseIdx i
        fpBitmapStale := s.fpBitmapStale || n.status == enrollComplete
        lastEnrollEvent := some n }
    | none => s
  -- another client's `FP:ENROLL` or `FP:ENROLL_CANCEL`
  | .clear => { s with lastEnrollEvent := none }
  -- another client's `FP:LIST`
  | .store i =>
    match s.reported[i]? with
    | some b =>
      { s with reported := s.reported.eraseIdx i, deviceStatus := s.deviceStatus.map fun _ => b }
    | none => s
  | .fresh => { s with fpBitmapStale := false }
  -- another client's `FP:DELETE`
  | .markStale => { s with fpBitmapStale := true }
  -- the answer to `GET_STATUS` of a new session
  | .seed i =>
    match s.reported[i]? with
    | some b => { s with reported := s.reported.eraseIdx i, deviceStatus := some b }
    | none => s
  | .connect => { s with isConnected := true }
  | .sessionEnd => { s with isConnected := false, deviceStatus := none }

/-- A step of the whole system. -/
inductive EnrollStep
  | outside (a : Outside)
  /-- `FP:ENROLL` clears the event. -/
  | begin
  /-- `FP:STATUS` reads the event. -/
  | poll
  /-- `FP:LIST`: it is taken up, the device's answer is stored, the bitmap is read. -/
  | look
  | store (b : UInt8)
  | fresh
  | seen

def EnrollStep.apply (s : EnrollSys) : EnrollStep → EnrollSys
  | .outside a => a.apply s
  | .begin => { s with begun := true, lastEnrollEvent := none }
  | .poll => s
  | .look => { s with looking := true }
  | .store b => { s with deviceStatus := s.deviceStatus.map fun _ => b }
  | .fresh => { s with fpBitmapStale := false }
  | .seen => { s with looking := false }

-- ---------------------------------------------------------------------------
-- Runs
-- ---------------------------------------------------------------------------

/-- What happens while the run waits, and what goes wrong for it then. -/
structure EnrollTurn where
  acts : List Outside
  error : Option Str

/-- The system in the course of a run, with the turns to come, the steps so far
and the events that were reported. -/
structure EnrollWorld where
  sys : EnrollSys
  turns : List EnrollTurn
  history : List (EnrollSys × EnrollStep)
  events : List EnrollProgress

namespace EnrollWorld

def act (w : EnrollWorld) (a : EnrollStep) : EnrollWorld :=
  { w with sys := a.apply w.sys, history := w.history ++ [(w.sys, a)] }

/-- The next turn; without one nothing happens. -/
def turn (w : EnrollWorld) : Option Str × EnrollWorld :=
  match w.turns with
  | [] => (none, w)
  | t :: turns => (t.error, (t.acts.map .outside).foldl act { w with turns })

def others (w : EnrollWorld) : EnrollWorld := w.turn.2

end EnrollWorld

/-- The answer of `handle_fp_status`. -/
def fpStatusAnswer (event : Option (UInt8 × UInt8 × UInt8)) : Response :=
  match event with
  | some (status, current, total) =>
    .ok (Str.ofNat status.toNat ++ ":".toList ++ Str.ofNat current.toNat ++ ":".toList ++
      Str.ofNat total.toNat)
  | none => .ok "IDLE"

/-- The daemon's handler reads the event and answers so. -/
theorem handleFpStatus_eq :
    handleFpStatus = load (·.lastEnrollEvent) >>= fun event => pure (fpStatusAnswer event) := by
  unfold handleFpStatus
  congr 1
  funext event
  cases event <;> rfl

section
variable (w : EnrollWorld)

/-- `handle_fp_enroll`; what the gate comes to is the turn's. -/
def answerFpEnroll (slot : UInt8) : Response × EnrollWorld :=
  if switchFingerSlot < slot then (.error "INVALID_SLOT", w)
  else
    let w := w.others
    if !w.sys.isConnected then (.error "NOT_CONNECTED", w)
    else
      match (w.others.act .begin).turn with
      | (none, w) => (.ok "ENROLL_STARTED", w)
      | (some e, w) => (.error ("ENROLL_FAILED:".toList ++ e), w)

def answerFpStatus : Response × EnrollWorld :=
  let w := w.act .poll
  (fpStatusAnswer (w.sys.lastEnrollEvent.map fun n => (n.status, n.current, n.total)), w)

/-- The bitmap asked of the device; an error is that of the command or of its status. -/
def refreshFpBitmap : EnrollWorld :=
  match w.turn with
  | (some _, w) => w
  | (none, w) => (w.others.act (.store w.sys.bitmap)).others.act .fresh

/-- `handle_fp_list`. -/
def answerFpList : Response × EnrollWorld :=
  let w := w.others
  if !w.sys.isConnected then (.error "NOT_CONNECTED", w)
  else
    let w := w.others
    let haveCache := w.sys.deviceStatus.isSome
    let w := w.others
    let w := if w.sys.fpBitmapStale || !haveCache then refreshFpBitmap w else w
    let w := w.others
    match w.sys.deviceStatus with
    | some b => (.ok (Str.ofNat b.toNat), w)
    | none => (.error "NO_STATUS", w)

/-- `DaemonClient::send`: the line of a response, trimmed. -/
def sentLine (r : Response) : Str := Str.trim (serializeResponse r ++ ['\n'])

/-- `enroll_start`; the connection may fail before the request and before the answer. -/
def enrollStart (slot : UInt8) : Except Str Unit × EnrollWorld :=
  match w.turn with
  | (some e, w) => (.error e, w)
  | (none, w) =>
    let (r, w) := answerFpEnroll w slot
    match w.turn with
    | (some e, w) => (.error e, w)
    | (none, w) =>
      if sentLine r = "OK:ENROLL_STARTED".toList then (.ok (), w) else (.error (sentLine r), w)

/-- `fp_status`. -/
def fpStatus : Except Str EnrollStatus × EnrollWorld :=
  match w.turn with
  | (some e, w) => (.error e, w)
  | (none, w) =>
    let (r, w) := answerFpStatus w
    match parseFpStatus (sentLine r) with
    | some s => (.ok s, w)
    | none => (.error ("unexpected FP:STATUS reply: ".toList ++ sentLine r), w)

/-- `fp_list`. -/
def fpList : Except Str FpSlots × EnrollWorld :=
  match w.turn with
  | (some e, w) => (.error e, w)
  | (none, w) =>
    let (r, w) := answerFpList (w.act .look)
    let w := w.act .seen
    match parseFpList (sentLine r) with
    | some b => (.ok b, w)
    | none => (.error (sentLine r), w)

end

/-- A run's calls; whether it is to stop is a turn's error. -/
def enrollEnv : EnrollEnv EnrollWorld where
  poll := fpStatus
  bitmap := fpList
  stop w := (w.turn.1.isSome, w.turn.2)
  tick ev w :=
    let (e, w) := { w with events := w.events ++ [ev] }.turn
    (if e.isSome then .stop else .go, w)
  enrollStart slot w := enrollStart w slot
  enrollCancel w := (w.others.act (.outside .clear)).others

-- ---------------------------------------------------------------------------
-- What is true all along
-- ---------------------------------------------------------------------------

namespace EnrollSys

/-- A bitmap without the slot of the run. -/
def Lacks (s : EnrollSys) (b : UInt8) : Prop := (FpSlots.mk b).isEnrolled s.slot = false

/-- The slot is free on the device and in every bitmap that still counts. -/
def SlotFree (s : EnrollSys) : Prop :=
  s.Lacks s.bitmap ∧ (∀ b ∈ s.deviceStatus, s.Lacks b) ∧ ∀ b ∈ s.reported, s.Lacks b

/-- The run's enrollment has completed if the notification says so. -/
def Tells (s : EnrollSys) (n : Notice) : Prop :=
  n.owner = .mine → n.status = enrollComplete → s.completed = true

structure Sound (s : EnrollSys) : Prop where
  event : ∀ n ∈ s.lastEnrollEvent, s.Tells n
  notices : ∀ n ∈ s.notices, s.Tells n
  looking : s.looking = true → s.completed = true ∨ s.SlotFree

end EnrollSys

/-- The steps that do not mislead the run: when it polls, the daemon's one event is
not the completion of another enrollment, and when it looks at the bitmap, the slot
is free and not filled by another enrollment, unless its own has completed. -/
def Careful (s : EnrollSys) : EnrollStep → Prop
  | .poll => ∀ n ∈ s.lastEnrollEvent, n.status = enrollComplete → n.owner = .mine
  | .look => s.completed = true ∨ s.SlotFree
  | .outside (.complete .other slot _ _) =>
    s.looking = true → s.completed = true ∨ slot ≠ s.slot
  | _ => True

instance {s : EnrollSys} {b : UInt8} : Decidable (s.Lacks b) :=
  inferInstanceAs (Decidable (_ = false))

instance {s : EnrollSys} : Decidable s.SlotFree :=
  inferInstanceAs (Decidable (s.Lacks s.bitmap ∧ (∀ b ∈ s.deviceStatus, s.Lacks b) ∧
    ∀ b ∈ s.reported, s.Lacks b))

instance {s : EnrollSys} {a : EnrollStep} : Decidable (Careful s a) :=
  match a with
  | .poll => inferInstanceAs
      (Decidable (∀ n ∈ s.lastEnrollEvent, n.status = enrollComplete → n.owner = .mine))
  | .look => inferInstanceAs (Decidable (s.completed = true ∨ s.SlotFree))
  | .outside (.complete .other slot _ _) => inferInstanceAs
      (Decidable (s.looking = true → s.completed = true ∨ slot ≠ s.slot))
  | .outside (.complete .mine _ _ _) | .outside .accept | .outside (.notify ..)
  | .outside (.delete _) | .outside .report | .outside (.lose _) | .outside (.route _)
  | .outside .clear | .outside (.store _) | .outside .fresh | .outside .markStale
  | .outside (.seed _) | .outside .connect | .outside .sessionEnd | .begin | .store _ | .fresh
  | .seen => isTrue trivial

section
variable {s s' : EnrollSys} {a : Outside} {b c slot : UInt8} {n : Notice}

theorem isEnrolled_false : (FpSlots.mk b).isEnrolled slot = false ↔
    (slot < totalFingerprintSlots → b &&& 1 <<< slot = 0) := by
  rw [FpSlots.isEnrolled, Bool.and_eq_false_imp, decide_eq_true_eq]
  exact forall_congr' fun _ => bne_eq_false_iff_eq

theorem shift_and_shift {i j : UInt8} (hi : i < totalFingerprintSlots)
    (hj : j < totalFingerprintSlots) (hne : i ≠ j) : (1 <<< i : UInt8) &&& 1 <<< j = 0 := by
  have all : ∀ i j : Fin 6, i ≠ j →
      (1 <<< UInt8.ofNat i.val : UInt8) &&& 1 <<< UInt8.ofNat j.val = 0 := by decide
  have h := all ⟨i.toNat, hi⟩ ⟨j.toNat, hj⟩ fun h => hne (UInt8.toNat_inj.mp (Fin.mk.inj h))
  rwa [UInt8.ofNat_toNat, UInt8.ofNat_toNat] at h

/-- Another slot filled leaves the run's free. -/
theorem lacks_or (hslot : slot < totalFingerprintSlots) (hne : slot ≠ s.slot) (h : s.Lacks b) :
    s.Lacks (b ||| 1 <<< slot) := by
  refine isEnrolled_false.mpr fun hs => ?_
  have hb := isEnrolled_false.mp h hs
  have hor : (b ||| 1 <<< slot) &&& 1 <<< s.slot =
      (b &&& 1 <<< s.slot) ||| (1 <<< slot &&& 1 <<< s.slot) :=
    UInt8.toBitVec_inj.mp BitVec.and_or_distrib_right
  rw [hor, hb, shift_and_shift hslot hs hne]
  rfl

theorem lacks_and (h : s.Lacks b) : s.Lacks (b &&& c) := by
  refine isEnrolled_false.mpr fun hs => ?_
  rw [UInt8.and_assoc, UInt8.and_comm c, ← UInt8.and_assoc, isEnrolled_false.mp h hs,
    UInt8.zero_and]

theorem apply_sound (h : s.Sound) (hc : Careful s (.outside a)) : (a.apply s).Sound := by
  cases a with
  | accept => exact ⟨h.event, h.notices, h.looking⟩
  | notify owner status current total =>
    rw [Outside.apply]
    split
    next hn =>
      refine ⟨h.event, fun n hm => ?_, h.looking⟩
      obtain hm | hm := List.mem_append.mp hm
      · exact h.notices n hm
      · obtain rfl := List.mem_singleton.mp hm
        intro _ hcomplete
        rw [Bool.and_eq_true, bne_iff_ne] at hn
        exact absurd hcomplete hn.2
    next => exact h
  | complete owner slot current total =>
    cases owner with
    | mine =>
      rw [Outside.apply]
      split
      · exact ⟨fun _ _ _ _ => rfl, fun _ _ _ _ => rfl, fun _ => .inl rfl⟩
      · exact h
    | other =>
      rw [Outside.apply]
      split
      next hslot =>
        refine ⟨h.event, fun n hm => ?_, fun hl => ?_⟩
        · obtain hm | hm := List.mem_append.mp hm
          · exact h.notices n hm
          · obtain rfl := List.mem_singleton.mp hm
            exact fun howner => nomatch howner
        · obtain hdone | ⟨hbitmap, hrest⟩ := h.looking hl
          · exact .inl hdone
          · exact (hc hl).imp_right fun hne => ⟨lacks_or hslot hne hbitmap, hrest⟩
      next => exact h
  | delete kept =>
    refine ⟨h.event, h.notices, fun hl => (h.looking hl).imp_right ?_⟩
    exact fun ⟨hbitmap, hrest⟩ => ⟨lacks_and hbitmap, hrest⟩
  | report =>
    refine ⟨h.event, h.notices, fun hl => (h.looking hl).imp_right ?_⟩
    rintro ⟨hbitmap, hcached, hreported⟩
    refine ⟨hbitmap, hcached, fun b hb => ?_⟩
    obtain hb | hb := List.mem_append.mp hb
    · exact hreported b hb
    · exact List.mem_singleton.mp hb ▸ hbitmap
  | lose i => exact ⟨h.event, fun n hn => h.notices n (List.mem_of_mem_eraseIdx hn), h.looking⟩
  | route i =>
    rw [Outside.apply]
    split
    next n hn =>
      refine ⟨?_, fun n hn => h.notices n (List.mem_of_mem_eraseIdx hn), h.looking⟩
      rintro n' ⟨⟩
      exact h.notices n (List.mem_of_getElem? hn)
    next => exact h
  | clear => exact ⟨(fun _ hn => nomatch hn), h.notices, h.looking⟩
  | store i =>
    rw [Outside.apply]
    split
    next b hb =>
      refine ⟨h.event, h.notices, fun hl => (h.looking hl).imp_right ?_⟩
      rintro ⟨hbitmap, -, hreported⟩
      refine ⟨hbitmap, fun b' hb' => ?_, fun b hb => hreported b (List.mem_of_mem_eraseIdx hb)⟩
      obtain ⟨_, -, rfl⟩ := Option.map_eq_some_iff.mp hb'
      exact hreported _ (List.mem_of_getElem? hb)
    next => exact h
  | fresh => exact ⟨h.event, h.notices, h.looking⟩
  | markStale => exact ⟨h.event, h.notices, h.looking⟩
  | seed i =>
    rw [Outside.apply]
    split
    next b hb =>
      refine ⟨h.event, h.notices, fun hl => (h.looking hl).imp_right ?_⟩
      rintro ⟨hbitmap, -, hreported⟩
      refine ⟨hbitmap, fun b' hb' => ?_, fun b hb => hreported b (List.mem_of_mem_eraseIdx hb)⟩
      obtain rfl := Option.some.inj hb'
      exact hreported _ (List.mem_of_getElem? hb)
    next => exact h
  | connect => exact ⟨h.event, h.notices, h.looking⟩
  | sessionEnd =>
    refine ⟨h.event, h.notices, fun hl => (h.looking hl).imp_right ?_⟩
    exact fun ⟨hbitmap, _, hreported⟩ => ⟨hbitmap, (fun _ hb => nomatch hb), hreported⟩

/-- The run's slot stays its slot, and what has completed stays completed. -/
theorem apply_grows : (a.apply s).slot = s.slot ∧ (a.apply s).looking = s.looking ∧
    (s.completed = true → (a.apply s).completed = true) := by
  have hsame {s' : EnrollSys} (hslot : s'.slot = s.slot) (hlooking : s'.looking = s.looking)
      (hcompleted : s'.completed = s.completed) : s'.slot = s.slot ∧ s'.looking = s.looking ∧
      (s.completed = true → s'.completed = true) := ⟨hslot, hlooking, fun h => hcompleted ▸ h⟩
  cases a with
  | complete owner slot current total =>
    cases owner with
    | mine =>
      rw [Outside.apply]
      split
      · exact ⟨rfl, rfl, fun _ => rfl⟩
      · exact hsame rfl rfl rfl
    | other =>
      rw [Outside.apply]
      split <;> exact hsame rfl rfl rfl
  | notify owner status current total =>
    rw [Outside.apply]
    split <;> exact hsame rfl rfl rfl
  | route i =>
    rw [Outside.apply]
    split <;> exact hsame rfl rfl rfl
  | store i =>
    rw [Outside.apply]
    split <;> exact hsame rfl rfl rfl
  | seed i =>
    rw [Outside.apply]
    split <;> exact hsame rfl rfl rfl
  | _ => exact hsame rfl rfl rfl

end

-- ---------------------------------------------------------------------------
-- The course of a run
-- ---------------------------------------------------------------------------

namespace EnrollWorld

/-- Every step so far meets the condition. -/
def AllCareful (w : EnrollWorld) : Prop := ∀ p ∈ w.history, Careful p.1 p.2

/-- What a part of a run leaves behind it. -/
structure Goes (w w' : EnrollWorld) : Prop where
  careful : w'.AllCareful → w.AllCareful
  slot : w'.sys.slot = w.sys.slot
  completed : w.sys.completed = true → w'.sys.completed = true
  events : w'.events = w.events

/-- In a careful run the system is sound; `looking` is whether an `FP:LIST` is underway. -/
def Upto (looking : Bool) (w : EnrollWorld) : Prop :=
  w.AllCareful → w.sys.Sound ∧ w.sys.looking = looking

section
variable {w w' w'' : EnrollWorld} {a : EnrollStep} {acts : List Outside} {looking : Bool} {b : UInt8}

theorem Goes.refl : w.Goes w := ⟨id, rfl, id, rfl⟩

theorem Goes.trans (h : w.Goes w') (h' : w'.Goes w'') : w.Goes w'' :=
  ⟨h.careful ∘ h'.careful, h'.slot.trans h.slot, h'.completed ∘ h.completed,
    h'.events.trans h.events⟩

theorem careful_act : (w.act a).AllCareful ↔ w.AllCareful ∧ Careful w.sys a := by
  unfold AllCareful act
  simp only [List.mem_append, List.mem_singleton]
  constructor
  · exact fun h => ⟨fun p hp => h p (.inl hp), h _ (.inr rfl)⟩
  · rintro ⟨h, ha⟩ p (hp | rfl)
    · exact h p hp
    · exact ha

theorem act_goes : w.Goes (w.act a) := by
  refine ⟨fun h => (careful_act.mp h).1, ?_, ?_, rfl⟩
  · cases a with
    | outside a => exact apply_grows.1
    | _ => rfl
  · cases a with
    | outside a => exact apply_grows.2.2
    | _ => exact id

theorem Upto.outside {a : Outside} (h : w.Upto looking) : (w.act (.outside a)).Upto looking := by
  intro hc
  obtain ⟨hw, ha⟩ := careful_act.mp hc
  obtain ⟨hsound, hlooking⟩ := h hw
  exact ⟨apply_sound hsound ha, apply_grows.2.1.trans hlooking⟩

theorem Upto.begin (h : w.Upto looking) : (w.act .begin).Upto looking := by
  intro hc
  obtain ⟨hsound, hlooking⟩ := h (careful_act.mp hc).1
  exact ⟨⟨(fun _ hn => nomatch hn), hsound.notices, hsound.looking⟩, hlooking⟩

theorem Upto.poll (h : w.Upto looking) : (w.act .poll).Upto looking :=
  fun hc => h (careful_act.mp hc).1

theorem Upto.look (h : w.Upto looking) : (w.act .look).Upto true := by
  intro hc
  obtain ⟨hw, ha⟩ := careful_act.mp hc
  obtain ⟨hsound, -⟩ := h hw
  exact ⟨⟨hsound.event, hsound.notices, fun _ => ha⟩, rfl⟩

theorem Upto.store (h : w.Upto looking)
    (hb : w.AllCareful → w.sys.completed = true ∨ w.sys.Lacks b) :
    (w.act (.store b)).Upto looking := by
  intro hc
  obtain ⟨hw, -⟩ := careful_act.mp hc
  obtain ⟨hsound, hlooking⟩ := h hw
  refine ⟨⟨hsound.event, hsound.notices, fun hl => ?_⟩, hlooking⟩
  obtain hdone | hlacks := hb hw
  · exact .inl hdone
  · refine (hsound.looking hl).imp_right ?_
    rintro ⟨hbitmap, -, hreported⟩
    refine ⟨hbitmap, fun b' hb' => ?_, hreported⟩
    obtain ⟨_, -, rfl⟩ := Option.map_eq_some_iff.mp hb'
    exact hlacks

theorem Upto.fresh (h : w.Upto looking) : (w.act .fresh).Upto looking := by
  intro hc
  obtain ⟨hsound, hlooking⟩ := h (careful_act.mp hc).1
  exact ⟨⟨hsound.event, hsound.notices, hsound.looking⟩, hlooking⟩

theorem Upto.seen (h : w.Upto looking) : (w.act .seen).Upto false := by
  intro hc
  obtain ⟨hsound, -⟩ := h (careful_act.mp hc).1
  exact ⟨⟨hsound.event, hsound.notices, fun hl => nomatch hl⟩, rfl⟩

theorem foldl_act_goes : w.Goes ((acts.map EnrollStep.outside).foldl act w) := by
  induction acts generalizing w with
  | nil => exact .refl
  | cons a acts ih => exact act_goes.trans ih

theorem Upto.foldl_act (h : w.Upto looking) :
    ((acts.map EnrollStep.outside).foldl act w).Upto looking := by
  induction acts generalizing w with
  | nil => exact h
  | cons a acts ih => exact ih h.outside

theorem turn_goes : w.Goes w.turn.2 := by
  unfold turn
  split
  · exact .refl
  next t turns _ =>
    have hgoes : Goes { w with turns } ((t.acts.map EnrollStep.outside).foldl act _) :=
      foldl_act_goes
    exact ⟨hgoes.careful, hgoes.slot, hgoes.completed, hgoes.events⟩

theorem Upto.turn (h : w.Upto looking) : w.turn.2.Upto looking := by
  unfold EnrollWorld.turn
  split
  · exact h
  next t turns _ =>
    have hturns : Upto looking { w with turns } := h
    exact hturns.foldl_act

theorem others_goes : w.Goes w.others := turn_goes

theorem Upto.others (h : w.Upto looking) : w.others.Upto looking := h.turn

end

-- ---------------------------------------------------------------------------
-- The daemon's answers
-- ---------------------------------------------------------------------------

section
variable {w : EnrollWorld} {slot : UInt8} {looking : Bool}

theorem answerFpEnroll_keeps (h : w.Upto looking) :
    w.Goes (answerFpEnroll w slot).2 ∧ (answerFpEnroll w slot).2.Upto looking := by
  unfold answerFpEnroll
  split
  · exact ⟨.refl, h⟩
  · dsimp only
    split
    · exact ⟨others_goes, h.others⟩
    · have hgoes := ((others_goes (w := w)).trans others_goes).trans (act_goes (a := .begin))
      have hupto := h.others.others.begin
      split
      next heq =>
        have hturn := turn_goes (w := w.others.others.act .begin)
        have hturn' := hupto.turn
        rw [heq] at hturn hturn'
        exact ⟨hgoes.trans hturn, hturn'⟩
      next heq =>
        have hturn := turn_goes (w := w.others.others.act .begin)
        have hturn' := hupto.turn
        rw [heq] at hturn hturn'
        exact ⟨hgoes.trans hturn, hturn'⟩

/-- In a look, a bitmap that has the slot is one of a completed enrollment. -/
theorem Upto.lacks (h : w.Upto true) (hc : w.AllCareful) :
    w.sys.completed = true ∨ w.sys.SlotFree :=
  (h hc).1.looking (h hc).2

theorem refreshFpBitmap_keeps (h : w.Upto true) :
    w.Goes (refreshFpBitmap w) ∧ (refreshFpBitmap w).Upto true := by
  unfold refreshFpBitmap
  have hgoes := turn_goes (w := w)
  have hupto := h.turn
  split
  next heq =>
    rw [heq] at hgoes hupto
    exact ⟨hgoes, hupto⟩
  next w' heq =>
    rw [heq] at hgoes hupto
    have hstore : (w'.others.act (.store w'.sys.bitmap)).Upto true := by
      refine hupto.others.store fun hc => ?_
      have hothers := others_goes (w := w')
      refine (Upto.lacks hupto (hothers.careful hc)).imp hothers.completed fun hfree => ?_
      unfold EnrollSys.Lacks
      rw [hothers.slot]
      exact hfree.1
    exact ⟨hgoes.trans (others_goes.trans (act_goes.trans (others_goes.trans act_goes))),
      hstore.others.fresh⟩

theorem refreshed_keeps {p : Prop} [Decidable p] (h : w.Upto true) :
    w.Goes (if p then refreshFpBitmap w else w) ∧ (if p then refreshFpBitmap w else w).Upto true := by
  split
  · exact refreshFpBitmap_keeps h
  · exact ⟨.refl, h⟩

theorem bitmap_inj {b c : UInt8} (h : Str.ofNat b.toNat = Str.ofNat c.toNat) : b = c := by
  have hb := Str.parseU8_ofNat (n := b)
  rw [h, Str.parseU8_ofNat] at hb
  exact (Except.ok.inj hb).symm

/-- The bitmap of the answer has the slot only if the run's enrollment has completed. -/
theorem answerFpList_keeps (h : w.Upto true) :
    w.Goes (answerFpList w).2 ∧ (answerFpList w).2.Upto true ∧
    ∀ b, (answerFpList w).1 = .ok (Str.ofNat b.toNat) → (answerFpList w).2.AllCareful →
      (FpSlots.mk b).isEnrolled w.sys.slot = true → (answerFpList w).2.sys.completed = true := by
  unfold answerFpList
  dsimp only
  split
  · exact ⟨others_goes, h.others, fun b hb => nomatch hb⟩
  · have hmid := refreshed_keeps (h.others.others.others)
      (p := (w.others.others.others.sys.fpBitmapStale || !w.others.others.sys.deviceStatus.isSome)
        = true)
    have hgoes := others_goes.trans (others_goes.trans (others_goes.trans (hmid.1.trans others_goes)))
    have hupto := hmid.2.others
    split
    next b hb =>
      refine ⟨hgoes, hupto, fun b' hb' hc henrolled => ?_⟩
      obtain rfl := bitmap_inj (Response.ok.inj hb')
      obtain hdone | hfree := Upto.lacks hupto hc
      · exact hdone
      · have hlacks := hfree.2.1 b hb
        unfold EnrollSys.Lacks at hlacks
        rw [hgoes.slot, henrolled] at hlacks
        nomatch hlacks
    next => exact ⟨hgoes, hupto, fun b hb => nomatch hb⟩

end

-- ---------------------------------------------------------------------------
-- The client's calls
-- ---------------------------------------------------------------------------

section
variable {w : EnrollWorld} {slot : UInt8} {looking : Bool} {t : Str} {b : UInt8}

theorem trim_sent (h : ∀ c ∈ t, Str.isWhitespace c = false) :
    Str.trim ("OK:".toList ++ t) = "OK:".toList ++ t := by
  refine Str.trim_eq_self fun c hc => ?_
  obtain hc | hc := List.mem_append.mp hc
  · have all : ∀ c ∈ "OK:".toList, Str.isWhitespace c = false := by decide
    exact all c hc
  · exact h c hc

/-- What comes through of an answer. -/
theorem sentLine_ok (h : ∀ c ∈ t, Str.isWhitespace c = false) :
    sentLine (.ok t) = "OK:".toList ++ t := by
  have htrim : sentLine (.ok t) = Str.trim ("OK:".toList ++ t) :=
    Str.trimMatches_concat (by decide)
  rw [htrim, trim_sent h]

theorem parseFpList_sent : parseFpList (sentLine (.ok (Str.ofNat b.toNat))) = some ⟨b⟩ := by
  have hdigits : ∀ c ∈ Str.ofNat b.toNat, Str.isWhitespace c = false :=
    fun c hc => (Str.isDigit_spec (Str.isDigit_of_mem_ofNat hc)).1
  rw [sentLine_ok hdigits, parseFpList, trim_sent hdigits, Str.stripPrefix_append]
  simp [Str.parseU8_ofNat, Except.toOption]

theorem parseFpStatus_sent {event : Option (UInt8 × UInt8 × UInt8)} :
    parseFpStatus (sentLine (fpStatusAnswer event)) =
      some (event.elim .idle fun (status, current, total) => .ofCode status current total) := by
  cases event with
  | none => decide
  | some event =>
    obtain ⟨status, current, total⟩ := event
    have hdigits {n : UInt8} {c : Char} (hc : c ∈ Str.ofNat n.toNat) :
        Str.isWhitespace c = false ∧ c ≠ ':' :=
      (Str.isDigit_spec (Str.isDigit_of_mem_ofNat hc)).imp_right And.left
    have hcolon {n : UInt8} : ':' ∉ Str.ofNat n.toNat := fun hc => (hdigits hc).2 rfl
    have hwhite : ∀ c ∈ Str.ofNat status.toNat ++ ":".toList ++ Str.ofNat current.toNat ++
        ":".toList ++ Str.ofNat total.toNat, Str.isWhitespace c = false := by
      intro c hc
      have hsep : ∀ c ∈ ":".toList, Str.isWhitespace c = false := by decide
      simp only [List.mem_append] at hc
      obtain (((hc | hc) | hc) | hc) | hc := hc
      · exact (hdigits hc).1
      · exact hsep c hc
      · exact (hdigits hc).1
      · exact hsep c hc
      · exact (hdigits hc).1
    have hparts : ("OK:".toList ++ (Str.ofNat status.toNat ++ ":".toList ++
        Str.ofNat current.toNat ++ ":".toList ++ Str.ofNat total.toNat)).splitOn ':' =
        ["OK".toList, Str.ofNat status.toNat, Str.ofNat current.toNat, Str.ofNat total.toNat] := by
      have hjoin : "OK:".toList ++ (Str.ofNat status.toNat ++ ":".toList ++
          Str.ofNat current.toNat ++ ":".toList ++ Str.ofNat total.toNat) =
          [':'].intercalate ["OK".toList, Str.ofNat status.toNat, Str.ofNat current.toNat,
            Str.ofNat total.toNat] := by
        simp [List.intercalate]
      rw [hjoin, List.splitOn_intercalate _ ?_ (List.cons_ne_nil _ _)]
      simpa using ⟨hcolon, hcolon, hcolon⟩
    have hidle : Str.ofNat status.toNat ≠ "IDLE".toList := by
      intro he
      have hread := Str.parseU8_ofNat (n := status)
      rw [he] at hread
      nomatch hread
    rw [fpStatusAnswer, sentLine_ok hwhite, parseFpStatus, trim_sent hwhite, hparts]
    simp only [List.head?_cons, ne_eq, not_true_eq_false, if_false, List.getElem?_cons_succ,
      List.getElem?_cons_zero, Option.bind_eq_bind, Option.bind_some, if_neg hidle,
      Str.parseU8_ofNat, Except.toOption, Option.getD_some, Option.elim_some]

theorem answerFpList_form : (∃ b : UInt8, (answerFpList w).1 = .ok (Str.ofNat b.toNat)) ∨
    (answerFpList w).1 = .error "NOT_CONNECTED" ∨ (answerFpList w).1 = .error "NO_STATUS" := by
  unfold answerFpList
  dsimp only
  split
  · exact .inr (.inl rfl)
  · split
    next b _ => exact .inl ⟨b, rfl⟩
    next => exact .inr (.inr rfl)

/-- The bitmap that is read is the one that was sent. -/
theorem answerFpList_read {b : FpSlots} (h : parseFpList (sentLine (answerFpList w).1) = some b) :
    (answerFpList w).1 = .ok (Str.ofNat b.bitmap.toNat) := by
  obtain ⟨b', heq⟩ | heq | heq := answerFpList_form (w := w)
  · rw [heq, parseFpList_sent] at h
    obtain rfl := Option.some.inj h
    exact heq
  · have hnone : parseFpList (sentLine (.error "NOT_CONNECTED")) = none := by decide
    rw [heq, hnone] at h
    nomatch h
  · have hnone : parseFpList (sentLine (.error "NO_STATUS")) = none := by decide
    rw [heq, hnone] at h
    nomatch h

theorem ofCode_complete {status current total : UInt8}
    (h : EnrollStatus.ofCode status current total = .complete) : status = enrollComplete := by
  unfold EnrollStatus.ofCode at h
  split_ifs at h with _ _ _ _ _ hcomplete
  exact hcomplete

theorem fpStatus_keeps (h : w.Upto false) :
    w.Goes (fpStatus w).2 ∧ (fpStatus w).2.Upto false ∧
    ((fpStatus w).1 = .ok .complete → (fpStatus w).2.AllCareful →
      (fpStatus w).2.sys.completed = true) := by
  unfold fpStatus
  have hgoes := turn_goes (w := w)
  have hupto := h.turn
  split
  next heq =>
    rw [heq] at hgoes hupto
    exact ⟨hgoes, hupto, fun h => nomatch h⟩
  next w' heq =>
    rw [heq] at hgoes hupto
    simp only [answerFpStatus, parseFpStatus_sent]
    refine ⟨hgoes.trans act_goes, hupto.poll, fun hstatus hc => ?_⟩
    obtain ⟨hw, hown⟩ := careful_act.mp hc
    change Except.ok _ = _ at hstatus
    replace hstatus := Except.ok.inj hstatus
    change (w'.sys.lastEnrollEvent.map _).elim _ _ = _ at hstatus
    cases hev : w'.sys.lastEnrollEvent with
    | none =>
      rw [hev] at hstatus
      nomatch hstatus
    | some n =>
      rw [hev] at hstatus
      have hcomplete := ofCode_complete hstatus
      exact (hupto hw).1.event n hev (hown n hev hcomplete) hcomplete

theorem fpList_keeps (h : w.Upto false) :
    w.Goes (fpList w).2 ∧ (fpList w).2.Upto false ∧
    ∀ b, (fpList w).1 = .ok b → (fpList w).2.AllCareful →
      b.isEnrolled w.sys.slot = true → (fpList w).2.sys.completed = true := by
  unfold fpList
  have hgoes := turn_goes (w := w)
  have hupto := h.turn
  split
  next heq =>
    rw [heq] at hgoes hupto
    exact ⟨hgoes, hupto, fun b hb => nomatch hb⟩
  next w' heq =>
    rw [heq] at hgoes hupto
    obtain ⟨hlist, hafter, hslot⟩ := answerFpList_keeps hupto.look
    have hseen := act_goes (w := (answerFpList (w'.act .look)).2) (a := .seen)
    have hall := hgoes.trans (act_goes.trans (hlist.trans hseen))
    dsimp only
    split
    next b hb =>
      refine ⟨hall, hafter.seen, ?_⟩
      rintro b' ⟨⟩ hc henrolled
      refine hseen.completed (hslot b.bitmap (answerFpList_read hb) (hseen.careful hc) ?_)
      show b.isEnrolled w'.sys.slot = true
      rwa [hgoes.slot]
    next => exact ⟨hall, hafter.seen, fun b hb => nomatch hb⟩

theorem enrollStart_keeps (h : w.Upto false) :
    w.Goes (enrollStart w slot).2 ∧ (enrollStart w slot).2.Upto false := by
  unfold enrollStart
  have hgoes := turn_goes (w := w)
  have hupto := h.turn
  split
  next heq =>
    rw [heq] at hgoes hupto
    exact ⟨hgoes, hupto⟩
  next w' heq =>
    rw [heq] at hgoes hupto
    obtain ⟨hanswer, hafter⟩ :
        w'.Goes (answerFpEnroll w' slot).2 ∧ (answerFpEnroll w' slot).2.Upto false :=
      answerFpEnroll_keeps hupto
    have hturn := turn_goes (w := (answerFpEnroll w' slot).2)
    have hturn' := hafter.turn
    dsimp only
    split
    next heq' =>
      rw [heq'] at hturn hturn'
      exact ⟨hgoes.trans (hanswer.trans hturn), hturn'⟩
    next heq' =>
      rw [heq'] at hturn hturn'
      split
      · exact ⟨hgoes.trans (hanswer.trans hturn), hturn'⟩
      · exact ⟨hgoes.trans (hanswer.trans hturn), hturn'⟩

/-- What holds of a run that has not reported the end. -/
structure Running (slot : UInt8) (w : EnrollWorld) : Prop where
  slot : w.sys.slot = slot
  upto : w.Upto false
  events : .complete ∉ w.events

theorem Running.goes {w' : EnrollWorld} (h : w.Running slot) (hgoes : w.Goes w')
    (hupto : w'.Upto false) : w'.Running slot :=
  ⟨hgoes.slot.trans h.slot, hupto, hgoes.events ▸ h.events⟩

/-- What is claimed of a careful one. -/
def Done (w : EnrollWorld) : Prop := w.AllCareful → w.sys.completed = true

theorem Done.goes {w' : EnrollWorld} (h : w.Done) (hgoes : w.Goes w') : w'.Done :=
  fun hc => hgoes.completed (h (hgoes.careful hc))

theorem enrollEnv_keeps :
    enrollEnv.toDriveEnv.Keeps slot (Running slot) Done Done where
  poll w hw := by
    obtain ⟨hgoes, hupto, hdone⟩ := fpStatus_keeps hw.upto
    exact ⟨hw.goes hgoes hupto, hdone⟩
  bitmap w hw := by
    obtain ⟨hgoes, hupto, hdone⟩ := fpList_keeps hw.upto
    exact ⟨hw.goes hgoes hupto, fun b hb henrolled hc => hdone b hb hc (hw.slot ▸ henrolled)⟩
  stop w hw := hw.goes turn_goes hw.upto.turn
  tick ev w hev hw := by
    have hnoted : Running slot { w with events := w.events ++ [ev] } := by
      refine ⟨hw.slot, hw.upto, fun hm => ?_⟩
      obtain hm | hm := List.mem_append.mp hm
      · exact hw.events hm
      · exact hev (List.mem_singleton.mp hm).symm
    exact hnoted.goes turn_goes hnoted.upto.turn
  complete w hw hdone := by
    have hnoted : Done { w with events := w.events ++ [.complete] } := hdone
    exact hnoted.goes turn_goes

end

end EnrollWorld

-- ---------------------------------------------------------------------------
-- The run
-- ---------------------------------------------------------------------------

/-- A system before the run: nothing is about its enrollment yet. -/
structure EnrollSys.Fresh (s : EnrollSys) : Prop where
  begun : s.begun = false
  started : s.started = false
  completed : s.completed = false
  looking : s.looking = false
  event : ∀ n ∈ s.lastEnrollEvent, n.owner = .other
  notices : ∀ n ∈ s.notices, n.owner = .other

section
variable {w : EnrollWorld} {slot : UInt8} {now : Nat}

open EnrollWorld

theorem fresh_running (hs : w.sys.Fresh) (hev : w.events = []) : w.Running w.sys.slot := by
  refine ⟨rfl, fun _ => ⟨⟨fun n hn hm => ?_, fun n hn hm => ?_, fun hl => ?_⟩, hs.looking⟩, ?_⟩
  · exact nomatch hm.symm.trans (hs.event n hn)
  · exact nomatch hm.symm.trans (hs.notices n hn)
  · exact nomatch hl.symm.trans hs.looking
  · rw [hev]
    exact List.not_mem_nil

/-- A run whose steps are careful reports the end only if its enrollment has completed. -/
theorem enrollment_complete (hs : w.sys.Fresh) (hslot : w.sys.slot = slot) (hev : w.events = [])
    (hcareful : (runEnrollment enrollEnv slot now w).AllCareful)
    (hreported : .complete ∈ (runEnrollment enrollEnv slot now w).events) :
    (runEnrollment enrollEnv slot now w).sys.completed = true := by
  have hcancel (w : EnrollWorld) (hw : w.Running slot) : (enrollEnv.enrollCancel w).Running slot :=
    hw.goes (others_goes.trans (act_goes.trans others_goes)) hw.upto.others.outside.others
  have hstart (w : EnrollWorld) (hw : w.Running slot) :
      (enrollEnv.enrollStart slot w).2.Running slot :=
    hw.goes (enrollStart_keeps hw.upto).1 (enrollStart_keeps hw.upto).2
  have hrun : w.Running slot := hslot ▸ fresh_running hs hev
  obtain hrunning | hdone : (runEnrollment enrollEnv slot now w).Running slot ∨
      ((runEnrollment enrollEnv slot now w).AllCareful →
        (runEnrollment enrollEnv slot now w).sys.completed = true) :=
    runEnrollment_keeps enrollEnv_keeps hstart hcancel hrun
  · exact absurd hreported hrunning.events
  · exact hdone hcareful

/-- A device with no finger and a daemon that has just connected to it. -/
def EnrollSys.idle (slot : UInt8) : EnrollSys :=
  { slot, isConnected := true, lastEnrollEvent := none, fpBitmapStale := false
    deviceStatus := some 0, reported := [], notices := [], bitmap := 0, begun := false
    started := false, completed := false, looking := false }

/-- All that happens comes before the first poll. -/
def EnrollWorld.pollAfter (acts : List Outside) : EnrollWorld :=
  { sys := .idle 1, turns := List.replicate 10 { acts := [], error := none } ++
      [{ acts, error := none }]
    history := [], events := [] }

/-- Its own enrollment completes. -/
def ownCompletes : List Outside := [.accept, .complete .mine 1 6 6, .route 0]

/-- Another client's enrollment of another slot completes. -/
def otherCompletes : List Outside := [.complete .other 0 6 6, .route 0]

/-- Then the end is reported, and it has come. -/
theorem own_complete :
    (runEnrollment enrollEnv 1 0 (pollAfter ownCompletes)).sys.completed = true := by
  have hrun : runEnrollment enrollEnv 1 0 (pollAfter ownCompletes) = _ :=
    runEnrollment_first rfl rfl rfl rfl rfl rfl rfl
  refine enrollment_complete ⟨rfl, rfl, rfl, rfl, (fun _ h => nomatch h), fun _ h => nomatch h⟩ rfl
    rfl ?_ ?_
  · rw [hrun]
    unfold AllCareful
    decide
  · rw [hrun]
    decide

/-- With another client's the end is reported and has not come. -/
theorem other_complete :
    .complete ∈ (runEnrollment enrollEnv 1 0 (pollAfter otherCompletes)).events ∧
    (runEnrollment enrollEnv 1 0 (pollAfter otherCompletes)).sys.completed = false := by
  have hrun : runEnrollment enrollEnv 1 0 (pollAfter otherCompletes) = _ :=
    runEnrollment_first rfl rfl rfl rfl rfl rfl rfl
  rw [hrun]
  exact ⟨by decide, rfl⟩

end

end Immurok
