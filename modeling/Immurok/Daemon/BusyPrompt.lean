import Immurok.Async.Steps
import Immurok.Daemon.Sound

/-!
# Prompts of a request that is busy

The two requests that wait in the slot show a dialog in the user's session. What
each of them sends there when it finds the slot taken, whatever the others do
between its steps.
-/

namespace Immurok

open Async

/-- The step sends nothing to a session agent. -/
def SendsNothing (p : Daemon × Daemon) : Prop :=
  ∀ j, (p.2.socket j).uiLines = (p.1.socket j).uiLines

/-- The user's prompt is not touched. -/
def LeavesUi (l : List (Daemon × Daemon)) : Prop := ∀ p ∈ l, SendsNothing p

inductive Prompting
  | auth (user service : Str)
  | agentApprove (cmd : Str)

def Prompting.handle (ext : Extern) (i : TaskId) : Prompting → Code Response
  | .auth user service => handleAuth ext i user service
  | .agentApprove cmd => handleAgentApprove ext i cmd

/-- Before an `AUTH` shows its dialog it looks at the owner, the settings, the
window, the connection and whether it is verified, and subscribes to cancels. -/
def stepsToDialog : Nat := 6

/-- There is nobody to show a dialog to when it comes to that, or it never does. -/
def Prompting.Unseen (ext : Extern) : Prompting → List (Daemon × Daemon) → Prop
  | .auth _ service, l =>
    isGraphical ext service = true → ∀ p, l[stepsToDialog]? = some p → p.1.coord.uiOut = none
  | .agentApprove _, _ => True

variable {ext : Extern} {i : TaskId} {α : Type} {l : List (Daemon × Daemon)} {n : Nat}

-- ---------------------------------------------------------------------------
-- Steps
-- ---------------------------------------------------------------------------

/-- So many steps, and nothing sent. -/
def Silent (n : Nat) (l : List (Daemon × Daemon)) : Prop := l.length = n ∧ LeavesUi l

theorem LeavesUi.snoc {p : Daemon × Daemon} :
    LeavesUi (l ++ [p]) ↔ LeavesUi l ∧ SendsNothing p := by
  unfold LeavesUi
  rw [List.forall_mem_append, List.forall_mem_singleton]

theorem Silent.snoc {p : Daemon × Daemon} (h : Silent n l) (hp : SendsNothing p) :
    Silent (n + 1) (l ++ [p]) :=
  ⟨by rw [List.length_append, h.1]; rfl, LeavesUi.snoc.mpr ⟨h.2, hp⟩⟩

/-- Triples about the steps alone. -/
abbrev Shows (A : List (Daemon × Daemon) → Prop) (t : Code α)
    (B : α → List (Daemon × Daemon) → Prop) : Prop :=
  Proc.Traces (fun _ => True) A t B

/-- One step that sends nothing. -/
theorem quiet_shows {g : Daemon → α × Daemon} {A A' : List (Daemon × Daemon) → Prop}
    (h : ∀ s j, ((g s).2.socket j).uiLines = (s.socket j).uiLines)
    (hA : ∀ l p, A l → SendsNothing p → A' (l ++ [p])) :
    Shows A (Proc.atomically g) fun _ => A' :=
  .act fun l s a s' hl hm => by
    obtain ⟨rfl, rfl⟩ := Prod.mk.inj (List.mem_singleton.mp hm)
    exact ⟨trivial, hA l _ hl (h s)⟩

theorem atomically_shows {g : Daemon → α × Daemon}
    (h : ∀ s j, ((g s).2.socket j).uiLines = (s.socket j).uiLines) :
    Shows (Silent n) (Proc.atomically g) fun _ => Silent (n + 1) :=
  quiet_shows h fun _ _ => Silent.snoc

theorem get_shows {g : Daemon → α} : Shows (Silent n) (Proc.get g) fun _ => Silent (n + 1) :=
  atomically_shows fun _ _ => rfl

theorem pushUi_shows {line : Str} {A : List (Daemon × Daemon) → Prop} :
    Shows A (pushUi line) fun shown l => ∃ before p, l = before ++ [p] ∧ A before ∧
      shown = p.1.coord.uiOut.isSome ∧ (SendsNothing p ↔ p.1.coord.uiOut = none) :=
  .act fun l s shown s' hl hm => by
    refine ⟨trivial, l, (s, s'), rfl, hl, ?_⟩
    have hm := List.mem_singleton.mp hm
    dsimp only at hm
    cases hout : s.coord.uiOut with
    | none =>
      rw [hout] at hm
      obtain ⟨rfl, rfl⟩ := Prod.mk.inj hm
      exact ⟨rfl, iff_of_true (fun _ => rfl) rfl⟩
    | some j =>
      rw [hout] at hm
      obtain ⟨rfl, rfl⟩ := Prod.mk.inj hm
      refine ⟨rfl, iff_of_false (fun h => ?_) nofun⟩
      simpa using h j

theorem trySetPendingPam_shows {entry : Entry} {A A' : List (Daemon × Daemon) → Prop}
    (hA : ∀ l p, A l → SendsNothing p → A' (l ++ [p])) :
    Shows A (trySetPendingPam i entry) fun _ => A' :=
  quiet_shows (fun s j => by split <;> rfl) hA

-- ---------------------------------------------------------------------------
-- Requests
-- ---------------------------------------------------------------------------

/-- What is left once the slot is taken is not `BUSY`. -/
theorem not_busy {A : List (Daemon × Daemon) → Prop} {t : Code α}
    {f : α → Code Response} {B : Response → List (Daemon × Daemon) → Prop}
    (h : ∀ a, Shows (fun _ => True) (f a) fun r _ => r ≠ .error "BUSY") :
    Shows A (t.bind f) fun r l => r = .error "BUSY" → B r l := by
  refine .bind (.post .any fun _ _ _ => trivial) fun a => (h a).post fun r l hr he => absurd he hr

theorem agentTouch_shows {cmd : Str} : Shows (Silent n) (agentTouch ext i cmd)
    fun r l => r = .error "BUSY" → LeavesUi l := by
  refine .bind (trySetPendingPam_shows fun _ _ => Silent.snoc) fun registered => ?_
  cases registered with
  | false => exact .ret fun l h _ => h.2
  | true =>
    refine not_busy fun _ => .bind .any fun _ => .bind .any fun r => ?_
    obtain ⟨approved, protocolError⟩ := r
    cases protocolError with
    | true => exact .ret fun _ _ he => absurd (Response.error.inj he) (by decide)
    | false =>
      cases approved with
      | true => exact .bind .any fun _ => .ret fun _ _ => nofun
      | false => exact .ret fun _ _ => nofun

theorem handleAgentApprove_shows {cmd : Str} : Shows (Silent n) (handleAgentApprove ext i cmd)
    fun r l => r = .error "BUSY" → LeavesUi l := by
  refine .ite (fun _ => .ret fun l h _ => h.2) fun _ => ?_
  refine .bind (atomically_shows fun _ _ => rfl) fun connected => ?_
  refine .ite (fun _ => .ret fun l h _ => h.2) fun _ => ?_
  refine .bind (atomically_shows fun _ _ => rfl) fun verified => ?_
  exact .ite (fun _ => .ret fun l h _ => h.2) fun _ => agentTouch_shows

/-- The step that shows the dialog, and what came before and after it. -/
def Dialog (showing : Bool) (l : List (Daemon × Daemon)) : Prop :=
  ∃ before p rest, l = before ++ p :: rest ∧ Silent stepsToDialog before ∧
    showing = p.1.coord.uiOut.isSome ∧ (SendsNothing p ↔ p.1.coord.uiOut = none) ∧
    (p.1.coord.uiOut = none → LeavesUi rest)

/-- Once the dialog was shown it can only be left at that. -/
theorem Dialog.leaves_iff {showing : Bool} (h : Dialog showing l) :
    LeavesUi l ↔ ∀ p, l[stepsToDialog]? = some p → p.1.coord.uiOut = none := by
  obtain ⟨before, p, rest, rfl, ⟨hlen, hbefore⟩, -, hp, hrest⟩ := h
  have hat : (before ++ p :: rest)[stepsToDialog]? = some p := by
    rw [List.getElem?_append_right hlen.le, hlen]
    rfl
  constructor
  · intro hl q hq
    obtain rfl := Option.some.inj (hat.symm.trans hq)
    exact hp.mp (hl p (List.mem_append_right _ List.mem_cons_self))
  · intro hq q hm
    have hnone := hq p hat
    obtain hm | hm := List.mem_append.mp hm
    · exact hbefore q hm
    · obtain rfl | hm := List.mem_cons.mp hm
      · exact hp.mpr hnone
      · exact hrest hnone q hm

theorem Dialog.snoc {showing : Bool} {q : Daemon × Daemon} (h : Dialog showing l)
    (hq : showing = false → SendsNothing q) :
    Dialog showing (l ++ [q]) := by
  obtain ⟨before, p, rest, rfl, hbefore, rfl, hp, hrest⟩ := h
  refine ⟨before, p, rest ++ [q], List.append_assoc .., hbefore, rfl, hp, fun hnone => ?_⟩
  exact LeavesUi.snoc.mpr ⟨hrest hnone, hq (by rw [hnone]; rfl)⟩

/-- After the dialog, or after so many steps where there is none. -/
def Prompted (ext : Extern) (service : Str) (showing : Bool) (l : List (Daemon × Daemon)) : Prop :=
  if isGraphical ext service = true then Dialog showing l else showing = false ∧ LeavesUi l

theorem Prompted.snoc {service : Str} {showing : Bool} {q : Daemon × Daemon}
    (h : Prompted ext service showing l)
    (hq : showing = false → SendsNothing q) :
    Prompted ext service showing (l ++ [q]) := by
  unfold Prompted at h ⊢
  split at h
  next hg =>
    rw [if_pos hg]
    exact Dialog.snoc h hq
  next hg =>
    rw [if_neg hg]
    exact ⟨h.1, LeavesUi.snoc.mpr ⟨h.2, hq h.1⟩⟩

theorem showDialog_shows {service : Str} :
    Shows (Silent stepsToDialog) (showDialog (isGraphical ext service))
      (Prompted ext service) := by
  unfold showDialog Prompted
  split
  next hg =>
    refine .post pushUi_shows ?_
    rintro showing _ ⟨before, p, rfl, hbefore, hshowing, hp⟩
    exact ⟨before, p, [], rfl, hbefore, hshowing, hp, fun _ _ hm => nomatch hm⟩
  next => exact .ret fun l h => ⟨rfl, h.2⟩

theorem dismiss_shows {service : Str} {showing : Bool} :
    Shows (Prompted ext service showing) (dismiss showing) fun _ =>
      Prompted ext service showing := by
  cases showing with
  | false => exact .ret fun _ => id
  | true =>
    refine .bind pushUi_shows fun _ => .ret ?_
    rintro _ ⟨before, p, rfl, hbefore, -⟩
    exact hbefore.snoc nofun

theorem authTouch_shows {user service : Str} :
    Shows (Silent 5) (authTouch ext i service)
      fun r l => r = .error "BUSY" →
        (LeavesUi l ↔ (Prompting.auth user service).Unseen ext l) := by
  refine .bind get_shows fun subscribed => .bind showDialog_shows fun showing => ?_
  refine .bind (trySetPendingPam_shows fun _ _ h hp => h.snoc fun _ => hp) fun registered => ?_
  cases registered with
  | false =>
    refine .bind dismiss_shows fun _ => .ret fun l h _ => ?_
    unfold Prompted at h
    split at h
    next hg => exact h.leaves_iff.trans ⟨fun hl _ => hl, fun hl => hl hg⟩
    next hg => exact iff_of_true h.2 fun hg' => absurd hg' hg
  | true =>
    refine not_busy fun approved => .ret fun _ _ => ?_
    cases approved <;> nofun

theorem handleAuth_shows {user service : Str} :
    Shows (Silent 0) (handleAuth ext i user service)
      fun r l => r = .error "BUSY" →
        (LeavesUi l ↔ (Prompting.auth user service).Unseen ext l) := by
  have deny {n : Nat} {e : Str} : Shows (Silent n) (Proc.ret (.deny e) : Code Response) fun r l =>
      r = .error "BUSY" → (LeavesUi l ↔ (Prompting.auth user service).Unseen ext l) :=
    .ret fun _ _ => nofun
  refine .bind (atomically_shows fun _ _ => rfl) fun owner => .ite (fun _ => deny) fun _ => ?_
  refine .bind (atomically_shows fun _ _ => rfl) fun settings => .ite (fun _ => deny) fun _ => ?_
  refine .bind (atomically_shows fun _ _ => rfl) fun hit =>
    .ite (fun _ => .ret fun _ _ => nofun) fun _ => ?_
  refine .bind (atomically_shows fun _ _ => rfl) fun connected => .ite (fun _ => deny) fun _ => ?_
  exact .bind (atomically_shows fun _ _ => rfl) fun verified => .ite (fun _ => deny) fun _ =>
    authTouch_shows

/-- A request that answers `BUSY` leaves the prompt of the other alone if and only
if nobody sees its own. -/
theorem busy_leaves_ui_iff {r : Prompting}
    (h : (r.handle ext i).Takes l (.ret (.error "BUSY"))) : LeavesUi l ↔ r.Unseen ext l := by
  have h0 : Silent 0 [] := ⟨rfl, fun _ hm => nomatch hm⟩
  cases r with
  | auth user service => exact (h.traced trivial (handleAuth_shows [] h0)).2 rfl
  | agentApprove cmd =>
    exact iff_of_true ((h.traced trivial (handleAgentApprove_shows [] h0)).2 rfl) trivial

/-- The slot is taken; the agent is on the connection 1, or there is none. -/
def slotTaken (agent : Bool) : Daemon :=
  let s := Daemon.start .sample
  { s with
    coord := { s.coord with
      isConnected := true, isDeviceVerified := true, pendingPam := some 2
      uiOut := if agent then some 1 else none } }

/-- Without an agent nothing is replaced. -/
theorem busy_leaves_ui_unseen : ∃ l,
    ((Prompting.auth "u" "gdm-password").handle .sample 3).Takes l (.ret (.error "BUSY")) ∧
      LeavesUi l := by
  obtain ⟨l, r, ht, hp⟩ := Proc.Takes.of_returned
    (t := (Prompting.auth "u" "gdm-password").handle .sample 3)
    (p := fun r l => r = .error "BUSY" ∧ l[stepsToDialog]?.all fun p => p.1.coord.uiOut = none)
    (List.replicate 8 (slotTaken false, 0)) (by decide)
  obtain ⟨rfl, hout⟩ := of_decide_eq_true hp
  refine ⟨l, ht, (busy_leaves_ui_iff ht).mpr fun _ p hp => ?_⟩
  simpa [hp] using hout

/-- A request of the user holds the slot when a graphical login asks. -/
def loginWhileBusy : List (Event Env Conn) :=
  session ++ ask 1 "SUBSCRIBE:SESSION" ++ go 1 6 ++ ask 2 "AUTH:u:sudo" ++ go 2 8 ++
    ask 3 "AUTH:u:gdm-password" ++ go 3 11

/-- The login is turned away, and its dialog comes and goes in the session. -/
theorem busy_login_prompts :
    (∃ c, (system .sample).Reach (start .sample .sample) c ∧
      c.shared.coord.pendingPam = some 2 ∧
      .answered 3 (.auth "u" "gdm-password") (.error "BUSY") ∈ c.shared.log ∧
      (c.shared.socket 1).uiLines = ["UI:DIALOG:AUTH".toList, "UI:DISMISS".toList]) ∧
    ∃ l, ((Prompting.auth "u" "gdm-password").handle .sample 3).Takes l (.ret (.error "BUSY")) ∧
      ¬ LeavesUi l := by
  constructor
  · obtain ⟨c, hr, hc⟩ := System.exists_run (system .sample) (fun _ _ => true)
      (start .sample .sample) loginWhileBusy
      (fun s => s.coord.pendingPam == some 2 &&
        s.log.contains (.answered 3 (.auth "u" "gdm-password") (.error "BUSY")) &&
        (s.socket 1).uiLines == ["UI:DIALOG:AUTH".toList, "UI:DISMISS".toList]) (by decide +kernel)
    rw [Bool.and_eq_true, Bool.and_eq_true] at hc
    exact ⟨c, hr.reach, eq_of_beq hc.1.1, List.contains_iff_mem.mp hc.1.2, eq_of_beq hc.2⟩
  · obtain ⟨l, r, ht, hp⟩ := Proc.Takes.of_returned
      (t := (Prompting.auth "u" "gdm-password").handle .sample 3)
      (p := fun r l => r = .error "BUSY" ∧
        l.any fun p => (p.2.socket 1).uiLines ≠ (p.1.socket 1).uiLines)
      (List.replicate 9 (slotTaken true, 0)) (by decide)
    obtain ⟨rfl, hlines⟩ := of_decide_eq_true hp
    refine ⟨l, ht, fun hl => ?_⟩
    obtain ⟨p, hm, hne⟩ := List.any_eq_true.mp hlines
    exact of_decide_eq_true hne (hl p hm 1)

end Immurok
