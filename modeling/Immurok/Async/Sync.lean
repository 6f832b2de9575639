import Mathlib.Logic.Function.Basic

/-!
# One-shot channels and notifications

The two synchronisation primitives tasks share besides queues. A `Oneshot`
carries at most one value from its sender to its receiver; either side may be
dropped. A `Notify` wakes its waiter if one is parked and otherwise stores
one permit for the next one.
-/

namespace Async

/-- `tx`: the sender exists and has not sent. `rx`: the receiver exists. -/
structure Oneshot (α : Type) where
  value : Option α
  tx : Bool
  rx : Bool
  deriving DecidableEq

namespace Oneshot

variable {α : Type}

def new : Oneshot α := { value := none, tx := true, rx := true }

/-- No channel: both sides are gone. -/
def gone : Oneshot α := { value := none, tx := false, rx := false }

/-- What the receiver sees: no channel, an empty one, or a value. -/
def shown (c : Oneshot α) : Option (Option α) := if c.rx then some c.value else none

/-- Sending consumes the sender; without a receiver the value is lost. -/
def send (c : Oneshot α) (a : α) : Oneshot α :=
  if c.tx then { c with tx := false, value := if c.rx then some a else none } else c

def dropTx (c : Oneshot α) : Oneshot α := { c with tx := false }

def dropRx (c : Oneshot α) : Oneshot α := { c with rx := false, value := none }

/-- What a waiting receiver gets: the value, or that the sender was dropped. -/
def recv (c : Oneshot α) : Option (Option α) :=
  match c.value with
  | some a => some (some a)
  | none => if c.tx then none else some none

/-- A value sent now would reach the receiver. -/
def isOpen (c : Oneshot α) : Bool := c.tx && c.rx

variable {c : Oneshot α} {a b : α}

@[simp] theorem new_value : (new : Oneshot α).value = none := rfl

@[simp] theorem new_rx : (new : Oneshot α).rx = true := rfl

@[simp] theorem gone_rx : (gone : Oneshot α).rx = false := rfl

@[simp] theorem dropTx_value : c.dropTx.value = c.value := rfl

@[simp] theorem dropTx_rx : c.dropTx.rx = c.rx := rfl

@[simp] theorem dropRx_value : c.dropRx.value = none := rfl

@[simp] theorem dropRx_rx : c.dropRx.rx = false := rfl

@[simp] theorem send_rx : (c.send a).rx = c.rx := by
  unfold send
  split <;> rfl

/-- A value in the channel was sent last or was already there. -/
theorem send_value (h : (c.send a).value = some b) : b = a ∧ c.isOpen ∨ c.value = some b := by
  unfold send at h
  split at h
  next htx =>
    split at h
    next hrx => exact .inl ⟨(Option.some.inj h).symm, by simp [isOpen, htx, hrx]⟩
    next => cases h
  next => exact .inr h

@[simp] theorem shown_new : (new : Oneshot α).shown = some none := rfl

@[simp] theorem shown_gone : (gone : Oneshot α).shown = none := rfl

@[simp] theorem shown_dropTx : c.dropTx.shown = c.shown := rfl

@[simp] theorem shown_dropRx : c.dropRx.shown = none := rfl

theorem isOpen_shown (h : c.isOpen) : c.shown.isSome := by
  simp only [isOpen, Bool.and_eq_true] at h
  simp [shown, h.2]

theorem shown_send (a : α) : (c.send a).shown = if c.isOpen then some (some a) else c.shown := by
  obtain ⟨v, _ | _, _ | _⟩ := c <;> rfl

/-- What is sent where no receiver is, is not seen. -/
theorem shown_send_eq_none (h : c.shown = none) : (c.send a).shown = none := by
  obtain ⟨v, _ | _, _ | _⟩ := c <;> simp_all [shown, send]

theorem shown_of_recv (h : c.recv = some (some a)) (hs : c.shown.isSome) :
    c.shown = some (some a) := by
  obtain ⟨_ | v, _ | _, _ | _⟩ := c <;> simp_all [recv, shown]

theorem recv_some (h : c.recv = some (some a)) : c.value = some a := by
  unfold recv at h
  split at h
  next hv => rw [hv, Option.some.inj (Option.some.inj h)]
  next => split at h <;> simp at h

end Oneshot

/-- `waiter`: the parked waiter and the notification it was handed, if any.
`permit`: the notification stored while nobody was parked. Notifications
carry a tag `τ` that says whom they are meant for. -/
structure Notify (τ : Type) where
  permit : Option τ
  waiter : Option (Option τ)
  deriving DecidableEq

namespace Notify

variable {τ : Type}

def new : Notify τ := { permit := none, waiter := none }

/-- Wakes the parked waiter, or stores a permit. There is only one permit:
a second one is lost in the first. -/
def notifyOne (n : Notify τ) (t : τ) : Notify τ :=
  match n.waiter with
  | some none => { n with waiter := some (some t) }
  | _ => { n with permit := n.permit.or (some t) }

/-- Parks a waiter, which takes a stored permit at once. -/
def park (n : Notify τ) : Notify τ := { permit := none, waiter := some n.permit }

/-- The notification the waiter was handed; it is no longer parked. -/
def notified (n : Notify τ) : Option (τ × Notify τ) :=
  match n.waiter with
  | some (some t) => some (t, { n with waiter := none })
  | _ => none

/-- The waiter gives up: a notification it was handed and did not take is
passed on, here to the permit. -/
def unpark (n : Notify τ) : Notify τ :=
  match n.waiter with
  | some (some t) => { permit := n.permit.or (some t), waiter := none }
  | _ => { n with waiter := none }

/-- The notifications sent and not taken. -/
def outstanding (n : Notify τ) : List τ := n.permit.toList ++ (n.waiter.getD none).toList

variable {n n' : Notify τ} {t : τ}

@[simp] theorem outstanding_new : (new : Notify τ).outstanding = [] := rfl

theorem outstanding_park_sublist : n.park.outstanding.Sublist n.outstanding := by
  obtain ⟨_ | p, w⟩ := n <;> simp [outstanding, park]

theorem mem_outstanding_notifyOne {t' : τ} (h : t' ∈ (n.notifyOne t).outstanding) :
    t' = t ∨ t' ∈ n.outstanding := by
  obtain ⟨_ | p, _ | _ | w⟩ := n <;> simp_all [outstanding, notifyOne] <;> grind

/-- With nothing outstanding a notification is the only one. -/
theorem outstanding_notifyOne (h : n.outstanding = []) : (n.notifyOne t).outstanding = [t] := by
  obtain ⟨_ | p, _ | _ | w⟩ := n <;> simp_all [outstanding, notifyOne]

theorem outstanding_unpark_sublist : n.unpark.outstanding.Sublist n.outstanding := by
  obtain ⟨_ | p, _ | _ | w⟩ := n <;> simp [outstanding, unpark]

theorem outstanding_notified (h : n.notified = some (t, n')) :
    n.outstanding = n'.outstanding ++ [t] := by
  obtain ⟨p, _ | _ | w⟩ := n <;> simp only [notified, Option.some.injEq, Prod.mk.injEq,
    reduceCtorEq] at h
  obtain ⟨rfl, rfl⟩ := h
  simp [outstanding]

end Notify

end Async
