import Immurok.Text.Str

/-!
# Checked code

Code on slices of bytes with positions of 64 bits, as it runs: an index or a
range outside the slice and an overflow stop it with a panic.
-/

/-- How code stops without a value: with an error of its own, with a panic, or
not at all. -/
inductive Fault
  | error (e : Str)
  | panic
  | diverges
  deriving DecidableEq

abbrev Checked (α : Type) := Except Fault α

namespace Checked

variable {α β : Type} {P Q : α → Prop} {R : β → Prop} {t : Checked α} {data : Bytes} {i j a b : Nat}

def fail (e : Str) : Checked α := .error (.error e)

def add (a b : Nat) : Checked Nat := if a + b < 2 ^ 64 then .ok (a + b) else .error .panic

def sub (a b : Nat) : Checked Nat := if b ≤ a then .ok (a - b) else .error .panic

def index (data : Bytes) (i : Nat) : Checked UInt8 :=
  match data[i]? with
  | some b => .ok b
  | none => .error .panic

/-- `data[i..j]`. -/
def slice (data : Bytes) (i j : Nat) : Checked Bytes :=
  if i ≤ j ∧ j ≤ data.length then .ok ((data.drop i).take (j - i)) else .error .panic

/-- `a && t`, where `t` is not evaluated if `a` is false. -/
def andThen (a : Bool) (t : Checked Bool) : Checked Bool := if a then t else .ok false

/-- `a || t`, where `t` is not evaluated if `a` is true. -/
def orElse (a : Bool) (t : Checked Bool) : Checked Bool := if a then .ok true else t

-- ---------------------------------------------------------------------------
-- What runs as written
-- ---------------------------------------------------------------------------

theorem add_eq (h : a + b < 2 ^ 64) : add a b = .ok (a + b) := if_pos h

theorem sub_eq (h : b ≤ a) : sub a b = .ok (a - b) := if_pos h

theorem index_eq (h : i < data.length) : index data i = .ok data[i] := by
  rw [index, List.getElem?_eq_getElem h]

theorem slice_eq (hij : i ≤ j) (hj : j ≤ data.length) :
    slice data i j = .ok ((data.drop i).take (j - i)) := if_pos ⟨hij, hj⟩

-- ---------------------------------------------------------------------------
-- Safety
-- ---------------------------------------------------------------------------

/-- It ends, without a panic, and a value that it ends with has `P`. -/
def Safe (t : Checked α) (P : α → Prop) : Prop :=
  match t with
  | .ok a => P a
  | .error (.error _) => True
  | .error _ => False

namespace Safe

theorem ok {a : α} (h : P a) : Safe (.ok a) P := h

theorem fail {e : Str} : Safe (Checked.fail e) P := trivial

theorem mono (h : Safe t P) (hPQ : ∀ a, P a → Q a) : Safe t Q := by
  cases t with
  | ok a => exact hPQ a h
  | error f => cases f <;> exact h

theorem bind {g : α → Checked β} (h : Safe t P) (hg : ∀ a, P a → Safe (g a) R) :
    Safe (t >>= g) R := by
  cases t with
  | ok a => exact hg a h
  | error f => cases f <;> exact h

theorem ite {p : Prop} [Decidable p] {t u : Checked α} (ht : p → Safe t P) (hu : ¬p → Safe u P) :
    Safe (if p then t else u) P := by
  split
  next h => exact ht h
  next h => exact hu h

theorem add (h : a + b < 2 ^ 64) : Safe (add a b) (· = a + b) := by
  rw [add_eq h]
  exact rfl

theorem sub (h : b ≤ a) : Safe (sub a b) (· = a - b) := by
  rw [sub_eq h]
  exact rfl

theorem index (h : i < data.length) : Safe (index data i) (· = data[i]) := by
  rw [index_eq h]
  exact rfl

theorem slice (hij : i ≤ j) (hj : j ≤ data.length) :
    Safe (slice data i j) fun s => s.length = j - i := by
  rw [slice_eq hij hj]
  exact (List.length_take_of_le (by rw [List.length_drop]; omega))

theorem andThen {a : Bool} {t : Checked Bool} {P : Bool → Prop} (ht : a = true → Safe t P)
    (hf : P false) : Safe (andThen a t) P := ite ht fun _ => ok hf

theorem orElse {a : Bool} {t : Checked Bool} {P : Bool → Prop} (ht : a = false → Safe t P)
    (hf : a = true → P true) : Safe (orElse a t) P :=
  ite (fun h => ok (hf h)) fun h => ht (Bool.eq_false_iff.mpr h)

end Safe

-- ---------------------------------------------------------------------------
-- Values
-- ---------------------------------------------------------------------------

/-- A value that it ends with has `P`, if it ends with one. -/
def Brings (t : Checked α) (P : α → Prop) : Prop := ∀ a, t = .ok a → P a

theorem exists_of_bind {g : α → Checked β} {b : β} (h : t >>= g = .ok b) :
    ∃ a, t = .ok a ∧ g a = .ok b := by
  cases t with
  | ok a => exact ⟨a, rfl, h⟩
  | error f => nomatch h

namespace Brings

theorem ok {a : α} (h : P a) : Brings (.ok a) P := fun _ he => Except.ok.inj he ▸ h

theorem fail {e : Str} : Brings (Checked.fail e) P := nofun

theorem bind {g : α → Checked β} (h : Brings t P) (hg : ∀ a, P a → Brings (g a) R) :
    Brings (t >>= g) R := fun b hb => by
  obtain ⟨a, ha, hb⟩ := exists_of_bind hb
  exact hg a (h a ha) b hb

theorem after {g : α → Checked β} (hg : ∀ a, Brings (g a) R) : Brings (t >>= g) R :=
  bind (P := fun _ => True) (fun _ _ => trivial) fun a _ => hg a

theorem ite {p : Prop} [Decidable p] {t u : Checked α} (ht : p → Brings t P) (hu : ¬p → Brings u P) :
    Brings (if p then t else u) P := by
  split
  next h => exact ht h
  next h => exact hu h

theorem add : Brings (add a b) (· = a + b) := fun n h => by
  unfold Checked.add at h
  split at h
  · exact (Except.ok.inj h).symm
  · nomatch h

theorem slice : Brings (slice data i j) fun s => s.length = j - i := fun s h => by
  unfold Checked.slice at h
  split at h
  next hle =>
    obtain rfl := Except.ok.inj h
    exact List.length_take_of_le (by rw [List.length_drop]; omega)
  next => nomatch h

end Brings

end Checked
