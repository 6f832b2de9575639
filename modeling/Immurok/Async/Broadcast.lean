import Mathlib.Data.List.DropRight
import Mathlib.Tactic.Common

/-!
# Broadcast

A channel that keeps the last messages for receivers that come to them in their
own time. One that was too slow is told how many it has missed.
-/

namespace Async

-- ---------------------------------------------------------------------------
-- The last elements
-- ---------------------------------------------------------------------------

/-- An element behind the others, of which the first one goes when there is no room. -/
def pushBounded {α : Type} (cap : Nat) (xs : List α) (x : α) : List α :=
  (if xs.length = cap then xs.tail else xs) ++ [x]

section
variable {α : Type} {cap : Nat} {xs : List α} {x : α}

theorem length_rtake : (xs.rtake cap).length = min cap xs.length := by
  rw [List.rtake, List.length_drop]
  omega

/-- The last elements of what has been pushed are kept. -/
theorem pushBounded_rtake (h : 0 < cap) :
    pushBounded cap (xs.rtake cap) x = (xs ++ [x]).rtake cap := by
  obtain ⟨n, rfl⟩ := Nat.exists_eq_add_one_of_ne_zero (Nat.ne_of_gt h)
  rw [List.rtake_concat_succ, pushBounded, length_rtake]
  congr 1
  split
  next hfull =>
    rw [List.rtake, List.rtake, List.tail_drop]
    congr 1
    omega
  next hroom =>
    have hshort : xs.length - (n + 1) = 0 ∧ xs.length - n = 0 := by omega
    rw [List.rtake, List.rtake, hshort.1, hshort.2]

end

-- ---------------------------------------------------------------------------
-- Channels
-- ---------------------------------------------------------------------------

/-- `tail` counts what was sent. -/
structure Broadcast (α : Type) where
  buffer : List α
  tail : Nat

inductive Received (α : Type)
  | value (a : α)
  | lagged (n : Nat)

namespace Broadcast
variable {α : Type}

def empty : Broadcast α := ⟨[], 0⟩

def send (cap : Nat) (ch : Broadcast α) (a : α) : Broadcast α :=
  ⟨pushBounded cap ch.buffer a, ch.tail + 1⟩

/-- What the receiver that is to have the message number `next` gets, and which it is
to have then; one that is behind goes on with the oldest there is. -/
def recv (ch : Broadcast α) (next : Nat) : Option (Received α × Nat) :=
  let oldest := ch.tail - ch.buffer.length
  if next < oldest then some (.lagged (oldest - next), oldest)
  else ch.buffer[next - oldest]?.map fun a => (.value a, next + 1)

/-- The channel after `sent`. -/
structure Holds (cap : Nat) (ch : Broadcast α) (sent : List α) : Prop where
  buffer : ch.buffer = sent.rtake cap
  tail : ch.tail = sent.length

variable {ch : Broadcast α} {cap next n : Nat} {sent : List α} {a : α} {r : Received α}

theorem empty_holds : (empty : Broadcast α).Holds cap [] := ⟨(List.rtake_nil _).symm, rfl⟩

theorem Holds.send (h : ch.Holds cap sent) (hcap : 0 < cap) :
    (ch.send cap a).Holds cap (sent ++ [a]) := by
  refine ⟨?_, ?_⟩
  · rw [Broadcast.send, h.buffer, pushBounded_rtake hcap]
  · rw [Broadcast.send, h.tail, List.length_append, List.length_singleton]

theorem Holds.oldest (h : ch.Holds cap sent) :
    ch.tail - ch.buffer.length = sent.length - cap := by
  rw [h.tail, h.buffer, length_rtake]
  omega

/-- A receiver gets its message, or the number of those that are gone. -/
theorem Holds.recv (h : ch.Holds cap sent) (hrecv : ch.recv next = some (r, n)) :
    (∃ a, r = .value a ∧ n = next + 1 ∧ sent[next]? = some a) ∨
    (∃ k, r = .lagged k ∧ 0 < k ∧ n = next + k ∧ n ≤ sent.length) := by
  rw [Broadcast.recv, h.oldest] at hrecv
  split at hrecv
  next hbehind =>
    obtain ⟨rfl, rfl⟩ := Prod.mk.inj (Option.some.inj hrecv)
    exact .inr ⟨_, rfl, by omega, by omega, by omega⟩
  next hnear =>
    obtain ⟨a, ha, heq⟩ := Option.map_eq_some_iff.mp hrecv
    obtain ⟨rfl, rfl⟩ := Prod.mk.inj heq
    refine .inl ⟨a, rfl, rfl, ?_⟩
    rw [h.buffer, List.rtake, List.getElem?_drop] at ha
    rwa [Nat.add_sub_cancel' (Nat.le_of_not_lt hnear)] at ha

end Broadcast

-- ---------------------------------------------------------------------------
-- What a receiver has heard
-- ---------------------------------------------------------------------------

/-- Each message was received, or is one of as many as the receiver was told of. -/
inductive Heard {α : Type} : List α → List (Received α) → Prop
  | nil : Heard [] []
  | value {sent : List α} {rs : List (Received α)} {a : α} :
    Heard sent rs → Heard (sent ++ [a]) (rs ++ [.value a])
  | lagged {sent missed : List α} {rs : List (Received α)} :
    Heard sent rs → Heard (sent ++ missed) (rs ++ [.lagged missed.length])

namespace Heard
variable {α : Type} {sent : List α} {rs : List (Received α)} {a : α} {r : Received α}
  {ch : Broadcast α} {cap start next n : Nat}

theorem received_or_told (h : Heard sent rs) (ha : a ∈ sent) :
    .value a ∈ rs ∨ ∃ n, .lagged n ∈ rs := by
  induction h with
  | nil => nomatch ha
  | value _ ih =>
    obtain ha | ha := List.mem_append.mp ha
    · exact (ih ha).imp (List.mem_append_left _) fun ⟨n, hn⟩ => ⟨n, List.mem_append_left _ hn⟩
    · obtain rfl := List.mem_singleton.mp ha
      exact .inl (List.mem_append_right _ List.mem_cons_self)
  | lagged _ ih =>
    obtain ha | ha := List.mem_append.mp ha
    · exact (ih ha).imp (List.mem_append_left _) fun ⟨n, hn⟩ => ⟨n, List.mem_append_left _ hn⟩
    · exact .inr ⟨_, List.mem_append_right _ List.mem_cons_self⟩

/-- What is received next continues it. -/
theorem recv (h : Heard ((sent.take next).drop start) rs) (hch : ch.Holds cap sent)
    (hstart : start ≤ next) (hrecv : ch.recv next = some (r, n)) :
    Heard ((sent.take n).drop start) (rs ++ [r]) ∧ next < n ∧ n ≤ sent.length := by
  obtain ⟨a, rfl, rfl, ha⟩ | ⟨k, rfl, hk, rfl, hlen⟩ := hch.recv hrecv
  · obtain ⟨hnext, rfl⟩ := List.getElem?_eq_some_iff.mp ha
    have htake : (sent.take (next + 1)).drop start = (sent.take next).drop start ++ [sent[next]] := by
      rw [List.take_succ_eq_append_getElem hnext, List.drop_append_of_le_length]
      rw [List.length_take]
      omega
    exact ⟨htake ▸ h.value, Nat.lt_succ_self _, hnext⟩
  · have htake : (sent.take (next + k)).drop start =
        (sent.take next).drop start ++ (sent.drop next).take k := by
      rw [List.take_add, List.drop_append_of_le_length]
      rw [List.length_take]
      omega
    have hmissed : ((sent.drop next).take k).length = k := by
      rw [List.length_take, List.length_drop]
      omega
    have hlagged := @Heard.lagged _ _ ((sent.drop next).take k) _ h
    rw [hmissed, ← htake] at hlagged
    exact ⟨hlagged, by omega, hlen⟩

end Heard

end Async
