import Immurok.Async.Trace

/-!
# Histories

What a history of events says about the past: the view it leads to, in which
view an event of it happened, and what has happened since.
-/

namespace Async

variable {V E : Type} {M : Machine V E} {ok : V → E → Prop} {v : V} {es l : List E} {e e' : E}
  {A : V → Prop} {p q : E → Bool}

namespace Machine

/-- The view after a history. -/
def replay (M : Machine V E) : List E → V
  | [] => M.init
  | e :: l => M.step (M.replay l) e

theorem Trace.eq_replay (h : M.Trace ok es v) : v = M.replay es := by
  induction h with
  | nil => rfl
  | cons _ _ _ ih => rw [replay, ← ih]

/-- The event `e` happened in a view with `A`. -/
def Saw (M : Machine V E) (es : List E) (e : E) (A : V → Prop) : Prop :=
  ∃ l, (e :: l) <:+ es ∧ A (M.replay l)

theorem Saw.head (h : A (M.replay es)) : M.Saw (e :: es) e A := ⟨es, List.suffix_rfl, h⟩

theorem Saw.suffix (h : M.Saw l e A) (hl : l <:+ es) : M.Saw es e A := by
  obtain ⟨l', hl', ha⟩ := h
  exact ⟨l', hl'.trans hl, ha⟩

theorem Saw.mono {B : V → Prop} (h : M.Saw es e A) (himp : ∀ v, A v → B v) : M.Saw es e B := by
  obtain ⟨l, hl, ha⟩ := h
  exact ⟨l, hl, himp _ ha⟩

theorem Saw.cons (h : M.Saw es e A) : M.Saw (e' :: es) e A := h.suffix (List.suffix_cons e' es)

/-- The event `e` happened in a view with `A`, and none of `p` has happened
since. -/
def SawSince (M : Machine V E) (p : E → Bool) (es : List E) (e : E) (A : V → Prop) : Prop :=
  ∃ m l, es = m ++ e :: l ∧ (∀ x ∈ m, p x = false) ∧ A (M.replay l)

theorem SawSince.head (h : A (M.replay es)) : M.SawSince p (e :: es) e A :=
  ⟨[], es, rfl, fun _ h => (nomatch h), h⟩

theorem SawSince.cons (h : M.SawSince p es e A) (hp : p e' = false) :
    M.SawSince p (e' :: es) e A := by
  obtain ⟨m, l, rfl, hm, ha⟩ := h
  refine ⟨e' :: m, l, rfl, fun x hx => ?_, ha⟩
  obtain rfl | hx := List.mem_cons.mp hx
  · exact hp
  · exact hm x hx

/-- What the views of a trace that satisfy `A` also satisfy. -/
theorem SawSince.imp {B : V → Prop} (ht : M.Trace ok es v) (h : M.SawSince p es e A)
    (himp : ∀ l u, M.Trace ok l u → A u → B u) : M.SawSince p es e B := by
  obtain ⟨m, l, rfl, hm, ha⟩ := h
  obtain ⟨u, hu, -⟩ := ht.suffix (List.suffix_append m (e :: l))
  refine ⟨m, l, rfl, hm, ?_⟩
  rw [← hu.eq_replay] at ha ⊢
  exact himp l u hu ha

end Machine

-- ---------------------------------------------------------------------------
-- Since
-- ---------------------------------------------------------------------------

/-- The events after the last one that satisfies `p`. -/
def since (p : E → Bool) (es : List E) : List E := es.takeWhile fun e => !p e

theorem since_start (h : p e = true) : since p (e :: es) = [] := by simp [since, h]

theorem since_cons (h : p e = false) : since p (e :: es) = e :: since p es := by simp [since, h]

theorem mem_since_head (h : p e = false) : e ∈ since p (e :: es) := by
  rw [since_cons h]
  exact .head _

theorem mem_of_mem_since (h : e ∈ since p es) : e ∈ es := (List.takeWhile_prefix _).subset h

theorem mem_since_cons (he : p e' = false) (h : e ∈ since p es) : e ∈ since p (e' :: es) := by
  rw [since_cons he]
  exact .tail _ h

theorem not_mem_since_cons (hne : e' ≠ e) (h : e' ∉ since p es) : e' ∉ since p (e :: es) := by
  cases hp : p e with
  | true => simp [since_start hp]
  | false =>
    rw [since_cons hp]
    exact List.not_mem_cons_of_ne_of_not_mem hne h

/-- What happened since one event happened since any earlier one. -/
theorem mem_since_of_mem_since (hp : p e = true) (he : e ∈ since q es) (h : e' ∈ since p es) :
    e' ∈ since q es := by
  induction es with
  | nil => simp [since] at h
  | cons a es ih =>
    cases hqa : q a with
    | true => simp [since_start hqa] at he
    | false =>
      rw [since_cons hqa] at he ⊢
      cases hpa : p a with
      | true => simp [since_start hpa] at h
      | false =>
        rw [since_cons hpa] at h
        obtain rfl | he := List.mem_cons.mp he
        · rw [hp] at hpa
          cases hpa
        obtain rfl | h := List.mem_cons.mp h
        · exact .head _
        · exact .tail _ (ih he h)

end Async
