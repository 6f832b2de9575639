import Immurok.Async.Logic

/-!
# Tasks that start afresh

A protocol that a task follows if what it starts from has been left alone: the
precondition of a name holds as long as the name is not in use, and the task
that comes to be served under it starts from there.
-/

namespace Async.Protocol

variable {σ E R : Type} {P : Protocol σ} {S : System σ E R} {A : TaskId → σ → Prop}
  {ok : σ → σ → Prop} {c₀ c c' : Config σ}

/-- Every task of the system follows the protocol, if it starts from `A`. -/
structure SoundFrom (P : Protocol σ) (A : TaskId → σ → Prop) (S : System σ E R) : Prop where
  guar_refl : ∀ i s, P.guar i s s
  guar_rely : ∀ i j s s', i ≠ j → P.inv s → P.guar i s s' → P.rely j s s'
  env : ∀ e s s', P.inv s → S.env e s = some s' → P.inv s' ∧ ∀ i, P.rely i s s'
  stable : ∀ i, P.Stable i (A i)
  serve : ∀ i r, P.Triple i (A i) (S.serve i r) fun _ _ => True

/-- The invariant holds, and a name is left alone or used as it should be. -/
def SafeFrom (P : Protocol σ) (A : TaskId → σ → Prop) (c : Config σ) : Prop :=
  P.inv c.shared ∧ ∀ i, match c.pool i with
    | none => A i c.shared
    | some t => P.wp i t (fun _ _ => True) c.shared

namespace SoundFrom

theorem step (hS : P.SoundFrom A S) (h : P.SafeFrom A c) {e : Event E R}
    (hs : S.step c e = some c') : P.SafeFrom A c' := by
  obtain ⟨hi, hpool⟩ := h
  -- a name that the step does not run
  have other (j : TaskId) (hi' : P.inv c'.shared) (hr : P.rely j c.shared c'.shared)
      (hp : c'.pool j = c.pool j) : match c'.pool j with
      | none => A j c'.shared
      | some t => P.wp j t (fun _ _ => True) c'.shared := by
    have hj := hpool j
    rw [hp]
    cases hpj : c.pool j with
    | none =>
      rw [hpj] at hj
      exact hS.stable j _ _ hj hr hi'
    | some t =>
      rw [hpj] at hj
      exact wp_stable t _ _ _ hj hr hi'
  obtain ⟨i, t, t', ht, hm, hp⟩ | ⟨e, he, hp⟩ | ⟨i, r, hn, hsh, hp⟩ := System.step_cases hs
  · have hti := hpool i
    rw [ht] at hti
    obtain ⟨hg, hi', hw⟩ := wp_step (hS.guar_refl i) hi hti hm
    refine ⟨hi', fun j => ?_⟩
    by_cases hji : j = i
    · subst hji
      rw [hp, Function.update_self]
      exact hw
    · refine other j hi' (hS.guar_rely i j _ _ (Ne.symm hji) hi hg) ?_
      rw [hp, Function.update_of_ne hji]
  · obtain ⟨hi', hr⟩ := hS.env e _ _ hi he
    exact ⟨hi', fun j => other j hi' (hr j) (by rw [hp])⟩
  · have hi' : P.inv c'.shared := hsh ▸ hi
    refine ⟨hi', fun j => ?_⟩
    by_cases hji : j = i
    · subst hji
      have hj := hpool j
      rw [hn] at hj
      rw [hp, Function.update_self, hsh]
      exact hS.serve j r _ hi hj
    · refine other j hi' ?_ ?_
      · rw [hsh]
        exact P.rely_refl _ _
      · rw [hp, Function.update_of_ne hji]

theorem run (hS : P.SoundFrom A S) (h₀ : P.SafeFrom A c₀) (h : S.Run ok c₀ c) :
    P.SafeFrom A c := by
  induction h with
  | refl => exact h₀
  | step _ hs _ ih => exact hS.step ih hs

end SoundFrom

end Async.Protocol
