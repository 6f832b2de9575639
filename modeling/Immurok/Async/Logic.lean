import Immurok.Async.System

/-!
# Rely and guarantee

A protocol says what every task may rely on between two of its steps and what
it guarantees of each of them. `Triple` is partial correctness of one task
against the interference its protocol allows; `Protocol.Sound` puts the tasks
of a system together, and `Run.guarantee` reads the result: every step of
every run is a step some protocol or the outside world allows.
-/

namespace Async

/-- `inv` holds between any two steps of anybody. Task `i` may rely on
`rely i` across its waits and guarantees `guar i` for its own steps. -/
structure Protocol (σ : Type) where
  inv : σ → Prop
  rely : TaskId → σ → σ → Prop
  guar : TaskId → σ → σ → Prop
  rely_refl : ∀ i s, rely i s s
  rely_trans : ∀ i s s' s'', rely i s s' → rely i s' s'' → rely i s s''

variable {σ E R α β γ ι : Type} {P : Protocol σ} {i : TaskId}

namespace Protocol

/-- `A` survives the interference with task `i`. -/
def Stable (P : Protocol σ) (i : TaskId) (A : σ → Prop) : Prop :=
  ∀ s s', A s → P.rely i s s' → P.inv s' → A s'

/-- Weakest precondition of a task against its protocol. -/
def wp (P : Protocol σ) (i : TaskId) : {α : Type} → Proc σ α → (α → σ → Prop) → σ → Prop
  | _, .ret a, Q, s => ∀ s', P.rely i s s' → P.inv s' → Q a s'
  | _, .act f k, Q, s => ∀ s', P.rely i s s' → P.inv s' → ∀ b s'', (b, s'') ∈ f s' →
      P.guar i s' s'' ∧ P.inv s'' ∧ P.wp i (k b) Q s''
  | _, .iter body j k, Q, s => ∃ J : _ → σ → Prop, (∀ j, P.Stable i (J j)) ∧ J j s ∧
      ∀ j s', P.inv s' → J j s' → P.wp i (body j) (fun
        | .inl j' => J j'
        | .inr b => P.wp i (k b) Q) s'

theorem wp_stable (t : Proc σ α) (Q : α → σ → Prop) : P.Stable i (P.wp i t Q) := by
  intro s s' h hr hi
  cases t with
  | ret a => exact fun s'' hr' hi' => h s'' (P.rely_trans _ _ _ _ hr hr') hi'
  | act f k => exact fun s'' hr' hi' => h s'' (P.rely_trans _ _ _ _ hr hr') hi'
  | iter body j k =>
    obtain ⟨J, hst, hj, hbody⟩ := h
    exact ⟨J, hst, hst j s s' hj hr hi, hbody⟩

theorem wp_mono {t : Proc σ α} {Q Q' : α → σ → Prop} (himp : ∀ a s, P.inv s → Q a s → Q' a s)
    {s : σ} (h : P.wp i t Q s) : P.wp i t Q' s := by
  induction t generalizing s with
  | ret a => exact fun s' hr hi => himp a s' hi (h s' hr hi)
  | act f k ih =>
    intro s' hr hi b s'' hm
    obtain ⟨hg, hi', hk⟩ := h s' hr hi b s'' hm
    exact ⟨hg, hi', ih b himp hk⟩
  | iter body j k ihb ihk =>
    obtain ⟨J, hst, hj, hbody⟩ := h
    refine ⟨J, hst, hj, fun j s' hi hj => ihb j ?_ (hbody j s' hi hj)⟩
    rintro (j' | b) s'' hi' h'
    · exact h'
    · exact ihk b himp h'

theorem wp_bind {t : Proc σ α} {g : α → Proc σ β} {Q : β → σ → Prop} {s : σ}
    (hi : P.inv s) (h : P.wp i t (fun a => P.wp i (g a) Q) s) : P.wp i (t.bind g) Q s := by
  induction t generalizing s with
  | ret a => exact h s (P.rely_refl _ _) hi
  | act f k ih =>
    intro s' hr hi' b s'' hm
    obtain ⟨hg, hi'', hk⟩ := h s' hr hi' b s'' hm
    exact ⟨hg, hi'', ih b hi'' hk⟩
  | iter body j k _ ihk =>
    obtain ⟨J, hst, hj, hbody⟩ := h
    refine ⟨J, hst, hj, fun j s' hi hj => wp_mono ?_ (hbody j s' hi hj)⟩
    rintro (j' | b) s'' hi' h'
    · exact h'
    · exact ihk b hi' h'

theorem wp_of_bind {t : Proc σ α} {g : α → Proc σ β} {Q : β → σ → Prop} {s : σ}
    (h : P.wp i (t.bind g) Q s) : P.wp i t (fun a => P.wp i (g a) Q) s := by
  induction t generalizing s with
  | ret a => exact fun s' hr hi => wp_stable (g a) Q s s' h hr hi
  | act f k ih =>
    intro s' hr hi b s'' hm
    obtain ⟨hg, hi', hk⟩ := h s' hr hi b s'' hm
    exact ⟨hg, hi', ih b hk⟩
  | iter body j k _ ihk =>
    obtain ⟨J, hst, hj, hbody⟩ := h
    refine ⟨J, hst, hj, fun j s' hi hj => wp_mono ?_ (hbody j s' hi hj)⟩
    rintro (j' | b) s'' hi' h'
    · exact h'
    · exact ihk b h'

/-- One step of a task keeps its precondition and meets its guarantee. -/
theorem wp_step {t t' : Proc σ α} {Q : α → σ → Prop} {s s' : σ} (hrefl : ∀ s, P.guar i s s)
    (hi : P.inv s) (h : P.wp i t Q s) (hstep : (t', s') ∈ t.step s) :
    P.guar i s s' ∧ P.inv s' ∧ P.wp i t' Q s' := by
  cases t with
  | ret a => simp [Proc.step] at hstep
  | act f k =>
    simp only [Proc.step, List.mem_map, Prod.mk.injEq, Prod.exists] at hstep
    obtain ⟨b, s'', hm, rfl, rfl⟩ := hstep
    exact h s (P.rely_refl _ _) hi b s'' hm
  | iter body j k =>
    simp only [Proc.step, List.mem_singleton, Prod.mk.injEq] at hstep
    obtain ⟨rfl, rfl⟩ := hstep
    obtain ⟨J, hst, hj, hbody⟩ := h
    refine ⟨hrefl _, hi, wp_bind hi (wp_mono ?_ (hbody j _ hi hj))⟩
    rintro (j' | b) s'' hi' h'
    · exact ⟨J, hst, h', hbody⟩
    · exact h'

/-- Started where the invariant and `A` hold, every step of `t` meets the
guarantee, and where it ends `B` holds of its result. -/
def Triple (P : Protocol σ) (i : TaskId) (A : σ → Prop) (t : Proc σ α) (B : α → σ → Prop) : Prop :=
  ∀ s, P.inv s → A s → P.wp i t B s

-- ---------------------------------------------------------------------------
-- Rules
-- ---------------------------------------------------------------------------

variable {A A' : σ → Prop} {B B' : α → σ → Prop}

theorem Triple.conseq {t : Proc σ α} (h : P.Triple i A t B) (hA : ∀ s, P.inv s → A' s → A s)
    (hB : ∀ a s, P.inv s → B a s → B' a s) : P.Triple i A' t B' :=
  fun s hi ha => wp_mono hB (h s hi (hA s hi ha))

theorem Triple.post {t : Proc σ α} (h : P.Triple i A t B)
    (hB : ∀ a s, P.inv s → B a s → B' a s) : P.Triple i A t B' :=
  h.conseq (fun _ _ => id) hB

theorem Triple.pre {t : Proc σ α} (h : P.Triple i A t B) (hA : ∀ s, P.inv s → A' s → A s) :
    P.Triple i A' t B :=
  h.conseq hA fun _ _ _ => id

theorem Triple.ret {a : α} (hst : P.Stable i A) (h : ∀ s, P.inv s → A s → B a s) :
    P.Triple i A (.ret a) B :=
  fun s _ ha s' hr hi' => h s' hi' (hst s s' ha hr hi')

theorem Triple.act {f : σ → List (β × σ)} {k : β → Proc σ α} {M : β → σ → Prop}
    (hst : P.Stable i A)
    (hstep : ∀ s b s', P.inv s → A s → (b, s') ∈ f s → P.guar i s s' ∧ P.inv s' ∧ M b s')
    (hk : ∀ b, P.Triple i (M b) (k b) B) : P.Triple i A (.act f k) B := by
  intro s _ ha s' hr hi' b s'' hm
  obtain ⟨hg, hi'', hM⟩ := hstep s' b s'' hi' (hst s s' ha hr hi') hm
  exact ⟨hg, hi'', hk b s'' hi'' hM⟩

theorem Triple.bind {t : Proc σ α} {g : α → Proc σ β} {M : α → σ → Prop} {B : β → σ → Prop}
    (h : P.Triple i A t M) (hg : ∀ a, P.Triple i (M a) (g a) B) : P.Triple i A (t.bind g) B :=
  fun s hi ha => wp_bind hi (wp_mono (fun a s hi h => hg a s hi h) (h s hi ha))

/-- The loop rule: `J` is the invariant of the rounds, `M` what holds on
leaving them. -/
theorem Triple.iter {body : ι → Proc σ (ι ⊕ β)} {k : β → Proc σ α} {J : ι → σ → Prop}
    {M : β → σ → Prop} {j : ι} (hst : ∀ j, P.Stable i (J j))
    (hbody : ∀ j, P.Triple i (J j) (body j) fun
      | .inl j' => J j'
      | .inr b => M b)
    (hk : ∀ b, P.Triple i (M b) (k b) B) : P.Triple i (J j) (.iter body j k) B := by
  intro s _ hj
  refine ⟨J, hst, hj, fun j s' hi hj => wp_mono ?_ (hbody j s' hi hj)⟩
  rintro (j' | b) s'' hi' h'
  · exact h'
  · exact hk b s'' hi' h'

-- ---------------------------------------------------------------------------
-- Systems of tasks
-- ---------------------------------------------------------------------------

/-- A protocol that every task of the system follows: what one task
guarantees the others may rely on, and the outside world keeps to it. -/
structure Sound (P : Protocol σ) (S : System σ E R) : Prop where
  guar_refl : ∀ i s, P.guar i s s
  guar_rely : ∀ i j s s', i ≠ j → P.inv s → P.guar i s s' → P.rely j s s'
  env : ∀ e s s', P.inv s → S.env e s = some s' → P.inv s' ∧ ∀ i, P.rely i s s'
  serve : ∀ i r, P.Triple i (fun _ => True) (S.serve i r) fun _ _ => True

/-- The invariant holds and every task in flight meets its guarantee from
here on. -/
def Safe (P : Protocol σ) (c : Config σ) : Prop :=
  P.inv c.shared ∧ ∀ i t, c.pool i = some t → P.wp i t (fun _ _ => True) c.shared

/-- A step a task guarantees or the outside world makes. -/
def Moves (P : Protocol σ) (S : System σ E R) (s s' : σ) : Prop :=
  (∃ i, P.guar i s s') ∨ ∃ e, S.env e s = some s'

variable {S : System σ E R} {ok : σ → σ → Prop} {c₀ c c' : Config σ}

theorem Sound.step (hS : P.Sound S) (h : P.Safe c) {e : Event E R} (hs : S.step c e = some c') :
    P.Safe c' ∧ P.Moves S c.shared c'.shared := by
  obtain ⟨hi, hpool⟩ := h
  obtain ⟨i, t, t', ht, hm, hp⟩ | ⟨e, he, hp⟩ | ⟨i, r, -, hsh, hp⟩ := System.step_cases hs
  · obtain ⟨hg, hi', hw⟩ := wp_step (hS.guar_refl i) hi (hpool i t ht) hm
    refine ⟨⟨hi', fun j u hu => ?_⟩, .inl ⟨i, hg⟩⟩
    rw [hp] at hu
    by_cases hji : j = i
    · subst hji
      rw [Function.update_self] at hu
      exact Option.some.inj hu ▸ hw
    · rw [Function.update_of_ne hji] at hu
      exact wp_stable u _ _ _ (hpool j u hu) (hS.guar_rely i j _ _ (Ne.symm hji) hi hg) hi'
  · obtain ⟨hi', hr⟩ := hS.env e _ _ hi he
    refine ⟨⟨hi', fun j u hu => ?_⟩, .inr ⟨e, he⟩⟩
    rw [hp] at hu
    exact wp_stable u _ _ _ (hpool j u hu) (hr j) hi'
  · refine ⟨⟨hsh ▸ hi, fun j u hu => ?_⟩, .inl ⟨i, by rw [hsh]; exact hS.guar_refl i _⟩⟩
    rw [hp] at hu
    rw [hsh]
    by_cases hji : j = i
    · subst hji
      rw [Function.update_self] at hu
      exact Option.some.inj hu ▸ hS.serve j r _ hi trivial
    · rw [Function.update_of_ne hji] at hu
      exact hpool j u hu

theorem Sound.safe (hS : P.Sound S) (h₀ : P.Safe c₀) (h : S.Run ok c₀ c) : P.Safe c := by
  induction h with
  | refl => exact h₀
  | step _ hs _ ih => exact (hS.step ih hs).1

/-- An invariant of all runs whose steps satisfy `ok`: it is enough to check
the steps the protocol and the outside world allow. -/
theorem Sound.invariant (hS : P.Sound S) (h₀ : P.Safe c₀) {I : σ → Prop} (hI : I c₀.shared)
    (hstep : ∀ s s', P.inv s → P.inv s' → ok s s' → P.Moves S s s' → I s → I s')
    (h : S.Run ok c₀ c) : I c.shared := by
  induction h with
  | refl => exact hI
  | step hrun hs hok ih =>
    have hsafe := hS.safe h₀ hrun
    obtain ⟨hsafe', hm⟩ := hS.step hsafe hs
    exact hstep _ _ hsafe.1 hsafe'.1 hok hm ih

end Protocol

end Async
