import Immurok.Async.Logic

/-!
# A task on its own

A task that nobody interferes with, stopped at any of its steps. What such a
task keeps is an invariant of the states it may be left in.
-/

namespace Async

variable {σ α β : Type} {I A : σ → Prop} {i : TaskId} {t u : Proc σ α} {s s' : σ}

/-- `u` is what is left of `t`, started in `s`, when it is stopped in `s'`. -/
inductive Proc.Stops (t : Proc σ α) (s : σ) : Proc σ α → σ → Prop
  | start : Stops t s t s
  | step {u u' : Proc σ α} {s' s'' : σ} :
    Stops t s u s' → (u', s'') ∈ u.step s' → Stops t s u' s''

/-- Nothing happens to the state between two steps, and `I` holds there. -/
def solo (I : σ → Prop) : Protocol σ where
  inv := I
  rely _ s s' := s = s'
  guar _ _ _ := True
  rely_refl _ _ := rfl
  rely_trans _ _ _ _ := Eq.trans

theorem solo_stable : (solo I).Stable i A := fun _ _ ha he _ => he ▸ ha

theorem Protocol.Triple.stops_wp {B : α → σ → Prop} (h : (solo I).Triple i A t B) (hi : I s)
    (ha : A s) (hs : t.Stops s u s') : I s' ∧ (solo I).wp i u B s' := by
  induction hs with
  | start => exact ⟨hi, h s hi ha⟩
  | step _ hm ih =>
    obtain ⟨-, hi', hw⟩ := Protocol.wp_step (fun _ => trivial) ih.1 ih.2 hm
    exact ⟨hi', hw⟩

/-- Wherever the task is stopped, the invariant holds. -/
theorem Protocol.Triple.stops {B : α → σ → Prop} (h : (solo I).Triple i A t B) (hi : I s)
    (ha : A s) (hs : t.Stops s u s') : I s' :=
  (h.stops_wp hi ha hs).1

theorem Protocol.Triple.returns {B : α → σ → Prop} {a : α} (h : (solo I).Triple i A t B) (hi : I s)
    (ha : A s) (hs : t.Stops s (.ret a) s') : B a s' := by
  obtain ⟨hi', hw⟩ := h.stops_wp hi ha hs
  exact hw s' rfl hi'

namespace Solo

variable {B : α → σ → Prop} {ι : Type}

theorem ret {a : α} (h : ∀ s, A s → B a s) : (solo I).Triple i A (.ret a) B :=
  .ret solo_stable fun s _ => h s

theorem act {f : σ → List (α × σ)}
    (h : ∀ s a s', I s → A s → (a, s') ∈ f s → I s' ∧ B a s') :
    (solo I).Triple i A (.act f .ret) B :=
  .act solo_stable (fun s a s' hi ha hm => ⟨trivial, h s a s' hi ha hm⟩) fun _ => ret fun _ => id

theorem ite {p : Prop} [Decidable p] {t u : Proc σ α} (ht : p → (solo I).Triple i A t B)
    (hu : ¬p → (solo I).Triple i A u B) : (solo I).Triple i A (if p then t else u) B := by
  split
  next h => exact ht h
  next h => exact hu h

theorem repeatFrom {body : ι → Proc σ (ι ⊕ α)} {J : ι → σ → Prop} {j : ι}
    (h : ∀ j, (solo I).Triple i (J j) (body j) fun
      | .inl j' => J j'
      | .inr a => B a) : (solo I).Triple i (J j) (Proc.repeatFrom j body) B :=
  .iter (fun _ => solo_stable) h fun _ => ret fun _ => id

theorem loop {body : Proc σ (Option α)} {J : σ → Prop}
    (h : (solo I).Triple i J body fun r s => r.elim (J s) (B · s)) :
    (solo I).Triple i J (Proc.loop body) B := by
  refine .iter (J := fun _ => J) (fun _ => solo_stable) (fun _ => .bind h fun r => ?_) fun _ =>
    ret fun _ => id
  cases r with
  | none => exact ret fun _ => id
  | some a => exact ret fun _ => id

/-- What does not depend on the state is not touched. -/
theorem const {p : Prop} {t : Proc σ α} :
    (solo fun _ => True).Triple i (fun _ => p) t fun _ _ => p := by
  induction t with
  | ret a => exact ret fun _ => id
  | act f k ih => exact .act solo_stable (fun _ _ _ _ hp _ => ⟨trivial, trivial, hp⟩) ih
  | iter body j k ihb ihk =>
    refine .iter (J := fun _ _ => p) (fun _ => solo_stable) (fun j => ?_) ihk
    exact (ihb j).post fun r s _ hp => by cases r <;> exact hp

end Solo

-- ---------------------------------------------------------------------------
-- Tasks without a choice
-- ---------------------------------------------------------------------------

/-- Each step of the task has one outcome, and the last leaves `a` and `s'`. -/
inductive Proc.Ends : Proc σ α → σ → α → σ → Prop
  | ret {a : α} {s : σ} : Ends (.ret a) s a s
  | act {β : Type} {f : σ → List (β × σ)} {k : β → Proc σ α} {b : β} {a : α} {s s' s'' : σ} :
    f s = [(b, s')] → Ends (k b) s' a s'' → Ends (.act f k) s a s''
  | iter {ι β : Type} {body : ι → Proc σ (ι ⊕ β)} {j : ι} {k : β → Proc σ α} {a : α} {s s' : σ} :
    Ends ((body j).bind (Proc.resume body k)) s a s' → Ends (.iter body j k) s a s'

theorem Proc.Stops.trans {r : Proc σ α} {s'' : σ} (h : t.Stops s u s') (h' : u.Stops s' r s'') :
    t.Stops s r s'' := by
  induction h' with
  | start => exact h
  | step _ hm ih => exact ih.step hm

theorem Proc.Ends.stops {a : α} (h : t.Ends s a s') : t.Stops s (.ret a) s' := by
  induction h with
  | ret => exact .start
  | @act β f k b a s s' s'' hf _ ih =>
    have hm : (k b, s') ∈ (Proc.act f k).step s := by simp [Proc.step, hf]
    exact (Stops.start.step hm).trans ih
  | iter _ ih => exact (Stops.start.step (List.mem_singleton.mpr rfl)).trans ih

/-- What is left of such a task comes to the same end. -/
theorem Proc.Ends.rest {a : α} {s'' : σ} (h : t.Ends s a s'') (hs : t.Stops s u s') :
    u.Ends s' a s'' := by
  induction hs with
  | start => exact h
  | step _ hm ih =>
    cases ih with
    | ret => cases hm
    | act hf hk =>
      simp only [Proc.step, hf, List.map_cons, List.map_nil, List.mem_singleton] at hm
      obtain ⟨rfl, rfl⟩ := Prod.mk.inj hm
      exact hk
    | iter hk =>
      obtain ⟨rfl, rfl⟩ := Prod.mk.inj (List.mem_singleton.mp hm)
      exact hk

theorem Proc.resume_bind {ι γ : Type} {body : ι → Proc σ (ι ⊕ γ)} {k : γ → Proc σ α}
    {g : α → Proc σ β} {r : ι ⊕ γ} :
    (Proc.resume body k r).bind g = Proc.resume body (fun b => (k b).bind g) r := by
  cases r <;> rfl

theorem Proc.Ends.unique {a b : α} {s'' : σ} (h : t.Ends s a s') (hs : t.Stops s (.ret b) s'') :
    b = a ∧ s'' = s' := by
  cases h.rest hs with
  | ret => exact ⟨rfl, rfl⟩

/-- Such a task comes to an end, and `Q` holds there. -/
def Proc.Reaches (t : Proc σ α) (s : σ) (Q : α → σ → Prop) : Prop := ∃ a s', t.Ends s a s' ∧ Q a s'

theorem Proc.Ends.wp {B : α → σ → Prop} {a : α} (h : t.Ends s a s') (hb : B a s') :
    (solo fun _ => True).wp i t B s := by
  induction h with
  | ret => exact fun _ he _ => he ▸ hb
  | act hf _ ih =>
    intro _ he _ b s'' hm
    obtain rfl : _ = _ := he
    rw [hf, List.mem_singleton] at hm
    obtain ⟨rfl, rfl⟩ := Prod.mk.inj hm
    exact ⟨trivial, trivial, ih hb⟩
  | @iter ι β body j k a s s' _ ih =>
    -- what a round with the rest behind it needs is the invariant of the rounds
    refine ⟨fun j s => (solo fun _ => True).wp i ((body j).bind (Proc.resume body k)) B s,
      fun _ => solo_stable, ih hb, fun j s hi hj => ?_⟩
    refine Protocol.wp_mono ?_ (Protocol.wp_of_bind hj)
    rintro (j' | b) s hi h
    · obtain ⟨J, -, hj, hbody⟩ := h
      refine Protocol.wp_bind hi (Protocol.wp_mono ?_ (hbody j' s hi hj))
      rintro (j'' | b) s hi h
      · exact ⟨J, fun _ => solo_stable, h, hbody⟩
      · exact h
    · exact h

/-- What is reached wherever it is begun holds wherever it ends. -/
theorem Solo.of_reaches {B : α → σ → Prop} (h : ∀ s, A s → t.Reaches s B) :
    (solo fun _ => True).Triple i A t B := fun s _ ha => by
  obtain ⟨a, s', he, hb⟩ := h s ha
  exact he.wp hb

namespace Proc.Reaches

variable {Q : α → σ → Prop}

theorem ret {a : α} (h : Q a s) : (Proc.ret a).Reaches s Q := ⟨a, s, .ret, h⟩

theorem act {f : σ → List (β × σ)} {k : β → Proc σ α} {b : β} (hf : f s = [(b, s')])
    (h : (k b).Reaches s' Q) : (Proc.act f k).Reaches s Q := by
  obtain ⟨a, s'', he, hq⟩ := h
  exact ⟨a, s'', .act hf he, hq⟩

theorem get {f : σ → α} (h : Q (f s) s) : (Proc.get f).Reaches s Q := act rfl (ret h)

theorem modify {f : σ → σ} {Q : Unit → σ → Prop} (h : Q () (f s)) : (Proc.modify f).Reaches s Q :=
  act rfl (ret h)

theorem atomically {f : σ → α × σ} (h : Q (f s).1 (f s).2) : (Proc.atomically f).Reaches s Q :=
  act rfl (ret h)

theorem mono {R : α → σ → Prop} (h : t.Reaches s R) (hr : ∀ a s', R a s' → Q a s') :
    t.Reaches s Q := by
  obtain ⟨a, s', he, h⟩ := h
  exact ⟨a, s', he, hr a s' h⟩

/-- There is only one end. -/
theorem and {R : α → σ → Prop} (h : t.Reaches s Q) (h' : t.Reaches s R) :
    t.Reaches s fun a s' => Q a s' ∧ R a s' := by
  obtain ⟨a, s', he, hq⟩ := h
  obtain ⟨b, s'', he', hr⟩ := h'
  obtain ⟨rfl, rfl⟩ := he.unique he'.stops
  exact ⟨_, _, he', hq, hr⟩

theorem bind {Q : β → σ → Prop} {R : α → σ → Prop} {g : α → Proc σ β} (h : t.Reaches s R)
    (hg : ∀ a s', R a s' → (g a).Reaches s' Q) : (t.bind g).Reaches s Q := by
  obtain ⟨a, s', he, hr⟩ := h
  induction he with
  | ret => exact hg _ _ hr
  | act hf _ ih => exact .act hf (ih hr)
  | iter _ ih =>
    obtain ⟨b, s'', he, hq⟩ := ih hr
    simp only [Proc.bind_bind, Proc.resume_bind] at he
    exact ⟨b, s'', .iter he, hq⟩

/-- A loop whose rounds bring a number down comes to its end. -/
theorem rounds {ι : Type} {body : ι → Proc σ (ι ⊕ α)} {J : ι → σ → Prop} (m : ι → σ → Nat)
    (h : ∀ j s, J j s → (body j).Reaches s fun r s' =>
      r.elim (fun j' => J j' s' ∧ m j' s' < m j s) (Q · s')) {j : ι} (hj : J j s) :
    (Proc.repeatFrom j body).Reaches s Q := by
  induction hn : m j s using Nat.strongRecOn generalizing j s with
  | ind n ih =>
    have hround : ((body j).bind (Proc.resume body .ret)).Reaches s Q := by
      refine bind (h j s hj) fun r s' hr => ?_
      cases r with
      | inl j' => exact ih (m j' s') (hn ▸ hr.2) hr.1 rfl
      | inr a => exact ret hr
    obtain ⟨a, s', he, hq⟩ := hround
    exact ⟨a, s', .iter he, hq⟩

/-- A number of the loop variable. -/
theorem repeatFrom {ι : Type} {body : ι → Proc σ (ι ⊕ α)} {J : ι → σ → Prop} (m : ι → Nat)
    (h : ∀ j s, J j s → (body j).Reaches s fun r s' =>
      r.elim (fun j' => J j' s' ∧ m j' < m j) (Q · s')) {j : ι} (hj : J j s) :
    (Proc.repeatFrom j body).Reaches s Q := rounds (fun j _ => m j) h hj

/-- A number of the state. -/
theorem loop {body : Proc σ (Option α)} {J : σ → Prop} (m : σ → Nat)
    (h : ∀ s, J s → body.Reaches s fun r s' => r.elim (J s' ∧ m s' < m s) (Q · s')) (hj : J s) :
    (Proc.loop body).Reaches s Q := by
  refine rounds (J := fun _ => J) (fun _ => m) (fun _ s hj => bind (h s hj) fun r s' hr => ?_) hj
  cases r with
  | none => exact ret hr
  | some a => exact ret hr

/-- All its runs end there. -/
theorem forall_iff {P : σ → Prop} {p : Prop} (h : t.Reaches s fun _ s' => P s' ↔ p) :
    (∀ a s', t.Stops s (.ret a) s' → P s') ↔ p := by
  obtain ⟨a, s', he, hp⟩ := h
  refine ⟨fun h => hp.mp (h a s' he.stops), fun h b s'' hs => ?_⟩
  obtain ⟨-, rfl⟩ := he.unique hs
  exact hp.mpr h

end Proc.Reaches

-- ---------------------------------------------------------------------------
-- Runs
-- ---------------------------------------------------------------------------

/-- Takes the outcomes with these numbers, one a step. -/
def Proc.follow : List Nat → Proc σ α → σ → Option (Proc σ α × σ)
  | [], t, s => some (t, s)
  | n :: ns, t, s => (t.step s)[n]?.bind fun p => Proc.follow ns p.1 p.2

theorem Proc.Stops.of_follow {ns : List Nat} {r : Proc σ α} {s₀ : σ} (h : r.Stops s₀ t s)
    (hf : Proc.follow ns t s = some (u, s')) : r.Stops s₀ u s' := by
  induction ns generalizing t s with
  | nil =>
    cases Option.some.inj hf
    exact h
  | cons n ns ih =>
    obtain ⟨p, hp, hf⟩ := Option.bind_eq_some_iff.mp hf
    exact ih (h.step (List.mem_of_getElem? hp)) hf

/-- What is seen at the end of a task that has come to it. -/
def Proc.returned (p : α → σ → Bool) : Proc σ α × σ → Bool
  | (.ret a, s) => p a s
  | _ => false

theorem Proc.Stops.of_any {p : Proc σ α × σ → Bool} (ns : List Nat)
    (h : (Proc.follow ns t s).any p = true) : ∃ u s', t.Stops s u s' ∧ p (u, s') = true := by
  obtain ⟨⟨u, s'⟩, hu, hp⟩ := (Option.any_eq_true _ _).mp h
  exact ⟨u, s', .of_follow .start hu, hp⟩

theorem Proc.Stops.of_returned {p : α → σ → Bool} (ns : List Nat)
    (h : (Proc.follow ns t s).any (Proc.returned p) = true) :
    ∃ a s', t.Stops s (.ret a) s' ∧ p a s' = true := by
  obtain ⟨u, s', hs, hp⟩ := Stops.of_any ns h
  cases u with
  | ret a => exact ⟨a, s', hs, hp⟩
  | act => cases hp
  | iter => cases hp

/-- A run carried out shows the end. -/
theorem Proc.Reaches.follow {p : α → σ → Bool} {Q : α → σ → Prop} (ns : List Nat)
    (h : t.Reaches s Q) (hf : (Proc.follow ns t s).any (Proc.returned p) = true) :
    t.Reaches s fun a s' => Q a s' ∧ p a s' = true := by
  obtain ⟨a, s', he, hq⟩ := h
  obtain ⟨b, s'', hs, hp⟩ := Stops.of_returned ns hf
  obtain ⟨rfl, rfl⟩ := he.unique hs
  exact ⟨_, _, he, hq, hp⟩

end Async
