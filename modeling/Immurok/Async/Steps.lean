import Immurok.Async.Closed

/-!
# The steps a task takes

A task in surroundings that may do anything to the state between two of its
steps, and the list of the steps it has taken. Triples about the list alone
say what the task does whatever the others do.
-/

namespace Async

variable {σ α β ι : Type}

/-- `t` may take the steps `l`, each in any state, and leave `u`. -/
inductive Proc.Takes (t : Proc σ α) : List (σ × σ) → Proc σ α → Prop
  | start : Takes t [] t
  | act {γ : Type} {f : σ → List (γ × σ)} {k : γ → Proc σ α} {l : List (σ × σ)} {b : γ}
    {s s' : σ} :
    Takes t l (.act f k) → (b, s') ∈ f s → Takes t (l ++ [(s, s')]) (k b)
  | iter {γ κ : Type} {body : κ → Proc σ (κ ⊕ γ)} {j : κ} {k : γ → Proc σ α} {l : List (σ × σ)} :
    Takes t l (.iter body j k) → Takes t l ((body j).bind (resume body k))

/-- Takes the outcomes with these numbers, each in the state it stands with. -/
def Proc.takeAll : List (σ × Nat) → Proc σ α → List (σ × σ) → Option (List (σ × σ) × Proc σ α)
  | [], t, l => some (l, t)
  | _ :: _, .ret _, _ => none
  | (s, n) :: ns, .act f k, l =>
    (f s)[n]?.bind fun p => Proc.takeAll ns (k p.1) (l ++ [(s, p.2)])
  | _ :: ns, .iter body j k, l => Proc.takeAll ns ((body j).bind (resume body k)) l

/-- What `t` needs of the steps before it for `Q` of those up to its end, and
for `I` of those up to any of its own. -/
def Proc.traced (I : List (σ × σ) → Prop) :
    {α : Type} → Proc σ α → (α → List (σ × σ) → Prop) → List (σ × σ) → Prop
  | _, .ret a, Q, l => Q a l
  | _, .act f k, Q, l => ∀ s b s', (b, s') ∈ f s →
      I (l ++ [(s, s')]) ∧ (k b).traced I Q (l ++ [(s, s')])
  | _, .iter body j k, Q, l => ∃ J : _ → List (σ × σ) → Prop, J j l ∧
      ∀ j l, J j l → (body j).traced I (fun
        | .inl j' => J j'
        | .inr b => (k b).traced I Q) l

/-- Begun after steps with `A`, the steps up to the end of `t` have `B`, and
`I` holds on the way. -/
def Proc.Traces (I A : List (σ × σ) → Prop) (t : Proc σ α) (B : α → List (σ × σ) → Prop) : Prop :=
  ∀ l, A l → t.traced I B l

namespace Proc

variable {I A A' : List (σ × σ) → Prop} {B B' : α → List (σ × σ) → Prop} {t u : Proc σ α}
  {l l' : List (σ × σ)}

theorem traced_mono (himp : ∀ a l, B a l → B' a l) (h : t.traced I B l) : t.traced I B' l := by
  induction t generalizing l with
  | ret a => exact himp a l h
  | act f k ih => exact fun s b s' hm => (h s b s' hm).imp_right (ih b himp)
  | iter body j k ihb ihk =>
    obtain ⟨J, hj, hbody⟩ := h
    refine ⟨J, hj, fun j l hj => ihb j ?_ (hbody j l hj)⟩
    rintro (j' | b) l h
    · exact h
    · exact ihk b himp h

theorem traced_bind {t : Proc σ β} {g : β → Proc σ α}
    (h : t.traced I (fun b => (g b).traced I B) l) : (t.bind g).traced I B l := by
  induction t generalizing l with
  | ret b => exact h
  | act f k ih => exact fun s b s' hm => (h s b s' hm).imp_right (ih b)
  | iter body j k _ ihk =>
    obtain ⟨J, hj, hbody⟩ := h
    refine ⟨J, hj, fun j l hj => traced_mono ?_ (hbody j l hj)⟩
    rintro (j' | b) l h
    · exact h
    · exact ihk b h

theorem Takes.of_takeAll {ns : List (σ × Nat)} {t₀ : Proc σ α} (h : t₀.Takes l t)
    (ht : Proc.takeAll ns t l = some (l', u)) : t₀.Takes l' u := by
  induction ns generalizing t l with
  | nil =>
    cases Option.some.inj ht
    exact h
  | cons n ns ih =>
    cases t with
    | ret a => cases ht
    | act f k =>
      obtain ⟨p, hp, ht⟩ := Option.bind_eq_some_iff.mp ht
      exact ih (h.act (List.mem_of_getElem? hp)) ht
    | iter body j k => exact ih h.iter ht

/-- Steps carried out. -/
theorem Takes.of_any {p : List (σ × σ) × Proc σ α → Bool} (ns : List (σ × Nat))
    (h : (Proc.takeAll ns t []).any p = true) : ∃ l u, t.Takes l u ∧ p (l, u) = true := by
  obtain ⟨⟨l, u⟩, hu, hp⟩ := (Option.any_eq_true _ _).mp h
  exact ⟨l, u, .of_takeAll .start hu, hp⟩

/-- Steps carried out to the end. -/
theorem Takes.of_returned {p : α → List (σ × σ) → Bool} (ns : List (σ × Nat))
    (h : (Proc.takeAll ns t []).any (fun r => match r.2 with
      | .ret a => p a r.1
      | _ => false) = true) : ∃ l a, t.Takes l (.ret a) ∧ p a l = true := by
  obtain ⟨l, u, ht, hp⟩ := Takes.of_any ns h
  cases u with
  | ret a => exact ⟨l, a, ht, hp⟩
  | act => cases hp
  | iter => cases hp

/-- So it is of every way to the end, and of every way there is to go. -/
theorem Takes.traced (ht : t.Takes l u) (hi : I []) (h : t.traced I B []) :
    I l ∧ u.traced I B l := by
  induction ht with
  | start => exact ⟨hi, h⟩
  | act _ hm ih => exact ih.2 _ _ _ hm
  | iter _ ih =>
    obtain ⟨hi, J, hj, hbody⟩ := ih
    refine ⟨hi, traced_bind (traced_mono ?_ (hbody _ _ hj))⟩
    rintro (j' | b) l h
    · exact ⟨J, h, hbody⟩
    · exact h

namespace Traces

theorem pre (h : Traces I A t B) (hA : ∀ l, A' l → A l) : Traces I A' t B :=
  fun l ha => h l (hA l ha)

theorem post (h : Traces I A t B) (hB : ∀ a l, B a l → B' a l) : Traces I A t B' :=
  fun l ha => traced_mono hB (h l ha)

theorem ret {a : α} (h : ∀ l, A l → B a l) : Traces I A (.ret a) B := h

theorem bind {t : Proc σ β} {g : β → Proc σ α} {M : β → List (σ × σ) → Prop}
    (h : Traces I A t M) (hg : ∀ b, Traces I (M b) (g b) B) : Traces I A (t.bind g) B :=
  fun l ha => traced_bind (traced_mono (fun b l => hg b l) (h l ha))

theorem act {f : σ → List (α × σ)} (h : ∀ l s a s', A l → (a, s') ∈ f s →
    I (l ++ [(s, s')]) ∧ B a (l ++ [(s, s')])) : Traces I A (.act f .ret) B :=
  fun l ha s a s' hm => h l s a s' ha hm

theorem select {branches : List (σ → Option (α × σ))} (h : ∀ f ∈ branches, ∀ l s a s', A l →
    f s = some (a, s') → I (l ++ [(s, s')]) ∧ B a (l ++ [(s, s')])) :
    Traces I A (Proc.select branches) B :=
  act fun l s a s' ha hm => by
    obtain ⟨f, hf, hs⟩ := List.mem_filterMap.mp hm
    exact h f hf l s a s' ha hs

theorem ite {p : Prop} [Decidable p] {t u : Proc σ α} (ht : p → Traces I A t B)
    (hu : ¬p → Traces I A u B) : Traces I A (if p then t else u) B := by
  split
  next h => exact ht h
  next h => exact hu h

/-- What is known apart from the steps. -/
theorem known {p : Prop} (h : p → Traces I A t B) : Traces I (fun l => A l ∧ p) t B :=
  fun l ⟨ha, hp⟩ => h hp l ha

theorem repeatFrom {body : ι → Proc σ (ι ⊕ α)} {J : ι → List (σ × σ) → Prop} {j : ι}
    (h : ∀ j, Traces I (J j) (body j) fun r l => r.elim (J · l) (B · l)) :
    Traces I (J j) (Proc.repeatFrom j body) B := fun l hj =>
  ⟨J, hj, fun j l hj => traced_mono (fun r l hr => by cases r <;> exact hr) (h j l hj)⟩

theorem loop {body : Proc σ (Option α)} (h : Traces I A body fun r l => r.elim (A l) (B · l)) :
    Traces I A (Proc.loop body) B :=
  repeatFrom (J := fun _ => A) fun _ => bind h fun r => by
    cases r with
    | none => exact ret fun _ => id
    | some a => exact ret fun _ => id

/-- Code whose steps each keep `A`. -/
theorem of_every {R : σ → σ → Prop} (h : Every R t)
    (hA : ∀ l s s', A l → R s s' → I (l ++ [(s, s')]) ∧ A (l ++ [(s, s')])) :
    Traces I A t fun _ => A := by
  induction t with
  | ret a => exact ret fun _ => id
  | act f k ih =>
    intro l ha s b s' hm
    obtain ⟨hi, ha'⟩ := hA l s s' ha (h.1 s b s' hm)
    exact ⟨hi, ih b (h.2 b) _ ha'⟩
  | iter body j k ihb ihk =>
    refine fun l ha => ⟨fun _ => A, ha, fun j l ha => traced_mono ?_ (ihb j (h.1 j) l ha)⟩
    rintro (j' | b) l ha
    · exact ha
    · exact ihk b (h.2 b) l ha

/-- Nothing is said of the steps of any code. -/
theorem any : Traces (fun _ => True) A t fun _ _ => True := by
  refine pre (A := fun _ => True) ?_ fun _ _ => trivial
  induction t with
  | ret a => exact ret fun _ => id
  | act f k ih => exact fun l _ s b s' _ => ⟨trivial, ih b _ trivial⟩
  | iter body j k ihb ihk =>
    refine fun l _ => ⟨fun _ _ => True, trivial, fun j l _ => traced_mono ?_ (ihb j l trivial)⟩
    rintro (j' | b) l _
    · trivial
    · exact ihk b l trivial

end Traces

-- ---------------------------------------------------------------------------
-- Rounds
-- ---------------------------------------------------------------------------

/-- The rounds of a loop: after the steps `l` it is at `j`. -/
inductive Rounds (body : ι → Proc σ (ι ⊕ α)) (first : ι) : List (σ × σ) → ι → Prop
  | first : Rounds body first [] first
  | next {l l' : List (σ × σ)} {j j' : ι} : Rounds body first l j →
    (body j).Takes l' (.ret (.inl j')) → Rounds body first (l ++ l') j'

/-- What the rounds keep. -/
theorem Rounds.invariant {body : ι → Proc σ (ι ⊕ α)} {J : ι → List (σ × σ) → Prop} {first j : ι}
    (h : Rounds body first l j) (h0 : J first [])
    (hstep : ∀ j l, J j l → Traces (fun _ => True) (· = []) (body j) fun r l' =>
      ∀ j', r = .inl j' → J j' (l ++ l')) : J j l := by
  induction h with
  | first => exact h0
  | @next l l' j j' _ ht ih => exact (ht.traced trivial (hstep j l ih [] rfl)).2 j' rfl

end Proc

end Async
