import Immurok.Async.Amid

/-!
# A task beside something it does not see

The course of a task in surroundings that keep an account of their own, such
as what is still to come. The task leaves the account alone. A condition says
in which states its atomic steps are taken.
-/

namespace Async

/-- In which states an atomic step is taken. -/
abbrev Guard (σ : Type) := ∀ β : Type, (σ → List (β × σ)) → σ → Prop

variable {σ γ α β ι : Type} {ok : Guard σ} {R : σ × γ → σ × γ → Prop} {t u u' : Proc σ α}
  {s s' s'' : σ} {c c' c'' : γ}

/-- The step the task comes to is taken in such a state. -/
def Proc.Meets (ok : Guard σ) : Proc σ α → σ → Prop
  | .act f _, s => ok _ f s
  | _, _ => True

/-- `u` is what is left of `t`, started beside `c`, when the state is `s'` and
the account `c'`. -/
inductive Proc.Course (ok : Guard σ) (R : σ × γ → σ × γ → Prop) (t : Proc σ α) (s : σ) (c : γ) :
    Proc σ α → σ → γ → Prop
  | start : Course ok R t s c t s c
  | step {u u' : Proc σ α} {s' s'' : σ} {c' : γ} :
    Course ok R t s c u s' c' → u.Meets ok s' → (u', s'') ∈ u.step s' → Course ok R t s c u' s'' c'
  | other {u : Proc σ α} {s' s'' : σ} {c' c'' : γ} :
    Course ok R t s c u s' c' → R (s', c') (s'', c'') → Course ok R t s c u s'' c''

open Classical in
/-- The task on states with an account. -/
noncomputable def Proc.beside (γ : Type) (ok : Guard σ) : {α : Type} → Proc σ α → Proc (σ × γ) α
  | _, .ret a => .ret a
  | _, .act f k =>
    .act (fun p => if ok _ f p.1 then (f p.1).map fun q => (q.1, q.2, p.2) else [])
      fun b => (k b).beside γ ok
  | _, .iter body i k => .iter (fun i => (body i).beside γ ok) i fun b => (k b).beside γ ok

theorem Proc.beside_bind (t : Proc σ β) (g : β → Proc σ α) :
    (t.bind g).beside γ ok = (t.beside γ ok).bind fun b => (g b).beside γ ok := by
  induction t with
  | ret b => rfl
  | act f k ih => simp only [bind, beside, ih]
  | iter body i k _ ih => simp only [bind, beside, ih]

theorem Proc.beside_step (hok : u.Meets ok s) (hm : (u', s') ∈ u.step s) :
    (u'.beside γ ok, (s', c)) ∈ (u.beside γ ok).step (s, c) := by
  cases u with
  | ret a => cases hm
  | act f k =>
    obtain ⟨⟨b, s₁⟩, hb, he⟩ := List.mem_map.mp hm
    obtain ⟨rfl, rfl⟩ := Prod.mk.inj he
    have hok : ok _ f s := hok
    refine List.mem_map.mpr ⟨(b, s₁, c), ?_, rfl⟩
    simp only [if_pos hok]
    exact List.mem_map.mpr ⟨_, hb, rfl⟩
  | iter body i k =>
    obtain ⟨rfl, rfl⟩ := Prod.mk.inj (List.mem_singleton.mp hm)
    have hresume : (fun r => (resume body k r).beside γ ok) =
        resume (fun i => (body i).beside γ ok) fun b => (k b).beside γ ok := by
      funext r
      cases r <;> rfl
    rw [beside_bind, hresume]
    exact .head _

theorem Proc.Course.amid (h : t.Course ok R s c u s' c') :
    (t.beside γ ok).Amid R (s, c) (u.beside γ ok) (s', c') := by
  induction h with
  | start => exact .start
  | step _ hok hm ih => exact ih.step (beside_step hok hm)
  | other _ hr ih => exact ih.other hr

namespace Beside

variable {P : Protocol (σ × γ)} {i : TaskId} {A : σ × γ → Prop} {B : α → σ × γ → Prop}

theorem bind {t : Proc σ β} {g : β → Proc σ α} {M : β → σ × γ → Prop}
    (h : P.Triple i A (t.beside γ ok) M) (hg : ∀ b, P.Triple i (M b) ((g b).beside γ ok) B) :
    P.Triple i A ((t.bind g).beside γ ok) B := by
  rw [Proc.beside_bind]
  exact h.bind hg

theorem act {f : σ → List (α × σ)} (hA : P.Stable i A) (hB : ∀ a, P.Stable i (B a))
    (h : ∀ s c a s', P.inv (s, c) → ok _ f s → A (s, c) → (a, s') ∈ f s →
      P.guar i (s, c) (s', c) ∧ P.inv (s', c) ∧ B a (s', c)) :
    P.Triple i A ((Proc.act f .ret).beside γ ok) B := by
  refine .act hA (fun ⟨s, c⟩ a ⟨s', c'⟩ hi ha hm => ?_) fun a => .ret (hB a) fun _ _ => id
  split at hm
  next hok =>
    obtain ⟨⟨b, s₁⟩, hb, he⟩ := List.mem_map.mp hm
    cases he
    exact h s c _ _ hi hok ha hb
  next => cases hm

theorem repeatFrom {body : ι → Proc σ (ι ⊕ α)} {J : ι → σ × γ → Prop} {j : ι}
    (hJ : ∀ j, P.Stable i (J j)) (hB : ∀ a, P.Stable i (B a))
    (h : ∀ j, P.Triple i (J j) ((body j).beside γ ok) fun
      | .inl j' => J j'
      | .inr a => B a) : P.Triple i (J j) ((Proc.repeatFrom j body).beside γ ok) B :=
  .iter hJ h fun a => .ret (hB a) fun _ _ => id

end Beside

end Async
