import Immurok.Async.Logic

/-!
# Kinds of code

A kind of code that is closed under composition has a task as soon as it has
its steps. `Every R` is one of them: every step of the code, in whatever
state, satisfies `R`.
-/

namespace Async.Proc

variable {σ α β ι : Type}

structure Closed (K : ∀ {α : Type}, Proc σ α → Prop) : Prop where
  ret : ∀ {α : Type} {a : α}, K (.ret a)
  bind : ∀ {α β : Type} {t : Proc σ β} {g : β → Proc σ α}, K t → (∀ b, K (g b)) → K (t.bind g)
  repeatFrom : ∀ {α ι : Type} {body : ι → Proc σ (ι ⊕ α)} {j : ι}, (∀ j, K (body j)) →
    K (Proc.repeatFrom j body)

namespace Closed

variable {K : ∀ {α : Type}, Proc σ α → Prop}

theorem ite (_h : Closed K) {p : Prop} [Decidable p] {t u : Proc σ α} (ht : K t) (hu : K u) :
    K (if p then t else u) := by
  split
  · exact ht
  · exact hu

theorem when (h : Closed K) {b : Bool} {t : Proc σ Unit} (ht : K t) : K (Proc.when b t) := by
  unfold Proc.when
  split
  · exact ht
  · exact h.ret

theorem loop (h : Closed K) {body : Proc σ (Option α)} (hb : K body) : K (Proc.loop body) :=
  h.repeatFrom fun _ => h.bind hb fun _ => h.ret

end Closed

-- ---------------------------------------------------------------------------
-- Every step
-- ---------------------------------------------------------------------------

/-- Every step of the code satisfies `R`. -/
def Every (R : σ → σ → Prop) : {α : Type} → Proc σ α → Prop
  | _, .ret _ => True
  | _, .act f k => (∀ s a s', (a, s') ∈ f s → R s s') ∧ ∀ a, Every R (k a)
  | _, .iter body _ k => (∀ j, Every R (body j)) ∧ ∀ a, Every R (k a)

namespace Every

variable {R R' : σ → σ → Prop}

theorem ret {a : α} : Every R (.ret a : Proc σ α) := trivial

theorem bind {t : Proc σ β} {g : β → Proc σ α} (h : Every R t) (hg : ∀ b, Every R (g b)) :
    Every R (t.bind g) := by
  induction t with
  | ret a => exact hg a
  | act f k ih => exact ⟨h.1, fun a => ih a (h.2 a) hg⟩
  | iter body j k _ ih => exact ⟨h.1, fun a => ih a (h.2 a) hg⟩

theorem repeatFrom {body : ι → Proc σ (ι ⊕ α)} {j : ι} (h : ∀ j, Every R (body j)) :
    Every R (Proc.repeatFrom j body) :=
  ⟨h, fun _ => trivial⟩

theorem closed : Closed (Every R : ∀ {α : Type}, Proc σ α → Prop) := ⟨ret, bind, repeatFrom⟩

theorem ite {p : Prop} [Decidable p] {t u : Proc σ α} (ht : Every R t) (hu : Every R u) :
    Every R (if p then t else u) := closed.ite ht hu

theorem when {b : Bool} {t : Proc σ Unit} (h : Every R t) : Every R (Proc.when b t) :=
  closed.when h

theorem loop {body : Proc σ (Option α)} (h : Every R body) : Every R (Proc.loop body) :=
  closed.loop h

theorem map {t : Proc σ α} {g : α → β} (h : Every R t) : Every R (g <$> t) := bind h fun _ => ret

theorem act {f : σ → List (α × σ)} (h : ∀ s a s', (a, s') ∈ f s → R s s') :
    Every R (.act f .ret) :=
  ⟨h, fun _ => trivial⟩

theorem atomically {f : σ → α × σ} (h : ∀ s, R s (f s).2) : Every R (Proc.atomically f) :=
  act fun s a s' hm => by
    rw [List.mem_singleton] at hm
    rw [show s' = (f s).2 from congrArg Prod.snd hm]
    exact h s

theorem modify {f : σ → σ} (h : ∀ s, R s (f s)) : Every R (Proc.modify f) :=
  act fun s a s' hm => by
    rw [(Prod.mk.inj (List.mem_singleton.mp hm)).2]
    exact h s

theorem get {f : σ → α} (h : ∀ s, R s s) : Every R (Proc.get f) := atomically h

theorem choose {as : List α} (h : ∀ s, R s s) : Every R (Proc.choose as) :=
  act fun s a s' hm => by
    obtain ⟨_, -, he⟩ := List.mem_map.mp hm
    rw [← (Prod.mk.inj he).2]
    exact h s

theorem await {f : σ → Option (α × σ)} (h : ∀ s a s', f s = some (a, s') → R s s') :
    Every R (Proc.await f) :=
  act fun s a s' hm => h s a s' (Option.mem_toList.mp hm)

theorem select {branches : List (σ → Option (α × σ))}
    (h : ∀ f ∈ branches, ∀ s a s', f s = some (a, s') → R s s') : Every R (Proc.select branches) :=
  act fun s a s' hm => by
    obtain ⟨f, hf, hs⟩ := List.mem_filterMap.mp hm
    exact h f hf s a s' hs

theorem mono {t : Proc σ α} (h : Every R t) (himp : ∀ s s', R s s' → R' s s') : Every R' t := by
  induction t with
  | ret a => trivial
  | act f k ih => exact ⟨fun s a s' hm => himp s s' (h.1 s a s' hm), fun a => ih a (h.2 a)⟩
  | iter body j k ihb ihk => exact ⟨fun j => ihb j (h.1 j), fun a => ihk a (h.2 a)⟩

/-- What each step of the code owes its protocol, it owes as a whole. -/
theorem triple {P : Protocol σ} {i : TaskId} {t : Proc σ α} (h : Every R t)
    (hR : ∀ s s', P.inv s → R s s' → P.guar i s s' ∧ P.inv s') :
    P.Triple i (fun _ => True) t fun _ _ => True := by
  have hst : P.Stable i fun _ => True := fun _ _ _ _ _ => trivial
  induction t with
  | ret a => exact .ret hst fun _ _ => id
  | act f k ih =>
    refine .act (M := fun _ _ => True) hst (fun s a s' hi _ hm => ?_) fun a => ih a (h.2 a)
    obtain ⟨hg, hi'⟩ := hR s s' hi (h.1 s a s' hm)
    exact ⟨hg, hi', trivial⟩
  | iter body j k ihb ihk =>
    refine .iter (J := fun _ _ => True) (M := fun _ _ => True) (fun _ => hst) (fun j => ?_)
      fun a => ihk a (h.2 a)
    refine (ihb j (h.1 j)).post fun r _ _ _ => ?_
    cases r <;> trivial

end Every

end Async.Proc
