import Immurok.Async.Closed

/-!
# An aspect of the state

What one task alone changes of the state. Between two steps of the task it
stays as it is, so triples about it need no side conditions on what the others
do.
-/

namespace Async

variable {σ W α β ι : Type} {P : Protocol σ} {i : TaskId}

/-- An aspect that only task `i` changes. -/
structure Aspect (P : Protocol σ) (i : TaskId) (W : Type) where
  of : σ → W
  keep : ∀ s s', P.rely i s s' → of s' = of s

namespace Aspect

variable {w : Aspect P i W} {A A' : W → Prop} {B B' : α → W → Prop}

theorem stable (w : Aspect P i W) (A : W → Prop) : P.Stable i fun s => A (w.of s) := by
  intro s s' ha hr _
  rwa [w.keep s s' hr]

/-- A triple about the aspect. -/
def Triple (w : Aspect P i W) (A : W → Prop) (t : Proc σ α) (B : α → W → Prop) : Prop :=
  P.Triple i (fun s => A (w.of s)) t fun a s => B a (w.of s)

namespace Triple

theorem pre {t : Proc σ α} (h : w.Triple A t B) (hA : ∀ x, A' x → A x) : w.Triple A' t B :=
  Protocol.Triple.pre h fun s _ => hA (w.of s)

theorem post {t : Proc σ α} (h : w.Triple A t B) (hB : ∀ a x, B a x → B' a x) :
    w.Triple A t B' :=
  Protocol.Triple.post h fun a s _ => hB a (w.of s)

theorem ret {a : α} (h : ∀ x, A x → B a x) : w.Triple A (.ret a) B :=
  Protocol.Triple.ret (w.stable A) fun s _ => h (w.of s)

theorem bind {t : Proc σ β} {g : β → Proc σ α} {M : β → W → Prop} (h : w.Triple A t M)
    (hg : ∀ b, w.Triple (M b) (g b) B) : w.Triple A (t.bind g) B :=
  Protocol.Triple.bind h hg

theorem act {f : σ → List (α × σ)} (h : ∀ s a s', P.inv s → A (w.of s) → (a, s') ∈ f s →
    P.guar i s s' ∧ P.inv s' ∧ B a (w.of s')) : w.Triple A (.act f .ret) B :=
  Protocol.Triple.act (M := fun a s => B a (w.of s)) (w.stable A) h fun _ => ret fun _ => id

theorem atomically {g : σ → α × σ} (h : ∀ s, P.inv s → A (w.of s) →
    P.guar i s (g s).2 ∧ P.inv (g s).2 ∧ B (g s).1 (w.of (g s).2)) :
    w.Triple A (Proc.atomically g) B :=
  act fun s a s' hi ha hm => by
    obtain ⟨rfl, rfl⟩ := Prod.mk.inj (List.mem_singleton.mp hm)
    exact h s hi ha

theorem modify {g : σ → σ} {B : Unit → W → Prop} (h : ∀ s, P.inv s → A (w.of s) →
    P.guar i s (g s) ∧ P.inv (g s) ∧ B () (w.of (g s))) : w.Triple A (Proc.modify g) B :=
  act fun s _ s' hi ha hm => by
    obtain ⟨-, rfl⟩ := Prod.mk.inj (List.mem_singleton.mp hm)
    exact h s hi ha

theorem get {g : σ → α} (hrefl : ∀ s, P.guar i s s) (h : ∀ s, A (w.of s) → B (g s) (w.of s)) :
    w.Triple A (Proc.get g) B :=
  atomically fun s hi ha => ⟨hrefl s, hi, h s ha⟩

theorem ite {q : Prop} [Decidable q] {t u : Proc σ α} (ht : q → w.Triple A t B)
    (hu : ¬q → w.Triple A u B) : w.Triple A (if q then t else u) B := by
  split
  next h => exact ht h
  next h => exact hu h

theorem when {b : Bool} {t : Proc σ Unit} {B : Unit → W → Prop} (ht : b = true → w.Triple A t B)
    (hu : b = false → ∀ x, A x → B () x) : w.Triple A (Proc.when b t) B := by
  unfold Proc.when
  split
  next h => exact ht h
  next h => exact ret (hu (by simpa using h))

/-- What is known apart from the state. -/
theorem known {q : Prop} {t : Proc σ α} (h : q → w.Triple A t B) :
    w.Triple (fun x => A x ∧ q) t B :=
  fun s hi ⟨ha, hq⟩ => h hq s hi ha

theorem repeatFrom {body : ι → Proc σ (ι ⊕ α)} {J : ι → W → Prop} {j : ι}
    (h : ∀ j, w.Triple (J j) (body j) fun r x => r.elim (J · x) (B · x)) :
    w.Triple (J j) (Proc.repeatFrom j body) B :=
  Protocol.Triple.iter (J := fun j s => J j (w.of s)) (M := fun a s => B a (w.of s))
    (fun j => w.stable (J j))
    (fun j => Protocol.Triple.post (h j) fun r _ _ hr => by cases r <;> exact hr)
    fun _ => ret fun _ => id

theorem loop {body : Proc σ (Option α)} (h : w.Triple A body fun r x => r.elim (A x) (B · x)) :
    w.Triple A (Proc.loop body) B :=
  repeatFrom (J := fun _ => A) fun _ => bind h fun r => by
    cases r with
    | none => exact ret fun _ => id
    | some a => exact ret fun _ => id

/-- Code whose steps leave the aspect alone. -/
theorem of_every {R : σ → σ → Prop} {t : Proc σ α} (h : Proc.Every R t)
    (hR : ∀ s s', P.inv s → R s s' → P.guar i s s' ∧ P.inv s' ∧ w.of s' = w.of s) :
    w.Triple A t fun _ => A := by
  induction t with
  | ret a => exact ret fun _ => id
  | act f k ih =>
    refine Protocol.Triple.act (M := fun _ s => A (w.of s)) (w.stable A)
      (fun s a s' hi ha hm => ?_) fun a => ih a (h.2 a)
    obtain ⟨hg, hi', hw⟩ := hR s s' hi (h.1 s a s' hm)
    exact ⟨hg, hi', hw ▸ ha⟩
  | iter body j k ihb ihk =>
    refine Protocol.Triple.iter (J := fun _ s => A (w.of s)) (M := fun _ s => A (w.of s))
      (fun _ => w.stable A) (fun j => ?_) fun a => ihk a (h.2 a)
    exact Protocol.Triple.post (ihb j (h.1 j)) fun r _ _ ha => by cases r <;> exact ha

end Triple

end Aspect

end Async
