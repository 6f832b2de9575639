import Immurok.Async.Solo

/-!
# A task among others

The course of one task while its surroundings change the state between its
steps, as far as a relation allows. What a triple says of the task holds at
every point of such a course, and of every step it makes from there.
-/

namespace Async

variable {σ α β : Type} {P : Protocol σ} {R : σ → σ → Prop} {A : σ → Prop} {B : α → σ → Prop}
  {i : TaskId} {t u u' : Proc σ α} {s s' s'' : σ}

/-- `u` is what is left of `t`, started in `s`, when the state is `s'`. -/
inductive Proc.Amid (R : σ → σ → Prop) (t : Proc σ α) (s : σ) : Proc σ α → σ → Prop
  | start : Amid R t s t s
  | step {u u' : Proc σ α} {s' s'' : σ} :
    Amid R t s u s' → (u', s'') ∈ u.step s' → Amid R t s u' s''
  | other {u : Proc σ α} {s' s'' : σ} : Amid R t s u s' → R s' s'' → Amid R t s u s''

theorem Proc.Stops.amid (h : t.Stops s u s') : t.Amid R s u s' := by
  induction h with
  | start => exact .start
  | step _ hm ih => exact ih.step hm

namespace Protocol

/-- What the others may do to the state of task `i`. -/
def Others (P : Protocol σ) (i : TaskId) (s s' : σ) : Prop := P.rely i s s' ∧ P.inv s'

theorem Triple.amid (h : P.Triple i A t B) (hrefl : ∀ s, P.guar i s s)
    (hR : ∀ s s', P.inv s → R s s' → P.Others i s s') (hi : P.inv s) (ha : A s)
    (hs : t.Amid R s u s') : P.inv s' ∧ P.wp i u B s' := by
  induction hs with
  | start => exact ⟨hi, h s hi ha⟩
  | step _ hm ih => exact (wp_step hrefl ih.1 ih.2 hm).2
  | other _ hr ih =>
    obtain ⟨hr, hi'⟩ := hR _ _ ih.1 hr
    exact ⟨hi', wp_stable _ _ _ _ ih.2 hr hi'⟩

/-- Every step of the task meets its guarantee. -/
theorem Triple.guards (h : P.Triple i A t B) (hrefl : ∀ s, P.guar i s s) (hi : P.inv s) (ha : A s)
    (hs : t.Amid (P.Others i) s u s') (hm : (u', s'') ∈ u.step s') : P.guar i s' s'' := by
  obtain ⟨hi', hw⟩ := h.amid hrefl (fun _ _ _ => id) hi ha hs
  exact (wp_step hrefl hi' hw hm).1

end Protocol

-- ---------------------------------------------------------------------------
-- Steps to come
-- ---------------------------------------------------------------------------

/-- The task on its own may come to a step that `G` holds of. -/
def Proc.MayTake (G : σ → σ → Prop) (t : Proc σ α) (s : σ) : Prop :=
  ∃ u s' u' s'', t.Stops s u s' ∧ (u', s'') ∈ u.step s' ∧ G s' s''

namespace Proc.MayTake

variable {G : σ → σ → Prop} {f : σ → List (β × σ)} {k : β → Proc σ α} {b : β}

theorem after (h : t.Stops s u s') (hu : u.MayTake G s') : t.MayTake G s := by
  obtain ⟨v, s₁, v', s₂, hs, hm, hg⟩ := hu
  exact ⟨v, s₁, v', s₂, h.trans hs, hm, hg⟩

theorem here (hm : (b, s') ∈ f s) (hg : G s s') : (Proc.act f k).MayTake G s :=
  ⟨_, s, k b, s', .start, List.mem_map.mpr ⟨_, hm, rfl⟩, hg⟩

theorem next (hm : (b, s') ∈ f s) (h : (k b).MayTake G s') : (Proc.act f k).MayTake G s :=
  after (Proc.Stops.start.step (List.mem_map.mpr ⟨_, hm, rfl⟩)) h

theorem get {g : σ → β} (h : (k (g s)).MayTake G s) : ((Proc.get g).bind k).MayTake G s :=
  next (List.mem_singleton.mpr rfl) h

theorem modify {g : σ → σ} {k : Unit → Proc σ α} (h : (k ()).MayTake G (g s)) :
    ((Proc.modify g).bind k).MayTake G s :=
  next (List.mem_singleton.mpr rfl) h

theorem atomically {g : σ → β × σ} (h : (k (g s).1).MayTake G (g s).2) :
    ((Proc.atomically g).bind k).MayTake G s :=
  next (List.mem_singleton.mpr rfl) h

theorem now {g : σ → β × σ} (hg : G s (g s).2) : ((Proc.atomically g).bind k).MayTake G s :=
  here (List.mem_singleton.mpr rfl) hg

end Proc.MayTake

end Async
