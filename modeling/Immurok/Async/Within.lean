import Immurok.Async.Closed

/-!
# Runs that keep to a relation

A run whose steps all satisfy a relation is a run of the system in which the
tasks and the outside world take no other steps. What a task does in such a
run is then a triple about the task without them.
-/

namespace Async

open Classical

variable {σ E R α β ι : Type} {ok : σ → σ → Prop}

/-- The task without the steps that do not satisfy `ok`. -/
noncomputable def Proc.within (ok : σ → σ → Prop) : {α : Type} → Proc σ α → Proc σ α
  | _, .ret a => .ret a
  | _, .act f k => .act (fun s => (f s).filter fun p => decide (ok s p.2)) fun b => (k b).within ok
  | _, .iter body i k => .iter (fun i => (body i).within ok) i fun b => (k b).within ok

noncomputable def System.within (S : System σ E R) (ok : σ → σ → Prop) : System σ E R where
  env e s := (S.env e s).filter fun s' => decide (ok s s')
  serve i r := (S.serve i r).within ok

noncomputable def Config.within (ok : σ → σ → Prop) (c : Config σ) : Config σ where
  shared := c.shared
  pool i := (c.pool i).map (Proc.within ok)

-- ---------------------------------------------------------------------------
-- Tasks
-- ---------------------------------------------------------------------------

theorem Proc.within_bind (t : Proc σ β) (g : β → Proc σ α) :
    (t.bind g).within ok = (t.within ok).bind fun b => (g b).within ok := by
  induction t with
  | ret b => rfl
  | act f k ih => simp only [bind, within, ih]
  | iter body i k _ ih => simp only [bind, within, ih]

theorem Proc.within_step {u u' : Proc σ α} {s s' : σ} (hok : ok s s')
    (hm : (u', s') ∈ u.step s) : (u'.within ok, s') ∈ (u.within ok).step s := by
  cases u with
  | ret a => cases hm
  | act f k =>
    obtain ⟨⟨b, s₁⟩, hb, he⟩ := List.mem_map.mp hm
    obtain ⟨rfl, rfl⟩ := Prod.mk.inj he
    refine List.mem_map.mpr ⟨(b, s₁), ?_, rfl⟩
    exact List.mem_filter.mpr ⟨hb, decide_eq_true hok⟩
  | iter body i k =>
    obtain ⟨rfl, rfl⟩ := Prod.mk.inj (List.mem_singleton.mp hm)
    have hresume : (fun r => (resume body k r).within ok) =
        resume (fun i => (body i).within ok) fun b => (k b).within ok := by
      funext r
      cases r <;> rfl
    rw [within_bind, hresume]
    exact .head _

-- ---------------------------------------------------------------------------
-- Triples
-- ---------------------------------------------------------------------------

namespace Protocol

variable {P : Protocol σ} {i : TaskId} {A : σ → Prop} {B : α → σ → Prop}

theorem Triple.within_bind {t : Proc σ β} {g : β → Proc σ α} {M : β → σ → Prop}
    (h : P.Triple i A (t.within ok) M) (hg : ∀ b, P.Triple i (M b) ((g b).within ok) B) :
    P.Triple i A ((t.bind g).within ok) B := by
  rw [Proc.within_bind]
  exact h.bind hg

end Protocol

/-- Where each step that satisfies `ok` keeps `A` and what the code owes its
protocol, the code as a whole does. -/
theorem Proc.Every.keeps {P : Protocol σ} {i : TaskId} {R : σ → σ → Prop} {A : σ → Prop}
    {t : Proc σ α} (h : Every R t) (hA : P.Stable i A)
    (hR : ∀ s s', P.inv s → ok s s' → A s → R s s' → P.guar i s s' ∧ P.inv s' ∧ A s') :
    P.Triple i A (t.within ok) fun _ => A := by
  induction t with
  | ret a => exact .ret hA fun _ _ => id
  | act f k ih =>
    refine .act (M := fun _ => A) hA (fun s a s' hi ha hm => ?_) fun a => ih a (h.2 a)
    obtain ⟨hm, hok⟩ := List.mem_filter.mp hm
    exact hR s s' hi (of_decide_eq_true hok) ha (h.1 s a s' hm)
  | iter body j k ihb ihk =>
    refine .iter (J := fun _ => A) (M := fun _ => A) (fun _ => hA) (fun j => ?_)
      fun a => ihk a (h.2 a)
    exact (ihb j (h.1 j)).post fun r _ _ ha => by cases r <;> exact ha

-- ---------------------------------------------------------------------------
-- Runs
-- ---------------------------------------------------------------------------

variable {S : System σ E R} {c₀ c c' : Config σ} {e : Event E R}

theorem Config.within_update {t : Proc σ Unit} {i : TaskId} {s : σ} :
    (Config.mk s (Function.update c.pool i (some t))).within ok =
      ⟨s, Function.update (c.within ok).pool i (some (t.within ok))⟩ := by
  refine congrArg (Config.mk s) (funext fun j => ?_)
  by_cases hj : j = i
  · subst hj
    simp
  · simp [Function.update_of_ne hj, Config.within]

namespace System

theorem step_within (h : S.step c e = some c') (hok : ok c.shared c'.shared) :
    ∃ e', (S.within ok).step (c.within ok) e' = some (c'.within ok) := by
  cases e with
  | run i n =>
    simp only [step, Option.bind_eq_some_iff, Option.map_eq_some_iff] at h
    obtain ⟨t, ht, ⟨t', s'⟩, hn, rfl⟩ := h
    have hm := Proc.within_step hok (List.mem_of_getElem? hn)
    obtain ⟨m, hm⟩ := List.mem_iff_getElem?.mp hm
    refine ⟨.run i m, ?_⟩
    have ht' : (c.within ok).pool i = some (t.within ok) := by
      simp [Config.within, ht]
    rw [step, ht', Option.bind_some]
    exact (congrArg _ hm).trans (congrArg some Config.within_update.symm)
  | env e =>
    simp only [step, Option.map_eq_some_iff] at h
    obtain ⟨s', hs, rfl⟩ := h
    refine ⟨.env e, ?_⟩
    have henv : (S.within ok).env e c.shared = some s' := by
      simp [within, hs, hok]
    rw [step]
    exact congrArg (Option.map _) henv
  | spawn i r =>
    simp only [step] at h
    split at h
    next hn =>
      cases h
      refine ⟨.spawn i r, ?_⟩
      have hn' : ((c.within ok).pool i).isNone = true := by simpa [Config.within] using hn
      rw [step, if_pos hn']
      exact congrArg some Config.within_update.symm
    next => cases h

/-- A run whose steps satisfy `ok` is one of the system that takes no others. -/
theorem Run.within (h : S.Run ok c₀ c) : (S.within ok).Reach (c₀.within ok) (c.within ok) := by
  induction h with
  | refl => exact .refl
  | step _ hs hok ih =>
    obtain ⟨e', he'⟩ := step_within hs hok
    exact ih.step he' trivial

end System

end Async
