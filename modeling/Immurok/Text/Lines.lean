import Immurok.Text.Str
import Mathlib.Algebra.Order.BigOperators.Group.List
import Mathlib.Algebra.Order.Group.Nat
import Mathlib.Data.List.DropRight
import Mathlib.Data.List.Infix

/-!
# Lines

A text as lines between separators, and lines of which one block between two
markers is managed.
-/

namespace Lines

section
variable {α : Type} {sep : α} {l : List α} {ls ls' : List (List α)}

-- ---------------------------------------------------------------------------
-- Lists of lines
-- ---------------------------------------------------------------------------

/-- Lines without the empty ones before and behind them. -/
def trimBlank (ls : List (List α)) : List (List α) :=
  (ls.dropWhile List.isEmpty).rdropWhile List.isEmpty

theorem join_concat (h : ls ≠ []) :
    [sep].intercalate (ls ++ [l]) = [sep].intercalate ls ++ sep :: l := by
  induction ls with
  | nil => exact absurd rfl h
  | cons l' ls ih =>
    cases ls with
    | nil => simp
    | cons l'' ls =>
      rw [List.cons_append, List.cons_append, List.intercalate_cons_cons,
        List.intercalate_cons_cons, ← List.cons_append, ih (List.cons_ne_nil _ _)]
      simp

theorem length_join :
    ([sep].intercalate ls).length = (ls.map List.length).sum + (ls.length - 1) := by
  induction ls with
  | nil => rfl
  | cons l ls ih =>
    cases ls with
    | nil => simp
    | cons l' ls =>
      rw [List.intercalate_cons_cons, List.length_append, ih]
      simp
      omega

theorem mem_join {c : α} (h : c ∈ [sep].intercalate ls) : c = sep ∨ ∃ l ∈ ls, c ∈ l := by
  induction ls with
  | nil => nomatch h
  | cons l ls ih =>
    cases ls with
    | nil => exact .inr ⟨l, List.mem_cons_self, by simpa using h⟩
    | cons l' ls =>
      rw [List.intercalate_cons_cons, List.mem_append, List.mem_append, List.mem_singleton] at h
      obtain (h | h) | h := h
      · exact .inr ⟨l, List.mem_cons_self, h⟩
      · exact .inl h
      · refine (ih h).imp_right fun ⟨x, hx, hc⟩ => ⟨x, List.mem_cons_of_mem _ hx, hc⟩

theorem trimBlank_sublist : (trimBlank ls).Sublist ls :=
  (List.rdropWhile_prefix _ _).sublist.trans (List.dropWhile_suffix _).sublist

theorem getLast_trimBlank : (trimBlank ls).getLast? ≠ some [] := by
  unfold trimBlank
  intro h
  have hne : (ls.dropWhile List.isEmpty).rdropWhile List.isEmpty ≠ [] := fun hn => by simp [hn] at h
  have hlast := List.rdropWhile_last_not List.isEmpty _ hne
  rw [List.getLast?_eq_some_getLast hne] at h
  exact hlast (by rw [Option.some.inj h]; rfl)

theorem head_trimBlank : (trimBlank ls).head? ≠ some [] := by
  intro h
  have hdrop : (ls.dropWhile List.isEmpty).head? = some [] := by
    obtain ⟨t, ht⟩ := List.head?_eq_some_iff.mp h
    obtain ⟨r, hr⟩ := List.rdropWhile_prefix List.isEmpty (ls.dropWhile List.isEmpty)
    rw [← hr, show (ls.dropWhile List.isEmpty).rdropWhile List.isEmpty = [] :: t from ht]
    rfl
  have := List.head?_dropWhile_not List.isEmpty ls
  rw [hdrop] at this
  exact absurd this (by simp)

/-- What is trimmed stands beside empty lines. -/
theorem trimBlank_sublist_cons :
    (trimBlank ls).Sublist ([] :: ls') ↔ (trimBlank ls).Sublist ls' := by
  refine ⟨fun h => ?_, fun h => h.cons _⟩
  obtain h | ⟨r, hr, -⟩ := List.sublist_cons_iff.mp h
  · exact h
  · exact absurd (by rw [hr]; rfl) head_trimBlank

theorem trimBlank_sublist_concat :
    (trimBlank ls).Sublist (ls' ++ [[]]) ↔ (trimBlank ls).Sublist ls' := by
  refine ⟨fun h => ?_, fun h => h.trans (List.sublist_append_left _ _)⟩
  rw [← List.reverse_sublist, List.reverse_append, List.reverse_singleton,
    List.singleton_append] at h
  obtain h | ⟨r, hr, -⟩ := List.sublist_cons_iff.mp h
  · exact List.reverse_sublist.mp h
  · refine absurd ?_ (@getLast_trimBlank α ls)
    rw [← List.head?_reverse, hr]
    rfl

theorem trimBlank_split (ls : List (List α)) : ∃ xs ys, ls = xs ++ trimBlank ls ++ ys ∧
    (∀ l ∈ xs, l = []) ∧ ∀ l ∈ ys, l = [] := by
  refine ⟨ls.takeWhile List.isEmpty,
    (ls.dropWhile List.isEmpty).rtakeWhile List.isEmpty, ?_, ?_, ?_⟩
  · rw [List.append_assoc, trimBlank, List.rdropWhile_append_rtakeWhile,
      List.takeWhile_append_dropWhile]
  · exact fun l hl => List.isEmpty_iff.mp (List.mem_takeWhile_imp hl)
  · exact fun l hl => List.isEmpty_iff.mp (List.mem_rtakeWhile_imp hl)

theorem forall_mem_trimBlank {P : List α → Prop} (hP : P []) :
    (∀ l ∈ trimBlank ls, P l) ↔ ∀ l ∈ ls, P l := by
  obtain ⟨xs, ys, h, hxs, hys⟩ := trimBlank_split ls
  refine ⟨fun hm l hl => ?_, fun hm l hl => hm l (trimBlank_sublist.subset hl)⟩
  rw [h] at hl
  obtain hl | hl := List.mem_append.mp hl
  · obtain hl | hl := List.mem_append.mp hl
    · rwa [hxs l hl]
    · exact hm l hl
  · rwa [hys l hl]

theorem sum_length_trimBlank : ((trimBlank ls).map List.length).sum = (ls.map List.length).sum := by
  obtain ⟨xs, ys, h, hxs, hys⟩ := trimBlank_split ls
  have zero {zs : List (List α)} (hz : ∀ l ∈ zs, l = []) : (zs.map List.length).sum = 0 :=
    List.sum_eq_zero fun n hn => by
      obtain ⟨l, hl, rfl⟩ := List.mem_map.mp hn
      rw [hz l hl]
      rfl
  conv_rhs => rw [h]
  rw [List.map_append, List.map_append, List.sum_append, List.sum_append, zero hxs, zero hys,
    Nat.zero_add, Nat.add_zero]

theorem sum_length_le_of_sublist (h : (trimBlank ls).Sublist (trimBlank ls')) :
    (ls.map List.length).sum ≤ (ls'.map List.length).sum := by
  have := (h.map List.length).sum_le_sum fun _ _ => Nat.zero_le _
  rwa [sum_length_trimBlank, sum_length_trimBlank] at this

/-- A part that the element `c` does not occur in is on one side of it. -/
theorem infix_append_cons {c : α} {s t : List α} (hc : c ∉ l) (h : l <:+: s ++ c :: t) :
    l <:+: s ∨ l <:+: t := by
  have starts {a : List α} (ha : a <+: c :: t) (hn : c ∉ a) : a = [] := by
    cases a with
    | nil => rfl
    | cons x a => exact absurd (by simp [(List.cons_prefix_cons.mp ha).1]) hn
  obtain h | h | ⟨a, b, rfl, ha, hb⟩ := List.infix_append_iff.mp h
  · exact .inl h
  · obtain h | h := List.infix_cons_iff.mp h
    · exact .inl (starts h hc ▸ List.nil_infix)
    · exact .inr h
  · obtain rfl := starts hb fun hm => hc (List.mem_append_right _ hm)
    exact .inl (by simpa using ha.isInfix)

end

section
variable {α : Type} [DecidableEq α] {sep : α} {s l : List α}
  {ls : List (List α)}

-- ---------------------------------------------------------------------------
-- Pieces
-- ---------------------------------------------------------------------------

/-- An element in front of the first piece. -/
def consFirst (c : α) : List (List α) → List (List α)
  | [] => [[c]]
  | l :: ls => (c :: l) :: ls

/-- The pieces of a text, each up to its separator. -/
def splitInclusive (sep : α) : List α → List (List α)
  | [] => []
  | c :: s => if c = sep then [c] :: splitInclusive sep s else consFirst c (splitInclusive sep s)

/-- A piece without its separator. -/
def content (sep : α) (l : List α) : List α := if l.getLast? = some sep then l.dropLast else l

/-- The lines of a text, without the separators. -/
def raw (sep : α) (s : List α) : List (List α) := (splitInclusive sep s).map (content sep)

/-- A text is a last line without a separator, or a line before a text. -/
@[elab_as_elim]
theorem induct {P : List α → Prop} (sep : α) (last : ∀ l, sep ∉ l → P l)
    (line : ∀ l s, sep ∉ l → P s → P (l ++ sep :: s)) (s : List α) : P s := by
  -- induction on what is left behind the first separator
  induction hn : s.length using Nat.strongRecOn generalizing s with
  | ind n ih =>
    by_cases hs : sep ∈ s
    · obtain ⟨l, rest, rfl, hl⟩ := List.eq_append_cons_of_mem hs
      exact line l rest hl (ih rest.length (by rw [← hn]; simp; omega) rest rfl)
    · exact last s hs

theorem splitInclusive_eq_nil : splitInclusive sep s = [] ↔ s = [] := by
  cases s with
  | nil => exact iff_of_true rfl rfl
  | cons c s =>
    refine iff_of_false (fun h => ?_) (List.cons_ne_nil c s)
    rw [splitInclusive] at h
    split at h
    · cases h
    · cases hs : splitInclusive sep s <;> simp [hs, consFirst] at h

theorem splitInclusive_line (h : sep ∉ l) :
    splitInclusive sep (l ++ sep :: s) = (l ++ [sep]) :: splitInclusive sep s := by
  induction l with
  | nil => simp [splitInclusive]
  | cons c l ih =>
    have hc : c ≠ sep := fun he => h (he ▸ List.mem_cons_self)
    rw [List.cons_append, splitInclusive, if_neg hc, ih fun hm => h (List.mem_cons_of_mem _ hm)]
    rfl

theorem splitInclusive_append {t : List α} :
    splitInclusive sep (s ++ sep :: t) =
      splitInclusive sep (s ++ [sep]) ++ splitInclusive sep t := by
  induction s using induct sep with
  | last l hl => rw [splitInclusive_line hl, splitInclusive_line hl]; rfl
  | line l s hl ih =>
    rw [List.append_assoc, List.cons_append, splitInclusive_line hl, List.append_assoc,
      List.cons_append, splitInclusive_line hl, ih, List.cons_append]

theorem splitInclusive_last (h : sep ∉ l) (hl : l ≠ []) : splitInclusive sep l = [l] := by
  induction l with
  | nil => exact absurd rfl hl
  | cons c l ih =>
    have hc : c ≠ sep := fun he => h (he ▸ List.mem_cons_self)
    rw [splitInclusive, if_neg hc]
    cases l with
    | nil => rfl
    | cons d l => rw [ih (fun hm => h (List.mem_cons_of_mem _ hm)) (List.cons_ne_nil _ _)]; rfl

theorem flatten_splitInclusive : (splitInclusive sep s).flatten = s := by
  induction s using induct sep with
  | last l hl =>
    by_cases hnil : l = []
    · rw [hnil]
      rfl
    · rw [splitInclusive_last hl hnil, List.flatten_singleton]
  | line l s hl ih =>
    rw [splitInclusive_line hl, List.flatten_cons, ih, List.append_assoc, List.singleton_append]

/-- Pieces with others behind them are all of their text, which ends in a separator. -/
theorem splitInclusive_before {qs : List (List α)} (h : splitInclusive sep s = ls ++ l :: qs) :
    splitInclusive sep ls.flatten = ls ∧ (ls = [] ∨ ∃ x, ls.flatten = x ++ [sep]) := by
  induction ls generalizing s with
  | nil => exact ⟨rfl, .inl rfl⟩
  | cons p ls ih =>
    by_cases hs : sep ∈ s
    · obtain ⟨x, rest, rfl, hx⟩ := List.eq_append_cons_of_mem hs
      rw [splitInclusive_line hx, List.cons_append, List.cons.injEq] at h
      obtain ⟨rfl, hrest⟩ := h
      obtain ⟨hls, hlast⟩ := ih hrest
      refine ⟨?_, .inr ?_⟩
      · rw [List.flatten_cons, List.append_assoc, List.singleton_append, splitInclusive_line hx, hls]
      · obtain rfl | ⟨y, hy⟩ := hlast
        · exact ⟨x, List.append_nil _⟩
        · exact ⟨x ++ sep :: y, by rw [List.flatten_cons, hy]; simp⟩
    · have hlen := congrArg List.length h
      by_cases hnil : s = []
      · rw [hnil] at h
        nomatch h
      · rw [splitInclusive_last hs hnil] at hlen
        simp at hlen

theorem content_line : content sep (l ++ [sep]) = l := by simp [content]

theorem content_isPrefix : content sep l <+: l := by
  unfold content
  split
  · exact List.dropLast_prefix l
  · exact List.prefix_rfl

theorem content_eq_self : content sep l = l ↔ l.getLast? ≠ some sep := by
  unfold content
  split
  next h =>
    refine iff_of_false (fun he => ?_) (fun hn => hn h)
    have hlen := congrArg List.length he
    cases l with
    | nil => cases h
    | cons a l => simp at hlen
  next h => exact iff_of_true rfl h

theorem content_last (h : sep ∉ l) : content sep l = l :=
  content_eq_self.mpr fun hl => h (List.mem_of_getLast? hl)

theorem raw_line (h : sep ∉ l) : raw sep (l ++ sep :: s) = l :: raw sep s := by
  rw [raw, splitInclusive_line h, List.map_cons, content_line]
  rfl

theorem raw_last (h : sep ∉ l) (hl : l ≠ []) : raw sep l = [l] := by
  rw [raw, splitInclusive_last h hl, List.map_singleton, content_last h]

theorem raw_nil : raw sep ([] : List α) = [] := rfl

theorem infix_iff_raw (hn : sep ∉ l) (hne : l ≠ []) :
    l <:+: s ↔ ∃ l' ∈ raw sep s, l <:+: l' := by
  induction s using induct sep with
  | last l' hl' =>
    by_cases hnil : l' = []
    · simp [hnil, raw_nil, hne]
    · simp [raw_last hl' hnil]
  | line l' s hl' ih =>
    rw [raw_line hl', List.exists_mem_cons_iff, ← ih]
    refine ⟨infix_append_cons hn, fun h => ?_⟩
    obtain h | h := h
    · exact h.trans (List.prefix_append _ _).isInfix
    · exact h.trans ⟨l' ++ [sep], [], by simp⟩

theorem piece_cases (h : l ∈ splitInclusive sep s) :
    (∃ x, l = x ++ [sep] ∧ sep ∉ x) ∨ sep ∉ l := by
  induction s using induct sep with
  | last t ht =>
    by_cases hnil : t = []
    · rw [hnil] at h
      cases h
    · rw [splitInclusive_last ht hnil] at h
      exact .inr (List.mem_singleton.mp h ▸ ht)
  | line t s ht ih =>
    rw [splitInclusive_line ht] at h
    obtain rfl | h := List.mem_cons.mp h
    · exact .inl ⟨t, rfl, ht⟩
    · exact ih h

theorem infix_of_mem (h : l ∈ splitInclusive sep s) : l <:+: s := by
  induction s using induct sep with
  | last t ht =>
    by_cases hnil : t = []
    · rw [hnil] at h
      cases h
    · rw [splitInclusive_last ht hnil] at h
      rw [List.mem_singleton.mp h]
  | line t s ht ih =>
    rw [splitInclusive_line ht] at h
    obtain rfl | h := List.mem_cons.mp h
    · exact ⟨[], s, by simp⟩
    · exact (ih h).trans ⟨t ++ [sep], [], by simp⟩

theorem notMem_of_mem_raw (h : l ∈ raw sep s) : sep ∉ l := by
  obtain ⟨p, hp, rfl⟩ := List.mem_map.mp h
  obtain ⟨x, rfl, hx⟩ | hp := piece_cases hp
  · rwa [content_line]
  · rwa [content_last hp]

-- ---------------------------------------------------------------------------
-- Lines that are joined
-- ---------------------------------------------------------------------------

/-- A text without the separators before and behind it. -/
def trimSep (sep : α) (s : List α) : List α := (s.dropWhile (· == sep)).rdropWhile (· == sep)

theorem raw_concat :
    raw sep (s ++ [sep]) = raw sep s ∨ raw sep (s ++ [sep]) = raw sep s ++ [[]] := by
  induction s using induct sep with
  | last l hl =>
    rw [raw_line hl, raw_nil]
    by_cases hnil : l = []
    · exact .inr (by rw [hnil]; rfl)
    · exact .inl (raw_last hl hnil).symm
  | line l s hl ih =>
    rw [List.append_assoc, List.cons_append, raw_line hl, raw_line hl]
    exact ih.imp (fun h => by rw [h]) fun h => by rw [h]; rfl

theorem forall_mem_raw_concat {P : List α → Prop} (hP : P []) :
    (∀ l ∈ raw sep (s ++ [sep]), P l) ↔ ∀ l ∈ raw sep s, P l := by
  obtain h | h := @raw_concat _ _ sep s
  · rw [h]
  · rw [h, List.forall_mem_append]
    exact and_iff_left (List.forall_mem_singleton.mpr hP)

theorem join_dropWhile (hls : ∀ l ∈ ls, sep ∉ l) :
    ([sep].intercalate ls).dropWhile (· == sep) =
      [sep].intercalate (ls.dropWhile List.isEmpty) := by
  induction ls with
  | nil => rfl
  | cons l ls ih =>
    obtain ⟨hl, hls'⟩ := List.forall_mem_cons.mp hls
    cases l with
    | nil =>
      rw [List.dropWhile_cons_of_pos rfl, ← ih hls']
      cases ls with
      | nil => rfl
      | cons l ls =>
        rw [List.intercalate_cons_cons, List.nil_append, List.singleton_append,
          List.dropWhile_cons_of_pos (by simp)]
    | cons c l =>
      have hc : c ≠ sep := fun he => hl (he ▸ List.mem_cons_self)
      rw [List.dropWhile_cons_of_neg (by simp)]
      cases ls with
      | nil => rw [List.intercalate_singleton, List.dropWhile_cons_of_neg (by simpa using hc)]
      | cons l' ls =>
        rw [List.intercalate_cons_cons, List.cons_append, List.cons_append,
          List.dropWhile_cons_of_neg (by simpa using hc)]

theorem join_rdropWhile (hls : ∀ l ∈ ls, sep ∉ l) :
    ([sep].intercalate ls).rdropWhile (· == sep) =
      [sep].intercalate (ls.rdropWhile List.isEmpty) := by
  induction ls using List.reverseRecOn with
  | nil => rfl
  | append_singleton ls l ih =>
    have hl : sep ∉ l := hls l (by simp)
    obtain rfl | ⟨l, c, rfl⟩ := l.eq_nil_or_concat
    · rw [List.rdropWhile_concat_pos _ _ _ rfl, ← ih fun m hm => hls m (by simp [hm])]
      by_cases hnil : ls = []
      · rw [hnil]
        rfl
      · rw [join_concat hnil, List.rdropWhile_concat_pos _ _ _ (by simp)]
    · rw [List.concat_eq_append] at hl ⊢
      have hc : c ≠ sep := fun he => hl (by simp [he])
      rw [List.rdropWhile_concat_neg _ _ _ (by simp)]
      by_cases hnil : ls = []
      · rw [hnil, List.nil_append, List.intercalate_singleton,
          List.rdropWhile_concat_neg _ _ _ (by simpa using hc)]
      · rw [join_concat hnil, ← List.cons_append, ← List.append_assoc,
          List.rdropWhile_concat_neg _ _ _ (by simpa using hc)]

theorem raw_join (hls : ∀ l ∈ ls, sep ∉ l) (h : ls.getLast? ≠ some []) :
    raw sep ([sep].intercalate ls) = ls := by
  induction ls with
  | nil => rfl
  | cons l ls ih =>
    obtain ⟨hl, hls⟩ := List.forall_mem_cons.mp hls
    cases ls with
    | nil =>
      rw [List.intercalate_singleton, raw_last hl fun hnil => h (by rw [hnil]; rfl)]
    | cons l' ls =>
      rw [List.intercalate_cons_cons, List.append_assoc, List.singleton_append, raw_line hl,
        ih hls (by simpa [List.getLast?_cons_cons] using h)]

/-- The lines of a text that was joined from lines and trimmed. -/
theorem raw_trimSep_join (hls : ∀ l ∈ ls, sep ∉ l) :
    raw sep (trimSep sep ([sep].intercalate ls)) = trimBlank ls := by
  have hdrop : ∀ l ∈ ls.dropWhile List.isEmpty, sep ∉ l := fun l hl =>
    hls l ((List.dropWhile_suffix _).subset hl)
  rw [trimSep, join_dropWhile hls, join_rdropWhile hdrop]
  exact raw_join (fun l hl => hls l (trimBlank_sublist.subset hl)) getLast_trimBlank

end

-- ---------------------------------------------------------------------------
-- A managed block
-- ---------------------------------------------------------------------------

/-- What tells a line that begins a block from one that ends it. -/
structure Marks (α : Type) where
  isBegin : α → Bool
  isEnd : α → Bool
  disjoint : ∀ l, isBegin l = true → isEnd l = false

namespace Marks

variable {α β : Type} {m : Marks α} {ls pre mid post : List α} {b e l : α}

/-- What is behind the end of a block, where no other begins before it. -/
def closes (m : Marks α) : List α → Option (List α)
  | [] => none
  | l :: ls => if m.isEnd l then some ls else if m.isBegin l then none else m.closes ls

/-- The lines outside the first block from a beginning to its own end. -/
def outside (m : Marks α) : List α → List α
  | [] => []
  | l :: ls =>
    if m.isBegin l then
      match m.closes ls with
      | some rest => rest
      | none => l :: m.outside ls
    else l :: m.outside ls

/-- How many blocks there are; `inside` is whether one has begun. -/
def blocks (m : Marks α) (inside : Bool) : List α → Nat
  | [] => 0
  | l :: ls =>
    if m.isBegin l then m.blocks true ls
    else if m.isEnd l then inside.toNat + m.blocks false ls
    else m.blocks inside ls

def comap (m : Marks α) (f : β → α) : Marks β :=
  ⟨m.isBegin ∘ f, m.isEnd ∘ f, fun l => m.disjoint (f l)⟩

/-- From the first beginning to the first end behind it. -/
structure Cut (m : Marks α) (pre : List α) (b : α) (mid : List α) (e : α) (post ls : List α) :
    Prop where
  eq : ls = pre ++ b :: (mid ++ e :: post)
  before : ∀ l ∈ pre, m.isBegin l = false
  isBegin : m.isBegin b = true
  between : ∀ l ∈ mid, m.isEnd l = false
  isEnd : m.isEnd e = true

/-- No end is behind a beginning. -/
def Uncut (m : Marks α) (ls : List α) : Prop :=
  (∀ l ∈ ls, m.isBegin l = false) ∨ ∃ pre b post, ls = pre ++ b :: post ∧
    (∀ l ∈ pre, m.isBegin l = false) ∧ m.isBegin b = true ∧ ∀ l ∈ post, m.isEnd l = false

/-- The first element that `q` holds of. -/
theorem first_or (q : α → Bool) (ls : List α) :
    (∀ l ∈ ls, q l = false) ∨
      ∃ pre x post, ls = pre ++ x :: post ∧ (∀ l ∈ pre, q l = false) ∧ q x = true := by
  cases h : ls.find? q with
  | none => exact .inl fun l hl => by simpa using List.find?_eq_none.mp h l hl
  | some x =>
    obtain ⟨hx, pre, post, rfl, hpre⟩ := List.find?_eq_some_iff_append.mp h
    exact .inr ⟨pre, x, post, rfl, fun l hl => by simpa using hpre l hl, hx⟩

theorem first_unique {q : α → Bool} {x y : α} {pre' post' : List α}
    (hpre : ∀ l ∈ pre, q l = false) (hx : q x = true) (hpre' : ∀ l ∈ pre', q l = false)
    (hy : q y = true) (h : pre ++ x :: post = pre' ++ y :: post') :
    pre = pre' ∧ x = y ∧ post = post' := by
  induction pre generalizing pre' with
  | nil =>
    cases pre' with
    | nil =>
      obtain ⟨rfl, rfl⟩ := List.cons.inj h
      exact ⟨rfl, rfl, rfl⟩
    | cons l pre' =>
      obtain ⟨rfl, -⟩ := List.cons.inj h
      exact absurd ((hpre' x List.mem_cons_self).symm.trans hx) Bool.false_ne_true
  | cons l pre ih =>
    cases pre' with
    | nil =>
      obtain ⟨rfl, -⟩ := List.cons.inj h
      exact absurd ((hpre l List.mem_cons_self).symm.trans hy) Bool.false_ne_true
    | cons l' pre' =>
      obtain ⟨rfl, ht⟩ := List.cons.inj h
      obtain ⟨rfl, hxy⟩ := ih (fun m hm => hpre m (List.mem_cons_of_mem _ hm))
        (fun m hm => hpre' m (List.mem_cons_of_mem _ hm)) ht
      exact ⟨rfl, hxy⟩

theorem Cut.unique {pre' mid' post' : List α} {b' e' : α} (h : m.Cut pre b mid e post ls)
    (h' : m.Cut pre' b' mid' e' post' ls) : pre = pre' ∧ mid = mid' ∧ post = post' := by
  obtain ⟨hpre, -, hrest⟩ := first_unique h.before h.isBegin h'.before h'.isBegin
    (h.eq.symm.trans h'.eq)
  obtain ⟨hmid, -, hpost⟩ := first_unique h.between h.isEnd h'.between h'.isEnd hrest
  exact ⟨hpre, hmid, hpost⟩

theorem uncut_or_cut (m : Marks α) (ls : List α) :
    m.Uncut ls ∨ ∃ pre b mid e post, m.Cut pre b mid e post ls := by
  obtain h | ⟨pre, b, rest, rfl, hpre, hb⟩ := first_or m.isBegin ls
  · exact .inl (.inl h)
  · obtain h | ⟨mid, e, post, rfl, hmid, he⟩ := first_or m.isEnd rest
    · exact .inl (.inr ⟨pre, b, rest, rfl, hpre, hb, h⟩)
    · exact .inr ⟨pre, b, mid, e, post, rfl, hpre, hb, hmid, he⟩

theorem closes_of_no_end (h : ∀ l ∈ ls, m.isEnd l = false) : m.closes ls = none := by
  induction ls with
  | nil => rfl
  | cons l ls ih =>
    obtain ⟨hl, hls⟩ := List.forall_mem_cons.mp h
    rw [closes, hl, if_neg Bool.false_ne_true, ih hls, ite_self]

theorem outside_append (h : ∀ l ∈ pre, m.isBegin l = false) :
    m.outside (pre ++ ls) = pre ++ m.outside ls := by
  induction pre with
  | nil => rfl
  | cons l pre ih =>
    obtain ⟨hl, hpre⟩ := List.forall_mem_cons.mp h
    rw [List.cons_append, outside, hl, if_neg Bool.false_ne_true, ih hpre]
    rfl

theorem outside_of_no_end (h : ∀ l ∈ ls, m.isEnd l = false) : m.outside ls = ls := by
  induction ls with
  | nil => rfl
  | cons l ls ih =>
    obtain ⟨-, hls⟩ := List.forall_mem_cons.mp h
    simp only [outside, closes_of_no_end hls, ih hls, ite_self]

theorem Uncut.outside (h : m.Uncut ls) : m.outside ls = ls := by
  obtain h | ⟨pre, b, post, rfl, hpre, hb, hpost⟩ := h
  · have ha : m.outside (ls ++ []) = ls ++ m.outside [] := outside_append h
    simpa [Marks.outside] using ha
  · rw [outside_append hpre, Marks.outside, closes_of_no_end hpost, outside_of_no_end hpost,
      ite_self]

theorem closes_sublist (h : m.closes ls = some pre) : pre.Sublist ls := by
  induction ls with
  | nil => cases h
  | cons l ls ih =>
    rw [closes] at h
    split at h
    · cases h
      exact List.sublist_cons_self l _
    · split at h
      · cases h
      · exact (ih h).cons l

theorem outside_sublist : (m.outside ls).Sublist ls := by
  induction ls with
  | nil => exact .slnil
  | cons l ls ih =>
    rw [outside]
    split
    · split
      next hc => exact (closes_sublist hc).cons l
      · exact ih.cons_cons l
    · exact ih.cons_cons l

theorem closes_append (hb : ∀ l ∈ mid, m.isBegin l = false) (hmid : ∀ l ∈ mid, m.isEnd l = false)
    (he : m.isEnd e = true) : m.closes (mid ++ e :: post) = some post := by
  induction mid with
  | nil => rw [List.nil_append, closes, if_pos he]
  | cons l mid ih =>
    obtain ⟨hl, hb⟩ := List.forall_mem_cons.mp hb
    obtain ⟨hl', hmid⟩ := List.forall_mem_cons.mp hmid
    rw [List.cons_append, closes, hl', hl, if_neg Bool.false_ne_true, if_neg Bool.false_ne_true,
      ih hb hmid]

theorem closes_eq_none (hb : ∃ l ∈ mid, m.isBegin l = true) (hmid : ∀ l ∈ mid, m.isEnd l = false) :
    m.closes (mid ++ ls) = none := by
  induction mid with
  | nil => obtain ⟨l, hl, -⟩ := hb; cases hl
  | cons l mid ih =>
    obtain ⟨hl', hmid⟩ := List.forall_mem_cons.mp hmid
    rw [List.cons_append, closes, hl', if_neg Bool.false_ne_true]
    cases hl : m.isBegin l with
    | true => rfl
    | false =>
      obtain ⟨x, hx, hbx⟩ := hb
      obtain rfl | hx := List.mem_cons.mp hx
      · exact absurd (hl.symm.trans hbx) Bool.false_ne_true
      · exact ih ⟨x, hx, hbx⟩ hmid

/-- Where no other block begins inside, the cut takes the first block out. -/
theorem Cut.outside (h : m.Cut pre b mid e post ls) (hmid : ∀ l ∈ mid, m.isBegin l = false) :
    m.outside ls = pre ++ post := by
  rw [h.eq, outside_append h.before, Marks.outside, if_pos h.isBegin,
    closes_append hmid h.between h.isEnd]

theorem sublist_outside (hb : ∃ l ∈ mid, m.isBegin l = true)
    (hmid : ∀ l ∈ mid, m.isEnd l = false) (he : m.isEnd e = true) :
    post.Sublist (m.outside (mid ++ e :: post)) := by
  induction mid with
  | nil => obtain ⟨l, hl, -⟩ := hb; cases hl
  | cons l mid ih =>
    have hmid' : ∀ l ∈ mid, m.isEnd l = false := (List.forall_mem_cons.mp hmid).2
    rw [List.cons_append, outside]
    by_cases hm : ∃ l ∈ mid, m.isBegin l = true
    · rw [closes_eq_none hm hmid', ite_self]
      exact (ih hm hmid').cons l
    · have hno : ∀ l ∈ mid, m.isBegin l = false := fun l hl => by
        simpa using fun ht => hm ⟨l, hl, ht⟩
      obtain ⟨x, hx, hbx⟩ := hb
      obtain rfl | hx := List.mem_cons.mp hx
      · rw [if_pos hbx, closes_append hno hmid' he]
      · exact absurd ⟨x, hx, hbx⟩ hm

/-- Where another one does, its beginning stays outside. -/
theorem Cut.sublist_outside (h : m.Cut pre b mid e post ls) (hb : ∃ l ∈ mid, m.isBegin l = true) :
    (pre ++ b :: post).Sublist (m.outside ls) := by
  rw [h.eq, outside_append h.before, Marks.outside, closes_eq_none hb h.between, ite_self]
  exact (List.Sublist.refl pre).append ((Marks.sublist_outside hb h.between h.isEnd).cons_cons b)

/-- As long outside as what is behind the cut, it is that. -/
theorem Cut.post_of_length (h : m.Cut pre b mid e post ls)
    (hlen : (m.outside ls).length ≤ post.length) : (∀ l ∈ mid, m.isBegin l = false) := by
  by_contra hno
  have hle := (h.sublist_outside (by simpa using hno)).length_le
  simp only [List.length_append, List.length_cons] at hle
  omega

theorem comap_closes {f : β → α} {ls : List β} :
    m.closes (ls.map f) = ((m.comap f).closes ls).map (List.map f) := by
  induction ls with
  | nil => rfl
  | cons l ls ih =>
    simp only [List.map_cons, closes, ih]
    show (if m.isEnd (f l) then _ else _) = Option.map _ (if m.isEnd (f l) then _ else _)
    split
    · rfl
    · show (if m.isBegin (f l) then _ else _) = Option.map _ (if m.isBegin (f l) then _ else _)
      split <;> rfl

/-- The outside of lines that are read through `f`. -/
theorem comap_outside {f : β → α} {ls : List β} :
    m.outside (ls.map f) = ((m.comap f).outside ls).map f := by
  induction ls with
  | nil => rfl
  | cons l ls ih =>
    simp only [List.map_cons, outside, ih, comap_closes]
    show (if m.isBegin (f l) then _ else _) = List.map f (if m.isBegin (f l) then _ else _)
    split
    · cases (m.comap f).closes ls <;> rfl
    · rfl

-- ---------------------------------------------------------------------------
-- How many
-- ---------------------------------------------------------------------------

theorem comap_blocks {f : β → α} {inside : Bool} {ls : List β} :
    m.blocks inside (ls.map f) = (m.comap f).blocks inside ls := by
  induction ls generalizing inside with
  | nil => rfl
  | cons l ls ih => simp only [List.map_cons, blocks, ih]; rfl

theorem blocks_of_no_begin (h : ∀ l ∈ pre, m.isBegin l = false) :
    m.blocks false (pre ++ ls) = m.blocks false ls := by
  induction pre with
  | nil => rfl
  | cons l pre ih =>
    obtain ⟨hl, hpre⟩ := List.forall_mem_cons.mp h
    rw [List.cons_append, blocks, hl, if_neg Bool.false_ne_true, ih hpre]
    simp

theorem blocks_of_no_end (h : ∀ l ∈ mid, m.isEnd l = false) (he : m.isEnd e = true) :
    m.blocks true (mid ++ e :: post) = 1 + m.blocks false post := by
  induction mid with
  | nil =>
    have hb : m.isBegin e = false := by
      cases hb : m.isBegin e with
      | true => exact absurd ((m.disjoint e hb).symm.trans he) Bool.false_ne_true
      | false => rfl
    rw [List.nil_append, blocks, hb, if_neg Bool.false_ne_true, if_pos he]
    rfl
  | cons l mid ih =>
    obtain ⟨hl, hmid⟩ := List.forall_mem_cons.mp h
    rw [List.cons_append, blocks, hl, if_neg Bool.false_ne_true, ih hmid, ite_self]

theorem Cut.blocks (h : m.Cut pre b mid e post ls) :
    m.blocks false ls = 1 + m.blocks false post := by
  rw [h.eq, blocks_of_no_begin h.before, Marks.blocks, if_pos h.isBegin,
    blocks_of_no_end h.between h.isEnd]

theorem blocks_eq_zero {inside : Bool} (h : ∀ l ∈ ls, m.isEnd l = false) :
    m.blocks inside ls = 0 := by
  induction ls generalizing inside with
  | nil => rfl
  | cons l ls ih =>
    obtain ⟨hl, hls⟩ := List.forall_mem_cons.mp h
    rw [blocks, hl, ih hls, if_neg Bool.false_ne_true, ih hls, ite_self]

theorem uncut_iff : m.Uncut ls ↔ m.blocks false ls = 0 := by
  refine ⟨fun h => ?_, fun h => (m.uncut_or_cut ls).resolve_right ?_⟩
  · obtain h | ⟨pre, b, post, rfl, hpre, hb, hpost⟩ := h
    · have ha : m.blocks false (ls ++ []) = m.blocks false [] := blocks_of_no_begin h
      simpa [blocks] using ha
    · rw [blocks_of_no_begin hpre, blocks, if_pos hb, blocks_eq_zero hpost]
  · rintro ⟨pre, b, mid, e, post, hc⟩
    have := hc.blocks
    omega

theorem Cut.not_uncut (h : m.Cut pre b mid e post ls) : ¬ m.Uncut ls := fun hu => by
  have := h.blocks
  rw [uncut_iff.mp hu] at this
  omega

end Marks

end Lines

namespace Str

open Lines

variable {p : Char → Bool} {q : Str → Bool} {s t l x needle : Str} {c : Char}

/-- A piece without its line ending. -/
def stripLine (l : Str) : Str :=
  if l.getLast? = some '\n' then content '\r' l.dropLast else l

/-- `str::lines`. -/
def lines (s : Str) : List Str := (splitInclusive '\n' s).map stripLine

def trimNewlines (s : Str) : Str := trimMatches (· == '\n') s

-- ---------------------------------------------------------------------------
-- Trimming
-- ---------------------------------------------------------------------------

theorem trimEndMatches_concat :
    trimEndMatches p (s ++ [c]) = if p c then trimEndMatches p s else s ++ [c] := by
  rw [trimEndMatches, List.reverse_append, List.reverse_singleton, List.singleton_append,
    List.dropWhile_cons]
  split
  · rfl
  · simp

theorem trimMatches_cons (h : p c = true) : trimMatches p (c :: s) = trimMatches p s := by
  rw [trimMatches, List.dropWhile_cons_of_pos h]
  rfl

theorem trimMatches_idem : trimMatches p (trimMatches p s) = trimMatches p s := by
  have hhead : (trimMatches p s).head?.any p = false := by
    have hpre : trimMatches p s <+: s.dropWhile p := trimEndMatches_begins
    cases ht : trimMatches p s with
    | nil => rfl
    | cons c t =>
      obtain ⟨r, hr⟩ := ht ▸ hpre
      have := List.head?_dropWhile_not p s
      rw [← hr] at this
      simpa using this
  have hdrop : (trimMatches p s).dropWhile p = trimMatches p s := by
    cases ht : trimMatches p s with
    | nil => rfl
    | cons c t =>
      have hc : p c = false := by simpa [ht] using hhead
      rw [List.dropWhile_cons_of_neg (by simp [hc])]
  rw [trimMatches, hdrop]
  exact trimEndMatches_idem

theorem trim_infix : trim s <:+: s :=
  (trimEndMatches_begins).isInfix.trans (List.dropWhile_suffix _).isInfix

theorem trim_content : trim (content '\n' l) = trim l := by
  unfold content
  split
  next h =>
    rw [← List.dropLast_append_getLast? _ h, List.dropLast_concat]
    exact (trimMatches_concat rfl).symm
  · rfl

theorem trim_content_cr : trim (content '\r' l) = trim l := by
  unfold content
  split
  next h =>
    rw [← List.dropLast_append_getLast? _ h, List.dropLast_concat]
    exact (trimMatches_concat rfl).symm
  · rfl

theorem trim_stripLine : trim (stripLine l) = trim l := by
  unfold stripLine
  split
  next h =>
    rw [trim_content_cr]
    conv_rhs => rw [← List.dropLast_append_getLast? _ h]
    exact (trimMatches_concat rfl).symm
  · rfl

-- ---------------------------------------------------------------------------
-- Lines and trimming
-- ---------------------------------------------------------------------------

/-- The lines of a text that ends in a newline are its raw ones without a
carriage return at their ends. -/
theorem lines_append_newline :
    lines (s ++ ['\n']) = (raw '\n' (s ++ ['\n'])).map (content '\r') := by
  induction s using induct '\n' with
  | last l hl =>
    rw [lines, splitInclusive_line hl, raw_line hl]
    simp [splitInclusive, raw, stripLine]
  | line l s hl ih =>
    rw [lines] at ih ⊢
    rw [List.append_assoc, List.cons_append, splitInclusive_line hl, raw_line hl, List.map_cons,
      List.map_cons, ih]
    simp [stripLine]

theorem join_raw : ['\n'].intercalate (raw '\n' (s ++ ['\n'])) = s := by
  induction s using induct '\n' with
  | last l hl => rw [raw_line hl, raw_nil, List.intercalate_singleton]
  | line l s hl ih =>
    have hne : raw '\n' (s ++ ['\n']) ≠ [] := fun h => by
      simpa using splitInclusive_eq_nil.mp (List.map_eq_nil_iff.mp h)
    rw [List.append_assoc, List.cons_append, raw_line hl, List.intercalate_cons_of_ne_nil hne, ih]
    simp

theorem length_trimMatches_le : (trimMatches p s).length ≤ s.length :=
  (trimEndMatches_begins).length_le.trans (List.dropWhile_suffix p).length_le

/-- Lines that are joined again are the text where it is trimmed and no line
ends in a carriage return. -/
theorem trimNewlines_join_lines :
    trimNewlines (['\n'].intercalate (lines (s ++ ['\n']))) = s ↔
      trimNewlines s = s ∧ ∀ l ∈ raw '\n' s, l.getLast? ≠ some '\r' := by
  have hmem : (∀ l ∈ raw '\n' (s ++ ['\n']), l.getLast? ≠ some '\r') ↔
      ∀ l ∈ raw '\n' s, l.getLast? ≠ some '\r' := forall_mem_raw_concat nofun
  rw [lines_append_newline, ← hmem]
  constructor
  · intro h
    have htrim : trimNewlines s = s := by
      rw [← h]
      exact trimMatches_idem
    refine ⟨htrim, fun l hl => ?_⟩
    by_contra hr
    have hcr (l : Str) : content '\r' l <+: l := content_isPrefix
    have hlt := List.sum_lt_sum (List.length ∘ content '\r') List.length
      (fun l _ => (hcr l).length_le) ⟨l, hl, (hcr l).length_le.lt_of_ne fun he =>
        content_eq_self.mp ((hcr l).eq_of_length he) hr⟩
    have hle : s.length ≤
        (['\n'].intercalate ((raw '\n' (s ++ ['\n'])).map (content '\r'))).length := by
      conv_lhs => rw [← h]
      exact length_trimMatches_le
    conv_lhs at hle => rw [← @join_raw s]
    rw [length_join, length_join, List.map_map, List.length_map] at hle
    omega
  · rintro ⟨htrim, hr⟩
    have hid : (raw '\n' (s ++ ['\n'])).map (content '\r') = raw '\n' (s ++ ['\n']) :=
      (List.map_congr_left fun l hl => content_eq_self.mpr (hr l hl)).trans (List.map_id _)
    rw [hid, join_raw, htrim]

-- ---------------------------------------------------------------------------
-- Parts of a text
-- ---------------------------------------------------------------------------

theorem contains_iff : contains needle s = true ↔ needle <:+: s := by
  simp only [contains, List.any_eq_true, List.mem_tails, startsWith_iff]
  exact ⟨fun ⟨t, ht, hp⟩ => hp.isInfix.trans ht.isInfix,
    fun ⟨a, b, h⟩ => ⟨needle ++ b, ⟨a, by simpa using h⟩, List.prefix_append _ _⟩⟩

/-- Such an element around the text makes no difference. -/
theorem contains_cons (hc : c ∉ needle) (hne : needle ≠ []) :
    contains needle (c :: s) = contains needle s := by
  rw [Bool.eq_iff_iff, contains_iff, contains_iff]
  refine ⟨fun h => ?_, fun h => h.trans (List.suffix_cons c s).isInfix⟩
  exact (infix_append_cons hc (h : needle <:+: [] ++ c :: s)).resolve_left fun h =>
    hne (List.infix_nil.mp h)

theorem contains_concat (hc : c ∉ needle) (hne : needle ≠ []) :
    contains needle (s ++ [c]) = contains needle s := by
  rw [Bool.eq_iff_iff, contains_iff, contains_iff]
  refine ⟨fun h => ?_, fun h => h.trans (List.prefix_append s [c]).isInfix⟩
  exact (infix_append_cons hc h).resolve_right fun h => hne (List.infix_nil.mp h)

end Str
