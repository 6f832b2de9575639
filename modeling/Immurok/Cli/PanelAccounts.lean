import Immurok.Cli.PanelServe

/-!
# The panel's account of its jobs

A job is pending until its end has been received. The panel's account of what is
pending is right in every run: of checks and updates exactly, of actions but for updates
that were begun beside one.
-/

namespace Immurok.Tui

open Async

/-- The job of a thread that has begun. -/
def Thread.job? : Thread → Option Job
  | .unborn => none
  | .running job _ | .ended job => some job

namespace Loop

/-- The end of the thread waits to be received. -/
def ending (s : Loop) (i : TaskId) : Bool := s.queue.any fun told => told.1 == i && told.2.final

/-- The end of the job has not been received. -/
def pending (s : Loop) (i : TaskId) : Bool :=
  match s.threads i with
  | .ended _ => s.ending i
  | _ => true

def has (k : Job → Bool) (s : Loop) (i : TaskId) : Bool :=
  s.pending i && (s.panel.spawned[i]?).any k

/-- How many jobs of a kind are pending. -/
def count (k : Job → Bool) (s : Loop) : Nat :=
  (List.range s.panel.spawned.length).countP (s.has k)

/-- Threads and reports belong to the jobs, and a thread's end is the last that is told. -/
structure Orderly (s : Loop) : Prop where
  job : ∀ i job, (s.threads i).job? = some job → s.panel.spawned[i]? = some job
  told : ∀ told ∈ s.queue, s.pending told.1 = true ∧
    ∃ job, s.panel.spawned[told.1]? = some job ∧ told.2.of job = true
  ended : ∀ told ∈ s.queue, told.2.final = true → ∃ job, s.threads told.1 = .ended job
  last : s.queue.Pairwise fun x y => x.2.final = true → y.1 ≠ x.1

/-- The panel's account of what is pending. -/
structure Accounts (s : Loop) : Prop where
  orderly : s.Orderly
  sane : s.panel.Sane
  checks : s.count Job.isCheck = if s.panel.fwState = .checking then 1 else 0
  updates : s.count Job.isPush = if s.panel.fwUpdating = true then 1 else 0
  busy : s.panel.busy = true → 0 < s.count Job.acting
  acting : s.count Job.acting ≤ s.overlaps + s.panel.busy.toNat

-- ---------------------------------------------------------------------------
-- Counting
-- ---------------------------------------------------------------------------

section
variable {f g : Nat → Bool} {n i : Nat}

theorem countP_range_congr (h : ∀ j < n, f j = g j) :
    (List.range n).countP f = (List.range n).countP g :=
  List.countP_congr fun j hj => by rw [h j (List.mem_range.mp hj)]

/-- One less where one goes. -/
theorem countP_range_drop (hi : i < n) (hf : f i = true) (hg : g i = false)
    (h : ∀ j, j ≠ i → f j = g j) :
    (List.range n).countP f = (List.range n).countP g + 1 := by
  induction n with
  | zero => exact absurd hi (Nat.not_lt_zero i)
  | succ n ih =>
    rw [List.range_succ, List.countP_append, List.countP_append]
    obtain hlt | rfl := Nat.lt_succ_iff_lt_or_eq.mp hi
    · rw [ih hlt, List.countP_singleton, List.countP_singleton, h n (Nat.ne_of_gt hlt)]
      omega
    · rw [countP_range_congr fun j hj => h j (Nat.ne_of_lt hj), List.countP_singleton,
        List.countP_singleton, hf, hg]
      rfl

end

section
variable {k : Job → Bool} {s s' : Loop} {i j : TaskId} {job : Job} {r : Report} {e : LoopEvent}
  {p p' : Panel} {d : Job → Prop} {o : Outside} {q : List (TaskId × Report)} {t : Turn}

theorem count_congr (hs : s'.panel.spawned = s.panel.spawned)
    (hp : ∀ i, s'.pending i = s.pending i) : s'.count k = s.count k := by
  unfold count
  rw [hs]
  refine countP_range_congr fun i _ => ?_
  rw [has, has, hp, hs]

/-- A job that is pending is counted. -/
theorem count_pos (hj : s.panel.spawned[i]? = some job) (hp : s.pending i = true)
    (hk : k job = true) : 0 < s.count k := by
  refine List.countP_pos_iff.mpr ⟨i, List.mem_range.mpr (List.getElem?_eq_some_iff.mp hj).1, ?_⟩
  rw [has, hp, hj]
  exact hk

theorem Orderly.unborn (h : s.Orderly) (hi : s.panel.spawned.length ≤ i) :
    s.threads i = .unborn := by
  have hnone := List.getElem?_eq_none hi
  cases ht : s.threads i with
  | unborn => rfl
  | running job asked =>
    have hjob := h.job i job (by rw [ht]; rfl)
    nomatch hnone.symm.trans hjob
  | ended job =>
    have hjob := h.job i job (by rw [ht]; rfl)
    nomatch hnone.symm.trans hjob

/-- A job that is begun is pending. -/
theorem Orderly.count_begin (h : s.Orderly) (hp : p.spawned = s.panel.spawned ++ [job]) :
    ({ s with panel := p } : Loop).count k = s.count k + (k job).toNat := by
  have hlength : p.spawned.length = s.panel.spawned.length + 1 := by
    rw [hp, List.length_append, List.length_singleton]
  have hpending : s.pending s.panel.spawned.length = true := by
    rw [pending, h.unborn (Nat.le_refl _)]
  have hnew : ({ s with panel := p } : Loop).has k s.panel.spawned.length = k job := by
    show (s.pending s.panel.spawned.length && (p.spawned[s.panel.spawned.length]?).any k) = k job
    rw [hpending, hp, List.getElem?_concat_length]
    rfl
  unfold count
  dsimp only
  rw [hlength, List.range_succ, List.countP_append, List.countP_singleton, hnew]
  congr 1
  · refine countP_range_congr fun i hi => ?_
    show (s.pending i && (p.spawned[i]?).any k) = (s.pending i && (s.panel.spawned[i]?).any k)
    rw [hp, List.getElem?_append_left hi]
  · cases k job with
    | false => rfl
    | true => rfl

theorem Orderly.more (h : s.Orderly) (hp : s.panel.spawned <+: p.spawned) :
    ({ s with panel := p } : Loop).Orderly := by
  have hmore {i : TaskId} {job : Job} (hi : s.panel.spawned[i]? = some job) :
      p.spawned[i]? = some job := by
    obtain ⟨jobs, hp⟩ := hp
    rw [← hp, List.getElem?_append_left (List.getElem?_eq_some_iff.mp hi).1, hi]
  refine { h with job := fun i job hj => hmore (h.job i job hj), told := fun told ht => ?_ }
  obtain ⟨hpending, job, hj, hof⟩ := h.told told ht
  exact ⟨hpending, job, hmore hj, hof⟩

-- ---------------------------------------------------------------------------
-- Kinds of jobs and of reports
-- ---------------------------------------------------------------------------

theorem of_acting (h : (job.acting && !job.isPush) = true) :
    job.acting = true ∧ job.isPush = false ∧ job.isCheck = false := by
  cases job with
  | pairProgress | enrollCancel | fwSilentCheck | fwCheck | fwUpdate | logStream => nomatch h
  | _ => exact ⟨rfl, rfl, rfl⟩

theorem of_isPush (h : job.isPush = true) : job.acting = true ∧ job.isCheck = false := by
  cases job with
  | fwUpdate prep => exact ⟨rfl, rfl⟩
  | _ => nomatch h

theorem of_isCheck (h : job.isCheck = true) : job.acting = false ∧ job.isPush = false := by
  cases job with
  | fwCheck => exact ⟨rfl, rfl⟩
  | _ => nomatch h

-- ---------------------------------------------------------------------------
-- What a thread does
-- ---------------------------------------------------------------------------

theorem Accounts.same (h : s.Accounts) (ho : s'.Orderly) (hpanel : s'.panel = s.panel)
    (hoverlaps : s'.overlaps = s.overlaps) (hp : ∀ i, s'.pending i = s.pending i) :
    s'.Accounts := by
  have hcount (k : Job → Bool) : s'.count k = s.count k :=
    count_congr (congrArg (·.spawned) hpanel) hp
  refine ⟨ho, ?_, ?_, ?_, ?_, ?_⟩
  · rw [hpanel]
    exact h.sane
  · rw [hcount, hpanel]
    exact h.checks
  · rw [hcount, hpanel]
    exact h.updates
  · rw [hcount, hpanel]
    exact h.busy
  · rw [hcount, hpanel, hoverlaps]
    exact h.acting

/-- A thread that goes on is as pending as it was. -/
theorem Accounts.goOn (h : s.Accounts) {th : Thread} (hj : th.job? = some job)
    (hs : s.panel.spawned[i]? = some job) (hover : ∀ job', s.threads i ≠ .ended job')
    (hth : ∀ job', th ≠ .ended job') :
    ({ s with threads := Function.update s.threads i th } : Loop).Accounts := by
  have hpending (j : TaskId) :
      ({ s with threads := Function.update s.threads i th } : Loop).pending j = s.pending j := by
    unfold pending
    by_cases hji : j = i
    · subst hji
      dsimp only
      rw [Function.update_self]
      cases ht : th with
      | ended job' => exact absurd ht (hth job')
      | unborn | running job' asked =>
        cases ht' : s.threads j with
        | ended job' => exact absurd ht' (hover job')
        | unborn | running job' asked => rfl
    · dsimp only
      rw [Function.update_of_ne hji]
      rfl
  refine h.same ⟨fun j job' hj' => ?_, fun told ht => ?_, fun told ht hf => ?_, h.orderly.last⟩
    rfl rfl hpending
  · dsimp only at hj' ⊢
    by_cases hji : j = i
    · subst hji
      rw [Function.update_self, hj] at hj'
      rw [← hj']
      exact hs
    · rw [Function.update_of_ne hji] at hj'
      exact h.orderly.job j job' hj'
  · rw [hpending]
    exact h.orderly.told told ht
  · obtain ⟨job', hjob'⟩ := h.orderly.ended told ht hf
    have hne : told.1 ≠ i := fun he => hover job' (he ▸ hjob')
    exact ⟨job', (Function.update_of_ne hne _ _).trans hjob'⟩

theorem Accounts.tell (h : s.Accounts) {asked : Bool} (hi : s.threads i = .running job asked)
    (hr : r.of job = true) : ({ s with
      queue := s.queue ++ [(i, r)]
      threads := Function.update s.threads i ((s.threads i).tell r) } : Loop).Accounts := by
  generalize hs' : ({ s with
    queue := s.queue ++ [(i, r)]
    threads := Function.update s.threads i ((s.threads i).tell r) } : Loop) = s'
  have hpanel : s'.panel = s.panel := by rw [← hs']
  have hqueue : s'.queue = s.queue ++ [(i, r)] := by rw [← hs']
  have hs : s.panel.spawned[i]? = some job := h.orderly.job i job (by rw [hi]; rfl)
  have hthread : s'.threads i = if r.final then .ended job else .running job asked := by
    rw [← hs']
    dsimp only
    rw [Function.update_self, hi]
    rfl
  have hother {j : TaskId} (hji : j ≠ i) : s'.threads j = s.threads j := by
    rw [← hs']
    exact Function.update_of_ne hji _ _
  have hending (j : TaskId) : s'.ending j = (s.ending j || i == j && r.final) := by
    rw [ending, hqueue, List.any_append, List.any_cons, List.any_nil, Bool.or_false]
    rfl
  have hpending (j : TaskId) : s'.pending j = s.pending j := by
    unfold pending
    by_cases hji : j = i
    · subst hji
      rw [hthread, hi, hending]
      cases hf : r.final with
      | false => rfl
      | true =>
        show (s.ending j || j == j && true) = true
        rw [beq_self_eq_true, Bool.and_self, Bool.or_true]
    · rw [hother hji, hending, beq_eq_false_iff_ne.mpr (Ne.symm hji), Bool.false_and, Bool.or_false]
  have hne {told : TaskId × Report} (ht : told ∈ s.queue) (hf : told.2.final = true) :
      told.1 ≠ i := by
    obtain ⟨job', hjob'⟩ := h.orderly.ended told ht hf
    intro he
    rw [he, hi] at hjob'
    nomatch hjob'
  refine h.same ⟨fun j job' hj' => ?_, fun told ht => ?_, fun told ht hf => ?_, ?_⟩ hpanel
    (by rw [← hs']) hpending
  · rw [hpanel]
    by_cases hji : j = i
    · subst hji
      rw [hthread] at hj'
      rw [hs, ← hj']
      cases r.final with
      | false => rfl
      | true => rfl
    · rw [hother hji] at hj'
      exact h.orderly.job j job' hj'
  · rw [hpending, hpanel]
    rw [hqueue] at ht
    obtain ht | ht := List.mem_append.mp ht
    · exact h.orderly.told told ht
    · rw [List.mem_singleton.mp ht]
      refine ⟨?_, job, hs, hr⟩
      rw [pending, hi]
  · rw [hqueue] at ht
    obtain ht | ht := List.mem_append.mp ht
    · rw [hother (hne ht hf)]
      exact h.orderly.ended told ht hf
    · rw [List.mem_singleton.mp ht] at hf ⊢
      exact ⟨job, by rw [hthread, hf]; rfl⟩
  · rw [hqueue]
    refine List.pairwise_append.mpr ⟨h.orderly.last, List.pairwise_singleton _ _, ?_⟩
    intro x hx y hy hf
    rw [List.mem_singleton.mp hy]
    exact (hne hx hf).symm

-- ---------------------------------------------------------------------------
-- What is received
-- ---------------------------------------------------------------------------

/-- The first that was told is received. -/
def pop (s : Loop) (r : Report) (q : List (TaskId × Report)) : Loop :=
  { s with panel := s.panel.receive r, queue := q }

theorem setMsg_account {msg : Str} {style : MessageStyle} :
    (p.setMsg msg style).busy = p.busy ∧ (p.setMsg msg style).fwState = p.fwState ∧
    (p.setMsg msg style).spawned = p.spawned := by
  unfold Panel.setMsg
  dsimp only
  split
  · exact ⟨rfl, rfl, rfl⟩
  split
  · exact ⟨rfl, rfl, rfl⟩
  · exact ⟨rfl, rfl, rfl⟩

theorem receive_spawned : (p.receive r).spawned = p.spawned := by
  cases r with
  | message msg style => exact setMsg_account.2.2
  | logEnded =>
    unfold Panel.receive
    dsimp only
    split
    · rfl
    · rfl
  | fwPrepared r =>
    cases r with
    | error e => rfl
    | ok prep =>
      cases prep with
      | none => rfl
      | some prep => rfl
  | fwFinished r =>
    cases r with
    | error e => rfl
    | ok v => rfl
  | _ => rfl

/-- The end of a job that is received ends it, and nothing else does. -/
theorem Orderly.pop (h : s.Orderly) (hq : s.queue = (i, r) :: q) : (s.pop r q).Orderly ∧
    ∀ k, s.count k = (s.pop r q).count k + (r.final && (s.panel.spawned[i]?).any k).toNat := by
  have hspawned : (s.pop r q).panel.spawned = s.panel.spawned := receive_spawned
  have hlast := h.last
  rw [hq, List.pairwise_cons] at hlast
  have hhead : (i, r) ∈ s.queue := by
    rw [hq]
    exact List.mem_cons_self
  have htail {told : TaskId × Report} (ht : told ∈ q) : told ∈ s.queue := by
    rw [hq]
    exact List.mem_cons_of_mem _ ht
  have hending (j : TaskId) : s.ending j = (i == j && r.final || (s.pop r q).ending j) := by
    rw [ending, hq]
    rfl
  have hother (j : TaskId) (hj : r.final = true → j ≠ i) : (s.pop r q).pending j = s.pending j := by
    show (match s.threads j with | .ended _ => (s.pop r q).ending j | _ => true) = s.pending j
    have hfirst : (i == j && r.final) = false := by
      cases hf : r.final with
      | false => exact Bool.and_false _
      | true => rw [beq_eq_false_iff_ne.mpr (Ne.symm (hj hf)), Bool.false_and]
    rw [pending, hending, hfirst, Bool.false_or]
  refine ⟨⟨fun j job hj => ?_, fun told ht => ?_, fun told ht => h.ended told (htail ht), hlast.2⟩,
    fun k => ?_⟩
  · rw [hspawned]
    exact h.job j job hj
  · rw [hspawned, hother told.1 fun hf => hlast.1 told ht hf]
    exact h.told told (htail ht)
  · obtain ⟨hpending, job, hjob, -⟩ := h.told _ hhead
    cases hf : r.final with
    | false =>
      refine (count_congr hspawned fun j => hother j fun ht => ?_).symm
      nomatch hf.symm.trans ht
    | true =>
      obtain ⟨job', hover⟩ := h.ended _ hhead hf
      have hgone : (s.pop r q).pending i = false := by
        show (match s.threads i with | .ended _ => (s.pop r q).ending i | _ => true) = false
        rw [hover]
        refine List.any_eq_false.mpr fun told ht => ?_
        rw [beq_eq_false_iff_ne.mpr (hlast.1 told ht hf)]
        exact Bool.false_ne_true
      have hhas (j : TaskId) : s.has k j = (s.pending j && (s.panel.spawned[j]?).any k) := rfl
      have hhas' (j : TaskId) :
          (s.pop r q).has k j = ((s.pop r q).pending j && (s.panel.spawned[j]?).any k) := by
        rw [has, hspawned]
      unfold count
      rw [hspawned, hjob]
      show _ = _ + (k job).toNat
      cases hk : k job with
      | true =>
        refine countP_range_drop (List.getElem?_eq_some_iff.mp hjob).1 ?_ ?_ fun j hj => ?_
        · rw [hhas, hpending, hjob]
          exact hk
        · rw [hhas', hgone, Bool.false_and]
        · rw [hhas, hhas', hother j fun _ => hj]
      | false =>
        refine countP_range_congr fun j _ => ?_
        rw [hhas, hhas']
        by_cases hj : j = i
        · subst hj
          rw [hjob]
          show (_ && k job) = (_ && k job)
          rw [hk, Bool.and_false, Bool.and_false]
        · rw [hother j fun _ => hj]

theorem toNat_le (b : Bool) : b.toNat ≤ 1 := by
  cases b with
  | false => exact Nat.zero_le _
  | true => exact Nat.le_refl _

/-- The job that the first report is of, and what its receipt does to the counts. -/
theorem Orderly.head (h : s.Orderly) (hq : s.queue = (i, r) :: q) : ∃ job, r.of job = true ∧
    (∀ k, k job = true → 0 < s.count k) ∧
    ∀ k, s.count k = (s.pop r q).count k + (r.final && k job).toNat := by
  obtain ⟨hpending, job, hjob, hof⟩ := h.told (i, r) (by rw [hq]; exact List.mem_cons_self)
  refine ⟨job, hof, fun k => count_pos hjob hpending, fun k => ?_⟩
  rw [(h.pop hq).2 k, hjob]
  rfl

theorem ne_checking (h : p.fwUpdating = true) : p.fwState ≠ .checking := by
  intro he
  unfold Panel.fwUpdating at h
  rw [he] at h
  nomatch h

theorem Accounts.checking (h : s.Accounts) (hpos : 0 < s.count Job.isCheck) :
    s.panel.fwState = .checking := by
  by_contra hne
  have hchecks := h.checks
  rw [if_neg hne] at hchecks
  omega

theorem Accounts.updating (h : s.Accounts) (hpos : 0 < s.count Job.isPush) :
    s.panel.fwUpdating = true := by
  by_contra hne
  have hupdates := h.updates
  rw [if_neg hne] at hupdates
  omega

/-- A report that the account does not depend on. -/
theorem Accounts.pop_same (h : s.Accounts) (hq : s.queue = (i, r) :: q)
    (hb : (s.panel.receive r).busy = s.panel.busy)
    (hf : (s.panel.receive r).fwState = s.panel.fwState)
    (hr : ∀ job, r.of job = true → r.final = true →
      job.acting = false ∧ job.isPush = false ∧ job.isCheck = false) : (s.pop r q).Accounts := by
  obtain ⟨job, hof, -, hcount⟩ := h.orderly.head hq
  have hsame {k : Job → Bool} (hk : r.final = true → k job = false) :
      (s.pop r q).count k = s.count k := by
    rw [hcount k]
    cases hf : r.final with
    | false => rfl
    | true =>
      rw [hk hf]
      rfl
  have hbusy : (s.pop r q).panel.busy = s.panel.busy := hb
  have hstate : (s.pop r q).panel.fwState = s.panel.fwState := hf
  have hupdating : (s.pop r q).panel.fwUpdating = s.panel.fwUpdating := by
    unfold Panel.fwUpdating
    rw [hstate]
  refine ⟨(h.orderly.pop hq).1, h.sane.receive, ?_, ?_, fun hbusy' => ?_, ?_⟩
  · rw [hsame fun hfin => (hr job hof hfin).2.2, hstate]
    exact h.checks
  · rw [hsame fun hfin => (hr job hof hfin).2.1, hupdating]
    exact h.updates
  · rw [hsame fun hfin => (hr job hof hfin).1]
    exact h.busy (hbusy.symm.trans hbusy')
  · rw [hsame fun hfin => (hr job hof hfin).1, hbusy]
    exact h.acting

/-- The end of an action. -/
theorem Accounts.pop_done (h : s.Accounts) (hq : s.queue = (i, .done) :: q) :
    (s.pop .done q).Accounts := by
  obtain ⟨job, hof, -, hcount⟩ := h.orderly.head hq
  obtain ⟨hacting, hpush, hcheck⟩ := of_acting hof
  have hchecks := h.checks
  have hupdates := h.updates
  have hact := h.acting
  have hone := toNat_le s.panel.busy
  rw [hcount, hcheck] at hchecks
  rw [hcount, hpush] at hupdates
  rw [hcount, hacting] at hact
  refine ⟨(h.orderly.pop hq).1, h.sane.receive (r := .done), hchecks, hupdates, nofun, ?_⟩
  change _ + 1 ≤ _ at hact
  show _ ≤ s.overlaps + 0
  omega

/-- What came of a check. -/
theorem Accounts.pop_prepared (h : s.Accounts) {res : Except Str (Option PreparedUpdate)}
    (hq : s.queue = (i, .fwPrepared res) :: q) : (s.pop (.fwPrepared res) q).Accounts := by
  obtain ⟨job, hof, hpos, hcount⟩ := h.orderly.head hq
  obtain ⟨hacting, hpush⟩ := of_isCheck hof
  have hchecking := h.checking (hpos _ hof)
  have hidle : ¬ s.panel.fwUpdating = true := fun hu => ne_checking hu hchecking
  have hchecks := h.checks
  have hupdates := h.updates
  rw [hcount, show job.isCheck = true from hof, if_pos hchecking] at hchecks
  rw [hcount, hpush, if_neg hidle] at hupdates
  have hstate : (s.panel.receive (.fwPrepared res)).busy = s.panel.busy ∧
      (s.panel.receive (.fwPrepared res)).fwState ≠ .checking ∧
      ¬ (s.panel.receive (.fwPrepared res)).fwUpdating = true := by
    cases res with
    | error e => exact ⟨rfl, nofun, nofun⟩
    | ok prep =>
      cases prep with
      | none => exact ⟨rfl, nofun, nofun⟩
      | some prep => exact ⟨rfl, nofun, nofun⟩
  have hbusy : (s.pop (.fwPrepared res) q).panel.busy = s.panel.busy := hstate.1
  have hsame : (s.pop (.fwPrepared res) q).count Job.acting = s.count Job.acting := by
    rw [hcount, hacting]
    rfl
  refine ⟨(h.orderly.pop hq).1, h.sane.receive, ?_, ?_, fun hbusy' => ?_, ?_⟩
  · refine Eq.trans ?_ (if_neg hstate.2.1).symm
    exact Nat.succ.inj hchecks
  · exact Eq.trans hupdates (if_neg hstate.2.2).symm
  · rw [hsame]
    exact h.busy (hbusy.symm.trans hbusy')
  · rw [hsame, hbusy]
    exact h.acting

/-- An update that goes on. -/
theorem Accounts.pop_progress (h : s.Accounts) {stage : Str} {hop hops : Nat}
    (hq : s.queue = (i, .fwProgress stage hop hops) :: q) :
    (s.pop (.fwProgress stage hop hops) q).Accounts := by
  obtain ⟨job, hof, hpos, hcount⟩ := h.orderly.head hq
  have hsame {k : Job → Bool} : (s.pop (.fwProgress stage hop hops) q).count k = s.count k :=
    (hcount k).symm
  have hupdating := h.updating (hpos _ hof)
  have hchecks := h.checks
  have hupdates := h.updates
  rw [if_neg (ne_checking hupdating)] at hchecks
  rw [if_pos hupdating] at hupdates
  refine ⟨(h.orderly.pop hq).1, h.sane.receive (r := .fwProgress stage hop hops),
    hsame.trans hchecks, hsame.trans hupdates, fun hb => ?_, ?_⟩
  · rw [hsame]
    exact h.busy hb
  · rw [hsame]
    exact h.acting

/-- The end of an update. -/
theorem Accounts.pop_finished (h : s.Accounts) {res : Except Str Str}
    (hq : s.queue = (i, .fwFinished res) :: q) : (s.pop (.fwFinished res) q).Accounts := by
  obtain ⟨job, hof, hpos, hcount⟩ := h.orderly.head hq
  obtain ⟨hacting, hcheck⟩ := of_isPush hof
  have hupdating := h.updating (hpos _ hof)
  have hchecks := h.checks
  have hupdates := h.updates
  have hact := h.acting
  have hone := toNat_le s.panel.busy
  rw [hcount, hcheck, if_neg (ne_checking hupdating)] at hchecks
  rw [hcount, show job.isPush = true from hof, if_pos hupdating] at hupdates
  rw [hcount, hacting] at hact
  have hstate : (s.panel.receive (.fwFinished res)).busy = false ∧
      (s.panel.receive (.fwFinished res)).fwState ≠ .checking ∧
      ¬ (s.panel.receive (.fwFinished res)).fwUpdating = true := by
    cases res with
    | error e => exact ⟨rfl, nofun, nofun⟩
    | ok v => exact ⟨rfl, nofun, nofun⟩
  have hbusy : (s.pop (.fwFinished res) q).panel.busy = false := hstate.1
  refine ⟨(h.orderly.pop hq).1, h.sane.receive, ?_, ?_, fun hbusy' => ?_, ?_⟩
  · exact Eq.trans hchecks (if_neg hstate.2.1).symm
  · refine Eq.trans ?_ (if_neg hstate.2.2).symm
    exact Nat.succ.inj hupdates
  · nomatch hbusy.symm.trans hbusy'
  · rw [hbusy]
    change _ + 1 ≤ _ at hact
    show _ ≤ s.overlaps + 0
    omega

theorem Accounts.pop (h : s.Accounts) (hq : s.queue = (i, r) :: q) : (s.pop r q).Accounts := by
  have hquiet {r : Report} {job : Job} (hf : r.final = false) :
      r.of job = true → r.final = true →
        job.acting = false ∧ job.isPush = false ∧ job.isCheck = false :=
    fun _ ht => nomatch hf.symm.trans ht
  cases r with
  | message msg style =>
    exact h.pop_same hq setMsg_account.1 setMsg_account.2.1 fun _ => hquiet rfl
  | logEnded =>
    refine h.pop_same hq ?_ ?_ fun job hof _ => ?_
    · unfold Panel.receive
      dsimp only
      split
      · rfl
      · rfl
    · unfold Panel.receive
      dsimp only
      split
      · rfl
      · rfl
    · cases job with
      | logStream => exact ⟨rfl, rfl, rfl⟩
      | _ => nomatch hof
  | fwSilentCheck v =>
    refine h.pop_same hq rfl rfl fun job hof _ => ?_
    cases job with
    | fwSilentCheck => exact ⟨rfl, rfl, rfl⟩
    | _ => nomatch hof
  | done => exact h.pop_done hq
  | fwPrepared res => exact h.pop_prepared hq
  | fwProgress stage hop hops => exact h.pop_progress hq
  | fwFinished res => exact h.pop_finished hq
  | _ => exact h.pop_same hq rfl rfl fun _ => hquiet rfl

theorem Accounts.receive (h : s.Accounts) : s.receive.Accounts := by
  generalize hq : s.queue = queue
  induction queue generalizing s with
  | nil =>
    have hs : s.receive = s := by
      unfold Loop.receive
      rw [hq, List.map_nil]
      show { s with queue := [] } = s
      rw [← hq]
    rw [hs]
    exact h
  | cons told q ih =>
    obtain ⟨i, r⟩ := told
    have hs : s.receive = (s.pop r q).receive := by
      unfold Loop.receive
      rw [hq]
      rfl
    rw [hs]
    exact ih (h.pop hq) rfl

-- ---------------------------------------------------------------------------
-- What the loop does
-- ---------------------------------------------------------------------------

theorem Accounts.phase (h : s.Accounts) {phase : Phase} : ({ s with phase } : Loop).Accounts :=
  ⟨⟨h.orderly.job, h.orderly.told, h.orderly.ended, h.orderly.last⟩, h.sane, h.checks, h.updates,
    h.busy, h.acting⟩

/-- Nothing is begun. -/
theorem Accounts.still (h : s.Accounts) (hp : p.Sane) (hb : p.busy = s.panel.busy)
    (hf : p.fwState = s.panel.fwState) (hs : p.spawned = s.panel.spawned) :
    ({ s with panel := p } : Loop).Accounts := by
  have hcount {k : Job → Bool} : ({ s with panel := p } : Loop).count k = s.count k :=
    count_congr hs fun _ => rfl
  have hupdating : p.fwUpdating = s.panel.fwUpdating := by
    unfold Panel.fwUpdating
    rw [hf]
  refine ⟨h.orderly.more (by rw [hs]), hp, ?_, ?_, fun hbusy => ?_, ?_⟩
  · rw [hcount, h.checks, hf]
  · rw [hcount, h.updates, hupdating]
  · rw [hcount]
    exact h.busy (hb.symm.trans hbusy)
  · rw [hcount, hb]
    exact h.acting

/-- A job is begun that the account does not depend on. -/
theorem Accounts.beside (h : s.Accounts) (hp : p.Sane) (hb : p.busy = s.panel.busy)
    (hf : p.fwState = s.panel.fwState) (hs : p.spawned = s.panel.spawned ++ [job])
    (ha : job.acting = false) (hpush : job.isPush = false) (hcheck : job.isCheck = false) :
    ({ s with panel := p } : Loop).Accounts := by
  have hcount {k : Job → Bool} (hk : k job = false) :
      ({ s with panel := p } : Loop).count k = s.count k := by
    rw [h.orderly.count_begin hs, hk]
    rfl
  have hupdating : p.fwUpdating = s.panel.fwUpdating := by
    unfold Panel.fwUpdating
    rw [hf]
  refine ⟨h.orderly.more ⟨[job], hs.symm⟩, hp, ?_, ?_, fun hbusy => ?_, ?_⟩
  · rw [hcount hcheck, h.checks, hf]
  · rw [hcount hpush, h.updates, hupdating]
  · rw [hcount ha]
    exact h.busy (hb.symm.trans hbusy)
  · rw [hcount ha, hb]
    exact h.acting

/-- An action is begun where there is none. -/
theorem Accounts.action (h : s.Accounts) (hp : p.Sane) (hfree : s.panel.busy = false)
    (hb : p.busy = true) (hf : p.fwState = s.panel.fwState)
    (hs : p.spawned = s.panel.spawned ++ [job]) (ha : job.acting = true)
    (hpush : job.isPush = false) (hcheck : job.isCheck = false) :
    ({ s with panel := p } : Loop).Accounts := by
  have hcount (k : Job → Bool) :
      ({ s with panel := p } : Loop).count k = s.count k + (k job).toNat :=
    h.orderly.count_begin hs
  have hupdating : p.fwUpdating = s.panel.fwUpdating := by
    unfold Panel.fwUpdating
    rw [hf]
  have hact := h.acting
  rw [hfree] at hact
  refine ⟨h.orderly.more ⟨[job], hs.symm⟩, hp, ?_, ?_, fun _ => ?_, ?_⟩
  · rw [hcount, hcheck, hf]
    exact h.checks
  · rw [hcount, hpush, hupdating]
    exact h.updates
  · rw [hcount, ha]
    exact Nat.succ_pos _
  · rw [hcount, ha, hb]
    exact Nat.add_le_add_right hact 1

theorem not_check (ha : job.acting = true) : job.isCheck = false := by
  cases job with
  | fwCheck => nomatch ha
  | _ => rfl

theorem Accounts.change (h : s.Accounts) (hc : Panel.Change d s.panel p) :
    ({ s with panel := p } : Loop).Accounts := by
  have hp : p.Sane := h.sane.change hc
  cases hc with
  | begin hb hj hpush hd => exact h.action hp hb rfl rfl rfl hj hpush (not_check hj)
  | enroll hb hm => exact h.action hp hb rfl rfl rfl rfl rfl rfl
  | @pair secondHost hb =>
    let mid : Panel := { s.panel with
      spawned := s.panel.spawned ++ [.pairProgress s.panel.spawned.length secondHost] }
    have hmid : ({ s with panel := mid } : Loop).Accounts :=
      h.beside { h.sane with } rfl rfl rfl rfl rfl rfl
    exact hmid.action hp hb rfl rfl (List.append_assoc _ [_] [Job.pair _]).symm rfl rfl rfl
  | cancelEnroll => exact h.beside hp rfl rfl rfl rfl rfl rfl
  | silentCheck => exact h.beside hp rfl rfl rfl rfl rfl rfl
  | openLog => exact h.beside hp rfl rfl rfl rfl rfl rfl
  | check hne hidle =>
    have hchecks := h.checks
    have hupdates := h.updates
    rw [if_neg hne] at hchecks
    rw [if_neg (Bool.eq_false_iff.mp hidle)] at hupdates
    have hcount (k : Job → Bool) : ({ s with panel := { s.panel with
        fwState := .checking, fwPrepared := none
        spawned := s.panel.spawned ++ [.fwCheck] } } : Loop).count k =
          s.count k + (k .fwCheck).toNat := h.orderly.count_begin rfl
    refine ⟨h.orderly.more ⟨[_], rfl⟩, hp, ?_, ?_, fun hb => ?_, ?_⟩
    · rw [hcount, hchecks]
      rfl
    · rw [hcount, hupdates]
      rfl
    · rw [hcount]
      exact Nat.add_pos_left (h.busy hb) _
    · rw [hcount]
      exact h.acting
  | learn hb hslot => exact h.still hp hb rfl rfl
  | _ => exact h.still hp rfl rfl rfl

theorem Accounts.changes (h : s.Accounts) (hc : Panel.Changes d s.panel p) :
    ({ s with panel := p } : Loop).Accounts := by
  induction hc with
  | refl => exact h
  | tail _ hc ih => exact ih.change hc

-- ---------------------------------------------------------------------------
-- Keys
-- ---------------------------------------------------------------------------

/-- The jobs that a change begins. -/
theorem change_spawned (hc : Panel.Change d p p') : ∃ jobs, p'.spawned = p.spawned ++ jobs ∧
    ∀ job ∈ jobs, job.isPush = false ∧ (job.harmless = true ∨ d job) := by
  have hone {job : Job} (hp : job.isPush = false) (hd : job.harmless = true ∨ d job) :
      ∃ jobs, p.spawned ++ [job] = p.spawned ++ jobs ∧
        ∀ job ∈ jobs, job.isPush = false ∧ (job.harmless = true ∨ d job) :=
    ⟨[job], rfl, fun job' hj => List.mem_singleton.mp hj ▸ ⟨hp, hd⟩⟩
  have hnone : ∃ jobs, p.spawned = p.spawned ++ jobs ∧
      ∀ job ∈ jobs, job.isPush = false ∧ (job.harmless = true ∨ d job) :=
    ⟨[], (List.append_nil _).symm, nofun⟩
  cases hc with
  | begin hb hj hp hd => exact hone hp hd
  | enroll => exact hone rfl (.inl rfl)
  | pair =>
    refine ⟨[_, _], rfl, fun job hj => ?_⟩
    obtain rfl | hj := List.mem_cons.mp hj
    · exact ⟨rfl, .inl rfl⟩
    · rw [List.mem_singleton.mp hj]
      exact ⟨rfl, .inl rfl⟩
  | cancelEnroll => exact hone rfl (.inl rfl)
  | silentCheck => exact hone rfl (.inl rfl)
  | openLog => exact hone rfl (.inl rfl)
  | check => exact hone rfl (.inl rfl)
  | _ => exact hnone

theorem changes_spawned (hc : Panel.Changes d p p') : ∃ jobs, p'.spawned = p.spawned ++ jobs ∧
    ∀ job ∈ jobs, job.isPush = false ∧ (job.harmless = true ∨ d job) := by
  induction hc with
  | refl => exact ⟨[], (List.append_nil _).symm, nofun⟩
  | tail _ hc ih =>
    obtain ⟨jobs, hjobs, hkind⟩ := ih
    obtain ⟨jobs', hjobs', hkind'⟩ := change_spawned hc
    refine ⟨jobs ++ jobs', by rw [hjobs', hjobs, List.append_assoc], fun job hj => ?_⟩
    obtain hj | hj := List.mem_append.mp hj
    · exact hkind job hj
    · exact hkind' job hj

theorem Accounts.press (h : s.Accounts)
    (hp : Panel.Changes d s.panel p ∨ s.panel.Pushes p) : (s.press p).Accounts := by
  obtain hc | hp := hp
  · obtain ⟨jobs, hjobs, hkind⟩ := changes_spawned hc
    have hpushes : s.pushes p = 0 := by
      rw [pushes, hjobs, List.drop_left]
      exact List.countP_eq_zero.mpr fun job hj => Bool.eq_false_iff.mp (hkind job hj).1
    have hpress : s.press p = { s with panel := p } := by
      unfold Loop.press
      rw [hpushes, Nat.add_zero, ite_self]
    rw [hpress]
    exact h.changes hc
  · have hsane := h.sane.pushes hp
    obtain ⟨prep, hready, -, hp⟩ := hp
    have hspawned : p.spawned = s.panel.spawned ++ [.fwUpdate prep] := by rw [hp]
    have hpushes : s.pushes p = 1 := by
      rw [pushes, hspawned, List.drop_left]
      rfl
    have hcount (k : Job → Bool) : (s.press p).count k = s.count k + (k (.fwUpdate prep)).toNat :=
      h.orderly.count_begin hspawned
    have hchecks := h.checks
    have hupdates := h.updates
    have hact := h.acting
    have hidle : ¬ s.panel.fwUpdating = true := by
      unfold Panel.fwUpdating
      rw [hready]
      nofun
    rw [if_neg (by rw [hready]; nofun)] at hchecks
    rw [if_neg hidle] at hupdates
    have ho := h.orderly.more (p := p) ⟨[_], hspawned.symm⟩
    refine ⟨⟨ho.job, ho.told, ho.ended, ho.last⟩, hsane, ?_, ?_, fun _ => ?_, ?_⟩
    · rw [hcount, hchecks, show (s.press p).panel = p from rfl, hp]
      rfl
    · rw [hcount, hupdates, show (s.press p).panel = p from rfl, hp]
      rfl
    · rw [hcount]
      exact Nat.succ_pos _
    · rw [hcount]
      show s.count Job.acting + 1 ≤ (if s.panel.busy then s.overlaps + s.pushes p else s.overlaps) +
        p.busy.toNat
      rw [hpushes, hp]
      show _ ≤ _ + 1
      refine Nat.add_le_add_right ?_ 1
      cases hb : s.panel.busy with
      | true =>
        rw [hb] at hact
        exact hact
      | false =>
        rw [hb] at hact
        exact hact

theorem Accounts.turn (h : s.Accounts) (ht : s.turn t = some s') : s'.Accounts := by
  have hrefresh {s : Loop} (h : s.Accounts) {o : Outside} :
      ({ s with panel := s.panel.refresh [] o } : Loop).Accounts :=
    h.changes (d := fun _ => False) Panel.refresh_changes
  cases t with
  | key key o =>
    unfold Loop.turn at ht
    dsimp only at ht
    split at ht
    · obtain rfl := Option.some.inj ht
      cases hout : s.panel.handleKey key o with
      | error e => exact h.phase
      | ok out =>
        have hpress {p : Panel} (hp : out.panel? = some p) : (s.press p).Accounts :=
          h.press (Panel.handleKey_cases h.sane hout hp)
        cases out with
        | quit => exact h.phase
        | again p => exact hpress rfl
        | on p req => exact (hpress rfl).phase
    · nomatch ht
  | started o =>
    unfold Loop.turn at ht
    dsimp only at ht
    split at ht
    · obtain rfl := Option.some.inj ht
      exact ((hrefresh h.receive).change (d := fun _ => False) .silentCheck).phase
    · nomatch ht
  | noKey =>
    unfold Loop.turn at ht
    dsimp only at ht
    split at ht
    · obtain rfl := Option.some.inj ht
      exact h.phase
    · nomatch ht
  | helped ok o =>
    unfold Loop.turn at ht
    dsimp only at ht
    split at ht
    next req _ =>
      obtain rfl := Option.some.inj ht
      have hsaid : ({ s with panel := s.panel.afterPamAction req ok } : Loop).Accounts :=
        h.changes (d := fun _ => False) Panel.afterPamAction_changes
      exact (hrefresh hsaid.receive).phase
    next => nomatch ht
  | drained elapsed =>
    unfold Loop.turn at ht
    dsimp only at ht
    split at ht
    · obtain rfl := Option.some.inj ht
      exact h.receive.phase
    · nomatch ht
  | refreshed o =>
    unfold Loop.turn at ht
    dsimp only at ht
    split at ht
    · obtain rfl := Option.some.inj ht
      exact (hrefresh h.receive).phase
    · nomatch ht

theorem Accounts.start : Loop.new.Accounts :=
  ⟨⟨nofun, nofun, nofun, .nil⟩, Panel.sane_new, rfl, rfl, nofun, Nat.zero_le _⟩

theorem Accounts.step (h : s.Accounts) (ha : loopMachine.allowed s e) :
    (loopMachine.step s e).Accounts := by
  cases e with
  | turn t =>
    obtain ⟨s', hs'⟩ := Option.isSome_iff_exists.mp ha
    rw [step_turn hs']
    exact h.turn hs'
  | began i job =>
    obtain ⟨hunborn, hjob⟩ := ha
    refine h.goOn rfl hjob (fun job' hj => ?_) nofun
    nomatch hunborn.symm.trans hj
  | asked i cmd =>
    obtain ⟨job, asked, hi, -⟩ := ha
    have hask : (s.threads i).ask = .running job true := by rw [hi]; rfl
    show ({ s with threads := Function.update s.threads i (s.threads i).ask } : Loop).Accounts
    rw [hask]
    refine h.goOn rfl (h.orderly.job i job (by rw [hi]; rfl)) (fun job' hj => ?_) nofun
    nomatch hi.symm.trans hj
  | told i r =>
    obtain ⟨job, asked, hi, hof⟩ := ha
    exact h.tell hi hof

theorem accounts {ok : Loop → LoopEvent → Prop} {es : List LoopEvent}
    (h : loopMachine.Trace ok es s) : s.Accounts :=
  h.invariant (I := fun _ s => s.Accounts) .start fun _ _ _ h ha _ => h.step ha

end

end Loop

end Immurok.Tui
