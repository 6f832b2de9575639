import Immurok.Async.Aspect
import Immurok.Async.Broadcast
import Immurok.Text.Lines
import Immurok.Text.Utf8

/-!
# The log stream

Any number of tasks write to the log, and any number of viewers follow it. A line
goes into the ring and then to the viewers; a viewer subscribes and then takes what
is in the ring.
-/

namespace Immurok.LogStream

open Async

def ringCapacity : Nat := 500

def broadcastCapacity : Nat := 256

/-- A line of the log. `number` is auxiliary: which of all lines it is. -/
structure LogLine where
  number : Nat
  text : Str
  deriving DecidableEq

/-- What is written to a viewer. -/
def shown : Received LogLine → Str
  | .value line => line.text ++ "\n".toList
  | .lagged n => "… ".toList ++ Str.ofNat n ++ " log lines dropped (viewer too slow)\n".toList

/-- A viewer's receiver, and what was written to it. The rest is auxiliary: what had
been emitted and sent when it subscribed, what had been emitted when it took the
lines of the ring, these lines, and what it has received and not yet written. -/
structure Viewer where
  next : Nat
  output : List (Received LogLine)
  since : Nat
  start : Nat
  taken : Option Nat
  snapshot : List LogLine
  inHand : List (Received LogLine)

/-- `LogSink` and its viewers. What was emitted and sent so far is auxiliary, and so
are the lines that were emitted and not yet sent. -/
structure LogState where
  ring : List LogLine
  channel : Broadcast LogLine
  viewers : TaskId → Option Viewer
  emitted : List LogLine
  sent : List LogLine
  unsent : List LogLine

def LogState.empty : LogState :=
  { ring := [], channel := .empty, viewers := fun _ => none, emitted := [], sent := [], unsent := [] }

-- ---------------------------------------------------------------------------
-- Writers
-- ---------------------------------------------------------------------------

def pushLine (text : Str) : Proc LogState LogLine :=
  Proc.atomically fun s =>
    let line : LogLine := { number := s.emitted.length, text }
    (line,
      { s with
        ring := pushBounded ringCapacity s.ring line
        emitted := s.emitted ++ [line]
        unsent := s.unsent ++ [line] })

def sendLine (line : LogLine) : Proc LogState Unit :=
  Proc.modify fun s =>
    { s with
      channel := s.channel.send broadcastCapacity line
      sent := s.sent ++ [line]
      unsent := s.unsent.filter (· ≠ line) }

def emitLines : List Str → Proc LogState Unit
  | [] => pure ()
  | text :: texts =>
    if text = [] then emitLines texts
    else do
      let line ← pushLine text
      sendLine line
      emitLines texts

def emit (bytes : Bytes) : Proc LogState Unit := emitLines (Str.lines (Utf8.lossy bytes))

-- ---------------------------------------------------------------------------
-- Viewers
-- ---------------------------------------------------------------------------

def LogState.onViewer (i : TaskId) (f : Viewer → Viewer) (s : LogState) : LogState :=
  { s with viewers := Function.update s.viewers i ((s.viewers i).map f) }

def subscribe (i : TaskId) : Proc LogState Unit :=
  Proc.modify fun s =>
    { s with
      viewers := Function.update s.viewers i (some
        { next := s.channel.tail, output := [], since := s.emitted.length
          start := s.channel.tail, taken := none, snapshot := [], inHand := [] }) }

def snapshot (i : TaskId) : Proc LogState (List LogLine) :=
  Proc.atomically fun s =>
    (s.ring, s.onViewer i fun v => { v with taken := some s.emitted.length, snapshot := s.ring })

def Viewer.written (r : Received LogLine) (v : Viewer) : Viewer :=
  { v with output := v.output ++ [r], inHand := [] }

/-- The viewer may be gone when something is written. -/
def write (i : TaskId) (r : Received LogLine) : Proc LogState Bool :=
  .act (fun s => [(true, s.onViewer i (·.written r)), (false, s)]) .ret

def writeAll (i : TaskId) : List LogLine → Proc LogState Bool
  | [] => pure true
  | line :: lines => do
    let ok ← write i (.value line)
    if ok then writeAll i lines else pure false

inductive Round
  | heard (r : Received LogLine)
  | away
  | input

/-- A message, or something from the viewer. The channel is never closed. -/
def round (i : TaskId) : Proc LogState Round :=
  Proc.select [
    fun s => (s.viewers i).bind fun v => (s.channel.recv v.next).map fun (r, next) =>
      (.heard r, s.onViewer i fun v => { v with next, inHand := [r] }),
    fun s => some (.away, s),
    fun s => some (.input, s)]

def stream (i : TaskId) : Proc LogState Unit :=
  Proc.loop do
    match ← round i with
    | .heard r => do
      let ok ← write i r
      pure (if ok then none else some ())
    | .away => pure (some ())
    | .input => pure none

def serve (i : TaskId) : Proc LogState Unit := do
  subscribe i
  let lines ← snapshot i
  let ok ← writeAll i lines
  if ok then stream i else pure ()

-- ---------------------------------------------------------------------------
-- The system
-- ---------------------------------------------------------------------------

def start : Config LogState := ⟨.empty, fun _ => none⟩

-- ---------------------------------------------------------------------------
-- What is true all along
-- ---------------------------------------------------------------------------

/-- The lines of the snapshot come first, and then what the channel has brought. -/
def Viewer.Following (v : Viewer) (sent : List LogLine) : Prop :=
  ∃ live, v.output = v.snapshot.map .value ++ live ∧
    Heard ((sent.take v.next).drop v.start) (live ++ v.inHand)

structure Viewer.Sound (s : LogState) (v : Viewer) : Prop where
  start_next : v.start ≤ v.next
  next_sent : v.next ≤ s.sent.length
  since : v.since ≤ s.emitted.length
  early : ∀ line ∈ s.sent.take v.start, line.number < v.since
  snapshot : ∀ n ∈ v.taken, v.since ≤ n ∧ n ≤ s.emitted.length ∧
    v.snapshot = (s.emitted.take n).rtake ringCapacity
  output : (v.next = v.start ∧ v.inHand = [] ∧ v.output <+: v.snapshot.map .value) ∨
    v.Following s.sent

structure LogInv (s : LogState) : Prop where
  ring : s.ring = s.emitted.rtake ringCapacity
  channel : s.channel.Holds broadcastCapacity s.sent
  numbered : ∀ (n : Nat) (line : LogLine), s.emitted[n]? = some line → line.number = n
  nonempty : ∀ line ∈ s.emitted, line.text ≠ []
  sent : ∀ line ∈ s.sent, line ∈ s.emitted
  accounted : ∀ line ∈ s.emitted, line ∈ s.sent ∨ line ∈ s.unsent
  viewers : ∀ i v, s.viewers i = some v → v.Sound s

/-- Nothing is taken back. -/
structure LogState.Grows (s s' : LogState) : Prop where
  emitted : s.emitted <+: s'.emitted
  sent : s.sent <+: s'.sent

theorem LogState.Grows.refl (s : LogState) : s.Grows s := ⟨List.prefix_rfl, List.prefix_rfl⟩

/-- A task leaves the viewers of the others alone. -/
def logProtocol : Protocol LogState where
  inv := LogInv
  rely i s s' := s'.viewers i = s.viewers i ∧ s.Grows s'
  guar i s s' := (∀ j, j ≠ i → s'.viewers j = s.viewers j) ∧ s.Grows s'
  rely_refl _ s := ⟨rfl, .refl s⟩
  rely_trans _ _ _ _ h h' :=
    ⟨h'.1.trans h.1, h.2.emitted.trans h'.2.emitted, h.2.sent.trans h'.2.sent⟩

section
variable {s s' : LogState} {v v' : Viewer} {i : TaskId} {line : LogLine} {text : Str}
  {r : Received LogLine} {n : Nat}

/-- What is added to the log and to the channel does not concern a viewer. -/
theorem Viewer.Sound.mono (h : v.Sound s) (hgrows : s.Grows s') : v.Sound s' := by
  obtain ⟨hemitted, hsent⟩ := hgrows
  have take_eq {α : Type} {xs ys : List α} {n : Nat} (hp : xs <+: ys) (hn : n ≤ xs.length) :
      ys.take n = xs.take n := by
    obtain ⟨zs, rfl⟩ := hp
    exact List.take_append_of_le_length hn
  refine ⟨h.start_next, h.next_sent.trans hsent.length_le, h.since.trans hemitted.length_le, ?_, ?_,
    ?_⟩
  · rw [take_eq hsent (h.start_next.trans h.next_sent)]
    exact h.early
  · intro n hn
    obtain ⟨hsince, hlen, hsnapshot⟩ := h.snapshot n hn
    exact ⟨hsince, hlen.trans hemitted.length_le, by rw [take_eq hemitted hlen]; exact hsnapshot⟩
  · refine h.output.imp_right fun hfollowing => ?_
    unfold Viewer.Following
    rw [take_eq hsent h.next_sent]
    exact hfollowing

theorem LogInv.push (h : LogInv s) (ht : text ≠ []) : LogInv
    { s with
      ring := pushBounded ringCapacity s.ring ⟨s.emitted.length, text⟩
      emitted := s.emitted ++ [⟨s.emitted.length, text⟩]
      unsent := s.unsent ++ [⟨s.emitted.length, text⟩] } := by
  refine ⟨?_, h.channel, ?_, ?_, ?_, ?_, ?_⟩
  · rw [h.ring]
    exact pushBounded_rtake (by decide)
  · intro n line hn
    dsimp only at hn
    rw [List.getElem?_append] at hn
    split at hn
    · exact h.numbered n line hn
    next hlt =>
      obtain ⟨hidx, rfl⟩ := List.getElem?_eq_some_iff.mp hn
      rw [List.length_singleton] at hidx
      simp only [List.getElem_singleton]
      omega
  · intro line hline
    obtain hline | hline := List.mem_append.mp hline
    · exact h.nonempty line hline
    · obtain rfl := List.mem_singleton.mp hline
      exact ht
  · exact fun line hline => List.mem_append_left _ (h.sent line hline)
  · intro line hline
    obtain hline | hline := List.mem_append.mp hline
    · exact (h.accounted line hline).imp_right (List.mem_append_left _)
    · exact .inr (List.mem_append_right _ hline)
  · exact fun i v hv => (h.viewers i v hv).mono ⟨List.prefix_append _ _, List.prefix_rfl⟩

theorem LogInv.send (h : LogInv s) (hline : line ∈ s.emitted) : LogInv
    { s with
      channel := s.channel.send broadcastCapacity line
      sent := s.sent ++ [line]
      unsent := s.unsent.filter (· ≠ line) } := by
  refine ⟨h.ring, h.channel.send (by decide), h.numbered, h.nonempty, ?_, ?_, ?_⟩
  · intro line' hline'
    obtain hline' | hline' := List.mem_append.mp hline'
    · exact h.sent line' hline'
    · exact List.mem_singleton.mp hline' ▸ hline
  · intro line' hline'
    by_cases heq : line' = line
    · exact .inl (List.mem_append_right _ (List.mem_singleton.mpr heq))
    · refine (h.accounted line' hline').imp (List.mem_append_left _) fun hunsent => ?_
      exact List.mem_filter.mpr ⟨hunsent, decide_eq_true heq⟩
  · exact fun i v hv => (h.viewers i v hv).mono ⟨List.prefix_rfl, List.prefix_append _ _⟩

/-- Once true it stays true. -/
def Lasting (F : LogState → Prop) : Prop := ∀ s s', s.Grows s' → F s → F s'

theorem Lasting.stable {F : LogState → Prop} (hF : Lasting F) : logProtocol.Stable i F :=
  fun s s' h hr _ => hF s s' hr.2 h

theorem Lasting.and {F G : LogState → Prop} (hF : Lasting F) (hG : Lasting G) :
    Lasting fun s => F s ∧ G s :=
  fun s s' hg h => ⟨hF s s' hg h.1, hG s s' hg h.2⟩

/-- The viewer has subscribed, and `A` is true of it. -/
def Has (A : Viewer → Prop) (o : Option Viewer) : Prop := ∃ v, o = some v ∧ A v

/-- Nothing was written to it. -/
def Fresh (v : Viewer) : Prop := v.next = v.start ∧ v.inHand = [] ∧ v.output = []

/-- A step that does nothing but put the viewer of its task. -/
theorem LogInv.put {A : Viewer → Prop} (h : LogInv s) (hv : v.Sound s) (ha : A v)
    (hs' : s' = { s with viewers := Function.update s.viewers i (some v) }) :
    logProtocol.guar i s s' ∧ LogInv s' ∧ Has A (s'.viewers i) := by
  have hself : s'.viewers i = some v := hs' ▸ Function.update_self ..
  have hother : ∀ j, j ≠ i → s'.viewers j = s.viewers j :=
    fun j hj => hs' ▸ Function.update_of_ne hj ..
  have hsound : ∀ j w, s'.viewers j = some w → w.Sound s := by
    intro j w hw
    by_cases hji : j = i
    · rw [hji, hself] at hw
      exact Option.some.inj hw ▸ hv
    · exact h.viewers j w ((hother j hji).symm.trans hw)
  have hgrows : s.Grows s' := hs' ▸ ⟨List.prefix_rfl, List.prefix_rfl⟩
  refine ⟨⟨hother, hgrows⟩, ?_, v, hself, ha⟩
  subst hs'
  exact ⟨h.ring, h.channel, h.numbered, h.nonempty, h.sent, h.accounted,
    fun j w hw => (hsound j w hw).mono hgrows⟩

theorem LogInv.onViewer {f : Viewer → Viewer} {A : Viewer → Prop} (h : LogInv s)
    (hv : s.viewers i = some v) (hf : (f v).Sound s) (ha : A (f v)) :
    logProtocol.guar i s (s.onViewer i f) ∧ LogInv (s.onViewer i f) ∧
      Has A ((s.onViewer i f).viewers i) :=
  h.put hf ha (by rw [LogState.onViewer, hv, Option.map_some])

theorem LogInv.empty : LogInv .empty where
  ring := (List.rtake_nil _).symm
  channel := Broadcast.empty_holds
  numbered _ _ h := nomatch h
  nonempty _ h := nomatch h
  sent _ h := nomatch h
  accounted _ h := nomatch h
  viewers _ _ h := nomatch h

/-- On its way to the viewer. What is in hand is the line, or how many lines it is
one of. -/
inductive Viewer.Awaits (s : LogState) (v : Viewer) (line : LogLine) : Prop
  | unsent : line ∈ s.unsent → Awaits s v line
  | unreceived : line ∈ s.sent.drop v.next → Awaits s v line
  | inHand : .value line ∈ v.inHand ∨ (∃ k, .lagged k ∈ v.inHand) → Awaits s v line

/-- Of the snapshot, and not yet written. -/
def Viewer.Owed (v : Viewer) (line : LogLine) : Prop :=
  ∃ rest, v.snapshot.map .value = v.output ++ rest ∧ .value line ∈ rest

theorem LogInv.after (h : LogInv s) (hv : v.Sound s) (hline : line ∈ s.emitted)
    (hsince : v.since ≤ line.number) :
    .value line ∈ v.output ∨ (∃ k, .lagged k ∈ v.output) ∨ v.Awaits s line := by
  obtain hsent | hunsent := h.accounted line hline
  · rw [← List.take_append_drop v.next s.sent] at hsent
    obtain hbefore | hdrop := List.mem_append.mp hsent
    · have hlate : line ∈ (s.sent.take v.next).drop v.start := by
        rw [← List.take_append_drop v.start (s.sent.take v.next), List.take_take,
          Nat.min_eq_left hv.start_next] at hbefore
        refine (List.mem_append.mp hbefore).resolve_left fun hearly => ?_
        exact absurd (hv.early line hearly) (Nat.not_lt.mpr hsince)
      obtain ⟨hnext, -, -⟩ | ⟨live, houtput, hheard⟩ := hv.output
      · rw [hnext, List.drop_eq_nil_of_le (List.length_take_le _ _)] at hlate
        nomatch hlate
      · have hlive : ∀ r ∈ live, r ∈ v.output :=
          fun r hr => houtput ▸ List.mem_append_right _ hr
        obtain hgot | ⟨k, htold⟩ := hheard.received_or_told hlate
        · obtain hgot | hgot := List.mem_append.mp hgot
          · exact .inl (hlive _ hgot)
          · exact .inr (.inr (.inHand (.inl hgot)))
        · obtain htold | htold := List.mem_append.mp htold
          · exact .inr (.inl ⟨k, hlive _ htold⟩)
          · exact .inr (.inr (.inHand (.inr ⟨k, htold⟩)))
    · exact .inr (.inr (.unreceived hdrop))
  · exact .inr (.inr (.unsent hunsent))

theorem LogInv.before (h : LogInv s) (hv : v.Sound s) (htaken : v.taken = some n)
    (hline : line ∈ s.emitted) (hlt : line.number < n) (hlast : n ≤ line.number + ringCapacity) :
    .value line ∈ v.output ∨ v.Owed line := by
  obtain ⟨-, hlen, hsnapshot⟩ := hv.snapshot n htaken
  have hmem : line ∈ v.snapshot := by
    obtain ⟨k, hk⟩ := List.mem_iff_getElem?.mp hline
    obtain rfl := h.numbered k line hk
    rw [hsnapshot, List.rtake, List.length_take, Nat.min_eq_left hlen]
    have hidx : n - ringCapacity + (line.number - (n - ringCapacity)) = line.number := by omega
    refine List.mem_iff_getElem?.mpr ⟨line.number - (n - ringCapacity), ?_⟩
    rw [List.getElem?_drop, hidx, List.getElem?_take, if_pos hlt, hk]
  have hvalue : .value line ∈ v.snapshot.map Received.value := List.mem_map_of_mem hmem
  obtain ⟨-, -, rest, hrest⟩ | ⟨live, houtput, -⟩ := hv.output
  · rw [← hrest] at hvalue
    exact (List.mem_append.mp hvalue).imp_right fun hvalue => ⟨rest, hrest.symm, hvalue⟩
  · exact .inl (houtput ▸ List.mem_append_left _ hvalue)

end

end Immurok.LogStream
