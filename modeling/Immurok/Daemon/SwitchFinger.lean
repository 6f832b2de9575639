import Immurok.Async.Amid
import Immurok.Daemon.Sound

/-!
# The finger that switches hosts

A signed match names the slot of the finger. What the worker does about a
match does not depend on it: whatever waits for a touch is given the match of
any finger.
-/

namespace Immurok

open Async

-- ---------------------------------------------------------------------------
-- What a match is used for
-- ---------------------------------------------------------------------------

/-- `u16::from_le_bytes` of the two bytes behind the first. -/
def pageId (f : Frame) : Nat := (f.data.getD 1 0).toNat + 2 ^ 8 * (f.data.getD 2 0).toNat

/-- What the worker finds when a match comes in. -/
structure MatchState where
  pairFpGate : Bool
  /-- a gate or an authentication waits for the answer of the device -/
  gated : Bool
  pairing : Option PairingData
  /-- the entry in the slot of pending requests, and whether its handler waits -/
  slot : Option (TaskId × Option Entry × Bool)
  locked : Bool
  unlockScreen : Bool
  owner : Option Nat
  deriving DecidableEq

def Daemon.matchState (s : Daemon) : MatchState where
  pairFpGate := s.ble.pairFpGate
  gated := s.ble.gatePending || s.ble.authPending
  pairing := s.coord.pairing
  slot := s.coord.pendingPam.map fun i => (i, (s.aux.client i).entry, (s.pending i).isOpen)
  locked := s.coord.screenLocked
  unlockScreen := s.coord.settings.unlockScreen
  owner := readOwner s.files.owner

/-- A request that a user has asked for and waits for. -/
def Entry.asks (entry : Option Entry) (waiting : Bool) : Bool :=
  waiting && (entry == some .auth || entry == some .agent)

/-- The request is approved, the screen unlocked, or a window armed. -/
def Daemon.Grants (s : Daemon) : Ev → Prop
  | .approved i _ waiting => Entry.asks (s.aux.client i).entry waiting = true
  | .unlocked _ => True
  | .windowArmed _ _ _ _ _ => True
  | _ => False

def Harmless (s s' : Daemon) : Prop := ∀ e, s'.log = e :: s.log → ¬ s.Grants e

/-- Nobody whose screen could be unlocked. -/
def MatchState.NoUnlock (m : MatchState) : Prop :=
  ¬ (m.locked = true ∧ m.unlockScreen = true ∧ m.owner.isSome)

/-- The coordinator has nothing to use a match for. -/
def MatchState.Idle (m : MatchState) : Prop :=
  match m.slot with
  | some (_, entry, waiting) => Entry.asks entry waiting = false ∧ m.locked = false
  | none => m.NoUnlock

/-- Nor does the match get there. -/
def MatchState.Unused (m : MatchState) : Prop :=
  m.pairFpGate = true ∨ m.gated = true ∨ m.Idle

-- ---------------------------------------------------------------------------
-- Steps
-- ---------------------------------------------------------------------------

/-- The others leave what the worker finds as it is. -/
def around : Protocol Daemon where
  inv _ := True
  rely _ s s' := s'.matchState = s.matchState
  guar _ := Harmless
  rely_refl _ _ := rfl
  rely_trans _ _ _ _ h h' := h'.trans h

variable {ext : Extern} {f : Frame} {m : MatchState} {p : PairingData} {s s' : Daemon}
  {α β : Type}

abbrev Around (A : MatchState → Prop) (t : Code α) (B : α → MatchState → Prop) : Prop :=
  around.Triple 0 (fun s => A s.matchState) t fun a s => B a s.matchState

theorem around_stable {A : MatchState → Prop} : around.Stable 0 fun s => A s.matchState := by
  intro s s' ha hr _
  have hm : s'.matchState = s.matchState := hr
  rwa [hm]

theorem Harmless.of_log (h : s'.log = s.log) : Harmless s s' := fun e he => by
  rw [h] at he
  exact absurd (congrArg List.length he) (by simp)

theorem Harmless.of_event {e : Ev} (h : s'.log = e :: s.log) (he : ¬ s.Grants e) :
    Harmless s s' :=
  fun e' he' => by
    rw [h] at he'
    exact (List.cons.inj he').1 ▸ he

namespace Around

variable {A A' : MatchState → Prop} {B : α → MatchState → Prop}

theorem ret {a : α} (h : ∀ m, A m → B a m) : Around A (.ret a) B :=
  Protocol.Triple.ret around_stable fun s _ => h s.matchState

theorem bind {t : Code β} {g : β → Code α} {M : β → MatchState → Prop} (h : Around A t M)
    (hg : ∀ b, Around (M b) (g b) B) : Around A (t.bind g) B :=
  Protocol.Triple.bind h hg

theorem act {g : Daemon → List (α × Daemon)}
    (h : ∀ s a s', A s.matchState → (a, s') ∈ g s → Harmless s s' ∧ B a s'.matchState) :
    Around A (.act g .ret) B :=
  Protocol.Triple.act (M := fun a s => B a s.matchState) around_stable
    (fun s a s' _ ha hm => ⟨(h s a s' ha hm).1, trivial, (h s a s' ha hm).2⟩) fun _ =>
      ret fun _ => id

theorem atomically {g : Daemon → α × Daemon}
    (h : ∀ s, A s.matchState → Harmless s (g s).2 ∧ B (g s).1 (g s).2.matchState) :
    Around A (Proc.atomically g) B :=
  act fun s a s' ha hm => by
    obtain ⟨rfl, rfl⟩ := Prod.mk.inj (List.mem_singleton.mp hm)
    exact h s ha

theorem get {g : Daemon → α} (h : ∀ s, A s.matchState → B (g s) s.matchState) :
    Around A (Proc.get g) B :=
  atomically fun s ha => ⟨.of_log rfl, h s ha⟩

theorem when {b : Bool} {t : Code Unit} {B : Unit → MatchState → Prop}
    (ht : b = true → Around A t B) (hu : b = false → ∀ m, A m → B () m) :
    Around A (Proc.when b t) B := by
  unfold Proc.when
  split
  next h => exact ht h
  next h => exact ret (hu (by simpa using h))

/-- What is known apart from the state. -/
theorem known {q : Prop} {t : Code α} (h : q → Around A t B) : Around (fun m => A m ∧ q) t B :=
  fun s hi ⟨ha, hq⟩ => h hq s hi ha

end Around

/-- Code that neither grants anything nor changes what a match finds. -/
def Mild (t : Code α) : Prop := ∀ A : MatchState → Prop, Around A t fun _ => A

namespace Mild

theorem ret {a : α} : Mild (.ret a : Code α) := fun _ => .ret fun _ => id

theorem bind {t : Code β} {g : β → Code α} (h : Mild t) (hg : ∀ b, Mild (g b)) :
    Mild (t.bind g) :=
  fun A => .bind (h A) fun b => hg b A

theorem act {g : Daemon → List (α × Daemon)}
    (h : ∀ s a s', (a, s') ∈ g s → Harmless s s' ∧ s'.matchState = s.matchState) :
    Mild (.act g .ret) :=
  fun A => .act fun s a s' ha hm => by
    obtain ⟨hh, hs⟩ := h s a s' hm
    rw [hs]
    exact ⟨hh, ha⟩

theorem get {g : Daemon → α} : Mild (Proc.get g) := fun _ => .get fun _ => id

theorem modify {g : Daemon → Daemon}
    (h : ∀ s, Harmless s (g s) ∧ (g s).matchState = s.matchState) : Mild (Proc.modify g) :=
  .act fun s a s' hm => by
    obtain ⟨-, rfl⟩ := Prod.mk.inj (List.mem_singleton.mp hm)
    exact h s

theorem ite {q : Prop} [Decidable q] {t u : Code α} (ht : Mild t) (hu : Mild u) :
    Mild (if q then t else u) := by
  split
  · exact ht
  · exact hu

end Mild

theorem awaitHelper_mild : Mild awaitHelper := by
  refine .bind .get fun now => .act fun s r s' hm => ?_
  simp only [List.mem_filterMap, List.mem_cons, List.not_mem_nil, or_false] at hm
  obtain ⟨b, rfl | rfl, hb⟩ := hm
  · unfold replyLineBranch at hb
    split at hb
    · cases hb
      exact ⟨.of_log rfl, rfl⟩
    · split at hb
      · cases hb
        exact ⟨.of_log rfl, rfl⟩
      · cases hb
  · unfold deadlineBranch at hb
    split at hb
    · cases hb
      exact ⟨.of_log rfl, rfl⟩
    · cases hb

theorem waitWriteOk_mild : Mild waitWriteOk := by
  refine .bind awaitHelper_mild fun reply => ?_
  cases reply with
  | line line =>
    refine .ite .ret ?_
    split
    · exact .ret
    · exact .ret
  | closed => exact .ret
  | timeout => exact .ret

theorem sendAck_mild : Mild sendAck := by
  refine .bind (.bind (.act fun s r s' hm => ?_) fun r => ?_) fun _ => .ret
  · obtain hm | hm := List.mem_pair.mp hm
    · obtain ⟨-, rfl⟩ := Prod.mk.inj hm
      exact ⟨.of_event rfl id, rfl⟩
    · obtain ⟨-, rfl⟩ := Prod.mk.inj hm
      exact ⟨.of_log rfl, rfl⟩
  · cases r with
    | error e => exact .ret
    | ok => exact waitWriteOk_mild

theorem setLastAuthFlow_mild : Mild setLastAuthFlow :=
  .bind .get fun _ => .modify fun _ => ⟨.of_log rfl, rfl⟩

/-- The screen is not locked: nothing follows on an entry taken from the slot. -/
theorem onApproved_around : Around (·.locked = false) (onApproved ext) fun _ _ => True := by
  refine .bind (setLastAuthFlow_mild _) fun _ => .bind (M := fun b _ => b = false)
    (.atomically fun s hl => ⟨.of_event rfl id, hl⟩) fun locked => ?_
  refine .when (fun hb s _ hl => ?_) fun _ _ _ => trivial
  exact absurd (hb.symm.trans hl) (by decide)

theorem onNoRequest_around : Around (·.NoUnlock) (onNoRequest ext) fun _ _ => True := by
  refine .bind (M := fun b m => m.NoUnlock ∧ b = m.unlockScreen) (.get fun s hn => ⟨hn, rfl⟩)
    fun enabled => .bind (M := fun b m => (b && enabled) = true → m.owner = none)
      (.get fun s ⟨hn, he⟩ hb => ?_) fun locked => .when (fun hb => ?_) fun _ _ _ => trivial
  · obtain ⟨hl, he'⟩ := Bool.and_eq_true_iff.mp hb
    cases ho : s.matchState.owner with
    | none => rfl
    | some uid => exact absurd ⟨hl, he ▸ he', by simp [ho]⟩ hn
  · refine .bind (setLastAuthFlow_mild _) fun _ => .bind (M := fun r _ => r = none)
      (.bind (M := fun owner _ => owner = none) (.get fun s h => h hb) fun owner => ?_)
      fun session => ?_
    · cases owner with
      | none => exact .ret fun _ _ => rfl
      | some uid => exact fun s _ h => nomatch h
    · cases session with
      | none => exact .ret fun _ _ => trivial
      | some session => exact fun s _ h => nomatch h

theorem onFpMatch_around (hidle : m.Idle) :
    Around (· = m) (onFpMatch ext f) fun _ _ => True := by
  unfold MatchState.Idle at hidle
  refine .bind (M := fun approved m =>
    if approved = true then m.locked = false else m.NoUnlock)
    (.atomically fun s hs => ?_) fun approved => ?_
  · subst hs
    split
    next hp =>
      have hnone : s.matchState.slot = none := by simp [Daemon.matchState, hp]
      rw [hnone] at hidle
      exact ⟨.of_log rfl, hidle⟩
    next i hp =>
      have hsome : s.matchState.slot =
          some (i, (s.aux.client i).entry, (s.pending i).isOpen) := by
        simp [Daemon.matchState, hp]
      rw [hsome] at hidle
      refine ⟨.of_event rfl fun h => ?_, hidle.2⟩
      exact absurd (hidle.1.symm.trans h) (by decide)
  · cases approved with
    | true => exact onApproved_around
    | false => exact onNoRequest_around

/-- Where nothing is there to use it for, the match of any finger does nothing. -/
theorem handleFpMatchSigned_around (hu : m.Unused) :
    Around (· = m) (handleFpMatchSigned ext f) fun _ _ => True := by
  refine .bind (M := fun b m' => m' = m ∧ b = m.pairFpGate) (.get fun s hs => ⟨hs, ?_⟩)
    fun pairFpGate => .known fun hg => ?_
  · rw [← hs]
    rfl
  cases pairFpGate with
  | true =>
    rw [if_pos rfl]
    exact Protocol.Triple.post (sendAck_mild (· = m)) fun _ _ _ _ => trivial
  | false =>
    refine .bind (M := fun _ => (· = m)) (.atomically fun s hs => ⟨.of_event rfl id, hs⟩)
      fun pairing => ?_
    cases pairing with
    | none => exact .ret fun _ _ => trivial
    | some p =>
      dsimp only
      split
      next => exact .ret fun _ _ => trivial
      next =>
        have hverified : Mild (Proc.modify (Daemon.note (.matchVerified p.sharedKey f))) :=
          .modify fun s => ⟨.of_event rfl id, rfl⟩
        refine .bind (hverified (· = m)) fun _ =>
          .bind (sendAck_mild (· = m)) fun _ =>
            .bind (M := fun b m' => m' = m ∧ b = m.gated) (.get fun s hs => ⟨hs, ?_⟩)
              fun waiting => .known fun hw => .when (fun hb => ?_) fun _ _ _ => trivial
        · rw [← hs]
          rfl
        · exact onFpMatch_around
            ((hu.resolve_left (by simp [← hg])).resolve_left (by simpa [← hw] using hb))

-- ---------------------------------------------------------------------------
-- When a match is of use
-- ---------------------------------------------------------------------------

/-- The worker gets as far as the use of the match. -/
theorem match_reaches (hg : s.matchState.pairFpGate = false) (hw : s.matchState.gated = false)
    (hp : s.coord.pairing = some p) (hv : verifyFpMatchSigned ext p.sharedKey f = true) :
    (handleFpMatchSigned ext f).Stops s (onFpMatch ext f)
      ((s.note (.pairingRead (some p.sharedKey))).note (.matchVerified p.sharedKey f)) := by
  have hg' : s.ble.pairFpGate = false := hg
  have hw' : (s.ble.gatePending || s.ble.authPending) = false := hw
  refine @Proc.Stops.of_follow _ _ _ _ _ _ [0, 0, 0, 1, 0] _ _ .start ?_
  simp [Proc.follow, handleFpMatchSigned, readBle, loadPairing, sendAck, cmdWrite, tryThen,
    writeLine, Proc.get, Proc.atomically, Proc.modify, Proc.step, Proc.bind, Proc.when, hg', hw',
    hp, hv, Daemon.note]

/-- The step grants something. -/
def Granting (s s' : Daemon) : Prop := ∃ e, s'.log = e :: s.log ∧ s.Grants e

theorem onApproved_mayGrant (hl : s.coord.screenLocked = true) :
    (onApproved ext).MayTake Granting s := by
  obtain ⟨u, s', hs, hu⟩ : ∃ u s', (onApproved ext).Stops s u s' ∧ u.MayTake Granting s' := by
    refine ⟨_, _, @Proc.Stops.of_follow _ _ _ _ _ _ [0, 0, 0, 0] _ _ .start (by
      simp [Proc.follow, onApproved, setLastAuthFlow, loadScreenLocked, clock, store, setPreAuth,
        Proc.get, Proc.atomically, Proc.modify, Proc.step, Proc.bind, Proc.when, hl, Daemon.note]
      exact ⟨rfl, rfl⟩), ?_⟩
    exact .here (.head _) ⟨_, rfl, trivial⟩
  exact .after hs hu

theorem onNoRequest_mayGrant (hn : ¬ s.matchState.NoUnlock) :
    (onNoRequest ext).MayTake Granting s := by
  obtain ⟨hl, hu, ho⟩ := not_not.mp hn
  obtain ⟨uid, ho⟩ := Option.isSome_iff_exists.mp ho
  have hl' : s.coord.screenLocked = true := hl
  have hu' : s.coord.settings.unlockScreen = true := hu
  have ho' : readOwner s.files.owner = some uid := ho
  obtain ⟨u, s', hs, hu⟩ : ∃ u s', (onNoRequest ext).Stops s u s' ∧ u.MayTake Granting s' := by
    refine ⟨_, _, @Proc.Stops.of_follow _ _ _ _ _ _ [0, 0, 0, 0, 0, 0, 0] _ _ .start (by
      simp [Proc.follow, onNoRequest, setLastAuthFlow, clock, store, load, unlockScreen,
        targetSession, ownerUid, graphicalSessionId, Proc.choose,
        Proc.get, Proc.modify, Proc.step, Proc.bind, Proc.when, hl', hu', ho']
      exact ⟨rfl, rfl⟩), ?_⟩
    exact .here (.head _) ⟨_, rfl, trivial⟩
  exact .after hs hu

theorem onFpMatch_mayGrant (hidle : ¬ s.matchState.Idle) :
    (onFpMatch ext f).MayTake Granting s := by
  unfold MatchState.Idle at hidle
  cases hp : s.coord.pendingPam with
  | none =>
    have hnone : s.matchState.slot = none := by simp [Daemon.matchState, hp]
    rw [hnone] at hidle
    refine .atomically ?_
    rw [hp]
    exact onNoRequest_mayGrant hidle
  | some i =>
    have hsome : s.matchState.slot =
        some (i, (s.aux.client i).entry, (s.pending i).isOpen) := by
      simp [Daemon.matchState, hp]
    rw [hsome] at hidle
    by_cases ha : Entry.asks (s.aux.client i).entry (s.pending i).isOpen = true
    · refine .now ?_
      rw [hp]
      exact ⟨_, rfl, ha⟩
    · have hl : s.coord.screenLocked = true := by
        cases hl : s.coord.screenLocked with
        | true => rfl
        | false => exact absurd ⟨by simpa using ha, hl⟩ hidle
      refine .atomically ?_
      rw [hp]
      exact onApproved_mayGrant hl

theorem handleFpMatchSigned_mayGrant (hp : s.coord.pairing = some p)
    (hv : verifyFpMatchSigned ext p.sharedKey f = true) (hu : ¬ s.matchState.Unused) :
    (handleFpMatchSigned ext f).MayTake Granting s := by
  obtain ⟨hg, hu⟩ := not_or.mp hu
  obtain ⟨hw, hidle⟩ := not_or.mp hu
  exact .after (match_reaches (eq_false_of_ne_true hg) (eq_false_of_ne_true hw) hp hv)
    (onFpMatch_mayGrant hidle)

/-- However the worker gets on with the match while the others leave what it
finds, no step grants anything. -/
def Daemon.MatchHarmless (ext : Extern) (f : Frame) (s : Daemon) : Prop :=
  ∀ u s' u' s'', (handleFpMatchSigned ext f).Amid (around.Others 0) s u s' →
    (u', s'') ∈ u.step s' → Harmless s' s''

/-- The match of any finger, the one that switches hosts too, is harmless just
where there is nothing it could be used for. -/
theorem match_harmless_iff (hp : s.coord.pairing = some p)
    (hv : verifyFpMatchSigned ext p.sharedKey f = true) :
    s.MatchHarmless ext f ↔ s.matchState.Unused := by
  constructor
  · intro h
    by_contra hu
    obtain ⟨u, s', u', s'', hs, hm, e, he, hg⟩ := handleFpMatchSigned_mayGrant hp hv hu
    exact h u s' u' s'' hs.amid hm e he hg
  · intro hu u s' u' s'' hs hm
    exact (handleFpMatchSigned_around hu).guards (fun _ => .of_log rfl) trivial rfl hs hm

/-- The code with the digest of the match of slot 5 under the key of `Files.sample`. -/
def Extern.switching : Extern :=
  { Extern.sample with
    hmacSha256 := fun key data =>
      if key = List.replicate 32 0 ∧ data = [0x21, 5, 0] then
        [180, 217, 212, 115, 180, 133, 112, 69, 81, 193, 129, 24, 91, 190, 13, 229, 45, 136, 214,
          50, 34, 206, 83, 41, 162, 247, 89, 143, 216, 16, 226, 51]
      else Extern.sample.hmacSha256 key data }

/-- The match of the finger that switches hosts. -/
def switchMatch : Frame := ⟨[0x21, 5, 0, 180, 217, 212, 115, 180, 133, 112, 69], none⟩

/-- An authentication waits for a touch. -/
def Daemon.asking : Daemon :=
  let s := Daemon.start .sample
  { s with
    coord := { s.coord with pendingPam := some 1 }
    pending := Function.update s.pending 1 .new
    aux := { s.aux with
      client := Function.update s.aux.client 1 { s.aux.client 1 with entry := some .auth } } }

/-- With nothing waiting and the screen not locked, it does nothing. -/
theorem switchMatch_harmless : (Daemon.start .sample).MatchHarmless .switching switchMatch := by
  have hidle : (Daemon.start .sample).matchState.Idle := fun h => nomatch h.1
  exact (match_harmless_iff (p := Files.sample.pairing.get rfl) rfl (by decide)).mpr
    (.inr (.inr hidle))

/-- It approves the authentication that waits. -/
theorem switchMatch_approves :
    pageId switchMatch = switchFingerSlot.toNat ∧
      verifyFpMatchSigned .switching (List.replicate 32 0) switchMatch = true ∧
      ¬ Daemon.asking.MatchHarmless .switching switchMatch := by
  have hp : Daemon.asking.coord.pairing = some (Files.sample.pairing.get rfl) := rfl
  refine ⟨rfl, by decide, fun h => ?_⟩
  exact h _ _ _ _ (match_reaches rfl rfl hp (by decide)).amid (.head _)
    (.approved 1 switchMatch true) rfl rfl

end Immurok
