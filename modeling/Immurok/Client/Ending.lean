import Immurok.Client.Push

/-!
# The end of an update

`OTA:END` has the device check the image and reboot, so its success is mostly
seen as a lost connection. The helper's outcomes, the poll for an answer in the
worker, the handler and the client.
-/

namespace Immurok

open Async

variable {σ δ α : Type}

-- ---------------------------------------------------------------------------
-- The helper
-- ---------------------------------------------------------------------------

/-- What the worker uses for the OTA characteristic. -/
structure HelperIo (σ : Type) where
  otaWrite : Bytes → Proc σ (Except Str Unit)
  otaRead : Proc σ (Except Str Bytes)
  now : Proc σ Nat
  pause : Proc σ Unit

def HelperIo.otaWriteAndRead (io : HelperIo σ) (data : Bytes) (timeoutMs : Nat) :
    Proc σ (Except Str Bytes) :=
  tryThen (io.otaWrite data) fun _ => do
    let start ← io.now
    Proc.loop do
      io.pause
      let now ← io.now
      if start + timeoutMs ≤ now then pure (some (.error "OTA read timeout"))
      else
        match ← io.otaRead with
        | .ok (b :: bs) => pure (some (.ok (b :: bs)))
        | _ => pure none

/-- The worker's own. -/
def helperIo : HelperIo Daemon where
  otaWrite := otaCharWrite
  otaRead := otaCharRead
  now := clock
  pause := sleep otaReadPollInterval

theorem otaWriteAndReadInner_eq {data : Bytes} {timeoutMs : Nat} :
    otaWriteAndReadInner data timeoutMs = helperIo.otaWriteAndRead data timeoutMs := rfl

/-- What the helper has come to. -/
inductive HelperEv
  | wrote (ok : Bool)
  | read (r : Except Str Bytes)
  deriving DecidableEq

/-- The helper and the device behind it. `taken` says whether the worker comes to
the command; a write and a read say how long they take. -/
structure Helper (δ : Type) where
  connected : δ → Bool × δ
  status : δ → Option DeviceStatus
  taken : δ → Bool × δ
  otaWrite : Bytes → δ → (Except Str Unit × Nat) × δ
  otaRead : δ → (Except Str Bytes × Nat) × δ

/-- A client with its daemon and helper: the line in hand, whether a frame was
asked to be written for it, and the outcomes since. -/
structure Pusher (δ : Type) where
  device : δ
  now : Nat
  line : Str
  asked : Bool
  outcomes : List HelperEv

section
variable (h : Helper δ)

def pusherHelperIo : HelperIo (Pusher δ) where
  otaWrite data := .atomically fun p =>
    let r := h.otaWrite data p.device
    (r.1.1, { p with
      device := r.2, now := p.now + r.1.2, outcomes := p.outcomes ++ [.wrote r.1.1.isOk] })
  otaRead := .atomically fun p =>
    let r := h.otaRead p.device
    (r.1.1, { p with
      device := r.2, now := p.now + r.1.2, outcomes := p.outcomes ++ [.read r.1.1] })
  now := .get (·.now)
  pause := .modify fun p => { p with now := p.now + otaReadPollInterval }

/-- A command to the worker, whose reply is dropped if it is not come to. -/
def whenTaken (t : Proc (Pusher δ) (Except Str α)) : Proc (Pusher δ) (Except Str α) := do
  let taken ← .atomically fun p =>
    ((h.taken p.device).1, { p with device := (h.taken p.device).2, asked := true })
  if taken then t else pure (.error "BLE reply dropped")

def pusherIo : OtaIo (Pusher δ) where
  connected := .atomically fun p =>
    ((h.connected p.device).1, { p with device := (h.connected p.device).2 })
  status := .get fun p => h.status p.device
  write frame := whenTaken h ((pusherHelperIo h).otaWrite frame)
  writeAndRead frame timeoutMs := whenTaken h ((pusherHelperIo h).otaWriteAndRead frame timeoutMs)

/-- A line is sent, executed and answered with a line. -/
def pusherChannel (ext : Extern) : OtaChannel (Pusher δ) where
  send line := do
    Proc.modify fun p => { p with line, asked := false, outcomes := [] }
    let reply ← (pusherIo h).processOtaCommand ext (Str.trim line)
    pure (.ok (readLine (reply ++ "\n".toList)))
  progress _ := pure ()

end

-- ---------------------------------------------------------------------------
-- What the outcomes say
-- ---------------------------------------------------------------------------

/-- The status of the first answer that is not empty. -/
def firstStatus : List HelperEv → Option UInt8
  | [] => none
  | .read (.ok (status :: _)) :: _ => some status
  | _ :: evs => firstStatus evs

/-- The frame was written, and the device accepted the image or was not heard of. -/
structure Accepted (evs : List HelperEv) : Prop where
  written : evs.head? = some (.wrote true)
  status : ∀ st, firstStatus evs = some st → st = 0x00

/-- The outcomes that `OTA:END` tells apart: the frame was written, and an answer
is that of success or of the two checks. -/
structure Discerned (evs : List HelperEv) : Prop where
  written : evs.head? = some (.wrote true)
  status : ∀ st, firstStatus evs = some st → st = 0x00 ∨ st = 0xF1 ∨ st = 0xF2

/-- A success means an accepted image, and all else is an error. -/
structure EndSound (reply : Str) (p : Pusher δ) : Prop where
  ok : reply = "OK".toList → p.asked = true ∧ Accepted p.outcomes
  error : ¬(p.asked = true ∧ Accepted p.outcomes) → ∃ rest, reply = 'E' :: rest

/-- The client takes the update for done only if the image was accepted. -/
def PushSound (r : Except FwUpdateError Unit) (p : Pusher δ) : Prop :=
  r = .ok () → p.line = "OTA:END".toList ∧ p.asked = true ∧ Accepted p.outcomes

-- ---------------------------------------------------------------------------
-- The poll
-- ---------------------------------------------------------------------------

/-- What was written is answered with the first answer that is not empty, or
there was none. -/
def Polled (r : Except Str Bytes) (evs : List HelperEv) : Prop :=
  match r with
  | .ok resp => evs.head? = some (.wrote true) ∧ resp ≠ [] ∧ firstStatus evs = resp.head?
  | .error _ => evs.head? = some (.wrote true) → firstStatus evs = none

theorem firstStatus_append {evs evs' : List HelperEv} (h : firstStatus evs = none) :
    firstStatus (evs ++ evs') = firstStatus evs' := by
  induction evs using firstStatus.induct with
  | case1 => rfl
  | case2 st bs evs => cases h
  | case3 ev evs hev ih =>
    rw [firstStatus.eq_3 _ _ hev] at h
    rw [List.cons_append, firstStatus.eq_3 _ _ hev]
    exact ih h

section
variable {h : Helper δ} {p : Pusher δ} {frame : Bytes} {timeoutMs : Nat}

/-- The line is the same, and nothing was asked for before. -/
structure Along (line : Str) (p : Pusher δ) : Prop where
  line : p.line = line
  asked : p.asked = true

/-- Nothing was heard so far. -/
structure Unheard (line : Str) (p : Pusher δ) : Prop extends Along line p where
  written : p.outcomes.head? = some (.wrote true)
  none : firstStatus p.outcomes = none

theorem otaRead_polled {line : Str} (hp : Unheard line p) :
    (pusherHelperIo h).otaRead.Reaches p fun r p' => Along line p' ∧ p.now ≤ p'.now ∧
      p'.outcomes.head? = some (.wrote true) ∧ firstStatus p'.outcomes = firstStatus [.read r] := by
  refine .atomically ⟨⟨hp.line, hp.asked⟩, Nat.le_add_right _ _, ?_, firstStatus_append hp.none⟩
  show (p.outcomes ++ _).head? = _
  rw [List.head?_append, hp.written]
  rfl

theorem otaWriteAndRead_polled {line : Str} (hp : Along line p) (hevs : p.outcomes = []) :
    ((pusherHelperIo h).otaWriteAndRead frame timeoutMs).Reaches p fun r p' =>
      Along line p' ∧ Polled r p'.outcomes := by
  refine .bind (R := fun r p' => Along line p' ∧ p'.outcomes = [.wrote r.isOk])
    (.atomically ⟨⟨hp.line, hp.asked⟩, congrArg (· ++ _) hevs⟩) fun r p₁ ⟨hp₁, hevs₁⟩ => ?_
  cases r with
  | error e =>
    refine .ret ⟨hp₁, fun hw => ?_⟩
    rw [hevs₁] at hw
    cases hw
  | ok u =>
    have hunheard : Unheard line p₁ := ⟨hp₁, by rw [hevs₁]; rfl, by rw [hevs₁]; rfl⟩
    refine .bind (R := fun start p' => start = p₁.now ∧ p' = p₁) (.get ⟨rfl, rfl⟩) ?_
    rintro start _ ⟨-, rfl⟩
    -- each round waits, so the deadline comes
    refine .loop (J := Unheard line) (fun p => start + timeoutMs - p.now) (fun p hp => ?_) hunheard
    refine .bind (R := fun _ p' => p' = { p with now := p.now + otaReadPollInterval })
      (.modify rfl) ?_
    rintro _ _ rfl
    refine .bind (R := fun now p' => now = p.now + otaReadPollInterval ∧
      p' = { p with now := p.now + otaReadPollInterval }) (.get ⟨rfl, rfl⟩) ?_
    rintro _ _ ⟨rfl, rfl⟩
    split
    next => exact .ret ⟨⟨hp.line, hp.asked⟩, fun _ => hp.none⟩
    next hlt =>
      refine .bind (otaRead_polled ⟨⟨hp.line, hp.asked⟩, hp.written, hp.none⟩) ?_
      rintro r p₂ ⟨hp₂, hnow, hw, hs⟩
      have hpos : 0 < otaReadPollInterval := by decide
      have hless : start + timeoutMs - p₂.now < start + timeoutMs - p.now := by
        dsimp only at hnow
        omega
      match r, hs with
      | .error e, hs => exact .ret ⟨⟨hp₂, hw, hs⟩, hless⟩
      | .ok [], hs => exact .ret ⟨⟨hp₂, hw, hs⟩, hless⟩
      | .ok (b :: bs), hs => exact .ret ⟨hp₂, hw, nofun, hs⟩

/-- A command that the worker may not come to. -/
theorem writeAndRead_polled {line : Str} (hl : p.line = line) (hevs : p.outcomes = []) :
    ((pusherIo h).writeAndRead frame timeoutMs).Reaches p fun r p' =>
      Along line p' ∧ Polled r p'.outcomes := by
  refine .bind (R := fun taken p' => Along line p' ∧ p'.outcomes = [])
    (.atomically ⟨⟨hl, rfl⟩, hevs⟩) fun taken p₁ ⟨hp₁, hevs₁⟩ => ?_
  cases taken with
  | false => exact .ret ⟨hp₁, by rw [hevs₁]; exact nofun⟩
  | true => exact otaWriteAndRead_polled hp₁ hevs₁

/-- The replies of `OTA:END`. -/
def endReply : Except Str Bytes → Str
  | .ok (0xF1 :: _) => "ERROR:SHA256_MISMATCH"
  | .ok (0xF2 :: _) => "ERROR:HMAC_MISMATCH"
  | _ => "OK"

theorem endReply_cases (r : Except Str Bytes) :
    endReply r = "OK".toList ∧ (∀ st bs, r = .ok (st :: bs) → st ≠ 0xF1 ∧ st ≠ 0xF2) ∨
      (∃ rest, endReply r = 'E' :: rest) ∧ ∃ st bs, r = .ok (st :: bs) ∧ (st = 0xF1 ∨ st = 0xF2) := by
  unfold endReply
  split
  next st => exact .inr ⟨⟨_, rfl⟩, _, _, rfl, .inl rfl⟩
  next st => exact .inr ⟨⟨_, rfl⟩, _, _, rfl, .inr rfl⟩
  next h1 h2 =>
    refine .inl ⟨rfl, ?_⟩
    rintro st bs rfl
    exact ⟨fun h => h1 bs (h ▸ rfl), fun h => h2 bs (h ▸ rfl)⟩

theorem not_error_ok {rest : Str} : "OK".toList ≠ 'E' :: rest := by simp

/-- The reply tells what it should just if the outcome is one of those it tells apart. -/
theorem endReply_sound {r : Except Str Bytes} (ha : p.asked = true) (hp : Polled r p.outcomes) :
    EndSound (endReply r) p ↔ Discerned p.outcomes := by
  obtain ⟨hreply, hst⟩ | ⟨⟨rest, hreply⟩, st, bs, rfl, hst⟩ := endReply_cases r
  · -- an OK stands for a status other than the two
    have hnot : EndSound (endReply r) p ↔ Accepted p.outcomes := by
      rw [hreply]
      refine ⟨fun h => (h.ok rfl).2, fun h => ⟨fun _ => ⟨ha, h⟩, fun hn => absurd ⟨ha, h⟩ hn⟩⟩
    rw [hnot]
    refine ⟨fun h => ⟨h.written, fun st hs => .inl (h.status st hs)⟩, fun h => ⟨h.written, ?_⟩⟩
    intro st hs
    cases r with
    | error e => exact nomatch (hp h.written).symm.trans hs
    | ok resp =>
      obtain ⟨-, -, hfirst⟩ := hp
      obtain ⟨bs, rfl⟩ : ∃ bs, resp = st :: bs :=
        List.head?_eq_some_iff.mp (hfirst.symm.trans hs)
      have := hst st bs rfl
      have := h.status st hs
      tauto
  · obtain ⟨hw, -, hfirst⟩ := hp
    refine iff_of_true ⟨fun h => absurd (h.symm.trans hreply) not_error_ok, fun _ => ⟨rest, hreply⟩⟩
      ⟨hw, fun st' hs => ?_⟩
    obtain rfl := Option.some.inj (hfirst.symm.trans hs)
    exact .inr hst

/-- What `OTA:END` leaves: a reply that is sound just if what was asked of the
helper came to an outcome that is told apart. -/
structure OtaEnded (line reply : Str) (p : Pusher δ) : Prop where
  line : p.line = line
  form : reply = "OK".toList ∨ ∃ rest, reply = 'E' :: rest
  sound : EndSound reply p ↔ (p.asked = true → Discerned p.outcomes)

theorem handleOtaEnd_ended {line : Str} (hl : p.line = line) (ha : p.asked = false)
    (hevs : p.outcomes = []) : (pusherIo h).handleOtaEnd.Reaches p (OtaEnded line) := by
  refine .bind (R := fun _ p' => p'.line = line ∧ p'.asked = false ∧ p'.outcomes = [])
    (.atomically ⟨hl, ha, hevs⟩) fun connected p₁ ⟨hl₁, ha₁, hevs₁⟩ => ?_
  cases connected with
  | false =>
    have hsound : EndSound "ERROR:OTA_NOT_AVAILABLE".toList p₁ :=
      ⟨fun h => absurd h (by decide), fun _ => ⟨_, rfl⟩⟩
    exact .ret ⟨hl₁, .inr ⟨_, rfl⟩, iff_of_true hsound fun h => nomatch ha₁.symm.trans h⟩
  | true =>
    refine .bind (writeAndRead_polled hl₁ hevs₁) fun r p₂ ⟨hp₂, hpolled⟩ => ?_
    have hret : ∀ reply, reply = endReply r → (Proc.ret reply).Reaches p₂ (OtaEnded line) := by
      rintro _ rfl
      refine .ret ⟨hp₂.line, ?_, ?_⟩
      · exact (endReply_cases r).imp And.left And.left
      · rw [endReply_sound hp₂.asked hpolled]
        exact ⟨fun h _ => h, fun h => h hp₂.asked⟩
    split
    next => exact hret _ rfl
    next => exact hret _ rfl
    next h1 h2 =>
      refine hret _ ?_
      unfold endReply
      split
      next => exact absurd rfl (h1 _)
      next => exact absurd rfl (h2 _)
      next => rfl

-- ---------------------------------------------------------------------------
-- The other commands
-- ---------------------------------------------------------------------------

variable {ext : Extern} {parts : List Str} {line : Str}

/-- Every command comes to a reply to its line. -/
def Replies (line : Str) (t : Proc (Pusher δ) α) : Prop :=
  ∀ p, p.line = line → p.outcomes = [] → t.Reaches p fun _ p' => p'.line = line

theorem Replies.ret {a : α} : Replies line (.ret a : Proc (Pusher δ) α) := fun _ hl _ => .ret hl

theorem Replies.map {t : Proc (Pusher δ) α} {g : α → Str} (ht : Replies line t) :
    Replies line (t.bind fun a => .ret (g a)) :=
  fun p hl hevs => .bind (ht p hl hevs) fun _ _ hl => .ret hl

theorem whenConnected_replies {t : Proc (Pusher δ) Str} (ht : Replies line t) :
    Replies line ((pusherIo h).whenConnected t) := fun p hl hevs => by
  refine .bind (R := fun _ p' => p'.line = line ∧ p'.outcomes = []) (.atomically ⟨hl, hevs⟩)
    fun connected p₁ ⟨hl₁, hevs₁⟩ => ?_
  cases connected with
  | false => exact .ret hl₁
  | true => exact ht p₁ hl₁ hevs₁

theorem writeAndRead_replies : Replies line ((pusherIo h).writeAndRead frame timeoutMs) :=
  fun _ hl hevs => (writeAndRead_polled hl hevs).mono fun _ _ hp => hp.1.line

theorem write_replies : Replies line ((pusherIo h).write frame) := fun p hl _ => by
  refine .bind (R := fun _ p' => p'.line = line) (.atomically hl) fun taken p₁ hl₁ => ?_
  cases taken with
  | false => exact .ret hl₁
  | true => exact .atomically hl₁

theorem handleOtaHeader_replies : Replies line ((pusherIo h).handleOtaHeader ext parts) := by
  unfold OtaIo.handleOtaHeader
  split
  · exact .ret
  · refine whenConnected_replies ?_
    split
    · exact .ret
    · dsimp only
      split
      · exact .ret
      · exact fun p hl hevs => .bind (writeAndRead_replies p hl hevs) fun r _ hl => by
          cases r <;> exact .ret hl

theorem withBlock_replies {op : UInt8} {send : Bytes → Proc (Pusher δ) Str}
    (hs : ∀ frame, Replies line (send frame)) :
    Replies line ((pusherIo h).withBlock ext parts op send) := by
  unfold OtaIo.withBlock
  split
  · exact .ret
  · refine whenConnected_replies ?_
    split
    · exact .ret
    · split
      · exact .ret
      · exact hs _

theorem processOtaCommand_replies {request : Str} :
    Replies line ((pusherIo h).processOtaCommand ext request) := by
  have answered {frame : Bytes} {timeoutMs : Nat} {k : Except Str Bytes → Proc (Pusher δ) Str}
      (hk : ∀ r, ∃ reply, k r = .ret reply) :
      Replies line (((pusherIo h).writeAndRead frame timeoutMs).bind k) := fun p hl hevs =>
    .bind (writeAndRead_replies p hl hevs) fun r _ hl => by
      obtain ⟨reply, hreply⟩ := hk r
      exact hreply ▸ .ret hl
  unfold OtaIo.processOtaCommand
  dsimp only
  split
  next => exact .ret
  next =>
  split
  next => exact fun p hl _ => .bind (R := fun _ p' => p'.line = line) (.get hl) fun _ _ hl => .ret hl
  next =>
  split
  next => exact whenConnected_replies (answered fun r => by cases r <;> exact ⟨_, rfl⟩)
  next =>
  split
  next => exact whenConnected_replies (answered fun r => by cases r <;> exact ⟨_, rfl⟩)
  next =>
  split
  next => exact handleOtaHeader_replies
  next =>
  split
  next =>
    refine withBlock_replies fun frame p hl hevs => ?_
    exact .bind (write_replies p hl hevs) fun r _ hl => by cases r <;> exact .ret hl
  next =>
  split
  next => exact withBlock_replies fun frame => answered fun r => by cases r <;> exact ⟨_, rfl⟩
  next =>
  split
  next => exact whenConnected_replies (answered fun r => by split <;> exact ⟨_, rfl⟩)
  next => exact .ret

-- ---------------------------------------------------------------------------
-- The client
-- ---------------------------------------------------------------------------

/-- The end was asked for and came to an outcome that is told apart. -/
def EndDiscerned (p : Pusher δ) : Prop :=
  p.line = "OTA:END".toList → p.asked = true → Discerned p.outcomes

/-- Sound just if the outcome is told apart. -/
def PushLaw (r : Except FwUpdateError Unit) (p : Pusher δ) : Prop := PushSound r p ↔ EndDiscerned p

theorem pushLaw_error {e : FwUpdateError} (hl : p.line ≠ "OTA:END".toList) : PushLaw (.error e) p :=
  iff_of_true nofun fun h => absurd h hl

theorem send_replies : ((pusherChannel h ext).send line).Reaches p fun r p' =>
    p'.line = line ∧ ∃ reply, r = .ok reply := by
  refine .bind (R := fun _ p' => p'.line = line ∧ p'.outcomes = []) (.modify ⟨rfl, rfl⟩)
    fun _ p₁ ⟨hl, hevs⟩ => ?_
  exact .bind (processOtaCommand_replies p₁ hl hevs) fun reply _ hl => .ret ⟨hl, _, rfl⟩

/-- One command of the transfer. -/
theorem ask_replies {stage : Str} {failed : Str → FwUpdateError}
    {k : Str → Proc (Pusher δ) (Except FwUpdateError α)} {Q : Except FwUpdateError α → Pusher δ → Prop}
    (hf : ∀ e p', p'.line = line → Q (.error e) p')
    (hk : ∀ reply p', p'.line = line → (k reply).Reaches p' Q) :
    ((pusherChannel h ext).ask stage line failed k).Reaches p Q := by
  refine .bind send_replies ?_
  rintro _ p' ⟨hl, reply, rfl⟩
  dsimp only
  split
  · exact .ret (hf _ p' hl)
  · exact hk reply p' hl

/-- The fifth character tells the lines from the last one. -/
theorem ne_end {rest : Str} {c : Char} (hc : c ≠ 'E') :
    'O' :: 'T' :: 'A' :: ':' :: c :: rest ≠ "OTA:END".toList := by
  intro hline
  simp at hline
  exact hc hline.1

theorem writeFirmware_replies {fw : Bytes} (hl : p.line ≠ "OTA:END".toList) :
    (writeFirmware (pusherChannel h ext) ext fw).Reaches p fun _ p' => p'.line ≠ "OTA:END".toList := by
  refine Proc.Reaches.repeatFrom (J := fun _ p => p.line ≠ "OTA:END".toList)
    (fun i => (fw.length + (chunkSize - 1)) / chunkSize - i) (fun i p hl => ?_) hl
  split
  next => exact .ret hl
  next hlt =>
    have hne : otaWriteLine ext fw (i * chunkSize) ≠ "OTA:END".toList := ne_end (by decide)
    refine .bind (ask_replies (Q := fun _ p' => p'.line ≠ "OTA:END".toList)
      (fun _ _ hl => hl ▸ hne) fun _ p' hl => .ret (hl ▸ hne)) fun r p' hl => ?_
    cases r with
    | error e => exact .ret hl
    | ok u => exact .ret ⟨hl, Nat.sub_lt_sub_left (Nat.lt_of_not_le hlt) (Nat.lt_succ_self i)⟩

/-- The last command decides. -/
theorem end_law : ((pusherChannel h ext).ask "end" "OTA:END" endError fun _ => .ret (.ok ())).Reaches p
    PushLaw := by
  refine .bind (R := fun r p' => ∃ reply, r = .ok (readLine (reply ++ "\n".toList)) ∧
    OtaEnded "OTA:END" reply p') ?_ ?_
  · refine .bind (R := fun _ p' => p'.line = "OTA:END".toList ∧ p'.asked = false ∧
      p'.outcomes = []) (.modify ⟨rfl, rfl, rfl⟩) fun _ p₁ ⟨hl, ha, hevs⟩ => ?_
    exact .bind (handleOtaEnd_ended hl ha hevs) fun reply p₂ hend => .ret ⟨reply, rfl, hend⟩
  rintro _ p' ⟨reply, rfl, hend⟩
  dsimp only
  obtain rfl | ⟨rest, rfl⟩ := hend.form
  · -- an update that is done
    have hok : isOk (readLine ("OK".toList ++ "\n".toList)) = true := by decide
    rw [hok]
    refine .ret (Iff.trans ⟨fun hs => ⟨fun _ => (hs rfl).2, fun hn => absurd (hs rfl).2 hn⟩,
      fun hs _ => ⟨hend.line, hs.ok rfl⟩⟩ (hend.sound.trans ⟨fun hs _ => hs, fun hs => hs hend.line⟩))
  · rw [not_isOk]
    have hsound : EndSound ('E' :: rest) p' := ⟨fun h => absurd h.symm not_error_ok, fun _ => ⟨rest, rfl⟩⟩
    exact .ret (iff_of_true nofun fun _ => hend.sound.mp hsound)

theorem pushOnce_law {pkg : ImfwPackage} :
    (pushOnce (pusherChannel h ext) ext pkg).Reaches p PushLaw := by
  refine .bind (R := fun _ _ => True) (.ret trivial) fun _ p _ => ?_
  refine ask_replies (fun _ _ hl => pushLaw_error (hl ▸ by decide)) fun resp p _ => ?_
  refine .bind (R := fun _ _ => True) ?_ fun _ p _ => ?_
  · unfold OtaChannel.showDevice
    split <;> exact .ret trivial
  refine .bind (R := fun _ _ => True) (.ret trivial) fun _ p _ => ?_
  refine ask_replies (fun _ _ hl => pushLaw_error (hl ▸ by decide)) fun _ p _ => ?_
  refine .bind (R := fun _ _ => True) (.ret trivial) fun _ p _ => ?_
  refine ask_replies (fun _ _ hl => pushLaw_error (hl ▸ ne_end (by decide))) fun _ p hl => ?_
  refine .bind (R := fun _ p' => p'.line ≠ "OTA:END".toList) (.ret (hl ▸ ne_end (by decide)))
    fun _ p hl => ?_
  refine .bind (writeFirmware_replies hl) fun r p hl => ?_
  cases r with
  | error e => exact .ret (pushLaw_error hl)
  | ok u => exact .bind (R := fun _ _ => True) (.ret trivial) fun _ p _ => end_law

end

/-- Before the first line. -/
def Pusher.fresh (device : δ) (now : Nat) : Pusher δ :=
  { device, now, line := [], asked := false, outcomes := [] }

/-- Whatever the helper and the device do: the reply to `OTA:END` and the result
of the update mean what they should just if the frame was written and an answer
to it is that of success or of one of the two checks. -/
theorem update_end_iff {h : Helper δ} {ext : Extern} {pkg : ImfwPackage} {device : δ} {now : Nat} :
    ((pusherIo h).handleOtaEnd.Reaches (.fresh device now) fun reply p =>
      EndSound reply p ↔ (p.asked = true → Discerned p.outcomes)) ∧
    (pushOnce (pusherChannel h ext) ext pkg).Reaches (.fresh device now) fun r p =>
      PushSound r p ↔ EndDiscerned p :=
  ⟨(handleOtaEnd_ended rfl rfl rfl).mono fun _ _ hend => hend.sound, pushOnce_law⟩

/-- A helper that is gone, or a device that answers with this status. -/
def answeringHelper (status : Option UInt8) : Helper Unit where
  connected _ := (true, ())
  status _ := none
  taken _ := (true, ())
  otaWrite _ _ :=
    ((if status.isSome then .ok () else .error "helper stdin write failed: Broken pipe (os error 32)",
      0), ())
  otaRead _ := ((.ok status.toList, 0), ())

/-- A frame that was never written, and an image that the device has refused: the
reply is OK. -/
theorem update_end_unsound :
    ((pusherIo (answeringHelper none)).handleOtaEnd.Reaches (.fresh () 0) fun reply p =>
      reply = "OK".toList ∧ ¬EndSound reply p) ∧
    (pusherIo (answeringHelper (some rspErrLowBattery))).handleOtaEnd.Reaches (.fresh () 0)
      fun reply p => reply = "OK".toList ∧ ¬EndSound reply p := by
  constructor
  · have hrun := (handleOtaEnd_ended (h := answeringHelper none) (p := .fresh () 0) rfl rfl
      rfl).follow (p := fun reply p => reply = "OK".toList ∧ p.outcomes = [.wrote false]) [0, 0, 0]
      (by decide)
    refine hrun.mono fun reply p ⟨_, hp⟩ => ?_
    obtain ⟨hreply, hevs⟩ := of_decide_eq_true hp
    refine ⟨hreply, fun hs => ?_⟩
    have hw := (hs.ok hreply).2.written
    rw [hevs] at hw
    cases hw
  · have hrun := (handleOtaEnd_ended (h := answeringHelper (some rspErrLowBattery))
      (p := .fresh () 0) rfl rfl rfl).follow (p := fun reply p => reply = "OK".toList ∧
        p.outcomes = [.wrote true, .read (.ok [rspErrLowBattery])]) (List.replicate 8 0)
      (by decide +kernel)
    refine hrun.mono fun reply p ⟨_, hp⟩ => ?_
    obtain ⟨hreply, hevs⟩ := of_decide_eq_true hp
    refine ⟨hreply, fun hs => ?_⟩
    have hst := (hs.ok hreply).2.status rspErrLowBattery (by rw [hevs]; rfl)
    exact absurd hst (by decide)

end Immurok
