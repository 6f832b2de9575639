import Immurok.Daemon.Retrieval
import Immurok.Daemon.Keystore

/-!
# Entries in chunks

The two loops that read an entry of the device chunk by chunk are one, run here
against answers of any kind, which come one after the other.
-/

namespace Immurok

open Async

variable {σ ρ κ α : Type}

-- ---------------------------------------------------------------------------
-- The loop
-- ---------------------------------------------------------------------------

/-- A part of an entry, with the offset the device reports for it. -/
structure Chunk where
  total : UInt8
  offset : UInt8
  data : Bytes

/-- An entry in chunks; `ask` is for the one from an offset on. -/
def readChunks (ask : Nat → Proc σ ρ) (parse : ρ → Except α Chunk) (finish : Bytes → α) :
    Proc σ α :=
  Proc.repeatFrom [] fun full => do
    let r ← ask full.length
    match parse r with
    | .error a => pure (.inr a)
    | .ok c =>
      let full := full ++ c.data
      if c.total.toNat ≤ full.length then pure (.inr (finish (full.take c.total.toNat)))
      else pure (.inl full)

/-- Answers one after the other, and what was asked. -/
def script (reply : Nat → ρ) (q : κ) : Proc (List κ) ρ :=
  .atomically fun asked => (reply asked.length, asked ++ [q])

/-- What the first `n` of the answers bring. -/
def gathered (answers : Nat → Except α Chunk) : Nat → Bytes
  | 0 => []
  | n + 1 =>
    match answers n with
    | .ok c => gathered answers n ++ c.data
    | .error _ => gathered answers n

/-- A chunk that is not empty, from the end of what there is. -/
def InPlace (answers : Nat → Except α Chunk) (n : Nat) (c : Chunk) : Prop :=
  answers n = .ok c ∧ c.data ≠ [] ∧ c.offset.toNat = (gathered answers n).length

/-- A chunk that leaves some of its entry to come. -/
def GoesOn (answers : Nat → Except α Chunk) (n : Nat) : Prop :=
  ∃ c, answers n = .ok c ∧ (gathered answers (n + 1)).length < c.total.toNat

/-- Each chunk that is come to is in its place. -/
def AllInPlace (answers : Nat → Except α Chunk) : Prop :=
  ∀ n c, (∀ k < n, GoesOn answers k) → answers n = .ok c → InPlace answers n c

/-- A read that is over: each chunk but the last answer was in its place, and so
was the last where the entry was not given up. -/
structure EntryRead (request : Nat → κ) (answers : Nat → Except α Chunk) (finish : Bytes → α)
    (failed : α → Prop) (a : α) (asked : List κ) : Prop where
  requests : asked = (List.range asked.length).map fun k => request (gathered answers k).length
  ended : ∀ k, k + 1 < asked.length → ∃ c, InPlace answers k c
  result : failed a ∨ ∃ n c, asked.length = n + 1 ∧ InPlace answers n c ∧
    c.total.toNat ≤ (gathered answers (n + 1)).length ∧
    a = finish ((gathered answers (n + 1)).take c.total.toNat)

-- ---------------------------------------------------------------------------
-- Its runs
-- ---------------------------------------------------------------------------

section
variable {request : Nat → κ} {parse : ρ → Except α Chunk} {reply : Nat → ρ} {finish : Bytes → α}
  {failed : α → Prop} {answers : Nat → Except α Chunk} {asked : List κ} {a : α} {n : Nat}
  {c : Chunk}

theorem gathered_ok (h : answers n = .ok c) :
    gathered answers (n + 1) = gathered answers n ++ c.data := by
  rw [gathered, h]

/-- So far the chunks have left some of the entry to come. -/
structure Reading (request : Nat → κ) (answers : Nat → Except α Chunk) (full : Bytes)
    (asked : List κ) : Prop where
  full_eq : full = gathered answers asked.length
  requests : asked = (List.range asked.length).map fun k => request (gathered answers k).length
  goesOn : ∀ k < asked.length, GoesOn answers k

/-- The end of the loop, whatever the chunks were. -/
structure ReadOver (request : Nat → κ) (answers : Nat → Except α Chunk) (finish : Bytes → α)
    (a : α) (asked : List κ) : Prop where
  requests : asked = (List.range asked.length).map fun k => request (gathered answers k).length
  last : ∃ n, asked.length = n + 1 ∧ (∀ k < n, GoesOn answers k) ∧
    (answers n = .error a ∨ ∃ c, answers n = .ok c ∧
      c.total.toNat ≤ (gathered answers (n + 1)).length ∧
      a = finish ((gathered answers (n + 1)).take c.total.toNat))

/-- One round: an answer is asked for and taken. -/
theorem round_reaches {full : Bytes} (h : Reading request (parse ∘ reply) full asked) :
    Proc.Reaches (do
      let r ← script reply (request full.length)
      match parse r with
      | .error a => pure (.inr a)
      | .ok c =>
        let full := full ++ c.data
        if c.total.toNat ≤ full.length then pure (.inr (finish (full.take c.total.toNat)))
        else pure (.inl full) : Proc (List κ) (Bytes ⊕ α)) asked fun r asked' =>
      match r with
      | .inl full' => Reading request (parse ∘ reply) full' asked' ∧
          ∃ c, parse (reply asked.length) = .ok c ∧ full' = full ++ c.data ∧
            full'.length < c.total.toNat
      | .inr a => ReadOver request (parse ∘ reply) finish a asked' := by
  have hreq : asked ++ [request full.length] =
      (List.range (asked ++ [request full.length]).length).map fun k =>
        request (gathered (parse ∘ reply) k).length := by
    rw [List.length_append, List.length_singleton, List.range_succ, List.map_append, ← h.requests,
      h.full_eq]
    rfl
  have hlen : (asked ++ [request full.length]).length = asked.length + 1 := by simp
  refine .bind (.atomically (Q := fun r asked' => r = reply asked.length ∧
    asked' = asked ++ [request full.length]) ⟨rfl, rfl⟩) fun r asked' ⟨hr, ha⟩ => ?_
  subst hr ha
  cases hp : parse (reply asked.length) with
  | error a => exact .ret ⟨hreq, asked.length, hlen, h.goesOn, .inl hp⟩
  | ok c =>
    have hg : gathered (parse ∘ reply) (asked.length + 1) = full ++ c.data := by
      rw [gathered_ok hp, h.full_eq]
    dsimp only
    split
    next hle =>
      exact .ret ⟨hreq, asked.length, hlen, h.goesOn, .inr ⟨c, hp, hg ▸ hle, by rw [hg]⟩⟩
    next hlt =>
      have hlt : (full ++ c.data).length < c.total.toNat := Nat.lt_of_not_le hlt
      refine .ret ⟨⟨by rw [hlen, hg], hreq, fun k hk => ?_⟩, c, rfl, rfl, hlt⟩
      obtain hk | rfl := Nat.lt_succ_iff_lt_or_eq.mp (hlen ▸ hk)
      · exact h.goesOn k hk
      · exact ⟨c, hp, hg ▸ hlt⟩

theorem reading_nil : Reading request answers [] [] := ⟨rfl, rfl, nofun⟩

/-- However the loop ends, it has read as `ReadOver` says. -/
theorem readChunks_over
    (h : (readChunks (fun n => script reply (request n)) parse finish).Ends [] a asked) :
    ReadOver request (parse ∘ reply) finish a asked := by
  have ht : (solo fun _ => True).Triple 0 (Reading request (parse ∘ reply) [])
      (readChunks (fun n => script reply (request n)) parse finish)
      (ReadOver request (parse ∘ reply) finish) :=
    Solo.repeatFrom fun full => Solo.of_reaches fun asked hr =>
      (round_reaches hr).mono fun r asked' hr' => by
        cases r with
        | inl full' => exact hr'.1
        | inr a => exact hr'
  exact ht.returns trivial reading_nil h.stops

/-- It ends where no chunk is empty, since none of an entry's 255 bytes is
asked for twice. -/
theorem readChunks_ends (h : AllInPlace (parse ∘ reply)) :
    (readChunks (fun n => script reply (request n)) parse finish).Reaches []
      (ReadOver request (parse ∘ reply) finish) := by
  refine .repeatFrom (J := Reading request (parse ∘ reply)) (fun full => 255 - full.length)
    (fun full asked hr => (round_reaches hr).mono fun r asked' hr' => ?_) reading_nil
  cases r with
  | inr a => exact hr'
  | inl full' =>
    obtain ⟨hr', c, hc, rfl, hlt⟩ := hr'
    have hpos := List.length_pos_of_ne_nil (h _ c hr.goesOn hc).2.1
    have htotal := c.total.toNat_lt
    rw [List.length_append] at hlt
    refine ⟨hr', ?_⟩
    simp only [List.length_append]
    omega

/-- The loop reads entries and nothing else exactly when each chunk it comes to
is in its place. -/
theorem readChunks_iff (hfinish : ∀ d, ¬failed (finish d))
    (hparse : ∀ r a, parse r = .error a → failed a) :
    (readChunks (fun n => script reply (request n)) parse finish).Reaches []
        (EntryRead request (parse ∘ reply) finish failed) ↔ AllInPlace (parse ∘ reply) := by
  constructor
  · rintro ⟨a, asked, he, hread⟩ n c hgo hc
    obtain ⟨-, m, hm, hlast, hend⟩ := readChunks_over he
    obtain hlt | rfl | hlt := Nat.lt_trichotomy n m
    · obtain ⟨c', hc'⟩ := hread.ended n (by omega)
      obtain rfl : c = c' := Except.ok.inj (hc.symm.trans hc'.1)
      exact hc'
    · obtain herr | ⟨c', hc', hle, rfl⟩ := hend
      · cases hc.symm.trans herr
      · obtain hf | ⟨n', c'', hn', hin, -⟩ := hread.result
        · exact absurd hf (hfinish _)
        · obtain rfl : n' = n := by omega
          obtain rfl : c = c'' := Except.ok.inj (hc.symm.trans hin.1)
          exact hin
    -- the loop does not go on beyond its end
    · obtain ⟨c', hc', hmore⟩ := hgo m hlt
      obtain herr | ⟨c'', hc'', hle, -⟩ := hend
      · cases hc'.symm.trans herr
      · obtain rfl : c' = c'' := Except.ok.inj (hc'.symm.trans hc'')
        omega
  · intro h
    refine (readChunks_ends h).mono fun a asked ⟨hreq, n, hn, hgo, hend⟩ =>
      ⟨hreq, fun k hk => ?_, ?_⟩
    · obtain ⟨c, hc, -⟩ := hgo k (by omega)
      exact ⟨c, h k c (fun j hj => hgo j (by omega)) hc⟩
    · obtain herr | ⟨c, hc, hle, rfl⟩ := hend
      · exact .inl (hparse _ _ herr)
      · exact .inr ⟨n, c, hn, h n c hgo hc, hle, rfl⟩

end

-- ---------------------------------------------------------------------------
-- The two loops
-- ---------------------------------------------------------------------------

def keyReadFailed (rsp : Bytes) : Str :=
  "KEY_READ failed: [".toList ++ Str.hexEncode rsp ++ "]".toList

/-- `[status][total][offset][data]`. -/
def parseKeyRead : Except Str Bytes → Except (Except Str Bytes) Chunk
  | .error e => .error (.error e)
  | .ok (status :: total :: offset :: data) =>
    if status ≠ rspOk then .error (.error (keyReadFailed (status :: total :: offset :: data)))
    else .ok ⟨total, offset, data⟩
  | .ok rsp => .error (.error (keyReadFailed rsp))

theorem readKeyEntryInner_eq {io : KeyIo σ} {category index : UInt8} :
    readKeyEntryInner io category index =
      readChunks (fun n => io.send cmdKeyRead [category, index, UInt8.ofNat n]) parseKeyRead
        .ok := by
  unfold readKeyEntryInner readChunks
  congr 1
  funext full
  congr 1
  funext r
  obtain e | rsp := r
  · rfl
  · match rsp with
    | [] | [_] | [_, _] => rfl
    | status :: total :: offset :: data =>
      dsimp only [parseKeyRead]
      split <;> rfl

def parseApiRead : BleResult → Except Str Chunk
  | .error e => .error (readError "READ" e)
  | .ok (status, total :: offset :: data) =>
    if status ≠ rspOk then .error (readFailed "READ" status) else .ok ⟨total, offset, data⟩
  | .ok (status, _) => .error (readFailed "READ" status)

theorem readApiEntry_eq {io : GetIo σ} {idx : UInt8} {name : Str} :
    io.readApiEntry idx name =
      readChunks (fun n => io.send cmdKeyRead [keyCatApi, idx, UInt8.ofNat n]) parseApiRead
        fun d => decodeApiSecret d name := by
  unfold GetIo.readApiEntry readChunks
  congr 1
  funext full
  congr 1
  funext r
  obtain e | ⟨status, rsp⟩ := r
  · rfl
  · match rsp with
    | [] | [_] => rfl
    | total :: offset :: data =>
      dsimp only [parseApiRead]
      split <;> rfl

/-- Only the answers to what is sent. -/
def scriptKeyIo (reply : Nat → Except Str Bytes) : KeyIo (List (UInt8 × Bytes)) where
  send cmd payload := script reply (cmd, payload)
  loadDigests := pure []
  saveDigests _ := pure (.ok ())
  saveSshKeys _ := pure (.ok ())
  loadKeyNames := pure []
  saveKeyNames _ := pure (.ok ())

def scriptGetIo (reply : Nat → BleResult) : GetIo (List (UInt8 × Bytes)) where
  connected := pure true
  sshKeys := pure []
  keyNames := pure []
  claim := pure true
  release := pure ()
  now := pure 0
  send cmd payload := script reply (cmd, payload)
  sendGated _ _ := pure (.ok (rspOk, []))

def keyRead (category index : UInt8) (offset : Nat) : UInt8 × Bytes :=
  (cmdKeyRead, [category, index, UInt8.ofNat offset])

/-- The answer that an entry could not be read. -/
def ReadFailed (r : Str) : Prop := "ERROR:READ_FAILED:".toList <+: r

theorem parseKeyRead_error {r : Except Str Bytes} {a : Except Str Bytes}
    (h : parseKeyRead r = .error a) : ∃ e, a = .error e := by
  unfold parseKeyRead at h
  repeat' split at h
  all_goals cases h
  all_goals exact ⟨_, rfl⟩

theorem parseApiRead_error {r : BleResult} {a : Str} (h : parseApiRead r = .error a) :
    ReadFailed a := by
  have herror {e : Str} : ReadFailed (readError "READ" e) := ⟨e ++ "\n".toList, rfl⟩
  unfold parseApiRead at h
  repeat' split at h
  all_goals cases h
  all_goals exact herror

theorem decodeApiSecret_not_failed {d : Bytes} {name : Str} :
    ¬ReadFailed (decodeApiSecret d name) := by
  rintro ⟨t, ht⟩
  unfold decodeApiSecret at ht
  split at ht
  · simp at ht
  · dsimp only at ht
    split at ht
    · simp at ht
    · split at ht <;> simp at ht

/-- The two loops read an entry of the device, or fail, for exactly the answers
whose chunks are all in their places. -/
theorem chunked_reads_iff (reply : Nat → Except Str Bytes) (category index : UInt8)
    (answer : Nat → BleResult) (idx : UInt8) (name : Str) :
    ((readKeyEntryInner (scriptKeyIo reply) category index).Reaches []
        (EntryRead (keyRead category index) (parseKeyRead ∘ reply) .ok fun r => ∃ e, r = .error e) ↔
      AllInPlace (parseKeyRead ∘ reply)) ∧
    (((scriptGetIo answer).readApiEntry idx name).Reaches []
        (EntryRead (keyRead keyCatApi idx) (parseApiRead ∘ answer) (decodeApiSecret · name)
          ReadFailed) ↔
      AllInPlace (parseApiRead ∘ answer)) := by
  constructor
  · rw [readKeyEntryInner_eq]
    exact readChunks_iff (fun d ⟨e, he⟩ => nomatch he) fun r a => parseKeyRead_error
  · rw [readApiEntry_eq]
    exact readChunks_iff (fun d => decodeApiSecret_not_failed) fun r a => parseApiRead_error

/-- Chunks that bring nothing are asked for without end. -/
theorem empty_chunks_no_end :
    ¬(readKeyEntryInner (scriptKeyIo fun _ => .ok [rspOk, 80, 0]) keyCatSsh 0).Reaches []
      fun _ _ => True := by
  rintro ⟨a, asked, he, -⟩
  rw [readKeyEntryInner_eq] at he
  have hover :
      ReadOver (keyRead keyCatSsh 0) (parseKeyRead ∘ fun _ => .ok [rspOk, 80, 0]) .ok a asked :=
    readChunks_over he
  obtain ⟨-, n, -, -, herr | ⟨c, hc, hle, -⟩⟩ := hover
  · cases herr
  · have hnone (n : Nat) : gathered (parseKeyRead ∘ fun _ => .ok [rspOk, 80, 0]) n = [] := by
      induction n with
      | zero => rfl
      | succ n ih => rw [gathered_ok (c := ⟨80, 0, []⟩) rfl, ih]; rfl
    rw [hnone] at hle
    cases hc
    exact absurd hle (by decide)

end Immurok
