import Immurok.Daemon.Ble
import Immurok.Daemon.Chunks
import Immurok.Daemon.Storing

/-!
# Staging an entry

The writes an import is made of and the commit behind them, whatever the
device answers to each.
-/

namespace Immurok

open Async

/-- A device that answers by a script. -/
def scriptPutIo (reply : Nat → BleResult) : PutIo (List (UInt8 × Bytes)) where
  isConnected := .ret true
  isDeviceVerified := .ret true
  send cmd payload := script reply (cmd, payload)
  sendGated cmd payload := script reply (cmd, payload)
  syncKeys := .ret (.ok ())

/-- The payloads of the writes among the commands sent. -/
def writes (sent : List (UInt8 × Bytes)) : List Bytes :=
  (sent.filter fun q => q.1 = cmdKeyWrite).map Prod.snd

/-- Writes `[cat][0xFF][offset][data]` that put `data` from `offset` on, one
behind the other. -/
inductive Stages (cat : UInt8) : Nat → List Bytes → Bytes → Prop
  | done {offset : Nat} : Stages cat offset [] []
  | write {offset : Nat} {b : UInt8} {chunk data : Bytes} {payloads : List Bytes} :
    b.toNat = offset → Stages cat (offset + chunk.length) payloads data →
    Stages cat offset ((cat :: 0xFF :: b :: chunk) :: payloads) (chunk ++ data)

/-- Each write among the commands was answered with success. -/
def Acknowledged (reply : Nat → BleResult) (sent : List (UInt8 × Bytes)) : Prop :=
  ∀ n payload, sent[n]? = some (cmdKeyWrite, payload) → ∃ data, reply n = .ok (rspOk, data)

/-- The packet of a command fits, and so does its length byte. -/
def PacketFits (q : UInt8 × Bytes) : Prop :=
  (packet q.1 q.2).length ≤ maxPacketSize ∧
    ∃ b, packet q.1 q.2 = q.1 :: b :: q.2 ∧ b.toNat = q.2.length

/-- What an import of `keyData` may have sent at any time: writes of its bytes
from the first one on, and a commit only behind all of them. -/
structure Importing (cat : UInt8) (keyData : Bytes) (reply : Nat → BleResult)
    (sent : List (UInt8 × Bytes)) : Prop where
  writes : ∃ n, Stages cat 0 (writes sent) (keyData.take n)
  commit : ∀ before payload after, sent = before ++ (cmdKeyCommit, payload) :: after →
    payload = [cat, 0xFF] ∧ Stages cat 0 (Immurok.writes before) keyData ∧
      Acknowledged reply before
  fits : ∀ q ∈ sent, PacketFits q

-- ---------------------------------------------------------------------------
-- Lemmas
-- ---------------------------------------------------------------------------

section
variable {cat b : UInt8} {offset : Nat} {payloads : List Bytes} {data chunk keyData : Bytes}
  {reply : Nat → BleResult} {sent : List (UInt8 × Bytes)} {q : UInt8 × Bytes}

theorem Stages.concat (h : Stages cat offset payloads data) (hb : b.toNat = offset + data.length) :
    Stages cat offset (payloads ++ [cat :: 0xFF :: b :: chunk]) (data ++ chunk) := by
  induction h with
  | done =>
    have hw : Stages cat _ [cat :: 0xFF :: b :: chunk] (chunk ++ []) := .write hb .done
    rwa [List.append_nil] at hw
  | write hb' _ ih =>
    rw [List.append_assoc]
    refine .write hb' (ih ?_)
    rw [hb, List.length_append, Nat.add_assoc]

theorem writes_concat : writes (sent ++ [q]) =
    writes sent ++ if q.1 = cmdKeyWrite then [q.2] else [] := by
  rw [writes, List.filter_append, List.map_append]
  congr 1
  by_cases h : q.1 = cmdKeyWrite <;> simp [h]

theorem fits_of_length (h : q.2.length ≤ 62) : PacketFits q := by
  refine ⟨?_, UInt8.ofNat q.2.length, rfl, UInt8.toNat_ofNat_of_lt' ?_⟩
  · show q.2.length + 2 ≤ 64
    omega
  · show q.2.length < 256
    omega

/-- On the way: the first `offset` bytes are written. -/
structure Sending (cat : UInt8) (keyData : Bytes) (reply : Nat → BleResult) (offset : Nat)
    (sent : List (UInt8 × Bytes)) : Prop where
  le : offset ≤ keyData.length
  writes : Stages cat 0 (writes sent) (keyData.take offset)
  acknowledged : Acknowledged reply sent
  noCommit : ∀ q ∈ sent, q.1 ≠ cmdKeyCommit
  fits : ∀ q ∈ sent, PacketFits q

theorem commit_of_none (h : ∀ q ∈ sent, q.1 ≠ cmdKeyCommit) {before after : List (UInt8 × Bytes)}
    {payload : Bytes} (hs : sent = before ++ (cmdKeyCommit, payload) :: after) : False :=
  h (cmdKeyCommit, payload) (by rw [hs]; simp) rfl

theorem Sending.importing (h : Sending cat keyData reply offset sent) :
    Importing cat keyData reply sent :=
  ⟨⟨offset, h.writes⟩, fun _ _ _ hs => (commit_of_none h.noCommit hs).elim, h.fits⟩

theorem importing_nil : Importing cat keyData reply [] :=
  ⟨⟨0, .done⟩, fun before _ _ h => by simp at h, nofun⟩

theorem forall_mem_concat {P : UInt8 × Bytes → Prop} (h : ∀ p ∈ sent, P p) (hq : P q) :
    ∀ p ∈ sent ++ [q], P p := by
  intro p hp
  obtain hp | hp := List.mem_append.mp hp
  · exact h p hp
  · rwa [List.mem_singleton.mp hp]

/-- A command that is no write and no commit. -/
theorem Sending.other (h : Sending cat keyData reply offset sent) (hw : q.1 ≠ cmdKeyWrite)
    (hc : q.1 ≠ cmdKeyCommit) (hq : PacketFits q) : Sending cat keyData reply offset (sent ++ [q]) where
  le := h.le
  writes := by
    rw [writes_concat, if_neg hw, List.append_nil]
    exact h.writes
  acknowledged n payload hn := by
    obtain hlt | rfl | hlt := Nat.lt_trichotomy n sent.length
    · exact h.acknowledged n payload (by rwa [List.getElem?_append_left hlt] at hn)
    · rw [List.getElem?_concat_length, Option.some.injEq] at hn
      exact absurd (congrArg Prod.fst hn) hw
    · rw [List.getElem?_eq_none (by simp; omega)] at hn
      cases hn
  noCommit := forall_mem_concat h.noCommit hc
  fits := forall_mem_concat h.fits hq

/-- The write of the chunk at `offset`. -/
def chunkWrite (cat : UInt8) (keyData : Bytes) (offset : Nat) : UInt8 × Bytes :=
  (cmdKeyWrite, cat :: 0xFF :: UInt8.ofNat offset :: (keyData.drop offset).take maxChunk)

theorem chunkWrite_fits : PacketFits (chunkWrite cat keyData offset) :=
  fits_of_length (by
    have hchunk : ((keyData.drop offset).take maxChunk).length ≤ 59 := List.length_take_le _ _
    exact Nat.add_le_add_right hchunk 3)

theorem Sending.stages (h : Sending cat keyData reply offset sent) (hlen : keyData.length < 256) :
    Stages cat 0 (Immurok.writes (sent ++ [chunkWrite cat keyData offset]))
      (keyData.take (offset + maxChunk)) := by
  have hle := h.le
  have hoff : (UInt8.ofNat offset).toNat = offset :=
    UInt8.toNat_ofNat_of_lt' (Nat.lt_of_le_of_lt hle hlen)
  rw [writes_concat, chunkWrite, if_pos rfl, List.take_add]
  refine h.writes.concat ?_
  rw [hoff, List.length_take]
  omega

/-- Whatever is answered, no more than writes have been sent. -/
theorem Sending.written (h : Sending cat keyData reply offset sent) (hlen : keyData.length < 256) :
    Importing cat keyData reply (sent ++ [chunkWrite cat keyData offset]) where
  writes := ⟨_, h.stages hlen⟩
  commit _ _ _ hs :=
    (commit_of_none (forall_mem_concat h.noCommit
      (show cmdKeyWrite ≠ cmdKeyCommit by decide)) hs).elim
  fits := forall_mem_concat h.fits chunkWrite_fits

/-- Once it is acknowledged, the chunk counts. -/
theorem Sending.next (h : Sending cat keyData reply offset sent) (hlen : keyData.length < 256)
    {d : Bytes} (hr : reply sent.length = .ok (rspOk, d)) :
    Sending cat keyData reply (min (offset + maxChunk) keyData.length)
      (sent ++ [chunkWrite cat keyData offset]) where
  le := Nat.min_le_right _ _
  writes := by
    rw [← List.take_eq_take_min]
    exact h.stages hlen
  acknowledged n payload hn := by
    obtain hlt | rfl | hlt := Nat.lt_trichotomy n sent.length
    · exact h.acknowledged n payload (by rwa [List.getElem?_append_left hlt] at hn)
    · exact ⟨d, hr⟩
    · rw [List.getElem?_eq_none (by simp; omega)] at hn
      cases hn
  noCommit := forall_mem_concat h.noCommit (show cmdKeyWrite ≠ cmdKeyCommit by decide)
  fits := forall_mem_concat h.fits chunkWrite_fits

/-- All written, the commit follows. -/
theorem Sending.commit (h : Sending cat keyData reply keyData.length sent) :
    Importing cat keyData reply (sent ++ [(cmdKeyCommit, [cat, 0xFF])]) where
  writes := ⟨keyData.length, by
    rw [writes_concat, if_neg (show cmdKeyCommit ≠ cmdKeyWrite by decide), List.append_nil]
    exact h.writes⟩
  commit before payload after hs := by
    have hw := h.writes
    rw [List.take_length] at hw
    obtain rfl | ⟨after, q, rfl⟩ := after.eq_nil_or_concat
    · obtain ⟨rfl, heq⟩ := List.append_inj' hs rfl
      cases heq
      exact ⟨rfl, hw, h.acknowledged⟩
    -- the commit is the last command and the only one
    · have hs' : sent = before ++ (cmdKeyCommit, payload) :: after := by
        rw [List.concat_eq_append, ← List.cons_append, ← List.append_assoc] at hs
        exact (List.append_inj' hs rfl).1
      exact (commit_of_none h.noCommit hs').elim
  fits := forall_mem_concat h.fits (fits_of_length (show 2 ≤ 62 by decide))

end

-- ---------------------------------------------------------------------------
-- The import
-- ---------------------------------------------------------------------------

section
variable {cat count maxCount : UInt8} {keyData : Bytes} {reply : Nat → BleResult} {i : TaskId}
  {label : Str}

theorem script_triple {ρ κ : Type} {reply : Nat → ρ} {q : κ} {I A : List κ → Prop}
    {B : ρ → List κ → Prop}
    (h : ∀ asked, I asked → A asked → I (asked ++ [q]) ∧ B (reply asked.length) (asked ++ [q])) :
    (solo I).Triple i A (script reply q) B :=
  Solo.act fun s a s' hi ha hm => by
    obtain ⟨rfl, rfl⟩ := Prod.mk.inj (List.mem_singleton.mp hm)
    exact h s hi ha

theorem writeChunks_importing (hlen : keyData.length < 256) :
    (solo (Importing cat keyData reply)).Triple i (Sending cat keyData reply 0)
      ((scriptPutIo reply).writeChunks cat 0xFF keyData) fun r sent =>
        r = none → Sending cat keyData reply keyData.length sent := by
  refine Solo.repeatFrom (J := Sending cat keyData reply) fun offset => Solo.ite (fun hdone => ?_)
    fun _ => ?_
  · exact Solo.ret fun sent h _ => Nat.le_antisymm h.le hdone ▸ h
  · refine .bind (M := fun r sent => ∀ d, r = .ok (rspOk, d) →
      Sending cat keyData reply (min (offset + maxChunk) keyData.length) sent)
      (script_triple fun sent _ h => ⟨h.written hlen, fun d => h.next hlen⟩) fun r => ?_
    cases r with
    | error e => exact Solo.ret fun _ _ => nofun
    | ok p =>
      dsimp only
      split
      next hok => exact Solo.ret fun sent h => h p.2 (by rw [← hok])
      · split
        · exact Solo.ret fun _ _ => nofun
        · exact Solo.ret fun _ _ => nofun

theorem commitKey_importing :
    (solo (Importing cat keyData reply)).Triple i (Sending cat keyData reply keyData.length)
      ((scriptPutIo reply).commitKey cat 0xFF count) fun _ _ => True := by
  refine .bind (M := fun _ _ => True) (script_triple fun sent _ h => ⟨h.commit, trivial⟩)
    fun r => ?_
  cases r with
  | error e => exact Solo.ret fun _ => id
  | ok p => exact Solo.ite (fun _ => Solo.ret fun _ => id) fun _ => Solo.ret fun _ => id

theorem handleKeyImportInner_importing (hlen : keyData.length < 256) :
    (solo (Importing cat keyData reply)).Triple i (· = [])
      ((scriptPutIo reply).handleKeyImportInner cat keyData label maxCount) fun _ _ => True := by
  refine .bind (M := fun _ => Sending cat keyData reply 0) (script_triple fun sent _ h => ?_)
    fun r => ?_
  · subst h
    have h0 : Sending cat keyData reply 0 [] :=
      ⟨Nat.zero_le _, .done, fun _ _ hn => by simp at hn, nofun, nofun⟩
    have h1 : Sending cat keyData reply 0 [(cmdKeyCount, [cat])] :=
      h0.other (show cmdKeyCount ≠ cmdKeyWrite by decide)
        (show cmdKeyCount ≠ cmdKeyCommit by decide) (fits_of_length (show 1 ≤ 62 by decide))
    exact ⟨h1.importing, h1⟩
  · have done {a : Str} : (solo (Importing cat keyData reply)).Triple i
        (Sending cat keyData reply 0) (.ret a) fun _ _ => True := Solo.ret fun _ _ => trivial
    obtain e | ⟨status, _ | ⟨count, rest⟩⟩ := r
    · exact done
    · exact done
    · refine Solo.ite (fun _ => done) fun _ => Solo.ite (fun _ => done) fun _ => ?_
      refine .bind (writeChunks_importing hlen) fun error => ?_
      cases error with
      | some e => exact Solo.ret fun _ _ => trivial
      | none => exact commitKey_importing.pre fun _ _ h => h rfl

end

/-- At any time of an import, whatever the device has answered so far. -/
theorem import_stages {cat : KeyCategory} {hexData : Str} {keyData : Bytes}
    {reply : Nat → BleResult} {rest : Proc (List (UInt8 × Bytes)) Str}
    {sent : List (UInt8 × Bytes)} (hdata : Str.hexDecode hexData = .ok keyData)
    (hs : ((scriptPutIo reply).importKey cat.importKind hexData).Stops [] rest sent) :
    Importing cat.byte keyData reply sent := by
  have ht : (solo (Importing cat.byte keyData reply)).Triple 0 (· = [])
      ((scriptPutIo reply).importKey cat.importKind hexData) fun _ _ => True := by
    rw [PutIo.importKey, hdata]
    refine Solo.ite (fun _ => Solo.ret fun _ _ => trivial) fun hlen => ?_
    have hhi : cat.importKind.hi < 256 := by cases cat <;> decide
    exact handleKeyImportInner_importing (by omega)
  exact ht.stops importing_nil rfl hs

/-- An OTP entry of the least length, all answers being successes. -/
theorem import_stages_otp : Importing KeyCategory.otp.byte (List.replicate 61 0xAB)
    (fun _ => .ok (rspOk, [0]))
    [(cmdKeyCount, [keyCatOtp]), (cmdKeyWrite, keyCatOtp :: 0xFF :: 0 :: List.replicate 59 0xAB),
      (cmdKeyWrite, [keyCatOtp, 0xFF, 59, 0xAB, 0xAB]), (cmdKeyCommit, [keyCatOtp, 0xFF])] := by
  have hrun : (Proc.follow (List.replicate 7 0) ((scriptPutIo fun _ => .ok (rspOk, [0])).importKey
      KeyCategory.otp.importKind (Str.hexEncode (List.replicate 61 0xAB))) []).any
        (Proc.returned fun r sent => r == "OK:0".toList && sent ==
          [(cmdKeyCount, [keyCatOtp]),
            (cmdKeyWrite, keyCatOtp :: 0xFF :: 0 :: List.replicate 59 0xAB),
            (cmdKeyWrite, [keyCatOtp, 0xFF, 59, 0xAB, 0xAB]), (cmdKeyCommit, [keyCatOtp, 0xFF])]) =
      true := by decide +kernel
  obtain ⟨r, sent, hs, hp⟩ := Proc.Stops.of_returned _ hrun
  rw [Bool.and_eq_true, beq_iff_eq, beq_iff_eq] at hp
  exact hp.2 ▸ import_stages Str.hexDecode_hexEncode hs

end Immurok
