import Immurok.Daemon.Retrieval

/-!
# Keys, as the daemon puts them on the device

The commands that add an entry, over what they use of the daemon, `PutIo`,
and a device that stores what it is given.
-/

namespace Immurok

open Async

variable {σ : Type}

/-- `send` is `ble_send`, `sendGated` the one that waits for a touch. -/
structure PutIo (σ : Type) where
  isConnected : Proc σ Bool
  isDeviceVerified : Proc σ Bool
  send : UInt8 → Bytes → Proc σ BleResult
  sendGated : UInt8 → Bytes → Proc σ BleResult
  syncKeys : Proc σ (Except Str Unit)

namespace PutIo

def generateKey (io : PutIo σ) (nameHex : Str) : Proc σ Str :=
  match Str.hexDecode nameHex with
  | .ok name =>
    if name.length ≠ 16 then pure "ERROR:INVALID_NAME"
    else do
      match ← io.sendGated cmdKeyGenerate (keyCatSsh :: name) with
      | .ok (status, data) =>
        if status = rspOk then do
          let _ ← io.syncKeys
          pure ("OK:".toList ++ Str.ofNat (data.getD 2 0).toNat)
        else pure (fmtWriteStatus "GENERATE" status)
      | .error e => pure ("ERROR:".toList ++ e)
  | .error _ => pure "ERROR:INVALID_NAME"

def writeChunks (io : PutIo σ) (cat idx : UInt8) (keyData : Bytes) : Proc σ (Option Str) :=
  Proc.repeatFrom 0 fun (offset : Nat) => do
    if keyData.length ≤ offset then pure (.inr none)
    else
      let chunk := (keyData.drop offset).take maxChunk
      match ← io.send cmdKeyWrite (cat :: idx :: UInt8.ofNat offset :: chunk) with
      | .ok (status, _) =>
        if status = rspOk then pure (.inl (min (offset + maxChunk) keyData.length))
        else if status = rspErrLowBattery then
          pure (.inr (some "ERROR:LOW_BATTERY:KEY_WRITE refused (device <5%, charge to retry)"))
        else
          pure (.inr (some ("ERROR:KEY_WRITE_FAILED:offset=".toList ++ Str.ofNat offset ++
            ":0x".toList ++ Str.hexByte status)))
      | .error e => pure (.inr (some ("ERROR:KEY_WRITE_FAILED:".toList ++ e)))

def commitKey (io : PutIo σ) (cat idx count : UInt8) : Proc σ Str := do
  match ← io.sendGated cmdKeyCommit [cat, idx] with
  | .ok (status, _) =>
    if status = rspOk ∨ status = rspFpGateApproved then do
      let _ ← io.syncKeys
      pure ("OK:".toList ++ Str.ofNat count.toNat)
    else pure (fmtWriteStatus "KEY_COMMIT" status)
  | .error e => pure ("ERROR:KEY_COMMIT_FAILED:".toList ++ e)

def handleKeyImportInner (io : PutIo σ) (cat : UInt8) (keyData : Bytes) (label : Str)
    (maxCount : UInt8) : Proc σ Str := do
  match ← io.send cmdKeyCount [cat] with
  | .error e => pure ("ERROR:KEY_COUNT_FAILED:".toList ++ e)
  | .ok (status, []) => pure ("ERROR:KEY_COUNT_FAILED:0x".toList ++ Str.hexByte status ++
      ":len=0".toList)
  | .ok (status, count :: rest) =>
    if status ≠ rspOk then
      pure ("ERROR:KEY_COUNT_FAILED:0x".toList ++ Str.hexByte status ++ ":len=".toList ++
        Str.ofNat (rest.length + 1))
    else if maxCount ≤ count then
      pure ("ERROR:KEYSTORE_FULL:".toList ++ label ++ " at capacity (".toList ++
        Str.ofNat count.toNat ++ "/".toList ++ Str.ofNat maxCount.toNat ++ ")".toList)
    else do
      match ← io.writeChunks cat 0xFF keyData with
      | some e => pure e
      | none => io.commitKey cat 0xFF count

def importKey (io : PutIo σ) (kind : ImportKind) (hexData : Str) : Proc σ Str :=
  match Str.hexDecode hexData with
  | .ok keyData =>
    if keyData.length < kind.lo ∨ kind.hi < keyData.length then
      pure ("ERROR:INVALID_DATA_LEN:expected ".toList ++ kind.expected ++ ", got ".toList ++
        Str.ofNat keyData.length)
    else io.handleKeyImportInner kind.cat keyData kind.label kind.maxCount
  | .error e => pure ("ERROR:INVALID_HEX:".toList ++ e)

end PutIo

/-- The daemon's own, for connection `i`. -/
def putIo (i : TaskId) : PutIo Daemon where
  isConnected := load (·.isConnected)
  isDeviceVerified := load (·.isDeviceVerified)
  send := bleSend i
  sendGated := bleSendFpGated i
  syncKeys := syncKeys i

theorem importKey_eq {i : TaskId} {kind : ImportKind} {hexData : Str} :
    importKey i kind hexData = (putIo i).importKey kind hexData := by rfl

theorem generateKey_eq {i : TaskId} {nameHex : Str} :
    generateKey i nameHex = (putIo i).generateKey nameHex := by rfl

-- ---------------------------------------------------------------------------
-- The commands
-- ---------------------------------------------------------------------------

/-- A command that adds an entry, with the bytes it brings. -/
inductive AddCommand
  | generate (name : Bytes)
  | import (cat : KeyCategory) (payload : Bytes)

def KeyCategory.verb : KeyCategory → Str
  | .ssh => "IMPORT"
  | .otp => "OTP_IMPORT"
  | .api => "API_IMPORT"

def KeyCategory.importKind : KeyCategory → ImportKind
  | .ssh => importSsh
  | .otp => importOtp
  | .api => importApi

def AddCommand.verb : AddCommand → Str
  | .generate _ => "GENERATE"
  | .import cat _ => cat.verb

def AddCommand.payload : AddCommand → Bytes
  | .generate name => name
  | .import _ payload => payload

def AddCommand.line (c : AddCommand) : Str :=
  "KEY:".toList ++ c.verb ++ ':' :: Str.hexEncode c.payload

/-- The daemon's part, once the line has come to it. -/
def PutIo.add (io : PutIo σ) (c : AddCommand) : Proc σ Str := do
  let connected ← io.isConnected
  if !connected then pure "ERROR:NOT_CONNECTED"
  else do
    let verified ← io.isDeviceVerified
    if !verified then pure "ERROR:NOT_VERIFIED"
    else
      match c with
      | .generate name => io.generateKey (Str.hexEncode name)
      | .import cat payload => io.importKey cat.importKind (Str.hexEncode payload)

section
variable {c : AddCommand} {ext : Extern} {i : TaskId} {bs : Bytes}

theorem colon_not_mem_hexEncode : ':' ∉ Str.hexEncode bs := by
  intro h
  obtain ⟨n, hn, hc⟩ := Str.exists_of_mem_hexEncode h
  have all : ∀ k : Fin 16, ':' ≠ Str.hexDigit (UInt8.ofNat k) := by decide
  have := all ⟨n.toNat, hn⟩
  rw [UInt8.ofNat_toNat] at this
  exact this hc

theorem AddCommand.verb_mem : c.verb ∈
    ["GENERATE".toList, "IMPORT".toList, "OTP_IMPORT".toList, "API_IMPORT".toList] := by
  cases c with
  | generate name => exact .head _
  | «import» cat payload =>
    cases cat with
    | ssh => exact .tail _ (.head _)
    | otp => exact .tail _ (.tail _ (.head _))
    | api => exact .tail _ (.tail _ (.tail _ (.head _)))

theorem AddCommand.verb_spec : ':' ∉ c.verb ∧ c.verb ≠ "CACHE".toList := by
  have all : ∀ v ∈ ["GENERATE".toList, "IMPORT".toList, "OTP_IMPORT".toList, "API_IMPORT".toList],
      ':' ∉ v ∧ v ≠ "CACHE".toList := by decide
  exact all _ c.verb_mem

theorem splitn_line : Str.splitn ':' 3 c.line = ["KEY".toList, c.verb, Str.hexEncode c.payload] := by
  have hkey : Str.splitOnce ':' c.line = some ("KEY".toList, c.verb ++ ':' :: Str.hexEncode c.payload) :=
    Str.splitOnce_eq_some.mpr ⟨by simp [AddCommand.line], by decide⟩
  rw [Str.splitn, hkey]
  dsimp only
  rw [Str.splitn, Str.splitOnce_eq_some.mpr ⟨rfl, c.verb_spec.1⟩]
  dsimp only
  rw [Str.splitn, Str.splitOnce_eq_none.mpr colon_not_mem_hexEncode]

/-- The daemon carries out the command of the line. -/
theorem handleKeyCommand_add : handleKeyCommand ext i c.line = (putIo i).add c := by
  rw [handleKeyCommand, splitn_line, if_neg (by simp), if_neg fun h => c.verb_spec.2 h.1]
  cases c with
  | generate name => rfl
  | «import» cat payload => cases cat <;> rfl

/-- A line says which command it is. -/
theorem AddCommand.line_inj {c' : AddCommand} (h : c.line = c'.line) : c = c' := by
  have hsplit := (splitn_line (c := c)).symm.trans ((congrArg (Str.splitn ':' 3) h).trans splitn_line)
  obtain ⟨hverb, hhex⟩ : c.verb = c'.verb ∧ Str.hexEncode c.payload = Str.hexEncode c'.payload := by
    simpa using hsplit
  have hpayload : c.payload = c'.payload := by
    have := congrArg Str.hexDecode hhex
    rw [Str.hexDecode_hexEncode, Str.hexDecode_hexEncode] at this
    exact Except.ok.inj this
  have verbs : ∀ a ∈ [KeyCategory.ssh, .otp, .api], ∀ b ∈ [KeyCategory.ssh, .otp, .api],
      a.verb ≠ "GENERATE".toList ∧ (a.verb = b.verb → a = b) := by decide
  have all (a : KeyCategory) : a ∈ [KeyCategory.ssh, .otp, .api] := by cases a <;> simp
  cases c with
  | generate name =>
    cases c' with
    | generate name' => exact congrArg AddCommand.generate hpayload
    | «import» cat' payload' => exact absurd hverb.symm (verbs _ (all _) _ (all cat')).1
  | «import» cat payload =>
    cases c' with
    | generate name' => exact absurd hverb (verbs _ (all _) _ (all cat)).1
    | «import» cat' payload' =>
      obtain rfl := (verbs _ (all cat) _ (all cat')).2 hverb
      exact congrArg (AddCommand.import cat) hpayload

theorem isStripped_hexEncode : ∀ d ∈ Str.hexEncode bs, isStripped d = false := by
  intro d hd
  obtain ⟨n, hn, rfl⟩ := Str.exists_of_mem_hexEncode hd
  have all : ∀ k : Fin 16, isStripped (Str.hexDigit (UInt8.ofNat k)) = false := by decide
  have := all ⟨n.toNat, hn⟩
  rwa [UInt8.ofNat_toNat] at this

/-- The line comes to the daemon as it was sent. -/
theorem splitRequestChunk_add (hlen : c.payload.length < 1024) :
    splitRequestChunk (utf8 (c.line ++ ['\n'])) = .ok c.line := by
  have hraw : Utf8.lossy (utf8 (c.line ++ ['\n'])) = c.line ++ ['\n'] := Utf8.lossy_encode
  have hverb : '\n' ∉ "KEY:".toList ++ c.verb ++ [':'] ∧ c.verb.length ≤ 10 := by
    have all : ∀ v ∈ ["GENERATE".toList, "IMPORT".toList, "OTP_IMPORT".toList, "API_IMPORT".toList],
        '\n' ∉ "KEY:".toList ++ v ++ [':'] ∧ v.length ≤ 10 := by decide
    exact all _ c.verb_mem
  have hline : '\n' ∉ c.line := by
    rw [AddCommand.line, List.append_cons]
    refine fun hm => (List.mem_append.mp hm).elim hverb.1 fun hm => ?_
    exact absurd (isStripped_hexEncode _ hm) (by decide)
  have hstrip : strip c.line = c.line := by
    have hhead : c.line.dropWhile isStripped = c.line := List.dropWhile_cons_of_neg (by decide)
    rw [strip, Str.trimMatches, hhead, AddCommand.line, Str.trimEndMatches_append (by decide),
      Str.trimEndMatches_eq_self.mpr fun d hd => isStripped_hexEncode d (List.mem_of_getLast? hd)]
  have hshort : (utf8 (c.line ++ ['\n'])).length < maxRequestBytes := by
    refine Nat.lt_of_le_of_lt length_utf8_le ?_
    have := hverb.2
    simp only [AddCommand.line, List.length_append, List.length_cons, Str.length_hexEncode]
    show 4 * (4 + c.verb.length + (2 * c.payload.length + 1) + (0 + 1)) < 64 * 1024
    omega
  have hsplit : Str.splitOnce '\n' (c.line ++ ['\n']) = some (c.line, []) :=
    Str.splitOnce_eq_some.mpr ⟨rfl, hline⟩
  rw [splitRequestChunk, if_neg (Nat.not_le.mpr hshort), hraw]
  simp only [hsplit, hstrip]
  rfl

theorem dispatchOf_add : dispatchOf c.line = .key := by
  cases c with
  | generate name => rfl
  | «import» cat payload => cases cat <;> rfl

end

-- ---------------------------------------------------------------------------
-- A device
-- ---------------------------------------------------------------------------

/-- The device's entries by category, and what is staged for the next one. -/
structure Store where
  entries : UInt8 → List Bytes
  staged : Bytes

def Store.empty : Store := { entries := fun _ => [], staged := [] }

/-- How long the entries of a category are; shorter ones are filled up with
zeros. -/
def entryLen (cat : UInt8) : Nat :=
  if cat = keyCatOtp then nameLenOtp + serviceLenOtp + secretLenOtp
  else if cat = keyCatApi then nameLenApi + valueLenApi
  else 112

def fill (n : Nat) (bs : Bytes) : Bytes := bs ++ List.replicate (n - bs.length) 0

def Store.append (st : Store) (cat : UInt8) (entry : Bytes) : Store :=
  { st with entries := Function.update st.entries cat (st.entries cat ++ [fill (entryLen cat) entry]) }

theorem Store.entries_append {st : Store} {cat : UInt8} {entry : Bytes} :
    (st.append cat entry).entries cat = st.entries cat ++ [fill (entryLen cat) entry] :=
  Function.update_self cat _ st.entries

/-- `keypair` is what the device generates, the public key first. -/
def Store.device (keypair : Bytes) : Device Store where
  answer cmd payload st :=
    match payload with
    | [cat] =>
      if cmd = cmdKeyCount then
        (.ok (rspOk, UInt8.ofNat (st.entries cat).length :: List.replicate 4 0), st)
      else (.ok (rspInvalidParam, []), st)
    | _ :: _ :: offset :: chunk =>
      if cmd = cmdKeyWrite then
        (.ok (rspOk, []), { st with staged := st.staged.take offset.toNat ++ chunk })
      else (.ok (rspInvalidParam, []), st)
    | _ => (.ok (rspInvalidParam, []), st)
  gated cmd payload st :=
    match payload with
    | cat :: rest =>
      if cmd = cmdKeyCommit then (.ok (rspOk, []), st.append cat st.staged)
      else if cmd = cmdKeyGenerate then (.ok (rspOk, []), st.append cat (rest ++ keypair))
      else (.ok (rspInvalidParam, []), st)
    | [] => (.ok (rspInvalidParam, []), st)

/-- A verified device; what is synchronised afterwards is left out. -/
def storeIo (keypair : Bytes) : PutIo Store where
  isConnected := .ret true
  isDeviceVerified := .ret true
  send cmd payload := .atomically ((Store.device keypair).answer cmd payload)
  sendGated cmd payload := .atomically ((Store.device keypair).gated cmd payload)
  syncKeys := .ret (.ok ())

section
variable {keypair payload : Bytes} {st : Store} {cat : KeyCategory}

def KeyCategory.byte (cat : KeyCategory) : UInt8 := cat.importKind.cat

/-- The chunks make up the payload again. -/
theorem writeChunks_reaches {c idx : UInt8} (hne : payload ≠ []) (hlen : payload.length < 256) :
    ((storeIo keypair).writeChunks c idx payload).Reaches st fun r st' =>
      r = none ∧ st' = { st with staged := payload } := by
  refine Proc.Reaches.repeatFrom (J := fun (offset : Nat) (st' : Store) =>
    offset ≤ payload.length ∧ st'.entries = st.entries ∧
      (0 < offset → st'.staged = payload.take offset)) (payload.length - ·) (fun offset st' hj => ?_)
    ⟨Nat.zero_le _, rfl, fun h => absurd h (Nat.lt_irrefl 0)⟩
  obtain ⟨hle, he, hs⟩ := hj
  have hpos := List.length_pos_of_ne_nil hne
  have hoff : (UInt8.ofNat offset).toNat = offset :=
    UInt8.toNat_ofNat_of_lt' (Nat.lt_of_le_of_lt hle hlen)
  split
  next hdone =>
    refine .ret ⟨rfl, ?_⟩
    have hst := hs (Nat.lt_of_lt_of_le hpos hdone)
    rw [List.take_of_length_le hdone] at hst
    rw [← hst, ← he]
  next hlt =>
    have hstaged : st'.staged.take offset = payload.take offset := by
      obtain rfl | h := Nat.eq_zero_or_pos offset
      · rfl
      · rw [hs h, List.take_take, Nat.min_self]
    refine .bind (R := fun r st'' => r = .ok (rspOk, []) ∧ st''.entries = st.entries ∧
      st''.staged = payload.take (offset + maxChunk)) (.atomically ⟨rfl, he, ?_⟩) ?_
    · show st'.staged.take (UInt8.ofNat offset).toNat ++ (payload.drop offset).take maxChunk = _
      rw [hoff, hstaged, List.take_add]
    · rintro _ st'' ⟨rfl, he', hs'⟩
      refine .ret ⟨⟨Nat.min_le_right _ _, he', fun _ => ?_⟩, ?_⟩
      · rw [hs', ← List.take_eq_take_min]
      · show payload.length - min (offset + 59) payload.length < payload.length - offset
        omega

/-- An accepted payload becomes the last entry of its category. -/
theorem importKey_reaches (hlo : cat.importKind.lo ≤ payload.length)
    (hhi : payload.length ≤ cat.importKind.hi)
    (hroom : (st.entries cat.byte).length < cat.importKind.maxCount.toNat) :
    ((storeIo keypair).importKey cat.importKind (Str.hexEncode payload)).Reaches st fun r st' =>
      r = "OK:".toList ++ Str.ofNat (st.entries cat.byte).length ∧
        st' = Store.append { st with staged := payload } cat.byte payload := by
  have hbounds : 0 < cat.importKind.lo ∧ cat.importKind.hi < 256 := by cases cat <;> decide
  have hcount : (UInt8.ofNat (st.entries cat.byte).length).toNat = (st.entries cat.byte).length :=
    UInt8.toNat_ofNat_of_lt' (Nat.lt_trans hroom (UInt8.toNat_lt _))
  rw [PutIo.importKey, Str.hexDecode_hexEncode]
  dsimp only
  rw [if_neg (by omega)]
  refine .bind (R := fun r st' => st = st' ∧ r = .ok (rspOk,
    UInt8.ofNat (st.entries cat.byte).length :: List.replicate 4 0)) (.atomically ⟨rfl, rfl⟩) ?_
  rintro _ _ ⟨rfl, rfl⟩
  dsimp only
  rw [if_neg (by simp), if_neg fun h => by
    rw [UInt8.le_iff_toNat_le, hcount] at h
    omega]
  refine .bind (writeChunks_reaches (by rintro rfl; simp at hlo; omega) (by omega)) ?_
  rintro _ _ ⟨rfl, rfl⟩
  refine .bind (R := fun r st' => r = .ok (rspOk, []) ∧
    st' = Store.append { st with staged := payload } cat.byte payload) (.atomically ⟨rfl, rfl⟩) ?_
  rintro _ _ ⟨rfl, rfl⟩
  refine .ret ⟨?_, rfl⟩
  rw [hcount]

theorem generateKey_reaches (hlen : payload.length = 16) :
    ((storeIo keypair).generateKey (Str.hexEncode payload)).Reaches st fun r st' =>
      (∃ n, r = "OK:".toList ++ n) ∧ st' = st.append keyCatSsh (payload ++ keypair) := by
  rw [PutIo.generateKey, Str.hexDecode_hexEncode]
  dsimp only
  rw [if_neg fun h => h hlen]
  refine .bind (R := fun r st' => r = .ok (rspOk, []) ∧ st' = st.append keyCatSsh (payload ++ keypair))
    (.atomically ⟨rfl, rfl⟩) ?_
  rintro _ _ ⟨rfl, rfl⟩
  exact .ret ⟨⟨_, rfl⟩, rfl⟩

end

end Immurok
