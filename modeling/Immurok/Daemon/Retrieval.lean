import Immurok.Async.Solo
import Immurok.Client.Keys

/-!
# Keys, as the daemon gives them out

A client asks for an entry by its name, the device is asked by its index. The
handlers are written over what they use of the daemon, `GetIo`, and run
against a device that answers what it holds.
-/

namespace Immurok

open Async

variable {σ : Type}

/-- What the handlers use: `send` is `ble_send`, `sendGated` the one that waits
for a touch, and the slot is claimed and released. -/
structure GetIo (σ : Type) where
  connected : Proc σ Bool
  sshKeys : Proc σ (List SshKeyCacheEntry)
  keyNames : Proc σ (List KeyNameEntry)
  claim : Proc σ Bool
  release : Proc σ Unit
  now : Proc σ Nat
  send : UInt8 → Bytes → Proc σ BleResult
  sendGated : UInt8 → Bytes → Proc σ BleResult

namespace GetIo

def handleGetSsh (io : GetIo σ) (ext : Extern) (name : Str) : Proc σ Str := do
  let entries ← io.sshKeys
  match entries.find? fun e => e.name = name with
  | some e => pure ("OK:".toList ++ sshKeyText ext e ++ " ".toList ++ e.name ++ "\n".toList)
  | none => pure ("ERROR:NOT_FOUND:".toList ++ name ++ "\n".toList)

def findKeyIndex (io : GetIo σ) (cat name : Str) : Proc σ (Option UInt8) := do
  let names ← io.keyNames
  pure ((names.find? fun e => e.category = cat ∧ e.name = name).map (·.index))

def readApiEntry (io : GetIo σ) (idx : UInt8) (name : Str) : Proc σ Str :=
  Proc.repeatFrom [] fun full => do
    match ← io.send cmdKeyRead [keyCatApi, idx, UInt8.ofNat full.length] with
    | .error e => pure (.inr (readError "READ" e))
    | .ok (status, total :: _ :: chunk) =>
      if status ≠ rspOk then pure (.inr (readFailed "READ" status))
      else
        let full := full ++ chunk
        if total.toNat ≤ full.length then
          pure (.inr (decodeApiSecret (full.take total.toNat) name))
        else pure (.inl full)
    | .ok (status, _) => pure (.inr (readFailed "READ" status))

def touchApiEntry (io : GetIo σ) (idx : UInt8) : Proc σ BleResult := do
  let result ← io.sendGated cmdKeyRead [keyCatApi, idx, 0]
  io.release
  pure result

def handleGetApi (io : GetIo σ) (name : Str) : Proc σ Str := do
  match ← io.findKeyIndex "api" name with
  | none => pure ("ERROR:NOT_FOUND:".toList ++ name ++ "\n".toList)
  | some idx => do
    let registered ← io.claim
    if !registered then pure "ERROR:BUSY\n"
    else do
      match ← io.touchApiEntry idx with
      | .ok (status, _) =>
        if status = rspOk then io.readApiEntry idx name else pure (readFailed "READ" status)
      | .error e => pure (readError "READ" e)

def otpGetPayload (io : GetIo σ) (idx : UInt8) : Proc σ Bytes := do
  let now ← io.now
  pure (idx :: u32Le (now / 1000))

def otpAfterTouch (io : GetIo σ) (idx : UInt8) : Proc σ Str := do
  let payload ← io.otpGetPayload idx
  match ← io.send cmdKeyOtpGet payload with
  | .ok (status, code) =>
    if status = rspOk ∧ 6 ≤ code.length then pure (formatOtpResponse code)
    else pure (readFailed "OTP" status)
  | .error e => pure (readError "OTP" e)

def otpGetInner (io : GetIo σ) (idx : UInt8) : Proc σ Str := do
  let payload ← io.otpGetPayload idx
  match ← io.sendGated cmdKeyOtpGet payload with
  | .ok (status, code) =>
    if status = rspOk then
      if 6 ≤ code.length then pure (formatOtpResponse code) else io.otpAfterTouch idx
    else pure (readFailed "OTP" status)
  | .error e => pure (readError "OTP" e)

def otpWithSlot (io : GetIo σ) (idx : UInt8) (busy : Str) : Proc σ Str := do
  let registered ← io.claim
  if !registered then pure busy
  else do
    let result ← io.otpGetInner idx
    io.release
    pure result

def handleGetOtp (io : GetIo σ) (name : Str) : Proc σ Str := do
  match ← io.findKeyIndex "otp" name with
  | none => pure ("ERROR:NOT_FOUND:".toList ++ name ++ "\n".toList)
  | some idx => io.otpWithSlot idx "ERROR:BUSY\n"

def handleGetKey (io : GetIo σ) (ext : Extern) (afterGet : Str) : Proc σ Str :=
  match Str.splitOnce ':' afterGet with
  | none | some (_, []) => pure "ERROR:USAGE\n"
  | some (cat, name) => do
    let connected ← io.connected
    if !connected && cat ≠ "ssh".toList then pure "ERROR:NOT_CONNECTED\n"
    else if cat = "ssh".toList then io.handleGetSsh ext name
    else if cat = "api".toList then io.handleGetApi name
    else if cat = "otp".toList then io.handleGetOtp name
    else pure "ERROR:UNKNOWN_CATEGORY\n"

end GetIo

/-- The daemon's own, for connection `i`. -/
def getIo (i : TaskId) : GetIo Daemon where
  connected := load (·.isConnected)
  sshKeys := loadSshKeys
  keyNames := loadKeyNames
  claim := trySetPendingPam i .placeholder
  release := denyPendingPam i
  now := clock
  send := bleSend i
  sendGated := bleSendFpGated i

theorem handleGetKey_eq {ext : Extern} {i : TaskId} {afterGet : Str} :
    handleGetKey ext i afterGet = (getIo i).handleGetKey ext afterGet := by
  rfl

/-- A request from the first bytes of its connection on; without an answer if
they are no request for a key. -/
def serveGet (io : GetIo σ) (ext : Extern) (chunk : Bytes) : Proc σ (Option Str) :=
  match splitRequestChunk chunk with
  | .error _ => pure none
  | .ok line =>
    match dispatchOf line with
    | .get afterGet => do
      let reply ← io.handleGetKey ext afterGet
      pure (some reply)
    | _ => pure none

-- ---------------------------------------------------------------------------
-- The request line
-- ---------------------------------------------------------------------------

/-- What comes through of a name: up to its first newline, which may only be
followed by what is stripped, and without the stripped characters at the end. -/
def askedName (name : Str) : Option Str :=
  match Str.splitOnce '\n' name with
  | none => some (Str.trimEndMatches isStripped name)
  | some (a, b) => if strip (b ++ ['\n']) ≠ [] then none else some (Str.trimEndMatches isStripped a)

/-- The bytes a client sends. -/
def getChunk (cat : KeyCategory) (name : Str) : Bytes := utf8 (getRequest cat name ++ ['\n'])

section
variable {cat : KeyCategory} {name asked : Str} {ext : Extern} {io : GetIo σ}

theorem getRequest_eq : getRequest cat name = ("GET:".toList ++ cat.wire) ++ ':' :: name := by
  simp [getRequest]

theorem strip_getRequest :
    strip (getRequest cat name) = getRequest cat (Str.trimEndMatches isStripped name) := by
  have hhead : (getRequest cat name).dropWhile isStripped = getRequest cat name :=
    List.dropWhile_cons_of_neg (by decide)
  rw [strip, Str.trimMatches, hhead, getRequest_eq, Str.trimEndMatches_append (by decide),
    getRequest_eq]

theorem splitOnce_getRequest_newline : Str.splitOnce '\n' (getRequest cat name ++ ['\n']) =
    match Str.splitOnce '\n' name with
    | none => some (getRequest cat name, [])
    | some (a, b) => some (getRequest cat a, b ++ ['\n']) := by
  have hcat : '\n' ∉ "GET:".toList ++ cat.wire ++ [':'] := by cases cat <;> decide
  have hmem {a : Str} (h : '\n' ∉ a) : '\n' ∉ getRequest cat a := by
    rw [getRequest_eq, List.append_cons]
    exact fun hm => (List.mem_append.mp hm).elim hcat h
  cases h : Str.splitOnce '\n' name with
  | none => exact Str.splitOnce_eq_some.mpr ⟨rfl, hmem (Str.splitOnce_eq_none.mp h)⟩
  | some p =>
    obtain ⟨rfl, ha⟩ := Str.splitOnce_eq_some.mp h
    refine Str.splitOnce_eq_some.mpr ⟨?_, hmem ha⟩
    simp [getRequest]

theorem splitRequestChunk_get (hlen : (getChunk cat name).length < maxRequestBytes) :
    splitRequestChunk (getChunk cat name) =
      match askedName name with
      | none => .error .trailingData
      | some asked => .ok (getRequest cat asked) := by
  have hraw : Utf8.lossy (getChunk cat name) = getRequest cat name ++ ['\n'] := Utf8.lossy_encode
  rw [splitRequestChunk, if_neg (Nat.not_le.mpr hlen), hraw]
  simp only [splitOnce_getRequest_newline, askedName]
  cases Str.splitOnce '\n' name with
  | none => simp only [strip_getRequest]; rfl
  | some p =>
    dsimp only
    split
    · rfl
    · simp only [strip_getRequest]

theorem dispatchOf_get :
    dispatchOf (getRequest cat name) = .get (cat.wire ++ ':' :: name) := by
  cases cat <;> rfl

theorem length_getChunk (h : name.length < 1024) :
    (getChunk cat name).length < maxRequestBytes := by
  refine Nat.lt_of_le_of_lt length_utf8_le ?_
  have hcat : cat.wire.length = 3 := by cases cat <;> rfl
  simp only [getRequest, List.length_append, hcat, List.length_singleton]
  show 4 * (4 + 3 + 1 + name.length + 1) < 64 * 1024
  omega

/-- A name comes through unchanged. -/
theorem askedName_self : askedName name = some name ↔
    '\n' ∉ name ∧ ∀ c, name.getLast? = some c → isStripped c = false := by
  unfold askedName
  cases h : Str.splitOnce '\n' name with
  | none =>
    rw [Option.some.injEq, Str.trimEndMatches_eq_self]
    exact (and_iff_right (Str.splitOnce_eq_none.mp h)).symm
  | some p =>
    obtain ⟨rfl, -⟩ := Str.splitOnce_eq_some.mp h
    refine iff_of_false (fun ht => ?_) fun ht => ht.1 (by simp)
    obtain ⟨-, ht⟩ := Option.ite_none_left_eq_some.mp ht
    have hlen := congrArg List.length (Option.some.inj ht)
    have := (Str.trimEndMatches_begins (p := isStripped) (s := p.1)).length_le
    rw [List.length_append, List.length_cons] at hlen
    omega

/-- The handler of a category. -/
def GetIo.handleCategory (io : GetIo σ) (ext : Extern) (name : Str) : KeyCategory → Proc σ Str
  | .ssh => io.handleGetSsh ext name
  | .otp => io.handleGetOtp name
  | .api => io.handleGetApi name

/-- Where a request for a name ends up. -/
theorem serveGet_eq (hlen : (getChunk cat name).length < maxRequestBytes) :
    serveGet io ext (getChunk cat name) =
      match askedName name with
      | none => .ret none
      | some [] => .ret (some "ERROR:USAGE\n")
      | some asked => io.connected.bind fun connected =>
          if !connected && cat ≠ .ssh then .ret (some "ERROR:NOT_CONNECTED\n")
          else (io.handleCategory ext asked cat).bind fun reply => .ret (some reply) := by
  rw [serveGet, splitRequestChunk_get hlen]
  cases h : askedName name with
  | none => rfl
  | some asked =>
    have hcat : ':' ∉ cat.wire := by cases cat <;> decide
    have hsplit : Str.splitOnce ':' (cat.wire ++ ':' :: asked) = some (cat.wire, asked) :=
      Str.splitOnce_eq_some.mpr ⟨rfl, hcat⟩
    simp only [dispatchOf_get, GetIo.handleGetKey, hsplit]
    cases asked with
    | nil => rfl
    | cons c asked =>
      simp only [Proc.bind_eq, Proc.pure_eq, Proc.bind_bind]
      congr 1
      funext connected
      cases connected <;> cases cat <;> rfl

end

-- ---------------------------------------------------------------------------
-- A device
-- ---------------------------------------------------------------------------

/-- How a device answers a command, and what it is afterwards: at once, and
after the touch it may wait for. -/
structure Device (δ : Type) where
  answer : UInt8 → Bytes → δ → BleResult × δ
  gated : UInt8 → Bytes → δ → BleResult × δ

/-- The daemon that a request meets, with its device. -/
structure Host (δ : Type) where
  isConnected : Bool
  sshKeys : List SshKeyCacheEntry
  keyNames : List KeyNameEntry
  slotFree : Bool
  now : Nat
  device : δ
  sent : List (UInt8 × Bytes)

variable {δ : Type}

def Host.command (f : UInt8 → Bytes → δ → BleResult × δ) (cmd : UInt8) (payload : Bytes)
    (h : Host δ) : BleResult × Host δ :=
  let r := f cmd payload h.device
  (r.1, { h with device := r.2, sent := (cmd, payload) :: h.sent })

def hostIo (dev : Device δ) : GetIo (Host δ) where
  connected := .get (·.isConnected)
  sshKeys := .get (·.sshKeys)
  keyNames := .get (·.keyNames)
  claim := .atomically fun h => (h.slotFree, { h with slotFree := false })
  release := .modify fun h => { h with slotFree := true }
  now := .get (·.now)
  send cmd payload := .atomically (Host.command dev.answer cmd payload)
  sendGated cmd payload := .atomically (Host.command dev.gated cmd payload)

/-- What a device holds: API entries, and the code of an OTP entry at a time.
An entry is read in pieces of any size. -/
structure Vault where
  api : UInt8 → Bytes
  code : UInt8 → Bytes → Bytes
  piece : UInt8 → UInt8 → Nat
  api_length : ∀ idx, (api idx).length < 256
  code_length : ∀ idx time, 6 ≤ (code idx time).length
  piece_pos : ∀ idx offset, 0 < piece idx offset

/-- A device with nothing on it. -/
def Vault.bare : Vault where
  api _ := []
  code _ _ := List.replicate 6 0x30
  piece _ _ := 1
  api_length _ := by decide
  code_length _ _ := Nat.le_refl 6
  piece_pos _ _ := Nat.one_pos

/-- Its answers, once it has been touched. -/
def Vault.tell (v : Vault) (cmd : UInt8) : Bytes → BleResult
  | [_, idx, offset] =>
    if cmd = cmdKeyRead then
      let data := v.api idx
      .ok (rspOk, UInt8.ofNat data.length :: offset ::
        (data.drop offset.toNat).take (v.piece idx offset))
    else .ok (rspInvalidParam, [])
  | idx :: time =>
    if cmd = cmdKeyOtpGet then .ok (rspOk, v.code idx time) else .ok (rspInvalidParam, [])
  | [] => .ok (rspInvalidParam, [])

/-- The state says whether it has been touched. -/
def Vault.device (v : Vault) : Device Bool where
  answer cmd payload touched :=
    if touched then (v.tell cmd payload, true) else (.ok (rspWaitFp, []), false)
  gated cmd payload touched :=
    if touched then (v.tell cmd payload, true) else (.ok (rspOk, []), true)

/-- The entry that a command is about. -/
def commandIndex : UInt8 × Bytes → Option UInt8
  | (cmd, payload) =>
    if cmd = cmdKeyOtpGet then payload.head?
    else if cmd = cmdKeyRead then payload.tail.head?
    else none

-- ---------------------------------------------------------------------------
-- Reading an entry
-- ---------------------------------------------------------------------------

section
variable {v : Vault} {idx : UInt8} {name : Str} {h h' : Host Bool}

/-- Commands about the entry were sent, and nothing else. -/
def Asked (idx : UInt8) (h : Host δ) : Prop :=
  h.sent ≠ [] ∧ ∀ c ∈ h.sent, commandIndex c = some idx

/-- The index that is found for a name. -/
def keyIndex (names : List KeyNameEntry) (cat name : Str) : Option UInt8 :=
  (names.find? fun e => e.category = cat ∧ e.name = name).map (·.index)

theorem Asked.command {f : UInt8 → Bytes → δ → BleResult × δ} {cmd : UInt8} {payload : Bytes}
    {h : Host δ} (hs : ∀ c ∈ h.sent, commandIndex c = some idx)
    (hc : commandIndex (cmd, payload) = some idx) : Asked idx (h.command f cmd payload).2 := by
  refine ⟨List.cons_ne_nil _ _, fun c hm => ?_⟩
  obtain rfl | hm := List.mem_cons.mp hm
  · exact hc
  · exact hs c hm

theorem findKeyIndex_reaches {dev : Device δ} {h : Host δ} {cat : Str} :
    ((hostIo dev).findKeyIndex cat name).Reaches h fun r h' =>
      r = keyIndex h.keyNames cat name ∧ h' = h :=
  .bind (.get (Q := fun r h' => r = h.keyNames ∧ h' = h) ⟨rfl, rfl⟩)
    fun _ _ hr => .ret ⟨by rw [hr.1]; rfl, hr.2⟩

/-- The pieces add up to the entry. -/
theorem readApiEntry_reaches (ht : h.device = true) (ha : Asked idx h) :
    ((hostIo v.device).readApiEntry idx name).Reaches h fun r h' =>
      r = decodeApiSecret (v.api idx) name ∧ Asked idx h' := by
  refine Proc.Reaches.repeatFrom (J := fun full h => full <+: v.api idx ∧ h.device = true ∧
    Asked idx h) (fun full => (v.api idx).length - full.length) (fun full h hj => ?_)
    ⟨List.nil_prefix, ht, ha⟩
  obtain ⟨⟨rest, hrest⟩, ht, ha⟩ := hj
  have hlen := v.api_length idx
  have hfull : (UInt8.ofNat full.length).toNat = full.length := by
    refine UInt8.toNat_ofNat_of_lt' ?_
    have := congrArg List.length hrest
    rw [List.length_append] at this
    show full.length < 256
    omega
  have htotal : (UInt8.ofNat (v.api idx).length).toNat = (v.api idx).length :=
    UInt8.toNat_ofNat_of_lt' hlen
  refine .bind (R := fun r h' => r = v.tell cmdKeyRead [keyCatApi, idx, UInt8.ofNat full.length] ∧
    h'.device = true ∧ Asked idx h') (.atomically ⟨?_, ?_, Asked.command ha.2 rfl⟩) ?_
  · simp [Host.command, Vault.device, ht]
  · simp [Host.command, Vault.device, ht]
  · rintro _ h' ⟨rfl, ht', ha'⟩
    simp only [Vault.tell, if_true, hfull, ← hrest, List.drop_left]
    rw [hrest, if_neg (by simp), htotal]
    have hpiece := v.piece_pos idx (UInt8.ofNat full.length)
    have hpre : full ++ rest.take (v.piece idx (UInt8.ofNat full.length)) <+: v.api idx :=
      hrest ▸ (List.prefix_append_right_inj full).mpr (List.take_prefix _ _)
    have hsum := congrArg List.length hrest
    rw [List.length_append] at hsum
    split
    next hle =>
      refine .ret ⟨?_, ha'⟩
      rw [hpre.eq_of_length_le hle, List.take_length]
    next hlt =>
      refine .ret ⟨⟨hpre, ht', ha'⟩, ?_⟩
      rw [List.length_append, List.length_take] at hlt ⊢
      omega

/-- The touch opens the device, whether or not it answers at once. -/
theorem touchApiEntry_reaches (hs : h.sent = []) :
    ((hostIo v.device).touchApiEntry idx).Reaches h fun r h' =>
      (∃ rest, r = .ok (rspOk, rest)) ∧ h'.device = true ∧ Asked idx h' := by
  refine .bind (R := fun r h' => (∃ rest, r = .ok (rspOk, rest)) ∧ h'.device = true ∧ Asked idx h')
    (.atomically ⟨?_, ?_, Asked.command (by simp [hs]) rfl⟩) fun r h' hr => ?_
  · cases ht : h.device <;> simp [Host.command, Vault.device, Vault.tell, ht]
  · cases ht : h.device <;> simp [Host.command, Vault.device, ht]
  · exact .bind (.modify (Q := fun _ h'' => (∃ rest, r = .ok (rspOk, rest)) ∧ h''.device = true ∧
      Asked idx h'') hr) fun _ _ hr => .ret hr

theorem handleGetApi_reaches (hfree : h.slotFree = true) (hs : h.sent = []) :
    ((hostIo v.device).handleGetApi name).Reaches h fun r h' =>
      match keyIndex h.keyNames "api" name with
      | none => r = "ERROR:NOT_FOUND:".toList ++ name ++ "\n".toList ∧ h' = h
      | some idx => r = decodeApiSecret (v.api idx) name ∧ Asked idx h' := by
  refine .bind findKeyIndex_reaches ?_
  rintro r _ ⟨hr, hh⟩
  rw [hh, ← hr]
  cases r with
  | none => exact .ret ⟨rfl, rfl⟩
  | some idx =>
    refine .bind (R := fun r h' => r = true ∧ h'.sent = []) (.atomically ⟨hfree, hs⟩) ?_
    rintro _ h' ⟨rfl, hs'⟩
    refine .bind (touchApiEntry_reaches hs') ?_
    rintro _ h'' ⟨⟨rest, rfl⟩, ht, ha⟩
    exact readApiEntry_reaches ht ha

theorem otpGetInner_reaches (hs : h.sent = []) :
    ((hostIo v.device).otpGetInner idx).Reaches h fun r h' =>
      r = formatOtpResponse (v.code idx (u32Le (h.now / 1000))) ∧ Asked idx h' := by
  have hlen := v.code_length idx (u32Le (h.now / 1000))
  have payload {h : Host Bool} : ((hostIo v.device).otpGetPayload idx).Reaches h fun p h' =>
      p = idx :: u32Le (h.now / 1000) ∧ h' = h :=
    .bind (.get (Q := fun r h' => r = h.now ∧ h' = h) ⟨rfl, rfl⟩)
      fun _ _ hr => .ret ⟨hr.1 ▸ rfl, hr.2⟩
  refine .bind payload ?_
  rintro _ _ ⟨rfl, hh⟩
  rw [hh]
  refine .bind (R := fun r h' => r = (if h.device = true then
      .ok (rspOk, v.code idx (u32Le (h.now / 1000))) else .ok (rspOk, [])) ∧
    h'.device = true ∧ h'.now = h.now ∧ Asked idx h')
    (.atomically ⟨?_, ?_, rfl, Asked.command (by simp [hs]) rfl⟩) ?_
  · cases ht : h.device <;> simp [Host.command, Vault.device, Vault.tell, u32Le, u32Be, ht]
  · cases ht : h.device <;> simp [Host.command, Vault.device, ht]
  rintro _ h' ⟨rfl, ht', hnow, ha⟩
  cases ht : h.device with
  | true => simpa [hlen] using Proc.Reaches.ret ⟨rfl, ha⟩
  | false =>
    -- nothing came with the touch: the code is asked for again
    refine .bind payload ?_
    rintro _ _ ⟨rfl, hh⟩
    rw [hh, hnow]
    refine .bind (R := fun r h' => r = .ok (rspOk, v.code idx (u32Le (h.now / 1000))) ∧ Asked idx h')
      (.atomically ⟨?_, Asked.command ha.2 rfl⟩) ?_
    · simp [Host.command, Vault.device, Vault.tell, u32Le, u32Be, ht']
    · rintro _ h'' ⟨rfl, ha'⟩
      simpa [hlen] using Proc.Reaches.ret ⟨rfl, ha'⟩

theorem handleGetOtp_reaches (hfree : h.slotFree = true) (hs : h.sent = []) :
    ((hostIo v.device).handleGetOtp name).Reaches h fun r h' =>
      match keyIndex h.keyNames "otp" name with
      | none => r = "ERROR:NOT_FOUND:".toList ++ name ++ "\n".toList ∧ h' = h
      | some idx => r = formatOtpResponse (v.code idx (u32Le (h.now / 1000))) ∧ Asked idx h' := by
  refine .bind findKeyIndex_reaches ?_
  rintro r _ ⟨hr, hh⟩
  rw [hh, ← hr]
  cases r with
  | none => exact .ret ⟨rfl, rfl⟩
  | some idx =>
    refine .bind (R := fun r h' => r = true ∧ h'.sent = [] ∧ h'.now = h.now)
      (.atomically ⟨hfree, hs, rfl⟩) ?_
    rintro _ h' ⟨rfl, hs', hnow⟩
    refine .bind (otpGetInner_reaches hs') fun r h'' hr => ?_
    rw [hnow] at hr
    exact .bind (.modify (Q := fun _ h'' => r = formatOtpResponse (v.code idx
      (u32Le (h.now / 1000))) ∧ Asked idx h'') hr) fun _ _ hr => .ret hr

theorem handleGetSsh_reaches {dev : Device δ} {h : Host δ} {ext : Extern} :
    ((hostIo dev).handleGetSsh ext name).Reaches h fun r h' =>
      match h.sshKeys.find? fun e => e.name = name with
      | none => r = "ERROR:NOT_FOUND:".toList ++ name ++ "\n".toList ∧ h' = h
      | some e => r = "OK:".toList ++ sshKeyText ext e ++ " ".toList ++ e.name ++ "\n".toList ∧
          h' = h := by
  refine .bind (.get (Q := fun r h' => r = h.sshKeys ∧ h' = h) ⟨rfl, rfl⟩) ?_
  rintro _ _ ⟨rfl, hh⟩
  rw [hh]
  cases h.sshKeys.find? fun e => e.name = name with
  | none => exact .ret ⟨rfl, rfl⟩
  | some e => exact .ret ⟨rfl, rfl⟩

/-- The handler's answer for a name that came through. -/
def Answered (ext : Extern) (v : Vault) (h h' : Host Bool) (asked reply : Str) : KeyCategory → Prop
  | .ssh =>
    match h.sshKeys.find? fun k => k.name = asked with
    | none => reply = "ERROR:NOT_FOUND:".toList ++ asked ++ "\n".toList ∧ h' = h
    | some k => reply = "OK:".toList ++ sshKeyText ext k ++ " ".toList ++ k.name ++ "\n".toList ∧
        h' = h
  | .otp =>
    match keyIndex h.keyNames "otp" asked with
    | none => reply = "ERROR:NOT_FOUND:".toList ++ asked ++ "\n".toList ∧ h' = h
    | some idx => reply = formatOtpResponse (v.code idx (u32Le (h.now / 1000))) ∧ Asked idx h'
  | .api =>
    match keyIndex h.keyNames "api" asked with
    | none => reply = "ERROR:NOT_FOUND:".toList ++ asked ++ "\n".toList ∧ h' = h
    | some idx => reply = decodeApiSecret (v.api idx) asked ∧ Asked idx h'

/-- The answer to a request, by what comes through of the name. -/
theorem serveGet_reaches {ext : Extern} {cat : KeyCategory}
    (hlen : (getChunk cat name).length < maxRequestBytes)
    (hc : h.isConnected = true) (hfree : h.slotFree = true) (hq : h.sent = []) :
    (serveGet (hostIo v.device) ext (getChunk cat name)).Reaches h fun r h' =>
      match askedName name with
      | none => r = none
      | some [] => r = some "ERROR:USAGE\n" ∧ h' = h
      | some asked => ∃ reply, r = some reply ∧ Answered ext v h h' asked reply cat := by
  rw [serveGet_eq hlen]
  cases askedName name with
  | none => exact .ret rfl
  | some asked =>
    cases asked with
    | nil => exact .ret ⟨rfl, rfl⟩
    | cons c asked =>
      refine .bind (.get (Q := fun r h' => r = h.isConnected ∧ h' = h) ⟨rfl, rfl⟩) ?_
      rintro _ _ ⟨rfl, hh⟩
      rw [hh, hc]
      refine .bind (R := fun reply h' => _) ?_ fun reply h' hr => .ret ⟨reply, rfl, hr⟩
      cases cat with
      | ssh => exact handleGetSsh_reaches
      | otp => exact handleGetOtp_reaches hfree hq
      | api => exact handleGetApi_reaches hfree hq

end

-- ---------------------------------------------------------------------------
-- No other entry
-- ---------------------------------------------------------------------------

/-- Wherever it is stopped, only commands about the entry were sent. -/
abbrev OnlyTriple {α : Type} (idx : UInt8) (A : Host δ → Prop) (t : Proc (Host δ) α)
    (B : α → Host δ → Prop) : Prop :=
  (solo fun h : Host δ => ∀ c ∈ h.sent, commandIndex c = some idx).Triple 0 A t B

section
variable {dev : Device δ} {idx : UInt8} {name : Str} {names : List KeyNameEntry} {α : Type}
  {A : Host δ → Prop}

/-- Nothing is known of the device. -/
abbrev OnlyAsks (idx : UInt8) (t : Proc (Host δ) α) : Prop :=
  OnlyTriple idx (fun _ => True) t fun _ _ => True

theorem OnlyAsks.ret {a : α} : OnlyAsks idx (.ret a : Proc (Host δ) α) := Solo.ret fun _ => id

theorem OnlyAsks.bind {β : Type} {t : Proc (Host δ) α} {g : α → Proc (Host δ) β} (ht : OnlyAsks idx t)
    (hg : ∀ a, OnlyAsks idx (g a)) : OnlyAsks idx (t.bind g) := Protocol.Triple.bind ht hg

/-- A step that sends nothing. -/
theorem OnlyAsks.quiet {f : Host δ → List (α × Host δ)} (h : ∀ s, ∀ p ∈ f s, p.2.sent = s.sent) :
    OnlyAsks idx (.act f .ret) :=
  Solo.act fun s a s' hi _ hm => ⟨h s (a, s') hm ▸ hi, trivial⟩

theorem OnlyAsks.command {f : UInt8 → Bytes → δ → BleResult × δ} {cmd : UInt8} {payload : Bytes}
    (hc : commandIndex (cmd, payload) = some idx) :
    OnlyAsks idx (.atomically (Host.command f cmd payload)) := by
  refine Solo.act fun s a s' hi _ hm => ⟨?_, trivial⟩
  obtain ⟨-, rfl⟩ := Prod.mk.inj (List.mem_singleton.mp hm)
  exact (Asked.command hi hc).2

theorem OnlyAsks.now : OnlyAsks idx (hostIo dev).now := .quiet (by simp)

theorem OnlyAsks.claim : OnlyAsks idx (hostIo dev).claim := .quiet (by simp)

theorem OnlyAsks.release : OnlyAsks idx (hostIo dev).release := .quiet (by simp)

theorem readApiEntry_only : OnlyAsks idx ((hostIo dev).readApiEntry idx name) := by
  refine Solo.repeatFrom (J := fun _ _ => True) fun full => ?_
  refine Protocol.Triple.bind (OnlyAsks.command rfl) fun r => ?_
  split
  · exact Solo.ret fun _ _ => trivial
  · refine Solo.ite (fun _ => Solo.ret fun _ _ => trivial) fun _ => Solo.ite (fun _ => ?_) fun _ => ?_
    · exact Solo.ret fun _ _ => trivial
    · exact Solo.ret fun _ _ => trivial
  · exact Solo.ret fun _ _ => trivial

theorem touchApiEntry_only : OnlyAsks idx ((hostIo dev).touchApiEntry idx) :=
  .bind (.command rfl) fun _ => .bind .release fun _ => .ret

/-- A payload begins with the index. -/
theorem otpGetPayload_post : OnlyTriple idx (fun _ => True) ((hostIo dev).otpGetPayload idx)
    fun p _ => p.head? = some idx :=
  .bind OnlyAsks.now fun _ => Solo.ret fun _ _ => rfl

/-- What is known beforehand may be used. -/
theorem OnlyAsks.given {p : Prop} {t : Proc (Host δ) α} (h : p → OnlyAsks idx t) :
    OnlyTriple idx (fun _ => p) t fun _ _ => True := fun s hi hp => h hp s hi trivial

theorem otpAfterTouch_only : OnlyAsks idx ((hostIo dev).otpAfterTouch idx) := by
  refine Protocol.Triple.bind otpGetPayload_post fun payload => OnlyAsks.given fun hp => ?_
  refine .bind (.command hp) fun r => ?_
  split
  · split <;> exact .ret
  · exact .ret

theorem otpGetInner_only : OnlyAsks idx ((hostIo dev).otpGetInner idx) := by
  refine Protocol.Triple.bind otpGetPayload_post fun payload => OnlyAsks.given fun hp => ?_
  refine .bind (.command hp) fun r => ?_
  split
  · split
    · split
      · exact .ret
      · exact otpAfterTouch_only
    · exact .ret
  · exact .ret

theorem findKeyIndex_post {cat : Str} : OnlyTriple idx (fun h => h.keyNames = names)
    ((hostIo dev).findKeyIndex cat name) fun r _ => r = keyIndex names cat name := by
  refine .bind (M := fun r _ => r = names) (Solo.act fun s a s' hi hs hm => ?_) fun r =>
    Solo.ret fun _ hr => hr ▸ rfl
  obtain ⟨rfl, rfl⟩ := Prod.mk.inj (List.mem_singleton.mp hm)
  exact ⟨hi, hs⟩

/-- If a name is found at all, it is at this index. -/
def Leads (names : List KeyNameEntry) (cat name : Str) (idx : UInt8) : Prop :=
  ∀ i, keyIndex names cat name = some i → i = idx

theorem handleGetApi_only (hidx : Leads names "api" name idx) :
    OnlyTriple idx (fun h => h.keyNames = names) ((hostIo dev).handleGetApi name)
      fun _ _ => True := by
  refine .bind findKeyIndex_post fun r => OnlyAsks.given fun hr => ?_
  cases r with
  | none => exact .ret
  | some i =>
    obtain rfl := hidx i hr.symm
    refine .bind .claim fun registered => ?_
    cases registered with
    | false => exact .ret
    | true =>
      refine .bind touchApiEntry_only fun r => ?_
      split
      · split
        · exact readApiEntry_only
        · exact .ret
      · exact .ret

theorem handleGetOtp_only (hidx : Leads names "otp" name idx) :
    OnlyTriple idx (fun h => h.keyNames = names) ((hostIo dev).handleGetOtp name)
      fun _ _ => True := by
  refine .bind findKeyIndex_post fun r => OnlyAsks.given fun hr => ?_
  cases r with
  | none => exact .ret
  | some i =>
    obtain rfl := hidx i hr.symm
    refine .bind .claim fun registered => ?_
    cases registered with
    | false => exact .ret
    | true => exact .bind otpGetInner_only fun _ => .bind .release fun _ => .ret

theorem handleGetSsh_only {ext : Extern} : OnlyAsks idx ((hostIo dev).handleGetSsh ext name) := by
  refine .bind (.quiet (by simp)) fun entries => ?_
  split <;> exact .ret

end

end Immurok
