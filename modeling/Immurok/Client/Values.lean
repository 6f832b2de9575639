import Immurok.Daemon.Sound
import Immurok.Daemon.Storing

/-!
# Values, there and back

An API value goes to the device in a command and comes back as a line of
text. It is returned as it was if nothing on its way cuts it.
-/

namespace Immurok

open Async

variable {ext : Extern} {name value cmd : Str}

/-- What a client makes of the answer to a request for an entry. -/
def secretOf (reply : Str) : Except Str Str := parseSecretReply (readLine reply)

/-- The payload of `add_api`. -/
def apiPayload (name value : Str) : Bytes := padField name nameLenApi ++ utf8 value

theorem addApi_ok (h : addApi name value = .ok cmd) : value ≠ [] ∧
    (utf8 value).length ≤ valueLenApi ∧
      cmd = (AddCommand.import .api (apiPayload name value)).line := by
  unfold addApi at h
  split at h
  next => cases h
  next hne =>
    split at h
    next => cases h
    next hle => exact ⟨hne, Nat.le_of_not_lt hle, (Except.ok.inj h).symm⟩

-- ---------------------------------------------------------------------------
-- The way back
-- ---------------------------------------------------------------------------

theorem trim_ok {v : Str} : Str.trim ("OK:".toList ++ v) = "OK:".toList ++ Str.trimEnd v := by
  have hhead : ("OK:".toList ++ v).dropWhile Str.isWhitespace = "OK:".toList ++ v :=
    List.dropWhile_cons_of_neg (by decide)
  rw [Str.trim, Str.trimMatches, hhead]
  exact Str.trimEndMatches_append (a := "OK".toList) (by decide)

/-- The line that is sent back, as the client trims it. -/
theorem readLine_ok {v : Str} : readLine ("OK:".toList ++ v ++ "\n".toList) =
    "OK:".toList ++ Str.trimEnd (v.takeWhile (· ≠ '\n')) := by
  have hline : (v ++ "\n".toList).takeWhile (· ≠ '\n') = v.takeWhile (· ≠ '\n') :=
    Str.takeWhile_append_neg (by decide)
  rw [readLine, List.append_assoc, List.takeWhile_append_of_pos (by decide), hline, trim_ok]

theorem secretOf_ok {v : Str} : secretOf ("OK:".toList ++ v ++ "\n".toList) =
    .ok (Str.trimEnd (v.takeWhile (· ≠ '\n'))) := by
  rw [secretOf, readLine_ok, parseSecretReply, trim_ok, Str.stripPrefix_append, Str.trimEnd,
    Str.trimEnd, Str.trimEndMatches_idem]

theorem secretOf_error {rest : Str} : ∃ e, secretOf ('E' :: rest) = .error e := by
  have htrim {t : Str} : Str.trim ('E' :: t) = 'E' :: Str.trimEnd t := by
    have hhead : ('E' :: t).dropWhile Str.isWhitespace = 'E' :: t :=
      List.dropWhile_cons_of_neg (by decide)
    rw [Str.trim, Str.trimMatches, hhead]
    exact Str.trimEndMatches_append (a := []) (by decide)
  rw [secretOf, readLine, List.takeWhile_cons_of_pos (by decide), htrim, parseSecretReply, htrim]
  exact ⟨_, rfl⟩

/-- Text among zeros is read up to a zero byte of its own. -/
theorem takeWhile_utf8 {s : Str} {k : Nat} :
    (utf8 s ++ List.replicate k 0).takeWhile (· ≠ 0) = utf8 (s.takeWhile (· ≠ '\x00')) := by
  have hend (bs : Bytes) : (utf8 s ++ 0 :: bs).takeWhile (· ≠ 0) = utf8 (s.takeWhile (· ≠ '\x00')) :=
    Utf8.takeWhile_encode (c := '\x00') (by decide)
  cases k with
  | zero => rw [List.replicate_zero, List.append_nil, ← hend [],
      Str.takeWhile_append_neg (by decide)]
  | succ k => rw [List.replicate_succ, hend]

theorem utf8_eq_nil {s : Str} : utf8 s = [] ↔ s = [] := by
  cases s with
  | nil => exact iff_of_true rfl rfl
  | cons c s =>
    have := c.utf8Size_pos
    refine iff_of_false (fun h => ?_) (List.cons_ne_nil _ _)
    have hlen := congrArg List.length h
    rw [length_utf8_cons, List.length_nil] at hlen
    omega

/-- What the daemon finds in the entry of a value. -/
theorem decodeApiSecret_payload {asked : Str} (hne : value ≠ []) :
    decodeApiSecret (fill (entryLen keyCatApi) (apiPayload name value)) asked =
      if value.takeWhile (· ≠ '\x00') = [] then
        "ERROR:EMPTY_SECRET:".toList ++ asked ++ "\n".toList
      else "OK:".toList ++ value.takeWhile (· ≠ '\x00') ++ "\n".toList := by
  have hname : (padField name nameLenApi).length = nameLenApi := length_padField (by decide)
  have hpos := List.length_pos_of_ne_nil (mt utf8_eq_nil.mp hne)
  have hfield {k : Nat} : ((padField name nameLenApi ++ utf8 value ++ List.replicate k 0).drop
      nameLenApi).takeWhile (· ≠ 0) = utf8 (value.takeWhile (· ≠ '\x00')) := by
    rw [List.append_assoc, List.drop_left' hname, takeWhile_utf8]
  have hlong {k : Nat} : ¬ (padField name nameLenApi ++ utf8 value ++
      List.replicate k 0).length ≤ nameLenApi := by
    rw [List.length_append, List.length_append, hname]
    omega
  rw [decodeApiSecret, fill, apiPayload, if_neg hlong]
  dsimp only
  rw [hfield]
  split
  next h => rw [if_pos (utf8_eq_nil.mp h)]
  next h =>
    rw [if_neg (mt utf8_eq_nil.mpr h), show Utf8.strict (utf8 (value.takeWhile (· ≠ '\x00'))) = _
      from Utf8.strict_encode]

/-- Nothing cuts the value on its way. -/
structure Keepable (value : Str) : Prop where
  nul : '\x00' ∉ value
  newline : '\n' ∉ value
  last : ∀ c, value.getLast? = some c → Str.isWhitespace c = false

theorem keepable_iff : Str.trimEnd ((value.takeWhile (· ≠ '\x00')).takeWhile (· ≠ '\n')) = value ↔
    Keepable value := by
  constructor
  · intro h
    -- each cut leaves a prefix, and nothing is missing at the end
    have hnul : value.takeWhile (· ≠ '\x00') <+: value := List.takeWhile_prefix _
    have hline : (value.takeWhile (· ≠ '\x00')).takeWhile (· ≠ '\n') <+:
        value.takeWhile (· ≠ '\x00') := List.takeWhile_prefix _
    have htrim := Str.trimEndMatches_begins (p := Str.isWhitespace)
      (s := (value.takeWhile (· ≠ '\x00')).takeWhile (· ≠ '\n'))
    rw [← Str.trimEnd, h] at htrim
    have hline' := hline.eq_of_length_le (Nat.le_trans hnul.length_le htrim.length_le)
    rw [hline'] at htrim h
    have hnul' := hnul.eq_of_length_le htrim.length_le
    rw [hnul'] at hline' h
    refine ⟨fun hm => ?_, fun hm => ?_, Str.trimEndMatches_eq_self.mp h⟩
    · simpa using List.takeWhile_eq_self_iff.mp hnul' _ hm
    · simpa using List.takeWhile_eq_self_iff.mp hline' _ hm
  · intro h
    have hnul : value.takeWhile (· ≠ '\x00') = value :=
      List.takeWhile_eq_self_iff.mpr fun c hc => decide_eq_true fun he => h.nul (he ▸ hc)
    have hline : value.takeWhile (· ≠ '\n') = value :=
      List.takeWhile_eq_self_iff.mpr fun c hc => decide_eq_true fun he => h.newline (he ▸ hc)
    rw [hnul, hline]
    exact Str.trimEndMatches_eq_self.mpr h.last

-- ---------------------------------------------------------------------------
-- There and back
-- ---------------------------------------------------------------------------

/-- A device with this entry gives the value to a client that asks for the
entry, whatever its name and in whatever pieces it is read. -/
def GetApiReturns (ext : Extern) (entry : Bytes) (value : Str) : Prop :=
  ∀ (v : Vault) (h : Host Bool) (idx : UInt8) (shown asked : Str), v.api idx = entry →
    h.isConnected = true → h.slotFree = true → h.sent = [] →
    (getChunk .api shown).length < maxRequestBytes → askedName shown = some asked → asked ≠ [] →
    keyIndex h.keyNames "api" asked = some idx →
    (serveGet (hostIo v.device) ext (getChunk .api shown)).Reaches h fun r _ =>
      ∃ reply, r = some reply ∧ secretOf reply = .ok value

/-- The answer of the daemon, when the entry is found. -/
theorem getApi_reaches {v : Vault} {h : Host Bool} {idx : UInt8} {shown asked : Str}
    (hc : h.isConnected = true) (hfree : h.slotFree = true) (hs : h.sent = [])
    (hlen : (getChunk .api shown).length < maxRequestBytes) (ha : askedName shown = some asked)
    (hne : asked ≠ []) (hk : keyIndex h.keyNames "api" asked = some idx) :
    (serveGet (hostIo v.device) ext (getChunk .api shown)).Reaches h fun r _ =>
      r = some (decodeApiSecret (v.api idx) asked) := by
  refine (serveGet_reaches hlen hc hfree hs).mono fun r h' hr => ?_
  rw [ha] at hr
  obtain ⟨c, rest, rfl⟩ := List.exists_cons_of_ne_nil hne
  obtain ⟨reply, rfl, hr⟩ := hr
  simp only [Answered, hk] at hr
  rw [hr.1]

/-- A request is answered with the value, unless it was cut. -/
theorem secretOf_decode {asked : Str} (hne : value ≠ []) :
    secretOf (decodeApiSecret (fill (entryLen keyCatApi) (apiPayload name value)) asked) = .ok value ↔
      Keepable value := by
  rw [decodeApiSecret_payload hne, ← keepable_iff]
  split
  next h =>
    obtain ⟨e, he⟩ := @secretOf_error ("RROR:EMPTY_SECRET:".toList ++ asked ++ "\n".toList)
    rw [h]
    exact iff_of_false (fun hs => nomatch he.symm.trans hs) hne.symm
  next h => rw [secretOf_ok, Except.ok.injEq]

/-- A host that knows the first API entry as `k`. -/
def Host.sample : Host Bool :=
  { isConnected := true, sshKeys := [], slotFree := true, now := 0, device := true, sent := []
    keyNames := [{ index := 0, category := "api", name := "k", service := [] }] }

theorem length_apiPayload : (apiPayload name value).length = nameLenApi + (utf8 value).length := by
  rw [apiPayload, List.length_append, length_padField (by decide)]

theorem GetApiReturns.keepable (hne : value ≠ []) (hle : (utf8 value).length ≤ valueLenApi)
    (hg : GetApiReturns ext (fill (entryLen keyCatApi) (apiPayload name value)) value) :
    Keepable value := by
  have hfill : (fill (entryLen keyCatApi) (apiPayload name value)).length < 256 := by
    rw [fill, List.length_append, List.length_replicate, length_apiPayload]
    show 32 + (utf8 value).length + (160 - (32 + (utf8 value).length)) < 256
    have : (utf8 value).length ≤ 128 := hle
    omega
  have hr := hg { Vault.bare with api := fun _ => _, api_length := fun _ => hfill } .sample 0 "k" "k"
    rfl rfl rfl rfl (by decide) (by decide) (by decide) (by decide)
  obtain ⟨r, h', -, ⟨reply, rfl, hs⟩, hreply⟩ := hr.and
    (@getApi_reaches ext _ .sample 0 "k" "k" rfl rfl rfl (by decide) (by decide) (by decide)
      (by decide))
  obtain rfl := Option.some.inj hreply
  exact (secretOf_decode hne).mp hs

theorem getApi_returns (h : addApi name value = .ok cmd) {keypair : Bytes} {st : Store}
    (hroom : (st.entries keyCatApi).length < keyMaxApi.toNat) :
    cmd = (AddCommand.import .api (apiPayload name value)).line ∧
    ((storeIo keypair).add (.import .api (apiPayload name value))).Reaches st (fun _ st' =>
      st'.entries keyCatApi = st.entries keyCatApi ++
        [fill (entryLen keyCatApi) (apiPayload name value)]) ∧
    (GetApiReturns ext (fill (entryLen keyCatApi) (apiPayload name value)) value ↔
      Keepable value) := by
  obtain ⟨hne, hle, hcmd⟩ := addApi_ok h
  have hpos := List.length_pos_of_ne_nil (mt utf8_eq_nil.mp hne)
  refine ⟨hcmd, ?_, fun hg => ?_, fun hk v h idx shown asked hv hc hfree hs hlen ha hasked hidx => ?_⟩
  · have hlo : (KeyCategory.api.importKind).lo ≤ (apiPayload name value).length := by
      rw [length_apiPayload]
      show 33 ≤ 32 + _
      omega
    have hhi : (apiPayload name value).length ≤ (KeyCategory.api.importKind).hi := by
      rw [length_apiPayload]
      exact Nat.add_le_add_left hle _
    refine Proc.Reaches.mono (@importKey_reaches _ _ _ .api hlo hhi hroom) fun r st' hst => ?_
    rw [hst.2]
    exact Store.entries_append
  · exact hg.keepable hne hle
  · refine (getApi_reaches hc hfree hs hlen ha hasked hidx).mono fun r _ hr => ⟨_, hr, ?_⟩
    rw [hv]
    exact (secretOf_decode hne).mpr hk

theorem getApi_returns_v : GetApiReturns .sample
    (fill (entryLen keyCatApi) (apiPayload "k" "v")) "v" := by
  have h : addApi "k" "v" = .ok (AddCommand.import .api (apiPayload "k" "v")).line := rfl
  obtain ⟨-, -, hk⟩ := @getApi_returns .sample _ _ _ h [] .empty (by decide)
  exact hk.mpr ⟨by decide, by decide, by decide⟩

/-- A space at the end does not come back. -/
theorem trailing_space_lost : ¬ ∀ (ext : Extern) (name value cmd : Str), addApi name value = .ok cmd →
    GetApiReturns ext (fill (entryLen keyCatApi) (apiPayload name value)) value := by
  intro h
  have hk := (h .sample "k" "v " _ rfl).keepable (by decide) (by decide)
  exact absurd (hk.last ' ' rfl) (by decide)

end Immurok
