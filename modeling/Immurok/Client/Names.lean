import Immurok.Client.Values
import Immurok.Daemon.ByName
import Mathlib.Data.List.Forall2

/-!
# Names, there and back

The name of an entry goes to the device in a field of fixed width, into the
daemon's cache, into the lines of a listing and back in a request.
-/

namespace Immurok

open Async

variable {σ δ : Type} {ext : Extern} {name cmd : Str} {cat : KeyCategory}

-- ---------------------------------------------------------------------------
-- Adding
-- ---------------------------------------------------------------------------

/-- The width of the name field. -/
def KeyCategory.width (cat : KeyCategory) : Nat := nameLen cat.byte

/-- A client adds an entry of this name with the command. -/
inductive Adds : KeyCategory → Str → AddCommand → Prop
  | otp {e : OtpEntry} {c : AddCommand} : addOtp e = .ok c.line → Adds .otp e.name c
  | api {name value : Str} {c : AddCommand} : addApi name value = .ok c.line → Adds .api name c
  | generate {name : Str} {c : AddCommand} : generateSsh name = c.line → Adds .ssh name c
  | sshImport {name : Str} {privkey pubkey : Bytes} {c : AddCommand} : privkey.length = 32 →
    pubkey.length = 64 → importSshKey name (.ok (privkey, pubkey)) = .ok c.line → Adds .ssh name c

/-- The devices that hold what clients have added, with the names by category
in the order of the entries. -/
inductive Filled : Store → (KeyCategory → List Str) → Prop
  | empty : Filled .empty fun _ => []
  | add {st st' : Store} {names : KeyCategory → List Str} {cat : KeyCategory} {name : Str}
    {c : AddCommand} {keypair : Bytes} {r : Str} : Filled st names → Adds cat name c →
    keypair.length = 96 → (st.entries cat.byte).length < cat.importKind.maxCount.toNat →
    ((storeIo keypair).add c).Ends st r st' →
    Filled st' (Function.update names cat (names cat ++ [name]))

/-- The bytes of an entry that the daemon reads: the name's field and, for
SSH, the public key. -/
structure Carries (cat : KeyCategory) (name : Str) (entry : Bytes) : Prop where
  field : entry.take cat.width = padField name cat.width
  long : (if cat = .ssh then 80 else cat.width) ≤ entry.length

theorem carries_append {rest : Bytes} (hlen : cat = .ssh → 64 ≤ rest.length) :
    Carries cat name (padField name cat.width ++ rest) := by
  have hwidth : 0 < cat.width := by cases cat <;> decide
  have hpad := length_padField (s := name) hwidth
  refine ⟨List.take_left' hpad, ?_⟩
  rw [List.length_append, hpad]
  split
  next h =>
    subst h
    exact Nat.add_le_add_left (hlen rfl) 16
  next => exact Nat.le_add_right _ _

theorem Carries.fill {entry : Bytes} {n : Nat} (h : Carries cat name entry) :
    Carries cat name (fill n entry) := by
  have hw : cat.width ≤ entry.length := by
    refine Nat.le_trans ?_ h.long
    cases cat <;> decide
  refine ⟨?_, ?_⟩
  · rw [Immurok.fill, List.take_append_of_le_length hw, h.field]
  · rw [Immurok.fill, List.length_append]
    exact Nat.le_trans h.long (Nat.le_add_right _ _)

section
variable {c : AddCommand} {st st' : Store} {keypair rest : Bytes} {r : Str}

theorem import_carries (hlen : cat = .ssh → 64 ≤ rest.length)
    (hlo : cat.importKind.lo ≤ (padField name cat.width ++ rest).length)
    (hhi : (padField name cat.width ++ rest).length ≤ cat.importKind.hi)
    (hroom : (st.entries cat.byte).length < cat.importKind.maxCount.toNat)
    (he : ((storeIo keypair).add (.import cat (padField name cat.width ++ rest))).Ends st r st') :
    ∃ entry, Carries cat name entry ∧
      st'.entries = Function.update st.entries cat.byte (st.entries cat.byte ++ [entry]) := by
  obtain ⟨r', st'', he', -, hst⟩ := @importKey_reaches keypair _ st cat hlo hhi hroom
  obtain ⟨-, rfl⟩ := he.unique he'.stops
  exact ⟨fill (entryLen cat.byte) _, (carries_append hlen).fill, hst ▸ rfl⟩

theorem addOtp_ok {e : OtpEntry} (h : addOtp e = .ok cmd) :
    e.secret ≠ [] ∧ e.secret.length ≤ secretLenOtp ∧
      cmd = (AddCommand.import .otp (buildOtpEntryPayload e)).line := by
  unfold addOtp at h
  split at h
  next => cases h
  next hne =>
    split at h
    next => cases h
    next hle => exact ⟨hne, Nat.le_of_not_lt hle, (Except.ok.inj h).symm⟩

/-- What is added carries the name. -/
theorem Adds.carries (h : Adds cat name c) (hk : keypair.length = 96)
    (hroom : (st.entries cat.byte).length < cat.importKind.maxCount.toNat)
    (he : ((storeIo keypair).add c).Ends st r st') : ∃ entry, Carries cat name entry ∧
      st'.entries = Function.update st.entries cat.byte (st.entries cat.byte ++ [entry]) := by
  cases h with
  | @otp e _ h =>
    obtain ⟨hne, hle, hline⟩ := addOtp_ok h
    obtain rfl := AddCommand.line_inj hline
    have hpos := List.length_pos_of_ne_nil hne
    have hsvc := length_padField (s := e.service) (n := serviceLenOtp) (by decide)
    have hname := length_padField (s := e.name) (n := KeyCategory.otp.width) (by decide)
    have hbytes : buildOtpEntryPayload e = padField e.name KeyCategory.otp.width ++
        (padField e.service serviceLenOtp ++ e.secret) := List.append_assoc _ _ _
    rw [hbytes] at he
    refine import_carries (fun h => nomatch h) ?_ ?_ hroom he
    · rw [List.length_append, List.length_append, hname, hsvc]
      show 61 ≤ 30 + (30 + e.secret.length)
      omega
    · rw [List.length_append, List.length_append, hname, hsvc]
      show 30 + (30 + e.secret.length) ≤ 92
      have : e.secret.length ≤ 32 := hle
      omega
  | @api _ value _ h =>
    obtain ⟨hne, hle, hline⟩ := addApi_ok h
    obtain rfl := AddCommand.line_inj hline
    have hpos := List.length_pos_of_ne_nil (mt utf8_eq_nil.mp hne)
    refine import_carries (fun h => nomatch h) ?_ ?_ hroom he
    · refine Nat.le_trans ?_ (Nat.le_of_eq length_apiPayload.symm)
      show 33 ≤ 32 + _
      omega
    · exact Nat.le_trans (Nat.le_of_eq length_apiPayload) (Nat.add_le_add_left hle _)
  | generate h =>
    obtain rfl := AddCommand.line_inj (c := .generate (buildSshNamePayload name)) h
    obtain ⟨r', st'', he', -, hst⟩ := @generateKey_reaches keypair (buildSshNamePayload name) st
      (length_padField (by decide))
    obtain ⟨-, rfl⟩ := he.unique he'.stops
    have hentry : Carries .ssh name (padField name KeyCategory.ssh.width ++ keypair) :=
      carries_append fun _ => by omega
    exact ⟨fill (entryLen keyCatSsh) _, hentry.fill, by rw [hst]; rfl⟩
  | @sshImport _ privkey pubkey _ hpriv hpub h =>
    obtain rfl := AddCommand.line_inj (c := .import .ssh (buildSshImportPayload name privkey pubkey))
      (Except.ok.inj h)
    have hrest : (pubkey.take 32).reverse.length + (pubkey.drop 32).reverse.length +
        privkey.reverse.length = 96 := by
      simp only [List.length_reverse, List.length_take, List.length_drop]
      omega
    have hbytes : buildSshImportPayload name privkey pubkey = padField name KeyCategory.ssh.width ++
        ((pubkey.take 32).reverse ++ (pubkey.drop 32).reverse ++ privkey.reverse) := by
      simp only [buildSshImportPayload, buildSshNamePayload, List.append_assoc]
      rfl
    have hname := length_padField (s := name) (n := KeyCategory.ssh.width) (by decide)
    rw [hbytes] at he
    refine import_carries (fun _ => ?_) ?_ ?_ hroom he
    · rw [List.length_append, List.length_append]
      omega
    · rw [List.length_append, List.length_append, List.length_append, hname, hrest]
      decide
    · rw [List.length_append, List.length_append, List.length_append, hname, hrest]
      decide

end

/-- The entries of each category carry the names, in order. -/
theorem Filled.carries {st : Store} {names : KeyCategory → List Str} (h : Filled st names)
    (cat : KeyCategory) : List.Forall₂ (Carries cat) (names cat) (st.entries cat.byte) ∧
      (st.entries cat.byte).length < 256 := by
  induction h with
  | empty => exact ⟨.nil, Nat.zero_lt_succ _⟩
  | @add st st' names cat' name c keypair r _ hadd hk hroom he ih =>
    obtain ⟨entry, hentry, hst⟩ := hadd.carries hk hroom he
    rw [hst]
    by_cases hcat : cat = cat'
    · subst hcat
      rw [Function.update_self, Function.update_self]
      refine ⟨List.rel_append ih.1 (.cons hentry .nil), ?_⟩
      have := (cat.importKind.maxCount).toNat_lt
      rw [List.length_append, List.length_singleton]
      omega
    · have hbyte : cat.byte ≠ cat'.byte := by
        cases cat <;> cases cat' <;> first | exact absurd rfl hcat | decide
      rw [Function.update_of_ne hcat, Function.update_of_ne hbyte]
      exact ih

-- ---------------------------------------------------------------------------
-- Caching
-- ---------------------------------------------------------------------------

/-- What the device answers to the reads of a category. -/
def Store.data (st : Store) (cat : KeyCategory) (idx : UInt8) : Bytes :=
  (st.entries cat.byte).getD idx.toNat []

/-- The caches are those of a device with these entries. -/
structure Store.Cached (ext : Extern) (st : Store) (keys : List SshKeyCacheEntry)
    (names : List KeyNameEntry) : Prop where
  ssh : keys = decoded (decodeSshEntry ext) (st.data .ssh) (st.entries keyCatSsh).length
  otp : names.filter (fun e => e.category = "otp".toList) =
    decoded (decodeNameEntry keyCatOtp "otp") (st.data .otp) (st.entries keyCatOtp).length
  api : names.filter (fun e => e.category = "api".toList) =
    decoded (decodeNameEntry keyCatApi "api") (st.data .api) (st.entries keyCatApi).length

theorem Store.exists_cached {st : Store} : ∃ keys names, st.Cached ext keys names := by
  have otp := @decoded_category keyCatOtp "otp" (st.data .otp) (st.entries keyCatOtp).length
  have api := @decoded_category keyCatApi "api" (st.data .api) (st.entries keyCatApi).length
  have hsplit := filter_categories (by decide) otp api
  exact ⟨_, _, rfl, hsplit.1, hsplit.2⟩

/-- A synchronisation leaves them so, if its digests are those of the device. -/
theorem Sync.Matches.cached {content : UInt8 → DigestEntry → UInt8 → Bytes} {s : Sync} {st : Store}
    (h : s.Matches ext content s.digests) (hd : ∀ cat : KeyCategory, ∃ d,
      s.digests.get cat.wire = some d ∧ d.checksum ≠ 0 ∧
      d.count.toNat = (st.entries cat.byte).length ∧ content cat.byte d = st.data cat) :
    st.Cached ext s.sshKeys s.keyNames := by
  obtain ⟨d₁, hg₁, h₁, hn₁, hc₁⟩ := hd .ssh
  obtain ⟨d₂, hg₂, h₂, hn₂, hc₂⟩ := hd .otp
  obtain ⟨d₃, hg₃, h₃, hn₃, hc₃⟩ := hd .api
  refine ⟨?_, ?_, ?_⟩
  · rw [← hc₁]
    exact hn₁ ▸ h.ssh d₁ hg₁ h₁
  · rw [← hc₂]
    exact hn₂ ▸ h.otp d₂ hg₂ h₂
  · rw [← hc₃]
    exact hn₃ ▸ h.api d₃ hg₃ h₃

/-- The names in the caches, in order. -/
def cachedNames (keys : List SshKeyCacheEntry) (names : List KeyNameEntry) : KeyCategory → List Str
  | .ssh => keys.map (·.name)
  | cat => (names.filter fun e => e.category = cat.wire).map (·.name)

/-- The name that a client puts in the payload. -/
def sentName (cat : KeyCategory) (name : Str) : Str := truncateUtf8 name (cat.width - 1)

theorem map_filterMap_of {α β γ : Type} {g : α → Option β} {f : β → γ} {k : α → γ} {l : List α}
    (h : ∀ a ∈ l, ∃ b, g a = some b ∧ f b = k a) : (l.filterMap g).map f = l.map k := by
  induction l with
  | nil => rfl
  | cons a l ih =>
    obtain ⟨b, hg, hf⟩ := h a (.head _)
    rw [List.filterMap_cons_some hg, List.map_cons, List.map_cons, hf,
      ih fun a ha => h a (.tail _ ha)]

theorem map_decoded {ε : Type} {decode : UInt8 → Bytes → Option ε} {f : ε → Str} {k : Bytes → Str}
    {l : List Bytes} (hl : l.length < 256)
    (h : ∀ e ∈ l, ∀ idx, ∃ x, decode idx e = some x ∧ f x = k e) :
    (decoded decode (fun idx => l.getD idx.toNat []) l.length).map f = l.map k := by
  have hget {i : Nat} (hi : i < l.length) : l.getD i [] = l[i] := by simp [hi]
  refine (map_filterMap_of (k := fun i => k (l.getD i [])) fun i hi => ?_).trans ?_
  · have hi := List.mem_range.mp hi
    dsimp only
    rw [UInt8.toNat_ofNat_of_lt' (Nat.lt_trans hi hl), hget hi]
    exact h _ (List.getElem_mem hi) _
  · refine List.ext_getElem (by simp) fun i hi _ => ?_
    simp only [List.length_map, List.length_range] at hi
    rw [List.getElem_map, List.getElem_map, List.getElem_range, hget hi]

theorem forall₂_map {α β γ : Type} {R : α → β → Prop} {f : α → γ} {g : β → γ} {l : List α}
    {l' : List β} (h : List.Forall₂ R l l') (hfg : ∀ a b, R a b → f a = g b) :
    l.map f = l'.map g := by
  induction h with
  | nil => rfl
  | cons hab _ ih => rw [List.map_cons, List.map_cons, hfg _ _ hab, ih]

theorem forall₂_right {α β : Type} {R : α → β → Prop} {l : List α} {l' : List β}
    (h : List.Forall₂ R l l') : ∀ b ∈ l', ∃ a, R a b := by
  induction h with
  | nil => exact fun _ h => (nomatch h)
  | @cons a b _ _ hab _ ih =>
    intro x hx
    obtain rfl | hx := List.mem_cons.mp hx
    · exact ⟨a, hab⟩
    · exact ih x hx

/-- The name that is read from an entry. -/
theorem Carries.textField_eq {entry : Bytes} (h : Carries cat name entry) :
    textField (entry.take cat.width) = (sentName cat name).takeWhile (· ≠ '\x00') := by
  rw [h.field, textField_padField (by cases cat <;> decide), sentName]

theorem decodeSshEntry_long {idx : UInt8} {data : Bytes} (h : 80 ≤ data.length) :
    ∃ e, decodeSshEntry ext idx data = some e ∧ e.name = textField (data.take 16) := by
  have hkey : (convertEndianness64 ((data.drop 16).take 64)).length = 64 := by
    have hpub : ((data.drop 16).take 64).length = 64 := by
      rw [List.length_take, List.length_drop]
      omega
    rw [convertEndianness64, if_neg (by omega)]
    simp only [List.length_append, List.length_reverse, List.length_take, List.length_drop]
    omega
  obtain ⟨blob, hblob⟩ : ∃ blob, buildSshPublicKeyBlob
      (convertEndianness64 ((data.drop 16).take 64)) = some blob := ⟨_, if_neg fun h => h hkey⟩
  rw [decodeSshEntry, if_neg (by omega)]
  dsimp only
  rw [hblob]
  exact ⟨_, rfl, rfl⟩

theorem decodeNameEntry_long {c idx : UInt8} {catStr : Str} {data : Bytes}
    (h : nameLen c ≤ data.length) : ∃ e, decodeNameEntry c catStr idx data = some e ∧
      e.name = textField (data.take (nameLen c)) := by
  rw [decodeNameEntry, if_neg (by omega)]
  exact ⟨_, rfl, rfl⟩

/-- The daemon caches the names up to a NUL. -/
theorem Filled.cachedNames {st : Store} {names : KeyCategory → List Str} {keys : List SshKeyCacheEntry}
    {entries : List KeyNameEntry} (h : Filled st names) (hst : st.Cached ext keys entries)
    (cat : KeyCategory) : Immurok.cachedNames keys entries cat =
      (names cat).map fun n => (sentName cat n).takeWhile (· ≠ '\x00') := by
  obtain ⟨hc, hlen⟩ := h.carries cat
  have hread : (st.entries cat.byte).map (fun e => textField (e.take cat.width)) =
      (names cat).map fun n => (sentName cat n).takeWhile (· ≠ '\x00') :=
    (forall₂_map hc fun _ _ h => h.textField_eq.symm).symm
  have hlong {e : Bytes} (he : e ∈ st.entries cat.byte) :
      (if cat = .ssh then 80 else cat.width) ≤ e.length := by
    obtain ⟨n, hn⟩ := forall₂_right hc e he
    exact hn.long
  rw [← hread]
  cases cat with
  | ssh =>
    refine (congrArg (List.map (·.name)) hst.ssh).trans ?_
    exact map_decoded hlen fun e he idx => decodeSshEntry_long (hlong he)
  | otp =>
    refine (congrArg (List.map (·.name)) hst.otp).trans ?_
    exact map_decoded hlen fun e he idx => decodeNameEntry_long (hlong he)
  | api =>
    refine (congrArg (List.map (·.name)) hst.api).trans ?_
    exact map_decoded hlen fun e he idx => decodeNameEntry_long (hlong he)

-- ---------------------------------------------------------------------------
-- Listing
-- ---------------------------------------------------------------------------

def GetIo.handleListKeys (io : GetIo σ) (ext : Extern) (cat : Str) : Proc σ Str :=
  let cat := Str.trim cat
  if cat = "ssh".toList then do
    let entries ← io.sshKeys
    pure ("OK:".toList ++ Str.ofNat entries.length ++ "\n".toList ++
      (entries.flatMap fun e => e.name ++ "\t".toList ++ sshKeyText ext e ++ "\n".toList) ++
      "\n".toList)
  else if cat = "otp".toList ∨ cat = "api".toList then do
    let names ← io.keyNames
    let filtered := names.filter fun e => e.category = cat
    pure ("OK:".toList ++ Str.ofNat filtered.length ++ "\n".toList ++
      (filtered.flatMap fun e => e.name ++ "\n".toList) ++ "\n".toList)
  else pure "ERROR:UNKNOWN_CATEGORY\n"

theorem handleListKeys_eq {i : TaskId} {c : Str} :
    handleListKeys ext c = (getIo i).handleListKeys ext c := by
  rfl

/-- The answer with these lines. -/
def listing (lines : List Str) : Str :=
  "OK:".toList ++ Str.ofNat lines.length ++ "\n".toList ++ lines.flatMap (· ++ "\n".toList) ++
    "\n".toList

/-- The names in an answer: the lines, and for SSH what is before a tab. -/
def listedNames (cat : KeyCategory) (resp : Str) : List Str :=
  match cat with
  | .ssh => (listedLines resp).map (·.takeWhile (· ≠ '\t'))
  | _ => listedLines resp

def listingLines (ext : Extern) (keys : List SshKeyCacheEntry) (names : List KeyNameEntry) :
    KeyCategory → List Str
  | .ssh => keys.map fun e => e.name ++ "\t".toList ++ sshKeyText ext e
  | cat => (names.filter fun e => e.category = cat.wire).map (·.name)

theorem handleListKeys_reaches {dev : Device δ} {h : Host δ} :
    ((hostIo dev).handleListKeys ext cat.wire).Reaches h fun r _ =>
      r = listing (listingLines ext h.sshKeys h.keyNames cat) := by
  cases cat with
  | ssh =>
    refine .bind (.get (Q := fun r _ => r = h.sshKeys) rfl) fun _ _ hr => .ret ?_
    rw [hr, listing, listingLines, List.length_map, List.flatMap_map]
  | otp =>
    refine .bind (.get (Q := fun r _ => r = h.keyNames) rfl) fun _ _ hr => .ret ?_
    rw [hr, listing, listingLines, List.length_map, List.flatMap_map]
    · rfl
    · exact fun h => nomatch h
  | api =>
    refine .bind (.get (Q := fun r _ => r = h.keyNames) rfl) fun _ _ hr => .ret ?_
    rw [hr, listing, listingLines, List.length_map, List.flatMap_map]
    · rfl
    · exact fun h => nomatch h

/-- No piece holds what was split at. -/
theorem not_mem_of_mem_splitOn {c : Char} {s p : Str} (h : p ∈ s.splitOn c) : c ∉ p := by
  induction s generalizing p with
  | nil => rw [List.mem_singleton.mp h]; exact List.not_mem_nil
  | cons d s ih =>
    rw [List.splitOn_cons_eq_if_modifyHead] at h
    obtain ⟨q, qs, hq⟩ := List.exists_cons_of_ne_nil (List.splitOn_ne_nil c s)
    split at h
    next =>
      obtain rfl | h := List.mem_cons.mp h
      · exact List.not_mem_nil
      · exact ih h
    next hne =>
      rw [hq, List.modifyHead_cons] at h
      obtain rfl | h := List.mem_cons.mp h
      · exact List.not_mem_cons_of_ne_of_not_mem (fun he => hne (beq_iff_eq.mpr he.symm))
          (ih (hq ▸ .head _))
      · exact ih (hq ▸ .tail _ h)

theorem newline_not_mem_listed {resp l : Str} (h : l ∈ listedLines resp) : '\n' ∉ l :=
  not_mem_of_mem_splitOn (List.mem_of_mem_tail (List.mem_of_mem_filter h))

theorem splitOn_lines {lines : List Str} {rest : Str} (h : ∀ l ∈ lines, '\n' ∉ l) :
    (lines.flatMap (· ++ "\n".toList) ++ rest).splitOn '\n' = lines ++ rest.splitOn '\n' := by
  induction lines with
  | nil => rfl
  | cons l lines ih =>
    have hl := List.splitOn_append_cons_self_of_not_mem (h l (.head _))
      (lines.flatMap (· ++ "\n".toList) ++ rest)
    rw [List.flatMap_cons, List.append_assoc, List.append_assoc, List.cons_append,
      ← ih fun a ha => h a (.tail _ ha)]
    exact hl

/-- Lines that are lines come back. -/
theorem listedLines_listing {lines : List Str} (h : ∀ l ∈ lines, '\n' ∉ l ∧ l ≠ []) :
    listedLines (listing lines) = lines := by
  have hcount : '\n' ∉ "OK:".toList ++ Str.ofNat lines.length := by
    intro hm
    obtain hm | hm := List.mem_append.mp hm
    · exact absurd hm (by decide)
    · exact absurd (@Nat.isDigit_of_mem_toDigits 10 _ _ (by decide) (by decide) hm) (by decide)
  have hsplit := List.splitOn_append_cons_self_of_not_mem hcount
    (lines.flatMap (· ++ "\n".toList) ++ "\n".toList)
  have hresp : listing lines = ("OK:".toList ++ Str.ofNat lines.length) ++
      '\n' :: (lines.flatMap (· ++ "\n".toList) ++ "\n".toList) := by
    rw [listing, List.append_assoc _ (lines.flatMap _), List.append_assoc _ "\n".toList]
    rfl
  rw [listedLines, hresp, hsplit, List.tail_cons, splitOn_lines fun l hl => (h l hl).1,
    List.filter_append, List.filter_eq_self.mpr fun l hl => decide_eq_true (h l hl).2]
  exact List.append_nil _

-- ---------------------------------------------------------------------------
-- Asking
-- ---------------------------------------------------------------------------

/-- The answer is that of an entry in the caches: a key, or something about
which the device was asked. -/
def Found (ext : Extern) (h h' : Host Bool) (r : Option Str) : KeyCategory → Prop
  | .ssh => ∃ k ∈ h.sshKeys,
      r = some ("OK:".toList ++ sshKeyText ext k ++ " ".toList ++ k.name ++ "\n".toList)
  | cat => ∃ n ∈ h.keyNames, n.category = cat.wire ∧ Asked n.index h'

/-- A request for the name finds an entry. -/
def Resolves (ext : Extern) (v : Vault) (h : Host Bool) (cat : KeyCategory) (name : Str) : Prop :=
  (serveGet (hostIo v.device) ext (getChunk cat name)).Reaches h fun r h' => Found ext h h' r cat

section
variable {v : Vault} {h h' : Host Bool} {asked reply : Str}

theorem mem_cachedNames {keys : List SshKeyCacheEntry} {names : List KeyNameEntry} (hc : cat ≠ .ssh) :
    asked ∈ cachedNames keys names cat ↔ ∃ n ∈ names, n.category = cat.wire ∧ n.name = asked := by
  have hm : asked ∈ (names.filter fun e => e.category = cat.wire).map (·.name) ↔
      ∃ n ∈ names, n.category = cat.wire ∧ n.name = asked := by
    simp only [List.mem_map, List.mem_filter, decide_eq_true_eq, and_assoc]
  cases cat with
  | ssh => exact absurd rfl hc
  | otp => exact hm
  | api => exact hm

theorem found_of_keyIndex {names : List KeyNameEntry} (hc : cat ≠ .ssh)
    {keys : List SshKeyCacheEntry} (hq : h.sent = [])
    (hnone : keyIndex names cat.wire asked = none → h' = h)
    (hsome : ∀ idx, keyIndex names cat.wire asked = some idx → Asked idx h') :
    (∃ n ∈ names, n.category = cat.wire ∧ Asked n.index h') ↔ asked ∈ cachedNames keys names cat := by
  rw [mem_cachedNames hc]
  cases hk : keyIndex names cat.wire asked with
  | none =>
    refine iff_of_false (fun ⟨n, _, _, ha⟩ => ha.1 (hnone hk ▸ hq)) fun ⟨n, hn, hcat, hname⟩ => ?_
    have := List.find?_eq_none.mp (Option.map_eq_none_iff.mp hk) n hn
    exact this (decide_eq_true ⟨hcat, hname⟩)
  | some idx =>
    have ha := hsome idx hk
    obtain ⟨n, hn, rfl⟩ := Option.map_eq_some_iff.mp hk
    have hmem := List.mem_of_find?_eq_some hn
    have hp := List.find?_some hn
    rw [decide_eq_true_eq] at hp
    exact iff_of_true ⟨n, hmem, hp.1, ha⟩ ⟨n, hmem, hp⟩

/-- What is found is what is in the caches. -/
theorem Answered.found (ha : Answered ext v h h' asked reply cat) (hq : h.sent = []) :
    Found ext h h' (some reply) cat ↔ asked ∈ cachedNames h.sshKeys h.keyNames cat := by
  cases cat with
  | ssh =>
    dsimp only [Answered, Found] at ha ⊢
    cases hf : h.sshKeys.find? fun k => k.name = asked with
    | none =>
      rw [hf] at ha
      refine iff_of_false (fun ⟨k, _, hr⟩ => ?_) fun hm => ?_
      · exact absurd (ha.1.symm.trans (Option.some.inj hr)) fun h => nomatch (List.cons.inj h).1
      · obtain ⟨k, hk, hname⟩ := List.mem_map.mp hm
        exact List.find?_eq_none.mp hf k hk (decide_eq_true hname)
    | some k =>
      rw [hf] at ha
      have hmem := List.mem_of_find?_eq_some hf
      have hname := List.find?_some hf
      rw [decide_eq_true_eq] at hname
      exact iff_of_true ⟨k, hmem, congrArg some ha.1⟩ (List.mem_map.mpr ⟨k, hmem, hname⟩)
  | otp =>
    have hc : KeyCategory.otp ≠ .ssh := by decide
    dsimp only [Answered] at ha
    refine found_of_keyIndex hc hq (fun hk => ?_) fun idx hk => ?_
    · exact (hk ▸ ha).2
    · exact (hk ▸ ha).2
  | api =>
    have hc : KeyCategory.api ≠ .ssh := by decide
    dsimp only [Answered] at ha
    refine found_of_keyIndex hc hq (fun hk => ?_) fun idx hk => ?_
    · exact (hk ▸ ha).2
    · exact (hk ▸ ha).2

theorem not_found_usage (hq : h.sent = []) : ¬ Found ext h h (some "ERROR:USAGE\n") cat := by
  cases cat with
  | ssh =>
    rintro ⟨k, _, hr⟩
    exact absurd (Option.some.inj hr) fun h => nomatch (List.cons.inj h).1
  | otp => exact fun ⟨n, _, _, ha⟩ => ha.1 hq
  | api => exact fun ⟨n, _, _, ha⟩ => ha.1 hq

/-- A name of one line is found by what comes through of it. -/
theorem resolves_iff (hlen : name.length < 1024) (hline : '\n' ∉ name) (hc : h.isConnected = true)
    (hfree : h.slotFree = true) (hq : h.sent = []) : Resolves ext v h cat name ↔
      Str.trimEndMatches isStripped name ≠ [] ∧
      Str.trimEndMatches isStripped name ∈ cachedNames h.sshKeys h.keyNames cat := by
  have hr := @serveGet_reaches v name h ext cat (length_getChunk hlen) hc hfree hq
  have hasked : askedName name = some (Str.trimEndMatches isStripped name) := by
    rw [askedName, Str.splitOnce_eq_none.mpr hline]
  rw [hasked] at hr
  cases ht : Str.trimEndMatches isStripped name with
  | nil =>
    rw [ht] at hr
    refine iff_of_false (fun hres => ?_) fun h => h.1 rfl
    obtain ⟨r, h', -, hf, rfl, hh⟩ := hres.and hr
    rw [hh] at hf
    exact not_found_usage hq hf
  | cons c s =>
    rw [ht] at hr
    rw [and_iff_right (List.cons_ne_nil c s)]
    constructor
    · intro hres
      obtain ⟨r, h', -, hf, reply, rfl, ha⟩ := hres.and hr
      exact (ha.found hq).mp hf
    · intro hm
      refine hr.mono ?_
      rintro r h' ⟨reply, hr, ha⟩
      rw [hr]
      exact (ha.found hq).mpr hm

end

-- ---------------------------------------------------------------------------
-- There and back
-- ---------------------------------------------------------------------------

/-- The names that clients gave to the entries of a category are cached as
they were sent, they are the ones in the listing, and each finds an entry. -/
structure NamesHold (ext : Extern) (v : Vault) (h : Host Bool) (cat : KeyCategory)
    (names : List Str) : Prop where
  cached : cachedNames h.sshKeys h.keyNames cat = names.map (sentName cat)
  listed : ((hostIo v.device).handleListKeys ext cat.wire).Reaches h fun r _ =>
    listedNames cat r = cachedNames h.sshKeys h.keyNames cat
  resolved : ∀ n ∈ cachedNames h.sshKeys h.keyNames cat, Resolves ext v h cat n

/-- A name that comes through among these: nothing cuts it, and without what is
stripped at its end it is one of them. -/
structure Passable (cat : KeyCategory) (sent : List Str) (name : Str) : Prop where
  nul : '\x00' ∉ name
  newline : '\n' ∉ name
  tab : cat = .ssh → '\t' ∉ name
  asked : Str.trimEndMatches isStripped name ≠ []
  known : Str.trimEndMatches isStripped name ∈ sent

theorem takeWhile_ne {c : Char} {s : Str} : s.takeWhile (· ≠ c) = s ↔ c ∉ s := by
  rw [List.takeWhile_eq_self_iff]
  simp only [decide_eq_true_eq]
  exact ⟨fun h hm => h c hm rfl, fun h d hd he => h (he ▸ hd)⟩

theorem length_sentName : (sentName cat name).length < 1024 := by
  refine Nat.lt_of_le_of_lt (Nat.le_trans length_le_utf8 length_truncateUtf8) ?_
  cases cat <;> decide

section
variable {keys : List SshKeyCacheEntry} {entries : List KeyNameEntry} {v : Vault} {h : Host Bool}

/-- What is listed is in one line, for SSH before the first tab. -/
theorem listedNames_line {resp n : Str} (h : n ∈ listedNames cat resp) :
    '\n' ∉ n ∧ (cat = .ssh → '\t' ∉ n) := by
  cases cat with
  | ssh =>
    obtain ⟨l, hl, rfl⟩ := List.mem_map.mp h
    have hpre := List.takeWhile_prefix (l := l) fun c => decide (c ≠ '\t')
    refine ⟨fun hm => newline_not_mem_listed hl (hpre.subset hm), fun _ hm => ?_⟩
    have := List.mem_takeWhile_imp hm
    rw [decide_eq_true_eq] at this
    exact this rfl
  | otp => exact ⟨newline_not_mem_listed h, fun h => nomatch h⟩
  | api => exact ⟨newline_not_mem_listed h, fun h => nomatch h⟩

theorem listedNames_listing (hb : Base64.Laws ext.base64Encode ext.base64Decode)
    (h : ∀ n ∈ cachedNames keys entries cat, n ≠ [] ∧ '\n' ∉ n ∧ (cat = .ssh → '\t' ∉ n)) :
    listedNames cat (listing (listingLines ext keys entries cat)) =
      cachedNames keys entries cat := by
  cases cat with
  | ssh =>
    have htext {k : SshKeyCacheEntry} : '\n' ∉ sshKeyText ext k := by
      intro hm
      obtain hm | hm := List.mem_append.mp hm
      · exact absurd hm (by decide)
      · exact absurd (hb.chars _ _ hm) (by decide)
    have hname {k : SshKeyCacheEntry} : (k.name ++ "\t".toList ++ sshKeyText ext k).takeWhile
        (· ≠ '\t') = k.name.takeWhile (· ≠ '\t') := by
      rw [List.append_assoc]
      exact Str.takeWhile_append_neg (by decide)
    have hall {k : SshKeyCacheEntry} (hk : k ∈ keys) := (h k.name (List.mem_map_of_mem hk)).2
    dsimp only [listedNames, listingLines, cachedNames]
    rw [listedLines_listing, List.map_map]
    · refine List.map_congr_left fun k hk => ?_
      exact hname.trans (takeWhile_ne.mpr ((hall hk).2 rfl))
    · intro l hl
      obtain ⟨k, hk, rfl⟩ := List.mem_map.mp hl
      refine ⟨fun hm => ?_, by simp⟩
      obtain hm | hm := List.mem_append.mp hm
      · obtain hm | hm := List.mem_append.mp hm
        · exact (hall hk).1 hm
        · exact absurd hm (by decide)
      · exact htext hm
  | otp => exact listedLines_listing fun n hn => ⟨(h n hn).2.1, (h n hn).1⟩
  | api => exact listedLines_listing fun n hn => ⟨(h n hn).2.1, (h n hn).1⟩

section
variable {st : Store} {names : KeyCategory → List Str}

theorem length_of_sent {n : Str} (hn : n ∈ (names cat).map (sentName cat)) : n.length < 1024 := by
  obtain ⟨_, -, rfl⟩ := List.mem_map.mp hn
  exact length_sentName

theorem NamesHold.passable (hh : NamesHold ext v h cat (names cat)) (hf : Filled st names)
    (hst : st.Cached ext h.sshKeys h.keyNames) (hc : h.isConnected = true)
    (hfree : h.slotFree = true) (hq : h.sent = []) :
    ∀ n ∈ (names cat).map (sentName cat), Passable cat ((names cat).map (sentName cat)) n := by
  intro n hn
  obtain ⟨hcached, hlisted, hresolved⟩ := hh
  -- the names are what is listed, so each is in a line
  obtain ⟨r, h', -, hnames, -⟩ := hlisted.and handleListKeys_reaches
  have hline := listedNames_line (hnames.trans hcached ▸ hn)
  have hr := (resolves_iff (length_of_sent hn) hline.1 hc hfree hq).mp (hresolved n (hcached ▸ hn))
  rw [hcached] at hr
  refine ⟨?_, hline.1, hline.2, hr.1, hr.2⟩
  -- and nothing was cut at a NUL
  obtain ⟨m, hm, rfl⟩ := List.mem_map.mp hn
  exact takeWhile_ne.mp (List.map_inj_left.mp ((hf.cachedNames hst cat).symm.trans hcached) m hm)

theorem namesHold_iff (hb : Base64.Laws ext.base64Encode ext.base64Decode) (hf : Filled st names)
    (hst : st.Cached ext h.sshKeys h.keyNames) (hc : h.isConnected = true)
    (hfree : h.slotFree = true) (hq : h.sent = []) (cat : KeyCategory) :
    NamesHold ext v h cat (names cat) ↔ ∀ n ∈ (names cat).map (sentName cat),
      Passable cat ((names cat).map (sentName cat)) n := by
  refine ⟨fun hh => hh.passable hf hst hc hfree hq, fun hp => ?_⟩
  have hcached : cachedNames h.sshKeys h.keyNames cat = (names cat).map (sentName cat) :=
    (hf.cachedNames hst cat).trans (List.map_congr_left fun n hn =>
      takeWhile_ne.mpr (hp _ (List.mem_map_of_mem hn)).nul)
  refine ⟨hcached, handleListKeys_reaches.mono fun r _ hr => ?_, fun n hn => ?_⟩
  · rw [hr]
    refine listedNames_listing hb fun n hn => ?_
    obtain hn := hp n (hcached ▸ hn)
    exact ⟨fun he => hn.asked (by rw [he]; rfl), hn.newline, hn.tab⟩
  · have hn' := hcached ▸ hn
    rw [resolves_iff (length_of_sent hn') (hp n hn').newline hc hfree hq, hcached]
    exact ⟨(hp n hn').asked, (hp n hn').known⟩

end

end

-- ---------------------------------------------------------------------------
-- An account
-- ---------------------------------------------------------------------------

/-- The names, if there is just this OTP entry. -/
def onlyOtp (name : Str) : KeyCategory → List Str := Function.update (fun _ => []) .otp [name]

/-- A device with one entry, and a daemon that has read it. -/
theorem exists_filled {e : OtpEntry} {c : AddCommand} (h : addOtp e = .ok c.line) :
    ∃ st, Filled st (onlyOtp e.name) ∧ ∃ host : Host Bool, st.Cached ext host.sshKeys host.keyNames ∧
      host.isConnected = true ∧ host.slotFree = true ∧ host.sent = [] := by
  obtain ⟨hne, hle, hline⟩ := addOtp_ok h
  obtain rfl := AddCommand.line_inj hline
  have hpos := List.length_pos_of_ne_nil hne
  have hlen : (buildOtpEntryPayload e).length = 60 + e.secret.length := by
    rw [buildOtpEntryPayload, List.length_append, List.length_append,
      length_padField (n := nameLenOtp) (by decide), length_padField (n := serviceLenOtp) (by decide)]
    rfl
  have hlo : KeyCategory.otp.importKind.lo ≤ (buildOtpEntryPayload e).length := by
    rw [hlen]
    show 61 ≤ _
    omega
  have hhi : (buildOtpEntryPayload e).length ≤ KeyCategory.otp.importKind.hi := by
    rw [hlen]
    exact Nat.add_le_add_left hle 60
  have hk : (List.replicate 96 (0 : UInt8)).length = 96 := List.length_replicate
  obtain ⟨r, st, he, -⟩ := @importKey_reaches (List.replicate 96 0) _ .empty .otp hlo hhi (by decide)
  obtain ⟨keys, names, hst⟩ := @Store.exists_cached ext st
  exact ⟨st, .add .empty (.otp h) hk (by decide) he,
    { Host.sample with sshKeys := keys, keyNames := names }, hst, rfl, rfl, rfl⟩

/-- A name as most are. -/
def aliceEntry : OtpEntry := { name := "alice", service := [], secret := [1] }

theorem namesHold_alice : ∃ (st : Store) (h : Host Bool), Filled st (onlyOtp "alice") ∧
    NamesHold .coded .bare h .otp ["alice"] := by
  have hadd : addOtp aliceEntry = .ok (AddCommand.import .otp (buildOtpEntryPayload aliceEntry)).line :=
    rfl
  obtain ⟨st, hf, h, hst, hc, hfree, hq⟩ := @exists_filled .coded _ _ hadd
  refine ⟨st, h, hf, (namesHold_iff Base64.laws hf hst hc hfree hq .otp).mpr fun n hn => ?_⟩
  obtain rfl := List.mem_singleton.mp hn
  exact ⟨by decide, by decide, fun h => (nomatch h), by decide, by decide⟩

/-- A label with a newline in it is taken from a URI. -/
def brokenUri : Str := "otpauth://totp/a%0Ab?secret=AAAA"

theorem broken_name : ¬ ∀ (ext : Extern) (uri : Str) (e : OtpEntry) (c : AddCommand) (st : Store)
    (v : Vault) (h : Host Bool), Base64.Laws ext.base64Encode ext.base64Decode →
    parseOtpauthUri ext id uri = some e → addOtp e = .ok c.line → Filled st (onlyOtp e.name) →
    st.Cached ext h.sshKeys h.keyNames → h.isConnected = true → h.slotFree = true → h.sent = [] →
    NamesHold ext v h .otp [e.name] := by
  intro hall
  let e : OtpEntry := { name := "a\nb", service := [], secret := [0, 0] }
  have hadd : addOtp e = .ok (AddCommand.import .otp (buildOtpEntryPayload e)).line := rfl
  have hparse : parseOtpauthUri .coded id brokenUri = some e := by decide
  obtain ⟨st, hf, h, hst, hc, hfree, hq⟩ := @exists_filled .coded _ _ hadd
  have hh : NamesHold .coded .bare h .otp (onlyOtp "a\nb" .otp) :=
    hall .coded brokenUri e _ st .bare h Base64.laws hparse hadd hf hst hc hfree hq
  have hp := hh.passable hf hst hc hfree hq "a\nb" (by decide)
  exact absurd hp.newline (by decide)

end Immurok
