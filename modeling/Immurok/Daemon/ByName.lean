import Immurok.Daemon.KeyCache
import Immurok.Daemon.Retrieval
import Immurok.Text.Base64

/-!
# Entries by their names

The caches a synchronisation leaves list each category by ascending indices,
so a name stands for the entry with the smallest index that has it.
-/

namespace Immurok

open Async

variable {ext : Extern} {content : UInt8 → DigestEntry → UInt8 → Bytes} {α β ε : Type}

-- ---------------------------------------------------------------------------
-- What is cached
-- ---------------------------------------------------------------------------

/-- Entries by ascending indices. -/
structure Listed (index : ε → UInt8) (P : ε → Prop) (l : List ε) : Prop where
  sorted : l.Pairwise (index · < index ·)
  all : ∀ e ∈ l, P e

/-- A name that fits the widest field. -/
def Short (name : Str) : Prop := name.length ≤ nameLenApi

abbrev ListedKeys : List SshKeyCacheEntry → Prop := Listed (·.index) (Short ·.name)

abbrev ListedNames (catStr : Str) : List KeyNameEntry → Prop :=
  Listed (·.index) fun e => e.category = catStr ∧ Short e.name

structure Sync.Ordered (s : Sync) : Prop where
  ssh : ListedKeys s.sshKeys
  otp : ListedNames "otp" (s.keyNames.filter fun e => e.category = "otp".toList)
  api : ListedNames "api" (s.keyNames.filter fun e => e.category = "api".toList)

theorem Sync.Ordered.of_eq {s s' : Sync} (h : s.Ordered) (hs : s'.sshKeys = s.sshKeys)
    (hn : s'.keyNames = s.keyNames) : s'.Ordered := ⟨hs ▸ h.ssh, hn ▸ h.otp, hn ▸ h.api⟩

/-- What holds wherever a run is stopped. -/
abbrev OrderTriple (A : Sync → Prop) (t : Proc Sync α) (B : α → Sync → Prop) : Prop :=
  (solo Sync.Ordered).Triple 0 A t B

theorem length_textField {bs : Bytes} {n : Nat} : (textField (bs.take n)).length ≤ n :=
  Nat.le_trans Utf8.length_lossy
    (Nat.le_trans (List.takeWhile_prefix _).length_le (List.length_take_le n bs))

theorem decodeSshEntry_spec {idx : UInt8} {data : Bytes} {e : SshKeyCacheEntry}
    (h : decodeSshEntry ext idx data = some e) : e.index = idx ∧ Short e.name := by
  obtain ⟨-, h⟩ := Option.ite_none_left_eq_some.mp h
  obtain ⟨blob, -, rfl⟩ := Option.map_eq_some_iff.mp h
  exact ⟨rfl, Nat.le_trans length_textField (by decide)⟩

theorem decodeNameEntry_spec {cat idx : UInt8} {catStr : Str} {data : Bytes} {e : KeyNameEntry}
    (h : decodeNameEntry cat catStr idx data = some e) :
    e.index = idx ∧ e.category = catStr ∧ Short e.name := by
  obtain ⟨-, h⟩ := Option.ite_none_left_eq_some.mp h
  obtain rfl := Option.some.inj h
  refine ⟨rfl, rfl, Nat.le_trans length_textField ?_⟩
  unfold nameLen
  split
  · decide
  · split <;> decide

-- ---------------------------------------------------------------------------
-- A run
-- ---------------------------------------------------------------------------

/-- A part of a run that leaves the caches alone. -/
abbrev KeepsCaches (t : Proc Sync α) : Prop := OrderTriple (fun _ => True) t fun _ _ => True

theorem KeepsCaches.const {p : Prop} {t : Proc Sync α} (h : KeepsCaches t) :
    OrderTriple (fun _ => p) t fun _ _ => p :=
  fun s hi hp => (h.post fun _ _ _ _ => hp) s hi trivial

theorem Sync.hear_caches {s : Sync} {answer : Except Str Bytes} {cmd : UInt8} {payload : Bytes} :
    (s.hear content answer cmd payload).sshKeys = s.sshKeys ∧
      (s.hear content answer cmd payload).keyNames = s.keyNames := by
  unfold Sync.hear
  split
  · split <;> exact ⟨rfl, rfl⟩
  · split <;> exact ⟨rfl, rfl⟩
  · exact ⟨rfl, rfl⟩

theorem send_keeps {cmd : UInt8} {payload : Bytes} :
    KeepsCaches ((diskIo content).send cmd payload) := by
  refine Solo.act fun s answer s' hi _ hm => ⟨?_, trivial⟩
  obtain ⟨rfl, rfl⟩ := Prod.mk.inj (List.mem_singleton.mp hm)
  exact hi.of_eq Sync.hear_caches.1 Sync.hear_caches.2

theorem getKeyCount_keeps {cat : UInt8} :
    OrderTriple (fun _ => True) (getKeyCountInner (diskIo content) cat) (Yields fun _ _ => True) :=
  Yields.tryThen (send_keeps.post fun _ _ _ _ _ _ => trivial) fun _ =>
    Solo.ret fun _ _ _ _ => trivial

theorem readKeyEntry_keeps {cat idx : UInt8} :
    KeepsCaches (readKeyEntryInner (diskIo content) cat idx) := by
  refine Solo.repeatFrom (J := fun _ _ => True) fun full => ?_
  refine .bind send_keeps fun r => ?_
  split
  · exact Solo.ret fun _ _ => trivial
  · split
    · refine Solo.ite (fun _ => Solo.ret fun _ _ => trivial) fun _ => Solo.ite (fun _ => ?_) fun _ => ?_
      · exact Solo.ret fun _ _ => trivial
      · exact Solo.ret fun _ _ => trivial
    · exact Solo.ret fun _ _ => trivial

theorem Listed.append {index : ε → UInt8} {P : ε → Prop} {l : List ε} {e : ε}
    (h : Listed index P l) (hi : ∀ a ∈ l, index a < index e) (he : P e) :
    Listed index P (l ++ [e]) where
  sorted := List.pairwise_append.mpr
    ⟨h.sorted, List.pairwise_singleton _ _, fun a ha b hb => List.mem_singleton.mp hb ▸ hi a ha⟩
  all a ha := by
    obtain ha | ha := List.mem_append.mp ha
    · exact h.all a ha
    · exact List.mem_singleton.mp ha ▸ he

/-- The loop goes through the indices in order. -/
theorem readEntries_listed {cat count : UInt8} {decode : UInt8 → Bytes → Option ε}
    {index : ε → UInt8} {P : ε → Prop}
    (hd : ∀ idx data e, decode idx data = some e → index e = idx ∧ P e) :
    OrderTriple (fun _ => True) (readEntries (diskIo content) cat count decode)
      (Yields fun entries _ => Listed index P entries) := by
  refine Protocol.Triple.pre (Solo.repeatFrom (J := fun (j : Nat × List ε) _ =>
    j.1 ≤ count.toNat ∧ Listed index P j.2 ∧ ∀ e ∈ j.2, (index e).toNat < j.1)
    fun ⟨idx, entries⟩ => ?_) fun s _ _ => ⟨Nat.zero_le _, ⟨.nil, fun _ h => (nomatch h)⟩,
      fun _ h => (nomatch h)⟩
  dsimp only
  refine Solo.ite (fun hle => Solo.ret fun s h => Yields.ok h.2.1) fun hlt => ?_
  refine .bind readKeyEntry_keeps.const fun r => ?_
  cases r with
  | error e => exact Solo.ret fun s ⟨_, hl, hb⟩ =>
      ⟨Nat.lt_of_not_le hlt, hl, fun e he => Nat.lt_succ_of_lt (hb e he)⟩
  | ok data =>
    refine Solo.ret fun s ⟨hidx, hl, hb⟩ => ⟨Nat.lt_of_not_le hlt, ?_⟩
    dsimp only
    cases he : decode (UInt8.ofNat idx) data with
    | none =>
      rw [Option.toList_none, List.append_nil]
      exact ⟨hl, fun e he => Nat.lt_succ_of_lt (hb e he)⟩
    | some e =>
      obtain ⟨hi, hshort⟩ := hd _ _ _ he
      have hidx : (index e).toNat = idx := by
        have := count.toNat_lt
        rw [hi, UInt8.toNat_ofNat_of_lt' (by show idx < 256; omega)]
      refine ⟨hl.append (fun a ha => ?_) hshort, fun a ha => ?_⟩
      · rw [UInt8.lt_iff_toNat_lt, hidx]
        exact hb a ha
      · obtain ha | ha := List.mem_append.mp ha
        · exact Nat.lt_succ_of_lt (hb a ha)
        · rw [List.mem_singleton.mp ha, hidx]
          exact Nat.lt_succ_self idx

theorem Listed.filter {index : ε → UInt8} {P : ε → Prop} {p : ε → Bool} {l : List ε}
    (h : Listed index P l) : Listed index P (l.filter p) :=
  ⟨h.sorted.filter _, fun e he => h.all e (List.mem_of_mem_filter he)⟩

theorem nameEntries_listed {cat count : UInt8} {catStr : Str} {cached : List KeyNameEntry}
    {hit : Bool} (hc : ListedNames catStr (cached.filter fun e => e.category = catStr)) :
    OrderTriple (fun _ => True) (nameEntries (diskIo content) cached hit cat count catStr)
      (Yields fun entries _ => ListedNames catStr entries) :=
  Solo.ite (fun _ => Solo.ret fun _ _ => Yields.ok hc) fun _ =>
    readEntries_listed fun _ _ _ => decodeNameEntry_spec

theorem syncSsh_ordered {saved fresh : Digests} : OrderTriple (fun _ => True)
    (syncSsh ext (diskIo content) saved fresh) (Yields fun _ _ => True) := by
  have done {d : Digests} : OrderTriple (fun _ => True) (.ret (.ok d)) (Yields fun _ _ => True) :=
    Solo.ret fun _ _ _ _ => trivial
  refine Yields.tryThen getKeyCount_keeps fun d => Solo.ite (fun _ => done) fun _ => ?_
  refine Yields.tryThen (readEntries_listed (P := (Short ·.name)) fun _ _ _ => decodeSshEntry_spec)
    fun entries => Yields.tryThen (M := fun _ _ => True) (Solo.act fun s r s' hi hl hm => ?_)
      fun _ => done
  obtain hm | hm := List.mem_pair.mp hm <;> obtain ⟨rfl, rfl⟩ := Prod.mk.inj hm
  · exact ⟨⟨hl, hi.otp, hi.api⟩, fun _ _ => trivial⟩
  · exact ⟨hi, fun _ _ => trivial⟩

theorem syncNames_ordered {saved fresh : Digests} : OrderTriple (fun _ => True)
    (syncNames (diskIo content) saved fresh) (Yields fun _ _ => True) := by
  have done {d : Digests} : OrderTriple (fun _ => True) (.ret (.ok d)) (Yields fun _ _ => True) :=
    Solo.ret fun _ _ _ _ => trivial
  refine Yields.tryThen getKeyCount_keeps fun otp => Yields.tryThen getKeyCount_keeps fun api => ?_
  refine Solo.ite (fun _ => done) fun _ => ?_
  refine .bind (M := fun cached _ =>
      ListedNames "otp" (cached.filter fun e => e.category = "otp".toList) ∧
      ListedNames "api" (cached.filter fun e => e.category = "api".toList))
    (Solo.act fun s r s' hi _ hm => ?_) fun cached s hi ⟨ho, ha⟩ => ?_
  · obtain ⟨rfl, rfl⟩ := Prod.mk.inj (List.mem_singleton.mp hm)
    exact ⟨hi, hi.otp, hi.api⟩
  refine Yields.tryThen (nameEntries_listed ho) (fun otpEntries s hi ho => ?_) s hi trivial
  refine Yields.tryThen (nameEntries_listed ha) (fun apiEntries s hi ha => ?_) s hi trivial
  refine Yields.tryThen (A := fun _ => True) (M := fun _ _ => True)
    (Solo.act fun s r s' hi _ hm => ?_) (fun _ => done) s hi trivial
  obtain ⟨hotp, hapi⟩ := filter_categories (by decide) (fun e he => (ho.all e he).1)
    fun e he => (ha.all e he).1
  obtain hm | hm := List.mem_pair.mp hm <;> obtain ⟨rfl, rfl⟩ := Prod.mk.inj hm
  · exact ⟨⟨hi.ssh, hotp.symm ▸ ho, hapi.symm ▸ ha⟩, fun _ _ => trivial⟩
  · exact ⟨hi, fun _ _ => trivial⟩

theorem syncSshKeys_ordered : OrderTriple (fun _ => True) (syncSshKeys ext (diskIo content))
    fun _ _ => True := by
  refine .bind (M := fun _ _ => True) (Solo.act fun s r s' hi _ hm => ?_) fun saved => ?_
  · obtain ⟨rfl, rfl⟩ := Prod.mk.inj (List.mem_singleton.mp hm)
    exact ⟨hi, trivial⟩
  refine Protocol.Triple.post (Yields.tryThen syncSsh_ordered fun fresh =>
    Yields.tryThen syncNames_ordered fun fresh =>
      (?_ : OrderTriple _ _ (Yields fun _ _ => True))) fun _ _ _ _ => trivial
  refine .bind (M := fun _ _ => True) (Solo.act fun s r s' hi h hm => ?_) fun _ =>
    Solo.ret fun _ _ _ _ => trivial
  obtain hm | hm := List.mem_pair.mp hm <;> obtain ⟨rfl, rfl⟩ := Prod.mk.inj hm
  · exact ⟨hi.of_eq rfl rfl, trivial⟩
  · exact ⟨hi, trivial⟩

/-- Whatever the device answers and wherever runs are stopped. -/
theorem synced_ordered {s : Sync} (h : Synced ext content (fun _ => True) s) : s.Ordered := by
  have nil {ε : Type} {index : ε → UInt8} {P : ε → Prop} : Listed index P [] :=
    ⟨.nil, fun _ h => (nomatch h)⟩
  induction h with
  | start => exact ⟨nil, nil, nil⟩
  | @run answers s s' t _ hs _ ih =>
    exact syncSshKeys_ordered.stops (s := s.begin answers) (ih.of_eq rfl rfl) trivial hs

-- ---------------------------------------------------------------------------
-- The entry of a name
-- ---------------------------------------------------------------------------

/-- The first one is the one with the smallest index. -/
theorem find?_sorted {index : ε → UInt8} {p : ε → Bool} {l : List ε} {e : ε}
    (h : l.Pairwise (index · < index ·)) : l.find? p = some e ↔
      e ∈ l ∧ p e = true ∧ ∀ a ∈ l, p a = true → index e ≤ index a := by
  induction l with
  | nil => simp
  | cons b l ih =>
    obtain ⟨hb, hl⟩ := List.pairwise_cons.mp h
    cases hp : p b with
    | true =>
      rw [List.find?_cons_of_pos hp]
      refine ⟨fun he => ?_, fun ⟨he, hpe, hle⟩ => ?_⟩
      · obtain rfl := Option.some.inj he
        refine ⟨.head _, hp, fun a ha _ => ?_⟩
        obtain rfl | ha := List.mem_cons.mp ha
        · exact UInt8.le_refl _
        · exact UInt8.le_of_lt (hb a ha)
      · obtain rfl | he := List.mem_cons.mp he
        · rfl
        · exact absurd (UInt8.lt_of_lt_of_le (hb e he) (hle b (.head _) hp)) (UInt8.lt_irrefl _)
    | false =>
      rw [List.find?_cons_of_neg (by simp [hp]), ih hl]
      refine ⟨fun ⟨he, hpe, hle⟩ => ⟨.tail _ he, hpe, fun a ha hpa => ?_⟩,
        fun ⟨he, hpe, hle⟩ => ⟨?_, hpe, fun a ha => hle a (.tail _ ha)⟩⟩
      · obtain rfl | ha := List.mem_cons.mp ha
        · exact absurd hpa (by simp [hp])
        · exact hle a ha hpa
      · obtain rfl | he := List.mem_cons.mp he
        · exact absurd hpe (by simp [hp])
        · exact he

/-- Of the entries shown in a category, the one with the smallest index that
has the name. -/
structure FirstOf (shown : List KeyEntry) (cat : KeyCategory) (name : Str) (e : KeyEntry) :
    Prop where
  mem : e ∈ shown
  category : e.category = cat
  named : e.name = name
  least : ∀ a ∈ shown, a.category = cat → a.name = name → e.index ≤ a.index

/-- An entry can be asked for by its name: the name comes through, as it is,
and no entry before it has the same one. For SSH it is enough that the entry
that is found has the same key. -/
def Requestable (shown : List KeyEntry) (e : KeyEntry) : Prop :=
  match e.category with
  | .ssh => ∃ asked, askedName e.name = some asked ∧ asked ≠ [] ∧
      ∃ a, FirstOf shown .ssh asked a ∧ a.sshPubkeyB64 = e.sshPubkeyB64
  | cat => e.name ≠ [] ∧ '\n' ∉ e.name ∧ (∀ c, e.name.getLast? = some c → isStripped c = false) ∧
      FirstOf shown cat e.name e

section
variable {shown : List KeyEntry} {keys : List SshKeyCacheEntry} {names : List KeyNameEntry}
  {e : KeyEntry}

def sshEntry (ext : Extern) (k : SshKeyCacheEntry) : KeyEntry :=
  { index := k.index, category := .ssh, name := k.name, service := []
    sshPubkeyB64 := ext.base64Encode k.publicKeyBlob }

theorem mem_parseKeyCache : e ∈ parseKeyCache ext keys names ↔
    (∃ n ∈ names, n.category = "otp".toList ∧ nameEntry .otp n = e) ∨
    (∃ n ∈ names, n.category = "api".toList ∧ nameEntry .api n = e) ∨
    ∃ k ∈ keys, sshEntry ext k = e := by
  simp only [parseKeyCache, List.mem_append, List.mem_mergeSort, List.mem_map, List.mem_filter,
    decide_eq_true_eq, and_assoc, or_assoc]
  rfl

/-- The name by which the caches file a category. -/
theorem mem_names {cat : KeyCategory} (hc : cat ≠ .ssh) :
    (e ∈ parseKeyCache ext keys names ∧ e.category = cat) ↔
      ∃ n ∈ names, n.category = cat.wire ∧ nameEntry cat n = e := by
  rw [mem_parseKeyCache]
  constructor
  · rintro ⟨⟨n, hn, hcat, rfl⟩ | ⟨n, hn, hcat, rfl⟩ | ⟨k, hk, rfl⟩, rfl⟩
    · exact ⟨n, hn, hcat, rfl⟩
    · exact ⟨n, hn, hcat, rfl⟩
    · exact absurd rfl hc
  · rintro ⟨n, hn, hcat, rfl⟩
    cases cat with
    | ssh => exact absurd rfl hc
    | otp => exact ⟨.inl ⟨n, hn, hcat, rfl⟩, rfl⟩
    | api => exact ⟨.inr (.inl ⟨n, hn, hcat, rfl⟩), rfl⟩

theorem mem_keys : (e ∈ parseKeyCache ext keys names ∧ e.category = .ssh) ↔
    ∃ k ∈ keys, sshEntry ext k = e := by
  rw [mem_parseKeyCache]
  constructor
  · rintro ⟨⟨n, hn, hcat, rfl⟩ | ⟨n, hn, hcat, rfl⟩ | hk, hs⟩
    · cases hs
    · cases hs
    · exact hk
  · rintro ⟨k, hk, rfl⟩
    exact ⟨.inr (.inr ⟨k, hk, rfl⟩), rfl⟩

/-- The search in a category finds the first entry of a name. -/
theorem firstOf_iff {cat : KeyCategory} {name : Str} {l : List ε} {view : ε → KeyEntry}
    (hl : l.Pairwise fun a b => (view a).index < (view b).index)
    (hm : ∀ e, (e ∈ shown ∧ e.category = cat) ↔ ∃ n ∈ l, view n = e) :
    FirstOf shown cat name e ↔ ∃ n, l.find? (fun n => (view n).name = name) = some n ∧ view n = e := by
  simp only [find?_sorted hl, decide_eq_true_eq]
  constructor
  · rintro ⟨he, hcat, hname, hle⟩
    obtain ⟨n, hn, rfl⟩ := (hm e).mp ⟨he, hcat⟩
    refine ⟨n, ⟨hn, hname, fun a ha hna => ?_⟩, rfl⟩
    obtain ⟨has, hac⟩ := (hm (view a)).mpr ⟨a, ha, rfl⟩
    exact hle (view a) has hac hna
  · rintro ⟨n, ⟨hn, hname, hle⟩, rfl⟩
    obtain ⟨hs, hcat⟩ := (hm (view n)).mpr ⟨n, hn, rfl⟩
    refine ⟨hs, hcat, hname, fun a ha hac hna => ?_⟩
    obtain ⟨m, hm, rfl⟩ := (hm a).mp ⟨ha, hac⟩
    exact hle m hm hna

theorem firstOf_name {cat : KeyCategory} {name : Str} (hc : cat ≠ .ssh)
    (hl : ListedNames cat.wire (names.filter fun n => n.category = cat.wire)) :
    FirstOf (parseKeyCache ext keys names) cat name e ↔
      ∃ n, names.find? (fun n => n.category = cat.wire ∧ n.name = name) = some n ∧
        nameEntry cat n = e := by
  have hfind : names.find? (fun n => n.category = cat.wire ∧ n.name = name) =
      (names.filter fun n => n.category = cat.wire).find? fun n => (nameEntry cat n).name = name := by
    rw [List.find?_filter]
    refine congrArg (names.find? ·) (funext fun n => ?_)
    by_cases hcat : n.category = cat.wire <;> by_cases hn : n.name = name <;>
      simp [nameEntry, hcat, hn]
  rw [hfind]
  refine firstOf_iff hl.sorted fun e => (mem_names hc).trans ?_
  simp only [List.mem_filter, decide_eq_true_eq, and_assoc]

theorem firstOf_key {name : Str} (hl : ListedKeys keys) :
    FirstOf (parseKeyCache ext keys names) .ssh name e ↔
      ∃ k, keys.find? (fun k => k.name = name) = some k ∧ sshEntry ext k = e :=
  @firstOf_iff _ _ _ _ _ _ (sshEntry ext) hl.sorted fun _ => mem_keys

theorem keyIndex_eq_some {cat : KeyCategory} {name : Str} {idx : UInt8} (hc : cat ≠ .ssh)
    (hl : ListedNames cat.wire (names.filter fun n => n.category = cat.wire)) :
    keyIndex names cat.wire name = some idx ↔
      ∃ a, FirstOf (parseKeyCache ext keys names) cat name a ∧ a.index = idx := by
  simp only [firstOf_name hc hl, keyIndex, Option.map_eq_some_iff]
  constructor
  · rintro ⟨n, hn, rfl⟩
    exact ⟨nameEntry cat n, ⟨n, hn, rfl⟩, rfl⟩
  · rintro ⟨_, ⟨n, hn, rfl⟩, rfl⟩
    exact ⟨n, hn, rfl⟩

/-- Two entries of a category with one index are one. -/
theorem eq_of_index {cat : KeyCategory} {a : KeyEntry} (hc : cat ≠ .ssh)
    (hl : ListedNames cat.wire (names.filter fun n => n.category = cat.wire))
    (ha : a ∈ parseKeyCache ext keys names ∧ a.category = cat)
    (he : e ∈ parseKeyCache ext keys names ∧ e.category = cat) (h : a.index = e.index) : a = e := by
  obtain ⟨m, hm, hcm, rfl⟩ := (mem_names hc).mp ha
  obtain ⟨n, hn, hcn, rfl⟩ := (mem_names hc).mp he
  have hmf : m ∈ names.filter fun n => n.category = cat.wire :=
    List.mem_filter.mpr ⟨hm, decide_eq_true hcm⟩
  have hnf : n ∈ names.filter fun n => n.category = cat.wire :=
    List.mem_filter.mpr ⟨hn, decide_eq_true hcn⟩
  obtain ⟨i, hi, rfl⟩ := List.getElem_of_mem hmf
  obtain ⟨j, hj, rfl⟩ := List.getElem_of_mem hnf
  have hlt := List.pairwise_iff_getElem.mp hl.sorted
  obtain hij | rfl | hij := Nat.lt_trichotomy i j
  · exact absurd h (UInt8.ne_of_lt (hlt i j hi hj hij))
  · rfl
  · exact absurd h.symm (UInt8.ne_of_lt (hlt j i hj hi hij))

end

-- ---------------------------------------------------------------------------
-- Asking for an entry
-- ---------------------------------------------------------------------------

/-- The daemon has these caches and has not sent anything yet. -/
structure Host.Has {δ : Type} (s : Sync) (h : Host δ) : Prop where
  sshKeys : h.sshKeys = s.sshKeys
  keyNames : h.keyNames = s.keyNames
  sent : h.sent = []

/-- The request for an entry by the name shown. -/
def KeyEntry.request {σ : Type} (e : KeyEntry) (io : GetIo σ) (ext : Extern) :
    Proc σ (Option Str) := serveGet io ext (getChunk e.category e.name)

/-- The entry's own key, code or value. -/
def Own (v : Vault) (now : Nat) (e : KeyEntry) (reply : Str) : Prop :=
  match e.category with
  | .ssh => ∃ comment, reply = "OK:".toList ++ ("ecdsa-sha2-nistp256 ".toList ++ e.sshPubkeyB64) ++
      " ".toList ++ comment ++ "\n".toList
  | .otp => reply = formatOtpResponse (v.code e.index (u32Le (now / 1000)))
  | .api => reply = decodeApiSecret (v.api e.index) e.name

/-- Asking for the entry by its name brings what it holds, and the device is
asked for no other entry, whatever it answers. -/
structure Gives (ext : Extern) (s : Sync) (e : KeyEntry) : Prop where
  only : ∀ {δ : Type} (dev : Device δ) (h h' : Host δ) (t : Proc (Host δ) (Option Str)),
    h.Has s → (e.request (hostIo dev) ext).Stops h t h' →
      ∀ c ∈ h'.sent, commandIndex c = some e.index
  own : ∀ (v : Vault) (h : Host Bool), h.Has s → h.isConnected = true → h.slotFree = true →
    (e.request (hostIo v.device) ext).Reaches h fun r h' =>
      (∃ reply, r = some reply ∧ Own v h.now e reply) ∧ (e.category ≠ .ssh → Asked e.index h')

section
variable {s : Sync} {e : KeyEntry} {v : Vault}

theorem Sync.Ordered.names {s : Sync} {cat : KeyCategory} (h : s.Ordered) (hc : cat ≠ .ssh) :
    ListedNames cat.wire (s.keyNames.filter fun n => n.category = cat.wire) := by
  cases cat with
  | ssh => exact absurd rfl hc
  | otp => exact h.otp
  | api => exact h.api

/-- Names in the caches are short enough to be asked for. -/
theorem length_shown (hs : s.Ordered) (he : e ∈ parseKeyCache ext s.sshKeys s.keyNames) :
    (getChunk e.category e.name).length < maxRequestBytes := by
  have short : Short e.name := by
    by_cases hc : e.category = .ssh
    · obtain ⟨k, hk, rfl⟩ := mem_keys.mp ⟨he, hc⟩
      exact hs.ssh.all k hk
    · obtain ⟨n, hn, hcat, hv⟩ := (mem_names hc).mp ⟨he, rfl⟩
      have := ((hs.names hc).all n (List.mem_filter.mpr ⟨hn, decide_eq_true hcat⟩)).2
      rwa [← hv]
  exact length_getChunk (Nat.lt_of_le_of_lt short (by decide))

theorem Requestable.of_ne_ssh {shown : List KeyEntry} (hc : e.category ≠ .ssh) :
    Requestable shown e ↔ e.name ≠ [] ∧ askedName e.name = some e.name ∧
      FirstOf shown e.category e.name e := by
  unfold Requestable
  rw [askedName_self, and_assoc]
  cases hcat : e.category with
  | ssh => exact absurd hcat hc
  | otp => rfl
  | api => rfl

/-- For an OTP or API entry the name comes through as it is, and its index is
the one that is found. -/
theorem requestable_iff (hs : s.Ordered) (hc : e.category ≠ .ssh)
    (he : e ∈ parseKeyCache ext s.sshKeys s.keyNames) :
    Requestable (parseKeyCache ext s.sshKeys s.keyNames) e ↔ ∃ asked, asked ≠ [] ∧
      askedName e.name = some asked ∧ keyIndex s.keyNames e.category.wire asked = some e.index := by
  rw [Requestable.of_ne_ssh hc]
  constructor
  · rintro ⟨hne, ha, hf⟩
    exact ⟨e.name, hne, ha, (keyIndex_eq_some hc (hs.names hc)).mpr ⟨e, hf, rfl⟩⟩
  · rintro ⟨asked, hne, ha, hk⟩
    obtain ⟨a, hf, hi⟩ := (keyIndex_eq_some hc (hs.names hc)).mp hk
    obtain rfl := eq_of_index hc (hs.names hc) ⟨hf.mem, hf.category⟩ ⟨he, rfl⟩ hi
    obtain rfl := hf.named
    exact ⟨hne, ha, hf⟩

theorem Requestable.only (hs : s.Ordered) (he : e ∈ parseKeyCache ext s.sshKeys s.keyNames)
    (hr : Requestable (parseKeyCache ext s.sshKeys s.keyNames) e) {δ : Type} {dev : Device δ} :
    OnlyTriple e.index (Host.Has s) (e.request (hostIo dev) ext) fun _ _ => True := by
  have known {A : Host δ → Prop} {β : Type} {a : β} :
      OnlyTriple e.index A (.ret a : Proc (Host δ) β) fun _ _ => True := Solo.ret fun _ _ => trivial
  rw [KeyEntry.request, serveGet_eq (length_shown hs he)]
  cases ha : askedName e.name with
  | none => exact known
  | some asked =>
    cases asked with
    | nil => exact known
    | cons c asked =>
      refine .bind (M := fun _ h => h.keyNames = s.keyNames) (Solo.act fun h b h' hi hh hm => ?_)
        fun connected => Solo.ite (fun _ => known) fun _ => .bind (M := fun _ _ => True) ?_ fun _ => known
      · obtain ⟨rfl, rfl⟩ := Prod.mk.inj (List.mem_singleton.mp hm)
        exact ⟨hi, hh.keyNames⟩
      by_cases hc : e.category = .ssh
      · rw [hc]
        exact Protocol.Triple.pre handleGetSsh_only fun _ _ _ => trivial
      · obtain ⟨asked', -, ha', hk⟩ := (requestable_iff hs hc he).mp hr
        obtain rfl := Option.some.inj (ha.symm.trans ha')
        have leads : Leads s.keyNames e.category.wire (c :: asked) e.index :=
          fun i hi => Option.some.inj (hi.symm.trans hk)
        cases hcat : e.category with
        | ssh => exact absurd hcat hc
        | otp => exact handleGetOtp_only (by rwa [hcat] at leads)
        | api => exact handleGetApi_only (by rwa [hcat] at leads)

theorem Requestable.own (hs : s.Ordered) (he : e ∈ parseKeyCache ext s.sshKeys s.keyNames)
    (hr : Requestable (parseKeyCache ext s.sshKeys s.keyNames) e) {h : Host Bool} (hh : h.Has s)
    (hc : h.isConnected = true) (hfree : h.slotFree = true) :
    (e.request (hostIo v.device) ext).Reaches h fun r h' =>
      (∃ reply, r = some reply ∧ Own v h.now e reply) ∧ (e.category ≠ .ssh → Asked e.index h') := by
  refine (serveGet_reaches (length_shown hs he) hc hfree hh.sent).mono fun r h' hans => ?_
  by_cases hssh : e.category = .ssh
  · rw [Requestable, hssh] at hr
    obtain ⟨asked, ha, hne, a, hf, hkey⟩ := hr
    obtain ⟨k, hk, rfl⟩ := (firstOf_key hs.ssh).mp hf
    obtain ⟨c, asked, rfl⟩ := List.exists_cons_of_ne_nil hne
    rw [ha, hssh] at hans
    simp only [Answered, hh.sshKeys, hk] at hans
    obtain ⟨reply, rfl, rfl, -⟩ := hans
    refine ⟨⟨_, rfl, ?_⟩, fun hn => absurd hssh hn⟩
    rw [Own, hssh]
    exact ⟨k.name, by rw [← hkey]; rfl⟩
  · obtain ⟨asked, hne, ha, hk⟩ := (requestable_iff hs hssh he).mp hr
    obtain rfl := Option.some.inj (ha.symm.trans ((Requestable.of_ne_ssh hssh).mp hr).2.1)
    rw [ha] at hans
    split at hans
    next h => cases h
    next h => exact absurd (Option.some.inj h) hne
    next asked _ h =>
      obtain rfl := Option.some.inj h
      obtain ⟨reply, rfl, hans⟩ := hans
      cases hcat : e.category with
      | ssh => exact absurd hcat hssh
      | otp =>
        rw [hcat] at hk hans
        simp only [Answered, hh.keyNames,
          show keyIndex s.keyNames "otp".toList e.name = some e.index from hk] at hans
        exact ⟨⟨reply, rfl, by rw [Own, hcat]; exact hans.1⟩, fun _ => hans.2⟩
      | api =>
        rw [hcat] at hk hans
        simp only [Answered, hh.keyNames,
          show keyIndex s.keyNames "api".toList e.name = some e.index from hk] at hans
        exact ⟨⟨reply, rfl, by rw [Own, hcat]; exact hans.1⟩, fun _ => hans.2⟩

/-- The indices in the commands of a request tell the entry. -/
theorem Asked.unique {δ : Type} {i j : UInt8} {h : Host δ} (hi : Asked i h) (hj : Asked j h) :
    i = j := by
  obtain ⟨c, hc⟩ := List.exists_mem_of_ne_nil _ hi.1
  exact Option.some.inj ((hi.2 c hc).symm.trans (hj.2 c hc))

/-- The key that the answer to an SSH request shows. -/
theorem key_of_reply {a b comment comment' : Str} (ha : ' ' ∉ a) (hb : ' ' ∉ b)
    (h : "OK:".toList ++ ("ecdsa-sha2-nistp256 ".toList ++ a) ++ " ".toList ++ comment ++
        "\n".toList =
      "OK:".toList ++ ("ecdsa-sha2-nistp256 ".toList ++ b) ++ " ".toList ++ comment' ++
        "\n".toList) : a = b := by
  have hs (a comment : Str) : "OK:".toList ++ ("ecdsa-sha2-nistp256 ".toList ++ a) ++ " ".toList ++
      comment ++ "\n".toList =
        ("OK:".toList ++ "ecdsa-sha2-nistp256 ".toList) ++ (a ++ ' ' :: (comment ++ "\n".toList)) := by
    simp only [List.append_assoc]
    rfl
  rw [hs, hs] at h
  have hcut := congrArg (Str.splitOnce ' ') (List.append_cancel_left h)
  rw [Str.splitOnce_eq_some.mpr ⟨rfl, ha⟩, Str.splitOnce_eq_some.mpr ⟨rfl, hb⟩] at hcut
  exact (Prod.mk.inj (Option.some.inj hcut)).1

theorem Gives.requestable (hb : Base64.Laws ext.base64Encode ext.base64Decode) (hs : s.Ordered)
    (he : e ∈ parseKeyCache ext s.sshKeys s.keyNames) (hg : Gives ext s e) :
    Requestable (parseKeyCache ext s.sshKeys s.keyNames) e := by
  let h : Host Bool := { isConnected := true, sshKeys := s.sshKeys, keyNames := s.keyNames
                         slotFree := true, now := 0, device := true, sent := [] }
  have hh : h.Has s := ⟨rfl, rfl, rfl⟩
  obtain ⟨r, h', -, ⟨⟨reply, rfl, ho⟩, ha⟩, hans⟩ := (hg.own .bare h hh rfl rfl).and
    (serveGet_reaches (length_shown hs he) rfl rfl rfl)
  -- nothing is sent for a name that is not found
  have silent (hc : e.category ≠ .ssh) (heq : h' = h) : False := (ha hc).1 (heq ▸ rfl)
  have refused (hc : e.category = .ssh) (rest : Str) (hr : reply = "ERROR:".toList ++ rest) :
      False := by
    rw [Own, hc, hr] at ho
    obtain ⟨comment, ho⟩ := ho
    exact absurd (List.cons.inj ho).1 (by decide)
  split at hans
  next => cases hans
  next =>
    obtain ⟨hr, heq⟩ := hans
    by_cases hssh : e.category = .ssh
    · exact (refused hssh "USAGE\n" (Option.some.inj hr)).elim
    · exact (silent hssh heq).elim
  next asked hne hname =>
    obtain ⟨reply', hr, hans⟩ := hans
    obtain rfl := Option.some.inj hr
    by_cases hssh : e.category = .ssh
    · rw [hssh] at hans
      rw [Requestable, hssh]
      refine ⟨asked, hname, hne, ?_⟩
      cases hk : h.sshKeys.find? fun k => k.name = asked with
      | none =>
        simp only [Answered, hk] at hans
        exact (refused hssh _ (hans.1.trans (List.append_assoc _ _ _))).elim
      | some k =>
        simp only [Answered, hk] at hans
        rw [Own, hssh] at ho
        obtain ⟨comment, ho⟩ := ho
        refine ⟨sshEntry ext k, (firstOf_key hs.ssh).mpr ⟨k, hk, rfl⟩, ?_⟩
        have plain (bs : Bytes) : ' ' ∉ ext.base64Encode bs :=
          fun hm => absurd (hb.chars bs _ hm) (by decide)
        obtain ⟨k', -, rfl⟩ := mem_keys.mp ⟨he, hssh⟩
        exact key_of_reply (plain _) (plain _) (hans.1.symm.trans ho)
    · refine (requestable_iff hs hssh he).mpr ⟨asked, hne, hname, ?_⟩
      have ha := ha hssh
      cases hcat : e.category with
      | ssh => exact absurd hcat hssh
      | otp =>
        rw [hcat] at hans
        cases hk : keyIndex s.keyNames "otp" asked with
        | none =>
          simp only [Answered, show keyIndex h.keyNames "otp".toList asked = none from hk] at hans
          exact (silent hssh hans.2).elim
        | some idx =>
          simp only [Answered, show keyIndex h.keyNames "otp".toList asked = some idx from hk] at hans
          exact hk.trans (congrArg some (hans.2.unique ha))
      | api =>
        rw [hcat] at hans
        cases hk : keyIndex s.keyNames "api" asked with
        | none =>
          simp only [Answered, show keyIndex h.keyNames "api".toList asked = none from hk] at hans
          exact (silent hssh hans.2).elim
        | some idx =>
          simp only [Answered, show keyIndex h.keyNames "api".toList asked = some idx from hk] at hans
          exact hk.trans (congrArg some (hans.2.unique ha))

theorem gives_iff_requestable (hb : Base64.Laws ext.base64Encode ext.base64Decode)
    (hs : Synced ext content (fun _ => True) s)
    (he : e ∈ parseKeyCache ext s.sshKeys s.keyNames) :
    Gives ext s e ↔ Requestable (parseKeyCache ext s.sshKeys s.keyNames) e := by
  have ho := synced_ordered hs
  refine ⟨Gives.requestable hb ho he, fun hr => ⟨fun dev h h' t hh hst => ?_,
    fun v h hh hc hfree => hr.own ho he hh hc hfree⟩⟩
  exact (hr.only ho he).stops (fun c hc => by rw [hh.sent] at hc; cases hc) hh hst

end

-- ---------------------------------------------------------------------------
-- Two entries of one name
-- ---------------------------------------------------------------------------

/-- With a real base64 codec. -/
def Extern.coded : Extern :=
  { Extern.sample with base64Encode := Base64.encode, base64Decode := Base64.decode }

/-- The same account at two services. -/
def account (idx : UInt8) : KeyNameEntry :=
  { index := idx, category := "otp", name := "u", service := if idx = 0 then "a" else "b" }

def accountEntry (idx : UInt8) : Bytes :=
  padField (account idx).name nameLenOtp ++ padField (account idx).service serviceLenOtp

theorem synced_accounts : ∃ s, Synced .coded (fun _ _ => accountEntry) (fun _ => True) s ∧
    s.keyNames = [account 0, account 1] := by
  have fresh : Synced .coded (fun _ _ => accountEntry) (fun _ => True) .empty := .start
  obtain ⟨s, hs, hp⟩ := fresh.exists_run (p := fun s => s.keyNames == [account 0, account 1])
    (List.replicate 17 0) [.ok [0, 0, 0, 0, 0, 0], .ok [0, 2, 5, 0, 0, 0], .ok [0, 0, 0, 0, 0, 0],
      .ok (0 :: 60 :: 0 :: accountEntry 0), .ok (0 :: 60 :: 0 :: accountEntry 1)]
    (by decide) fun _ _ => trivial
  exact ⟨s, hs, beq_iff_eq.mp hp⟩

theorem account_shown {keys : List SshKeyCacheEntry} {idx : UInt8} (h : idx = 0 ∨ idx = 1) :
    nameEntry .otp (account idx) ∈ parseKeyCache ext keys [account 0, account 1] := by
  refine mem_parseKeyCache.mpr (.inl ⟨account idx, ?_, rfl, rfl⟩)
  obtain rfl | rfl := h
  · exact .head _
  · exact .tail _ (.head _)

theorem account_requestable {keys : List SshKeyCacheEntry} {idx : UInt8} (h : idx = 0 ∨ idx = 1) :
    Requestable (parseKeyCache ext keys [account 0, account 1]) (nameEntry .otp (account idx)) ↔
      idx = 0 := by
  refine ⟨fun hr => ?_, ?_⟩
  · have hle := hr.2.2.2.least _ (account_shown (.inl rfl)) rfl rfl
    obtain h | rfl := h
    · exact h
    · exact absurd hle (by decide)
  · rintro rfl
    refine ⟨by decide, by decide, by decide, account_shown h, rfl, rfl, fun a _ _ _ => ?_⟩
    exact UInt8.le_iff_toNat_le.mpr (Nat.zero_le _)

/-- The first of them can be asked for, the second cannot. -/
theorem gives_account : ∃ s, s.keyNames = [account 0, account 1] ∧
    Gives .coded s (nameEntry .otp (account 0)) ∧ ¬ Gives .coded s (nameEntry .otp (account 1)) := by
  obtain ⟨s, hs, hn⟩ := synced_accounts
  have shown {idx : UInt8} (h : idx = 0 ∨ idx = 1) :
      nameEntry .otp (account idx) ∈ parseKeyCache .coded s.sshKeys s.keyNames :=
    hn ▸ account_shown h
  refine ⟨s, hn, ?_, ?_⟩
  · rw [gives_iff_requestable Base64.laws hs (shown (.inl rfl)), hn]
    exact (account_requestable (.inl rfl)).mpr rfl
  · rw [gives_iff_requestable Base64.laws hs (shown (.inr rfl)), hn]
    exact fun hr => absurd ((account_requestable (.inr rfl)).mp hr) (by decide)

theorem second_account_not_given : ¬ ∀ (ext : Extern) (content : UInt8 → DigestEntry → UInt8 → Bytes)
    (s : Sync) (e : KeyEntry), Base64.Laws ext.base64Encode ext.base64Decode →
      Synced ext content (fun _ => True) s → e ∈ parseKeyCache ext s.sshKeys s.keyNames →
        Gives ext s e := by
  intro h
  obtain ⟨s, hs, hn⟩ := synced_accounts
  have he : nameEntry .otp (account 1) ∈ parseKeyCache .coded s.sshKeys s.keyNames :=
    hn ▸ account_shown (.inr rfl)
  have hr := (h .coded _ s _ Base64.laws hs he).requestable Base64.laws (synced_ordered hs) he
  rw [hn] at hr
  exact absurd ((account_requestable (.inr rfl)).mp hr) (by decide)

end Immurok
