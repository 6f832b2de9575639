import Immurok.Async.Solo
import Immurok.Daemon.Keystore
import Immurok.Daemon.Sound

/-!
# The key cache and its digests

A saved digest vouches for the cached entries of its category. The
synchronisation runs against a device that may answer anything, or nothing,
and may be stopped at any of its steps; the cache is right if the reads of a
run are answered with what its counts announced, and a run is not stopped
between the caches and the digests.
-/

namespace Immurok

open Async

variable {ext : Extern} {content : UInt8 → DigestEntry → UInt8 → Bytes} {α : Type}

-- ---------------------------------------------------------------------------
-- The disk and the device
-- ---------------------------------------------------------------------------

/-- The files, the answers the device still has in store, and what the device
has been heard to say in this run. -/
structure Sync where
  sshKeys : List SshKeyCacheEntry
  keyNames : List KeyNameEntry
  digests : Digests
  answers : List (Except Str Bytes)
  /-- the digest that `KEY_COUNT` last told of a category -/
  told : UInt8 → Option DigestEntry
  /-- every `KEY_READ` was answered with what was told -/
  honest : Bool
  /-- a cache file was written since the digests -/
  sshWritten : Bool
  namesWritten : Bool

/-- Before the first run there are no files. -/
def Sync.empty : Sync :=
  { sshKeys := [], keyNames := [], digests := [], answers := [], told := fun _ => none
    honest := true, sshWritten := false, namesWritten := false }

/-- A run begins. -/
def Sync.begin (answers : List (Except Str Bytes)) (s : Sync) : Sync :=
  { s with answers, told := fun _ => none, honest := true, sshWritten := false, namesWritten := false }

/-- The answer brings a piece of `data` from the offset on. -/
def truthful (data : Bytes) (offset : UInt8) : Except Str Bytes → Bool
  | .ok (status :: total :: _ :: chunk) =>
    status == rspOk && total.toNat == data.length && chunk.isPrefixOf (data.drop offset.toNat)
  | _ => false

/-- A command and its answer. The digest of a category tells its content. -/
def Sync.hear (content : UInt8 → DigestEntry → UInt8 → Bytes) (s : Sync) (answer : Except Str Bytes)
    (cmd : UInt8) (payload : Bytes) : Sync :=
  match payload with
  | [cat] =>
    match cmd == cmdKeyCount, answer.bind parseKeyCount with
    | true, .ok (count, checksum) =>
      { s with told := Function.update s.told cat (some { count, checksum }) }
    | _, _ => s
  | [cat, idx, offset] =>
    if cmd = cmdKeyRead then
      { s with honest := s.honest &&
          (s.told cat).any fun d => truthful (content cat d idx) offset answer }
    else s
  | _ => s

/-- What a run uses; a command without an answer times out. -/
def diskIo (content : UInt8 → DigestEntry → UInt8 → Bytes) : KeyIo Sync where
  send cmd payload := .act (fun s =>
    let answer := s.answers.headD (.error "Response timeout")
    [(answer, { s with answers := s.answers.tail }.hear content answer cmd payload)]) .ret
  loadDigests := .act (fun s => [(s.digests, s)]) .ret
  saveDigests digests := .act (fun s =>
    [(.ok (), { s with digests, sshWritten := false, namesWritten := false }),
      (.error "Write", s)]) .ret
  saveSshKeys sshKeys := .act (fun s =>
    [(.ok (), { s with sshKeys, sshWritten := true }), (.error "Write", s)]) .ret
  loadKeyNames := .act (fun s => [(s.keyNames, s)]) .ret
  saveKeyNames keyNames := .act (fun s =>
    [(.ok (), { s with keyNames, namesWritten := true }), (.error "Write", s)]) .ret

-- ---------------------------------------------------------------------------
-- Right caches
-- ---------------------------------------------------------------------------

/-- The entries that decode among those the digest announces. -/
def decoded {ε : Type} (decode : UInt8 → Bytes → Option ε) (data : UInt8 → Bytes) (n : Nat) :
    List ε :=
  (List.range n).filterMap fun idx => decode (UInt8.ofNat idx) (data (UInt8.ofNat idx))

/-- The digest, where it is one that can be hit, vouches for the keys. -/
def SshMatches (ext : Extern) (content : UInt8 → DigestEntry → UInt8 → Bytes)
    (keys : List SshKeyCacheEntry) (saved : Option DigestEntry) : Prop :=
  ∀ d, saved = some d → d.checksum ≠ 0 →
    keys = decoded (decodeSshEntry ext) (content keyCatSsh d) d.count.toNat

def NamesMatch (content : UInt8 → DigestEntry → UInt8 → Bytes) (cat : UInt8) (catStr : Str)
    (names : List KeyNameEntry) (saved : Option DigestEntry) : Prop :=
  ∀ d, saved = some d → d.checksum ≠ 0 →
    names.filter (fun e => e.category = catStr) =
      decoded (decodeNameEntry cat catStr) (content cat d) d.count.toNat

/-- Every digest vouches for the cache of its category. -/
structure Sync.Matches (ext : Extern) (content : UInt8 → DigestEntry → UInt8 → Bytes) (s : Sync)
    (digests : Digests) : Prop where
  ssh : SshMatches ext content s.sshKeys (digests.get "ssh")
  otp : NamesMatch content keyCatOtp "otp" s.keyNames (digests.get "otp")
  api : NamesMatch content keyCatApi "api" s.keyNames (digests.get "api")

/-- The digest of the category on disk, where it can be hit, is the one that
was told. -/
def Sync.Current (s : Sync) (cat : UInt8) (catStr : Str) : Prop :=
  ∀ d, s.digests.get catStr = some d → d.checksum ≠ 0 → s.told cat = some d

/-- The run may be left here: reads were answered with what was told, and the
digests on disk are not those of older caches. -/
structure Sync.Clean (s : Sync) : Prop where
  honest : s.honest = true
  ssh : s.sshWritten = true → s.Current keyCatSsh "ssh"
  names : s.namesWritten = true → s.Current keyCatOtp "otp" ∧ s.Current keyCatApi "api"

/-- The disks that any number of runs lead to, each left in a state with `ok`. -/
inductive Synced (ext : Extern) (content : UInt8 → DigestEntry → UInt8 → Bytes)
    (ok : Sync → Prop) : Sync → Prop
  | start : Synced ext content ok .empty
  | run {answers : List (Except Str Bytes)} {s s' : Sync} {t : Proc Sync (Except Str Unit)} :
    Synced ext content ok s → (syncSshKeys ext (diskIo content)).Stops (s.begin answers) t s' →
    ok s' → Synced ext content ok s'

-- ---------------------------------------------------------------------------
-- Reading
-- ---------------------------------------------------------------------------

/-- What may be relied on wherever a run is stopped. -/
abbrev CacheTriple (ext : Extern) (content : UInt8 → DigestEntry → UInt8 → Bytes)
    (A : Sync → Prop) (t : Proc Sync α) (B : α → Sync → Prop) : Prop :=
  (solo fun s : Sync => s.Clean → s.Matches ext content s.digests).Triple 0 A t B

variable {A A' : Sync → Prop} {cat idx : UInt8} {d : DigestEntry} {β : Type}

/-- Kept while answers come in, and enough wherever the run is stopped. -/
structure Reads (ext : Extern) (content : UInt8 → DigestEntry → UInt8 → Bytes)
    (A : Sync → Prop) : Prop where
  stops : ∀ s, A s → s.Clean → s.Matches ext content s.digests
  next : ∀ s, A s → A { s with answers := s.answers.tail }
  read : ∀ s b, A s → (b = true → s.honest = true) → A { s with honest := b }

theorem Reads.and {C : Sync → Prop} (hA : Reads ext content A)
    (next : ∀ s, C s → C { s with answers := s.answers.tail })
    (read : ∀ s b, C s → (b = true → s.honest = true) → C { s with honest := b }) :
    Reads ext content fun s => A s ∧ C s where
  stops s h := hA.stops s h.1
  next s h := ⟨hA.next s h.1, next s h.2⟩
  read s b h hb := ⟨hA.read s b h.1 hb, read s b h.2 hb⟩

theorem truthful_spec {data full rsp : Bytes} (hfull : full <+: data) (hlen : full.length ≤ 255)
    (h : truthful data (UInt8.ofNat full.length) (.ok rsp) = true) :
    ∃ total o chunk, rsp = rspOk :: total :: o :: chunk ∧ total.toNat = data.length ∧
      full ++ chunk <+: data := by
  unfold truthful at h
  split at h
  next status total o chunk he =>
    obtain rfl := Except.ok.inj he
    simp only [Bool.and_eq_true, beq_iff_eq, List.isPrefixOf_iff_prefix] at h
    obtain ⟨⟨rfl, ht⟩, hc⟩ := h
    refine ⟨total, o, chunk, rfl, ht, ?_⟩
    rw [UInt8.toNat_ofNat_of_lt' (by simpa using Nat.lt_succ_of_le hlen)] at hc
    obtain ⟨rest, rfl⟩ := hfull
    rw [List.drop_left] at hc
    exact List.prefix_append_right_inj full |>.mpr hc
  next => cases h

/-- Answers to reads tell nothing new, and are truthful where the run stays
honest. -/
theorem sendRead_spec {offset : UInt8} {F : Prop} (hA : Reads ext content A) :
    CacheTriple ext content
      (fun s => (A s ∧ s.told cat = some d) ∧ (s.honest = true → F))
      ((diskIo content).send cmdKeyRead [cat, idx, offset]) fun answer s =>
        (A s ∧ s.told cat = some d) ∧
          (s.honest = true → F ∧ truthful (content cat d idx) offset answer = true) := by
  refine Solo.act fun s answer s' _ ⟨⟨ha, ht⟩, hf⟩ hm => ?_
  obtain ⟨rfl, rfl⟩ := Prod.mk.inj (List.mem_singleton.mp hm)
  have hA' := hA.read _ (s.honest && (s.told cat).any fun d =>
    truthful (content cat d idx) offset (s.answers.headD (.error "Response timeout")))
    (hA.next s ha) fun h => (Bool.and_eq_true_iff.mp h).1
  refine ⟨hA.stops _ hA', ⟨hA', ht⟩, fun h => ?_⟩
  obtain ⟨hh, hany⟩ := Bool.and_eq_true_iff.mp h
  exact ⟨hf hh, by simpa [ht] using hany⟩

theorem readKeyEntry_spec {F : Prop} (hA : Reads ext content A) :
    CacheTriple ext content (fun s => (A s ∧ s.told cat = some d) ∧ (s.honest = true → F))
      (readKeyEntryInner (diskIo content) cat idx) fun r s =>
        (A s ∧ s.told cat = some d) ∧ (s.honest = true → F ∧ r = .ok (content cat d idx)) := by
  refine Protocol.Triple.pre (Solo.repeatFrom (J := fun (full : Bytes) s =>
    (A s ∧ s.told cat = some d) ∧
      (s.honest = true → F ∧ full <+: content cat d idx ∧ full.length ≤ 255)) fun full => ?_)
    fun s _ h => ⟨h.1, fun hh => ⟨h.2 hh, List.nil_prefix, Nat.zero_le _⟩⟩
  refine .bind (sendRead_spec hA) fun answer => ?_
  cases answer with
  | error e => exact Solo.ret fun s h => ⟨h.1, fun hh => nomatch (h.2 hh).2⟩
  | ok rsp =>
    have known {s : Sync} (h : s.honest = true →
        (F ∧ full <+: content cat d idx ∧ full.length ≤ 255) ∧
          truthful (content cat d idx) (UInt8.ofNat full.length) (.ok rsp) = true)
        (hh : s.honest = true) := truthful_spec (h hh).1.2.1 (h hh).1.2.2 (h hh).2
    dsimp only
    split
    next status total o chunk =>
      refine Solo.ite (fun hs => ?_) fun hs => ?_
      · refine Solo.ret fun s h => ⟨h.1, fun hh => ?_⟩
        obtain ⟨_, _, _, he, -⟩ := known h.2 hh
        exact absurd (List.cons.inj he).1 hs
      · refine Solo.ite (fun hle => ?_) fun hlt => ?_
        · refine Solo.ret fun s h => ⟨h.1, fun hh => ⟨(h.2 hh).1.1, ?_⟩⟩
          obtain ⟨_, _, _, he, ht, hp⟩ := known h.2 hh
          obtain ⟨-, rfl, rfl, rfl⟩ : _ ∧ total = _ ∧ o = _ ∧ chunk = _ := by simpa using he
          have hfull := hp.eq_of_length_le (ht ▸ hle)
          rw [hfull, ht, List.take_length]
        · refine Solo.ret fun s h => ⟨h.1, fun hh => ⟨(h.2 hh).1.1, ?_⟩⟩
          obtain ⟨_, _, _, he, ht, hp⟩ := known h.2 hh
          obtain ⟨-, rfl, rfl, rfl⟩ : _ ∧ total = _ ∧ o = _ ∧ chunk = _ := by simpa using he
          have := total.toNat_lt
          exact ⟨hp, by omega⟩
    next hne =>
      refine Solo.ret fun s h => ⟨h.1, fun hh => ?_⟩
      obtain ⟨_, _, _, rfl, -⟩ := known h.2 hh
      exact absurd rfl (hne _ _ _ _)

/-- What a step that may fail leaves where it does not. -/
def Yields (M : α → Sync → Prop) (r : Except Str α) (s : Sync) : Prop := ∀ a, r = .ok a → M a s

theorem Yields.ok {M : α → Sync → Prop} {a : α} {s : Sync} (h : M a s) : Yields M (.ok a) s :=
  fun _ he => Except.ok.inj he ▸ h

section
variable {ε : Type} {decode : UInt8 → Bytes → Option ε}

theorem decoded_succ {data : UInt8 → Bytes} {n : Nat} : decoded decode data (n + 1) =
    decoded decode data n ++ (decode (UInt8.ofNat n) (data (UInt8.ofNat n))).toList := by
  rw [decoded, decoded, List.range_succ, List.filterMap_append]
  cases h : decode (UInt8.ofNat n) (data (UInt8.ofNat n)) <;> simp [h]

/-- What a category is found to hold. -/
def Holds (content : UInt8 → DigestEntry → UInt8 → Bytes) (decode : UInt8 → Bytes → Option ε)
    (A : Sync → Prop) (cat : UInt8) (d : DigestEntry) (entries : List ε) (s : Sync) : Prop :=
  (A s ∧ s.told cat = some d) ∧
    (s.honest = true → entries = decoded decode (content cat d) d.count.toNat)

/-- An honest run reads what the count announced. -/
theorem readEntries_spec (hA : Reads ext content A) :
    CacheTriple ext content (fun s => A s ∧ s.told cat = some d)
      (readEntries (diskIo content) cat d.count decode) (Yields (Holds content decode A cat d)) := by
  refine Protocol.Triple.pre (Solo.repeatFrom (J := fun (j : Nat × List ε) s =>
    ((A s ∧ s.told cat = some d) ∧
      (s.honest = true → j.2 = decoded decode (content cat d) j.1)) ∧
        j.1 ≤ d.count.toNat) fun ⟨idx, entries⟩ => ?_)
    fun s _ h => ⟨⟨h, fun _ => rfl⟩, Nat.zero_le _⟩
  dsimp only
  refine Solo.ite (fun hle => ?_) fun hlt => ?_
  · refine Solo.ret fun s ⟨⟨h, he⟩, hidx⟩ => Yields.ok ⟨h, fun hh => ?_⟩
    rw [he hh, Nat.le_antisymm hidx hle]
  · refine .bind (Protocol.Triple.pre (readKeyEntry_spec hA) fun s _ h => h.1) fun r => ?_
    cases r with
    | ok data =>
      refine Solo.ret fun s ⟨h, hr⟩ => ⟨⟨h, fun hh => ?_⟩, Nat.lt_of_not_le hlt⟩
      obtain ⟨he, hd⟩ := hr hh
      cases hd
      rw [decoded_succ, he]
    | error e =>
      exact Solo.ret fun s ⟨h, hr⟩ => ⟨⟨h, fun hh => nomatch (hr hh).2⟩, Nat.lt_of_not_le hlt⟩

end

-- ---------------------------------------------------------------------------
-- Counting
-- ---------------------------------------------------------------------------

/-- Kept when a category is counted. -/
def Counts (A : Sync → Prop) (cat : UInt8) : Prop :=
  ∀ s d, A s → A { s with told := Function.update s.told cat (some d) }

theorem Yields.tryThen {I : Sync → Prop} {M : α → Sync → Prop} {N : β → Sync → Prop}
    {t : Proc Sync (Except Str α)} {k : α → Proc Sync (Except Str β)}
    (ht : (solo I).Triple 0 A t (Yields M))
    (hk : ∀ a, (solo I).Triple 0 (M a) (k a) (Yields N)) :
    (solo I).Triple 0 A (tryThen t k) (Yields N) := by
  refine .bind ht fun r => ?_
  cases r with
  | ok a => exact (hk a).pre fun s _ h => h a rfl
  | error e => exact Solo.ret fun s _ b hb => nomatch hb

theorem Counts.told {cat' : UInt8} {d' : DigestEntry} (h : Counts A cat) (hne : cat' ≠ cat) :
    Counts (fun s => A s ∧ s.told cat' = some d') cat := by
  refine fun s d hs => ⟨h s d hs.1, ?_⟩
  rw [← hs.2]
  exact Function.update_of_ne hne _ _

theorem getKeyCount_spec (hA : Reads ext content A) (hc : Counts A cat) :
    CacheTriple ext content A (getKeyCountInner (diskIo content) cat)
      (Yields fun d s => A s ∧ s.told cat = some ⟨d.1, d.2⟩) := by
  refine Yields.tryThen (M := fun rsp s => A s ∧
    ∀ d, parseKeyCount rsp = .ok d → s.told cat = some ⟨d.1, d.2⟩) ?_ fun rsp =>
      Solo.ret fun s h d hd => ⟨h.1, h.2 d hd⟩
  refine Solo.act fun s answer s' _ ha hm => ?_
  obtain ⟨rfl, rfl⟩ := Prod.mk.inj (List.mem_singleton.mp hm)
  have ha' := hA.next s ha
  generalize s.answers.headD (.error "Response timeout") = answer
  simp only [Sync.hear, beq_self_eq_true]
  cases hp : answer.bind parseKeyCount with
  | error e =>
    refine ⟨hA.stops _ ha', fun rsp he => ⟨ha', fun d hd => ?_⟩⟩
    rw [he, Except.bind, hd] at hp
    cases hp
  | ok d =>
    have ha'' := hc _ ⟨d.1, d.2⟩ ha'
    refine ⟨hA.stops _ ha'', fun rsp he => ⟨ha'', fun d' hd => ?_⟩⟩
    rw [he, Except.bind, hd] at hp
    cases hp
    simp

-- ---------------------------------------------------------------------------
-- The digests
-- ---------------------------------------------------------------------------

theorem Digests.get_insert {g : Digests} {c : Str} : (g.insert c d).get c = some d := by
  simp [Digests.get, Digests.insert]

theorem Digests.get_insert_ne {g : Digests} {c c' : Str} (h : c' ≠ c) :
    (g.insert c d).get c' = g.get c' := by
  rw [Digests.get, Digests.insert, List.lookup_cons, beq_false_of_ne h, Digests.get]
  induction g with
  | nil => rfl
  | cons p g ih =>
    obtain ⟨k, e⟩ := p
    by_cases hk : k = c
    · rw [List.filter_cons_of_neg (by simpa using hk), List.lookup_cons,
        beq_false_of_ne (hk ▸ h)]
      exact ih
    · rw [List.filter_cons_of_pos (by simpa using hk), List.lookup_cons, List.lookup_cons]
      cases hb : c' == k
      · exact ih
      · rfl

theorem digestHit_iff {saved : Option DigestEntry} {n : UInt8} {k : Nat} :
    digestHit saved n k = true ↔ k ≠ 0 ∧ saved = some ⟨n, k⟩ := by
  cases saved with
  | none => simp [digestHit]
  | some e =>
    cases e
    simp [digestHit]

-- ---------------------------------------------------------------------------
-- The parts
-- ---------------------------------------------------------------------------

variable {saved fresh : Digests} {s : Sync}

/-- Nothing was written yet. -/
structure Kept (ext : Extern) (content : UInt8 → DigestEntry → UInt8 → Bytes) (saved : Digests)
    (s : Sync) : Prop where
  digests : s.digests = saved
  right : s.Matches ext content saved
  ssh : s.sshWritten = false
  names : s.namesWritten = false

/-- The SSH keys are the ones of the fresh digest; the digests still are the
saved ones. -/
structure SshDone (ext : Extern) (content : UInt8 → DigestEntry → UInt8 → Bytes)
    (saved fresh : Digests) (s : Sync) : Prop where
  digests : s.digests = saved
  old : s.sshWritten = false → SshMatches ext content s.sshKeys (saved.get "ssh")
  told : s.sshWritten = true → s.told keyCatSsh = fresh.get "ssh"
  new : s.honest = true → SshMatches ext content s.sshKeys (fresh.get "ssh")
  otp : fresh.get "otp" = saved.get "otp"
  api : fresh.get "api" = saved.get "api"

/-- Nor were the names written. -/
structure NamesKept (content : UInt8 → DigestEntry → UInt8 → Bytes) (saved : Digests)
    (s : Sync) : Prop where
  names : s.namesWritten = false
  otp : NamesMatch content keyCatOtp "otp" s.keyNames (saved.get "otp")
  api : NamesMatch content keyCatApi "api" s.keyNames (saved.get "api")

theorem Kept.reads : Reads ext content (Kept ext content saved) where
  stops _ h _ := h.digests ▸ h.right
  next _ h := ⟨h.digests, ⟨h.right.ssh, h.right.otp, h.right.api⟩, h.ssh, h.names⟩
  read _ _ h _ := ⟨h.digests, ⟨h.right.ssh, h.right.otp, h.right.api⟩, h.ssh, h.names⟩

theorem Kept.counts : Counts (Kept ext content saved) cat := fun _ _ h =>
  ⟨h.digests, ⟨h.right.ssh, h.right.otp, h.right.api⟩, h.ssh, h.names⟩

theorem SshDone.ssh (h : SshDone ext content saved fresh s) (hc : s.Clean) :
    SshMatches ext content s.sshKeys (s.digests.get "ssh") := by
  cases hw : s.sshWritten with
  | false => exact h.digests ▸ h.old hw
  | true =>
    intro d hd hk
    exact h.new hc.honest d (h.told hw ▸ hc.ssh hw d hd hk) hk

/-- Where the SSH part is done and the names are as they were. -/
def Halfway (ext : Extern) (content : UInt8 → DigestEntry → UInt8 → Bytes)
    (saved fresh : Digests) (s : Sync) : Prop :=
  SshDone ext content saved fresh s ∧ NamesKept content saved s

theorem Halfway.matches (h : Halfway ext content saved fresh s) (hc : s.Clean) :
    s.Matches ext content s.digests :=
  ⟨h.1.ssh hc, h.1.digests ▸ h.2.otp, h.1.digests ▸ h.2.api⟩

theorem Halfway.reads : Reads ext content (Halfway ext content saved fresh) where
  stops _ h := h.matches
  next _ h := ⟨⟨h.1.digests, h.1.old, h.1.told, h.1.new, h.1.otp, h.1.api⟩, h.2.names, h.2.otp, h.2.api⟩
  read _ _ h hb := ⟨⟨h.1.digests, h.1.old, h.1.told, fun hh => h.1.new (hb hh), h.1.otp, h.1.api⟩,
    h.2.names, h.2.otp, h.2.api⟩

theorem Halfway.counts (hne : cat ≠ keyCatSsh) : Counts (Halfway ext content saved fresh) cat :=
  fun s d h => ⟨⟨h.1.digests, h.1.old, fun hw =>
    (Function.update_of_ne hne.symm (some d) s.told).trans (h.1.told hw), h.1.new, h.1.otp, h.1.api⟩,
    h.2.names, h.2.otp, h.2.api⟩

theorem syncSsh_spec : CacheTriple ext content (Kept ext content saved)
    (syncSsh ext (diskIo content) saved saved)
    (Yields fun fresh => Halfway ext content saved fresh) := by
  refine Yields.tryThen (getKeyCount_spec Kept.reads Kept.counts) fun ⟨count, checksum⟩ => ?_
  refine Solo.ite (fun _ => ?_) fun _ => ?_
  · refine Solo.ret fun s ⟨h, _⟩ => Yields.ok ⟨⟨h.digests, fun _ => h.right.ssh, fun hw => ?_,
      fun _ => h.right.ssh, rfl, rfl⟩, h.names, h.right.otp, h.right.api⟩
    rw [h.ssh] at hw
    cases hw
  · refine Yields.tryThen (readEntries_spec Kept.reads (d := ⟨count, checksum⟩)) fun entries => ?_
    refine Yields.tryThen (M := fun _ => Halfway ext content saved
      (saved.insert "ssh" ⟨count, checksum⟩)) (Solo.act fun s r s' hi ⟨⟨h, ht⟩, he⟩ hm => ?_)
      fun _ => Solo.ret fun s h => Yields.ok h
    obtain hm | hm := List.mem_pair.mp hm <;> obtain ⟨rfl, rfl⟩ := Prod.mk.inj hm
    · have half : Halfway ext content saved (saved.insert "ssh" ⟨count, checksum⟩)
          { s with sshKeys := entries, sshWritten := true } := by
        refine ⟨⟨h.digests, (nomatch ·), fun _ => ?_, fun hh d hd _ => ?_,
          Digests.get_insert_ne (by decide), Digests.get_insert_ne (by decide)⟩,
          h.names, h.right.otp, h.right.api⟩
        · rw [Digests.get_insert]
          exact ht
        · rw [Digests.get_insert] at hd
          cases hd
          exact he hh
      exact ⟨half.matches, Yields.ok half⟩
    · exact ⟨hi, fun _ hr => nomatch hr⟩

theorem decoded_category {catStr : Str} {data : UInt8 → Bytes} {n : Nat} :
    ∀ e ∈ decoded (decodeNameEntry cat catStr) data n, e.category = catStr := by
  intro e he
  obtain ⟨idx, -, hd⟩ := List.mem_filterMap.mp he
  obtain ⟨-, hd⟩ := Option.ite_none_left_eq_some.mp hd
  exact Option.some.inj hd ▸ rfl

/-- One category of names, from the file or from the device. -/
theorem nameEntries_spec {cached : List KeyNameEntry} {hit : Bool} {catStr : Str}
    (hA : Reads ext content A)
    (hhit : hit = true → NamesMatch content cat catStr cached (some d) ∧ d.checksum ≠ 0) :
    CacheTriple ext content (fun s => A s ∧ s.told cat = some d)
      (nameEntries (diskIo content) cached hit cat d.count catStr)
      (Yields (Holds content (decodeNameEntry cat catStr) A cat d)) := by
  refine Solo.ite (fun hb => ?_) fun _ => readEntries_spec hA
  exact Solo.ret fun s h => Yields.ok ⟨h, fun _ => (hhit hb).1 d rfl (hhit hb).2⟩

/-- Of the entries of two categories, those of each. -/
theorem filter_categories {c₁ c₂ : Str} {e₁ e₂ : List KeyNameEntry} (hne : c₁ ≠ c₂)
    (h₁ : ∀ e ∈ e₁, e.category = c₁) (h₂ : ∀ e ∈ e₂, e.category = c₂) :
    (e₁ ++ e₂).filter (fun e => e.category = c₁) = e₁ ∧
      (e₁ ++ e₂).filter (fun e => e.category = c₂) = e₂ := by
  have keep {c : Str} {l : List KeyNameEntry} (h : ∀ e ∈ l, e.category = c) :
      l.filter (fun e => e.category = c) = l :=
    List.filter_eq_self.mpr fun e he => decide_eq_true (h e he)
  have drop {c c' : Str} {l : List KeyNameEntry} (h : ∀ e ∈ l, e.category = c) (hne : c ≠ c') :
      l.filter (fun e => e.category = c') = [] :=
    List.filter_eq_nil_iff.mpr fun e he hc => hne ((h e he).symm.trans (of_decide_eq_true hc))
  rw [List.filter_append, List.filter_append, keep h₁, drop h₂ hne.symm, drop h₁ hne, keep h₂,
    List.append_nil, List.nil_append]
  exact ⟨rfl, rfl⟩

/-- The names written last are those of both digests. -/
theorem namesMatch_append {cat₁ cat₂ : UInt8} {c₁ c₂ : Str} {d₁ d₂ : DigestEntry}
    {e₁ e₂ : List KeyNameEntry} (hne : c₁ ≠ c₂)
    (h₁ : e₁ = decoded (decodeNameEntry cat₁ c₁) (content cat₁ d₁) d₁.count.toNat)
    (h₂ : e₂ = decoded (decodeNameEntry cat₂ c₂) (content cat₂ d₂) d₂.count.toNat) :
    NamesMatch content cat₁ c₁ (e₁ ++ e₂) (some d₁) ∧
      NamesMatch content cat₂ c₂ (e₁ ++ e₂) (some d₂) := by
  obtain ⟨hf₁, hf₂⟩ := filter_categories hne (h₁ ▸ decoded_category) (h₂ ▸ decoded_category)
  refine ⟨fun d hd _ => ?_, fun d hd _ => ?_⟩ <;> cases hd
  · exact hf₁.trans h₁
  · exact hf₂.trans h₂

/-- The fresh digests may be saved. -/
structure Saveable (ext : Extern) (content : UInt8 → DigestEntry → UInt8 → Bytes)
    (fresh : Digests) (s : Sync) : Prop where
  stops : s.Clean → s.Matches ext content s.digests
  new : s.honest = true → s.Matches ext content fresh

/-- Both categories of names were counted. -/
def Counted (ext : Extern) (content : UInt8 → DigestEntry → UInt8 → Bytes)
    (saved fresh : Digests) (otp api : DigestEntry) (s : Sync) : Prop :=
  (Halfway ext content saved fresh s ∧ s.told keyCatOtp = some otp) ∧ s.told keyCatApi = some api

theorem Counted.reads {otp api : DigestEntry} :
    Reads ext content (Counted ext content saved fresh otp api) :=
  (Halfway.reads.and (fun _ => id) fun _ _ h _ => h).and (fun _ => id) fun _ _ h _ => h

theorem Counted.saveable {otp api : DigestEntry} (h : Counted ext content saved fresh otp api s)
    {otpEntries apiEntries : List KeyNameEntry}
    (ho : s.honest = true → otpEntries =
      decoded (decodeNameEntry keyCatOtp "otp") (content keyCatOtp otp) otp.count.toNat)
    (ha : s.honest = true → apiEntries =
      decoded (decodeNameEntry keyCatApi "api") (content keyCatApi api) api.count.toNat) :
    Saveable ext content ((fresh.insert "otp" otp).insert "api" api)
      { s with keyNames := otpEntries ++ apiEntries, namesWritten := true } := by
  obtain ⟨⟨⟨hs, -⟩, hto⟩, hta⟩ := h
  have names (hh : s.honest = true) := namesMatch_append (show ("otp" : Str) ≠ "api" by decide)
    (ho hh) (ha hh)
  refine ⟨fun hc => ⟨?_, fun d hd hk => ?_, fun d hd hk => ?_⟩, fun hh => ⟨?_, ?_, ?_⟩⟩
  · exact hs.ssh ⟨hc.honest, hc.ssh, fun hw => hc.names rfl⟩
  · have ht := (hc.names rfl).1 d hd hk
    exact (names hc.honest).1 d (hto.symm.trans ht) hk
  · have ht := (hc.names rfl).2 d hd hk
    exact (names hc.honest).2 d (hta.symm.trans ht) hk
  · rw [Digests.get_insert_ne (by decide), Digests.get_insert_ne (by decide)]
    exact hs.new hh
  · rw [Digests.get_insert_ne (by decide), Digests.get_insert]
    exact (names hh).1
  · rw [Digests.get_insert]
    exact (names hh).2

theorem syncNames_spec : CacheTriple ext content (Halfway ext content saved fresh)
    (syncNames (diskIo content) saved fresh) (Yields (Saveable ext content)) := by
  refine Yields.tryThen (getKeyCount_spec Halfway.reads (Halfway.counts (by decide)))
    fun ⟨otpCount, otpChecksum⟩ => ?_
  refine Yields.tryThen (getKeyCount_spec (Halfway.reads.and (fun _ => id) fun _ _ h _ => h)
    ((Halfway.counts (by decide)).told (by decide))) fun ⟨apiCount, apiChecksum⟩ => ?_
  refine Solo.ite (fun hb => ?_) fun _ => ?_
  · refine Solo.ret fun s ⟨⟨h, _⟩, _⟩ => Yields.ok ⟨h.matches, fun hh => ⟨h.1.new hh, ?_, ?_⟩⟩
    · exact h.1.otp ▸ h.2.otp
    · exact h.1.api ▸ h.2.api
  refine .bind (M := fun cached s => Counted ext content saved fresh ⟨otpCount, otpChecksum⟩
    ⟨apiCount, apiChecksum⟩ s ∧ s.keyNames = cached) (Solo.act fun s r s' hi h hm => ?_)
    fun cached s hi ⟨h, hcached⟩ => ?_
  · obtain ⟨rfl, rfl⟩ := Prod.mk.inj (List.mem_singleton.mp hm)
    exact ⟨hi, h, rfl⟩
  subst hcached
  -- a hit takes the names from the file, which the saved digest vouches for
  have otpHit (hb : digestHit (saved.get "otp") otpCount otpChecksum = true) :
      NamesMatch content keyCatOtp "otp" s.keyNames (some ⟨otpCount, otpChecksum⟩) ∧
        otpChecksum ≠ 0 := by
    obtain ⟨hk, hs⟩ := digestHit_iff.mp hb
    exact ⟨hs ▸ h.1.1.2.otp, hk⟩
  have apiHit (hb : digestHit (saved.get "api") apiCount apiChecksum = true) :
      NamesMatch content keyCatApi "api" s.keyNames (some ⟨apiCount, apiChecksum⟩) ∧
        apiChecksum ≠ 0 := by
    obtain ⟨hk, hs⟩ := digestHit_iff.mp hb
    exact ⟨hs ▸ h.1.1.2.api, hk⟩
  refine Yields.tryThen (nameEntries_spec (d := ⟨otpCount, otpChecksum⟩) Counted.reads otpHit)
    (fun otpEntries => ?_) s hi ⟨h, h.1.2⟩
  refine Yields.tryThen (M := fun apiEntries s => Counted ext content saved fresh
      ⟨otpCount, otpChecksum⟩ ⟨apiCount, apiChecksum⟩ s ∧
      (s.honest = true → otpEntries = decoded (decodeNameEntry keyCatOtp "otp")
        (content keyCatOtp ⟨otpCount, otpChecksum⟩) otpCount.toNat) ∧
      (s.honest = true → apiEntries = decoded (decodeNameEntry keyCatApi "api")
        (content keyCatApi ⟨apiCount, apiChecksum⟩) apiCount.toNat)) ?_ fun apiEntries => ?_
  · have counted : Reads ext content (Counted ext content saved fresh ⟨otpCount, otpChecksum⟩
      ⟨apiCount, apiChecksum⟩) := Counted.reads
    have reads := counted.and
        (C := fun s => s.honest = true → otpEntries = decoded (decodeNameEntry keyCatOtp "otp")
          (content keyCatOtp ⟨otpCount, otpChecksum⟩) otpCount.toNat) (fun _ => id)
        fun s b h hb hh => h (hb hh)
    refine Protocol.Triple.conseq (nameEntries_spec (d := ⟨apiCount, apiChecksum⟩) reads apiHit)
      (fun s _ h => ⟨⟨h.1.1, h.2⟩, h.1.1.2⟩) fun r s _ h entries he => ?_
    obtain ⟨⟨⟨hc, ho⟩, -⟩, ha⟩ := h entries he
    exact ⟨hc, ho, ha⟩
  · refine Yields.tryThen (M := fun _ => Saveable ext content
      ((fresh.insert "otp" ⟨otpCount, otpChecksum⟩).insert "api" ⟨apiCount, apiChecksum⟩))
      (Solo.act fun s r s' hi ⟨h, ho, ha⟩ hm => ?_) fun _ => Solo.ret fun s h => Yields.ok h
    obtain hm | hm := List.mem_pair.mp hm <;> obtain ⟨rfl, rfl⟩ := Prod.mk.inj hm
    · exact ⟨(h.saveable ho ha).stops, Yields.ok (h.saveable ho ha)⟩
    · exact ⟨hi, fun _ hr => nomatch hr⟩

-- ---------------------------------------------------------------------------
-- Whole runs
-- ---------------------------------------------------------------------------

theorem syncSshKeys_spec : CacheTriple ext content (Kept ext content saved)
    (syncSshKeys ext (diskIo content)) fun _ _ => True := by
  refine .bind (M := fun saved => Kept ext content saved) (Solo.act fun s r s' hi h hm => ?_)
    fun saved => ?_
  · obtain ⟨rfl, rfl⟩ := Prod.mk.inj (List.mem_singleton.mp hm)
    exact ⟨hi, rfl, h.digests ▸ h.right, h.ssh, h.names⟩
  refine Protocol.Triple.post (Yields.tryThen syncSsh_spec fun fresh =>
    Yields.tryThen syncNames_spec fun fresh =>
      (?_ : CacheTriple ext content _ _ (Yields fun _ _ => True))) fun _ _ _ _ => trivial
  refine .bind (M := fun _ _ => True) (Solo.act fun s r s' hi h hm => ?_) fun _ =>
    Solo.ret fun _ _ _ _ => trivial
  obtain hm | hm := List.mem_pair.mp hm <;> obtain ⟨rfl, rfl⟩ := Prod.mk.inj hm
  · refine ⟨fun hc => ?_, trivial⟩
    obtain ⟨ssh, otp, api⟩ := h.new hc.honest
    exact ⟨ssh, otp, api⟩
  · exact ⟨hi, trivial⟩

theorem synced_matches (h : Synced ext content Sync.Clean s) : s.Matches ext content s.digests := by
  induction h with
  | start => exact ⟨fun _ hd => (nomatch hd), fun _ hd => (nomatch hd), fun _ hd => (nomatch hd)⟩
  | @run answers s s' t _ hs hok ih =>
    have kept : Kept ext content s.digests (s.begin answers) :=
      ⟨rfl, ⟨ih.ssh, ih.otp, ih.api⟩, rfl, rfl⟩
    exact syncSshKeys_spec.stops (fun _ => kept.right) kept hs hok

/-- A run carried out with these outcomes, and left where `p` holds. -/
theorem Synced.exists_run {ok : Sync → Prop} {p : Sync → Bool} (ns : List Nat)
    (answers : List (Except Str Bytes)) (h : Synced ext content ok s)
    (hp : (Proc.follow ns (syncSshKeys ext (diskIo content)) (s.begin answers)).any
      (fun q => p q.2) = true) (hok : ∀ s', p s' = true → ok s') :
    ∃ s', Synced ext content ok s' ∧ p s' = true := by
  obtain ⟨⟨t, s'⟩, hf, hp⟩ := (Option.any_eq_true _ _).mp hp
  exact ⟨s', .run h (.of_follow .start hf) (hok s' hp), hp⟩

/-- The device holds one OTP entry. -/
def oneOtp : UInt8 → DigestEntry → UInt8 → Bytes := fun _ _ _ => List.replicate 30 65

def countOtp : List (Except Str Bytes) :=
  [.ok [0, 0, 0, 0, 0, 0], .ok [0, 1, 5, 0, 0, 0], .ok [0, 0, 0, 0, 0, 0]]

theorem synced_matches_otp : ∃ s : Sync, s.Matches .sample oneOtp s.digests ∧
    s.digests.get "otp" = some ⟨1, 5⟩ ∧ s.keyNames.length = 1 := by
  have fresh : Synced .sample oneOtp Sync.Clean .empty := .start
  obtain ⟨s, hs, hp⟩ := fresh.exists_run (p := fun s => s.honest && !s.sshWritten &&
      !s.namesWritten && (s.digests.get "otp" == some ⟨1, 5⟩ && s.keyNames.length == 1))
    (List.replicate 14 0) (countOtp ++ [.ok (0 :: 30 :: 0 :: List.replicate 30 65)])
    (by decide) fun s h => by
      simp only [Bool.and_eq_true, Bool.not_eq_true'] at h
      exact ⟨h.1.1.1, fun hw => absurd hw (by simp [h.1.1.2]), fun hw => absurd hw (by simp [h.1.2])⟩
  simp only [Bool.and_eq_true, beq_iff_eq] at hp
  exact ⟨s, synced_matches hs, hp.2⟩

/-- An entry that could not be read is missing, and its digest is saved. -/
theorem unread_entry_hit : ¬ ∀ s, Synced .sample oneOtp (fun _ => True) s →
    s.Matches .sample oneOtp s.digests := by
  intro h
  have fresh : Synced .sample oneOtp (fun _ => True) .empty := .start
  obtain ⟨s, hs, hp⟩ := fresh.exists_run
    (p := fun s => s.digests.get "otp" == some ⟨1, 5⟩ && s.keyNames.length == 0)
    (List.replicate 14 0) countOtp (by decide) fun _ _ => trivial
  simp only [Bool.and_eq_true, beq_iff_eq, List.length_eq_zero_iff] at hp
  have hm := (h s hs).otp ⟨1, 5⟩ hp.1 (by decide)
  rw [hp.2] at hm
  exact absurd hm (by decide)

end Immurok
