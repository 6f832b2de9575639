import Immurok.Async.Solo
import Immurok.Client.Planning
import Immurok.Firmware

/-!
# Updating a device

An update in two hops leaves the second package behind before it begins with
it, so that a client that is stopped on the way can go on with it later. The
record of it and the package are two files, written one after the other.
-/

namespace Immurok

open Async

-- ---------------------------------------------------------------------------
-- The files
-- ---------------------------------------------------------------------------

/-- What a file with a record is read as. -/
inductive Stored (α : Type)
  | value (a : α)
  /-- text that is no such record -/
  | corrupt
  /-- no text at all -/
  | unreadable
  deriving DecidableEq

structure LastCheck where
  checkedAt : Nat
  manifestJson : Str
  deriving DecidableEq

structure PendingHop where
  targetVersion : Str
  bridgeVersion : Str
  deriving DecidableEq

/-- The files of the client, those being written among them. Packages in the
cache are named by their digests. -/
structure FwStore where
  lastCheck : Option (Stored LastCheck)
  lastCheckTmp : Option LastCheck
  cache : Str → Option Bytes
  cacheTmp : Str → Option Bytes
  pending : Option (Stored PendingHop)
  pendingTmp : Option PendingHop
  package : Option Bytes
  packageTmp : Option Bytes

/-- What the daemon, the device and the servers answer from here on, each in
turn, and the time. -/
structure Answers where
  statuses : List (Except Str Str)
  bodies : List (Except Str Str)
  downloads : List (Except Str Bytes)
  transfers : List (Except FwUpdateError Unit)
  versions : List (Except Str Str)
  now : Nat

/-- `manifests` is auxiliary: those that were decoded so far. -/
structure Fw where
  store : FwStore
  answers : Answers
  manifests : List UpdateManifest

abbrev Upd (α : Type) := Proc Fw α

def Fw.onStore (f : FwStore → FwStore) (s : Fw) : Fw := { s with store := f s.store }

/-- The next of the answers; when there is none, `e`. -/
def nextAnswer (get : Answers → List (Except ε α)) (set : List (Except ε α) → Answers → Answers)
    (e : ε) : Upd (Except ε α) :=
  Proc.atomically fun s =>
    match get s.answers with
    | [] => (.error e, s)
    | a :: rest => (a, { s with answers := set rest s.answers })

/-- Written beside the file and then renamed. -/
def atomicWrite (write rename : FwStore → FwStore) : Upd Unit := do
  Proc.modify (Fw.onStore write)
  Proc.modify (Fw.onStore rename)

/-- The functions of the libraries. -/
structure FwExtern where
  fromJson : Str → Except Str UpdateManifest
  sha256Hex : Bytes → Str

-- ---------------------------------------------------------------------------
-- The manifest
-- ---------------------------------------------------------------------------

def checkInterval : Nat := 24 * 3600

def FwStore.loadLastCheck (f : FwStore) : Option LastCheck :=
  match f.lastCheck with
  | some (.value lc) => some lc
  | _ => none

def saveLastCheck (lc : LastCheck) : Upd Unit :=
  atomicWrite (fun f => { f with lastCheckTmp := some lc })
    fun f => { f with lastCheck := f.lastCheckTmp.map .value, lastCheckTmp := none }

def FwStore.isCheckDue (f : FwStore) (now : Nat) : Bool :=
  match f.loadLastCheck with
  | some lc => decide (checkInterval ≤ now - lc.checkedAt)
  | none => true

/-- The manifest kept from the last check, while it is fresh. -/
def cachedManifest (ext : FwExtern) (force : Bool) (now : Nat) : Upd (Option UpdateManifest) :=
  Proc.get fun s =>
    if force || s.store.isCheckDue now then none
    else s.store.loadLastCheck.bind fun lc => (decodeManifest ext.fromJson lc.manifestJson).toOption

def fetchManifestBody : Upd (Except FwUpdateError Str) := do
  let body ← nextAnswer (·.bodies) (fun l a => { a with bodies := l }) "connection failed".toList
  pure (body.mapError .manifestFetch)

/-- A manifest in hand. -/
def haveManifest (m : UpdateManifest) : Upd Unit :=
  Proc.modify fun s => { s with manifests := m :: s.manifests }

def fetchManifestCached (ext : FwExtern) (force : Bool) (now : Nat) :
    Upd (Except FwUpdateError UpdateManifest) := do
  match ← cachedManifest ext force now with
  | some m => do
    haveManifest m
    pure (.ok m)
  | none =>
    match ← fetchManifestBody with
    | .error e => pure (.error e)
    | .ok body =>
      match decodeManifest ext.fromJson body with
      | .error e => pure (.error (.manifestSchema e.message))
      | .ok m => do
        haveManifest m
        saveLastCheck { checkedAt := now, manifestJson := body }
        pure (.ok m)

-- ---------------------------------------------------------------------------
-- The pending hop
-- ---------------------------------------------------------------------------

def clearPending : Upd Unit := do
  Proc.modify (Fw.onStore fun f => { f with pending := none })
  Proc.modify (Fw.onStore fun f => { f with package := none })

def loadPending : Upd (Option PendingHop) := do
  match ← Proc.get (·.store.pending) with
  | some (.value hop) => pure (some hop)
  | some .corrupt => do
    clearPending
    pure none
  | _ => pure none

/-- The package first, and then the record of it. -/
def savePending (hop : PendingHop) (package : Bytes) : Upd Unit := do
  atomicWrite (fun f => { f with packageTmp := some package })
    fun f => { f with package := f.packageTmp, packageTmp := none }
  atomicWrite (fun f => { f with pendingTmp := some hop })
    fun f => { f with pending := f.pendingTmp.map .value, pendingTmp := none }

-- ---------------------------------------------------------------------------
-- The device
-- ---------------------------------------------------------------------------

structure FwDeviceStatus where
  connected : Bool
  battery : UInt8
  version : Str
  deriving DecidableEq

/-- `STATUS:connected:name:battery:version`. -/
def parseDeviceStatus (resp : Str) : Except FwUpdateError FwDeviceStatus :=
  let parts := resp.splitOn ':'
  if parts.headD [] ≠ "STATUS".toList ∨ parts.length < 5 then
    .error (.preflight ("unexpected STATUS response: ".toList ++ resp))
  else
    .ok { connected := parts.getD 1 [] = "1".toList
          battery := (Str.parseU8 (parts.getD 3 [])).toOption.getD 0
          version := parts.getD 4 [] }

def queryDeviceStatus : Upd (Except FwUpdateError FwDeviceStatus) := do
  match ← nextAnswer (·.statuses) (fun l a => { a with statuses := l })
      "connection refused".toList with
  | .error e => pure (.error (.preflight e))
  | .ok resp => pure (parseDeviceStatus resp)

-- ---------------------------------------------------------------------------
-- Preparing
-- ---------------------------------------------------------------------------

/-- What `pending.json` decides for a device: the answer of `prepare`, or
`none` to plan from the manifest. -/
def resumePending (device : Str) : Upd (Option (Option PreparedUpdate)) := do
  match ← loadPending with
  | none => pure none
  | some p =>
    match FirmwareVersion.parse device, FirmwareVersion.parse p.targetVersion,
        FirmwareVersion.parse p.bridgeVersion with
    | some dev, some tgt, bri =>
      if tgt ≤ dev then do
        clearPending
        pure (some none)
      else if bri.any (dev < ·) then do
        -- the bridge did not land
        clearPending
        pure none
      else do
        let packageExists ← Proc.get (·.store.package.isSome)
        if bri.isSome && packageExists then
          pure (some (some
            { deviceVersion := device, targetVersion := p.targetVersion, notes := none
              hops := [{ label := "final", version := tgt.text, source := .pendingFile }]
              resumed := true }))
        else do
          clearPending
          pure none
    | _, _, _ => do
      clearPending
      pure none

/-- The plan from the manifest; `version` is what the device reported. -/
def planFrom (version : Str) (m : UpdateManifest) :
    Except FwUpdateError (Option PreparedUpdate) :=
  let device := normalizeSemver version
  match plan device m.latest.version m.latest.minDirect with
  | .upToDate => .ok none
  | .unknown =>
    .error (.preflight ("cannot parse device firmware version '".toList ++ version ++ "'".toList))
  | p => do
    let hops ← hopsFor p m
    .ok (some { deviceVersion := device, targetVersion := (hops.getLast?.map (·.version)).getD []
                notes := m.latest.notes, hops, resumed := false })

def prepare (ext : FwExtern) (force : Bool) :
    Upd (Except FwUpdateError (Option PreparedUpdate)) := do
  match ← queryDeviceStatus with
  | .error e => pure (.error e)
  | .ok st =>
    if !st.connected then pure (.error (.preflight "device not connected"))
    else do
      match ← resumePending (normalizeSemver st.version) with
      | some r => pure (.ok r)
      | none => do
        let now ← Proc.get (·.answers.now)
        match ← fetchManifestCached ext force now with
        | .error e => pure (.error e)
        | .ok m => pure (planFrom st.version m)

-- ---------------------------------------------------------------------------
-- Executing
-- ---------------------------------------------------------------------------

def eqIgnoreAsciiCase (a b : Str) : Bool := a.map Char.toLower = b.map Char.toLower

/-- The package downloaded before, if it is still what its name says. -/
def cachedPackage (ext : FwExtern) (sha256 : Str) : Upd (Option Bytes) := do
  match ← Proc.get (·.store.cache sha256) with
  | none => pure none
  | some d =>
    if eqIgnoreAsciiCase (ext.sha256Hex d) sha256 then pure (some d)
    else do
      Proc.modify (Fw.onStore fun f => { f with cache := Function.update f.cache sha256 none })
      pure none

def download (ext : FwExtern) (sha256 : Str) : Upd (Except FwUpdateError Bytes) := do
  match ← nextAnswer (·.downloads) (fun l a => { a with downloads := l })
      "connection failed".toList with
  | .error e => pure (.error (.download e))
  | .ok d =>
    if !eqIgnoreAsciiCase (ext.sha256Hex d) sha256 then pure (.error .sha256Mismatch)
    else pure (.ok d)

def storePackage (sha256 : Str) (d : Bytes) : Upd Unit :=
  atomicWrite (fun f => { f with cacheTmp := Function.update f.cacheTmp sha256 (some d) })
    fun f => { f with
      cache := Function.update f.cache sha256 (f.cacheTmp sha256)
      cacheTmp := Function.update f.cacheTmp sha256 none }

/-- From the cache, or from the server. -/
def fetchPackage (ext : FwExtern) (sha256 : Str) : Upd (Except FwUpdateError Bytes) := do
  match ← cachedPackage ext sha256 with
  | some d => pure (.ok d)
  | none =>
    match ← download ext sha256 with
    | .error e => pure (.error e)
    | .ok d => do
      storePackage sha256 d
      pure (.ok d)

def readPackage (ext : FwExtern) : HopSource → Upd (Except FwUpdateError Bytes)
  | .pendingFile => do
    match ← Proc.get (·.store.package) with
    | some d => pure (.ok d)
    | none => pure (.error (.store "No such file or directory (os error 2)"))
  | .remote _ sha256 => fetchPackage ext sha256

def loadPackage (ext : FwExtern) (hop : Hop) : Upd (Except FwUpdateError Bytes) := do
  match ← readPackage ext hop.source with
  | .error e => pure (.error e)
  | .ok d =>
    match Imfw.parse d with
    | .error e => pure (.error (.packageInvalid e.message))
    | .ok _ => pure (.ok d)

/-- The package of every hop, before the first is sent. -/
def loadPackages (ext : FwExtern) : List Hop → Upd (Except FwUpdateError (List (Hop × Bytes)))
  | [] => pure (.ok [])
  | hop :: hops => do
    match ← loadPackage ext hop with
    | .error e => pure (.error e)
    | .ok d =>
      match ← loadPackages ext hops with
      | .error e => pure (.error e)
      | .ok rest => pure (.ok ((hop, d) :: rest))

/-- The package sent over `OTA:`, with one retry. -/
def pushWithRetry : Upd (Except FwUpdateError Unit) :=
  nextAnswer (·.transfers) (fun l a => { a with transfers := l })
    (.transfer "connect" "connection refused")

/-- The device reports the version, or a later one. -/
def isVersion (tgt : FirmwareVersion) : Except Str Str → Bool
  | .error _ => false
  | .ok resp =>
    ((Str.stripPrefix "OK:" (Str.trim resp)).bind fun raw =>
      FirmwareVersion.parse (normalizeSemver (Str.trim raw))).any (tgt ≤ ·)

/-- The device is asked once a second, until the time is over. -/
def waitForVersion (target : Str) : Upd (Except FwUpdateError Unit) :=
  match FirmwareVersion.parse (normalizeSemver target) with
  | none => pure (.error (.preflight ("bad target version '".toList ++ target ++ "'".toList)))
  | some tgt => Proc.loop do
    let resp ← nextAnswer (·.versions) (fun l a => { a with versions := l })
      "connection refused".toList
    if isVersion tgt resp then pure (some (.ok ()))
    else do
      let timeout ← Proc.choose [false, true]
      pure (if timeout then some (.error (.reconnectTimeout target)) else none)

def pushHop (hop : Hop) : Upd (Except FwUpdateError Unit) := do
  match ← pushWithRetry with
  | .error e => pure (.error e)
  | .ok () => waitForVersion hop.version

/-- Between two hops the second is left behind. -/
def keepNext (hop : Hop) : List (Hop × Bytes) → Upd Unit
  | [] => pure ()
  | (fin, package) :: _ =>
    savePending { targetVersion := fin.version, bridgeVersion := hop.version } package

def pushHops : List (Hop × Bytes) → Upd (Except FwUpdateError Unit)
  | [] => pure (.ok ())
  | (hop, _) :: rest => do
    match ← pushHop hop with
    | .error e => pure (.error e)
    | .ok () => do
      keepNext hop rest
      pushHops rest

def batteryMinPercent : UInt8 := 30

def execute (ext : FwExtern) (prep : PreparedUpdate) : Upd (Except FwUpdateError Unit) := do
  match ← queryDeviceStatus with
  | .error e => pure (.error e)
  | .ok st =>
    if !st.connected then pure (.error (.preflight "device not connected"))
    else if st.battery < batteryMinPercent then pure (.error .lowBattery)
    else
      match ← loadPackages ext prep.hops with
      | .error e => pure (.error e)
      | .ok packages =>
        match ← pushHops packages with
        | .error e => pure (.error e)
        | .ok () => do
          clearPending
          pure (.ok ())

-- ---------------------------------------------------------------------------
-- Runs
-- ---------------------------------------------------------------------------

/-- A plan is carried out, again as long as the user asks for it. -/
def executeAll (ext : FwExtern) (prep : PreparedUpdate) : Upd Unit :=
  Proc.loop do
    let again ← Proc.choose [true, false]
    if again then do
      let _ ← execute ext prep
      pure none
    else pure (some ())

def update (ext : FwExtern) (force : Bool) : Upd Unit := do
  match ← prepare ext force with
  | .ok (some prep) => executeAll ext prep
  | _ => pure ()

def Fw.begin (answers : Answers) (s : Fw) : Fw := { s with answers }

/-- What the files come to in any number of runs, each stopped at any step. -/
inductive Fw.Reached (ext : FwExtern) : Fw → Prop
  | start {s : Fw} : s.store.pending = none → s.manifests = [] → Reached ext s
  | run {s s' : Fw} {force : Bool} {answers : Answers} {t : Upd Unit} :
    Reached ext s → (update ext force).Stops (s.begin answers) t s' → Reached ext s'

-- ---------------------------------------------------------------------------
-- What the two files say
-- ---------------------------------------------------------------------------

/-- The package of an asset, whole. -/
def Asset.IsPackage (ext : FwExtern) (a : Asset) (d : Bytes) : Prop :=
  eqIgnoreAsciiCase (ext.sha256Hex d) a.sha256 = true ∧ ∃ pkg, Imfw.parse d = .ok pkg

/-- The part of the state that the two files and the manifests are. -/
structure Left where
  pending : Option (Stored PendingHop)
  package : Option Bytes
  manifests : List UpdateManifest

def Fw.left (s : Fw) : Left :=
  { pending := s.store.pending, package := s.store.package, manifests := s.manifests }

/-- The record can be read, and the package beside it is the complete package
of the version that the record names. -/
def Left.Kept (ext : FwExtern) (l : Left) : Prop :=
  ∀ p, l.pending = some p → ∃ h m d, p = .value h ∧ m ∈ l.manifests ∧
    h.targetVersion = m.latest.version ∧ m.gate.isSome ∧ l.package = some d ∧
    m.latest.IsPackage ext d

/-- What `prepare` has to find for going on with an update. -/
def Left.Resumable (l : Left) (device : Str) : Prop :=
  ∃ h dev tgt bri, l.pending = some (.value h) ∧ FirmwareVersion.parse device = some dev ∧
    FirmwareVersion.parse h.targetVersion = some tgt ∧
    FirmwareVersion.parse h.bridgeVersion = some bri ∧ bri ≤ dev ∧ dev < tgt ∧ l.package.isSome

variable {ext : FwExtern} {force : Bool} {s s' : Fw} {α β ε : Type}

/-- A triple of a client that nobody interferes with: wherever it is stopped
the two files are kept. -/
def UpdTriple (ext : FwExtern) (A : Left → Prop) (t : Upd α) (B : α → Left → Prop) : Prop :=
  (solo fun s : Fw => s.left.Kept ext).Triple 0 (fun s => A s.left) t fun a s => B a s.left

variable {A A' : Left → Prop} {B B' : α → Left → Prop}

namespace UpdTriple

theorem ret {a : α} (h : ∀ l, l.Kept ext → A l → B a l) : UpdTriple ext A (.ret a) B :=
  Protocol.Triple.ret solo_stable fun s => h s.left

theorem bind {t : Upd β} {g : β → Upd α} {C : β → Left → Prop} (h : UpdTriple ext A t C)
    (hg : ∀ b, UpdTriple ext (C b) (g b) B) : UpdTriple ext A (t.bind g) B :=
  Protocol.Triple.bind h hg

theorem pre {t : Upd α} (h : UpdTriple ext A t B) (hA : ∀ l, l.Kept ext → A' l → A l) :
    UpdTriple ext A' t B :=
  Protocol.Triple.pre h fun s => hA s.left

theorem post {t : Upd α} (h : UpdTriple ext A t B) (hB : ∀ a l, l.Kept ext → B a l → B' a l) :
    UpdTriple ext A t B' :=
  Protocol.Triple.post h fun a s => hB a s.left

theorem act {f : Fw → List (α × Fw)}
    (h : ∀ s a s', s.left.Kept ext → A s.left → (a, s') ∈ f s → s'.left.Kept ext ∧ B a s'.left) :
    UpdTriple ext A (.act f .ret) B :=
  Solo.act h

theorem modify {f : Fw → Fw} {B : Unit → Left → Prop}
    (h : ∀ s : Fw, s.left.Kept ext → A s.left → (f s).left.Kept ext ∧ B () (f s).left) :
    UpdTriple ext A (Proc.modify f) B :=
  act fun s a s' hi ha hm => by
    obtain ⟨-, rfl⟩ := Prod.mk.inj (List.mem_singleton.mp hm)
    exact h s hi ha

theorem get {f : Fw → α} (h : ∀ s : Fw, s.left.Kept ext → A s.left → B (f s) s.left) :
    UpdTriple ext A (Proc.get f) B :=
  act fun s a s' hi ha hm => by
    obtain ⟨rfl, rfl⟩ := Prod.mk.inj (List.mem_singleton.mp hm)
    exact ⟨hi, h _ hi ha⟩

theorem loop {body : Upd (Option α)} (h : UpdTriple ext A body fun r l => r.elim (A l) (B · l)) :
    UpdTriple ext A (Proc.loop body) B := by
  refine Solo.loop (J := fun s : Fw => A s.left) (B := fun a s => B a s.left) ?_
  exact h

/-- What is known apart from the state. -/
theorem known {q : Prop} {t : Upd α} (h : q → UpdTriple ext A t B) :
    UpdTriple ext (fun l => A l ∧ q) t B :=
  fun s hi ⟨ha, hq⟩ => h hq s hi ha

end UpdTriple

/-- Code that leaves the two files and the manifests alone. -/
def LeavesFiles (ext : FwExtern) (t : Upd α) : Prop :=
  ∀ A : Left → Prop, UpdTriple ext A t fun _ => A

namespace LeavesFiles

theorem ret {a : α} : LeavesFiles ext (.ret a : Upd α) := fun _ => .ret fun _ _ => id

theorem bind {t : Upd β} {g : β → Upd α} (h : LeavesFiles ext t) (hg : ∀ b, LeavesFiles ext (g b)) :
    LeavesFiles ext (t.bind g) :=
  fun A => .bind (h A) fun b => hg b A

theorem ite {p : Prop} [Decidable p] {t u : Upd α} (ht : LeavesFiles ext t)
    (hu : LeavesFiles ext u) : LeavesFiles ext (if p then t else u) := by
  split
  · exact ht
  · exact hu

theorem act {f : Fw → List (α × Fw)} (h : ∀ s a s', (a, s') ∈ f s → s'.left = s.left) :
    LeavesFiles ext (.act f .ret) :=
  fun A => .act fun s a s' hi ha hm => by
    rw [h s a s' hm]
    exact ⟨hi, ha⟩

theorem get {f : Fw → α} : LeavesFiles ext (Proc.get f) := fun _ => .get fun _ _ => id

theorem modify {f : Fw → Fw} (h : ∀ s, (f s).left = s.left) : LeavesFiles ext (Proc.modify f) :=
  fun _ => .modify fun s hi ha => by
    rw [h s]
    exact ⟨hi, ha⟩

theorem choose {as : List α} : LeavesFiles ext (Proc.choose as) := .act fun s a s' hm => by
  obtain ⟨_, -, he⟩ := List.mem_map.mp hm
  obtain ⟨-, rfl⟩ := Prod.mk.inj he
  rfl

theorem loop {body : Upd (Option α)} (h : LeavesFiles ext body) :
    LeavesFiles ext (Proc.loop body) :=
  fun A => .loop ((h A).post fun r l _ ha => by cases r <;> exact ha)

theorem nextAnswer {get : Answers → List (Except ε α)}
    {set : List (Except ε α) → Answers → Answers} {e : ε} :
    LeavesFiles ext (nextAnswer get set e) := .act fun s a s' hm => by
  replace hm := List.mem_singleton.mp hm
  dsimp only at hm
  split at hm
  · obtain ⟨-, rfl⟩ := Prod.mk.inj hm
    rfl
  · obtain ⟨-, rfl⟩ := Prod.mk.inj hm
    rfl

end LeavesFiles

/-- Nothing is seen of a file before it is renamed. -/
theorem atomicWrite_spec {write rename : FwStore → FwStore} {B : Left → Prop}
    (hw : ∀ s : Fw, (s.onStore write).left = s.left)
    (hr : ∀ s : Fw, s.left.Kept ext → A s.left →
      ((s.onStore write).onStore rename).left.Kept ext ∧
        B ((s.onStore write).onStore rename).left) :
    UpdTriple ext A (atomicWrite write rename) fun _ => B := by
  refine Protocol.Triple.bind
    (M := fun _ s => ∃ s₀ : Fw, s₀.left.Kept ext ∧ A s₀.left ∧ s = s₀.onStore write)
    (Solo.act fun s a s' hi ha hm => ?_) fun _ => Solo.act fun s a s' hi hm hm' => ?_
  · obtain ⟨-, rfl⟩ := Prod.mk.inj (List.mem_singleton.mp hm)
    exact ⟨by rwa [hw s], s, hi, ha, rfl⟩
  · obtain ⟨s₀, hi₀, ha, rfl⟩ := hm
    obtain ⟨-, rfl⟩ := Prod.mk.inj (List.mem_singleton.mp hm')
    exact hr s₀ hi₀ ha

theorem atomicWrite_leavesFiles {write rename : FwStore → FwStore}
    (hw : ∀ s : Fw, (s.onStore write).left = s.left)
    (hr : ∀ s : Fw, ((s.onStore write).onStore rename).left = s.left) :
    LeavesFiles ext (atomicWrite write rename) := fun A => atomicWrite_spec hw fun s hi ha => by
  rw [hr s]
  exact ⟨hi, ha⟩

theorem queryDeviceStatus_leavesFiles : LeavesFiles ext queryDeviceStatus :=
  .bind .nextAnswer fun answer => by cases answer <;> exact .ret

theorem fetchManifestBody_leavesFiles : LeavesFiles ext fetchManifestBody :=
  .bind .nextAnswer fun _ => .ret

theorem saveLastCheck_leavesFiles {lc : LastCheck} : LeavesFiles ext (saveLastCheck lc) :=
  atomicWrite_leavesFiles (fun _ => rfl) fun _ => rfl

theorem storePackage_leavesFiles {sha256 : Str} {d : Bytes} :
    LeavesFiles ext (storePackage sha256 d) :=
  atomicWrite_leavesFiles (fun _ => rfl) fun _ => rfl

theorem waitForVersion_leavesFiles {target : Str} : LeavesFiles ext (waitForVersion target) := by
  unfold waitForVersion
  split
  · exact .ret
  · exact .loop (.bind .nextAnswer fun _ => .ite .ret (.bind .choose fun _ => .ret))

theorem pushHop_leavesFiles {hop : Hop} : LeavesFiles ext (pushHop hop) :=
  .bind .nextAnswer fun answer => by
    cases answer with
    | error e => exact .ret
    | ok _ => exact waitForVersion_leavesFiles

-- ---------------------------------------------------------------------------
-- Preparing
-- ---------------------------------------------------------------------------

/-- The status that a client gets first. -/
def Answers.status (a : Answers) : Except FwUpdateError FwDeviceStatus :=
  match a.statuses with
  | [] => .error (.preflight "connection refused")
  | .error e :: _ => .error (.preflight e)
  | .ok resp :: _ => parseDeviceStatus resp

/-- The version of the connected device. -/
def Answers.device (a : Answers) : Option Str :=
  match a.status with
  | .ok st => if st.connected then some (normalizeSemver st.version) else none
  | .error _ => none

variable {l l₀ : Left} {device : Str} {m : UpdateManifest} {p prep : PreparedUpdate}

/-- With no record there is nothing to keep. -/
theorem Left.Kept.of_none (h : l.pending = none) : l.Kept ext := fun p hp => by
  rw [h] at hp
  cases hp

/-- The record goes first, so that no step leaves it without its package. -/
theorem clearPending_spec {M : List UpdateManifest → Prop} :
    UpdTriple ext (fun l => M l.manifests) clearPending fun _ l =>
      M l.manifests ∧ l.pending = none :=
  .bind (C := fun _ l => M l.manifests ∧ l.pending = none)
    (.modify fun _ _ hm => ⟨.of_none rfl, hm, rfl⟩) fun _ =>
      .modify fun _ _ ⟨hm, hp⟩ => ⟨.of_none hp, hm, hp⟩

/-- The record, or none where there is none in the end. -/
def Left.Loaded (l₀ : Left) : Option PendingHop → Left → Prop
  | some h, l => l = l₀ ∧ l₀.pending = some (.value h)
  | none, l => l.manifests = l₀.manifests ∧ l.pending = none ∧
    ∀ h, l₀.pending ≠ some (.value h)

theorem loadPending_spec : UpdTriple ext (· = l₀) loadPending l₀.Loaded := by
  refine .bind (C := fun found l => l = l₀ ∧ l₀.pending = found)
    (.get fun s _ hl => ⟨hl, hl ▸ rfl⟩) fun found => ?_
  split
  next h => exact .ret fun l _ hl => hl
  next =>
    refine .bind ((clearPending_spec (M := fun ms => ms = l₀.manifests ∧
      ∀ h, l₀.pending ≠ some (.value h))).pre ?_) fun _ => .ret ?_
    · rintro l - ⟨rfl, hp⟩
      exact ⟨rfl, fun h => by simp [hp]⟩
    · rintro l - ⟨⟨hm, hno⟩, hp⟩
      exact ⟨hm, hp, hno⟩
  next found hvalue hcorrupt =>
    refine .ret fun l hk ⟨hl, hp⟩ => ?_
    subst hl
    have hnone : l.pending = none := by
      cases hpend : l.pending with
      | none => rfl
      | some q =>
        -- what the client has written it can read
        obtain ⟨h, m, d, rfl, -⟩ := hk q hpend
        exact absurd (hp.symm.trans hpend) (hvalue h)
    exact ⟨rfl, hnone, fun h => by simp [hnone]⟩

/-- What `pending.json` decides. -/
def Left.Decided (l₀ : Left) (device : Str) : Option (Option PreparedUpdate) → Left → Prop
  | some (some p), l =>
    l = l₀ ∧ l₀.Resumable device ∧ p.deviceVersion = device ∧ p.resumed = true ∧
      ∃ m ∈ l.manifests, p.From m
  | _, l => ¬ l₀.Resumable device ∧ l.manifests = l₀.manifests ∧ l.pending = none

/-- The record that is there is of no use, and it is dropped. -/
theorem clear_decided {r : Option (Option PreparedUpdate)} (hr : ∀ p, r ≠ some (some p))
    (h : ¬ l₀.Resumable device) :
    UpdTriple ext (· = l₀) (clearPending.bind fun _ => .ret r) (l₀.Decided device) := by
  refine .bind ((clearPending_spec (M := (· = l₀.manifests))).pre ?_) fun _ => .ret ?_
  · rintro l - rfl
    rfl
  · rintro l - ⟨hm, hp⟩
    unfold Left.Decided
    split
    next p => exact absurd rfl (hr p)
    next => exact ⟨h, hm, hp⟩

/-- The record that is there decides whether the update can go on. -/
theorem resumable_iff {h : PendingHop} (hp : l₀.pending = some (.value h)) :
    l₀.Resumable device ↔ ∃ dev tgt bri, FirmwareVersion.parse device = some dev ∧
      FirmwareVersion.parse h.targetVersion = some tgt ∧
      FirmwareVersion.parse h.bridgeVersion = some bri ∧ bri ≤ dev ∧ dev < tgt ∧
      l₀.package.isSome := by
  constructor
  · rintro ⟨h', dev, tgt, bri, hp', hrest⟩
    cases hp.symm.trans hp'
    exact ⟨dev, tgt, bri, hrest⟩
  · rintro ⟨dev, tgt, bri, hrest⟩
    exact ⟨h, dev, tgt, bri, hp, hrest⟩

/-- The update that goes on is one of the manifest it was planned from. -/
theorem resumed_from {h : PendingHop} {tgt dev : FirmwareVersion} (hk : l.Kept ext)
    (hp : l.pending = some (.value h)) (hd : FirmwareVersion.parse device = some dev)
    (ht : FirmwareVersion.parse h.targetVersion = some tgt) (hlt : dev < tgt) :
    ∃ m ∈ l.manifests, PreparedUpdate.From m
      { deviceVersion := device, targetVersion := h.targetVersion, notes := none
        hops := [{ label := "final", version := tgt.text, source := .pendingFile }]
        resumed := true } := by
  obtain ⟨h', m, d, hv, hm, hver, hgate, -⟩ := hk _ hp
  cases hv
  rw [hver] at ht
  exact ⟨m, hm, (if_pos rfl).mpr ⟨dev, tgt, hd, ht, hlt, hgate, rfl⟩⟩

theorem resumePending_spec : UpdTriple ext (· = l₀) (resumePending device) (l₀.Decided device) := by
  refine .bind loadPending_spec fun found => ?_
  cases found with
  | none =>
    refine .ret fun l _ ⟨hm, hp, hno⟩ => ⟨?_, hm, hp⟩
    rintro ⟨h, _, _, _, hh, -⟩
    exact hno h hh
  | some h =>
    refine .known fun hpend => ?_
    have hres : l₀.Resumable device ↔ _ := resumable_iff hpend
    dsimp only
    split
    next dev tgt hd ht =>
      have same {dev' : FirmwareVersion} (hd' : FirmwareVersion.parse device = some dev') :
          dev' = dev := Option.some.inj (hd'.symm.trans hd)
      split
      next hle =>
        refine clear_decided (by simp) fun hr => ?_
        obtain ⟨dev', tgt', _, hd', ht', -, -, hlt, -⟩ := hres.mp hr
        rw [same hd', Option.some.inj (ht'.symm.trans ht)] at hlt
        exact not_lt.mpr hle hlt
      next hlt =>
        split
        next hbelow =>
          refine clear_decided (by simp) fun hr => ?_
          obtain ⟨dev', _, bri, hd', -, hb, hle, -⟩ := hres.mp hr
          rw [hb, Option.any_some, decide_eq_true_eq, ← same hd'] at hbelow
          exact not_lt.mpr hle hbelow
        next hbelow =>
          refine .bind (C := fun found l => l = l₀ ∧ found = l₀.package.isSome)
            (.get fun s _ hl => ⟨hl, hl ▸ rfl⟩) fun found => .known fun hfound => ?_
          split
          next hgo =>
            rw [Bool.and_eq_true, hfound] at hgo
            obtain ⟨bri, hb⟩ := Option.isSome_iff_exists.mp hgo.1
            rw [hb, Option.any_some, decide_eq_true_eq, not_lt] at hbelow
            refine .ret fun l hk hl => ⟨hl, ?_, rfl, rfl, ?_⟩
            · exact hres.mpr ⟨dev, tgt, bri, hd, ht, hb, hbelow, not_le.mp hlt, hgo.2⟩
            · exact resumed_from hk (hl ▸ hpend) hd ht (not_le.mp hlt)
          next hno =>
            refine clear_decided (by simp) fun hr => hno ?_
            obtain ⟨_, _, bri, -, -, hb, -, -, hpack⟩ := hres.mp hr
            rw [hb, hfound, hpack]
            rfl
    next hno =>
      refine clear_decided (by simp) fun hr => ?_
      obtain ⟨dev, tgt, bri, hd, ht, hb, -⟩ := hres.mp hr
      exact hno dev tgt hd ht

/-- A fresh plan is the one of its manifest. -/
theorem planFrom_ok {version : Str} (h : planFrom version m = .ok (some p)) :
    p.deviceVersion = normalizeSemver version ∧ p.resumed = false ∧ p.From m := by
  unfold planFrom at h
  dsimp only at h
  split at h
  next => cases h
  next => cases h
  next hbehind hknown =>
    cases hh : hopsFor (plan (normalizeSemver version) m.latest.version m.latest.minDirect) m with
    | error e => simp [hh, bind, Except.bind] at h
    | ok hops =>
      simp only [hh, bind, Except.bind, Except.ok.injEq, Option.some.injEq] at h
      subst h
      have hne := (hopsFor_ne_nil hh).mpr ⟨hknown, hbehind⟩
      exact ⟨rfl, rfl, (if_neg (by simp)).mpr ⟨hh, hne⟩⟩

theorem haveManifest_spec : UpdTriple ext (·.pending = none) (haveManifest m) fun _ l =>
    l.pending = none ∧ m ∈ l.manifests :=
  .modify fun _ _ hp => ⟨.of_none hp, hp, .head _⟩

theorem fetchManifestCached_spec {now : Nat} :
    UpdTriple ext (·.pending = none) (fetchManifestCached ext force now) fun r l =>
      l.pending = none ∧ ∀ m, r = .ok m → m ∈ l.manifests := by
  refine .bind (LeavesFiles.get _) fun found => ?_
  cases found with
  | some m =>
    exact .bind haveManifest_spec fun _ => .ret fun l _ ⟨hp, hm⟩ =>
      ⟨hp, fun _ he => Except.ok.inj he ▸ hm⟩
  | none =>
    refine .bind (fetchManifestBody_leavesFiles _) fun body => ?_
    cases body with
    | error e => exact .ret fun l _ hp => ⟨hp, by simp⟩
    | ok body =>
      dsimp only
      split
      next => exact .ret fun l _ hp => ⟨hp, by simp⟩
      next m hm =>
        exact .bind haveManifest_spec fun _ => .bind (saveLastCheck_leavesFiles _) fun _ =>
          .ret fun l _ ⟨hp, hm⟩ => ⟨hp, fun _ he => Except.ok.inj he ▸ hm⟩

theorem queryDeviceStatus_spec {a : Answers} : (solo fun s : Fw => s.left.Kept ext).Triple 0
    (fun s => s.left = l₀ ∧ s.answers = a) queryDeviceStatus
    fun r s => s.left = l₀ ∧ r = a.status := by
  refine Protocol.Triple.bind (M := fun answer s => s.left = l₀ ∧
    a.status = match answer with
      | .error e => .error (.preflight e)
      | .ok resp => parseDeviceStatus resp) (Solo.act fun s b s' hi ⟨hl, ha⟩ hm => ?_)
    fun answer => ?_
  · replace hm := List.mem_singleton.mp hm
    dsimp only at hm
    subst ha
    split at hm
    next he =>
      obtain ⟨rfl, rfl⟩ := Prod.mk.inj hm
      exact ⟨hi, hl, by rw [Answers.status, he]⟩
    next rest he =>
      obtain ⟨rfl, rfl⟩ := Prod.mk.inj hm
      refine ⟨hi, hl, ?_⟩
      cases b with
      | error e => rw [Answers.status, he]
      | ok resp => rw [Answers.status, he]
  · cases answer with
    | error e => exact Solo.ret fun s ⟨hl, ha⟩ => ⟨hl, ha.symm⟩
    | ok resp => exact Solo.ret fun s ⟨hl, ha⟩ => ⟨hl, ha.symm⟩

/-- What `prepare` says about a connected device, and leaves behind. -/
structure Left.Outcome (l₀ : Left) (device : Str)
    (r : Except FwUpdateError (Option PreparedUpdate)) (l : Left) : Prop where
  resumes : l₀.Resumable device → ∃ p, r = .ok (some p) ∧ p.resumed = true
  cleared : ¬ l₀.Resumable device → ∀ o, r = .ok o → l.pending = none
  prepared : ∀ p, r = .ok (some p) → p.deviceVersion = device ∧
    (p.resumed = true ↔ l₀.Resumable device) ∧ ∃ m ∈ l.manifests, p.From m

/-- The answer of `prepare` to a device, or to none. -/
def Left.Answered (l₀ : Left) (r : Except FwUpdateError (Option PreparedUpdate)) (l : Left) :
    Option Str → Prop
  | some device => l₀.Outcome device r l
  | none => ∃ e, r = .error e

theorem planned_spec {version : Str} (hno : ¬ l₀.Resumable (normalizeSemver version)) :
    UpdTriple ext (·.pending = none)
      (do
        let now ← Proc.get (·.answers.now)
        match ← fetchManifestCached ext force now with
        | .error e => pure (.error e)
        | .ok m => pure (planFrom version m))
      (l₀.Outcome (normalizeSemver version)) := by
  refine .bind (LeavesFiles.get _) fun now => .bind fetchManifestCached_spec fun fetched => ?_
  cases fetched with
  | error e =>
    exact .ret fun l _ ⟨hp, _⟩ => ⟨fun hr => absurd hr hno, fun _ _ _ => hp, by simp⟩
  | ok m =>
    refine .ret fun l _ ⟨hp, hm⟩ => ⟨fun hr => absurd hr hno, fun _ _ _ => hp, fun p hplan => ?_⟩
    obtain ⟨hd, hr, hf⟩ := planFrom_ok hplan
    exact ⟨hd, by simp [hr, hno], m, hm m rfl, hf⟩

theorem prepare_spec {a : Answers} : (solo fun s : Fw => s.left.Kept ext).Triple 0
    (fun s => s.left = l₀ ∧ s.answers = a) (prepare ext force)
    fun r s => l₀.Answered r s.left a.device := by
  refine .bind queryDeviceStatus_spec fun status => ?_
  refine Protocol.Triple.pre (A := fun s => s.left = l₀ ∧ status = a.status) ?_ fun _ _ => id
  refine UpdTriple.known (A := (· = l₀)) (B := fun r l => l₀.Answered r l a.device) fun hs => ?_
  unfold Answers.device
  rw [← hs]
  cases status with
  | error e => exact .ret fun _ _ _ => ⟨e, rfl⟩
  | ok st =>
    dsimp only
    cases hc : st.connected with
    | false => exact .ret fun _ _ _ => ⟨_, rfl⟩
    | true =>
      refine .bind resumePending_spec fun decided => ?_
      match decided with
      | some (some p) =>
        refine .ret fun l _ ⟨_, hr, hd, hp, hm⟩ => ⟨fun _ => ⟨p, rfl, hp⟩, fun h => absurd hr h, ?_⟩
        rintro _ ⟨⟩
        exact ⟨hd, by simp [hp, hr], hm⟩
      | some none =>
        exact .ret fun l _ ⟨hno, _, hp⟩ => ⟨fun hr => absurd hr hno, fun _ _ _ => hp, by simp⟩
      | none =>
        refine fun s hi ⟨hno, hm, hp⟩ => planned_spec hno s hi hp

-- ---------------------------------------------------------------------------
-- Executing
-- ---------------------------------------------------------------------------

/-- Code that leaves the two files and the manifests alone, and what its
results are. -/
def Outputs (ext : FwExtern) (t : Upd α) (Q : α → Prop) : Prop :=
  ∀ A : Left → Prop, UpdTriple ext A t fun a l => A l ∧ Q a

namespace Outputs

variable {Q R : α → Prop}

theorem ret {a : α} (h : Q a) : Outputs ext (.ret a : Upd α) Q :=
  fun _ => .ret fun _ _ ha => ⟨ha, h⟩

theorem of_leavesFiles {t : Upd α} (h : LeavesFiles ext t) : Outputs ext t fun _ => True :=
  fun A => (h A).post fun _ _ _ ha => ⟨ha, trivial⟩

theorem bind {t : Upd β} {g : β → Upd α} {Q : β → Prop} (h : Outputs ext t Q)
    (hg : ∀ b, Q b → Outputs ext (g b) R) : Outputs ext (t.bind g) R :=
  fun A => .bind (h A) fun b => .known fun hb => hg b hb A

/-- What comes before is of no matter for the result. -/
theorem after {t : Upd β} {g : β → Upd α} (h : LeavesFiles ext t) (hg : ∀ b, Outputs ext (g b) R) :
    Outputs ext (t.bind g) R :=
  .bind (.of_leavesFiles h) fun b _ => hg b

end Outputs

variable {sha256 : Str} {d : Bytes} {hop : Hop} {hops : List Hop} {ps : List (Hop × Bytes)}

/-- The digest of the bytes is `sha256`. -/
def HasDigest (ext : FwExtern) (sha256 : Str) (d : Bytes) : Prop :=
  eqIgnoreAsciiCase (ext.sha256Hex d) sha256 = true

theorem cachedPackage_outputs :
    Outputs ext (cachedPackage ext sha256) fun r => ∀ d, r = some d → HasDigest ext sha256 d :=
  .after .get fun found => by
    cases found with
    | none => exact .ret (by simp)
    | some d =>
      dsimp only
      split
      next h => exact .ret fun _ he => Option.some.inj he ▸ h
      next => exact .after (.modify fun _ => rfl) fun _ => .ret (by simp)

theorem download_outputs :
    Outputs ext (download ext sha256) fun r => ∀ d, r = .ok d → HasDigest ext sha256 d :=
  .after .nextAnswer fun answer => by
    cases answer with
    | error e => exact .ret (by simp)
    | ok d =>
      dsimp only
      split
      next => exact .ret (by simp)
      next h => exact .ret fun _ he => Except.ok.inj he ▸ by simpa [HasDigest] using h

theorem fetchPackage_outputs :
    Outputs ext (fetchPackage ext sha256) fun r => ∀ d, r = .ok d → HasDigest ext sha256 d :=
  .bind cachedPackage_outputs fun found hfound => by
    cases found with
    | some d => exact .ret fun _ he => Except.ok.inj he ▸ hfound d rfl
    | none =>
      refine .bind download_outputs fun fetched hfetched => ?_
      cases fetched with
      | error e => exact .ret (by simp)
      | ok d =>
        exact .after storePackage_leavesFiles fun _ =>
          .ret fun _ he => Except.ok.inj he ▸ hfetched d rfl

theorem readPackage_outputs {source : HopSource} : Outputs ext (readPackage ext source) fun r =>
    ∀ d, r = .ok d → ∀ url sha256, source = .remote url sha256 → HasDigest ext sha256 d := by
  cases source with
  | pendingFile =>
    refine .after .get fun found => ?_
    cases found with
    | none => exact .ret (by simp)
    | some d => exact .ret (by simp)
  | remote url sha256 =>
    refine fun A => (fetchPackage_outputs A).post fun r l _ ⟨ha, hr⟩ => ⟨ha, ?_⟩
    rintro d he _ _ ⟨⟩
    exact hr d he

/-- A package that was loaded for a hop. -/
def FitsHop (ext : FwExtern) (hop : Hop) (d : Bytes) : Prop :=
  (∀ url sha256, hop.source = .remote url sha256 → HasDigest ext sha256 d) ∧
    ∃ pkg, Imfw.parse d = .ok pkg

theorem loadPackage_outputs :
    Outputs ext (loadPackage ext hop) fun r => ∀ d, r = .ok d → FitsHop ext hop d :=
  .bind readPackage_outputs fun answer hread => by
    cases answer with
    | error e => exact .ret (by simp)
    | ok d =>
      dsimp only
      split
      next => exact .ret (by simp)
      next pkg hp => exact .ret fun _ he => Except.ok.inj he ▸ ⟨hread d rfl, pkg, hp⟩

theorem loadPackages_outputs : Outputs ext (loadPackages ext hops) fun r => ∀ ps, r = .ok ps →
    ps.map Prod.fst = hops ∧ ∀ p ∈ ps, FitsHop ext p.1 p.2 := by
  induction hops with
  | nil => exact .ret fun _ he => Except.ok.inj he ▸ ⟨rfl, by simp⟩
  | cons hop hops ih =>
    refine .bind loadPackage_outputs fun first hfirst => ?_
    cases first with
    | error e => exact .ret (by simp)
    | ok d =>
      refine .bind ih fun others hothers => ?_
      cases others with
      | error e => exact .ret (by simp)
      | ok rest =>
        obtain ⟨hmap, hall⟩ := hothers rest rfl
        refine .ret fun _ he => Except.ok.inj he ▸ ⟨by rw [List.map_cons, hmap], ?_⟩
        rintro p (_ | ⟨_, hp⟩)
        · exact hfirst d rfl
        · exact hall p hp

theorem isPackage_of_fitsHop (h : FitsHop ext (latestHop m) d) : m.latest.IsPackage ext d :=
  ⟨h.1 _ _ rfl, h.2⟩

/-- What is left behind is, if anything, the latest version of this manifest. -/
def Left.Leads (m : UpdateManifest) (l : Left) : Prop :=
  m ∈ l.manifests ∧ ∀ h, l.pending = some (.value h) → h.targetVersion = m.latest.version

/-- The package goes first: the record that may still be there names the same
version. -/
theorem savePending_spec {next : PendingHop} (ht : next.targetVersion = m.latest.version)
    (hg : m.gate.isSome) (hd : m.latest.IsPackage ext d) :
    UpdTriple ext (·.Leads m) (savePending next d) fun _ => (·.Leads m) := by
  refine .bind (C := fun _ l => l.Leads m ∧ l.package = some d)
    (atomicWrite_spec (fun _ => rfl) fun s hk ⟨hm, hp⟩ => ?_) fun _ =>
      atomicWrite_spec (fun _ => rfl) fun s hk ⟨⟨hm, hp⟩, hpack⟩ => ?_
  · refine ⟨fun q hq => ?_, ⟨hm, hp⟩, rfl⟩
    obtain ⟨h, _, _, rfl, -⟩ := hk q hq
    exact ⟨h, m, d, rfl, hm, hp h hq, hg, rfl, hd⟩
  · refine ⟨fun q hq => ?_, hm, fun h hq => ?_⟩
    · cases hq
      exact ⟨next, m, d, rfl, hm, ht, hg, hpack, hd⟩
    · cases hq
      exact ht

/-- The hops of an update: one, or the bridge and the latest package. -/
def Left.OfPlan (hops : List Hop) (l : Left) : Prop :=
  (∃ hop, hops = [hop]) ∨ ∃ b m, hops = [b, latestHop m] ∧ m.gate.isSome ∧ l.Leads m

theorem pushHops_one : LeavesFiles ext (pushHops [(hop, d)]) :=
  .bind pushHop_leavesFiles fun pushed => by
    cases pushed with
    | error e => exact .ret
    | ok _ => exact .ret

theorem pushHops_two {b : Hop} {db : Bytes} (hg : m.gate.isSome) (hd : m.latest.IsPackage ext d) :
    UpdTriple ext (·.Leads m) (pushHops [(b, db), (latestHop m, d)]) fun _ => (·.Leads m) := by
  refine .bind (pushHop_leavesFiles _) fun pushed => ?_
  cases pushed with
  | error e => exact .ret fun _ _ => id
  | ok _ => exact .bind (savePending_spec rfl hg hd) fun _ => pushHops_one _

theorem pushHops_spec (hmap : ps.map Prod.fst = hops) (hfit : ∀ p ∈ ps, FitsHop ext p.1 p.2) :
    UpdTriple ext (·.OfPlan hops) (pushHops ps) fun _ => (·.OfPlan hops) := by
  subst hmap
  match ps with
  | [] => exact .ret fun _ _ => id
  | [(hop, d)] => exact pushHops_one _
  | (b, db) :: (f, d) :: rest =>
    intro s hi ha
    obtain ⟨_, he⟩ | ⟨b', m, he, hg, hl⟩ := ha
    · simp at he
    · obtain ⟨rfl, rfl, rfl⟩ : b = b' ∧ f = latestHop m ∧ rest = [] := by simpa using he
      have hd := isPackage_of_fitsHop (hfit (latestHop m, d) (by simp))
      refine UpdTriple.post (pushHops_two hg hd) (fun _ l _ hl => ?_) s hi hl
      exact .inr ⟨_, m, rfl, hg, hl⟩

theorem clearPending_ofPlan :
    UpdTriple ext (·.OfPlan hops) clearPending fun _ => (·.OfPlan hops) := by
  let M (ms : List UpdateManifest) : Prop :=
    (∃ hop, hops = [hop]) ∨ ∃ b m, hops = [b, latestHop m] ∧ m.gate.isSome ∧ m ∈ ms
  refine ((clearPending_spec (M := M)).pre ?_).post ?_
  · rintro l - (h | ⟨b, m, he, hg, hm, -⟩)
    · exact .inl h
    · exact .inr ⟨b, m, he, hg, hm⟩
  · rintro _ l - ⟨h | ⟨b, m, he, hg, hm⟩, hp⟩
    · exact .inl h
    · exact .inr ⟨b, m, he, hg, hm, by simp [hp]⟩

theorem execute_spec :
    UpdTriple ext (·.OfPlan prep.hops) (execute ext prep) fun _ => (·.OfPlan prep.hops) := by
  refine .bind (queryDeviceStatus_leavesFiles _) fun status => ?_
  cases status with
  | error e => exact .ret fun _ _ => id
  | ok st =>
    dsimp only
    split
    next => exact .ret fun _ _ => id
    next =>
      split
      next => exact .ret fun _ _ => id
      next =>
        refine .bind (loadPackages_outputs _) fun loaded => .known fun hloaded => ?_
        cases loaded with
        | error e => exact .ret fun _ _ => id
        | ok packages =>
          obtain ⟨hmap, hfit⟩ := hloaded packages rfl
          refine .bind (pushHops_spec hmap hfit) fun pushed => ?_
          cases pushed with
          | error e => exact .ret fun _ _ => id
          | ok _ =>
            exact .bind clearPending_ofPlan fun _ => .ret fun _ _ => id

-- ---------------------------------------------------------------------------
-- All runs
-- ---------------------------------------------------------------------------

/-- A plan has one hop, or two from the bridge on. -/
theorem PreparedUpdate.From.ofPlan (h : p.From m) (hm : m ∈ l.manifests)
    (hp : p.resumed = false → l.pending = none) : l.OfPlan p.hops := by
  unfold From at h
  split at h
  next =>
    obtain ⟨_, _, -, -, -, -, hh⟩ := h
    exact .inl ⟨_, hh⟩
  next hr =>
    obtain ⟨hf, hne⟩ := h
    obtain ⟨hknown, hbehind⟩ := (hopsFor_ne_nil hf).mp hne
    obtain ⟨dev, tgt, gate, -, -, hg, hcases⟩ := plan_cases rfl hknown
    obtain ⟨hu, -⟩ | ⟨-, ⟨hu, -⟩ | ⟨-, ⟨hu, -⟩ | ⟨hu, -⟩⟩⟩ := hcases
    · exact absurd hu hbehind
    · rw [hu] at hf
      exact .inl ⟨_, (Except.ok.inj hf).symm⟩
    · rw [hu] at hf
      obtain ⟨_, _, -, hops⟩ := hopsFor_bridge (.inl rfl) hf
      exact .inl ⟨_, hops⟩
    · rw [hu] at hf
      obtain ⟨_, _, -, hops⟩ := hopsFor_bridge (.inr rfl) hf
      have hnone : l.pending = none := hp (by simpa using hr)
      exact .inr ⟨_, m, hops, by rw [UpdateManifest.gate, hg]; rfl, hm, by simp [hnone]⟩

theorem executeAll_spec :
    UpdTriple ext (·.OfPlan prep.hops) (executeAll ext prep) fun _ _ => True :=
  .loop <| .bind (LeavesFiles.choose _) fun again => by
    cases again with
    | true => exact .bind execute_spec fun _ => .ret fun _ _ => id
    | false => exact .ret fun _ _ _ => trivial

theorem update_spec {a : Answers} : (solo fun s : Fw => s.left.Kept ext).Triple 0
    (fun s => s.left = l₀ ∧ s.answers = a) (update ext force) fun _ _ => True := by
  refine .bind prepare_spec fun prepared => ?_
  match prepared with
  | .ok (some p) =>
    refine fun s hi ha => executeAll_spec s hi ?_
    cases hd : a.device with
    | none =>
      rw [hd] at ha
      obtain ⟨_, he⟩ := ha
      cases he
    | some device =>
      rw [hd] at ha
      obtain ⟨-, hres, m, hm, hf⟩ := ha.prepared p rfl
      refine hf.ofPlan hm fun hfresh => ha.cleared (fun hr => ?_) (some p) rfl
      rw [hres.mpr hr] at hfresh
      cases hfresh
  | .ok none => exact Solo.ret fun _ _ => trivial
  | .error e => exact Solo.ret fun _ _ => trivial

theorem Fw.Reached.kept (h : Fw.Reached ext s) : s.left.Kept ext := by
  induction h with
  | start hp _ => exact .of_none hp
  | @run s s' force answers t _ hs ih =>
    have ht : (solo fun s : Fw => s.left.Kept ext).Triple 0
        (fun s' => s'.left = s.left ∧ s'.answers = answers) (update ext force) _ := update_spec
    exact ht.stops (s := s.begin answers) ih ⟨rfl, rfl⟩ hs

theorem Fw.Reached.prepares (h : Fw.Reached ext s) {a : Answers}
    {r : Except FwUpdateError (Option PreparedUpdate)}
    (hs : (prepare ext force).Stops (s.begin a) (.ret r) s') :
    s.left.Answered r s'.left a.device := by
  have ht : (solo fun s : Fw => s.left.Kept ext).Triple 0
      (fun s' => s'.left = s.left ∧ s'.answers = a) (prepare ext force) _ := prepare_spec
  exact ht.returns (s := s.begin a) h.kept ⟨rfl, rfl⟩ hs

-- ---------------------------------------------------------------------------
-- Two packages
-- ---------------------------------------------------------------------------

def Fw.fresh : Fw :=
  { store :=
      { lastCheck := none, lastCheckTmp := none, cache := fun _ => none, cacheTmp := fun _ => none
        pending := none, pendingTmp := none, package := none, packageTmp := none }
    answers :=
      { statuses := [], bodies := [], downloads := [], transfers := [], versions := [], now := 0 }
    manifests := [] }

/-- A package whose image is one byte. -/
def imfwOf (image : UInt8) : Bytes :=
  [0x57, 0x46, 0x4D, 0x49, 1, 0, 1, 0, 1, 0, 0, 0] ++ List.replicate 84 0 ++ [image]

def bridgeDigest : Str := "4d2e1a02a5a493564a8799b42b2c6f36b3bae986348ff1cab6a79d42a17679b5"

def latestDigest : Str := "645a60bec1dd6c9ee0d329e147eff1b2c9a5e668f54b834c34bebc461781cf09"

/-- A manifest whose bridge has this version. -/
def bridged (version : Str) : UpdateManifest :=
  { schema := 1
    latest :=
      { version := "1.6.2", url := "l", sha256 := latestDigest, minDirect := some "1.6.0"
        notes := none }
    bridge := some
      { version, url := "b", sha256 := bridgeDigest, minDirect := none, notes := none } }

def bridgedJson (version : Str) : Str :=
  "\x7b\"schema\":1,\"latest\":\x7b\"version\":\"1.6.2\",\"format\":\"v1\",".toList ++
    "\"url\":\"l\",\"sha256\":\"".toList ++ latestDigest ++
    "\",\"min_direct\":\"1.6.0\"\x7d,".toList ++
    "\"bridge\":\x7b\"version\":\"".toList ++ version ++
    "\",\"format\":\"v1\",\"url\":\"b\",\"sha256\":\"".toList ++ bridgeDigest ++
    "\"\x7d\x7d".toList

/-- The libraries on two manifests and two packages. -/
def FwExtern.sample : FwExtern where
  fromJson json :=
    if json = bridgedJson "1.3.0" then .ok (bridged "1.3.0")
    else if json = bridgedJson "1.6.0" then .ok (bridged "1.6.0")
    else .error "expected value at line 1 column 1"
  sha256Hex d :=
    if d = imfwOf 1 then bridgeDigest
    else if d = imfwOf 2 then latestDigest
    else []

/-- A device that reports this version, and a server with this manifest. -/
def Answers.asked (device bridge : String) : Answers :=
  { statuses := [.ok ("STATUS:1:immurok:90:".toList ++ device.toList)]
    bodies := [.ok (bridgedJson bridge.toList)]
    downloads := [], transfers := [], versions := [], now := 0 }

/-- The whole of an update to the bridge, and then a transfer that fails. -/
def Answers.halfway : Answers :=
  { Answers.asked "1.3.11.0" "1.6.0" with
    statuses := List.replicate 2 (.ok "STATUS:1:immurok:90:1.3.11.0")
    downloads := [.ok (imfwOf 1), .ok (imfwOf 2)]
    transfers := [.ok (), .error (.transfer "write" "timeout")]
    versions := [.ok "OK:1.6.0.7"] }

/-- Whatever was cut off before: a record is there only with the complete
package of the version it names, and an update goes on exactly where both are
there and the device is between the bridge and the target; else no record is
left when `prepare` has an answer. -/
theorem reached_resumes (h : Fw.Reached ext s) :
    s.left.Kept ext ∧ ∀ force answers device r s', answers.device = some device →
      (prepare ext force).Stops (s.begin answers) (.ret r) s' →
        ((∃ p, r = .ok (some p) ∧ p.resumed = true) ↔ s.left.Resumable device) ∧
          (¬ s.left.Resumable device → ∀ o, r = .ok o → s'.store.pending = none) := by
  refine ⟨h.kept, fun force answers device r s' hd hs => ?_⟩
  have ho := h.prepares hs
  rw [hd] at ho
  refine ⟨⟨?_, ho.resumes⟩, ho.cleared⟩
  rintro ⟨p, rfl, hp⟩
  exact (ho.prepared p rfl).2.1.mp hp

/-- After an update that stopped between its two hops. -/
theorem halfway_resumes : ∃ s t, (update FwExtern.sample false).Stops
      (Fw.fresh.begin .halfway) t s ∧ s.store.pending = some (.value ⟨"1.6.2", "1.6.0"⟩) ∧
    s.left.Kept FwExtern.sample ∧ ∀ force answers device r s', answers.device = some device →
      (prepare FwExtern.sample force).Stops (s.begin answers) (.ret r) s' →
        ((∃ p, r = .ok (some p) ∧ p.resumed = true) ↔ s.left.Resumable device) ∧
          (¬ s.left.Resumable device → ∀ o, r = .ok o → s'.store.pending = none) := by
  have hrun : (Proc.follow (List.replicate 40 0) (update FwExtern.sample false)
      (Fw.fresh.begin .halfway)).any (fun p => decide
        (p.2.store.pending = some (.value ⟨"1.6.2", "1.6.0"⟩))) = true := by decide +kernel
  obtain ⟨⟨t, s⟩, hf, hp⟩ := (Option.any_eq_true _ _).mp hrun
  have hs := Proc.Stops.of_follow .start hf
  exact ⟨s, t, hs, of_decide_eq_true hp, reached_resumes ((Fw.Reached.start rfl rfl).run hs)⟩

/-- The hops of an update lead from the device to the latest version exactly
when the device can take the latest package at once, or the plan is a new one
and the bridge of the manifest leads from the one to the other. -/
theorem prepared_sound_iff (h : Fw.Reached ext s) {answers : Answers}
    (hs : (prepare ext force).Stops (s.begin answers) (.ret (.ok (some p))) s') :
    (∃ m ∈ s'.manifests, p.From m) ∧ ∀ m, p.From m →
      (p.Sound m ↔ m.Reaches p.deviceVersion (¬ s.left.Resumable p.deviceVersion)) := by
  have ho := h.prepares hs
  cases hd : answers.device with
  | none =>
    rw [hd] at ho
    obtain ⟨_, he⟩ := ho
    cases he
  | some device =>
    rw [hd] at ho
    obtain ⟨hver, hres, m, hm, hf⟩ := ho.prepared p rfl
    subst hver
    refine ⟨⟨m, hm, hf⟩, fun m hf => ?_⟩
    rw [hf.sound_iff, ← hres, Bool.not_eq_true]

/-- The update of a device to a bridge below it. -/
def goingDown : PreparedUpdate :=
  { deviceVersion := "1.3.11", targetVersion := "1.6.2", notes := none
    hops :=
      [{ label := "bridge", version := "1.3.0", source := .remote "b" bridgeDigest },
        latestHop (bridged "1.3.0")]
    resumed := false }

theorem goingDown_from : goingDown.From (bridged "1.3.0") := by
  refine (if_neg (by decide)).mpr ⟨?_, by decide⟩
  decide

theorem goingDown_run : ∃ s', (prepare FwExtern.sample false).Stops
    (Fw.fresh.begin (.asked "1.3.11.0" "1.3.0")) (.ret (.ok (some goingDown))) s' := by
  obtain ⟨r, s', hs, hp⟩ := Proc.Stops.of_returned (List.replicate 8 0)
    (p := fun r _ => decide (r = .ok (some goingDown)))
    (t := prepare FwExtern.sample false) (s := Fw.fresh.begin (.asked "1.3.11.0" "1.3.0"))
    (by decide +kernel)
  obtain rfl := of_decide_eq_true hp
  exact ⟨s', hs⟩

/-- Nothing looks at the version of the bridge. -/
theorem bridge_can_go_down : ¬ ∀ ext force s answers p s' m, Fw.Reached ext s →
    (prepare ext force).Stops (s.begin answers) (.ret (.ok (some p))) s' → p.From m →
      p.Sound m := by
  intro h
  obtain ⟨s', hs⟩ := goingDown_run
  have hsound := h _ _ _ _ _ _ _ (.start rfl rfl) hs goingDown_from
  have hd : FirmwareVersion.parse goingDown.deviceVersion = some ⟨1, 3, 11⟩ := by decide
  have ht : FirmwareVersion.parse (bridged "1.3.0").latest.version = some ⟨1, 6, 2⟩ := by decide
  have hg : (bridged "1.3.0").gate = some ⟨1, 6, 0⟩ := by decide
  rw [goingDown_from.sound_iff, reaches_iff hd ht hg] at hsound
  obtain hle | ⟨-, b, v, hb, -, hv, hlt, -⟩ := hsound
  · exact absurd hle (by decide)
  · cases hb
    have h130 : some v = some ⟨1, 3, 0⟩ := hv.symm.trans (by decide)
    rw [Option.some.inj h130] at hlt
    exact absurd hlt (by decide)

theorem goingDown_sound_iff : ∃ s', (prepare FwExtern.sample false).Stops
      (Fw.fresh.begin (.asked "1.3.11.0" "1.3.0")) (.ret (.ok (some goingDown))) s' ∧
    (∃ m ∈ s'.manifests, goingDown.From m) ∧ ∀ m, goingDown.From m →
      (goingDown.Sound m ↔ m.Reaches goingDown.deviceVersion
        (¬ Fw.fresh.left.Resumable goingDown.deviceVersion)) := by
  obtain ⟨s', hs⟩ := goingDown_run
  exact ⟨s', hs, prepared_sound_iff (.start rfl rfl) hs⟩

end Immurok
