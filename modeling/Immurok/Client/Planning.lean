import Immurok.Text.Str
import Mathlib.Data.Prod.Lex

/-!
# Planning an update

Which packages a device gets, in which order, for the version it has and the
manifest of the packages there are.
-/

namespace Immurok

-- ---------------------------------------------------------------------------
-- Versions
-- ---------------------------------------------------------------------------

structure FirmwareVersion where
  major : Nat
  minor : Nat
  patch : Nat
  deriving DecidableEq

namespace FirmwareVersion

/-- Versions are compared number by number. -/
def key (v : FirmwareVersion) : Nat ×ₗ Nat ×ₗ Nat := toLex (v.major, toLex (v.minor, v.patch))

theorem key_injective : Function.Injective key := by
  intro v w h
  cases v
  cases w
  simpa [key] using h

instance : LinearOrder FirmwareVersion := LinearOrder.lift' key key_injective

/-- Exactly three numbers. -/
def parse (s : Str) : Option FirmwareVersion :=
  match s.splitOn '.' with
  | [major, minor, patch] => do
    let major ← (Str.parseU32 major).toOption
    let minor ← (Str.parseU32 minor).toOption
    let patch ← (Str.parseU32 patch).toOption
    some { major, minor, patch }
  | _ => none

/-- As it is displayed. -/
def text (v : FirmwareVersion) : Str :=
  Str.ofNat v.major ++ ".".toList ++ Str.ofNat v.minor ++ ".".toList ++ Str.ofNat v.patch

end FirmwareVersion

/-- The device reports four segments. -/
def normalizeSemver (raw : Str) : Str :=
  let parts := raw.splitOn '.'
  if parts.length < 3 then raw else List.intercalate ".".toList (parts.take 3)

example : FirmwareVersion.parse (normalizeSemver "1.6.2.42") = some ⟨1, 6, 2⟩ := by decide

-- ---------------------------------------------------------------------------
-- The plan
-- ---------------------------------------------------------------------------

inductive UpdatePlan
  | upToDate
  | direct
  | bridgeOnly
  | twoHops
  | unknown
  deriving DecidableEq

def fallbackMinDirect : Str := "1.6.0"

def plan (device latest : Str) (minDirect : Option Str) : UpdatePlan :=
  match FirmwareVersion.parse device, FirmwareVersion.parse latest,
      FirmwareVersion.parse (minDirect.getD fallbackMinDirect) with
  | some dev, some tgt, some gate =>
    if tgt ≤ dev then .upToDate
    else if gate ≤ dev then .direct
    else if tgt = gate then .bridgeOnly
    else .twoHops
  | _, _, _ => .unknown

-- ---------------------------------------------------------------------------
-- Manifests
-- ---------------------------------------------------------------------------

structure Asset where
  version : Str
  url : Str
  sha256 : Str
  minDirect : Option Str
  notes : Option Str
  deriving DecidableEq

structure UpdateManifest where
  schema : Nat
  latest : Asset
  bridge : Option Asset
  deriving DecidableEq

inductive ManifestError
  | unsupportedSchema (schema : Nat)
  | parse (detail : Str)
  deriving DecidableEq

def ManifestError.message : ManifestError → Str
  | .unsupportedSchema schema => "unsupported manifest schema ".toList ++ Str.ofNat schema
  | .parse detail => "manifest parse error: ".toList ++ detail

/-- `fromJson` reads the fields. -/
def decodeManifest (fromJson : Str → Except Str UpdateManifest) (json : Str) :
    Except ManifestError UpdateManifest :=
  match fromJson json with
  | .error e => .error (.parse e)
  | .ok m => if m.schema ≠ 1 then .error (.unsupportedSchema m.schema) else .ok m

inductive FwUpdateError
  | manifestFetch (detail : Str)
  | manifestSchema (detail : Str)
  | download (detail : Str)
  | sha256Mismatch
  | packageInvalid (detail : Str)
  | preflight (detail : Str)
  | transfer (stage detail : Str)
  | headerRejected (detail : Str)
  | signatureRejected
  | reconnectTimeout (target : Str)
  | lowBattery
  | store (detail : Str)
  deriving DecidableEq

-- ---------------------------------------------------------------------------
-- Hops
-- ---------------------------------------------------------------------------

inductive HopSource
  | remote (url sha256 : Str)
  /-- the package that an update in two hops has left behind -/
  | pendingFile
  deriving DecidableEq

structure Hop where
  label : Str
  version : Str
  source : HopSource
  deriving DecidableEq

def Asset.source (a : Asset) : HopSource := .remote a.url a.sha256

def latestHop (m : UpdateManifest) : Hop :=
  { label := "final", version := m.latest.version, source := m.latest.source }

def bridgeHop (m : UpdateManifest) (label : Str) : Except FwUpdateError Hop :=
  match m.bridge with
  | none => .error (.manifestSchema "manifest has no bridge entry")
  | some b => .ok { label, version := b.version, source := b.source }

def hopsFor (p : UpdatePlan) (m : UpdateManifest) : Except FwUpdateError (List Hop) :=
  match p with
  | .direct => .ok [latestHop m]
  | .bridgeOnly => do
    let b ← bridgeHop m "final"
    .ok [b]
  | .twoHops => do
    let b ← bridgeHop m "bridge"
    .ok [b, latestHop m]
  | .upToDate | .unknown => .ok []

/-- An update as it is shown and carried out. -/
structure PreparedUpdate where
  deviceVersion : Str
  targetVersion : Str
  notes : Option Str
  hops : List Hop
  resumed : Bool
  deriving DecidableEq

-- ---------------------------------------------------------------------------
-- Sound plans
-- ---------------------------------------------------------------------------

/-- What the device has to report for the hop to be done. -/
def Hop.reported (h : Hop) : Option FirmwareVersion :=
  FirmwareVersion.parse (normalizeSemver h.version)

/-- The hop brings the latest package of `m`, downloaded or left behind. -/
def Hop.BringsLatest (m : UpdateManifest) (h : Hop) : Prop :=
  h.source = m.latest.source ∨ h.source = .pendingFile

/-- From a device with version `v` each hop leads upwards, none brings the
latest package to a device below `gate`, and the last comes to `tgt` at least. -/
def Climbs (m : UpdateManifest) (gate tgt : FirmwareVersion) :
    FirmwareVersion → List Hop → Prop
  | v, [] => tgt ≤ v
  | v, h :: hs =>
    (h.BringsLatest m → gate ≤ v) ∧ ∃ w, h.reported = some w ∧ v < w ∧ Climbs m gate tgt w hs

/-- The version below which a device cannot take the latest package. -/
def UpdateManifest.gate (m : UpdateManifest) : Option FirmwareVersion :=
  FirmwareVersion.parse (m.latest.minDirect.getD fallbackMinDirect)

/-- No hop goes down or stays, and the last one gets to the latest version. -/
def PreparedUpdate.Sound (m : UpdateManifest) (p : PreparedUpdate) : Prop :=
  ∃ dev tgt gate, FirmwareVersion.parse p.deviceVersion = some dev ∧
    FirmwareVersion.parse m.latest.version = some tgt ∧ m.gate = some gate ∧
    Climbs m gate tgt dev p.hops

/-- The bridge of the manifest is a package of its own, above the device, not
below the gate, and below the latest one where that comes after it. -/
def UpdateManifest.BridgeFits (m : UpdateManifest) (dev tgt gate : FirmwareVersion) : Prop :=
  ∃ b v, m.bridge = some b ∧ b.source ≠ m.latest.source ∧
    FirmwareVersion.parse (normalizeSemver b.version) = some v ∧ dev < v ∧ gate ≤ v ∧
    (tgt = gate ∨ v < tgt)

/-- The update follows from the manifest, or goes on with what a former one
has left. -/
def PreparedUpdate.From (m : UpdateManifest) (p : PreparedUpdate) : Prop :=
  if p.resumed then
    ∃ dev tgt, FirmwareVersion.parse p.deviceVersion = some dev ∧
      FirmwareVersion.parse m.latest.version = some tgt ∧ dev < tgt ∧ m.gate.isSome ∧
      p.hops = [{ label := "final", version := tgt.text, source := .pendingFile }]
  else
    hopsFor (plan p.deviceVersion m.latest.version m.latest.minDirect) m = .ok p.hops ∧ p.hops ≠ []

-- ---------------------------------------------------------------------------
-- Versions that are read back
-- ---------------------------------------------------------------------------

section
variable {s : Str} {v : FirmwareVersion} {m : UpdateManifest} {p : PreparedUpdate}

namespace FirmwareVersion

theorem parse_eq_some (h : parse s = some v) : ∃ a b c, s.splitOn '.' = [a, b, c] ∧
    Str.parseU32 a = .ok v.major ∧ Str.parseU32 b = .ok v.minor ∧
      Str.parseU32 c = .ok v.patch := by
  have ok {a : Str} {n : Nat} (h : (Str.parseU32 a).toOption = some n) :
      Str.parseU32 a = .ok n := by
    cases hp : Str.parseU32 a with
    | error e => rw [hp] at h; cases h
    | ok k => rw [hp] at h; exact congrArg _ (Option.some.inj h)
  unfold parse at h
  split at h
  next a b c hs =>
    simp only [Option.bind_eq_bind, Option.bind_eq_some_iff, Option.some.injEq] at h
    obtain ⟨x, hx, y, hy, z, hz, rfl⟩ := h
    exact ⟨a, b, c, hs, ok hx, ok hy, ok hz⟩
  next => cases h

/-- Three segments are all that is kept. -/
theorem normalize_of_parse (h : parse s = some v) : normalizeSemver s = s := by
  obtain ⟨a, b, c, hs, -⟩ := parse_eq_some h
  rw [normalizeSemver, hs]
  exact (congrArg _ hs.symm).trans (List.intercalate_splitOn '.')

theorem parse_text (hmajor : v.major < 2 ^ 32) (hminor : v.minor < 2 ^ 32)
    (hpatch : v.patch < 2 ^ 32) : parse v.text = some v := by
  have dotless (n : Nat) : '.' ∉ Str.ofNat n := fun h =>
    absurd (@Nat.isDigit_of_mem_toDigits 10 _ _ (by decide) (by decide) h) (by decide)
  have hs : v.text.splitOn '.' = [Str.ofNat v.major, Str.ofNat v.minor, Str.ofNat v.patch] := by
    have hjoin : v.text =
        ['.'].intercalate [Str.ofNat v.major, Str.ofNat v.minor, Str.ofNat v.patch] := by
      simp [text, List.intercalate]
    rw [hjoin, List.splitOn_intercalate _ (by simpa using ⟨dotless _, dotless _, dotless _⟩)
      (List.cons_ne_nil _ _)]
  unfold parse
  rw [hs]
  simp only [Str.parseU32_ofNat hmajor, Str.parseU32_ofNat hminor, Str.parseU32_ofNat hpatch,
    Except.toOption, Option.bind_eq_bind, Option.bind_some]

/-- A version that was read is written so that it can be read again. -/
theorem parse_normalize_text (h : parse s = some v) : parse (normalizeSemver v.text) = some v := by
  obtain ⟨a, b, c, -, ha, hb, hc⟩ := parse_eq_some h
  have ht := parse_text (Str.parseU32_lt ha) (Str.parseU32_lt hb) (Str.parseU32_lt hc)
  rw [normalize_of_parse ht, ht]

end FirmwareVersion

-- ---------------------------------------------------------------------------
-- When a plan is sound
-- ---------------------------------------------------------------------------

/-- What a plan says about the three versions it was made for. -/
theorem plan_cases {device latest : Str} {minDirect : Option Str} {u : UpdatePlan}
    (h : plan device latest minDirect = u) (hu : u ≠ .unknown) :
    ∃ dev tgt gate, FirmwareVersion.parse device = some dev ∧
      FirmwareVersion.parse latest = some tgt ∧
      FirmwareVersion.parse (minDirect.getD fallbackMinDirect) = some gate ∧
      (u = .upToDate ∧ tgt ≤ dev ∨
        dev < tgt ∧ (u = .direct ∧ gate ≤ dev ∨
          dev < gate ∧ (u = .bridgeOnly ∧ tgt = gate ∨ u = .twoHops ∧ tgt ≠ gate))) := by
  unfold plan at h
  split at h
  next dev tgt gate hd ht hg =>
    refine ⟨dev, tgt, gate, hd, ht, hg, ?_⟩
    split at h
    next hle => exact .inl ⟨h.symm, hle⟩
    next hlt =>
      refine .inr ⟨not_le.mp hlt, ?_⟩
      split at h
      next hle => exact .inl ⟨h.symm, hle⟩
      next hbelow =>
        refine .inr ⟨not_le.mp hbelow, ?_⟩
        split at h
        next he => exact .inl ⟨h.symm, he⟩
        next he => exact .inr ⟨h.symm, he⟩
  next => exact absurd h.symm hu

/-- The device can take the latest package at once, or the bridge leads there. -/
def UpdateManifest.Reaches (m : UpdateManifest) (device : Str) (fresh : Prop) : Prop :=
  ∃ dev tgt gate, FirmwareVersion.parse device = some dev ∧
    FirmwareVersion.parse m.latest.version = some tgt ∧ m.gate = some gate ∧
    (gate ≤ dev ∨ fresh ∧ m.BridgeFits dev tgt gate)

variable {dev tgt gate : FirmwareVersion} {b : Asset} {label : Str}

theorem brings_latestHop : (latestHop m).BringsLatest m := .inl rfl

theorem reported_latestHop (h : FirmwareVersion.parse m.latest.version = some tgt) :
    (latestHop m).reported = some tgt := by
  rw [Hop.reported, latestHop, FirmwareVersion.normalize_of_parse h, h]

/-- The bridge as a hop is the latest package only if they are the same. -/
theorem brings_bridge :
    Hop.BringsLatest m { label, version := b.version, source := b.source } ↔
      b.source = m.latest.source :=
  or_iff_left (by simp [Asset.source])

theorem climbs_direct (ht : FirmwareVersion.parse m.latest.version = some tgt) (hlt : dev < tgt)
    (hle : gate ≤ dev) : Climbs m gate tgt dev [latestHop m] :=
  ⟨fun _ => hle, tgt, reported_latestHop ht, hlt, le_refl tgt⟩

theorem climbs_bridge (hb : m.bridge = some b) (hbelow : dev < gate) (he : tgt = gate) :
    Climbs m gate tgt dev [{ label, version := b.version, source := b.source }] ↔
      m.BridgeFits dev tgt gate := by
  subst he
  simp only [Climbs, brings_bridge, UpdateManifest.BridgeFits, hb, Option.some.injEq, true_or,
    and_true, Hop.reported]
  constructor
  · rintro ⟨hother, v, hv, hlt, hle⟩
    exact ⟨b, v, rfl, fun h => not_le.mpr hbelow (hother h), hv, hlt, hle⟩
  · rintro ⟨_, v, rfl, hother, hv, hlt, hle⟩
    exact ⟨fun h => absurd h hother, v, hv, hlt, hle⟩

theorem climbs_two (hb : m.bridge = some b) (hbelow : dev < gate) (he : tgt ≠ gate)
    (ht : FirmwareVersion.parse m.latest.version = some tgt) :
    Climbs m gate tgt dev [{ label, version := b.version, source := b.source }, latestHop m] ↔
      m.BridgeFits dev tgt gate := by
  have hlast := reported_latestHop ht
  simp only [Climbs, brings_bridge, UpdateManifest.BridgeFits, hb, Option.some.injEq, he, false_or]
  constructor
  · rintro ⟨hother, v, hv, hlt, hle, w, hw, hup, -⟩
    cases hw.symm.trans hlast
    exact ⟨b, v, rfl, fun h => not_le.mpr hbelow (hother h), hv, hlt, hle brings_latestHop, hup⟩
  · rintro ⟨_, v, rfl, hother, hv, hlt, hle, hup⟩
    exact ⟨fun h => absurd h hother, v, hv, hlt, fun _ => hle, tgt, hlast, hup, le_refl tgt⟩

theorem climbs_resumed (ht : FirmwareVersion.parse m.latest.version = some tgt) (hlt : dev < tgt) :
    Climbs m gate tgt dev [{ label, version := tgt.text, source := .pendingFile }] ↔
      gate ≤ dev := by
  refine ⟨fun h => h.1 (.inr rfl), fun hle => ⟨fun _ => hle, tgt, ?_, hlt, le_refl tgt⟩⟩
  exact FirmwareVersion.parse_normalize_text ht

/-- Where the plan needs the bridge, the manifest has one. -/
theorem hopsFor_bridge {u : UpdatePlan} {hops : List Hop} (hu : u = .bridgeOnly ∨ u = .twoHops)
    (hh : hopsFor u m = .ok hops) : ∃ b label, m.bridge = some b ∧
      hops = { label, version := b.version, source := b.source } ::
        (if u = .twoHops then [latestHop m] else []) := by
  cases hb : m.bridge with
  | none =>
    obtain rfl | rfl := hu
    · simp [hopsFor, bridgeHop, hb, bind, Except.bind] at hh
    · simp [hopsFor, bridgeHop, hb, bind, Except.bind] at hh
  | some b =>
    obtain rfl | rfl := hu
    · simp only [hopsFor, bridgeHop, hb, bind, Except.bind, Except.ok.injEq] at hh
      exact ⟨b, _, rfl, hh.symm⟩
    · simp only [hopsFor, bridgeHop, hb, bind, Except.bind, Except.ok.injEq] at hh
      exact ⟨b, _, rfl, hh.symm⟩

theorem hopsFor_ne_nil {u : UpdatePlan} {hops : List Hop} (hh : hopsFor u m = .ok hops) :
    hops ≠ [] ↔ u ≠ .unknown ∧ u ≠ .upToDate := by
  cases u with
  | upToDate | unknown => simpa [hopsFor] using hh.symm
  | direct =>
    cases hh
    simp
  | bridgeOnly =>
    obtain ⟨b, label, -, rfl⟩ := hopsFor_bridge (.inl rfl) hh
    simp
  | twoHops =>
    obtain ⟨b, label, -, rfl⟩ := hopsFor_bridge (.inr rfl) hh
    simp

/-- With the three versions of an update, whether it is sound is a matter of
its hops. -/
theorem sound_iff_climbs (hd : FirmwareVersion.parse p.deviceVersion = some dev)
    (ht : FirmwareVersion.parse m.latest.version = some tgt) (hg : m.gate = some gate) :
    p.Sound m ↔ Climbs m gate tgt dev p.hops := by
  constructor
  · rintro ⟨dev', tgt', gate', hd', ht', hg', hc⟩
    cases hd.symm.trans hd'
    cases ht.symm.trans ht'
    cases hg.symm.trans hg'
    exact hc
  · exact fun hc => ⟨dev, tgt, gate, hd, ht, hg, hc⟩

theorem reaches_iff {fresh : Prop} {device : Str} (hd : FirmwareVersion.parse device = some dev)
    (ht : FirmwareVersion.parse m.latest.version = some tgt) (hg : m.gate = some gate) :
    m.Reaches device fresh ↔ gate ≤ dev ∨ fresh ∧ m.BridgeFits dev tgt gate := by
  constructor
  · rintro ⟨dev', tgt', gate', hd', ht', hg', hc⟩
    cases hd.symm.trans hd'
    cases ht.symm.trans ht'
    cases hg.symm.trans hg'
    exact hc
  · exact fun hc => ⟨dev, tgt, gate, hd, ht, hg, hc⟩

theorem PreparedUpdate.From.sound_iff (h : p.From m) :
    p.Sound m ↔ m.Reaches p.deviceVersion (p.resumed = false) := by
  unfold From at h
  split at h
  next hr =>
    obtain ⟨dev, tgt, hd, ht, hlt, hg, hh⟩ := h
    obtain ⟨gate, hg⟩ := Option.isSome_iff_exists.mp hg
    rw [sound_iff_climbs hd ht hg, reaches_iff hd ht hg, hh, climbs_resumed ht hlt, hr]
    simp
  next hr =>
    obtain ⟨hf, hne⟩ := h
    obtain ⟨hknown, hbehind⟩ := (hopsFor_ne_nil hf).mp hne
    obtain ⟨dev, tgt, gate, hd, ht, hg, hcases⟩ := plan_cases rfl hknown
    rw [sound_iff_climbs hd ht hg, reaches_iff hd ht hg]
    have hfresh : p.resumed = false := by simpa using hr
    simp only [hfresh, true_and]
    obtain ⟨hu, -⟩ | ⟨hlt, ⟨hu, hle⟩ | ⟨hbelow, ⟨hu, he⟩ | ⟨hu, he⟩⟩⟩ := hcases
    · exact absurd hu hbehind
    · rw [hu] at hf
      rw [← Except.ok.inj hf]
      exact iff_of_true (climbs_direct ht hlt hle) (.inl hle)
    · rw [hu] at hf
      obtain ⟨b, label, hb, hops⟩ := hopsFor_bridge (.inl rfl) hf
      rw [hops, or_iff_right (not_le.mpr hbelow)]
      exact climbs_bridge hb hbelow he
    · rw [hu] at hf
      obtain ⟨b, label, hb, hops⟩ := hopsFor_bridge (.inr rfl) hf
      rw [hops, or_iff_right (not_le.mpr hbelow)]
      exact climbs_two hb hbelow he ht

end

end Immurok
