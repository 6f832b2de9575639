import Immurok.Text.Json
import Immurok.Daemon.Sound

/-!
# The settings and their file

A setting is changed in memory and then saved. The directory is created, the text
made, a temporary file written and renamed, and each of the four can fail.
-/

namespace Immurok

open Async

-- ---------------------------------------------------------------------------
-- The file
-- ---------------------------------------------------------------------------

/-- What the daemon uses of `serde_json`. -/
structure SerdeJson where
  toStringPretty : Json → Except Str Str
  fromStr : Str → Option Json

namespace Settings

def fields (s : Settings) : List (Str × Bool) :=
  [("unlock_sudo", s.unlockSudo), ("unlock_polkit", s.unlockPolkit),
    ("unlock_screen", s.unlockScreen), ("lock_screen", s.lockScreen),
    ("ssh_takeover", s.sshTakeover)]

def toJson (s : Settings) : Json := .obj (s.fields.map fun (key, v) => (key, .bool v))

/-- A field of an object: one that is missing has its default, one that is there
twice or is no boolean is an error. -/
def ofField (fields : List (Str × Json)) (key : Str) (default : Bool) : Option Bool :=
  match fields.filter fun (k, _) => k = key with
  | [] => some default
  | [(_, v)] => v.asBool
  | _ => none

/-- The same of an array. -/
def ofElement (vs : List Json) (i : Nat) (default : Bool) : Option Bool :=
  match vs[i]? with
  | none => some default
  | some v => v.asBool

/-- The derived `Deserialize`; fields it does not know are ignored. -/
def ofJson : Json → Option Settings
  | .obj fields => do
    let unlockSudo ← ofField fields "unlock_sudo" true
    let unlockPolkit ← ofField fields "unlock_polkit" true
    let unlockScreen ← ofField fields "unlock_screen" true
    let lockScreen ← ofField fields "lock_screen" false
    let sshTakeover ← ofField fields "ssh_takeover" false
    some { unlockSudo, unlockPolkit, unlockScreen, lockScreen, sshTakeover }
  | .arr vs =>
    if 5 < vs.length then none
    else do
      let unlockSudo ← ofElement vs 0 true
      let unlockPolkit ← ofElement vs 1 true
      let unlockScreen ← ofElement vs 2 true
      let lockScreen ← ofElement vs 3 false
      let sshTakeover ← ofElement vs 4 false
      some { unlockSudo, unlockPolkit, unlockScreen, lockScreen, sshTakeover }
  | _ => none

end Settings

/-- `settings.json` and `settings.tmp`, where they can be read. -/
structure SettingsFiles where
  file : Option Bytes
  tmp : Option Bytes

/-- What the calls of one save come to. A write that fails leaves something behind
in the temporary file or none. -/
structure SaveIo where
  createDirAll : Except Str Unit
  write : Except (Str × Option Bytes) Unit
  rename : Except Str Unit

section
variable (json : SerdeJson)

def Settings.load (files : SettingsFiles) : Settings :=
  (((files.file.bind Utf8.strict).bind json.fromStr).bind Settings.ofJson).getD .default

def Settings.save (io : SaveIo) (s : Settings) (files : SettingsFiles) :
    Except Str Unit × SettingsFiles :=
  match io.createDirAll with
  | .error e => (.error e, files)
  | .ok () =>
    match json.toStringPretty s.toJson with
    | .error e => (.error e, files)
    | .ok text =>
      match io.write with
      | .error (e, left) => (.error e, { files with tmp := left })
      | .ok () =>
        let tmp := some (text.flatMap String.utf8EncodeChar)
        match io.rename with
        | .error e => (.error e, { files with tmp })
        | .ok () => (.ok (), { file := tmp, tmp := none })

-- ---------------------------------------------------------------------------
-- Changing a setting
-- ---------------------------------------------------------------------------

/-- The settings with `key` changed, if there is such a key. -/
def Settings.change (key : Str) (value : Bool) (s : Settings) : Option Settings :=
  if key = "unlock_sudo".toList then some { s with unlockSudo := value }
  else if key = "unlock_polkit".toList then some { s with unlockPolkit := value }
  else if key = "unlock_screen".toList then some { s with unlockScreen := value }
  else if key = "lock_screen".toList then some { s with lockScreen := value }
  else if key = "ssh_takeover".toList then some { s with sshTakeover := value }
  else none

/-- The daemon's settings and the files. -/
structure SettingsState where
  settings : Settings
  files : SettingsFiles

/-- `handle_set_setting`, as long as it holds the lock. -/
def setSetting (io : SaveIo) (key : Str) (value : Bool) (st : SettingsState) :
    Response × SettingsState :=
  match st.settings.change key value with
  | none => (.error "UNKNOWN_KEY", st)
  | some settings =>
    match settings.save json io st.files with
    | (.error e, files) => (.error ("SAVE_FAILED:".toList ++ e), { settings, files })
    | (.ok (), files) => (.ok [], { settings, files })

/-- The key and the value of a request. -/
def Request.setting : Request → Option (Str × Bool)
  | .setUnlockSudo v => some ("unlock_sudo", v)
  | .setUnlockPolkit v => some ("unlock_polkit", v)
  | .setUnlockScreen v => some ("unlock_screen", v)
  | .setLockScreen v => some ("lock_screen", v)
  | .setSshTakeover v => some ("ssh_takeover", v)
  | _ => none

-- ---------------------------------------------------------------------------
-- What is wanted
-- ---------------------------------------------------------------------------

/-- `serde_json` reads what it has written of settings. -/
def SerdeJson.ReadsBack : Prop :=
  ∀ s text, json.toStringPretty (Settings.toJson s) = .ok text → json.fromStr text = some s.toJson

/-- A change that is refused has not been made, so nobody is authorized by it;
one that is granted is also in the file. -/
structure Honest (ext : Extern) (before : SettingsState) (reply : Response) (after : SettingsState) :
    Prop where
  refused : ∀ e, reply = .error e → after.settings = before.settings
  decisions : ∀ e, reply = .error e → ∀ service,
    isServiceAllowed ext after.settings service = isServiceAllowed ext before.settings service
  granted : ∀ msg, reply = .ok msg → Settings.load json after.files = after.settings

/-- None of the four steps of a save fails. -/
structure SaveIo.Saves (io : SaveIo) (s : Settings) : Prop where
  createDirAll : io.createDirAll = .ok ()
  text : ∃ text, json.toStringPretty s.toJson = .ok text
  write : io.write = .ok ()
  rename : io.rename = .ok ()

/-- The change can be saved, or changes nothing. -/
def Savable (io : SaveIo) (key : Str) (value : Bool) (s : Settings) : Prop :=
  ∀ changed ∈ s.change key value, changed = s ∨ io.Saves json changed

end

-- ---------------------------------------------------------------------------
-- Saving and loading
-- ---------------------------------------------------------------------------

section
variable {json : SerdeJson} {io : SaveIo} {s settings : Settings} {files : SettingsFiles}
  {text key : Str} {value : Bool} {st : SettingsState} {ext : Extern}

theorem Settings.ofJson_toJson : Settings.ofJson s.toJson = some s := rfl

/-- A save whose steps all succeed leaves a file that is read back. -/
theorem save_saves (hjson : json.ReadsBack) (h : io.Saves json s) :
    ∃ files', s.save json io files = (.ok (), files') ∧ Settings.load json files' = s := by
  obtain ⟨text, htext⟩ := h.text
  refine ⟨{ file := some (text.flatMap String.utf8EncodeChar), tmp := none }, ?_, ?_⟩
  · simp only [Settings.save, h.createDirAll, htext, h.write, h.rename]
  · rw [Settings.load, Option.bind_some, Utf8.strict_encode, Option.bind_some, hjson s text htext,
      Option.bind_some, Settings.ofJson_toJson, Option.getD_some]

/-- Any other save is reported, and the file is the old one. -/
theorem save_fails (h : ¬io.Saves json s) :
    ∃ e files', s.save json io files = (.error e, files') ∧ files'.file = files.file := by
  unfold Settings.save
  split
  next e _ => exact ⟨e, files, rfl, rfl⟩
  next hdir =>
  split
  next e _ => exact ⟨e, files, rfl, rfl⟩
  next text htext =>
  split
  next e left _ => exact ⟨e, _, rfl, rfl⟩
  next hwrite =>
  dsimp only
  split
  next e _ => exact ⟨e, _, rfl, rfl⟩
  next hrename => exact absurd ⟨hdir, ⟨text, htext⟩, hwrite, hrename⟩ h

-- ---------------------------------------------------------------------------
-- One request
-- ---------------------------------------------------------------------------

theorem setSetting_unknown (h : st.settings.change key value = none) :
    setSetting json io key value st = (.error "UNKNOWN_KEY", st) := by
  rw [setSetting, h]

/-- Granted: the change is in memory and in the file. -/
theorem setSetting_saved (hjson : json.ReadsBack) (h : st.settings.change key value = some settings)
    (hsaves : io.Saves json settings) :
    ∃ files, setSetting json io key value st = (.ok [], { settings, files }) ∧
      Settings.load json files = settings := by
  obtain ⟨files, hsave, hload⟩ := @save_saves _ _ _ st.files hjson hsaves
  exact ⟨files, by rw [setSetting, h]; simp only [hsave], hload⟩

/-- Refused: the change is in memory all the same, and only there. -/
theorem setSetting_failed (h : st.settings.change key value = some settings)
    (hfails : ¬io.Saves json settings) :
    ∃ e files, setSetting json io key value st = (.error e, { settings, files }) ∧
      files.file = st.files.file := by
  obtain ⟨e, files, hsave, hfile⟩ := @save_fails _ _ _ st.files hfails
  exact ⟨"SAVE_FAILED:".toList ++ e, files, by rw [setSetting, h]; simp only [hsave], hfile⟩

/-- What is answered is true if and only if the change can be saved or is none. -/
theorem set_setting_iff (hjson : json.ReadsBack) :
    Honest json ext st (setSetting json io key value st).1 (setSetting json io key value st).2 ↔
      Savable json io key value st.settings := by
  unfold Savable
  cases hchange : st.settings.change key value with
  | none =>
    rw [setSetting_unknown hchange]
    exact ⟨(fun _ _ h => nomatch h),
      fun _ => ⟨fun _ _ => rfl, fun _ _ _ => rfl, fun _ h => nomatch h⟩⟩
  | some settings =>
    simp only [Option.mem_some_iff, forall_eq']
    by_cases hsaves : io.Saves json settings
    · obtain ⟨files, hset, hload⟩ := setSetting_saved hjson hchange hsaves
      rw [hset]
      exact ⟨fun _ => .inr hsaves,
        fun _ => ⟨(fun _ h => nomatch h), (fun _ h => nomatch h), fun _ _ => hload⟩⟩
    · obtain ⟨e, files, hset, -⟩ := setSetting_failed hchange hsaves
      rw [hset]
      constructor
      · exact fun h => .inl (h.refused e rfl)
      · intro h
        obtain rfl := h.resolve_right hsaves
        exact ⟨fun _ _ => rfl, fun _ _ _ => rfl, fun _ h => nomatch h⟩

-- ---------------------------------------------------------------------------
-- One request after the other
-- ---------------------------------------------------------------------------

/-- A restart would find the settings that are in force. -/
def SettingsState.Agrees (json : SerdeJson) (st : SettingsState) : Prop :=
  Settings.load json st.files = st.settings

def setSettings (json : SerdeJson) (st : SettingsState) (rs : List (SaveIo × Str × Bool)) :
    SettingsState :=
  rs.foldl (fun st (io, key, value) => (setSetting json io key value st).2) st

/-- Each change can be saved where it is made, or is none there. -/
def AllSavable (json : SerdeJson) : SettingsState → List (SaveIo × Str × Bool) → Prop
  | _, [] => True
  | st, (io, key, value) :: rs =>
    Savable json io key value st.settings ∧ AllSavable json (setSetting json io key value st).2 rs

theorem setSetting_agrees (hjson : json.ReadsBack) (h : st.Agrees json)
    (hkeep : Savable json io key value st.settings) :
    (setSetting json io key value st).2.Agrees json := by
  cases hchange : st.settings.change key value with
  | none => rwa [setSetting_unknown hchange]
  | some settings =>
    by_cases hsaves : io.Saves json settings
    · obtain ⟨files, hset, hload⟩ := setSetting_saved hjson hchange hsaves
      rw [hset]
      exact hload
    · obtain ⟨e, files, hset, hfile⟩ := setSetting_failed hchange hsaves
      obtain rfl := (hkeep settings hchange).resolve_right hsaves
      rw [hset]
      show Settings.load json files = st.settings
      rwa [Settings.load, hfile]

theorem setSettings_agrees (hjson : json.ReadsBack) {rs : List (SaveIo × Str × Bool)}
    (h : st.Agrees json) (hkeep : AllSavable json st rs) :
    (setSettings json st rs).Agrees json := by
  induction rs generalizing st with
  | nil => exact h
  | cons r rs ih =>
    obtain ⟨io, key, value⟩ := r
    exact ih (setSetting_agrees hjson h hkeep.1) hkeep.2

-- ---------------------------------------------------------------------------
-- The daemon's own
-- ---------------------------------------------------------------------------

/-- What `setSetting` does is one of the outcomes of the daemon's handler, as far
as memory, file and the kind of the answer go. -/
theorem handleSetSetting_takes {i : TaskId} {set : Settings → Settings} {s : Daemon}
    (hjson : json.ReadsBack) (hmemory : s.coord.settings = st.settings)
    (hfile : s.files.settings = Settings.load json st.files)
    (hset : st.settings.change key value = some (set st.settings)) :
    ∃ outcomes, handleSetSetting i set = .act outcomes .ret ∧
      ∃ r s', (r, s') ∈ outcomes s ∧
        s'.coord.settings = (setSetting json io key value st).2.settings ∧
        s'.files.settings = Settings.load json (setSetting json io key value st).2.files ∧
        (r matches .error _) = ((setSetting json io key value st).1 matches .error _) := by
  refine ⟨_, rfl, ?_⟩
  by_cases hsaves : io.Saves json (set st.settings)
  · obtain ⟨files, heq, hload⟩ := setSetting_saved hjson hset hsaves
    refine ⟨_, _, List.mem_cons_self, ?_⟩
    rw [heq, hload, ← hmemory]
    exact ⟨rfl, rfl, rfl⟩
  · obtain ⟨e, files, heq, hsame⟩ := setSetting_failed hset hsaves
    refine ⟨_, _, List.mem_cons_of_mem _ List.mem_cons_self, ?_⟩
    rw [heq, Settings.load, hsame, ← Settings.load, ← hfile, ← hmemory]
    exact ⟨rfl, rfl, rfl⟩

/-- And each request to set something runs that handler for its key. -/
theorem runRequest_setting {i : TaskId} {peer : Peer} {request : Request}
    (h : request.setting = some (key, value)) :
    ∃ set, (∀ s : Settings, s.change key value = some (set s)) ∧
      (runRequest ext i peer request = handleSetSetting i set ∨
        runRequest ext i peer request = handleSetSetting i set >>= fun response => do
          Proc.when (response matches .ok _) pushSshTakeover
          pure response) := by
  cases request with
  | setUnlockSudo v =>
    obtain ⟨rfl, rfl⟩ := Prod.mk.inj (Option.some.inj h)
    exact ⟨fun s => { s with unlockSudo := v }, fun _ => rfl, .inl rfl⟩
  | setUnlockPolkit v =>
    obtain ⟨rfl, rfl⟩ := Prod.mk.inj (Option.some.inj h)
    exact ⟨fun s => { s with unlockPolkit := v }, fun _ => rfl, .inl rfl⟩
  | setUnlockScreen v =>
    obtain ⟨rfl, rfl⟩ := Prod.mk.inj (Option.some.inj h)
    exact ⟨fun s => { s with unlockScreen := v }, fun _ => rfl, .inl rfl⟩
  | setLockScreen v =>
    obtain ⟨rfl, rfl⟩ := Prod.mk.inj (Option.some.inj h)
    exact ⟨fun s => { s with lockScreen := v }, fun _ => rfl, .inl rfl⟩
  | setSshTakeover v =>
    obtain ⟨rfl, rfl⟩ := Prod.mk.inj (Option.some.inj h)
    exact ⟨fun s => { s with sshTakeover := v }, fun _ => rfl, .inr rfl⟩
  | _ => nomatch h

end

-- ---------------------------------------------------------------------------
-- A disk that is full
-- ---------------------------------------------------------------------------

/-- How `serde_json` writes settings. -/
def Settings.pretty (s : Settings) : Str :=
  "\x7b\n".toList ++ ",\n".toList.intercalate (s.fields.map fun (key, v) =>
    "  \"".toList ++ key ++ "\": ".toList ++ if v then "true".toList else "false".toList) ++
    "\n\x7d".toList

def Settings.all : List Settings := do
  let unlockSudo ← [false, true]
  let unlockPolkit ← [false, true]
  let unlockScreen ← [false, true]
  let lockScreen ← [false, true]
  let sshTakeover ← [false, true]
  pure { unlockSudo, unlockPolkit, unlockScreen, lockScreen, sshTakeover }

def SerdeJson.settings : SerdeJson where
  toStringPretty v := match Settings.ofJson v with
    | some s => .ok s.pretty
    | none => .error []
  fromStr text := (Settings.all.find? fun s => s.pretty = text).map Settings.toJson

theorem settings_readsBack : SerdeJson.settings.ReadsBack := by
  have hall : ∀ s ∈ Settings.all, Settings.all.find? (fun s' => s'.pretty = s.pretty) = some s := by
    decide +kernel
  rintro s text ⟨⟩
  have hs : s ∈ Settings.all := by
    obtain ⟨_ | _, _ | _, _ | _, _ | _, _ | _⟩ := s <;> decide
  show (Settings.all.find? fun s' => s'.pretty = s.pretty).map Settings.toJson = _
  rw [hall s hs, Option.map_some]

/-- `sudo` is not to be unlocked. -/
def SettingsState.sudoOff : SettingsState where
  settings := { Settings.default with unlockSudo := false }
  files :=
    { file := some ({ Settings.default with unlockSudo := false }.pretty.flatMap
        String.utf8EncodeChar)
      tmp := none }

def SaveIo.diskFull : SaveIo where
  createDirAll := .ok ()
  write := .error ("No space left on device (os error 28)", some [])
  rename := .ok ()

theorem set_setting_saved : Honest SerdeJson.settings .sample .sudoOff
    (setSetting SerdeJson.settings ⟨.ok (), .ok (), .ok ()⟩ "unlock_sudo" true .sudoOff).1
    (setSetting SerdeJson.settings ⟨.ok (), .ok (), .ok ()⟩ "unlock_sudo" true .sudoOff).2 := by
  refine (set_setting_iff settings_readsBack).mpr ?_
  rintro changed ⟨⟩
  exact .inr ⟨rfl, ⟨_, rfl⟩, rfl, rfl⟩

/-- The request to unlock it is refused, and `sudo` is unlocked. -/
theorem refused_and_made :
    (setSetting SerdeJson.settings .diskFull "unlock_sudo" true .sudoOff).1 =
      .error "SAVE_FAILED:No space left on device (os error 28)" ∧
    isServiceAllowed .sample SettingsState.sudoOff.settings "sudo" = false ∧
    isServiceAllowed .sample
      (setSetting SerdeJson.settings .diskFull "unlock_sudo" true .sudoOff).2.settings "sudo" =
      true ∧
    ¬Honest SerdeJson.settings .sample .sudoOff
      (setSetting SerdeJson.settings .diskFull "unlock_sudo" true .sudoOff).1
      (setSetting SerdeJson.settings .diskFull "unlock_sudo" true .sudoOff).2 := by
  have hbefore : isServiceAllowed .sample SettingsState.sudoOff.settings "sudo" = false := by
    decide
  have hafter : isServiceAllowed .sample
      (setSetting SerdeJson.settings .diskFull "unlock_sudo" true .sudoOff).2.settings "sudo" =
      true := by decide
  refine ⟨by decide, hbefore, hafter, fun h => ?_⟩
  have hsame := h.decisions _ rfl "sudo"
  rw [hbefore, hafter] at hsame
  nomatch hsame

end Immurok
