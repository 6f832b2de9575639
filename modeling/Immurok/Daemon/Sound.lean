import Immurok.Daemon.Requests
import Immurok.Daemon.Serving

/-!
# Every run is a trace

The worker, the connections and the outside world keep to the machine, so
whatever holds of its traces holds of the history of every run.
-/

namespace Immurok

open Async Machine

variable {ext : Extern} {files : Files} {s s' : Daemon} {c : Config Daemon}

theorem envStep_follows {x : Env} (h : envStep x s = some s') :
    (machine ext files).Follows observed none s s' := by
  have quiet (hv : s'.view = s.view) : (machine ext files).Follows observed none s s' :=
    .inl (Daemon.quiet hv)
  cases x with
  | tick d =>
    cases h
    exact .inr ⟨.ticked d, rfl, Daemon.note_emits rfl trivial⟩
  | ready | disconnect | exit | socketClose i =>
    cases h
    exact quiet rfl
  | replyLine line =>
    simp only [envStep] at h
    split at h
    · cases h
      exact quiet rfl
    · cases h
  | frame f =>
    simp only [envStep] at h
    split at h
    next hf =>
      cases h
      exact .inr ⟨.arrived f, rfl, Daemon.note_emits rfl hf.2⟩
    next => cases h
  | screen b =>
    cases h
    exact .inr ⟨.screen b, rfl, Daemon.note_emits rfl trivial⟩
  | socketData i bs =>
    simp only [envStep] at h
    split at h
    · cases h
    · cases h
      exact quiet rfl

theorem serves : (machine ext files).Serves observed (system ext) where
  env _ _ _ h _ := envStep_follows h
  serve
    | 0, _ => .ret .true fun _ => id
    | i + 1, _ => (serveConn_spec : ClientTriple ext files i.succ_ne_zero _ _ _)

theorem start_safe : ((machine ext files).protocol observed).Safe (start ext files) := by
  refine ⟨.nil, fun i t ht => ?_⟩
  cases i with
  | zero =>
    obtain rfl : run ext = t := by simpa [start] using ht
    exact run_spec _ .nil ⟨rfl, rfl⟩
  | succ i => simp [start] at ht

/-- The history of a run whose events meet `cond`. -/
theorem traced {cond : View → Ev → Prop}
    (h : (system ext).Run (During observed cond) (start ext files) c) :
    (machine ext files).Trace cond c.shared.log c.shared.view :=
  (serves).trace start_safe rfl rfl h

theorem reached (h : (system ext).Reach (start ext files) c) :
    (machine ext files).Trace (fun _ _ => True) c.shared.log c.shared.view :=
  traced (h.mono fun _ _ _ _ _ => trivial)

-- ---------------------------------------------------------------------------
-- Runs
-- ---------------------------------------------------------------------------

/-- Surroundings to run the daemon in. The two digests are those of the
messages that occur under the key `Files.sample` holds. -/
def Extern.sample : Extern where
  hmacSha256 key data :=
    if key = List.replicate 32 0 ∧ data = [0x21, 1, 0] then
      [148, 128, 145, 147, 212, 71, 10, 190, 49, 123, 175, 84, 89, 211, 255, 22, 50, 129, 12, 148,
        102, 129, 16, 27, 90, 132, 147, 195, 175, 183, 92, 213]
    else if key = List.replicate 32 0 ∧ data = List.replicate 8 0 then
      [243, 117, 24, 10, 186, 146, 136, 132, 1, 241, 145, 155, 228, 168, 113, 90, 98, 118, 59, 101,
        193, 193, 14, 29, 8, 88, 232, 29, 77, 111, 159, 210]
    else List.replicate 32 0
  sha256 _ := List.replicate 32 0
  toLowercase s := s.map Char.toLower
  uidOfUser user := if user = "u".toList then some 1000 else none
  polkitdUid := none
  daemonUid := 0
  graphicalSession _ := "1"
  random _ := List.replicate 8 0
  generateKeypair _ := ([], [])
  ecdhSharedSecret _ _ := .error "not a point"
  deriveSharedKey _ := .error "no key"
  base64Encode _ := []
  base64Decode _ := none
  sshKeysJson _ := "[]"
  keyNamesJson _ := "[]"

/-- A paired device that has one OTP entry. -/
def Files.sample : Files where
  owner := some "1000\n"
  pairing := some { deviceUuid := "d", sharedKey := List.replicate 32 0, pairedAt := "1Z" }
  settings := .default
  sshKeys := []
  keyNames := [{ index := 0, category := "otp", name := "n", service := [] }]
  digests := []

/-- The signed match that goes with them. -/
def sampleMatch : Bytes := [0x21, 1, 0, 148, 128, 145, 147, 212, 71, 10, 190]

/-- Task `i` takes the first outcome of each of its next `n` steps. -/
def go (i : TaskId) (n : Nat) : List (Event Env Conn) := List.replicate n (.run i 0)

/-- The helper confirms a write. -/
def confirm : Event Env Conn := .env (.replyLine "WRITE_OK")

/-- The device answers the command `c`. -/
def answer (c : CmdId) (data : Bytes) : Event Env Conn := .env (.frame ⟨data, some c⟩)

/-- A request line of a connection of root, up to where it is read whole. -/
def ask (i : TaskId) (line : String) : List (Event Env Conn) :=
  [.spawn i (.pam (some ⟨0, 1⟩)), .env (.socketData i (utf8 (line ++ "\n").toList)), .run i 0,
    .run i line.length]

/-- A session up to its loop. `KEY_COUNT`, the command 2, is left unanswered. -/
def session : List (Event Env Conn) :=
  go 0 5 ++ .env .ready :: go 0 8 ++ confirm :: go 0 3 ++ answer 0 [0x00, 1, 1, 90] :: go 0 16 ++
    confirm :: go 0 3 ++ answer 1 [0x38, 243, 117, 24, 10, 186, 146, 136, 132] :: go 0 15 ++
    confirm :: go 0 3 ++ .env (.tick 5000) :: go 0 5

/-- An `AUTH` up to the wait for the answer of its `AUTH_REQUEST`, the command 3. -/
def asked : List (Event Env Conn) :=
  session ++ ask 1 "AUTH:u:sudo" ++ go 1 10 ++ go 0 4 ++ confirm :: go 0 3

/-- The `AUTH_REQUEST` is answered in time, first that a touch is waited for. -/
def touched : List (Event Env Conn) :=
  asked ++ answer 3 [rspWaitFp] :: go 0 12 ++ answer 3 [rspOk] :: go 0 11 ++ go 1 5

end Immurok
