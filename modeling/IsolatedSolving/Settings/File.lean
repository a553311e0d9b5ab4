import IsolatedSolving.Failure.Error
import IsolatedSolving.Settings.Basic
import IsolatedSolving.Toml.Document
import IsolatedSolving.Toml.Quoted

/-! Settings in files.

Each setting is an entry at the top of the file. Entries that are missing keep their standard values,
unknown ones are ignored, and an entry of another type or outside the range of its setting makes the
file invalid. `write` puts all settings in a fixed order; only a poll interval beyond the integers of
the file format cannot be written. -/
namespace IsolatedSolving

namespace Settings

/-! ### Reading -/

/-- A number, which may be written as an integer. -/
def number? : Toml.Value → Option Binary64
  | .float x => some x
  | .integer n => some (.ofInt n)
  | _ => none

/-- An integer that is not negative and below the limit. -/
def count? (limit : Nat) : Toml.Value → Option Nat
  | .integer n => if 0 ≤ n && n < limit then some n.toNat else none
  | _ => none

def boolean? : Toml.Value → Option Bool
  | .boolean b => some b
  | _ => none

def string? : Toml.Value → Option String
  | .string text => some text
  | _ => none

/-- The value under a key, or the standard one if the key is missing; nothing if it has the wrong
form. -/
def valueOf? {α : Type} (es : Toml.Entries) (key : String) (read : Toml.Value → Option α)
    (standard : α) : Option α :=
  match es.get? key with
  | none => some standard
  | some v => read v

/-- The settings that a table holds. -/
def ofEntries (es : Toml.Entries) : Option Settings := do
  let d := standard
  return {
    relativeOvertime := ← valueOf? es "relative_overtime" number? d.relativeOvertime
    absoluteOvertime := ← valueOf? es "absolute_overtime_seconds" number? d.absoluteOvertime
    baseName := ← valueOf? es "shm_base_name" string? d.baseName
    trials := ← valueOf? es "shm_name_trials" (fun v => (count? UInt32.size v).map UInt32.ofNat) d.trials
    reportAllCrashes := ← valueOf? es "throw_on_all_crashes" boolean? d.reportAllCrashes
    workerPath := ← valueOf? es "worker_path" (fun v => (string? v).map some) d.workerPath
    pollMilliseconds :=
      ← valueOf? es "poll_interval_ms" (fun v => (count? UInt64.size v).map UInt64.ofNat)
        d.pollMilliseconds }

/-- The settings that a text describes. -/
def parse (text : String) : Except SolverError Settings :=
  match (Toml.parse text).bind ofEntries with
  | some s => .ok s
  | none => .error (.config "invalid settings")

/-- The settings in a file of these bytes. A file that does not exist has none. -/
def load (file : Option (List UInt8)) : Except SolverError Settings :=
  match file with
  | none => .error (.access (.system SystemError.noSuchFile))
  | some bytes =>
    match String.fromUTF8? ⟨bytes.toArray⟩ with
    | some text => parse text
    | none => .error (.access (.other "stream did not contain valid UTF-8"))

/-- The settings of a user, whose file need not exist. -/
def loadOrStandard (file : Option (List UInt8)) : Except SolverError Settings :=
  match file with
  | none => .ok standard
  | some bytes => load (some bytes)

/-! ### Writing -/

/-- A key and the text of its value on a line. -/
def line (key value : String) : String := key ++ " = " ++ value ++ "\n"

/-- The lines of the settings, in order. -/
def writtenLines (s : Settings) : List String :=
  [line "relative_overtime" (Toml.writtenFloat s.relativeOvertime),
    line "absolute_overtime_seconds" (Toml.writtenFloat s.absoluteOvertime),
    line "shm_base_name" (String.ofList (Toml.quoted s.baseName)),
    line "shm_name_trials" (toString s.trials.toNat),
    line "throw_on_all_crashes" (if s.reportAllCrashes then "true" else "false")] ++
  (s.workerPath.map fun path => line "worker_path" (String.ofList (Toml.quoted path))).toList ++
  [line "poll_interval_ms" (toString s.pollMilliseconds.toNat)]

/-- The text of a settings file. -/
def write (s : Settings) : Except SolverError String :=
  if 1 <<< 63 ≤ s.pollMilliseconds.toNat then .error (.config "integer out of range")
  else .ok (String.join s.writtenLines)

/-- Saves the settings in a file. If they cannot be written, it stays as it was. -/
def save (s : Settings) (file : Option (List UInt8)) : Except SolverError Unit × Option (List UInt8) :=
  match s.write with
  | .ok text => (.ok (), some text.toUTF8.data.toList)
  | .error e => (.error e, file)

end Settings

/-! ### Places -/

/-- The files of a user. -/
structure Home where
  directory : String

namespace Home

/-- The directory of the settings. -/
def settingsDirectory (h : Home) : String := h.directory ++ "/.ilp-solver"

def settingsFile (h : Home) : String := h.settingsDirectory ++ "/config.toml"

/-- The directory of installed workers. -/
def workerDirectory (h : Home) : String := h.settingsDirectory ++ "/solvers"

end Home

end IsolatedSolving
