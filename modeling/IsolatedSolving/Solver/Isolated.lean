import IsolatedSolving.Channel.Parent
import IsolatedSolving.Supervision.Launch

/-! Solving in a worker.

A solve goes through phases: the problem is written into a channel, the worker is launched on it, its
end is classified, and what it left in the channel is read, whatever the end was. A worker whose end
speaks of exhausted resources counts as successful, unless crashes are to be reported in all cases.
Any step may fail; then nothing follows. The channel is given up at the end in every case, so a solve
leaves the names of segments as it found them. -/
namespace IsolatedSolving

open Channel (Parent)
open Segment (Store)
open Supervision (Launch Machine Mode Outcome)
open Wire (Checksum)
open Worker (Environment)

/-- How far a solve has come. -/
inductive Phase where
  | idle
  | serialized
  | launched
  | completed
  | timedOut
  | crashed
  | resultRead
  | done
  | failed
deriving DecidableEq, Repr

namespace Phase

def name : Phase → String
  | idle => "Idle"
  | serialized => "Serialized"
  | launched => "Launched"
  | completed => "Completed"
  | timedOut => "TimedOut"
  | crashed => "Crashed"
  | resultRead => "ResultRead"
  | done => "Done"
  | failed => "Failed"

end Phase

/-- A solver that runs its backend in a worker. The phases are those of the last solve, the latest
first; the exit code and the name of the channel belong to that solve too. -/
structure Isolated where
  executable : String
  settings : Settings
  environment : Environment
  problem : Problem
  solution : Solution
  phases : List Phase
  exitCode : Option ExitCode
  channel : Option String
deriving DecidableEq, Repr

namespace Isolated

/-- A solver for the worker with this executable. -/
def ofExecutable (executable : String) (settings : Settings) : Isolated where
  executable
  settings
  environment := []
  problem := .empty
  solution := default
  phases := []
  exitCode := none
  channel := none

/-- The solver with one more variable for its workers. -/
def withVariable (s : Isolated) (name value : String) : Isolated :=
  { s with environment := s.environment ++ [(name, value)] }

/-- How far the last solve has come. -/
def phase (s : Isolated) : Phase := s.phases.headD .idle

/-- Goes on to a phase. -/
def enter (s : Isolated) (p : Phase) : Isolated := { s with phases := p :: s.phases }

/-- Fails. -/
def fail (s : Isolated) (e : SolverError) : Except SolverError Unit × Isolated :=
  (.error e, s.enter .failed)

/-! ### Before the worker -/

/-- The solver without anything of an earlier solve. -/
def cleared (s : Isolated) : Isolated :=
  { s with
    phases := [.idle]
    exitCode := none
    channel := none
    solution := .empty s.problem.sense }

/-- How the workers of the solver are started. -/
def launch (s : Isolated) : Launch := ⟨s.executable, s.environment, s.settings.pollInterval⟩

/-- The time after which a worker is killed. -/
def limit (s : Isolated) : Option Nat := s.settings.waitBudget s.problem.options.maxSeconds

/-- Writes the problem into a channel. -/
def prepare [Checksum] (s : Isolated) (store : Store) :
    Except (Stop SolverError) String × Parent × Isolated × Store :=
  let s := s.cleared
  match (Parent.ofSettings s.settings).writeProblem store s.problem with
  | (.ok name, parent, store) =>
    (.ok name, parent, { s with channel := some name }.enter .serialized, store)
  | (.error (.error e), parent, store) => (.error (.error e), parent, s.enter .failed, store)
  | (.error (.fault f), parent, store) => (.error (.fault f), parent, s, store)

/-! ### After the worker -/

/-- A time in seconds. -/
def seconds (nanoseconds : Nat) : Binary64 :=
  (Binary64.ofInt (nanoseconds / Settings.nanosecondsInOne : Nat)).add
    (.ofRat ((nanoseconds % Settings.nanosecondsInOne : Nat) / Settings.nanosecondsInOne))

/-- The message on a worker that was killed for its time. -/
def timeoutMessage (maxSeconds : Binary64) (limit : Option Nat) : String :=
  let budget := (limit.map seconds).getD .infinity
  s!"Failed solving by timeout. (limit:{maxSeconds.text} timeout:{budget.text})"

/-- The phase that a worker with this outcome ends in. -/
def endPhase (o : Outcome) : Phase :=
  if o.timedOut then .timedOut else if o.exitCode.isSuccess then .completed else .crashed

/-- The message on a worker with this outcome. -/
def endMessage (s : Isolated) (o : Outcome) (limit : Option Nat) : String :=
  if o.timedOut then timeoutMessage s.problem.options.maxSeconds limit else o.exitCode.message

/-- Takes over what a worker left in the channel. -/
def readResult [Checksum] (s : Isolated) (parent : Parent) (store : Store) :
    Except SolverError Isolated :=
  (parent.readSolution store).map fun found =>
    { s with solution := found.getD (.empty s.problem.sense) }

/-- The failure that an exit code amounts to. -/
def failure? (s : Isolated) (code : ExitCode) (message : String) : Option SolverError :=
  if code = .invalidStart then some (.invalidStart message)
  else if code.isSuccess then none
  else if s.settings.reportAllCrashes || !code.isIgnorable then some (.worker code message)
  else none

/-- Ends a solve whose worker has had this outcome. -/
def finish [Checksum] (s : Isolated) (parent : Parent) (result : Except SolverError Outcome)
    (limit : Option Nat) (store : Store) : Except SolverError Unit × Isolated :=
  match result with
  | .error e => s.fail e
  | .ok o =>
    let s := { s with exitCode := some o.exitCode }.enter (endPhase o)
    match s.readResult parent store with
    | .error e => s.fail e
    | .ok s =>
      let s := s.enter .resultRead
      match s.failure? o.exitCode (s.endMessage o limit) with
      | some e => s.fail e
      | none => (.ok (), s.enter .done)

/-! ### The whole solve -/

/-- How a worker is run on the segment of a name, with a limit. -/
abbrev Runner := String → Option Nat → Store → Except (Stop SolverError) Outcome × Store

/-- Solves the problem, with workers run as given. -/
def solveWith [Checksum] (run : Runner) (s : Isolated) (store : Store) :
    Except (Stop SolverError) Unit × Isolated × Store :=
  match s.prepare store with
  | (.error stop, parent, s, store) => (.error stop, s, (parent.release store).2)
  | (.ok name, parent, s, store) =>
    let s := s.enter .launched
    let (result, store) := run name s.limit store
    let kept := (parent.release store).2
    match settle result with
    | .error f => (.error (.fault f), s, kept)
    | .ok result =>
      let (result, s) := s.finish parent result s.limit store
      (result.mapError .error, s, kept)

/-- Solves the problem in a worker of a machine. -/
def solve [Checksum] (machine : Machine) (mode : Mode) (s : Isolated) (store : Store) :
    Except (Stop SolverError) Unit × Isolated × Store :=
  s.solveWith (s.launch.run machine mode) store

end Isolated

end IsolatedSolving
