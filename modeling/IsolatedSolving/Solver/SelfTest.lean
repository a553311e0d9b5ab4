import IsolatedSolving.Settings.File
import IsolatedSolving.Solver.Basic

/-! Checking that a worker works.

The worker gets a small problem whose optimum is two thirds for both variables, and has to prove it
up to a tolerance. -/
namespace IsolatedSolving.SelfTest

open Segment (Store)
open Supervision (Machine)
open Wire (Checksum)

/-- How far a value may be off. -/
def tolerance : Binary64 := ⟨0x3f1a36e2eb1c432d⟩

/-- The value of both variables at the optimum. -/
def expected : Binary64 := ⟨0x3fe5555555555555⟩

/-- The time limit in seconds. -/
def maxSeconds : Binary64 := .ofInt 5

/-- Two variables between minus one and one, with two bounded sums. -/
def edits : List Edit :=
  let two := Binary64.ofInt 2
  let column := Edit.column .continuous .one (.neg .one) .one [] []
  [column, column, .atMost [0, 1] [.one, two] two, .atMost [0, 1] [two, .one] two]

/-- The solver to test, with the problem in it. -/
def solver (executable : String) (settings : Settings) : Except (Stop SolverError) Solver :=
  let start := Solver.isolated (.ofExecutable executable { settings with reportAllCrashes := true })
  let options := { start.problem.options with maxSeconds }
  edits.foldlM (fun s e => match s.edit e with
    | (.ok _, s) => .ok s
    | (.error stop, _) => .error stop) (start.withProblem { start.problem with options })

/-- Whether the result is the proven optimum. -/
def isCorrect (s : Solution) : Bool :=
  s.status == .provenOptimal && s.values.length == 2 &&
    s.values.all fun v => (v.sub expected).abs.le tolerance

/-- The failure of a worker that gives this result. -/
def wrongResult (s : Solution) : SolverError :=
  let values := ", ".intercalate (s.values.map (Binary64.spell .listing))
  .solver s!"Self test got status {s.status.text} and solution [{values}]"

/-- The exit code of a solve. A solver in the current process has none. -/
def exitCodeOf : Solver → ExitCode
  | .isolated s => s.exitCode.getD .ok
  | .direct _ => .ok

/-- Tests a worker with the settings in a file of the user. -/
def run [Checksum] (machine : Machine) (file : Option (List UInt8)) (executable : String)
    (store : Store) : Except (Stop SolverError) ExitCode × Store :=
  match (Settings.loadOrStandard file).mapError Stop.error >>= solver executable with
  | .error stop => (.error stop, store)
  | .ok s =>
    match s.optimize machine .looking .maximize store with
    | (.error stop, _, store) => (.error stop, store)
    | (.ok (), s, store) =>
      if isCorrect s.solution then (.ok (exitCodeOf s), store)
      else (.error (.error (wrongResult s.solution)), store)

end IsolatedSolving.SelfTest
