import IsolatedSolving.Supervision.Watch
import IsolatedSolving.Worker.Program

/-! Starting workers and waiting for them.

A machine knows which executables can be started. A worker that ends by itself is taken to end before
anybody looks, so a limit only matters to one that hangs. -/
namespace IsolatedSolving.Supervision

open Segment (Store)
open Worker (Ending Environment Program)

/-- The executables that can be started, by their paths. -/
structure Machine where
  spawn : String → Except AccessError Program

/-- Whether a wait looks again and again or is told of the end. -/
inductive Mode where
  | looking
  | told
deriving DecidableEq, Repr

/-- The number of the signal that kills. -/
def killSignal : Nat := 9

/-- The child process of a program with this ending. -/
def childOf : Ending → Child
  | .ended e => ⟨fun _ => .ok (some e), .ok (), .ok e⟩
  | .hanging => ⟨fun _ => .ok none, .ok (), .ok (.signalled killSignal)⟩

/-- When the ending becomes known. -/
def noticeOf : Ending → Notice
  | .ended e => some (0, .ok e)
  | .hanging => none

/-- A clock by which the whole limit has passed at the second look. -/
def limitClock (limit : Option Nat) : Clock := fun look => look * limit.getD 0

/-- Waits for a program with this ending. -/
def waitFor (mode : Mode) (ending : Ending) (poll : Nat) (limit : Option Nat) :
    Except (Stop SolverError) Outcome :=
  let result := match mode with
    | .looking => (watch (childOf ending) (limitClock limit) poll limit 2 0).map Prod.snd
    | .told => await (noticeOf ending) limit
  match result with
  | some result => result.mapError .error
  | none => .error (.fault .endless)

/-- How to start a worker: its executable, its variables, and the time between two looks. -/
structure Launch where
  executable : String
  environment : Environment
  poll : Nat
deriving DecidableEq, Repr

/-- Starts a worker with one argument and waits for it. -/
def Launch.run (l : Launch) (machine : Machine) (mode : Mode) (argument : String)
    (limit : Option Nat) (store : Store) : Except (Stop SolverError) Outcome × Store :=
  match machine.spawn l.executable with
  | .error e => (.error (.error (.processStart e)), store)
  | .ok program =>
    let (ending, store) := program l.environment [argument] store
    (waitFor mode ending l.poll limit, store)

end IsolatedSolving.Supervision
