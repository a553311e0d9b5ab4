import IsolatedSolving.Worker.Harness
import IsolatedSolving.Worker.Script

/-! Programs that are started as workers.

A program is known by what it does to the segments it can reach, given its environment and its
arguments, and by how it ends. -/
namespace IsolatedSolving.Worker

open Segment (Store)
open Wire (Checksum)

/-- The variables that a process is given. A later one replaces an earlier one of the same name. -/
abbrev Environment := List (String × String)

/-- The value of a variable. -/
def Environment.get? (e : Environment) (name : String) : Option String := e.reverse.lookup name

/-- How a process ends if nobody interferes. -/
inductive Ending where
  | ended (e : ProcessEnd)
  | hanging
deriving DecidableEq, Repr

/-- A program that can be started. -/
abbrev Program := Environment → List String → Store → Ending × Store

/-- The end of a process whose work is complete in this way. -/
def Completion.ending : Completion ExitCode → Ending
  | .done code => .ended (.exiting code.raw)
  | .leftProcess e => .ended e
  | .hanging => .hanging

namespace Program

/-- The worker around a backend. -/
def ofBackend [Checksum] (backend : Backend) (meter : Meter) : Program := fun _ arguments store =>
  let (completion, store) := Worker.run backend meter arguments store
  (completion.ending, store)

/-- The worker that follows the script in its environment. It refuses a script that it cannot read
before it looks at its arguments. -/
def scripted [Checksum] (meter : Meter) : Program := fun environment arguments store =>
  match Script.ofText? ((environment.get? Script.variableName).getD "") with
  | none => (.ended (.exiting ExitCode.commandLine.raw), store)
  | some script => ofBackend script.backend meter environment arguments store

/-- A program that only exits with a status. -/
def exiting (status : Int32) : Program := fun _ _ store => (.ended (.exiting status), store)

end Program

end IsolatedSolving.Worker
