import IsolatedSolving.Linear.Exact
import IsolatedSolving.Solver.Basic
import IsolatedSolving.Supervision.Locate
import IsolatedSolving.Text.LowerCase
import IsolatedSolving.Text.Quoted

/-! Solvers by name.

A registry holds what makes a solver under each name, in the order of the names. A name is looked up
as it is given, and if there is nothing under it in lower case. -/
namespace IsolatedSolving

/-- What makes a fresh solver, or why there is none. -/
abbrev Factory := Except SolverError Solver

/-- Factories by name, sorted by the name. -/
structure Registry where
  entries : List (String × Factory)

namespace Registry

def empty : Registry := ⟨[]⟩

/-- Puts an entry into its place, and an earlier one of the same name out of it. -/
def insert (name : String) (f : Factory) : List (String × Factory) → List (String × Factory)
  | [] => [(name, f)]
  | (other, g) :: rest =>
    if name = other then (name, f) :: rest
    else if name < other then (name, f) :: (other, g) :: rest
    else (other, g) :: insert name f rest

/-- Puts a factory under a name, in place of an earlier one. -/
def register (r : Registry) (name : String) (f : Factory) : Registry := ⟨insert name f r.entries⟩

/-- What is under exactly this name. -/
def find? (r : Registry) (name : String) : Option Factory := r.entries.lookup name

/-- Whether there is anything under exactly this name. -/
def contains (r : Registry) (name : String) : Bool := (r.find? name).isSome

/-- The names in order. -/
def names (r : Registry) : List String := r.entries.map Prod.fst

/-- The names as a set in text. -/
def text (r : Registry) : String := Text.quotedSet r.names

/-- Makes the solver of a name. -/
def create (r : Registry) (name : String) : Except SolverError Solver :=
  match r.find? name <|> r.find? (Text.lowerCase name) with
  | some f => f
  | none => .error (.unknownSolver name)

end Registry

/-! ### The solvers around the exact backend -/

/-- The executable of its worker. -/
def workerName : String := "ilp-microlp"

/-- The name of the solver that runs the backend in the current process. -/
def directName : String := "microlp"

/-- The name of the solver that runs it in workers. -/
def isolatedName : String := "microlp-isolated"

/-- The isolated solver whose worker has this name. -/
def Isolated.locate (i : Supervision.Installation) (name : String) (settings : Settings) :
    Except SolverError Isolated :=
  (i.locate settings.workerPath name).map fun executable => .ofExecutable executable settings

/-- Both solvers. A worker that is not installed only makes the isolated one fail. -/
def Registry.standard (i : Supervision.Installation) (settings : Settings) : Registry :=
  (Registry.empty.register directName (.ok (.direct (.ofBackend Linear.backend)))).register
    isolatedName ((Isolated.locate i workerName settings).map .isolated)

end IsolatedSolving
