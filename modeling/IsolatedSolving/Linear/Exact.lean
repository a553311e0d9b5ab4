import IsolatedSolving.Linear.Branching
import IsolatedSolving.Worker.Backend

/-! The backend that solves models exactly.

It builds the model of a problem, searches its best point and gives the numbers nearest to it. It
reports its result once, also if there is no solution, and returns it. Options other than the sense
do not matter to it, and neither does a start. -/
namespace IsolatedSolving.Linear

/-- The name of the backend. -/
def backendName : String := "microlp"

/-- A failure of the search itself. -/
def internalError (text : String) : BackendError :=
  .solver s!"An unexpected error occurred while running the optimizer: {text}"

/-- The best point of a model, or the status that takes its place. The first column without whole
values to search decides what is wrong. -/
def Model.solve (m : Model) : Except BackendError (Except Status (List Rat)) :=
  if !m.isFinite then .error (internalError "Coefficients have to be finite.")
  else
    match m.columns.mapM Column.searchRange with
    | .error .tooLarge =>
      .error (internalError "Microlp only supports integer bounds within the i32 range.")
    | .error .empty => .ok (.error .provenInfeasible)
    | .ok ranges =>
      match m.best ranges with
      | .ok x => .ok (.ok x)
      | .error .infeasible => .ok (.error .provenInfeasible)
      | .error .unbounded => .ok (.error .provenUnbounded)
      | .error .exhausted => .error (internalError "Out of steps.")

/-- The result at a point, with the objective recomputed from the numbers in it. -/
def resultAt (p : Problem) (x : List Rat) : Solution :=
  let values := x.map Binary64.ofRat
  { Solution.empty p.sense with
    status := .provenOptimal
    objective := Binary64.sum (List.zipWith Binary64.mul p.objective values)
    values }

/-- The work on a problem. -/
def solve (p : Problem) : Run :=
  match Model.ofProblem p with
  | .error (.error e) => ⟨[], .failed e⟩
  | .error (.fault (.aborted text)) => ⟨[], .brokeOff text⟩
  | .error (.fault _) => ⟨[], .brokeOff none⟩
  | .ok m =>
    match m.solve with
    | .error e => ⟨[], .failed e⟩
    | .ok (.ok x) => .once (resultAt p x)
    | .ok (.error status) => .once { Solution.empty p.sense with status }

/-- Solves linear and integer programs. -/
def backend : Backend := ⟨backendName, solve⟩

end IsolatedSolving.Linear
