import IsolatedSolving.Problem.Start
import IsolatedSolving.Problem.Validity
import IsolatedSolving.Worker.Backend

/-! Solving in the current process.

A solve first forgets the result of the one before. Then it refuses a problem whose parts do not fit
together, refuses a bad start, and runs the backend; only a solve that succeeds leaves a result and
the number of reports on the way behind. -/
namespace IsolatedSolving

/-- A solver around a backend: its problem, the result of the last solve, and how many results were
reported during it. -/
structure Direct where
  backend : Backend
  problem : Problem
  solution : Solution
  improvements : Nat

namespace Direct

/-- A solver with an empty problem. -/
def ofBackend (backend : Backend) : Direct := ⟨backend, .empty, default, 0⟩

/-- The solver without the result of an earlier solve. -/
def cleared (d : Direct) : Direct :=
  { d with solution := .empty d.problem.sense, improvements := 0 }

/-- Refuses what the backend should not see. -/
def vet (p : Problem) : Except (Stop SolverError) Unit :=
  match p.validate with
  | .error defect => .error (.error (.model defect.message))
  | .ok () => p.checkStartError.mapError (Stop.mapError .ofBackend)

/-- Takes over what the backend did. -/
def finish (d : Direct) (run : Run) : Except (Stop SolverError) Unit × Direct :=
  match run.finish with
  | .returned s => (.ok (), { d with solution := s, improvements := run.reports.length })
  | .failed e => (.error (.error (.ofBackend e)), d)
  | .brokeOff text => (.error (.fault (.aborted text)), d)
  | .leftProcess _ => (.error (.fault (.aborted none)), d)
  | .hanging => (.error (.fault .endless), d)

/-- Solves the problem. -/
def solve (d : Direct) : Except (Stop SolverError) Unit × Direct :=
  match vet d.problem with
  | .error stop => (.error stop, d.cleared)
  | .ok () => d.cleared.finish (d.backend.solve d.problem)

end Direct

end IsolatedSolving
