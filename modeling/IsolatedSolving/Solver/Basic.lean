import IsolatedSolving.Solver.Direct
import IsolatedSolving.Solver.Edit
import IsolatedSolving.Solver.Isolated

/-! Solvers as callers see them.

Whether a solver works in the current process or in workers makes no difference to how a problem is
built, solved and read out. Optimising in a direction does nothing at all unless the time limit leaves
time; a limit that is not a number does. -/
namespace IsolatedSolving

open Segment (Store)
open Supervision (Machine Mode)
open Wire (Checksum)

/-- A solver in the current process or in workers. -/
inductive Solver where
  | direct (d : Direct)
  | isolated (s : Isolated)

namespace Solver

def problem : Solver → Problem
  | direct d => d.problem
  | isolated s => s.problem

/-- The result of the last solve. -/
def solution : Solver → Solution
  | direct d => d.solution
  | isolated s => s.solution

/-- The solver with another problem. -/
def withProblem (p : Problem) : Solver → Solver
  | direct d => direct { d with problem := p }
  | isolated s => isolated { s with problem := p }

/-- The solver with another result. -/
def withSolution (x : Solution) : Solver → Solver
  | direct d => direct { d with solution := x }
  | isolated s => isolated { s with solution := x }

/-! ### Building -/

/-- Does an edit on the problem. -/
def edit (e : Edit) (s : Solver) : Except (Stop SolverError) Added × Solver :=
  match e.apply s.problem with
  | .ok added p => (.ok added, s.withProblem p)
  | .error stop p => (.error (stop.mapError fun e => .model e.message), s.withProblem p)

/-- Forgets the start and the result. -/
def reset (s : Solver) : Solver :=
  (s.withProblem { s.problem with start := [] }).withSolution (.empty s.problem.sense)

/-! ### Solving -/

/-- Solves the problem as it is. The mode does not matter in the current process. -/
def solve [Checksum] (machine : Machine) (mode : Mode) (s : Solver) (store : Store) :
    Except (Stop SolverError) Unit × Solver × Store :=
  match s with
  | direct d =>
    let (result, d) := d.solve
    (result, direct d, store)
  | isolated s =>
    let (result, s, store) := s.solve machine mode store
    (result, isolated s, store)

/-- Whether the time limit of a problem leaves no time. -/
def hasNoTime (p : Problem) : Bool := p.options.maxSeconds.le .zero

/-- Solves the problem in a direction. -/
def optimize [Checksum] (machine : Machine) (mode : Mode) (sense : Sense) (s : Solver)
    (store : Store) : Except (Stop SolverError) Unit × Solver × Store :=
  if hasNoTime s.problem then (.ok (), s, store)
  else (s.withProblem { s.problem with sense }).solve machine mode store

end Solver

end IsolatedSolving
