import IsolatedSolving.Failure.Error
import IsolatedSolving.Problem.Basic
import IsolatedSolving.Solution.Basic

/-! Backends.

A backend is known by what it does with a problem: the results it reports on the way, in order, and
how it ends. It may return a result, fail, break off with or without a text, take its whole process
with it, or never end. -/
namespace IsolatedSolving

/-- How the work of a backend ends. -/
inductive Finish where
  | returned (s : Solution)
  | failed (e : BackendError)
  | brokeOff (text : Option String)
  | leftProcess (e : ProcessEnd)
  | hanging
deriving DecidableEq, Repr

/-- The work of a backend on one problem. -/
structure Run where
  reports : List Solution
  finish : Finish
deriving DecidableEq, Repr

/-- Reports a result once and returns it. -/
def Run.once (s : Solution) : Run := ⟨[s], .returned s⟩

/-- A solver in the current process. -/
structure Backend where
  name : String
  solve : Problem → Run

namespace Backend

/-- The start as an optimum, or the lower bounds if there is no start. -/
def echoSolution (p : Problem) : Solution :=
  let x := if p.start.isEmpty then p.columnLower else p.start
  { Solution.empty p.sense with
    status := .provenOptimal
    objective := (x.zip p.objective).foldl (fun total (a, c) => total.add (a.mul c)) .zero
    values := x }

/-- A backend that solves nothing and gives back where it started. -/
def echo : Backend := ⟨"echo", fun p => Run.once (echoSolution p)⟩

/-- A backend that does the same for every problem. -/
def constant (name : String) (run : Run) : Backend := ⟨name, fun _ => run⟩

end Backend

end IsolatedSolving
