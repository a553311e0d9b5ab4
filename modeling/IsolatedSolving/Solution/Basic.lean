import IsolatedSolving.Number.Binary64
import IsolatedSolving.Problem.Kind
import IsolatedSolving.Solution.Status
import IsolatedSolving.Wire.Item

/-! Results of a solve.

A result bears a solution if its status says so and it has values. `isBetter` is strict: results
without a solution improve on nothing, results with one improve on those without, and otherwise the
objective decides, so that a NaN improves on nothing. -/
namespace IsolatedSolving

/-- A result, with the resources that went into it. The dual values may be missing, and the memory
is counted in bytes. -/
structure Solution where
  status : Status
  objective : Binary64
  values : List Binary64
  duals : List Binary64
  cpuSeconds : Binary64
  peakMemory : UInt64
deriving DecidableEq, Repr

namespace Solution

/-- The objective that every solution improves on. -/
def worstObjective : Sense → Binary64
  | .minimize => .infinity
  | .maximize => .negInfinity

/-- The result of a solve that has not found anything yet. -/
def empty (sense : Sense) : Solution where
  status := .noSolution
  objective := worstObjective sense
  values := []
  duals := []
  cpuSeconds := .zero
  peakMemory := 0

instance : Inhabited Solution := ⟨empty .minimize⟩

/-- A result as large as one for this many columns and rows can be. -/
def largest (columns rows : Nat) : Solution :=
  { empty .minimize with
    values := List.replicate columns .zero
    duals := List.replicate rows .zero }

/-- Whether there is a feasible point in the result. -/
def bearsSolution (s : Solution) : Bool := !s.values.isEmpty && s.status.bearsSolution

/-- Whether the first objective is strictly better than the second. -/
def improves (sense : Sense) (a b : Binary64) : Bool :=
  match sense with
  | .minimize => a.lt b
  | .maximize => b.lt a

/-- Whether the result strictly improves on another. -/
def isBetter (s other : Solution) (sense : Sense) : Bool :=
  s.bearsSolution && (!other.bearsSolution || improves sense s.objective other.objective)

/-- Equality with numbers compared by value. -/
def equals (s t : Solution) : Bool :=
  s.status == t.status && s.objective.equals t.objective &&
    s.values.isEqv t.values Binary64.equals && s.duals.isEqv t.duals Binary64.equals &&
    s.cpuSeconds.equals t.cpuSeconds && s.peakMemory == t.peakMemory

/-! ### Layout -/

open Wire (Layout Transportable)

/-- Status, objective, values, duals and resources, in this order. -/
def layout : Layout :=
  [.scalar .status, .scalar .float64, .array .float64, .array .float64, .scalar .float64,
    .scalar .uint64]

instance : Transportable Solution where
  layout := layout
  toRecord s := (s.status, s.objective, s.values, s.duals, s.cpuSeconds, s.peakMemory, ())
  ofRecord
    | (status, objective, values, duals, cpuSeconds, peakMemory, ()) =>
      { status, objective, values, duals, cpuSeconds, peakMemory }
  ofRecord_toRecord _ := rfl
  toRecord_ofRecord _ := rfl

end Solution

end IsolatedSolving
