import IsolatedSolving.Linear.Model
import IsolatedSolving.Linear.Simplex

/-! Models without their integrality.

The relaxation of a model asks for the best point in the ranges of the columns and rows. Its tableau
has a variable for each column, a basic one for the activity of each row, and a last one for the
objective, with the sign that makes large values good. -/
namespace IsolatedSolving.Linear

/-! ### Exact values -/

/-- The range of a number that is at most, at least or equal to a bound. Nothing finite lies beyond
the infinities. -/
def Relation.range (relation : Relation) (bound : Binary64) : Range :=
  let q := bound.toRat
  match relation with
  | .atMost =>
    if bound.isFinite then ⟨none, some q⟩ else if bound.isNegative then .nothing else .unbounded
  | .atLeast =>
    if bound.isFinite then ⟨some q, none⟩ else if bound.isNegative then .unbounded else .nothing
  | .equal => if bound.isFinite then ⟨some q, some q⟩ else .nothing

/-- The values that are in both ranges. One of the two has no lower bound and the other no upper
bound. -/
def Range.inter (r s : Range) : Range := ⟨r.lower <|> s.lower, r.upper <|> s.upper⟩

/-- The range of a column. -/
def Column.range (c : Column) : Range :=
  let lower := c.lower.map (Relation.range .atLeast)
  let upper := c.upper.map (Relation.range .atMost)
  match lower, upper with
  | some l, some u => if l.isEmpty || u.isEmpty then .nothing else l.inter u
  | some l, none => l
  | none, some u => u
  | none, none => .unbounded

/-- The exact coefficients of a sum of terms, one for each of so many variables. -/
def coefficients (size : Nat) (terms : List (Nat × Binary64)) : Array Rat :=
  terms.foldl (fun cs (j, c) => cs.modify j (· + c.toRat)) (Array.replicate size 0)

/-- The terms of the objective. -/
def Model.objectiveTerms (m : Model) : List (Nat × Binary64) :=
  (m.objective.take m.columns.length).zipIdx.map fun (c, j) => (j, c)

/-- Whether all coefficients are finite. -/
def Model.isFinite (m : Model) : Bool :=
  m.objectiveTerms.all (·.2.isFinite) && m.rows.all fun r => r.terms.all (·.2.isFinite)

/-! ### The tableau of a model -/

namespace Model

/-- The number of variables of the tableau: columns, rows and objective. -/
def size (m : Model) : Nat := m.columns.length + m.rows.length + 1

/-- The objective, with the sign that makes large values good. -/
def gain (m : Model) : Array Rat :=
  let cs := coefficients m.size m.objectiveTerms
  match m.sense with
  | .maximize => cs
  | .minimize => cs.map (- ·)

/-- The expressions of the rows and of the objective. -/
def expressions (m : Model) : List Expression :=
  (m.rows.zipIdx.map fun (r, i) => ⟨m.columns.length + i, coefficients m.size r.terms⟩) ++
    [⟨m.columns.length + m.rows.length, m.gain⟩]

/-- The tableau with these ranges of the columns, and every column at the start of its range. -/
def tableau (m : Model) (columns : List Range) : Tableau :=
  let rows := m.rows.map fun r => r.relation.range r.bound
  let blank : Tableau :=
    { ranges := (columns ++ rows ++ [Range.unbounded]).toArray
      values := Array.replicate m.size 0
      rows := m.expressions }
  columns.zipIdx.foldl (fun t (r, j) => t.shift j r.start) blank

/-- More steps than there are ways to put each variable at a bound, free, or into the basis. -/
def stepLimit (m : Model) : Nat := Nat.pow 4 m.size + 1

/-- The best value of the objective, as a gain, and the columns at it. -/
def relax (m : Model) (columns : List Range) : Except Verdict (Rat × List Rat) := do
  let t := m.tableau columns
  if t.ranges.any Range.isEmpty then throw .infeasible
  let t ← t.restore m.stepLimit
  let t ← t.raise (m.size - 1) m.stepLimit
  return (t.value (m.size - 1), t.values.toList.take m.columns.length)

end Model

end IsolatedSolving.Linear
