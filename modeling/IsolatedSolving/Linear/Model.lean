import IsolatedSolving.Failure.Error
import IsolatedSolving.Problem.Validity

/-! Linear models.

A model has columns, whose bounds may be missing, and rows, each of which compares a sum of terms with
a number. Bounds of a problem that restrict nothing have no place in its model: a row of the problem
becomes two rows of the model, one or none, and one with equal bounds becomes an equation. A column
may appear in several terms of a row, which then add up. Numbers stay as they are in the problem and
stand for their exact values. -/
namespace IsolatedSolving.Linear

/-- How a row compares its activity with its bound. -/
inductive Relation where
  | atMost
  | atLeast
  | equal
deriving DecidableEq, Repr

/-- The values that a column may take. -/
structure Column where
  lower : Option Binary64
  upper : Option Binary64
  integral : Bool
deriving DecidableEq, Repr

/-- A restriction on a sum of column numbers with coefficients. -/
structure Row where
  terms : List (Nat × Binary64)
  relation : Relation
  bound : Binary64
deriving DecidableEq, Repr

/-- A linear model. Columns without an entry in the objective do not count in it. -/
structure Model where
  columns : List Column
  objective : List Binary64
  rows : List Row
  sense : Sense
deriving DecidableEq, Repr

/-! ### Columns and rows of a problem -/

/-- A column with its bounds as far as they restrict it. A NaN restricts nothing. -/
def Column.between (lower upper : Binary64) (kind : VariableKind) : Column where
  lower := if infiniteLower.lt lower then some lower else none
  upper := if upper.lt infiniteUpper then some upper else none
  integral := kind.isIntegral

/-- The restrictions of a sum to a lower and an upper bound, as far as they restrict it. -/
def Row.between (terms : List (Nat × Binary64)) (lower upper : Binary64) : List Row :=
  if lower.equals upper then [⟨terms, .equal, upper⟩]
  else
    (if infiniteLower.lt lower then [⟨terms, .atLeast, lower⟩] else []) ++
      (if upper.lt infiniteUpper then [⟨terms, .atMost, upper⟩] else [])

/-! ### Building a model

Building looks at the arrays of the problem in order, and an array that is too short stops it. -/

/-- The stop of a look at an entry that an array does not have. -/
def missing (length index : Nat) : Stop BackendError :=
  .fault (.aborted (some s!"index out of bounds: the len is {length} but the index is {index}"))

/-- The stop at a count of columns for which there can be no array. -/
def tooManyColumns : Stop BackendError := .fault (.aborted (some "capacity overflow"))

/-- The columns of the problem. -/
def columnsOf (p : Problem) : Except (Stop BackendError) (List Column) :=
  let lengths := [p.columnLower.length, p.columnUpper.length, p.kinds.length]
  let complete := lengths.foldl Nat.min p.columnCount
  if 1 <<< 60 ≤ p.columnCount then .error tooManyColumns
  else if complete < p.columnCount then
    .error (missing ((lengths.find? fun n => n == complete).getD complete) complete)
  else
    .ok (((p.columnLower.zip (p.columnUpper.zip p.kinds)).take p.columnCount).map
      fun (lower, upper, kind) => Column.between lower upper kind)

/-- The terms of a row of the problem. -/
def termsOf (p : Problem) (row : Nat) : Except (Stop BackendError) (List (Nat × Binary64)) := do
  let some indices := p.matrix.indices[row]? | throw (missing p.matrix.indices.length row)
  let some values := p.matrix.values[row]? | throw (missing p.matrix.values.length row)
  (indices.zip values).mapM fun (column, value) =>
    if Problem.namesColumn p.columnCount column then pure (column.toInt.toNat, value)
    else throw (.error (.model s!"constraint {row} uses unknown column {column.toInt}"))

/-- The rows of the model that stand for a row of the problem. -/
def rowsOf (p : Problem) (row : Nat) : Except (Stop BackendError) (List Row) := do
  let terms ← termsOf p row
  let some lower := p.rowLower[row]? | throw (missing p.rowLower.length row)
  let some upper := p.rowUpper[row]? | throw (missing p.rowUpper.length row)
  return Row.between terms lower upper

/-- The model of a problem. -/
def Model.ofProblem (p : Problem) : Except (Stop BackendError) Model := do
  let columns ← columnsOf p
  let rows ← (List.range p.rowCount).mapM (rowsOf p)
  return { columns, objective := p.objective, rows := rows.flatten, sense := p.sense }

end IsolatedSolving.Linear
