import IsolatedSolving.Failure.Error
import IsolatedSolving.Number.Decimal
import IsolatedSolving.Problem.Basic

/-! Checking a start solution.

A start is refused if a value misses its bounds or its kind, or a row its bounds, by more than the
tolerance. An empty start is fine. The comparisons are those of floating-point numbers, so a NaN in a
bound or an activity violates nothing. On a problem whose parts do not fit together the check may
leave an array, which stops it by a fault. -/
namespace IsolatedSolving

/-- Violations up to this size do not count. -/
def startTolerance : Binary64 := ⟨0x3eb0c6f7a0b5ed8d⟩

/-- Why a start was refused. -/
inductive StartDefect where
  | length (values columns : Nat)
  | outside (column : Nat) (value lower upper : Binary64)
  | fractional (column : Nat) (value : Binary64)
  | violated (row : Nat) (activity lower upper : Binary64)
deriving DecidableEq, Repr

def StartDefect.message : StartDefect → String
  | length values columns => s!"{values} values for {columns} variables"
  | outside column value lower upper =>
    s!"variable {column} = {value.text} outside [{lower.text}, {upper.text}]"
  | fractional column value => s!"variable {column} = {value.text} is not integral"
  | violated row activity lower upper =>
    s!"constraint {row} activity {activity.text} outside [{lower.text}, {upper.text}]"

/-- The entry of a list that a signed number points at. -/
def entryAt? {α : Type} (xs : List α) (i : Int32) : Option α :=
  if 0 ≤ i then xs[i.toInt.toNat]? else none

/-- The sum of coefficients times values, from left to right. There is none if the matrix does not
have the row, or the row names a column without a value. -/
def SparseMatrix.activity? (m : SparseMatrix) (row : Nat) (x : List Binary64) : Option Binary64 := do
  let columns ← m.indices[row]?
  let coefficients ← m.values[row]?
  let terms ← (columns.zip coefficients).mapM fun (c, v) => (entryAt? x c).map v.mul
  return Binary64.sum terms

/-- Whether the value misses the bounds by more than the tolerance. -/
def misses (value lower upper : Binary64) : Bool :=
  value.lt (lower.sub startTolerance) || (upper.add startTolerance).lt value

/-- Whether the value is further than the tolerance from every whole number. -/
def isFractional (value : Binary64) : Bool := startTolerance.lt (value.sub value.round).abs

namespace Problem

/-- Checks the value of one column. -/
def checkColumnValue (p : Problem) (column : Nat) (value : Binary64) :
    Except (Stop StartDefect) Unit := do
  let some lower := p.columnLower[column]? | throw (.fault .outOfRange)
  let some upper := p.columnUpper[column]? | throw (.fault .outOfRange)
  if misses value lower upper then throw (.error (.outside column value lower upper))
  let some kind := p.kinds[column]? | throw (.fault .outOfRange)
  if kind.isIntegral && isFractional value then throw (.error (.fractional column value))

/-- Checks one row at the point `x`. -/
def checkRowActivity (p : Problem) (x : List Binary64) (row : Nat) :
    Except (Stop StartDefect) Unit := do
  let some activity := p.matrix.activity? row x | throw (.fault .outOfRange)
  let some lower := p.rowLower[row]? | throw (.fault .outOfRange)
  let some upper := p.rowUpper[row]? | throw (.fault .outOfRange)
  if misses activity lower upper then throw (.error (.violated row activity lower upper))

/-- Checks the start: its length, then the columns in order, then the rows. -/
def checkStart (p : Problem) : Except (Stop StartDefect) Unit :=
  if p.start.isEmpty then .ok ()
  else if p.start.length ≠ p.columnCount then
    .error (.error (.length p.start.length p.columnCount))
  else do
    p.start.zipIdx.forM fun (value, column) => p.checkColumnValue column value
    (List.range p.rowCount).forM (p.checkRowActivity p.start)

/-- The check as backends report it. -/
def checkStartError (p : Problem) : Except (Stop BackendError) Unit :=
  p.checkStart.mapError (Stop.mapError fun d => .invalidStart d.message)

end Problem

end IsolatedSolving
