import IsolatedSolving.Problem.Build

/-! Building a problem step by step.

An edit adds one column or one row, in the words in which callers think of them: a boolean variable, a
row with one coefficient for each variable, a sum that is at most, at least or equal to something. An
edit that fails or that restricts nothing leaves the problem as it is. -/
namespace IsolatedSolving

/-- A column or a row to add. Entries come as positions and values. -/
inductive Edit where
  | column (kind : VariableKind) (objective lower upper : Binary64) (rows : List Int32)
      (values : List Binary64)
  | boolean (objective : Binary64) (rows : List Int32) (values : List Binary64)
  | dense (values : List Binary64) (lower upper : Binary64)
  | between (columns : List Int32) (values : List Binary64) (lower upper : Binary64)
  | atMost (columns : List Int32) (values : List Binary64) (upper : Binary64)
  | atLeast (columns : List Int32) (values : List Binary64) (lower : Binary64)
  | equal (columns : List Int32) (values : List Binary64) (value : Binary64)
deriving DecidableEq, Repr

/-- What an edit has added. A row that restricts nothing is not added. -/
inductive Added where
  | column (index : Int32)
  | row (index : Option Nat)
deriving DecidableEq, Repr

namespace Edit

/-- Adds a row with one coefficient for each variable. -/
def applyDense (values : List Binary64) (lower upper : Binary64) : Building Problem (Option Nat) :=
  fun p =>
    if values.length ≠ p.columnCount then
      .error (.error (.variableCount values.length p.columnCount)) p
    else Problem.addRow ((List.range values.length).map Int32.ofNat) values lower upper p

/-- Does the edit. -/
def apply : Edit → Building Problem Added
  | column kind objective lower upper rows values =>
    .column <$> Problem.addColumn kind objective lower upper rows values
  | boolean objective rows values =>
    .column <$> Problem.addColumn .binary objective .zero .one rows values
  | dense values lower upper => .row <$> applyDense values lower upper
  | between columns values lower upper => .row <$> Problem.addRow columns values lower upper
  | atMost columns values upper => .row <$> Problem.addRow columns values .negLargest upper
  | atLeast columns values lower => .row <$> Problem.addRow columns values lower .largest
  | equal columns values value => .row <$> Problem.addRow columns values value value

end Edit

end IsolatedSolving
