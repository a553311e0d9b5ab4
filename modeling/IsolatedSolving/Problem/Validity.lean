import IsolatedSolving.Problem.Basic

/-! Whether the parts of a problem fit together.

`Problem.validate` names the first defect, in the order sign of the column count, arrays of the
columns, arrays of the rows, start, rows of the matrix. A problem without a defect can be read
anywhere without leaving an array. -/
namespace IsolatedSolving

/-- What does not fit. -/
inductive Defect where
  | negativeColumns (count : Int32)
  | columnEntries (part : String) (entries columns : Nat)
  | rowEntries (part : String) (entries rows : Nat)
  | startEntries (entries columns : Nat)
  | rowLengths (row indices values : Nat)
  | unknownColumn (row : Nat) (column : Int32) (columns : Nat)
deriving DecidableEq, Repr

def Defect.message : Defect → String
  | negativeColumns count => s!"negative column count {count.toInt}"
  | columnEntries part entries columns => s!"{part} has {entries} entries for {columns} columns"
  | rowEntries part entries rows => s!"{part} has {entries} entries for {rows} rows"
  | startEntries entries columns => s!"start solution has {entries} entries for {columns} columns"
  | rowLengths row indices values => s!"row {row} has {indices} indices but {values} values"
  | unknownColumn row column columns => s!"row {row} references column {column.toInt} of {columns}"

namespace Problem

/-- Whether the number names one of so many columns. -/
def namesColumn (columns : Nat) (c : Int32) : Bool :=
  decide (0 ≤ c) && decide (c.toInt < columns)

/-- The first array of the columns whose length is not their count. -/
def columnDefect? (p : Problem) : Option Defect :=
  let parts := [("objective", p.objective.length), ("variable_lower", p.columnLower.length),
    ("variable_upper", p.columnUpper.length), ("variable_type", p.kinds.length)]
  (parts.find? fun (_, n) => n != p.columnCount).map fun (part, n) =>
    .columnEntries part n p.columnCount

/-- The first array of the rows whose length is not their count. -/
def rowDefect? (p : Problem) : Option Defect :=
  let parts := [("constraint_lower", p.rowLower.length), ("constraint_upper", p.rowUpper.length),
    ("matrix indices", p.matrix.indices.length)]
  (parts.find? fun (_, n) => n != p.rowCount).map fun (part, n) => .rowEntries part n p.rowCount

/-- A start that is neither empty nor complete. -/
def startDefect? (p : Problem) : Option Defect :=
  if p.start.isEmpty || p.start.length == p.columnCount then none
  else some (.startEntries p.start.length p.columnCount)

/-- What is wrong with one row of the matrix. -/
def entryDefect? (columns row : Nat) (indices : List Int32) (values : List Binary64) :
    Option Defect :=
  if indices.length ≠ values.length then some (.rowLengths row indices.length values.length)
  else
    (indices.find? fun c => !namesColumn columns c).map fun c => .unknownColumn row c columns

/-- The first row of the matrix with something wrong. -/
def matrixDefect? (p : Problem) : Option Defect :=
  (p.matrix.indices.zip p.matrix.values).zipIdx.findSome? fun ((indices, values), row) =>
    entryDefect? p.columnCount row indices values

/-- The first thing that does not fit. -/
def defect? (p : Problem) : Option Defect :=
  if p.matrix.columns < 0 then some (.negativeColumns p.matrix.columns)
  else p.columnDefect? <|> p.rowDefect? <|> p.startDefect? <|> p.matrixDefect?

/-- Refuses a problem whose parts do not fit together. -/
def validate (p : Problem) : Except Defect Unit :=
  match p.defect? with
  | some d => .error d
  | none => .ok ()

end Problem

end IsolatedSolving
