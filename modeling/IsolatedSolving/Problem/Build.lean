import IsolatedSolving.Failure.Error
import IsolatedSolving.Problem.Basic

/-! Building a problem column by column and row by row.

A row names the columns it has coefficients in, a column the rows, and either may be added first. A
call that is refused changes nothing. Rows that cannot restrict anything are not added. The one way
to leave a half-added column is a matrix that is broken already, or that has no number left for
another column: then the call stops by a fault after some of its coefficients were stored. -/
namespace IsolatedSolving

/-- Why a row or column was refused. -/
inductive BuildError where
  | rowLengths (indices values : Nat)
  | columnLengths (indices values : Nat)
  | unknownColumn (column columns : Int32)
  | unknownRow (row : Int32) (rows : Nat)
  | denseLength (coefficients : Nat) (columns : Int32)
  | variableCount (coefficients columns : Nat)
deriving DecidableEq, Repr

def BuildError.message : BuildError → String
  | rowLengths indices values => s!"constraint has {indices} indices but {values} values"
  | columnLengths indices values => s!"variable has {indices} indices but {values} values"
  | unknownColumn column columns =>
    s!"constraint references column {column.toInt} of {columns.toInt}"
  | unknownRow row rows => s!"variable references row {row.toInt} of {rows}"
  | denseLength coefficients columns =>
    s!"dense constraint has {coefficients} coefficients for {columns.toInt} columns"
  | variableCount coefficients columns =>
    s!"dense constraint has {coefficients} coefficients for {columns} variables"

/-- A step that changes a `σ`, and keeps what it changed also when it stops. -/
abbrev Building (σ : Type) := EStateM (Stop BuildError) σ

namespace SparseMatrix

/-! ### Rows -/

/-- Refuses a row of unequal lengths, or with a column that does not exist. -/
def checkRow (m : SparseMatrix) (indices : List Int32) (values : List Binary64) :
    Except BuildError Unit :=
  if indices.length ≠ values.length then .error (.rowLengths indices.length values.length)
  else
    match indices.find? fun c => decide (c < 0) || decide (m.columns ≤ c) with
    | some c => .error (.unknownColumn c m.columns)
    | none => .ok ()

/-- The matrix with one more row. -/
def pushRow (m : SparseMatrix) (indices : List Int32) (values : List Binary64) : SparseMatrix :=
  { m with indices := m.indices ++ [indices], values := m.values ++ [values] }

/-- Adds a row. -/
def addRow (indices : List Int32) (values : List Binary64) : Building SparseMatrix Unit := fun m =>
  match m.checkRow indices values with
  | .error e => .error (.error e) m
  | .ok () => .ok () (m.pushRow indices values)

/-- The places and values that are not zero. -/
def nonzeros (values : List Binary64) : List (Int32 × Binary64) :=
  (values.zipIdx.filter fun (v, _) => !v.isZero).map fun (v, i) => (Int32.ofNat i, v)

/-- Adds a row with one coefficient for each column; zeros are left out. -/
def addDenseRow (values : List Binary64) : Building SparseMatrix Unit := fun m =>
  if values.length ≠ m.columnCount then .error (.error (.denseLength values.length m.columns)) m
  else .ok () (m.pushRow ((nonzeros values).map Prod.fst) ((nonzeros values).map Prod.snd))

/-! ### Columns -/

/-- Refuses a column of unequal lengths, or with a row that does not exist. -/
def checkColumn (m : SparseMatrix) (rows : List Int32) (values : List Binary64) :
    Except BuildError Unit :=
  if rows.length ≠ values.length then .error (.columnLengths rows.length values.length)
  else
    match rows.find? fun r => decide (r < 0) || decide ((m.rowCount : Int) ≤ r.toInt) with
    | some r => .error (.unknownRow r m.rowCount)
    | none => .ok ()

/-- The matrix with a coefficient more at the end of a row. -/
def pushEntry (m : SparseMatrix) (row : Nat) (column : Int32) (value : Binary64) : SparseMatrix :=
  { m with
    indices := m.indices.modify row (· ++ [column])
    values := m.values.modify row (· ++ [value]) }

/-- Stores coefficients of a column, up to a row without a list of columns. -/
def scatter (column : Int32) : List (Int32 × Binary64) → Building SparseMatrix Unit
  | [], m => .ok () m
  | (row, value) :: rest, m =>
    if row.toInt.toNat < m.indices.length then
      scatter column rest (m.pushEntry row.toInt.toNat column value)
    else .error (.fault .outOfRange) m

/-- Adds a column and gives its number. -/
def addColumn (rows : List Int32) (values : List Binary64) : Building SparseMatrix Int32 := fun m =>
  match m.checkColumn rows values with
  | .error e => .error (.error e) m
  | .ok () =>
    match scatter m.columns (rows.zip values) m with
    | .error stop m' => .error stop m'
    | .ok () m' =>
      if m.columns = Int32.maxValue then .error (.fault .countOverflow) m'
      else .ok m.columns { m' with columns := m.columns + 1 }

end SparseMatrix

namespace Problem

/-- A step on the matrix as a step on the problem. -/
def onMatrix {α : Type} (step : Building SparseMatrix α) : Building Problem α := fun p =>
  match step p.matrix with
  | .ok a m => .ok a { p with matrix := m }
  | .error e m => .error e { p with matrix := m }

/-- Adds a variable with coefficients in rows that exist, and gives its number. -/
def addColumn (kind : VariableKind) (objective lower upper : Binary64) (rows : List Int32)
    (values : List Binary64) : Building Problem Int32 := fun p =>
  match onMatrix (SparseMatrix.addColumn rows values) p with
  | .error e p' => .error e p'
  | .ok column p' =>
    .ok column { p' with
      objective := p'.objective ++ [objective]
      columnLower := p'.columnLower ++ [lower]
      columnUpper := p'.columnUpper ++ [upper]
      kinds := p'.kinds ++ [kind] }

/-- Whether bounds leave every value possible. -/
def unrestricted (lower upper : Binary64) : Bool := lower.le infiniteLower && infiniteUpper.le upper

/-- Adds a constraint over columns that exist, and gives its number. One that restricts nothing is
checked, but not added, and has no number. -/
def addRow (indices : List Int32) (values : List Binary64) (lower upper : Binary64) :
    Building Problem (Option Nat) := fun p =>
  match p.matrix.checkRow indices values with
  | .error e => .error (.error e) p
  | .ok () =>
    if unrestricted lower upper then .ok none p
    else
      .ok (some p.rowCount) { p with
        matrix := p.matrix.pushRow indices values
        rowLower := p.rowLower ++ [lower]
        rowUpper := p.rowUpper ++ [upper] }

end Problem

end IsolatedSolving
