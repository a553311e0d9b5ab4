import IsolatedSolving.Number.Binary64
import IsolatedSolving.Problem.Kind

/-! Linear and integer programs.

A problem is a sparse matrix with one row for each constraint, bounds on rows and columns, a kind and
an objective coefficient for each column, and the options of the solver that is to work on it. Its
parts are free to disagree: whether they fit together is what `Problem.defect?` says. -/
namespace IsolatedSolving

/-! ### Bounds without effect -/

/-- Upper bounds from here on do not restrict anything: half the largest number. -/
def infiniteUpper : Binary64 := ⟨0x7fdfffffffffffff⟩

/-- Lower bounds down from here do not restrict anything. -/
def infiniteLower : Binary64 := ⟨0xffdfffffffffffff⟩

/-! ### The parts of a problem -/

/-- Rows of coefficients: the entry `k` of row `i` stands in column `indices[i][k]`. -/
structure SparseMatrix where
  values : List (List Binary64)
  indices : List (List Int32)
  columns : Int32
deriving DecidableEq, Repr

/-- Settings for the solver. A log level of zero is silence. -/
structure Options where
  threads : Int32
  deterministic : Bool
  logLevel : Int32
  presolve : Bool
  maxSeconds : Binary64
  maxNodes : Int32
  maxSolutions : Int32
  maxAbsoluteGap : Binary64
  maxRelativeGap : Binary64
  cutoff : Binary64
deriving DecidableEq, Repr

/-- A linear or integer program. The start is empty if none is given. -/
structure Problem where
  matrix : SparseMatrix
  objective : List Binary64
  columnLower : List Binary64
  columnUpper : List Binary64
  rowLower : List Binary64
  rowUpper : List Binary64
  kinds : List VariableKind
  sense : Sense
  start : List Binary64
  options : Options
deriving DecidableEq, Repr

namespace SparseMatrix

/-- A matrix without rows and columns. -/
def empty : SparseMatrix := ⟨[], [], 0⟩

def rowCount (m : SparseMatrix) : Nat := m.values.length

/-- The count of columns as an unsigned 64-bit word. A negative count is a huge one. -/
def columnCount (m : SparseMatrix) : Nat := m.columns.toInt64.toUInt64.toNat

/-- The entries of a row, as far as it has both columns and coefficients. -/
def entries (m : SparseMatrix) (row : Nat) : List (Int32 × Binary64) :=
  (m.indices.getD row []).zip (m.values.getD row [])

end SparseMatrix

/-- Every limit open, one thread, deterministic, with presolving and without output. -/
def Options.standard : Options where
  threads := 1
  deterministic := true
  logLevel := 0
  presolve := true
  maxSeconds := .largest
  maxNodes := 2147483647
  maxSolutions := 2147483647
  maxAbsoluteGap := .zero
  maxRelativeGap := .zero
  cutoff := .largest

namespace Problem

/-- A problem without rows and columns, to be minimised. -/
def empty : Problem where
  matrix := .empty
  objective := []
  columnLower := []
  columnUpper := []
  rowLower := []
  rowUpper := []
  kinds := []
  sense := .minimize
  start := []
  options := .standard

instance : Inhabited Problem := ⟨empty⟩

def rowCount (p : Problem) : Nat := p.matrix.rowCount

def columnCount (p : Problem) : Nat := p.matrix.columnCount

end Problem

/-! ### Numeric equality -/

/-- Whether two lists hold the same numbers, by value. -/
def sameNumbers (xs ys : List Binary64) : Bool := xs.isEqv ys Binary64.equals

namespace Problem

/-- Equality with numbers compared by value: the zeros are equal, and a problem with a NaN differs
from itself. -/
def equals (p q : Problem) : Bool :=
  p.matrix.values.isEqv q.matrix.values sameNumbers && p.matrix.indices == q.matrix.indices &&
    p.matrix.columns == q.matrix.columns && sameNumbers p.objective q.objective &&
    sameNumbers p.columnLower q.columnLower && sameNumbers p.columnUpper q.columnUpper &&
    sameNumbers p.rowLower q.rowLower && sameNumbers p.rowUpper q.rowUpper && p.kinds == q.kinds &&
    p.sense == q.sense && sameNumbers p.start q.start && p.options.threads == q.options.threads &&
    p.options.deterministic == q.options.deterministic &&
    p.options.logLevel == q.options.logLevel && p.options.presolve == q.options.presolve &&
    p.options.maxSeconds.equals q.options.maxSeconds &&
    p.options.maxNodes == q.options.maxNodes &&
    p.options.maxSolutions == q.options.maxSolutions &&
    p.options.maxAbsoluteGap.equals q.options.maxAbsoluteGap &&
    p.options.maxRelativeGap.equals q.options.maxRelativeGap &&
    p.options.cutoff.equals q.options.cutoff

end Problem

end IsolatedSolving
