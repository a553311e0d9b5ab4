import IsolatedSolving.Problem.Basic
import IsolatedSolving.Wire.Item

/-! The order in which a problem is written. -/
namespace IsolatedSolving

open Wire (Element Shape Layout Transportable)

/-- The matrix, the arrays of the columns and rows, the sense, the start and the options. -/
def Problem.layout : Layout :=
  [.nested .float64, .nested .int32, .scalar .int32, .array .float64, .array .float64,
    .array .float64, .array .float64, .array .float64, .array .kind, .scalar .sense,
    .array .float64, .scalar .int32, .scalar .bool, .scalar .int32, .scalar .bool,
    .scalar .float64, .scalar .int32, .scalar .int32, .scalar .float64, .scalar .float64,
    .scalar .float64]

/-- The parts of a problem in writing order. -/
def Problem.toRecord (p : Problem) : Problem.layout.Record :=
  (p.matrix.values, p.matrix.indices, p.matrix.columns, p.objective, p.columnLower, p.columnUpper,
    p.rowLower, p.rowUpper, p.kinds, p.sense, p.start, p.options.threads, p.options.deterministic,
    p.options.logLevel, p.options.presolve, p.options.maxSeconds, p.options.maxNodes,
    p.options.maxSolutions, p.options.maxAbsoluteGap, p.options.maxRelativeGap, p.options.cutoff, ())

/-- The problem with these parts. -/
def Problem.ofRecord : Problem.layout.Record → Problem
  | (values, indices, columns, objective, columnLower, columnUpper, rowLower, rowUpper, kinds,
      sense, start, threads, deterministic, logLevel, presolve, maxSeconds, maxNodes, maxSolutions,
      maxAbsoluteGap, maxRelativeGap, cutoff, ()) =>
    { matrix := ⟨values, indices, columns⟩
      objective, columnLower, columnUpper, rowLower, rowUpper, kinds, sense, start
      options :=
        { threads, deterministic, logLevel, presolve, maxSeconds, maxNodes, maxSolutions
          maxAbsoluteGap, maxRelativeGap, cutoff } }

instance : Transportable Problem where
  layout := Problem.layout
  toRecord := Problem.toRecord
  ofRecord := Problem.ofRecord
  ofRecord_toRecord _ := rfl
  toRecord_ofRecord _ := rfl

end IsolatedSolving
