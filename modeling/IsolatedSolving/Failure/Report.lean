import IsolatedSolving.Failure.Error

/-! Failures with the circumstances around them.

A worker wraps a failure in what it was doing, layer by layer. The exit code comes from the outermost
backend failure anywhere in the report, and only if there is none from the outermost solver failure;
other causes count as a failed solve. -/
namespace IsolatedSolving

/-- One layer of a report. -/
inductive Cause where
  | text (message : String)
  | codec (e : Wire.CodecError)
  | segment (e : SegmentError)
  | backend (e : BackendError)
  | solver (e : SolverError)
deriving DecidableEq, Repr

namespace Cause

def message : Cause → String
  | text message => message
  | codec e => e.message
  | segment e => e.message
  | backend e => e.message
  | solver e => e.message

/-- The failure behind this one. -/
def source? : Cause → Option AccessError
  | segment (.system _ _ source) => some source
  | solver e => e.source?
  | _ => none

def backend? : Cause → Option BackendError
  | backend e => some e
  | _ => none

def solver? : Cause → Option SolverError
  | solver e => some e
  | _ => none

end Cause

/-- A failure and its circumstances, the outermost first. -/
structure Report where
  contexts : List Cause
  root : Cause
deriving DecidableEq, Repr

namespace Report

def ofCause (c : Cause) : Report := ⟨[], c⟩

/-- The report with one more circumstance around it. -/
def within (r : Report) (c : Cause) : Report := ⟨c :: r.contexts, r.root⟩

/-- All layers, the outermost first. -/
def causes (r : Report) : List Cause := r.contexts ++ [r.root]

/-- The texts from the outermost to the innermost, with the failure behind the root at the end. -/
def texts (r : Report) : List String :=
  r.causes.map Cause.message ++ (r.root.source?.map AccessError.message).toList

/-- The report on one line. -/
def message (r : Report) : String := ": ".intercalate r.texts

/-- The outermost backend failure. -/
def backend? (r : Report) : Option BackendError := r.causes.findSome? Cause.backend?

/-- The outermost solver failure. -/
def solver? (r : Report) : Option SolverError := r.causes.findSome? Cause.solver?

/-- The exit code by which a worker passes the report on. -/
def exitCode (r : Report) : ExitCode :=
  match r.backend? with
  | some e => e.exitCode
  | none =>
    match r.solver? with
    | some (.transport _) | some (.access _) => .sharedMemory
    | some (.model _) => .model
    | some (.invalidStart _) => .invalidStart
    | _ => .solver

end Report

end IsolatedSolving
