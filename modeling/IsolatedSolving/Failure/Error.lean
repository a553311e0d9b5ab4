import IsolatedSolving.Failure.ExitCode
import IsolatedSolving.Failure.SystemError
import IsolatedSolving.Wire.Error

/-! Failures of segments, backends and solvers.

Each layer has its own type of failure with one constructor per cause, and a layer above takes over
what it is told by the layer below: a segment or codec failure on the calling side becomes a failed
transport, and a backend's failure keeps its kind. -/
namespace IsolatedSolving

/-! ### Segments -/

/-- A failed use of a memory segment. -/
inductive SegmentError where
  | alreadyExists (name : String)
  | notFound (name : String)
  | empty (name : String)
  | system (operation name : String) (source : AccessError)
  | unsupported
deriving DecidableEq, Repr

def SegmentError.message : SegmentError → String
  | alreadyExists name => s!"Shared memory segment {name} already exists"
  | notFound name => s!"Shared memory segment {name} not found"
  | empty name => s!"Shared memory segment {name} is empty"
  | system operation name source =>
    s!"Shared memory {operation} of {name} failed: {source.message}"
  | unsupported => "Shared memory is not supported on this platform"

/-- One word for the kind of the failure. -/
def SegmentError.kind : SegmentError → String
  | alreadyExists _ => "AlreadyExists"
  | notFound _ => "NotFound"
  | empty _ => "Empty"
  | system .. => "Os"
  | unsupported => "Unsupported"

/-! ### Backends -/

/-- A failure that a backend reports. -/
inductive BackendError where
  | model (text : String)
  | solver (text : String)
  | invalidStart (text : String)
  | outOfMemory
deriving DecidableEq, Repr

namespace BackendError

def message : BackendError → String
  | model text => s!"Failed generating model: {text}"
  | solver text => s!"Failed solving: {text}"
  | invalidStart text => s!"Invalid start solution: {text}"
  | outOfMemory => "Out of memory"

/-- One word for the kind of the failure. -/
def kind : BackendError → String
  | model _ => "Model"
  | solver _ => "Solver"
  | invalidStart _ => "InvalidStartSolution"
  | outOfMemory => "OutOfMemory"

/-- The exit code by which a worker passes the failure on. -/
def exitCode : BackendError → ExitCode
  | model _ => .model
  | solver _ => .solver
  | invalidStart _ => .invalidStart
  | outOfMemory => .outOfMemory

end BackendError

/-! ### Solvers -/

/-- A failure that a caller sees. -/
inductive SolverError where
  | unknownSolver (name : String)
  | notInstalled (name : String)
  | processStart (source : AccessError)
  | transport (text : String)
  | worker (code : ExitCode) (text : String)
  | invalidStart (text : String)
  | model (text : String)
  | solver (text : String)
  | config (text : String)
  | access (source : AccessError)
deriving DecidableEq, Repr

namespace SolverError

def message : SolverError → String
  | unknownSolver name => s!"Unknown solver: {name}"
  | notInstalled name =>
    s!"Solver worker {name} is not installed. Looked next to the executable, in " ++
      "~/.ilp-solver/solvers and on PATH"
  | processStart source => s!"Failed to start solver process: {source.message}"
  | transport text => s!"Transport error: {text}"
  | worker code text => s!"Solver process failed with exit code {code.raw.toInt}: {text}"
  | invalidStart text => s!"Invalid start solution: {text}"
  | model text => s!"Model error: {text}"
  | solver text => s!"Solver error: {text}"
  | config text => s!"Configuration error: {text}"
  | access source => s!"IO error: {source.message}"

/-- One word for the kind of the failure. -/
def kind : SolverError → String
  | unknownSolver _ => "UnknownSolver"
  | notInstalled _ => "NotInstalled"
  | processStart _ => "ProcessStart"
  | transport _ => "Transport"
  | worker .. => "Worker"
  | invalidStart _ => "InvalidStartSolution"
  | model _ => "Model"
  | solver _ => "Solver"
  | config _ => "Config"
  | access _ => "Io"

/-- The exit code that a worker ended with, if the failure came from one. -/
def exitCode? : SolverError → Option ExitCode
  | worker code _ => some code
  | invalidStart _ => some .invalidStart
  | _ => none

/-- The failure behind this one, for the kinds that keep it. -/
def source? : SolverError → Option AccessError
  | processStart source => some source
  | access source => some source
  | _ => none

def ofCodec (e : Wire.CodecError) : SolverError := transport e.message

def ofSegment (e : SegmentError) : SolverError := transport e.message

def ofBackend : BackendError → SolverError
  | .model text => model text
  | .solver text => solver text
  | .invalidStart text => invalidStart text
  | .outOfMemory => solver ExitCode.outOfMemory.message

end SolverError

/-! ### Faults -/

/-- Why a computation could not go on at all. -/
inductive Fault where
  | outOfRange
  | countOverflow
  | impossibleSize
  | endless
  | aborted (text : Option String)
deriving DecidableEq, Repr

/-- A computation that stopped: with an error to handle, or by a fault. -/
inductive Stop (ε : Type) where
  | error (e : ε)
  | fault (f : Fault)
deriving DecidableEq, Repr

/-- Separates a fault from an outcome that can be handled. -/
def settle {ε α : Type} : Except (Stop ε) α → Except Fault (Except ε α)
  | .ok a => .ok (.ok a)
  | .error (.error e) => .ok (.error e)
  | .error (.fault f) => .error f

/-- The same stop with its error replaced. -/
def Stop.mapError {ε δ : Type} (f : ε → δ) : Stop ε → Stop δ
  | error e => error (f e)
  | fault f => fault f

@[simp] theorem mapError_ok {ε δ α : Type} (f : ε → δ) (a : α) :
    (Except.ok a).mapError f = .ok a := rfl

@[simp] theorem mapError_error {ε δ α : Type} (f : ε → δ) (e : ε) :
    (Except.error e : Except ε α).mapError f = .error (f e) := rfl

end IsolatedSolving
