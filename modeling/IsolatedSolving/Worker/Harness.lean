import IsolatedSolving.Channel.Child
import IsolatedSolving.Failure.Report
import IsolatedSolving.Problem.Start
import IsolatedSolving.Problem.Validity
import IsolatedSolving.Worker.Backend

/-! Running a backend in a worker.

Every report that strictly improves on the best one so far is written out at once, so that a worker
that is stopped leaves its best result behind; the best one is remembered whether or not it could be
written. The final result is written whatever came before it. Around that, a worker maps its
segment, reads the problem, refuses one that is invalid or has a bad start before the backend sees
it, and says by its exit code how it went. -/
namespace IsolatedSolving.Worker

open Channel (Child Sink)
open Wire (Checksum)

/-- What a process has used so far. -/
structure Usage where
  cpuSeconds : Binary64
  peakMemory : UInt64
deriving DecidableEq, Repr

/-- Usage at each of the moments at which it is looked at. -/
abbrev Meter := Nat → Usage

/-- The meter of a process that uses nothing. -/
def Meter.still : Meter := fun _ => ⟨.zero, 0⟩

/-- The result with the usage put into it. -/
def withUsage (u : Usage) (s : Solution) : Solution :=
  { s with cpuSeconds := u.cpuSeconds, peakMemory := u.peakMemory }

/-! ### Reports -/

/-- The best report so far, the sink, and how often the meter was looked at. -/
structure Progress where
  best : Solution
  sink : Sink
  looks : Nat

/-- Takes in a report. -/
def Progress.report [Checksum] (meter : Meter) (sense : Sense) (p : Progress) (s : Solution) :
    Progress :=
  if s.isBetter p.best sense then
    let best := withUsage (meter p.looks) s
    ⟨best, (p.sink.write best).2, p.looks + 1⟩
  else p

/-- Takes in reports in order. -/
def Progress.reportAll [Checksum] (meter : Meter) (sense : Sense) (p : Progress)
    (ss : List Solution) : Progress := ss.foldl (Progress.report meter sense) p

/-- How the work in a process ends, seen from inside it. -/
inductive Completion (α : Type) where
  | done (a : α)
  | leftProcess (e : ProcessEnd)
  | hanging
deriving DecidableEq, Repr

/-- The report on a backend that broke off. -/
def brokeOffReport (text : Option String) : Report :=
  (Report.ofCause (.backend (.solver (text.getD "unknown panic")))).within (.text "Solver panicked")

/-- Solves the problem with a sink for the results on the way and the final one. -/
def solveInto [Checksum] (backend : Backend) (meter : Meter) (p : Problem) (sink : Sink) :
    Completion (Except Report Solution) × Sink :=
  let run := backend.solve p
  let progress :=
    Progress.reportAll meter p.sense ⟨Solution.empty p.sense, sink, 0⟩ run.reports
  match run.finish with
  | .returned s =>
    let s := withUsage (meter progress.looks) s
    match progress.sink.write s with
    | (.ok (), sink) => (.done (.ok s), sink)
    | (.error e, sink) =>
      (.done (.error ((Report.ofCause (.solver (.ofCodec e))).within
        (.text "Failed to write solution"))), sink)
  | .failed e => (.done (.error (.ofCause (.backend e))), progress.sink)
  | .brokeOff text => (.done (.error (brokeOffReport text)), progress.sink)
  | .leftProcess e => (.leftProcess e, progress.sink)
  | .hanging => (.hanging, progress.sink)

/-! ### Workers -/

/-- Refuses a problem that no backend should see. -/
def vet (p : Problem) : Except (Stop Report) Unit := do
  match p.validate with
  | .error d =>
    let model := Report.ofCause (.backend (.model (SolverError.model d.message).message))
    throw (.error (model.within (.text "Invalid problem")))
  | .ok () =>
    p.checkStartError.mapError (Stop.mapError fun e => .ofCause (.backend e))

/-- The problem, the end of its bytes and the sink in the segment of this name. -/
def receive (store : Segment.Store) (name : String) :
    Except Report (Child × Problem × Nat × Sink) := do
  let child ← (Child.openNamed store name).mapError fun e =>
    (Report.ofCause (.solver e)).within (.text s!"Failed to open shared memory {name}")
  let (view, offset, sink) ← (child.readProblem store).mapError fun e =>
    (Report.ofCause (.solver e)).within (.text "Failed to read problem from shared memory")
  return (child, view.get, offset, sink)

/-- The exit status of a process that broke off outside a backend. -/
def brokenStatus : Nat := 101

/-- The exit code for a finished piece of work. -/
def Completion.exitCode : Completion (Except Report Solution) → Completion ExitCode
  | .done (.ok _) => .done .ok
  | .done (.error r) => .done r.exitCode
  | .leftProcess e => .leftProcess e
  | .hanging => .hanging

/-- Runs a backend on the problem in the segment that the only argument names. -/
def run [Checksum] (backend : Backend) (meter : Meter) (arguments : List String)
    (store : Segment.Store) : Completion ExitCode × Segment.Store :=
  match arguments with
  | [name] =>
    match receive store name with
    | .error r => (.done r.exitCode, store)
    | .ok (child, p, offset, sink) =>
      match vet p with
      | .error (.error r) => (.done r.exitCode, store)
      | .error (.fault _) => (.leftProcess (.exited brokenStatus), store)
      | .ok () =>
        let (completion, sink) := solveInto backend meter p sink
        (completion.exitCode, child.putSink store offset sink)
  | _ => (.done .commandLine, store)

end IsolatedSolving.Worker
