import IsolatedSolving.Proofs.Worker.Running
import IsolatedSolving.Solver.Basic

/-! The course of a solve.

Once a problem is written and its worker has ended, the outcome of a solve follows from two things: the
exit code and what can be read from the channel (`Isolated.solve_written`). In the current process it
follows from the verdict on the problem alone (`Direct.solve_verdict`). -/
namespace IsolatedSolving

open Channel (Parent)
open Segment (Store)
open Supervision (Machine Mode Outcome waitFor)
open Wire (Checksum)
open Worker (Ending Meter Program)

namespace Isolated

/-! ### Exit codes and failures -/

/-- A code that speaks of exhausted resources is reported on request. -/
theorem failure?_of_ignorable (s : Isolated) {code : ExitCode} (message : String)
    (hcode : code.isIgnorable = true) :
    s.failure? code message =
      if s.settings.reportAllCrashes then some (.worker code message) else none := by
  have hstart : code ≠ .invalidStart := by
    rintro rfl
    cases hcode
  have hok : code.isSuccess = false := by
    cases code <;> first | rfl | cases hcode
  simp only [failure?, if_neg hstart, hok, hcode, Bool.not_true, Bool.or_false, Bool.false_eq_true,
    if_false]

/-- What the caller makes of the failures of backends. Only a start keeps its kind, and only memory may
be passed over. -/
theorem failure?_exitCode (s : Isolated) (e : BackendError) (message : String) :
    s.failure? e.exitCode message = match e with
      | .model _ => some (.worker .model message)
      | .solver _ => some (.worker .solver message)
      | .invalidStart _ => some (.invalidStart message)
      | .outOfMemory =>
        if s.settings.reportAllCrashes then some (.worker .outOfMemory message) else none := by
  cases e with
  | model _ | solver _ =>
    rw [failure?, if_neg (by rw [BackendError.exitCode]; decide)]
    exact if_pos (Bool.or_true _)
  | invalidStart _ => rfl
  | outOfMemory => exact s.failure?_of_ignorable message rfl

/-! ### With a worker -/

/-- The failure of a solve whose worker has had this outcome. -/
def failureOf? (s : Isolated) (o : Outcome) : Option SolverError :=
  s.failure? o.exitCode (s.endMessage o s.limit)

/-- The result of a solve by its failure. -/
def resultOf : Option SolverError → Except (Stop SolverError) Unit
  | some e => .error (.error e)
  | none => .ok ()

/-- The last phase of a solve by its failure. -/
def lastPhase : Option SolverError → Phase
  | some _ => .failed
  | none => .done

/-- What follows from the outcome of a worker whose result can be read, or is none. -/
theorem finish_read [Checksum] (s : Isolated) {parent : Parent} {store : Store}
    {found : Option Solution} (hread : parent.readSolution store = .ok found) (o : Outcome)
    (limit : Option Nat) :
    ∃ s', s.finish parent (.ok o) limit store =
        ((s.failure? o.exitCode (s.endMessage o limit)).elim (.ok ()) .error, s') ∧
      s'.exitCode = some o.exitCode ∧ s'.solution = found.getD (.empty s.problem.sense) ∧
      s'.phases = lastPhase (s.failure? o.exitCode (s.endMessage o limit)) :: .resultRead ::
        endPhase o :: s.phases := by
  simp only [finish, readResult, hread, Except.map]
  split
  · next e hsome =>
    have hfailure : s.failure? o.exitCode (s.endMessage o limit) = some e := hsome
    rw [hfailure]
    exact ⟨_, rfl, rfl, rfl, rfl⟩
  · next hnone =>
    have hfailure : s.failure? o.exitCode (s.endMessage o limit) = none := hnone
    rw [hfailure]
    exact ⟨_, rfl, rfl, rfl, rfl⟩

/-- What follows from the outcome of a worker whose result cannot be read. -/
theorem finish_unread [Checksum] (s : Isolated) {parent : Parent} {store : Store} {e : SolverError}
    (hread : parent.readSolution store = .error e) (o : Outcome) (limit : Option Nat) :
    ∃ s', s.finish parent (.ok o) limit store = (.error e, s') ∧ s'.exitCode = some o.exitCode ∧
      s'.solution = s.solution ∧ s'.phases = .failed :: endPhase o :: s.phases := by
  simp only [finish, readResult, hread, Except.map]
  exact ⟨_, rfl, rfl, rfl, rfl⟩

/-- The solver when its problem has been written under a name and its worker has been launched. -/
def underway (s : Isolated) (name : String) : Isolated :=
  ({ s.cleared with channel := some name }.enter .serialized).enter .launched

/-- A solve whose problem cannot be written fails at once. -/
theorem solveWith_unwritten [Checksum] (run : Runner) {s : Isolated} {store opened : Store}
    {parent : Parent} {e : SolverError}
    (hwrite : (Parent.ofSettings s.settings).writeProblem store s.problem =
      (.error (.error e), parent, opened)) :
    s.solveWith run store = (.error (.error e), s.cleared.enter .failed, (parent.release opened).2) := by
  have hprepare : s.prepare store = (.error (.error e), parent, s.cleared.enter .failed, opened) := by
    rw [prepare]
    simp only [show s.cleared.settings = s.settings from rfl,
      show s.cleared.problem = s.problem from rfl, hwrite]
  simp only [solveWith, hprepare]

/-- A problem that was written makes a solve ready for its worker. -/
theorem prepare_written [Checksum] {s : Isolated} {store opened : Store} {name : String}
    {parent : Parent}
    (hwrite : (Parent.ofSettings s.settings).writeProblem store s.problem =
      (.ok name, parent, opened)) :
    s.prepare store =
      (.ok name, parent, { s.cleared with channel := some name }.enter .serialized, opened) := by
  rw [prepare]
  simp only [show s.cleared.settings = s.settings from rfl,
    show s.cleared.problem = s.problem from rfl, hwrite]

/-- A solve whose problem was written ends as its worker does. -/
theorem solveWith_written [Checksum] {run : Runner} {s s' : Isolated} {store opened left : Store}
    {name : String} {parent : Parent} {waited : Except SolverError Outcome}
    {result : Except SolverError Unit}
    (hwrite : (Parent.ofSettings s.settings).writeProblem store s.problem =
      (.ok name, parent, opened))
    (hrun : run name s.limit opened = (waited.mapError .error, left))
    (hfinish : (s.underway name).finish parent waited s.limit left = (result, s')) :
    s.solveWith run store = (result.mapError .error, s', (parent.release left).2) := by
  have hprepare := prepare_written hwrite
  have hran : run name (s.underway name).limit opened = (waited.mapError .error, left) := hrun
  have hend : (s.underway name).finish parent waited (s.underway name).limit left = (result, s') :=
    hfinish
  simp only [solveWith, hprepare]
  rw [← underway, hran]
  cases waited <;> simp only [mapError_ok, mapError_error, settle, hend]

/-- **The course of a solve with a worker.** The exit code of the worker decides on the result, and the
solution is what the worker left, whatever the result is. -/
theorem solve_written [Checksum] {s : Isolated} {machine : Machine} {mode : Mode}
    {store opened left : Store} {name : String} {parent : Parent} {program : Program}
    {ending : Ending} {o : Outcome} {found : Solution}
    (hwrite : (Parent.ofSettings s.settings).writeProblem store s.problem =
      (.ok name, parent, opened))
    (hspawn : machine.spawn s.executable = .ok program)
    (hprogram : program s.environment [name] opened = (ending, left))
    (hwait : waitFor mode ending s.settings.pollInterval s.limit = .ok o)
    (hread : parent.readSolution left = .ok (some found)) :
    ∃ s' kept, s.solve machine mode store = (resultOf (s.failureOf? o), s', kept) ∧
      s'.exitCode = some o.exitCode ∧ s'.solution = found ∧
      s'.phase = lastPhase (s.failureOf? o) := by
  have hrun : s.launch.run machine mode name s.limit opened = (.ok o, left) := by
    simp only [Supervision.Launch.run, launch, hspawn, hprogram, hwait]
  obtain ⟨s', hfinish, hcode, hsolution, hphases⟩ := finish_read (s.underway name) hread o s.limit
  have hfailure : (s.underway name).failure? o.exitCode ((s.underway name).endMessage o s.limit) =
    s.failureOf? o := rfl
  rw [hfailure] at hfinish hphases
  have hsolve := solveWith_written hwrite hrun hfinish
  have hphase : s'.phase = lastPhase (s.failureOf? o) := by rw [phase, hphases, List.headD_cons]
  refine ⟨s', (parent.release left).2, hsolve.trans ?_, hcode, hsolution, hphase⟩
  cases s.failureOf? o <;> rfl

end Isolated

/-! ### With one kind of worker -/

/-- A machine on which every executable is the worker around this backend. -/
def machineFor [Checksum] (backend : Backend) (meter : Meter) : Machine :=
  ⟨fun _ => .ok (Program.ofBackend backend meter)⟩

/-- A solver with this problem and one name for its channel. -/
def Isolated.ofProblem (p : Problem) : Isolated :=
  { ofExecutable "worker" { Settings.standard with baseName := "channel", trials := 1 } with
    problem := p }

/-! ### In the current process -/

namespace Direct

theorem vet_of_accepted {p : Problem} (h : p.Accepted) : vet p = .ok () := by
  simp only [vet, h.1, Problem.checkStartError, h.2, mapError_ok]

/-- **The course of a solve in the current process.** The verdict decides on the result, and on the
solution if there is one. -/
theorem solve_verdict {d : Direct} {result : Except BackendError Solution}
    (hfinish : (d.backend.solve d.problem).finish = .ofResult result) :
    match verdict d.problem result with
    | .ok s => d.solve.1 = .ok () ∧ d.solve.2.solution = s
    | .error e => d.solve.1 = .error (.error (.ofBackend e)) := by
  rcases d.problem.accepted_cases with ha | ⟨defect, hvalid⟩ | ⟨hvalid, defect, hstart⟩
  · simp only [verdict_of_accepted ha, solve, vet_of_accepted ha, finish, hfinish]
    cases result <;> simp only [Finish.ofResult, and_self]
  · simp only [verdict, solve, vet, hvalid, SolverError.ofBackend]
  · simp only [verdict, solve, vet, hvalid, Problem.checkStartError, hstart, mapError_error,
      Stop.mapError, SolverError.ofBackend]

end Direct

end IsolatedSolving
