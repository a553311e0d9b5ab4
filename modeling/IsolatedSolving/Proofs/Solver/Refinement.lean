import IsolatedSolving.Proofs.Solver.Solving

/-! Solving in a worker is solving in the current process.

Whatever the problem is, consistent or not, both ways come to the verdict on it: in the current process
directly, and with a worker by way of the segment, the exit code and the record behind the problem
(`Isolated.solve_verdict`). The one difference is memory: a worker that runs out of it counts as
successful unless crashes are reported (`optimize_corresponds`). -/
namespace IsolatedSolving

open Channel (Parent)
open Segment (Store)
open Supervision (Machine Mode Outcome waitFor)
open Wire (Checksum)
open Worker (Meter Program)

/-! ### Each way -/

namespace Isolated

/-- **A worker passes the verdict on.** -/
theorem solve_verdict [Checksum] (s : Isolated) {machine : Machine} (mode : Mode) {store : Store}
    {backend : Backend} {meter : Meter} {result : Except BackendError Solution}
    (hspawn : machine.spawn s.executable = .ok (Program.ofBackend backend meter))
    (hroom : (Parent.ofSettings s.settings).HasRoom store s.problem)
    (hfinish : (backend.solve s.problem).finish = .ofResult result)
    (hreports : ∀ x ∈ (backend.solve s.problem).reports,
      x.Within s.problem.columnCount s.problem.rowCount)
    (hresult : ∀ x, result = .ok x → x.Within s.problem.columnCount s.problem.rowCount) :
    ∃ message s' kept, s.solve machine mode store =
        (resultOf (s.failure? (codeOf (verdict s.problem result)) message), s', kept) ∧
      s'.exitCode = some (codeOf (verdict s.problem result)) ∧
      ∀ x, verdict s.problem result = .ok x → s'.solution.Agrees x := by
  obtain ⟨name, parent, opened, hwrite⟩ := Parent.writeProblem_hasRoom hroom
  obtain ⟨child, rest, n, hopen, hlink, hn, hcarries, hlen⟩ := Parent.writeProblem_ok hwrite
  obtain ⟨found, left, hrun, hread, hagrees⟩ := Worker.run_verdict hopen hlink hcarries meter hfinish
    (fun x hx => hlen ▸ (hreports x hx).fits hn) (fun x hx => hlen ▸ (hresult x hx).fits hn)
  let code := codeOf (verdict s.problem result)
  have hprogram : Program.ofBackend backend meter s.environment [name] opened =
      (.ended (.exiting code.raw), left) := by
    simp only [Program.ofBackend, hrun]
    rfl
  have hwait := Supervision.waitFor_ended mode (.exiting code.raw) s.settings.pollInterval s.limit
  obtain ⟨s', kept, hsolve, hcode, hsolution, -⟩ :=
    solve_written hwrite hspawn hprogram hwait hread
  have hclass : (Outcome.ofEnd (.exiting code.raw)).exitCode = code :=
    Worker.exitCode_exiting_codeOf _
  rw [failureOf?, hclass] at hsolve
  rw [hclass] at hcode
  exact ⟨_, s', kept, hsolve, hcode, fun x hx => hsolution ▸ hagrees x hx⟩

end Isolated

/-! ### Both ways -/

/-- What a solve in the current process and one with a worker have in common, for a backend that comes
to this result. -/
structure Corresponds (reportAllCrashes : Bool) (p : Problem) (result : Except BackendError Solution)
    (direct : Except (Stop SolverError) Unit × Direct)
    (isolated : Except (Stop SolverError) Unit × Isolated) : Prop where
  solved : direct.1 = .ok () ↔ isolated.1 = .ok () ∧ isolated.2.exitCode = some .ok
  agrees : direct.1 = .ok () → isolated.2.solution.Agrees direct.2.solution
  enoughMemory : result ≠ .error .outOfMemory → (direct.1 = .ok () ↔ isolated.1 = .ok ())
  model : (∃ text, direct.1 = .error (.error (.model text))) ↔
    ∃ text, isolated.1 = .error (.error (.worker .model text))
  start : (∃ text, direct.1 = .error (.error (.invalidStart text))) ↔
    ∃ text, isolated.1 = .error (.error (.invalidStart text))
  solver : (p.Accepted ∧ ∃ text, result = .error (.solver text)) ↔
    ∃ text, isolated.1 = .error (.error (.worker .solver text))
  outOfMemory : p.Accepted → result = .error .outOfMemory →
    (∃ text, direct.1 = .error (.error (.solver text))) ∧
    ((∃ text, isolated.1 = .error (.error (.worker .outOfMemory text))) ↔
      reportAllCrashes = true) ∧
    (reportAllCrashes = false → isolated.1 = .ok ())

/-- The backend is the only one to fail otherwise than for the problem or its start. -/
theorem verdict_solver_iff {p : Problem} {result : Except BackendError Solution} :
    (p.Accepted ∧ ∃ text, result = .error (.solver text)) ↔
      ∃ text, verdict p result = .error (.solver text) := by
  by_cases h : p.Accepted
  · rw [verdict_of_accepted h]
    exact and_iff_right h
  · obtain ⟨text, hv | hv⟩ := verdict_of_not_accepted h result
    all_goals simp [h, hv]

theorem verdict_outOfMemory_iff {p : Problem} {result : Except BackendError Solution} :
    (p.Accepted ∧ result = .error .outOfMemory) ↔ verdict p result = .error .outOfMemory := by
  by_cases h : p.Accepted
  · rw [verdict_of_accepted h]
    exact and_iff_right h
  · obtain ⟨text, hv | hv⟩ := verdict_of_not_accepted h result
    all_goals simp [h, hv]

/-- Two solves that come to the same verdict correspond. -/
theorem corresponds_of_verdict {s : Isolated} {p : Problem} {result : Except BackendError Solution}
    {direct : Except (Stop SolverError) Unit × Direct}
    {isolated : Except (Stop SolverError) Unit × Isolated} {message : String}
    (hdirect : match verdict p result with
      | .ok x => direct.1 = .ok () ∧ direct.2.solution = x
      | .error e => direct.1 = .error (.error (.ofBackend e)))
    (hisolated : isolated.1 =
      Isolated.resultOf (s.failure? (codeOf (verdict p result)) message))
    (hcode : isolated.2.exitCode = some (codeOf (verdict p result)))
    (hagrees : ∀ x, verdict p result = .ok x → isolated.2.solution.Agrees x) :
    Corresponds s.settings.reportAllCrashes p result direct isolated := by
  have hsolver : (p.Accepted ∧ ∃ text, result = .error (.solver text)) ↔ _ := verdict_solver_iff
  have hmemory : p.Accepted ∧ result = .error .outOfMemory ↔ _ := verdict_outOfMemory_iff
  generalize verdict p result = v at hdirect hisolated hcode hagrees hsolver hmemory
  have hspared (hv : v ≠ .error .outOfMemory) (ha : p.Accepted) (hr : result = .error .outOfMemory) :
      False := hv (hmemory.mp ⟨ha, hr⟩)
  cases v with
  | ok x =>
    obtain ⟨hd, rfl⟩ := hdirect
    have hi : isolated.1 = .ok () := hisolated
    have hc : isolated.2.exitCode = some .ok := hcode
    have hx := hagrees _ rfl
    constructor
    case outOfMemory => exact fun ha hr => (hspared (by simp) ha hr).elim
    all_goals simp [hd, hi, hc, hx, hsolver]
  | error e =>
    have hi := hisolated.trans (congrArg Isolated.resultOf (s.failure?_exitCode e message))
    cases e with
    | model text | solver text | invalidStart text =>
      constructor
      case outOfMemory => exact fun ha hr => (hspared (by simp) ha hr).elim
      all_goals simp [hdirect, hi, hsolver, Isolated.resultOf, SolverError.ofBackend]
    | outOfMemory =>
      have hc : isolated.2.exitCode = some .outOfMemory := hcode
      have hr : result = .error .outOfMemory := (hmemory.mpr rfl).2
      cases hreport : s.settings.reportAllCrashes with
      | true =>
        simp only [hreport, if_true] at hi
        constructor <;> simp [hdirect, hi, hr, Isolated.resultOf, SolverError.ofBackend]
      | false =>
        simp only [hreport, Bool.false_eq_true, if_false] at hi
        constructor <;> simp [hdirect, hi, hc, hr, Isolated.resultOf, SolverError.ofBackend]

/-- **Solving in a worker is solving in the current process.** Let a problem have time, a free name
and memory for its channel, and let the backend come to a result, with values only for columns and
rows that there are. Then both ways of optimising it correspond. -/
theorem optimize_corresponds [Checksum] {d : Direct} {s : Isolated} {p : Problem} {sense : Sense}
    {machine : Machine} {mode : Mode} {store : Store} {meter : Meter}
    {result : Except BackendError Solution} (hsame : s.problem = d.problem)
    (hp : p = { d.problem with sense }) (htime : Solver.hasNoTime d.problem = false)
    (hspawn : machine.spawn s.executable = .ok (Program.ofBackend d.backend meter))
    (hroom : (Parent.ofSettings s.settings).HasRoom store p)
    (hfinish : (d.backend.solve p).finish = .ofResult result)
    (hreports : ∀ x ∈ (d.backend.solve p).reports, x.Within p.columnCount p.rowCount)
    (hresult : ∀ x, result = .ok x → x.Within p.columnCount p.rowCount) :
    ∃ r₁ d' r₂ s' kept,
      (Solver.direct d).optimize machine mode sense store = (r₁, .direct d', store) ∧
      (Solver.isolated s).optimize machine mode sense store = (r₂, .isolated s', kept) ∧
      Corresponds s.settings.reportAllCrashes p result (r₁, d') (r₂, s') := by
  obtain ⟨message, s', kept, hsolve, hcode, hagrees⟩ :=
    Isolated.solve_verdict { s with problem := p } mode hspawn hroom hfinish hreports hresult
  let direct : Direct := { d with problem := p }
  have hdirect := direct.solve_verdict hfinish
  let answer := Isolated.resultOf (s.failure? (codeOf (verdict p result)) message)
  have hanswer : answer = Isolated.resultOf (s.failure? (codeOf (verdict p result)) message) := rfl
  refine ⟨direct.solve.1, direct.solve.2, answer, s', kept, ?_, ?_,
    corresponds_of_verdict hdirect hanswer hcode hagrees⟩
  · simp only [Solver.optimize, Solver.problem, htime, Solver.withProblem, ← hp, Solver.solve]
    rfl
  · simp only [Solver.optimize, Solver.problem, hsame, htime, Solver.withProblem, ← hp, Solver.solve,
      hsolve]
    rfl

/-- The backend that gives back where it started, in the current process and in a worker. -/
theorem optimize_corresponds_single :
    ∃ r₁ d r₂ s kept,
      (Solver.direct { Direct.ofBackend .echo with problem := Channel.single }).optimize
        (machineFor .echo .still) .told .minimize (.empty 4096) = (r₁, .direct d, .empty 4096) ∧
      (Solver.isolated (.ofProblem Channel.single)).optimize
        (machineFor .echo .still) .told .minimize (.empty 4096) = (r₂, .isolated s, kept) ∧
      Corresponds false Channel.single (.ok (Backend.echoSolution Channel.single)) (r₁, d) (r₂, s) :=
  have hwithin : (Backend.echoSolution Channel.single).Within Channel.single.columnCount
      Channel.single.rowCount := ⟨by decide, by decide⟩
  have hreports : ∀ x ∈ (Backend.echo.solve Channel.single).reports,
      x.Within Channel.single.columnCount Channel.single.rowCount :=
    List.forall_mem_singleton.mpr hwithin
  have hresult : ∀ x, Except.ok (Backend.echoSolution Channel.single) = .ok x →
      x.Within Channel.single.columnCount Channel.single.rowCount := by
    rintro _ ⟨⟩
    exact hwithin
  optimize_corresponds rfl rfl (by decide) rfl Channel.hasRoom_single rfl hreports hresult

end IsolatedSolving
