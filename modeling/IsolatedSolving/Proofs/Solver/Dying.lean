import IsolatedSolving.Proofs.Solver.Solving

/-! Solves whose worker dies.

A worker may be gone at any time: killed at its limit, or by an end that speaks of exhausted resources.
What it has reported by then is not lost. Such an end is passed over unless crashes are reported, and
in both cases the solver is left with what should remain of the reports (`Isolated.solve_dying`). -/
namespace IsolatedSolving

open Channel (Parent)
open Segment (Store)
open Supervision (Machine Mode Outcome waitFor)
open Wire (Checksum)
open Wire.Sealed (Fits finished)
open Worker (Kept Meter Program)

/-- How a worker dies: it is killed at its limit, gives up because its backend says that memory has
run out, or comes to this end by itself. -/
inductive Death where
  | atLimit
  | outOfMemory
  | ended (e : ProcessEnd)
deriving DecidableEq, Repr

namespace Death

/-- What the backend of a dying worker does last. -/
def finish : Death → Finish
  | atLimit => .hanging
  | outOfMemory => .failed .outOfMemory
  | ended e => .leftProcess e

/-- What the caller gets to know. -/
def outcome : Death → Outcome
  | atLimit => .outOfTime
  | outOfMemory => .ofEnd (.exiting ExitCode.outOfMemory.raw)
  | ended e => .ofEnd e

/-- Deaths that speak of exhausted resources. A worker is killed at its limit only if it has one. -/
def Exhausted (limit : Option Nat) : Death → Prop
  | atLimit => limit.isSome = true
  | outOfMemory => True
  | ended e => e.exitCode.isIgnorable = true

/-- A death for lack of resources is classified as such. -/
theorem Exhausted.isIgnorable {limit : Option Nat} {death : Death} (h : death.Exhausted limit) :
    death.outcome.exitCode.isIgnorable = true := by
  cases death with
  | atLimit => rfl
  | outOfMemory => decide
  | ended e => exact h

/-- The caller gets to know the death of a worker as its outcome. -/
theorem Exhausted.waitFor {limit : Option Nat} {death : Death} (h : death.Exhausted limit)
    (mode : Mode) (poll : Nat) :
    ∃ completion, Worker.unfinished? death.finish = some completion ∧
      Supervision.waitFor mode completion.exitCode.ending poll limit = .ok death.outcome := by
  cases death with
  | atLimit =>
    obtain ⟨l, rfl⟩ := Option.isSome_iff_exists.mp h
    exact ⟨.hanging, rfl, Supervision.waitFor_hanging mode poll l⟩
  | outOfMemory => exact ⟨_, rfl, Supervision.waitFor_ended mode _ poll limit⟩
  | ended e => exact ⟨.leftProcess e, rfl, Supervision.waitFor_ended mode e poll limit⟩

end Death

/-- The backend up to its death after so many reports. -/
def Backend.dying (b : Backend) (reports : Nat) (death : Death) : Backend where
  name := b.name
  solve p := ⟨(b.solve p).reports.take reports, death.finish⟩

namespace Isolated

/-- **A worker that dies still delivers its best solution.** Let a worker that has accepted its problem
die after `k` reports, for lack of time or of other resources. Then the exit code is the class of its
death, the solve succeeds unless crashes are reported, and the solution in the end is what should
remain of the first `k` reports. -/
theorem solve_dying [Checksum] {s : Isolated} {machine : Machine} {mode : Mode}
    {store opened : Store} {name : String} {parent : Parent} {backend : Backend} {meter : Meter}
    {k : Nat} {death : Death} (haccepted : s.problem.Accepted)
    (hwrite : (Parent.ofSettings s.settings).writeProblem store s.problem =
      (.ok name, parent, opened))
    (hspawn : machine.spawn s.executable = .ok (Program.ofBackend (backend.dying k death) meter))
    (hreports : ∀ c ∈ (backend.solve s.problem).reports,
      c.Within s.problem.columnCount s.problem.rowCount)
    (hdeath : death.Exhausted s.limit) :
    ∃ message s' kept, s.solve machine mode store =
        (if s.settings.reportAllCrashes then
          .error (.error (.worker death.outcome.exitCode message)) else .ok (), s', kept) ∧
      s'.exitCode = some death.outcome.exitCode ∧
      s'.phase = (if s.settings.reportAllCrashes then .failed else .done) ∧
      Kept s.problem.sense ((backend.solve s.problem).reports.take k) s'.solution := by
  obtain ⟨child, rest, n, hopen, hlink, hn, hcarries, hlen⟩ := Parent.writeProblem_ok hwrite
  have hfits : ∀ c ∈ ((backend.dying k death).solve s.problem).reports,
      Fits (finished (Solution.empty s.problem.sense) ++ rest).length c :=
    fun c hc => hlen ▸ (hreports c (List.mem_of_mem_take hc)).fits hn
  obtain ⟨completion, hfinish, hwait⟩ := hdeath.waitFor mode s.settings.pollInterval
  obtain ⟨best, left, hrun, hread, hkept⟩ :=
    Worker.run_unfinished hopen hlink hcarries haccepted meter hfits hfinish
  have hprogram : Program.ofBackend (backend.dying k death) meter s.environment [name] opened =
      (completion.exitCode.ending, left) := by
    simp only [Program.ofBackend, hrun]
  obtain ⟨s', kept, hsolve, hcode, rfl, hphase⟩ := solve_written hwrite hspawn hprogram hwait hread
  have hfailure := s.failure?_of_ignorable (s.endMessage death.outcome s.limit) hdeath.isIgnorable
  rw [failureOf?, hfailure] at hsolve hphase
  refine ⟨s.endMessage death.outcome s.limit, s', kept, hsolve.trans ?_, hcode, hphase.trans ?_,
    hkept⟩
  · cases s.settings.reportAllCrashes <;> rfl
  · cases s.settings.reportAllCrashes <;> rfl

/-- A worker that aborts when it has reported a solution and then an empty result. -/
theorem solve_dying_single :
    ∃ s kept, (ofProblem Channel.single).solve
        (machineFor (.dying (.constant "late" ⟨[Solution.largest 1 1, .empty .minimize], .hanging⟩) 2
          (.ended (.signalled 6))) .still) .told (.empty 4096) = (.ok (), s, kept) ∧
      s.exitCode = some .abort ∧ s.phase = .done ∧
      Kept .minimize [Solution.largest 1 1, .empty .minimize] s.solution := by
  obtain ⟨name, parent, opened, hwrite⟩ := Parent.writeProblem_hasRoom Channel.hasRoom_single
  let solver := ofProblem Channel.single
  let late := Backend.constant "late" ⟨[Solution.largest 1 1, .empty .minimize], .hanging⟩
  let machine := machineFor (late.dying 2 (.ended (.signalled 6))) .still
  have hchannel : (Parent.ofSettings solver.settings).writeProblem (.empty 4096) solver.problem =
      (.ok name, parent, opened) := hwrite
  have hspawn : machine.spawn solver.executable =
      .ok (Program.ofBackend (late.dying 2 (.ended (.signalled 6))) .still) := rfl
  have haccepted : solver.problem.Accepted := ⟨rfl, rfl⟩
  have hwithin : ∀ c ∈ (late.solve solver.problem).reports,
      c.Within solver.problem.columnCount solver.problem.rowCount :=
    List.forall_mem_cons.mpr ⟨⟨by decide, by decide⟩,
      List.forall_mem_singleton.mpr (Solution.within_empty _ _ _)⟩
  have hdeath : (Death.ended (.signalled 6)).Exhausted solver.limit := rfl
  obtain ⟨_, s, kept, hsolve, hcode, hphase, hkept⟩ :=
    solve_dying haccepted hchannel hspawn hwithin hdeath
  exact ⟨s, kept, hsolve, hcode, hphase, hkept⟩

end Isolated

end IsolatedSolving
