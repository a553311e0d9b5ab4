import IsolatedSolving.Linear.Exact
import IsolatedSolving.Proofs.Solver.Solving
import IsolatedSolving.Proofs.Worker.Interim

/-! How many results are reported on the way.

A solver in the current process counts what its backend reports, and a worker writes the improvements
among these reports. The two numbers agree if and only if the backend reports what it should: a first
result that bears a solution, and after it only results that improve on the one before
(`Solution.Ascending`, `solve_counts`). The exact backend reports its result in any case. If there is no
solution in it, it counts as reported and is not written (`shortfall_counted`). -/
namespace IsolatedSolving

open Channel (Sink)
open Wire (Checksum)
open Wire.Sealed (Fits)

/-! ### Results that all improve -/

namespace Solution
variable {sense : Sense} {start : Solution} {cs : List Solution}

/-- The first result bears a solution, and each other one is better than the one before it. -/
def Ascending (sense : Sense) (cs : List Solution) : Prop :=
  (empty sense :: cs).IsChain fun a b => b.isBetter a sense = true

/-- All results are improvements if each is one on its predecessor. -/
theorem improvements_eq_self_iff :
    improvements sense start cs = cs ↔ (start :: cs).IsChain fun a b => b.isBetter a sense = true := by
  induction cs generalizing start with
  | nil => exact iff_of_true rfl (List.IsChain.singleton start)
  | cons c cs ih =>
    rw [List.isChain_cons_cons]
    cases hbetter : c.isBetter start sense with
    | true =>
      rw [improvements_of_better hbetter, List.cons_inj_right, ih, and_iff_right rfl]
    | false =>
      rw [improvements_of_not hbetter]
      refine iff_of_false (fun hself => ?_) fun h => Bool.noConfusion h.1
      have hle := (improvements_sublist sense start cs).length_le
      rw [hself, List.length_cons] at hle
      exact absurd hle (Nat.not_succ_le_self _)

theorem length_improvements_eq_iff :
    (improvements sense (empty sense) cs).length = cs.length ↔ Ascending sense cs := by
  rw [Ascending, ← improvements_eq_self_iff]
  exact ⟨(improvements_sublist sense (empty sense) cs).eq_of_length, congrArg List.length⟩

theorem ascending_singleton {s : Solution} : Ascending sense [s] ↔ s.bearsSolution = true := by
  rw [Ascending, List.isChain_cons_cons, isBetter_empty]
  exact and_iff_left (List.IsChain.singleton s)

end Solution

open Solution (Ascending improvements)

/-! ### Reports of backends -/

/-- The exact backend reports what it returns, and nothing else. -/
theorem Linear.reports_of_returned {p : Problem} {s : Solution}
    (h : (Linear.solve p).finish = .returned s) : (Linear.solve p).reports = [s] := by
  rw [Linear.solve] at h ⊢
  cases hmodel : Linear.Model.ofProblem p with
  | error stop =>
    rw [hmodel] at h
    rcases stop with e | f
    · cases h
    · cases f <;> cases h
  | ok m =>
    rw [hmodel] at h
    dsimp only at h ⊢
    cases hsolved : m.solve with
    | error e =>
      rw [hsolved] at h
      cases h
    | ok result =>
      rw [hsolved] at h
      cases result <;> cases h <;> rfl

namespace Direct
variable {d : Direct} {s : Solution}

/-- The results that the backend of a solver reports on its problem. -/
def reports (d : Direct) : List Solution := (d.backend.solve d.problem).reports

/-- The improvements among them. -/
def improved (d : Direct) : List Solution :=
  Solution.improvements d.problem.sense (.empty d.problem.sense) d.reports

theorem solve_of_returned (h : d.problem.Accepted)
    (hfinish : (d.backend.solve d.problem).finish = .returned s) :
    d.solve = (.ok (), { d with solution := s, improvements := d.reports.length }) := by
  simp only [solve, vet_of_accepted h, finish, hfinish]
  rfl

theorem solve_of_badStart {defect : StartDefect} (hvalid : d.problem.validate = .ok ())
    (hstart : d.problem.checkStart = .error (.error defect)) : d.solve.2 = d.cleared := by
  simp only [solve, vet, hvalid, Problem.checkStartError, hstart, mapError_error]

/-- **Reports and improvements are counted apart.** Let a backend come to a result on a problem whose parts
fit together. With a bad start it does not get to see the problem, in the same process or in another,
and nothing is counted. Otherwise a solver in the current process counts all reports, and a worker with
space for them writes the improvements, with one more write for the result. The two numbers agree exactly
if all reports are improvements. For the exact backend this means that its result bears a solution. -/
theorem solve_counts [Checksum] (hvalid : d.problem.validate = .ok ())
    (hfinish : (d.backend.solve d.problem).finish = .returned s) (meter : Worker.Meter) {sink : Sink}
    (hreports : ∀ c ∈ d.reports, Fits sink.capacity c) :
    (∀ defect, d.problem.checkStart = .error (.error defect) →
      d.solve.2.improvements = 0 ∧ ∃ report, Worker.vet d.problem = .error (.error report)) ∧
    (d.problem.checkStart = .ok () →
      d.solve.1 = .ok () ∧ d.solve.2.improvements = d.reports.length ∧
      (Worker.sinkAfter meter d.problem.sense sink d.reports).writes =
        sink.writes + d.improved.length ∧
      (Fits sink.capacity s → (Worker.solveInto d.backend meter d.problem sink).2.writes =
        sink.writes + d.improved.length + 1) ∧
      d.improved.length ≤ d.solve.2.improvements ∧
      (d.solve.2.improvements = d.improved.length ↔ Ascending d.problem.sense d.reports)) ∧
    (d.backend = Linear.backend → d.reports = [s] ∧
      (Ascending d.problem.sense d.reports ↔ s.bearsSolution = true)) := by
  have hwrites : (Worker.sinkAfter meter d.problem.sense sink d.reports).writes =
      sink.writes + d.improved.length := Worker.writes_sinkAfter hreports
  refine ⟨fun defect hstart => ?_, fun hstart => ?_, fun hbackend => ?_⟩
  · obtain ⟨report, hrefused, -⟩ := Worker.vet_badStart hvalid hstart
    exact ⟨by rw [solve_of_badStart hvalid hstart]; rfl, report, hrefused⟩
  · rw [solve_of_returned ⟨hvalid, hstart⟩ hfinish]
    refine ⟨rfl, rfl, hwrites, fun hs => ?_,
      (Solution.improvements_sublist _ _ _).length_le, ?_⟩
    · obtain ⟨usage, hfits, hwork⟩ := Worker.solveInto_fits meter hfinish hs
      rw [hwork, ← hwrites]
      exact Sink.writes_writeAll (List.forall_mem_singleton.mpr hfits)
    · rw [eq_comm]
      exact Solution.length_improvements_eq_iff
  · have honce : d.reports = [s] := by
      rw [reports, hbackend]
      rw [hbackend] at hfinish
      exact Linear.reports_of_returned hfinish
    rw [honce]
    exact ⟨rfl, Solution.ascending_singleton⟩

end Direct

/-! ### Reports that are no improvements -/

/-- A solver whose backend reports the objectives infinity, NaN and one before it comes to zero. -/
def unsteady : Direct := .ofBackend (Worker.wavering (.returned (Worker.interim .zero)))

/-- The three reports are counted, and two of them are written. -/
theorem solve_counts_unsteady :
    unsteady.solve.2.improvements = 3 ∧
      (Worker.sinkAfter .still .minimize Worker.roomy unsteady.reports).writes = 2 ∧
      ¬Ascending .minimize unsteady.reports := by
  have hreports : ∀ c ∈ unsteady.reports, Fits Worker.roomy.capacity c := by
    intro c hc
    obtain ⟨objective, rfl⟩ : ∃ objective, c = Worker.interim objective := by
      simp only [Direct.reports, unsteady, Direct.ofBackend, Worker.wavering, Backend.constant,
        List.mem_cons, List.not_mem_nil, or_false] at hc
      rcases hc with rfl | rfl | rfl <;> exact ⟨_, rfl⟩
    exact Worker.fits_roomy ⟨Nat.le_refl 1, Nat.le_refl 0⟩
  obtain ⟨-, hcounts, -⟩ := Direct.solve_counts (d := unsteady) rfl rfl .still hreports
  obtain ⟨-, hcounted, hwritten, -, -, hagree⟩ := hcounts rfl
  have himproved : unsteady.improved.length = 2 := by decide
  refine ⟨hcounted, hwritten.trans (by rw [himproved]; rfl), fun h => ?_⟩
  have hsame := hagree.mpr h
  rw [hcounted, himproved] at hsame
  exact absurd hsame (by decide)

/-- A column between zero and one, and a row that needs two of it. -/
def shortfall : Problem :=
  { Problem.empty with
    matrix := ⟨[[.one]], [[0]], 1⟩
    objective := [.one]
    columnLower := [.zero]
    columnUpper := [.one]
    rowLower := [⟨0x4000000000000000⟩]
    rowUpper := [.largest]
    kinds := [.continuous]
    sense := .maximize }

/-- The exact solver for it in the current process. -/
def wanting : Direct := { Direct.ofBackend Linear.backend with problem := shortfall }

/-- That there is no solution counts as a result on the way, and no worker writes it as one. -/
theorem shortfall_counted :
    shortfall.validate = .ok () ∧ (∀ c ∈ wanting.reports, Fits Worker.roomy.capacity c) ∧
      wanting.solve.1 = .ok () ∧ wanting.solve.2.improvements = 1 ∧
      (Worker.sinkAfter .still .maximize Worker.roomy wanting.reports).writes = 0 := by
  let result : Solution := { Solution.empty .maximize with status := .provenInfeasible }
  have hrun : wanting.backend.solve wanting.problem = .once result := by
    show Linear.solve shortfall = _
    decide +kernel
  have hreports : wanting.reports = [result] := congrArg Run.reports hrun
  have hfits : ∀ c ∈ wanting.reports, Fits Worker.roomy.capacity c := by
    rw [hreports]
    exact List.forall_mem_singleton.mpr (Worker.fits_roomy ⟨Nat.zero_le 1, Nat.zero_le 0⟩)
  have hvalid : shortfall.validate = .ok () := by decide
  have hsolve := Direct.solve_of_returned (d := wanting) ⟨hvalid, rfl⟩ (congrArg Run.finish hrun)
  refine ⟨hvalid, hfits, congrArg Prod.fst hsolve, ?_, ?_⟩
  · rw [hsolve, hreports]
    rfl
  · rw [Worker.writes_sinkAfter hfits, hreports]
    rfl

end IsolatedSolving
