import IsolatedSolving.Proofs.Solver.Phases

/-! Problems that cannot be transported.

The caller makes room for the largest result before anybody has looked at the problem, and takes its
count of columns for a word. A negative count is such a large word that there is no making room, and
this is a fault (`writeProblem_fault_iff`). Every other problem is written, or is an error of the
caller. So the problems that break a solve down are known exactly (`solve_breaksDown`); the current
process refuses them. -/
namespace IsolatedSolving

open Channel (Parent)
open Segment (Store)
open Supervision (Launch Machine Mode Outcome)
open Wire (Checksum Piece Writable encodedLength encodedLength_eq_ok_iff)

/-! ### Writing a problem -/

namespace Problem

/-- The problem can be encoded, but its count of columns is negative. -/
structure Unsizable (p : Problem) : Prop where
  writable : Writable p
  negative : p.matrix.columns < 0

/-- As a word, a negative count is near the end of all words. -/
theorem columnCount_of_negative {p : Problem} (h : p.matrix.columns < 0) :
    1 <<< 60 ≤ p.columnCount := by
  have hwide : p.matrix.columns.toInt64.toInt = p.matrix.columns.toInt := Int32.toInt_toInt64 _
  have hnegative : p.matrix.columns.toInt < 0 := Int32.lt_iff_toInt_lt.mp h
  have hleast : -2147483648 ≤ p.matrix.columns.toInt := p.matrix.columns.le_toInt
  have hword : p.columnCount = p.matrix.columns.toInt64.toBitVec.toNat := rfl
  have hbits := BitVec.toInt_eq_toNat_cond p.matrix.columns.toInt64.toBitVec
  rw [Int64.toInt_toBitVec, hwide, ← hword] at hbits
  split at hbits <;> omega

end Problem

namespace Channel.Parent

theorem lengths_fault_iff {problem : Problem} {f : Fault} :
    lengths problem = .error (.fault f) ↔ f = .impossibleSize ∧ problem.Unsizable := by
  rw [lengths]
  cases hlength : encodedLength problem with
  | error e =>
    refine iff_of_false (fun h => by cases h) fun h => ?_
    rw [encodedLength_eq_ok_iff.mpr ⟨h.2.writable, rfl⟩] at hlength
    cases hlength
  | ok n =>
    obtain ⟨hp, -⟩ := encodedLength_eq_ok_iff.mp hlength
    by_cases hcolumns : 0 ≤ problem.matrix.columns
    · have hcount : problem.columnCount < 1 <<< 60 :=
        Nat.lt_of_le_of_lt (Problem.columnCount_le hcolumns) (by decide)
      refine iff_of_false (fun h => ?_) fun h => Int32.not_lt.mpr hcolumns h.2.negative
      simp only [mapError_ok, if_neg (Nat.not_le.mpr hcount)] at h
      cases hbound : Solution.boundLength problem.columnCount problem.rowCount <;>
        rw [hbound] at h <;> cases h
    · have hnegative : problem.matrix.columns < 0 := Int32.not_le.mp hcolumns
      simp only [mapError_ok, if_pos (Problem.columnCount_of_negative hnegative)]
      constructor
      · intro h
        cases h
        exact ⟨rfl, hp, hnegative⟩
      · rintro ⟨rfl, -⟩
        rfl

variable [Checksum]

/-- Only finding the lengths can be a fault. -/
theorem writeProblem_fault_iff {p : Parent} {store : Store} {problem : Problem} {f : Fault} :
    (p.writeProblem store problem).1 = .error (.fault f) ↔ f = .impossibleSize ∧ problem.Unsizable := by
  rw [← lengths_fault_iff, writeProblem]
  cases lengths problem with
  | error stop => simp only [Except.error.injEq]
  | ok found =>
    refine iff_of_false (fun h => ?_) fun h => by cases h
    dsimp only at h
    split at h
    · cases h
    · split at h <;> cases h

/-- Then nothing has happened yet. -/
theorem writeProblem_unsizable {p : Parent} {store : Store} {problem : Problem}
    (h : problem.Unsizable) :
    p.writeProblem store problem = (.error (.fault .impossibleSize), p, store) := by
  rw [writeProblem, lengths_fault_iff.mpr ⟨rfl, h⟩]

end Channel.Parent

/-! ### Solving it -/

namespace Isolated

variable [Checksum]

/-- A fault comes from the problem or from the run of the worker. -/
theorem solveWith_fault {run : Runner} {s : Isolated} {store : Store} {f : Fault}
    (h : (s.solveWith run store).1 = .error (.fault f)) :
    s.problem.Unsizable ∨ ∃ name opened, (run name s.limit opened).1 = .error (.fault f) := by
  rcases hwrite : (Parent.ofSettings s.settings).writeProblem store s.problem with
    ⟨written, parent, opened⟩
  cases written with
  | error stop =>
    cases stop with
    | error e =>
      rw [solveWith_unwritten run hwrite] at h
      cases h
    | fault g => exact .inl (Parent.writeProblem_fault_iff.mp (congrArg Prod.fst hwrite)).2
  | ok name =>
    refine .inr ⟨name, opened, ?_⟩
    rcases hran : run name s.limit opened with ⟨reported, left⟩
    have hunderway : run name (s.underway name).limit opened = (reported, left) := hran
    simp only [solveWith, prepare_written hwrite] at h
    rw [← underway, hunderway] at h
    -- What is settled without a fault is finished without one.
    have hfinish (waited : Except SolverError Outcome)
        (hsettled : settle reported = .ok waited) : False := by
      simp only [hsettled] at h
      rcases hend : (s.underway name).finish parent waited (s.underway name).limit left with
        ⟨result, _⟩
      rw [hend] at h
      cases result <;> cases h
    cases reported with
    | ok o => exact (hfinish (.ok o) rfl).elim
    | error stop =>
      cases stop with
      | error e => exact (hfinish (.error e) rfl).elim
      | fault g =>
        cases h
        rfl

/-- A solve of a problem that breaks it down stays at its beginning. -/
theorem solveWith_unsizable (run : Runner) {s : Isolated} (store : Store)
    (h : s.problem.Unsizable) :
    s.solveWith run store = (.error (.fault .impossibleSize), s.cleared, store) := by
  have hprepare : s.prepare store =
      (.error (.fault .impossibleSize), .ofSettings s.settings, s.cleared, store) := by
    rw [prepare]
    simp only [show s.cleared.settings = s.settings from rfl,
      show s.cleared.problem = s.problem from rfl, Parent.writeProblem_unsizable h]
  simp only [solveWith, hprepare]
  rfl

end Isolated

/-- In the current process the count of columns is looked at first. -/
theorem Direct.solve_negative {d : Direct} (h : d.problem.matrix.columns < 0) :
    d.solve = (.error (.error (.model
      (Defect.negativeColumns d.problem.matrix.columns).message)), d.cleared) := by
  have hdefect : d.problem.defect? = some (.negativeColumns d.problem.matrix.columns) := if_pos h
  have hinvalid : d.problem.validate = .error (.negativeColumns d.problem.matrix.columns) := by
    rw [Problem.validate, hdefect]
  simp only [solve, vet, hinvalid]

/-- What is promised of a solve: it has a result unless its worker never ends, and a problem that cannot
be written makes it fail. -/
structure Isolated.Settled [Checksum] (s : Isolated) (machine : Machine) (mode : Mode)
    (store : Store) : Prop where
  faults : ∀ f, (s.solve machine mode store).1 = .error (.fault f) → f = .endless
  fails : ∀ e parent opened,
    (Parent.ofSettings s.settings).writeProblem store s.problem = (.error (.error e), parent, opened) →
      ∃ s' kept, s.solve machine mode store = (.error (.error e), s', kept) ∧ s'.phase = .failed

/-- **Exactly the problems with a negative count of columns break a solve down.** Writing a problem ends
by a fault if and only if the problem can be encoded and its count of columns is negative. A solve of
any other problem keeps its promise. A solve of such a problem stays at its beginning and reports
nothing, where the current process refuses the problem. -/
theorem solve_breaksDown [Checksum] :
    (∀ (parent : Parent) (store : Store) (p : Problem) (f : Fault),
      (parent.writeProblem store p).1 = .error (.fault f) ↔ f = .impossibleSize ∧ p.Unsizable) ∧
    ∀ (s : Isolated) (machine : Machine) (mode : Mode) (store : Store),
      (¬s.problem.Unsizable → s.Settled machine mode store) ∧
      (s.problem.Unsizable →
        s.solve machine mode store = (.error (.fault .impossibleSize), s.cleared, store) ∧
        s.cleared.phase = .idle ∧
        ∀ d : Direct, d.problem = s.problem → d.solve.1 = .error (.error (.model
          (Defect.negativeColumns s.problem.matrix.columns).message))) := by
  refine ⟨fun _ _ _ _ => Parent.writeProblem_fault_iff, fun s machine mode store =>
    ⟨fun h => ⟨fun f hfault => ?_, fun e parent opened hwrite => ?_⟩, fun h => ⟨?_, rfl, ?_⟩⟩⟩
  · rcases Isolated.solveWith_fault hfault with hp | ⟨name, opened, hran⟩
    · exact absurd hp h
    · exact Launch.run_fault hran
  · exact ⟨_, _, Isolated.solveWith_unwritten _ hwrite, rfl⟩
  · exact Isolated.solveWith_unsizable _ store h
  · rintro d hd
    rw [Direct.solve_negative (hd ▸ h.negative), hd]

/-- A problem with one column less than none. -/
def Problem.owing : Problem := { Problem.empty with matrix := ⟨[], [], -1⟩ }

/-- A solver whose worker would only exit, on a problem that does not fit into memory and on the problem
that owes a column. -/
theorem solve_breaksDown_owing :
    (∃ e s kept, (Isolated.ofProblem Channel.single).solve
        ⟨fun _ => .ok (Worker.Program.exiting 0)⟩ .looking (.empty 0) = (.error (.error e), s, kept) ∧
      s.phase = .failed) ∧
    ((Parent.ofBase "channel" 1).writeProblem (.empty 4096) .owing).1 =
      .error (.fault .impossibleSize) ∧
    ((Isolated.ofProblem .owing).solve ⟨fun _ => .ok (Worker.Program.exiting 0)⟩ .looking
      (.empty 4096)).1 = .error (.fault .impossibleSize) := by
  obtain ⟨hwrites, hsolves⟩ := solve_breaksDown
  have howing : Problem.owing.Unsizable := ⟨by decide, by decide⟩
  have hsingle : ¬Channel.single.Unsizable := fun h => absurd h.negative (by decide)
  refine ⟨?_, (hwrites _ _ _ _).mpr ⟨rfl, howing⟩, ?_⟩
  · have hsettled := (hsolves (Isolated.ofProblem Channel.single)
      ⟨fun _ => .ok (Worker.Program.exiting 0)⟩ .looking (.empty 0)).1 hsingle
    let caller := Parent.ofSettings (Isolated.ofProblem Channel.single).settings
    have hfails : (caller.writeProblem (.empty 0) Channel.single).1.isOk = false := by decide +kernel
    rcases hwrite : caller.writeProblem (.empty 0) Channel.single with ⟨written, parent, opened⟩
    rw [hwrite] at hfails
    cases written with
    | ok name => cases hfails
    | error stop =>
      obtain ⟨text, rfl⟩ := Parent.writeProblem_error (by decide) hwrite
      obtain ⟨s, kept, hsolve, hphase⟩ := hsettled.fails _ _ _ hwrite
      exact ⟨_, s, kept, hsolve, hphase⟩
  · rw [((hsolves (Isolated.ofProblem .owing) _ _ _).2 howing).1]

/-- The problem that owes a column is refused in the current process, but neither written nor refused by
a caller. -/
theorem owing_unreported :
    (Direct.solve ⟨.echo, .owing, default, 0⟩).1 =
      .error (.error (.model "negative column count -1")) ∧
    ¬NoFault ((Parent.ofBase "channel" 1).writeProblem (.empty 4096) .owing).1 ∧
    ¬NoFault ((Isolated.ofProblem .owing).solve ⟨fun _ => .ok (Worker.Program.exiting 0)⟩ .looking
      (.empty 4096)).1 ∧
    ((Isolated.ofProblem .owing).solve ⟨fun _ => .ok (Worker.Program.exiting 0)⟩ .looking
      (.empty 4096)).2.1.phase ≠ .failed := by
  refine ⟨?_, fun h => h .impossibleSize ?_, fun h => h .impossibleSize ?_, ?_⟩
  · rfl
  · rfl
  · rfl
  · decide

end IsolatedSolving
