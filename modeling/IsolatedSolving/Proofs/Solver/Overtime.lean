import IsolatedSolving.Proofs.Settings.Budget
import IsolatedSolving.Proofs.Solver.Dying
import IsolatedSolving.Proofs.Solver.Phases

/-! The overtime of workers.

Nothing is launched without a time limit that leaves time, and a worker that is launched is handed the
budget of the limit and nothing else (`Isolated.solveWith_limit`, `Isolated.runsWithin_iff`). So every
worker with a positive time limit gets its overtime (`optimize_overtime`). A limit that is not a number is
not seen to leave no time: its worker is launched, and is killed at the first look
(`numberless_launched`). -/
namespace IsolatedSolving

open Channel (Parent)
open Segment (Store)
open Supervision (Machine Mode Outcome)
open Wire (Checksum)

namespace Isolated

section Limits
variable [Checksum]

/-- The limit is not touched when the problem is written. -/
theorem limit_prepare (s : Isolated) (store : Store) : (s.prepare store).2.2.1.limit = s.limit := by
  unfold prepare
  dsimp only
  split <;> rfl

/-- A solve passes one limit on to its worker, that of its settings. -/
theorem solveWith_limit (run : Runner) (s : Isolated) (store : Store) :
    s.solveWith run store = s.solveWith (fun name _ => run name s.limit) store := by
  have hlimit := s.limit_prepare store
  unfold solveWith
  rcases hprepare : s.prepare store with ⟨written, parent, prepared, opened⟩
  rw [hprepare] at hlimit
  cases written with
  | error stop => rfl
  | ok name =>
    have hlaunched : (prepared.enter .launched).limit = s.limit := hlimit
    simp only [hlaunched]

/-- The solver when its problem is to be optimised in a direction. -/
def toward (s : Isolated) (sense : Sense) : Isolated :=
  { s with problem := { s.problem with sense } }

/-- An optimisation with workers run as given. -/
def optimizeWith (run : Runner) (sense : Sense) (s : Isolated) (store : Store) :
    Except (Stop SolverError) Unit × Solver × Store :=
  let (result, s, store) := (s.toward sense).solveWith run store
  (result, .isolated s, store)

/-- With time left, an optimisation runs its worker on the machine. -/
theorem optimize_eq_with (machine : Machine) (mode : Mode) (sense : Sense) {s : Isolated}
    (store : Store) (htime : Solver.hasNoTime s.problem = false) :
    (Solver.isolated s).optimize machine mode sense store =
      s.optimizeWith (s.launch.run machine mode) sense store := by
  have hnoTime : Solver.hasNoTime (Solver.isolated s).problem = false := htime
  rw [Solver.optimize, hnoTime]
  rfl

/-- Workers are run with this limit, however they are run. -/
def RunsWithin (s : Isolated) (sense : Sense) (store : Store) (limit : Option Nat) : Prop :=
  ∀ run : Runner, s.optimizeWith run sense store =
    s.optimizeWith (fun name _ => run name limit) sense store

theorem runsWithin_limit (s : Isolated) (sense : Sense) (store : Store) :
    s.RunsWithin sense store s.limit := by
  intro run
  rw [optimizeWith, solveWith_limit]
  rfl

/-- A worker that is launched is run with no other limit. -/
theorem runsWithin_iff {s : Isolated} {sense : Sense} {store opened : Store} {name : String}
    {parent : Parent} {limit : Option Nat}
    (hwrite : (Parent.ofSettings s.settings).writeProblem store (s.toward sense).problem =
      (.ok name, parent, opened)) :
    s.RunsWithin sense store limit ↔ limit = s.limit := by
  constructor
  · intro hwithin
    -- workers run like this give away whether their limit is the one in question
    let telling (l : Option Nat) : SolverError := .transport (if l = limit then "this" else "other")
    let run : Runner := fun _ l store => (.error (.error (telling l)), store)
    have hfails (l : Option Nat) :
        (s.optimizeWith (fun name _ => run name l) sense store).1 = .error (.error (telling l)) := by
      have hrun : run name l opened = ((Except.error (telling l)).mapError .error, opened) := rfl
      have hsolve : (s.toward sense).solveWith (fun name _ => run name l) store = _ :=
        solveWith_written hwrite hrun rfl
      rw [optimizeWith, hsolve]
      rfl
    have hsame := congrArg Prod.fst ((s.runsWithin_limit sense store run).symm.trans (hwithin run))
    rw [hfails, hfails] at hsame
    have htold : telling s.limit = telling limit := Stop.error.inj (Except.error.inj hsame)
    by_contra hother
    have htext : "other" = "this" := by
      simpa only [telling, if_neg (Ne.symm hother), if_pos, SolverError.transport.injEq] using htold
    exact absurd htext (by decide)
  · rintro rfl
    exact s.runsWithin_limit sense store

omit [Checksum] in
/-- A limit that leaves time is positive, or is not a number. -/
theorem zero_lt_or_isNaN {p : Problem} (htime : Solver.hasNoTime p = false) :
    Binary64.zero.lt p.options.maxSeconds = true ∨ p.options.maxSeconds.isNaN = true := by
  cases hnan : p.options.maxSeconds.isNaN with
  | true => exact .inr rfl
  | false =>
    have hzero : Binary64.zero.isNaN = false := rfl
    rw [Solver.hasNoTime, Binary64.le_eq_not_lt hnan hzero, Bool.not_eq_false'] at htime
    exact .inl htime

/-- **A worker that is launched gets its overtime.** With overtimes that are not negative, an optimisation
does nothing at all if the time limit leaves no time. Otherwise its worker is run on the machine, with the
limit of the settings, and either the time limit is positive, and a worker is waited for without end or at
least for the absolute overtime, or it is not a number, and a worker is waited for no time at all. -/
theorem optimize_overtime {s : Isolated}
    (hrelative : Binary64.zero.le s.settings.relativeOvertime = true)
    (habsolute : Binary64.zero.le s.settings.absoluteOvertime = true) (machine : Machine) (mode : Mode)
    (sense : Sense) (store : Store) :
    (Solver.hasNoTime s.problem = true →
      (Solver.isolated s).optimize machine mode sense store = (.ok (), .isolated s, store)) ∧
    (Solver.hasNoTime s.problem = false →
      (Solver.isolated s).optimize machine mode sense store =
        s.optimizeWith (s.launch.run machine mode) sense store ∧
      s.RunsWithin sense store s.limit ∧
      (Binary64.zero.lt s.problem.options.maxSeconds = true ∧ s.settings.Covers s.limit ∨
        s.problem.options.maxSeconds.isNaN = true ∧ s.limit = some 0)) := by
  refine ⟨fun hnone => if_pos hnone, fun htime => ?_⟩
  refine ⟨optimize_eq_with machine mode sense store htime, s.runsWithin_limit sense store, ?_⟩
  rcases zero_lt_or_isNaN htime with hpositive | hnan
  · exact .inl ⟨hpositive, Settings.waitBudget_covers hrelative habsolute hpositive⟩
  · exact .inr ⟨hnan, s.settings.waitBudget_of_isNaN hnan⟩

end Limits

/-! ### Limits on one problem -/

/-- One problem, with a time limit. -/
def timed (maxSeconds : Binary64) : Isolated :=
  .ofProblem { Channel.single with options := { Channel.single.options with maxSeconds } }

/-- A machine on which every worker goes on for ever. -/
def hangingMachine : Machine := ⟨fun _ => .ok fun _ _ store => (.hanging, store)⟩

/-- There is room for the problem with either of the time limits below. -/
theorem hasRoom_timed {maxSeconds : Binary64} (h : maxSeconds = .one ∨ maxSeconds = .nan) :
    Parent.HasRoom (.ofBase "channel" 1) (.empty 4096) (timed maxSeconds).problem := by
  have hlengths : Parent.lengths (timed maxSeconds).problem = .ok (248, 80) := by
    rcases h with rfl | rfl <;> rfl
  constructor
  case writable => rcases h with rfl | rfl <;> decide
  case columns =>
    show 0 ≤ Channel.single.matrix.columns
    decide
  case name => exact ⟨1, by decide +kernel⟩
  case memory =>
    intro length space h
    rw [hlengths] at h
    cases h
    decide

/-- A worker with one second is given eleven and a half, and no other limit, for ten seconds of overtime. -/
theorem optimize_overtime_second :
    Settings.nanosecondsOf (timed .one).settings.absoluteOvertime = some 10000000000 ∧
    Solver.hasNoTime (timed .one).problem = false ∧
    (Solver.isolated (timed .one)).optimize hangingMachine .looking .minimize (.empty 4096) =
      (timed .one).optimizeWith ((timed .one).launch.run hangingMachine .looking) .minimize
        (.empty 4096) ∧
    (∀ limit, (timed .one).RunsWithin .minimize (.empty 4096) limit ↔ limit = some 11500000000) ∧
    (timed .one).settings.Covers (some 11500000000) := by
  have hrelative : Binary64.zero.le (timed .one).settings.relativeOvertime = true := rfl
  have habsolute : Binary64.zero.le (timed .one).settings.absoluteOvertime = true := rfl
  have htime : Solver.hasNoTime (timed .one).problem = false := rfl
  have hlimit : (timed .one).limit = some 11500000000 := by decide +kernel
  obtain ⟨hoptimize, -, ⟨-, hcovers⟩ | ⟨hnan, -⟩⟩ :=
    (optimize_overtime hrelative habsolute hangingMachine .looking .minimize (.empty 4096)).2 htime
  · obtain ⟨name, parent, opened, hwrite⟩ := Parent.writeProblem_hasRoom (hasRoom_timed (.inl rfl))
    refine ⟨by decide +kernel, htime, hoptimize, fun limit => ?_, ?_⟩
    · rw [← hlimit]
      exact runsWithin_iff hwrite
    · rwa [hlimit] at hcovers
  · cases hnan

/-- **A worker without its overtime.** A time limit that is not a number is not positive, but a worker is
launched for it, with no time to wait for it, though the absolute overtime is ten seconds. -/
theorem numberless_launched :
    Settings.nanosecondsOf (timed .nan).settings.absoluteOvertime = some 10000000000 ∧
    Binary64.zero.lt (timed .nan).problem.options.maxSeconds = false ∧
    (timed .nan).limit = some 0 ∧
    ∃ s kept, (Solver.isolated (timed .nan)).optimize hangingMachine .looking .minimize (.empty 4096) =
        (.ok (), .isolated s, kept) ∧
      s.phases = [.done, .resultRead, .timedOut, .launched, .serialized, .idle] := by
  have hlimit : (timed .nan).limit = some 0 := (timed .nan).settings.waitBudget_of_isNaN rfl
  refine ⟨by decide +kernel, rfl, hlimit, ?_⟩
  obtain ⟨name, parent, opened, hwrite⟩ := Parent.writeProblem_hasRoom (hasRoom_timed (.inr rfl))
  have hchannel : (Parent.ofSettings (timed .nan).settings).writeProblem (.empty 4096)
      (timed .nan).problem = (.ok name, parent, opened) := hwrite
  have hrun : (timed .nan).launch.run hangingMachine .looking name (timed .nan).limit opened =
      ((Except.ok Outcome.outOfTime).mapError .error, opened) := by
    rw [hlimit]
    exact congrArg (·, opened) (Supervision.waitFor_hanging .looking _ 0)
  obtain ⟨child, rest, n, -, hlink, -, hcarries, -⟩ := Parent.writeProblem_ok hwrite
  have hread := hlink.readSolution (Solution.writable_empty _) hcarries
  obtain ⟨s, hfinish, -, -, hphases⟩ :=
    ((timed .nan).underway name).finish_read hread .outOfTime (timed .nan).limit
  have hsolve := solveWith_written hchannel hrun hfinish
  refine ⟨s, (parent.release opened).2, ?_, hphases⟩
  have hoptimize : (Solver.isolated (timed .nan)).optimize hangingMachine .looking .minimize
    (.empty 4096) = (Solver.isolated (timed .nan)).solve hangingMachine .looking (.empty 4096) :=
    if_neg Bool.false_ne_true
  rw [hoptimize, Solver.solve, solve, hsolve]
  rfl

end Isolated

end IsolatedSolving
