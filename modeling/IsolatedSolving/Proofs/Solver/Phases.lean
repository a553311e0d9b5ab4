import IsolatedSolving.Proofs.Solver.Solving

/-! The phases of a solve.

A solve can fail when the problem is written, when the worker is waited for, when the result is read,
and by the exit code. Whatever happens, `Course` says what the caller finds afterwards, given the
outcome of the worker and the bytes it left: the phases in their order (`Walked`), the result by the
first failure in that order (`Decided`), the exit code, and the solution. It holds for every way to
run a worker, also one that leaves any bytes whatever in the segment (`solveWith_course`). On a machine
every solve whose workers have a limit comes to its end (`solve_course`). -/
namespace IsolatedSolving

open Channel (Parent)
open Segment (Store)
open Supervision (Machine Mode Outcome)
open Wire (Checksum)

namespace Phase

/-- The phases that a worker may end in. -/
def ends : List Phase := [completed, timedOut, crashed]

/-- The way to the result of a worker that ends in this phase. -/
def way (ended : Phase) : List Phase := [idle, serialized, launched, ended, resultRead]

/-- The phases that a solve is in without an outcome, or after the result was read. -/
def others : List Phase := [idle, serialized, launched, resultRead, done, failed]

/-- The one phase among others that a worker has ended in. -/
theorem mem_iff_of_ends {p ended : Phase} {front back : List Phase} (hp : p ∈ ends)
    (hfront : front ⊆ others) (hback : back ⊆ others) : p ∈ front ++ ended :: back ↔ ended = p := by
  have hdisjoint : ∀ p ∈ ends, p ∉ others := by decide
  have hother := hdisjoint p hp
  rw [List.mem_append, List.mem_cons, or_iff_right (mt (@hfront p) hother),
    or_iff_left (mt (@hback p) hother), eq_comm]

end Phase

/-! ### What a supervisor reports -/

namespace Supervision

/-- A result that a supervisor may have for its caller. A failure of its own is none of a worker. -/
inductive Reports : Except (Stop SolverError) Outcome → Prop
  | outcome (o : Outcome) : Reports (.ok o)
  | error {e : SolverError} (he : e.exitCode? = none) : Reports (.error (.error e))

/-- A wait comes to an outcome, unless it has no limit and takes for ever. -/
theorem waitFor_cases (mode : Mode) (ending : Worker.Ending) (poll : Nat) (limit : Option Nat) :
    (∃ o, waitFor mode ending poll limit = .ok o) ∨
      limit = none ∧ waitFor mode ending poll limit = .error (.fault .endless) := by
  cases ending with
  | ended e => exact .inl ⟨_, waitFor_ended mode e poll limit⟩
  | hanging =>
    cases limit with
    | none => exact .inr ⟨rfl, waitFor_endless mode poll⟩
    | some n => exact .inl ⟨_, waitFor_hanging mode poll n⟩

/-- A launch reports an outcome or that there is no such executable, unless it takes for ever. -/
theorem Launch.run_reports (l : Launch) (machine : Machine) (mode : Mode) (argument : String)
    (limit : Option Nat) (store : Store) :
    Reports (l.run machine mode argument limit store).1 ∨
      limit = none ∧ (l.run machine mode argument limit store).1 = .error (.fault .endless) := by
  cases hspawn : machine.spawn l.executable with
  | error e =>
    rw [run, hspawn]
    exact .inl (.error rfl)
  | ok program =>
    have hrun : (l.run machine mode argument limit store).1 =
        waitFor mode (program l.environment [argument] store).1 l.poll limit := by
      rw [run, hspawn]
    rw [hrun]
    rcases waitFor_cases mode (program l.environment [argument] store).1 l.poll limit with
      ⟨o, hwait⟩ | hendless
    · rw [hwait]
      exact .inl (.outcome o)
    · exact .inr hendless

/-- The only fault of a launch is that it takes for ever. -/
theorem Launch.run_fault {l : Launch} {machine : Machine} {mode : Mode} {argument : String}
    {limit : Option Nat} {store : Store} {f : Fault}
    (h : (l.run machine mode argument limit store).1 = .error (.fault f)) : f = .endless := by
  rcases l.run_reports machine mode argument limit store with hreports | ⟨-, hendless⟩
  · rw [h] at hreports
    cases hreports
  · rw [h] at hendless
    cases hendless
    rfl

end Supervision

namespace Isolated

open Supervision (Reports)

/-! ### The order of phases -/

/-- The solve has gone some way, and the whole way if it was successful. The phase it has stopped in
tells which. -/
structure Walked (result : Except SolverError Unit) (s : Isolated) : Prop where
  phases : ∃ ended ∈ Phase.ends, ∃ gone, gone ≠ [] ∧ gone <+: Phase.way ended ∧
    (s.phases.reverse = gone ++ [.failed] ∨
      gone = Phase.way ended ∧ s.phases.reverse = gone ++ [.done])
  done : s.phase = .done ↔ result = .ok ()
  failed : s.phase = .failed ↔ ∃ e, result = .error e

namespace Walked

variable {s : Isolated} {ended : Phase}

/-- A failure on the way. -/
theorem fail {gone : List Phase} (hended : ended ∈ Phase.ends) (hgone : gone ≠ [])
    (hway : gone.reverse <+: Phase.way ended) (hphases : s.phases = .failed :: gone)
    (e : SolverError) : Walked (.error e) s := by
  have hphase : s.phase = .failed := by rw [phase, hphases, List.headD_cons]
  constructor
  case phases =>
    have hreverse : s.phases.reverse = gone.reverse ++ [.failed] := by
      rw [hphases, List.reverse_cons]
    exact ⟨ended, hended, gone.reverse, by simpa using hgone, hway, .inl hreverse⟩
  case done => exact iff_of_false (by simp [hphase]) (by simp)
  case failed => exact iff_of_true hphase ⟨e, rfl⟩

/-- The end of the way, with a failure or without one. -/
theorem finish (hended : ended ∈ Phase.ends) {failure : Option SolverError}
    (hphases : s.phases = lastPhase failure :: (Phase.way ended).reverse) :
    Walked (failure.elim (.ok ()) .error) s := by
  cases failure with
  | some e =>
    have hway : (Phase.way ended).reverse.reverse <+: Phase.way ended :=
      ⟨[], by rw [List.append_nil, List.reverse_reverse]⟩
    exact fail hended (by simp [Phase.way]) hway hphases e
  | none =>
    have hphase : s.phase = .done := by rw [phase, hphases, List.headD_cons, lastPhase]
    constructor
    case phases =>
      have hreverse : s.phases.reverse = Phase.way ended ++ [.done] := by
        rw [hphases, List.reverse_cons, List.reverse_reverse, lastPhase]
      exact ⟨ended, hended, Phase.way ended, List.cons_ne_nil _ _, List.prefix_rfl,
        .inr ⟨rfl, hreverse⟩⟩
    case done => exact iff_of_true hphase rfl
    case failed => exact iff_of_false (by simp [hphase]) (by simp)

end Walked

theorem endPhase_mem_ends (o : Outcome) : endPhase o ∈ Phase.ends := by
  rw [endPhase]
  split
  · decide
  · split <;> decide

/-! ### What the result depends on -/

/-- The exit code is fine, or one to be passed over. -/
def Passes (reportAll : Bool) (code : ExitCode) : Prop :=
  code = .ok ∨ code.isIgnorable = true ∧ reportAll = false

/-- What the caller makes of an exit code. -/
theorem failure?_cases (s : Isolated) (code : ExitCode) (message : String) :
    (code = .invalidStart ∧ ¬Passes s.settings.reportAllCrashes code ∧
      s.failure? code message = some (.invalidStart message)) ∨
    (code ≠ .invalidStart ∧ Passes s.settings.reportAllCrashes code ∧
      s.failure? code message = none) ∨
    (code ≠ .invalidStart ∧ ¬Passes s.settings.reportAllCrashes code ∧
      s.failure? code message = some (.worker code message)) := by
  by_cases hstart : code = .invalidStart
  · refine .inl ⟨hstart, ?_, if_pos hstart⟩
    rw [hstart]
    rintro (hok | ⟨hignorable, -⟩)
    · cases hok
    · cases hignorable
  by_cases hok : code = .ok
  · exact .inr (.inl ⟨hstart, .inl hok, by rw [hok]; rfl⟩)
  cases hignorable : code.isIgnorable with
  | true =>
    have hfailure := s.failure?_of_ignorable message hignorable
    cases hall : s.settings.reportAllCrashes with
    | true =>
      rw [hall, if_pos rfl] at hfailure
      exact .inr (.inr ⟨hstart, by simp [Passes, hok], hfailure⟩)
    | false =>
      rw [hall, if_neg Bool.false_ne_true] at hfailure
      exact .inr (.inl ⟨hstart, .inr ⟨hignorable, rfl⟩, hfailure⟩)
  | false =>
    refine .inr (.inr ⟨hstart, by simp [Passes, hok, hignorable], ?_⟩)
    have hfails : code.isSuccess = false := beq_eq_false_iff_ne.mpr hok
    simp only [failure?, if_neg hstart, hfails, hignorable, Bool.not_false, Bool.or_true,
      Bool.false_eq_true, if_false, if_true]

/-- What there is to see of a worker that is gone: its outcome, and the bytes in the region for its
result. -/
structure Remains where
  outcome : Outcome
  region : List UInt8

section Results
variable [Checksum]

/-- The region holds a record, or one whose writer was stopped. -/
def Legible (region : List UInt8) : Prop :=
  (∃ found, Wire.Sealed.read Solution region = .ok found) ∨
    Wire.Sealed.read Solution region = .error .torn

/-- What a solve sees of its worker. There is nothing to see if the problem was not written, or if there
is no outcome. -/
def seen? (run : Runner) (s : Isolated) (store : Store) : Option Remains :=
  match (Parent.ofSettings s.settings).writeProblem store s.problem with
  | (.error _, _, _) => none
  | (.ok name, parent, opened) =>
    match run name s.limit opened with
    | (.error _, _) => none
    | (.ok o, left) => some ⟨o, (parent.region? left).getD []⟩

/-- There is a legible region, and an exit code like this. -/
def Judged (seen : Option Remains) (like : ExitCode → Prop) : Prop :=
  ∃ r, seen = some r ∧ Legible r.region ∧ like r.outcome.exitCode

/-- The exit code decides on the result if there is a legible region. A solve without one fails for
another reason. -/
structure Decided (reportAll : Bool) (seen : Option Remains) (result : Except SolverError Unit) :
    Prop where
  ok : result = .ok () ↔ Judged seen (Passes reportAll)
  invalidStart : (∃ text, result = .error (.invalidStart text)) ↔ Judged seen (· = .invalidStart)
  worker : ∀ code, (∃ text, result = .error (.worker code text)) ↔
    Judged seen fun c => c = code ∧ c ≠ .invalidStart ∧ ¬Passes reportAll c

theorem not_judged_none (like : ExitCode → Prop) : ¬Judged none like := by
  rintro ⟨r, hseen, -⟩
  cases hseen

theorem judged_some_iff {r : Remains} {like : ExitCode → Prop} :
    Judged (some r) like ↔ Legible r.region ∧ like r.outcome.exitCode := by
  simp only [Judged, Option.some.injEq, exists_eq_left']

namespace Decided

variable {reportAll : Bool} {seen : Option Remains}

/-- A failure where there is nothing to judge. -/
theorem of_not_judged (hseen : ∀ like, ¬Judged seen like) {e : SolverError}
    (he : e.exitCode? = none) : Decided reportAll seen (.error e) where
  ok := iff_of_false (by simp) (hseen _)
  invalidStart := by
    refine iff_of_false ?_ (hseen _)
    rintro ⟨text, h⟩
    cases h
    cases he
  worker code := by
    refine iff_of_false ?_ (hseen _)
    rintro ⟨text, h⟩
    cases h
    cases he

/-- The judgement of an exit code. -/
theorem of_legible (s : Isolated) {r : Remains} (hregion : Legible r.region) (message : String) :
    Decided s.settings.reportAllCrashes (some r)
      ((s.failure? r.outcome.exitCode message).elim (.ok ()) .error) := by
  have hjudged (like : ExitCode → Prop) : Judged (some r) like ↔ like r.outcome.exitCode :=
    judged_some_iff.trans (and_iff_right hregion)
  rcases s.failure?_cases r.outcome.exitCode message with
    ⟨hstart, hfails, hfailure⟩ | ⟨hstart, hpasses, hfailure⟩ | ⟨hstart, hfails, hfailure⟩
  · rw [hfailure]
    constructor
    case ok => exact iff_of_false (by simp) fun h => hfails ((hjudged _).mp h)
    case invalidStart => exact iff_of_true ⟨message, rfl⟩ ((hjudged _).mpr hstart)
    case worker => exact fun code => iff_of_false (by simp) fun h => ((hjudged _).mp h).2.1 hstart
  · rw [hfailure]
    constructor
    case ok => exact iff_of_true rfl ((hjudged _).mpr hpasses)
    case invalidStart => exact iff_of_false (by simp) fun h => hstart ((hjudged _).mp h)
    case worker => exact fun code => iff_of_false (by simp) fun h => ((hjudged _).mp h).2.2 hpasses
  · rw [hfailure]
    constructor
    case ok => exact iff_of_false (by simp) fun h => hfails ((hjudged _).mp h)
    case invalidStart => exact iff_of_false (by simp) fun h => hstart ((hjudged _).mp h)
    case worker =>
      intro code
      simp only [hjudged, Option.elim_some, Except.error.injEq, SolverError.worker.injEq,
        exists_and_left, exists_eq', and_true]
      exact ⟨fun h => ⟨h, hstart, hfails⟩, And.left⟩

end Decided

/-! ### The whole course -/

/-- What the caller finds after a solve, by what the solve has seen of its worker. -/
structure Course (sense : Sense) (reportAll : Bool) (seen : Option Remains)
    (result : Except SolverError Unit) (s : Isolated) : Prop where
  walked : Walked result s
  ended : ∀ p ∈ Phase.ends, p ∈ s.phases ↔ ∃ r, seen = some r ∧ endPhase r.outcome = p
  decided : Decided reportAll seen result
  exitCode : s.exitCode = seen.map fun r => r.outcome.exitCode
  solution : s.solution =
    (seen.bind fun r => (Wire.Sealed.read Solution r.region).toOption).getD (.empty sense)

/-- What the caller makes of the region. -/
theorem readSolution_cases {parent : Parent} {store : Store} {region : List UInt8}
    (h : parent.region? store = some region) :
    (Legible region ∧
      parent.readSolution store = .ok (Wire.Sealed.read Solution region).toOption) ∨
    (¬Legible region ∧ (Wire.Sealed.read Solution region).toOption = none ∧
      ∃ text, parent.readSolution store = .error (.transport text)) := by
  simp only [Parent.readSolution, h]
  split
  · next found hread =>
    rw [hread]
    exact .inl ⟨.inl ⟨found, hread⟩, rfl⟩
  · next hread =>
    rw [hread]
    exact .inl ⟨.inr hread, rfl⟩
  · next e htorn hread =>
    rw [hread]
    refine .inr ⟨?_, rfl, e.message, rfl⟩
    rintro (⟨found, hfound⟩ | hcut)
    · rw [hread] at hfound
      cases hfound
    · exact htorn (Except.error.inj (hread.symm.trans hcut))

/-- A solve that has seen nothing of a worker. -/
theorem Course.of_unseen {s : Isolated} {sense : Sense} {reportAll : Bool} {gone : List Phase}
    {e : SolverError} (he : e.exitCode? = none) (hgone : gone ≠ [])
    (hway : gone.reverse <+: [.idle, .serialized, .launched])
    (hphases : s.phases = .failed :: gone) (hcode : s.exitCode = none)
    (hsolution : s.solution = .empty sense) : Course sense reportAll none (.error e) s where
  walked := by
    have hended : Phase.completed ∈ Phase.ends := by decide
    exact .fail hended hgone (hway.trans ⟨[.completed, .resultRead], rfl⟩) hphases e
  ended p hp := by
    have houtside : ∀ p ∈ Phase.ends, p ∉ [Phase.failed] ++ [.idle, .serialized, .launched] := by
      decide
    refine iff_of_false (fun hmem => houtside p hp ?_) (by simp)
    rw [hphases, List.mem_cons, ← List.mem_reverse] at hmem
    exact List.mem_cons.mpr (hmem.imp_right fun h => hway.subset h)
  decided := .of_not_judged not_judged_none he
  exitCode := hcode
  solution := hsolution

/-- The end of a solve that has seen an outcome. -/
theorem finish_course (s : Isolated) {parent : Parent} {store : Store} {region : List UInt8}
    (hphases : s.phases = [.launched, .serialized, .idle])
    (hsolution : s.solution = .empty s.problem.sense)
    (hregion : parent.region? store = some region) (o : Outcome) (limit : Option Nat) :
    ∃ result s', s.finish parent (.ok o) limit store = (result, s') ∧
      Course s.problem.sense s.settings.reportAllCrashes (some ⟨o, region⟩) result s' := by
  have hstart : [.launched, .serialized, .idle] ⊆ Phase.others := by decide
  rcases readSolution_cases hregion with ⟨hlegible, hread⟩ | ⟨hillegible, hnone, text, hread⟩
  · obtain ⟨s', hfinish, hcode, hfound, hway⟩ := s.finish_read hread o limit
    have hend (failure : Option SolverError) : [lastPhase failure, .resultRead] ⊆ Phase.others := by
      cases failure with
      | some e =>
        show [.failed, .resultRead] ⊆ Phase.others
        decide
      | none => decide
    rw [hphases] at hway
    refine ⟨_, s', hfinish, .finish (endPhase_mem_ends o) hway, fun p hp => ?_,
      .of_legible s (r := ⟨o, region⟩) hlegible _, hcode, hfound⟩
    rw [hway]
    simpa using Phase.mem_iff_of_ends hp (hend _) hstart
  · obtain ⟨s', hfinish, hcode, hfound, hway⟩ := s.finish_unread hread o limit
    have hend : [.failed] ⊆ Phase.others := by decide
    rw [hphases] at hway
    refine ⟨_, s', hfinish, .fail (endPhase_mem_ends o) (List.cons_ne_nil _ _)
      ⟨[.resultRead], rfl⟩ hway _, fun p hp => ?_, .of_not_judged (fun like h => ?_) rfl, hcode, ?_⟩
    · rw [hway]
      simpa using Phase.mem_iff_of_ends hp hend hstart
    · exact hillegible (judged_some_iff.mp h).1
    · rw [hfound, hsolution, Option.bind_some, hnone, Option.getD_none]

section Courses
variable {run : Runner} {s : Isolated} {store : Store}

/-- The course of a solve whose problem is not written. -/
theorem course_unwritten {stop : Stop SolverError} {parent : Parent} {opened : Store}
    (hcolumns : 0 ≤ s.problem.matrix.columns)
    (hwrite : (Parent.ofSettings s.settings).writeProblem store s.problem =
      (.error stop, parent, opened)) :
    ∃ result s' kept, s.solveWith run store = (result.mapError .error, s', kept) ∧
      Course s.problem.sense s.settings.reportAllCrashes (s.seen? run store) result s' := by
  obtain ⟨text, rfl⟩ := Parent.writeProblem_error hcolumns hwrite
  have hseen : s.seen? run store = none := by simp only [seen?, hwrite]
  rw [hseen]
  refine ⟨.error (.transport text), _, _, solveWith_unwritten run hwrite, ?_⟩
  exact .of_unseen rfl (List.cons_ne_nil _ _) ⟨[.serialized, .launched], rfl⟩ rfl rfl rfl

/-- The course of a solve whose problem is written and whose supervisor reports. -/
theorem course_written {name : String} {parent : Parent} {opened : Store}
    (hwrite : (Parent.ofSettings s.settings).writeProblem store s.problem =
      (.ok name, parent, opened))
    (hreports : Reports (run name s.limit opened).1) :
    ∃ result s' kept, s.solveWith run store = (result.mapError .error, s', kept) ∧
      Course s.problem.sense s.settings.reportAllCrashes (s.seen? run store) result s' := by
  rcases hran : run name s.limit opened with ⟨reported, left⟩
  rw [hran] at hreports
  cases hreports with
  | @error e he =>
    have hseen : s.seen? run store = none := by simp only [seen?, hwrite, hran]
    have hwaited : run name s.limit opened = ((Except.error e).mapError .error, left) := hran
    have hfinish : (s.underway name).finish parent (.error e) s.limit left =
      (.error e, (s.underway name).enter .failed) := rfl
    rw [hseen]
    refine ⟨.error e, _, _, solveWith_written hwrite hwaited hfinish, ?_⟩
    exact .of_unseen he (List.cons_ne_nil _ _) List.prefix_rfl rfl rfl rfl
  | outcome o =>
    obtain ⟨child, -, -, -, hlink, -⟩ := Parent.writeProblem_ok hwrite
    obtain ⟨region, hregion⟩ := hlink.exists_region? left
    have hseen : s.seen? run store = some ⟨o, region⟩ := by
      simp only [seen?, hwrite, hran, hregion, Option.getD_some]
    have hwaited : run name s.limit opened = ((Except.ok o).mapError .error, left) := hran
    obtain ⟨result, s', hfinish, hcourse⟩ :=
      (s.underway name).finish_course rfl rfl hregion o s.limit
    rw [hseen]
    exact ⟨result, s', _, solveWith_written hwrite hwaited hfinish, hcourse⟩

/-- **The course of every solve.** For all settings and every problem whose count of columns is not
negative, whatever the supervisor reports and whatever bytes are left in the segment, a solve goes
through its phases in order and stops early only by a failure. It is successful if and only if the
problem was written, there was an outcome, the region can be read, and the exit code passes. The exit
code is known if and only if there was an outcome, and then the solution is the record in the region if
there is one, also after a failure. Otherwise it is the empty result. Launches on a machine report as
`hrun` asks for unless they take for ever, by `Launch.run_reports`. -/
theorem solveWith_course {run : Runner} {s : Isolated} {store : Store}
    (hcolumns : 0 ≤ s.problem.matrix.columns)
    (hrun : ∀ name parent opened,
      (Parent.ofSettings s.settings).writeProblem store s.problem = (.ok name, parent, opened) →
        Reports (run name s.limit opened).1) :
    ∃ result s' kept, s.solveWith run store = (result.mapError .error, s', kept) ∧
      Course s.problem.sense s.settings.reportAllCrashes (s.seen? run store) result s' := by
  rcases hwrite : (Parent.ofSettings s.settings).writeProblem store s.problem with
    ⟨written, parent, opened⟩
  cases written with
  | error stop => exact course_unwritten hcolumns hwrite
  | ok name => exact course_written hwrite (hrun name parent opened hwrite)

/-- **A solve with a limit is over some time.** On every machine, whether it has the executable and
whatever its programs do to the segment, also if they never end, a solve whose workers have a limit comes
to its end, by the course above. -/
theorem solve_course {machine : Machine} {mode : Mode} {n : Nat}
    (hcolumns : 0 ≤ s.problem.matrix.columns) (hlimit : s.limit = some n) :
    ∃ result s' kept, s.solve machine mode store = (result.mapError .error, s', kept) ∧
      Course s.problem.sense s.settings.reportAllCrashes
        (s.seen? (s.launch.run machine mode) store) result s' := by
  rcases hwrite : (Parent.ofSettings s.settings).writeProblem store s.problem with
    ⟨written, parent, opened⟩
  cases written with
  | error stop => exact course_unwritten hcolumns hwrite
  | ok name =>
    rcases s.launch.run_reports machine mode name s.limit opened with hreports | ⟨hnone, -⟩
    · exact course_written hwrite hreports
    · rw [hlimit] at hnone
      cases hnone

end Courses

end Results

/-- A worker that aborts, with nothing left in the segment. -/
theorem solveWith_course_emptied :
    ∃ s kept, (ofProblem Channel.single).solveWith
        (fun _ _ _ => (.ok ⟨.abort, false⟩, .empty 0)) (.empty 4096) = (.ok (), s, kept) ∧
      s.phase = .done ∧ s.exitCode = some .abort ∧ s.solution = .empty .minimize := by
  obtain ⟨name, parent, opened, hwrite⟩ := Parent.writeProblem_hasRoom Channel.hasRoom_single
  let solver := ofProblem Channel.single
  let run : Runner := fun _ _ _ => (.ok ⟨.abort, false⟩, .empty 0)
  have hchannel : (Parent.ofSettings solver.settings).writeProblem (.empty 4096) solver.problem =
      (.ok name, parent, opened) := hwrite
  have hregion : (parent.region? (.empty 0)).getD [] = [] := by
    cases hsegment : parent.segment <;> simp [Parent.region?, hsegment, Store.bytes, Store.empty]
  have hseen : solver.seen? run (.empty 4096) = some ⟨⟨.abort, false⟩, []⟩ := by
    rw [seen?, hchannel]
    exact congrArg (fun region => some (Remains.mk ⟨.abort, false⟩ region)) hregion
  have hcolumns : 0 ≤ solver.problem.matrix.columns := by decide
  have hrun (name parent opened)
      (_ : (Parent.ofSettings solver.settings).writeProblem (.empty 4096) solver.problem =
        (.ok name, parent, opened)) : Reports (run name solver.limit opened).1 :=
    .outcome ⟨.abort, false⟩
  obtain ⟨result, s, kept, hsolve, hcourse⟩ := solveWith_course hcolumns hrun
  rw [hseen] at hcourse
  have htorn : Legible [] := .inr rfl
  have hok : result = .ok () :=
    hcourse.decided.ok.mpr (judged_some_iff.mpr ⟨htorn, .inr ⟨rfl, rfl⟩⟩)
  subst hok
  exact ⟨s, kept, hsolve, hcourse.walked.done.mpr rfl, hcourse.exitCode, hcourse.solution⟩

end Isolated

end IsolatedSolving
