import IsolatedSolving.Proofs.Channel.Claiming
import IsolatedSolving.Proofs.Problem.Building
import IsolatedSolving.Proofs.Solver.Solving

/-! Solvers with a history.

A solver may be used any number of times: its problem grows, options change, and solves end well or
badly, each with a backend that behaves in its own way and with workers of its own. None of this shows
in a later solve. A call changes the problem in a way that depends on the call alone
(`problem_after`), the equipment never changes (`renewed_afterAll`), and every solve begins by
forgetting all the rest (`solve_renewed`); so a solve gives what it gives on a solver that was just made
(`solve_afterAll`). The name of its channel is gone afterwards, whatever happens (`Settles`). -/
namespace IsolatedSolving

open Channel (Parent)
open Segment (Mapping Store key)
open Supervision (Launch Machine Mode Outcome)
open Wire (Checksum)
open Worker (Environment Program)

/-! ### Calls -/

/-- What a solve meets: how the backend behaves this time, what can be started, and the segments. -/
structure Surroundings where
  backend : Backend
  machine : Machine
  store : Store

/-- What a caller may do with a solver: add to the problem, change something in it, give a variable to
the workers, forget the start and the result, and solve the problem as it is or in a direction. -/
inductive Call where
  | edit (e : Edit)
  | change (f : Problem → Problem)
  | give (name value : String)
  | reset
  | solve (mode : Mode) (direction : Option Sense)

namespace Call

/-- What a call does to the problem. -/
def problem : Call → Problem → Problem
  | edit e, p => e.after p
  | change f, p => f p
  | give _ _, p => p
  | reset, p => { p with start := [] }
  | solve _ none, p => p
  | solve _ (some sense), p => if Solver.hasNoTime p then p else { p with sense }

/-- What a call does to the variables. -/
def environment : Call → Environment → Environment
  | give name value, environment => environment ++ [(name, value)]
  | _, environment => environment

end Call

/-- The problem that is there after calls on a new solver. -/
def problemOf (calls : List Call) : Problem := calls.foldl (fun p c => c.problem p) .empty

/-- The variables that are there after calls on a new solver. -/
def environmentOf (calls : List Call) : Environment := calls.foldl (fun e c => c.environment e) []

/-- A kind of solver with what it never changes. -/
inductive Make where
  | direct
  | isolated (executable : String) (settings : Settings)

/-- A new solver with these variables and this problem. There are no variables in the current
process. -/
def Make.holding (m : Make) (backend : Backend) (environment : Environment) (p : Problem) : Solver :=
  match m with
  | direct => .direct { Direct.ofBackend backend with problem := p }
  | isolated executable settings =>
    .isolated { Isolated.ofExecutable executable settings with environment, problem := p }

/-- A new solver. -/
def Make.solver (m : Make) (backend : Backend) : Solver := m.holding backend [] .empty

namespace Solver

/-- The solver with its backend behaving like this. -/
def facing (backend : Backend) : Solver → Solver
  | direct d => direct { d with backend }
  | isolated s => isolated s

/-- The solver with one more variable for its workers. -/
def withVariable (name value : String) : Solver → Solver
  | direct d => direct d
  | isolated s => isolated (s.withVariable name value)

section Calls
variable [Checksum]

/-- Solves the problem as it is or in a direction, in these surroundings. -/
def solveIn (w : Surroundings) (mode : Mode) (direction : Option Sense) (s : Solver) :
    Except (Stop SolverError) Unit × Solver × Store :=
  match direction with
  | none => (s.facing w.backend).solve w.machine mode w.store
  | some sense => (s.facing w.backend).optimize w.machine mode sense w.store

/-- The solver after a call in these surroundings. -/
def after (w : Surroundings) (c : Call) (s : Solver) : Solver :=
  match c with
  | .edit e => (s.edit e).2
  | .change f => s.withProblem (f s.problem)
  | .give name value => s.withVariable name value
  | .reset => s.reset
  | .solve mode direction => (s.solveIn w mode direction).2.1

/-- The solver after calls, each in its own surroundings. -/
def afterAll (history : List (Call × Surroundings)) (s : Solver) : Solver :=
  history.foldl (fun s (c, w) => s.after w c) s

end Calls

/-- Whether a solve is started: not if it has a direction and no time. -/
def Starts (direction : Option Sense) (p : Problem) : Prop :=
  direction.isSome = true → hasNoTime p = false

end Solver

/-! ### What a solve forgets -/

namespace Direct

/-- A new solver with the same backend and the same problem. -/
def renewed (d : Direct) : Direct := { ofBackend d.backend with problem := d.problem }

theorem solve_renewed (d : Direct) : d.renewed.solve = d.solve := by
  have hcleared : d.renewed.cleared = d.cleared := rfl
  rw [solve, solve, hcleared]
  rfl

/-- Only the result and the count of reports are touched by a solve. -/
theorem renewed_solve (d : Direct) : d.solve.2.renewed = d.renewed := by
  rw [solve]
  split
  · rfl
  · rw [finish]
    split <;> rfl

end Direct

namespace Isolated

/-- A new solver with the same equipment and the same problem. -/
def renewed (s : Isolated) : Isolated :=
  { ofExecutable s.executable s.settings with environment := s.environment, problem := s.problem }

section Solve
variable [Checksum]

/-- A solve begins by forgetting the one before. -/
theorem prepare_renewed (s : Isolated) (store : Store) :
    s.renewed.prepare store = s.prepare store := by
  have hcleared : s.renewed.cleared = s.cleared := rfl
  rw [prepare, prepare, hcleared]

theorem solve_renewed (s : Isolated) (machine : Machine) (mode : Mode) (store : Store) :
    s.renewed.solve machine mode store = s.solve machine mode store := by
  have hlaunch : s.renewed.launch = s.launch := rfl
  rw [solve, solve, solveWith, solveWith, prepare_renewed, hlaunch]

theorem renewed_prepare (s : Isolated) (store : Store) :
    (s.prepare store).2.2.1.renewed = s.renewed := by
  simp only [prepare]
  split <;> rfl

theorem renewed_finish (s : Isolated) (parent : Parent) (result : Except SolverError Outcome)
    (limit : Option Nat) (store : Store) :
    (s.finish parent result limit store).2.renewed = s.renewed := by
  cases result with
  | error e => rfl
  | ok o =>
    cases hread : parent.readSolution store with
    | error e =>
      simp only [finish, readResult, hread, Except.map]
      rfl
    | ok found =>
      simp only [finish, readResult, hread, Except.map]
      split <;> rfl

/-- Only what belongs to the last solve is touched by a solve. -/
theorem renewed_solveWith (run : Runner) (s : Isolated) (store : Store) :
    (s.solveWith run store).2.1.renewed = s.renewed := by
  have hprepare := s.renewed_prepare store
  unfold solveWith
  split
  · next hfailed =>
    rw [hfailed] at hprepare
    exact hprepare
  · next name parent s' opened hwritten =>
    rw [hwritten] at hprepare
    dsimp only
    split
    · exact hprepare
    · rw [renewed_finish]
      exact hprepare

/-- What a solve leaves of the store: what the worker has left, without the channel. -/
theorem store_solveWith (run : Runner) (s : Isolated) (store : Store) :
    (s.solveWith run store).2.2 =
      match (Parent.ofSettings s.settings).writeProblem store s.problem with
      | (.error _, parent, opened) => (parent.release opened).2
      | (.ok name, parent, opened) => (parent.release (run name s.limit opened).2).2 := by
  have hwrite : (Parent.ofSettings s.cleared.settings).writeProblem store s.cleared.problem =
      (Parent.ofSettings s.settings).writeProblem store s.problem := rfl
  simp only [solveWith, prepare, hwrite]
  rcases (Parent.ofSettings s.settings).writeProblem store s.problem with
    ⟨written, parent, opened⟩
  cases written with
  | error stop => cases stop <;> rfl
  | ok name =>
    dsimp only
    split <;> rfl

/-- A solve leaves the names as they are, or as its worker has left them, without the channel. -/
theorem names_solveWith (run : Runner) (s : Isolated) (store : Store) :
    (s.solveWith run store).2.2.names = store.names ∨
      ∃ name block opened, store.holds name = false ∧
        opened.names = store.names ++ [(key name, block)] ∧
        (s.solveWith run store).2.2.names = ((run name s.limit opened).2.unlink (key name)).names := by
  have hwritten := (Parent.ofSettings s.settings).writeProblem_written store s.problem
  rw [store_solveWith]
  generalize (Parent.ofSettings s.settings).writeProblem store s.problem = result at hwritten ⊢
  cases hwritten with
  | unmeasured => exact .inl rfl
  | unnamed => exact .inl rfl
  | named hnumber => exact .inr ⟨_, _, _, hnumber.free, rfl, rfl⟩

end Solve

end Isolated

/-! ### What a solve leaves of the names -/

/-- The workers that can be started here leave the names as they are. -/
def Supervision.Machine.KeepsNames (m : Machine) : Prop :=
  ∀ executable program, m.spawn executable = .ok program →
    ∀ environment arguments store, (program environment arguments store).2.names = store.names

/-- What becomes of the names in a solve: they stay, or a worker is run while there is one more, that
of the channel, which is gone in the end. -/
inductive Settles (machine : Machine) (before : List (String × Nat)) : List (String × Nat) → Prop
  | untouched : Settles machine before before
  | worked {executable name : String} {program : Program} {environment : Environment} {block : Nat}
      {opened : Store} (hspawn : machine.spawn executable = .ok program)
      (hfree : key name ∉ before.map Prod.fst) (hopened : opened.names = before ++ [(key name, block)]) :
    Settles machine before ((program environment [name] opened).2.unlink (key name)).names

/-- All names are the same after a solve unless the worker itself has changed some. -/
theorem Settles.eq_of_keepsNames {machine : Machine} {before after : List (String × Nat)}
    (h : Settles machine before after) (hkeeps : machine.KeepsNames) : after = before := by
  cases h with
  | untouched => rfl
  | @worked executable name program environment block opened hspawn hfree hopened =>
    have hkept := hkeeps executable program hspawn environment [name] opened
    exact Store.names_unlink hfree (hkept.trans hopened)

namespace Solver

section Solve
variable [Checksum]

/-- The name of the channel is gone after a solve, however it ends. -/
theorem settles_solve (machine : Machine) (mode : Mode) (s : Solver) (store : Store) :
    Settles machine store.names (s.solve machine mode store).2.2.names := by
  cases s with
  | direct d => exact .untouched
  | isolated s =>
    show Settles machine store.names (s.solveWith (s.launch.run machine mode) store).2.2.names
    rcases s.names_solveWith (s.launch.run machine mode) store with
      hsame | ⟨name, block, opened, hfree, hopened, hnames⟩
    · rw [hsame]
      exact .untouched
    · have hfree := Store.not_holds_iff.mp hfree
      rw [hnames, Launch.run]
      cases hspawn : machine.spawn s.launch.executable with
      | error e =>
        dsimp only
        rw [Store.names_unlink hfree hopened]
        exact .untouched
      | ok program => exact .worked hspawn hfree hopened

theorem settles_solveIn (w : Surroundings) (mode : Mode) (direction : Option Sense) (s : Solver) :
    Settles w.machine w.store.names (s.solveIn w mode direction).2.2.names := by
  cases direction with
  | none => exact settles_solve _ _ _ _
  | some sense =>
    rw [solveIn, optimize]
    split
    · exact .untouched
    · exact settles_solve _ _ _ _

end Solve

/-! ### What shows in a later solve -/

/-- A new solver with the same equipment and the same problem. -/
def renewed : Solver → Solver
  | direct d => direct d.renewed
  | isolated s => isolated s.renewed

theorem problem_facing (backend : Backend) (s : Solver) : (s.facing backend).problem = s.problem := by
  cases s <;> rfl

theorem problem_withProblem (p : Problem) (s : Solver) : (s.withProblem p).problem = p := by
  cases s <;> rfl

theorem problem_renewed (s : Solver) : s.renewed.problem = s.problem := by
  cases s <;> rfl

theorem facing_facing (backend : Backend) (s : Solver) :
    (s.facing backend).facing backend = s.facing backend := by
  cases s <;> rfl

theorem facing_renewed (backend : Backend) (s : Solver) :
    s.renewed.facing backend = (s.facing backend).renewed := by
  cases s <;> rfl

theorem withProblem_renewed (p : Problem) (s : Solver) :
    s.renewed.withProblem p = (s.withProblem p).renewed := by
  cases s <;> rfl

section Solve
variable [Checksum]

/-- **A solve gives what it gives on a new solver.** -/
theorem solve_renewed (machine : Machine) (mode : Mode) (s : Solver) (store : Store) :
    s.renewed.solve machine mode store = s.solve machine mode store := by
  cases s with
  | direct d => rw [renewed, solve, solve, d.solve_renewed]
  | isolated s => rw [renewed, solve, solve, s.solve_renewed]

/-- Nothing of a solver is touched by a solve but what belongs to the last one. -/
theorem renewed_solve (machine : Machine) (mode : Mode) (s : Solver) (store : Store) :
    (s.solve machine mode store).2.1.renewed = s.renewed := by
  cases s with
  | direct d => exact congrArg direct d.renewed_solve
  | isolated s =>
    exact congrArg isolated (s.renewed_solveWith (s.launch.run machine mode) store)

theorem optimize_of_time (machine : Machine) (mode : Mode) (sense : Sense) {s : Solver}
    (store : Store) (htime : hasNoTime s.problem = false) :
    s.optimize machine mode sense store =
      (s.withProblem { s.problem with sense }).solve machine mode store := by
  rw [optimize, htime]
  rfl

theorem solveIn_facing (w : Surroundings) (mode : Mode) (direction : Option Sense) (s : Solver) :
    (s.facing w.backend).solveIn w mode direction = s.solveIn w mode direction := by
  cases direction <;> simp only [solveIn, facing_facing]

/-- So does a solve in a direction, if it is started. -/
theorem solveIn_renewed (w : Surroundings) (mode : Mode) {direction : Option Sense} {s : Solver}
    (hstarts : Starts direction s.problem) :
    s.renewed.solveIn w mode direction = s.solveIn w mode direction := by
  cases direction with
  | none => rw [solveIn, solveIn, facing_renewed, solve_renewed]
  | some sense =>
    have htime : hasNoTime (s.facing w.backend).problem = false := by
      rw [problem_facing]
      exact hstarts rfl
    have hnew : hasNoTime (s.facing w.backend).renewed.problem = false := by
      rw [problem_renewed]
      exact htime
    rw [solveIn, solveIn, facing_renewed, optimize_of_time _ _ _ _ htime,
      optimize_of_time _ _ _ _ hnew, problem_renewed, withProblem_renewed, solve_renewed]

/-! ### One call -/

/-- What a call does to the problem does not depend on what it meets. -/
theorem problem_after (w : Surroundings) (c : Call) (s : Solver) :
    (s.after w c).problem = c.problem s.problem := by
  cases c with
  | edit e =>
    show (s.edit e).2.problem = e.after s.problem
    rw [e.solver_edit, problem_withProblem]
  | change f => exact problem_withProblem _ _
  | give name value => cases s <;> rfl
  | reset => cases s <;> rfl
  | solve mode direction =>
    have hsolve (t : Solver) : (t.solve w.machine mode w.store).2.1.problem = t.problem := by
      rw [← problem_renewed, renewed_solve, problem_renewed]
    cases direction with
    | none => exact (hsolve _).trans (problem_facing _ _)
    | some sense =>
      show ((s.facing w.backend).optimize w.machine mode sense w.store).2.1.problem = _
      rw [Call.problem, optimize, problem_facing]
      split
      · exact problem_facing _ _
      · exact (hsolve _).trans (problem_withProblem _ _)

end Solve

/-- The solver is of this make and has these variables. -/
def IsMade (m : Make) (environment : Environment) : Solver → Prop
  | direct _ => m = .direct
  | isolated s => m = .isolated s.executable s.settings ∧ s.environment = environment

section Calls
variable {m : Make} {environment : Environment} {s : Solver}

/-- A solver differs from a new one only in what belongs to the last solve. -/
theorem IsMade.renewed_facing (h : s.IsMade m environment) (backend : Backend) :
    (s.facing backend).renewed = m.holding backend environment s.problem := by
  cases s with
  | direct d =>
    obtain rfl : m = .direct := h
    rfl
  | isolated s =>
    obtain ⟨rfl, rfl⟩ := h
    rfl

theorem isMade_renewed_iff : s.renewed.IsMade m environment ↔ s.IsMade m environment := by
  cases s <;> rfl

theorem IsMade.withProblem (h : s.IsMade m environment) (p : Problem) :
    (s.withProblem p).IsMade m environment := by
  cases s <;> exact h

theorem IsMade.facing (h : s.IsMade m environment) (backend : Backend) :
    (s.facing backend).IsMade m environment := by
  cases s <;> exact h

variable [Checksum]

theorem IsMade.solve (h : s.IsMade m environment) (machine : Machine) (mode : Mode) (store : Store) :
    (s.solve machine mode store).2.1.IsMade m environment := by
  rw [← isMade_renewed_iff, renewed_solve, isMade_renewed_iff]
  exact h

/-- No call changes the make of a solver. -/
theorem IsMade.after (h : s.IsMade m environment) (w : Surroundings) (c : Call) :
    (s.after w c).IsMade m (c.environment environment) := by
  cases c with
  | edit e =>
    show (s.edit e).2.IsMade m environment
    rw [e.solver_edit]
    exact h.withProblem _
  | change f => exact h.withProblem _
  | give name value =>
    cases s with
    | direct d => exact h
    | isolated s => exact ⟨h.1, congrArg (· ++ [(name, value)]) h.2⟩
  | reset => cases s <;> exact h
  | solve mode direction =>
    cases direction with
    | none => exact (h.facing _).solve _ _ _
    | some sense =>
      show ((s.facing w.backend).optimize w.machine mode sense w.store).2.1.IsMade m environment
      rw [optimize]
      split
      · exact h.facing _
      · exact ((h.facing _).withProblem _).solve _ _ _

/-! ### Histories -/

/-- The problem after a history follows from the calls, whatever they have met. -/
theorem problem_afterAll (history : List (Call × Surroundings)) (s : Solver) :
    (s.afterAll history).problem =
      (history.map Prod.fst).foldl (fun p c => c.problem p) s.problem := by
  induction history generalizing s with
  | nil => rfl
  | cons step rest ih =>
    show ((s.after step.2 step.1).afterAll rest).problem = _
    rw [ih, problem_after]
    rfl

theorem IsMade.afterAll (h : s.IsMade m environment) (history : List (Call × Surroundings)) :
    (s.afterAll history).IsMade m
      ((history.map Prod.fst).foldl (fun e c => c.environment e) environment) := by
  induction history generalizing s environment with
  | nil => exact h
  | cons step rest ih => exact ih (h.after step.2 step.1)

/-- **Solves do not leak into each other.** After any calls on a new solver, each in surroundings of its
own, whether they end well or not, the problem is the one that follows from the calls. A solve that is
started then has the same result and leaves the same solver and the same segments behind as on a solver
that is just made with the same variables and the same problem. In any case the names are in the end as
they were before or as a worker has left them, without the name of the channel. -/
theorem solveIn_afterAll {make : Make} {first : Backend} {history : List (Call × Surroundings)}
    {calls : List Call} (hcalls : calls = history.map Prod.fst) {s : Solver}
    (hs : s = (make.solver first).afterAll history) (w : Surroundings) (mode : Mode)
    (direction : Option Sense) :
    s.problem = problemOf calls ∧
    (Starts direction (problemOf calls) → s.solveIn w mode direction =
      (make.holding w.backend (environmentOf calls) (problemOf calls)).solveIn w mode direction) ∧
    Settles w.machine w.store.names (s.solveIn w mode direction).2.2.names ∧
    (w.machine.KeepsNames → (s.solveIn w mode direction).2.2.names = w.store.names) := by
  subst hcalls
  have hnew : (make.solver first).IsMade make [] := by
    cases make with
    | direct => rfl
    | isolated executable settings => exact ⟨rfl, rfl⟩
  have hempty : (make.solver first).problem = .empty := by
    cases make <;> rfl
  have hproblem : s.problem = problemOf (history.map Prod.fst) := by
    rw [hs, problem_afterAll, hempty]
    rfl
  have hmade : s.IsMade make (environmentOf (history.map Prod.fst)) := by
    rw [hs]
    exact hnew.afterAll history
  have hsettles := s.settles_solveIn w mode direction
  refine ⟨hproblem, ?_, hsettles, hsettles.eq_of_keepsNames⟩
  intro hstarts
  rw [← hproblem] at hstarts ⊢
  -- What sets the solver apart from a new one is forgotten when the solve starts.
  rw [← hmade.renewed_facing w.backend,
    solveIn_renewed w mode ((problem_facing w.backend s).symm ▸ hstarts), solveIn_facing]

end Calls

end Solver

/-- Surroundings in which every worker exits with this status. -/
def Surroundings.exiting (status : Int32) : Surroundings :=
  ⟨.echo, ⟨fun _ => .ok (Program.exiting status)⟩, .empty 4096⟩

/-- A solver whose first worker has failed, before one that ends well without a result. -/
theorem Solver.solveIn_afterAll_failed :
    ∃ s, s = ((Make.isolated "worker" { Settings.standard with trials := 1 }).solver .echo).afterAll
        [(.change fun _ => Channel.single, .exiting 77), (.solve .told none, .exiting 77)] ∧
      s.problem = Channel.single ∧
      s.solveIn (.exiting 0) .told (some .maximize) =
        ((Make.isolated "worker" { Settings.standard with trials := 1 }).holding .echo []
          Channel.single).solveIn (.exiting 0) .told (some .maximize) ∧
      (s.solveIn (.exiting 0) .told (some .maximize)).2.2.names = [] := by
  have hkeeps : (Surroundings.exiting 0).machine.KeepsNames := by
    rintro executable program ⟨⟩ environment arguments store
    rfl
  have hstarts : Starts (some .maximize) (problemOf [.change fun _ => Channel.single,
      .solve .told none]) := fun _ => by decide
  obtain ⟨hproblem, hsolve, -, hnames⟩ := solveIn_afterAll rfl rfl (.exiting 0) .told (some .maximize)
  exact ⟨_, rfl, hproblem, hsolve hstarts, hnames hkeeps⟩

end IsolatedSolving
