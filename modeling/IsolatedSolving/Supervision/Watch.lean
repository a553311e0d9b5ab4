import IsolatedSolving.Failure.Error

/-! Waiting for a worker to end.

A child process and a clock are known by their answers, so that the wait is the same for every worker
and every course of time. `watch` looks at the child again and again and sleeps in between, never
longer than the time that is left; when the time is up it kills the child and collects its end.
`await` is told when the child ends. In both, a worker that is killed for its time counts as ended by
force, whatever end was collected. -/
namespace IsolatedSolving.Supervision

/-- A child process, by its answers to each look, to a kill and to a wait for its end. -/
structure Child where
  look : Nat → Except AccessError (Option ProcessEnd)
  kill : Except AccessError Unit
  reap : Except AccessError ProcessEnd

/-- The nanoseconds since the start, at each look. -/
abbrev Clock := Nat → Nat

/-- How the wait for a worker went, less the time it took, which is only logged. -/
structure Outcome where
  exitCode : ExitCode
  timedOut : Bool
deriving DecidableEq, Repr

def Outcome.ofEnd (e : ProcessEnd) : Outcome := ⟨e.exitCode, false⟩

def Outcome.outOfTime : Outcome := ⟨.forcedTermination, true⟩

/-- What is done to a child during the wait. -/
inductive Event where
  | looked
  | killed (hit : Bool)
  | reaped
  | slept (nanoseconds : Nat)
deriving DecidableEq, Repr

/-! ### Looking again and again -/

/-- What follows from a look. -/
inductive Decision where
  | ends (result : Except SolverError Outcome)
  | sleeps (nanoseconds : Nat)

/-- The time to sleep, if the limit has not passed yet. -/
def nap? (poll : Nat) (limit : Option Nat) (elapsed : Nat) : Option Nat :=
  match limit with
  | none => some poll
  | some limit => if limit ≤ elapsed then none else some (Nat.min poll (limit - elapsed))

/-- Kills a child and waits for its end. A kill that misses does not matter, because the child may have
ended by itself. -/
def killing (c : Child) : List Event := [.killed c.kill.isOk, .reaped]

/-- Looks at the child once. A look that fails ends the wait, and so does the end of the time; the
child is killed in both cases. -/
def attend (c : Child) (poll : Nat) (limit : Option Nat) (look elapsed : Nat) :
    List Event × Decision :=
  match c.look look with
  | .error e => (.looked :: killing c, .ends (.error (.access e)))
  | .ok (some e) => ([.looked], .ends (.ok (.ofEnd e)))
  | .ok none =>
    match nap? poll limit elapsed with
    | some nap => ([.looked, .slept nap], .sleeps nap)
    | none =>
      match c.reap with
      | .error e => (.looked :: killing c, .ends (.error (.access e)))
      | .ok _ => (.looked :: killing c, .ends (.ok .outOfTime))

/-- The course of a wait, from the given look on, with its result. There is none if the wait is not
over after so many looks. -/
def watch (c : Child) (clock : Clock) (poll : Nat) (limit : Option Nat) :
    Nat → Nat → Option (List Event × Except SolverError Outcome)
  | 0, _ => none
  | fuel + 1, look =>
    match attend c poll limit look (clock look) with
    | (events, .ends result) => some (events, result)
    | (events, .sleeps _) =>
      (watch c clock poll limit fuel (look + 1)).map fun (more, result) => (events ++ more, result)

/-! ### Being told -/

/-- When the end of a child becomes known, and what is known then; nothing if it never ends. -/
abbrev Notice := Option (Nat × Except AccessError ProcessEnd)

/-- The result of a wait that is told of the end. An end just in time still counts. There is no
result if the child never ends and there is no limit. -/
def await (notice : Notice) (limit : Option Nat) : Option (Except SolverError Outcome) :=
  match notice, limit with
  | none, none => none
  | none, some _ => some (.ok .outOfTime)
  | some (time, result), limit =>
    if limit.any fun l => decide (l < time) then some (.ok .outOfTime)
    else some ((result.mapError .access).map .ofEnd)

end IsolatedSolving.Supervision
