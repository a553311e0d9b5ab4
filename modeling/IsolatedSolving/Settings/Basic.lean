import IsolatedSolving.Number.Rounding
import IsolatedSolving.Number.Binary64

/-! Settings of isolated solving.

The wait budget of a worker is its time limit with relative and absolute overtime on top, computed in
floating-point numbers and rounded to nanoseconds; a budget that does not fit into 64 bits of seconds
is no limit. -/
namespace IsolatedSolving

/-- How workers are found, waited for and talked to. -/
structure Settings where
  /-- Extra wait time as a fraction of the time limit. -/
  relativeOvertime : Binary64
  /-- Extra wait time in seconds, on top of the relative one. -/
  absoluteOvertime : Binary64
  /-- What segment names begin with. -/
  baseName : String
  /-- How many numbered names are tried. -/
  trials : UInt32
  /-- Whether crashes that speak of exhausted resources are errors too. -/
  reportAllCrashes : Bool
  /-- The executable of the worker; it is searched for if there is none. -/
  workerPath : Option String
  /-- The time between two looks at the worker. -/
  pollMilliseconds : UInt64
deriving DecidableEq, Repr

namespace Settings

def standard : Settings where
  relativeOvertime := ⟨0x3fe0000000000000⟩
  absoluteOvertime := ⟨0x4024000000000000⟩
  baseName := "IlpSolver"
  trials := 10000
  reportAllCrashes := false
  workerPath := none
  pollMilliseconds := 10

instance : Inhabited Settings := ⟨standard⟩

/-- Equality with numbers compared by value. -/
def equals (s t : Settings) : Bool :=
  s.relativeOvertime.equals t.relativeOvertime && s.absoluteOvertime.equals t.absoluteOvertime &&
    s.baseName == t.baseName && s.trials == t.trials &&
    s.reportAllCrashes == t.reportAllCrashes && s.workerPath == t.workerPath &&
    s.pollMilliseconds == t.pollMilliseconds

/-! ### Times -/

/-- The nanoseconds in a second. -/
def nanosecondsInOne : Nat := 1000000000

/-- The nanoseconds in so many seconds, a half going to the even neighbour. A NaN, a negative time
and one of 2^64 seconds or more have none. -/
def nanosecondsOf (seconds : Binary64) : Option Nat :=
  if seconds.isNaN || seconds.lt .zero then none
  else if UInt64.size * Binary64.unitsInOne ≤ seconds.units then none
  else some (Number.nearestEven (seconds.units * nanosecondsInOne) Binary64.unitsInOne)

/-- The seconds after which a worker with this time limit is ended. -/
def budgetSeconds (s : Settings) (maxSeconds : Binary64) : Binary64 :=
  (((Binary64.one.add s.relativeOvertime).mul maxSeconds).add s.absoluteOvertime).max .zero

/-- The nanoseconds after which a worker with this time limit is ended, if there is a limit. -/
def waitBudget (s : Settings) (maxSeconds : Binary64) : Option Nat :=
  nanosecondsOf (s.budgetSeconds maxSeconds)

/-- The nanoseconds between two looks at a worker, at least a million. -/
def pollInterval (s : Settings) : Nat := Nat.max s.pollMilliseconds.toNat 1 * 1000000

end Settings

end IsolatedSolving
