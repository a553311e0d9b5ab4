import IsolatedSolving.Proofs.Number.Nonnegative
import IsolatedSolving.Settings.Basic

/-! The time a worker is given.

More seconds have no fewer nanoseconds, and the budget of a worker with a positive time limit has no
fewer seconds than its absolute overtime. So the worker is given its overtime whatever is rounded on the
way (`waitBudget_covers`). A time limit that is not a number leaves no time at all
(`waitBudget_of_isNaN`). -/
namespace IsolatedSolving.Settings

open Binary64

/-! ### Whole nanoseconds -/

/-- More seconds have no fewer nanoseconds. -/
theorem nanosecondsOf_mono {x y : Binary64} (hx : zero.le x = true) (hy : zero.le y = true)
    (h : x.magnitude ≤ y.magnitude) {long : Nat} (hlong : nanosecondsOf y = some long) :
    ∃ short, nanosecondsOf x = some short ∧ short ≤ long := by
  have hnegative {z : Binary64} (hz : zero.le z = true) : (z.isNaN || z.lt zero) = false := by
    obtain ⟨hnan, -⟩ := zero_le_iff.mp hz
    have hzero : zero.isNaN = false := rfl
    rw [hnan, Bool.false_or]
    rwa [le_eq_not_lt hzero hnan, Bool.not_eq_true'] at hz
  have hunits : x.units ≤ y.units := strictMono_unitsOfMagnitude.monotone h
  simp only [nanosecondsOf, hnegative hx, hnegative hy, Bool.false_eq_true, if_false] at hlong ⊢
  split at hlong
  · cases hlong
  · next hfits =>
    cases hlong
    rw [if_neg (fun hlarge => hfits (Nat.le_trans hlarge hunits))]
    exact ⟨_, rfl, Number.nearestEven_mono zero_lt_unitsInOne (Nat.mul_le_mul_right _ hunits)⟩

theorem nanosecondsOf_zero : nanosecondsOf zero = some 0 := by
  have hunits : zero.units = 0 := rfl
  have hsome : ¬UInt64.size * unitsInOne ≤ 0 :=
    Nat.not_le_of_gt (Nat.mul_pos (by decide) zero_lt_unitsInOne)
  have hround : Number.nearestEven 0 unitsInOne = 0 := by
    simpa using Number.nearestEven_mul 0 unitsInOne zero_lt_unitsInOne
  rw [nanosecondsOf, hunits, Nat.zero_mul, if_neg (by decide), if_neg hsome, hround]

/-! ### The budget -/

/-- The limit leaves a worker at least the absolute overtime. -/
def Covers (s : Settings) (limit : Option Nat) : Prop :=
  ∀ n, limit = some n → ∃ overtime, nanosecondsOf s.absoluteOvertime = some overtime ∧ overtime ≤ n

section Budget
variable {s : Settings} {maxSeconds : Binary64}

/-- With a positive time limit the budget is no less than the absolute overtime. -/
theorem budgetSeconds_covers (hrelative : zero.le s.relativeOvertime = true)
    (habsolute : zero.le s.absoluteOvertime = true) (htime : zero.lt maxSeconds = true) :
    zero.le (s.budgetSeconds maxSeconds) = true ∧
      s.absoluteOvertime.magnitude ≤ (s.budgetSeconds maxSeconds).magnitude := by
  have hone : zero.le one = true := rfl
  obtain ⟨hfactor, hlarge, -⟩ := le_add hone hrelative
  have hpositive : zero.lt (one.add s.relativeOvertime) = true := by
    obtain ⟨hnan, hsign⟩ := zero_le_iff.mp hfactor
    have hmagnitude : 0 < (one.add s.relativeOvertime).magnitude := Nat.lt_of_lt_of_le (by decide) hlarge
    refine zero_lt_iff.mpr ⟨hnan, ?_, hmagnitude⟩
    rw [← Bool.not_eq_true]
    exact fun hneg => Nat.ne_of_gt hmagnitude (hsign hneg)
  obtain ⟨hsum, -, hcovers⟩ := le_add (zero_le_mul hpositive htime) habsolute
  rw [budgetSeconds, max_zero hsum]
  exact ⟨hsum, hcovers⟩

theorem waitBudget_covers (hrelative : zero.le s.relativeOvertime = true)
    (habsolute : zero.le s.absoluteOvertime = true) (htime : zero.lt maxSeconds = true) :
    s.Covers (s.waitBudget maxSeconds) := by
  obtain ⟨hbudget, hcovers⟩ := budgetSeconds_covers hrelative habsolute htime
  exact fun n hn => nanosecondsOf_mono habsolute hbudget hcovers hn

/-- A time limit that is not a number leaves no time. -/
theorem waitBudget_of_isNaN (s : Settings) (hnan : maxSeconds.isNaN = true) :
    s.waitBudget maxSeconds = some 0 := by
  have hproduct : ((one.add s.relativeOvertime).mul maxSeconds).isNaN = true := by
    rw [mul]
    split
    · next hfactor => exact isNaN_quiet hfactor
    · exact isNaN_quiet hnan
  have hsum : (((one.add s.relativeOvertime).mul maxSeconds).add s.absoluteOvertime).isNaN = true := by
    rw [add, if_pos hproduct]
    exact isNaN_quiet hproduct
  rw [waitBudget, budgetSeconds, Binary64.max, if_pos hsum, nanosecondsOf_zero]

end Budget

end IsolatedSolving.Settings
