/-! What a solve has established.

A status says whether the values that come with it are usable: only the two that claim a feasible
point, proven optimal or not, bear a solution. -/
namespace IsolatedSolving

/-- The outcome of a solve. `noSolution` also stands for "nothing found yet". -/
inductive Status where
  | provenOptimal
  | provenInfeasible
  | provenUnbounded
  | suboptimal
  | noSolution
deriving DecidableEq, Repr

namespace Status

instance : Inhabited Status := ⟨.noSolution⟩

def code : Status → Nat
  | .provenOptimal => 0
  | .provenInfeasible => 1
  | .provenUnbounded => 2
  | .suboptimal => 3
  | .noSolution => 4

def ofCode? : Nat → Option Status
  | 0 => some .provenOptimal
  | 1 => some .provenInfeasible
  | 2 => some .provenUnbounded
  | 3 => some .suboptimal
  | 4 => some .noSolution
  | _ => none

theorem ofCode?_code (s : Status) : ofCode? s.code = some s := by cases s <;> rfl

theorem code_of_ofCode? {n : Nat} {s : Status} (h : ofCode? n = some s) : s.code = n := by
  unfold ofCode? at h
  split at h <;> simp at h <;> subst h <;> rfl

def text : Status → String
  | .provenOptimal => "proven_optimal"
  | .provenInfeasible => "proven_infeasible"
  | .provenUnbounded => "proven_unbounded"
  | .suboptimal => "suboptimal"
  | .noSolution => "no_solution"

/-- All outcomes, in the order of their codes. -/
def all : List Status := [provenOptimal, provenInfeasible, provenUnbounded, suboptimal, noSolution]

/-- The outcome with this text. -/
def ofText? (text : String) : Option Status := all.find? fun s => s.text == text

/-- Whether values that come with this status are a feasible point. -/
def bearsSolution : Status → Bool
  | .provenOptimal | .suboptimal => true
  | .provenInfeasible | .provenUnbounded | .noSolution => false

end Status

end IsolatedSolving
