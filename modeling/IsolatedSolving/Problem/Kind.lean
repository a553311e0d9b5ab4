/-! Kinds of variables and the direction of an objective.

Each of the two has one code per case, which is how it travels; `ofCode?` takes back exactly the
codes that `code` gives. -/
namespace IsolatedSolving

/-- The values a variable may take: whole numbers, all numbers, or zero and one. -/
inductive VariableKind where
  | integer
  | continuous
  | binary
deriving DecidableEq, Repr

namespace VariableKind

instance : Inhabited VariableKind := ⟨.continuous⟩

def code : VariableKind → Nat
  | .integer => 0
  | .continuous => 1
  | .binary => 2

def ofCode? : Nat → Option VariableKind
  | 0 => some .integer
  | 1 => some .continuous
  | 2 => some .binary
  | _ => none

theorem ofCode?_code (k : VariableKind) : ofCode? k.code = some k := by cases k <;> rfl

theorem code_of_ofCode? {n : Nat} {k : VariableKind} (h : ofCode? n = some k) : k.code = n := by
  unfold ofCode? at h
  split at h <;> simp at h <;> subst h <;> rfl

/-- Whether values have to be whole. -/
def isIntegral : VariableKind → Bool
  | .continuous => false
  | .integer | .binary => true

end VariableKind

/-- Whether small or large objective values are wanted. -/
inductive Sense where
  | minimize
  | maximize
deriving DecidableEq, Repr

namespace Sense

instance : Inhabited Sense := ⟨.minimize⟩

def code : Sense → Nat
  | .minimize => 0
  | .maximize => 1

def ofCode? : Nat → Option Sense
  | 0 => some .minimize
  | 1 => some .maximize
  | _ => none

theorem ofCode?_code (s : Sense) : ofCode? s.code = some s := by cases s <;> rfl

theorem code_of_ofCode? {n : Nat} {s : Sense} (h : ofCode? n = some s) : s.code = n := by
  unfold ofCode? at h
  split at h <;> simp at h <;> subst h <;> rfl

end Sense

end IsolatedSolving
