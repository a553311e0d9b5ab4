/-! Systems of linear equations with bounded variables, over the rationals.

The variables are numbered. In a tableau some of them are basic: each of these is expressed by a row
of coefficients in the others, whose values are free to choose. A tableau carries one value for each
variable, and the rows hold for these values from the start to the end, because `shift` moves a
variable together with all that depend on it and `pivot` only solves a row for another variable. -/
namespace IsolatedSolving.Linear

/-- The values between two bounds, either of which may be missing. -/
structure Range where
  lower : Option Rat
  upper : Option Rat
deriving DecidableEq, Repr

namespace Range

def unbounded : Range := ⟨none, none⟩

/-- A range without values. -/
def nothing : Range := ⟨some 1, some 0⟩

instance : Inhabited Range := ⟨unbounded⟩

/-- Whether the bounds leave no value. -/
def isEmpty (r : Range) : Bool :=
  match r.lower, r.upper with
  | some l, some u => decide (u < l)
  | _, _ => false

/-- A value to start from: a bound if there is one. -/
def start (r : Range) : Rat := (r.lower <|> r.upper).getD 0

/-- How far below the range a value lies. -/
def below (r : Range) (v : Rat) : Option Rat :=
  (r.lower.map fun l => l - v).filter fun d => decide (0 < d)

/-- How far above the range a value lies. -/
def above (r : Range) (v : Rat) : Option Rat :=
  (r.upper.map fun u => v - u).filter fun d => decide (0 < d)

/-- How far a value may move up, or down, before it leaves the range. -/
def room (r : Range) (v : Rat) (up : Bool) : Option Rat :=
  if up then r.upper.map fun u => u - v else r.lower.map fun l => v - l

/-- Whether a value may move at all. -/
def hasRoom (r : Range) (v : Rat) (up : Bool) : Bool :=
  match r.room v up with
  | some d => decide (0 < d)
  | none => true

end Range

/-- The expression of a basic variable: its coefficients on all variables, zero on the basic ones. -/
structure Expression where
  basic : Nat
  coefficients : Array Rat
deriving DecidableEq, Repr

/-- Bounded variables with values, some of them expressed by the others. -/
structure Tableau where
  ranges : Array Range
  values : Array Rat
  rows : List Expression
deriving DecidableEq, Repr

namespace Expression

/-- The coefficient on a variable. -/
def on (e : Expression) (j : Nat) : Rat := e.coefficients.getD j 0

/-- The same equation solved for another variable. -/
def solvedFor (e : Expression) (j : Nat) : Expression where
  basic := j
  coefficients := e.coefficients.mapIdx fun k c =>
    if k = j then 0 else if k = e.basic then 1 / e.on j else -c / e.on j

/-- The expression with another one put in for its basic variable. -/
def replacing (e other : Expression) : Expression :=
  { e with
    coefficients := e.coefficients.mapIdx fun k c =>
      (if k = other.basic then 0 else c) + e.on other.basic * other.on k }

end Expression

namespace Tableau

def range (t : Tableau) (j : Nat) : Range := t.ranges.getD j .unbounded

def value (t : Tableau) (j : Nat) : Rat := t.values.getD j 0

/-- The expression of a basic variable. -/
def row? (t : Tableau) (basic : Nat) : Option Expression := t.rows.find? (·.basic == basic)

/-- Moves a variable that is not basic, and the basic ones with it. -/
def shift (t : Tableau) (j : Nat) (d : Rat) : Tableau :=
  { t with
    values := t.rows.foldl (fun vs e => vs.modify e.basic (· + e.on j * d))
      (t.values.modify j (· + d)) }

/-- Exchanges the basic variable of a row with another variable of it. -/
def pivot (t : Tableau) (row : Expression) (j : Nat) : Tableau :=
  let solved := row.solvedFor j
  { t with rows := t.rows.map fun e => if e.basic = row.basic then solved else e.replacing solved }

/-- The first variable of an expression that can move so as to raise or lower it. -/
def mover? (t : Tableau) (e : Expression) (raise : Bool) : Option Nat :=
  (List.range e.coefficients.size).find? fun j =>
    e.on j != 0 && (t.range j).hasRoom (t.value j) (decide (0 < e.on j) == raise)

end Tableau

end IsolatedSolving.Linear
