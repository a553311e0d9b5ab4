import IsolatedSolving.Linear.Relaxation

/-! Best points with whole values.

Columns that have to be whole get bounds that are whole: their own ones rounded inwards, and those of
32-bit integers where they have none. The search then cuts the range of a column with a fractional
value in two, below and above that value, and drops every part that cannot improve on what it has
found. Each cut takes at least one value away, so the depth of the search is limited by the sizes of
the ranges together. -/
namespace IsolatedSolving.Linear

/-! ### Whole bounds -/

/-- The limits of whole values. -/
def leastWhole : Int := -2147483648
def greatestWhole : Int := 2147483647

/-- Why a column has no whole values to search. -/
inductive Refusal where
  | empty
  | tooLarge
deriving DecidableEq, Repr

/-- A bound rounded by the given function, if it stays within the limits. -/
def wholeBound (round : Rat → Int) (default : Int) : Option Binary64 → Option Int
  | none => some default
  | some x =>
    if !x.isFinite then none
    else
      let n := round x.toRat
      if leastWhole ≤ n ∧ n ≤ greatestWhole then some n else none

/-- The range of a column, with whole bounds if its values are whole. -/
def Column.searchRange (c : Column) : Except Refusal Range :=
  if !c.integral then .ok c.range
  else
    match wholeBound Rat.ceil leastWhole c.lower, wholeBound Rat.floor greatestWhole c.upper with
    | some l, some u => if u < l then .error .empty else .ok ⟨some l, some u⟩
    | _, _ => .error .tooLarge

/-! ### Search -/

/-- The number of whole values in a range, less one. -/
def Range.cuts (r : Range) : Nat :=
  match r.lower, r.upper with
  | some l, some u => (u.floor - l.ceil).toNat
  | _, _ => 0

/-- The best point so far and its gain. -/
abbrev Incumbent := Option (Rat × List Rat)

/-- The first column that has to be whole and is not. -/
def Model.fractional? (m : Model) (x : List Rat) : Option (Nat × Rat) :=
  ((m.columns.zip x).zipIdx.find? fun ((c, v), _) => c.integral && v.den != 1).map
    fun ((_, v), j) => (j, v)

/-- Improves the incumbent by the points in these ranges. -/
def Model.search (m : Model) : Nat → List Range → Incumbent → Except Verdict Incumbent
  | 0, _, _ => .error .exhausted
  | fuel + 1, ranges, best =>
    match m.relax ranges with
    | .error .infeasible => .ok best
    | .error v => .error v
    | .ok (gain, x) =>
      if best.any fun (g, _) => decide (gain ≤ g) then .ok best
      else
        match m.fractional? x with
        | none => .ok (some (gain, x))
        | some (j, v) => do
          let lowerPart := ranges.modify j fun r => { r with upper := some v.floor }
          let upperPart := ranges.modify j fun r => { r with lower := some v.ceil }
          let best ← m.search fuel lowerPart best
          m.search fuel upperPart best

/-- The best point of the model. -/
def Model.best (m : Model) (ranges : List Range) : Except Verdict (List Rat) :=
  let cuts := (m.columns.zip ranges).foldl (fun n (c, r) => if c.integral then n + r.cuts else n) 0
  match m.search (cuts + 1) ranges none with
  | .error v => .error v
  | .ok none => .error .infeasible
  | .ok (some (_, x)) => .ok x

end IsolatedSolving.Linear
