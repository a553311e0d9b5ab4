import IsolatedSolving.Linear.Tableau

/-! The simplex method with bounded variables, on exact numbers.

`restore` brings the basic variables into their ranges one after the other, the least one first, and
`raise` then moves variables so that one basic variable grows as far as it can. Both choose the least
variable that serves, so that no tableau comes back and they end. Whoever calls them names the number
of steps that they may take at most. -/
namespace IsolatedSolving.Linear

/-- Why there is no best point. -/
inductive Verdict where
  | infeasible
  | unbounded
  | exhausted
deriving DecidableEq, Repr

namespace Tableau

/-! ### A feasible point -/

/-- The least basic variable outside its range: its expression, how far it is off, and whether it
has to grow. -/
def violation? (t : Tableau) : Option (Expression × Rat × Bool) :=
  (List.range t.values.size).findSome? fun j =>
    (t.row? j).bind fun e =>
      ((t.range j).below (t.value j)).map (fun d => (e, d, true)) <|>
        ((t.range j).above (t.value j)).map (fun d => (e, d, false))

/-- Brings all basic variables into their ranges. -/
def restore : Nat → Tableau → Except Verdict Tableau
  | 0, _ => .error .exhausted
  | fuel + 1, t =>
    match t.violation? with
    | none => .ok t
    | some (e, d, up) =>
      match t.mover? e up with
      | none => .error .infeasible
      | some j =>
        let move := (if up then d else -d) / e.on j
        restore fuel ((t.shift j move).pivot e j)

/-! ### The best point -/

/-- How far a variable can move before a basic one leaves its range, with the expressions of those
that stop it. The variable's own range is the limit without an expression. -/
def limits (t : Tableau) (j : Nat) (up : Bool) : List (Rat × Nat × Option Expression) :=
  let own := ((t.range j).room (t.value j) up).toList.map fun d => (d, j, none)
  own ++ t.rows.filterMap fun e =>
    if e.on j = 0 then none
    else
      ((t.range e.basic).room (t.value e.basic) (decide (0 < e.on j) == up)).map fun d =>
        (d / (if e.on j < 0 then -e.on j else e.on j), e.basic, some e)

/-- The tightest limit; of several, the one of the least variable. -/
def tightest (ls : List (Rat × Nat × Option Expression)) : Option (Rat × Option Expression) :=
  (ls.foldl (fun best l =>
    match best with
    | none => some l
    | some b => if l.1 < b.1 ∨ (l.1 = b.1 ∧ l.2.1 < b.2.1) then some l else best) none).map
      fun (d, _, e) => (d, e)

/-- Lets a basic variable grow as far as the ranges allow. -/
def raise (goal : Nat) : Nat → Tableau → Except Verdict Tableau
  | 0, _ => .error .exhausted
  | fuel + 1, t =>
    match (t.row? goal).bind fun e => (t.mover? e true).map fun j => (e, j) with
    | none => .ok t
    | some (e, j) =>
      let up := decide (0 < e.on j)
      match tightest (t.limits j up) with
      | none => .error .unbounded
      | some (d, stopper) =>
        let moved := t.shift j (if up then d else -d)
        match stopper with
        | none => raise goal fuel moved
        | some row => raise goal fuel (moved.pivot row j)

end Tableau

end IsolatedSolving.Linear
