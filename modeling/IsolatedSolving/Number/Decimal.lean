import IsolatedSolving.Number.Binary64

/-! Decimal text of binary numbers.

`Decimal.shortest` gives the decimal with the fewest digits among those that round back to a number,
and the nearest of these; at a tie it is the larger one. The interval of values that round back is
taken from the two neighbouring magnitudes, and each grid of one to seventeen digits is tried on the
two points around the exact value, so no step is approximate. A `Style` says how such a decimal is
spelled, and `toFixed` writes a number with a given count of places. -/
namespace IsolatedSolving

/-- The number `digits * 10 ^ exponent`. -/
structure Decimal where
  digits : Nat
  exponent : Int
deriving DecidableEq, Repr

namespace Decimal

/-! ### The fewest digits that read back -/

/-- The text of a whole number. -/
def figures (n : Nat) : List Char := Nat.toDigits 10 n

/-- Values that round to one number, in halves of a unit: `low` and `high` bound them, and the
bounds themselves belong to them if `closed`. -/
structure Interval where
  low : Nat
  value : Nat
  high : Nat
  closed : Bool

/-- The values that round to the magnitude `m`. -/
def interval (m : Nat) : Interval where
  low := Binary64.unitsOfMagnitude (m - 1) + Binary64.unitsOfMagnitude m
  value := 2 * Binary64.unitsOfMagnitude m
  high := Binary64.unitsOfMagnitude m + Binary64.unitsOfMagnitude (m + 1)
  closed := m % 2 == 0

/-- Whether `k` grid steps lie in the interval, a step being `step` parts of which `scale` make half
a unit. -/
def Interval.holds (i : Interval) (scale step k : Nat) : Bool :=
  if i.closed then decide (i.low * scale ≤ k * step) && decide (k * step ≤ i.high * scale)
  else decide (i.low * scale < k * step) && decide (k * step < i.high * scale)

/-- One in halves of a unit. -/
def halvesInOne : Nat := 2 * Binary64.unitsInOne

/-- The point of the grid of multiples of `10 ^ exponent` that stands for the interval, if one of
the two points around its value lies in it. -/
def Interval.onGrid (i : Interval) (exponent : Int) : Option Decimal :=
  let scale := Nat.pow 10 (-exponent).toNat
  let step := Nat.pow 10 exponent.toNat * halvesInOne
  let below := i.value * scale / step
  let rest := i.value * scale % step
  match i.holds scale step below, i.holds scale step (below + 1) with
  | true, true => some ⟨if 2 * rest < step then below else below + 1, exponent⟩
  | true, false => some ⟨below, exponent⟩
  | false, true => some ⟨below + 1, exponent⟩
  | false, false => none

/-- The power of ten of the leading digit of `n` halves of a unit. -/
def leadingPlace (n : Nat) : Int := (figures (n * Nat.pow 10 400 / halvesInOne)).length - 401

/-- Drops zeros at the end; at most `fuel` of them. -/
def trim : Nat → Decimal → Decimal
  | 0, d => d
  | fuel + 1, d => if d.digits % 10 = 0 then trim fuel ⟨d.digits / 10, d.exponent + 1⟩ else d

/-- The decimal with the fewest digits that rounds to the magnitude `m`. -/
def shortest (m : Nat) : Decimal :=
  if m = 0 then ⟨0, 0⟩
  else
    let i := interval m
    let place := leadingPlace i.value
    let found := (List.range 17).findSome? fun (more : Nat) => i.onGrid (place - (more : Nat))
    trim 17 (found.getD ⟨0, 0⟩)

/-! ### Spelling -/

/-- The digits with a point where it belongs and zeros up to it. -/
def positional (d : Decimal) : List Char :=
  let ds := figures d.digits
  if 0 ≤ d.exponent then ds ++ List.replicate d.exponent.toNat '0'
  else
    let places := (-d.exponent).toNat
    if places < ds.length then
      ds.take (ds.length - places) ++ '.' :: ds.drop (ds.length - places)
    else '0' :: '.' :: (List.replicate (places - ds.length) '0' ++ ds)

/-- The first digit, a point before the others if there are any, and the power of ten. -/
def scientific (d : Decimal) : List Char :=
  let ds := figures d.digits
  let power := d.exponent + (ds.length - 1 : Nat)
  let mantissa := match ds with
    | first :: second :: more => first :: '.' :: second :: more
    | short => short
  mantissa ++ 'e' :: (toString power).toList

/-- Whether the decimal has no digit behind the point. -/
def isWhole (d : Decimal) : Bool := decide (0 ≤ d.exponent)

/-- How numbers are spelled: the word for a NaN, whether whole numbers show a zero behind the
point, and which powers of ten of the leading digit are written positionally (from the first up to
the second, without it; all of them if absent). -/
structure Style where
  nan : String
  pointed : Bool
  positional : Option (Int × Int)

/-- Numbers in messages: no exponent, and no point on whole numbers. -/
def Style.plain : Style := ⟨"NaN", false, none⟩

/-- Numbers in listings: always a point or an exponent, the latter outside 0.0001 to 10^16. -/
def Style.listing : Style := ⟨"NaN", true, some (-4, 16)⟩

/-- The decimal in a style. -/
def Style.spell (style : Style) (d : Decimal) : List Char :=
  let power := d.exponent + ((figures d.digits).length - 1 : Nat)
  let inRange := match style.positional with
    | none => true
    | some (first, limit) => d.digits == 0 || decide (first ≤ power) && decide (power < limit)
  if inRange then
    if style.pointed && d.isWhole then d.positional ++ ['.', '0'] else d.positional
  else d.scientific

end Decimal

namespace Binary64

/-- The number in a style, with the fewest digits that read back. -/
def spell (style : Decimal.Style) (x : Binary64) : String :=
  if x.isNaN then style.nan
  else
    let sign := if x.isNegative then "-" else ""
    if x.isInfinite then sign ++ "inf"
    else sign ++ String.ofList (style.spell (Decimal.shortest x.magnitude))

/-- The number as messages show it. -/
def text (x : Binary64) : String := x.spell .plain

/-- The number with exactly `places` digits behind the point, a half going to the even neighbour. -/
def toFixed (places : Nat) (x : Binary64) : String :=
  if x.isNaN then "NaN"
  else
    let sign := if x.isNegative then "-" else ""
    if x.isInfinite then sign ++ "inf"
    else
      let ds := Decimal.figures (Number.nearestEven (x.units * Nat.pow 10 places) unitsInOne)
      let padded := List.replicate (places + 1 - ds.length) '0' ++ ds
      let whole := padded.take (padded.length - places)
      let fraction := padded.drop (padded.length - places)
      sign ++ String.ofList (if places = 0 then whole else whole ++ '.' :: fraction)

end Binary64

end IsolatedSolving
