import IsolatedSolving.Number.Rounding

/-! Binary floating-point numbers of 64 bits.

A number is its bit pattern, so two numbers are equal exactly when all their bits agree; the
comparison that identifies the two zeros and separates a NaN from itself is `equals`. A pattern is a
sign and a magnitude below 2^63, and magnitudes order the numbers of one sign. Every finite number is
a whole multiple of a unit, 2^-1074, so sums and products are computed exactly on integers and
rounded once by `ofUnits`, to the nearest number and to the even one at a half. -/
namespace IsolatedSolving

/-- A 64-bit binary floating-point number, given by its bit pattern. -/
structure Binary64 where
  bits : UInt64
deriving DecidableEq, Repr, Inhabited

namespace Binary64

/-! ### Sign and magnitude -/

/-- The value of the sign bit; magnitudes lie below it. -/
def signBit : Nat := 0x8000000000000000

/-- The bit pattern without its sign. -/
def magnitude (x : Binary64) : Nat := x.bits.toNat % signBit

/-- Whether the sign bit is set. -/
def isNegative (x : Binary64) : Bool := decide (signBit ≤ x.bits.toNat)

/-- The number with this sign and this magnitude. -/
def ofMagnitude (negative : Bool) (m : Nat) : Binary64 :=
  ⟨UInt64.ofNat ((if negative then signBit else 0) + m)⟩

/-- The magnitude of the infinities; finite numbers lie below it and NaNs above. -/
def infinityMagnitude : Nat := 0x7ff0000000000000

def isNaN (x : Binary64) : Bool := decide (infinityMagnitude < x.magnitude)

def isInfinite (x : Binary64) : Bool := decide (x.magnitude = infinityMagnitude)

def isFinite (x : Binary64) : Bool := decide (x.magnitude < infinityMagnitude)

/-- Whether the number is one of the two zeros. -/
def isZero (x : Binary64) : Bool := decide (x.magnitude = 0)

def zero : Binary64 := ⟨0⟩
def negZero : Binary64 := ⟨0x8000000000000000⟩
def one : Binary64 := ⟨0x3ff0000000000000⟩
def infinity : Binary64 := ⟨0x7ff0000000000000⟩
def negInfinity : Binary64 := ⟨0xfff0000000000000⟩

/-- The largest finite number. -/
def largest : Binary64 := ⟨0x7fefffffffffffff⟩

/-- The smallest finite number. -/
def negLargest : Binary64 := ⟨0xffefffffffffffff⟩

/-- The NaN that stands for "not a number" in text. -/
def nan : Binary64 := ⟨0x7ff8000000000000⟩

/-- The NaN that an operation without a meaningful result gives. -/
def invalid : Binary64 := ⟨0xfff8000000000000⟩

/-- The same number with the other sign. -/
def neg (x : Binary64) : Binary64 := ofMagnitude (!x.isNegative) x.magnitude

/-- The same number without its sign. -/
def abs (x : Binary64) : Binary64 := ofMagnitude false x.magnitude

/-! ### Order -/

/-- Position on the number line, the same for both zeros. -/
def rank (x : Binary64) : Int := if x.isNegative then -(x.magnitude : Int) else x.magnitude

/-- Numeric "less than", false as soon as one side is a NaN. -/
def lt (x y : Binary64) : Bool := !x.isNaN && !y.isNaN && decide (x.rank < y.rank)

/-- Numeric "at most", false as soon as one side is a NaN. -/
def le (x y : Binary64) : Bool := !x.isNaN && !y.isNaN && decide (x.rank ≤ y.rank)

/-- Numeric equality: the zeros are equal, and a NaN differs from everything. -/
def equals (x y : Binary64) : Bool := !x.isNaN && !y.isNaN && decide (x.rank = y.rank)

/-- The larger of two numbers; a NaN gives way to the other operand. -/
def max (x y : Binary64) : Binary64 :=
  if x.isNaN then y else if y.isNaN then x else if x.lt y then y else x

/-! ### Exact values -/

/-- One in units of 2^-1074. -/
def unitsInOne : Nat := 1 <<< 1074

/-- The number of magnitudes between two powers of two. -/
def binade : Nat := 0x10000000000000

/-- How many units a number of this magnitude has. -/
def unitsOfMagnitude (m : Nat) : Nat :=
  let field := m / binade
  let fraction := m % binade
  if field = 0 then fraction else (binade + fraction) <<< (field - 1)

/-- The units of a finite number without its sign. -/
def units (x : Binary64) : Nat := unitsOfMagnitude x.magnitude

/-- The units of a finite number. -/
def signedUnits (x : Binary64) : Int := if x.isNegative then -(x.units : Int) else x.units

/-- The magnitude nearest to `n / d` units. The quotient is cut to 53 binary digits, of
which the last is rounded; a quotient too large for a finite number becomes infinite. -/
def magnitudeOfUnits (n d : Nat) : Nat :=
  let shift := Nat.log2 (n / d) - 52
  min infinityMagnitude (shift * binade + Number.nearestEven n (d <<< shift))

/-- The number nearest to `n / d` units. -/
def ofUnits (negative : Bool) (n d : Nat) : Binary64 :=
  ofMagnitude negative (magnitudeOfUnits n d)

/-- The exact value of a finite number. -/
def toRat (x : Binary64) : Rat := (x.signedUnits : Rat) / unitsInOne

/-- The number nearest to a rational; zero is the positive one. -/
def ofRat (q : Rat) : Binary64 := ofUnits (decide (q < 0)) (q.num.natAbs * unitsInOne) q.den

/-- The number nearest to an integer. -/
def ofInt (n : Int) : Binary64 := ofUnits (decide (n < 0)) (n.natAbs * unitsInOne) 1

/-- The number nearest to `digits * 10 ^ exponent`. Exponents far outside the range are settled
without computing the power. -/
def ofDecimal (negative : Bool) (digits : Nat) (exponent : Int) : Binary64 :=
  if digits = 0 then ofMagnitude negative 0
  else if 400 < exponent then ofMagnitude negative infinityMagnitude
  else if exponent + Nat.log2 digits < -2000 then ofMagnitude negative 0
  else if 0 ≤ exponent then ofUnits negative (digits * Nat.pow 10 exponent.toNat * unitsInOne) 1
  else ofUnits negative (digits * unitsInOne) (Nat.pow 10 (-exponent).toNat)

/-! ### Arithmetic -/

/-- A NaN with its quiet bit set. -/
def quiet (x : Binary64) : Binary64 := ⟨x.bits ||| 0x0008000000000000⟩

/-- The sum rounded to nearest. Opposite infinities have none, the first NaN operand is handed on,
and an exact zero is positive unless both operands are negative zeros. -/
def add (x y : Binary64) : Binary64 :=
  if x.isNaN then x.quiet
  else if y.isNaN then y.quiet
  else if x.isInfinite then
    if y.isInfinite && x.isNegative != y.isNegative then invalid else x
  else if y.isInfinite then y
  else
    let total := x.signedUnits + y.signedUnits
    if total = 0 then ofMagnitude (x.isNegative && y.isNegative) 0
    else ofUnits (decide (total < 0)) total.natAbs 1

/-- The difference rounded to nearest. -/
def sub (x y : Binary64) : Binary64 := if y.isNaN && !x.isNaN then y.quiet else x.add y.neg

/-- The product rounded to nearest; infinity times zero has none. -/
def mul (x y : Binary64) : Binary64 :=
  if x.isNaN then x.quiet
  else if y.isNaN then y.quiet
  else
    let negative := x.isNegative != y.isNegative
    if x.isInfinite || y.isInfinite then
      if x.isZero || y.isZero then invalid else ofMagnitude negative infinityMagnitude
    else ofUnits negative (x.units * y.units) unitsInOne

/-- The nearest whole number, the one away from zero at a half. The sign stays, also on zero. -/
def round (x : Binary64) : Binary64 :=
  if x.isNaN then x.quiet
  else if x.isInfinite then x
  else ofUnits x.isNegative (Number.nearestAway x.units unitsInOne * unitsInOne) 1

/-- The sum of a list, added from left to right to negative zero. -/
def sum (xs : List Binary64) : Binary64 := xs.foldl add negZero

end Binary64

end IsolatedSolving
