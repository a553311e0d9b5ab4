import IsolatedSolving.Number.Binary64
import Mathlib.Algebra.Order.Ring.Rat
import Mathlib.Order.Monotone.Basic
import Mathlib.Tactic.Linarith

/-! Comparing binary numbers.

A number is its sign and its magnitude, and it is finite, infinite or a NaN. Magnitudes and the units
they stand for grow together (`strictMono_unitsOfMagnitude`), so that among finite numbers a comparison
of bit patterns is one of exact values (`lt_iff_toRat`, `equals_iff_toRat`). A NaN is neither below
nor above anything: only without one "at most" is what "greater" leaves over (`le_eq_not_lt`). -/
namespace IsolatedSolving.Binary64

/-! ### Sign and magnitude -/

section Parts
variable {negative : Bool} {m : Nat}

theorem signBit_eq : signBit = 9223372036854775808 := rfl

theorem binade_eq : binade = 4503599627370496 := rfl

theorem toNat_ofMagnitude (h : m < signBit) :
    (ofMagnitude negative m).bits.toNat = (if negative then signBit else 0) + m := by
  rw [ofMagnitude, UInt64.toNat_ofNat']
  refine Nat.mod_eq_of_lt ?_
  rw [signBit_eq] at h ⊢
  split <;> omega

theorem magnitude_ofMagnitude (h : m < signBit) : (ofMagnitude negative m).magnitude = m := by
  rw [magnitude, toNat_ofMagnitude h]
  cases negative
  · exact (Nat.zero_add m).symm ▸ Nat.mod_eq_of_lt h
  · exact (Nat.add_mod_left signBit m).trans (Nat.mod_eq_of_lt h)

theorem isNegative_ofMagnitude (h : m < signBit) :
    (ofMagnitude negative m).isNegative = negative := by
  rw [isNegative, toNat_ofMagnitude h]
  cases negative
  · exact decide_eq_false (by simpa using h)
  · exact decide_eq_true (Nat.le_add_right signBit m)

theorem magnitude_lt (x : Binary64) : x.magnitude < signBit := Nat.mod_lt _ (by decide)

/-- A number is its sign and its magnitude. -/
theorem ofMagnitude_magnitude (x : Binary64) : ofMagnitude x.isNegative x.magnitude = x := by
  have hbits := x.bits.toNat_lt
  suffices h : (if x.isNegative then signBit else 0) + x.magnitude = x.bits.toNat by
    rw [ofMagnitude, h, UInt64.ofNat_toNat]
  rw [isNegative, magnitude, signBit_eq]
  by_cases hneg : 9223372036854775808 ≤ x.bits.toNat
  · rw [decide_eq_true hneg, if_pos rfl]
    omega
  · rw [decide_eq_false hneg, if_neg Bool.false_ne_true]
    omega

end Parts

/-! ### Finite numbers, infinities and NaNs -/

section Classes
variable {x : Binary64}

theorem isFinite_iff : x.isFinite = true ↔ x.magnitude < infinityMagnitude := decide_eq_true_iff

theorem isNaN_of_isFinite (h : x.isFinite = true) : x.isNaN = false :=
  decide_eq_false (Nat.not_lt_of_gt (isFinite_iff.mp h))

theorem isInfinite_of_isFinite (h : x.isFinite = true) : x.isInfinite = false :=
  decide_eq_false (Nat.ne_of_lt (isFinite_iff.mp h))

theorem isFinite_of_magnitude_lt {negative : Bool} {m : Nat} (h : m < infinityMagnitude) :
    (ofMagnitude negative m).isFinite = true := by
  rw [isFinite_iff, magnitude_ofMagnitude (Nat.lt_trans h (by decide))]
  exact h

/-- What is not a NaN is finite or one of the infinities. -/
theorem finite_or_infinite (h : x.isNaN = false) :
    x.isFinite = true ∨ x = infinity ∨ x = negInfinity := by
  have hle : x.magnitude ≤ infinityMagnitude := Nat.le_of_not_lt (of_decide_eq_false h)
  rcases Nat.lt_or_eq_of_le hle with hlt | heq
  · exact .inl (isFinite_iff.mpr hlt)
  · have hself := ofMagnitude_magnitude x
    rw [heq] at hself
    cases hsign : x.isNegative <;> rw [hsign] at hself
    · exact .inr (.inl hself.symm)
    · exact .inr (.inr hself.symm)

end Classes

/-! ### Comparisons -/

section Comparisons
variable {x y : Binary64}

theorem lt_iff : x.lt y = true ↔ x.isNaN = false ∧ y.isNaN = false ∧ x.rank < y.rank := by
  simp only [lt, Bool.and_eq_true, Bool.not_eq_true', decide_eq_true_eq, and_assoc]

theorem le_iff : x.le y = true ↔ x.isNaN = false ∧ y.isNaN = false ∧ x.rank ≤ y.rank := by
  simp only [le, Bool.and_eq_true, Bool.not_eq_true', decide_eq_true_eq, and_assoc]

theorem equals_iff : x.equals y = true ↔ x.isNaN = false ∧ y.isNaN = false ∧ x.rank = y.rank := by
  simp only [equals, Bool.and_eq_true, Bool.not_eq_true', decide_eq_true_eq, and_assoc]

theorem natAbs_rank (x : Binary64) : x.rank.natAbs = x.magnitude := by
  rw [rank]
  split <;> simp

/-- Without a NaN, "at most" is "not greater". -/
theorem le_eq_not_lt (hx : x.isNaN = false) (hy : y.isNaN = false) : x.le y = !y.lt x := by
  rw [le, lt, hx, hy, Bool.not_false, Bool.true_and, Bool.true_and, Bool.true_and, ← decide_not]
  exact decide_eq_decide.mpr Int.not_lt.symm

theorem lt_of_isNaN_left (h : x.isNaN = true) : x.lt y = false := by
  rw [lt, h]
  rfl

theorem lt_of_isNaN_right (h : y.isNaN = true) : x.lt y = false := by
  rw [lt, h, Bool.not_true, Bool.and_false]
  rfl

end Comparisons

/-! ### Exact values -/

/-- A larger magnitude stands for more units. -/
theorem strictMono_unitsOfMagnitude : StrictMono unitsOfMagnitude := by
  refine strictMono_nat_of_lt_succ fun m => ?_
  simp only [unitsOfMagnitude, Nat.shiftLeft_eq, binade_eq]
  -- The next magnitude stays in the binade or is the first one of the next binade.
  by_cases hlast : m % 4503599627370496 + 1 = 4503599627370496
  · have hfield : (m + 1) / 4503599627370496 = m / 4503599627370496 + 1 := by omega
    have hfraction : (m + 1) % 4503599627370496 = 0 := by omega
    rw [hfield, hfraction, if_neg (Nat.succ_ne_zero _), Nat.add_sub_cancel]
    split
    · next hzero => rw [hzero]; omega
    · next hpos =>
      obtain ⟨e, he⟩ := Nat.exists_eq_succ_of_ne_zero hpos
      rw [he, Nat.succ_sub_one, Nat.pow_succ, Nat.mul_comm _ 2, ← Nat.mul_assoc, Nat.add_zero]
      exact Nat.mul_lt_mul_of_pos_right (by omega) (Nat.two_pow_pos e)
  · have hfield : (m + 1) / 4503599627370496 = m / 4503599627370496 := by omega
    have hfraction : (m + 1) % 4503599627370496 = m % 4503599627370496 + 1 := by omega
    rw [hfield, hfraction]
    split
    · exact Nat.lt_succ_self _
    · exact Nat.mul_lt_mul_of_pos_right (by omega) (Nat.two_pow_pos _)

theorem unitsOfMagnitude_zero : unitsOfMagnitude 0 = 0 := rfl

/-- The binary places of a unit behind the point. It is never computed with. -/
@[irreducible]
def unitPlaces : Nat := 1074

theorem unitPlaces_eq : unitPlaces = 1074 := by rw [unitPlaces]

theorem unitsInOne_eq : unitsInOne = 2 ^ unitPlaces := by
  have hshift : unitsInOne = 1 <<< unitPlaces := by rw [unitPlaces_eq, unitsInOne]
  rw [hshift, Nat.one_shiftLeft]

theorem unitsInOne_pos : (0 : Rat) < unitsInOne := by
  rw [unitsInOne_eq]
  exact_mod_cast Nat.two_pow_pos unitPlaces

/-- Ranks and units order numbers in the same way. -/
theorem rank_lt_iff (x y : Binary64) : x.rank < y.rank ↔ x.signedUnits < y.signedUnits := by
  have hmono {m n : Nat} : unitsOfMagnitude m < unitsOfMagnitude n ↔ m < n :=
    strictMono_unitsOfMagnitude.lt_iff_lt
  have hx := @hmono 0 x.magnitude
  have hy := @hmono 0 y.magnitude
  have hxy := @hmono x.magnitude y.magnitude
  have hyx := @hmono y.magnitude x.magnitude
  rw [unitsOfMagnitude_zero] at hx hy
  simp only [rank, signedUnits, units]
  cases x.isNegative <;> cases y.isNegative <;> simp only [if_true, Bool.false_eq_true, if_false] <;>
    omega

theorem rank_eq_iff (x y : Binary64) : x.rank = y.rank ↔ x.signedUnits = y.signedUnits := by
  have hlt := rank_lt_iff x y
  have hgt := rank_lt_iff y x
  omega

theorem toRat_lt_iff (x y : Binary64) : x.toRat < y.toRat ↔ x.signedUnits < y.signedUnits := by
  rw [toRat, toRat, div_lt_div_iff_of_pos_right unitsInOne_pos]
  exact_mod_cast Iff.rfl

theorem toRat_eq_iff (x y : Binary64) : x.toRat = y.toRat ↔ x.signedUnits = y.signedUnits := by
  rw [toRat, toRat, div_left_inj' unitsInOne_pos.ne']
  exact_mod_cast Iff.rfl

section Values
variable {x y : Binary64}

/-- Finite numbers compare as their exact values do. -/
theorem lt_iff_toRat (hx : x.isFinite = true) (hy : y.isFinite = true) :
    x.lt y = true ↔ x.toRat < y.toRat := by
  rw [lt_iff, toRat_lt_iff, ← rank_lt_iff]
  simp only [isNaN_of_isFinite hx, isNaN_of_isFinite hy, true_and]

theorem equals_iff_toRat (hx : x.isFinite = true) (hy : y.isFinite = true) :
    x.equals y = true ↔ x.toRat = y.toRat := by
  rw [equals_iff, toRat_eq_iff, ← rank_eq_iff]
  simp only [isNaN_of_isFinite hx, isNaN_of_isFinite hy, true_and]

end Values

end IsolatedSolving.Binary64
