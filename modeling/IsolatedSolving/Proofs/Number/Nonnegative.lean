import IsolatedSolving.Proofs.Number.Exactness
import IsolatedSolving.Proofs.Number.Nearest

/-! Sums and products that are not negative.

What is not negative is a zero of either sign or a number above it, finite or not (`zero_le_iff`). A sum
of such numbers is never less than what is added, because rounding keeps what is a number already
(`le_add`), and a product of positive ones is not negative (`zero_le_mul`). -/
namespace IsolatedSolving

theorem Number.nearestEven_mono {n n' d : Nat} (hd : 0 < d) (h : n ≤ n') :
    nearestEven n d ≤ nearestEven n' d := by
  refine Nat.le_of_not_lt fun hlt => ?_
  have hbelow := nearestEven_le n d hd
  have habove := le_nearestEven n' d hd
  have hstep := Nat.mul_le_mul_right d (Nat.succ_le_of_lt hlt)
  rw [Nat.succ_mul] at hstep
  -- Both quotients would lie on the same midpoint.
  obtain rfl : n = n' := by omega
  exact Nat.lt_irrefl _ hlt

namespace Binary64

/-! ### Numbers that are not negative -/

section Nonnegative
variable {x y : Binary64}

theorem zero_le_iff : zero.le x = true ↔ x.isNaN = false ∧ (x.isNegative = true → x.magnitude = 0) := by
  have hzero : zero.rank = 0 := rfl
  have hnan : zero.isNaN = false := rfl
  rw [le_iff, hzero, hnan, rank, and_iff_right rfl]
  refine and_congr_right fun _ => ?_
  cases x.isNegative
  · simp
  · simp only [if_true, forall_const]
    omega

theorem zero_lt_iff :
    zero.lt x = true ↔ x.isNaN = false ∧ x.isNegative = false ∧ 0 < x.magnitude := by
  have hzero : zero.rank = 0 := rfl
  have hnan : zero.isNaN = false := rfl
  rw [lt_iff, hzero, hnan, rank, and_iff_right rfl]
  refine and_congr_right fun _ => ?_
  cases x.isNegative
  · simp
  · simp only [if_true, Bool.true_eq_false, false_and, iff_false]
    omega

/-- Positive numbers, and the others that are not negative are zeros. -/
theorem signedUnits_of_zero_le (h : zero.le x = true) : x.signedUnits = x.units := by
  obtain ⟨-, hsign⟩ := zero_le_iff.mp h
  rw [signedUnits]
  split
  · next hneg =>
    rw [units, hsign hneg, unitsOfMagnitude_zero]
    rfl
  · rfl

theorem magnitude_le_infinity (h : x.isNaN = false) : x.magnitude ≤ infinityMagnitude :=
  Nat.le_of_not_lt (of_decide_eq_false h)

/-- Two negative zeros have nothing to add. -/
theorem units_of_negative (hx : zero.le x = true) (hneg : x.isNegative = true) : x.units = 0 := by
  rw [units, (zero_le_iff.mp hx).2 hneg, unitsOfMagnitude_zero]

/-- Finite numbers that are not negative are added by their units. -/
theorem add_of_zero_le (hx : zero.le x = true) (hy : zero.le y = true) (hxf : x.isFinite = true)
    (hyf : y.isFinite = true) :
    x.add y = ofMagnitude (x.isNegative && y.isNegative) (magnitudeOfUnits (x.units + y.units) 1) := by
  have htotal : x.signedUnits + y.signedUnits = ((x.units + y.units : Nat) : Int) := by
    rw [signedUnits_of_zero_le hx, signedUnits_of_zero_le hy, Int.natCast_add]
  rw [add_of_finite hxf hyf, htotal]
  split
  · next hzero =>
    rw [Int.natCast_eq_zero.mp hzero]
    rfl
  · next hsome =>
    have hsign : (x.isNegative && y.isNegative) = false := by
      rw [← Bool.not_eq_true, Bool.and_eq_true]
      rintro ⟨hxneg, hyneg⟩
      rw [units_of_negative hx hxneg, units_of_negative hy hyneg] at hsome
      exact hsome rfl
    rw [hsign, decide_eq_false (by omega), ofUnits, Int.natAbs_natCast]

/-- What is not negative is finite or infinity. -/
theorem finite_or_infinity (h : zero.le x = true) : x.isFinite = true ∨ x = infinity := by
  rcases finite_or_infinite (zero_le_iff.mp h).1 with hfinite | rfl | rfl
  · exact .inl hfinite
  · exact .inr rfl
  · cases h

theorem add_infinity (hx : zero.le x = true) : x.add infinity = infinity := by
  rcases finite_or_infinity hx with hfinite | rfl
  · exact add_of_isInfinite_right hfinite rfl
  · rfl

/-- A sum of numbers that are not negative is not negative, and no less than any of them. -/
theorem le_add (hx : zero.le x = true) (hy : zero.le y = true) :
    zero.le (x.add y) = true ∧ x.magnitude ≤ (x.add y).magnitude ∧
      y.magnitude ≤ (x.add y).magnitude := by
  have hxle := magnitude_le_infinity (zero_le_iff.mp hx).1
  have hyle := magnitude_le_infinity (zero_le_iff.mp hy).1
  rcases finite_or_infinity hy with hyf | rfl
  · rcases finite_or_infinity hx with hxf | rfl
    · have hle : magnitudeOfUnits (x.units + y.units) 1 ≤ infinityMagnitude := Nat.min_le_left _ _
      have hlt : magnitudeOfUnits (x.units + y.units) 1 < signBit := Nat.lt_of_le_of_lt hle (by decide)
      rw [add_of_zero_le hx hy hxf hyf, zero_le_iff, magnitude_ofMagnitude hlt,
        isNegative_ofMagnitude hlt]
      refine ⟨⟨isNaN_ofMagnitude hle, fun hneg => ?_⟩, ?_, ?_⟩
      · obtain ⟨hxneg, hyneg⟩ := Bool.and_eq_true_iff.mp hneg
        rw [units_of_negative hx hxneg, units_of_negative hy hyneg]
        rfl
      · exact le_magnitudeOfUnits Nat.one_pos hxle (by rw [Nat.mul_one]; exact Nat.le_add_right _ _)
      · exact le_magnitudeOfUnits Nat.one_pos hyle (by rw [Nat.mul_one]; exact Nat.le_add_left _ _)
    · rw [add_of_isInfinite rfl hyf]
      exact ⟨hx, Nat.le_refl _, hyle⟩
  · rw [add_infinity hx]
    exact ⟨hy, hxle, Nat.le_refl _⟩

/-- A product of positive numbers is not negative. -/
theorem zero_le_mul (hx : zero.lt x = true) (hy : zero.lt y = true) : zero.le (x.mul y) = true := by
  obtain ⟨hxnan, hxsign, hxpos⟩ := zero_lt_iff.mp hx
  obtain ⟨hynan, hysign, hypos⟩ := zero_lt_iff.mp hy
  have hxzero : x.isZero = false := decide_eq_false (Nat.ne_of_gt hxpos)
  have hyzero : y.isZero = false := decide_eq_false (Nat.ne_of_gt hypos)
  simp only [mul, hxnan, hynan, hxsign, hysign, hxzero, hyzero, bne_self_eq_false, Bool.or_self,
    Bool.false_eq_true, if_false]
  split
  · rfl
  · have hle : magnitudeOfUnits (x.units * y.units) unitsInOne ≤ infinityMagnitude := Nat.min_le_left _ _
    have hlt := Nat.lt_of_le_of_lt hle (by decide : infinityMagnitude < signBit)
    rw [zero_le_iff, ofUnits, isNegative_ofMagnitude hlt]
    exact ⟨isNaN_ofMagnitude hle, fun hneg => absurd hneg Bool.false_ne_true⟩

/-- The larger one of zero and a number that is not negative is that number. -/
theorem max_zero (hx : zero.le x = true) : x.max zero = x := by
  obtain ⟨hnan, -⟩ := zero_le_iff.mp hx
  have hlt : x.lt zero = false := by
    have hzero : zero.isNaN = false := rfl
    rwa [le_eq_not_lt hzero hnan, Bool.not_eq_true'] at hx
  have hzero : zero.isNaN = false := rfl
  rw [max, hnan, hzero, hlt]
  rfl

end Nonnegative

end Binary64

end IsolatedSolving
