import IsolatedSolving.Proofs.Number.Comparison
import Mathlib.Algebra.Order.Field.Basic
import Mathlib.Tactic.Ring

/-! Rounding that changes nothing.

A count of units is rounded to a magnitude if it lies less than half a place above it
(`magnitudeOfUnits_add`). So counts that some magnitude has are kept, which makes sums exact as soon
as their value is a number (`signedUnits_add`), and a number far above another one absorbs it.
The difference between a number and the nearest whole one is such an exact sum
(`exists_wholeDistance`): it has no more digits than the number itself. -/
namespace IsolatedSolving

theorem Number.nearestEven_mul_add {k r d : Nat} (h : 2 * r < d) :
    nearestEven (k * d + r) d = k := by
  have hdiv : (k * d + r) / d = k := by
    rw [Nat.mul_comm, Nat.mul_add_div (by omega), Nat.div_eq_of_lt (by omega), Nat.add_zero]
  have hmod : (k * d + r) % d = r := by
    rw [Nat.mul_comm, Nat.mul_add_mod, Nat.mod_eq_of_lt (by omega)]
  simp only [nearestEven, hdiv, hmod, if_pos h]

theorem Number.nearestAway_near (n : Nat) {d : Nat} (hd : 0 < d) :
    2 * n ≤ 2 * (nearestAway n d * d) + d ∧ 2 * (nearestAway n d * d) ≤ 2 * n + d := by
  have hdiv := Nat.div_add_mod' n d
  have hmod := Nat.mod_lt n hd
  rw [nearestAway]
  split
  · omega
  · rw [Nat.add_mul, Nat.one_mul]
    omega

theorem Number.nearestAway_mul_of_dvd {n d : Nat} (hd : 0 < d) (h : d ∣ n) :
    nearestAway n d * d = n := by
  rw [nearestAway, Nat.mod_eq_zero_of_dvd h, if_pos (by omega), Nat.div_mul_cancel h]

namespace Binary64

/-! ### Magnitudes of units -/

/-- The place of the last digit of a magnitude: the next one has two to this power more units. -/
def place (m : Nat) : Nat := m / binade - 1

/-- What lies less than half a place above the units of a magnitude is rounded to it. -/
theorem magnitudeOfUnits_add {m r : Nat} (hm : m < infinityMagnitude) (hr : 2 * r < 2 ^ place m) :
    magnitudeOfUnits (unitsOfMagnitude m + r) 1 = m := by
  have hdiv := Nat.div_add_mod m binade
  have hmod : m % binade < binade := Nat.mod_lt m (by decide)
  rw [binade_eq] at hdiv hmod
  rw [place, binade_eq] at hr
  simp only [magnitudeOfUnits, unitsOfMagnitude, Nat.shiftLeft_eq, Nat.one_mul, Nat.div_one,
    binade_eq]
  cases hfield : m / 4503599627370496 with
  | zero =>
    rw [hfield, Nat.zero_sub, Nat.pow_zero] at hr
    obtain rfl : r = 0 := by omega
    have hsmall : m % 4503599627370496 = m := by omega
    have hlog : m.log2 - 52 = 0 := by
      rcases Nat.eq_zero_or_pos m with rfl | hpos
      · rfl
      · have hlt : m.log2 < 52 := (Nat.log2_lt (by omega)).mpr (by omega)
        omega
    rw [if_pos rfl, Nat.add_zero, hsmall, hlog, Nat.zero_mul, Nat.zero_add, Nat.pow_zero,
      Number.nearestEven_one]
    exact Nat.min_eq_right (Nat.le_of_lt hm)
  | succ e =>
    rw [hfield, Nat.add_sub_cancel] at hr
    rw [if_neg (Nat.succ_ne_zero e), Nat.add_sub_cancel]
    -- The significand has 53 digits, so the last one is the place of its binade.
    have hpow : 0 < 2 ^ e := Nat.two_pow_pos e
    have hlow : 4503599627370496 * 2 ^ e ≤ (4503599627370496 + m % 4503599627370496) * 2 ^ e :=
      Nat.mul_le_mul_right _ (by omega)
    have hhigh : (4503599627370496 + m % 4503599627370496) * 2 ^ e + 2 ^ e ≤
        9007199254740992 * 2 ^ e := by
      rw [← Nat.succ_mul]
      exact Nat.mul_le_mul_right _ (by omega)
    have hlog : ((4503599627370496 + m % 4503599627370496) * 2 ^ e + r).log2 = 52 + e := by
      refine (Nat.log2_eq_iff (by omega)).mpr ⟨?_, ?_⟩
      · rw [Nat.pow_add]
        omega
      · rw [Nat.add_right_comm, Nat.pow_add]
        omega
    rw [hlog, Nat.add_sub_cancel_left, Number.nearestEven_mul_add hr]
    have hself : e * 4503599627370496 + (4503599627370496 + m % 4503599627370496) = m := by omega
    rw [hself]
    exact Nat.min_eq_right (Nat.le_of_lt hm)

theorem magnitudeOfUnits_unitsOfMagnitude {m : Nat} (hm : m < infinityMagnitude) :
    magnitudeOfUnits (unitsOfMagnitude m) 1 = m :=
  magnitudeOfUnits_add (r := 0) hm (Nat.two_pow_pos _)

/-- A count of units that some finite number has. -/
def Representable (n : Nat) : Prop := ∃ m < infinityMagnitude, unitsOfMagnitude m = n

/-- The units of a number have at most 53 digits in front of zeros. -/
theorem units_place (x : Binary64) :
    2 ^ place x.magnitude ∣ x.units ∧ x.units < 2 ^ (53 + place x.magnitude) := by
  have hmod : x.magnitude % binade < binade := Nat.mod_lt _ (by decide)
  rw [binade_eq] at hmod
  rw [units, unitsOfMagnitude, Nat.shiftLeft_eq, place, Nat.pow_add, binade_eq]
  split
  · next hfield =>
    rw [hfield]
    exact ⟨Nat.one_dvd _, by omega⟩
  · exact ⟨Nat.dvd_mul_left _ _, Nat.mul_lt_mul_of_pos_right (by omega) (Nat.two_pow_pos _)⟩

/-- With at most 53 digits in front of zeros, and below infinity, a count is one of a number. -/
theorem representable_of_dvd {n e : Nat} (hdvd : 2 ^ e ∣ n) (hlt : n < 2 ^ (53 + e))
    (hfinite : n < unitsOfMagnitude infinityMagnitude) : Representable n := by
  suffices h : ∃ m, unitsOfMagnitude m = n by
    obtain ⟨m, rfl⟩ := h
    exact ⟨m, strictMono_unitsOfMagnitude.lt_iff_lt.mp hfinite, rfl⟩
  simp only [unitsOfMagnitude, Nat.shiftLeft_eq, binade_eq]
  by_cases hsmall : n < 9007199254740992
  · -- Up to 53 digits, magnitudes and units are the same.
    refine ⟨n, ?_⟩
    by_cases hfield : n / 4503599627370496 = 0
    · rw [if_pos hfield]
      omega
    · have hone : n / 4503599627370496 = 1 := by omega
      rw [if_neg hfield, hone, Nat.sub_self, Nat.pow_zero]
      omega
  · have hlow := Nat.log2_self_le (n := n) (by omega)
    have hhigh := Nat.lt_log2_self (n := n)
    have hplaces : 53 ≤ n.log2 := (Nat.le_log2 (by omega)).mpr (by omega)
    obtain ⟨t, ht⟩ : ∃ t, n.log2 = 52 + t := ⟨n.log2 - 52, by omega⟩
    have hte : t ≤ e := by
      have hpow : 2 ^ (52 + t) < 2 ^ (53 + e) := Nat.lt_of_le_of_lt (ht ▸ hlow) hlt
      have := (Nat.pow_lt_pow_iff_right (by decide)).mp hpow
      omega
    obtain ⟨q, rfl⟩ := Nat.dvd_trans (Nat.pow_dvd_pow 2 hte) hdvd
    rw [ht, Nat.pow_add, Nat.mul_comm] at hlow
    rw [ht, Nat.add_right_comm, Nat.pow_add, Nat.mul_comm _ (2 ^ t)] at hhigh
    have hq : 4503599627370496 ≤ q := Nat.le_of_mul_le_mul_left hlow (Nat.two_pow_pos t)
    have hq' : q < 9007199254740992 := Nat.lt_of_mul_lt_mul_left hhigh
    refine ⟨(t + 1) * 4503599627370496 + (q - 4503599627370496), ?_⟩
    have hfield : ((t + 1) * 4503599627370496 + (q - 4503599627370496)) / 4503599627370496 = t + 1 := by
      omega
    have hfraction : ((t + 1) * 4503599627370496 + (q - 4503599627370496)) % 4503599627370496 =
        q - 4503599627370496 := by omega
    rw [hfield, hfraction, if_neg (Nat.succ_ne_zero t), Nat.add_sub_cancel, Nat.add_sub_cancel' hq,
      Nat.mul_comm]

/-! ### Exact sums -/

section Sums
variable {x y : Binary64} {n : Nat} {negative : Bool}

theorem representable_units (hx : x.isFinite = true) : Representable x.units :=
  ⟨x.magnitude, isFinite_iff.mp hx, rfl⟩

theorem Representable.ofUnits (h : Representable n) (negative : Bool) :
    (ofUnits negative n 1).isFinite = true ∧ (ofUnits negative n 1).isNegative = negative ∧
      (ofUnits negative n 1).units = n := by
  obtain ⟨m, hm, rfl⟩ := h
  have hsign : m < signBit := Nat.lt_trans hm (by decide)
  rw [Binary64.ofUnits, magnitudeOfUnits_unitsOfMagnitude hm]
  exact ⟨isFinite_of_magnitude_lt hm, isNegative_ofMagnitude hsign,
    congrArg unitsOfMagnitude (magnitude_ofMagnitude hsign)⟩

theorem isFinite_neg : x.neg.isFinite = x.isFinite := by
  rw [isFinite, isFinite, neg, magnitude_ofMagnitude x.magnitude_lt]

theorem signedUnits_neg : x.neg.signedUnits = -x.signedUnits := by
  rw [signedUnits, signedUnits, neg, units, magnitude_ofMagnitude x.magnitude_lt,
    isNegative_ofMagnitude x.magnitude_lt, ← units]
  cases x.isNegative <;> simp

theorem isFinite_abs : x.abs.isFinite = x.isFinite := by
  rw [isFinite, isFinite, abs, magnitude_ofMagnitude x.magnitude_lt]

theorem isNaN_abs : x.abs.isNaN = x.isNaN := by
  rw [isNaN, isNaN, abs, magnitude_ofMagnitude x.magnitude_lt]

theorem toRat_abs : x.abs.toRat = |x.toRat| := by
  have hunits : x.abs.signedUnits = |x.signedUnits| := by
    rw [signedUnits, signedUnits, abs, units, magnitude_ofMagnitude x.magnitude_lt,
      isNegative_ofMagnitude x.magnitude_lt, ← units]
    cases x.isNegative <;> simp
  rw [toRat, toRat, hunits, abs_div, abs_of_pos unitsInOne_pos, Int.cast_abs]

theorem add_of_finite (hx : x.isFinite = true) (hy : y.isFinite = true) :
    x.add y = if x.signedUnits + y.signedUnits = 0 then
      ofMagnitude (x.isNegative && y.isNegative) 0
    else Binary64.ofUnits (decide (x.signedUnits + y.signedUnits < 0))
      (x.signedUnits + y.signedUnits).natAbs 1 := by
  simp only [add, isNaN_of_isFinite hx, isNaN_of_isFinite hy, isInfinite_of_isFinite hx,
    isInfinite_of_isFinite hy, Bool.false_eq_true, if_false]

/-- The sum of two finite numbers is exact if its value is that of a number. -/
theorem signedUnits_add (hx : x.isFinite = true) (hy : y.isFinite = true)
    (h : Representable (x.signedUnits + y.signedUnits).natAbs) :
    (x.add y).isFinite = true ∧ (x.add y).signedUnits = x.signedUnits + y.signedUnits := by
  rw [add_of_finite hx hy]
  generalize x.signedUnits + y.signedUnits = total at h
  split
  · next hzero =>
    refine ⟨isFinite_of_magnitude_lt (by decide), ?_⟩
    rw [signedUnits, units, magnitude_ofMagnitude (by decide), hzero]
    split <;> rfl
  · obtain ⟨hfinite, hsign, hunits⟩ := h.ofUnits (decide (total < 0))
    refine ⟨hfinite, ?_⟩
    rw [signedUnits, hsign, hunits]
    by_cases hneg : total < 0
    · rw [decide_eq_true hneg, if_pos rfl]
      omega
    · rw [decide_eq_false hneg, if_neg Bool.false_ne_true]
      omega

theorem sub_of_isFinite (hy : y.isFinite = true) : x.sub y = x.add y.neg := by
  rw [sub, isNaN_of_isFinite hy, Bool.false_and, if_neg Bool.false_ne_true]

theorem signedUnits_sub (hx : x.isFinite = true) (hy : y.isFinite = true)
    (h : Representable (x.signedUnits - y.signedUnits).natAbs) :
    (x.sub y).isFinite = true ∧ (x.sub y).signedUnits = x.signedUnits - y.signedUnits := by
  rw [Int.sub_eq_add_neg, ← signedUnits_neg] at h
  rw [sub_of_isFinite hy, Int.sub_eq_add_neg, ← signedUnits_neg]
  exact signedUnits_add hx (isFinite_neg.trans hy) h

/-- A number absorbs one of the same sign whose digits all stand behind its own. -/
theorem add_eq_left (hx : x.isFinite = true) (hy : y.isFinite = true)
    (hsign : x.isNegative = y.isNegative) (hsmall : 54 + place y.magnitude ≤ place x.magnitude) :
    x.add y = x := by
  have hyunits : 2 * y.units < 2 ^ place x.magnitude :=
    calc
      2 * y.units < 2 * 2 ^ (53 + place y.magnitude) :=
        Nat.mul_lt_mul_of_pos_left (units_place y).2 (by decide)
      _ = 2 ^ (54 + place y.magnitude) := by rw [← Nat.pow_add_one', Nat.add_right_comm]
      _ ≤ 2 ^ place x.magnitude := Nat.pow_le_pow_right (by decide) hsmall
  have hxunits : 0 < x.units := by
    refine Nat.pos_of_ne_zero fun hzero => ?_
    have hmagnitude : x.magnitude = 0 :=
      strictMono_unitsOfMagnitude.injective (hzero.trans unitsOfMagnitude_zero.symm)
    rw [hmagnitude] at hsmall
    exact absurd hsmall (Nat.not_le_of_gt (Nat.lt_of_lt_of_le (by decide) (Nat.le_add_right 54 _)))
  have hrounded : magnitudeOfUnits (x.units + y.units) 1 = x.magnitude :=
    magnitudeOfUnits_add (isFinite_iff.mp hx) hyunits
  have htotal : x.signedUnits + y.signedUnits =
      if x.isNegative then -((x.units + y.units : Nat) : Int) else (x.units + y.units : Nat) := by
    rw [signedUnits, signedUnits, ← hsign]
    split <;> omega
  have hnatAbs : (x.signedUnits + y.signedUnits).natAbs = x.units + y.units := by
    rw [htotal]
    split <;> omega
  have hnegative : decide (x.signedUnits + y.signedUnits < 0) = x.isNegative := by
    rw [htotal]
    cases x.isNegative <;> simp only [if_true, Bool.false_eq_true, if_false] <;>
      simp only [decide_eq_true_eq, decide_eq_false_iff_not] <;> omega
  rw [add_of_finite hx hy, if_neg (by omega), hnatAbs, hnegative, Binary64.ofUnits, hrounded]
  exact ofMagnitude_magnitude x

end Sums

/-! ### Sums that are no number -/

section NoNumber
variable {x y : Binary64}

theorem isNaN_quiet (h : x.isNaN = true) : x.quiet.isNaN = true := by
  rw [isNaN, decide_eq_true_eq] at h ⊢
  refine Nat.lt_of_lt_of_le h ?_
  -- Setting a bit makes no magnitude smaller.
  have hmod (n : Nat) : n % signBit = n % 2 ^ 63 := rfl
  rw [magnitude, magnitude, quiet, UInt64.toNat_or, hmod, hmod, Nat.or_mod_two_pow]
  exact Nat.left_le_or

theorem isNaN_ofMagnitude {negative : Bool} {m : Nat} (h : m ≤ infinityMagnitude) :
    (ofMagnitude negative m).isNaN = false := by
  rw [isNaN, magnitude_ofMagnitude (Nat.lt_of_le_of_lt h (by decide))]
  exact decide_eq_false (Nat.not_lt_of_ge h)

theorem isNaN_ofUnits (negative : Bool) (n d : Nat) : (ofUnits negative n d).isNaN = false :=
  isNaN_ofMagnitude (Nat.min_le_left _ _)

theorem isNaN_of_isInfinite (h : x.isInfinite = true) : x.isNaN = false := by
  rw [isInfinite, decide_eq_true_eq] at h
  exact decide_eq_false (Nat.not_lt_of_le (Nat.le_of_eq h))

/-- An infinity absorbs finite numbers. -/
theorem add_of_isInfinite (hx : x.isInfinite = true) (hy : y.isFinite = true) : x.add y = x := by
  simp only [add, isNaN_of_isInfinite hx, isNaN_of_isFinite hy, hx, isInfinite_of_isFinite hy,
    Bool.false_and, Bool.false_eq_true, if_true, if_false]

/-- On the other side as well. -/
theorem add_of_isInfinite_right (hx : x.isFinite = true) (hy : y.isInfinite = true) : x.add y = y := by
  simp only [add, isNaN_of_isFinite hx, isNaN_of_isInfinite hy, isInfinite_of_isFinite hx, hy,
    Bool.false_eq_true, if_false, if_true]

/-- A sum with a finite number is a NaN only if the other operand is one. -/
theorem isNaN_add (hy : y.isFinite = true) : (x.add y).isNaN = x.isNaN := by
  cases hx : x.isNaN with
  | true =>
    rw [add, if_pos hx]
    exact isNaN_quiet hx
  | false =>
    rcases finite_or_infinite hx with hfinite | rfl | rfl
    · rw [add_of_finite hfinite hy]
      split
      · exact isNaN_ofMagnitude (Nat.zero_le _)
      · exact isNaN_ofUnits _ _ _
    · rw [add_of_isInfinite rfl hy, hx]
    · rw [add_of_isInfinite rfl hy, hx]

theorem isNaN_sub (hy : y.isFinite = true) : (x.sub y).isNaN = x.isNaN := by
  rw [sub_of_isFinite hy, isNaN_add (isFinite_neg.trans hy)]

end NoNumber

/-! ### Distance from whole numbers -/

section Whole
variable {x : Binary64}

theorem zero_lt_unitsInOne : 0 < unitsInOne := by
  rw [unitsInOne_eq]
  exact Nat.two_pow_pos unitPlaces

/-- Whole numbers up to `2 ^ 52` are far from infinity. -/
theorem lt_infinity_of_le {n : Nat} (h : n ≤ 2 ^ (52 + unitPlaces)) :
    n < unitsOfMagnitude infinityMagnitude := by
  have hfield : infinityMagnitude / binade = 2047 := rfl
  have hfraction : infinityMagnitude % binade = 0 := rfl
  have hplaces : 2047 - 1 = unitPlaces + 972 := by rw [unitPlaces_eq]
  have hbinade : binade = 2 ^ 52 := rfl
  rw [unitsOfMagnitude, hfield, hfraction, if_neg (by decide), hplaces, Nat.shiftLeft_eq, Nat.add_zero,
    hbinade, ← Nat.pow_add]
  exact Nat.lt_of_le_of_lt h (Nat.pow_lt_pow_right (by decide) (by omega))

/-- The units of the whole number nearest to a number, and their distance from its own units, are
those of numbers. -/
theorem representable_whole (hx : x.isFinite = true) {whole : Nat}
    (hwhole : Number.nearestAway x.units unitsInOne * unitsInOne = whole) :
    Representable whole ∧ Representable ((x.units : Int) - whole).natAbs := by
  obtain ⟨hbelow, habove⟩ := Number.nearestAway_near x.units zero_lt_unitsInOne
  obtain ⟨hdvd, hlt⟩ := units_place x
  generalize place x.magnitude = e at hdvd hlt
  have hfinite : x.units < unitsOfMagnitude infinityMagnitude :=
    strictMono_unitsOfMagnitude (isFinite_iff.mp hx)
  have hunits : unitsInOne ∣ whole := Dvd.intro_left _ hwhole
  rw [hwhole] at hbelow habove
  rcases Nat.lt_or_ge e unitPlaces |>.symm with hlarge | hsmall
  · -- The number is a whole one.
    have hone : unitsInOne ∣ 2 ^ e := by
      rw [unitsInOne_eq]
      exact Nat.pow_dvd_pow 2 hlarge
    have hself : whole = x.units :=
      hwhole.symm.trans (Number.nearestAway_mul_of_dvd zero_lt_unitsInOne (Nat.dvd_trans hone hdvd))
    rw [hself, Int.sub_self]
    exact ⟨representable_units hx, 0, by decide, rfl⟩
  · -- The number has its digits in front of the place `2 ^ e`, behind which whole ones have none.
    have hone : 2 ^ e ∣ unitsInOne := by
      rw [unitsInOne_eq]
      exact Nat.pow_dvd_pow 2 (Nat.le_of_lt hsmall)
    have hbound : x.units < 2 ^ (52 + unitPlaces) :=
      Nat.lt_of_lt_of_le hlt (Nat.pow_le_pow_right (by decide) (by omega))
    have hwholeBound : whole ≤ 2 ^ (52 + unitPlaces) := by
      obtain ⟨k, rfl⟩ := hunits
      rw [Nat.mul_comm unitsInOne] at habove ⊢
      rw [Nat.pow_add, ← unitsInOne_eq] at hbound ⊢
      have hlt : k * unitsInOne < (2 ^ 52 + 1) * unitsInOne := by
        rw [Nat.add_mul, Nat.one_mul]
        omega
      exact Nat.mul_le_mul_right _ (Nat.le_of_lt_succ (Nat.lt_of_mul_lt_mul_right hlt))
    have hle : ((x.units : Int) - whole).natAbs ≤ x.units := by
      rcases Nat.eq_zero_or_pos whole with hzero | hsome
      · omega
      · have := Nat.le_of_dvd hsome hunits
        omega
    have hdistance : 2 ^ e ∣ ((x.units : Int) - whole).natAbs :=
      Int.natAbs_dvd_natAbs.mpr (Int.dvd_sub (Int.natCast_dvd_natCast.mpr hdvd)
        (Int.natCast_dvd_natCast.mpr (Nat.dvd_trans hone hunits)))
    refine ⟨representable_of_dvd (e := unitPlaces) ?_ ?_ (lt_infinity_of_le hwholeBound),
      representable_of_dvd hdistance (Nat.lt_of_le_of_lt hle hlt) (Nat.lt_of_le_of_lt hle hfinite)⟩
    · rw [← unitsInOne_eq]
      exact hunits
    · exact Nat.lt_of_le_of_lt hwholeBound (Nat.pow_lt_pow_right (by decide) (by omega))

/-- A finite number and the nearest whole one differ by an exact number, at most a half. -/
theorem exists_wholeDistance (hx : x.isFinite = true) :
    ∃ k : Int, (x.sub x.round).isFinite = true ∧ (x.sub x.round).toRat = x.toRat - k ∧
      |x.toRat - k| ≤ 1 / 2 := by
  obtain ⟨hbelow, habove⟩ := Number.nearestAway_near x.units zero_lt_unitsInOne
  generalize hwhole : Number.nearestAway x.units unitsInOne * unitsInOne = whole at hbelow habove
  obtain ⟨hrepresentable, hdistance⟩ := representable_whole hx hwhole
  obtain ⟨hfinite, hsign, hunits⟩ := hrepresentable.ofUnits x.isNegative
  have hround : x.round = ofUnits x.isNegative whole 1 := by
    rw [round, isNaN_of_isFinite hx, isInfinite_of_isFinite hx, if_neg Bool.false_ne_true,
      if_neg Bool.false_ne_true, hwhole]
  rw [← hround] at hfinite hsign hunits
  have hrounded : x.round.signedUnits = if x.isNegative then -(whole : Int) else whole := by
    rw [signedUnits, hsign, hunits]
  -- Rounding does not look at the sign, so neither does the distance.
  have hsame : (x.signedUnits - x.round.signedUnits).natAbs = ((x.units : Int) - whole).natAbs := by
    rw [hrounded, signedUnits]
    split <;> omega
  obtain ⟨k, hk⟩ : ∃ k : Int, x.round.signedUnits = k * unitsInOne := by
    rw [hrounded, ← hwhole, Int.natCast_mul]
    split
    · exact ⟨_, (Int.neg_mul _ _).symm⟩
    · exact ⟨_, rfl⟩
  obtain ⟨hsub, hvalue⟩ := signedUnits_sub hx hfinite (hsame ▸ hdistance)
  have hrat : x.toRat - k = ((x.signedUnits - x.round.signedUnits : Int) : Rat) / unitsInOne := by
    rw [toRat, hk, Int.cast_sub, Int.cast_mul, sub_div, Int.cast_natCast,
      mul_div_cancel_right₀ _ unitsInOne_pos.ne']
  refine ⟨k, hsub, by rw [hrat, toRat, hvalue], ?_⟩
  have hhalf : 2 * |x.signedUnits - x.round.signedUnits| ≤ unitsInOne := by
    rw [Int.abs_eq_natAbs, hsame]
    omega
  rw [hrat, abs_div, abs_of_pos unitsInOne_pos, div_le_iff₀ unitsInOne_pos, ← Int.cast_abs]
  have hcast : (2 : Rat) * (|x.signedUnits - x.round.signedUnits| : Int) ≤ unitsInOne := by
    exact_mod_cast hhalf
  linarith

end Whole

end Binary64

end IsolatedSolving
