import IsolatedSolving.Number.Decimal
import IsolatedSolving.Proofs.Number.Nearest
import Mathlib.Tactic.NormNum

/-! The fewest digits that read back.

The decimals that are read as one number are those between the midpoints around it
(`Binary64.ofDecimal_of_contains`). A grid whose step is shorter than the way from one midpoint to the
other has a point there, and seventeen digits are enough for such a step (`onGrid_ne_none`). So the
search for the shortest decimal always ends at one that reads back (`shortest_contains`). -/
namespace IsolatedSolving

namespace Decimal

/-- The value of a decimal. -/
def toRat (d : Decimal) : Rat := d.digits * 10 ^ d.exponent

theorem zero_lt_halvesInOne : (0 : Rat) < halvesInOne := by
  have hunits := Binary64.unitsInOne_pos
  rw [halvesInOne, Nat.cast_mul]
  exact mul_pos two_pos hunits

/-- A power of ten as a quotient of whole numbers, of which one is one. -/
theorem power_eq (e : Int) : (10 : Rat) ^ e = 10 ^ e.toNat / 10 ^ (-e).toNat := by
  rcases Int.le_total 0 e with h | h
  · obtain ⟨n, rfl⟩ := Int.eq_ofNat_of_zero_le h
    simp
  · obtain ⟨n, hn⟩ := Int.eq_ofNat_of_zero_le (Int.neg_nonneg_of_nonpos h)
    obtain rfl : e = -(n : Int) := by omega
    simp

/-! ### The values that round to one number -/

namespace Interval

/-- Whether a value, in halves of a unit, belongs to the interval. -/
structure Contains (i : Interval) (x : Rat) : Prop where
  low : i.low ≤ x
  high : x ≤ i.high
  inside : i.closed = true ∨ i.low < x ∧ x < i.high

theorem holds_iff {i : Interval} {scale step k : Nat} (hscale : 0 < scale) :
    i.holds scale step k = true ↔ i.Contains ((k * step : Nat) / scale) := by
  have hpos : (0 : Rat) < scale := Nat.cast_pos.mpr hscale
  have hlow : (i.low : Rat) ≤ (k * step : Nat) / scale ↔ i.low * scale ≤ k * step := by
    rw [le_div_iff₀ hpos]
    exact_mod_cast Iff.rfl
  have hhigh : ((k * step : Nat) : Rat) / scale ≤ i.high ↔ k * step ≤ i.high * scale := by
    rw [div_le_iff₀ hpos]
    exact_mod_cast Iff.rfl
  have hlow' : (i.low : Rat) < (k * step : Nat) / scale ↔ i.low * scale < k * step := by
    rw [lt_div_iff₀ hpos]
    exact_mod_cast Iff.rfl
  have hhigh' : ((k * step : Nat) : Rat) / scale < i.high ↔ k * step < i.high * scale := by
    rw [div_lt_iff₀ hpos]
    exact_mod_cast Iff.rfl
  have hcontains : i.Contains ((k * step : Nat) / scale) ↔ i.low * scale ≤ k * step ∧
      k * step ≤ i.high * scale ∧
        (i.closed = true ∨ i.low * scale < k * step ∧ k * step < i.high * scale) := by
    rw [← hlow, ← hhigh, ← hlow', ← hhigh']
    exact ⟨fun h => ⟨h.low, h.high, h.inside⟩, fun h => ⟨h.1, h.2.1, h.2.2⟩⟩
  rw [hcontains, holds]
  cases i.closed with
  | true => simp
  | false =>
    simp only [Bool.false_eq_true, if_false, Bool.and_eq_true, decide_eq_true_iff, false_or]
    omega

/-! ### Points of a grid -/

/-- A point of a grid, in halves of a unit. -/
theorem point_eq (k : Nat) (e : Int) :
    ((k * (Nat.pow 10 e.toNat * halvesInOne) : Nat) : Rat) / (Nat.pow 10 (-e).toNat : Nat) =
      toRat ⟨k, e⟩ * halvesInOne := by
  rw [toRat, power_eq]
  push_cast [Nat.pow_eq]
  ring

theorem holds_point {i : Interval} {k : Nat} {e : Int} :
    i.holds (Nat.pow 10 (-e).toNat) (Nat.pow 10 e.toNat * halvesInOne) k = true ↔
      i.Contains (toRat ⟨k, e⟩ * halvesInOne) := by
  have hscale : 0 < Nat.pow 10 (-e).toNat := Nat.pow_pos (by decide)
  rw [← point_eq]
  exact holds_iff hscale

/-- The point that stands for an interval belongs to it. -/
theorem contains_of_onGrid {i : Interval} {e : Int} {d : Decimal} (h : i.onGrid e = some d) :
    d.exponent = e ∧ i.Contains (d.toRat * halvesInOne) := by
  simp only [onGrid] at h
  split at h
  · next hbelow habove =>
    cases h
    split
    · exact ⟨rfl, holds_point.mp hbelow⟩
    · exact ⟨rfl, holds_point.mp habove⟩
  · next hbelow _ =>
    cases h
    exact ⟨rfl, holds_point.mp hbelow⟩
  · next _ habove =>
    cases h
    exact ⟨rfl, holds_point.mp habove⟩
  · cases h

/-- Without a point on a grid, the two points around the value are outside. -/
theorem of_onGrid_eq_none {i : Interval} {e : Int} (h : i.onGrid e = none) :
    ∃ x : Rat, x ≤ i.value ∧ i.value < x + 10 ^ e * halvesInOne ∧ ¬i.Contains x ∧
      ¬i.Contains (x + 10 ^ e * halvesInOne) := by
  simp only [onGrid] at h
  have hscale : 0 < Nat.pow 10 (-e).toNat := Nat.pow_pos (by decide)
  have hstep : 0 < Nat.pow 10 e.toNat * halvesInOne :=
    Nat.mul_pos (Nat.pow_pos (by decide)) (Nat.cast_pos.mp zero_lt_halvesInOne)
  have hpos : (0 : Rat) < (Nat.pow 10 (-e).toNat : Nat) := Nat.cast_pos.mpr hscale
  have hbelow := Nat.div_mul_le_self (i.value * Nat.pow 10 (-e).toNat)
    (Nat.pow 10 e.toNat * halvesInOne)
  have habove := Nat.lt_mul_div_succ (i.value * Nat.pow 10 (-e).toNat) hstep
  rw [Nat.mul_comm (Nat.pow 10 e.toNat * halvesInOne)] at habove
  generalize i.value * Nat.pow 10 (-e).toNat / (Nat.pow 10 e.toNat * halvesInOne) = k at *
  have hnext : toRat ⟨k + 1, e⟩ * halvesInOne =
      toRat ⟨k, e⟩ * halvesInOne + 10 ^ e * halvesInOne := by
    simp only [toRat]
    push_cast
    ring
  split at h
  · cases h
  · cases h
  · cases h
  next hout hout' =>
  refine ⟨toRat ⟨k, e⟩ * halvesInOne, ?_, ?_, ?_, ?_⟩
  · rw [← point_eq, div_le_iff₀ hpos]
    exact_mod_cast hbelow
  · rw [← hnext, ← point_eq, lt_div_iff₀ hpos]
    exact_mod_cast habove
  · rw [← holds_point, hout]
    exact Bool.false_ne_true
  · rw [← hnext, ← holds_point, hout']
    exact Bool.false_ne_true

end Interval

/-! ### Seventeen digits are enough -/

/-- A number of so many digits is at least the power of ten before them. -/
theorem pow_length_le {n : Nat} (hn : 0 < n) : 10 ^ ((Nat.toDigits 10 n).length - 1) ≤ n := by
  by_contra hlt
  rcases Nat.eq_zero_or_pos ((Nat.toDigits 10 n).length - 1) with hzero | hpos
  · rw [hzero] at hlt
    omega
  · have hshort := (Nat.length_toDigits_le_iff (by decide) hpos).mpr (Nat.lt_of_not_le hlt)
    omega

theorem halvesInOne_le : halvesInOne ≤ Nat.pow 10 400 := by
  have hplaces : Binary64.unitPlaces.succ = 43 * 25 := by rw [Binary64.unitPlaces_eq]
  have hhalves : halvesInOne = (2 ^ 43) ^ 25 := by
    rw [halvesInOne, Binary64.unitsInOne_eq, ← pow_succ', ← pow_mul]
    exact congrArg (2 ^ ·) hplaces
  have hdigits : 400 = 16 * 25 := rfl
  rw [hhalves, hdigits]
  simp only [Nat.pow_eq, pow_mul]
  exact Nat.pow_le_pow_left (by decide) 25

/-- The leading digit of a positive count of halves stands at its place. -/
theorem leadingPlace_le {n : Nat} (hn : 0 < n) : (10 : Rat) ^ leadingPlace n * halvesInOne ≤ n := by
  have hhalves : 0 < halvesInOne := Nat.cast_pos.mp zero_lt_halvesInOne
  have hscaled : 0 < n * Nat.pow 10 400 / halvesInOne :=
    Nat.div_pos (Nat.le_trans halvesInOne_le (Nat.le_mul_of_pos_left _ hn)) hhalves
  have hlength := pow_length_le hscaled
  have hsome := Nat.length_toDigits_pos (b := 10) (n := n * Nat.pow 10 400 / halvesInOne)
  rw [leadingPlace, figures]
  generalize (Nat.toDigits 10 (n * Nat.pow 10 400 / halvesInOne)).length = length at *
  obtain ⟨k, rfl⟩ := Nat.exists_eq_succ_of_ne_zero (Nat.ne_of_gt hsome)
  rw [Nat.succ_sub_one, Nat.le_div_iff_mul_le hhalves] at hlength
  have hplace : ((k.succ : Nat) : Int) - 401 = (k : Int) - (400 : Nat) := by
    push_cast
    ring
  have hcast : ((10 ^ k * halvesInOne : Nat) : Rat) ≤ (n * Nat.pow 10 400 : Nat) :=
    Nat.cast_le.mpr hlength
  simp only [Nat.pow_eq, Nat.cast_mul, Nat.cast_pow, Nat.cast_ofNat] at hcast
  have hten : (0 : Rat) < 10 := by norm_num
  rw [hplace, zpow_sub₀ hten.ne', zpow_natCast, zpow_natCast, div_mul_eq_mul_div,
    div_le_iff₀ (pow_pos hten 400)]
  exact hcast

end Decimal

namespace Binary64

/-- The distance to the next magnitude. It is also the one to the magnitude before, or twice that at a
power of two. -/
theorem exists_distance {m : Nat} (hm : 0 < m) :
    ∃ g, unitsOfMagnitude (m + 1) = unitsOfMagnitude m + g ∧
      (unitsOfMagnitude m = unitsOfMagnitude (m - 1) + g ∧ unitsOfMagnitude m < 2 ^ 53 * g ∨
        2 * unitsOfMagnitude m = 2 * unitsOfMagnitude (m - 1) + g ∧
          unitsOfMagnitude m = 2 ^ 52 * g) := by
  obtain ⟨s, q, rfl, hq, hs⟩ : ∃ s q, m = s * binade + q ∧ q < 2 ^ 53 ∧ (s = 0 ∨ 2 ^ 52 ≤ q) := by
    rw [binade_eq]
    rcases Nat.lt_or_ge m 4503599627370496 with hsmall | hlarge
    · exact ⟨0, m, by omega, by omega, .inl rfl⟩
    · exact ⟨m / 4503599627370496 - 1, m % 4503599627370496 + 4503599627370496, by omega, by omega,
        .inr (by omega)⟩
  have hhere := unitsOfMagnitude_add (Nat.le_of_lt hq) hs
  have hnext : unitsOfMagnitude (s * binade + q + 1) = (q + 1) * 2 ^ s := by
    rw [Nat.add_assoc]
    exact unitsOfMagnitude_add hq (hs.imp_right (Nat.le_trans · (Nat.le_add_right q 1)))
  refine ⟨2 ^ s, by rw [hnext, hhere, Nat.succ_mul], ?_⟩
  by_cases hinside : s = 0 ∨ 2 ^ 52 < q
  · have hpos : 0 < q := by
      rcases hinside with rfl | hlarge
      · rwa [Nat.zero_mul, Nat.zero_add] at hm
      · exact Nat.zero_lt_of_lt hlarge
    obtain ⟨p, rfl⟩ := Nat.exists_eq_succ_of_ne_zero (Nat.ne_of_gt hpos)
    have hbefore : unitsOfMagnitude (s * binade + (p + 1) - 1) = p * 2 ^ s := by
      rw [← Nat.add_assoc, Nat.add_sub_cancel]
      exact unitsOfMagnitude_add (Nat.le_of_succ_le (Nat.le_of_lt hq)) (hinside.imp_right Nat.le_of_lt_succ)
    refine .inl ⟨by rw [hhere, hbefore, Nat.succ_mul], ?_⟩
    rw [hhere]
    exact Nat.mul_lt_mul_of_pos_right hq (Nat.two_pow_pos s)
  · obtain ⟨t, rfl⟩ : ∃ t, s = t + 1 := ⟨s - 1, by omega⟩
    obtain rfl : q = 2 ^ 52 := by omega
    have hplace : (t + 1) * binade + 2 ^ 52 - 1 = t * binade + (2 ^ 53 - 1) := by
      rw [binade_eq]
      omega
    have hbefore : unitsOfMagnitude ((t + 1) * binade + 2 ^ 52 - 1) = (2 ^ 53 - 1) * 2 ^ t := by
      rw [hplace]
      exact unitsOfMagnitude_add (Nat.sub_le ..) (.inr (by decide))
    refine .inr ⟨?_, hhere⟩
    rw [hhere, hbefore, Nat.pow_succ]
    omega

end Binary64

namespace Decimal

theorem Interval.Contains.of_lt {i : Interval} {x : Rat} (hlow : i.low < x) (hhigh : x < i.high) :
    i.Contains x := ⟨hlow.le, hhigh.le, .inr ⟨hlow, hhigh⟩⟩

/-- The grid of seventeen digits has a point that stands for any magnitude. -/
theorem onGrid_ne_none {m : Nat} (hm : 0 < m) :
    (interval m).onGrid (leadingPlace (interval m).value - (16 : Nat)) ≠ none := by
  intro hnone
  obtain ⟨x, hbelow, habove, hout, hout'⟩ := Interval.of_onGrid_eq_none hnone
  obtain ⟨g, hnext, hbefore⟩ := Binary64.exists_distance hm
  have hpositive := Binary64.strictMono_unitsOfMagnitude hm
  rw [Binary64.unitsOfMagnitude_zero] at hpositive
  have hplace := leadingPlace_le (n := (interval m).value) (Nat.mul_pos two_pos hpositive)
  have hten : (0 : Rat) < 10 := by norm_num
  rw [zpow_sub₀ hten.ne', zpow_natCast, div_mul_eq_mul_div] at habove hout'
  generalize (10 : Rat) ^ leadingPlace (interval m).value * halvesInOne = leading at *
  have hvalue : ((interval m).value : Rat) = 2 * (Binary64.unitsOfMagnitude m : Nat) := by
    rw [interval, Nat.cast_mul, Nat.cast_ofNat]
  have hhigh : ((interval m).high : Rat) = 2 * (Binary64.unitsOfMagnitude m : Nat) + g := by
    rw [interval, hnext, Nat.cast_add, Nat.cast_add]
    ring
  have hlow : ((interval m).low : Rat) =
      (Binary64.unitsOfMagnitude (m - 1) : Nat) + (Binary64.unitsOfMagnitude m : Nat) := by
    rw [interval, Nat.cast_add]
  rw [hvalue] at hbelow habove hplace
  rcases hbefore with ⟨hgap, hsmall⟩ | ⟨hgap, hpower⟩
  · -- Both midpoints are equally far, and the step is shorter than twice the way to one of them.
    have hgap' : ((Binary64.unitsOfMagnitude m : Nat) : Rat) =
        (Binary64.unitsOfMagnitude (m - 1) : Nat) + g := by exact_mod_cast hgap
    have hsmall' : ((Binary64.unitsOfMagnitude m : Nat) : Rat) < 2 ^ 53 * g := by
      exact_mod_cast hsmall
    rcases lt_or_ge ((interval m).low : Rat) x with hinside | hfar
    · refine hout (.of_lt hinside ?_)
      linarith
    · refine hout' (.of_lt ?_ ?_)
      · linarith
      · linarith
  · -- The midpoint below is nearer, and the step is shorter than the way to the one above.
    have hgap' : 2 * ((Binary64.unitsOfMagnitude m : Nat) : Rat) =
        2 * (Binary64.unitsOfMagnitude (m - 1) : Nat) + g := by exact_mod_cast hgap
    have hpower' : ((Binary64.unitsOfMagnitude m : Nat) : Rat) = 2 ^ 52 * g := by
      exact_mod_cast hpower
    refine hout' (.of_lt ?_ ?_)
    · linarith
    · linarith

/-- Zero stands for no other magnitude. -/
theorem digits_ne_zero {m : Nat} (hm : 0 < m) {d : Decimal}
    (h : (interval m).Contains (d.toRat * halvesInOne)) : d.digits ≠ 0 := by
  intro hzero
  have hpositive := Binary64.strictMono_unitsOfMagnitude hm
  rw [Binary64.unitsOfMagnitude_zero] at hpositive
  have hlow := h.low
  rw [toRat, hzero, Nat.cast_zero, zero_mul, zero_mul, interval] at hlow
  have hsum : Binary64.unitsOfMagnitude (m - 1) + Binary64.unitsOfMagnitude m ≤ 0 := by
    exact_mod_cast hlow
  omega

/-! ### The shortest decimal -/

/-- Dropping zeros at the end changes no value. -/
theorem toRat_trim (fuel : Nat) (d : Decimal) :
    (trim fuel d).toRat = d.toRat ∧ d.exponent ≤ (trim fuel d).exponent := by
  induction fuel generalizing d with
  | zero => exact ⟨rfl, le_rfl⟩
  | succ fuel ih =>
    rw [trim]
    split
    · next hzero =>
      obtain ⟨hvalue, hexponent⟩ := ih ⟨d.digits / 10, d.exponent + 1⟩
      have hten : (10 : Rat) ≠ 0 := by norm_num
      have hdigits : ((d.digits : Nat) : Rat) = (d.digits / 10 : Nat) * 10 := by
        exact_mod_cast (Nat.div_mul_cancel (Nat.dvd_of_mod_eq_zero hzero)).symm
      refine ⟨?_, Int.le_trans (Int.le_add_of_nonneg_right (by decide)) hexponent⟩
      rw [hvalue, toRat, toRat, hdigits, zpow_add_one₀ hten]
      ring
    · exact ⟨rfl, le_rfl⟩

/-- **The shortest decimal stands for its number.** -/
theorem shortest_contains {m : Nat} (hm : 0 < m) :
    (interval m).Contains ((shortest m).toRat * halvesInOne) ∧ -416 ≤ (shortest m).exponent := by
  rw [shortest, if_neg (Nat.ne_of_gt hm)]
  dsimp only
  cases hfound : (List.range 17).findSome? fun more =>
      (interval m).onGrid (leadingPlace (interval m).value - (more : Nat)) with
  | none =>
    rw [List.findSome?_eq_none_iff] at hfound
    exact absurd (hfound 16 (by decide)) (onGrid_ne_none hm)
  | some d =>
    obtain ⟨more, hmore, hgrid⟩ := List.exists_of_findSome?_eq_some hfound
    obtain ⟨hexponent, hcontains⟩ := Interval.contains_of_onGrid hgrid
    obtain ⟨hvalue, hgrown⟩ := toRat_trim 17 d
    have hplace : -400 ≤ leadingPlace (interval m).value := by
      have hlength := Nat.length_toDigits_pos (b := 10)
        (n := (interval m).value * Nat.pow 10 400 / halvesInOne)
      rw [leadingPlace, figures]
      omega
    rw [Option.getD_some, hvalue]
    rw [List.mem_range] at hmore
    exact ⟨hcontains, by omega⟩

/-- The places of the shortest decimal. A zero has none. -/
theorem exponent_shortest (m : Nat) :
    -416 ≤ (shortest m).exponent ∧ ((shortest m).digits = 0 → (shortest m).exponent ≤ 0) := by
  rcases Nat.eq_zero_or_pos m with rfl | hm
  · rw [shortest, if_pos rfl]
    exact ⟨by decide, fun _ => le_rfl⟩
  · obtain ⟨hcontains, hexponent⟩ := shortest_contains hm
    exact ⟨hexponent, fun hzero => absurd hzero (digits_ne_zero hm hcontains)⟩

end Decimal

namespace Binary64

/-- What is between the midpoints around a magnitude. -/
theorem between_of_contains {n d m : Nat} (hd : 0 < d)
    (h : (Decimal.interval m).Contains (2 * n / d)) : Between n d m := by
  have hpos : (0 : Rat) < d := Nat.cast_pos.mpr hd
  obtain ⟨hlow, hhigh, hinside⟩ := h
  rw [le_div_iff₀ hpos] at hlow
  rw [div_le_iff₀ hpos] at hhigh
  rw [lt_div_iff₀ hpos, div_lt_iff₀ hpos] at hinside
  refine ⟨by exact_mod_cast hlow, by exact_mod_cast hhigh, ?_⟩
  exact hinside.imp beq_iff_eq.mp fun h => ⟨by exact_mod_cast h.1, by exact_mod_cast h.2⟩

/-- A decimal between the midpoints around a number is read as that number. -/
theorem ofDecimal_of_contains {m : Nat} (hm : 0 < m) (hfinite : m < infinityMagnitude) {d : Decimal}
    (h : (Decimal.interval m).Contains (d.toRat * Decimal.halvesInOne)) (hlow : -2000 ≤ d.exponent)
    (hhigh : d.exponent ≤ 400) (negative : Bool) :
    ofDecimal negative d.digits d.exponent = ofMagnitude negative m := by
  have hdigits := Decimal.digits_ne_zero hm h
  rw [ofDecimal, if_neg hdigits, if_neg (by omega), if_neg (by omega)]
  split
  · next hwhole =>
    refine congrArg (ofMagnitude negative) (Between.magnitudeOfUnits_eq ?_ one_pos hm hfinite)
    refine between_of_contains one_pos ?_
    have hscale : (-d.exponent).toNat = 0 := by omega
    rw [Decimal.toRat, Decimal.power_eq, hscale, Decimal.halvesInOne] at h
    convert h using 1
    push_cast [Nat.pow_eq]
    ring
  · next hplaces =>
    have hscale : 0 < Nat.pow 10 (-d.exponent).toNat := Nat.pow_pos (by decide)
    refine congrArg (ofMagnitude negative) (Between.magnitudeOfUnits_eq ?_ hscale hm hfinite)
    refine between_of_contains hscale ?_
    have hone : d.exponent.toNat = 0 := by omega
    rw [Decimal.toRat, Decimal.power_eq, hone, Decimal.halvesInOne] at h
    convert h using 1
    push_cast [Nat.pow_eq]
    ring

/-- **The shortest decimal reads back**, and so does every other one of the same value whose exponent is not
far outside the range. -/
theorem ofDecimal_of_toRat {m : Nat} (hfinite : m < infinityMagnitude) {d : Decimal}
    (hvalue : d.toRat = (Decimal.shortest m).toRat) (hlow : -2000 ≤ d.exponent)
    (hhigh : d.exponent ≤ 400) (negative : Bool) :
    ofDecimal negative d.digits d.exponent = ofMagnitude negative m := by
  rcases Nat.eq_zero_or_pos m with rfl | hm
  · have hten : (10 : Rat) ^ d.exponent ≠ 0 := zpow_ne_zero _ (by norm_num)
    have hzero : (Decimal.shortest 0).toRat = 0 := by
      rw [Decimal.shortest, if_pos rfl, Decimal.toRat, Nat.cast_zero, zero_mul]
    rw [hzero, Decimal.toRat, mul_eq_zero, or_iff_left hten, Nat.cast_eq_zero] at hvalue
    rw [ofDecimal, if_pos hvalue]
  · refine ofDecimal_of_contains hm hfinite ?_ hlow hhigh negative
    rw [hvalue]
    exact (Decimal.shortest_contains hm).1

end Binary64

end IsolatedSolving
