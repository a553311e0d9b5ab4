import IsolatedSolving.Proofs.Number.Exactness

/-! Sums without their zeros.

Two numbers are the `Same` if they are equal by value, or if neither is a number. What is added to both
keeps them so (`Same.add`), and a zero of either sign adds nothing (`same_add_isZero`). Hence a sum from
left to right stays the same if terms that are zeros are left out (`same_sum_filter`), although a sum that
is zero may come with the other sign. -/
namespace IsolatedSolving.Binary64

/-- Equal by value, or no number on either side. -/
def Same (x y : Binary64) : Prop := x.equals y = true ∨ (x.isNaN = true ∧ y.isNaN = true)

section Same
variable {x y z : Binary64}

theorem same_refl (x : Binary64) : x.Same x := by
  cases hnan : x.isNaN with
  | true => exact .inr ⟨hnan, hnan⟩
  | false => exact .inl (equals_iff.mpr ⟨hnan, hnan, rfl⟩)

theorem Same.symm (h : x.Same y) : y.Same x := by
  rcases h with hequal | ⟨hx, hy⟩
  · obtain ⟨hx, hy, hrank⟩ := equals_iff.mp hequal
    exact .inl (equals_iff.mpr ⟨hy, hx, hrank.symm⟩)
  · exact .inr ⟨hy, hx⟩

theorem Same.isNaN (h : x.Same y) : x.isNaN = y.isNaN := by
  rcases h with hequal | ⟨hx, hy⟩
  · obtain ⟨hx, hy, -⟩ := equals_iff.mp hequal
    rw [hx, hy]
  · rw [hx, hy]

theorem Same.trans (h : x.Same y) (h' : y.Same z) : x.Same z := by
  rcases h with hequal | ⟨hx, hy⟩
  · obtain ⟨hx, hy, hrank⟩ := equals_iff.mp hequal
    obtain ⟨-, hz, hrank'⟩ := equals_iff.mp (h'.resolve_right fun hnan => by simp [hy] at hnan)
    exact .inl (equals_iff.mpr ⟨hx, hz, hrank.trans hrank'⟩)
  · exact .inr ⟨hx, h'.isNaN ▸ hy⟩

/-- Finite numbers of the same units are the same. -/
theorem same_of_signedUnits (hx : x.isFinite = true) (hy : y.isFinite = true)
    (h : x.signedUnits = y.signedUnits) : x.Same y :=
  .inl (equals_iff.mpr ⟨isNaN_of_isFinite hx, isNaN_of_isFinite hy, (rank_eq_iff x y).mpr h⟩)

/-- Two numbers that are equal by value differ at most in the sign of a zero. -/
theorem eq_or_isZero_of_equals (h : x.equals y = true) :
    x = y ∨ (x.isZero = true ∧ y.isZero = true) := by
  obtain ⟨-, -, hrank⟩ := equals_iff.mp h
  have hmagnitude : x.magnitude = y.magnitude := by rw [← natAbs_rank, ← natAbs_rank, hrank]
  by_cases hsign : x.isNegative = y.isNegative
  · left
    rw [← ofMagnitude_magnitude x, ← ofMagnitude_magnitude y, hsign, hmagnitude]
  · right
    have hzero : x.magnitude = 0 := by
      rw [rank, rank, hmagnitude] at hrank
      rw [hmagnitude]
      cases hx : x.isNegative <;> cases hy : y.isNegative <;> simp [hx, hy] at hsign hrank <;> omega
    exact ⟨decide_eq_true hzero, decide_eq_true (hmagnitude ▸ hzero)⟩

end Same

/-! ### Zeros as terms -/

section Zeros
variable {x y z : Binary64}

theorem isFinite_of_isZero (h : z.isZero = true) : z.isFinite = true := by
  rw [isFinite_iff, of_decide_eq_true h]
  decide

theorem units_of_isZero (h : z.isZero = true) : z.units = 0 := by
  rw [units, of_decide_eq_true h, unitsOfMagnitude_zero]

theorem signedUnits_of_isZero (h : z.isZero = true) : z.signedUnits = 0 := by
  rw [signedUnits, units_of_isZero h]
  split <;> rfl

theorem natAbs_signedUnits (x : Binary64) : x.signedUnits.natAbs = x.units := by
  rw [signedUnits]
  split <;> omega

/-- Finite numbers whose units add up to those of a number have it as their sum. -/
theorem same_add_of_signedUnits (hx : x.isFinite = true) (hy : y.isFinite = true)
    (hz : z.isFinite = true) (h : x.signedUnits + y.signedUnits = z.signedUnits) :
    (x.add y).Same z := by
  have hrepresentable : Representable (x.signedUnits + y.signedUnits).natAbs := by
    rw [h, natAbs_signedUnits]
    exact representable_units hz
  obtain ⟨hfinite, hunits⟩ := signedUnits_add hx hy hrepresentable
  exact same_of_signedUnits hfinite hz (hunits.trans h)

/-- A zero behind a number adds nothing. -/
theorem same_add_isZero (hz : z.isZero = true) (x : Binary64) : (x.add z).Same x := by
  have hfinite := isFinite_of_isZero hz
  cases hnan : x.isNaN with
  | true => exact .inr ⟨(isNaN_add hfinite).trans hnan, hnan⟩
  | false =>
    rcases finite_or_infinite hnan with hx | rfl | rfl
    · exact same_add_of_signedUnits hx hfinite hx (by rw [signedUnits_of_isZero hz, Int.add_zero])
    all_goals
      rw [add_of_isInfinite rfl hfinite]
      exact same_refl _

/-- Nor does a zero in front of one. -/
theorem same_isZero_add (hz : z.isZero = true) (x : Binary64) : (z.add x).Same x := by
  have hfinite := isFinite_of_isZero hz
  cases hnan : x.isNaN with
  | true =>
    have hquiet : z.add x = x.quiet := by
      rw [add, isNaN_of_isFinite hfinite, hnan, if_neg Bool.false_ne_true, if_pos rfl]
    exact .inr ⟨hquiet ▸ isNaN_quiet hnan, hnan⟩
  | false =>
    rcases finite_or_infinite hnan with hx | rfl | rfl
    · exact same_add_of_signedUnits hfinite hx hx (by rw [signedUnits_of_isZero hz, Int.zero_add])
    all_goals
      rw [add_of_isInfinite_right hfinite rfl]
      exact same_refl _

/-- A sum with a NaN in front is one. -/
theorem isNaN_add_left (hx : x.isNaN = true) (y : Binary64) : (x.add y).isNaN = true := by
  rw [add, if_pos hx]
  exact isNaN_quiet hx

/-- Numbers that are the same stay so with another one behind them. -/
theorem Same.add (h : x.Same y) (z : Binary64) : (x.add z).Same (y.add z) := by
  rcases h with hequal | ⟨hx, hy⟩
  · rcases eq_or_isZero_of_equals hequal with rfl | ⟨hx, hy⟩
    · exact same_refl _
    · exact (same_isZero_add hx z).trans (same_isZero_add hy z).symm
  · exact .inr ⟨isNaN_add_left hx z, isNaN_add_left hy z⟩

/-- A zero times a finite number is a zero. -/
theorem isZero_mul (hx : x.isZero = true) (hy : y.isFinite = true) : (x.mul y).isZero = true := by
  have hfinite := isFinite_of_isZero hx
  have hnone : magnitudeOfUnits 0 unitsInOne = 0 := by
    rw [magnitudeOfUnits, Nat.zero_div]
    exact Nat.min_eq_right (Nat.zero_le _)
  simp only [mul, isNaN_of_isFinite hfinite, isNaN_of_isFinite hy, isInfinite_of_isFinite hfinite,
    isInfinite_of_isFinite hy, Bool.or_self, Bool.false_eq_true, if_false]
  rw [units_of_isZero hx, Nat.zero_mul, ofUnits, hnone, isZero, magnitude_ofMagnitude (by decide)]
  rfl

end Zeros

/-! ### Sums -/

section Sums
variable {α : Type} {f : α → Binary64} {keep : α → Bool} {xs : List α} {x y : Binary64}

/-- Sums that start from the same number stay the same if zeros are left out of one of them. -/
theorem Same.foldl_filter (h : x.Same y) (hzero : ∀ a ∈ xs, keep a = false → (f a).isZero = true) :
    ((xs.map f).foldl Binary64.add x).Same (((xs.filter keep).map f).foldl Binary64.add y) := by
  induction xs generalizing x y with
  | nil => exact h
  | cons a xs ih =>
    obtain ⟨ha, hxs⟩ := List.forall_mem_cons.mp hzero
    cases hkeep : keep a with
    | true =>
      rw [List.filter_cons_of_pos hkeep]
      exact ih (h.add (f a)) hxs
    | false =>
      rw [List.filter_cons_of_neg (by rw [hkeep]; decide)]
      exact ih ((same_add_isZero (ha hkeep) x).trans h) hxs

/-- **Zeros may be left out of a sum.** -/
theorem same_sum_filter (hzero : ∀ a ∈ xs, keep a = false → (f a).isZero = true) :
    (sum (xs.map f)).Same (sum ((xs.filter keep).map f)) :=
  (same_refl negZero).foldl_filter hzero

end Sums

end IsolatedSolving.Binary64
