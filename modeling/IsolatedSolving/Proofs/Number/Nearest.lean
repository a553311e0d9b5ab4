import IsolatedSolving.Proofs.Number.Comparison
import Mathlib.Tactic.Ring

/-! Rounding to the nearest number.

Between two neighbouring magnitudes, rounding decides by the side of the midpoint, and at the midpoint
for the even one (`magnitudeOfUnits_eq`). So a quotient is rounded to a magnitude exactly if it lies
between the midpoints on both sides (`Between.magnitudeOfUnits_eq`), and what has at least the units of
a magnitude is rounded to nothing less (`le_magnitudeOfUnits`). -/
namespace IsolatedSolving

/-- Rounding decides by the side of the midpoint. -/
theorem Number.nearestEven_eq {n d q : Nat} (hbelow : q * d ≤ n) (habove : n < (q + 1) * d) :
    nearestEven n d =
      if 2 * n < (2 * q + 1) * d then q
      else if (2 * q + 1) * d < 2 * n then q + 1
      else q + q % 2 := by
  obtain ⟨r, rfl⟩ := Nat.exists_eq_add_of_le hbelow
  have hr : r < d := by
    rw [Nat.succ_mul] at habove
    omega
  have hdiv : (q * d + r) / d = q := by
    rw [Nat.mul_comm, Nat.mul_add_div (by omega), Nat.div_eq_of_lt hr, Nat.add_zero]
  have hmod : (q * d + r) % d = r := by
    rw [Nat.mul_comm, Nat.mul_add_mod, Nat.mod_eq_of_lt hr]
  have hmiddle : (2 * q + 1) * d = 2 * (q * d) + d := by rw [Nat.succ_mul, Nat.mul_assoc]
  simp only [nearestEven, hdiv, hmod, hmiddle]
  have hlt : 2 * r < d ↔ 2 * (q * d + r) < 2 * (q * d) + d := by omega
  have hgt : d < 2 * r ↔ 2 * (q * d) + d < 2 * (q * d + r) := by omega
  simp only [hlt, hgt]

namespace Binary64

/-! ### Neighbouring magnitudes -/

/-- A magnitude counts the binades below it and the places within its own. -/
theorem unitsOfMagnitude_add {s q : Nat} (hq : q ≤ 2 ^ 53) (hs : s = 0 ∨ 2 ^ 52 ≤ q) :
    unitsOfMagnitude (s * binade + q) = q * 2 ^ s := by
  simp only [unitsOfMagnitude, Nat.shiftLeft_eq, binade_eq]
  rcases Nat.lt_or_ge q 4503599627370496 with hsmall | hlarge
  · have hzero : s = 0 := hs.resolve_right (by omega)
    subst hzero
    rw [Nat.zero_mul, Nat.zero_add, Nat.div_eq_of_lt hsmall, if_pos rfl, Nat.mod_eq_of_lt hsmall,
      Nat.pow_zero, Nat.mul_one]
  · rcases Nat.lt_or_ge q 9007199254740992 with hinside | hnext
    · have hfield : (s * 4503599627370496 + q) / 4503599627370496 = s + 1 := by omega
      have hfraction : (s * 4503599627370496 + q) % 4503599627370496 = q - 4503599627370496 := by omega
      rw [hfield, hfraction, if_neg (Nat.succ_ne_zero s), Nat.add_sub_cancel, Nat.add_sub_cancel' hlarge]
    · obtain rfl : q = 9007199254740992 := by omega
      have hfield : (s * 4503599627370496 + 9007199254740992) / 4503599627370496 = s + 2 := by omega
      have hfraction : (s * 4503599627370496 + 9007199254740992) % 4503599627370496 = 0 := by omega
      rw [hfield, hfraction, if_neg (Nat.succ_ne_zero (s + 1)), Nat.add_zero]
      have hsub : s + 2 - 1 = s + 1 := rfl
      rw [hsub, Nat.pow_succ]
      omega

section Rounding
variable {n d m : Nat}

/-- The leading 53 binary digits of a count, with the power of two behind them. -/
theorem leading_digits (k : Nat) :
    k / 2 ^ (k.log2 - 52) < 2 ^ 53 ∧ (k.log2 - 52 = 0 ∨ 2 ^ 52 ≤ k / 2 ^ (k.log2 - 52)) := by
  rcases Nat.le_total k.log2 52 with hshort | hlong
  · have hzero : k.log2 - 52 = 0 := by omega
    have hlt : k < 2 ^ 53 := Nat.lt_of_lt_of_le Nat.lt_log2_self (Nat.pow_le_pow_right (by decide) (by omega))
    rw [hzero, Nat.pow_zero, Nat.div_one]
    exact ⟨hlt, .inl rfl⟩
  · obtain ⟨s, hs⟩ := Nat.exists_eq_add_of_le hlong
    have hk : k ≠ 0 := by
      rintro rfl
      exact absurd hlong (by decide)
    have hlow := Nat.log2_self_le hk
    have hhigh := Nat.lt_log2_self (n := k)
    rw [hs, Nat.pow_add] at hlow
    rw [hs, Nat.add_right_comm, Nat.pow_add] at hhigh
    rw [hs, Nat.add_sub_cancel_left]
    exact ⟨Nat.div_lt_of_lt_mul (by rwa [Nat.mul_comm]),
      .inr ((Nat.le_div_iff_mul_le (Nat.two_pow_pos s)).mpr hlow)⟩

/-- The magnitudes around a quotient, and the one it is rounded to. -/
theorem magnitudeOfUnits_eq (n : Nat) (hd : 0 < d) :
    ∃ f, unitsOfMagnitude f * d ≤ n ∧ n < unitsOfMagnitude (f + 1) * d ∧
      magnitudeOfUnits n d = min infinityMagnitude
        (if 2 * n < (unitsOfMagnitude f + unitsOfMagnitude (f + 1)) * d then f
        else if (unitsOfMagnitude f + unitsOfMagnitude (f + 1)) * d < 2 * n then f + 1
        else f + f % 2) := by
  obtain ⟨hq, hs⟩ := leading_digits (n / d)
  rw [magnitudeOfUnits, Nat.shiftLeft_eq]
  generalize (n / d).log2 - 52 = s at hq hs ⊢
  rw [Nat.div_div_eq_div_mul] at hq hs
  have hpos : 0 < d * 2 ^ s := Nat.mul_pos hd (Nat.two_pow_pos s)
  have hbelow : n / (d * 2 ^ s) * (d * 2 ^ s) ≤ n := Nat.div_mul_le_self n _
  have habove : n < (n / (d * 2 ^ s) + 1) * (d * 2 ^ s) := by
    rw [Nat.mul_comm]
    exact Nat.lt_mul_div_succ n hpos
  generalize n / (d * 2 ^ s) = q at hq hs hbelow habove
  have hunits : unitsOfMagnitude (s * binade + q) = q * 2 ^ s :=
    unitsOfMagnitude_add (Nat.le_of_lt hq) hs
  have hunits' : unitsOfMagnitude (s * binade + q + 1) = (q + 1) * 2 ^ s := by
    rw [Nat.add_assoc]
    exact unitsOfMagnitude_add hq (hs.imp_right (Nat.le_trans · (Nat.le_add_right q 1)))
  have hparity : (s * binade + q) % 2 = q % 2 := by
    rw [binade_eq]
    omega
  have hmiddle : (q * 2 ^ s + (q + 1) * 2 ^ s) * d = (2 * q + 1) * (d * 2 ^ s) := by ring
  rw [Number.nearestEven_eq hbelow habove]
  have hround : (s * binade +
      if 2 * n < (2 * q + 1) * (d * 2 ^ s) then q
      else if (2 * q + 1) * (d * 2 ^ s) < 2 * n then q + 1
      else q + q % 2) =
      if 2 * n < (2 * q + 1) * (d * 2 ^ s) then s * binade + q
      else if (2 * q + 1) * (d * 2 ^ s) < 2 * n then s * binade + q + 1
      else s * binade + q + (s * binade + q) % 2 := by
    rw [hparity, Nat.add_assoc, Nat.add_assoc]
    generalize s * binade = shifted
    split
    · rfl
    · split <;> rfl
  rw [hround]
  generalize s * binade + q = f at hunits hunits' ⊢
  refine ⟨f, ?_, ?_, ?_⟩
  · rw [hunits, Nat.mul_assoc, Nat.mul_comm (2 ^ s)]
    exact hbelow
  · rw [hunits', Nat.mul_assoc, Nat.mul_comm (2 ^ s)]
    exact habove
  · rw [hunits, hunits', hmiddle]

/-! ### What a quotient is rounded to -/

/-- What is at least a magnitude is rounded to nothing less. -/
theorem le_magnitudeOfUnits (hd : 0 < d) (hm : m ≤ infinityMagnitude)
    (h : unitsOfMagnitude m * d ≤ n) : m ≤ magnitudeOfUnits n d := by
  obtain ⟨f, -, habove, heq⟩ := magnitudeOfUnits_eq n hd
  have hlt : m < f + 1 :=
    strictMono_unitsOfMagnitude.lt_iff_lt.mp (Nat.lt_of_mul_lt_mul_right (Nat.lt_of_le_of_lt h habove))
  rw [heq]
  refine Nat.le_min.mpr ⟨hm, ?_⟩
  split
  · exact Nat.le_of_lt_succ hlt
  · split
    · exact Nat.le_of_lt hlt
    · exact Nat.le_trans (Nat.le_of_lt_succ hlt) (Nat.le_add_right f _)

/-- The midpoints around a magnitude, in units: the quotient lies between them, and at one of them only
if the magnitude is even. -/
structure Between (n d m : Nat) : Prop where
  low : (unitsOfMagnitude (m - 1) + unitsOfMagnitude m) * d ≤ 2 * n
  high : 2 * n ≤ (unitsOfMagnitude m + unitsOfMagnitude (m + 1)) * d
  ties : m % 2 = 0 ∨ (unitsOfMagnitude (m - 1) + unitsOfMagnitude m) * d < 2 * n ∧
    2 * n < (unitsOfMagnitude m + unitsOfMagnitude (m + 1)) * d

/-- A quotient between the midpoints around a magnitude is rounded to it. -/
theorem Between.magnitudeOfUnits_eq (h : Between n d m) (hd : 0 < d) (hpos : 0 < m)
    (hm : m < infinityMagnitude) : magnitudeOfUnits n d = m := by
  obtain ⟨k, rfl⟩ := Nat.exists_eq_succ_of_ne_zero (Nat.ne_of_gt hpos)
  obtain ⟨hlow, hhigh, hties⟩ := h
  rw [Nat.succ_sub_one, Nat.succ_eq_add_one] at *
  obtain ⟨f, hbelow, habove, heq⟩ := Binary64.magnitudeOfUnits_eq n hd
  have hkd := Nat.mul_lt_mul_of_pos_right (strictMono_unitsOfMagnitude k.lt_succ_self) hd
  have hkd' := Nat.mul_lt_mul_of_pos_right (strictMono_unitsOfMagnitude (k + 1).lt_succ_self) hd
  rw [Nat.succ_eq_add_one] at hkd hkd'
  rw [Nat.add_mul] at hlow hhigh hties
  rw [Nat.add_mul] at hties
  -- The magnitude below the quotient is this one or the one before.
  have hk : k < f + 1 :=
    strictMono_unitsOfMagnitude.lt_iff_lt.mp (Nat.lt_of_mul_lt_mul_right (a := d) (by omega))
  have hf : f < k + 1 + 1 :=
    strictMono_unitsOfMagnitude.lt_iff_lt.mp (Nat.lt_of_mul_lt_mul_right (a := d) (by omega))
  rw [heq, Nat.add_mul]
  refine (congrArg (min _) ?_).trans (Nat.min_eq_right (Nat.le_of_lt hm))
  obtain rfl | rfl : f = k + 1 ∨ f = k := by omega
  · split
    · rfl
    · split <;> omega
  · split
    · omega
    · split <;> omega

end Rounding

end Binary64

end IsolatedSolving
