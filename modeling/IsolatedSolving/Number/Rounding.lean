/-! Rounding a quotient to a whole number.

Everything inexact in this library goes through one of the two functions here: `nearestEven` picks
the nearest whole number and the even one at a half, `nearestAway` picks the nearest and the larger
one at a half. Both stay within half a unit of the quotient and leave whole quotients alone. -/
namespace IsolatedSolving.Number

/-- The whole number nearest to `n / d`, the even one of two that are equally near. -/
def nearestEven (n d : Nat) : Nat :=
  let q := n / d
  let r := n % d
  if 2 * r < d then q
  else if d < 2 * r then q + 1
  else q + q % 2

/-- The whole number nearest to `n / d`, the larger one of two that are equally near. -/
def nearestAway (n d : Nat) : Nat :=
  if 2 * (n % d) < d then n / d else n / d + 1

theorem nearestEven_mul (k d : Nat) (hd : 0 < d) : nearestEven (k * d) d = k := by
  simp [nearestEven, Nat.mul_mod_left, Nat.mul_div_cancel k hd, hd]

@[simp] theorem nearestEven_one (n : Nat) : nearestEven n 1 = n := by
  simpa using nearestEven_mul n 1 Nat.one_pos

/-- Twice the error is at most one divisor, from above. -/
theorem nearestEven_le (n d : Nat) (hd : 0 < d) : 2 * (nearestEven n d * d) ≤ 2 * n + d := by
  have hn := Nat.div_add_mod n d
  have hr := Nat.mod_lt n hd
  have hc : n / d * d = d * (n / d) := Nat.mul_comm _ _
  have hs : (n / d + 1) * d = d * (n / d) + d := by rw [Nat.add_mul, hc, Nat.one_mul]
  unfold nearestEven
  dsimp only
  split
  · omega
  · split
    · omega
    · rcases Nat.mod_two_eq_zero_or_one (n / d) with h | h <;> rw [h]
      · rw [Nat.add_zero]; omega
      · omega

/-- Twice the error is at most one divisor, from below. -/
theorem le_nearestEven (n d : Nat) (hd : 0 < d) : 2 * n ≤ 2 * (nearestEven n d * d) + d := by
  have hn := Nat.div_add_mod n d
  have hr := Nat.mod_lt n hd
  have hc : n / d * d = d * (n / d) := Nat.mul_comm _ _
  have hs : (n / d + 1) * d = d * (n / d) + d := by rw [Nat.add_mul, hc, Nat.one_mul]
  unfold nearestEven
  dsimp only
  split
  · omega
  · split
    · omega
    · rcases Nat.mod_two_eq_zero_or_one (n / d) with h | h <;> rw [h]
      · rw [Nat.add_zero]; omega
      · omega

end IsolatedSolving.Number
