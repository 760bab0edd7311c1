import Mathlib
/-!
# Non-restoring division

Binary long division of `a` by `s > 0`, one quotient bit per step, without restoring the partial remainder after a
subtraction that went negative: each step doubles the remainder, then subtracts `s` if the remainder was not
negative and adds `s` if it was. The sign of the new remainder is the next quotient bit.

Started from `0 ≤ a < s`, after `k ≥ 1` steps the remainder is `rem s a k`: the remainder of `a * 2 ^ k` by `s`,
less `s` when the last quotient bit, bit 0 of `a * 2 ^ k / s`, is clear. The first step gives `rem s a 1`
(`step_first`) and each further step the next (`step_rem`), so a run that also tracks other state inducts on these
two. The remainder's sign is the quotient bit (`rem_nonneg_iff`).
-/

namespace NonRestoring

/-- one step of non-restoring division by `s` -/
def step (s r : ℤ) : ℤ := if 0 ≤ r then 2 * r - s else 2 * r + s

/-- the partial remainder after `k` steps of dividing `a` by `s` -/
def rem (s a k : ℕ) : ℤ :=
  if a * 2 ^ k / s % 2 = 1 then (a * 2 ^ k % s : ℕ) else (a * 2 ^ k % s : ℕ) - s

variable {s a k : ℕ}

/-- doubling the dividend doubles the quotient and adds one bit, read off the doubled remainder -/
theorem two_mul_div (hs : 0 < s) (x : ℕ) : 2 * x / s = 2 * (x / s) + 2 * (x % s) / s := by
  have hsplit : 2 * x = 2 * (x % s) + s * (2 * (x / s)) := by
    have := Nat.mod_add_div x s
    rw [Nat.mul_left_comm]
    omega
  rw [hsplit, Nat.add_mul_div_left _ _ hs, Nat.add_comm]

theorem two_mul_mod (x : ℕ) : 2 * x % s = 2 * (x % s) % s :=
  (Nat.mul_mod_mod 2 x s).symm

/-- the quotient after one more step, halved, is the quotient before it -/
theorem quotient_succ_div_two : a * 2 ^ (k + 1) / s / 2 = a * 2 ^ k / s := by
  rw [Nat.div_div_eq_div_mul, pow_succ, ← Nat.mul_assoc, Nat.mul_comm s 2, Nat.mul_comm (a * 2 ^ k) 2,
    Nat.mul_div_mul_left _ _ (by decide)]

/-- whatever the last bit, the remainder after one more step is twice the remainder of `a * 2 ^ k`, less `s` -/
theorem rem_succ (hs : 0 < s) : rem s a (k + 1) = 2 * (a * 2 ^ k % s : ℕ) - s := by
  have hR := Nat.mod_lt (a * 2 ^ k) hs
  have hdouble : a * 2 ^ (k + 1) = 2 * (a * 2 ^ k) := by rw [pow_succ]; ring
  unfold rem
  rw [hdouble, two_mul_div hs, two_mul_mod]
  generalize a * 2 ^ k % s = R at *
  -- the new quotient bit is `1` exactly when the doubled remainder reaches `s`
  by_cases hbit : s ≤ 2 * R
  · have hone : 2 * R / s = 1 := Nat.div_eq_of_lt_le (by omega) (by omega)
    have hmod : 2 * R % s = 2 * R - s := by
      rw [Nat.mod_eq_sub_mod hbit, Nat.mod_eq_of_lt (by omega)]
    rw [hone, if_pos (by omega), hmod]
    push_cast [hbit]
    ring
  · have hzero : 2 * R / s = 0 := Nat.div_eq_of_lt (by omega)
    rw [hzero, if_neg (by omega), Nat.mod_eq_of_lt (by omega)]
    push_cast
    ring

/-- the sign of the partial remainder is the last quotient bit -/
theorem rem_nonneg_iff (hs : 0 < s) : 0 ≤ rem s a k ↔ a * 2 ^ k / s % 2 = 1 := by
  have hR := Nat.mod_lt (a * 2 ^ k) hs
  unfold rem
  split_ifs with h
  · exact ⟨fun _ => h, fun _ => by positivity⟩
  · constructor
    · intro hneg
      omega
    · intro h'
      exact absurd h' h

theorem rem_bounds (hs : 0 < s) : -(s : ℤ) ≤ rem s a k ∧ rem s a k < s := by
  have hR := Nat.mod_lt (a * 2 ^ k) hs
  unfold rem
  split_ifs <;> omega

/-- one step carries the invariant from `k` steps to `k + 1` -/
theorem step_rem (hs : 0 < s) (k : ℕ) : step s (rem s a k) = rem s a (k + 1) := by
  have hR := Nat.mod_lt (a * 2 ^ k) hs
  rw [rem_succ hs]
  unfold step rem
  -- a set quotient bit leaves the remainder itself; a clear one leaves it less `s`, which the step adds back
  split_ifs <;> omega

/-- the first step, from the dividend itself -/
theorem step_first (hs : 0 < s) (ha : a < s) : step s a = rem s a 1 := by
  rw [rem_succ hs, pow_zero, Nat.mul_one, Nat.mod_eq_of_lt ha]
  unfold step
  rw [if_pos (by positivity)]

/-- the quotient of a proper fraction `a / s` shifted by `k` has at most `k` bits -/
theorem quotient_lt (hs : 0 < s) (ha : a < s) (k : ℕ) : a * 2 ^ k / s < 2 ^ k := by
  rw [Nat.div_lt_iff_lt_mul hs, Nat.mul_comm (2 ^ k)]
  exact Nat.mul_lt_mul_of_pos_right ha (Nat.two_pow_pos k)

end NonRestoring
