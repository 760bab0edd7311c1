import Mathlib
/-!
# Rounding up to an alignment

`ROUND_UP(n, d)` is `ROUND_DOWN(n + d - 1, d)`, which clears the bits of `n + d - 1` below a power-of-two alignment
`d`. Over the naturals that is `(n + d - 1) / d * d`, the least multiple of `d` at or above `n` (`alignUp`). The
lemmas are the ones a loop that aligns each item before it places it needs: the result is a multiple of `d`, at least
`n` and less than `n + d`, the least such multiple, and `n` itself when `n` is aligned already.
-/

namespace Align

/-- the least multiple of `d` at or above `n`, for `0 < d` -/
def alignUp (n d : ℕ) : ℕ := (n + d - 1) / d * d

variable {n m d : ℕ}

theorem dvd_alignUp (n d : ℕ) : d ∣ alignUp n d := Nat.dvd_mul_left d _

theorem le_alignUp (hd : 0 < d) : n ≤ alignUp n d := by
  have h := @Nat.lt_div_mul_add (n + d - 1) d hd
  unfold alignUp
  omega

/-- no multiple of `d` lies between `n` and `alignUp n d` -/
theorem alignUp_le_of_dvd (hd : 0 < d) (hm : n ≤ m) (hdvd : d ∣ m) : alignUp n d ≤ m := by
  obtain ⟨k, rfl⟩ := hdvd
  have hk : (n + d - 1) / d < k + 1 := by
    rw [Nat.div_lt_iff_lt_mul hd]
    calc n + d - 1 < d * k + d := by omega
      _ = (k + 1) * d := by ring
  calc alignUp n d = (n + d - 1) / d * d := rfl
    _ ≤ k * d := Nat.mul_le_mul_right d (Nat.lt_succ_iff.mp hk)
    _ = d * k := Nat.mul_comm k d

@[simp]
theorem alignUp_of_dvd (hdvd : d ∣ n) : alignUp n d = n := by
  rcases Nat.eq_zero_or_pos d with rfl | hd
  · rw [Nat.eq_zero_of_zero_dvd hdvd]
    rfl
  · exact le_antisymm (alignUp_le_of_dvd hd le_rfl hdvd) (le_alignUp hd)

@[simp]
theorem alignUp_one (n : ℕ) : alignUp n 1 = n := alignUp_of_dvd (one_dvd n)

end Align
