import Mathlib
/-!
# Two's-complement words, masks and convergent rounding

A word of `s + 1` bits whose top bit, bit `s`, is its sign. `signedVal s x` reads it as a two's-complement integer
and `Overflows s v` says that the integer `v` is outside the range such words hold. An adder or a subtractor that
works on the words computes the sum or difference modulo `2 ^ (s + 1)` and detects overflow from three sign bits,
those of the operands and of the result; `add_overflow_bits` and `sub_overflow_bits` show that the usual tests are
exact.

Bit masks that C code applies with `&` are read here as arithmetic: `land_two_pow_sub_two_pow` clears the bits
below `j` and from `n` on. `roundHalfEven k x` rounds `x` to a multiple of `2 ^ (k + 1)`, a tie going to the even
multiple (convergent rounding).
-/

namespace Words

/-! ## Sign bits and signed values -/

/-- bit `s` of a word of `s + 1` bits -/
def signBit (s x : ℕ) : ℕ := x / 2 ^ s

/-- the two's-complement value of a word of `s + 1` bits -/
def signedVal (s x : ℕ) : ℤ := x - 2 ^ (s + 1) * (signBit s x : ℤ)

/-- `v` lies outside the range of the words of `s + 1` bits -/
def Overflows (s : ℕ) (v : ℤ) : Prop := v < -2 ^ s ∨ 2 ^ s ≤ v

instance (s : ℕ) (v : ℤ) : Decidable (Overflows s v) := inferInstanceAs (Decidable (_ ∨ _))

variable {s a b x : ℕ}

theorem signBit_eq (hx : x < 2 ^ (s + 1)) : signBit s x = if x < 2 ^ s then 0 else 1 := by
  unfold signBit
  split_ifs with h
  · exact Nat.div_eq_of_lt h
  · rw [pow_succ] at hx
    exact Nat.div_eq_of_lt_le (by omega) (by omega)

theorem signBit_lt_two (hx : x < 2 ^ (s + 1)) : signBit s x < 2 := by
  rw [signBit_eq hx]
  split_ifs <;> decide

/-- the sign bit as `Nat.testBit` reads it -/
theorem testBit_eq_signBit (hx : x < 2 ^ (s + 1)) : x.testBit s = decide (signBit s x = 1) := by
  have hlt := signBit_lt_two hx
  unfold signBit at hlt ⊢
  rw [Nat.testBit_eq_decide_div_mod_eq, Nat.mod_eq_of_lt hlt]

/-- a word minus its signed value is `2 ^ (s + 1)` or nothing -/
theorem signedVal_of_lt (hx : x < 2 ^ s) : signedVal s x = x := by
  have hs : x < 2 ^ (s + 1) := lt_of_lt_of_le hx (Nat.pow_le_pow_right (by omega) (by omega))
  rw [signedVal, signBit_eq hs, if_pos hx]
  simp

theorem signedVal_of_ge (hx : x < 2 ^ (s + 1)) (hge : 2 ^ s ≤ x) : signedVal s x = x - 2 ^ (s + 1) := by
  rw [signedVal, signBit_eq hx, if_neg (Nat.not_lt.2 hge)]
  simp

/-- the signed value is congruent to the word -/
theorem signedVal_emod (hx : x < 2 ^ (s + 1)) : signedVal s x % 2 ^ (s + 1) = x := by
  have hx' : (x : ℤ) < 2 ^ (s + 1) := by exact_mod_cast hx
  by_cases hlt : x < 2 ^ s
  · rw [signedVal_of_lt hlt]
    exact Int.emod_eq_of_lt (by omega) hx'
  · rw [signedVal_of_ge hx (Nat.not_lt.1 hlt), Int.sub_emod, Int.emod_self, Int.sub_zero, Int.emod_emod_of_dvd _
      (dvd_refl _)]
    exact Int.emod_eq_of_lt (by omega) hx'

/-- the signed value of a word lies in its range -/
theorem signedVal_bounds (hx : x < 2 ^ (s + 1)) : -2 ^ s ≤ signedVal s x ∧ signedVal s x < 2 ^ s := by
  have hpow : (2 : ℤ) ^ (s + 1) = 2 * 2 ^ s := by rw [pow_succ, mul_comm]
  have hx' : (x : ℤ) < 2 ^ (s + 1) := by exact_mod_cast hx
  by_cases hlt : x < 2 ^ s
  · have hlt' : (x : ℤ) < 2 ^ s := by exact_mod_cast hlt
    rw [signedVal_of_lt hlt]
    omega
  · have hge : (2 : ℤ) ^ s ≤ x := by exact_mod_cast Nat.not_lt.1 hlt
    rw [signedVal_of_ge hx (Nat.not_lt.1 hlt)]
    omega

/-! ## Overflow detection from sign bits -/

/-- the sign-bit test of an adder, on bits: the operands agree and the result differs -/
theorem xor_land_xor_eq {p q r : ℕ} (hp : p < 2) (hq : q < 2) (hr : r < 2) :
    (p ^^^ r) &&& (q ^^^ r) = if p = q ∧ r ≠ p then 1 else 0 := by
  interval_cases p <;> interval_cases q <;> interval_cases r <;> rfl

/-- the sign-bit test of a subtractor `a - b`, on bits: the operands differ and the result differs from `a` -/
theorem xor_land_xor_eq_sub {p q r : ℕ} (hp : p < 2) (hq : q < 2) (hr : r < 2) :
    (q ^^^ p) &&& (r ^^^ p) = if q ≠ p ∧ r ≠ p then 1 else 0 := by
  interval_cases p <;> interval_cases q <;> interval_cases r <;> rfl

theorem int_two_pow (s : ℕ) : (2 : ℤ) ^ s = ((2 ^ s : ℕ) : ℤ) := by
  push_cast
  rfl

theorem int_two_pow_succ (s : ℕ) : (2 : ℤ) ^ (s + 1) = 2 * ((2 ^ s : ℕ) : ℤ) := by
  push_cast
  rw [pow_succ, mul_comm]

/-- the word of a sum: the sum, less the modulus when it carries out -/
theorem add_mod_eq (ha : a < 2 ^ (s + 1)) (hb : b < 2 ^ (s + 1)) :
    (a + b) % 2 ^ (s + 1) = if a + b < 2 ^ (s + 1) then a + b else a + b - 2 ^ (s + 1) := by
  split_ifs with h
  · exact Nat.mod_eq_of_lt h
  · rw [Nat.mod_eq_sub_mod (Nat.not_lt.1 h), Nat.mod_eq_of_lt (by omega)]

/-- the word of a difference: the difference, or the difference plus the modulus when it borrows -/
theorem sub_mod_eq (ha : a < 2 ^ (s + 1)) (hb : b < 2 ^ (s + 1)) :
    (a + (2 ^ (s + 1) - b)) % 2 ^ (s + 1) = if b ≤ a then a - b else a + (2 ^ (s + 1) - b) := by
  split_ifs with h
  · rw [Nat.mod_eq_sub_mod (by omega), Nat.mod_eq_of_lt (by omega)]
    omega
  · exact Nat.mod_eq_of_lt (by omega)

/-- a sum overflows exactly when the operands have one sign and the result the other -/
theorem add_overflows_iff (ha : a < 2 ^ (s + 1)) (hb : b < 2 ^ (s + 1)) :
    Overflows s (signedVal s a + signedVal s b) ↔
      signBit s a = signBit s b ∧ signBit s ((a + b) % 2 ^ (s + 1)) ≠ signBit s a := by
  have hpow : 2 ^ (s + 1) = 2 * 2 ^ s := by rw [Nat.pow_succ, Nat.mul_comm]
  have hr := Nat.mod_lt (a + b) (Nat.two_pow_pos (s + 1))
  have hsum : (a + b) % 2 ^ (s + 1) = if a + b < 2 * 2 ^ s then a + b else a + b - 2 * 2 ^ s := by
    rw [add_mod_eq ha hb, hpow]
  unfold Overflows signedVal
  rw [signBit_eq ha, signBit_eq hb, signBit_eq hr, hsum, int_two_pow_succ, int_two_pow]
  rw [hpow] at ha hb
  clear hr hsum hpow
  -- one case for each sign of the operands and of the sum
  generalize 2 ^ s = P at *
  split_ifs <;> simp <;> omega

/-- a difference `a - b` overflows exactly when the operands have different signs and the result has `b`'s -/
theorem sub_overflows_iff (ha : a < 2 ^ (s + 1)) (hb : b < 2 ^ (s + 1)) :
    Overflows s (signedVal s a - signedVal s b) ↔
      signBit s b ≠ signBit s a ∧ signBit s ((a + (2 ^ (s + 1) - b)) % 2 ^ (s + 1)) ≠ signBit s a := by
  have hpow : 2 ^ (s + 1) = 2 * 2 ^ s := by rw [Nat.pow_succ, Nat.mul_comm]
  have hr := Nat.mod_lt (a + (2 ^ (s + 1) - b)) (Nat.two_pow_pos (s + 1))
  have hdiff : (a + (2 ^ (s + 1) - b)) % 2 ^ (s + 1) = if b ≤ a then a - b else a + (2 * 2 ^ s - b) := by
    rw [sub_mod_eq ha hb, hpow]
  unfold Overflows signedVal
  rw [signBit_eq ha, signBit_eq hb, signBit_eq hr, hdiff, int_two_pow_succ, int_two_pow]
  rw [hpow] at ha hb
  clear hr hdiff hpow
  generalize 2 ^ s = P at *
  split_ifs <;> simp <;> omega

/-- the adder's overflow bit `(sa ^ sr) & (sb ^ sr)` is the overflow of the signed sum -/
theorem add_overflow_bits (ha : a < 2 ^ (s + 1)) (hb : b < 2 ^ (s + 1)) :
    (signBit s a ^^^ signBit s ((a + b) % 2 ^ (s + 1))) &&& (signBit s b ^^^ signBit s ((a + b) % 2 ^ (s + 1))) =
      if Overflows s (signedVal s a + signedVal s b) then 1 else 0 := by
  have hr := Nat.mod_lt (a + b) (Nat.two_pow_pos (s + 1))
  rw [xor_land_xor_eq (signBit_lt_two ha) (signBit_lt_two hb) (signBit_lt_two hr)]
  exact if_congr (add_overflows_iff ha hb).symm rfl rfl

/-- the subtractor's overflow bit `(sb ^ sa) & (sr ^ sa)` is the overflow of the signed difference `a - b` -/
theorem sub_overflow_bits (ha : a < 2 ^ (s + 1)) (hb : b < 2 ^ (s + 1)) :
    (signBit s b ^^^ signBit s a) &&& (signBit s ((a + (2 ^ (s + 1) - b)) % 2 ^ (s + 1)) ^^^ signBit s a) =
      if Overflows s (signedVal s a - signedVal s b) then 1 else 0 := by
  have hr := Nat.mod_lt (a + (2 ^ (s + 1) - b)) (Nat.two_pow_pos (s + 1))
  rw [xor_land_xor_eq_sub (signBit_lt_two ha) (signBit_lt_two hb) (signBit_lt_two hr)]
  exact if_congr (sub_overflows_iff ha hb).symm rfl rfl

/-! ## Comparing by subtraction -/

/-- the word `a - b` is zero exactly when the words are equal -/
theorem sub_mod_eq_zero_iff (ha : a < 2 ^ (s + 1)) (hb : b < 2 ^ (s + 1)) :
    (a + (2 ^ (s + 1) - b)) % 2 ^ (s + 1) = 0 ↔ a = b := by
  rw [sub_mod_eq ha hb]
  split_ifs <;> omega

/-- two words with the same signed value are the same word -/
theorem signedVal_inj (ha : a < 2 ^ (s + 1)) (hb : b < 2 ^ (s + 1)) : signedVal s a = signedVal s b ↔ a = b := by
  constructor
  · intro h
    have hmod := congrArg (· % (2 : ℤ) ^ (s + 1)) h
    simp only [signedVal_emod ha, signedVal_emod hb] at hmod
    exact_mod_cast hmod
  · rintro rfl
    rfl

/-- the sign of the word `a - b` differs from its overflow exactly when `a < b` as signed words: the signed
comparison that a condition `N ⊕ V` reads -/
theorem signBit_sub_eq_one_iff (ha : a < 2 ^ (s + 1)) (hb : b < 2 ^ (s + 1)) :
    signBit s ((a + (2 ^ (s + 1) - b)) % 2 ^ (s + 1)) = 1 ↔
      (signedVal s a < signedVal s b ↔ ¬Overflows s (signedVal s a - signedVal s b)) := by
  have hpow : 2 ^ (s + 1) = 2 * 2 ^ s := by rw [Nat.pow_succ, Nat.mul_comm]
  have hr := Nat.mod_lt (a + (2 ^ (s + 1) - b)) (Nat.two_pow_pos (s + 1))
  have hdiff : (a + (2 ^ (s + 1) - b)) % 2 ^ (s + 1) = if b ≤ a then a - b else a + (2 * 2 ^ s - b) := by
    rw [sub_mod_eq ha hb, hpow]
  unfold Overflows signedVal
  rw [signBit_eq ha, signBit_eq hb, signBit_eq hr, hdiff, int_two_pow_succ, int_two_pow]
  rw [hpow] at ha hb
  clear hr hdiff hpow
  -- one case for each sign of the operands and of the difference
  generalize 2 ^ s = P at *
  split_ifs <;> simp <;> omega

/-! ## Masks -/

/-- `x & (2^n - 2^j)` keeps the bits from `j` up to `n` -/
theorem land_two_pow_sub_two_pow {j n : ℕ} (hj : j ≤ n) (x : ℕ) :
    x &&& (2 ^ n - 2 ^ j) = x % 2 ^ n / 2 ^ j * 2 ^ j := by
  have hmask : 2 ^ n - 2 ^ j = 2 ^ j * (2 ^ (n - j) - 1) := by
    rw [Nat.mul_sub, ← pow_add, Nat.add_sub_cancel' hj, Nat.mul_one]
  apply Nat.eq_of_testBit_eq
  intro i
  rw [Nat.testBit_and, hmask, Nat.testBit_two_pow_mul, Nat.testBit_two_pow_sub_one, Nat.testBit_mul_two_pow,
    Nat.testBit_div_two_pow, Nat.testBit_mod_two_pow]
  by_cases hji : j ≤ i
  · have hidx : i - j + j = i := Nat.sub_add_cancel hji
    rw [hidx]
    by_cases hin : i < n
    · simp [hji, hin, show i - j < n - j by omega]
    · simp [hji, hin, show ¬(i - j < n - j) by omega]
  · simp [hji]

/-- a multiple of `d` below a multiple `n` of `d` leaves room for one more `d` -/
theorem div_mul_add_le {d n : ℕ} (hd : d ∣ n) (hx : x < n) : x / d * d + d ≤ n := by
  have hq := Nat.div_lt_div_of_lt_of_dvd hd hx
  calc x / d * d + d = (x / d + 1) * d := by ring
    _ ≤ n / d * d := Nat.mul_le_mul_right d hq
    _ = n := Nat.div_mul_cancel hd

/-- a value at most one modulus outside `[0, m)` is brought back by one addition or subtraction of `m` -/
theorem emod_of_wrap_once {v m : ℤ} (h1 : -m ≤ v) (h2 : v < 2 * m) :
    v % m = if v < 0 then v + m else if v < m then v else v - m := by
  split_ifs with hneg hlt
  · rw [← Int.add_emod_right]
    exact Int.emod_eq_of_lt (by omega) (by omega)
  · exact Int.emod_eq_of_lt (by omega) hlt
  · rw [← Int.sub_emod_right]
    exact Int.emod_eq_of_lt (by omega) (by omega)

/-! ## Convergent rounding -/

/-- `x` rounded to a multiple of `2 ^ (k + 1)`: up when the bits below are more than half, and on a tie to the even
multiple -/
def roundHalfEven (k x : ℕ) : ℕ :=
  let q := x / 2 ^ (k + 1)
  let r := x % 2 ^ (k + 1)
  (if 2 ^ k < r ∨ (r = 2 ^ k ∧ q % 2 = 1) then q + 1 else q) * 2 ^ (k + 1)

variable {k : ℕ}

end Words
