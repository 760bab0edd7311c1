import Mathlib
/-!
# Bit reversal and reverse-carry addition

`bitRev n x` is the low `n` bits of `x` in reverse order (`testBit_bitRev`). Reverse-carry addition on `w`-bit words
is addition with its carries running from the top bit down: the ordinary sum of the reversed words, reversed back
(`revCarryAdd`). Adding `2 ^ j` so keeps the bits above `j` and steps the low `j + 1` bits, read backwards, by one
(`revCarryAdd_two_pow`, with `revInc` the step). Repeated, the steps count through the reversed numbers
(`iterate_revInc`), so `2 ^ n` of them from any start visit every `n`-bit number once (`bitRev_rotate_perm`).

The loop that reverses bits in place, setting bit `n - 1 - i` of an accumulator for every set bit `i` of `x`, computes
the accumulator or'ed with `bitRev n x` (`foldl_setMirrored`).
-/

namespace BitReverse

/-- the low `n` bits of `x` in reverse order -/
def bitRev : ℕ → ℕ → ℕ
  | 0, _ => 0
  | n + 1, x => bitRev n (x / 2) + 2 ^ n * (x % 2)

/-- one step of a counter kept in the reversed low `n` bits of `x`: the carry runs from bit `n - 1` down -/
def revInc (n x : ℕ) : ℕ := bitRev n ((bitRev n x + 1) % 2 ^ n)

/-- reverse-carry addition of `w`-bit words -/
def revCarryAdd (w r a : ℕ) : ℕ := bitRev w ((bitRev w r + bitRev w a) % 2 ^ w)

example : (List.range 8).map (bitRev 3) = [0, 4, 2, 6, 1, 5, 3, 7] := by decide

theorem bitRev_lt (n x : ℕ) : bitRev n x < 2 ^ n := by
  induction n generalizing x with
  | zero => simp [bitRev]
  | succ n ih =>
    have h := ih (x / 2)
    have hx : x % 2 ≤ 1 := Nat.le_of_lt_succ (Nat.mod_lt x (by decide))
    rw [bitRev, Nat.pow_succ]
    nlinarith

theorem bitRev_zero_right (n : ℕ) : bitRev n 0 = 0 := by
  induction n with
  | zero => rfl
  | succ n ih => rw [bitRev, Nat.zero_div, ih]; rfl

/-- bit `i` of the reversal is bit `n - 1 - i` of `x`, and there are no bits from `n` up -/
theorem testBit_bitRev (n x i : ℕ) : (bitRev n x).testBit i = (decide (i < n) && x.testBit (n - 1 - i)) := by
  induction n generalizing x i with
  | zero => simp [bitRev]
  | succ n ih =>
    rw [bitRev, Nat.add_comm, Nat.testBit_two_pow_mul_add _ (bitRev_lt n _)]
    split_ifs with hi
    · -- below the new top bit: the bits of `x / 2`, one place further up in `x`
      rw [ih, Nat.testBit_div_two, show n - 1 - i + 1 = n + 1 - 1 - i by omega]
      simp [hi, Nat.lt_succ_of_lt hi]
    · -- the new top bit is bit 0 of `x`; nothing lies above it
      rcases Nat.eq_or_lt_of_le (Nat.le_of_not_lt hi) with rfl | hlt
      · simp only [Nat.sub_self, show n + 1 - 1 - n = 0 by omega, Nat.testBit_zero, Nat.mod_mod, Nat.lt_succ_self,
          decide_true, Bool.true_and]
      · have h2 : x % 2 < 2 ^ (i - n) := lt_of_lt_of_le (Nat.mod_lt x (by decide))
          (Nat.le_self_pow (by omega) 2)
        rw [Nat.testBit_lt_two_pow h2]
        simp only [Bool.false_eq, Bool.and_eq_false_imp, decide_eq_true_eq]
        omega

/-- the reversal reads the low `n` bits only -/
theorem bitRev_mod (n x : ℕ) : bitRev n (x % 2 ^ n) = bitRev n x := by
  apply Nat.eq_of_testBit_eq
  intro i
  rw [testBit_bitRev, testBit_bitRev, Nat.testBit_mod_two_pow]
  by_cases hi : i < n
  · simp [hi, show n - 1 - i < n by omega]
  · simp [hi]

/-- reversing twice gives back every number below `2 ^ n` -/
theorem bitRev_bitRev {n x : ℕ} (hx : x < 2 ^ n) : bitRev n (bitRev n x) = x := by
  apply Nat.eq_of_testBit_eq
  intro i
  rw [testBit_bitRev]
  by_cases hi : i < n
  · rw [testBit_bitRev, show n - 1 - (n - 1 - i) = i by omega]
    simp [hi, show n - 1 - i < n by omega]
  · have hx' : x < 2 ^ i := lt_of_lt_of_le hx (Nat.pow_le_pow_right (by decide) (by omega))
    simp [hi, Nat.testBit_lt_two_pow hx']

theorem bitRev_injOn {n x y : ℕ} (hx : x < 2 ^ n) (hy : y < 2 ^ n) (h : bitRev n x = bitRev n y) : x = y := by
  rw [← bitRev_bitRev hx, ← bitRev_bitRev hy, h]

/-- the `b` low bits of `x` become the top `b` bits of its `(l + b)`-bit reversal, above the reversal of the next `l`
bits -/
theorem bitRev_add (l b x : ℕ) : bitRev (l + b) x = bitRev l (x / 2 ^ b) + 2 ^ l * bitRev b (x % 2 ^ b) := by
  induction b generalizing x with
  | zero => simp [bitRev]
  | succ b ih =>
    rw [← Nat.add_assoc, bitRev, ih, bitRev, Nat.div_div_eq_div_mul, Nat.pow_succ', Nat.mod_mul_right_div_self,
      Nat.mod_mod_of_dvd _ ⟨2 ^ b, rfl⟩, Nat.pow_add, Nat.mul_add, Nat.add_assoc, Nat.mul_assoc]

/-- the reversal of a single bit `j` over `j + 1` bits is bit 0 -/
theorem bitRev_two_pow (j : ℕ) : bitRev (j + 1) (2 ^ j) = 1 := by
  induction j with
  | zero => rfl
  | succ j ih =>
    rw [bitRev, Nat.pow_succ, Nat.mul_div_cancel _ (by decide), ih, Nat.mul_mod_left, Nat.mul_zero]

/-! ## Counting in reverse -/

theorem revInc_mod (n x : ℕ) : revInc n (x % 2 ^ n) = revInc n x := by
  rw [revInc, revInc, bitRev_mod n x]

theorem revInc_bitRev {n c : ℕ} (hc : c < 2 ^ n) : revInc n (bitRev n c) = bitRev n ((c + 1) % 2 ^ n) := by
  rw [revInc, bitRev_bitRev hc]

/-- `k` reverse-carry increments add `k` to the reversed count -/
theorem iterate_revInc {n c : ℕ} (hc : c < 2 ^ n) (k : ℕ) :
    (revInc n)^[k] (bitRev n c) = bitRev n ((c + k) % 2 ^ n) := by
  induction k with
  | zero => rw [Function.iterate_zero_apply, Nat.add_zero, Nat.mod_eq_of_lt hc]
  | succ k ih =>
    rw [Function.iterate_succ_apply', ih, revInc_bitRev (Nat.mod_lt _ (Nat.two_pow_pos n)), Nat.mod_add_mod,
      Nat.add_assoc]

/-- from any start, `2 ^ n` steps of the reversed count visit every `n`-bit number once -/
theorem bitRev_rotate_perm {n c : ℕ} (hc : c < 2 ^ n) :
    ((List.range (2 ^ n)).map fun k => bitRev n ((c + k) % 2 ^ n)).Perm (List.range (2 ^ n)) := by
  have hpos := Nat.two_pow_pos n
  rw [List.perm_ext_iff_of_nodup _ List.nodup_range]
  · intro a
    simp only [List.mem_map, List.mem_range]
    constructor
    · rintro ⟨k, -, rfl⟩
      exact bitRev_lt n _
    · intro ha
      -- the step count that reaches `a` is the distance from `c` to the reversal of `a`, around `2 ^ n`
      refine ⟨(bitRev n a + (2 ^ n - c)) % 2 ^ n, Nat.mod_lt _ hpos, ?_⟩
      have hsum : (c + (bitRev n a + (2 ^ n - c)) % 2 ^ n) % 2 ^ n = bitRev n a := by
        rw [Nat.add_mod_mod, show c + (bitRev n a + (2 ^ n - c)) = bitRev n a + 2 ^ n by omega, Nat.add_mod_right,
          Nat.mod_eq_of_lt (bitRev_lt n a)]
      rw [hsum, bitRev_bitRev ha]
  · refine List.Nodup.map_on ?_ List.nodup_range
    intro k hk k' hk' h
    rw [List.mem_range] at hk hk'
    have hmod := bitRev_injOn (Nat.mod_lt _ hpos) (Nat.mod_lt _ hpos) h
    have hkk : k % 2 ^ n = k' % 2 ^ n := Nat.ModEq.add_left_cancel' c hmod
    rwa [Nat.mod_eq_of_lt hk, Nat.mod_eq_of_lt hk'] at hkk

/-! ## Reverse-carry addition of a power of two -/

/-- `a` below `2 ^ l` and `2 ^ l * c` split apart again at bit `l` -/
theorem add_two_pow_mul_div {l a : ℕ} (ha : a < 2 ^ l) (c : ℕ) : (a + 2 ^ l * c) / 2 ^ l = c := by
  rw [Nat.add_mul_div_left _ _ (Nat.two_pow_pos l), Nat.div_eq_of_lt ha, Nat.zero_add]

theorem add_two_pow_mul_mod {l a : ℕ} (ha : a < 2 ^ l) (c : ℕ) : (a + 2 ^ l * c) % 2 ^ l = a := by
  rw [Nat.add_mul_mod_self_left, Nat.mod_eq_of_lt ha]

/-- replacing the low `b` bits of a number below `2 ^ w` keeps it below `2 ^ w` -/
theorem two_pow_mul_div_add_lt {w b r y : ℕ} (hb : b ≤ w) (hr : r < 2 ^ w) (hy : y < 2 ^ b) :
    2 ^ b * (r / 2 ^ b) + y < 2 ^ w := by
  have hw : 2 ^ w = 2 ^ b * 2 ^ (w - b) := by rw [← Nat.pow_add, Nat.add_sub_cancel' hb]
  have hq : r / 2 ^ b < 2 ^ (w - b) := by
    rw [Nat.div_lt_iff_lt_mul (Nat.two_pow_pos b), Nat.mul_comm, ← hw]
    exact hr
  calc 2 ^ b * (r / 2 ^ b) + y < 2 ^ b * (r / 2 ^ b) + 2 ^ b := by omega
    _ = 2 ^ b * (r / 2 ^ b + 1) := by rw [Nat.mul_succ]
    _ ≤ 2 ^ b * 2 ^ (w - b) := Nat.mul_le_mul_left _ hq
    _ = 2 ^ w := hw.symm

/-- adding `2 ^ j` with reverse carry keeps the bits above `j` and steps the low `j + 1` bits as a reversed counter -/
theorem revCarryAdd_two_pow {w j r : ℕ} (hj : j < w) (hr : r < 2 ^ w) :
    revCarryAdd w r (2 ^ j) = 2 ^ (j + 1) * (r / 2 ^ (j + 1)) + revInc (j + 1) r := by
  obtain ⟨l, rfl⟩ : ∃ l, w = l + (j + 1) := ⟨w - (j + 1), by omega⟩
  have hlo := bitRev_lt l (r / 2 ^ (j + 1))
  have hhi : r / 2 ^ (j + 1) < 2 ^ l := by
    rw [Nat.div_lt_iff_lt_mul (Nat.two_pow_pos _), ← Nat.pow_add]
    exact hr
  -- the reversed words: the high bits of `r` reversed below bit `l`, its low bits reversed above
  have hrev : bitRev (l + (j + 1)) r + bitRev (l + (j + 1)) (2 ^ j) =
      bitRev l (r / 2 ^ (j + 1)) + 2 ^ l * (bitRev (j + 1) (r % 2 ^ (j + 1)) + 1) := by
    rw [bitRev_add, bitRev_add l, Nat.div_eq_of_lt (Nat.pow_lt_pow_right (by decide) (Nat.lt_succ_self j)),
      Nat.mod_eq_of_lt (Nat.pow_lt_pow_right (by decide) (Nat.lt_succ_self j)), bitRev_zero_right, bitRev_two_pow]
    ring
  -- the carry out of the top is dropped: only the count in the top `j + 1` bits wraps
  have hsum : (bitRev (l + (j + 1)) r + bitRev (l + (j + 1)) (2 ^ j)) % 2 ^ (l + (j + 1)) =
      bitRev l (r / 2 ^ (j + 1)) + 2 ^ l * ((bitRev (j + 1) (r % 2 ^ (j + 1)) + 1) % 2 ^ (j + 1)) := by
    rw [hrev, Nat.pow_add 2 l (j + 1)]
    conv_lhs => rw [← Nat.mod_add_div (bitRev (j + 1) (r % 2 ^ (j + 1)) + 1) (2 ^ (j + 1))]
    rw [Nat.mul_add, ← Nat.add_assoc, ← Nat.mul_assoc, Nat.add_mul_mod_self_left, Nat.mod_eq_of_lt]
    calc bitRev l (r / 2 ^ (j + 1)) + 2 ^ l * ((bitRev (j + 1) (r % 2 ^ (j + 1)) + 1) % 2 ^ (j + 1))
        < 2 ^ l + 2 ^ l * ((bitRev (j + 1) (r % 2 ^ (j + 1)) + 1) % 2 ^ (j + 1)) := by omega
      _ = 2 ^ l * ((bitRev (j + 1) (r % 2 ^ (j + 1)) + 1) % 2 ^ (j + 1) + 1) := by ring
      _ ≤ 2 ^ l * 2 ^ (j + 1) := Nat.mul_le_mul_left _ (Nat.mod_lt _ (Nat.two_pow_pos _))
  rw [revCarryAdd, hsum, Nat.add_comm l, bitRev_add, add_two_pow_mul_div hlo, add_two_pow_mul_mod hlo,
    bitRev_bitRev hhi, Nat.add_comm, revInc, bitRev_mod (j + 1) r]

/-! ## The in-place reversal loop -/

/-- one round of the loop: set the mirror of bit `i` of `x` -/
def setMirrored (n x v i : ℕ) : ℕ := if x.testBit i then v ||| 1 <<< (n - i - 1) else v

/-- after `m` rounds the mirrors of the low `m` bits of `x` are set, which are bits `n - m` to `n - 1` -/
theorem testBit_foldl_setMirrored {n m : ℕ} (hm : m ≤ n) (x v p : ℕ) :
    ((List.range m).foldl (setMirrored n x) v).testBit p =
      (v.testBit p || decide (n - m ≤ p ∧ p < n) && x.testBit (n - 1 - p)) := by
  induction m with
  | zero => simp [show ¬(n ≤ p ∧ p < n) by omega]
  | succ m ih =>
    rw [List.range_succ, List.foldl_append, List.foldl_cons, List.foldl_nil, setMirrored]
    have ih := ih (by omega)
    split_ifs with hx
    · rw [Nat.testBit_or, ih, Nat.one_shiftLeft, Nat.testBit_two_pow]
      -- the new bit is the mirror `n - m - 1` of bit `m`, which is set
      by_cases hp : p = n - m - 1
      · subst hp
        simp [show n - 1 - (n - m - 1) = m by omega, hx, show n - (m + 1) ≤ n - m - 1 by omega,
          show n - m - 1 < n by omega]
      · have hiff : decide (n - (m + 1) ≤ p ∧ p < n) = decide (n - m ≤ p ∧ p < n) := by
          simp only [decide_eq_decide]
          omega
        rw [hiff]
        simp [Ne.symm hp]
    · rw [ih]
      -- bit `m` is clear, so its mirror adds nothing
      by_cases hp : p = n - m - 1
      · subst hp
        simp [show n - 1 - (n - m - 1) = m by omega, hx]
      · have hiff : decide (n - (m + 1) ≤ p ∧ p < n) = decide (n - m ≤ p ∧ p < n) := by
          simp only [decide_eq_decide]
          omega
        rw [hiff]

/-- the in-place reversal loop computes the start or'ed with the reversal -/
theorem foldl_setMirrored (n x v : ℕ) : (List.range n).foldl (setMirrored n x) v = v ||| bitRev n x := by
  apply Nat.eq_of_testBit_eq
  intro p
  rw [testBit_foldl_setMirrored le_rfl, Nat.testBit_or, testBit_bitRev, Nat.sub_self]
  simp

end BitReverse
