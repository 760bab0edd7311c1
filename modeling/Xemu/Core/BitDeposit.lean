import Mathlib
/-!
# Bit deposit

The `k`-bit parallel deposit of an index into a mask: `deposit k m i` is the `i`-th number, in increasing order,
whose set bits all lie in the mask `m`. Z-order (Morton) addressing is built from it: each coordinate is deposited
into its own mask, and the masks split the low bits among the coordinates.

What makes the incremental form of the addressing work is `deposit_next`: the `k`-bit step
`o ↦ ((o - m) mod 2^k) & m` takes the `i`-th masked number to the `(i+1)`-th, so a loop that starts from `0` and
applies the step once per iteration visits `deposit k m 0, deposit k m 1, ...`. `deposit_injective` says that the
first `2 ^ bitCount k m` of these are distinct. `Partition` records three masks that split the low `n` bits, as the
masks of a three-dimensional Z-order do, and `Partition.land_sum_left` recovers each deposited part from the sum.
-/

namespace BitDeposit

/-! ## The low bit of bitwise operations -/

/-- conjunction of two numbers, split at the low bit -/
theorem land_split (a b : ℕ) : a &&& b = 2 * (a / 2 &&& b / 2) + a % 2 * (b % 2) := by
  have hlow : (a &&& b) % 2 = a % 2 * (b % 2) := by
    have h := @Nat.and_mod_two_eq_one a b
    rcases Nat.mod_two_eq_zero_or_one a with ha | ha <;>
      rcases Nat.mod_two_eq_zero_or_one b with hb | hb <;>
      rcases Nat.mod_two_eq_zero_or_one (a &&& b) with hab | hab <;> simp_all
  rw [← Nat.and_div_two, ← hlow]
  omega

/-- the low bit of a disjunction -/
theorem lor_mod_two (a b : ℕ) : (a ||| b) % 2 = a % 2 + b % 2 - a % 2 * (b % 2) := by
  have h := @Nat.or_mod_two_eq_one a b
  rcases Nat.mod_two_eq_zero_or_one a with ha | ha <;>
    rcases Nat.mod_two_eq_zero_or_one b with hb | hb <;>
    rcases Nat.mod_two_eq_zero_or_one (a ||| b) with hab | hab <;> simp_all

/-- a number with a known low bit, conjoined with a mask -/
theorem two_mul_add_land {a r : ℕ} (hr : r < 2) (m : ℕ) :
    (2 * a + r) &&& m = 2 * (a &&& m / 2) + r * (m % 2) := by
  have h1 : (2 * a + r) / 2 = a := by omega
  have h2 : (2 * a + r) % 2 = r := by omega
  rw [land_split, h1, h2]

/-- conjunction of two numbers cut at bit `k`: the parts above and below the cut are combined separately, as the
fields of a machine word are -/
theorem land_mul_two_pow_add (a c : ℕ) {b d k : ℕ} (hb : b < 2 ^ k) (hd : d < 2 ^ k) :
    (a * 2 ^ k + b) &&& (c * 2 ^ k + d) = (a &&& c) * 2 ^ k + (b &&& d) := by
  induction k generalizing b d with
  | zero =>
    have hb0 : b = 0 := by simpa using hb
    have hd0 : d = 0 := by simpa using hd
    simp [hb0, hd0]
  | succ k ih =>
    -- split both numbers at the low bit and recurse on the rest
    have hk : 2 ^ (k + 1) = 2 ^ k * 2 := Nat.pow_succ 2 k
    have hb' : b / 2 < 2 ^ k := by omega
    have hd' : d / 2 < 2 ^ k := by omega
    have hx : (a * 2 ^ (k + 1) + b) / 2 = a * 2 ^ k + b / 2 := by rw [hk, ← Nat.mul_assoc]; omega
    have hy : (c * 2 ^ (k + 1) + d) / 2 = c * 2 ^ k + d / 2 := by rw [hk, ← Nat.mul_assoc]; omega
    have hx2 : (a * 2 ^ (k + 1) + b) % 2 = b % 2 := by rw [hk, ← Nat.mul_assoc]; omega
    have hy2 : (c * 2 ^ (k + 1) + d) % 2 = d % 2 := by rw [hk, ← Nat.mul_assoc]; omega
    rw [land_split, hx, hy, hx2, hy2, ih hb' hd', land_split b d, hk, ← Nat.mul_assoc]
    omega

/-- a mask below bit `k` reads only the low part -/
theorem mul_two_pow_add_land (a : ℕ) {b d k : ℕ} (hb : b < 2 ^ k) (hd : d < 2 ^ k) :
    (a * 2 ^ k + b) &&& d = b &&& d := by
  have h := land_mul_two_pow_add a 0 hb hd
  rwa [Nat.zero_mul, Nat.zero_add, Nat.and_zero, Nat.zero_mul, Nat.zero_add] at h

/-- a number below bit `k` reads only the low part of a mask -/
theorem land_mul_two_pow_add_of_lt (c : ℕ) {x d k : ℕ} (hx : x < 2 ^ k) (hd : d < 2 ^ k) :
    x &&& (c * 2 ^ k + d) = x &&& d := by
  have h := land_mul_two_pow_add 0 c hx hd
  rwa [Nat.zero_mul, Nat.zero_add, Nat.zero_and, Nat.zero_mul, Nat.zero_add] at h

/-- an even number reduced modulo a power of two above the low bit -/
theorem two_mul_mod_two_pow_succ (a k : ℕ) : 2 * a % 2 ^ (k + 1) = 2 * (a % 2 ^ k) := by
  rw [pow_succ, mul_comm (2 ^ k) 2, Nat.mul_mod_mul_left]

/-- two numbers with no common set bit: their sum is their disjunction -/
theorem add_eq_lor_of_land_eq_zero {a b : ℕ} (h : a &&& b = 0) : a + b = a ||| b := by
  induction a using Nat.strong_induction_on generalizing b with
  | _ a ih =>
    rcases Nat.eq_zero_or_pos a with rfl | ha
    · simp
    · have hs := land_split a b
      rw [h] at hs
      have hhi : a / 2 &&& b / 2 = 0 := by omega
      have hlo : a % 2 * (b % 2) = 0 := by omega
      have hrec := ih (a / 2) (by omega) hhi
      have hsplit := Nat.div_add_mod (a ||| b) 2
      rw [Nat.or_div_two, ← hrec, lor_mod_two, hlo] at hsplit
      omega

/-- two numbers with no common set bit: their exclusive or is their disjunction -/
theorem lxor_eq_lor_of_land_eq_zero {a b : ℕ} (h : a &&& b = 0) : a ^^^ b = a ||| b := by
  apply Nat.eq_of_testBit_eq
  intro i
  have hi := congrArg (fun t => Nat.testBit t i) h
  simp only [Nat.testBit_and, Nat.zero_testBit, Bool.and_eq_false_iff] at hi
  rw [Nat.testBit_xor, Nat.testBit_or]
  rcases hi with hi | hi <;> simp [hi]

/-- a power of two has no bit in common with a smaller number -/
theorem two_pow_land_of_lt {y n : ℕ} (hy : y < 2 ^ n) : 2 ^ n &&& y = 0 := by
  apply Nat.eq_of_testBit_eq
  intro i
  rw [Nat.testBit_and, Nat.testBit_two_pow, Nat.zero_testBit]
  by_cases hni : n = i
  · subst hni
    simp [Nat.testBit_lt_two_pow hy]
  · simp [hni]

/-- setting bit `n` of a number below `2 ^ n` leaves its conjunction with another such number alone -/
theorem add_two_pow_land {x y n : ℕ} (hx : x < 2 ^ n) (hy : y < 2 ^ n) : (x + 2 ^ n) &&& y = x &&& y := by
  have hor : x + 2 ^ n = 2 ^ n ||| x := by
    have h := Nat.two_pow_add_eq_or_of_lt hx 1
    rw [mul_one] at h
    omega
  rw [hor, Nat.and_or_distrib_right, two_pow_land_of_lt hy, Nat.zero_or]

/-- conjunction of two numbers that lie in disjoint masks -/
theorem land_eq_zero_of_submask {a b m m' : ℕ} (ha : a &&& m = a) (hb : b &&& m' = b) (hm : m &&& m' = 0) :
    a &&& b = 0 := by
  rw [← ha, ← hb, Nat.and_assoc, ← Nat.and_assoc m, Nat.and_comm m b, Nat.and_assoc b, hm, Nat.and_zero,
    Nat.and_zero]

/-! ## Bit count -/

/-- the number of set bits among the low `k` bits of `m` -/
def bitCount : ℕ → ℕ → ℕ
  | 0, _ => 0
  | k + 1, m => m % 2 + bitCount k (m / 2)

@[simp]
theorem bitCount_zero_mask (k : ℕ) : bitCount k 0 = 0 := by
  induction k with
  | zero => rfl
  | succ k ih => simp [bitCount, ih]

/-- setting a fresh bit below `k` adds one to the count -/
theorem bitCount_two_pow_add {q x k : ℕ} (hx : x < 2 ^ q) (hq : q < k) :
    bitCount k (2 ^ q + x) = bitCount k x + 1 := by
  induction q generalizing k x with
  | zero =>
    obtain ⟨k, rfl⟩ : ∃ k', k = k' + 1 := ⟨k - 1, by omega⟩
    have hx0 : x = 0 := by simpa using hx
    subst hx0
    simp [bitCount]
  | succ q ih =>
    obtain ⟨k, rfl⟩ : ∃ k', k = k' + 1 := ⟨k - 1, by omega⟩
    have hpow : 2 ^ (q + 1) = 2 * 2 ^ q := by rw [pow_succ]; omega
    have hmod : (2 ^ (q + 1) + x) % 2 = x % 2 := by omega
    have hdiv : (2 ^ (q + 1) + x) / 2 = 2 ^ q + x / 2 := by omega
    have hrec := @ih (x / 2) k (by omega) (by omega)
    simp only [bitCount, hmod, hdiv, hrec]
    omega

/-! ## Deposit -/

/-- the `i`-th number whose set bits lie in the low `k` bits of the mask `m`: the low bits of `i`, placed in order at
the set bits of `m` -/
def deposit : ℕ → ℕ → ℕ → ℕ
  | 0, _, _ => 0
  | k + 1, m, i => if m % 2 = 1 then 2 * deposit k (m / 2) (i / 2) + i % 2 else 2 * deposit k (m / 2) i

theorem deposit_succ_of_odd {m : ℕ} (hm : m % 2 = 1) (k i : ℕ) :
    deposit (k + 1) m i = 2 * deposit k (m / 2) (i / 2) + i % 2 := by
  simp [deposit, hm]

theorem deposit_succ_of_even {m : ℕ} (hm : m % 2 = 0) (k i : ℕ) :
    deposit (k + 1) m i = 2 * deposit k (m / 2) i := by
  simp [deposit, hm]

@[simp]
theorem deposit_zero_index (k m : ℕ) : deposit k m 0 = 0 := by
  induction k generalizing m with
  | zero => rfl
  | succ k ih => simp [deposit, ih]

/-- the deposited number lies in the mask -/
theorem deposit_land (k m i : ℕ) : deposit k m i &&& m = deposit k m i := by
  induction k generalizing m i with
  | zero => simp [deposit]
  | succ k ih =>
    rcases Nat.mod_two_eq_zero_or_one m with hm | hm
    · rw [deposit_succ_of_even hm, ← add_zero (2 * _), two_mul_add_land (by omega), ih, hm, mul_zero]
    · rw [deposit_succ_of_odd hm, two_mul_add_land (by omega), ih, hm, mul_one]

theorem deposit_le (k m i : ℕ) : deposit k m i ≤ m := by
  rw [← deposit_land]
  exact Nat.and_le_right

/-- a submask `o` of `m`, with every bit outside `m` filled in, keeps `o` as its part inside `m` -/
theorem land_add_complement {k m o : ℕ} (hm : m < 2 ^ k) (ho : o &&& m = o) : (o + (2 ^ k - 1 - m)) &&& m = o := by
  induction k generalizing m o with
  | zero =>
    have hm0 : m = 0 := by simpa using hm
    subst hm0
    rw [Nat.and_zero] at ho ⊢
    exact ho
  | succ k ih =>
    have hpow : 2 ^ (k + 1) = 2 * 2 ^ k := by rw [pow_succ]; omega
    have hsplit := land_split o m
    rw [ho] at hsplit
    -- the upper bits of `o` are a submask of the upper bits of `m`, and its low bit is at most that of `m`
    have hup : o / 2 &&& m / 2 = o / 2 := by
      rcases Nat.mod_two_eq_zero_or_one m with hm2 | hm2 <;> simp only [hm2] at hsplit <;> omega
    have hlow : o % 2 ≤ m % 2 := by
      rcases Nat.mod_two_eq_zero_or_one m with hm2 | hm2 <;> simp only [hm2] at hsplit <;> omega
    have hle : o / 2 ≤ m / 2 := by
      rw [← hup]
      exact Nat.and_le_right
    have hsum : o + (2 ^ (k + 1) - 1 - m) = 2 * (o / 2 + (2 ^ k - 1 - m / 2)) + (o % 2 + 1 - m % 2) := by
      omega
    rw [hsum, two_mul_add_land (by omega), ih (by omega) hup]
    rcases Nat.mod_two_eq_zero_or_one m with hm2 | hm2 <;> rw [hm2] <;> omega

/-- the bit trick of Z-order addressing: the `k`-bit `(o - m) & m` steps from the `i`-th number in the mask to the
`(i+1)`-th -/
def nextMasked (k m o : ℕ) : ℕ := ((o + 2 ^ k - m) % 2 ^ k) &&& m

theorem deposit_next {k m : ℕ} (hm : m < 2 ^ k) (i : ℕ) :
    nextMasked k m (deposit k m i) = deposit k m (i + 1) := by
  induction k generalizing m i with
  | zero =>
    have hm0 : m = 0 := by simpa using hm
    subst hm0
    simp [nextMasked, deposit]
  | succ k ih =>
    have hpow : 2 ^ (k + 1) = 2 * 2 ^ k := by rw [pow_succ]; omega
    have hm' : m / 2 < 2 ^ k := by omega
    have hle := deposit_le k (m / 2) (i / 2)
    unfold nextMasked at ih ⊢
    rcases Nat.mod_two_eq_zero_or_one m with hm2 | hm2
    · -- the mask skips the low bit: the step acts on the upper bits alone
      rw [deposit_succ_of_even hm2, deposit_succ_of_even hm2]
      have hsum : 2 * deposit k (m / 2) i + 2 ^ (k + 1) - m = 2 * (deposit k (m / 2) i + 2 ^ k - m / 2) := by
        omega
      rw [hsum, two_mul_mod_two_pow_succ, ← add_zero (2 * _), two_mul_add_land (by omega), ih hm', hm2, mul_zero,
        add_zero]
    · rw [deposit_succ_of_odd hm2, deposit_succ_of_odd hm2]
      rcases Nat.mod_two_eq_zero_or_one i with hi | hi
      · -- even index: the low bit is set, no carry, and the upper bits stay as they are
        have hsum : 2 * deposit k (m / 2) (i / 2) + i % 2 + 2 ^ (k + 1) - m =
            2 * (deposit k (m / 2) (i / 2) + (2 ^ k - 1 - m / 2)) + 1 := by
          omega
        have hlt : 2 * (deposit k (m / 2) (i / 2) + (2 ^ k - 1 - m / 2)) + 1 < 2 ^ (k + 1) := by omega
        rw [hsum, Nat.mod_eq_of_lt hlt, two_mul_add_land (by omega),
          land_add_complement hm' (deposit_land k (m / 2) (i / 2)), hm2]
        have hdiv : (i + 1) / 2 = i / 2 := by omega
        rw [hdiv]
        omega
      · -- odd index: the low bit clears and carries into the upper bits
        have hsum : 2 * deposit k (m / 2) (i / 2) + i % 2 + 2 ^ (k + 1) - m =
            2 * (deposit k (m / 2) (i / 2) + 2 ^ k - m / 2) := by
          omega
        rw [hsum, two_mul_mod_two_pow_succ, ← add_zero (2 * _), two_mul_add_land (by omega), ih hm', hm2]
        have hdiv : (i + 1) / 2 = i / 2 + 1 := by omega
        rw [hdiv]
        omega

/-- the first `2 ^ bitCount k m` deposits are distinct -/
theorem deposit_injective {k m i j : ℕ} (hi : i < 2 ^ bitCount k m) (hj : j < 2 ^ bitCount k m)
    (h : deposit k m i = deposit k m j) : i = j := by
  induction k generalizing m i j with
  | zero =>
    simp only [bitCount, pow_zero] at hi hj
    omega
  | succ k ih =>
    rcases Nat.mod_two_eq_zero_or_one m with hm | hm
    · simp only [bitCount, hm, zero_add] at hi hj
      rw [deposit_succ_of_even hm, deposit_succ_of_even hm] at h
      exact ih hi hj (by omega)
    · simp only [bitCount, hm, pow_add, pow_one] at hi hj
      rw [deposit_succ_of_odd hm, deposit_succ_of_odd hm] at h
      have hhigh := @ih (m / 2) (i / 2) (j / 2) (by omega) (by omega) (by omega)
      omega

/-! ## Three masks splitting the low bits -/

/-- three masks that split the low `n` bits: no bit lies in two of them, and together they are all `n` bits -/
structure Partition (x y z n : ℕ) : Prop where
  cover : x + y + z + 1 = 2 ^ n
  xy : x &&& y = 0
  xz : x &&& z = 0
  yz : y &&& z = 0

namespace Partition

variable {x y z n : ℕ}

theorem zero : Partition 0 0 0 0 := ⟨rfl, rfl, rfl, rfl⟩

theorem swap12 (h : Partition x y z n) : Partition y x z n :=
  ⟨by have := h.cover; omega, by rw [Nat.and_comm]; exact h.xy, h.yz, h.xz⟩

theorem swap13 (h : Partition x y z n) : Partition z y x n :=
  ⟨by have := h.cover; omega, by rw [Nat.and_comm]; exact h.yz, by rw [Nat.and_comm]; exact h.xz,
    by rw [Nat.and_comm]; exact h.xy⟩

/-- giving the next bit to the first mask -/
theorem claim (h : Partition x y z n) : Partition (x + 2 ^ n) y z (n + 1) := by
  have hc := h.cover
  have hpow : 2 ^ (n + 1) = 2 * 2 ^ n := by rw [pow_succ]; omega
  refine ⟨by omega, ?_, ?_, h.yz⟩
  · rw [add_two_pow_land (by omega) (by omega), h.xy]
  · rw [add_two_pow_land (by omega) (by omega), h.xz]

/-- giving the next bit to the second mask -/
theorem claim_mid (h : Partition x y z n) : Partition x (y + 2 ^ n) z (n + 1) :=
  h.swap12.claim.swap12

/-- giving the next bit to the last mask -/
theorem claim_last (h : Partition x y z n) : Partition x y (z + 2 ^ n) (n + 1) :=
  h.swap13.claim.swap13

theorem lt_left (h : Partition x y z n) : x < 2 ^ n := by
  have := h.cover
  omega

/-- the three masks together, as the code's exclusive or -/
theorem lxor (h : Partition x y z n) : x ^^^ y ^^^ z = 2 ^ n - 1 := by
  have hxy : (x ^^^ y) &&& z = 0 := by
    rw [lxor_eq_lor_of_land_eq_zero h.xy, Nat.and_or_distrib_right, h.xz, h.yz, Nat.zero_or]
  rw [lxor_eq_lor_of_land_eq_zero hxy, lxor_eq_lor_of_land_eq_zero h.xy, ← add_eq_lor_of_land_eq_zero h.xy,
    ← add_eq_lor_of_land_eq_zero]
  · have := h.cover
    omega
  · rw [add_eq_lor_of_land_eq_zero h.xy, Nat.and_or_distrib_right, h.xz, h.yz, Nat.zero_or]

/-- a sum of numbers inside the three masks recovers the part inside the first mask -/
theorem land_sum_left (h : Partition x y z n) {a b c : ℕ} (ha : a &&& x = a) (hb : b &&& y = b)
    (hc : c &&& z = c) : (a + b + c) &&& x = a := by
  have hab : a &&& b = 0 := land_eq_zero_of_submask ha hb h.xy
  have hac : a &&& c = 0 := land_eq_zero_of_submask ha hc h.xz
  have hbc : b &&& c = 0 := land_eq_zero_of_submask hb hc h.yz
  have hbx : b &&& x = 0 := by
    rw [Nat.and_comm]; exact land_eq_zero_of_submask (by rw [Nat.and_self]) hb h.xy
  have hcx : c &&& x = 0 := by
    rw [Nat.and_comm]; exact land_eq_zero_of_submask (by rw [Nat.and_self]) hc h.xz
  have habc : (a + b) &&& c = 0 := by
    rw [add_eq_lor_of_land_eq_zero hab, Nat.and_or_distrib_right, hac, hbc, Nat.zero_or]
  rw [add_eq_lor_of_land_eq_zero habc, add_eq_lor_of_land_eq_zero hab, Nat.and_or_distrib_right,
    Nat.and_or_distrib_right, ha, hbx, hcx, Nat.or_zero, Nat.or_zero]

theorem land_sum_mid (h : Partition x y z n) {a b c : ℕ} (ha : a &&& x = a) (hb : b &&& y = b)
    (hc : c &&& z = c) : (a + b + c) &&& y = b := by
  rw [Nat.add_comm a b]
  exact h.swap12.land_sum_left hb ha hc

theorem land_sum_right (h : Partition x y z n) {a b c : ℕ} (ha : a &&& x = a) (hb : b &&& y = b)
    (hc : c &&& z = c) : (a + b + c) &&& z = c := by
  rw [show a + b + c = c + b + a by omega]
  exact h.swap13.land_sum_left hc hb ha

/-- a sum of numbers inside the three masks stays below `2 ^ n` -/
theorem sum_lt (h : Partition x y z n) {a b c : ℕ} (ha : a ≤ x) (hb : b ≤ y) (hc : c ≤ z) :
    a + b + c < 2 ^ n := by
  have := h.cover
  omega

end Partition

end BitDeposit
