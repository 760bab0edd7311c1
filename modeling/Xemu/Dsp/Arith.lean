import Mathlib
import Xemu.Dsp.Alu
import Xemu.Core.Words
/-!
# The 56-bit helpers as arithmetic

The accumulator helpers of dsp_cpu.c work limb by limb: an addition carries from bit 24 of the `uint32_t` sum of
the low limbs, a subtraction borrows through the `uint32_t` wrap-around, the multiplication adds four 12-bit
partial products. Read as numbers, with `Acc56.val` the 56-bit value of the three limbs and `Acc56.sval` its
two's-complement value:

* `dspAdd56_eq`, `dspSub56_eq`: the sum and the difference modulo `2 ^ 56`, C the carry or the borrow out of bit 55
  and V = L the signed overflow; `dspAbs56_fst`: the magnitude modulo `2 ^ 56`.
* `dspAsl56_fst`: the value shifted left modulo `2 ^ 56`; `dspMul56_spec`: the 56-bit value of `±2xy` for 24-bit
  fractions `x` and `y`, -1.0 included.
* `accumulator_arithmetic_exact` collects them.
* `dspAsr56_eq`: dsp_asr56 shifts the 56 bits as an unsigned number. The sign is not copied in, so a negative
  accumulator shifted right comes out positive: `asr_does_not_replicate_sign`.
* `rnd56_convergent_rounding`: dsp_rnd56 in each scaling mode is `roundHalfEven` at the mode's bit; the hand-written
  tie tests over two limbs detect exactly the ties.
-/

namespace Xemu.Dsp

open Words

/-! ## The value of the three limbs -/

/-- the 56-bit value `dest[0]:dest[1]:dest[2]` -/
def Acc56.val (a : Acc56) : ℕ := a.ext * 2 ^ 48 + a.msp * 2 ^ 24 + a.lsp

/-- the two's-complement value of the accumulator -/
def Acc56.sval (a : Acc56) : ℤ := signedVal 55 a.val

/-- each limb within its width: 8, 24 and 24 bits -/
structure Acc56.InWidth (a : Acc56) : Prop where
  ext : a.ext < 2 ^ 8
  msp : a.msp < 2 ^ 24
  lsp : a.lsp < 2 ^ 24

/-- the limbs of a 56-bit value -/
def Acc56.ofVal (v : ℕ) : Acc56 := ⟨v / 2 ^ 48 % 2 ^ 8, v / 2 ^ 24 % 2 ^ 24, v % 2 ^ 24⟩

/-- the L, V and C bits a helper returns -/
def srBits (l v c : ℕ) : ℕ := (l <<< dspSrL) ||| (v <<< dspSrV) ||| (c <<< dspSrC)

/-- `1` when the condition holds -/
def flag (p : Prop) [Decidable p] : ℕ := if p then 1 else 0

theorem eq_flag {x : ℕ} {p : Prop} [Decidable p] (h1 : p → x = 1) (h0 : ¬p → x = 0) : x = flag p := by
  unfold flag
  split_ifs with hp
  · exact h1 hp
  · exact h0 hp

namespace Acc56

variable {a : Acc56}

theorem val_lt (h : a.InWidth) : a.val < 2 ^ 56 := by
  have := h.ext
  have := h.msp
  have := h.lsp
  unfold val
  omega

@[simp]
theorem val_ofVal (v : ℕ) : (ofVal v).val = v % 2 ^ 56 := by
  simp only [val, ofVal]
  omega

theorem inWidth_ofVal (v : ℕ) : (ofVal v).InWidth :=
  ⟨Nat.mod_lt _ (by decide), Nat.mod_lt _ (by decide), Nat.mod_lt _ (by decide)⟩

theorem ofVal_val (h : a.InWidth) : ofVal a.val = a := by
  have := h.ext
  have := h.msp
  have := h.lsp
  unfold ofVal val
  congr 1 <;> omega

theorem ofVal_mod (v : ℕ) : ofVal (v % 2 ^ 56) = ofVal v := by
  unfold ofVal
  congr 1 <;> omega

/-- the sign bit the helpers read, bit 7 of `dest[0]`, is bit 55 of the value -/
theorem ext_signBit (h : a.InWidth) : (a.ext >>> 7) &&& 1 = signBit 55 a.val := by
  have := h.ext
  have := h.msp
  have := h.lsp
  rw [Nat.shiftRight_eq_div_pow, Nat.and_one_is_mod, signBit, val]
  omega

end Acc56

/-! ## Addition and subtraction -/

/-- bit `k` of a `uint32_t`, as the helpers read it -/
theorem shiftRight_land_one (x k : ℕ) : (x >>> k) &&& 1 = x / 2 ^ k % 2 := by
  rw [Nat.shiftRight_eq_div_pow, Nat.and_one_is_mod]

/-- `x & BITMASK(k)` -/
theorem land_bitmask (x k : ℕ) : x &&& bitmask k = x % 2 ^ k := by
  rw [bitmask, Nat.and_two_pow_sub_one_eq_mod]

/-- dsp_add56 on limbs within their widths: the sum modulo `2 ^ 56`, with the limbs of the result in width -/
theorem dspAdd56_fst {s d : Acc56} (hs : s.InWidth) (hd : d.InWidth) :
    (dspAdd56 s d).1 = Acc56.ofVal (d.val + s.val) := by
  have := hs.ext
  have := hs.msp
  have := hs.lsp
  have := hd.ext
  have := hd.msp
  have := hd.lsp
  simp only [dspAdd56, Acc56.ofVal, Acc56.val, shiftRight_land_one, land_bitmask]
  congr 1 <;> omega

/-- dsp_add56's flags: C the carry out of bit 55, V and L the signed overflow -/
theorem dspAdd56_snd {s d : Acc56} (hs : s.InWidth) (hd : d.InWidth) :
    (dspAdd56 s d).2 = srBits (flag (Overflows 55 (d.sval + s.sval))) (flag (Overflows 55 (d.sval + s.sval)))
      (flag (2 ^ 56 ≤ d.val + s.val)) := by
  have := hs.ext
  have := hs.msp
  have := hs.lsp
  have := hd.ext
  have := hd.msp
  have := hd.lsp
  -- the result's sign bit, read back from the result's limbs
  have hext := congrArg Acc56.ext (dspAdd56_fst hs hd)
  have hovf := add_overflow_bits (s := 55) (Acc56.val_lt hd) (Acc56.val_lt hs)
  have hsignR := Acc56.ext_signBit (Acc56.inWidth_ofVal (d.val + s.val))
  rw [Acc56.val_ofVal] at hsignR
  simp only [dspAdd56] at hext ⊢
  rw [hext, hsignR, Acc56.ext_signBit hs, Acc56.ext_signBit hd, Nat.land_comm, hovf]
  unfold srBits Acc56.sval
  -- the carry out of bit 55 is bit 8 of the `uint32_t` sum of the extensions
  congr 2
  apply eq_flag <;> intro hc <;> simp only [shiftRight_land_one, Acc56.val] at hc ⊢ <;> omega

/-- a `uint32_t` subtraction of values below `2 ^ 32` -/
theorem sub32_eq {a b : ℕ} (hb : b < 2 ^ 32) : sub32 a b = (a + (2 ^ 32 - b)) % 2 ^ 32 := by
  rw [sub32, Nat.mod_eq_of_lt hb]

/-- a `uint32_t` subtraction that does not wrap -/
theorem sub32_of_le {a b : ℕ} (hba : b ≤ a) (ha : a < 2 ^ 32) : sub32 a b = a - b := by
  rw [sub32_eq (by omega)]
  omega

/-- one limb of a subtraction in a `uint32_t`: bit 24 is the borrow, the low 24 bits the difference -/
theorem sub32_limb24 {x y : ℕ} (hx : x < 2 ^ 24) (hy : y ≤ 2 ^ 24) :
    (sub32 x y >>> 24) &&& 1 = flag (x < y) ∧ sub32 x y &&& bitmask 24 = (x + (2 ^ 24 - y)) % 2 ^ 24 := by
  rw [sub32_eq (by omega), shiftRight_land_one, land_bitmask]
  refine ⟨?_, by omega⟩
  apply eq_flag <;> intro h <;> omega

/-- the top limb of a subtraction in a `uint32_t`: bit 8 is the borrow, the low 8 bits the difference -/
theorem sub32_limb8 {x y : ℕ} (hx : x < 2 ^ 8) (hy : y ≤ 2 ^ 8) :
    (sub32 x y >>> 8) &&& 1 = flag (x < y) ∧ sub32 x y &&& bitmask 8 = (x + (2 ^ 8 - y)) % 2 ^ 8 := by
  rw [sub32_eq (by omega), shiftRight_land_one, land_bitmask]
  refine ⟨?_, by omega⟩
  apply eq_flag <;> intro h <;> omega

theorem flag_cases (p : Prop) [Decidable p] : (p ∧ flag p = 1) ∨ (¬p ∧ flag p = 0) := by
  unfold flag
  by_cases hp : p <;> simp [hp]

theorem flag_le_one (p : Prop) [Decidable p] : flag p ≤ 1 := by
  rcases flag_cases p with ⟨_, h⟩ | ⟨_, h⟩ <;> omega

theorem flag_congr {p q : Prop} [Decidable p] [Decidable q] (h : p ↔ q) : flag p = flag q := by
  unfold flag
  exact if_congr h rfl rfl

/-- the overflow bit of `d - s` that dsp_sub56 computes from the sign bits of `s`, `d` and the result -/
def subOverflow (s d : Acc56) : ℕ :=
  (((s.ext >>> 7) &&& 1) ^^^ ((d.ext >>> 7) &&& 1)) &&&
    ((((dspSub56 s d).1.ext >>> 7) &&& 1) ^^^ ((d.ext >>> 7) &&& 1))

/-- dsp_sub56 on limbs within their widths, limb by limb: the borrows of the two lower limbs -/
theorem dspSub56_limbs {s d : Acc56} (hs : s.InWidth) (hd : d.InWidth) :
    (dspSub56 s d).1 = ⟨(d.ext + (2 ^ 8 - (s.ext + flag (d.msp < s.msp + flag (d.lsp < s.lsp))))) % 2 ^ 8,
      (d.msp + (2 ^ 24 - (s.msp + flag (d.lsp < s.lsp)))) % 2 ^ 24, (d.lsp + (2 ^ 24 - s.lsp)) % 2 ^ 24⟩ ∧
    (dspSub56 s d).2 = srBits (subOverflow s d) (subOverflow s d)
      (flag (d.ext < s.ext + flag (d.msp < s.msp + flag (d.lsp < s.lsp)))) := by
  have := hs.ext
  have := hs.msp
  have := hs.lsp
  have := hd.ext
  have := hd.msp
  have := hd.lsp
  have hb2 := flag_le_one (d.lsp < s.lsp)
  have hb1 := flag_le_one (d.msp < s.msp + flag (d.lsp < s.lsp))
  obtain ⟨hc2, hr2⟩ := sub32_limb24 hd.lsp (show s.lsp ≤ 2 ^ 24 by omega)
  obtain ⟨hc1, hr1⟩ := sub32_limb24 hd.msp (show s.msp + flag (d.lsp < s.lsp) ≤ 2 ^ 24 by omega)
  obtain ⟨hc0, hr0⟩ := sub32_limb8 hd.ext (show s.ext + flag (d.msp < s.msp + flag (d.lsp < s.lsp)) ≤ 2 ^ 8 by omega)
  have hm1 : (s.msp + flag (d.lsp < s.lsp)) % 2 ^ 32 = s.msp + flag (d.lsp < s.lsp) := Nat.mod_eq_of_lt (by omega)
  have hm0 : (s.ext + flag (d.msp < s.msp + flag (d.lsp < s.lsp))) % 2 ^ 32 =
      s.ext + flag (d.msp < s.msp + flag (d.lsp < s.lsp)) := Nat.mod_eq_of_lt (by omega)
  have hsave : d.ext % 2 ^ 16 = d.ext := Nat.mod_eq_of_lt (by omega)
  simp only [dspSub56, subOverflow]
  rw [hc2, hm1, hc1, hm0, hr0, hr1, hr2, hc0, hsave]
  exact ⟨rfl, rfl⟩

/-- dsp_sub56 on limbs within their widths: the difference modulo `2 ^ 56` -/
theorem dspSub56_fst {s d : Acc56} (hs : s.InWidth) (hd : d.InWidth) :
    (dspSub56 s d).1 = Acc56.ofVal (d.val + (2 ^ 56 - s.val)) := by
  have := hs.ext
  have := hs.msp
  have := hs.lsp
  have := hd.ext
  have := hd.msp
  have := hd.lsp
  have hb2 := flag_le_one (d.lsp < s.lsp)
  have hb1 := flag_le_one (d.msp < s.msp + flag (d.lsp < s.lsp))
  rw [(dspSub56_limbs hs hd).1]
  simp only [Acc56.ofVal, Acc56.val]
  congr 1 <;> unfold flag at * <;> split_ifs at * <;> omega

/-- dsp_sub56's flags: C the borrow out of bit 55, V and L the signed overflow of `d - s` -/
theorem dspSub56_snd {s d : Acc56} (hs : s.InWidth) (hd : d.InWidth) :
    (dspSub56 s d).2 = srBits (flag (Overflows 55 (d.sval - s.sval))) (flag (Overflows 55 (d.sval - s.sval)))
      (flag (d.val < s.val)) := by
  have := hs.ext
  have := hs.msp
  have := hs.lsp
  have := hd.ext
  have := hd.msp
  have := hd.lsp
  have hb2 := flag_le_one (d.lsp < s.lsp)
  have hb1 := flag_le_one (d.msp < s.msp + flag (d.lsp < s.lsp))
  -- the overflow bit, from the sign bits of the operands and of the difference
  have hov : subOverflow s d = flag (Overflows 55 (d.sval - s.sval)) := by
    have hsignR := Acc56.ext_signBit (Acc56.inWidth_ofVal (d.val + (2 ^ 56 - s.val)))
    rw [Acc56.val_ofVal] at hsignR
    unfold subOverflow
    rw [dspSub56_fst hs hd, hsignR, Acc56.ext_signBit hs, Acc56.ext_signBit hd,
      sub_overflow_bits (s := 55) (Acc56.val_lt hd) (Acc56.val_lt hs)]
    rfl
  -- the borrow out of the extension is the borrow of the whole subtraction
  have hborrow : flag (d.ext < s.ext + flag (d.msp < s.msp + flag (d.lsp < s.lsp))) = flag (d.val < s.val) := by
    have h2 := flag_cases (d.lsp < s.lsp)
    have h1 := flag_cases (d.msp < s.msp + flag (d.lsp < s.lsp))
    apply flag_congr
    simp only [Acc56.val]
    omega
  rw [(dspSub56_limbs hs hd).2, hov, hborrow]

theorem dspAdd56_eq {s d : Acc56} (hs : s.InWidth) (hd : d.InWidth) :
    dspAdd56 s d = (Acc56.ofVal (d.val + s.val), srBits (flag (Overflows 55 (d.sval + s.sval)))
      (flag (Overflows 55 (d.sval + s.sval))) (flag (2 ^ 56 ≤ d.val + s.val))) :=
  Prod.ext (dspAdd56_fst hs hd) (dspAdd56_snd hs hd)

theorem dspSub56_eq {s d : Acc56} (hs : s.InWidth) (hd : d.InWidth) :
    dspSub56 s d = (Acc56.ofVal (d.val + (2 ^ 56 - s.val)), srBits (flag (Overflows 55 (d.sval - s.sval)))
      (flag (Overflows 55 (d.sval - s.sval))) (flag (d.val < s.val))) :=
  Prod.ext (dspSub56_fst hs hd) (dspSub56_snd hs hd)

theorem zero_inWidth : (⟨0, 0, 0⟩ : Acc56).InWidth := ⟨by decide, by decide, by decide⟩

/-- `0 - d`, as dsp_abs56 and dsp_mul56 negate -/
theorem negate_val {d : Acc56} (hd : d.InWidth) : (dspSub56 d ⟨0, 0, 0⟩).1 = Acc56.ofVal (2 ^ 56 - d.val) := by
  rw [dspSub56_fst hd zero_inWidth]
  simp [Acc56.val]

/-- dsp_abs56: the magnitude of the signed value, modulo `2 ^ 56` -/
theorem dspAbs56_fst {d : Acc56} (hd : d.InWidth) : (dspAbs56 d).1 = Acc56.ofVal d.sval.natAbs := by
  have hlt := Acc56.val_lt hd
  have hsign : d.ext &&& (1 <<< 7) = d.val / 2 ^ 55 % 2 * 2 ^ 7 := by
    have := hd.ext
    have := hd.msp
    have := hd.lsp
    rw [show (1 <<< 7 : ℕ) = 2 ^ 8 - 2 ^ 7 from rfl, land_two_pow_sub_two_pow (by decide), Acc56.val]
    omega
  unfold dspAbs56 Acc56.sval
  rw [hsign]
  split_ifs with hneg
  · -- a negative value: `0 - d`
    have hge : 2 ^ 55 ≤ d.val := by omega
    rw [negate_val hd, signedVal_of_ge hlt hge]
    congr 1
    omega
  · have hlt55 : d.val < 2 ^ 55 := by omega
    rw [signedVal_of_lt hlt55, Int.natAbs_natCast, Acc56.ofVal_val hd]

/-! ## Shifts -/

/-- the `uint64_t` the shifts pack the three parts into is the value -/
theorem packed_eq_val {d : Acc56} (hd : d.InWidth) :
    d.lsp ||| (d.msp <<< 24) ||| (d.ext <<< 48) = d.val := by
  have hlow : d.msp * 2 ^ 24 + d.lsp < 2 ^ 48 := by
    have := hd.msp
    have := hd.lsp
    omega
  rw [Nat.lor_comm d.lsp, ← Nat.shiftLeft_add_eq_or_of_lt hd.lsp, Nat.shiftLeft_eq, Nat.lor_comm,
    ← Nat.shiftLeft_add_eq_or_of_lt hlow, Nat.shiftLeft_eq, Acc56.val, Nat.add_assoc]

/-- the parts read back from a `uint64_t` are those of its value modulo `2 ^ 56` -/
theorem unpack_eq (x : ℕ) :
    (⟨(x >>> 48) &&& bitmask 8, (x >>> 24) &&& bitmask 24, x &&& bitmask 24⟩ : Acc56) = Acc56.ofVal x := by
  simp only [Nat.shiftRight_eq_div_pow, land_bitmask, Acc56.ofVal]

/-- dsp_asl56: the value shifted left by `n`, modulo `2 ^ 56` -/
theorem dspAsl56_fst {d : Acc56} (hd : d.InWidth) (n : ℕ) : (dspAsl56 d n).1 = Acc56.ofVal (d.val * 2 ^ n) := by
  simp only [dspAsl56, packed_eq_val hd]
  rw [unpack_eq, Nat.shiftLeft_eq, ← Acc56.ofVal_mod, Nat.mod_mod_of_dvd _ (by decide), Acc56.ofVal_mod]

/-- dsp_asr56: the 56-bit value shifted right by `n` as an unsigned number, and C bit `n - 1` of it -/
theorem dspAsr56_eq {d : Acc56} (hd : d.InWidth) (n : ℕ) :
    dspAsr56 d n = (Acc56.ofVal (d.val / 2 ^ n), (d.val / 2 ^ (n - 1) % 2) <<< dspSrC) := by
  simp only [dspAsr56, packed_eq_val hd]
  rw [unpack_eq, shiftRight_land_one, Nat.shiftRight_eq_div_pow]

/-- dsp_asr56 on a negative accumulator: the result is the unsigned quotient, which is not negative, while the
arithmetic shift `⌊d / 2 ^ n⌋` of a negative value is negative. The sign is not copied into the vacated bits. -/
theorem asr_does_not_replicate_sign {d : Acc56} (hd : d.InWidth) (hneg : d.sval < 0) {n : ℕ} (hn : 1 ≤ n) :
    (dspAsr56 d n).1.val = d.val / 2 ^ n ∧ (dspAsr56 d n).1.sval ≠ d.sval / 2 ^ n := by
  have hlt := Acc56.val_lt hd
  -- one bit shifted out already puts the quotient below the sign bit
  have hsmall : d.val / 2 ^ n < 2 ^ 55 := by
    have hle : d.val / 2 ^ n ≤ d.val / 2 := Nat.div_le_div_left (Nat.le_self_pow (by omega) 2) (by decide)
    omega
  have hval : (dspAsr56 d n).1.val = d.val / 2 ^ n := by
    rw [dspAsr56_eq hd, Acc56.val_ofVal, Nat.mod_eq_of_lt (by omega)]
  refine ⟨hval, ?_⟩
  have hres : (dspAsr56 d n).1.sval = (d.val / 2 ^ n : ℕ) := by
    rw [Acc56.sval, hval, signedVal_of_lt hsmall]
  have hshift : d.sval / 2 ^ n < 0 := Int.ediv_neg_of_neg_of_pos hneg (by positivity)
  rw [hres]
  omega

/-- the accumulator `-2` -/
def minusTwo : Acc56 := ⟨0xff, 0xffffff, 0xfffffe⟩

/-- `asr` of `-2` gives `2 ^ 55 - 1`, the largest positive accumulator, not `-1` -/
theorem asr_minusTwo :
    (dspAsr56 minusTwo 1).1.val = minusTwo.val / 2 ^ 1 ∧ (dspAsr56 minusTwo 1).1.sval ≠ minusTwo.sval / 2 ^ 1 :=
  asr_does_not_replicate_sign ⟨by decide, by decide, by decide⟩ (by decide) (le_refl 1)

/-! ## Multiplication -/

/-- the operand handling of dsp_mul56: the magnitude of a 24-bit fraction, with the sign flipped for a negative one -/
theorem mulOperand_spec {x sign : ℕ} (hx : x < 2 ^ 24) (hsign : sign < 2) :
    (-1 : ℤ) ^ (mulOperand x sign).2 * (mulOperand x sign).1 = (-1) ^ sign * signedVal 23 x ∧
      (mulOperand x sign).1 ≤ 2 ^ 23 ∧ (mulOperand x sign).2 < 2 := by
  have hbit : x &&& (1 <<< 23) = x / 2 ^ 23 % 2 * 2 ^ 23 := by
    rw [show (1 <<< 23 : ℕ) = 2 ^ 24 - 2 ^ 23 from rfl, land_two_pow_sub_two_pow (by decide)]
    omega
  unfold mulOperand
  rw [hbit]
  split_ifs with hneg
  · -- a negative operand: `(1 << 24) - x`, and the sign flips
    have hge : 2 ^ 23 ≤ x := by omega
    have hflip : sign ^^^ 1 < 2 ∧ ((-1 : ℤ) ^ (sign ^^^ 1) = -(-1) ^ sign) := by
      interval_cases sign <;> decide
    rw [sub32_eq (by omega), signedVal_of_ge hx hge]
    refine ⟨?_, by omega, hflip.1⟩
    rw [hflip.2, show (1 <<< 24 + (2 ^ 32 - x)) % 2 ^ 32 = 2 ^ 24 - x by rw [Nat.shiftLeft_eq]; omega,
      Nat.cast_sub hx.le]
    push_cast
    ring
  · have hlt : x < 2 ^ 23 := by omega
    exact ⟨by rw [signedVal_of_lt hlt], hlt.le, hsign⟩

/-- the four 12-bit partial products of dsp_mul56, with their carries propagated, give the product -/
theorem mulMagnitudes_eq {a b : ℕ} (ha : a < 2 ^ 24) (hb : b < 2 ^ 24) :
    (mulMagnitudes a b).InWidth ∧ (mulMagnitudes a b).val = a * b := by
  have hsplitA : a = a / 2 ^ 12 * 2 ^ 12 + a % 2 ^ 12 := (Nat.div_add_mod' a _).symm
  have hsplitB : b = b / 2 ^ 12 * 2 ^ 12 + b % 2 ^ 12 := (Nat.div_add_mod' b _).symm
  have hhighA : a / 2 ^ 12 % 2 ^ 12 = a / 2 ^ 12 := Nat.mod_eq_of_lt (by omega)
  have hhighB : b / 2 ^ 12 % 2 ^ 12 = b / 2 ^ 12 := Nat.mod_eq_of_lt (by omega)
  -- the product in 12-bit halves
  have hprod : a * b = a / 2 ^ 12 * (b / 2 ^ 12) * 2 ^ 24 +
      (a / 2 ^ 12 * (b % 2 ^ 12) + a % 2 ^ 12 * (b / 2 ^ 12)) * 2 ^ 12 + a % 2 ^ 12 * (b % 2 ^ 12) := by
    conv_lhs => rw [hsplitA, hsplitB]
    ring
  have hp : ∀ u v : ℕ, u < 2 ^ 12 → v < 2 ^ 12 → u * v < 2 ^ 24 := fun u v hu hv =>
    lt_of_lt_of_le (Nat.mul_lt_mul'' hu hv) (by norm_num)
  have h0 := hp (a % 2 ^ 12) (b % 2 ^ 12) (Nat.mod_lt _ (by decide)) (Nat.mod_lt _ (by decide))
  have h1 := hp (a / 2 ^ 12) (b % 2 ^ 12) (by omega) (Nat.mod_lt _ (by decide))
  have h2 := hp (a % 2 ^ 12) (b / 2 ^ 12) (Nat.mod_lt _ (by decide)) (by omega)
  have h3 := hp (a / 2 ^ 12) (b / 2 ^ 12) (by omega) (by omega)
  unfold mulMagnitudes
  simp only [Nat.shiftRight_eq_div_pow, Nat.shiftLeft_eq, land_bitmask, hhighA, hhighB]
  generalize a % 2 ^ 12 * (b % 2 ^ 12) = p0 at *
  generalize a / 2 ^ 12 * (b % 2 ^ 12) = p1 at *
  generalize a % 2 ^ 12 * (b / 2 ^ 12) = p2 at *
  generalize a / 2 ^ 12 * (b / 2 ^ 12) = p3 at *
  rw [hprod]
  -- one case for each carry: out of the low limb, and out of the middle one (which never happens)
  split_ifs <;> refine ⟨⟨?_, ?_, ?_⟩, ?_⟩ <;> simp only [Acc56.val] <;> omega

/-- dsp_mul56 on 24-bit fractions: the 56-bit value of `±2xy`, its limbs within their widths -/
theorem dspMul56_spec {x y sign : ℕ} (hx : x < 2 ^ 24) (hy : y < 2 ^ 24) (hsign : sign < 2) :
    (dspMul56 x y sign).InWidth ∧
      ((dspMul56 x y sign).val : ℤ) = (-1) ^ sign * 2 * signedVal 23 x * signedVal 23 y % 2 ^ 56 := by
  obtain ⟨hx₁, hxa, hxs⟩ := mulOperand_spec hx hsign
  obtain ⟨hy₁, hya, hys⟩ := mulOperand_spec hy hxs
  simp only [dspMul56]
  generalize mulOperand x sign = ox at *
  obtain ⟨a, s₁⟩ := ox
  generalize mulOperand y s₁ = oy at *
  obtain ⟨b, s₂⟩ := oy
  dsimp only at hx₁ hxa hxs hy₁ hya hys
  obtain ⟨hwidth, hval⟩ := mulMagnitudes_eq (a := a) (b := b) (by omega) (by omega)
  have hab : a * b ≤ 2 ^ 23 * 2 ^ 23 := Nat.mul_le_mul hxa hya
  -- the product shifted left once: no bit is lost
  have hshift : (dspAsl56 (mulMagnitudes a b) 1).1 = Acc56.ofVal (a * b * 2) := by
    rw [dspAsl56_fst hwidth, hval, pow_one]
  have hsmall : a * b * 2 < 2 ^ 56 := by omega
  -- the signed product, from the two operand identities
  have hsigned : (-1 : ℤ) ^ s₂ * (a * b * 2 : ℕ) = (-1) ^ sign * 2 * signedVal 23 x * signedVal 23 y := by
    push_cast
    calc (-1 : ℤ) ^ s₂ * (a * b * 2) = 2 * a * ((-1) ^ s₂ * b) := by ring
      _ = 2 * ((-1) ^ s₁ * a) * signedVal 23 y := by rw [hy₁]; ring
      _ = (-1) ^ sign * 2 * signedVal 23 x * signedVal 23 y := by rw [hx₁]; ring
  rw [hshift]
  have hw := Acc56.inWidth_ofVal (a * b * 2)
  split_ifs with hneg
  · -- SIGN_MINUS: `0 - dest`
    have hs₂ : s₂ = 1 := by omega
    rw [negate_val hw, Acc56.val_ofVal, Nat.mod_eq_of_lt hsmall]
    refine ⟨Acc56.inWidth_ofVal _, ?_⟩
    rw [← hsigned, hs₂, Acc56.val_ofVal, Int.natCast_mod, Nat.cast_sub hsmall.le]
    push_cast
    omega
  · have hs₂ : s₂ = 0 := by omega
    refine ⟨hw, ?_⟩
    rw [← hsigned, hs₂, Acc56.val_ofVal, Nat.mod_eq_of_lt hsmall]
    push_cast
    omega

/-! ## Convergent rounding -/

/-- `dest[1] &= 0xfffffe` -/
theorem land_fffffe (x : ℕ) : x &&& 0xfffffe = x % 2 ^ 24 / 2 ^ 1 * 2 ^ 1 :=
  land_two_pow_sub_two_pow (j := 1) (n := 24) (by decide) x

/-- `dest[1] &= 0xffffff - 0x3` -/
theorem land_fffffc (x : ℕ) : x &&& (0xffffff - 0x3) = x % 2 ^ 24 / 2 ^ 2 * 2 ^ 2 :=
  land_two_pow_sub_two_pow (j := 2) (n := 24) (by decide) x

/-- `dest[2] &= 0x800000` -/
theorem land_800000 (x : ℕ) : x &&& 0x800000 = x % 2 ^ 24 / 2 ^ 23 * 2 ^ 23 :=
  land_two_pow_sub_two_pow (j := 23) (n := 24) (by decide) x

/-- `dest[2] & 0x7fffff` -/
theorem land_7fffff (x : ℕ) : x &&& 0x7fffff = x % 2 ^ 23 :=
  land_bitmask x 23

/-- the rounding constant added by dsp_rnd56 -/
theorem dspAdd56_const {d : Acc56} (hd : d.InWidth) (msp lsp : ℕ) (hm : msp < 2 ^ 24) (hl : lsp < 2 ^ 24) :
    (dspAdd56 ⟨0, msp, lsp⟩ d).1 = Acc56.ofVal (d.val + (msp * 2 ^ 24 + lsp)) := by
  have hv : (⟨0, msp, lsp⟩ : Acc56).val = msp * 2 ^ 24 + lsp := by
    simp only [Acc56.val]
    omega
  rw [dspAdd56_fst ⟨Nat.two_pow_pos 8, hm, hl⟩ hd, hv]

/-- no scaling: `d` rounded at bit 24, a tie to an even multiple of `2 ^ 24` -/
theorem dspRnd56_noScaling {d : Acc56} (hd : d.InWidth) {sr : ℕ} (h0 : sr &&& (1 <<< dspSrS0) = 0)
    (h1 : sr &&& (1 <<< dspSrS1) = 0) : dspRnd56 sr d = Acc56.ofVal (roundHalfEven 23 d.val) := by
  have hadd := dspAdd56_const hd 0 (1 <<< 23) (by decide) (by decide)
  have hlt := Acc56.val_lt hd
  unfold dspRnd56
  rw [if_neg (fun h => h h0), if_neg (fun h => h h1)]
  dsimp only
  rw [hadd, land_fffffe]
  simp only [Acc56.ofVal, roundHalfEven, Nat.shiftLeft_eq]
  -- the tie test: the low limb is `0` after adding `2 ^ 23` exactly when it was `2 ^ 23`
  split_ifs <;> simp only [Acc56.mk.injEq] <;> refine ⟨?_, ?_, ?_⟩ <;> omega

/-- scale down (S0): `d` rounded at bit 25, a tie to an even multiple of `2 ^ 25` -/
theorem dspRnd56_scaleDown {d : Acc56} (hd : d.InWidth) {sr : ℕ} (h0 : sr &&& (1 <<< dspSrS0) ≠ 0) :
    dspRnd56 sr d = Acc56.ofVal (roundHalfEven 24 d.val) := by
  have hadd := dspAdd56_const hd 1 0 (by decide) (by decide)
  have hlt := Acc56.val_lt hd
  unfold dspRnd56
  rw [if_pos h0]
  dsimp only
  rw [hadd, land_fffffe, Nat.and_one_is_mod]
  simp only [land_fffffc, Acc56.ofVal, roundHalfEven]
  -- the tie test reads the low limb and bit 24
  split_ifs <;> simp only [Acc56.mk.injEq] <;> refine ⟨?_, ?_, ?_⟩ <;> omega

/-- scale up (S1): `d` rounded at bit 23, a tie to an even multiple of `2 ^ 23` -/
theorem dspRnd56_scaleUp {d : Acc56} (hd : d.InWidth) {sr : ℕ} (h0 : sr &&& (1 <<< dspSrS0) = 0)
    (h1 : sr &&& (1 <<< dspSrS1) ≠ 0) : dspRnd56 sr d = Acc56.ofVal (roundHalfEven 22 d.val) := by
  have hadd := dspAdd56_const hd 0 (1 <<< 22) (by decide) (by decide)
  have hlt := Acc56.val_lt hd
  unfold dspRnd56
  rw [if_neg (fun h => h h0), if_pos h1]
  dsimp only
  rw [hadd, land_7fffff]
  simp only [land_800000, Acc56.ofVal, roundHalfEven, Nat.shiftLeft_eq]
  -- the tie test: the low 23 bits are `0` after adding `2 ^ 22` exactly when they were `2 ^ 22`
  split_ifs <;> simp only [Acc56.mk.injEq, Nat.zero_mod, Nat.zero_div, Nat.zero_mul] <;> refine ⟨?_, ?_, ?_⟩ <;> omega

/-- dsp_rnd56 is convergent rounding in each scaling mode, at bit 24 (none), 25 (S0) or 23 (S1), modulo `2 ^ 56` -/
theorem rnd56_convergent_rounding (sr : ℕ) {d : Acc56} (hd : d.InWidth) :
    (sr &&& (1 <<< dspSrS0) = 0 → sr &&& (1 <<< dspSrS1) = 0 →
      dspRnd56 sr d = Acc56.ofVal (roundHalfEven 23 d.val)) ∧
    (sr &&& (1 <<< dspSrS0) ≠ 0 → dspRnd56 sr d = Acc56.ofVal (roundHalfEven 24 d.val)) ∧
    (sr &&& (1 <<< dspSrS0) = 0 → sr &&& (1 <<< dspSrS1) ≠ 0 →
      dspRnd56 sr d = Acc56.ofVal (roundHalfEven 22 d.val)) ∧
    (dspRnd56 sr d).InWidth := by
  refine ⟨dspRnd56_noScaling hd, dspRnd56_scaleDown hd, dspRnd56_scaleUp hd, ?_⟩
  -- in every mode the result is read back from a value
  by_cases h0 : sr &&& (1 <<< dspSrS0) = 0
  · by_cases h1 : sr &&& (1 <<< dspSrS1) = 0
    · rw [dspRnd56_noScaling hd h0 h1]
      exact Acc56.inWidth_ofVal _
    · rw [dspRnd56_scaleUp hd h0 h1]
      exact Acc56.inWidth_ofVal _
  · rw [dspRnd56_scaleDown hd h0]
    exact Acc56.inWidth_ofVal _

/-- `1.5` units of bit 24, without scaling: a tie, rounded to the even `2` -/
theorem rnd56_tie_noScaling :
    ((0 : ℕ) &&& (1 <<< dspSrS0) = 0 → (0 : ℕ) &&& (1 <<< dspSrS1) = 0 →
      dspRnd56 0 ⟨0, 1, 0x800000⟩ = Acc56.ofVal (roundHalfEven 23 (Acc56.val ⟨0, 1, 0x800000⟩))) ∧
    ((0 : ℕ) &&& (1 <<< dspSrS0) ≠ 0 →
      dspRnd56 0 ⟨0, 1, 0x800000⟩ = Acc56.ofVal (roundHalfEven 24 (Acc56.val ⟨0, 1, 0x800000⟩))) ∧
    ((0 : ℕ) &&& (1 <<< dspSrS0) = 0 → (0 : ℕ) &&& (1 <<< dspSrS1) ≠ 0 →
      dspRnd56 0 ⟨0, 1, 0x800000⟩ = Acc56.ofVal (roundHalfEven 22 (Acc56.val ⟨0, 1, 0x800000⟩))) ∧
    (dspRnd56 0 ⟨0, 1, 0x800000⟩).InWidth :=
  rnd56_convergent_rounding 0 ⟨by decide, by decide, by decide⟩

/-- the four helpers on limbs within their widths are exact two's-complement arithmetic modulo `2 ^ 56` -/
theorem accumulator_arithmetic_exact :
    (∀ s d : Acc56, s.InWidth → d.InWidth →
      dspAdd56 s d = (Acc56.ofVal (d.val + s.val), srBits (flag (Overflows 55 (d.sval + s.sval)))
        (flag (Overflows 55 (d.sval + s.sval))) (flag (2 ^ 56 ≤ d.val + s.val)))) ∧
    (∀ s d : Acc56, s.InWidth → d.InWidth →
      dspSub56 s d = (Acc56.ofVal (d.val + (2 ^ 56 - s.val)), srBits (flag (Overflows 55 (d.sval - s.sval)))
        (flag (Overflows 55 (d.sval - s.sval))) (flag (d.val < s.val)))) ∧
    (∀ d : Acc56, d.InWidth → (dspAbs56 d).1 = Acc56.ofVal d.sval.natAbs) ∧
    (∀ x y sign : ℕ, x < 2 ^ 24 → y < 2 ^ 24 → sign < 2 →
      (dspMul56 x y sign).InWidth ∧
        ((dspMul56 x y sign).val : ℤ) = (-1) ^ sign * 2 * signedVal 23 x * signedVal 23 y % 2 ^ 56) :=
  ⟨fun _ _ hs hd => dspAdd56_eq hs hd, fun _ _ hs hd => dspSub56_eq hs hd, fun _ hd => dspAbs56_fst hd,
    fun _ _ _ hx hy hsign => dspMul56_spec hx hy hsign⟩

/-- `-1.0 * -1.0`: the product `+1.0` does not fit a 24-bit fraction, but the accumulator holds it -/
theorem mul_minusOne_minusOne :
    (dspMul56 0x800000 0x800000 signPlus).InWidth ∧
      ((dspMul56 0x800000 0x800000 signPlus).val : ℤ) =
        (-1) ^ signPlus * 2 * signedVal 23 0x800000 * signedVal 23 0x800000 % 2 ^ 56 :=
  accumulator_arithmetic_exact.2.2.2 0x800000 0x800000 signPlus (by decide) (by decide) (by decide)

end Xemu.Dsp
