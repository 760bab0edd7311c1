import Mathlib
import Xemu.Dsp.Multiply
import Xemu.Dsp.Arith
import Xemu.Core.NonRestoring
/-!
# DIV: one step of non-restoring division

emu_div (dsp_emu.c.inc) executes one DIV step: the destination accumulator is shifted left by one bit with
dsp_asl56, the divisor (X0, Y0, X1 or Y1, sign-extended and aligned at bit 24) is added when the signs of the
accumulator and the divisor differ and subtracted when they agree, the previous carry is ORed into bit 0, and the new
carry is the complement of the result's sign bit. Programs divide with `rep #24` followed by DIV.

Read as numbers (`emuDiv_step`), a step on an accumulator holding a partial remainder `r` above bit 24 and quotient
bits `q` below is `NonRestoring.step` on `r`, with the carry shifted into `q`. Started from a positive fraction
`D1 < S` in A1 or B1 with the carry clear, every run of `k ≤ 24` steps keeps the non-restoring invariant
(`div_run`), and after 24 steps A0 or B0 holds the 24-bit quotient `⌊2 ^ 23 * D1 / S⌋` and C its next bit
(`div_fractional_quotient`).
-/

namespace Xemu.Dsp

open Words

/-- the divisor register, from bits 4 and 5 of the instruction -/
def divSourceReg (curInst : ℕ) : ℕ :=
  match (curInst >>> 4) &&& bitmask 2 with
  | 0 => dspRegX0
  | 1 => dspRegY0
  | 2 => dspRegX1
  | _ => dspRegY1

/-- the destination, `DSP_REG_A + ((cur_inst >> 3) & 1)` -/
def divDest (curInst : ℕ) : Accumulator :=
  if (curInst >>> 3) &&& 1 = 0 then .a else .b

/-- emu_div -/
def emuDiv (curInst : ℕ) (regs : DspRegisters) : DspRegisters :=
  let s := regs (divSourceReg curInst)
  let source : Acc56 := ⟨if s &&& (1 <<< 23) ≠ 0 then 0xff else 0x0, s, 0⟩
  let d := divDest curInst
  let dest := loadAcc regs d
  let (dest, newsr) :=
    if ((dest.ext >>> 7) &&& 1) ^^^ ((s >>> 23) &&& 1) ≠ 0 then
      -- D += S
      let (dest, newsr) := dspAsl56 dest 1
      ((dspAdd56 source dest).1, newsr)
    else
      -- D -= S
      let (dest, newsr) := dspAsl56 dest 1
      ((dspSub56 source dest).1, newsr)
  let dest : Acc56 := { dest with lsp := dest.lsp ||| ((regs dspRegSr >>> dspSrC) &&& 1) }
  let regs := storeAcc regs d dest
  let sr := regs dspRegSr &&& (bitmask 16 - ((1 <<< dspSrC) ||| (1 <<< dspSrV)))
  let sr := sr ||| ((1 - ((dest.ext >>> 7) &&& 1)) <<< dspSrC)
  let sr := sr ||| (newsr &&& (1 <<< dspSrL))
  let sr := sr ||| (newsr &&& (1 <<< dspSrV))
  setReg regs dspRegSr sr

/-! ## The registers a step reads and writes -/

theorem loadAcc_storeAcc (regs : DspRegisters) (d : Accumulator) (v : Acc56) : loadAcc (storeAcc regs d v) d = v := by
  obtain ⟨h21, h20, h10, -, -, -⟩ := d.regs_ne
  simp [loadAcc, storeAcc, h21, h20, h10]

theorem divSourceReg_ne (curInst : ℕ) (d : Accumulator) :
    divSourceReg curInst ≠ d.reg2 ∧ divSourceReg curInst ≠ d.reg1 ∧ divSourceReg curInst ≠ d.reg0 ∧
      divSourceReg curInst ≠ dspRegSr := by
  unfold divSourceReg
  split <;> cases d <;> decide

/-- a step writes no register but the destination's three parts and SR -/
theorem emuDiv_of_ne (curInst : ℕ) (regs : DspRegisters) {r : ℕ} (h2 : r ≠ (divDest curInst).reg2)
    (h1 : r ≠ (divDest curInst).reg1) (h0 : r ≠ (divDest curInst).reg0) (hsr : r ≠ dspRegSr) :
    emuDiv curInst regs r = regs r := by
  simp only [emuDiv, setReg_of_ne _ _ hsr]
  exact storeAcc_of_ne regs _ _ h2 h1 h0

theorem emuDiv_source (curInst : ℕ) (regs : DspRegisters) :
    emuDiv curInst regs (divSourceReg curInst) = regs (divSourceReg curInst) := by
  obtain ⟨h2, h1, h0, hsr⟩ := divSourceReg_ne curInst (divDest curInst)
  exact emuDiv_of_ne curInst regs h2 h1 h0 hsr

theorem loadAcc_setReg_sr (regs : DspRegisters) (d : Accumulator) (v : ℕ) :
    loadAcc (setReg regs dspRegSr v) d = loadAcc regs d := by
  obtain ⟨-, -, -, h2, h1, h0⟩ := d.regs_ne
  simp [loadAcc, Ne.symm h2, Ne.symm h1, Ne.symm h0]

/-! ## One step on values -/

/-- the previous carry ORed into bit 0 of an even value is added to it -/
theorem ofVal_lor_carry {x c : ℕ} (hx : x % 2 = 0) (hc : c < 2) :
    (⟨(Acc56.ofVal x).ext, (Acc56.ofVal x).msp, (Acc56.ofVal x).lsp ||| c⟩ : Acc56) = Acc56.ofVal (x + c) := by
  have hlow : x % 2 ^ 24 ||| c = x % 2 ^ 24 + c := by
    have heven : x % 2 ^ 24 = x % 2 ^ 24 / 2 * 2 ^ 1 := by omega
    rw [heven, ← Nat.shiftLeft_eq, ← Nat.shiftLeft_add_eq_or_of_lt (by omega)]
  simp only [Acc56.ofVal, hlow, Acc56.mk.injEq]
  refine ⟨?_, ?_, ?_⟩ <;> omega

/-- a divisor below `2 ^ 23` is positive: no sign extension, and its sign bit is clear -/
theorem divisor_of_lt {s : ℕ} (hs : s < 2 ^ 23) :
    (if s &&& (1 <<< 23) ≠ 0 then 0xff else 0x0) = 0 ∧ (s >>> 23) &&& 1 = 0 := by
  have hbit : s &&& (1 <<< 23) = 0 := by
    rw [show (1 <<< 23 : ℕ) = 2 ^ 24 - 2 ^ 23 from rfl, land_two_pow_sub_two_pow (by decide)]
    omega
  refine ⟨by rw [hbit]; rfl, ?_⟩
  rw [shiftRight_land_one]
  omega

/-- the carry, bit C of SR -/
theorem srCarry_eq (sr : ℕ) : (sr >>> dspSrC) &&& 1 = sr % 2 := by
  rw [shiftRight_land_one, dspSrC, pow_zero, Nat.div_one]

/-- the accumulator after a step with a positive divisor `S`: the doubled value, plus `S` aligned at bit 24 when
the accumulator is negative and minus it otherwise, modulo `2 ^ 56`, then the previous carry -/
theorem loadAcc_emuDiv {curInst : ℕ} {regs : DspRegisters} (hs : regs (divSourceReg curInst) < 2 ^ 23)
    (hw : (loadAcc regs (divDest curInst)).InWidth) :
    loadAcc (emuDiv curInst regs) (divDest curInst) =
      Acc56.ofVal (2 * (loadAcc regs (divDest curInst)).val % 2 ^ 56 +
        (if signBit 55 (loadAcc regs (divDest curInst)).val = 1 then regs (divSourceReg curInst) * 2 ^ 24
          else 2 ^ 56 - regs (divSourceReg curInst) * 2 ^ 24) + regs dspRegSr % 2) := by
  obtain ⟨hext, hsign⟩ := divisor_of_lt hs
  have hsw : (⟨0, regs (divSourceReg curInst), 0⟩ : Acc56).InWidth :=
    ⟨Nat.two_pow_pos 8, by dsimp only; omega, Nat.two_pow_pos 24⟩
  have hsval : (⟨0, regs (divSourceReg curInst), 0⟩ : Acc56).val = regs (divSourceReg curInst) * 2 ^ 24 := by
    simp only [Acc56.val]
    omega
  have hdsign := Acc56.ext_signBit hw
  have hb := signBit_lt_two (s := 55) (Acc56.val_lt hw)
  have hasl := dspAsl56_fst hw 1
  simp only [emuDiv, loadAcc_setReg_sr, loadAcc_storeAcc]
  rw [hext, hsign, hdsign, Nat.xor_zero, srCarry_eq]
  -- the sum or the difference is even: the previous carry lands in bit 0
  split_ifs with hneg hone hone
  · rw [hasl, dspAdd56_fst hsw (Acc56.inWidth_ofVal _), Acc56.val_ofVal, hsval, pow_one, Nat.mul_comm]
    exact ofVal_lor_carry (by omega) (Nat.mod_lt _ (by decide))
  · omega
  · omega
  · rw [hasl, dspSub56_fst hsw (Acc56.inWidth_ofVal _), Acc56.val_ofVal, hsval, pow_one, Nat.mul_comm]
    exact ofVal_lor_carry (by omega) (Nat.mod_lt _ (by decide))

theorem lor_mod_two_eq_lor (a b : ℕ) : (a ||| b) % 2 = a % 2 ||| b % 2 := by
  simpa using Nat.or_mod_two_pow (a := a) (b := b) (n := 1)

theorem land_mod_two_eq_land (a b : ℕ) : (a &&& b) % 2 = a % 2 &&& b % 2 := by
  simpa using Nat.and_mod_two_pow (a := a) (b := b) (n := 1)

/-- the new carry is the complement of the result's sign bit: the L and V bits from dsp_asl56 lie above bit 0 -/
theorem emuDiv_carry (curInst : ℕ) (regs : DspRegisters) :
    emuDiv curInst regs dspRegSr % 2 = 1 - ((loadAcc (emuDiv curInst regs) (divDest curInst)).ext >>> 7 &&& 1) := by
  simp only [emuDiv, setReg_self, loadAcc_setReg_sr, loadAcc_storeAcc, lor_mod_two_eq_lor, land_mod_two_eq_land,
    bitmask, dspSrC, dspSrV, dspSrL, Nat.shiftLeft_zero]
  simp only [Nat.reduceMod, Nat.reducePow, Nat.reduceShiftLeft, Nat.reduceOr, Nat.reduceSub, Nat.and_zero,
    Nat.or_zero, Nat.zero_or, Nat.and_one_is_mod]
  omega

/-! ## The non-restoring invariant -/

/-- the destination of a division holds the partial remainder `r` from bit 24 up and the quotient bits `q` below,
and the divisor register holds `S` -/
structure DivAcc (curInst S : ℕ) (r : ℤ) (q : ℕ) (regs : DspRegisters) : Prop where
  source : regs (divSourceReg curInst) = S
  width : (loadAcc regs (divDest curInst)).InWidth
  sval : (loadAcc regs (divDest curInst)).sval = r * 2 ^ 24 + q

theorem Acc56.sval_eq (a : Acc56) : a.sval = a.val - 2 ^ 56 * (a.val / 2 ^ 55 : ℕ) := by
  unfold Acc56.sval signedVal signBit
  rfl

variable {curInst S : ℕ} {regs : DspRegisters}

/-- one DIV step: the remainder takes a non-restoring step, the carry is shifted into the quotient bits, and the
new carry is the sign of the new remainder -/
theorem emuDiv_step {r : ℤ} {q : ℕ} (h : DivAcc curInst S r q regs) (hS : S < 2 ^ 23) (hr : -(S : ℤ) ≤ r ∧ r < S)
    (hq : q < 2 ^ 23) :
    DivAcc curInst S (NonRestoring.step S r) (2 * q + regs dspRegSr % 2) (emuDiv curInst regs) ∧
      emuDiv curInst regs dspRegSr % 2 = if 0 ≤ NonRestoring.step S r then 1 else 0 := by
  have hacc := loadAcc_emuDiv (h.source ▸ hS) h.width
  rw [h.source] at hacc
  have hV := Acc56.val_lt h.width
  have hsv := h.sval
  have hc := Nat.mod_lt (regs dspRegSr) (by decide : 0 < 2)
  rw [Acc56.sval_eq] at hsv
  -- the new accumulator is read back from a value, so its sign bit is bit 55 of that value
  have hwidth : (loadAcc (emuDiv curInst regs) (divDest curInst)).InWidth := by
    rw [hacc]
    exact Acc56.inWidth_ofVal _
  have hcarry := emuDiv_carry curInst regs
  rw [Acc56.ext_signBit hwidth] at hcarry
  refine ⟨⟨by rw [emuDiv_source, h.source], hwidth, ?_⟩, ?_⟩
  · rw [Acc56.sval_eq, hacc, Acc56.val_ofVal]
    unfold signBit NonRestoring.step
    split_ifs <;> omega
  · rw [hcarry, hacc, Acc56.val_ofVal]
    unfold signBit NonRestoring.step
    split_ifs <;> omega

/-- the accumulator `⟨0, D1, 0⟩` holding a positive fraction -/
theorem divAcc_start {D1 : ℕ} (hsrc : regs (divSourceReg curInst) = S) (h2 : regs (divDest curInst).reg2 = 0)
    (h0 : regs (divDest curInst).reg0 = 0) (hD1 : regs (divDest curInst).reg1 = D1) (hlt : D1 < 2 ^ 23) :
    DivAcc curInst S D1 0 regs := by
  have hval : (loadAcc regs (divDest curInst)).val = D1 * 2 ^ 24 := by
    simp only [Acc56.val, loadAcc, h2, h0, hD1]
    omega
  refine ⟨hsrc, ⟨by simp [loadAcc, h2], by simp only [loadAcc, hD1]; omega, by simp [loadAcc, h0]⟩, ?_⟩
  rw [Acc56.sval, hval, signedVal_of_lt (by omega)]
  push_cast
  ring

/-- the quotient bits below bit 24 are A0 or B0 -/
theorem DivAcc.reg0_eq {r : ℤ} {q : ℕ} (h : DivAcc curInst S r q regs) (hq : q < 2 ^ 24) :
    regs (divDest curInst).reg0 = q := by
  have hsv := h.sval
  have hV := Acc56.val_lt h.width
  rw [Acc56.sval_eq] at hsv
  have hlsp : (loadAcc regs (divDest curInst)).lsp = regs (divDest curInst).reg0 := rfl
  have hw := h.width.lsp
  rw [← hlsp]
  simp only [Acc56.val] at hsv hV
  omega

/-- the new carry, read as the last quotient bit -/
theorem carry_eq_quotient_bit {D1 k : ℕ} (hS0 : 0 < S) :
    (if 0 ≤ NonRestoring.rem S D1 k then 1 else 0) = D1 * 2 ^ k / S % 2 := by
  have hiff := NonRestoring.rem_nonneg_iff (a := D1) (k := k) hS0
  split_ifs with h
  · exact (hiff.1 h).symm
  · have := Nat.mod_lt (D1 * 2 ^ k / S) (by decide : 0 < 2)
    have := mt hiff.2 h
    omega

/-- a run of `k` DIV steps, `1 ≤ k ≤ 24`, from a positive fraction `D1 < S` and a clear carry: the partial
remainder is `NonRestoring.rem S D1 k`, the quotient bits collected so far are those of `⌊2 ^ (k - 1) * D1 / S⌋`,
and the carry is the next quotient bit -/
theorem div_run {D1 : ℕ} (hS0 : 0 < S) (hS : S < 2 ^ 23) (hD1 : D1 < S) (hstart : DivAcc curInst S D1 0 regs)
    (hC : regs dspRegSr % 2 = 0) {k : ℕ} (hk1 : 1 ≤ k) (hk : k ≤ 24) :
    DivAcc curInst S (NonRestoring.rem S D1 k) (D1 * 2 ^ k / S / 2) ((emuDiv curInst)^[k] regs) ∧
      (emuDiv curInst)^[k] regs dspRegSr % 2 = D1 * 2 ^ k / S % 2 := by
  induction k, hk1 using Nat.le_induction with
  | base =>
    -- the first step starts from the dividend itself, with no quotient bit yet
    obtain ⟨hacc, hcarry⟩ := emuDiv_step hstart hS ⟨by omega, by omega⟩ (by decide)
    have hq : D1 * 2 ^ 1 / S / 2 = 2 * 0 + regs dspRegSr % 2 := by
      rw [NonRestoring.quotient_succ_div_two, pow_zero, Nat.mul_one, Nat.div_eq_of_lt hD1, hC]
    rw [Function.iterate_one, hq, ← NonRestoring.step_first hS0 hD1, ← carry_eq_quotient_bit hS0,
      ← NonRestoring.step_first hS0 hD1]
    exact ⟨hacc, hcarry⟩
  | succ k hk1 ih =>
    obtain ⟨hacc, hcarry⟩ := ih (by omega)
    -- the quotient collected so far has at most 23 bits, so the carry shifted in stays below bit 24
    have hQ := NonRestoring.quotient_lt (by omega) hD1 k
    have hpow : 2 ^ k ≤ 2 ^ 23 := Nat.pow_le_pow_right (by decide) (by omega)
    obtain ⟨hacc', hcarry'⟩ := emuDiv_step hacc hS (NonRestoring.rem_bounds hS0) (by omega)
    have hq : D1 * 2 ^ (k + 1) / S / 2 = 2 * (D1 * 2 ^ k / S / 2) + (emuDiv curInst)^[k] regs dspRegSr % 2 := by
      rw [NonRestoring.quotient_succ_div_two, hcarry]
      omega
    rw [Function.iterate_succ_apply', hq, ← NonRestoring.step_rem hS0, ← carry_eq_quotient_bit hS0,
      ← NonRestoring.step_rem hS0]
    exact ⟨hacc', hcarry'⟩

/-- repeated DIV computes the fractional quotient: from a positive fraction `D1 < S` in A1 or B1, with A2 or B2 and
A0 or B0 clear and C clear, 24 steps leave `⌊2 ^ 23 * D1 / S⌋` in A0 or B0 and the next quotient bit in C, and every
run of `k ≤ 24` steps keeps the non-restoring invariant -/
theorem div_fractional_quotient (curInst : ℕ) (regs : DspRegisters) (S D1 : ℕ)
    (hsrc : regs (divSourceReg curInst) = S) (hS0 : 0 < S) (hS : S < 2 ^ 23)
    (h2 : regs (divDest curInst).reg2 = 0) (hD1 : regs (divDest curInst).reg1 = D1) (hlt : D1 < S)
    (h0 : regs (divDest curInst).reg0 = 0) (hC : (regs dspRegSr >>> dspSrC) &&& 1 = 0) :
    (emuDiv curInst)^[24] regs (divDest curInst).reg0 = 2 ^ 23 * D1 / S ∧
      ((emuDiv curInst)^[24] regs dspRegSr >>> dspSrC) &&& 1 = 2 ^ 24 * D1 / S % 2 ∧
      ∀ k, 1 ≤ k → k ≤ 24 →
        DivAcc curInst S (NonRestoring.rem S D1 k) (D1 * 2 ^ k / S / 2) ((emuDiv curInst)^[k] regs) ∧
          ((emuDiv curInst)^[k] regs dspRegSr >>> dspSrC) &&& 1 = D1 * 2 ^ k / S % 2 := by
  rw [srCarry_eq] at hC
  have hstart := divAcc_start hsrc h2 h0 hD1 (by omega)
  have hrun : ∀ k, 1 ≤ k → k ≤ 24 →
      DivAcc curInst S (NonRestoring.rem S D1 k) (D1 * 2 ^ k / S / 2) ((emuDiv curInst)^[k] regs) ∧
        ((emuDiv curInst)^[k] regs dspRegSr >>> dspSrC) &&& 1 = D1 * 2 ^ k / S % 2 := by
    intro k hk1 hk
    rw [srCarry_eq]
    exact div_run hS0 hS hlt hstart hC hk1 hk
  obtain ⟨hacc, hcarry⟩ := hrun 24 (by decide) le_rfl
  -- after 24 steps the quotient bits fill A0 or B0
  have hQ := NonRestoring.quotient_lt hS0 hlt 24
  have hhalf : D1 * 2 ^ 24 / S / 2 = 2 ^ 23 * D1 / S := by
    rw [show 24 = 23 + 1 from rfl, NonRestoring.quotient_succ_div_two, Nat.mul_comm]
  refine ⟨?_, by rw [hcarry, Nat.mul_comm], hrun⟩
  rw [hacc.reg0_eq (by omega), hhalf]

/-- the register file of a division of `1` by `3`: X0 = 3, A1 = 1, everything else clear -/
def divOneThirdRegs : DspRegisters := fun r => if r = dspRegX0 then 3 else if r = dspRegA1 then 1 else 0

/-- `div x0,a` 24 times on `1 / 3` leaves `⌊2 ^ 23 / 3⌋` in A0 -/
theorem div_one_third :
    (emuDiv 0)^[24] divOneThirdRegs (divDest 0).reg0 = 2 ^ 23 * 1 / 3 ∧
      ((emuDiv 0)^[24] divOneThirdRegs dspRegSr >>> dspSrC) &&& 1 = 2 ^ 24 * 1 / 3 % 2 ∧
      ∀ k, 1 ≤ k → k ≤ 24 →
        DivAcc 0 3 (NonRestoring.rem 3 1 k) (1 * 2 ^ k / 3 / 2) ((emuDiv 0)^[k] divOneThirdRegs) ∧
          ((emuDiv 0)^[k] divOneThirdRegs dspRegSr >>> dspSrC) &&& 1 = 1 * 2 ^ k / 3 % 2 :=
  div_fractional_quotient 0 divOneThirdRegs 3 1 (by decide) (by decide) (by decide) (by decide) (by decide)
    (by decide) (by decide) (by decide)

end Xemu.Dsp
