import Mathlib
import Xemu.Dsp.Repeat
import Xemu.Dsp.Compare
import Xemu.Dsp.Address
/-!
# NORM: normalizing an accumulator

emu_norm (hw/xbox/mcpx/apu/dsp/dsp_emu.c.inc) makes one step of the normalization of A or B (bit 3 of the
instruction), counted in the address register Rn (bits 8 to 10). It reads E, U and Z as the previous instruction left
them in SR. With E clear, U set and Z clear (the accumulator fits 48 bits but its bits 47 and 46 agree) it shifts the
accumulator left with dsp_asl56 and decrements Rn; with E set it shifts it right with dsp_asr56 and increments Rn;
otherwise it changes neither. Then it sets E, U, N and Z from the result, as the ALU instructions do, and C and V
from the shift. Programs normalize with `rep #n` followed by `norm Rn,A`, after an instruction that set the flags from
the accumulator.

In scaling mode 0, with SR describing the accumulator (`NormFlags`, which every step keeps):
* `norm_normalizes`: from a nonzero accumulator that fits 48 bits, 47 or more steps leave `A * 2 ^ k` for a `k ≤ 47`
  that makes it normalized, with bits 47 and 46 different, and Rn decreased by `k` modulo 65536.
* `norm_extended_unsigned`: from an accumulator that does not fit 48 bits, 9 or more steps leave the 56-bit word
  shifted right by `j ≤ 9` places as an unsigned number, with Rn increased by `j`. dsp_asr56 does not copy the sign
  bit, so a negative accumulator comes out positive, where an arithmetic shift would keep it negative.
-/

namespace Xemu.Dsp

open Words

/-! ## The handler -/

/-- the accumulator NORM works on, `DSP_REG_A2 + ((cur_inst >> 3) & 1)` and the other two parts -/
def normDest (curInst : ℕ) : Accumulator := if (curInst >>> 3) &&& 1 = 0 then .a else .b

/-- `DSP_REG_R0 + ((cur_inst >> 8) & BITMASK(3))` -/
def normReg (curInst : ℕ) : ℕ := dspRegR0 + ((curInst >>> 8) &&& bitmask 3)

/-- emu_norm; `~x & 1` of a flag bit `x` is written `1 - x` -/
def emuNorm (curInst : ℕ) (regs : DspRegisters) : DspRegisters :=
  let cursr := regs dspRegSr
  let curE := (cursr >>> dspSrE) &&& 1
  -- (not E) and U and (not Z)
  let curEuz := (1 - curE) &&& ((cursr >>> dspSrU) &&& 1) &&& (1 - ((cursr >>> dspSrZ) &&& 1))
  let d := normDest curInst
  let dest := loadAcc regs d
  let rreg := normReg curInst
  let (dest, newsr, regs) :=
    if curEuz ≠ 0 then
      let (dest, newsr) := dspAsl56 dest 1
      (dest, newsr, setReg regs rreg (sub32 (regs rreg) 1 &&& bitmask 16))
    else if curE ≠ 0 then
      let (dest, newsr) := dspAsr56 dest 1
      (dest, newsr, setReg regs rreg ((regs rreg + 1) % 2 ^ 32 &&& bitmask 16))
    else (dest, 0, regs)
  let regs := storeAcc regs d dest
  let regs := setReg regs dspRegSr (ccrUpdateEUNZ (regs dspRegSr) dest.ext dest.msp dest.lsp)
  setReg regs dspRegSr ((regs dspRegSr &&& (bitmask 16 - ((1 <<< dspSrV) ||| (1 <<< dspSrC)))) ||| newsr)

/-! ## E, U and Z in scaling mode 0 -/

/-- E: bits 55 to 47 not all equal, the value outside 48 bits -/
theorem valueE_ne_iff {a : Acc56} (ha : a.InWidth) :
    ((a.ext <<< 1) + (a.msp >>> 23) ≠ 0 ∧ (a.ext <<< 1) + (a.msp >>> 23) ≠ bitmask 9) ↔
      Overflows 47 a.sval := by
  have := ha.ext
  have := ha.msp
  have := ha.lsp
  rw [Nat.shiftLeft_eq, Nat.shiftRight_eq_div_pow, Acc56.sval_eq, Overflows]
  unfold Acc56.val bitmask
  norm_num
  omega

/-- U, for a value within 48 bits: bits 47 and 46 equal, the value within 47 bits -/
theorem msp_unnormalized_iff {a : Acc56} (ha : a.InWidth) (hfit : ¬Overflows 47 a.sval) :
    (a.msp &&& 0xc00000 = 0 ∨ a.msp &&& 0xc00000 = 0xc00000) ↔ ¬Overflows 46 a.sval := by
  have := ha.ext
  have := ha.msp
  have := ha.lsp
  rw [show (0xc00000 : ℕ) = 2 ^ 24 - 2 ^ 22 by norm_num, land_two_pow_sub_two_pow (by norm_num)]
  rw [Acc56.sval_eq, Overflows] at hfit ⊢
  unfold Acc56.val at hfit ⊢
  norm_num at hfit ⊢
  omega

/-- Z -/
theorem acc_zero_iff {a : Acc56} (ha : a.InWidth) : (a.msp = 0 ∧ a.lsp = 0 ∧ a.ext = 0) ↔ a.sval = 0 := by
  have := ha.ext
  have := ha.msp
  have := ha.lsp
  rw [Acc56.sval_eq]
  unfold Acc56.val
  norm_num
  omega

/-- the mask emu_ccr_update_e_u_n_z clears E, U, N and Z with -/
theorem testBit_euzMask (i : ℕ) :
    (bitmask 16 - ((1 <<< dspSrE) ||| (1 <<< dspSrU) ||| (1 <<< dspSrN) ||| (1 <<< dspSrZ))).testBit i =
      (decide (i < 16) && !decide (i = dspSrE) && !decide (i = dspSrU) && !decide (i = dspSrN) &&
        !decide (i = dspSrZ)) := by
  rcases Nat.lt_or_ge i 16 with hi | hi
  · interval_cases i <;> decide
  · have hlt : bitmask 16 - ((1 <<< dspSrE) ||| (1 <<< dspSrU) ||| (1 <<< dspSrN) ||| (1 <<< dspSrZ)) < 2 ^ i :=
      lt_of_lt_of_le (by decide) (Nat.pow_le_pow_right (by decide) hi)
    rw [Nat.testBit_lt_two_pow hlt]
    simp [show ¬i < 16 by omega]

theorem testBit_ite_shiftLeft (p : Prop) [Decidable p] (k i : ℕ) :
    (if p then 1 <<< k else 0).testBit i = (decide p && decide (k = i)) := by
  split_ifs with h <;> simp [Nat.one_shiftLeft, Nat.testBit_two_pow, h]

/-- emu_ccr_update_e_u_n_z in scaling mode 0 -/
theorem ccrUpdateEUNZ_noScaling {sr : ℕ} (h0 : (sr >>> dspSrS0) &&& bitmask 2 = 0) (reg0 reg1 reg2 : ℕ) :
    ccrUpdateEUNZ sr reg0 reg1 reg2 =
      (sr &&& (bitmask 16 - ((1 <<< dspSrE) ||| (1 <<< dspSrU) ||| (1 <<< dspSrN) ||| (1 <<< dspSrZ)))) |||
        (if (reg0 <<< 1) + (reg1 >>> 23) ≠ 0 ∧ (reg0 <<< 1) + (reg1 >>> 23) ≠ bitmask 9 then 1 <<< dspSrE
          else 0) |||
        (if reg1 &&& 0xc00000 = 0 ∨ reg1 &&& 0xc00000 = 0xc00000 then 1 <<< dspSrU else 0) |||
        (if reg1 = 0 ∧ reg2 = 0 ∧ reg0 = 0 then 1 <<< dspSrZ else 0) ||| ((reg0 >>> 4) &&& 0x8) := by
  have hmode : ((sr &&& (bitmask 16 - ((1 <<< dspSrE) ||| (1 <<< dspSrU) ||| (1 <<< dspSrN) ||| (1 <<< dspSrZ))))
      >>> dspSrS0) &&& bitmask 2 = 0 := by rw [scaling_land_mask, h0]
  simp only [ccrUpdateEUNZ, hmode, extensionUnnormalized]
  split_ifs <;> simp [Nat.lor_assoc]

theorem testBit_ccrUpdateEUNZ_e {sr : ℕ} (h0 : (sr >>> dspSrS0) &&& bitmask 2 = 0) {a : Acc56} (ha : a.InWidth) :
    (ccrUpdateEUNZ sr a.ext a.msp a.lsp).testBit dspSrE = decide (Overflows 47 a.sval) := by
  rw [ccrUpdateEUNZ_noScaling h0]
  have hbits : decide (dspSrU = dspSrE) = false ∧ decide (dspSrZ = dspSrE) = false ∧ Nat.testBit 8 dspSrE = false :=
    by decide
  simp only [Nat.testBit_or, Nat.testBit_and, testBit_euzMask, testBit_ite_shiftLeft, hbits, decide_true,
    Bool.not_true, Bool.and_false, Bool.false_and, Bool.false_or, Bool.or_false, Bool.and_true]
  exact decide_eq_decide.mpr (valueE_ne_iff ha)

theorem testBit_ccrUpdateEUNZ_u {sr : ℕ} (h0 : (sr >>> dspSrS0) &&& bitmask 2 = 0) {a : Acc56} (ha : a.InWidth)
    (hfit : ¬Overflows 47 a.sval) :
    (ccrUpdateEUNZ sr a.ext a.msp a.lsp).testBit dspSrU = decide (¬Overflows 46 a.sval) := by
  rw [ccrUpdateEUNZ_noScaling h0]
  have hbits : decide (dspSrE = dspSrU) = false ∧ decide (dspSrZ = dspSrU) = false ∧ Nat.testBit 8 dspSrU = false :=
    by decide
  simp only [Nat.testBit_or, Nat.testBit_and, testBit_euzMask, testBit_ite_shiftLeft, hbits, decide_true,
    Bool.not_true, Bool.and_false, Bool.false_and, Bool.false_or, Bool.or_false, Bool.and_true]
  exact decide_eq_decide.mpr (msp_unnormalized_iff ha hfit)

theorem testBit_ccrUpdateEUNZ_z {sr : ℕ} (h0 : (sr >>> dspSrS0) &&& bitmask 2 = 0) {a : Acc56} (ha : a.InWidth) :
    (ccrUpdateEUNZ sr a.ext a.msp a.lsp).testBit dspSrZ = decide (a.sval = 0) := by
  rw [ccrUpdateEUNZ_noScaling h0]
  have hbits : decide (dspSrE = dspSrZ) = false ∧ decide (dspSrU = dspSrZ) = false ∧ Nat.testBit 8 dspSrZ = false :=
    by decide
  simp only [Nat.testBit_or, Nat.testBit_and, testBit_euzMask, testBit_ite_shiftLeft, hbits, decide_true,
    Bool.not_true, Bool.and_false, Bool.false_or, Bool.or_false, Bool.and_true]
  exact decide_eq_decide.mpr (acc_zero_iff ha)

/-- emu_ccr_update_e_u_n_z keeps the scaling mode -/
theorem ccrUpdateEUNZ_mode {sr : ℕ} (h0 : (sr >>> dspSrS0) &&& bitmask 2 = 0) (reg0 reg1 reg2 : ℕ) :
    (ccrUpdateEUNZ sr reg0 reg1 reg2 >>> dspSrS0) &&& bitmask 2 = 0 := by
  rw [← h0, ccrUpdateEUNZ_noScaling h0]
  apply Nat.eq_of_testBit_eq
  intro i
  simp only [Nat.testBit_and, Nat.testBit_shiftRight, Nat.testBit_or, testBit_euzMask, testBit_ite_shiftLeft]
  rcases Nat.lt_or_ge i 2 with hi | hi
  · have h8 : Nat.testBit 8 10 = false ∧ Nat.testBit 8 11 = false := by decide
    interval_cases i <;> simp [dspSrS0, dspSrE, dspSrU, dspSrN, dspSrZ, h8]
  · have hb : (bitmask 2).testBit i = false :=
      Nat.testBit_lt_two_pow (lt_of_lt_of_le (by decide) (Nat.pow_le_pow_right (by omega) hi))
    simp only [hb, Bool.and_false]

/-! ## The three cases -/

/-- the end of a step: Rn set to `r`, the accumulator to the shifted value, E, U, N and Z from it, and C and V (and
L) to the bits the shift returns -/
def normStore (curInst : ℕ) (regs : DspRegisters) (shifted : Acc56 × ℕ) (r : ℕ) : DspRegisters :=
  let regs := storeAcc (setReg regs (normReg curInst) r) (normDest curInst) shifted.1
  let regs := setReg regs dspRegSr (ccrUpdateEUNZ (regs dspRegSr) shifted.1.ext shifted.1.msp shifted.1.lsp)
  setReg regs dspRegSr ((regs dspRegSr &&& (bitmask 16 - ((1 <<< dspSrV) ||| (1 <<< dspSrC)))) ||| shifted.2)

section Cases

variable (curInst : ℕ) (regs : DspRegisters)

theorem emuNorm_left (hE : (regs dspRegSr).testBit dspSrE = false) (hU : (regs dspRegSr).testBit dspSrU = true)
    (hZ : (regs dspRegSr).testBit dspSrZ = false) :
    emuNorm curInst regs = normStore curInst regs (dspAsl56 (loadAcc regs (normDest curInst)) 1)
      (sub32 (regs (normReg curInst)) 1 &&& bitmask 16) := by
  have heuz : (1 - ((regs dspRegSr >>> dspSrE) &&& 1)) &&& ((regs dspRegSr >>> dspSrU) &&& 1) &&&
      (1 - ((regs dspRegSr >>> dspSrZ) &&& 1)) = 1 := by
    simp only [shiftRight_land_one_eq_toNat, hE, hU, hZ]
    rfl
  simp only [emuNorm, heuz, ne_eq, one_ne_zero, not_false_eq_true, if_true]
  rfl

theorem emuNorm_right (hE : (regs dspRegSr).testBit dspSrE = true) :
    emuNorm curInst regs = normStore curInst regs (dspAsr56 (loadAcc regs (normDest curInst)) 1)
      ((regs (normReg curInst) + 1) % 2 ^ 32 &&& bitmask 16) := by
  have he : (regs dspRegSr >>> dspSrE) &&& 1 = 1 := by
    rw [shiftRight_land_one_eq_toNat, hE]
    rfl
  simp only [emuNorm, he, Nat.sub_self, Nat.zero_and, ne_eq, one_ne_zero, not_false_eq_true, if_true,
    not_true_eq_false, if_false]
  rfl

theorem emuNorm_idle (hE : (regs dspRegSr).testBit dspSrE = false)
    (hUZ : (regs dspRegSr).testBit dspSrU = false ∨ (regs dspRegSr).testBit dspSrZ = true) :
    emuNorm curInst regs = normStore curInst regs (loadAcc regs (normDest curInst), 0) (regs (normReg curInst)) := by
  have he : (regs dspRegSr >>> dspSrE) &&& 1 = 0 := by
    rw [shiftRight_land_one_eq_toNat, hE]
    rfl
  have heuz : (1 - ((regs dspRegSr >>> dspSrE) &&& 1)) &&& ((regs dspRegSr >>> dspSrU) &&& 1) &&&
      (1 - ((regs dspRegSr >>> dspSrZ) &&& 1)) = 0 := by
    rcases hUZ with hU | hZ
    · simp only [shiftRight_land_one_eq_toNat, hE, hU, Bool.toNat_false, Nat.and_zero, Nat.zero_and]
    · simp only [shiftRight_land_one_eq_toNat, hE, hZ, Bool.toNat_true, Nat.sub_self, Nat.and_zero]
  simp only [emuNorm, heuz, ne_eq, not_true_eq_false, if_false]
  simp only [he, not_true_eq_false, if_false]
  conv_rhs => rw [normStore, setReg_eq_self regs (normReg curInst)]

end Cases

/-! ## The end of a step -/

theorem normReg_bounds (curInst : ℕ) : dspRegR0 ≤ normReg curInst ∧ normReg curInst < dspRegR0 + 8 := by
  have h : (curInst >>> 8) &&& bitmask 3 < 8 := by
    rw [land_bitmask]
    exact Nat.mod_lt _ (by decide)
  unfold normReg
  omega

/-- Rn is none of the accumulators' parts and not SR -/
theorem normReg_ne (curInst : ℕ) (d : Accumulator) :
    normReg curInst ≠ d.reg2 ∧ normReg curInst ≠ d.reg1 ∧ normReg curInst ≠ d.reg0 ∧
      normReg curInst ≠ dspRegSr := by
  have h := normReg_bounds curInst
  unfold dspRegR0 at h
  cases d <;> refine ⟨?_, ?_, ?_, ?_⟩ <;>
    simp only [Accumulator.reg2, Accumulator.reg1, Accumulator.reg0, dspRegA2, dspRegA1, dspRegA0, dspRegB2,
      dspRegB1, dspRegB0, dspRegSr] <;> omega

/-- the bits a shift returns: C, V and L, bits 0, 1 and 6 -/
def ShiftBits (x : ℕ) : Prop := x < 2 ^ 7 ∧ x &&& 0x3c = 0

instance (x : ℕ) : Decidable (ShiftBits x) := inferInstanceAs (Decidable (_ ∧ _))

theorem shiftBits_asl (d : Acc56) (n : ℕ) : ShiftBits (dspAsl56 d n).2 := by
  have hbits : ∀ o < 2, ∀ v < 2, ∀ c < 2, ShiftBits ((o <<< dspSrL) ||| (v <<< dspSrV) ||| (c <<< dspSrC)) := by
    decide
  have hc : ∀ x : ℕ, x &&& 1 < 2 := fun x => by
    rw [Nat.and_one_is_mod]
    exact Nat.mod_lt _ (by decide)
  unfold dspAsl56
  exact hbits _ (by split_ifs <;> decide) _ (by split_ifs <;> decide) _ (hc _)

theorem shiftBits_asr (d : Acc56) (n : ℕ) : ShiftBits (dspAsr56 d n).2 := by
  have hbits : ∀ c < 2, ShiftBits (c <<< dspSrC) := by decide
  unfold dspAsr56
  refine hbits _ ?_
  rw [Nat.and_one_is_mod]
  exact Nat.mod_lt _ (by decide)

theorem shiftBits_zero : ShiftBits 0 := by decide

/-- the bits of SR a NORM step reads or keeps: Z, U, E and the scaling mode -/
def NormBit (i : ℕ) : Prop := i = dspSrZ ∨ i = dspSrU ∨ i = dspSrE ∨ i = dspSrS0 ∨ i = dspSrS1

theorem ShiftBits.testBit_eq_false {x : ℕ} (hx : ShiftBits x) {i : ℕ} (hi : NormBit i) : x.testBit i = false := by
  -- Z, U and E lie under the mask 0x3c, the scaling mode above bit 6
  have hmask : ∀ j, j = dspSrZ ∨ j = dspSrU ∨ j = dspSrE → x.testBit j = false := by
    rintro j hj
    have h := congrArg (Nat.testBit · j) hx.2
    have h60 : Nat.testBit 0x3c j = true := by rcases hj with rfl | rfl | rfl <;> rfl
    simpa only [Nat.testBit_and, h60, Bool.and_true, Nat.zero_testBit] using h
  rcases hi with h | h | h | h | h
  · exact hmask _ (Or.inl h)
  · exact hmask _ (Or.inr (Or.inl h))
  · exact hmask _ (Or.inr (Or.inr h))
  all_goals
    subst h
    exact Nat.testBit_lt_two_pow (lt_of_lt_of_le hx.1 (by decide))

/-- clearing C and V and ORing in the bits of a shift keeps Z, U, E and the scaling mode -/
theorem testBit_normSr {x : ℕ} (hx : ShiftBits x) (sr : ℕ) {i : ℕ} (hi : NormBit i) :
    ((sr &&& (bitmask 16 - ((1 <<< dspSrV) ||| (1 <<< dspSrC)))) ||| x).testBit i = sr.testBit i := by
  have hmask : (bitmask 16 - ((1 <<< dspSrV) ||| (1 <<< dspSrC))).testBit i = true := by
    rcases hi with rfl | rfl | rfl | rfl | rfl <;> decide
  rw [Nat.testBit_or, Nat.testBit_and, hmask, hx.testBit_eq_false hi, Bool.and_true, Bool.or_false]

/-- a step ends with the new value in the accumulator -/
theorem loadAcc_normStore (curInst : ℕ) (regs : DspRegisters) (shifted : Acc56 × ℕ) (r : ℕ) :
    loadAcc (normStore curInst regs shifted r) (normDest curInst) = shifted.1 := by
  simp only [normStore, loadAcc_setReg_sr, loadAcc_storeAcc]

theorem normStore_normReg (curInst : ℕ) (regs : DspRegisters) (shifted : Acc56 × ℕ) (r : ℕ) :
    normStore curInst regs shifted r (normReg curInst) = r := by
  obtain ⟨h2, h1, h0, hsr⟩ := normReg_ne curInst (normDest curInst)
  simp only [normStore, setReg_of_ne _ _ hsr, storeAcc_of_ne _ _ _ h2 h1 h0, setReg_self]

theorem normStore_sr (curInst : ℕ) (regs : DspRegisters) (shifted : Acc56 × ℕ) (r : ℕ) :
    normStore curInst regs shifted r dspRegSr =
      (ccrUpdateEUNZ (regs dspRegSr) shifted.1.ext shifted.1.msp shifted.1.lsp &&&
        (bitmask 16 - ((1 <<< dspSrV) ||| (1 <<< dspSrC)))) ||| shifted.2 := by
  obtain ⟨-, -, -, hs2, hs1, hs0⟩ := (normDest curInst).regs_ne
  obtain ⟨-, -, -, hsr⟩ := normReg_ne curInst (normDest curInst)
  simp only [normStore, setReg_self, storeAcc_of_ne _ _ _ hs2 hs1 hs0, setReg_of_ne _ _ hsr.symm]

/-! ## SR describing the accumulator -/

/-- scaling mode 0, and E, U and Z as emu_ccr_update_e_u_n_z sets them for accumulator `d`, whose parts are within
their widths: the state NORM reads after an ALU instruction on `d`, and leaves after itself -/
structure NormFlags (regs : DspRegisters) (d : Accumulator) : Prop where
  width : (loadAcc regs d).InWidth
  mode : (regs dspRegSr >>> dspSrS0) &&& bitmask 2 = 0
  e : (regs dspRegSr).testBit dspSrE = decide (Overflows 47 (loadAcc regs d).sval)
  u : ¬Overflows 47 (loadAcc regs d).sval →
    (regs dspRegSr).testBit dspSrU = decide (¬Overflows 46 (loadAcc regs d).sval)
  z : (regs dspRegSr).testBit dspSrZ = decide ((loadAcc regs d).sval = 0)

/-- the scaling mode read through the bits of the status register -/
theorem mode_eq_of_testBit {sr sr' : ℕ} (h0 : sr'.testBit dspSrS0 = sr.testBit dspSrS0)
    (h1 : sr'.testBit dspSrS1 = sr.testBit dspSrS1) :
    (sr' >>> dspSrS0) &&& bitmask 2 = (sr >>> dspSrS0) &&& bitmask 2 := by
  apply Nat.eq_of_testBit_eq
  intro i
  simp only [Nat.testBit_and, Nat.testBit_shiftRight]
  rcases Nat.lt_or_ge i 2 with hi | hi
  · interval_cases i
    · exact congrArg (· && _) h0
    · exact congrArg (· && _) h1
  · have hb : (bitmask 2).testBit i = false :=
      Nat.testBit_lt_two_pow (lt_of_lt_of_le (by decide) (Nat.pow_le_pow_right (by omega) hi))
    simp only [hb, Bool.and_false]

/-- every step leaves SR describing the new accumulator -/
theorem normFlags_normStore (curInst : ℕ) {regs : DspRegisters}
    (hmode : (regs dspRegSr >>> dspSrS0) &&& bitmask 2 = 0)
    {shifted : Acc56 × ℕ} (hw : shifted.1.InWidth) (hbits : ShiftBits shifted.2) (r : ℕ) :
    NormFlags (normStore curInst regs shifted r) (normDest curInst) := by
  have hccr := ccrUpdateEUNZ_mode hmode shifted.1.ext shifted.1.msp shifted.1.lsp
  have hacc := loadAcc_normStore curInst regs shifted r
  have hbit : ∀ i, NormBit i → (normStore curInst regs shifted r dspRegSr).testBit i =
      (ccrUpdateEUNZ (regs dspRegSr) shifted.1.ext shifted.1.msp shifted.1.lsp).testBit i :=
    fun i hi => by rw [normStore_sr, testBit_normSr hbits _ hi]
  refine ⟨hacc ▸ hw, ?_, ?_, fun hfit => ?_, ?_⟩
  · rw [mode_eq_of_testBit (hbit _ (by unfold NormBit; decide)) (hbit _ (by unfold NormBit; decide)), hccr]
  · rw [hbit _ (by unfold NormBit; decide), hacc, testBit_ccrUpdateEUNZ_e hmode hw]
  · rw [hacc] at hfit ⊢
    rw [hbit _ (by unfold NormBit; decide), testBit_ccrUpdateEUNZ_u hmode hw hfit]
  · rw [hbit _ (by unfold NormBit; decide), hacc, testBit_ccrUpdateEUNZ_z hmode hw]

/-! ## One step on values -/

/-- a value within 47 bits doubles exactly -/
theorem sval_ofVal_double {a : Acc56} (ha : a.InWidth) (h : ¬Overflows 46 a.sval) :
    (Acc56.ofVal (a.val * 2)).sval = 2 * a.sval := by
  have hlt := Acc56.val_lt ha
  rw [Acc56.sval_eq, Overflows] at h
  rw [Acc56.sval_eq, Acc56.sval_eq, Acc56.val_ofVal]
  norm_num at h hlt ⊢
  omega

/-- `--Rn; Rn &= BITMASK(16)` -/
theorem rn_decrement (r : ℕ) : ((sub32 r 1 &&& bitmask 16 : ℕ) : ℤ) = ((r : ℤ) - 1) % 2 ^ 16 := by
  simp only [sub32, bitmask, Nat.and_two_pow_sub_one_eq_mod]
  omega

/-- `++Rn; Rn &= BITMASK(16)` -/
theorem rn_increment (r : ℕ) : (r + 1) % 2 ^ 32 &&& bitmask 16 = (r + 1) % 2 ^ 16 := by
  simp only [bitmask, Nat.and_two_pow_sub_one_eq_mod]
  omega

section Steps

variable {curInst : ℕ} {regs : DspRegisters} (hf : NormFlags regs (normDest curInst))
include hf

/-- an unnormalized nonzero accumulator within 48 bits: doubled, and Rn counted down -/
theorem norm_step_left (hfit : ¬Overflows 47 (loadAcc regs (normDest curInst)).sval)
    (hun : ¬Overflows 46 (loadAcc regs (normDest curInst)).sval) (hne : (loadAcc regs (normDest curInst)).sval ≠ 0) :
    (loadAcc (emuNorm curInst regs) (normDest curInst)).sval = 2 * (loadAcc regs (normDest curInst)).sval ∧
      (emuNorm curInst regs (normReg curInst) : ℤ) = ((regs (normReg curInst) : ℤ) - 1) % 2 ^ 16 ∧
      NormFlags (emuNorm curInst regs) (normDest curInst) := by
  have hE : (regs dspRegSr).testBit dspSrE = false := by simpa [hf.e] using hfit
  have hU : (regs dspRegSr).testBit dspSrU = true := by simpa [hf.u hfit] using hun
  have hZ : (regs dspRegSr).testBit dspSrZ = false := by simpa [hf.z] using hne
  have hw : (dspAsl56 (loadAcc regs (normDest curInst)) 1).1.InWidth := by
    rw [dspAsl56_fst hf.width]
    exact Acc56.inWidth_ofVal _
  rw [emuNorm_left curInst regs hE hU hZ, loadAcc_normStore, normStore_normReg, dspAsl56_fst hf.width, pow_one]
  exact ⟨sval_ofVal_double hf.width hun, rn_decrement _,
    normFlags_normStore curInst hf.mode hw (shiftBits_asl _ _) _⟩

/-- an accumulator beyond 48 bits: the word halved as an unsigned number, and Rn counted up -/
theorem norm_step_right (hext : Overflows 47 (loadAcc regs (normDest curInst)).sval) :
    (loadAcc (emuNorm curInst regs) (normDest curInst)).val = (loadAcc regs (normDest curInst)).val / 2 ∧
      emuNorm curInst regs (normReg curInst) = (regs (normReg curInst) + 1) % 2 ^ 16 ∧
      NormFlags (emuNorm curInst regs) (normDest curInst) := by
  have hE : (regs dspRegSr).testBit dspSrE = true := by simpa [hf.e] using hext
  have hlt := Acc56.val_lt hf.width
  have hw : (dspAsr56 (loadAcc regs (normDest curInst)) 1).1.InWidth := by
    rw [dspAsr56_eq hf.width]
    exact Acc56.inWidth_ofVal _
  have hval : (dspAsr56 (loadAcc regs (normDest curInst)) 1).1.val = (loadAcc regs (normDest curInst)).val / 2 := by
    rw [dspAsr56_eq hf.width, Acc56.val_ofVal, pow_one]
    exact Nat.mod_eq_of_lt (by omega)
  rw [emuNorm_right curInst regs hE, loadAcc_normStore, normStore_normReg, rn_increment]
  exact ⟨hval, rfl, normFlags_normStore curInst hf.mode hw (shiftBits_asr _ _) _⟩

/-- a normalized or zero accumulator: nothing moves -/
theorem norm_step_idle (hfit : ¬Overflows 47 (loadAcc regs (normDest curInst)).sval)
    (hdone : Overflows 46 (loadAcc regs (normDest curInst)).sval ∨ (loadAcc regs (normDest curInst)).sval = 0) :
    loadAcc (emuNorm curInst regs) (normDest curInst) = loadAcc regs (normDest curInst) ∧
      emuNorm curInst regs (normReg curInst) = regs (normReg curInst) ∧
      NormFlags (emuNorm curInst regs) (normDest curInst) := by
  have hE : (regs dspRegSr).testBit dspSrE = false := by simpa [hf.e] using hfit
  have hUZ : (regs dspRegSr).testBit dspSrU = false ∨ (regs dspRegSr).testBit dspSrZ = true := by
    rcases hdone with h | h
    · exact Or.inl (by simpa [hf.u hfit] using h)
    · exact Or.inr (by simpa [hf.z] using h)
  rw [emuNorm_idle curInst regs hE hUZ, loadAcc_normStore, normStore_normReg]
  exact ⟨rfl, rfl, normFlags_normStore curInst hf.mode hf.width shiftBits_zero _⟩

end Steps

/-! ## Runs -/

/-- a normalized or zero accumulator stays, and so does Rn -/
theorem norm_run_idle {curInst : ℕ} (n : ℕ) {regs : DspRegisters} (hf : NormFlags regs (normDest curInst))
    (hfit : ¬Overflows 47 (loadAcc regs (normDest curInst)).sval)
    (hdone : Overflows 46 (loadAcc regs (normDest curInst)).sval ∨ (loadAcc regs (normDest curInst)).sval = 0) :
    loadAcc ((emuNorm curInst)^[n] regs) (normDest curInst) = loadAcc regs (normDest curInst) ∧
      (emuNorm curInst)^[n] regs (normReg curInst) = regs (normReg curInst) ∧
      NormFlags ((emuNorm curInst)^[n] regs) (normDest curInst) := by
  induction n generalizing regs with
  | zero => exact ⟨rfl, rfl, hf⟩
  | succ n ih =>
    obtain ⟨hacc, hr, hf'⟩ := norm_step_idle hf hfit hdone
    obtain ⟨hacc', hr', hf''⟩ := ih hf' (hacc ▸ hfit) (hacc ▸ hdone)
    rw [Function.iterate_succ_apply]
    exact ⟨hacc'.trans hacc, hr'.trans hr, hf''⟩

/-- the steps from a nonzero accumulator within 48 bits, by induction on the steps: `k` of them double it, and if
fewer than all it is normalized -/
theorem norm_run_left {curInst : ℕ} (n : ℕ) {regs : DspRegisters} (hf : NormFlags regs (normDest curInst))
    (hfit : ¬Overflows 47 (loadAcc regs (normDest curInst)).sval) (hne : (loadAcc regs (normDest curInst)).sval ≠ 0)
    (hR : regs (normReg curInst) < 2 ^ 16) :
    ∃ k ≤ n, (loadAcc ((emuNorm curInst)^[n] regs) (normDest curInst)).sval =
        (loadAcc regs (normDest curInst)).sval * 2 ^ k ∧
      ¬Overflows 47 (loadAcc ((emuNorm curInst)^[n] regs) (normDest curInst)).sval ∧
      (k < n → Overflows 46 (loadAcc ((emuNorm curInst)^[n] regs) (normDest curInst)).sval) ∧
      ((emuNorm curInst)^[n] regs (normReg curInst) : ℤ) = ((regs (normReg curInst) : ℤ) - k) % 2 ^ 16 := by
  induction n generalizing regs with
  | zero => exact ⟨0, le_rfl, by simp, hfit, fun h => absurd h (lt_irrefl 0), by simp; omega⟩
  | succ n ih =>
    by_cases hdone : Overflows 46 (loadAcc regs (normDest curInst)).sval
    · -- normalized already: every step keeps it
      obtain ⟨hacc, hr, -⟩ := norm_run_idle (n + 1) hf hfit (Or.inl hdone)
      rw [hacc, hr]
      exact ⟨0, Nat.zero_le _, by simp, hfit, fun _ => hdone, by omega⟩
    · obtain ⟨hval, hr, hf'⟩ := norm_step_left hf hfit hdone hne
      -- the doubled value is nonzero, within 48 bits, and Rn is a 16-bit value again
      have hfit' : ¬Overflows 47 (loadAcc (emuNorm curInst regs) (normDest curInst)).sval := by
        rw [hval]
        unfold Overflows at hdone ⊢
        norm_num at hdone ⊢
        omega
      have hne' : (loadAcc (emuNorm curInst regs) (normDest curInst)).sval ≠ 0 := by
        rw [hval]
        omega
      have hR' : emuNorm curInst regs (normReg curInst) < 2 ^ 16 := by omega
      obtain ⟨k, hk, hval', hfit'', hnorm, hr'⟩ := ih hf' hfit' hne' hR'
      rw [Function.iterate_succ_apply]
      refine ⟨k + 1, by omega, by rw [hval', hval]; ring, hfit'', fun hlt => hnorm (by omega), ?_⟩
      rw [hr', hr]
      omega

/-- a nonzero value that stays within 48 bits when doubled `k` times: `k ≤ 47`, and at 47 it is `-2 ^ 47` -/
theorem doublings_le {v : ℤ} (hv : v ≠ 0) {k : ℕ} (h : ¬Overflows 47 (v * 2 ^ k)) :
    k ≤ 47 ∧ (k = 47 → Overflows 46 (v * 2 ^ k)) := by
  unfold Overflows at h ⊢
  push Not at h
  refine ⟨?_, fun hk => ?_⟩
  · by_contra hk
    have hpow : (2 : ℤ) ^ 48 ≤ 2 ^ k := pow_le_pow_right₀ (by norm_num) (by omega)
    rcases lt_or_gt_of_ne hv with hneg | hpos
    · nlinarith
    · nlinarith
  · subst hk
    norm_num at h ⊢
    omega

/-- the steps from an accumulator beyond 48 bits, by induction on the steps: `j` of them halve the word, as an unsigned
number, until it is within 48 bits, where it is normalized -/
theorem norm_run_right {curInst : ℕ} (n : ℕ) {regs : DspRegisters} (hf : NormFlags regs (normDest curInst))
    (hext : Overflows 47 (loadAcc regs (normDest curInst)).sval)
    (hlt : (loadAcc regs (normDest curInst)).val < 2 ^ (47 + n)) :
    ∃ j, 1 ≤ j ∧ j ≤ n ∧
      (loadAcc ((emuNorm curInst)^[n] regs) (normDest curInst)).val = (loadAcc regs (normDest curInst)).val / 2 ^ j ∧
      2 ^ 46 ≤ (loadAcc ((emuNorm curInst)^[n] regs) (normDest curInst)).val ∧
      (loadAcc ((emuNorm curInst)^[n] regs) (normDest curInst)).val < 2 ^ 47 ∧
      (emuNorm curInst)^[n] regs (normReg curInst) = (regs (normReg curInst) + j) % 2 ^ 16 := by
  induction n generalizing regs with
  | zero =>
    -- beyond 48 bits means at least `2 ^ 47` as a word
    have := Acc56.val_lt hf.width
    rw [Acc56.sval_eq, Overflows] at hext
    norm_num at hext hlt
    omega
  | succ n ih =>
    have hw := Acc56.val_lt hf.width
    obtain ⟨hval, hr, hf'⟩ := norm_step_right hf hext
    -- the halved word is below the sign bit, so it is its own signed value
    have hsval : (loadAcc (emuNorm curInst regs) (normDest curInst)).sval =
        (loadAcc (emuNorm curInst regs) (normDest curInst)).val :=
      signedVal_of_lt (by rw [hval]; norm_num at hw ⊢; omega)
    rw [Function.iterate_succ_apply]
    by_cases hext' : Overflows 47 (loadAcc (emuNorm curInst regs) (normDest curInst)).sval
    · have hlt' : (loadAcc (emuNorm curInst regs) (normDest curInst)).val < 2 ^ (47 + n) := by
        rw [hval, Nat.div_lt_iff_lt_mul (by norm_num), ← pow_succ]
        exact hlt
      obtain ⟨j, hj1, hjn, hval', hlo, hhi, hr'⟩ := ih hf' hext' hlt'
      refine ⟨j + 1, by omega, by omega, ?_, hlo, hhi, ?_⟩
      · rw [hval', hval, Nat.div_div_eq_div_mul, ← pow_succ']
      · rw [hr', hr]
        omega
    · -- within 48 bits after one halving, and at least `2 ^ 46`: normalized, so the rest of the steps keep it
      have hge : 2 ^ 47 ≤ (loadAcc regs (normDest curInst)).val := by
        rw [Acc56.sval_eq, Overflows] at hext
        norm_num at hext ⊢
        omega
      have hhalf : 2 ^ 46 ≤ (loadAcc (emuNorm curInst regs) (normDest curInst)).val := by
        rw [hval]
        omega
      have hdone : Overflows 46 (loadAcc (emuNorm curInst regs) (normDest curInst)).sval := by
        rw [hsval, Overflows]
        right
        exact_mod_cast hhalf
      obtain ⟨hacc, hr', -⟩ := norm_run_idle n hf' hext' (Or.inl hdone)
      have hlow : (loadAcc (emuNorm curInst regs) (normDest curInst)).val < 2 ^ 47 := by
        rw [hsval, Overflows] at hext'
        push Not at hext'
        exact_mod_cast hext'.2
      rw [hacc, hr', hr]
      exact ⟨1, le_rfl, by omega, by rw [hval, pow_one], hhalf, hlow, rfl⟩

/-! ## Normalization -/

/-- NORM repeated at least 47 times from a nonzero accumulator that fits 48 bits, with SR describing it: the
accumulator is doubled `k ≤ 47` times, ends normalized (bits 47 and 46 differ) and Rn is counted down by `k` -/
theorem norm_normalizes (curInst : ℕ) {regs : DspRegisters} (hf : NormFlags regs (normDest curInst))
    (hfit : ¬Overflows 47 (loadAcc regs (normDest curInst)).sval) (hne : (loadAcc regs (normDest curInst)).sval ≠ 0)
    (hR : regs (normReg curInst) < 2 ^ 16) {n : ℕ} (hn : 47 ≤ n) :
    ∃ k : ℕ, k ≤ 47 ∧ (loadAcc ((emuNorm curInst)^[n] regs) (normDest curInst)).sval =
        (loadAcc regs (normDest curInst)).sval * 2 ^ k ∧
      Overflows 46 (loadAcc ((emuNorm curInst)^[n] regs) (normDest curInst)).sval ∧
      ¬Overflows 47 (loadAcc ((emuNorm curInst)^[n] regs) (normDest curInst)).sval ∧
      ((emuNorm curInst)^[n] regs (normReg curInst) : ℤ) = ((regs (normReg curInst) : ℤ) - k) % 2 ^ 16 := by
  obtain ⟨k, -, hval, hfit', hnorm, hr⟩ := norm_run_left n hf hfit hne hR
  have hle := doublings_le hne (hval ▸ hfit')
  refine ⟨k, hle.1, hval, ?_, hfit', hr⟩
  -- fewer doublings than steps, or all 47 of them
  rcases Nat.lt_or_ge k n with hlt | hge
  · exact hnorm hlt
  · rw [hval]
    exact hle.2 (by omega)

/-- A = 1, with SR as an ALU instruction on it leaves it (U set), and R0 = 0 -/
def normOneRegs : DspRegisters := fun r => if r = dspRegA0 then 1 else if r = dspRegSr then 1 <<< dspSrU else 0

/-- SR describes A = 1 -/
theorem normOneRegs_flags : NormFlags normOneRegs (normDest 0x01d815) :=
  ⟨⟨by decide +kernel, by decide +kernel, by decide +kernel⟩, by decide +kernel, by decide +kernel,
    by decide +kernel, by decide +kernel⟩

/-- `norm R0,A` 47 times from A = 1 -/
theorem norm_one_normalizes :
    ∃ k : ℕ, k ≤ 47 ∧ (loadAcc ((emuNorm 0x01d815)^[47] normOneRegs) (normDest 0x01d815)).sval =
        (loadAcc normOneRegs (normDest 0x01d815)).sval * 2 ^ k ∧
      Overflows 46 (loadAcc ((emuNorm 0x01d815)^[47] normOneRegs) (normDest 0x01d815)).sval ∧
      ¬Overflows 47 (loadAcc ((emuNorm 0x01d815)^[47] normOneRegs) (normDest 0x01d815)).sval ∧
      ((emuNorm 0x01d815)^[47] normOneRegs (normReg 0x01d815) : ℤ) =
        ((normOneRegs (normReg 0x01d815) : ℤ) - k) % 2 ^ 16 :=
  norm_normalizes 0x01d815 normOneRegs_flags (by decide +kernel) (by decide +kernel) (by decide +kernel) le_rfl

/-- NORM repeated at least 9 times from an accumulator that does not fit 48 bits, with SR describing it: the 56-bit
word is shifted right by `j ≤ 9` places as an unsigned number, so that the result is the nonnegative
`val / 2 ^ j`, normalized, and Rn is counted up by `j`. A negative accumulator comes out positive -/
theorem norm_extended_unsigned (curInst : ℕ) {regs : DspRegisters} (hf : NormFlags regs (normDest curInst))
    (hext : Overflows 47 (loadAcc regs (normDest curInst)).sval) {n : ℕ} (hn : 9 ≤ n) :
    ∃ j, 1 ≤ j ∧ j ≤ 9 ∧
      (loadAcc ((emuNorm curInst)^[n] regs) (normDest curInst)).sval =
        ((loadAcc regs (normDest curInst)).val / 2 ^ j : ℕ) ∧
      Overflows 46 (loadAcc ((emuNorm curInst)^[n] regs) (normDest curInst)).sval ∧
      ¬Overflows 47 (loadAcc ((emuNorm curInst)^[n] regs) (normDest curInst)).sval ∧
      (emuNorm curInst)^[n] regs (normReg curInst) = (regs (normReg curInst) + j) % 2 ^ 16 := by
  have hw := Acc56.val_lt hf.width
  have hlt : (loadAcc regs (normDest curInst)).val < 2 ^ (47 + n) :=
    lt_of_lt_of_le hw (Nat.pow_le_pow_right (by norm_num) (by omega))
  obtain ⟨j, hj1, -, hval, hlo, hhi, hr⟩ := norm_run_right n hf hext hlt
  -- the result is below the sign bit: its signed value is the word itself
  have hsval : (loadAcc ((emuNorm curInst)^[n] regs) (normDest curInst)).sval =
      (loadAcc ((emuNorm curInst)^[n] regs) (normDest curInst)).val :=
    signedVal_of_lt (lt_trans hhi (by norm_num))
  -- `2 ^ (46 + j) ≤ val < 2 ^ 56`, so at most 9 halvings
  have hj9 : j ≤ 9 := by
    have hmul : 2 ^ 46 * 2 ^ j ≤ (loadAcc regs (normDest curInst)).val := by
      rw [← Nat.le_div_iff_mul_le (by positivity), ← hval]
      exact hlo
    rw [← pow_add] at hmul
    have := (Nat.pow_lt_pow_iff_right (by norm_num : 1 < 2)).mp (lt_of_le_of_lt hmul hw)
    omega
  refine ⟨j, hj1, hj9, by rw [hsval, hval], ?_, ?_, hr⟩
  · rw [hsval, Overflows]
    right
    exact_mod_cast hlo
  · rw [hsval, Overflows]
    push Not
    constructor
    · exact le_trans (by norm_num) (Int.natCast_nonneg _)
    · exact_mod_cast hhi

/-- A = -2 ^ 48 (A2 = 0xff), with E set in SR, and R0 = 0 -/
def normExtRegs : DspRegisters := fun r => if r = dspRegA2 then 0xff else if r = dspRegSr then 1 <<< dspSrE else 0

/-- SR describes A = -2 ^ 48 -/
theorem normExtRegs_flags : NormFlags normExtRegs (normDest 0x01d815) :=
  ⟨⟨by decide +kernel, by decide +kernel, by decide +kernel⟩, by decide +kernel, by decide +kernel,
    fun h => absurd h (by decide +kernel), by decide +kernel⟩

/-- `norm R0,A` 9 times from A = -2 ^ 48 ends at a nonnegative value -/
theorem norm_negative_comes_out_positive :
    (loadAcc normExtRegs (normDest 0x01d815)).sval < 0 ∧
    ∃ j, 1 ≤ j ∧ j ≤ 9 ∧
      (loadAcc ((emuNorm 0x01d815)^[9] normExtRegs) (normDest 0x01d815)).sval =
        ((loadAcc normExtRegs (normDest 0x01d815)).val / 2 ^ j : ℕ) ∧
      Overflows 46 (loadAcc ((emuNorm 0x01d815)^[9] normExtRegs) (normDest 0x01d815)).sval ∧
      ¬Overflows 47 (loadAcc ((emuNorm 0x01d815)^[9] normExtRegs) (normDest 0x01d815)).sval ∧
      (emuNorm 0x01d815)^[9] normExtRegs (normReg 0x01d815) = (normExtRegs (normReg 0x01d815) + j) % 2 ^ 16 :=
  ⟨by decide +kernel, norm_extended_unsigned 0x01d815 normExtRegs_flags (by decide +kernel) le_rfl⟩

end Xemu.Dsp
