import Mathlib
import Xemu.Dsp.Address
import Xemu.Dsp.Arith
import Xemu.Dsp.Multiply
/-!
# Condition codes after a compare

emu_calc_cc (hw/xbox/mcpx/apu/dsp/dsp_emu.c.inc) decides the sixteen conditions of Jcc, Bcc, JScc and the other
conditional instructions from the C, V, Z, N, U, E and L bits of SR, each with its own shifts and masks. The compare
instructions compute `D - S` with dsp_sub56 for its flags only: emu_ccr_update_e_u_n_z sets E, U, N and Z from the
difference, and V and C are replaced by the bits dsp_sub56 returns (its L is or'ed in). emu_cmp_* compares an
accumulator with the other one or with an input register sign-extended into the middle limb, emu_cmpm_* compares
the magnitudes from dsp_abs56, and emu_cmp_imm and emu_cmp_long compare with an immediate put in the middle limb
with no extension.

* `Ccr.holds`: the conditions on the flags, as the DSP56300 table gives them, and `emuCalcCc_eq`: emu_calc_cc's bit
  tests compute exactly that table.
* `testBit_compareFlags`: after a compare, C is the borrow, V the signed overflow, Z says `D = S` and N is the sign
  of the 56-bit difference, in every scaling mode but the reserved mode 3 (in which emu_ccr_update_e_u_n_z returns
  before it sets Z and N).
* `compareMeaning` says what CC, GE, NE, GT, CS, LT, EQ and LE mean after `cmp S,D`, and `compareFlags_holds` proves
  that each condition then holds exactly when its relation between `D` and `S` does.
-/

namespace Xemu.Dsp

open Words

/-! ## emu_calc_cc -/

/-- emu_calc_cc: whether condition `ccCode` holds in the status register `sr`; the `(~x) & 1` of NN and NR, the
complement's low bit, is written `1 - (x & 1)` -/
def emuCalcCc (sr ccCode : ℕ) : Bool :=
  match ccCode with
  | 0 => sr &&& (1 <<< dspSrC) = 0
  | 1 => ((sr >>> dspSrN) &&& 1) ^^^ ((sr >>> dspSrV) &&& 1) = 0
  | 2 => sr &&& (1 <<< dspSrZ) = 0
  | 3 => sr &&& (1 <<< dspSrN) = 0
  | 4 => ((sr >>> dspSrZ) &&& 1) ||| ((1 - ((sr >>> dspSrU) &&& 1)) &&& (1 - ((sr >>> dspSrE) &&& 1))) = 0
  | 5 => sr &&& (1 <<< dspSrE) = 0
  | 6 => sr &&& (1 <<< dspSrL) = 0
  | 7 => ((sr >>> dspSrZ) &&& 1) ||| (((sr >>> dspSrN) &&& 1) ^^^ ((sr >>> dspSrV) &&& 1)) = 0
  | 8 => sr &&& (1 <<< dspSrC) = 1
  | 9 => ((sr >>> dspSrN) &&& 1) ^^^ ((sr >>> dspSrV) &&& 1) = 1
  | 10 => (sr >>> dspSrZ) &&& 1 = 1
  | 11 => (sr >>> dspSrN) &&& 1 = 1
  | 12 => ((sr >>> dspSrZ) &&& 1) ||| ((1 - ((sr >>> dspSrU) &&& 1)) &&& (1 - ((sr >>> dspSrE) &&& 1))) = 1
  | 13 => (sr >>> dspSrE) &&& 1 = 1
  | 14 => (sr >>> dspSrL) &&& 1 = 1
  | 15 => ((sr >>> dspSrZ) &&& 1) ||| (((sr >>> dspSrN) &&& 1) ^^^ ((sr >>> dspSrV) &&& 1)) = 1
  | _ => false

/-- the condition-code bits of SR -/
structure Ccr where
  c : Bool
  v : Bool
  z : Bool
  n : Bool
  u : Bool
  e : Bool
  l : Bool
deriving DecidableEq, Repr

/-- the condition-code bits of a status register -/
def Ccr.ofSr (sr : ℕ) : Ccr :=
  ⟨sr.testBit dspSrC, sr.testBit dspSrV, sr.testBit dspSrZ, sr.testBit dspSrN, sr.testBit dspSrU, sr.testBit dspSrE,
    sr.testBit dspSrL⟩

/-- the sixteen conditions on the flags: CC, GE, NE, PL, NN, EC, LC, GT, CS, LT, EQ, MI, NR, ES, LS and LE -/
def Ccr.holds (f : Ccr) : ℕ → Bool
  | 0 => !f.c
  | 1 => f.n == f.v
  | 2 => !f.z
  | 3 => !f.n
  | 4 => !(f.z || !f.u && !f.e)
  | 5 => !f.e
  | 6 => !f.l
  | 7 => !(f.z || f.n != f.v)
  | 8 => f.c
  | 9 => f.n != f.v
  | 10 => f.z
  | 11 => f.n
  | 12 => f.z || !f.u && !f.e
  | 13 => f.e
  | 14 => f.l
  | 15 => f.z || f.n != f.v
  | _ => false

/-! ## Reading one bit -/

theorem land_one_shiftLeft_eq (x k : ℕ) : x &&& (1 <<< k) = (x.testBit k).toNat * 2 ^ k := by
  rw [Nat.one_shiftLeft, Nat.and_two_pow]

theorem shiftRight_land_one_eq_toNat (x k : ℕ) : (x >>> k) &&& 1 = (x.testBit k).toNat := by
  rw [shiftRight_land_one, Nat.toNat_testBit]

theorem toNat_xor_toNat (b c : Bool) : b.toNat ^^^ c.toNat = (b != c).toNat := by
  cases b <;> cases c <;> rfl

theorem toNat_or_toNat (b c : Bool) : b.toNat ||| c.toNat = (b || c).toNat := by
  cases b <;> cases c <;> rfl

theorem toNat_and_toNat (b c : Bool) : b.toNat &&& c.toNat = (b && c).toNat := by
  cases b <;> cases c <;> rfl

theorem one_sub_toNat (b : Bool) : 1 - b.toNat = (!b).toNat := by
  cases b <;> rfl

theorem pow_dspSrC : 2 ^ dspSrC = 1 := rfl

/-- emu_calc_cc computes the table of the conditions on the flags -/
theorem emuCalcCc_eq (sr cc : ℕ) : emuCalcCc sr cc = (Ccr.ofSr sr).holds cc := by
  unfold emuCalcCc Ccr.holds
  -- each test reads one to three bits: rewrite each read as its bit, then the Boolean combinations agree
  split <;> simp only [Ccr.ofSr, land_one_shiftLeft_eq, shiftRight_land_one_eq_toNat, toNat_xor_toNat,
    toNat_or_toNat, toNat_and_toNat, one_sub_toNat] <;> simp [Bool.beq_eq_decide_eq, bne, pow_dspSrC]

/-! ## The flags of emu_ccr_update_e_u_n_z -/

theorem testBit_ite_shiftLeft_of_lt {p : Prop} [Decidable p] {k i : ℕ} (h : i < k) :
    (if p then 1 <<< k else 0).testBit i = false := by
  split
  · rw [Nat.one_shiftLeft, Nat.testBit_two_pow]
    simp only [decide_eq_false_iff_not]
    omega
  · exact Nat.zero_testBit i

/-- outside the reserved scaling mode the E and U bits are computed, and they lie above N -/
theorem extensionUnnormalized_of_lt {scaling : ℕ} (h : scaling < 3) (reg0 reg1 : ℕ) :
    ∃ eu, extensionUnnormalized scaling reg0 reg1 = some eu ∧ ∀ i < 4, eu.testBit i = false := by
  have hE : ∀ i < 4, i < dspSrE := fun i hi => by unfold dspSrE; omega
  have hU : ∀ i < 4, i < dspSrU := fun i hi => by unfold dspSrU; omega
  interval_cases scaling <;> refine ⟨_, rfl, fun i hi => ?_⟩ <;>
    simp only [Nat.testBit_or, testBit_ite_shiftLeft_of_lt (hE i hi), testBit_ite_shiftLeft_of_lt (hU i hi),
      Bool.or_self]

/-- emu_ccr_update_e_u_n_z reads the scaling mode after clearing E, U, N and Z, which leaves S0 and S1 -/
theorem scaling_land_mask (sr : ℕ) :
    ((sr &&& (bitmask 16 - ((1 <<< dspSrE) ||| (1 <<< dspSrU) ||| (1 <<< dspSrN) ||| (1 <<< dspSrZ)))) >>> dspSrS0)
      &&& bitmask 2 = (sr >>> dspSrS0) &&& bitmask 2 := by
  apply Nat.eq_of_testBit_eq
  intro i
  simp only [Nat.testBit_and, Nat.testBit_shiftRight]
  rcases Nat.lt_or_ge i 2 with hi | hi
  · have hm : (bitmask 16 - ((1 <<< dspSrE) ||| (1 <<< dspSrU) ||| (1 <<< dspSrN) ||| (1 <<< dspSrZ))).testBit
        (dspSrS0 + i) = true := by
      interval_cases i <;> decide
    rw [hm, Bool.and_true]
  · have hb : (bitmask 2).testBit i = false :=
      Nat.testBit_lt_two_pow (lt_of_lt_of_le (by decide) (Nat.pow_le_pow_right (by omega) hi))
    simp only [hb, Bool.and_false]

/-- the low four bits of emu_ccr_update_e_u_n_z's result, outside the reserved scaling mode: C and V kept, Z set for
a zero result and N copied from bit 55 -/
theorem testBit_ccrUpdateEUNZ {sr : ℕ} (hsc : (sr >>> dspSrS0) &&& bitmask 2 ≠ 3) (reg0 reg1 reg2 : ℕ) {i : ℕ}
    (hi : i < 4) :
    (ccrUpdateEUNZ sr reg0 reg1 reg2).testBit i = (decide (i < 2) && sr.testBit i ||
      decide (i = 2) && decide (reg1 = 0 ∧ reg2 = 0 ∧ reg0 = 0) || decide (i = 3) && reg0.testBit 7) := by
  have hlt : ((sr &&& (bitmask 16 - ((1 <<< dspSrE) ||| (1 <<< dspSrU) ||| (1 <<< dspSrN) ||| (1 <<< dspSrZ))))
      >>> dspSrS0) &&& bitmask 2 < 3 := by
    rw [scaling_land_mask]
    have : (sr >>> dspSrS0) &&& bitmask 2 < 4 := by
      rw [land_bitmask]
      exact Nat.mod_lt _ (by decide)
    omega
  obtain ⟨eu, heu, hbits⟩ := extensionUnnormalized_of_lt hlt reg0 reg1
  -- the low bits of each part of the result: the cleared SR, E and U, Z and N
  have hmask : ∀ i < 4, (bitmask 16 - ((1 <<< dspSrE) ||| (1 <<< dspSrU) ||| (1 <<< dspSrN) ||| (1 <<< dspSrZ))).testBit
      i = decide (i < 2) := by decide
  have hz : ∀ i < 4, (1 <<< dspSrZ).testBit i = decide (i = 2) := by decide
  have h8 : ∀ i < 4, Nat.testBit 8 i = decide (i = 3) := by decide
  simp only [ccrUpdateEUNZ, heu]
  split_ifs with hzero <;>
    simp only [Nat.testBit_or, Nat.testBit_and, Nat.testBit_shiftRight, hmask i hi, hbits i hi, hz i hi, h8 i hi] <;>
    interval_cases i <;> simp [hzero]

/-! ## The flags of a compare -/

/-- the flag update of the compare family: E, U, N and Z from the difference `dest - source` that dsp_sub56
computes, then V and C replaced by the bits dsp_sub56 returns -/
def compareFlags (sr : ℕ) (source dest : Acc56) : ℕ :=
  let r := dspSub56 source dest
  let sr := ccrUpdateEUNZ sr r.1.ext r.1.msp r.1.lsp
  (sr &&& (bitmask 16 - ((1 <<< dspSrV) ||| (1 <<< dspSrC)))) ||| r.2

theorem testBit_flag (p : Prop) [Decidable p] (i : ℕ) : (flag p).testBit i = (decide (i = 0) && decide p) := by
  cases i with
  | zero =>
    unfold flag
    split_ifs with hp <;> simp [hp]
  | succ i =>
    rw [Nat.testBit_lt_two_pow (lt_of_le_of_lt (flag_le_one p) (Nat.one_lt_two_pow (Nat.succ_ne_zero i)))]
    simp

theorem testBit_srBits_low {l v c : ℕ} (hv : v ≤ 1) (hc : c ≤ 1) {i : ℕ} (hi : i < 4) :
    (srBits l v c).testBit i = (decide (i = 0) && c.testBit 0 || decide (i = 1) && v.testBit 0) := by
  have hv1 : ∀ j, 1 ≤ j → v.testBit j = false := fun j hj =>
    Nat.testBit_lt_two_pow (lt_of_le_of_lt hv (Nat.one_lt_two_pow (by omega)))
  have hc1 : ∀ j, 1 ≤ j → c.testBit j = false := fun j hj =>
    Nat.testBit_lt_two_pow (lt_of_le_of_lt hc (Nat.one_lt_two_pow (by omega)))
  unfold srBits
  simp only [Nat.testBit_or, Nat.testBit_shiftLeft, dspSrL, dspSrV, dspSrC]
  interval_cases i <;> simp [hv1, hc1]

theorem ofVal_eq_zero_iff (v : ℕ) : (Acc56.ofVal v).msp = 0 ∧ (Acc56.ofVal v).lsp = 0 ∧ (Acc56.ofVal v).ext = 0 ↔
    v % 2 ^ 56 = 0 := by
  simp only [Acc56.ofVal]
  omega

theorem Acc56.val_eq_zero_iff (x : Acc56) : x.val = 0 ↔ x.msp = 0 ∧ x.lsp = 0 ∧ x.ext = 0 := by
  simp only [Acc56.val]
  omega

theorem testBit_ofVal_ext_seven (v : ℕ) : (Acc56.ofVal v).ext.testBit 7 = v.testBit 55 := by
  simp only [Acc56.ofVal, Nat.testBit_mod_two_pow, Nat.testBit_div_two_pow]
  simp

/-- the low four bits of a compare's status register: C the borrow, V the signed overflow, Z equality and N the
sign of the difference -/
theorem testBit_compareFlags {sr : ℕ} (hsc : (sr >>> dspSrS0) &&& bitmask 2 ≠ 3) {s d : Acc56} (hs : s.InWidth)
    (hd : d.InWidth) {i : ℕ} (hi : i < 4) :
    (compareFlags sr s d).testBit i = (decide (i = 0) && decide (d.val < s.val) ||
      decide (i = 1) && decide (Overflows 55 (d.sval - s.sval)) || decide (i = 2) && decide (d.val = s.val) ||
      decide (i = 3) && decide (signBit 55 ((d.val + (2 ^ 56 - s.val)) % 2 ^ 56) = 1)) := by
  have hmask : ∀ i < 4, (bitmask 16 - ((1 <<< dspSrV) ||| (1 <<< dspSrC))).testBit i = decide (2 ≤ i) := by decide
  have hzero : (d.val + (2 ^ 56 - s.val)) % 2 ^ 56 = 0 ↔ d.val = s.val :=
    sub_mod_eq_zero_iff (s := 55) (Acc56.val_lt hd) (Acc56.val_lt hs)
  have hsign : (d.val + (2 ^ 56 - s.val)).testBit 55 =
      decide (signBit 55 ((d.val + (2 ^ 56 - s.val)) % 2 ^ 56) = 1) := by
    rw [← testBit_eq_signBit (s := 55) (Nat.mod_lt _ (by decide)), Nat.testBit_mod_two_pow]
    simp
  unfold compareFlags
  rw [dspSub56_eq hs hd]
  simp only [Nat.testBit_or, Nat.testBit_and, testBit_ccrUpdateEUNZ hsc _ _ _ hi, hmask i hi,
    testBit_srBits_low (flag_le_one _) (flag_le_one _) hi, testBit_flag, ofVal_eq_zero_iff, hzero,
    testBit_ofVal_ext_seven, hsign]
  interval_cases i <;> simp

/-! ## What the conditions mean after a compare -/

/-- what a condition says of `D` and `S` after a compare of `D - S`: the unsigned order for CC and CS, the signed
order for GE, LT, GT and LE, equality for NE and EQ; `none` for the conditions that read E, U, L or the sign of the
difference alone -/
def compareMeaning : ℕ → Option (Acc56 → Acc56 → Bool)
  | 0 => some fun d s => decide (s.val ≤ d.val)
  | 1 => some fun d s => decide (s.sval ≤ d.sval)
  | 2 => some fun d s => decide (d.val ≠ s.val)
  | 7 => some fun d s => decide (s.sval < d.sval)
  | 8 => some fun d s => decide (d.val < s.val)
  | 9 => some fun d s => decide (d.sval < s.sval)
  | 10 => some fun d s => decide (d.val = s.val)
  | 15 => some fun d s => decide (d.sval ≤ s.sval)
  | _ => none

/-- after the flag update of a compare, every condition with a meaning holds exactly when its relation between the
operands does -/
theorem compareFlags_holds {sr : ℕ} (hsc : (sr >>> dspSrS0) &&& bitmask 2 ≠ 3) {s d : Acc56} (hs : s.InWidth)
    (hd : d.InWidth) {cc : ℕ} {m : Acc56 → Acc56 → Bool} (hm : compareMeaning cc = some m) :
    emuCalcCc (compareFlags sr s d) cc = m d s := by
  have hc : (compareFlags sr s d).testBit dspSrC = decide (d.val < s.val) := by
    rw [testBit_compareFlags hsc hs hd (by decide)]
    simp [dspSrC]
  have hv : (compareFlags sr s d).testBit dspSrV = decide (Overflows 55 (d.sval - s.sval)) := by
    rw [testBit_compareFlags hsc hs hd (by decide)]
    simp [dspSrV]
  have hsv : d.sval = s.sval ↔ d.val = s.val := signedVal_inj (s := 55) (Acc56.val_lt hd) (Acc56.val_lt hs)
  have hz : (compareFlags sr s d).testBit dspSrZ = decide (d.sval = s.sval) := by
    rw [testBit_compareFlags hsc hs hd (by decide)]
    simp [dspSrZ, hsv]
  -- N differs from V exactly when `D < S` as signed values
  have hnv : ((compareFlags sr s d).testBit dspSrN != (compareFlags sr s d).testBit dspSrV) =
      decide (d.sval < s.sval) := by
    have hlt : signBit 55 ((d.val + (2 ^ 56 - s.val)) % 2 ^ 56) = 1 ↔
        (d.sval < s.sval ↔ ¬Overflows 55 (d.sval - s.sval)) :=
      signBit_sub_eq_one_iff (s := 55) (Acc56.val_lt hd) (Acc56.val_lt hs)
    rw [testBit_compareFlags hsc hs hd (by decide), hv]
    generalize signBit 55 ((d.val + (2 ^ 56 - s.val)) % 2 ^ 56) = N at hlt ⊢
    by_cases hov : Overflows 55 (d.sval - s.sval) <;> by_cases hlt' : d.sval < s.sval <;>
      simp [dspSrN, hlt, hov, hlt']
  have hge : ((compareFlags sr s d).testBit dspSrN == (compareFlags sr s d).testBit dspSrV) =
      !decide (d.sval < s.sval) := by
    rw [← hnv]
    simp [bne]
  rw [emuCalcCc_eq]
  unfold compareMeaning at hm
  split at hm <;> (try cases hm) <;> simp only [Ccr.holds, Ccr.ofSr, hc, hz, hnv, hge]
  -- CC, GE, NE, GT, EQ and LE from the borrow, `N ⊕ V` and Z; CS and LT are read off directly
  all_goals
    by_cases heq : d.val = s.val
    · simp [heq, hsv.mpr heq]
    · have hsne : d.sval ≠ s.sval := mt hsv.mp heq
      by_cases hlt : d.sval < s.sval <;> by_cases hvlt : d.val < s.val <;> simp [heq, hsne, hlt, hvlt] <;> omega

/-! ## The compare instructions -/

/-- the source operand of a compare: the other accumulator, or a data ALU input register -/
inductive CmpSource
  | acc
  | reg (r : MulSource)
  deriving DecidableEq, Repr

/-- the accumulator a compare into `d` reads as its source -/
def Accumulator.other : Accumulator → Accumulator
  | .a => .b
  | .b => .a

/-- a 24-bit input register as a compare's source: in the middle limb, its sign copied into the extension -/
def signExtend24 (v : ℕ) : Acc56 := ⟨if v &&& (1 <<< 23) ≠ 0 then 0xff else 0x0, v, 0⟩

/-- `source[0..2]` of a compare into `d` -/
def CmpSource.load (regs : DspRegisters) (d : Accumulator) : CmpSource → Acc56
  | .acc => loadAcc regs d.other
  | .reg r => signExtend24 (regs r.reg)

/-- emu_cmp_*: the flags of `D - S` -/
def cmpHandler (s : CmpSource) (d : Accumulator) (regs : DspRegisters) : DspRegisters :=
  setReg regs dspRegSr (compareFlags (regs dspRegSr) (s.load regs d) (loadAcc regs d))

/-- emu_cmpm_*: the flags of `|D| - |S|`, each magnitude from dsp_abs56 -/
def cmpmHandler (s : CmpSource) (d : Accumulator) (regs : DspRegisters) : DspRegisters :=
  setReg regs dspRegSr (compareFlags (regs dspRegSr) (dspAbs56 (s.load regs d)).1 (dspAbs56 (loadAcc regs d)).1)

def emuCmpBA : DspRegisters → DspRegisters := cmpHandler .acc .a
def emuCmpAB : DspRegisters → DspRegisters := cmpHandler .acc .b
def emuCmpX0A : DspRegisters → DspRegisters := cmpHandler (.reg .x0) .a
def emuCmpX0B : DspRegisters → DspRegisters := cmpHandler (.reg .x0) .b
def emuCmpY0A : DspRegisters → DspRegisters := cmpHandler (.reg .y0) .a
def emuCmpY0B : DspRegisters → DspRegisters := cmpHandler (.reg .y0) .b
def emuCmpX1A : DspRegisters → DspRegisters := cmpHandler (.reg .x1) .a
def emuCmpX1B : DspRegisters → DspRegisters := cmpHandler (.reg .x1) .b
def emuCmpY1A : DspRegisters → DspRegisters := cmpHandler (.reg .y1) .a
def emuCmpY1B : DspRegisters → DspRegisters := cmpHandler (.reg .y1) .b

def emuCmpmBA : DspRegisters → DspRegisters := cmpmHandler .acc .a
def emuCmpmAB : DspRegisters → DspRegisters := cmpmHandler .acc .b
def emuCmpmX0A : DspRegisters → DspRegisters := cmpmHandler (.reg .x0) .a
def emuCmpmX0B : DspRegisters → DspRegisters := cmpmHandler (.reg .x0) .b
def emuCmpmY0A : DspRegisters → DspRegisters := cmpmHandler (.reg .y0) .a
def emuCmpmY0B : DspRegisters → DspRegisters := cmpmHandler (.reg .y0) .b
def emuCmpmX1A : DspRegisters → DspRegisters := cmpmHandler (.reg .x1) .a
def emuCmpmX1B : DspRegisters → DspRegisters := cmpmHandler (.reg .x1) .b
def emuCmpmY1A : DspRegisters → DspRegisters := cmpmHandler (.reg .y1) .a
def emuCmpmY1B : DspRegisters → DspRegisters := cmpmHandler (.reg .y1) .b

/-- the destination a non-parallel compare names with bit 3 of its opcode -/
def cmpDest (curInst : ℕ) : Accumulator := if (curInst >>> 3) &&& 1 ≠ 0 then .b else .a

/-- emu_cmp_imm: `cmp #xx,D` with the six bits of the immediate in the middle limb -/
def emuCmpImm (curInst : ℕ) (regs : DspRegisters) : DspRegisters :=
  let xx := (curInst >>> 8) &&& bitmask 6
  setReg regs dspRegSr (compareFlags (regs dspRegSr) ⟨0x0, xx, 0⟩ (loadAcc regs (cmpDest curInst)))

/-- emu_cmp_long: `cmp #xxxx,D` with the word after the opcode, `xxxx` (`read_memory_p(dsp, dsp->pc+1)`), in the
middle limb; that word makes the instruction one word longer -/
def emuCmpLong (curInst xxxx : ℕ) (st : EaState) : EaState :=
  { st with
    regs := setReg st.regs dspRegSr
      (compareFlags (st.regs dspRegSr) ⟨0x0, xxxx, 0⟩ (loadAcc st.regs (cmpDest curInst)))
    curInstLen := st.curInstLen + 1 }

/-- emu_tst_a and emu_tst_b: E, U, N and Z of the accumulator, V cleared -/
def tstHandler (d : Accumulator) (regs : DspRegisters) : DspRegisters :=
  let acc := loadAcc regs d
  setReg regs dspRegSr (ccrUpdateEUNZ (regs dspRegSr) acc.ext acc.msp acc.lsp &&& (bitmask 16 - (1 <<< dspSrV)))

def emuTstA : DspRegisters → DspRegisters := tstHandler .a
def emuTstB : DspRegisters → DspRegisters := tstHandler .b

/-! ## Compares and branches -/

/-- the data ALU registers hold values of their widths: the input registers 24 bits, the accumulators 8:24:24 -/
structure DataAluInWidth (regs : DspRegisters) : Prop where
  input : ∀ r : MulSource, regs r.reg < 2 ^ 24
  acc : ∀ d : Accumulator, (loadAcc regs d).InWidth

/-- the scaling mode S1:S0 is not the reserved mode 3 -/
def ScalingDefined (regs : DspRegisters) : Prop := (regs dspRegSr >>> dspSrS0) &&& bitmask 2 ≠ 3

instance (regs : DspRegisters) : Decidable (ScalingDefined regs) := inferInstanceAs (Decidable (_ ≠ 3))

theorem signExtend24_inWidth {v : ℕ} (hv : v < 2 ^ 24) : (signExtend24 v).InWidth where
  ext := by
    unfold signExtend24
    split_ifs <;> norm_num
  msp := hv
  lsp := by
    unfold signExtend24
    norm_num

theorem CmpSource.load_inWidth {regs : DspRegisters} (hw : DataAluInWidth regs) (d : Accumulator) :
    ∀ s : CmpSource, (s.load regs d).InWidth
  | .acc => hw.acc d.other
  | .reg r => signExtend24_inWidth (hw.input r)

/-- the 56-bit magnitude that dsp_abs56 leaves: `|x|` modulo `2 ^ 56` -/
def Acc56.magnitude (x : Acc56) : Acc56 := Acc56.ofVal x.sval.natAbs

theorem dspAbs56_magnitude {x : Acc56} (hx : x.InWidth) : (dspAbs56 x).1 = x.magnitude := dspAbs56_fst hx

/-- after a compare, CC, GE, NE, GT, CS, LT, EQ and LE hold exactly when their relation between `D` and `S` does:
for emu_cmp_* with the other accumulator or a sign-extended input register as `S`, for emu_cmp_imm and emu_cmp_long
with the immediate in the middle limb, and for emu_cmpm_* between the magnitudes of `D` and `S` -/
theorem cmp_condition_codes {regs : DspRegisters} (hw : DataAluInWidth regs) (hsc : ScalingDefined regs) {cc : ℕ}
    {m : Acc56 → Acc56 → Bool} (hm : compareMeaning cc = some m) :
    (∀ (s : CmpSource) (d : Accumulator),
      emuCalcCc (cmpHandler s d regs dspRegSr) cc = m (loadAcc regs d) (s.load regs d)) ∧
    (∀ curInst : ℕ, emuCalcCc (emuCmpImm curInst regs dspRegSr) cc =
      m (loadAcc regs (cmpDest curInst)) ⟨0x0, (curInst >>> 8) &&& bitmask 6, 0⟩) ∧
    (∀ curInst xxxx : ℕ, xxxx < 2 ^ 24 → ∀ instrCycle curInstLen : ℕ,
      emuCalcCc ((emuCmpLong curInst xxxx ⟨regs, instrCycle, curInstLen⟩).regs dspRegSr) cc =
        m (loadAcc regs (cmpDest curInst)) ⟨0x0, xxxx, 0⟩) ∧
    (∀ (s : CmpSource) (d : Accumulator),
      emuCalcCc (cmpmHandler s d regs dspRegSr) cc = m (loadAcc regs d).magnitude (s.load regs d).magnitude) := by
  refine ⟨fun s d => ?_, fun curInst => ?_, fun curInst xxxx hx _ _ => ?_, fun s d => ?_⟩
  · rw [cmpHandler, setReg_self]
    exact compareFlags_holds hsc (s.load_inWidth hw d) (hw.acc d) hm
  · have hxx : (curInst >>> 8) &&& bitmask 6 < 2 ^ 24 := by
      rw [land_bitmask]
      exact lt_of_lt_of_le (Nat.mod_lt _ (by decide)) (by decide)
    rw [emuCmpImm, setReg_self]
    exact compareFlags_holds hsc ⟨Nat.two_pow_pos 8, hxx, Nat.two_pow_pos 24⟩ (hw.acc _) hm
  · dsimp only [emuCmpLong]
    rw [setReg_self]
    exact compareFlags_holds hsc ⟨Nat.two_pow_pos 8, hx, Nat.two_pow_pos 24⟩ (hw.acc _) hm
  · rw [cmpmHandler, setReg_self, dspAbs56_magnitude (s.load_inWidth hw d), dspAbs56_magnitude (hw.acc d)]
    exact compareFlags_holds hsc (Acc56.inWidth_ofVal _) (Acc56.inWidth_ofVal _) hm

/-- a register file holding 5 everywhere: every operand is in range and the scaling mode is defined -/
theorem fives_dataAluInWidth : DataAluInWidth (fun _ => 5) :=
  ⟨fun _ => show 5 < 2 ^ 24 by decide, fun _ => ⟨show 5 < 2 ^ 8 by decide, show 5 < 2 ^ 24 by decide,
    show 5 < 2 ^ 24 by decide⟩⟩

theorem cmp_gt_fives :
    (∀ (s : CmpSource) (d : Accumulator), emuCalcCc (cmpHandler s d (fun _ => 5) dspRegSr) 7 =
      decide ((s.load (fun _ => 5) d).sval < (loadAcc (fun _ => 5) d).sval)) ∧
    (∀ curInst : ℕ, emuCalcCc (emuCmpImm curInst (fun _ => 5) dspRegSr) 7 =
      decide ((⟨0x0, (curInst >>> 8) &&& bitmask 6, 0⟩ : Acc56).sval < (loadAcc (fun _ => 5) (cmpDest curInst)).sval)) ∧
    (∀ curInst xxxx : ℕ, xxxx < 2 ^ 24 → ∀ instrCycle curInstLen : ℕ,
      emuCalcCc ((emuCmpLong curInst xxxx ⟨fun _ => 5, instrCycle, curInstLen⟩).regs dspRegSr) 7 =
        decide ((⟨0x0, xxxx, 0⟩ : Acc56).sval < (loadAcc (fun _ => 5) (cmpDest curInst)).sval)) ∧
    (∀ (s : CmpSource) (d : Accumulator), emuCalcCc (cmpmHandler s d (fun _ => 5) dspRegSr) 7 =
      decide ((s.load (fun _ => 5) d).magnitude.sval < (loadAcc (fun _ => 5) d).magnitude.sval)) :=
  cmp_condition_codes fives_dataAluInWidth (by decide)
    (show compareMeaning 7 = some fun d s => decide (s.sval < d.sval) from rfl)

/-- emu_tst_* sets V, Z and N as a compare with zero would -/
theorem testBit_tstHandler {regs : DspRegisters} (hsc : ScalingDefined regs) {d : Accumulator}
    (hd : (loadAcc regs d).InWidth) {i : ℕ} (hi1 : 1 ≤ i) (hi : i < 4) :
    (tstHandler d regs dspRegSr).testBit i = (compareFlags (regs dspRegSr) ⟨0, 0, 0⟩ (loadAcc regs d)).testBit i := by
  have hmask : ∀ i < 4, (bitmask 16 - (1 <<< dspSrV)).testBit i = decide (i ≠ 1) := by decide
  have hsign : (loadAcc regs d).ext.testBit 7 = decide (signBit 55 (loadAcc regs d).val = 1) := by
    have h := Acc56.ext_signBit hd
    rw [shiftRight_land_one_eq_toNat] at h
    rw [← h]
    cases (loadAcc regs d).ext.testBit 7 <;> rfl
  -- the compare with zero: no borrow, no overflow, and the difference is `D` itself
  have hval0 : (⟨0, 0, 0⟩ : Acc56).val = 0 := rfl
  have hsval0 : (⟨0, 0, 0⟩ : Acc56).sval = 0 := by
    rw [Acc56.sval, hval0, signedVal_of_lt (Nat.two_pow_pos 55)]
    rfl
  have hov : ¬Overflows 55 ((loadAcc regs d).sval - (⟨0, 0, 0⟩ : Acc56).sval) := by
    have hb := signedVal_bounds (s := 55) (Acc56.val_lt hd)
    rw [hsval0, Int.sub_zero]
    unfold Overflows Acc56.sval
    omega
  have hdiff : ((loadAcc regs d).val + (2 ^ 56 - (⟨0, 0, 0⟩ : Acc56).val)) % 2 ^ 56 = (loadAcc regs d).val := by
    have := Acc56.val_lt hd
    rw [hval0, Nat.sub_zero, Nat.add_mod_right, Nat.mod_eq_of_lt this]
  rw [testBit_compareFlags hsc zero_inWidth hd hi, hdiff]
  unfold tstHandler
  simp only [setReg_self, Nat.testBit_and, testBit_ccrUpdateEUNZ hsc _ _ _ hi, hmask i hi, hsign, hov]
  interval_cases i <;> simp [hval0, Acc56.val_eq_zero_iff]

/-- and keeps C: neither the flag update nor the mask that clears V touches bit 0 -/
theorem testBit_tstHandler_carry {regs : DspRegisters} (hsc : ScalingDefined regs) (d : Accumulator) :
    (tstHandler d regs dspRegSr).testBit dspSrC = (regs dspRegSr).testBit dspSrC := by
  have hmask : (bitmask 16 - (1 <<< dspSrV)).testBit dspSrC = true := by decide
  unfold tstHandler
  simp only [setReg_self, Nat.testBit_and, testBit_ccrUpdateEUNZ hsc _ _ _ (by decide : dspSrC < 4), hmask]
  simp [dspSrC]

/-- after emu_tst_*, GE, NE, GT, LT, EQ and LE compare the accumulator with zero, as after `cmp #0,D`; CC and CS
read the C that TST leaves as it was -/
theorem tst_condition_codes (d : Accumulator) {regs : DspRegisters} (hw : DataAluInWidth regs)
    (hsc : ScalingDefined regs) :
    (∀ {cc : ℕ} {m : Acc56 → Acc56 → Bool}, compareMeaning cc = some m → cc ≠ 0 ∧ cc ≠ 8 →
      emuCalcCc (tstHandler d regs dspRegSr) cc = m (loadAcc regs d) ⟨0, 0, 0⟩) ∧
    emuCalcCc (tstHandler d regs dspRegSr) 0 = emuCalcCc (regs dspRegSr) 0 ∧
    emuCalcCc (tstHandler d regs dspRegSr) 8 = emuCalcCc (regs dspRegSr) 8 := by
  have hc := testBit_tstHandler_carry hsc d
  refine ⟨fun {cc m} hm hcc => ?_, ?_, ?_⟩
  · have hv := testBit_tstHandler hsc (hw.acc d) (show 1 ≤ dspSrV by decide) (by decide)
    have hz := testBit_tstHandler hsc (hw.acc d) (show 1 ≤ dspSrZ by decide) (by decide)
    have hn := testBit_tstHandler hsc (hw.acc d) (show 1 ≤ dspSrN by decide) (by decide)
    rw [← compareFlags_holds hsc zero_inWidth (hw.acc d) hm, emuCalcCc_eq, emuCalcCc_eq]
    unfold compareMeaning at hm
    -- the conditions other than CC and CS read V, Z and N only
    split at hm <;> simp_all [Ccr.holds, Ccr.ofSr]
  -- CC and CS read C alone
  all_goals
    rw [emuCalcCc_eq, emuCalcCc_eq]
    simp only [Ccr.holds, Ccr.ofSr, hc]

theorem tst_le_fives :
    emuCalcCc (tstHandler .a (fun _ => 5) dspRegSr) 15 = decide ((loadAcc (fun _ => 5) .a).sval ≤ Acc56.sval ⟨0, 0, 0⟩) := by
  -- elaborated apart from the goal, so that unifying with it does not evaluate the closed comparison
  have h := (tst_condition_codes .a fives_dataAluInWidth (by decide)).1
    (show compareMeaning 15 = some fun d s => decide (d.sval ≤ s.sval) from rfl) (show (15 : ℕ) ≠ 0 ∧ 15 ≠ 8 by decide)
  exact h

end Xemu.Dsp
