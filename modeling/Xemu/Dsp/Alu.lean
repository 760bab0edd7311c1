import Mathlib
/-!
# The DSP56300 register file and its 56-bit arithmetic

The interpreter of the APU's DSPs (hw/xbox/mcpx/apu/dsp/dsp_cpu.c) keeps every register in `dsp->registers[]`,
indexed by the DSP_REG_* numbers, and the accumulators A and B as three parts each: the 8-bit extension (A2), the
24-bit most significant part (A1) and the 24-bit least significant part (A0). The 56-bit helpers work on those parts
as `uint32_t[3]` arrays, `dest[0]` the extension. They are translated here as the source computes them, with the
32-bit wrap-around of the subtractions written out. `emu_ccr_update_e_u_n_z` from dsp_emu.c.inc, which sets the
condition codes after an ALU result, is here too.
-/

namespace Xemu.Dsp

/-- BITMASK -/
def bitmask (x : ℕ) : ℕ := 2 ^ x - 1

/-- a `uint32_t` subtraction -/
def sub32 (a b : ℕ) : ℕ := (a + (2 ^ 32 - b % 2 ^ 32)) % 2 ^ 32

/-! ## Registers -/

def dspRegX0 : ℕ := 0x04
def dspRegX1 : ℕ := 0x05
def dspRegY0 : ℕ := 0x06
def dspRegY1 : ℕ := 0x07
def dspRegA0 : ℕ := 0x08
def dspRegB0 : ℕ := 0x09
def dspRegA2 : ℕ := 0x0a
def dspRegB2 : ℕ := 0x0b
def dspRegA1 : ℕ := 0x0c
def dspRegB1 : ℕ := 0x0d
def dspRegLcsave : ℕ := 0x30
def dspRegSr : ℕ := 0x39
def dspRegSp : ℕ := 0x3b
def dspRegSsh : ℕ := 0x3c
def dspRegSsl : ℕ := 0x3d
def dspRegLa : ℕ := 0x3e
def dspRegLc : ℕ := 0x3f

/-! ## Status register bits -/

def dspSrC : ℕ := 0x00
def dspSrV : ℕ := 0x01
def dspSrZ : ℕ := 0x02
def dspSrN : ℕ := 0x03
def dspSrU : ℕ := 0x04
def dspSrE : ℕ := 0x05
def dspSrL : ℕ := 0x06
def dspSrI0 : ℕ := 0x08
def dspSrI1 : ℕ := 0x09
def dspSrS0 : ℕ := 0x0a
def dspSrS1 : ℕ := 0x0b
def dspSrT : ℕ := 0x0d
def dspSrLf : ℕ := 0x0f

/-- the register file `dsp->registers[]` -/
abbrev DspRegisters := ℕ → ℕ

/-- `dsp->registers[r] = v` -/
def setReg (regs : DspRegisters) (r v : ℕ) : DspRegisters := Function.update regs r v

@[simp]
theorem setReg_self (regs : DspRegisters) (r v : ℕ) : setReg regs r v r = v := by
  simp [setReg]

@[simp]
theorem setReg_of_ne (regs : DspRegisters) {r r' : ℕ} (v : ℕ) (h : r' ≠ r) : setReg regs r v r' = regs r' := by
  simp [setReg, h]

/-! ## 56-bit values -/

/-- a 56-bit value as the helpers keep it: `dest[0]`, `dest[1]`, `dest[2]` -/
structure Acc56 where
  ext : ℕ
  msp : ℕ
  lsp : ℕ
  deriving DecidableEq, Repr

/-- dsp_asl56: `dest` shifted left by `n`, and the L, V and C bits it returns -/
def dspAsl56 (dest : Acc56) (n : ℕ) : Acc56 × ℕ :=
  let destV := dest.lsp ||| (dest.msp <<< 24) ||| (dest.ext <<< 48)
  let carry := (destV >>> (56 - n)) &&& 1
  let destS := (destV <<< n) % 2 ^ 64
  let overflow := if destV >>> (56 - n) ≠ 0 then 1 else 0
  let v := if (destV >>> 55) &&& 1 ≠ (destS >>> 55) &&& 1 then 1 else 0
  (⟨(destS >>> 48) &&& bitmask 8, (destS >>> 24) &&& bitmask 24, destS &&& bitmask 24⟩,
    (overflow <<< dspSrL) ||| (v <<< dspSrV) ||| (carry <<< dspSrC))

/-- dsp_asr56: `dest` shifted right by `n`, and the C bit it returns. The three parts are packed into a `uint64_t`
and shifted as an unsigned number. For `n = 0` the source shifts by `n - 1 = -1`, which C leaves undefined; the
model reads bit 0 there. -/
def dspAsr56 (dest : Acc56) (n : ℕ) : Acc56 × ℕ :=
  let destV := dest.lsp ||| (dest.msp <<< 24) ||| (dest.ext <<< 48)
  let carry := (destV >>> (n - 1)) &&& 1
  let destV := destV >>> n
  (⟨(destV >>> 48) &&& bitmask 8, (destV >>> 24) &&& bitmask 24, destV &&& bitmask 24⟩, carry <<< dspSrC)

/-- dsp_add56: `dest + source`, and the L, V and C bits it returns -/
def dspAdd56 (source dest : Acc56) : Acc56 × ℕ :=
  let flgS := (source.ext >>> 7) &&& 1
  let flgD := (dest.ext >>> 7) &&& 1
  let d2 := (dest.lsp + source.lsp) % 2 ^ 32
  let d1 := (dest.msp + (source.msp + ((d2 >>> 24) &&& 1))) % 2 ^ 32
  let d0 := (dest.ext + (source.ext + ((d1 >>> 24) &&& 1))) % 2 ^ 32
  let carry := (d0 >>> 8) &&& 1
  let r : Acc56 := ⟨d0 &&& bitmask 8, d1 &&& bitmask 24, d2 &&& bitmask 24⟩
  let flgR := (r.ext >>> 7) &&& 1
  let overflow := (flgS ^^^ flgR) &&& (flgD ^^^ flgR)
  (r, (overflow <<< dspSrL) ||| (overflow <<< dspSrV) ||| (carry <<< dspSrC))

/-- dsp_sub56: `dest - source`, and the L, V and C bits it returns -/
def dspSub56 (source dest : Acc56) : Acc56 × ℕ :=
  -- dest_save is a uint16_t
  let destSave := dest.ext % 2 ^ 16
  let d2 := sub32 dest.lsp source.lsp
  let d1 := sub32 dest.msp ((source.msp + ((d2 >>> 24) &&& 1)) % 2 ^ 32)
  let d0 := sub32 dest.ext ((source.ext + ((d1 >>> 24) &&& 1)) % 2 ^ 32)
  let carry := (d0 >>> 8) &&& 1
  let r : Acc56 := ⟨d0 &&& bitmask 8, d1 &&& bitmask 24, d2 &&& bitmask 24⟩
  let flgS := (source.ext >>> 7) &&& 1
  let flgD := (destSave >>> 7) &&& 1
  let flgR := (r.ext >>> 7) &&& 1
  let overflow := (flgS ^^^ flgD) &&& (flgR ^^^ flgD)
  (r, (overflow <<< dspSrL) ||| (overflow <<< dspSrV) ||| (carry <<< dspSrC))

/-- dsp_abs56: `|dest|`, as `0 - dest` from dsp_sub56 when the sign bit is set, and the bits it returns -/
def dspAbs56 (dest : Acc56) : Acc56 × ℕ :=
  if dest.ext &&& (1 <<< 7) ≠ 0 then dspSub56 dest ⟨0, 0, 0⟩ else (dest, 0)

/-- SIGN_PLUS -/
def signPlus : ℕ := 0
/-- SIGN_MINUS -/
def signMinus : ℕ := 1

/-- the sign handling of dsp_mul56: a negative 24-bit operand is replaced by its magnitude and flips the sign -/
def mulOperand (source signe : ℕ) : ℕ × ℕ :=
  if source &&& (1 <<< 23) ≠ 0 then (sub32 (1 <<< 24) source, signe ^^^ 1) else (source, signe)

/-- the unsigned product of dsp_mul56, from four 12-bit partial products, with its carries propagated -/
def mulMagnitudes (source1 source2 : ℕ) : Acc56 :=
  let part0 := (source1 &&& bitmask 12) * (source2 &&& bitmask 12)
  let part1 := ((source1 >>> 12) &&& bitmask 12) * (source2 &&& bitmask 12)
  let part2 := (source1 &&& bitmask 12) * ((source2 >>> 12) &&& bitmask 12)
  let part3 := ((source1 >>> 12) &&& bitmask 12) * ((source2 >>> 12) &&& bitmask 12)
  let d2 := part0 + ((part1 &&& bitmask 12) <<< 12) + ((part2 &&& bitmask 12) <<< 12)
  let d1 := ((part1 >>> 12) &&& bitmask 12) + ((part2 >>> 12) &&& bitmask 12) + part3
  -- add carries
  let value := (d2 >>> 24) &&& bitmask 8
  let (d1, d2) := if value ≠ 0 then (d1 + value, d2 &&& bitmask 24) else (d1, d2)
  let value := (d1 >>> 24) &&& bitmask 8
  if value ≠ 0 then ⟨value, d1 &&& bitmask 24, d2⟩ else ⟨0, d1, d2⟩

/-- dsp_mul56: `±source1 * source2` as a 56-bit fraction (the product shifted left once) -/
def dspMul56 (source1 source2 signe : ℕ) : Acc56 :=
  let (source1, signe) := mulOperand source1 signe
  let (source2, signe) := mulOperand source2 signe
  -- get rid of the extra sign bit
  let dest := (dspAsl56 (mulMagnitudes source1 source2) 1).1
  if signe ≠ 0 then (dspSub56 dest ⟨0, 0, 0⟩).1 else dest

/-- dsp_rnd56: rounding in the scaling mode that SR selects -/
def dspRnd56 (sr : ℕ) (dest : Acc56) : Acc56 :=
  if sr &&& (1 <<< dspSrS0) ≠ 0 then
    let dest := (dspAdd56 ⟨0, 1, 0⟩ dest).1
    let msp := if dest.lsp = 0 ∧ dest.msp &&& 1 = 0 then dest.msp &&& (0xffffff - 0x3) else dest.msp
    ⟨dest.ext, msp &&& 0xfffffe, 0⟩
  else if sr &&& (1 <<< dspSrS1) ≠ 0 then
    let dest := (dspAdd56 ⟨0, 0, 1 <<< 22⟩ dest).1
    let lsp := if dest.lsp &&& 0x7fffff = 0 then 0 else dest.lsp
    ⟨dest.ext, dest.msp, lsp &&& 0x800000⟩
  else
    let dest := (dspAdd56 ⟨0, 0, 1 <<< 23⟩ dest).1
    ⟨dest.ext, if dest.lsp = 0 then dest.msp &&& 0xfffffe else dest.msp, 0⟩

/-! ## Condition codes -/

/-- the E and U bits of emu_ccr_update_e_u_n_z in scaling mode `scaling`; `none` for the reserved mode 3, in which
the source returns before setting Z and N -/
def extensionUnnormalized (scaling reg0 reg1 : ℕ) : Option ℕ :=
  match scaling with
  | 0 =>
    let valueE := (reg0 <<< 1) + (reg1 >>> 23)
    some ((if valueE ≠ 0 ∧ valueE ≠ bitmask 9 then 1 <<< dspSrE else 0) |||
      (if reg1 &&& 0xc00000 = 0 ∨ reg1 &&& 0xc00000 = 0xc00000 then 1 <<< dspSrU else 0))
  | 1 =>
    let valueU := ((reg0 <<< 1) + (reg1 >>> 23)) &&& 3
    some ((if reg0 ≠ 0 ∧ reg0 ≠ bitmask 8 then 1 <<< dspSrE else 0) |||
      (if valueU = 0 ∨ valueU = 3 then 1 <<< dspSrU else 0))
  | 2 =>
    let valueE := (reg0 <<< 2) + (reg1 >>> 22)
    some ((if valueE ≠ 0 ∧ valueE ≠ bitmask 10 then 1 <<< dspSrE else 0) |||
      (if reg1 &&& 0x600000 = 0 ∨ reg1 &&& 0x600000 = 0x600000 then 1 <<< dspSrU else 0))
  | _ => none

/-- emu_ccr_update_e_u_n_z: E, U, N and Z for the 56-bit result `reg0:reg1:reg2`, in the status register `sr` -/
def ccrUpdateEUNZ (sr reg0 reg1 reg2 : ℕ) : ℕ :=
  let sr := sr &&& (bitmask 16 - ((1 <<< dspSrE) ||| (1 <<< dspSrU) ||| (1 <<< dspSrN) ||| (1 <<< dspSrZ)))
  match extensionUnnormalized ((sr >>> dspSrS0) &&& bitmask 2) reg0 reg1 with
  | none => sr
  | some eu =>
    let sr := sr ||| eu
    let sr := if reg1 = 0 ∧ reg2 = 0 ∧ reg0 = 0 then sr ||| (1 <<< dspSrZ) else sr
    sr ||| ((reg0 >>> 4) &&& 0x8)

end Xemu.Dsp
