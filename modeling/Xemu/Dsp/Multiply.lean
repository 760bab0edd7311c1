import Mathlib
import Xemu.Dsp.Alu
/-!
# The multiply-accumulate handlers

The ALU opcodes 0x80 to 0xff of the DSP56300 (hw/xbox/mcpx/apu/dsp/dsp_emu.c.inc, table `opcodes_alu`) are 128
hand-unrolled handlers: mpy, mpyr, mac and macr, each with a plus and a minus sign, eight source pairs and the
destination A or B. All of them follow one pattern, which `multiplyHandler` states once: the product from dsp_mul56,
for mac and macr added to the destination with dsp_add56, for mpyr and macr rounded with dsp_rnd56 in the current
scaling mode, stored in the destination, then E, U, N and Z from the result, V cleared and, for mac and macr, L and
V from the addition.

Each handler is defined below under its own name as `multiplyHandler` at its own sign, sources and destination, as
the source writes it, except `emu_macr_p_x1_y0_b`. That one rounds its uninitialised local array before loading the
accumulator, and so stores the sum unrounded: `macr_p_x1_y0_b_skips_rounding`. `opcodesAlu_multiply` checks that
every other entry of the table is the generic handler its opcode bits select. `multiplyHandler_frame` and
`multiplyHandler_congr` show that a handler writes and reads no register but its sources, its destination and SR.
-/

namespace Xemu.Dsp

/-- the four multiply instructions -/
inductive MulFamily
  | mpy
  | mpyr
  | mac
  | macr
  deriving DecidableEq, Repr

/-- SIGN_PLUS or SIGN_MINUS -/
inductive MulSign
  | plus
  | minus
  deriving DecidableEq, Repr

/-- the data ALU input registers a multiply reads -/
inductive MulSource
  | x0
  | x1
  | y0
  | y1
  deriving DecidableEq, Repr

/-- the destination accumulator -/
inductive Accumulator
  | a
  | b
  deriving DecidableEq, Repr

def MulSign.signe : MulSign → ℕ
  | .plus => signPlus
  | .minus => signMinus

def MulSource.reg : MulSource → ℕ
  | .x0 => dspRegX0
  | .x1 => dspRegX1
  | .y0 => dspRegY0
  | .y1 => dspRegY1

/-- the register of the extension part (A2 or B2) -/
def Accumulator.reg2 : Accumulator → ℕ
  | .a => dspRegA2
  | .b => dspRegB2

/-- the register of the most significant part (A1 or B1) -/
def Accumulator.reg1 : Accumulator → ℕ
  | .a => dspRegA1
  | .b => dspRegB1

/-- the register of the least significant part (A0 or B0) -/
def Accumulator.reg0 : Accumulator → ℕ
  | .a => dspRegA0
  | .b => dspRegB0

/-- `dest[0..2]` loaded from an accumulator -/
def loadAcc (regs : DspRegisters) (d : Accumulator) : Acc56 := ⟨regs d.reg2, regs d.reg1, regs d.reg0⟩

/-- an accumulator set from `dest[0..2]` -/
def storeAcc (regs : DspRegisters) (d : Accumulator) (v : Acc56) : DspRegisters :=
  setReg (setReg (setReg regs d.reg2 v.ext) d.reg1 v.msp) d.reg0 v.lsp

/-- the tail of an mpy or mpyr handler: the result stored, E, U, N and Z set from it, V cleared -/
def finishMpy (regs : DspRegisters) (d : Accumulator) (result : Acc56) : DspRegisters :=
  let regs := storeAcc regs d result
  let regs := setReg regs dspRegSr (ccrUpdateEUNZ (regs dspRegSr) result.ext result.msp result.lsp)
  setReg regs dspRegSr (regs dspRegSr &&& (bitmask 16 - (1 <<< dspSrV)))

/-- the tail of a mac or macr handler: as for mpy, then the L and V bits of the addition -/
def finishMac (regs : DspRegisters) (d : Accumulator) (result : Acc56) (newsr : ℕ) : DspRegisters :=
  let regs := finishMpy regs d result
  setReg regs dspRegSr (regs dspRegSr ||| (newsr &&& 0xfe))

/-- the generic multiply handler: `D := ±S1*S2`, `rnd(±S1*S2)`, `D ± S1*S2` or `rnd(D ± S1*S2)` -/
def multiplyHandler (family : MulFamily) (sign : MulSign) (s1 s2 : MulSource) (d : Accumulator)
    (regs : DspRegisters) : DspRegisters :=
  let source := dspMul56 (regs s1.reg) (regs s2.reg) sign.signe
  match family with
  | .mpy => finishMpy regs d source
  | .mpyr => finishMpy regs d (dspRnd56 (regs dspRegSr) source)
  | .mac =>
    let sum := dspAdd56 source (loadAcc regs d)
    finishMac regs d sum.1 sum.2
  | .macr =>
    let sum := dspAdd56 source (loadAcc regs d)
    finishMac regs d (dspRnd56 (regs dspRegSr) sum.1) sum.2

/-! ## The handlers, in the order of dsp_emu.c.inc -/

def emuMpyPX0X0A : DspRegisters → DspRegisters := multiplyHandler .mpy .plus .x0 .x0 .a
def emuMpyMX0X0A : DspRegisters → DspRegisters := multiplyHandler .mpy .minus .x0 .x0 .a
def emuMpyPX0X0B : DspRegisters → DspRegisters := multiplyHandler .mpy .plus .x0 .x0 .b
def emuMpyMX0X0B : DspRegisters → DspRegisters := multiplyHandler .mpy .minus .x0 .x0 .b
def emuMpyPY0Y0A : DspRegisters → DspRegisters := multiplyHandler .mpy .plus .y0 .y0 .a
def emuMpyMY0Y0A : DspRegisters → DspRegisters := multiplyHandler .mpy .minus .y0 .y0 .a
def emuMpyPY0Y0B : DspRegisters → DspRegisters := multiplyHandler .mpy .plus .y0 .y0 .b
def emuMpyMY0Y0B : DspRegisters → DspRegisters := multiplyHandler .mpy .minus .y0 .y0 .b
def emuMpyPX1X0A : DspRegisters → DspRegisters := multiplyHandler .mpy .plus .x1 .x0 .a
def emuMpyMX1X0A : DspRegisters → DspRegisters := multiplyHandler .mpy .minus .x1 .x0 .a
def emuMpyPX1X0B : DspRegisters → DspRegisters := multiplyHandler .mpy .plus .x1 .x0 .b
def emuMpyMX1X0B : DspRegisters → DspRegisters := multiplyHandler .mpy .minus .x1 .x0 .b
def emuMpyPY1Y0A : DspRegisters → DspRegisters := multiplyHandler .mpy .plus .y1 .y0 .a
def emuMpyMY1Y0A : DspRegisters → DspRegisters := multiplyHandler .mpy .minus .y1 .y0 .a
def emuMpyPY1Y0B : DspRegisters → DspRegisters := multiplyHandler .mpy .plus .y1 .y0 .b
def emuMpyMY1Y0B : DspRegisters → DspRegisters := multiplyHandler .mpy .minus .y1 .y0 .b
def emuMpyPX0Y1A : DspRegisters → DspRegisters := multiplyHandler .mpy .plus .x0 .y1 .a
def emuMpyMX0Y1A : DspRegisters → DspRegisters := multiplyHandler .mpy .minus .x0 .y1 .a
def emuMpyPX0Y1B : DspRegisters → DspRegisters := multiplyHandler .mpy .plus .x0 .y1 .b
def emuMpyMX0Y1B : DspRegisters → DspRegisters := multiplyHandler .mpy .minus .x0 .y1 .b
def emuMpyPY0X0A : DspRegisters → DspRegisters := multiplyHandler .mpy .plus .y0 .x0 .a
def emuMpyMY0X0A : DspRegisters → DspRegisters := multiplyHandler .mpy .minus .y0 .x0 .a
def emuMpyPY0X0B : DspRegisters → DspRegisters := multiplyHandler .mpy .plus .y0 .x0 .b
def emuMpyMY0X0B : DspRegisters → DspRegisters := multiplyHandler .mpy .minus .y0 .x0 .b
def emuMpyPX1Y0A : DspRegisters → DspRegisters := multiplyHandler .mpy .plus .x1 .y0 .a
def emuMpyMX1Y0A : DspRegisters → DspRegisters := multiplyHandler .mpy .minus .x1 .y0 .a
def emuMpyPX1Y0B : DspRegisters → DspRegisters := multiplyHandler .mpy .plus .x1 .y0 .b
def emuMpyMX1Y0B : DspRegisters → DspRegisters := multiplyHandler .mpy .minus .x1 .y0 .b
def emuMpyPY1X1A : DspRegisters → DspRegisters := multiplyHandler .mpy .plus .y1 .x1 .a
def emuMpyMY1X1A : DspRegisters → DspRegisters := multiplyHandler .mpy .minus .y1 .x1 .a
def emuMpyPY1X1B : DspRegisters → DspRegisters := multiplyHandler .mpy .plus .y1 .x1 .b
def emuMpyMY1X1B : DspRegisters → DspRegisters := multiplyHandler .mpy .minus .y1 .x1 .b
def emuMpyrPX0X0A : DspRegisters → DspRegisters := multiplyHandler .mpyr .plus .x0 .x0 .a
def emuMpyrMX0X0A : DspRegisters → DspRegisters := multiplyHandler .mpyr .minus .x0 .x0 .a
def emuMpyrPX0X0B : DspRegisters → DspRegisters := multiplyHandler .mpyr .plus .x0 .x0 .b
def emuMpyrMX0X0B : DspRegisters → DspRegisters := multiplyHandler .mpyr .minus .x0 .x0 .b
def emuMpyrPY0Y0A : DspRegisters → DspRegisters := multiplyHandler .mpyr .plus .y0 .y0 .a
def emuMpyrMY0Y0A : DspRegisters → DspRegisters := multiplyHandler .mpyr .minus .y0 .y0 .a
def emuMpyrPY0Y0B : DspRegisters → DspRegisters := multiplyHandler .mpyr .plus .y0 .y0 .b
def emuMpyrMY0Y0B : DspRegisters → DspRegisters := multiplyHandler .mpyr .minus .y0 .y0 .b
def emuMpyrPX1X0A : DspRegisters → DspRegisters := multiplyHandler .mpyr .plus .x1 .x0 .a
def emuMpyrMX1X0A : DspRegisters → DspRegisters := multiplyHandler .mpyr .minus .x1 .x0 .a
def emuMpyrPX1X0B : DspRegisters → DspRegisters := multiplyHandler .mpyr .plus .x1 .x0 .b
def emuMpyrMX1X0B : DspRegisters → DspRegisters := multiplyHandler .mpyr .minus .x1 .x0 .b
def emuMpyrPY1Y0A : DspRegisters → DspRegisters := multiplyHandler .mpyr .plus .y1 .y0 .a
def emuMpyrMY1Y0A : DspRegisters → DspRegisters := multiplyHandler .mpyr .minus .y1 .y0 .a
def emuMpyrPY1Y0B : DspRegisters → DspRegisters := multiplyHandler .mpyr .plus .y1 .y0 .b
def emuMpyrMY1Y0B : DspRegisters → DspRegisters := multiplyHandler .mpyr .minus .y1 .y0 .b
def emuMpyrPX0Y1A : DspRegisters → DspRegisters := multiplyHandler .mpyr .plus .x0 .y1 .a
def emuMpyrMX0Y1A : DspRegisters → DspRegisters := multiplyHandler .mpyr .minus .x0 .y1 .a
def emuMpyrPX0Y1B : DspRegisters → DspRegisters := multiplyHandler .mpyr .plus .x0 .y1 .b
def emuMpyrMX0Y1B : DspRegisters → DspRegisters := multiplyHandler .mpyr .minus .x0 .y1 .b
def emuMpyrPY0X0A : DspRegisters → DspRegisters := multiplyHandler .mpyr .plus .y0 .x0 .a
def emuMpyrMY0X0A : DspRegisters → DspRegisters := multiplyHandler .mpyr .minus .y0 .x0 .a
def emuMpyrPY0X0B : DspRegisters → DspRegisters := multiplyHandler .mpyr .plus .y0 .x0 .b
def emuMpyrMY0X0B : DspRegisters → DspRegisters := multiplyHandler .mpyr .minus .y0 .x0 .b
def emuMpyrPX1Y0A : DspRegisters → DspRegisters := multiplyHandler .mpyr .plus .x1 .y0 .a
def emuMpyrMX1Y0A : DspRegisters → DspRegisters := multiplyHandler .mpyr .minus .x1 .y0 .a
def emuMpyrPX1Y0B : DspRegisters → DspRegisters := multiplyHandler .mpyr .plus .x1 .y0 .b
def emuMpyrMX1Y0B : DspRegisters → DspRegisters := multiplyHandler .mpyr .minus .x1 .y0 .b
def emuMpyrPY1X1A : DspRegisters → DspRegisters := multiplyHandler .mpyr .plus .y1 .x1 .a
def emuMpyrMY1X1A : DspRegisters → DspRegisters := multiplyHandler .mpyr .minus .y1 .x1 .a
def emuMpyrPY1X1B : DspRegisters → DspRegisters := multiplyHandler .mpyr .plus .y1 .x1 .b
def emuMpyrMY1X1B : DspRegisters → DspRegisters := multiplyHandler .mpyr .minus .y1 .x1 .b
def emuMacPX0X0A : DspRegisters → DspRegisters := multiplyHandler .mac .plus .x0 .x0 .a
def emuMacMX0X0A : DspRegisters → DspRegisters := multiplyHandler .mac .minus .x0 .x0 .a
def emuMacPX0X0B : DspRegisters → DspRegisters := multiplyHandler .mac .plus .x0 .x0 .b
def emuMacMX0X0B : DspRegisters → DspRegisters := multiplyHandler .mac .minus .x0 .x0 .b
def emuMacPY0Y0A : DspRegisters → DspRegisters := multiplyHandler .mac .plus .y0 .y0 .a
def emuMacMY0Y0A : DspRegisters → DspRegisters := multiplyHandler .mac .minus .y0 .y0 .a
def emuMacPY0Y0B : DspRegisters → DspRegisters := multiplyHandler .mac .plus .y0 .y0 .b
def emuMacMY0Y0B : DspRegisters → DspRegisters := multiplyHandler .mac .minus .y0 .y0 .b
def emuMacPX1X0A : DspRegisters → DspRegisters := multiplyHandler .mac .plus .x1 .x0 .a
def emuMacMX1X0A : DspRegisters → DspRegisters := multiplyHandler .mac .minus .x1 .x0 .a
def emuMacPX1X0B : DspRegisters → DspRegisters := multiplyHandler .mac .plus .x1 .x0 .b
def emuMacMX1X0B : DspRegisters → DspRegisters := multiplyHandler .mac .minus .x1 .x0 .b
def emuMacPY1Y0A : DspRegisters → DspRegisters := multiplyHandler .mac .plus .y1 .y0 .a
def emuMacMY1Y0A : DspRegisters → DspRegisters := multiplyHandler .mac .minus .y1 .y0 .a
def emuMacPY1Y0B : DspRegisters → DspRegisters := multiplyHandler .mac .plus .y1 .y0 .b
def emuMacMY1Y0B : DspRegisters → DspRegisters := multiplyHandler .mac .minus .y1 .y0 .b
def emuMacPX0Y1A : DspRegisters → DspRegisters := multiplyHandler .mac .plus .x0 .y1 .a
def emuMacMX0Y1A : DspRegisters → DspRegisters := multiplyHandler .mac .minus .x0 .y1 .a
def emuMacPX0Y1B : DspRegisters → DspRegisters := multiplyHandler .mac .plus .x0 .y1 .b
def emuMacMX0Y1B : DspRegisters → DspRegisters := multiplyHandler .mac .minus .x0 .y1 .b
def emuMacPY0X0A : DspRegisters → DspRegisters := multiplyHandler .mac .plus .y0 .x0 .a
def emuMacMY0X0A : DspRegisters → DspRegisters := multiplyHandler .mac .minus .y0 .x0 .a
def emuMacPY0X0B : DspRegisters → DspRegisters := multiplyHandler .mac .plus .y0 .x0 .b
def emuMacMY0X0B : DspRegisters → DspRegisters := multiplyHandler .mac .minus .y0 .x0 .b
def emuMacPX1Y0A : DspRegisters → DspRegisters := multiplyHandler .mac .plus .x1 .y0 .a
def emuMacMX1Y0A : DspRegisters → DspRegisters := multiplyHandler .mac .minus .x1 .y0 .a
def emuMacPX1Y0B : DspRegisters → DspRegisters := multiplyHandler .mac .plus .x1 .y0 .b
def emuMacMX1Y0B : DspRegisters → DspRegisters := multiplyHandler .mac .minus .x1 .y0 .b
def emuMacPY1X1A : DspRegisters → DspRegisters := multiplyHandler .mac .plus .y1 .x1 .a
def emuMacMY1X1A : DspRegisters → DspRegisters := multiplyHandler .mac .minus .y1 .x1 .a
def emuMacPY1X1B : DspRegisters → DspRegisters := multiplyHandler .mac .plus .y1 .x1 .b
def emuMacMY1X1B : DspRegisters → DspRegisters := multiplyHandler .mac .minus .y1 .x1 .b
def emuMacrPX0X0A : DspRegisters → DspRegisters := multiplyHandler .macr .plus .x0 .x0 .a
def emuMacrMX0X0A : DspRegisters → DspRegisters := multiplyHandler .macr .minus .x0 .x0 .a
def emuMacrPX0X0B : DspRegisters → DspRegisters := multiplyHandler .macr .plus .x0 .x0 .b
def emuMacrMX0X0B : DspRegisters → DspRegisters := multiplyHandler .macr .minus .x0 .x0 .b
def emuMacrPY0Y0A : DspRegisters → DspRegisters := multiplyHandler .macr .plus .y0 .y0 .a
def emuMacrMY0Y0A : DspRegisters → DspRegisters := multiplyHandler .macr .minus .y0 .y0 .a
def emuMacrPY0Y0B : DspRegisters → DspRegisters := multiplyHandler .macr .plus .y0 .y0 .b
def emuMacrMY0Y0B : DspRegisters → DspRegisters := multiplyHandler .macr .minus .y0 .y0 .b
def emuMacrPX1X0A : DspRegisters → DspRegisters := multiplyHandler .macr .plus .x1 .x0 .a
def emuMacrMX1X0A : DspRegisters → DspRegisters := multiplyHandler .macr .minus .x1 .x0 .a
def emuMacrPX1X0B : DspRegisters → DspRegisters := multiplyHandler .macr .plus .x1 .x0 .b
def emuMacrMX1X0B : DspRegisters → DspRegisters := multiplyHandler .macr .minus .x1 .x0 .b
def emuMacrPY1Y0A : DspRegisters → DspRegisters := multiplyHandler .macr .plus .y1 .y0 .a
def emuMacrMY1Y0A : DspRegisters → DspRegisters := multiplyHandler .macr .minus .y1 .y0 .a
def emuMacrPY1Y0B : DspRegisters → DspRegisters := multiplyHandler .macr .plus .y1 .y0 .b
def emuMacrMY1Y0B : DspRegisters → DspRegisters := multiplyHandler .macr .minus .y1 .y0 .b
def emuMacrPX0Y1A : DspRegisters → DspRegisters := multiplyHandler .macr .plus .x0 .y1 .a
def emuMacrMX0Y1A : DspRegisters → DspRegisters := multiplyHandler .macr .minus .x0 .y1 .a
def emuMacrPX0Y1B : DspRegisters → DspRegisters := multiplyHandler .macr .plus .x0 .y1 .b
def emuMacrMX0Y1B : DspRegisters → DspRegisters := multiplyHandler .macr .minus .x0 .y1 .b
def emuMacrPY0X0A : DspRegisters → DspRegisters := multiplyHandler .macr .plus .y0 .x0 .a
def emuMacrMY0X0A : DspRegisters → DspRegisters := multiplyHandler .macr .minus .y0 .x0 .a
def emuMacrPY0X0B : DspRegisters → DspRegisters := multiplyHandler .macr .plus .y0 .x0 .b
def emuMacrMY0X0B : DspRegisters → DspRegisters := multiplyHandler .macr .minus .y0 .x0 .b
def emuMacrPX1Y0A : DspRegisters → DspRegisters := multiplyHandler .macr .plus .x1 .y0 .a
def emuMacrMX1Y0A : DspRegisters → DspRegisters := multiplyHandler .macr .minus .x1 .y0 .a

/-- emu_macr_p_x1_y0_b: unlike the other 31 macr handlers it calls dsp_rnd56 on its local `dest` before loading B
into it, so the rounding works on an uninitialised array that the next lines overwrite, and the sum is stored
unrounded -/
def emuMacrPX1Y0B (regs : DspRegisters) : DspRegisters :=
  let source := dspMul56 (regs dspRegX1) (regs dspRegY0) signPlus
  let sum := dspAdd56 source (loadAcc regs .b)
  finishMac regs .b sum.1 sum.2

def emuMacrMX1Y0B : DspRegisters → DspRegisters := multiplyHandler .macr .minus .x1 .y0 .b
def emuMacrPY1X1A : DspRegisters → DspRegisters := multiplyHandler .macr .plus .y1 .x1 .a
def emuMacrMY1X1A : DspRegisters → DspRegisters := multiplyHandler .macr .minus .y1 .x1 .a
def emuMacrPY1X1B : DspRegisters → DspRegisters := multiplyHandler .macr .plus .y1 .x1 .b
def emuMacrMY1X1B : DspRegisters → DspRegisters := multiplyHandler .macr .minus .y1 .x1 .b


/-- entries 0x80 to 0xff of opcodes_alu -/
def opcodesAluMultiply : List (DspRegisters → DspRegisters) :=
  [
    emuMpyPX0X0A, emuMpyrPX0X0A, emuMacPX0X0A, emuMacrPX0X0A, emuMpyMX0X0A, emuMpyrMX0X0A, emuMacMX0X0A, emuMacrMX0X0A,
    emuMpyPX0X0B, emuMpyrPX0X0B, emuMacPX0X0B, emuMacrPX0X0B, emuMpyMX0X0B, emuMpyrMX0X0B, emuMacMX0X0B, emuMacrMX0X0B,
    emuMpyPY0Y0A, emuMpyrPY0Y0A, emuMacPY0Y0A, emuMacrPY0Y0A, emuMpyMY0Y0A, emuMpyrMY0Y0A, emuMacMY0Y0A, emuMacrMY0Y0A,
    emuMpyPY0Y0B, emuMpyrPY0Y0B, emuMacPY0Y0B, emuMacrPY0Y0B, emuMpyMY0Y0B, emuMpyrMY0Y0B, emuMacMY0Y0B, emuMacrMY0Y0B,
    emuMpyPX1X0A, emuMpyrPX1X0A, emuMacPX1X0A, emuMacrPX1X0A, emuMpyMX1X0A, emuMpyrMX1X0A, emuMacMX1X0A, emuMacrMX1X0A,
    emuMpyPX1X0B, emuMpyrPX1X0B, emuMacPX1X0B, emuMacrPX1X0B, emuMpyMX1X0B, emuMpyrMX1X0B, emuMacMX1X0B, emuMacrMX1X0B,
    emuMpyPY1Y0A, emuMpyrPY1Y0A, emuMacPY1Y0A, emuMacrPY1Y0A, emuMpyMY1Y0A, emuMpyrMY1Y0A, emuMacMY1Y0A, emuMacrMY1Y0A,
    emuMpyPY1Y0B, emuMpyrPY1Y0B, emuMacPY1Y0B, emuMacrPY1Y0B, emuMpyMY1Y0B, emuMpyrMY1Y0B, emuMacMY1Y0B, emuMacrMY1Y0B,
    emuMpyPX0Y1A, emuMpyrPX0Y1A, emuMacPX0Y1A, emuMacrPX0Y1A, emuMpyMX0Y1A, emuMpyrMX0Y1A, emuMacMX0Y1A, emuMacrMX0Y1A,
    emuMpyPX0Y1B, emuMpyrPX0Y1B, emuMacPX0Y1B, emuMacrPX0Y1B, emuMpyMX0Y1B, emuMpyrMX0Y1B, emuMacMX0Y1B, emuMacrMX0Y1B,
    emuMpyPY0X0A, emuMpyrPY0X0A, emuMacPY0X0A, emuMacrPY0X0A, emuMpyMY0X0A, emuMpyrMY0X0A, emuMacMY0X0A, emuMacrMY0X0A,
    emuMpyPY0X0B, emuMpyrPY0X0B, emuMacPY0X0B, emuMacrPY0X0B, emuMpyMY0X0B, emuMpyrMY0X0B, emuMacMY0X0B, emuMacrMY0X0B,
    emuMpyPX1Y0A, emuMpyrPX1Y0A, emuMacPX1Y0A, emuMacrPX1Y0A, emuMpyMX1Y0A, emuMpyrMX1Y0A, emuMacMX1Y0A, emuMacrMX1Y0A,
    emuMpyPX1Y0B, emuMpyrPX1Y0B, emuMacPX1Y0B, emuMacrPX1Y0B, emuMpyMX1Y0B, emuMpyrMX1Y0B, emuMacMX1Y0B, emuMacrMX1Y0B,
    emuMpyPY1X1A, emuMpyrPY1X1A, emuMacPY1X1A, emuMacrPY1X1A, emuMpyMY1X1A, emuMpyrMY1X1A, emuMacMY1X1A, emuMacrMY1X1A,
    emuMpyPY1X1B, emuMpyrPY1X1B, emuMacPY1X1B, emuMacrPY1X1B, emuMpyMY1X1B, emuMpyrMY1X1B, emuMacMY1X1B, emuMacrMY1X1B
  ]

/-- the source pair that bits 4 to 6 of a multiply opcode select -/
def multiplyPair : ℕ → MulSource × MulSource
  | 0 => (.x0, .x0)
  | 1 => (.y0, .y0)
  | 2 => (.x1, .x0)
  | 3 => (.y1, .y0)
  | 4 => (.x0, .y1)
  | 5 => (.y0, .x0)
  | 6 => (.x1, .y0)
  | _ => (.y1, .x1)

/-- the instruction bits 0 and 1 select -/
def multiplyFamily : ℕ → MulFamily
  | 0 => .mpy
  | 1 => .mpyr
  | 2 => .mac
  | _ => .macr

/-- the generic handler opcode `0x80 + i` stands for: family in bits 0 and 1, sign in bit 2, destination in bit 3, source
pair in bits 4 to 6 -/
def decodedMultiply (i : ℕ) : DspRegisters → DspRegisters :=
  multiplyHandler (multiplyFamily (i % 4)) (if i / 4 % 2 = 0 then .plus else .minus) (multiplyPair (i / 16)).1
    (multiplyPair (i / 16)).2 (if i / 8 % 2 = 0 then .a else .b)

/-! ## Uniformity -/

/-- every entry of the table but 0xeb (emu_macr_p_x1_y0_b) is the generic handler its opcode bits select -/
theorem opcodesAlu_multiply (i : ℕ) (hi : i < 128) (hdev : i ≠ 0x6b) :
    opcodesAluMultiply[i]? = some (decodedMultiply i) := by
  interval_cases i <;> first | rfl | exact absurd rfl hdev

/-- entry 0xeb is the deviant handler -/
example : opcodesAluMultiply[0x6b]? = some emuMacrPX1Y0B := rfl

theorem Accumulator.regs_ne (d : Accumulator) :
    d.reg2 ≠ d.reg1 ∧ d.reg2 ≠ d.reg0 ∧ d.reg1 ≠ d.reg0 ∧ dspRegSr ≠ d.reg2 ∧ dspRegSr ≠ d.reg1 ∧
      dspRegSr ≠ d.reg0 := by
  cases d <;> decide

/-- outside the destination's parts a store changes nothing -/
theorem storeAcc_of_ne (regs : DspRegisters) (d : Accumulator) (v : Acc56) {r : ℕ} (h2 : r ≠ d.reg2)
    (h1 : r ≠ d.reg1) (h0 : r ≠ d.reg0) : storeAcc regs d v r = regs r := by
  simp [storeAcc, h2, h1, h0]

/-- the tail of an mpy handler changes only the destination's parts and SR -/
theorem finishMpy_of_ne (regs : DspRegisters) (d : Accumulator) (v : Acc56) {r : ℕ} (h2 : r ≠ d.reg2)
    (h1 : r ≠ d.reg1) (h0 : r ≠ d.reg0) (hsr : r ≠ dspRegSr) : finishMpy regs d v r = regs r := by
  simp only [finishMpy, setReg_of_ne _ _ hsr]
  exact storeAcc_of_ne regs d v h2 h1 h0

theorem finishMac_of_ne (regs : DspRegisters) (d : Accumulator) (v : Acc56) (newsr : ℕ) {r : ℕ} (h2 : r ≠ d.reg2)
    (h1 : r ≠ d.reg1) (h0 : r ≠ d.reg0) (hsr : r ≠ dspRegSr) : finishMac regs d v newsr r = regs r := by
  simp only [finishMac, setReg_of_ne _ _ hsr]
  exact finishMpy_of_ne regs d v h2 h1 h0 hsr

/-- a multiply handler writes no register but its destination's three parts and SR -/
theorem multiplyHandler_frame (family : MulFamily) (sign : MulSign) (s1 s2 : MulSource) (d : Accumulator)
    (regs : DspRegisters) {r : ℕ} (h2 : r ≠ d.reg2) (h1 : r ≠ d.reg1) (h0 : r ≠ d.reg0) (hsr : r ≠ dspRegSr) :
    multiplyHandler family sign s1 s2 d regs r = regs r := by
  cases family with
  | mpy => exact finishMpy_of_ne regs d _ h2 h1 h0 hsr
  | mpyr => exact finishMpy_of_ne regs d _ h2 h1 h0 hsr
  | mac => exact finishMac_of_ne regs d _ _ h2 h1 h0 hsr
  | macr => exact finishMac_of_ne regs d _ _ h2 h1 h0 hsr

/-- the tail of an mpy handler depends on the register file only through SR -/
theorem finishMpy_congr {regs regs' : DspRegisters} (hsr : regs' dspRegSr = regs dspRegSr) (d : Accumulator)
    (v : Acc56) {r : ℕ} (hr : r = d.reg2 ∨ r = d.reg1 ∨ r = d.reg0 ∨ r = dspRegSr) :
    finishMpy regs' d v r = finishMpy regs d v r := by
  obtain ⟨h21, h20, h10, hs2, hs1, hs0⟩ := d.regs_ne
  have hstore : storeAcc regs' d v dspRegSr = storeAcc regs d v dspRegSr := by
    rw [storeAcc_of_ne regs' d v hs2 hs1 hs0, storeAcc_of_ne regs d v hs2 hs1 hs0, hsr]
  rcases hr with rfl | rfl | rfl | rfl
  · simp only [finishMpy, setReg_of_ne _ _ hs2.symm, storeAcc, setReg_of_ne _ _ h20, setReg_of_ne _ _ h21,
      setReg_self]
  · simp only [finishMpy, setReg_of_ne _ _ hs1.symm, storeAcc, setReg_of_ne _ _ h10, setReg_self]
  · simp only [finishMpy, setReg_of_ne _ _ hs0.symm, storeAcc, setReg_self]
  · simp only [finishMpy, setReg_self, hstore]

theorem finishMac_congr {regs regs' : DspRegisters} (hsr : regs' dspRegSr = regs dspRegSr) (d : Accumulator)
    (v : Acc56) (newsr : ℕ) {r : ℕ} (hr : r = d.reg2 ∨ r = d.reg1 ∨ r = d.reg0 ∨ r = dspRegSr) :
    finishMac regs' d v newsr r = finishMac regs d v newsr r := by
  have hmpy := fun r hr => finishMpy_congr hsr d v (r := r) hr
  by_cases hs : r = dspRegSr
  · subst hs
    simp only [finishMac, setReg_self, hmpy dspRegSr (Or.inr (Or.inr (Or.inr rfl)))]
  · simp only [finishMac, setReg_of_ne _ _ hs]
    exact hmpy r hr

/-- a multiply handler reads no register but its two sources, its destination's three parts and SR: two register
files that agree there give the same destination and SR -/
theorem multiplyHandler_congr (family : MulFamily) (sign : MulSign) (s1 s2 : MulSource) (d : Accumulator)
    {regs regs' : DspRegisters} (hs1 : regs' s1.reg = regs s1.reg) (hs2 : regs' s2.reg = regs s2.reg)
    (hacc : loadAcc regs' d = loadAcc regs d) (hsr : regs' dspRegSr = regs dspRegSr) {r : ℕ}
    (hr : r = d.reg2 ∨ r = d.reg1 ∨ r = d.reg0 ∨ r = dspRegSr) :
    multiplyHandler family sign s1 s2 d regs' r = multiplyHandler family sign s1 s2 d regs r := by
  cases family with
  | mpy =>
    simp only [multiplyHandler, hs1, hs2]
    exact finishMpy_congr hsr d _ hr
  | mpyr =>
    simp only [multiplyHandler, hs1, hs2, hsr]
    exact finishMpy_congr hsr d _ hr
  | mac =>
    simp only [multiplyHandler, hs1, hs2, hacc]
    exact finishMac_congr hsr d _ _ hr
  | macr =>
    simp only [multiplyHandler, hs1, hs2, hacc, hsr]
    exact finishMac_congr hsr d _ _ hr

/-! ## The handler that does not round -/

/-- B = 0, X1 = Y0 = 1 (the smallest positive fraction) and no scaling mode: the product 2 lands in B0, where
rounding clears it -/
def unroundedRegs : DspRegisters := fun r => if r = dspRegX1 ∨ r = dspRegY0 then 1 else 0

/-- emu_macr_p_x1_y0_b computes what emu_mac_p_x1_y0_b computes, for every register file; where rounding matters
the generic macr differs from it -/
theorem macr_p_x1_y0_b_skips_rounding :
    (∀ regs, emuMacrPX1Y0B regs = multiplyHandler .mac .plus .x1 .y0 .b regs) ∧
      emuMacrPX1Y0B unroundedRegs dspRegB0 = 2 ∧
      multiplyHandler .macr .plus .x1 .y0 .b unroundedRegs dspRegB0 = 0 :=
  ⟨fun _ => rfl, by decide, by decide⟩

end Xemu.Dsp
