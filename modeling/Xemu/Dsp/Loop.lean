import Xemu.Dsp.Address
/-!
# Hardware loops of the DSP

A DO loop (hw/xbox/mcpx/apu/dsp/dsp_emu.c.inc, emu_do_* and emu_dor_*) pushes LA:LC and then the address of the
body with SR onto the system stack, sets LF and loads LA and LC. After every instruction dsp_postexecute_update_pc
(dsp_cpu.c) compares the new PC with LA + 1. At the end of the body it counts LC down and either jumps back to the
address in SSH or ends the loop. The end pops both frames, as emu_enddo does. REP keeps the PC on the next
instruction while it counts LC down, and restores LC from LCSAVE.

The end of a loop rebuilds SR as `(SR & 0x7f) | (saved SR & LF)`. That keeps only the condition codes C to L, so
the scaling mode S0/S1, the interrupt mask I0/I1, T and the S bit are cleared whatever they held:
`loop_end_clears_mode_bits`. `runTrace_doLoop` shows the rest of the loop contract for a body of straight-line
instructions. The body runs `LC` times (65536 for 0), the loop leaves at LA + 1 with SP, LA and LC restored, and LF is
as before the DO. Interrupts, the memory and register reads of DO and REP counts, and the A/B limiting of
emu_pm_read_accu24 are not modelled: a DO or REP form gets the count it reads as a parameter. The ea forms compute
the address of that read with emu_calc_ea, which updates Rn and, in the absolute and immediate modes, takes the word
after the instruction and adds it to cur_inst_len.
-/

namespace Xemu.Dsp

/-- DSP_SP_SE -/
def dspSpSe : ℕ := 0x04
/-- DSP_SP_UF -/
def dspSpUf : ℕ := 0x05

/-- what the loop machinery touches: the register file, the two halves of the 16-entry system stack
(`stack[0]` and `stack[1]`), the program counter and the REP state -/
structure LoopCore where
  regs : DspRegisters
  stackSsh : ℕ → ℕ
  stackSsl : ℕ → ℕ
  pc : ℕ
  loopRep : Bool
  pcOnRep : Bool

/-- dsp_stack_push; `none` where the overflow assert fires (exception_debugging is set by dsp56k_reset_cpu) -/
def dspStackPush (st : LoopCore) (curpc cursr : ℕ) (sshOnly : Bool) : Option LoopCore :=
  let sp := st.regs dspRegSp
  let stackError := sp &&& (1 <<< dspSpSe)
  let underflow := sp &&& (1 <<< dspSpUf)
  let stack := (sp &&& bitmask 4) + 1
  if stackError = 0 ∧ stack &&& (1 <<< dspSpSe) ≠ 0 then none
  else
    let slot := stack &&& bitmask 4
    let ssh := if slot ≠ 0 then Function.update st.stackSsh slot (curpc &&& bitmask 16)
      else Function.update st.stackSsh 0 0
    let ssl := if slot ≠ 0 then
        (if sshOnly then st.stackSsl else Function.update st.stackSsl slot (cursr &&& bitmask 16))
      else Function.update st.stackSsl 0 0
    let regs := setReg st.regs dspRegSp ((underflow ||| stackError ||| stack) &&& bitmask 6)
    some { st with
      regs := setReg (setReg regs dspRegSsh (ssh slot)) dspRegSsl (ssl slot)
      stackSsh := ssh
      stackSsl := ssl }

/-- dsp_stack_pop: the SSH and SSL it pops, and the state; `none` where the underflow assert fires -/
def dspStackPop (st : LoopCore) : Option (ℕ × ℕ × LoopCore) :=
  let sp := st.regs dspRegSp
  let stackError := sp &&& (1 <<< dspSpSe)
  let underflow := sp &&& (1 <<< dspSpUf)
  let stack := sub32 (sp &&& bitmask 4) 1
  if stackError = 0 ∧ stack &&& (1 <<< dspSpSe) ≠ 0 then none
  else
    let slot := stack &&& bitmask 4
    let regs := setReg st.regs dspRegSp ((underflow ||| stackError ||| stack) &&& bitmask 6)
    some (st.regs dspRegSsh, st.regs dspRegSsl,
      { st with regs := setReg (setReg regs dspRegSsh (st.stackSsh slot)) dspRegSsl (st.stackSsl slot) })

/-- the end of a DO loop, written out twice in the source (dsp_postexecute_update_pc and emu_enddo): pop PC:SR,
keep SR's low seven bits and the saved LF, pop LA:LC -/
def endLoop (st : LoopCore) : Option LoopCore :=
  (dspStackPop st).bind fun saved =>
    let st := saved.2.2
    let st := { st with
      regs := setReg st.regs dspRegSr ((st.regs dspRegSr &&& 0x7f) ||| (saved.2.1 &&& (1 <<< dspSrLf))) }
    (dspStackPop st).map fun outer => { outer.2.2 with
      regs := setReg (setReg outer.2.2.regs dspRegLa outer.1) dspRegLc outer.2.1 }

/-- emu_enddo -/
def emuEnddo (st : LoopCore) : Option LoopCore := endLoop st

/-- the DO and DOR forms; the ea form carries its MMMRRR field -/
inductive DoForm
  | aa
  | imm
  | ea (eaMode : ℕ)
  | reg
  | dorImm
  | dorReg
  deriving DecidableEq, Repr

/-- MMM = 6: emu_calc_ea takes the word after the instruction (absolute address or immediate) -/
def eaTakesWord (eaMode : ℕ) : Bool := (eaMode >>> 3) &&& bitmask 3 = 6

/-- the LA a DO form loads: the word after the DO, which DOR takes as a displacement from the DO -/
def doLoopAddress (form : DoForm) (pc ext : ℕ) : ℕ :=
  match form with
  | .dorImm | .dorReg => (pc + ext) &&& bitmask 16
  | _ => ext &&& bitmask 16

/-- the LC a DO form loads: the 12-bit immediate as it is, a count read from memory or a register masked to 16 bits -/
def doLoopCount (form : DoForm) (count : ℕ) : ℕ :=
  match form with
  | .imm | .dorImm => count
  | _ => count &&& bitmask 16

/-- what every DO form does before it loads LC: push LA:LC, load LA with `la`, push the address after the two-word DO
with SR, and set LF -/
def doPushFrames (st : LoopCore) (la : ℕ) : Option LoopCore :=
  (dspStackPush st (st.regs dspRegLa) (st.regs dspRegLc) false).bind fun st =>
    let st := { st with regs := setReg st.regs dspRegLa la }
    (dspStackPush st (st.pc + 2) (st.regs dspRegSr) false).map fun st =>
      { st with regs := setReg st.regs dspRegSr (st.regs dspRegSr ||| (1 <<< dspSrLf)) }

/-- emu_do_aa, emu_do_imm, emu_do_ea, emu_do_reg, emu_dor_imm and emu_dor_reg: `count` is the value the form reads for
LC (the 12-bit immediate, the X or Y memory word, or the register), `ext` the instruction's second word; the state and
cur_inst_len. The ea form calls emu_calc_ea after the two pushes: it updates Rn and, for MMM = 6, takes `ext` (the
word LA was read from) as the address and counts a third word, though the frame holds the address after two -/
def emuDo (st : LoopCore) (form : DoForm) (count ext : ℕ) : Option (LoopCore × ℕ) :=
  (doPushFrames st (doLoopAddress form st.pc ext)).bind fun st =>
    match form with
    | .ea eaMode =>
      (emuCalcEa eaMode ext ⟨st.regs, 0, 2⟩).map fun ea =>
        ({ st with regs := setReg ea.2.2.regs dspRegLc (doLoopCount form count) }, ea.2.2.curInstLen)
    | _ => some ({ st with regs := setReg st.regs dspRegLc (doLoopCount form count) }, 2)

/-- the cur_inst_len a DO form leaves -/
def doInstLen : DoForm → ℕ
  | .ea eaMode => if eaTakesWord eaMode then 3 else 2
  | _ => 2

/-- the REP forms; the ea form carries its MMMRRR field and the word after the instruction -/
inductive RepForm
  | aa
  | imm
  | ea (eaMode pcWord : ℕ)
  | reg
  deriving DecidableEq, Repr

/-- the LC a REP form loads: only the register form masks the count to 16 bits -/
def repLoopCount (form : RepForm) (count : ℕ) : ℕ :=
  match form with
  | .reg => count &&& bitmask 16
  | _ => count

/-- emu_rep_aa, emu_rep_imm, emu_rep_ea and emu_rep_reg: the state and cur_inst_len. `count` is the value the form
reads for LC; the ea form reads it at the address emu_calc_ea gives, which updates Rn and, for MMM = 6, takes the
word after the instruction (its return value, 1 for an immediate, is ignored) -/
def emuRep (st : LoopCore) (form : RepForm) (count : ℕ) : Option (LoopCore × ℕ) :=
  let st := { st with
    regs := setReg st.regs dspRegLcsave (st.regs dspRegLc)
    pcOnRep := true
    loopRep := true }
  match form with
  | .ea eaMode pcWord =>
    (emuCalcEa eaMode pcWord ⟨st.regs, 0, 1⟩).map fun ea =>
      ({ st with regs := setReg ea.2.2.regs dspRegLc (repLoopCount form count) }, ea.2.2.curInstLen)
  | _ => some ({ st with regs := setReg st.regs dspRegLc (repLoopCount form count) }, 1)

/-- the cur_inst_len a REP form leaves -/
def repInstLen : RepForm → ℕ
  | .ea eaMode _ => if eaTakesWord eaMode then 2 else 1
  | _ => 1

/-- the REP part of dsp_postexecute_update_pc: the state and the instruction length it leaves -/
def repUpdate (st : LoopCore) (curInstLen : ℕ) : LoopCore × ℕ :=
  if st.loopRep then
    if st.pcOnRep then
      -- the REP instruction itself: LC = 0 means 65536
      ({ st with
        regs := if st.regs dspRegLc = 0 then setReg st.regs dspRegLc 0x010000 else st.regs
        pcOnRep := false }, curInstLen)
    else
      let lc := sub32 (st.regs dspRegLc) 1 &&& bitmask 16
      if lc > 0 then ({ st with regs := setReg st.regs dspRegLc lc }, 0)
      else ({ st with loopRep := false, regs := setReg st.regs dspRegLc (st.regs dspRegLcsave) }, curInstLen)
  else (st, curInstLen)

/-- dsp_postexecute_update_pc -/
def dspPostexecuteUpdatePc (st : LoopCore) (curInstLen : ℕ) : Option LoopCore :=
  let r := repUpdate st curInstLen
  let st : LoopCore := { r.1 with pc := r.1.pc + r.2 }
  if st.regs dspRegSr &&& (1 <<< dspSrLf) ≠ 0 ∧ st.pc = st.regs dspRegLa + 1 then
    let lc := sub32 (st.regs dspRegLc) 1 &&& bitmask 16
    let st : LoopCore := { st with regs := setReg st.regs dspRegLc lc }
    if lc = 0 then endLoop st else some { st with pc := st.regs dspRegSsh }
  else some st

/-- what an instruction is to the loop machinery -/
inductive LoopInstr
  /-- an instruction that neither jumps nor touches the loop: its length in words and its effect on the registers -/
  | op (len : ℕ) (effect : DspRegisters → DspRegisters)
  | doLoop (form : DoForm) (count ext : ℕ)
  | enddo
  | rep (form : RepForm) (count : ℕ)

/-- the handler of an instruction: the state and cur_inst_len -/
def executeLoopInstr (st : LoopCore) : LoopInstr → Option (LoopCore × ℕ)
  | .op len effect => some ({ st with regs := effect st.regs }, len)
  | .doLoop form count ext => emuDo st form count ext
  | .enddo => (emuEnddo st).map fun st => (st, 1)
  | .rep form count => emuRep st form count

/-- dsp56k_execute_instruction without interrupts: the handler of the instruction at PC, then
dsp_postexecute_update_pc -/
def dsp56kStep (prog : ℕ → LoopInstr) (st : LoopCore) : Option LoopCore :=
  (executeLoopInstr st (prog st.pc)).bind fun r => dspPostexecuteUpdatePc r.1 r.2

/-- `n` steps, with the address of every instruction executed -/
def runTrace (prog : ℕ → LoopInstr) : ℕ → LoopCore → Option (List ℕ × LoopCore)
  | 0, st => some ([], st)
  | n + 1, st => (dsp56kStep prog st).bind fun st' => (runTrace prog n st').map fun r => (st.pc :: r.1, r.2)

/-! ## The stack with room -/

theorem push_bits (s : ℕ) (hs : s < 15) :
    s &&& (1 <<< dspSpSe) = 0 ∧ s &&& (1 <<< dspSpUf) = 0 ∧ (s &&& bitmask 4) + 1 = s + 1 ∧
      (s + 1) &&& (1 <<< dspSpSe) = 0 ∧ (0 ||| 0 ||| (s + 1)) &&& bitmask 6 = s + 1 ∧
      (s + 1) &&& bitmask 4 = s + 1 := by
  revert s
  decide

theorem pop_bits (s : ℕ) (hs : s < 16) (hpos : 0 < s) :
    s &&& (1 <<< dspSpSe) = 0 ∧ s &&& (1 <<< dspSpUf) = 0 ∧ sub32 (s &&& bitmask 4) 1 = s - 1 ∧
      (s - 1) &&& (1 <<< dspSpSe) = 0 ∧ (0 ||| 0 ||| (s - 1)) &&& bitmask 6 = s - 1 ∧
      (s - 1) &&& bitmask 4 = s - 1 := by
  revert s
  decide

/-- a push onto a stack with room: SP moves up by one and the new top is `curpc:cursr` -/
theorem dspStackPush_of_lt (st : LoopCore) (curpc cursr : ℕ) (hs : st.regs dspRegSp < 15) :
    dspStackPush st curpc cursr false =
      some { st with
        regs := setReg (setReg (setReg st.regs dspRegSp (st.regs dspRegSp + 1)) dspRegSsh (curpc &&& bitmask 16))
          dspRegSsl (cursr &&& bitmask 16)
        stackSsh := Function.update st.stackSsh (st.regs dspRegSp + 1) (curpc &&& bitmask 16)
        stackSsl := Function.update st.stackSsl (st.regs dspRegSp + 1) (cursr &&& bitmask 16) } := by
  obtain ⟨he, hu, hinc, hse, hsp, hslot⟩ := push_bits (st.regs dspRegSp) hs
  simp only [dspStackPush, he, hu, hinc, hse, hsp, hslot, ne_eq, not_true_eq_false, and_false, if_false,
    Nat.add_one_ne_zero, not_false_eq_true, if_true, Function.update_self, Bool.false_eq_true]

/-- a pop from a non-empty stack: SP moves down by one, SSH:SSL are returned and the frame below becomes the top -/
theorem dspStackPop_of_pos (st : LoopCore) (hs : st.regs dspRegSp < 16) (hpos : 0 < st.regs dspRegSp) :
    dspStackPop st =
      some (st.regs dspRegSsh, st.regs dspRegSsl,
        { st with
          regs := setReg (setReg (setReg st.regs dspRegSp (st.regs dspRegSp - 1)) dspRegSsh
            (st.stackSsh (st.regs dspRegSp - 1))) dspRegSsl (st.stackSsl (st.regs dspRegSp - 1)) }) := by
  obtain ⟨he, hu, hdec, hse, hsp, hslot⟩ := pop_bits (st.regs dspRegSp) hs hpos
  simp only [dspStackPop, he, hu, hdec, hse, hsp, hslot, ne_eq, not_true_eq_false, and_false, if_false]

/-! ## The end of a loop -/

/-- the end of a loop with two frames on the stack: SR keeps its low seven bits and the LF bit of the popped SR, and
LA:LC come from the frame below -/
theorem endLoop_of_le (st : LoopCore) (hs : st.regs dspRegSp < 16) (hpos : 2 ≤ st.regs dspRegSp) :
    ∃ st', endLoop st = some st' ∧
      st'.regs dspRegSr = (st.regs dspRegSr &&& 0x7f) ||| (st.regs dspRegSsl &&& (1 <<< dspSrLf)) ∧
      st'.regs dspRegSp = st.regs dspRegSp - 2 ∧ st'.regs dspRegLa = st.stackSsh (st.regs dspRegSp - 1) ∧
      st'.regs dspRegLc = st.stackSsl (st.regs dspRegSp - 1) ∧ st'.pc = st.pc := by
  unfold endLoop
  rw [dspStackPop_of_pos st hs (by omega)]
  simp only [Option.bind_some]
  -- the register numbers as literals, so that simp can tell them apart
  simp only [dspRegSp, dspRegSsh, dspRegSsl, dspRegSr, dspRegLa, dspRegLc] at hs hpos ⊢
  rw [dspStackPop_of_pos _ (by simp [setReg, dspRegSp]; omega) (by simp [setReg, dspRegSp]; omega)]
  simp only [Option.map_some, Option.some.injEq, exists_eq_left']
  simp [setReg, dspRegSp, dspRegSsh, dspRegSsl]
  omega

theorem repUpdate_of_not_rep (st : LoopCore) (len : ℕ) (hrep : st.loopRep = false) : repUpdate st len = (st, len) := by
  simp [repUpdate, hrep]

/-- away from the end of a loop the PC moves on by the instruction's length -/
theorem dspPostexecuteUpdatePc_of_ne (st : LoopCore) (len : ℕ) (hrep : st.loopRep = false)
    (hne : st.pc + len ≠ st.regs dspRegLa + 1) : dspPostexecuteUpdatePc st len = some { st with pc := st.pc + len } := by
  simp only [dspPostexecuteUpdatePc, repUpdate_of_not_rep st len hrep]
  rw [if_neg (fun h => hne h.2)]

/-- at the end of the body with passes left, LC counts down and the PC goes back to the address in SSH -/
theorem dspPostexecuteUpdatePc_back (st : LoopCore) (len lc : ℕ) (hrep : st.loopRep = false)
    (hlf : st.regs dspRegSr &&& (1 <<< dspSrLf) ≠ 0) (hend : st.pc + len = st.regs dspRegLa + 1)
    (hlc : sub32 (st.regs dspRegLc) 1 &&& bitmask 16 = lc) (hne : lc ≠ 0) :
    dspPostexecuteUpdatePc st len = some { st with regs := setReg st.regs dspRegLc lc, pc := st.regs dspRegSsh } := by
  simp only [dspPostexecuteUpdatePc, repUpdate_of_not_rep st len hrep]
  rw [if_pos ⟨hlf, hend⟩, hlc, if_neg hne, setReg_of_ne _ _ (by decide : dspRegSsh ≠ dspRegLc)]

/-- at the end of the last pass the loop ends -/
theorem dspPostexecuteUpdatePc_exit (st : LoopCore) (len : ℕ) (hrep : st.loopRep = false)
    (hlf : st.regs dspRegSr &&& (1 <<< dspSrLf) ≠ 0) (hend : st.pc + len = st.regs dspRegLa + 1)
    (hlc : sub32 (st.regs dspRegLc) 1 &&& bitmask 16 = 0) :
    dspPostexecuteUpdatePc st len = endLoop { st with pc := st.pc + len, regs := setReg st.regs dspRegLc 0 } := by
  simp only [dspPostexecuteUpdatePc, repUpdate_of_not_rep st len hrep]
  rw [if_pos ⟨hlf, hend⟩, hlc, if_pos rfl]

/-- the last instruction of the last pass ends the loop: SR keeps only its condition codes C to L and the LF bit the
DO saved, so S0/S1, I0/I1, T and S are cleared -/
theorem loop_end_clears_mode_bits (st : LoopCore) (len : ℕ) (hrep : st.loopRep = false)
    (hlf : st.regs dspRegSr &&& (1 <<< dspSrLf) ≠ 0) (hend : st.pc + len = st.regs dspRegLa + 1)
    (hlc : st.regs dspRegLc = 1) (hs : st.regs dspRegSp < 16) (hpos : 2 ≤ st.regs dspRegSp) :
    ∃ st', dspPostexecuteUpdatePc st len = some st' ∧
      st'.regs dspRegSr = (st.regs dspRegSr &&& 0x7f) ||| (st.regs dspRegSsl &&& (1 <<< dspSrLf)) ∧
      st'.pc = st.regs dspRegLa + 1 := by
  have hcount : sub32 (st.regs dspRegLc) 1 &&& bitmask 16 = 0 := by
    rw [hlc]
    decide
  have hne : dspRegSr ≠ dspRegLc ∧ dspRegSp ≠ dspRegLc ∧ dspRegSsl ≠ dspRegLc := by decide
  obtain ⟨st', hst', hsr, -, -, -, hpc⟩ :=
    endLoop_of_le { st with pc := st.pc + len, regs := setReg st.regs dspRegLc 0 }
      (by simpa [setReg_of_ne _ _ hne.2.1] using hs) (by simpa [setReg_of_ne _ _ hne.2.1] using hpos)
  refine ⟨st', ?_, ?_, ?_⟩
  · rw [dspPostexecuteUpdatePc_exit st len hrep hlf hend hcount]
    exact hst'
  · rw [hsr]
    simp [setReg_of_ne _ _ hne.1, setReg_of_ne _ _ hne.2.2]
  · rw [hpc, hend]

/-- the end of a loop whose SR has scaling mode S0 set (and LF, and nothing else), with a DO frame that saved SR = 0:
SR comes out 0 -/
def scaledLoopEnd : LoopCore where
  regs := fun r =>
    if r = dspRegSr then (1 <<< dspSrLf) ||| (1 <<< dspSrS0)
    else if r = dspRegLa then 0x12 else if r = dspRegLc then 1 else if r = dspRegSp then 2 else 0
  stackSsh := fun _ => 0
  stackSsl := fun _ => 0
  pc := 0x12
  loopRep := false
  pcOnRep := false

theorem scaled_loop_end_loses_s0 :
    scaledLoopEnd.loopRep = false ∧ scaledLoopEnd.regs dspRegSr &&& (1 <<< dspSrLf) ≠ 0 ∧
      scaledLoopEnd.pc + 1 = scaledLoopEnd.regs dspRegLa + 1 ∧ scaledLoopEnd.regs dspRegLc = 1 ∧
      scaledLoopEnd.regs dspRegSp < 16 ∧ 2 ≤ scaledLoopEnd.regs dspRegSp ∧
      ∃ st', dspPostexecuteUpdatePc scaledLoopEnd 1 = some st' ∧
        st'.regs dspRegSr = (scaledLoopEnd.regs dspRegSr &&& 0x7f) |||
          (scaledLoopEnd.regs dspRegSsl &&& (1 <<< dspSrLf)) ∧
        st'.pc = scaledLoopEnd.regs dspRegLa + 1 :=
  ⟨rfl, by decide, rfl, rfl, by decide, by decide,
    loop_end_clears_mode_bits scaledLoopEnd 1 rfl (by decide) rfl rfl (by decide) (by decide)⟩

/-- the S0 bit is gone: the SR the loop end computes for `scaledLoopEnd` is 0 -/
example : (scaledLoopEnd.regs dspRegSr &&& 0x7f) ||| (scaledLoopEnd.regs dspRegSsl &&& (1 <<< dspSrLf)) = 0 := by
  decide

/-! ## A DO loop over straight-line code -/

/-- an instruction effect that writes none of LA, LC, SP, SR, SSH and SSL -/
def KeepsLoopRegs (effect : DspRegisters → DspRegisters) : Prop :=
  ∀ regs, ∀ r ∈ [dspRegLa, dspRegLc, dspRegSp, dspRegSr, dspRegSsh, dspRegSsl], effect regs r = regs r

/-- the body from `p` to `la` is made of one-word instructions that keep the loop registers -/
def StraightBody (prog : ℕ → LoopInstr) (p la : ℕ) : Prop :=
  ∀ a, p ≤ a → a ≤ la → ∃ effect, prog a = .op 1 effect ∧ KeepsLoopRegs effect

/-- the number of passes a loop count gives: 65536 for 0 -/
def loopPasses (lc : ℕ) : ℕ := if lc = 0 then 0x10000 else lc

/-- `st'` keeps the loop state of `st` apart from LC and the PC -/
structure SameFrame (st st' : LoopCore) : Prop where
  la : st'.regs dspRegLa = st.regs dspRegLa
  sp : st'.regs dspRegSp = st.regs dspRegSp
  sr : st'.regs dspRegSr = st.regs dspRegSr
  ssh : st'.regs dspRegSsh = st.regs dspRegSsh
  ssl : st'.regs dspRegSsl = st.regs dspRegSsl
  stackSsh : st'.stackSsh = st.stackSsh
  stackSsl : st'.stackSsl = st.stackSsl
  rep : st'.loopRep = st.loopRep

theorem SameFrame.refl (st : LoopCore) : SameFrame st st :=
  ⟨rfl, rfl, rfl, rfl, rfl, rfl, rfl, rfl⟩

theorem SameFrame.trans {st₁ st₂ st₃ : LoopCore} (h₁ : SameFrame st₁ st₂) (h₂ : SameFrame st₂ st₃) :
    SameFrame st₁ st₃ :=
  ⟨h₂.la.trans h₁.la, h₂.sp.trans h₁.sp, h₂.sr.trans h₁.sr, h₂.ssh.trans h₁.ssh, h₂.ssl.trans h₁.ssl,
    h₂.stackSsh.trans h₁.stackSsh, h₂.stackSsl.trans h₁.stackSsl, h₂.rep.trans h₁.rep⟩

theorem SameFrame.of_keeps {effect : DspRegisters → DspRegisters} (heff : KeepsLoopRegs effect) (st : LoopCore)
    (pc : ℕ) : SameFrame st { st with regs := effect st.regs, pc := pc } :=
  ⟨heff _ _ (by simp), heff _ _ (by simp), heff _ _ (by simp), heff _ _ (by simp), heff _ _ (by simp), rfl, rfl, rfl⟩

theorem SameFrame.setLc (st : LoopCore) (lc pc : ℕ) :
    SameFrame st { st with regs := setReg st.regs dspRegLc lc, pc := pc } :=
  ⟨setReg_of_ne st.regs lc (by decide : dspRegLa ≠ dspRegLc), setReg_of_ne st.regs lc (by decide : dspRegSp ≠ dspRegLc),
    setReg_of_ne st.regs lc (by decide : dspRegSr ≠ dspRegLc), setReg_of_ne st.regs lc (by decide : dspRegSsh ≠ dspRegLc),
    setReg_of_ne st.regs lc (by decide : dspRegSsl ≠ dspRegLc), rfl, rfl, rfl⟩

/-- inside a DO loop over `p .. la`: no REP, LF set, LA and SSH at the two ends of the body and the DO's frames on
the stack -/
structure InLoop (p la : ℕ) (st : LoopCore) : Prop where
  rep : st.loopRep = false
  lf : st.regs dspRegSr &&& (1 <<< dspSrLf) ≠ 0
  la : st.regs dspRegLa = la
  ssh : st.regs dspRegSsh = p
  sp_lt : st.regs dspRegSp < 16
  sp_ge : 2 ≤ st.regs dspRegSp

theorem InLoop.of_sameFrame {p la : ℕ} {st st' : LoopCore} (h : InLoop p la st) (hf : SameFrame st st') :
    InLoop p la st' :=
  ⟨hf.rep.trans h.rep, hf.sr ▸ h.lf, hf.la.trans h.la, hf.ssh.trans h.ssh, hf.sp ▸ h.sp_lt, hf.sp ▸ h.sp_ge⟩

/-- what the end of the loop in `st` leaves: the PC after the body, SR's low seven bits with the LF bit the DO
saved, and SP, LA and LC from the DO's outer frame -/
structure LeftLoop (la : ℕ) (st st' : LoopCore) : Prop where
  pc : st'.pc = la + 1
  sr : st'.regs dspRegSr = (st.regs dspRegSr &&& 0x7f) ||| (st.regs dspRegSsl &&& (1 <<< dspSrLf))
  sp : st'.regs dspRegSp = st.regs dspRegSp - 2
  la : st'.regs dspRegLa = st.stackSsh (st.regs dspRegSp - 1)
  lc : st'.regs dspRegLc = st.stackSsl (st.regs dspRegSp - 1)

theorem LeftLoop.of_sameFrame {la : ℕ} {st st₁ st' : LoopCore} (h : LeftLoop la st₁ st') (hf : SameFrame st st₁) :
    LeftLoop la st st' := by
  obtain ⟨hpc, hsr, hsp, hla, hlc⟩ := h
  rw [hf.sr, hf.ssl] at hsr
  rw [hf.sp, hf.stackSsh] at hla
  rw [hf.sp, hf.stackSsl] at hlc
  exact ⟨hpc, hsr, hf.sp ▸ hsp, hla, hlc⟩

/-- LC counts down by one while it stays below 65536 -/
theorem lc_decrement (n : ℕ) (hn : n < 0xffff) : sub32 (n + 1) 1 &&& bitmask 16 = n := by
  simp only [sub32, bitmask, Nat.and_two_pow_sub_one_eq_mod]
  omega

/-! ### Steps and runs -/

theorem dsp56kStep_op (prog : ℕ → LoopInstr) (st : LoopCore) {effect : DspRegisters → DspRegisters}
    (hop : prog st.pc = .op 1 effect) :
    dsp56kStep prog st = dspPostexecuteUpdatePc { st with regs := effect st.regs } 1 := by
  simp [dsp56kStep, hop, executeLoopInstr]

theorem runTrace_succ_of_step {prog : ℕ → LoopInstr} {n : ℕ} {st st₁ st' : LoopCore} {t : List ℕ}
    (hstep : dsp56kStep prog st = some st₁) (hrun : runTrace prog n st₁ = some (t, st')) :
    runTrace prog (n + 1) st = some (st.pc :: t, st') := by
  simp [runTrace, hstep, hrun]

/-- runs compose: the trace of the whole is the two traces one after the other -/
theorem runTrace_append {prog : ℕ → LoopInstr} {k : ℕ} {st₁ st₂ : LoopCore} {t₂ : List ℕ}
    (h₂ : runTrace prog k st₁ = some (t₂, st₂)) :
    ∀ {n : ℕ} {st : LoopCore} {t₁ : List ℕ}, runTrace prog n st = some (t₁, st₁) →
      runTrace prog (n + k) st = some (t₁ ++ t₂, st₂)
  | 0, st, t₁, h₁ => by
    simp only [runTrace, Option.some.injEq, Prod.mk.injEq] at h₁
    obtain ⟨rfl, rfl⟩ := h₁
    simpa using h₂
  | n + 1, st, t₁, h₁ => by
    simp only [runTrace, Option.bind_eq_some_iff, Option.map_eq_some_iff] at h₁
    obtain ⟨st', hstep, ⟨t, s⟩, hrun, hr⟩ := h₁
    simp only [Prod.mk.injEq] at hr
    obtain ⟨rfl, rfl⟩ := hr
    rw [Nat.add_right_comm]
    exact runTrace_succ_of_step hstep (runTrace_append h₂ hrun)

variable {prog : ℕ → LoopInstr} {p la : ℕ}

/-- a body instruction before LA: the PC moves on and the loop state stays -/
theorem step_in_body (hbody : StraightBody prog p la) {st : LoopCore} (h : InLoop p la st) (hp : p ≤ st.pc)
    (hlt : st.pc < la) :
    ∃ st', dsp56kStep prog st = some st' ∧ st'.pc = st.pc + 1 ∧ SameFrame st st' ∧
      st'.regs dspRegLc = st.regs dspRegLc := by
  obtain ⟨effect, hop, heff⟩ := hbody st.pc hp (Nat.le_of_lt hlt)
  refine ⟨{ st with regs := effect st.regs, pc := st.pc + 1 }, ?_, rfl, SameFrame.of_keeps heff st _,
    heff _ _ (by simp)⟩
  have hne : st.pc + 1 ≠ effect st.regs dspRegLa + 1 := by
    rw [heff st.regs dspRegLa (by simp), h.la]
    omega
  rw [dsp56kStep_op prog st hop, dspPostexecuteUpdatePc_of_ne { st with regs := effect st.regs } 1 h.rep hne]

/-- the instruction at LA with passes left: back to the start of the body with LC counted down -/
theorem step_back (hbody : StraightBody prog p la) {st : LoopCore} (h : InLoop p la st) (hp : p ≤ la)
    (hpc : st.pc = la) (lc : ℕ) (hlc : sub32 (st.regs dspRegLc) 1 &&& bitmask 16 = lc) (hne : lc ≠ 0) :
    ∃ st', dsp56kStep prog st = some st' ∧ st'.pc = p ∧ SameFrame st st' ∧ st'.regs dspRegLc = lc := by
  obtain ⟨effect, hop, heff⟩ := hbody st.pc (hpc ▸ hp) (Nat.le_of_eq hpc)
  -- the state after the instruction, before dsp_postexecute_update_pc
  let st₁ : LoopCore := { st with regs := effect st.regs }
  have hkeep : SameFrame st st₁ := SameFrame.of_keeps heff st st.pc
  have hin := h.of_sameFrame hkeep
  have hlc₁ : sub32 (st₁.regs dspRegLc) 1 &&& bitmask 16 = lc := by
    show sub32 (effect st.regs dspRegLc) 1 &&& bitmask 16 = lc
    rw [heff st.regs dspRegLc (by simp)]
    exact hlc
  refine ⟨{ st₁ with regs := setReg st₁.regs dspRegLc lc, pc := st₁.regs dspRegSsh }, ?_, hin.ssh,
    hkeep.trans (SameFrame.setLc st₁ lc _), setReg_self st₁.regs dspRegLc lc⟩
  rw [dsp56kStep_op prog st hop]
  refine dspPostexecuteUpdatePc_back st₁ 1 lc hin.rep hin.lf ?_ hlc₁ hne
  rw [hin.la]
  exact congrArg (· + 1) hpc

/-- the instruction at LA on the last pass: the loop ends -/
theorem step_exit (hbody : StraightBody prog p la) {st : LoopCore} (h : InLoop p la st) (hp : p ≤ la)
    (hpc : st.pc = la) (hlc : sub32 (st.regs dspRegLc) 1 &&& bitmask 16 = 0) :
    ∃ st', dsp56kStep prog st = some st' ∧ LeftLoop la st st' := by
  obtain ⟨effect, hop, heff⟩ := hbody st.pc (hpc ▸ hp) (Nat.le_of_eq hpc)
  let st₁ : LoopCore := { st with regs := effect st.regs }
  have hkeep₁ : SameFrame st st₁ := SameFrame.of_keeps heff st st.pc
  have hin₁ := h.of_sameFrame hkeep₁
  -- the state endLoop starts from: past LA, with LC at 0
  let st₂ : LoopCore := { st₁ with pc := st₁.pc + 1, regs := setReg st₁.regs dspRegLc 0 }
  have hkeep₂ : SameFrame st st₂ := hkeep₁.trans (SameFrame.setLc st₁ 0 _)
  have hin₂ := h.of_sameFrame hkeep₂
  obtain ⟨st', hend, hsr, hsp, hla, hlc', hpc'⟩ := endLoop_of_le st₂ hin₂.sp_lt hin₂.sp_ge
  refine ⟨st', ?_, LeftLoop.of_sameFrame ⟨?_, hsr, hsp, hla, hlc'⟩ hkeep₂⟩
  · rw [dsp56kStep_op prog st hop, ← hend]
    refine dspPostexecuteUpdatePc_exit st₁ 1 hin₁.rep hin₁.lf ?_ ?_
    · rw [hin₁.la]
      exact congrArg (· + 1) hpc
    · show sub32 (effect st.regs dspRegLc) 1 &&& bitmask 16 = 0
      rw [heff st.regs dspRegLc (by simp)]
      exact hlc
  · rw [hpc']
    exact congrArg (· + 1) hpc

/-- the body up to LA: the trace is the addresses in order, the loop state and LC stay -/
theorem runTrace_straight (hbody : StraightBody prog p la) :
    ∀ (k : ℕ) (st : LoopCore), InLoop p la st → p ≤ st.pc → st.pc + k ≤ la →
      ∃ st', runTrace prog k st = some (List.range' st.pc k, st') ∧ st'.pc = st.pc + k ∧ SameFrame st st' ∧
        st'.regs dspRegLc = st.regs dspRegLc
  | 0, st, _, _, _ => ⟨st, rfl, rfl, SameFrame.refl st, rfl⟩
  | k + 1, st, h, hp, hk => by
    obtain ⟨st₁, hstep, hpc₁, hf₁, hlc₁⟩ := step_in_body hbody h hp (by omega)
    obtain ⟨st', hrun, hpc', hf', hlc'⟩ :=
      runTrace_straight hbody k st₁ (h.of_sameFrame hf₁) (by omega) (by omega)
    refine ⟨st', ?_, by omega, hf₁.trans hf', hlc'.trans hlc₁⟩
    rw [List.range'_succ, ← hpc₁]
    exact runTrace_succ_of_step hstep hrun

/-- a pass that goes back for another: `la + 1 - p` instructions, back at `p` with LC counted down -/
theorem runTrace_pass_back (hbody : StraightBody prog p la) (hp : p ≤ la) {st : LoopCore} (h : InLoop p la st)
    (hpc : st.pc = p) (lc : ℕ) (hlc : sub32 (st.regs dspRegLc) 1 &&& bitmask 16 = lc) (hne : lc ≠ 0) :
    ∃ st', runTrace prog (la + 1 - p) st = some (List.range' p (la + 1 - p), st') ∧ st'.pc = p ∧
      SameFrame st st' ∧ st'.regs dspRegLc = lc := by
  obtain ⟨st₁, hrun₁, hpc₁, hf₁, hlc₁⟩ := runTrace_straight hbody (la - p) st h (by omega) (by omega)
  obtain ⟨st', hstep, hpc', hf', hlc'⟩ :=
    step_back hbody (h.of_sameFrame hf₁) hp (by omega) lc (by rw [hlc₁, hlc]) hne
  refine ⟨st', ?_, hpc', hf₁.trans hf', hlc'⟩
  have hlen : la + 1 - p = la - p + 1 := by omega
  rw [hpc] at hrun₁ hpc₁
  rw [hlen, List.range'_concat]
  refine runTrace_append ?_ hrun₁
  rw [Nat.one_mul, ← hpc₁]
  exact runTrace_succ_of_step hstep rfl

/-- the last pass: `la + 1 - p` instructions, and the loop is left -/
theorem runTrace_pass_exit (hbody : StraightBody prog p la) (hp : p ≤ la) {st : LoopCore} (h : InLoop p la st)
    (hpc : st.pc = p) (hlc : sub32 (st.regs dspRegLc) 1 &&& bitmask 16 = 0) :
    ∃ st', runTrace prog (la + 1 - p) st = some (List.range' p (la + 1 - p), st') ∧ LeftLoop la st st' := by
  obtain ⟨st₁, hrun₁, hpc₁, hf₁, hlc₁⟩ := runTrace_straight hbody (la - p) st h (by omega) (by omega)
  obtain ⟨st', hstep, hleft⟩ := step_exit hbody (h.of_sameFrame hf₁) hp (by omega) (by rw [hlc₁, hlc])
  refine ⟨st', ?_, hleft.of_sameFrame hf₁⟩
  have hlen : la + 1 - p = la - p + 1 := by omega
  rw [hpc] at hrun₁ hpc₁
  rw [hlen, List.range'_concat]
  refine runTrace_append ?_ hrun₁
  rw [Nat.one_mul, ← hpc₁]
  exact runTrace_succ_of_step hstep rfl

/-- with LC = n + 1 the body runs n + 1 times and the loop is left -/
theorem runTrace_passes (hbody : StraightBody prog p la) (hp : p ≤ la) :
    ∀ (n : ℕ) (st : LoopCore), InLoop p la st → st.pc = p → st.regs dspRegLc = n + 1 → n < 0xffff →
      ∃ st', runTrace prog ((n + 1) * (la + 1 - p)) st =
          some ((List.replicate (n + 1) (List.range' p (la + 1 - p))).flatten, st') ∧ LeftLoop la st st'
  | 0, st, h, hpc, hlc, _ => by
    obtain ⟨st', hrun, hleft⟩ := runTrace_pass_exit hbody hp h hpc (by rw [hlc]; decide)
    exact ⟨st', by simpa using hrun, hleft⟩
  | n + 1, st, h, hpc, hlc, hn => by
    obtain ⟨st₁, hrun₁, hpc₁, hf₁, hlc₁⟩ :=
      runTrace_pass_back hbody hp h hpc (n + 1) (by rw [hlc]; exact lc_decrement (n + 1) hn) (by omega)
    obtain ⟨st', hrun, hleft⟩ := runTrace_passes hbody hp n st₁ (h.of_sameFrame hf₁) hpc₁ hlc₁ (by omega)
    refine ⟨st', ?_, hleft.of_sameFrame hf₁⟩
    rw [List.replicate_succ, List.flatten_cons, Nat.add_one_mul, Nat.add_comm]
    exact runTrace_append hrun hrun₁

/-- a loop entered with LC = lc runs its body `loopPasses lc` times and is left -/
theorem runTrace_loop (hbody : StraightBody prog p la) (hp : p ≤ la) {st : LoopCore} (h : InLoop p la st)
    (hpc : st.pc = p) (hlc : st.regs dspRegLc ≤ 0xffff) :
    ∃ st', runTrace prog (loopPasses (st.regs dspRegLc) * (la + 1 - p)) st =
        some ((List.replicate (loopPasses (st.regs dspRegLc)) (List.range' p (la + 1 - p))).flatten, st') ∧
      LeftLoop la st st' := by
  by_cases h0 : st.regs dspRegLc = 0
  · -- LC = 0: the first pass counts down to 0xffff, then 0xffff passes follow
    obtain ⟨st₁, hrun₁, hpc₁, hf₁, hlc₁⟩ :=
      runTrace_pass_back hbody hp h hpc 0xffff (by rw [h0]; decide) (by decide)
    obtain ⟨st', hrun, hleft⟩ := runTrace_passes hbody hp 0xfffe st₁ (h.of_sameFrame hf₁) hpc₁ hlc₁ (by decide)
    refine ⟨st', ?_, hleft.of_sameFrame hf₁⟩
    have hpasses : loopPasses (st.regs dspRegLc) = 0xfffe + 1 + 1 := by simp [loopPasses, h0]
    rw [hpasses, List.replicate_succ, List.flatten_cons, Nat.add_one_mul, Nat.add_comm]
    exact runTrace_append hrun hrun₁
  · have hpasses : loopPasses (st.regs dspRegLc) = st.regs dspRegLc - 1 + 1 := by
      rw [loopPasses, if_neg h0]
      omega
    rw [hpasses]
    exact runTrace_passes hbody hp _ st h hpc (by omega) (by omega)

/-! ### Entering and leaving the loop -/

/-- what a DO with room on the stack leaves before dsp_postexecute_update_pc: LF set, LA and LC loaded, and two
frames pushed, the outer one holding the old LA:LC and the inner one the address after the DO and the old SR -/
structure EnteredDo (form : DoForm) (count ext : ℕ) (st st' : LoopCore) : Prop where
  rep : st'.loopRep = st.loopRep
  sr : st'.regs dspRegSr = st.regs dspRegSr ||| (1 <<< dspSrLf)
  la : st'.regs dspRegLa = doLoopAddress form st.pc ext
  lc : st'.regs dspRegLc = doLoopCount form count
  ssh : st'.regs dspRegSsh = (st.pc + 2) &&& bitmask 16
  ssl : st'.regs dspRegSsl = st.regs dspRegSr &&& bitmask 16
  sp : st'.regs dspRegSp = st.regs dspRegSp + 2
  outer_la : st'.stackSsh (st.regs dspRegSp + 1) = st.regs dspRegLa &&& bitmask 16
  outer_lc : st'.stackSsl (st.regs dspRegSp + 1) = st.regs dspRegLc &&& bitmask 16

/-- what doPushFrames leaves from `st`: LF set, LA loaded, and two frames pushed, the outer one holding the old LA:LC
and the inner one the address after the DO and the old SR -/
structure PushedFrames (la : ℕ) (st st' : LoopCore) : Prop where
  pc : st'.pc = st.pc
  rep : st'.loopRep = st.loopRep
  sr : st'.regs dspRegSr = st.regs dspRegSr ||| (1 <<< dspSrLf)
  la : st'.regs dspRegLa = la
  ssh : st'.regs dspRegSsh = (st.pc + 2) &&& bitmask 16
  ssl : st'.regs dspRegSsl = st.regs dspRegSr &&& bitmask 16
  sp : st'.regs dspRegSp = st.regs dspRegSp + 2
  outer_la : st'.stackSsh (st.regs dspRegSp + 1) = st.regs dspRegLa &&& bitmask 16
  outer_lc : st'.stackSsl (st.regs dspRegSp + 1) = st.regs dspRegLc &&& bitmask 16

theorem doPushFrames_of_lt (st : LoopCore) (la : ℕ) (hs : st.regs dspRegSp < 14) :
    ∃ st', doPushFrames st la = some st' ∧ PushedFrames la st st' := by
  unfold doPushFrames
  rw [dspStackPush_of_lt st _ _ (by omega)]
  simp only [Option.bind_some]
  simp only [dspRegSp, dspRegSsh, dspRegSsl, dspRegSr, dspRegLa, dspRegLc] at hs ⊢
  rw [dspStackPush_of_lt _ _ _ (by simp [setReg, dspRegSp]; omega)]
  refine ⟨_, rfl, ⟨rfl, rfl, ?_, ?_, ?_, ?_, ?_, ?_, ?_⟩⟩ <;>
    simp [setReg, dspRegSp, dspRegSsh, dspRegSsl, dspRegSr, dspRegLa, dspRegLc]

/-- LC loaded over the pushed frames, with registers from R0 to R7 as the ea form may leave them: the DO is entered -/
theorem EnteredDo.of_pushed {form : DoForm} {count ext : ℕ} {st st₂ : LoopCore}
    (h : PushedFrames (doLoopAddress form st.pc ext) st st₂) {regs : DspRegisters}
    (hregs : ∀ r, dspRegR0 + 8 ≤ r → regs r = st₂.regs r) :
    EnteredDo form count ext st { st₂ with regs := setReg regs dspRegLc (doLoopCount form count) } := by
  -- the loop registers all lie above R7
  have hkeep : ∀ r, dspRegR0 + 8 ≤ r → r ≠ dspRegLc → setReg regs dspRegLc (doLoopCount form count) r = st₂.regs r :=
    fun r hr hne => (setReg_of_ne _ _ hne).trans (hregs r hr)
  refine ⟨h.rep, ?_, ?_, setReg_self regs dspRegLc _, ?_, ?_, ?_, h.outer_la, h.outer_lc⟩
  · exact (hkeep _ (by decide) (by decide)).trans h.sr
  · exact (hkeep _ (by decide) (by decide)).trans h.la
  · exact (hkeep _ (by decide) (by decide)).trans h.ssh
  · exact (hkeep _ (by decide) (by decide)).trans h.ssl
  · exact (hkeep _ (by decide) (by decide)).trans h.sp

/-- a DO with room for its two frames is entered, and leaves cur_inst_len as `doInstLen` says -/
theorem emuDo_of_lt (st : LoopCore) (form : DoForm) (count ext : ℕ) (hs : st.regs dspRegSp < 14) :
    ∃ st', emuDo st form count ext = some (st', doInstLen form) ∧ st'.pc = st.pc ∧ EnteredDo form count ext st st' := by
  obtain ⟨st₂, hpush, hp⟩ := doPushFrames_of_lt st (doLoopAddress form st.pc ext) hs
  unfold emuDo
  rw [hpush, Option.bind_some]
  cases form with
  | ea eaMode =>
    -- emu_calc_ea writes only Rn, below the loop registers
    obtain ⟨ret, addr, est, hea, hf, hlen⟩ := emuCalcEa_frame eaMode ext ⟨st₂.regs, 0, 2⟩
    have hn : eaMode &&& bitmask 3 < 8 := by
      rw [bitmask, Nat.and_two_pow_sub_one_eq_mod]
      exact Nat.mod_lt _ (by decide)
    dsimp only
    rw [hea, Option.map_some]
    refine ⟨{ st₂ with regs := setReg est.regs dspRegLc (doLoopCount (.ea eaMode) count) }, ?_, hp.pc,
      EnteredDo.of_pushed hp fun r hr => hf r (by omega)⟩
    rw [hlen, doInstLen, eaTakesWord]
    split_ifs <;> simp_all
  | aa => exact ⟨_, rfl, hp.pc, EnteredDo.of_pushed hp fun _ _ => rfl⟩
  | imm => exact ⟨_, rfl, hp.pc, EnteredDo.of_pushed hp fun _ _ => rfl⟩
  | reg => exact ⟨_, rfl, hp.pc, EnteredDo.of_pushed hp fun _ _ => rfl⟩
  | dorImm => exact ⟨_, rfl, hp.pc, EnteredDo.of_pushed hp fun _ _ => rfl⟩
  | dorReg => exact ⟨_, rfl, hp.pc, EnteredDo.of_pushed hp fun _ _ => rfl⟩

theorem lf_of_or (x : ℕ) : (x ||| (1 <<< dspSrLf)) &&& (1 <<< dspSrLf) ≠ 0 := by
  intro h
  have h15 := congrArg (Nat.testBit · dspSrLf) h
  simp [Nat.testBit_and, Nat.testBit_or] at h15

/-- the LF bit of the SR a loop end rebuilds is the LF bit of the saved SR -/
theorem lf_of_loop_end (x y : ℕ) :
    ((x &&& 0x7f) ||| (y &&& bitmask 16 &&& (1 <<< dspSrLf))) &&& (1 <<< dspSrLf) = y &&& (1 <<< dspSrLf) := by
  rw [Nat.and_or_distrib_right, Nat.and_assoc x, (by decide : (0x7f : ℕ) &&& (1 <<< dspSrLf) = 0), Nat.and_zero,
    Nat.zero_or, Nat.and_assoc, Nat.and_assoc,
    (by decide : bitmask 16 &&& ((1 <<< dspSrLf) &&& (1 <<< dspSrLf)) = 1 <<< dspSrLf)]

/-- the DO instruction itself, two words long: the body is entered with the DO's frames on the stack -/
theorem step_do {st : LoopCore} {form : DoForm} {count ext : ℕ} (hdo : prog st.pc = .doLoop form count ext)
    (hlen : doInstLen form = 2) (hrep : st.loopRep = false) (hs : st.regs dspRegSp < 14) (hpc : st.pc + 2 < 2 ^ 16)
    (hla : st.pc + 2 ≤ doLoopAddress form st.pc ext) :
    ∃ st', dsp56kStep prog st = some st' ∧ st'.pc = st.pc + 2 ∧
      InLoop (st.pc + 2) (doLoopAddress form st.pc ext) st' ∧ EnteredDo form count ext st st' := by
  obtain ⟨st₁, hdo₁, hpc₁, hent⟩ := emuDo_of_lt st form count ext hs
  rw [hlen] at hdo₁
  have hne : st₁.pc + 2 ≠ st₁.regs dspRegLa + 1 := by
    rw [hpc₁, hent.la]
    omega
  refine ⟨{ st₁ with pc := st₁.pc + 2 }, ?_, by rw [hpc₁], ⟨hent.rep.trans hrep, ?_, hent.la, ?_, ?_, ?_⟩,
    ⟨hent.rep, hent.sr, hent.la, hent.lc, hent.ssh, hent.ssl, hent.sp, hent.outer_la, hent.outer_lc⟩⟩
  · simp only [dsp56kStep, hdo, executeLoopInstr, hdo₁, Option.bind_some]
    exact dspPostexecuteUpdatePc_of_ne st₁ 2 (hent.rep.trans hrep) hne
  · rw [hent.sr]
    exact lf_of_or _
  · rw [hent.ssh, bitmask, Nat.and_two_pow_sub_one_eq_mod, Nat.mod_eq_of_lt hpc]
  · rw [hent.sp]
    omega
  · rw [hent.sp]
    omega

/-- a two-word DO (every form but ea with MMM = 6) over a body of one-word instructions that keep the loop registers,
entered with room for its two frames:
after the DO the body runs `loopPasses LC` times, each pass through every address from the start of the body to LA
in order, and the loop is left at LA + 1 with SP, LA, LC and the LF bit as before the DO (LA and LC as the 16 bits
the stack keeps) -/
theorem runTrace_doLoop {st : LoopCore} {form : DoForm} {count ext : ℕ}
    (hdo : prog st.pc = .doLoop form count ext) (hlen : doInstLen form = 2) (hrep : st.loopRep = false)
    (hs : st.regs dspRegSp < 14) (hpc : st.pc + 2 < 2 ^ 16) (hla : st.pc + 2 ≤ doLoopAddress form st.pc ext)
    (hbody : StraightBody prog (st.pc + 2) (doLoopAddress form st.pc ext))
    (hcount : doLoopCount form count ≤ 0xffff) :
    ∃ st', runTrace prog (loopPasses (doLoopCount form count) * (doLoopAddress form st.pc ext + 1 - (st.pc + 2)) + 1)
        st = some (st.pc :: (List.replicate (loopPasses (doLoopCount form count))
          (List.range' (st.pc + 2) (doLoopAddress form st.pc ext + 1 - (st.pc + 2)))).flatten, st') ∧
      st'.pc = doLoopAddress form st.pc ext + 1 ∧ st'.regs dspRegSp = st.regs dspRegSp ∧
      st'.regs dspRegLa = st.regs dspRegLa &&& bitmask 16 ∧ st'.regs dspRegLc = st.regs dspRegLc &&& bitmask 16 ∧
      st'.regs dspRegSr &&& (1 <<< dspSrLf) = st.regs dspRegSr &&& (1 <<< dspSrLf) := by
  obtain ⟨st₁, hstep, hpc₁, hin, hent⟩ := step_do hdo hlen hrep hs hpc hla
  obtain ⟨st', hrun, hleft⟩ := runTrace_loop hbody hla hin hpc₁ (hent.lc ▸ hcount)
  rw [hent.lc] at hrun
  have hsp : st₁.regs dspRegSp - 1 = st.regs dspRegSp + 1 := by
    rw [hent.sp]
    rfl
  refine ⟨st', runTrace_succ_of_step hstep hrun, hleft.pc, ?_, ?_, ?_, ?_⟩
  · rw [hleft.sp, hent.sp, Nat.add_sub_cancel]
  · rw [hleft.la, hsp, hent.outer_la]
  · rw [hleft.lc, hsp, hent.outer_lc]
  · rw [hleft.sr, hent.sr, hent.ssl]
    exact lf_of_loop_end _ _

/-- DO #3 with LA = 3 at address 0, over a body of two one-word instructions -/
example : (runTrace (fun a => if a = 0 then .doLoop .imm 3 3 else .op 1 id) 7
    ⟨fun _ => 0, fun _ => 0, fun _ => 0, 0, false, false⟩).map Prod.fst = some [0, 2, 3, 2, 3, 2, 3] := by
  decide

end Xemu.Dsp
