import Mathlib
import Xemu.Dsp.Loop
import Xemu.Dsp.Divide
import Xemu.Dsp.BitReversed
/-!
# REP: one instruction repeated

REP (hw/xbox/mcpx/apu/dsp/dsp_emu.c.inc, emu_rep_*) saves LC in LCSAVE, loads LC with its count and marks a
repetition under way. dsp_postexecute_update_pc (dsp_cpu.c) then moves the PC onto the next instruction, turning a
count of 0 into 65536. After each pass of that instruction it counts LC down by one, modulo 65536, and keeps the PC on
the instruction until LC reaches 0; then it restores LC from LCSAVE and moves on.

`rep_repeats_instruction`: REP followed by an instruction that neither reads nor writes LC and LCSAVE and keeps LA
and LF (`Repeatable`), where no DO loop ends, runs that instruction `repPasses lc` times in a row, `lc` the count REP
loads: the count itself from 1 to 65536, 65536 for 0, and for a larger count (REP reads 24-bit counts from memory)
one pass more than the count less one modulo 65536. The passes start from the registers REP leaves (`emuRep_spec`:
LCSAVE holds LC, LC the count, and the ea form has updated its address register and, for MMM = 6, taken the word
after it, so that the repeated instruction sits one word further on). Afterwards LC is what it was before the REP and
the PC is past the instruction. DIV is such an instruction (`emuDiv_repeatable`), so `rep X:(R0)+` over a count of 24
followed by `div` runs the 24 steps of a division.
-/

namespace Xemu.Dsp

/-- the passes REP makes over the next instruction for the count `lc` it loads into LC -/
def repPasses (lc : ℕ) : ℕ := (loopPasses lc - 1) % 0x10000 + 1

/-- `--LC; LC &= BITMASK(16)` on a `uint32_t` holding at least 1 -/
theorem lc_count_down {m : ℕ} (hm : 1 ≤ m) : sub32 m 1 &&& bitmask 16 = (m - 1) % 0x10000 := by
  simp only [sub32, bitmask, Nat.and_two_pow_sub_one_eq_mod]
  omega

/-! ## Writes to two registers -/

theorem setReg_comm (regs : DspRegisters) {r r' : ℕ} (h : r ≠ r') (v v' : ℕ) :
    setReg (setReg regs r v) r' v' = setReg (setReg regs r' v') r v := by
  unfold setReg
  exact Function.update_comm h v v' regs

theorem setReg_of_get {regs : DspRegisters} {r v : ℕ} (h : regs r = v) : setReg regs r v = regs := by
  rw [← h]
  exact setReg_eq_self regs r

/-- a store to an accumulator and a write to a register outside it are made in either order -/
theorem storeAcc_setReg_comm (regs : DspRegisters) (d : Accumulator) (x : Acc56) {r : ℕ} (h2 : r ≠ d.reg2)
    (h1 : r ≠ d.reg1) (h0 : r ≠ d.reg0) (v : ℕ) :
    storeAcc (setReg regs r v) d x = setReg (storeAcc regs d x) r v := by
  unfold storeAcc
  rw [setReg_comm regs h2, setReg_comm _ h1, setReg_comm _ h0]

theorem loadAcc_setReg_of_ne (regs : DspRegisters) (d : Accumulator) {r : ℕ} (h2 : r ≠ d.reg2) (h1 : r ≠ d.reg1)
    (h0 : r ≠ d.reg0) (v : ℕ) : loadAcc (setReg regs r v) d = loadAcc regs d := by
  simp [loadAcc, Ne.symm h2, Ne.symm h1, Ne.symm h0]

/-! ## What REP needs of the instruction it repeats -/

/-- the instruction neither reads nor writes LC and LCSAVE, and keeps LA and the LF bit of SR -/
structure Repeatable (effect : DspRegisters → DspRegisters) : Prop where
  lc : ∀ regs v, effect (setReg regs dspRegLc v) = setReg (effect regs) dspRegLc v
  lcsave : ∀ regs v, effect (setReg regs dspRegLcsave v) = setReg (effect regs) dspRegLcsave v
  la : ∀ regs, effect regs dspRegLa = regs dspRegLa
  lf : ∀ regs, effect regs dspRegSr &&& (1 <<< dspSrLf) = regs dspRegSr &&& (1 <<< dspSrLf)

/-- no DO loop ends at address `a`: LF is clear, or `a` is not the address after the loop's last instruction -/
def NoLoopEndAt (regs : DspRegisters) (a : ℕ) : Prop :=
  regs dspRegSr &&& (1 <<< dspSrLf) = 0 ∨ a ≠ regs dspRegLa + 1

instance (regs : DspRegisters) (a : ℕ) : Decidable (NoLoopEndAt regs a) := inferInstanceAs (Decidable (_ ∨ _))

/-- the check reads only SR and LA -/
theorem NoLoopEndAt.of_agree {regs regs' : DspRegisters} {a : ℕ} (h : NoLoopEndAt regs a)
    (hsr : regs' dspRegSr = regs dspRegSr) (hla : regs' dspRegLa = regs dspRegLa) : NoLoopEndAt regs' a := by
  unfold NoLoopEndAt
  rw [hsr, hla]
  exact h

section Repeatable

variable {effect : DspRegisters → DspRegisters} (heff : Repeatable effect)
include heff

/-- the repetitions commute with the writes to LCSAVE and LC that REP makes -/
theorem Repeatable.iterate_setReg (n : ℕ) (regs : DspRegisters) (a m : ℕ) :
    effect^[n] (setReg (setReg regs dspRegLcsave a) dspRegLc m) =
      setReg (setReg (effect^[n] regs) dspRegLcsave a) dspRegLc m := by
  have hlc : Function.Commute effect (setReg · dspRegLc m) := fun regs => heff.lc regs m
  have hsave : Function.Commute effect (setReg · dspRegLcsave a) := fun regs => heff.lcsave regs a
  rw [(hlc.iterate_left n).eq, (hsave.iterate_left n).eq]

theorem Repeatable.noLoopEndAt {regs : DspRegisters} {a : ℕ} (h : NoLoopEndAt regs a) :
    NoLoopEndAt (effect regs) a := by
  unfold NoLoopEndAt
  rw [heff.lf, heff.la]
  exact h

end Repeatable

/-- the writes of REP to LCSAVE and LC leave the loop-end check as it was -/
theorem noLoopEndAt_setReg {regs : DspRegisters} {a : ℕ} (h : NoLoopEndAt regs a) (s m : ℕ) :
    NoLoopEndAt (setReg (setReg regs dspRegLcsave s) dspRegLc m) a := by
  refine h.of_agree ?_ ?_
  · rw [setReg_of_ne _ _ (by decide : dspRegSr ≠ dspRegLc), setReg_of_ne _ _ (by decide : dspRegSr ≠ dspRegLcsave)]
  · rw [setReg_of_ne _ _ (by decide : dspRegLa ≠ dspRegLc), setReg_of_ne _ _ (by decide : dspRegLa ≠ dspRegLcsave)]

/-- where no loop ends, dsp_postexecute_update_pc keeps the state the REP part left -/
theorem loopEnd_check_false (st : LoopCore) (h : NoLoopEndAt st.regs st.pc) :
    ¬(st.regs dspRegSr &&& (1 <<< dspSrLf) ≠ 0 ∧ st.pc = st.regs dspRegLa + 1) := by
  rintro ⟨hlf, hpc⟩
  rcases h with h | h
  · exact hlf h
  · exact h hpc

/-- so dsp_postexecute_update_pc only moves the PC by the length the REP part leaves -/
theorem dspPostexecuteUpdatePc_of_noLoopEnd {st st' : LoopCore} {len len' : ℕ} (h : repUpdate st len = (st', len'))
    (hend : NoLoopEndAt st'.regs (st'.pc + len')) :
    dspPostexecuteUpdatePc st len = some { st' with pc := st'.pc + len' } := by
  unfold dspPostexecuteUpdatePc
  rw [h]
  exact if_neg (loopEnd_check_false { st' with pc := st'.pc + len' } hend)

/-! ## The passes -/

/-- REP running the instruction at `q`: the registers `regs` with LCSAVE at `a` and LC at `m`, the passes left
counting the one to come -/
def repeatState (st : LoopCore) (regs : DspRegisters) (q a m : ℕ) : LoopCore :=
  { st with regs := setReg (setReg regs dspRegLcsave a) dspRegLc m, pc := q, loopRep := true, pcOnRep := false }

/-- the REP part of dsp_postexecute_update_pc after a pass with more to come: LC counts down, the PC stays -/
theorem repUpdate_again (st : LoopCore) (regs : DspRegisters) (q a : ℕ) {m : ℕ} (hm : 1 ≤ m)
    (hmore : 0 < (m - 1) % 0x10000) (len : ℕ) :
    repUpdate (repeatState st regs q a m) len = (repeatState st regs q a ((m - 1) % 0x10000), 0) := by
  simp [repUpdate, repeatState, lc_count_down hm, hmore, setReg_setReg]

/-- and after the last pass: LC comes back from LCSAVE and the repetition is over -/
theorem repUpdate_last (st : LoopCore) (regs : DspRegisters) (q a : ℕ) {m : ℕ} (hm : 1 ≤ m)
    (hlast : (m - 1) % 0x10000 = 0) (len : ℕ) :
    repUpdate (repeatState st regs q a m) len =
      ({ st with
        regs := setReg (setReg regs dspRegLcsave a) dspRegLc a
        pc := q
        loopRep := false
        pcOnRep := false }, len) := by
  simp [repUpdate, repeatState, lc_count_down hm, hlast, setReg_setReg,
    setReg_of_ne _ _ (by decide : dspRegLcsave ≠ dspRegLc)]

section Passes

variable {prog : ℕ → LoopInstr} {effect : DspRegisters → DspRegisters} {q len : ℕ}
  (hop : prog q = .op len effect) (heff : Repeatable effect)
include hop heff

/-- the handler of the repeated instruction, before dsp_postexecute_update_pc -/
theorem executeLoopInstr_repeat (st : LoopCore) (regs : DspRegisters) (a m : ℕ) :
    executeLoopInstr (repeatState st regs q a m) (prog q) = some (repeatState st (effect regs) q a m, len) := by
  rw [hop]
  simp only [executeLoopInstr, repeatState, Option.some.injEq, Prod.mk.injEq, and_true]
  rw [heff.lc, heff.lcsave]

/-- a pass with more to come -/
theorem step_repeat_again (st : LoopCore) (regs : DspRegisters) (a : ℕ) {m : ℕ} (hm : 1 ≤ m)
    (hmore : 0 < (m - 1) % 0x10000) (hend : NoLoopEndAt regs q) :
    dsp56kStep prog (repeatState st regs q a m) = some (repeatState st (effect regs) q a ((m - 1) % 0x10000)) := by
  rw [dsp56kStep, show (repeatState st regs q a m).pc = q from rfl, executeLoopInstr_repeat hop heff,
    Option.bind_some]
  exact dspPostexecuteUpdatePc_of_noLoopEnd (repUpdate_again st (effect regs) q a hm hmore len)
    (noLoopEndAt_setReg (heff.noLoopEndAt hend) a _)

/-- the last pass: the PC moves past the instruction -/
theorem step_repeat_last (st : LoopCore) (regs : DspRegisters) (a : ℕ) {m : ℕ} (hm : 1 ≤ m)
    (hlast : (m - 1) % 0x10000 = 0) (hend : NoLoopEndAt regs (q + len)) :
    dsp56kStep prog (repeatState st regs q a m) =
      some { st with
        regs := setReg (setReg (effect regs) dspRegLcsave a) dspRegLc a
        pc := q + len
        loopRep := false
        pcOnRep := false } := by
  rw [dsp56kStep, show (repeatState st regs q a m).pc = q from rfl, executeLoopInstr_repeat hop heff,
    Option.bind_some]
  exact dspPostexecuteUpdatePc_of_noLoopEnd (repUpdate_last st (effect regs) q a hm hlast len)
    (noLoopEndAt_setReg (heff.noLoopEndAt hend) a _)

/-- the passes, by induction on those left after the first: the trace stays on `q` -/
theorem runTrace_repeat (st : LoopCore) (a : ℕ) :
    ∀ (k : ℕ) (regs : DspRegisters) (m : ℕ), 1 ≤ m → (m - 1) % 0x10000 = k → NoLoopEndAt regs q →
      NoLoopEndAt regs (q + len) →
      runTrace prog (k + 1) (repeatState st regs q a m) =
        some (List.replicate (k + 1) q, { st with
          regs := setReg (setReg (effect^[k + 1] regs) dspRegLcsave a) dspRegLc a
          pc := q + len
          loopRep := false
          pcOnRep := false })
  | 0, regs, m, hm, hk, _, hend => runTrace_succ_of_step (step_repeat_last hop heff st regs a hm hk hend) rfl
  | k + 1, regs, m, hm, hk, hstay, hend => by
    have hstep := step_repeat_again hop heff st regs a hm (by omega) hstay
    -- the pass leaves `k + 1` on LC, which counts down to `k`
    have hrun := runTrace_repeat st a k (effect regs) ((m - 1) % 0x10000) (by omega) (by omega)
      (heff.noLoopEndAt hstay) (heff.noLoopEndAt hend)
    rw [← Function.iterate_succ_apply] at hrun
    exact runTrace_succ_of_step hstep hrun

end Passes

/-! ## The REP instruction -/

/-- the state REP leaves before dsp_postexecute_update_pc: the registers `regs` with LCSAVE at `a` and LC at `m`, and
a repetition starting -/
def repEntered (st : LoopCore) (regs : DspRegisters) (a m : ℕ) : LoopCore :=
  { st with regs := setReg (setReg regs dspRegLcsave a) dspRegLc m, pcOnRep := true, loopRep := true }

/-- emu_rep_*: LCSAVE takes LC and LC the count. Only the ea form writes another register, its address register
among R0 to R7, and it takes the second word exactly for MMM = 6 -/
theorem emuRep_spec (st : LoopCore) (form : RepForm) (count : ℕ) :
    ∃ regs, emuRep st form count =
        some (repEntered st regs (st.regs dspRegLc) (repLoopCount form count), repInstLen form) ∧
      ∀ r, r ≠ dspRegLcsave → (r < dspRegR0 ∨ dspRegR0 + 8 ≤ r) → regs r = st.regs r := by
  cases form with
  | ea eaMode pcWord =>
    obtain ⟨ret, addr, est, hea, hf, hlen⟩ :=
      emuCalcEa_frame eaMode pcWord ⟨setReg st.regs dspRegLcsave (st.regs dspRegLc), 0, 1⟩
    have hn : eaMode &&& bitmask 3 < 8 := by
      rw [bitmask, Nat.and_two_pow_sub_one_eq_mod]
      exact Nat.mod_lt _ (by decide)
    -- emu_calc_ea leaves LCSAVE, which lies above R7
    have hsave : est.regs dspRegLcsave = st.regs dspRegLc :=
      (hf _ (by unfold dspRegLcsave dspRegR0; omega)).trans (setReg_self st.regs dspRegLcsave _)
    refine ⟨est.regs, ?_, fun r hne hr => (hf r (by omega)).trans (setReg_of_ne _ _ hne)⟩
    have hlen' : est.curInstLen = repInstLen (.ea eaMode pcWord) := by
      rw [hlen, repInstLen, eaTakesWord]
      split_ifs <;> simp_all
    simp only [emuRep, hea, Option.map_some, repEntered, setReg_of_get hsave, hlen']
  | aa => exact ⟨st.regs, rfl, fun _ _ _ => rfl⟩
  | imm => exact ⟨st.regs, rfl, fun _ _ _ => rfl⟩
  | reg => exact ⟨st.regs, rfl, fun _ _ _ => rfl⟩

/-- the REP part of dsp_postexecute_update_pc after the REP instruction: a count of 0 becomes 65536 -/
theorem repUpdate_rep (st : LoopCore) (regs : DspRegisters) (a m len : ℕ) :
    repUpdate (repEntered st regs a m) len = (repeatState st regs st.pc a (loopPasses m), len) := by
  unfold loopPasses
  simp only [repUpdate, repEntered, if_true, setReg_self]
  split_ifs with h0
  · simp [repeatState, h0, setReg_setReg]
  · rfl

/-- the REP instruction, `len` words long: the PC moves onto the next instruction -/
theorem step_rep {prog : ℕ → LoopInstr} {st : LoopCore} {form : RepForm} {count len : ℕ} {regs : DspRegisters}
    {a m : ℕ} (hrep : prog st.pc = .rep form count) (hemu : emuRep st form count = some (repEntered st regs a m, len))
    (hend : NoLoopEndAt regs (st.pc + len)) :
    dsp56kStep prog st = some (repeatState st regs (st.pc + len) a (loopPasses m)) := by
  rw [dsp56kStep, hrep]
  simp only [executeLoopInstr, hemu, Option.bind_some]
  exact dspPostexecuteUpdatePc_of_noLoopEnd (repUpdate_rep st regs a m len) (noLoopEndAt_setReg hend _ _)

/-- REP followed by an instruction that neither reads nor writes LC and LCSAVE and keeps LA and LF, where no DO loop
ends: REP leaves LC at the count and LCSAVE at the old LC, writes nothing else outside R0 to R7, and the instruction
after it then runs `repPasses lc` times in a row (`lc` the count REP loads: from 1 to 65536 that many, 65536 for 0),
from the registers REP left; then LC is what it was and the PC is past the instruction -/
theorem rep_repeats_instruction (prog : ℕ → LoopInstr) (st : LoopCore) {form : RepForm} {count len : ℕ}
    {effect : DspRegisters → DspRegisters} (hrep : prog st.pc = .rep form count)
    (hop : prog (st.pc + repInstLen form) = .op len effect) (heff : Repeatable effect)
    (hend : NoLoopEndAt st.regs (st.pc + repInstLen form))
    (hend' : NoLoopEndAt st.regs (st.pc + repInstLen form + len)) :
    ∃ st₁, emuRep st form count = some (st₁, repInstLen form) ∧
      st₁.regs dspRegLc = repLoopCount form count ∧ st₁.regs dspRegLcsave = st.regs dspRegLc ∧
      (∀ r, r ≠ dspRegLc → r ≠ dspRegLcsave → (r < dspRegR0 ∨ dspRegR0 + 8 ≤ r) → st₁.regs r = st.regs r) ∧
      runTrace prog (repPasses (repLoopCount form count) + 1) st =
        some (st.pc :: List.replicate (repPasses (repLoopCount form count)) (st.pc + repInstLen form),
          { st₁ with
            regs := setReg (effect^[repPasses (repLoopCount form count)] st₁.regs) dspRegLc (st.regs dspRegLc)
            pc := st.pc + repInstLen form + len
            loopRep := false
            pcOnRep := false }) := by
  obtain ⟨regs, hemu, hframe⟩ := emuRep_spec st form count
  -- SR and LA lie above R7, so the loop-end checks see the registers REP leaves as they see the old ones
  have hagree : ∀ a, NoLoopEndAt st.regs a → NoLoopEndAt regs a :=
    fun a h => h.of_agree (hframe _ (by decide) (.inr (by decide))) (hframe _ (by decide) (.inr (by decide)))
  have hpos : 1 ≤ loopPasses (repLoopCount form count) := by
    unfold loopPasses
    split_ifs <;> omega
  have hrun := runTrace_repeat hop heff st (st.regs dspRegLc) _ regs _ hpos rfl (hagree _ hend) (hagree _ hend')
  -- restoring LC after the passes undoes the count REP loaded
  have hfinal : ∀ n, setReg (effect^[n] (repEntered st regs (st.regs dspRegLc) (repLoopCount form count)).regs)
      dspRegLc (st.regs dspRegLc) =
      setReg (setReg (effect^[n] regs) dspRegLcsave (st.regs dspRegLc)) dspRegLc (st.regs dspRegLc) := by
    intro n
    rw [repEntered, heff.iterate_setReg, setReg_setReg]
  refine ⟨_, hemu, setReg_self (setReg regs dspRegLcsave (st.regs dspRegLc)) dspRegLc _, ?_,
    fun r hlc hsave hr => ?_, ?_⟩
  · simp only [repEntered]
    rw [setReg_of_ne _ _ (by decide : dspRegLcsave ≠ dspRegLc), setReg_self]
  · simp only [repEntered]
    rw [setReg_of_ne _ _ hlc, setReg_of_ne _ _ hsave, hframe r hsave hr]
  · rw [hfinal, repPasses]
    exact runTrace_succ_of_step (step_rep hrep hemu (hagree _ hend)) hrun

/-! ## DIV under REP -/

theorem divSourceReg_lt (curInst : ℕ) : divSourceReg curInst < 8 := by
  unfold divSourceReg
  split <;> decide

/-- DIV commutes with a write to a register it neither reads nor writes -/
theorem emuDiv_setReg (curInst : ℕ) (regs : DspRegisters) {r : ℕ} (hsrc : r ≠ divSourceReg curInst)
    (h2 : r ≠ (divDest curInst).reg2) (h1 : r ≠ (divDest curInst).reg1) (h0 : r ≠ (divDest curInst).reg0)
    (hsr : r ≠ dspRegSr) (v : ℕ) : emuDiv curInst (setReg regs r v) = setReg (emuDiv curInst regs) r v := by
  obtain ⟨-, -, -, hs2, hs1, hs0⟩ := (divDest curInst).regs_ne
  simp only [emuDiv, loadAcc_setReg_of_ne regs _ h2 h1 h0, setReg_of_ne _ _ (Ne.symm hsrc),
    setReg_of_ne _ _ (Ne.symm hsr), storeAcc_setReg_comm _ _ _ h2 h1 h0]
  rw [setReg_comm _ hsr.symm]

/-- the SR a DIV step leaves: C, V and L replaced, which lie below LF -/
theorem divSr_lf (sr x n : ℕ) :
    ((sr &&& (bitmask 16 - ((1 <<< dspSrC) ||| (1 <<< dspSrV)))) ||| ((1 - x) <<< dspSrC) ||| (n &&& (1 <<< dspSrL)) |||
      (n &&& (1 <<< dspSrV))) &&& (1 <<< dspSrLf) = sr &&& (1 <<< dspSrLf) := by
  have hc : ((1 - x) <<< dspSrC).testBit dspSrLf = false := by
    apply Nat.testBit_lt_two_pow
    rw [show dspSrC = 0 from rfl, Nat.shiftLeft_zero, show dspSrLf = 15 from rfl]
    omega
  have hm : (bitmask 16 - ((1 <<< dspSrC) ||| (1 <<< dspSrV))).testBit dspSrLf = true := by decide
  have hl : decide (dspSrL = dspSrLf) = false := by decide
  have hv : decide (dspSrV = dspSrLf) = false := by decide
  -- only bit 15 survives the mask on either side
  apply Nat.eq_of_testBit_eq
  intro i
  simp only [Nat.testBit_and, Nat.testBit_or, Nat.one_shiftLeft, Nat.testBit_two_pow]
  by_cases hi : dspSrLf = i
  · subst hi
    simp only [← Nat.one_shiftLeft, hc, hm, hl, hv, decide_true, Bool.and_true, Bool.and_false, Bool.or_false]
  · simp only [hi, decide_false, Bool.and_false]

theorem emuDiv_repeatable (curInst : ℕ) : Repeatable (emuDiv curInst) := by
  -- LC, LCSAVE and LA lie outside the divisors X0 to Y1, the accumulators and SR
  have houtside : ∀ r ∈ [dspRegLc, dspRegLcsave, dspRegLa], r ≠ divSourceReg curInst ∧
      r ≠ (divDest curInst).reg2 ∧ r ≠ (divDest curInst).reg1 ∧ r ≠ (divDest curInst).reg0 ∧
        r ≠ dspRegSr := by
    have hsrc := divSourceReg_lt curInst
    intro r hr
    simp only [List.mem_cons, List.not_mem_nil, or_false] at hr
    refine ⟨fun h => ?_, ?_⟩
    · rw [← h] at hsrc
      rcases hr with rfl | rfl | rfl <;> exact absurd hsrc (by decide)
    · unfold divDest
      split_ifs <;> rcases hr with rfl | rfl | rfl <;> decide
  obtain ⟨hc, hc2, hc1, hc0, hcs⟩ := houtside dspRegLc (by simp)
  obtain ⟨hs, hs2, hs1, hs0, hss⟩ := houtside dspRegLcsave (by simp)
  obtain ⟨-, ha2, ha1, ha0, has⟩ := houtside dspRegLa (by simp)
  refine ⟨fun regs => emuDiv_setReg curInst regs hc hc2 hc1 hc0 hcs,
    fun regs => emuDiv_setReg curInst regs hs hs2 hs1 hs0 hss, fun regs => emuDiv_of_ne curInst regs ha2 ha1 ha0 has,
    fun regs => ?_⟩
  -- the new SR keeps every bit but C, V and L, which lie below LF
  obtain ⟨-, -, -, hs2, hs1, hs0⟩ := (divDest curInst).regs_ne
  simp only [emuDiv, setReg_self, storeAcc_of_ne regs _ _ hs2 hs1 hs0]
  exact divSr_lf (regs dspRegSr) _ _

/-- `rep X:(R0)+` at address 0 over a count of 24 read at X:R0, then `div x0,a` -/
def repDivProgram (a : ℕ) : LoopInstr := if a = 0 then .rep (.ea 0x18 0) 24 else .op 1 (emuDiv 0x018040)

/-- every register 0 but M0, which makes R0 a linear address register, at address 0 -/
def repDivStart : LoopCore := ⟨fun r => if r = dspRegM0 then 0xffff else 0, fun _ => 0, fun _ => 0, 0, false, false⟩

/-- the 24 DIV steps of a division under `rep X:(R0)+`, from the registers the REP leaves, and LC restored to 0 -/
theorem rep_div_twenty_four :
    ∃ st₁, emuRep repDivStart (.ea 0x18 0) 24 = some (st₁, 1) ∧
      st₁.regs dspRegLc = 24 ∧ st₁.regs dspRegLcsave = 0 ∧
      (∀ r, r ≠ dspRegLc → r ≠ dspRegLcsave → (r < dspRegR0 ∨ dspRegR0 + 8 ≤ r) →
        st₁.regs r = repDivStart.regs r) ∧
      runTrace repDivProgram (repPasses 24 + 1) repDivStart =
        some (0 :: List.replicate (repPasses 24) 1,
          { st₁ with
            regs := setReg ((emuDiv 0x018040)^[repPasses 24] st₁.regs) dspRegLc 0
            pc := 2
            loopRep := false
            pcOnRep := false }) :=
  rep_repeats_instruction repDivProgram repDivStart rfl rfl (emuDiv_repeatable 0x018040) (by decide) (by decide)

/-- the address update of `rep X:(R0)+`: R0 moves from 0 to 1 -/
example : (emuRep repDivStart (.ea 0x18 0) 24).map (fun r => r.1.regs dspRegR0) = some 1 := by
  decide

end Xemu.Dsp
