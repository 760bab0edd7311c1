import Mathlib
import Xemu.Dsp.Address
import Xemu.Core.BitReverse
/-!
# Bit-reversed addressing

With Mn = 0, emu_update_rn updates Rn by emu_update_rn_bitreverse (dsp_emu.c.inc): it reverses the low bits of Rn, as
many as the lowest set bit of Nn and one, adds one and reverses them back. For Nn a power of two below 0x10000, the
use the addressing mode is made for, this is reverse-carry addition of Nn to Rn on 16-bit words
(`bitreverse_update_reverse_carry`).

Over operands addressed `(Rn)+Nn` in a row (`eaRun`), Rn then counts through its buffer of `2 * Nn` words in
bit-reversed order: a pass of `2 * Nn` operands reads each word of the buffer once and leaves the state as it found it
(`bitreverse_pass`). For Nn with none of its low 16 bits set the update reverses 17 bits and moves Rn out of 16 bits
(`bitreverse_no_set_bit`).
-/

namespace Xemu.Dsp

open Words BitReverse

/-- the test `value & (1 << i)` of the bit loops -/
theorem land_one_shiftLeft_ne_zero_iff (x i : ℕ) : x &&& 1 <<< i ≠ 0 ↔ x.testBit i = true := by
  rw [Nat.one_shiftLeft, Nat.and_two_pow]
  cases x.testBit i <;> simp

/-- the loop that counts `revbits` stops at the lowest set bit of Nn -/
theorem firstSetBit_eq {value j : ℕ} (hj : j < 16) (hset : value.testBit j = true)
    (hlow : ∀ i < j, value.testBit i = false) : firstSetBit value = j := by
  have hfind : (List.range 16).find? (fun i => decide (value &&& 1 <<< i ≠ 0)) = some j := by
    rw [List.find?_range_eq_some]
    refine ⟨by simpa [land_one_shiftLeft_ne_zero_iff] using hset, List.mem_range.mpr hj, fun i hi => ?_⟩
    simp [land_one_shiftLeft_ne_zero_iff, hlow i hi]
  rw [firstSetBit, hfind, Option.getD_some]

theorem firstSetBit_two_pow {j : ℕ} (hj : j < 16) : firstSetBit (2 ^ j) = j :=
  firstSetBit_eq hj Nat.testBit_two_pow_self fun _ hi => Nat.testBit_two_pow_of_ne (by omega)

/-- `BITMASK(16)-BITMASK(revbits)` for a count of at most 16 bits: bits `revbits` to 15 -/
theorem highMask_of_le {revbits : ℕ} (h : revbits ≤ 16) : highMask revbits = 2 ^ 16 - 2 ^ revbits := by
  have h1 : 1 ≤ 2 ^ revbits := Nat.one_le_two_pow
  have h2 : 2 ^ revbits ≤ 2 ^ 16 := Nat.pow_le_pow_right (by decide) h
  unfold highMask bitmask
  generalize 2 ^ revbits = P at h1 h2 ⊢
  omega

/-- on a 16-bit register the mask clears the low `revbits` bits -/
theorem land_highMask {r revbits : ℕ} (h : revbits ≤ 16) (hr : r < 2 ^ 16) :
    r &&& highMask revbits = 2 ^ revbits * (r / 2 ^ revbits) := by
  have h1 : 1 ≤ 2 ^ revbits := Nat.one_le_two_pow
  have hmask : 2 ^ 16 - 2 ^ revbits = 2 ^ 16 - (2 ^ revbits - 1 + 1) := by omega
  have hlt : 2 ^ revbits - 1 < 2 ^ 16 := by
    have := Nat.pow_le_pow_right (show 0 < 2 by decide) h
    omega
  apply Nat.eq_of_testBit_eq
  intro i
  rw [highMask_of_le h, hmask, Nat.testBit_and, Nat.testBit_two_pow_sub_succ hlt, Nat.testBit_two_pow_sub_one,
    Nat.testBit_two_pow_mul, Nat.testBit_div_two_pow]
  by_cases hi : i < revbits
  · simp [hi, show i < 16 by omega]
  · by_cases h16 : i < 16
    · simp [hi, h16, Nat.sub_add_cancel (Nat.le_of_not_lt hi)]
      exact fun _ => Nat.le_of_not_lt hi
    · have hr' : r < 2 ^ i := lt_of_lt_of_le hr (Nat.pow_le_pow_right (by decide) (by omega))
      simp [h16, Nat.sub_add_cancel (Nat.le_of_not_lt hi), Nat.testBit_lt_two_pow hr']

/-- the reversal loop of emu_update_rn_bitreverse: the masked high bits or'ed with the reversed low ones -/
theorem reverseLowBits_eq (rReg revbits : ℕ) :
    reverseLowBits rReg revbits = (rReg &&& highMask revbits) ||| bitRev revbits rReg := by
  have hstep : (fun value i => if rReg &&& 1 <<< i ≠ 0 then value ||| 1 <<< (revbits - i - 1) else value) =
      setMirrored revbits rReg := by
    funext value i
    simp only [setMirrored, land_one_shiftLeft_ne_zero_iff]
  rw [reverseLowBits, hstep, foldl_setMirrored]

theorem reverseLowBits_of_le {r revbits : ℕ} (h : revbits ≤ 16) (hr : r < 2 ^ 16) :
    reverseLowBits r revbits = 2 ^ revbits * (r / 2 ^ revbits) + bitRev revbits r := by
  rw [reverseLowBits_eq, land_highMask h hr]
  exact (Nat.two_pow_add_eq_or_of_lt (bitRev_lt _ _) _).symm

/-- the arithmetic of emu_update_rn_bitreverse, for at most 16 reversed bits: the low bits step as a reversed
counter and the high ones stay -/
theorem bitreverseStep_eq {r b : ℕ} (hb : b ≤ 16) (hr : r < 2 ^ 16) :
    reverseLowBits ((r &&& highMask b) ||| (reverseLowBits r b + 1) % 2 ^ 32 &&& bitmask b) b =
      2 ^ b * (r / 2 ^ b) + revInc b r := by
  have hlow : (bitRev b r + 1) % 2 ^ b < 2 ^ b := Nat.mod_lt _ (Nat.two_pow_pos b)
  -- the increment, cut to the low `b` bits, no longer sees the high ones
  have hinc : (reverseLowBits r b + 1) % 2 ^ 32 &&& bitmask b = (bitRev b r + 1) % 2 ^ b := by
    rw [reverseLowBits_of_le hb hr, bitmask, Nat.and_two_pow_sub_one_eq_mod,
      Nat.mod_mod_of_dvd _ (Nat.pow_dvd_pow 2 (by omega)),
      show 2 ^ b * (r / 2 ^ b) + bitRev b r + 1 = bitRev b r + 1 + 2 ^ b * (r / 2 ^ b) by ring,
      Nat.add_mul_mod_self_left]
  -- the high bits put back
  have hmerge : (r &&& highMask b) ||| (bitRev b r + 1) % 2 ^ b = (bitRev b r + 1) % 2 ^ b + 2 ^ b * (r / 2 ^ b) := by
    rw [land_highMask hb hr, ← Nat.two_pow_add_eq_or_of_lt hlow, Nat.add_comm]
  have hr' : (bitRev b r + 1) % 2 ^ b + 2 ^ b * (r / 2 ^ b) < 2 ^ 16 := by
    rw [Nat.add_comm]
    exact two_pow_mul_div_add_lt hb hr hlow
  rw [hinc, hmerge, reverseLowBits_of_le hb hr', add_two_pow_mul_div hlow, ← bitRev_mod b,
    add_two_pow_mul_mod hlow, revInc]

/-- emu_update_rn_bitreverse on a 16-bit Rn, for Nn with a set bit among its low 16 -/
theorem emuUpdateRnBitreverse_eq {regs : DspRegisters} {numreg : ℕ}
    (hN : firstSetBit (regs (dspRegN0 + numreg)) < 16) (hR : regs (dspRegR0 + numreg) < 2 ^ 16) :
    emuUpdateRnBitreverse regs numreg = setReg regs (dspRegR0 + numreg)
      (2 ^ (firstSetBit (regs (dspRegN0 + numreg)) + 1) *
          (regs (dspRegR0 + numreg) / 2 ^ (firstSetBit (regs (dspRegN0 + numreg)) + 1)) +
        revInc (firstSetBit (regs (dspRegN0 + numreg)) + 1) (regs (dspRegR0 + numreg))) := by
  rw [emuUpdateRnBitreverse]
  exact congrArg (setReg regs (dspRegR0 + numreg)) (bitreverseStep_eq hN hR)

/-- with Mn = 0 emu_update_rn is the bit-reversed update, whatever the modifier -/
theorem emuUpdateRn_bitreverse {regs : DspRegisters} {numreg : ℕ} (modifier : ℤ)
    (hM : regs (dspRegM0 + numreg) % 2 ^ 16 = 0) :
    emuUpdateRn regs numreg modifier = some (emuUpdateRnBitreverse regs numreg) := by
  simp only [emuUpdateRn, hM]
  simp

/-- with Mn = 0 and Nn a power of two below 0x10000, emu_update_rn adds Nn to Rn with reverse carry -/
theorem bitreverse_update_reverse_carry {regs : DspRegisters} {numreg : ℕ} (modifier : ℤ)
    (hM : regs (dspRegM0 + numreg) % 2 ^ 16 = 0) {j : ℕ} (hj : j < 16) (hN : regs (dspRegN0 + numreg) = 2 ^ j)
    (hR : regs (dspRegR0 + numreg) < 2 ^ 16) :
    emuUpdateRn regs numreg modifier =
      some (setReg regs (dspRegR0 + numreg) (revCarryAdd 16 (regs (dspRegR0 + numreg)) (regs (dspRegN0 + numreg)))) := by
  have hfirst : firstSetBit (regs (dspRegN0 + numreg)) = j := by
    rw [hN]
    exact firstSetBit_two_pow hj
  rw [emuUpdateRn_bitreverse modifier hM, emuUpdateRnBitreverse_eq (hfirst ▸ hj) hR, hfirst, hN,
    revCarryAdd_two_pow hj hR]

/-- an 8-point transform: Nn = 4 and R0 in the buffer at 0x1230 -/
def fftRegs : DspRegisters := fun r => if r = dspRegN0 then 4 else if r = dspRegR0 then 0x1235 else 0

theorem fft_update_reverse_carry :
    emuUpdateRn fftRegs 0 1 =
      some (setReg fftRegs (dspRegR0 + 0) (revCarryAdd 16 (fftRegs (dspRegR0 + 0)) (fftRegs (dspRegN0 + 0)))) :=
  bitreverse_update_reverse_carry 1 (by decide) (show 2 < 16 by decide) (by decide) (by decide)

/-! ## A pass over the buffer -/

/-- the operands of `k` instructions in a row that address memory in mode `eaMode`, with nothing else writing the
registers between them: their addresses, and the state after them -/
def eaRun (eaMode pcWord : ℕ) : ℕ → EaState → Option (List ℕ × EaState)
  | 0, st => some ([], st)
  | k + 1, st => (emuCalcEa eaMode pcWord st).bind fun (_, addr, st) =>
      (eaRun eaMode pcWord k st).map fun (addrs, st) => (addr :: addrs, st)

theorem setReg_setReg (regs : DspRegisters) (r v w : ℕ) : setReg (setReg regs r v) r w = setReg regs r w :=
  Function.update_idem _ _ _

theorem setReg_eq_self (regs : DspRegisters) (r : ℕ) : setReg regs r (regs r) = regs :=
  Function.update_eq_self _ _

/-- mode `(Rn)+Nn`: the address is Rn, and Rn is updated by Nn -/
theorem emuCalcEa_postIncN {st : EaState} {numreg : ℕ} (hnum : numreg < 8) (pcWord : ℕ) :
    emuCalcEa (8 + numreg) pcWord st = (emuUpdateRn st.regs numreg (toInt16 (st.regs (dspRegN0 + numreg)))).map
      fun regs => (0, st.regs (dspRegR0 + numreg), { st with regs }) := by
  have hmode : (8 + numreg) >>> 3 &&& bitmask 3 = 1 := by
    rw [bitmask, Nat.and_two_pow_sub_one_eq_mod, Nat.shiftRight_eq_div_pow]
    omega
  have hreg : (8 + numreg) &&& bitmask 3 = numreg := by
    rw [bitmask, Nat.and_two_pow_sub_one_eq_mod]
    omega
  simp only [emuCalcEa, hmode, hreg]

/-- one operand addressed `(Rn)+Nn` in bit-reversed mode, with Rn in its buffer of `2 ^ (j + 1)` words -/
theorem emuCalcEa_bitreverse {st : EaState} {numreg j q y : ℕ} (hnum : numreg < 8) (pcWord : ℕ)
    (hM : st.regs (dspRegM0 + numreg) % 2 ^ 16 = 0) (hj : j < 16) (hN : st.regs (dspRegN0 + numreg) = 2 ^ j)
    (hq : 2 ^ (j + 1) * (q + 1) ≤ 2 ^ 16) (hy : y < 2 ^ (j + 1))
    (hR : st.regs (dspRegR0 + numreg) = 2 ^ (j + 1) * q + y) :
    emuCalcEa (8 + numreg) pcWord st = some (0, 2 ^ (j + 1) * q + y,
      { st with regs := setReg st.regs (dspRegR0 + numreg) (2 ^ (j + 1) * q + revInc (j + 1) y) }) := by
  have hR16 : st.regs (dspRegR0 + numreg) < 2 ^ 16 := by
    rw [hR, Nat.mul_succ] at *
    omega
  have hfirst : firstSetBit (st.regs (dspRegN0 + numreg)) = j := by
    rw [hN]
    exact firstSetBit_two_pow hj
  -- the buffer's base and the count in its low bits, read back from Rn
  have hdiv : (2 ^ (j + 1) * q + y) / 2 ^ (j + 1) = q := by
    rw [Nat.add_comm, add_two_pow_mul_div hy]
  have hinc : revInc (j + 1) (2 ^ (j + 1) * q + y) = revInc (j + 1) y := by
    rw [← revInc_mod, Nat.add_comm (2 ^ (j + 1) * q) y, add_two_pow_mul_mod hy]
  rw [emuCalcEa_postIncN hnum, emuUpdateRn_bitreverse _ hM, emuUpdateRnBitreverse_eq (hfirst ▸ hj) hR16, hfirst,
    hR, hdiv, hinc, Option.map_some]

/-- `k` operands addressed `(Rn)+Nn` in bit-reversed mode, from Rn holding the reversal of `c` in its buffer: the
addresses count on from `c` in reverse, and only Rn changes -/
theorem eaRun_bitreverse {numreg j q : ℕ} (hnum : numreg < 8) (pcWord : ℕ) (hj : j < 16)
    (hq : 2 ^ (j + 1) * (q + 1) ≤ 2 ^ 16) :
    ∀ (k c : ℕ) (st : EaState), st.regs (dspRegM0 + numreg) % 2 ^ 16 = 0 → st.regs (dspRegN0 + numreg) = 2 ^ j →
      c < 2 ^ (j + 1) → st.regs (dspRegR0 + numreg) = 2 ^ (j + 1) * q + bitRev (j + 1) c →
      eaRun (8 + numreg) pcWord k st =
        some ((List.range k).map (fun i => 2 ^ (j + 1) * q + bitRev (j + 1) ((c + i) % 2 ^ (j + 1))),
          { st with regs := setReg st.regs (dspRegR0 + numreg) (2 ^ (j + 1) * q + bitRev (j + 1) ((c + k) % 2 ^ (j + 1))) })
  | 0, c, st, _, _, hc, hR => by
    simp only [eaRun, List.range_zero, List.map_nil, Nat.add_zero, Nat.mod_eq_of_lt hc, ← hR, setReg_eq_self]
  | k + 1, c, st, hM, hN, hc, hR => by
    have hpos := Nat.two_pow_pos (j + 1)
    have hRM : dspRegM0 + numreg ≠ dspRegR0 + numreg := by simp [dspRegM0, dspRegR0]
    have hRN : dspRegN0 + numreg ≠ dspRegR0 + numreg := by simp [dspRegN0, dspRegR0]
    -- the rest of the run starts from the next count, `c + 1` around the buffer
    have ih := eaRun_bitreverse hnum pcWord hj hq k ((c + 1) % 2 ^ (j + 1))
      { st with regs := setReg st.regs (dspRegR0 + numreg) (2 ^ (j + 1) * q + bitRev (j + 1) ((c + 1) % 2 ^ (j + 1))) }
      (by simpa [setReg_of_ne _ _ hRM] using hM) (by simpa [setReg_of_ne _ _ hRN] using hN) (Nat.mod_lt _ hpos)
      (setReg_self _ _ _)
    have hmod : ∀ i, ((c + 1) % 2 ^ (j + 1) + i) % 2 ^ (j + 1) = (c + (i + 1)) % 2 ^ (j + 1) := by
      intro i
      rw [Nat.mod_add_mod, Nat.add_assoc, Nat.add_comm 1 i]
    rw [eaRun, emuCalcEa_bitreverse hnum pcWord hM hj hN hq (bitRev_lt _ c) hR, revInc_bitRev hc, Option.bind_some]
    dsimp only
    rw [ih]
    dsimp only
    rw [Option.map_some, List.range_succ_eq_map, List.map_cons, List.map_map]
    simp only [Function.comp_def, Nat.succ_eq_add_one, Nat.add_zero, Nat.mod_eq_of_lt hc, setReg_setReg, hmod]

/-- a pass of `2 * Nn` operands addressed `(Rn)+Nn` in bit-reversed mode reads the words of Rn's buffer in bit-reversed
order, each once, and leaves the state as it was -/
theorem bitreverse_pass {st : EaState} {numreg j : ℕ} (hnum : numreg < 8) (pcWord : ℕ)
    (hM : st.regs (dspRegM0 + numreg) % 2 ^ 16 = 0) (hj : j < 16) (hN : st.regs (dspRegN0 + numreg) = 2 ^ j)
    (hR : st.regs (dspRegR0 + numreg) < 2 ^ 16) :
    ∃ addrs, eaRun (8 + numreg) pcWord (2 ^ (j + 1)) st = some (addrs, st) ∧
      addrs = (List.range (2 ^ (j + 1))).map (fun i => 2 ^ (j + 1) * (st.regs (dspRegR0 + numreg) / 2 ^ (j + 1)) +
        bitRev (j + 1) ((bitRev (j + 1) (st.regs (dspRegR0 + numreg)) + i) % 2 ^ (j + 1))) ∧
      addrs.Perm (List.range' (2 ^ (j + 1) * (st.regs (dspRegR0 + numreg) / 2 ^ (j + 1))) (2 ^ (j + 1))) := by
  obtain ⟨R, hRdef⟩ : ∃ R, st.regs (dspRegR0 + numreg) = R := ⟨_, rfl⟩
  rw [hRdef] at hR ⊢
  have hpos := Nat.two_pow_pos (j + 1)
  have hc : bitRev (j + 1) R < 2 ^ (j + 1) := bitRev_lt _ _
  -- the buffer holds Rn, so there is room above its base for all of it
  have hq : 2 ^ (j + 1) * (R / 2 ^ (j + 1) + 1) ≤ 2 ^ 16 := by
    have := two_pow_mul_div_add_lt (show j + 1 ≤ 16 by omega) hR (show 2 ^ (j + 1) - 1 < 2 ^ (j + 1) by omega)
    rw [Nat.mul_succ]
    omega
  -- Rn is its base and the reversal of its reversed count
  have hsplit : R = 2 ^ (j + 1) * (R / 2 ^ (j + 1)) + bitRev (j + 1) (bitRev (j + 1) R) := by
    rw [← bitRev_mod (j + 1) R, bitRev_bitRev (Nat.mod_lt _ hpos), Nat.div_add_mod]
  have hrun := eaRun_bitreverse hnum pcWord hj hq (2 ^ (j + 1)) (bitRev (j + 1) R) st hM hN hc (hRdef.trans hsplit)
  have hback : setReg st.regs (dspRegR0 + numreg) R = st.regs := by rw [← hRdef, setReg_eq_self]
  rw [Nat.add_mod_right, Nat.mod_eq_of_lt hc, ← hsplit, hback] at hrun
  refine ⟨_, hrun, rfl, ?_⟩
  -- the addresses are the buffer's base plus a rotation of the reversed counts
  have hshift : ((List.range (2 ^ (j + 1))).map fun i =>
      2 ^ (j + 1) * (R / 2 ^ (j + 1)) + bitRev (j + 1) ((bitRev (j + 1) R + i) % 2 ^ (j + 1))) =
      ((List.range (2 ^ (j + 1))).map fun i => bitRev (j + 1) ((bitRev (j + 1) R + i) % 2 ^ (j + 1))).map
        (2 ^ (j + 1) * (R / 2 ^ (j + 1)) + ·) := by
    rw [List.map_map]
    rfl
  rw [hshift, List.range'_eq_map_range]
  exact (bitRev_rotate_perm hc).map _

/-- the 8-point transform's state before its pass -/
def fftState : EaState := ⟨fftRegs, 0, 1⟩

theorem fft_pass :
    ∃ addrs, eaRun (8 + 0) 0 (2 ^ (2 + 1)) fftState = some (addrs, fftState) ∧
      addrs = (List.range (2 ^ (2 + 1))).map (fun i => 2 ^ (2 + 1) * (fftState.regs (dspRegR0 + 0) / 2 ^ (2 + 1)) +
        bitRev (2 + 1) ((bitRev (2 + 1) (fftState.regs (dspRegR0 + 0)) + i) % 2 ^ (2 + 1))) ∧
      addrs.Perm (List.range' (2 ^ (2 + 1) * (fftState.regs (dspRegR0 + 0) / 2 ^ (2 + 1))) (2 ^ (2 + 1))) :=
  bitreverse_pass (show 0 < 8 by decide) 0 (by decide) (show 2 < 16 by decide) (by decide) (by decide)

/-- R0 = 0x1235 holds count 5 reversed in its low 3 bits: the pass reads counts 5, 6, 7, 0, 1, 2, 3, 4, reversed -/
example : (eaRun (8 + 0) 0 8 ⟨fun r => if r = dspRegN0 then 4 else if r = dspRegR0 then 0x1235 else 0, 0, 1⟩).map
    Prod.fst = some [0x1235, 0x1233, 0x1237, 0x1230, 0x1234, 0x1232, 0x1236, 0x1231] := by decide

/-! ## Nn without a set bit -/

/-- with none of Nn's low 16 bits set the counting loop runs to its end: 17 bits are reversed -/
theorem firstSetBit_of_mod_eq_zero {value : ℕ} (h : value % 2 ^ 16 = 0) : firstSetBit value = 16 := by
  have hfind : (List.range 16).find? (fun i => decide (value &&& 1 <<< i ≠ 0)) = none := by
    rw [List.find?_range_eq_none]
    intro i hi
    have hbit := Nat.testBit_mod_two_pow value 16 i
    rw [h, Nat.zero_testBit] at hbit
    simp [land_one_shiftLeft_ne_zero_iff, hi] at hbit ⊢
    exact hbit
  rw [firstSetBit, hfind, Option.getD_none]

/-- `BITMASK(16)-BITMASK(17)` as a `uint32_t`: bits 16 to 31 -/
theorem land_highMask_seventeen {r : ℕ} (hr : r < 2 ^ 32) : r &&& highMask 17 = 2 ^ 16 * (r / 2 ^ 16) := by
  have hmask : highMask 17 = 2 ^ 32 - (2 ^ 16 - 1 + 1) := by decide
  apply Nat.eq_of_testBit_eq
  intro i
  rw [hmask, Nat.testBit_and, Nat.testBit_two_pow_sub_succ (by decide), Nat.testBit_two_pow_sub_one,
    Nat.testBit_two_pow_mul, Nat.testBit_div_two_pow]
  by_cases hi : i < 16
  · simp [hi]
  · by_cases h32 : i < 32
    · simp [hi, h32, Nat.sub_add_cancel (Nat.le_of_not_lt hi)]
      exact fun _ => Nat.le_of_not_lt hi
    · have hr' : r < 2 ^ i := lt_of_lt_of_le hr (Nat.pow_le_pow_right (by decide) (by omega))
      simp [h32, Nat.sub_add_cancel (Nat.le_of_not_lt hi), Nat.testBit_lt_two_pow hr']

/-- over 17 bits the reversal of a 16-bit value is its 16-bit reversal moved up one place -/
theorem bitRev_seventeen {r : ℕ} (hr : r < 2 ^ 16) : bitRev 17 r = 2 * bitRev 16 r := by
  have h := bitRev_add 1 16 r
  rw [Nat.div_eq_of_lt hr, Nat.mod_eq_of_lt hr, bitRev_zero_right] at h
  simpa using h

/-- the arithmetic of emu_update_rn_bitreverse with 17 bits reversed: a 16-bit Rn gains bit 16 -/
theorem bitreverseStep_seventeen {r : ℕ} (hr : r < 2 ^ 16) :
    reverseLowBits ((r &&& highMask 17) ||| (reverseLowBits r 17 + 1) % 2 ^ 32 &&& bitmask 17) 17 = r + 2 ^ 16 := by
  have hrev := bitRev_lt 16 r
  have hlow : r &&& highMask 17 = 0 := by
    rw [land_highMask_seventeen (by omega), Nat.div_eq_of_lt hr, Nat.mul_zero]
  -- the first reversal puts the low bits of Rn above bit 0, and the increment sets bit 0
  have hfirst : reverseLowBits r 17 = 2 * bitRev 16 r := by
    rw [reverseLowBits_eq, hlow, bitRev_seventeen hr, Nat.zero_or]
  have hinc : (reverseLowBits r 17 + 1) % 2 ^ 32 &&& bitmask 17 = 2 * bitRev 16 r + 1 := by
    rw [hfirst, bitmask, Nat.and_two_pow_sub_one_eq_mod, Nat.mod_eq_of_lt (by omega), Nat.mod_eq_of_lt (by omega)]
  -- reversing back brings bit 0 up to bit 16
  have hback : bitRev 17 (2 * bitRev 16 r + 1) = 2 ^ 16 + r := by
    show bitRev (16 + 1) _ = _
    rw [bitRev, show (2 * bitRev 16 r + 1) / 2 = bitRev 16 r by omega, show (2 * bitRev 16 r + 1) % 2 = 1 by omega,
      bitRev_bitRev hr, Nat.mul_one, Nat.add_comm]
  have hbit : (2 * bitRev 16 r + 1) / 2 ^ 16 ≤ 1 := by
    rw [Nat.div_le_iff_le_mul_add_pred (Nat.two_pow_pos 16)]
    omega
  have hor : 2 ^ 16 + r = 2 ^ 16 ||| r := by simpa using Nat.two_pow_add_eq_or_of_lt hr 1
  rw [hlow, hinc, Nat.zero_or, reverseLowBits_eq, land_highMask_seventeen (by omega), hback, Nat.add_comm r, hor]
  -- bit 16 may be set twice; the rest comes from Rn
  rcases Nat.le_one_iff_eq_zero_or_eq_one.mp hbit with h0 | h1
  · rw [h0, Nat.mul_zero, Nat.zero_or]
  · rw [h1, Nat.mul_one, ← Nat.or_assoc, Nat.or_self]

/-- with Mn = 0 and none of Nn's low 16 bits set, emu_update_rn adds 0x10000 to a 16-bit Rn: it leaves 16 bits,
where reverse-carry addition of Nn would leave it as it is -/
theorem bitreverse_no_set_bit {regs : DspRegisters} {numreg : ℕ} (modifier : ℤ)
    (hM : regs (dspRegM0 + numreg) % 2 ^ 16 = 0) (hN : regs (dspRegN0 + numreg) % 2 ^ 16 = 0)
    (hR : regs (dspRegR0 + numreg) < 2 ^ 16) :
    emuUpdateRn regs numreg modifier = some (setReg regs (dspRegR0 + numreg) (regs (dspRegR0 + numreg) + 2 ^ 16)) := by
  rw [emuUpdateRn_bitreverse modifier hM, emuUpdateRnBitreverse]
  simp only [firstSetBit_of_mod_eq_zero hN]
  rw [bitreverseStep_seventeen hR]

/-- Mn and Nn left at 0, R0 at 0x1235 -/
def zeroOffsetRegs : DspRegisters := fun r => if r = dspRegR0 then 0x1235 else 0

theorem zero_offset_leaves_sixteen_bits :
    emuUpdateRn zeroOffsetRegs 0 1 =
      some (setReg zeroOffsetRegs (dspRegR0 + 0) (zeroOffsetRegs (dspRegR0 + 0) + 2 ^ 16)) :=
  bitreverse_no_set_bit 1 (by decide) (by decide) (by decide)

end Xemu.Dsp
