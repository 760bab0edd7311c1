import Mathlib
import Xemu.Dsp.Alu
import Xemu.Core.Words
/-!
# Address register updates

emu_calc_ea (dsp_emu.c.inc) computes the effective address of a memory operand from an address register Rn and
updates Rn with emu_update_rn, by `±1` or `±Nn`. The update depends on the modifier register Mn: linear for 0xFFFF,
bit-reversed for 0, modulo `Mn + 1` for 1 to 0x7FFF (emu_update_rn_modulo), nothing otherwise.

The modulo update keeps Rn as a signed `int16_t` and compares it with the unsigned bounds of its buffer, whose base
is Rn with its low `k` bits cleared, `2 ^ k` the smallest power of two at least the modulus:

* For a buffer below 0x8000, a modifier of at most Mn in size keeps Rn in its buffer, wrapping once, as long as
  `Rn + n` is below 0x8000: `modulo_update_lower_half`.
* For a buffer at or above 0x8000 the signed copy of Rn is negative. It is always below the lower bound, so every
  update adds the modulus: Rn becomes `Rn + n + Mn + 1` and leaves its buffer (`modulo_update_upper_half`).
* A modifier `j * 2 ^ k` larger than the modulus is stepped over whole buffers, and then corrected by the modulus as if
  it had left its buffer once: Rn becomes `Rn + n - (Mn + 1)` (`modulo_multiple_wrap`).
-/

namespace Xemu.Dsp

open Words

def dspRegR0 : ℕ := 0x10
def dspRegN0 : ℕ := 0x18
def dspRegM0 : ℕ := 0x20

/-- `(int16_t) x`: `x` modulo `2 ^ 16` read as a signed 16-bit value -/
def toInt16 (x : ℤ) : ℤ := (x + 2 ^ 15) % 2 ^ 16 - 2 ^ 15

/-- `(uint32_t) x & BITMASK(16)`, and the conversion of an `int` to `uint16_t` -/
def lowHalf (x : ℤ) : ℕ := (x % 2 ^ 16).toNat

/-! ## Modulo update -/

/-- `while (bufsize < modulo) { bufsize <<= 1; bufmask <<= 1; }` on `uint16_t`s. For a modulus above 0x8000 the size
wraps to `0` and the loop never ends: `none` once 16 doublings have not reached the modulus. -/
def growBuffer (modulo : ℕ) : ℕ → ℕ → ℕ → Option (ℕ × ℕ)
  | 0, bufsize, bufmask => if bufsize < modulo then none else some (bufsize, bufmask)
  | fuel + 1, bufsize, bufmask =>
    if bufsize < modulo then growBuffer modulo fuel ((bufsize <<< 1) % 2 ^ 16) ((bufmask <<< 1) % 2 ^ 16)
    else some (bufsize, bufmask)

/-- `while (modifier > bufsize) { r_reg += bufsize; modifier -= bufsize; }` on `int16_t`s -/
def stepUp (bufsize : ℕ) : ℕ → ℤ → ℤ → ℤ × ℤ
  | 0, rReg, modifier => (rReg, modifier)
  | fuel + 1, rReg, modifier =>
    if modifier > bufsize then stepUp bufsize fuel (toInt16 (rReg + bufsize)) (toInt16 (modifier - bufsize))
    else (rReg, modifier)

/-- `while (modifier < -bufsize) { r_reg -= bufsize; modifier += bufsize; }` on `int16_t`s -/
def stepDown (bufsize : ℕ) : ℕ → ℤ → ℤ → ℤ × ℤ
  | 0, rReg, modifier => (rReg, modifier)
  | fuel + 1, rReg, modifier =>
    if modifier < -(bufsize : ℤ) then stepDown bufsize fuel (toInt16 (rReg - bufsize)) (toInt16 (modifier + bufsize))
    else (rReg, modifier)

/-- the rounds the stepping loops may take: a modifier is an `int16_t` and a buffer at least one word -/
def moduloFuel : ℕ := 2 ^ 15

/-- the arithmetic of emu_update_rn_modulo once the buffer is known: the new `r_reg` -/
def moduloStep (modulo bufsize lobound hibound : ℕ) (rReg modifier : ℤ) : ℤ :=
  let origModifier := modifier
  let (rReg, modifier) :=
    if origModifier > modulo then
      let (rReg, modifier) := stepUp bufsize moduloFuel rReg modifier
      stepDown bufsize moduloFuel rReg modifier
    else (rReg, modifier)
  let rReg := toInt16 (rReg + modifier)
  if origModifier ≠ modulo then
    if rReg > hibound then toInt16 (rReg - modulo)
    else if rReg < lobound then toInt16 (rReg + modulo)
    else rReg
  else rReg

/-- emu_update_rn_modulo; `none` where its buffer-size loop does not end -/
def emuUpdateRnModulo (regs : DspRegisters) (numreg : ℕ) (modifier : ℤ) : Option DspRegisters :=
  let modulo := (regs (dspRegM0 + numreg) + 1) % 2 ^ 16
  (growBuffer modulo 16 1 (bitmask 16)).map fun (bufsize, bufmask) =>
    let lobound : ℕ := (regs (dspRegR0 + numreg) &&& bufmask) % 2 ^ 16
    let hibound := lowHalf ((lobound : ℤ) + modulo - 1)
    let rReg := toInt16 (regs (dspRegR0 + numreg))
    setReg regs (dspRegR0 + numreg) (lowHalf (moduloStep modulo bufsize lobound hibound rReg modifier))

/-! ## Bit-reversed update -/

/-- `for (revbits=0;revbits<16;revbits++) if (value & (1<<revbits)) break;` -/
def firstSetBit (value : ℕ) : ℕ := ((List.range 16).find? fun i => value &&& (1 <<< i) ≠ 0).getD 16

/-- `BITMASK(16)-BITMASK(revbits)` as an `int`, converted to `uint32_t` where it masks a register -/
def highMask (revbits : ℕ) : ℕ := ((((bitmask 16 : ℕ) : ℤ) - bitmask revbits) % 2 ^ 32).toNat

/-- the high bits of `r_reg` kept, and its low `revbits` bits reversed -/
def reverseLowBits (rReg revbits : ℕ) : ℕ :=
  (List.range revbits).foldl
    (fun value i => if rReg &&& (1 <<< i) ≠ 0 then value ||| (1 <<< (revbits - i - 1)) else value)
    (rReg &&& highMask revbits)

/-- emu_update_rn_bitreverse: Rn's low bits, as many as the lowest set bit of Nn and one, incremented in reversed
order -/
def emuUpdateRnBitreverse (regs : DspRegisters) (numreg : ℕ) : DspRegisters :=
  let revbits := firstSetBit (regs (dspRegN0 + numreg)) + 1
  let rReg := regs (dspRegR0 + numreg)
  let value := reverseLowBits rReg revbits
  let value := (value + 1) % 2 ^ 32 &&& bitmask revbits
  let rReg := (rReg &&& highMask revbits) ||| value
  setReg regs (dspRegR0 + numreg) (reverseLowBits rReg revbits)

/-! ## emu_update_rn and emu_calc_ea -/

/-- emu_update_rn -/
def emuUpdateRn (regs : DspRegisters) (numreg : ℕ) (modifier : ℤ) : Option DspRegisters :=
  let mReg := regs (dspRegM0 + numreg) % 2 ^ 16
  if mReg = 65535 then
    -- linear addressing mode
    let value := toInt16 (toInt16 (regs (dspRegR0 + numreg)) + modifier)
    some (setReg regs (dspRegR0 + numreg) (lowHalf value))
  else if mReg = 0 then
    -- bit reversed carry update
    some (emuUpdateRnBitreverse regs numreg)
  else if mReg ≤ 32767 then
    -- modulo update
    emuUpdateRnModulo regs numreg modifier
  else
    -- undefined
    some regs

/-- the registers, and the state emu_calc_ea and the other handlers that read an extension word write besides them -/
structure EaState where
  regs : DspRegisters
  instrCycle : ℕ
  curInstLen : ℕ

/-- emu_calc_ea: the return value, the address and the new state. `pcWord` is `read_memory_p(dsp, dsp->pc+1)`. -/
def emuCalcEa (eaMode pcWord : ℕ) (st : EaState) : Option (ℕ × ℕ × EaState) :=
  let value := (eaMode >>> 3) &&& bitmask 3
  let numreg := eaMode &&& bitmask 3
  let rn := st.regs (dspRegR0 + numreg)
  let nn := st.regs (dspRegN0 + numreg)
  match value with
  | 0 =>
    -- (Rx)-Nx
    (emuUpdateRn st.regs numreg (toInt16 (sub32 0 nn))).map fun regs => (0, rn, { st with regs })
  | 1 =>
    -- (Rx)+Nx
    (emuUpdateRn st.regs numreg (toInt16 nn)).map fun regs => (0, rn, { st with regs })
  | 2 =>
    -- (Rx)-
    (emuUpdateRn st.regs numreg (-1)).map fun regs => (0, rn, { st with regs })
  | 3 =>
    -- (Rx)+
    (emuUpdateRn st.regs numreg 1).map fun regs => (0, rn, { st with regs })
  | 4 =>
    -- (Rx)
    some (0, rn, st)
  | 5 =>
    -- (Rx+Nx)
    (emuUpdateRn st.regs numreg (toInt16 nn)).map fun regs =>
      (0, regs (dspRegR0 + numreg),
        { st with regs := setReg regs (dspRegR0 + numreg) rn, instrCycle := st.instrCycle + 2 })
  | 6 =>
    -- aa
    let st := { st with instrCycle := st.instrCycle + 2, curInstLen := st.curInstLen + 1 }
    some (if numreg ≠ 0 then 1 else 0, pcWord, st)
  | _ =>
    -- -(Rx)
    (emuUpdateRn st.regs numreg (-1)).map fun regs =>
      (0, regs (dspRegR0 + numreg), { st with regs, instrCycle := st.instrCycle + 2 })

/-! ## The buffer -/

/-- the doubling loop from `2 ^ i`: it stops at the first power of two that reaches the modulus -/
theorem growBuffer_from {modulo : ℕ} (hmod : modulo ≤ 2 ^ 15) :
    ∀ fuel i, 15 ≤ i + fuel → i ≤ 15 → (∀ j < i, 2 ^ j < modulo) →
      ∃ k, k ≤ 15 ∧ growBuffer modulo fuel (2 ^ i) (2 ^ 16 - 2 ^ i) = some (2 ^ k, 2 ^ 16 - 2 ^ k) ∧
        modulo ≤ 2 ^ k ∧ ∀ j < k, 2 ^ j < modulo := by
  intro fuel
  induction fuel with
  | zero =>
    intro i hfuel hi hbelow
    have hi15 : i = 15 := by omega
    subst hi15
    exact ⟨15, le_rfl, by simp only [growBuffer, if_neg (Nat.not_lt.2 hmod)], hmod, hbelow⟩
  | succ fuel ih =>
    intro i hfuel hi hbelow
    by_cases hlt : 2 ^ i < modulo
    · -- one more doubling: below `2 ^ 15` neither the size nor the mask wraps
      have hi14 : i < 15 := by
        by_contra hge
        have : 2 ^ 15 ≤ 2 ^ i := Nat.pow_le_pow_right (by decide) (by omega)
        omega
      have hpow : 2 ^ (i + 1) ≤ 2 ^ 15 := Nat.pow_le_pow_right (by decide) (by omega)
      have hsize : (2 ^ i <<< 1) % 2 ^ 16 = 2 ^ (i + 1) := by
        rw [Nat.shiftLeft_eq, pow_one, ← pow_succ, Nat.mod_eq_of_lt (by omega)]
      have hmask : ((2 ^ 16 - 2 ^ i) <<< 1) % 2 ^ 16 = 2 ^ 16 - 2 ^ (i + 1) := by
        have h2 : 2 ^ (i + 1) = 2 ^ i * 2 := pow_succ 2 i
        have hP : 2 ^ i ≤ 2 ^ 14 := Nat.pow_le_pow_right (by decide) (by omega)
        have hpos := Nat.two_pow_pos i
        rw [Nat.shiftLeft_eq, h2]
        generalize 2 ^ i = P at hP hpos ⊢
        omega
      simp only [growBuffer, if_pos hlt, hsize, hmask]
      refine ih (i + 1) (by omega) (by omega) fun j hj => ?_
      rcases Nat.lt_succ_iff_lt_or_eq.1 hj with hj | rfl
      · exact hbelow j hj
      · exact hlt
    · exact ⟨i, hi, by simp only [growBuffer, if_neg hlt], Nat.not_lt.1 hlt, hbelow⟩

/-- for a modulus from 1 to 0x8000 the loop ends at the smallest power of two `2 ^ k` at least the modulus, with the
mask of the bits from `k` up -/
theorem growBuffer_eq {modulo : ℕ} (hmod : modulo ≤ 2 ^ 15) :
    ∃ k, k ≤ 15 ∧ growBuffer modulo 16 1 (bitmask 16) = some (2 ^ k, 2 ^ 16 - 2 ^ k) ∧
      modulo ≤ 2 ^ k ∧ ∀ j < k, 2 ^ j < modulo :=
  growBuffer_from hmod 16 0 (by decide) (by decide) fun _ hj => absurd hj (Nat.not_lt_zero _)

/-- two smallest powers of two at least `m` are one -/
theorem least_pow_unique {m k k' : ℕ} (hk : m ≤ 2 ^ k) (hmin : ∀ j < k, 2 ^ j < m) (hk' : m ≤ 2 ^ k')
    (hmin' : ∀ j < k', 2 ^ j < m) : k = k' := by
  by_contra hne
  rcases Nat.lt_or_gt_of_ne hne with h | h
  · exact absurd hk (Nat.not_le.2 (hmin' k h))
  · exact absurd hk' (Nat.not_le.2 (hmin k' h))

/-- the modulo branch of emu_update_rn for `1 ≤ Mn ≤ 0x7FFF`: the buffer starts at Rn with its low `k` bits cleared
and ends `Mn` words later -/
theorem emuUpdateRn_modulo {regs : DspRegisters} {numreg : ℕ} (modifier : ℤ) {k : ℕ}
    (hM1 : 1 ≤ regs (dspRegM0 + numreg)) (hM : regs (dspRegM0 + numreg) ≤ 32767)
    (hR : regs (dspRegR0 + numreg) < 2 ^ 16) (hk : regs (dspRegM0 + numreg) + 1 ≤ 2 ^ k)
    (hmin : ∀ j < k, 2 ^ j < regs (dspRegM0 + numreg) + 1) :
    emuUpdateRn regs numreg modifier =
      some (setReg regs (dspRegR0 + numreg)
        (lowHalf (moduloStep (regs (dspRegM0 + numreg) + 1) (2 ^ k)
          (regs (dspRegR0 + numreg) / 2 ^ k * 2 ^ k)
          (regs (dspRegR0 + numreg) / 2 ^ k * 2 ^ k + regs (dspRegM0 + numreg))
          (toInt16 (regs (dspRegR0 + numreg))) modifier))) := by
  have hmReg : regs (dspRegM0 + numreg) % 2 ^ 16 = regs (dspRegM0 + numreg) := Nat.mod_eq_of_lt (by omega)
  have hmodulo : (regs (dspRegM0 + numreg) + 1) % 2 ^ 16 = regs (dspRegM0 + numreg) + 1 :=
    Nat.mod_eq_of_lt (by omega)
  obtain ⟨k', hk15, hgrow, hk', hmin'⟩ := growBuffer_eq (by omega : regs (dspRegM0 + numreg) + 1 ≤ 2 ^ 15)
  obtain rfl : k' = k := least_pow_unique hk' hmin' hk hmin
  -- the lower bound is Rn with its low bits cleared, and the buffer fits below `2 ^ 16`
  have hlo : (regs (dspRegR0 + numreg) &&& (2 ^ 16 - 2 ^ k')) % 2 ^ 16 =
      regs (dspRegR0 + numreg) / 2 ^ k' * 2 ^ k' := by
    rw [land_two_pow_sub_two_pow (by omega), Nat.mod_eq_of_lt hR]
    exact Nat.mod_eq_of_lt (lt_of_le_of_lt (Nat.div_mul_le_self _ _) hR)
  have hfit := div_mul_add_le (x := regs (dspRegR0 + numreg)) (pow_dvd_pow 2 (by omega : k' ≤ 16)) hR
  have hhi : lowHalf (((regs (dspRegR0 + numreg) / 2 ^ k' * 2 ^ k' : ℕ) : ℤ) + ((regs (dspRegM0 + numreg) + 1 : ℕ)
      : ℤ) - 1) = regs (dspRegR0 + numreg) / 2 ^ k' * 2 ^ k' + regs (dspRegM0 + numreg) := by
    unfold lowHalf
    omega
  simp only [emuUpdateRn, hmReg, emuUpdateRnModulo, hmodulo, hgrow, Option.map_some, hlo, hhi]
  rw [if_neg (by omega), if_neg (by omega), if_pos hM]

/-! ## Where the modulo update leaves Rn -/

/-- a modifier below the modulus skips the stepping loops: one addition, then one correction by the modulus -/
theorem moduloStep_of_lt {modulo bufsize lobound hibound : ℕ} {rReg modifier : ℤ} (h : modifier < modulo) :
    moduloStep modulo bufsize lobound hibound rReg modifier =
      if toInt16 (rReg + modifier) > hibound then toInt16 (toInt16 (rReg + modifier) - modulo)
      else if toInt16 (rReg + modifier) < lobound then toInt16 (toInt16 (rReg + modifier) + modulo)
      else toInt16 (rReg + modifier) := by
  unfold moduloStep
  dsimp only
  rw [if_neg (show ¬modifier > (modulo : ℤ) by omega)]
  dsimp only
  rw [if_pos (show modifier ≠ (modulo : ℤ) by omega)]

/-- a buffer holding a word at or above 0x8000 starts there: it is aligned to at most 0x8000 -/
theorem upper_base {R k : ℕ} (hk : k ≤ 15) (hR : 2 ^ 15 ≤ R) : 2 ^ 15 ≤ R / 2 ^ k * 2 ^ k := by
  have hsplit : 2 ^ 15 = 2 ^ (15 - k) * 2 ^ k := by rw [← pow_add, Nat.sub_add_cancel hk]
  rw [hsplit]
  apply Nat.mul_le_mul_right
  rw [Nat.le_div_iff_mul_le (Nat.two_pow_pos k), ← hsplit]
  exact hR

/-- the modulo update of an address register at or above 0x8000: the signed copy of Rn is negative, below the
lower bound of any buffer there, so the modulus is added to every update and Rn leaves its buffer -/
theorem modulo_update_upper_half (regs : DspRegisters) (numreg : ℕ) (modifier : ℤ)
    (hM1 : 1 ≤ regs (dspRegM0 + numreg)) (hM : regs (dspRegM0 + numreg) ≤ 32767)
    (hR1 : 2 ^ 15 ≤ regs (dspRegR0 + numreg)) (hR : regs (dspRegR0 + numreg) < 2 ^ 16)
    (hn : modifier ≤ regs (dspRegM0 + numreg)) :
    emuUpdateRn regs numreg modifier =
      some (setReg regs (dspRegR0 + numreg)
        (lowHalf (regs (dspRegR0 + numreg) + modifier + regs (dspRegM0 + numreg) + 1))) := by
  obtain ⟨k, hk15, -, hk, hmin⟩ := growBuffer_eq (by omega : regs (dspRegM0 + numreg) + 1 ≤ 2 ^ 15)
  rw [emuUpdateRn_modulo modifier hM1 hM hR hk hmin, moduloStep_of_lt (by push_cast; omega)]
  have hbase := upper_base hk15 hR1
  generalize regs (dspRegR0 + numreg) / 2 ^ k * 2 ^ k = base at hbase
  -- the signed sum lies below `0x8000`: never above the upper bound, always below the lower one
  have hsum : toInt16 (toInt16 (regs (dspRegR0 + numreg)) + modifier) < 2 ^ 15 := by
    unfold toInt16
    omega
  rw [if_neg (by omega), if_pos (by omega)]
  apply congrArg some
  apply congrArg (setReg regs (dspRegR0 + numreg))
  unfold lowHalf
  apply congrArg Int.toNat
  unfold toInt16
  omega

/-- R0 = 0x8000 in the buffer 0x8000..0x8003 (M0 = 3) -/
def upperBufferRegs : DspRegisters := fun r => if r = dspRegR0 then 0x8000 else if r = dspRegM0 then 3 else 0

/-- `(R0)+` at the base of the buffer 0x8000..0x8003 -/
theorem modulo_update_r0_0x8000 :
    emuUpdateRn upperBufferRegs 0 1 =
      some (setReg upperBufferRegs (dspRegR0 + 0)
        (lowHalf (upperBufferRegs (dspRegR0 + 0) + 1 + upperBufferRegs (dspRegM0 + 0) + 1))) :=
  modulo_update_upper_half upperBufferRegs 0 1 (by decide) (by decide) (by decide) (by decide) (by decide)

/-- through emu_calc_ea, `(R0)+` (ea_mode 0x18) leaves R0 at 0x8005, past the buffer -/
example : (emuCalcEa 0x18 0 ⟨upperBufferRegs, 0, 1⟩).map (fun r => r.2.2.regs dspRegR0) = some 0x8005 := by
  decide

theorem toInt16_of_bounds {x : ℤ} (h1 : -2 ^ 15 ≤ x) (h2 : x < 2 ^ 15) : toInt16 x = x := by
  unfold toInt16
  omega

/-- the modulo update of an address register in a buffer below 0x8000, by a modifier of at most Mn in size, while
`Rn + n` stays below 0x8000: Rn wraps around its buffer, `base + ((Rn - base + n) mod (Mn + 1))` -/
theorem modulo_update_lower_half (regs : DspRegisters) (numreg : ℕ) (modifier : ℤ) {k : ℕ}
    (hM1 : 1 ≤ regs (dspRegM0 + numreg)) (hM : regs (dspRegM0 + numreg) ≤ 32767)
    (hk : regs (dspRegM0 + numreg) + 1 ≤ 2 ^ k) (hmin : ∀ j < k, 2 ^ j < regs (dspRegM0 + numreg) + 1)
    (hR : regs (dspRegR0 + numreg) < 2 ^ 15) (hin : regs (dspRegR0 + numreg) % 2 ^ k ≤ regs (dspRegM0 + numreg))
    (hn : -(regs (dspRegM0 + numreg) : ℤ) ≤ modifier ∧ modifier ≤ regs (dspRegM0 + numreg))
    (hfit : regs (dspRegR0 + numreg) + modifier < 2 ^ 15) :
    emuUpdateRn regs numreg modifier =
      some (setReg regs (dspRegR0 + numreg) (regs (dspRegR0 + numreg) / 2 ^ k * 2 ^ k +
        ((((regs (dspRegR0 + numreg) % 2 ^ k : ℕ) : ℤ) + modifier) % (regs (dspRegM0 + numreg) + 1 : ℕ)).toNat)) := by
  rw [emuUpdateRn_modulo modifier hM1 hM (by omega) hk hmin]
  -- Rn is its base plus its offset in the buffer
  have hsplit := Nat.div_add_mod' (regs (dspRegR0 + numreg)) (2 ^ k)
  generalize regs (dspRegR0 + numreg) / 2 ^ k * 2 ^ k = base at hsplit ⊢
  generalize regs (dspRegR0 + numreg) % 2 ^ k = offset at hsplit hin ⊢
  rw [moduloStep_of_lt (by push_cast; omega), toInt16_of_bounds (x := regs (dspRegR0 + numreg)) (by omega)
    (by push_cast; omega), toInt16_of_bounds (by omega) (by omega),
    emod_of_wrap_once (by push_cast; omega) (by push_cast; omega)]
  apply congrArg some
  apply congrArg (setReg regs (dspRegR0 + numreg))
  unfold lowHalf toInt16
  -- above the buffer, below it, or within it
  split_ifs <;> omega

theorem stepDown_of_pos {b : ℕ} (hb : 0 < b) (fuel : ℕ) (rReg : ℤ) : stepDown b fuel rReg b = (rReg, (b : ℤ)) := by
  cases fuel with
  | zero => rfl
  | succ fuel =>
    unfold stepDown
    rw [if_neg (by omega)]

/-- the stepping loop on a modifier `j * b`: `j - 1` whole buffers, leaving one -/
theorem stepUp_multiple {b : ℕ} (hb : 0 < b) :
    ∀ fuel j (rReg : ℤ), 1 ≤ j → j ≤ fuel + 1 → -2 ^ 15 ≤ rReg → rReg + ((j - 1) * b : ℕ) < 2 ^ 15 →
      j * b < 2 ^ 15 → stepUp b fuel rReg (j * b : ℕ) = (rReg + ((j - 1) * b : ℕ), (b : ℤ)) := by
  intro fuel
  induction fuel with
  | zero =>
    intro j rReg hj hfuel _ _ _
    obtain rfl : j = 1 := by omega
    simp only [stepUp, Nat.one_mul, Nat.sub_self, Nat.zero_mul, Nat.cast_zero, add_zero]
  | succ fuel ih =>
    intro j rReg hj hfuel hr hfit hjb
    by_cases hone : j = 1
    · subst hone
      unfold stepUp
      rw [if_neg (by push_cast; omega)]
      simp
    · -- one whole buffer stepped over, and `j - 1` left
      have hj2 : 2 ≤ j := by omega
      unfold stepUp
      rw [if_pos (by push_cast; nlinarith)]
      have hb1 : b ≤ (j - 1) * b := Nat.le_mul_of_pos_left b (by omega)
      have hstep : toInt16 (rReg + b) = rReg + b := toInt16_of_bounds (by omega) (by omega)
      have hmod : toInt16 ((j * b : ℕ) - b) = ((j - 1) * b : ℕ) := by
        rw [Nat.sub_mul, Nat.one_mul, Nat.cast_sub (Nat.le_mul_of_pos_left b (by omega))]
        exact toInt16_of_bounds (by push_cast; nlinarith) (by push_cast; omega)
      rw [hstep, hmod, ih (j - 1) (rReg + b) (by omega) (by omega) (by omega) ?_ ?_]
      · congr 1
        rw [show j - 1 - 1 = j - 2 by omega, show j - 1 = j - 2 + 1 by omega, Nat.add_mul, Nat.one_mul]
        push_cast
        ring
      · rw [show j - 1 - 1 = j - 2 by omega]
        rw [show j - 1 = j - 2 + 1 by omega, Nat.add_mul, Nat.one_mul] at hfit
        push_cast at hfit ⊢
        linarith
      · rw [Nat.sub_mul, Nat.one_mul]
        omega

/-- a modifier `j * 2 ^ k` above the modulus, for an address register below 0x8000 while `Rn + n` stays below
0x8000: the loop steps over `j - 1` whole buffers and the last step, which lands in the buffer `j` buffers on, is
corrected by the modulus as if it had left its buffer. Rn ends `Mn + 1` short of `Rn + n`. -/
theorem modulo_multiple_wrap (regs : DspRegisters) (numreg : ℕ) {k j : ℕ}
    (hM1 : 1 ≤ regs (dspRegM0 + numreg)) (hM : regs (dspRegM0 + numreg) ≤ 32767)
    (hk : regs (dspRegM0 + numreg) + 1 ≤ 2 ^ k) (hmin : ∀ i < k, 2 ^ i < regs (dspRegM0 + numreg) + 1)
    (hj : 1 ≤ j)
    (hgt : regs (dspRegM0 + numreg) + 1 < j * 2 ^ k) (hfit : regs (dspRegR0 + numreg) + j * 2 ^ k < 2 ^ 15) :
    emuUpdateRn regs numreg (j * 2 ^ k : ℕ) =
      some (setReg regs (dspRegR0 + numreg) (regs (dspRegR0 + numreg) + j * 2 ^ k - (regs (dspRegM0 + numreg) + 1))) := by
  have hpos := Nat.two_pow_pos k
  have hjk : 2 ^ k ≤ j * 2 ^ k := Nat.le_mul_of_pos_left _ hj
  have hjsplit : (j - 1) * 2 ^ k + 2 ^ k = j * 2 ^ k := by
    rw [← Nat.succ_mul, Nat.succ_eq_add_one, Nat.sub_add_cancel hj]
  have hfuel : j ≤ moduloFuel + 1 := by
    unfold moduloFuel
    nlinarith
  have hloop := stepUp_multiple hpos moduloFuel j (regs (dspRegR0 + numreg) : ℤ) hj hfuel (by omega) (by omega)
    (by omega)
  have hgtZ : ((j * 2 ^ k : ℕ) : ℤ) > ((regs (dspRegM0 + numreg) + 1 : ℕ) : ℤ) := by exact_mod_cast hgt
  rw [emuUpdateRn_modulo _ hM1 hM (by omega) hk hmin,
    toInt16_of_bounds (x := regs (dspRegR0 + numreg)) (by omega) (by omega)]
  unfold moduloStep
  simp only [if_pos hgtZ, hloop, stepDown_of_pos hpos, if_pos (ne_of_gt hgtZ)]
  -- the last step lands past the upper bound of the buffer
  have hsplit := Nat.div_add_mod' (regs (dspRegR0 + numreg)) (2 ^ k)
  generalize regs (dspRegR0 + numreg) / 2 ^ k * 2 ^ k = base at hsplit ⊢
  generalize (j - 1) * 2 ^ k = stepped at hjsplit ⊢
  generalize j * 2 ^ k = n at *
  apply congrArg some
  apply congrArg (setReg regs (dspRegR0 + numreg))
  unfold lowHalf toInt16
  split_ifs <;> omega

/-- at the top of the lower half the `int16_t` sum wraps: R0 = 0x7FFF in 0x7FFC..0x7FFF, plus one, gives 0x8004 -/
example :
    (emuUpdateRn (fun r => if r = dspRegR0 then 0x7fff else if r = dspRegM0 then 3 else 0) 0 1).map
      (· dspRegR0) = some 0x8004 := by
  decide

/-- R0 = 0, M0 = 3 (buffer 0..3) and the modifier 8, two buffers on: R0 becomes 4, not 8 -/
example :
    (emuUpdateRn (fun r => if r = dspRegR0 then 0 else if r = dspRegM0 then 3 else 0) 0 8).map (· dspRegR0) =
      some 4 := by
  decide

/-! ## What emu_calc_ea writes -/

/-- emu_update_rn ends, whatever the mode in Mn, and writes no register but Rn -/
theorem emuUpdateRn_frame (regs : DspRegisters) (numreg : ℕ) (modifier : ℤ) :
    ∃ regs', emuUpdateRn regs numreg modifier = some regs' ∧ ∀ r ≠ dspRegR0 + numreg, regs' r = regs r := by
  have hset : ∀ v, ∀ r ≠ dspRegR0 + numreg, setReg regs (dspRegR0 + numreg) v r = regs r :=
    fun v r hr => setReg_of_ne _ _ hr
  unfold emuUpdateRn
  dsimp only
  split_ifs with hlin hrev hmod
  · exact ⟨_, rfl, hset _⟩
  · exact ⟨_, rfl, hset _⟩
  · -- the modulus is at most 0x8000, so the buffer-size loop ends
    have hmod : (regs (dspRegM0 + numreg) + 1) % 2 ^ 16 ≤ 2 ^ 15 := by omega
    obtain ⟨k, -, hgrow, -⟩ := growBuffer_eq hmod
    unfold emuUpdateRnModulo
    dsimp only
    rw [hgrow]
    exact ⟨_, rfl, hset _⟩
  · exact ⟨regs, rfl, fun _ _ => rfl⟩

/-- emu_calc_ea ends; it writes no register but Rn, and takes one more word exactly in the absolute and immediate
modes -/
theorem emuCalcEa_frame (eaMode pcWord : ℕ) (st : EaState) :
    ∃ ret addr st', emuCalcEa eaMode pcWord st = some (ret, addr, st') ∧
      (∀ r ≠ dspRegR0 + (eaMode &&& bitmask 3), st'.regs r = st.regs r) ∧
      st'.curInstLen = st.curInstLen + if (eaMode >>> 3) &&& bitmask 3 = 6 then 1 else 0 := by
  unfold emuCalcEa
  dsimp only
  -- one case per mode of the source's switch; all but (Rx) and aa go through emu_update_rn
  split
  next h =>
    obtain ⟨regs, hu, hf⟩ := emuUpdateRn_frame st.regs _ _
    rw [hu, h]
    exact ⟨_, _, _, rfl, hf, rfl⟩
  next h =>
    obtain ⟨regs, hu, hf⟩ := emuUpdateRn_frame st.regs _ _
    rw [hu, h]
    exact ⟨_, _, _, rfl, hf, rfl⟩
  next h =>
    obtain ⟨regs, hu, hf⟩ := emuUpdateRn_frame st.regs _ _
    rw [hu, h]
    exact ⟨_, _, _, rfl, hf, rfl⟩
  next h =>
    obtain ⟨regs, hu, hf⟩ := emuUpdateRn_frame st.regs _ _
    rw [hu, h]
    exact ⟨_, _, _, rfl, hf, rfl⟩
  next h =>
    rw [h]
    exact ⟨_, _, _, rfl, fun _ _ => rfl, rfl⟩
  next h =>
    -- (Rx+Nx) puts Rn back after reading the updated value
    obtain ⟨regs, hu, hf⟩ := emuUpdateRn_frame st.regs _ _
    rw [hu, h]
    exact ⟨_, _, _, rfl, fun r hr => (setReg_of_ne _ _ hr).trans (hf r hr), rfl⟩
  next h =>
    rw [h]
    exact ⟨_, _, _, rfl, fun _ _ => rfl, rfl⟩
  next h =>
    obtain ⟨regs, hu, hf⟩ := emuUpdateRn_frame st.regs _ _
    rw [hu, if_neg h]
    exact ⟨_, _, _, rfl, hf, rfl⟩

end Xemu.Dsp
