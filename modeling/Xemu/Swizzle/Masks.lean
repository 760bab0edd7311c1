import Xemu.Swizzle.Basic
/-!
# The swizzle masks

generate_swizzle_masks on power-of-two dimensions `2 ^ a`, `2 ^ b`, `2 ^ c` with `a + b + c < 32`: the loop stops,
the assertion holds, and the three masks split the low `a + b + c` bits, `a` of them to x, `b` to y and `c` to z
(`generateSwizzleMasks_pow`).

The loop invariant after `t` passes (`MaskInv`): `bit = 2 ^ t`, the masks hold `min t a`, `min t b` and `min t c`
bits, they split the bits below `mask_bit`, and `mask_bit` is the power of two above them. A pass gives the next free
bit to each dimension still larger than `bit`, in the order x, y, z; the loop stops after the first pass in which no
dimension is larger, after `max a (max b c) + 1` passes.
-/

namespace Xemu.Pgraph

open BitDeposit

/-! ## One branch -/

/-- one `if (bit < dim)` branch on powers of two: the next free bit `2 ^ n` is given to the accumulator when
`t < a` -/
theorem claimBit_pow {t a acc n : ℕ} (hacc : acc < 2 ^ n) (hn : t < a → n < 31) :
    claimBit (2 ^ t) (2 ^ a) acc (2 ^ n) =
      (if t < a then acc + 2 ^ n else acc, 2 ^ (n + if t < a then 1 else 0), decide (t < a)) := by
  by_cases hta : t < a
  · have hlt : 2 ^ t < 2 ^ a := Nat.pow_lt_pow_right (by decide) hta
    have hor : acc ||| 2 ^ n = acc + 2 ^ n := by
      have h := Nat.two_pow_add_eq_or_of_lt hacc 1
      rw [mul_one] at h
      rw [Nat.or_comm]
      omega
    have hmod : 2 ^ n * 2 % 2 ^ 32 = 2 ^ (n + 1) := by
      rw [← pow_succ]
      exact Nat.mod_eq_of_lt (Nat.pow_lt_pow_right (by decide) (by omega))
    rw [claimBit, if_pos hlt, hor, hmod]
    simp [hta]
  · have hle : ¬2 ^ t < 2 ^ a := not_lt.2 (Nat.pow_le_pow_right (by decide) (by omega))
    simp [claimBit, hle, hta]

/-- the bits a dimension holds after one more pass -/
theorem min_succ_eq (t a : ℕ) : min (t + 1) a = min t a + if t < a then 1 else 0 := by
  split_ifs <;> omega

/-- the count of a mask after one branch -/
theorem bitCount_grant {acc n : ℕ} (p : Prop) [Decidable p] (hacc : acc < 2 ^ n) (hn : n < 32) :
    bitCount 32 (if p then acc + 2 ^ n else acc) = bitCount 32 acc + if p then 1 else 0 := by
  by_cases hp : p
  · simp only [hp, if_true]
    rw [add_comm, bitCount_two_pow_add hacc hn]
  · simp only [hp, if_false, Nat.add_zero]

/-! ## One pass -/

/-- the loop invariant after `t` passes, apart from `bit` -/
structure MaskInv (a b c t : ℕ) (s : MaskLoop) : Prop where
  maskBit : s.maskBit = 2 ^ (min t a + min t b + min t c)
  partition : Partition s.x s.y s.z (min t a + min t b + min t c)
  countX : bitCount 32 s.x = min t a
  countY : bitCount 32 s.y = min t b
  countZ : bitCount 32 s.z = min t c

theorem maskInv_start (a b c : ℕ) : MaskInv a b c 0 ⟨0, 0, 0, 1, 1⟩ := by
  refine ⟨?_, ?_, ?_, ?_, ?_⟩ <;> simp [Partition.zero]

section Pass

variable {a b c t : ℕ} {s : MaskLoop}

/-- the bits the three branches of a pass give out, each starting where the one before stopped -/
theorem partition_pass {x y z n : ℕ} (h : Partition x y z n) (px py pz : Prop) [Decidable px] [Decidable py]
    [Decidable pz] :
    Partition (if px then x + 2 ^ n else x)
      (if py then y + 2 ^ (n + if px then 1 else 0) else y)
      (if pz then z + 2 ^ (n + (if px then 1 else 0) + if py then 1 else 0) else z)
      (n + (if px then 1 else 0) + (if py then 1 else 0) + if pz then 1 else 0) := by
  have h1 : Partition (if px then x + 2 ^ n else x) y z (n + if px then 1 else 0) := by
    by_cases hpx : px
    · simpa only [hpx, if_true] using h.claim
    · simpa only [hpx, if_false, Nat.add_zero] using h
  have h2 : Partition (if px then x + 2 ^ n else x) (if py then y + 2 ^ (n + if px then 1 else 0) else y) z
      (n + (if px then 1 else 0) + if py then 1 else 0) := by
    by_cases hpy : py
    · simpa only [hpy, if_true] using h1.claim_mid
    · simpa only [hpy, if_false, Nat.add_zero] using h1
  by_cases hpz : pz
  · simpa only [hpz, if_true] using h2.claim_last
  · simpa only [hpz, if_false, Nat.add_zero] using h2

/-- one pass from the invariant at `t`: the invariant at `t + 1`, and `done` exactly when no dimension exceeds
`bit` -/
theorem maskIteration_pow (habc : a + b + c < 32) (hs : MaskInv a b c t s) (hbit : s.bit = 2 ^ t) :
    MaskInv a b c (t + 1) (maskIteration (2 ^ a) (2 ^ b) (2 ^ c) s).1 ∧
      (maskIteration (2 ^ a) (2 ^ b) (2 ^ c) s).1.bit = 2 ^ t * 2 % 2 ^ 32 ∧
      ((maskIteration (2 ^ a) (2 ^ b) (2 ^ c) s).2 = true ↔ a ≤ t ∧ b ≤ t ∧ c ≤ t) := by
  set n := min t a + min t b + min t c with hn
  have hP := partition_pass hs.partition (t < a) (t < b) (t < c)
  -- each accumulator is below the bit its branch may give out
  have hx : s.x < 2 ^ n := hs.partition.lt_left
  have hy : s.y < 2 ^ (n + if t < a then 1 else 0) := by
    have h1 : Partition (if t < a then s.x + 2 ^ n else s.x) s.y s.z (n + if t < a then 1 else 0) := by
      split_ifs
      · exact hs.partition.claim
      · exact hs.partition
    exact h1.swap12.lt_left
  have hz : s.z < 2 ^ (n + (if t < a then 1 else 0) + if t < b then 1 else 0) := by
    have hc : s.x + s.y + s.z + 1 = 2 ^ n := hs.partition.cover
    have h2 : 2 ^ n ≤ 2 ^ (n + (if t < a then 1 else 0) + if t < b then 1 else 0) :=
      Nat.pow_le_pow_right (by decide) (by omega)
    omega
  have hcx := claimBit_pow (t := t) (a := a) hx (by omega)
  have hcy := claimBit_pow (t := t) (a := b) hy (fun htb => by
    by_cases hta : t < a <;> simp only [hta, if_true, if_false] <;> omega)
  have hcz := claimBit_pow (t := t) (a := c) hz (fun htc => by
    by_cases hta : t < a <;> by_cases htb : t < b <;> simp only [hta, htb, if_true, if_false] <;> omega)
  -- the pass, computed: each branch gives out the next free bit when its dimension exceeds `bit`
  have hiter : maskIteration (2 ^ a) (2 ^ b) (2 ^ c) s =
      (⟨if t < a then s.x + 2 ^ n else s.x, if t < b then s.y + 2 ^ (n + if t < a then 1 else 0) else s.y,
        if t < c then s.z + 2 ^ (n + (if t < a then 1 else 0) + if t < b then 1 else 0) else s.z,
        2 ^ t * 2 % 2 ^ 32, 2 ^ (n + (if t < a then 1 else 0) + (if t < b then 1 else 0) + if t < c then 1 else 0)⟩,
        !(decide (t < a) || decide (t < b) || decide (t < c))) := by
    simp only [maskIteration, hbit, hs.maskBit, ← hn, hcx, hcy, hcz]
  have hcount : n + (if t < a then 1 else 0) + (if t < b then 1 else 0) + (if t < c then 1 else 0) =
      min (t + 1) a + min (t + 1) b + min (t + 1) c := by
    rw [min_succ_eq, min_succ_eq, min_succ_eq]
    omega
  rw [hiter]
  refine ⟨⟨?_, ?_, ?_, ?_, ?_⟩, rfl, ?_⟩ <;> dsimp only
  · rw [hcount]
  · rw [← hcount]
    exact hP
  · rw [bitCount_grant _ hx (by omega), hs.countX, min_succ_eq]
  · rw [bitCount_grant _ hy (by omega), hs.countY, min_succ_eq]
  · rw [bitCount_grant _ hz (by omega), hs.countZ, min_succ_eq]
  · simp only [Bool.not_eq_true', Bool.or_eq_false_iff, decide_eq_false_iff_not, not_lt, and_assoc]

end Pass

/-! ## The whole loop -/

/-- the masks at the end of the loop -/
structure MaskDone (a b c : ℕ) (s : MaskLoop) : Prop where
  maskBit : s.maskBit = 2 ^ (a + b + c)
  partition : Partition s.x s.y s.z (a + b + c)
  countX : bitCount 32 s.x = a
  countY : bitCount 32 s.y = b
  countZ : bitCount 32 s.z = c

theorem MaskInv.done {a b c t : ℕ} {s : MaskLoop} (h : MaskInv a b c t s) (ha : a ≤ t) (hb : b ≤ t) (hc : c ≤ t) :
    MaskDone a b c s := by
  have ea : min t a = a := min_eq_right ha
  have eb : min t b = b := min_eq_right hb
  have ec : min t c = c := min_eq_right hc
  have hp := h.partition
  rw [ea, eb, ec] at hp
  exact ⟨by rw [h.maskBit, ea, eb, ec], hp, h.countX.trans ea, h.countY.trans eb, h.countZ.trans ec⟩

/-- the run lemma: from the invariant at `t`, `d` passes short of the last one, the loop stops with the final masks
given more than `d` passes of fuel -/
theorem maskLoop_pow {a b c : ℕ} (habc : a + b + c < 32) (d : ℕ) :
    ∀ {t fuel : ℕ} {s : MaskLoop}, t + d = max a (max b c) → d < fuel → MaskInv a b c t s → s.bit = 2 ^ t →
      ∃ s', maskLoop (2 ^ a) (2 ^ b) (2 ^ c) fuel s = some s' ∧ MaskDone a b c s' := by
  induction d with
  | zero =>
    intro t fuel s ht hfuel hs hbit
    obtain ⟨fuel, rfl⟩ : ∃ f, fuel = f + 1 := ⟨fuel - 1, by omega⟩
    obtain ⟨hinv, -, hdone⟩ := maskIteration_pow habc hs hbit
    have hstop : (maskIteration (2 ^ a) (2 ^ b) (2 ^ c) s).2 = true := hdone.2 (by omega)
    exact ⟨_, by simp only [maskLoop, hstop, if_true], hinv.done (by omega) (by omega) (by omega)⟩
  | succ d ih =>
    intro t fuel s ht hfuel hs hbit
    obtain ⟨fuel, rfl⟩ : ∃ f, fuel = f + 1 := ⟨fuel - 1, by omega⟩
    obtain ⟨hinv, hbit', hdone⟩ := maskIteration_pow habc hs hbit
    -- some dimension is still larger than `bit`, so the pass is not the last
    have hgo : (maskIteration (2 ^ a) (2 ^ b) (2 ^ c) s).2 = false := by
      rw [← Bool.not_eq_true, hdone]
      omega
    have hbit'' : (maskIteration (2 ^ a) (2 ^ b) (2 ^ c) s).1.bit = 2 ^ (t + 1) := by
      rw [hbit', ← pow_succ]
      exact Nat.mod_eq_of_lt (Nat.pow_lt_pow_right (by decide) (by omega))
    simp only [maskLoop, hgo]
    exact ih (by omega) (by omega) hinv hbit''

/-- masks of a `2 ^ a` by `2 ^ b` by `2 ^ c` box: they split the low `a + b + c` bits, `a` of them to x, `b` to y and
`c` to z -/
structure MaskSpec (a b c maskX maskY maskZ : ℕ) : Prop where
  partition : Partition maskX maskY maskZ (a + b + c)
  countX : bitCount 32 maskX = a
  countY : bitCount 32 maskY = b
  countZ : bitCount 32 maskZ = c

/-- generate_swizzle_masks on powers of two returns masks of the box -/
theorem generateSwizzleMasks_pow {a b c : ℕ} (habc : a + b + c < 32) :
    ∃ maskX maskY maskZ, generateSwizzleMasks (2 ^ a) (2 ^ b) (2 ^ c) = some (maskX, maskY, maskZ) ∧
      MaskSpec a b c maskX maskY maskZ := by
  obtain ⟨s, hloop, hs⟩ :=
    @maskLoop_pow a b c habc (max a (max b c)) 0 33 _ (by omega) (by omega) (maskInv_start a b c) rfl
  refine ⟨s.x, s.y, s.z, ?_, hs.partition, hs.countX, hs.countY, hs.countZ⟩
  -- the assertion: the masks together are `mask_bit - 1`
  have hpos : 0 < 2 ^ (a + b + c) := Nat.two_pow_pos _
  have hlt : 2 ^ (a + b + c) < 2 ^ 32 := Nat.pow_lt_pow_right (by decide) habc
  have hassert : s.x ^^^ s.y ^^^ s.z = (s.maskBit + 2 ^ 32 - 1) % 2 ^ 32 := by
    rw [hs.partition.lxor, hs.maskBit]
    omega
  simp only [generateSwizzleMasks, hloop, hassert, if_true]

end Xemu.Pgraph
