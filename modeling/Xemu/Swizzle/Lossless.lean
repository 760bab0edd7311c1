import Mathlib
import Xemu.Swizzle.Masks
/-!
# Swizzling is a change of layout

The loop nests of swizzle_box_internal and unswizzle_box_internal are one sequence of pixel copies each, in the order
z, y, x (`boxInternal_eq`). On a `2 ^ a` by `2 ^ b` by `2 ^ c` box the pixel `(x, y, z)` has the swizzled offset
`deposit x + deposit y + deposit z` in the masks of generate_swizzle_masks, and this is a bijection from the box onto
`[0, 2 ^ (a + b + c))` (`swizzleOffset_bijOn`).

Both functions compute byte offsets with 32-bit products. While the swizzled image fits in `2 ^ 32` bytes, the byte
offset of a pixel is its pixel offset times `bytes_per_pixel`, the copies of one call do not overlap, and
`unswizzle_box` after `swizzle_box` gives back every pixel (`swizzle_box_roundtrip`). Past that size the products
wrap and distinct pixels share swizzled bytes: with one 8-byte pixel per slice and `2 ^ 30` slices, slices `0` and
`2 ^ 29` are both written at swizzled offset `0` and the round trip loses slice `0` (`swizzle_box_wraps`).
-/

namespace Xemu.Pgraph

open BitDeposit ByteCopy

/-! ## The loop nest as a list of copies -/

/-- the pixels of a box in the order of the loop nest: z outermost, x innermost -/
def boxPixels (width height depth : ℕ) : List (ℕ × ℕ × ℕ) :=
  (List.range depth).flatMap fun z => (List.range height).flatMap fun y => (List.range width).map fun x => (x, y, z)

/-- the linear byte offset of pixel `(x, y, z)` as the loop nest computes it, with 32-bit products -/
def linearAddr (rowPitch slicePitch bytesPerPixel : ℕ) (p : ℕ × ℕ × ℕ) : ℕ :=
  p.2.2 * slicePitch + p.2.1 * rowPitch % 2 ^ 32 + p.1 * bytesPerPixel % 2 ^ 32

/-- the swizzled byte offset of pixel `(x, y, z)` as the loop nest computes it, with 32-bit products -/
def swizzledAddr (maskX maskY maskZ bytesPerPixel : ℕ) (p : ℕ × ℕ × ℕ) : ℕ :=
  (deposit 32 maskY p.2.1 + deposit 32 maskZ p.2.2) * bytesPerPixel % 2 ^ 32 +
    deposit 32 maskX p.1 * bytesPerPixel % 2 ^ 32

/-- the copies of the loop nest, one for each pixel -/
def boxCopies (dir : Direction) (width height depth rowPitch slicePitch maskX maskY maskZ bytesPerPixel : ℕ) :
    List (ℕ × ℕ) :=
  (boxPixels width height depth).map fun p =>
    dir.route (linearAddr rowPitch slicePitch bytesPerPixel p) (swizzledAddr maskX maskY maskZ bytesPerPixel p)

section Loops

variable (dir : Direction) (src : ℕ → UInt8) {maskX maskY maskZ : ℕ}

/-- the x loop from column `x`, where `off_x` is the `x`-th number in the mask -/
theorem rowLoop_eq (linRow swzRow bytesPerPixel : ℕ) (hmx : maskX < 2 ^ 32) (n : ℕ) :
    ∀ x (dst : ℕ → UInt8), rowLoop dir src linRow swzRow maskX bytesPerPixel n x (deposit 32 maskX x) dst =
      copyAll bytesPerPixel src dst ((List.range' x n).map fun x =>
        dir.route (linRow + x * bytesPerPixel % 2 ^ 32) (swzRow + deposit 32 maskX x * bytesPerPixel % 2 ^ 32)) := by
  induction n with
  | zero => intro x dst; rfl
  | succ n ih =>
    intro x dst
    rw [rowLoop, deposit_next hmx, ih, List.range'_succ, List.map_cons, copyAll_cons]
    rfl

theorem rowLoop_start (linRow swzRow bytesPerPixel width : ℕ) (hmx : maskX < 2 ^ 32) (dst : ℕ → UInt8) :
    rowLoop dir src linRow swzRow maskX bytesPerPixel width 0 0 dst =
      copyAll bytesPerPixel src dst ((List.range width).map fun x =>
        dir.route (linRow + x * bytesPerPixel % 2 ^ 32) (swzRow + deposit 32 maskX x * bytesPerPixel % 2 ^ 32)) := by
  have h := rowLoop_eq dir src linRow swzRow bytesPerPixel hmx width 0 dst
  rwa [deposit_zero_index, ← List.range_eq_range'] at h

/-- the y loop from row `y`, where `off_y` is the `y`-th number in the mask -/
theorem sliceLoop_eq (width rowPitch linSlice offZ bytesPerPixel : ℕ) (hmx : maskX < 2 ^ 32)
    (hmy : maskY < 2 ^ 32) (n : ℕ) :
    ∀ y (dst : ℕ → UInt8),
      sliceLoop dir src width rowPitch linSlice offZ maskX maskY bytesPerPixel n y (deposit 32 maskY y) dst =
        copyAll bytesPerPixel src dst ((List.range' y n).flatMap fun y => (List.range width).map fun x =>
          dir.route (linSlice + y * rowPitch % 2 ^ 32 + x * bytesPerPixel % 2 ^ 32)
            ((deposit 32 maskY y + offZ) * bytesPerPixel % 2 ^ 32 + deposit 32 maskX x * bytesPerPixel % 2 ^ 32)) := by
  induction n with
  | zero => intro y dst; rfl
  | succ n ih =>
    intro y dst
    rw [sliceLoop, deposit_next hmy, ih, rowLoop_start dir src _ _ _ _ hmx, List.range'_succ, List.flatMap_cons,
      copyAll_append]

/-- the z loop from slice `z`, at the linear offset `z * slice_pitch` and where `off_z` is the `z`-th number in the
mask -/
theorem boxLoop_eq (width height rowPitch slicePitch bytesPerPixel : ℕ) (hmx : maskX < 2 ^ 32)
    (hmy : maskY < 2 ^ 32) (hmz : maskZ < 2 ^ 32) (n : ℕ) :
    ∀ z (dst : ℕ → UInt8), boxLoop dir src width height rowPitch slicePitch maskX maskY maskZ bytesPerPixel n
        (z * slicePitch) (deposit 32 maskZ z) dst =
      copyAll bytesPerPixel src dst ((List.range' z n).flatMap fun z => (List.range height).flatMap fun y =>
        (List.range width).map fun x =>
          dir.route (z * slicePitch + y * rowPitch % 2 ^ 32 + x * bytesPerPixel % 2 ^ 32)
            ((deposit 32 maskY y + deposit 32 maskZ z) * bytesPerPixel % 2 ^ 32 +
              deposit 32 maskX x * bytesPerPixel % 2 ^ 32)) := by
  induction n with
  | zero => intro z dst; rfl
  | succ n ih =>
    intro z dst
    have hslice := sliceLoop_eq dir src width rowPitch (z * slicePitch) (deposit 32 maskZ z) bytesPerPixel hmx hmy
      height 0 dst
    rw [deposit_zero_index, ← List.range_eq_range'] at hslice
    rw [boxLoop, deposit_next hmz, ← Nat.succ_mul, ih, hslice, List.range'_succ, List.flatMap_cons, copyAll_append]

/-- the loop nest after generate_swizzle_masks: the copies of `boxCopies`, in order -/
theorem boxInternal_eq (srcBuf : ℕ → UInt8) (width height depth : ℕ) (dstBuf : ℕ → UInt8)
    (rowPitch slicePitch bytesPerPixel : ℕ)
    (hm : generateSwizzleMasks width height depth = some (maskX, maskY, maskZ)) (hmx : maskX < 2 ^ 32)
    (hmy : maskY < 2 ^ 32) (hmz : maskZ < 2 ^ 32) :
    boxInternal dir srcBuf width height depth dstBuf rowPitch slicePitch bytesPerPixel =
      some (copyAll bytesPerPixel srcBuf dstBuf
        (boxCopies dir width height depth rowPitch slicePitch maskX maskY maskZ bytesPerPixel)) := by
  have hbox := boxLoop_eq dir srcBuf width height rowPitch slicePitch bytesPerPixel hmx hmy hmz depth 0 dstBuf
  rw [Nat.zero_mul, deposit_zero_index, ← List.range_eq_range'] at hbox
  rw [boxInternal, hm, Option.map_some, hbox]
  simp only [boxCopies, boxPixels, List.map_flatMap, List.map_map, Function.comp_def, linearAddr, swizzledAddr]

end Loops

/-! ## The order of the loop nest -/

/-- the order in which the loop nest visits pixels: by z, then y, then x -/
def LoopBefore (p q : ℕ × ℕ × ℕ) : Prop :=
  p.2.2 < q.2.2 ∨ p.2.2 = q.2.2 ∧ (p.2.1 < q.2.1 ∨ p.2.1 = q.2.1 ∧ p.1 < q.1)

@[simp]
theorem mem_boxPixels {width height depth : ℕ} {p : ℕ × ℕ × ℕ} :
    p ∈ boxPixels width height depth ↔ p.1 < width ∧ p.2.1 < height ∧ p.2.2 < depth := by
  obtain ⟨x, y, z⟩ := p
  simp only [boxPixels, List.mem_flatMap, List.mem_map, List.mem_range, Prod.mk.injEq]
  constructor
  · rintro ⟨z', hz, y', hy, x', hx, rfl, rfl, rfl⟩
    exact ⟨hx, hy, hz⟩
  · rintro ⟨hx, hy, hz⟩
    exact ⟨z, hz, y, hy, x, hx, rfl, rfl, rfl⟩

/-- the loop nest visits the pixels of a box in increasing order -/
theorem boxPixels_pairwise (width height depth : ℕ) : (boxPixels width height depth).Pairwise LoopBefore := by
  unfold boxPixels
  rw [List.pairwise_flatMap]
  refine ⟨fun z _ => ?_, List.pairwise_lt_range.imp fun hz p hp q hq => ?_⟩
  · rw [List.pairwise_flatMap]
    refine ⟨fun y _ => ?_, List.pairwise_lt_range.imp fun hy p hp q hq => ?_⟩
    · rw [List.pairwise_map]
      exact List.pairwise_lt_range.imp fun hx => Or.inr ⟨rfl, Or.inr ⟨rfl, hx⟩⟩
    · simp only [List.mem_map, List.mem_range] at hp hq
      obtain ⟨x, -, rfl⟩ := hp
      obtain ⟨x', -, rfl⟩ := hq
      exact Or.inr ⟨rfl, Or.inl hy⟩
  · simp only [List.mem_flatMap, List.mem_map, List.mem_range] at hp hq
    obtain ⟨y, -, x, -, rfl⟩ := hp
    obtain ⟨y', -, x', -, rfl⟩ := hq
    exact Or.inl hz

theorem LoopBefore.ne {p q : ℕ × ℕ × ℕ} (h : LoopBefore p q) : p ≠ q := by
  rintro rfl
  rcases h with h | ⟨-, h | ⟨-, h⟩⟩ <;> omega

/-! ## Linear offsets -/

/-- the byte offset of pixel `(x, y, z)` in the linear image -/
def linearOffset (rowPitch slicePitch bytesPerPixel : ℕ) (p : ℕ × ℕ × ℕ) : ℕ :=
  p.2.2 * slicePitch + p.2.1 * rowPitch + p.1 * bytesPerPixel

section Linear

variable {width height depth rowPitch slicePitch bytesPerPixel : ℕ}

/-- a row holds its pixels, and a slice its rows -/
theorem pitch_bounds (hrow : width * bytesPerPixel ≤ rowPitch) (hslice : rowPitch * height ≤ slicePitch)
    {p : ℕ × ℕ × ℕ} (hp : p ∈ boxPixels width height depth) :
    p.1 * bytesPerPixel + bytesPerPixel ≤ rowPitch ∧ p.2.1 * rowPitch + rowPitch ≤ slicePitch := by
  rw [mem_boxPixels] at hp
  have hx := Nat.mul_le_mul_right bytesPerPixel (show p.1 + 1 ≤ width by omega)
  have hy := Nat.mul_le_mul_right rowPitch (show p.2.1 + 1 ≤ height by omega)
  rw [Nat.add_mul, one_mul] at hx hy
  constructor
  · omega
  · rw [Nat.mul_comm height] at hy
    omega

/-- the pixels of a linear image lie one after the other in the order of the loop nest -/
theorem linearOffset_before (hrow : width * bytesPerPixel ≤ rowPitch) (hslice : rowPitch * height ≤ slicePitch)
    {p q : ℕ × ℕ × ℕ} (hp : p ∈ boxPixels width height depth) (hq : q ∈ boxPixels width height depth)
    (hpq : LoopBefore p q) :
    linearOffset rowPitch slicePitch bytesPerPixel p + bytesPerPixel ≤ linearOffset rowPitch slicePitch bytesPerPixel q := by
  obtain ⟨hx, hy⟩ := pitch_bounds hrow hslice hp
  obtain ⟨x, y, z⟩ := p
  obtain ⟨x', y', z'⟩ := q
  simp only [linearOffset, LoopBefore] at hx hy hpq ⊢
  rcases hpq with hz | ⟨rfl, hy' | ⟨rfl, hx'⟩⟩
  · -- a later slice starts after the whole of this one
    have h := Nat.mul_le_mul_right slicePitch (show z + 1 ≤ z' by exact hz)
    rw [Nat.add_mul, one_mul] at h
    omega
  · have h := Nat.mul_le_mul_right rowPitch (show y + 1 ≤ y' by exact hy')
    rw [Nat.add_mul, one_mul] at h
    omega
  · have h := Nat.mul_le_mul_right bytesPerPixel (show x + 1 ≤ x' by exact hx')
    rw [Nat.add_mul, one_mul] at h
    omega

/-- in a box whose slices fit the 32-bit `slice_pitch`, the 32-bit products of the loop nest do not wrap -/
theorem linearAddr_eq (hrow : width * bytesPerPixel ≤ rowPitch) (hslice : rowPitch * height ≤ slicePitch)
    (hpitch : slicePitch < 2 ^ 32) {p : ℕ × ℕ × ℕ} (hp : p ∈ boxPixels width height depth) :
    linearAddr rowPitch slicePitch bytesPerPixel p = linearOffset rowPitch slicePitch bytesPerPixel p := by
  obtain ⟨hx, hy⟩ := pitch_bounds hrow hslice hp
  rw [linearAddr, linearOffset, Nat.mod_eq_of_lt (show p.2.1 * rowPitch < 2 ^ 32 by omega),
    Nat.mod_eq_of_lt (show p.1 * bytesPerPixel < 2 ^ 32 by omega)]

end Linear

/-! ## Swizzled offsets -/

/-- the swizzled offset of pixel `(x, y, z)`, in pixels: its coordinates deposited into their masks -/
def swizzleOffset (maskX maskY maskZ : ℕ) (p : ℕ × ℕ × ℕ) : ℕ :=
  deposit 32 maskX p.1 + deposit 32 maskY p.2.1 + deposit 32 maskZ p.2.2

section Swizzled

variable {a b c maskX maskY maskZ : ℕ}

theorem swizzleOffset_lt (hm : MaskSpec a b c maskX maskY maskZ) (p : ℕ × ℕ × ℕ) :
    swizzleOffset maskX maskY maskZ p < 2 ^ (a + b + c) :=
  hm.partition.sum_lt (deposit_le _ _ _) (deposit_le _ _ _) (deposit_le _ _ _)

/-- a pixel of the box is determined by its swizzled offset: each coordinate is read back from its mask -/
theorem swizzleOffset_injective (hm : MaskSpec a b c maskX maskY maskZ) {p q : ℕ × ℕ × ℕ}
    (hp : p ∈ boxPixels (2 ^ a) (2 ^ b) (2 ^ c)) (hq : q ∈ boxPixels (2 ^ a) (2 ^ b) (2 ^ c))
    (h : swizzleOffset maskX maskY maskZ p = swizzleOffset maskX maskY maskZ q) : p = q := by
  rw [mem_boxPixels] at hp hq
  have hP := hm.partition
  have dx := deposit_land 32 maskX
  have dy := deposit_land 32 maskY
  have dz := deposit_land 32 maskZ
  unfold swizzleOffset at h
  have ex : deposit 32 maskX p.1 = deposit 32 maskX q.1 := by
    rw [← hP.land_sum_left (dx p.1) (dy p.2.1) (dz p.2.2), h, hP.land_sum_left (dx _) (dy _) (dz _)]
  have ey : deposit 32 maskY p.2.1 = deposit 32 maskY q.2.1 := by
    rw [← hP.land_sum_mid (dx p.1) (dy p.2.1) (dz p.2.2), h, hP.land_sum_mid (dx _) (dy _) (dz _)]
  have ez : deposit 32 maskZ p.2.2 = deposit 32 maskZ q.2.2 := by
    rw [← hP.land_sum_right (dx p.1) (dy p.2.1) (dz p.2.2), h, hP.land_sum_right (dx _) (dy _) (dz _)]
  rw [← hm.countX] at hp hq
  rw [← hm.countY] at hp hq
  rw [← hm.countZ] at hp hq
  obtain ⟨x, y, z⟩ := p
  obtain ⟨x', y', z'⟩ := q
  simp only at ex ey ez hp hq
  rw [deposit_injective hp.1 hq.1 ex, deposit_injective hp.2.1 hq.2.1 ey, deposit_injective hp.2.2 hq.2.2 ez]

/-- the pixels of a box, as a finite set -/
def boxFinset (width height depth : ℕ) : Finset (ℕ × ℕ × ℕ) :=
  Finset.range width ×ˢ Finset.range height ×ˢ Finset.range depth

theorem mem_boxFinset {width height depth : ℕ} {p : ℕ × ℕ × ℕ} :
    p ∈ boxFinset width height depth ↔ p ∈ boxPixels width height depth := by
  simp [boxFinset, Finset.mem_product]

/-- the swizzled offset is a bijection from the box onto the first `2 ^ a * 2 ^ b * 2 ^ c` pixels -/
theorem swizzleOffset_bijOn (hm : MaskSpec a b c maskX maskY maskZ) :
    Set.BijOn (swizzleOffset maskX maskY maskZ) {p | p ∈ boxPixels (2 ^ a) (2 ^ b) (2 ^ c)}
      (Set.Iio (2 ^ a * 2 ^ b * 2 ^ c)) := by
  have hsize : 2 ^ a * 2 ^ b * 2 ^ c = 2 ^ (a + b + c) := by rw [pow_add, pow_add]
  refine ⟨fun p _ => ?_, fun p hp q hq h => swizzleOffset_injective hm hp hq h, fun o ho => ?_⟩
  · rw [Set.mem_Iio, hsize]
    exact swizzleOffset_lt hm p
  · -- onto: an injection from the box into as many offsets as it has pixels
    have hcard : (Finset.range (2 ^ a * 2 ^ b * 2 ^ c)).card ≤ (boxFinset (2 ^ a) (2 ^ b) (2 ^ c)).card := by
      simp [boxFinset, Finset.card_product, Nat.mul_assoc]
    obtain ⟨p, hp, rfl⟩ := Finset.surj_on_of_inj_on_of_card_le (fun p _ => swizzleOffset maskX maskY maskZ p)
      (fun p _ => by rw [Finset.mem_range, hsize]; exact swizzleOffset_lt hm p)
      (fun p q hp hq h => swizzleOffset_injective hm (mem_boxFinset.1 hp) (mem_boxFinset.1 hq) h) hcard o
      (Finset.mem_range.2 ho)
    exact ⟨p, mem_boxFinset.1 hp, rfl⟩

/-- while the swizzled image fits in `2 ^ 32` bytes, the 32-bit products of the loop nest do not wrap -/
theorem swizzledAddr_eq (hm : MaskSpec a b c maskX maskY maskZ) {bytesPerPixel : ℕ}
    (hfit : 2 ^ (a + b + c) * bytesPerPixel ≤ 2 ^ 32) (p : ℕ × ℕ × ℕ) :
    swizzledAddr maskX maskY maskZ bytesPerPixel p = swizzleOffset maskX maskY maskZ p * bytesPerPixel := by
  have hlt := swizzleOffset_lt hm p
  unfold swizzleOffset at hlt
  rcases Nat.eq_zero_or_pos bytesPerPixel with h0 | hpos
  · simp [swizzledAddr, swizzleOffset, h0]
  · have hyz := Nat.mul_lt_mul_of_pos_right (show deposit 32 maskY p.2.1 + deposit 32 maskZ p.2.2 < 2 ^ (a + b + c)
      by omega) hpos
    have hx := Nat.mul_lt_mul_of_pos_right (show deposit 32 maskX p.1 < 2 ^ (a + b + c) by omega) hpos
    rw [swizzledAddr, swizzleOffset, Nat.mod_eq_of_lt (by omega), Nat.mod_eq_of_lt (by omega)]
    simp only [Nat.add_mul]
    omega

end Swizzled

/-! ## The round trip -/

section RoundTrip

variable {a b c maskX maskY maskZ rowPitch slicePitch bytesPerPixel : ℕ}

/-- the copies of swizzle_box write disjoint bytes of the swizzled image -/
theorem swizzleCopies_apart (hm : MaskSpec a b c maskX maskY maskZ)
    (hfit : 2 ^ (a + b + c) * bytesPerPixel ≤ 2 ^ 32) :
    (boxCopies .swizzle (2 ^ a) (2 ^ b) (2 ^ c) rowPitch slicePitch maskX maskY maskZ bytesPerPixel).Pairwise
      (Apart bytesPerPixel) := by
  unfold boxCopies
  rw [List.pairwise_map]
  refine (boxPixels_pairwise _ _ _).imp_of_mem fun {p q} hp hq hpq => ?_
  simp only [Direction.route, swizzledAddr_eq hm hfit, Apart]
  -- distinct pixels have distinct swizzled offsets, a whole pixel apart
  have hne : swizzleOffset maskX maskY maskZ p ≠ swizzleOffset maskX maskY maskZ q :=
    fun h => hpq.ne (swizzleOffset_injective hm hp hq h)
  rcases Nat.lt_or_gt_of_ne hne with h | h
  · have h' := Nat.mul_le_mul_right bytesPerPixel (Nat.succ_le_of_lt h)
    rw [Nat.succ_mul] at h'
    exact Or.inl h'
  · have h' := Nat.mul_le_mul_right bytesPerPixel (Nat.succ_le_of_lt h)
    rw [Nat.succ_mul] at h'
    exact Or.inr h'

/-- the copies of unswizzle_box write disjoint bytes of the linear image -/
theorem unswizzleCopies_apart {width height depth : ℕ} (hrow : width * bytesPerPixel ≤ rowPitch)
    (hslice : rowPitch * height ≤ slicePitch) (hpitch : slicePitch < 2 ^ 32) :
    (boxCopies .unswizzle width height depth rowPitch slicePitch maskX maskY maskZ bytesPerPixel).Pairwise
      (Apart bytesPerPixel) := by
  unfold boxCopies
  rw [List.pairwise_map]
  refine (boxPixels_pairwise _ _ _).imp_of_mem fun {p q} hp hq hpq => ?_
  simp only [Direction.route, linearAddr_eq hrow hslice hpitch hp, linearAddr_eq hrow hslice hpitch hq]
  exact Or.inl (linearOffset_before hrow hslice hp hq hpq)

theorem swizzleCopies_mem (hm : MaskSpec a b c maskX maskY maskZ) (hfit : 2 ^ (a + b + c) * bytesPerPixel ≤ 2 ^ 32)
    (hrow : 2 ^ a * bytesPerPixel ≤ rowPitch) (hslice : rowPitch * 2 ^ b ≤ slicePitch) (hpitch : slicePitch < 2 ^ 32)
    {p : ℕ × ℕ × ℕ} (hp : p ∈ boxPixels (2 ^ a) (2 ^ b) (2 ^ c)) :
    (swizzleOffset maskX maskY maskZ p * bytesPerPixel, linearOffset rowPitch slicePitch bytesPerPixel p) ∈
      boxCopies .swizzle (2 ^ a) (2 ^ b) (2 ^ c) rowPitch slicePitch maskX maskY maskZ bytesPerPixel :=
  List.mem_map.2 ⟨p, hp, by rw [Direction.route, swizzledAddr_eq hm hfit, linearAddr_eq hrow hslice hpitch hp]⟩

theorem unswizzleCopies_mem (hm : MaskSpec a b c maskX maskY maskZ)
    (hfit : 2 ^ (a + b + c) * bytesPerPixel ≤ 2 ^ 32) (hrow : 2 ^ a * bytesPerPixel ≤ rowPitch)
    (hslice : rowPitch * 2 ^ b ≤ slicePitch) (hpitch : slicePitch < 2 ^ 32) {p : ℕ × ℕ × ℕ}
    (hp : p ∈ boxPixels (2 ^ a) (2 ^ b) (2 ^ c)) :
    (linearOffset rowPitch slicePitch bytesPerPixel p, swizzleOffset maskX maskY maskZ p * bytesPerPixel) ∈
      boxCopies .unswizzle (2 ^ a) (2 ^ b) (2 ^ c) rowPitch slicePitch maskX maskY maskZ bytesPerPixel :=
  List.mem_map.2 ⟨p, hp, by rw [Direction.route, swizzledAddr_eq hm hfit, linearAddr_eq hrow hslice hpitch hp]⟩

end RoundTrip

/-- swizzling a power-of-two box whose swizzled image fits in `2 ^ 32` bytes, then unswizzling it, gives back every
pixel. The masks of generate_swizzle_masks make the swizzled offset a bijection from the box onto the first
`2 ^ a * 2 ^ b * 2 ^ c` pixels; swizzle_box writes each pixel at its swizzled offset, unswizzle_box reads it from the
same offset, and swizzle_box writes nothing past the swizzled image. -/
theorem swizzle_box_roundtrip {a b c : ℕ} (bytesPerPixel rowPitch slicePitch : ℕ)
    (src swizzledInit linearInit : ℕ → UInt8) (hbox : 2 ^ a * 2 ^ b * 2 ^ c < 2 ^ 31)
    (hrow : 2 ^ a * bytesPerPixel ≤ rowPitch) (hslice : rowPitch * 2 ^ b ≤ slicePitch) (hpitch : slicePitch < 2 ^ 32)
    (hfit : 2 ^ a * 2 ^ b * 2 ^ c * bytesPerPixel ≤ 2 ^ 32) :
    ∃ maskX maskY maskZ swizzled linear,
      generateSwizzleMasks (2 ^ a) (2 ^ b) (2 ^ c) = some (maskX, maskY, maskZ) ∧
      Set.BijOn (swizzleOffset maskX maskY maskZ) {p | p ∈ boxPixels (2 ^ a) (2 ^ b) (2 ^ c)}
        (Set.Iio (2 ^ a * 2 ^ b * 2 ^ c)) ∧
      swizzleBox src (2 ^ a) (2 ^ b) (2 ^ c) swizzledInit rowPitch slicePitch bytesPerPixel = some swizzled ∧
      unswizzleBox swizzled (2 ^ a) (2 ^ b) (2 ^ c) linearInit rowPitch slicePitch bytesPerPixel = some linear ∧
      (∀ p ∈ boxPixels (2 ^ a) (2 ^ b) (2 ^ c), ∀ t < bytesPerPixel,
        swizzled (swizzleOffset maskX maskY maskZ p * bytesPerPixel + t) =
            src (linearOffset rowPitch slicePitch bytesPerPixel p + t) ∧
          linear (linearOffset rowPitch slicePitch bytesPerPixel p + t) =
            swizzled (swizzleOffset maskX maskY maskZ p * bytesPerPixel + t) ∧
          linear (linearOffset rowPitch slicePitch bytesPerPixel p + t) =
            src (linearOffset rowPitch slicePitch bytesPerPixel p + t)) ∧
      ∀ j, 2 ^ a * 2 ^ b * 2 ^ c * bytesPerPixel ≤ j → swizzled j = swizzledInit j := by
  have hsize : 2 ^ a * 2 ^ b * 2 ^ c = 2 ^ (a + b + c) := by rw [pow_add, pow_add]
  rw [hsize] at hbox hfit
  have habc : a + b + c < 31 := (Nat.pow_lt_pow_iff_right (by decide)).1 hbox
  obtain ⟨maskX, maskY, maskZ, hgen, hm⟩ := generateSwizzleMasks_pow (show a + b + c < 32 by omega)
  -- the masks lie below bit 31, so the offset step works in 32 bits
  have h32 : 2 ^ (a + b + c) < 2 ^ 32 := Nat.pow_lt_pow_right (by decide) (by omega)
  have hmx : maskX < 2 ^ 32 := hm.partition.lt_left.trans h32
  have hmy : maskY < 2 ^ 32 := hm.partition.swap12.lt_left.trans h32
  have hmz : maskZ < 2 ^ 32 := hm.partition.swap13.lt_left.trans h32
  have hS := boxInternal_eq .swizzle src (2 ^ a) (2 ^ b) (2 ^ c) swizzledInit rowPitch slicePitch bytesPerPixel hgen
    hmx hmy hmz
  set swizzled := copyAll bytesPerPixel src swizzledInit
    (boxCopies .swizzle (2 ^ a) (2 ^ b) (2 ^ c) rowPitch slicePitch maskX maskY maskZ bytesPerPixel)
  have hU := boxInternal_eq .unswizzle swizzled (2 ^ a) (2 ^ b) (2 ^ c) linearInit rowPitch slicePitch
    bytesPerPixel hgen hmx hmy hmz
  refine ⟨maskX, maskY, maskZ, swizzled, copyAll bytesPerPixel swizzled linearInit
    (boxCopies .unswizzle (2 ^ a) (2 ^ b) (2 ^ c) rowPitch slicePitch maskX maskY maskZ bytesPerPixel), hgen,
    swizzleOffset_bijOn hm, ?_, ?_, fun p hp t ht => ?_, fun j hj => ?_⟩
  · rw [swizzleBox, multiversion_eq]
    exact hS
  · rw [unswizzleBox, multiversion_eq]
    exact hU
  · -- each direction copies the pixel between its linear and its swizzled offset, and no other copy touches it
    have hwrite : swizzled (swizzleOffset maskX maskY maskZ p * bytesPerPixel + t) =
        src (linearOffset rowPitch slicePitch bytesPerPixel p + t) :=
      copyAll_of_mem (swizzleCopies_apart hm hfit) (swizzleCopies_mem hm hfit hrow hslice hpitch hp) ht
    have hread : copyAll bytesPerPixel swizzled linearInit
        (boxCopies .unswizzle (2 ^ a) (2 ^ b) (2 ^ c) rowPitch slicePitch maskX maskY maskZ bytesPerPixel)
        (linearOffset rowPitch slicePitch bytesPerPixel p + t) =
          swizzled (swizzleOffset maskX maskY maskZ p * bytesPerPixel + t) :=
      copyAll_of_mem (unswizzleCopies_apart hrow hslice hpitch) (unswizzleCopies_mem hm hfit hrow hslice hpitch hp) ht
    exact ⟨hwrite, hread, hread.trans hwrite⟩
  · -- every copy of swizzle_box ends within the image
    apply copyAll_of_not_covers
    intro cp hcp hcov
    obtain ⟨p, -, rfl⟩ := List.mem_map.1 hcp
    simp only [Direction.route, swizzledAddr_eq hm hfit] at hcov
    have hend := Nat.mul_le_mul_right bytesPerPixel (Nat.succ_le_of_lt (swizzleOffset_lt hm p))
    rw [Nat.succ_mul] at hend
    rw [hsize] at hj
    omega

/-- the round trip on a `2 × 2 × 2` box of one-byte pixels -/
theorem swizzle_box_roundtrip_cube :
    ∃ maskX maskY maskZ swizzled linear,
      generateSwizzleMasks (2 ^ 1) (2 ^ 1) (2 ^ 1) = some (maskX, maskY, maskZ) ∧
      Set.BijOn (swizzleOffset maskX maskY maskZ) {p | p ∈ boxPixels (2 ^ 1) (2 ^ 1) (2 ^ 1)}
        (Set.Iio (2 ^ 1 * 2 ^ 1 * 2 ^ 1)) ∧
      swizzleBox (fun j => UInt8.ofNat j) (2 ^ 1) (2 ^ 1) (2 ^ 1) (fun _ => 0) 2 4 1 = some swizzled ∧
      unswizzleBox swizzled (2 ^ 1) (2 ^ 1) (2 ^ 1) (fun _ => 0) 2 4 1 = some linear ∧
      (∀ p ∈ boxPixels (2 ^ 1) (2 ^ 1) (2 ^ 1), ∀ t < 1,
        swizzled (swizzleOffset maskX maskY maskZ p * 1 + t) = UInt8.ofNat (linearOffset 2 4 1 p + t) ∧
          linear (linearOffset 2 4 1 p + t) = swizzled (swizzleOffset maskX maskY maskZ p * 1 + t) ∧
          linear (linearOffset 2 4 1 p + t) = UInt8.ofNat (linearOffset 2 4 1 p + t)) ∧
      ∀ j, 2 ^ 1 * 2 ^ 1 * 2 ^ 1 * 1 ≤ j → swizzled j = 0 :=
  swizzle_box_roundtrip 1 2 4 (fun j => UInt8.ofNat j) (fun _ => 0) (fun _ => 0) (by decide) (by decide) (by decide)
    (by decide) (by decide)

/-! ## Past `2 ^ 32` bytes -/

/-- the box split after its first `d` slices -/
theorem boxPixels_add (width height d e : ℕ) :
    boxPixels width height (d + e) = boxPixels width height d ++
      (List.range e).flatMap fun z => (List.range height).flatMap fun y => (List.range width).map fun x => (x, y, d + z) := by
  simp only [boxPixels, List.range_add, List.flatMap_append, List.flatMap_map]

/-- the slices after the first `d` -/
theorem boxPixels_split (width height d e : ℕ) :
    ∃ later, boxPixels width height (d + e) = boxPixels width height d ++ later ∧ ∀ p ∈ later, d ≤ p.2.2 := by
  refine ⟨_, boxPixels_add width height d e, fun p hp => ?_⟩
  simp only [List.mem_flatMap, List.mem_map, List.mem_range] at hp
  obtain ⟨z, -, y, -, x, -, rfl⟩ := hp
  exact Nat.le_add_right d z

/-- with `2 ^ 30` slices of one 8-byte pixel the swizzled byte offsets wrap at `2 ^ 32`: slice `2 ^ 29` is written
over slice `0`, and unswizzling gives back a `1` where the first byte of the source was `0` -/
theorem swizzle_box_wraps :
    ∃ swizzled linear,
      swizzleBox (fun j => if j < 8 then 0 else 1) 1 1 (2 ^ 30) (fun _ => 0) 8 8 8 = some swizzled ∧
      unswizzleBox swizzled 1 1 (2 ^ 30) (fun _ => 0) 8 8 8 = some linear ∧ linear 0 = 1 := by
  have hgen : generateSwizzleMasks 1 1 (2 ^ 30) = some (0, 0, 2 ^ 30 - 1) := by decide
  have hS := boxInternal_eq .swizzle (fun j => if j < 8 then 0 else 1) 1 1 (2 ^ 30) (fun _ => 0) 8 8 8 hgen
    (by decide) (by decide) (by decide)
  set swizzled := copyAll 8 (fun j => if j < 8 then (0 : UInt8) else 1) (fun _ => 0)
    (boxCopies .swizzle 1 1 (2 ^ 30) 8 8 0 0 (2 ^ 30 - 1) 8)
  have hU := boxInternal_eq .unswizzle swizzled 1 1 (2 ^ 30) (fun _ => 0) 8 8 8 hgen (by decide) (by decide)
    (by decide)
  refine ⟨swizzled, _, by rw [swizzleBox, multiversion_eq]; exact hS, by rw [unswizzleBox, multiversion_eq]; exact hU,
    ?_⟩
  -- slice 2 ^ 29 is copied to swizzled offset 0 from linear offset 2 ^ 32, and every later slice reads a 1
  have hswz : swizzled 0 = 1 := by
    obtain ⟨later, hsplit, hlater⟩ := boxPixels_split 1 1 (2 ^ 29 + 1) (2 ^ 29 - 1)
    have hlast : boxPixels 1 1 (2 ^ 29 + 1) = boxPixels 1 1 (2 ^ 29) ++ [(0, 0, 2 ^ 29)] := by
      rw [boxPixels_add]
      rfl
    rw [show 2 ^ 29 + 1 + (2 ^ 29 - 1) = 2 ^ 30 by decide, hlast] at hsplit
    have hcopy : Direction.route .swizzle (linearAddr 8 8 8 (0, 0, 2 ^ 29))
        (swizzledAddr 0 0 (2 ^ 30 - 1) 8 (0, 0, 2 ^ 29)) = (0, 2 ^ 32) := by decide
    simp only [swizzled, boxCopies]
    rw [hsplit, List.map_append, List.map_append, copyAll_append, copyAll_append, List.map_singleton, hcopy,
      copyAll_cons, copyAll_nil]
    refine copyAll_of_agree (by rw [memcpy_of_covers (by decide) (by decide)]; decide) fun cp hcp _ _ => ?_
    obtain ⟨p, hp, rfl⟩ := List.mem_map.1 hcp
    have hz := hlater p hp
    -- a later slice reads its source at linear offset at least 8
    have hge : 8 ≤ (Direction.route .swizzle (linearAddr 8 8 8 p) (swizzledAddr 0 0 (2 ^ 30 - 1) 8 p)).2 := by
      simp only [Direction.route, linearAddr]
      omega
    exact if_neg (by omega)
  -- unswizzling: slice 0 is read back from swizzled offset 0, and no other slice writes linear byte 0
  obtain ⟨later, hsplit, hlater⟩ := boxPixels_split 1 1 1 (2 ^ 30 - 1)
  rw [show 1 + (2 ^ 30 - 1) = 2 ^ 30 by decide, show boxPixels 1 1 1 = [(0, 0, 0)] from rfl] at hsplit
  have hcopy : Direction.route .unswizzle (linearAddr 8 8 8 (0, 0, 0)) (swizzledAddr 0 0 (2 ^ 30 - 1) 8 (0, 0, 0))
      = (0, 0) := by decide
  rw [boxCopies, hsplit, List.map_append, List.map_singleton, hcopy, copyAll_append, copyAll_cons, copyAll_nil,
    copyAll_of_not_covers, memcpy_of_covers (by decide) (by decide)]
  · exact hswz
  · intro cp hcp hcov
    obtain ⟨p, hp, rfl⟩ := List.mem_map.1 hcp
    have hz := hlater p hp
    simp only [Direction.route, linearAddr] at hcov
    omega

end Xemu.Pgraph
