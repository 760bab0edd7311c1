import Xemu.Core.BitDeposit
import Xemu.Core.ByteCopy
/-!
# Texture swizzling

A model of hw/xbox/nv2a/pgraph/swizzle.c: the Z-order masks of `generate_swizzle_masks`, the loop nests of
`swizzle_box_internal` and `unswizzle_box_internal`, and the `MULTIVERSION` wrappers `swizzle_box` and
`unswizzle_box`.

Buffers are functions from byte offsets to bytes, counted from `src_buf` and `dst_buf`. The source's `uint32_t` and
`unsigned int` arithmetic is kept with explicit reductions modulo `2 ^ 32`: the products `y * row_pitch`,
`x * bytes_per_pixel`, `off_x * bytes_per_pixel` and `(off_y + off_z) * bytes_per_pixel`, the offset step
`(off - mask) & mask`, and the shifts of `bit` and `mask_bit`. Pointer arithmetic (`src_buf += slice_pitch` and adding
an offset to a pointer) is exact. The `int` offsets hold the same bits as the `uint32_t` values they are assigned
from, so they are kept as those values.

A function whose loop does not stop, or whose assertion fails, returns `none`.
-/

namespace Xemu.Pgraph

open BitDeposit ByteCopy

/-! ## generate_swizzle_masks -/

/-- the variables of the do-while loop of generate_swizzle_masks -/
structure MaskLoop where
  x : ℕ
  y : ℕ
  z : ℕ
  bit : ℕ
  maskBit : ℕ
deriving DecidableEq, Repr

/-- one of the statements `if (bit < dim) { acc |= mask_bit; mask_bit <<= 1; done = false; }`: the new accumulator,
the new `mask_bit`, and whether the branch was taken -/
def claimBit (bit dim acc maskBit : ℕ) : ℕ × ℕ × Bool :=
  if bit < dim then (acc ||| maskBit, maskBit * 2 % 2 ^ 32, true) else (acc, maskBit, false)

/-- one pass of the loop body: the new variables, and `done` -/
def maskIteration (width height depth : ℕ) (s : MaskLoop) : MaskLoop × Bool :=
  let cx := claimBit s.bit width s.x s.maskBit
  let cy := claimBit s.bit height s.y cx.2.1
  let cz := claimBit s.bit depth s.z cy.2.1
  (⟨cx.1, cy.1, cz.1, s.bit * 2 % 2 ^ 32, cz.2.1⟩, !(cx.2.2 || cy.2.2 || cz.2.2))

/-- the do-while loop, for at most `fuel` passes. `bit` doubles modulo `2 ^ 32` on every pass, so from the 33rd pass
on it is `0` and every pass takes the same branches: a loop that has not stopped after 33 passes never stops -/
def maskLoop (width height depth : ℕ) : ℕ → MaskLoop → Option MaskLoop
  | 0, _ => none
  | fuel + 1, s =>
    let r := maskIteration width height depth s
    if r.2 then some r.1 else maskLoop width height depth fuel r.1

/-- generate_swizzle_masks: `(mask_x, mask_y, mask_z)`, or `none` when the loop does not stop or
`assert((x ^ y ^ z) == (mask_bit - 1))` fails -/
def generateSwizzleMasks (width height depth : ℕ) : Option (ℕ × ℕ × ℕ) :=
  match maskLoop width height depth 33 ⟨0, 0, 0, 1, 1⟩ with
  | none => none
  | some s => if s.x ^^^ s.y ^^^ s.z = (s.maskBit + 2 ^ 32 - 1) % 2 ^ 32 then some (s.x, s.y, s.z) else none

/-! ## The loop nests -/

/-- which way the loop nest copies: swizzle_box_internal from the linear to the swizzled image, unswizzle_box_internal
back -/
inductive Direction
  | swizzle
  | unswizzle
deriving DecidableEq, Repr

/-- the (destination, source) byte offsets of one `memcpy`, from the pixel's linear and swizzled offsets -/
def Direction.route : Direction → ℕ → ℕ → ℕ × ℕ
  | .swizzle, lin, swz => (swz, lin)
  | .unswizzle, lin, swz => (lin, swz)

/-- `memcpy(dst, src, bytes_per_pixel)` for one pixel -/
def copyPixel (dir : Direction) (dst src : ℕ → UInt8) (lin swz bytesPerPixel : ℕ) : ℕ → UInt8 :=
  memcpy dst (dir.route lin swz).1 src (dir.route lin swz).2 bytesPerPixel

/-- the x loop, with `n` pixels left, at column `x` with offset `off_x`. `linRow` and `swzRow` are the row pointers
into the linear and the swizzled image (`src_tmp` and `dst_tmp` of swizzle_box_internal, the other way round in
unswizzle_box_internal) -/
def rowLoop (dir : Direction) (src : ℕ → UInt8) (linRow swzRow maskX bytesPerPixel : ℕ) :
    ℕ → ℕ → ℕ → (ℕ → UInt8) → ℕ → UInt8
  | 0, _, _, dst => dst
  | n + 1, x, offX, dst =>
    rowLoop dir src linRow swzRow maskX bytesPerPixel n (x + 1) (nextMasked 32 maskX offX)
      (copyPixel dir dst src (linRow + x * bytesPerPixel % 2 ^ 32) (swzRow + offX * bytesPerPixel % 2 ^ 32)
        bytesPerPixel)

/-- the y loop, with `n` rows left, at row `y` with offset `off_y`, in the slice at linear offset `linSlice` and
with offset `off_z` -/
def sliceLoop (dir : Direction) (src : ℕ → UInt8) (width rowPitch linSlice offZ maskX maskY bytesPerPixel : ℕ) :
    ℕ → ℕ → ℕ → (ℕ → UInt8) → ℕ → UInt8
  | 0, _, _, dst => dst
  | n + 1, y, offY, dst =>
    sliceLoop dir src width rowPitch linSlice offZ maskX maskY bytesPerPixel n (y + 1) (nextMasked 32 maskY offY)
      (rowLoop dir src (linSlice + y * rowPitch % 2 ^ 32) ((offY + offZ) * bytesPerPixel % 2 ^ 32) maskX
        bytesPerPixel width 0 0 dst)

/-- the z loop, with `n` slices left; the linear slice pointer advances by `slice_pitch` per slice -/
def boxLoop (dir : Direction) (src : ℕ → UInt8) (width height rowPitch slicePitch maskX maskY maskZ bytesPerPixel : ℕ) :
    ℕ → ℕ → ℕ → (ℕ → UInt8) → ℕ → UInt8
  | 0, _, _, dst => dst
  | n + 1, linSlice, offZ, dst =>
    boxLoop dir src width height rowPitch slicePitch maskX maskY maskZ bytesPerPixel n (linSlice + slicePitch)
      (nextMasked 32 maskZ offZ)
      (sliceLoop dir src width rowPitch linSlice offZ maskX maskY bytesPerPixel height 0 0 dst)

/-- the loop nest of both directions, after generate_swizzle_masks -/
def boxInternal (dir : Direction) (srcBuf : ℕ → UInt8) (width height depth : ℕ) (dstBuf : ℕ → UInt8)
    (rowPitch slicePitch bytesPerPixel : ℕ) : Option (ℕ → UInt8) :=
  (generateSwizzleMasks width height depth).map fun m =>
    boxLoop dir srcBuf width height rowPitch slicePitch m.1 m.2.1 m.2.2 bytesPerPixel depth 0 0 dstBuf

/-- swizzle_box_internal: the swizzled image written into `dst_buf` -/
def swizzleBoxInternal (srcBuf : ℕ → UInt8) (width height depth : ℕ) (dstBuf : ℕ → UInt8)
    (rowPitch slicePitch bytesPerPixel : ℕ) : Option (ℕ → UInt8) :=
  boxInternal .swizzle srcBuf width height depth dstBuf rowPitch slicePitch bytesPerPixel

/-- unswizzle_box_internal: the linear image written into `dst_buf` -/
def unswizzleBoxInternal (srcBuf : ℕ → UInt8) (width height depth : ℕ) (dstBuf : ℕ → UInt8)
    (rowPitch slicePitch bytesPerPixel : ℕ) : Option (ℕ → UInt8) :=
  boxInternal .unswizzle srcBuf width height depth dstBuf rowPitch slicePitch bytesPerPixel

/-! ## MULTIVERSION -/

/-- the `MULTIVERSION` switch: the internal function at the constants 1 to 4, and at `bytes_per_pixel` otherwise -/
def multiversion {α : Type} (internal : ℕ → α) (bytesPerPixel : ℕ) : α :=
  match bytesPerPixel with
  | 1 => internal 1
  | 2 => internal 2
  | 3 => internal 3
  | 4 => internal 4
  | bpp => internal bpp

/-- swizzle_box -/
def swizzleBox (srcBuf : ℕ → UInt8) (width height depth : ℕ) (dstBuf : ℕ → UInt8)
    (rowPitch slicePitch bytesPerPixel : ℕ) : Option (ℕ → UInt8) :=
  multiversion (swizzleBoxInternal srcBuf width height depth dstBuf rowPitch slicePitch) bytesPerPixel

/-- unswizzle_box -/
def unswizzleBox (srcBuf : ℕ → UInt8) (width height depth : ℕ) (dstBuf : ℕ → UInt8)
    (rowPitch slicePitch bytesPerPixel : ℕ) : Option (ℕ → UInt8) :=
  multiversion (unswizzleBoxInternal srcBuf width height depth dstBuf rowPitch slicePitch) bytesPerPixel

/-- every case of the switch calls the internal function at `bytes_per_pixel` itself -/
theorem multiversion_eq {α : Type} (internal : ℕ → α) (bytesPerPixel : ℕ) :
    multiversion internal bytesPerPixel = internal bytesPerPixel := by
  unfold multiversion
  split <;> rfl

end Xemu.Pgraph
