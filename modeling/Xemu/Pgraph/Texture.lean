import Mathlib
/-!
# Texture extents

The GL texture cache (`pgraph_gl_bind_textures`) decides whether a cached texture is stale from two ranges of VRAM:
the texture's, `pgraph_get_texture_length` bytes from its offset, and for an indexed texture the palette's,
`palette_length` bytes from the palette offset (hw/xbox/nv2a/pgraph/texture.c, gl/texture.c). It hashes and
dirty-checks these ranges only, so they must hold every byte the upload reads.

* `pgraphGetTextureLength`: the length of a texture shape, with the mipmap loops as `mipChainLength`.
* `uploadGlTextureExtent`: how far from the texture offset `generate_texture` and `upload_gl_texture` read: each level
  in turn, the six faces of a cubemap at the stride `cubemapFaceStride`, and a swizzled texture with a border at twice
  its size, at least 16.
* `paletteLength` and `convertIndexed`: the palette length `pgraph_get_texture_palette_phys_addr_length` returns, and
  the `SZ_I8_A8R8G8B8` branch of `pgraph_convert_texture_data`, which reads four palette bytes per index.

Without a border the upload reads within the texture's length (`uploadGlTextureExtent_le_length`); with one it reads
past it (`border_upload_exceeds_length`). The palette length is a number of entries, used as a number of bytes:
`palette_entries_outside_hash` gives two palettes that agree on the bytes the cache reads and give different texels.
-/

namespace Xemu.Pgraph

/-! ## Shapes and lengths -/

/-- what `kelvin_color_format_info_map` and `pgraph_is_texture_format_compressed` say of a color format: the bytes
per pixel, whether the format is linear, and the S3TC block size of a compressed one (8 for DXT1, 16 for DXT3 and
DXT5) -/
structure ColorFormat where
  bytesPerPixel : ℕ
  linear : Bool
  blockSize : Option ℕ
deriving DecidableEq, Repr

/-- the fields of TextureShape that the texture's extent depends on; the color format stands for its entry of the
format tables -/
structure TextureShape where
  format : ColorFormat
  cubemap : Bool
  dimensionality : ℕ
  levels : ℕ
  width : ℕ
  height : ℕ
  depth : ℕ
  pitch : ℕ
  border : Bool
deriving DecidableEq, Repr

/-- NV2A_CUBEMAP_FACE_ALIGNMENT -/
def nv2aCubemapFaceAlignment : ℕ := 128

/-- `(length + NV2A_CUBEMAP_FACE_ALIGNMENT - 1) & ~(NV2A_CUBEMAP_FACE_ALIGNMENT - 1)`: the mask clears the bits below
the alignment -/
def alignCubemapFace (length : ℕ) : ℕ :=
  (length + nv2aCubemapFaceAlignment - 1) / nv2aCubemapFaceAlignment * nv2aCubemapFaceAlignment

/-- the bytes of one mipmap level of `w × h`: `w * h * bytes_per_pixel`, or for a compressed format whole `4 × 4`
blocks, the sizes rounded up by `(w + 3) & ~3` -/
def levelLength (format : ColorFormat) (w h : ℕ) : ℕ :=
  match format.blockSize with
  | none => w * h * format.bytesPerPixel
  | some blockSize =>
    let physW := (w + 3) / 4 * 4
    let physH := (h + 3) / 4 * 4
    physW / 4 * physH / 4 * blockSize

/-- the mipmap loop of pgraph_get_texture_length and upload_gl_texture: `levels` levels from `w × h` on, each clamped
to `1 × 1` (`MAX(w, 1)`) and halved after -/
def mipChainLength (format : ColorFormat) : ℕ → ℕ → ℕ → ℕ
  | 0, _, _ => 0
  | levels + 1, w, h =>
    levelLength format (max w 1) (max h 1) + mipChainLength format levels (max w 1 / 2) (max h 1 / 2)

/-- pgraph_get_texture_length; `none` where an assert fails -/
def pgraphGetTextureLength (s : TextureShape) : Option ℕ :=
  if s.format.linear then
    if s.cubemap = false ∧ s.dimensionality = 2 then some (s.height * s.pitch) else none
  else if 2 ≤ s.dimensionality then
    let length := mipChainLength s.format s.levels s.width s.height
    if s.cubemap then
      if s.dimensionality = 2 then some (alignCubemapFace length * 6) else none
    else if 3 ≤ s.dimensionality then some (length * s.depth)
    else some length
  else some 0

/-! ## The GL upload -/

/-- the size upload_gl_texture and generate_texture start from: a swizzled texture with a border is stored at twice
its size, at least 16 -/
def adjustedSize (s : TextureShape) (n : ℕ) : ℕ :=
  if !s.format.linear && s.border then max 16 (n * 2) else n

/-- the face stride generate_texture computes for a cubemap: the levels of one face, without the `1 × 1` clamp and,
for a compressed format, without rounding up to whole blocks -/
def cubemapFaceLength (format : ColorFormat) : ℕ → ℕ → ℕ → ℕ
  | 0, _, _ => 0
  | levels + 1, w, h =>
    (match format.blockSize with
      | none => w * h * format.bytesPerPixel
      | some blockSize => w / 4 * h / 4 * blockSize) +
    cubemapFaceLength format levels (w / 2) (h / 2)

/-- the offset of each face after the first: `length`, aligned to NV2A_CUBEMAP_FACE_ALIGNMENT -/
def cubemapFaceStride (s : TextureShape) : ℕ :=
  alignCubemapFace (cubemapFaceLength s.format s.levels (adjustedSize s s.width) (adjustedSize s s.height))

/-- the GL_TEXTURE_3D loop of upload_gl_texture: each level clamped to `1 × 1 × 1`, `depth` slices of it -/
def volumeChainLength (format : ColorFormat) : ℕ → ℕ → ℕ → ℕ → ℕ
  | 0, _, _, _ => 0
  | levels + 1, w, h, d =>
    (match format.blockSize with
      | none => max w 1 * max h 1 * max d 1 * format.bytesPerPixel
      | some blockSize =>
        let physW := (max w 1 + 3) / 4 * 4
        let physH := (max h 1 + 3) / 4 * 4
        physW / 4 * physH / 4 * max d 1 * blockSize) +
    volumeChainLength format levels (max w 1 / 2) (max h 1 / 2) (max d 1 / 2)

/-- the bytes upload_gl_texture reads for a 2D texture or one cubemap face: a linear texture row by row at its pitch,
a swizzled one level after level -/
def uploadGlTexture2DExtent (s : TextureShape) : ℕ :=
  if s.format.linear then
    if s.height = 0 then 0 else (s.height - 1) * s.pitch + s.width * s.format.bytesPerPixel
  else mipChainLength s.format s.levels (adjustedSize s s.width) (adjustedSize s s.height)

/-- how far from the texture offset generate_texture reads: six faces at the face stride for a cubemap, one 2D or 3D
texture otherwise; `none` where an assert fails -/
def uploadGlTextureExtent (s : TextureShape) : Option ℕ :=
  if s.cubemap then
    if s.format.linear = false ∧ s.dimensionality = 2 then some (5 * cubemapFaceStride s + uploadGlTexture2DExtent s)
    else none
  else if s.format.linear then
    if s.dimensionality = 2 then some (uploadGlTexture2DExtent s) else none
  else if s.dimensionality = 2 then some (uploadGlTexture2DExtent s)
  else if s.dimensionality = 3 then
    some (volumeChainLength s.format s.levels (adjustedSize s s.width) (adjustedSize s s.height)
      (adjustedSize s s.depth))
  else none

/-! ## The palette -/

/-- NV_PGRAPH_TEXPALETTE0_LENGTH_256 -/
def nvPgraphTexpalette0Length256 : ℕ := 0
/-- NV_PGRAPH_TEXPALETTE0_LENGTH_128 -/
def nvPgraphTexpalette0Length128 : ℕ := 1
/-- NV_PGRAPH_TEXPALETTE0_LENGTH_64 -/
def nvPgraphTexpalette0Length64 : ℕ := 2
/-- NV_PGRAPH_TEXPALETTE0_LENGTH_32 -/
def nvPgraphTexpalette0Length32 : ℕ := 3

/-- the `palette_length` of pgraph_get_texture_palette_phys_addr_length, from the length field of TEXPALETTE -/
def paletteLength (lengthIndex : ℕ) : Option ℕ :=
  if lengthIndex = nvPgraphTexpalette0Length256 then some 256
  else if lengthIndex = nvPgraphTexpalette0Length128 then some 128
  else if lengthIndex = nvPgraphTexpalette0Length64 then some 64
  else if lengthIndex = nvPgraphTexpalette0Length32 then some 32
  else none

/-- `*(uint32_t *)(palette_data + index * 4)`: the little-endian word of a palette entry -/
def paletteColor (paletteData : ℕ → ℕ) (index : ℕ) : ℕ :=
  paletteData (index * 4) + paletteData (index * 4 + 1) * 2 ^ 8 + paletteData (index * 4 + 2) * 2 ^ 16 +
    paletteData (index * 4 + 3) * 2 ^ 24

/-- the `SZ_I8_A8R8G8B8` branch of pgraph_convert_texture_data: each index byte through the palette, slice after
slice -/
def convertIndexed (data paletteData : ℕ → ℕ) (width height depth rowPitch slicePitch : ℕ) : List ℕ :=
  (List.range depth).flatMap fun z => (List.range height).flatMap fun y => (List.range width).map fun x =>
    paletteColor paletteData (data (z * slicePitch + y * rowPitch + x) % 2 ^ 8)

/-! ## Level lengths -/

section Levels

variable (format : ColorFormat)

/-- a compressed level in whole blocks: the rounding up by `& ~3` and the division by 4 cancel -/
theorem levelLength_blocks {blockSize : ℕ} (hb : format.blockSize = some blockSize) (w h : ℕ) :
    levelLength format w h = (w + 3) / 4 * ((h + 3) / 4) * blockSize := by
  simp only [levelLength, hb, Nat.mul_div_cancel _ (by decide : 0 < 4),
    Nat.mul_div_assoc _ (Nat.dvd_mul_left 4 ((h + 3) / 4))]

theorem levelLength_mono {w h w' h' : ℕ} (hw : w ≤ w') (hh : h ≤ h') :
    levelLength format w h ≤ levelLength format w' h' := by
  cases hb : format.blockSize with
  | none =>
    simp only [levelLength, hb]
    exact Nat.mul_le_mul (Nat.mul_le_mul hw hh) (Nat.le_refl _)
  | some blockSize =>
    rw [levelLength_blocks format hb, levelLength_blocks format hb]
    exact Nat.mul_le_mul (Nat.mul_le_mul (Nat.div_le_div_right (by omega)) (Nat.div_le_div_right (by omega)))
      (Nat.le_refl _)

theorem mipChainLength_mono : ∀ (levels : ℕ) {w h w' h' : ℕ}, w ≤ w' → h ≤ h' →
    mipChainLength format levels w h ≤ mipChainLength format levels w' h'
  | 0, _, _, _, _, _, _ => Nat.le_refl _
  | levels + 1, _, _, _, _, hw, hh =>
    Nat.add_le_add (levelLength_mono format (by omega) (by omega))
      (mipChainLength_mono levels (by omega) (by omega))

/-- generate_texture's level without the clamp and the rounding is no longer than the clamped, rounded level of a
size at least as large -/
theorem cubemapLevel_le {w h w' h' : ℕ} (hw : w ≤ max w' 1) (hh : h ≤ max h' 1) :
    (match format.blockSize with
      | none => w * h * format.bytesPerPixel
      | some blockSize => w / 4 * h / 4 * blockSize) ≤ levelLength format (max w' 1) (max h' 1) := by
  cases hb : format.blockSize with
  | none => simpa only [levelLength, hb] using levelLength_mono format hw hh
  | some blockSize =>
    dsimp only
    rw [levelLength_blocks format hb]
    -- the flooring after the product is bounded by the rounding up of `h`
    have hfloor : w / 4 * h / 4 ≤ w / 4 * ((h + 3) / 4) :=
      Nat.div_le_of_le_mul (by
        calc w / 4 * h ≤ w / 4 * (4 * ((h + 3) / 4)) := Nat.mul_le_mul (Nat.le_refl _) (by omega)
          _ = 4 * (w / 4 * ((h + 3) / 4)) := by ring)
    exact Nat.mul_le_mul (hfloor.trans (Nat.mul_le_mul (Nat.div_le_div_right (by omega))
      (Nat.div_le_div_right (by omega)))) (Nat.le_refl _)

theorem cubemapFaceLength_le : ∀ (levels : ℕ) {w h w' h' : ℕ}, w ≤ max w' 1 → h ≤ max h' 1 →
    cubemapFaceLength format levels w h ≤ mipChainLength format levels w' h'
  | 0, _, _, _, _, _, _ => Nat.le_refl _
  | levels + 1, _, _, _, _, hw, hh =>
    Nat.add_le_add (cubemapLevel_le format hw hh) (cubemapFaceLength_le levels (by omega) (by omega))

/-- the 3D levels hold at most `depth` slices of the 2D levels, the depth being halved with the width and height -/
theorem volumeChainLength_le {depth : ℕ} (hdepth : 1 ≤ depth) : ∀ (levels : ℕ) {w h d : ℕ}, max d 1 ≤ depth →
    volumeChainLength format levels w h d ≤ depth * mipChainLength format levels w h
  | 0, _, _, _, _ => by simp [volumeChainLength, mipChainLength]
  | levels + 1, w, h, d, hd => by
    have hrest := volumeChainLength_le hdepth levels (w := max w 1 / 2) (h := max h 1 / 2) (d := max d 1 / 2)
      (by omega)
    have hlevel : (match format.blockSize with
        | none => max w 1 * max h 1 * max d 1 * format.bytesPerPixel
        | some blockSize =>
          (max w 1 + 3) / 4 * 4 / 4 * ((max h 1 + 3) / 4 * 4) / 4 * max d 1 * blockSize) ≤
        depth * levelLength format (max w 1) (max h 1) := by
      cases hb : format.blockSize with
      | none =>
        simp only [levelLength, hb]
        calc max w 1 * max h 1 * max d 1 * format.bytesPerPixel
            = max d 1 * (max w 1 * max h 1 * format.bytesPerPixel) := by ring
          _ ≤ depth * (max w 1 * max h 1 * format.bytesPerPixel) := Nat.mul_le_mul hd (Nat.le_refl _)
      | some blockSize =>
        have hblocks := levelLength_blocks format hb (max w 1) (max h 1)
        simp only [levelLength, hb] at hblocks ⊢
        rw [hblocks]
        calc (max w 1 + 3) / 4 * 4 / 4 * ((max h 1 + 3) / 4 * 4) / 4 * max d 1 * blockSize
            = max d 1 * ((max w 1 + 3) / 4 * 4 / 4 * ((max h 1 + 3) / 4 * 4) / 4 * blockSize) := by ring
          _ ≤ depth * ((max w 1 + 3) / 4 * 4 / 4 * ((max h 1 + 3) / 4 * 4) / 4 * blockSize) :=
            Nat.mul_le_mul hd (Nat.le_refl _)
          _ = depth * ((max w 1 + 3) / 4 * ((max h 1 + 3) / 4) * blockSize) := by rw [hblocks]
    simp only [volumeChainLength, mipChainLength, Nat.mul_add]
    exact Nat.add_le_add hlevel hrest

theorem le_alignCubemapFace (length : ℕ) : length ≤ alignCubemapFace length := by
  unfold alignCubemapFace nv2aCubemapFaceAlignment
  omega

theorem alignCubemapFace_mono {a b : ℕ} (h : a ≤ b) : alignCubemapFace a ≤ alignCubemapFace b := by
  unfold alignCubemapFace nv2aCubemapFaceAlignment
  exact Nat.mul_le_mul (Nat.div_le_div_right (by omega)) (Nat.le_refl _)

/-- a level stored with a border is larger: twice the size, at least 16 -/
theorem levelLength_lt_border {w h : ℕ} (hw : 1 ≤ w) (hh : 1 ≤ h) (hpos : 0 < levelLength format 1 1) :
    levelLength format w h < levelLength format (max 16 (w * 2)) (max 16 (h * 2)) := by
  cases hb : format.blockSize with
  | none =>
    simp only [levelLength, hb, Nat.one_mul] at hpos ⊢
    exact Nat.mul_lt_mul_of_pos_right (Nat.mul_lt_mul_of_lt_of_le (by omega) (by omega) (by omega)) hpos
  | some blockSize =>
    rw [levelLength_blocks format hb] at hpos ⊢
    rw [levelLength_blocks format hb]
    simp only [Nat.reduceAdd, Nat.reduceDiv, Nat.one_mul] at hpos
    exact Nat.mul_lt_mul_of_pos_right
      (Nat.mul_lt_mul_of_lt_of_le (by omega) (Nat.div_le_div_right (by omega)) (by omega)) hpos

theorem mipChainLength_lt_border {levels w h : ℕ} (hlevels : 1 ≤ levels) (hw : 1 ≤ w) (hh : 1 ≤ h)
    (hpos : 0 < levelLength format 1 1) :
    mipChainLength format levels w h < mipChainLength format levels (max 16 (w * 2)) (max 16 (h * 2)) := by
  obtain ⟨levels, rfl⟩ : ∃ l, levels = l + 1 := ⟨levels - 1, by omega⟩
  simp only [mipChainLength, Nat.max_eq_left hw, Nat.max_eq_left hh,
    Nat.max_eq_left (by omega : 1 ≤ max 16 (w * 2)), Nat.max_eq_left (by omega : 1 ≤ max 16 (h * 2))]
  exact Nat.add_lt_add_of_lt_of_le (levelLength_lt_border format hw hh hpos)
    (mipChainLength_mono format levels (by omega) (by omega))

end Levels

/-! ## The upload against the length -/

section Upload

variable {s : TextureShape}

theorem adjustedSize_of_border_false (hborder : s.border = false) (n : ℕ) : adjustedSize s n = n := by
  simp [adjustedSize, hborder]

theorem adjustedSize_of_border (hlinear : s.format.linear = false) (hborder : s.border = true) (n : ℕ) :
    adjustedSize s n = max 16 (n * 2) := by
  simp [adjustedSize, hlinear, hborder]

/-- the six faces at the face stride end within six aligned faces -/
theorem cubemap_extent_le (hborder : s.border = false) (hlinear : s.format.linear = false) :
    5 * cubemapFaceStride s + uploadGlTexture2DExtent s ≤
      alignCubemapFace (mipChainLength s.format s.levels s.width s.height) * 6 := by
  have hstride : cubemapFaceStride s ≤ alignCubemapFace (mipChainLength s.format s.levels s.width s.height) := by
    unfold cubemapFaceStride
    rw [adjustedSize_of_border_false hborder, adjustedSize_of_border_false hborder]
    exact alignCubemapFace_mono (cubemapFaceLength_le s.format s.levels (by omega) (by omega))
  have hface : uploadGlTexture2DExtent s = mipChainLength s.format s.levels s.width s.height := by
    simp [uploadGlTexture2DExtent, hlinear, adjustedSize_of_border_false hborder]
  rw [hface]
  have := le_alignCubemapFace (mipChainLength s.format s.levels s.width s.height)
  omega

/-- a linear texture's rows end within `height * pitch` when a row fits the pitch -/
theorem linear_extent_le (hlinear : s.format.linear = true)
    (hpitch : s.width * s.format.bytesPerPixel ≤ s.pitch) : uploadGlTexture2DExtent s ≤ s.height * s.pitch := by
  unfold uploadGlTexture2DExtent
  rw [if_pos hlinear]
  split_ifs with hh
  · exact Nat.zero_le _
  · obtain ⟨k, hk⟩ : ∃ k, s.height = k + 1 := ⟨s.height - 1, by omega⟩
    rw [hk, Nat.add_sub_cancel, Nat.succ_mul]
    exact Nat.add_le_add_left hpitch _

/-- what generate_texture reads: six faces of a swizzled 2D texture, one 2D texture, or one swizzled 3D texture -/
theorem uploadGlTextureExtent_cases {extent : ℕ} (h : uploadGlTextureExtent s = some extent) :
    (s.cubemap = true ∧ s.format.linear = false ∧ s.dimensionality = 2 ∧
      extent = 5 * cubemapFaceStride s + uploadGlTexture2DExtent s) ∨
    (s.cubemap = false ∧ s.dimensionality = 2 ∧ extent = uploadGlTexture2DExtent s) ∨
    (s.cubemap = false ∧ s.format.linear = false ∧ s.dimensionality = 3 ∧
      extent = volumeChainLength s.format s.levels (adjustedSize s s.width) (adjustedSize s s.height)
        (adjustedSize s s.depth)) := by
  unfold uploadGlTextureExtent at h
  split_ifs at h with hcube hface hlinear hdim hdim' hvolume <;> cases h
  · exact Or.inl ⟨hcube, hface.1, hface.2, rfl⟩
  · exact Or.inr (Or.inl ⟨by simpa using hcube, hdim, rfl⟩)
  · exact Or.inr (Or.inl ⟨by simpa using hcube, hdim', rfl⟩)
  · exact Or.inr (Or.inr ⟨by simpa using hcube, by simpa using hlinear, hvolume, rfl⟩)

/-- without a border, and with a pitch that holds a row of a linear texture, the GL upload reads within the length
that the cache hashes and dirty-checks -/
theorem uploadGlTextureExtent_le_length (hborder : s.border = false)
    (hpitch : s.format.linear = true → s.width * s.format.bytesPerPixel ≤ s.pitch) (hdepth : 1 ≤ s.depth)
    {length extent : ℕ} (hlength : pgraphGetTextureLength s = some length)
    (hextent : uploadGlTextureExtent s = some extent) : extent ≤ length := by
  rcases uploadGlTextureExtent_cases hextent with ⟨hcube, hlinear, hdim, rfl⟩ | ⟨hcube, hdim, rfl⟩ |
    ⟨hcube, hlinear, hdim, rfl⟩
  · -- a cubemap: six aligned faces
    simp only [pgraphGetTextureLength, hlinear, hcube, hdim, Bool.false_eq_true, if_false, if_true,
      Nat.le_refl, Option.some.injEq] at hlength
    rw [← hlength]
    exact cubemap_extent_le hborder hlinear
  · cases hlinear : s.format.linear with
    | true =>
      simp only [pgraphGetTextureLength, hlinear, hcube, hdim, if_true, and_self, Option.some.injEq] at hlength
      rw [← hlength]
      exact linear_extent_le hlinear (hpitch hlinear)
    | false =>
      simp only [pgraphGetTextureLength, hlinear, hcube, hdim, Bool.false_eq_true, if_false, Nat.le_refl, if_true,
        show ¬3 ≤ 2 by decide, Option.some.injEq] at hlength
      simp only [uploadGlTexture2DExtent, hlinear, Bool.false_eq_true, if_false,
        adjustedSize_of_border_false hborder, hlength, Nat.le_refl]
  · -- a 3D texture: at most `depth` slices of the 2D levels
    simp only [pgraphGetTextureLength, hlinear, hcube, hdim, Bool.false_eq_true, if_false,
      show 2 ≤ 3 by decide, show 3 ≤ 3 by decide, if_true, Option.some.injEq] at hlength
    rw [← hlength, adjustedSize_of_border_false hborder, adjustedSize_of_border_false hborder,
      adjustedSize_of_border_false hborder, Nat.mul_comm]
    exact volumeChainLength_le s.format hdepth s.levels (by omega)

/-- a swizzled 2D texture with a border is read at twice its size, at least 16, while its length counts it at its
own size: the upload reads past the range the cache hashes and dirty-checks -/
theorem border_upload_exceeds_length (hlinear : s.format.linear = false) (hborder : s.border = true)
    (hcube : s.cubemap = false) (hdim : s.dimensionality = 2) (hw : 1 ≤ s.width) (hh : 1 ≤ s.height)
    (hlevels : 1 ≤ s.levels) (hpos : 0 < levelLength s.format 1 1) :
    ∃ length extent, pgraphGetTextureLength s = some length ∧ uploadGlTextureExtent s = some extent ∧
      length < extent := by
  refine ⟨mipChainLength s.format s.levels s.width s.height,
    mipChainLength s.format s.levels (max 16 (s.width * 2)) (max 16 (s.height * 2)), ?_, ?_,
    mipChainLength_lt_border s.format hlevels hw hh hpos⟩
  · simp [pgraphGetTextureLength, hlinear, hcube, hdim]
  · simp [uploadGlTextureExtent, hlinear, hcube, hdim, uploadGlTexture2DExtent, adjustedSize_of_border hlinear hborder]

/-- a `4 × 4` texture of four bytes per pixel with a border: 64 bytes hashed, 1024 read -/
example : pgraphGetTextureLength ⟨⟨4, false, none⟩, false, 2, 1, 4, 4, 1, 0, true⟩ = some 64 ∧
    uploadGlTextureExtent ⟨⟨4, false, none⟩, false, 2, 1, 4, 4, 1, 0, true⟩ = some 1024 := by
  decide

end Upload

/-! ## The palette against its length -/

/-- the palette length is a number of entries: 256, 128, 64 or 32 -/
theorem paletteLength_cases {lengthIndex n : ℕ} (h : paletteLength lengthIndex = some n) :
    n = 256 ∨ n = 128 ∨ n = 64 ∨ n = 32 := by
  unfold paletteLength at h
  split_ifs at h <;> cases h <;> simp

/-- a one-texel texture reads the entry of its index byte -/
theorem convertIndexed_texel (data paletteData : ℕ → ℕ) :
    convertIndexed data paletteData 1 1 1 1 1 = [paletteColor paletteData (data 0 % 2 ^ 8)] := by
  simp [convertIndexed]

/-- pgraph_gl_bind_textures hashes and dirty-checks `palette_length` bytes of the palette, the number of its entries,
while pgraph_convert_texture_data reads four bytes per entry: the entry `palette_length / 4` of the palette lies past
the bytes the cache reads, so two palettes that agree on them give different texels -/
theorem palette_entries_outside_hash {lengthIndex n : ℕ} (h : paletteLength lengthIndex = some n) :
    n / 4 < n ∧ ∃ paletteData paletteData' : ℕ → ℕ, (∀ a < n, paletteData a = paletteData' a) ∧
      convertIndexed (fun _ => n / 4) paletteData 1 1 1 1 1 ≠
        convertIndexed (fun _ => n / 4) paletteData' 1 1 1 1 1 := by
  have hn := paletteLength_cases h
  refine ⟨by omega, fun _ => 0, fun a => if a = n then 1 else 0, fun a ha => by simp [Nat.ne_of_lt ha], ?_⟩
  -- the texel's entry starts at byte `n`, the first byte past the hashed range
  have hentry : n / 4 % 256 * 4 = n := by omega
  rw [convertIndexed_texel, convertIndexed_texel]
  simp [paletteColor, hentry]

/-- with `LENGTH_256` the cache reads the first 256 bytes, and entry 64 starts past them -/
theorem palette_entries_outside_hash_256 :
    paletteLength nvPgraphTexpalette0Length256 = some 256 ∧
      (256 / 4 < 256 ∧ ∃ paletteData paletteData' : ℕ → ℕ, (∀ a < 256, paletteData a = paletteData' a) ∧
        convertIndexed (fun _ => 256 / 4) paletteData 1 1 1 1 1 ≠
          convertIndexed (fun _ => 256 / 4) paletteData' 1 1 1 1 1) :=
  ⟨rfl, @palette_entries_outside_hash nvPgraphTexpalette0Length256 256 rfl⟩

end Xemu.Pgraph
