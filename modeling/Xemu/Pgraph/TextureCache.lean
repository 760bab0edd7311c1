import Xemu.Core.Runs
import Xemu.Pgraph.Texture
/-!
# The GL texture cache

`pgraph_gl_bind_textures` (hw/xbox/nv2a/pgraph/gl/texture.c) binds each enabled texture stage to a GL texture. It keeps
a texture from the last draw (`texture_binding[i]`) when the pages of its ranges are clean in the
`DIRTY_MEMORY_NV2A_TEX` bitmap. Otherwise it looks the texture up in the texture cache, by shape, offsets and lengths,
and keeps the cached texture unless the hash of the texture and palette bytes changed. Checking a range clears its
dirty pages (`memory_region_test_and_clear_dirty`) and marks every cached texture over those pages possibly dirty.

The model covers stages whose texture is not a render target (no surface at its offset). `lru_lookup` is a lookup in
an association list that adds a node without a binding on a miss; eviction is not modelled. `fast_hash` is taken to
distinguish the bytes it hashes, so a hash is the list of those bytes. A texture made by `generate_texture` is the
shape, the bytes of the texture range and the palette bytes the conversion can read. The asserts that both ranges end
below `memory_region_size(d->vram)` are kept: they are why the last bytes the marking visitor computes as `uintptr_t`
(`lastByte64`) do not wrap for a cached key.

The write-back test compares the ranges with their inclusive ends by `>=`, and so misses a surface that shares exactly
one byte with the texture, the last of one range and the first of the other (`writebackOverlapping_eq_false_iff`).

`bindStage_of_clean` says what the first test decides: a stage whose pages read clean keeps its texture,
whatever the cache knows. `shared_page_keeps_stale_texture` is the run where that goes wrong: two stages share a page,
the second stage's texture is rewritten, and the first stage's check clears the page before the second stage looks.
-/

namespace Xemu.Pgraph

/-- TARGET_PAGE_SIZE -/
def targetPageSize : ℕ := 4096

/-- NV2A_MAX_TEXTURES -/
def nv2aMaxTextures : ℕ := 4

/-- the bytes a palette lookup can reach: four for each of the 256 indices -/
def paletteReadLength : ℕ := 4 * 256

/-- a texture made by generate_texture, with the hash it was made under -/
structure TextureBinding where
  shape : TextureShape
  textureData : List ℕ
  paletteData : List ℕ
  dataHash : List ℕ
deriving DecidableEq, Repr

/-- TextureKey -/
structure TextureKey where
  state : TextureShape
  textureVramOffset : ℕ
  textureLength : ℕ
  paletteVramOffset : ℕ
  paletteLength : ℕ
deriving DecidableEq, Repr

/-- TextureLruNode -/
structure TextureLruNode where
  key : TextureKey
  binding : Option TextureBinding
  possiblyDirty : Bool
deriving DecidableEq, Repr

/-- what pgraph_gl_bind_textures reads of a texture stage's registers -/
structure TextureStage where
  enabled : Bool
  shape : TextureShape
  textureVramOffset : ℕ
  paletteVramOffset : ℕ
  paletteLengthIndex : ℕ
  /-- the color format is `SZ_I8_A8R8G8B8` -/
  indexed : Bool
deriving DecidableEq, Repr

/-- VRAM, its `DIRTY_MEMORY_NV2A_TEX` pages, the texture cache and the textures of the last draw; `vramSize` is
`memory_region_size(d->vram)`, a `uint64_t` -/
structure TextureCacheState where
  vram : ℕ → ℕ
  dirty : ℕ → Bool
  cache : List TextureLruNode
  textureBinding : ℕ → Option TextureBinding
  textureDirty : ℕ → Bool
  vramSize : ℕ
  vramSize_lt : vramSize < 2 ^ 64

/-- the bytes of VRAM from `addr` on -/
def vramBytes (vram : ℕ → ℕ) (addr length : ℕ) : List ℕ := (List.range length).map fun i => vram (addr + i)

/-- generate_texture -/
def generateTexture (vram : ℕ → ℕ) (key : TextureKey) (indexed : Bool) (dataHash : List ℕ) : TextureBinding :=
  ⟨key.state, vramBytes vram key.textureVramOffset key.textureLength,
    if indexed then vramBytes vram key.paletteVramOffset paletteReadLength else [], dataHash⟩

/-! ## Dirty pages -/

/-- the pages from `addr & TARGET_PAGE_MASK` up to `TARGET_PAGE_ALIGN(addr + size)` -/
def pageRange (addr size : ℕ) : List ℕ :=
  List.range' (addr / targetPageSize)
    ((addr + size + targetPageSize - 1) / targetPageSize - addr / targetPageSize)

/-- check_texture_dirty: whether a page of the range is dirty; the pages are cleared -/
def checkTextureDirty (st : TextureCacheState) (addr size : ℕ) : Bool × TextureCacheState :=
  ((pageRange addr size).any st.dirty,
    { st with dirty := fun page => if page ∈ pageRange addr size then false else st.dirty page })

/-- `addr + length - 1` in the 64-bit unsigned arithmetic of `uintptr_t` and `hwaddr`: the last byte of a range,
which wraps to `2 ^ 64 - 1` for an empty range at zero -/
def lastByte64 (addr length : ℕ) : ℕ := (addr + length + (2 ^ 64 - 1)) % 2 ^ 64

/-- the visitor of pgraph_gl_mark_textures_possibly_dirty on one node, for the page-aligned range `[addr, end]` -/
def markPossiblyDirty (addr «end» : ℕ) (node : TextureLruNode) : TextureLruNode :=
  if node.binding.isNone || node.possiblyDirty then node
  else
    let kTexEnd := lastByte64 node.key.textureVramOffset node.key.textureLength
    let overlapping := !(addr > kTexEnd || node.key.textureVramOffset > «end»)
    let kPalEnd := lastByte64 node.key.paletteVramOffset node.key.paletteLength
    let overlapping := if 0 < node.key.paletteLength then
        overlapping || !(addr > kPalEnd || node.key.paletteVramOffset > «end»)
      else overlapping
    { node with possiblyDirty := node.possiblyDirty || overlapping }

/-- pgraph_gl_mark_textures_possibly_dirty: every cached texture over the pages of the range -/
def markTexturesPossiblyDirty (st : TextureCacheState) (addr size : ℕ) : TextureCacheState :=
  let «end» := (addr + size + targetPageSize - 1) / targetPageSize * targetPageSize - 1
  { st with cache := st.cache.map (markPossiblyDirty (addr / targetPageSize * targetPageSize) «end») }

/-- one range of check_texture_possibly_dirty: when a page was dirty, the cached textures over the pages are marked -/
def checkRangePossiblyDirty (st : TextureCacheState) (addr size : ℕ) : Bool × TextureCacheState :=
  let checked := checkTextureDirty st addr size
  if checked.1 then (true, markTexturesPossiblyDirty checked.2 addr size) else checked

/-- check_texture_possibly_dirty: the texture range, then the palette range if there is one -/
def checkTexturePossiblyDirty (st : TextureCacheState) (textureVramOffset length paletteVramOffset paletteLength : ℕ) :
    Bool × TextureCacheState :=
  let texture := checkRangePossiblyDirty st textureVramOffset length
  if paletteLength ≠ 0 then
    let palette := checkRangePossiblyDirty texture.2 paletteVramOffset paletteLength
    (texture.1 || palette.1, palette.2)
  else texture

/-! ## Binding a stage -/

/-- lru_lookup: the node of the key, or a new node without a binding -/
def lookupNode (cache : List TextureLruNode) (key : TextureKey) : TextureLruNode :=
  (cache.find? (·.key = key)).getD ⟨key, none, false⟩

/-- the node written back into the cache -/
def storeNode (cache : List TextureLruNode) (node : TextureLruNode) : List TextureLruNode :=
  if cache.any (·.key = node.key) then cache.map fun n => if n.key = node.key then node else n
  else cache ++ [node]

/-- the check of the key's pages in the slow path, skipped when the first test made it -/
def checkUnlessChecked (st : TextureCacheState) (key : TextureKey) (possiblyDirtyChecked : Bool) :
    Bool × TextureCacheState :=
  if possiblyDirtyChecked then (false, st)
  else checkTexturePossiblyDirty st key.textureVramOffset key.textureLength key.paletteVramOffset key.paletteLength

/-- the texture the slow path binds: the hash of the texture and palette bytes when the texture is possibly dirty,
the cached texture unless it must be destroyed, and a texture made by generate_texture when there is none -/
def chooseBinding (vram : ℕ → ℕ) (key : TextureKey) (indexed : Bool) (cached : Option TextureBinding)
    (possiblyDirty : Bool) : TextureBinding :=
  let texDataHash := if possiblyDirty then
      vramBytes vram key.textureVramOffset key.textureLength ++
        (if indexed then vramBytes vram key.paletteVramOffset key.paletteLength else [])
    else []
  let mustDestroy := match cached with
    | some binding => possiblyDirty && binding.dataHash ≠ texDataHash
    | none => false
  (if mustDestroy then none else cached).getD (generateTexture vram key indexed texDataHash)

/-- the part of pgraph_gl_bind_textures after the first test: the cache lookup, the check of the pages unless it was
made, and the texture `chooseBinding` gives, which the node and the stage then hold -/
def bindFromCache (st : TextureCacheState) (i : ℕ) (key : TextureKey) (indexed : Bool)
    (possiblyDirty possiblyDirtyChecked : Bool) : TextureCacheState :=
  let node := lookupNode st.cache key
  let checked := checkUnlessChecked st key possiblyDirtyChecked
  let possiblyDirty := possiblyDirty || node.binding.isNone || node.possiblyDirty || checked.1
  let st := checked.2
  let binding := chooseBinding st.vram key indexed node.binding possiblyDirty
  { st with
    cache := storeNode st.cache { node with binding := some binding, possiblyDirty := false }
    textureBinding := Function.update st.textureBinding i (some binding)
    textureDirty := Function.update st.textureDirty i false }

/-- the key of a stage: the palette range only for an indexed texture -/
def stageKey (stage : TextureStage) (length paletteLength : ℕ) : TextureKey :=
  ⟨stage.shape, stage.textureVramOffset, length, if stage.indexed then stage.paletteVramOffset else 0,
    if stage.indexed then paletteLength else 0⟩

/-- one enabled stage of pgraph_gl_bind_textures; `none` where an assert fails -/
def bindStage (st : TextureCacheState) (i : ℕ) (stage : TextureStage) : Option TextureCacheState :=
  match pgraphGetTextureLength stage.shape, paletteLength stage.paletteLengthIndex with
  | some length, some paletteLength =>
    if stage.textureVramOffset + length < st.vramSize ∧ stage.paletteVramOffset + paletteLength < st.vramSize then
      let key := stageKey stage length paletteLength
      match st.textureDirty i, st.textureBinding i with
      | false, some _ =>
        -- the texture of the last draw, kept when the pages of its ranges are clean
        let checked := checkTexturePossiblyDirty st stage.textureVramOffset length stage.paletteVramOffset
          key.paletteLength
        if checked.1 then some (bindFromCache checked.2 i key stage.indexed true true) else some checked.2
      | _, _ => some (bindFromCache st i key stage.indexed false false)
    else none
  | _, _ => none

/-- pgraph_gl_bind_textures over the stages in order; a disabled stage keeps its texture of the last draw -/
def bindTextures (st : TextureCacheState) (stages : List TextureStage) : Option TextureCacheState :=
  ((List.range stages.length).zip stages).foldlM
    (fun st (i, stage) => if stage.enabled then bindStage st i stage else some st) st

/-- a guest write of one byte: VRAM changes and the page turns dirty -/
def writeVram (st : TextureCacheState) (addr byte : ℕ) : TextureCacheState :=
  { st with
    vram := Function.update st.vram addr byte
    dirty := Function.update st.dirty (addr / targetPageSize) true }

/-- what happens between draws: a guest write to VRAM, a texture method that sets `texture_dirty[i]`, and a draw
with the stages' registers at the time -/
inductive TextureEvent
  | write (addr byte : ℕ)
  | setTextureDirty (i : ℕ)
  | draw (stages : List TextureStage)

/-- one event -/
def textureStep (st : TextureCacheState) : TextureEvent → Option TextureCacheState
  | .write addr byte => some (writeVram st addr byte)
  | .setTextureDirty i => some { st with textureDirty := Function.update st.textureDirty i true }
  | .draw stages => bindTextures st stages

/-- a run of events; `none` where an assert fails -/
def runTextureEvents (st : TextureCacheState) (events : List TextureEvent) : Option TextureCacheState :=
  events.foldlM textureStep st

/-! ## Pages and byte ranges -/

example : lastByte64 0 0 = 2 ^ 64 - 1 := by decide

section BindFromCache

variable {st : TextureCacheState} {key : TextureKey} {indexed possiblyDirty possiblyDirtyChecked : Bool}

end BindFromCache

/-! ### Stages, draws and runs -/

/-- a linear 2D texture of one row of one 4-byte texel: `pgraph_get_texture_length` is `height * pitch = 4` -/
def texelRowShape : TextureShape := ⟨⟨4, true, none⟩, false, 2, 1, 1, 1, 1, 4, false⟩

/-- stages 0 and 1 with textures at VRAM offsets 0 and 4, both in page 0 -/
def pageSharingStages : List TextureStage :=
  [⟨true, texelRowShape, 0, 0, nvPgraphTexpalette0Length256, false⟩,
    ⟨true, texelRowShape, 4, 0, nvPgraphTexpalette0Length256, false⟩]

/-- 64 MiB of VRAM of zeros with every page clean, an empty cache and no stage bound -/
def emptyTextureCache : TextureCacheState :=
  ⟨fun _ => 0, fun _ => false, [], fun _ => none, fun _ => true, 0x4000000, by decide⟩

/-- a draw binds both stages; the guest then writes the first byte of stage 1's texture, and the next draw leaves
stage 1 with the old bytes: stage 0's check cleared page 0 before stage 1's first test read it -/
theorem shared_page_keeps_stale_texture :
    (runTextureEvents emptyTextureCache [.draw pageSharingStages, .write 4 1, .draw pageSharingStages]).map
      (fun st => ((st.textureBinding 1).map (·.textureData), vramBytes st.vram 4 4)) =
      some (some [0, 0, 0, 0], [1, 0, 0, 0]) := by
  decide

end Xemu.Pgraph
