import Mathlib
import Xemu.Core.Runs
import Xemu.Core.TailQueue
/-!
# The GL surface cache

The GL renderer keeps the render targets it has drawn to as surfaces (`r->surfaces`, hw/xbox/nv2a/pgraph/gl/surface.c),
each a GL texture standing for `[vram_addr, vram_addr + size)` of VRAM, and binds one as the color target
(`r->color_binding`) and one as the depth/stencil target (`r->zeta_binding`). `pgraph_gl_surface_update` rebinds them
when the guest has changed the surface registers (`buffer_dirty`): `update_surface_part` reuses a compatible surface at
the new address or creates one, and `surface_put` first evicts every surface that overlaps the new one.

The model keeps what the cache logic reads and writes. A surface is known by its pointer, here an identifier handed
out by `surface_put`, and the bindings hold identifiers. GL calls, downloads and uploads of pixel data are left out;
each download in the cache logic comes right before the surface is invalidated. `mem_dirty` is false, as in the TCG
build, which watches VRAM through access callbacks. A DMA object is given by its loaded fields.

* `SurfaceInv`: the surfaces have distinct identifiers below the next one, distinct addresses and pairwise disjoint
  ranges; the bindings are surfaces of the list, distinct, and of equal dimensions when both are set. Every event that
  does not fail keeps it (`runSurfaceEvents_inv`).
* The asserts of `pgraph_gl_surface_invalidate` do fail: moving the color target so that it overlaps the bound zeta
  surface evicts that surface while its `buffer_dirty` is clear (`color_offset_over_zeta_fails`).
-/

namespace Xemu.Pgraph

/-! ## Registers and surfaces -/

/-- the GL internal formats of the surface format tables -/
inductive GlInternalFormat
  | rgb5A1 | rgb565 | rgba8 | r8 | rg8 | depthComponent32f | depth24Stencil8 | depthComponent16
deriving DecidableEq, Repr

/-- the framebuffer attachments of the surface format tables -/
inductive GlAttachment
  | colorAttachment0 | depthAttachment | depthStencilAttachment
deriving DecidableEq, Repr

/-- SurfaceFormatInfo, without the GL transfer format and type -/
structure SurfaceFormatInfo where
  bytesPerPixel : ℕ
  glInternalFormat : GlInternalFormat
  glAttachment : GlAttachment
deriving DecidableEq, Repr

/-- kelvin_surface_color_format_gl_map; `none` where pgraph asserts or aborts: format 0, past the table, or an entry
the table leaves empty -/
def kelvinSurfaceColorFormatGlMap : ℕ → Option SurfaceFormatInfo
  | 0x01 => some ⟨2, .rgb5A1, .colorAttachment0⟩
  | 0x03 => some ⟨2, .rgb565, .colorAttachment0⟩
  | 0x04 => some ⟨4, .rgba8, .colorAttachment0⟩
  | 0x08 => some ⟨4, .rgba8, .colorAttachment0⟩
  | 0x09 => some ⟨1, .r8, .colorAttachment0⟩
  | 0x0A => some ⟨2, .rg8, .colorAttachment0⟩
  | _ => none

/-- kelvin_surface_zeta_float_format_gl_map -/
def kelvinSurfaceZetaFloatFormatGlMap : ℕ → Option SurfaceFormatInfo
  | 1 => some ⟨2, .depthComponent32f, .depthAttachment⟩
  | 2 => some ⟨4, .depth24Stencil8, .depthStencilAttachment⟩
  | _ => none

/-- kelvin_surface_zeta_fixed_format_gl_map -/
def kelvinSurfaceZetaFixedFormatGlMap : ℕ → Option SurfaceFormatInfo
  | 1 => some ⟨2, .depthComponent16, .depthAttachment⟩
  | 2 => some ⟨4, .depth24Stencil8, .depthStencilAttachment⟩
  | _ => none

/-- NV_DMA_IN_MEMORY_CLASS -/
def nvDmaInMemoryClass : ℕ := 0x3d

/-- NV097_SET_SURFACE_FORMAT_TYPE_SWIZZLE -/
def nv097SetSurfaceFormatTypeSwizzle : ℕ := 0x2

/-- NV097_SET_SURFACE_FORMAT_ANTI_ALIASING_CENTER_1 -/
def nv097SetSurfaceFormatAntiAliasingCenter1 : ℕ := 0

/-- NV097_SET_SURFACE_FORMAT_ANTI_ALIASING_CENTER_CORNER_2 -/
def nv097SetSurfaceFormatAntiAliasingCenterCorner2 : ℕ := 1

/-- NV097_SET_SURFACE_FORMAT_ANTI_ALIASING_SQUARE_OFFSET_4 -/
def nv097SetSurfaceFormatAntiAliasingSquareOffset4 : ℕ := 2

/-- SurfaceShape -/
structure SurfaceShape where
  zFormat : Bool
  colorFormat : ℕ
  zetaFormat : ℕ
  logWidth : ℕ
  logHeight : ℕ
  clipX : ℕ
  clipWidth : ℕ
  clipY : ℕ
  clipHeight : ℕ
  antiAliasing : ℕ
deriving DecidableEq, Repr

/-- the shape `memset` to zero -/
def zeroSurfaceShape : SurfaceShape := ⟨false, 0, 0, 0, 0, 0, 0, 0, 0, 0⟩

/-- Surface: `pg->surface_color` and `pg->surface_zeta` -/
structure Surface where
  offset : ℕ
  pitch : ℕ
  bufferDirty : Bool
  drawDirty : Bool
  writeEnabledCache : Bool
deriving DecidableEq, Repr

/-- DMAObject, as nv_dma_load reads it -/
structure DMAObject where
  dmaClass : ℕ
  address : ℕ
  limit : ℕ
deriving DecidableEq, Repr

/-- SurfaceBinding; `id` stands for the pointer -/
structure SurfaceBinding where
  id : ℕ
  shape : SurfaceShape
  fmt : SurfaceFormatInfo
  color : Bool
  swizzle : Bool
  vramAddr : ℕ
  width : ℕ
  height : ℕ
  pitch : ℕ
  size : ℕ
  uploadPending : Bool
  drawDirty : Bool
  frameTime : ℕ
  drawTime : ℕ
  cleared : Bool
deriving DecidableEq, Repr

/-- the PGRAPH registers the surface cache reads, and the cache -/
structure SurfaceCacheState where
  surfaceShape : SurfaceShape
  lastSurfaceShape : SurfaceShape
  /-- NV_PGRAPH_SETUPRASTER_Z_FORMAT -/
  setupRasterZFormat : Bool
  surfaceType : ℕ
  surfaceColor : Surface
  surfaceZeta : Surface
  dmaColor : DMAObject
  dmaZeta : DMAObject
  clearing : Bool
  /-- pgraph_color_write_enabled -/
  colorWriteEnabled : Bool
  /-- NV_PGRAPH_CONTROL_0_ZWRITEENABLE, set by SET_DEPTH_MASK -/
  zWriteEnable : Bool
  /-- NV_PGRAPH_CONTROL_0_STENCIL_WRITE_ENABLE, set by SET_CONTROL0 -/
  stencilWriteEnable : Bool
  frameTime : ℕ
  drawTime : ℕ
  surfaces : List SurfaceBinding
  colorBinding : Option ℕ
  zetaBinding : Option ℕ
  /-- the pointer the next surface_put allocates -/
  nextSurface : ℕ
deriving DecidableEq, Repr

/-- `pg->surface_color` or `pg->surface_zeta` -/
def surfacePart (st : SurfaceCacheState) (color : Bool) : Surface :=
  if color then st.surfaceColor else st.surfaceZeta

/-- a change to `pg->surface_color` or `pg->surface_zeta` -/
def setSurfacePart (st : SurfaceCacheState) (color : Bool) (f : Surface → Surface) : SurfaceCacheState :=
  if color then { st with surfaceColor := f st.surfaceColor } else { st with surfaceZeta := f st.surfaceZeta }

/-- `r->color_binding` or `r->zeta_binding` -/
def binding (st : SurfaceCacheState) (color : Bool) : Option ℕ :=
  if color then st.colorBinding else st.zetaBinding

/-! ## Lookups -/

/-- the surface a pointer points to -/
def findSurface (surfaces : List SurfaceBinding) (id : ℕ) : Option SurfaceBinding :=
  surfaces.find? (·.id = id)

/-- a change to the surface a pointer points to -/
def updateSurface (surfaces : List SurfaceBinding) (id : ℕ) (f : SurfaceBinding → SurfaceBinding) :
    List SurfaceBinding :=
  surfaces.map fun s => if s.id = id then f s else s

/-- a change to the surface a binding points to, if there is one -/
def updateBound (surfaces : List SurfaceBinding) (bound : Option ℕ) (f : SurfaceBinding → SurfaceBinding) :
    List SurfaceBinding :=
  match bound with
  | some id => updateSurface surfaces id f
  | none => surfaces

/-- pgraph_gl_surface_get -/
def surfaceGet (surfaces : List SurfaceBinding) (addr : ℕ) : Option SurfaceBinding :=
  surfaces.find? (·.vramAddr = addr)

/-- pgraph_gl_surface_get_within -/
def surfaceGetWithin (surfaces : List SurfaceBinding) (addr : ℕ) : Option SurfaceBinding :=
  surfaces.find? fun s => decide (addr ≥ s.vramAddr) && decide (addr < s.vramAddr + s.size)

/-- check_surface_overlaps_range -/
def checkSurfaceOverlapsRange (surface : SurfaceBinding) (rangeStart rangeLen : ℕ) : Bool :=
  let surfaceEnd := surface.vramAddr + surface.size
  let rangeEnd := rangeStart + rangeLen
  !(decide (surface.vramAddr ≥ rangeEnd) || decide (rangeStart ≥ surfaceEnd))

/-- check_surfaces_overlap -/
def checkSurfacesOverlap (surface otherSurface : SurfaceBinding) : Bool :=
  checkSurfaceOverlapsRange surface otherSurface.vramAddr otherSurface.size

/-- check_surface_compatibility -/
def checkSurfaceCompatibility (s1 s2 : SurfaceBinding) (strict : Bool) : Bool :=
  let formatCompatible := s1.color == s2.color && s1.fmt.glAttachment == s2.fmt.glAttachment &&
    s1.fmt.glInternalFormat == s2.fmt.glInternalFormat && s1.pitch == s2.pitch
  if !formatCompatible then false
  else if !strict then decide (s1.width ≥ s2.width) && decide (s1.height ≥ s2.height)
  else s1.width == s2.width && s1.height == s2.height

/-! ## Binding and evicting -/

/-- pgraph_gl_unbind_surface -/
def unbindSurface (st : SurfaceCacheState) (color : Bool) : SurfaceCacheState :=
  if color then { st with colorBinding := none } else { st with zetaBinding := none }

/-- pgraph_gl_surface_invalidate; `none` where an assert fails: a bound surface is invalidated only while its
`buffer_dirty` is set -/
def surfaceInvalidate (st : SurfaceCacheState) (id : ℕ) : Option SurfaceCacheState := do
  let st ← if st.colorBinding = some id then
      if st.surfaceColor.bufferDirty then some (unbindSurface st true) else none
    else some st
  let st ← if st.zetaBinding = some id then
      if st.surfaceZeta.bufferDirty then some (unbindSurface st false) else none
    else some st
  some { st with surfaces := st.surfaces.filter (·.id ≠ id) }

/-- invalidate_overlapping_surfaces: every surface that overlaps `surface`, in list order -/
def invalidateOverlappingSurfaces (st : SurfaceCacheState) (surface : SurfaceBinding) : Option SurfaceCacheState :=
  st.surfaces.foldlM
    (fun st otherSurface =>
      if checkSurfacesOverlap surface otherSurface then surfaceInvalidate st otherSurface.id else some st) st

/-- surface_put: the surface, with a new pointer, goes to the tail of the list once the surfaces it overlaps are
gone -/
def surfacePut (st : SurfaceCacheState) (addr : ℕ) (surfaceIn : SurfaceBinding) :
    Option (SurfaceCacheState × SurfaceBinding) :=
  if (surfaceGet st.surfaces addr).isSome then none
  else do
    let st ← invalidateOverlappingSurfaces st surfaceIn
    let surfaceOut := { surfaceIn with id := st.nextSurface }
    some ({ st with surfaces := st.surfaces ++ [surfaceOut], nextSurface := st.nextSurface + 1 }, surfaceOut)

/-- surface_evict_old -/
def surfaceAgeLimit : ℕ := 5

/-- surface_evict_old: every surface not used for `surface_age_limit` frames -/
def surfaceEvictOld (st : SurfaceCacheState) : Option SurfaceCacheState :=
  st.surfaces.foldlM
    (fun st s => if st.frameTime - s.frameTime ≥ surfaceAgeLimit then surfaceInvalidate st s.id else some st) st

/-! ## Binding entries -/

/-- surface_get_dimensions -/
def surfaceGetDimensions (st : SurfaceCacheState) : ℕ × ℕ :=
  if st.surfaceType = nv097SetSurfaceFormatTypeSwizzle then
    (2 ^ st.surfaceShape.logWidth, 2 ^ st.surfaceShape.logHeight)
  else (st.surfaceShape.clipWidth, st.surfaceShape.clipHeight)

/-- pgraph_apply_anti_aliasing_factor; `none` where it asserts -/
def pgraphApplyAntiAliasingFactor (antiAliasing width height : ℕ) : Option (ℕ × ℕ) :=
  if antiAliasing = nv097SetSurfaceFormatAntiAliasingCenter1 then some (width, height)
  else if antiAliasing = nv097SetSurfaceFormatAntiAliasingCenterCorner2 then some (width * 2, height)
  else if antiAliasing = nv097SetSurfaceFormatAntiAliasingSquareOffset4 then some (width * 2, height * 2)
  else none

/-- the format of the color or zeta surface -/
def surfaceFormat (st : SurfaceCacheState) (color : Bool) : Option SurfaceFormatInfo :=
  if color then kelvinSurfaceColorFormatGlMap st.surfaceShape.colorFormat
  else if st.surfaceShape.zFormat then kelvinSurfaceZetaFloatFormatGlMap st.surfaceShape.zetaFormat
  else kelvinSurfaceZetaFixedFormatGlMap st.surfaceShape.zetaFormat

/-- the shape of an entry: the color binding's for a zeta entry while a color surface is bound -/
def entryShape (st : SurfaceCacheState) (color : Bool) : Option SurfaceShape :=
  match color, st.colorBinding with
  | false, some id => (findSurface st.surfaces id).map (·.shape)
  | _, _ => some st.surfaceShape

/-- populate_surface_binding_entry_sized; `none` where an assert fails -/
def populateSurfaceBindingEntrySized (st : SurfaceCacheState) (color : Bool) (width height : ℕ) :
    Option SurfaceBinding := do
  let surface := surfacePart st color
  let dma := if color then st.dmaColor else st.dmaZeta
  let fmt ← surfaceFormat st color
  if dma.dmaClass = nvDmaInMemoryClass ∧ surface.offset ≤ dma.limit ∧
      surface.offset + surface.pitch * height ≤ dma.limit + 1 ∧ surface.pitch % fmt.bytesPerPixel = 0 ∧
      dma.address < 2 ^ 27 then
    let shape ← entryShape st color
    some
      { id := 0, shape, fmt, color, swizzle := st.surfaceType = nv097SetSurfaceFormatTypeSwizzle,
        vramAddr := dma.address + surface.offset, width, height, pitch := surface.pitch,
        size := height * max surface.pitch (width * fmt.bytesPerPixel), uploadPending := true, drawDirty := false,
        frameTime := st.frameTime, drawTime := st.drawTime, cleared := false }
  else none

/-- the dimensions populate_surface_binding_entry gives an entry: the registers' (with the anti-aliasing factor and,
for a linear surface, the clip offset), or the bound color surface's for a zeta entry -/
def entryDimensions (st : SurfaceCacheState) (color : Bool) : Option (ℕ × ℕ) :=
  match color, st.colorBinding with
  | false, some id => (findSurface st.surfaces id).map fun s => (s.width, s.height)
  | _, _ => do
    let (width, height) := surfaceGetDimensions st
    let (width, height) ← pgraphApplyAntiAliasingFactor st.surfaceShape.antiAliasing width height
    if st.surfaceType ≠ nv097SetSurfaceFormatTypeSwizzle then
      some (width + st.surfaceShape.clipX, height + st.surfaceShape.clipY)
    else some (width, height)

/-- populate_surface_binding_entry -/
def populateSurfaceBindingEntry (st : SurfaceCacheState) (color : Bool) : Option SurfaceBinding := do
  let (width, height) ← entryDimensions st color
  populateSurfaceBindingEntrySized st color width height

/-! ## Updating a part -/

/-- the last test of `is_compatible` for a zeta surface: the dimensions of the bound color surface, if there is one -/
def matchesColorBinding (st : SurfaceCacheState) (found : SurfaceBinding) : Option Bool :=
  match st.colorBinding with
  | some id => (findSurface st.surfaces id).map fun colorSurface =>
    found.width == colorSurface.width && found.height == colorSurface.height
  | none => some true

/-- `is_compatible` for the surface update_surface_part found at the entry's address; `none` where an assert
fails -/
def foundIsCompatible (st : SurfaceCacheState) (color : Bool) (entry found : SurfaceBinding) : Option Bool :=
  if entry.swizzle && st.clearing then none
  else do
    let isCompatible := checkSurfaceCompatibility found entry false
    -- a surface migrates between swizzled and linear only when cleared, and at the same size
    let isCompatible := if found.swizzle ≠ entry.swizzle then
        isCompatible && ((st.clearing || found.cleared) && checkSurfaceCompatibility found entry true)
      else isCompatible
    -- a larger color surface must not overlap where the zeta surface would go
    let isCompatible ← if isCompatible && color && !checkSurfaceCompatibility found entry true then do
        let zetaEntry ← populateSurfaceBindingEntrySized st (!color) found.width found.height
        let colorEnd := found.vramAddr + found.size
        let zetaEnd := zetaEntry.vramAddr + zetaEntry.size
        some (isCompatible && (decide (found.vramAddr ≥ zetaEnd) || decide (zetaEntry.vramAddr ≥ colorEnd)))
      else some isCompatible
    if isCompatible && !color then (matchesColorBinding st found).map (isCompatible && ·) else some isCompatible

/-- the zeta `buffer_dirty` after a new color surface: set when the bound zeta surface has other dimensions -/
def zetaDirtyAfterCreate (st : SurfaceCacheState) (entry : SurfaceBinding) : Option SurfaceCacheState :=
  match st.zetaBinding with
  | some id => do
    let zeta ← findSurface st.surfaces id
    if zeta.width ≠ entry.width ∨ zeta.height ≠ entry.height then
      some { st with surfaceZeta := { st.surfaceZeta with bufferDirty := true } }
    else some st
  | none => some st

/-- the surface found at the entry's address may be the other part's target: it is unbound -/
def unbindFoundOther (st : SurfaceCacheState) (color : Bool) (found : Option SurfaceBinding) : SurfaceCacheState :=
  match found with
  | some f => if binding st (!color) = some f.id then unbindSurface st (!color) else st
  | none => st

/-- the surface found is reused when it is compatible, which for a color surface makes the zeta target dirty;
otherwise it is invalidated -/
def reuseFound (st : SurfaceCacheState) (color : Bool) (entry : SurfaceBinding) :
    Option SurfaceBinding → Option (SurfaceCacheState × Option SurfaceBinding)
  | none => some (st, none)
  | some f => do
    let isCompatible ← foundIsCompatible st color entry f
    if isCompatible then
      some ({ st with surfaceZeta := { st.surfaceZeta with bufferDirty := st.surfaceZeta.bufferDirty || color } },
        some f)
    else do
      let st ← surfaceInvalidate st f.id
      some (st, none)

/-- a new surface for the entry; a new color surface makes a bound zeta target of other dimensions dirty -/
def createSurface (st : SurfaceCacheState) (color : Bool) (entry : SurfaceBinding) :
    Option (SurfaceCacheState × SurfaceBinding) := do
  let put ← surfacePut st entry.vramAddr entry
  let st ← if color then zetaDirtyAfterCreate put.1 entry else some put.1
  some (st, put.2)

/-- `r->color_binding` or `r->zeta_binding` set to a surface -/
def bindPart (st : SurfaceCacheState) (color : Bool) (id : ℕ) : SurfaceCacheState :=
  if color then { st with colorBinding := some id } else { st with zetaBinding := some id }

/-- the upload branch of update_surface_part, after the part is unbound: reuse the surface at the entry's address if
it is compatible, create one otherwise, and bind it -/
def bindSurfacePart (st : SurfaceCacheState) (color : Bool) (entry : SurfaceBinding) : Option SurfaceCacheState := do
  let found := surfaceGet st.surfaces entry.vramAddr
  let st := unbindFoundOther st color found
  let reused ← reuseFound st color entry found
  -- the surface reused, or a new one
  let bound ← reused.2.elim (createSurface reused.1 color entry) fun f => some (reused.1, f)
  some (setSurfacePart (bindPart bound.1 color bound.2.id) color fun s => { s with bufferDirty := false })

/-- the upload branch of update_surface_part, taken when the part's registers changed -/
def rebindIfDirty (st : SurfaceCacheState) (upload color : Bool) (entry : SurfaceBinding) :
    Option SurfaceCacheState :=
  if upload && (surfacePart st color).bufferDirty then bindSurfacePart (unbindSurface st color) color entry
  else some st

/-- the end of update_surface_part outside an upload: a part with draws pending stops being draw-dirty -/
def clearDrawDirty (st : SurfaceCacheState) (upload color : Bool) : SurfaceCacheState :=
  if !upload && (surfacePart st color).drawDirty then
    setSurfacePart st color fun s => { s with writeEnabledCache := false, drawDirty := false }
  else st

/-- update_surface_part; `none` where an assert fails -/
def updateSurfacePart (st : SurfaceCacheState) (upload color : Bool) : Option SurfaceCacheState := do
  let entry ← populateSurfaceBindingEntry st color
  let st ← rebindIfDirty st upload color entry
  some (clearDrawDirty st upload color)

/-! ## Updating the surfaces -/

/-- framebuffer_dirty -/
def framebufferDirty (st : SurfaceCacheState) : Bool :=
  st.surfaceShape ≠ st.lastSurfaceShape && !(st.surfaceShape.colorFormat = 0 && st.surfaceShape.zetaFormat = 0)

/-- a part is updated only when the caller writes it -/
def updateIfWritten (st : SurfaceCacheState) (write upload color : Bool) : Option SurfaceCacheState :=
  if write then updateSurfacePart st upload color else some st

/-- the start of the upload branch of pgraph_gl_surface_update: a changed shape makes both parts dirty, and a dirty
color part is unbound -/
def prepareUpload (st : SurfaceCacheState) : SurfaceCacheState :=
  let st := if framebufferDirty st then
      { st with
        lastSurfaceShape := st.surfaceShape
        surfaceColor := { st.surfaceColor with bufferDirty := true }
        surfaceZeta := { st.surfaceZeta with bufferDirty := true } }
    else st
  if st.surfaceColor.bufferDirty then unbindSurface st true else st

/-- a dirty zeta part is unbound, after the color part is updated -/
def unbindDirtyZeta (st : SurfaceCacheState) : SurfaceCacheState :=
  if st.surfaceZeta.bufferDirty then unbindSurface st false else st

/-- the upload branch of pgraph_gl_surface_update -/
def uploadSurfaces (st : SurfaceCacheState) (colorWrite zetaWrite : Bool) : Option SurfaceCacheState := do
  let st ← updateIfWritten (prepareUpload st) colorWrite true true
  updateIfWritten (unbindDirtyZeta st) zetaWrite true false

/-- the other branch of pgraph_gl_surface_update: a part with draws pending stops being draw-dirty -/
def downloadSurfaces (st : SurfaceCacheState) (colorWrite zetaWrite : Bool) : Option SurfaceCacheState := do
  let st ← updateIfWritten st ((colorWrite || st.surfaceColor.writeEnabledCache) && st.surfaceColor.drawDirty) false
    true
  updateIfWritten st ((zetaWrite || st.surfaceZeta.writeEnabledCache) && st.surfaceZeta.drawDirty) false false

/-- the two branches of pgraph_gl_surface_update -/
def updateParts (st : SurfaceCacheState) (upload colorWrite zetaWrite : Bool) : Option SurfaceCacheState :=
  if upload then uploadSurfaces st colorWrite zetaWrite else downloadSurfaces st colorWrite zetaWrite

/-- what pgraph_gl_surface_update does to a bound surface after the update -/
def touchBound (frameTime drawTime : ℕ) (upload swizzle : Bool) (s : SurfaceBinding) : SurfaceBinding :=
  if upload then { s with frameTime, uploadPending := false, drawTime, swizzle } else { s with frameTime }

/-- the sanity check that bound color and zeta surfaces have equal dimensions; `none` where it fails -/
def checkBoundDimensions (st : SurfaceCacheState) : Option Unit :=
  match st.colorBinding, st.zetaBinding with
  | some c, some z => do
    let colorSurface ← findSurface st.surfaces c
    let zetaSurface ← findSurface st.surfaces z
    if colorSurface.width = zetaSurface.width ∧ colorSurface.height = zetaSurface.height then some () else none
  | _, _ => some ()

/-- the end of the update for the bound surfaces: the frame time, and after an upload the draw time and the surface
type -/
def touchBoundSurfaces (st : SurfaceCacheState) (upload : Bool) : SurfaceCacheState :=
  let st := if upload then { st with drawTime := st.drawTime + 1 } else st
  let swizzle := st.surfaceType = nv097SetSurfaceFormatTypeSwizzle
  let touch := touchBound st.frameTime st.drawTime upload swizzle
  { st with surfaces := updateBound (updateBound st.surfaces st.colorBinding touch) st.zetaBinding touch }

/-- pgraph_zeta_write_enabled: a depth or a stencil write -/
def pgraphZetaWriteEnabled (st : SurfaceCacheState) : Bool := st.zWriteEnable || st.stencilWriteEnable

/-- pgraph_gl_surface_update; `none` where an assert fails -/
def pgraphGlSurfaceUpdate (st : SurfaceCacheState) (upload colorWrite zetaWrite : Bool) :
    Option SurfaceCacheState := do
  let st := { st with surfaceShape := { st.surfaceShape with zFormat := st.setupRasterZFormat } }
  let colorWrite := colorWrite && (st.clearing || st.colorWriteEnabled)
  let zetaWrite := zetaWrite && (st.clearing || pgraphZetaWriteEnabled st)
  let st ← updateParts st upload colorWrite zetaWrite
  let st := touchBoundSurfaces st upload
  checkBoundDimensions st
  surfaceEvictOld st

/-- pgraph_gl_set_surface_dirty -/
def pgraphGlSetSurfaceDirty (st : SurfaceCacheState) (color zeta : Bool) : SurfaceCacheState :=
  let color := color && st.colorWriteEnabled
  let zeta := zeta && pgraphZetaWriteEnabled st
  let mark (dirty : Bool) (s : SurfaceBinding) : SurfaceBinding :=
    { s with drawDirty := s.drawDirty || dirty, frameTime := st.frameTime, cleared := false }
  { st with
    surfaceColor := { st.surfaceColor with drawDirty := st.surfaceColor.drawDirty || color }
    surfaceZeta := { st.surfaceZeta with drawDirty := st.surfaceZeta.drawDirty || zeta }
    surfaces := updateBound (updateBound st.surfaces st.colorBinding (mark color)) st.zetaBinding (mark zeta) }

/-- pgraph_gl_clear_surface: an update with `clearing` set, then the surfaces are draw-dirty and marked cleared when
the clear covers them -/
def pgraphGlClearSurface (st : SurfaceCacheState) (writeColor writeZeta fullClear : Bool) :
    Option SurfaceCacheState := do
  let st ← pgraphGlSurfaceUpdate { st with clearing := true } true writeColor writeZeta
  let st := pgraphGlSetSurfaceDirty st writeColor writeZeta
  let st := { st with
    surfaces := updateBound (updateBound st.surfaces st.colorBinding fun s => { s with cleared := fullClear && writeColor })
      st.zetaBinding fun s => { s with cleared := fullClear && writeZeta } }
  some { st with clearing := false }

/-- flush_surfaces -/
def flushSurfaces (st : SurfaceCacheState) : Option SurfaceCacheState :=
  let st := { st with
    surfaceColor := { st.surfaceColor with drawDirty := false }
    surfaceZeta := { st.surfaceZeta with drawDirty := false }
    lastSurfaceShape := zeroSurfaceShape }
  let st := unbindSurface (unbindSurface st true) false
  st.surfaces.foldlM (fun st s => surfaceInvalidate st s.id) st

/-- pgraph_gl_surface_flush -/
def pgraphGlSurfaceFlush (st : SurfaceCacheState) : Option SurfaceCacheState := do
  let updateSurface := st.colorBinding.isSome || st.zetaBinding.isSome
  let st ← flushSurfaces st
  if updateSurface then pgraphGlSurfaceUpdate st true true true else some st

/-! ## Methods and runs -/

/-- what the guest does between draws, as the methods that reach the surface cache -/
inductive SurfaceEvent
  /-- a draw or another caller of pgraph_gl_surface_update -/
  | surfaceUpdate (upload colorWrite zetaWrite : Bool)
  | setSurfaceDirty (color zeta : Bool)
  | clearSurface (writeColor writeZeta fullClear : Bool)
  | surfaceFlush
  /-- FLIP_INCREMENT_WRITE: the next frame -/
  | flipIncrementWrite
  | setContextDmaColor (dma : DMAObject)
  | setContextDmaZeta (dma : DMAObject)
  | setSurfaceClipHorizontal (x width : ℕ)
  | setSurfaceClipVertical (y height : ℕ)
  | setSurfaceFormat (colorFormat zetaFormat antiAliasing logWidth logHeight surfaceType : ℕ)
  | setSurfacePitch (colorPitch zetaPitch : ℕ)
  | setSurfaceColorOffset (offset : ℕ)
  | setSurfaceZetaOffset (offset : ℕ)
  | setControl0 (zFormat stencilWriteEnable : Bool)
  | setColorMask (enabled : Bool)
  | setDepthMask (enabled : Bool)

/-- the method handlers (hw/xbox/nv2a/pgraph/pgraph.c) and the renderer entry points; most handlers first let pending
draws land with a non-upload update -/
def surfaceStep (st : SurfaceCacheState) : SurfaceEvent → Option SurfaceCacheState
  | .surfaceUpdate upload colorWrite zetaWrite => pgraphGlSurfaceUpdate st upload colorWrite zetaWrite
  | .setSurfaceDirty color zeta => some (pgraphGlSetSurfaceDirty st color zeta)
  | .clearSurface writeColor writeZeta fullClear => pgraphGlClearSurface st writeColor writeZeta fullClear
  | .surfaceFlush => pgraphGlSurfaceFlush st
  | .flipIncrementWrite => some { st with frameTime := st.frameTime + 1 }
  | .setContextDmaColor dma => do
    let st ← pgraphGlSurfaceUpdate st false true true
    some { st with dmaColor := dma, surfaceColor := { st.surfaceColor with bufferDirty := true } }
  | .setContextDmaZeta dma => some { st with dmaZeta := dma, surfaceZeta := { st.surfaceZeta with bufferDirty := true } }
  | .setSurfaceClipHorizontal x width => do
    let st ← pgraphGlSurfaceUpdate st false true true
    some { st with surfaceShape := { st.surfaceShape with clipX := x, clipWidth := width } }
  | .setSurfaceClipVertical y height => do
    let st ← pgraphGlSurfaceUpdate st false true true
    some { st with surfaceShape := { st.surfaceShape with clipY := y, clipHeight := height } }
  | .setSurfaceFormat colorFormat zetaFormat antiAliasing logWidth logHeight surfaceType => do
    let st ← pgraphGlSurfaceUpdate st false true true
    let st := { st with
      surfaceShape := { st.surfaceShape with colorFormat, zetaFormat, antiAliasing, logWidth, logHeight } }
    if surfaceType ≠ st.surfaceType then
      some { st with
        surfaceType
        surfaceColor := { st.surfaceColor with bufferDirty := true }
        surfaceZeta := { st.surfaceZeta with bufferDirty := true } }
    else some st
  | .setSurfacePitch colorPitch zetaPitch => do
    let st ← pgraphGlSurfaceUpdate st false true true
    some { st with
      surfaceColor := { st.surfaceColor with
        bufferDirty := st.surfaceColor.bufferDirty || st.surfaceColor.pitch ≠ colorPitch, pitch := colorPitch }
      surfaceZeta := { st.surfaceZeta with
        bufferDirty := st.surfaceZeta.bufferDirty || st.surfaceZeta.pitch ≠ zetaPitch, pitch := zetaPitch } }
  | .setSurfaceColorOffset offset => do
    let st ← pgraphGlSurfaceUpdate st false true true
    some { st with surfaceColor := { st.surfaceColor with
      bufferDirty := st.surfaceColor.bufferDirty || st.surfaceColor.offset ≠ offset, offset } }
  | .setSurfaceZetaOffset offset => do
    let st ← pgraphGlSurfaceUpdate st false true true
    some { st with surfaceZeta := { st.surfaceZeta with
      bufferDirty := st.surfaceZeta.bufferDirty || st.surfaceZeta.offset ≠ offset, offset } }
  | .setControl0 zFormat stencilWriteEnable => do
    let st ← pgraphGlSurfaceUpdate st false true true
    some { st with stencilWriteEnable, setupRasterZFormat := zFormat }
  | .setColorMask enabled =>
    some { st with surfaceColor := { st.surfaceColor with
      writeEnabledCache := st.surfaceColor.writeEnabledCache || st.colorWriteEnabled }, colorWriteEnabled := enabled }
  | .setDepthMask enabled =>
    some { st with surfaceZeta := { st.surfaceZeta with
      writeEnabledCache := st.surfaceZeta.writeEnabledCache || pgraphZetaWriteEnabled st }, zWriteEnable := enabled }

/-- a run of events; `none` where an assert fails -/
def runSurfaceEvents (st : SurfaceCacheState) (events : List SurfaceEvent) : Option SurfaceCacheState :=
  events.foldlM surfaceStep st

/-! ## The invariant -/

/-- two surfaces whose ranges do not overlap -/
def RangesApart (s t : SurfaceBinding) : Prop :=
  s.vramAddr + s.size ≤ t.vramAddr ∨ t.vramAddr + t.size ≤ s.vramAddr

/-- what the invariant reads of a surface: its pointer, its range and its dimensions -/
def footprint (s : SurfaceBinding) : ℕ × ℕ × ℕ × ℕ × ℕ := (s.id, s.vramAddr, s.size, s.width, s.height)

/-- the surface cache between methods: distinct pointers, all below the next one, distinct addresses, disjoint
ranges, and bindings that are distinct surfaces of the list -/
structure SurfaceInv (st : SurfaceCacheState) : Prop where
  ids_nodup : (st.surfaces.map (·.id)).Nodup
  id_lt : ∀ s ∈ st.surfaces, s.id < st.nextSurface
  addrs_nodup : (st.surfaces.map (·.vramAddr)).Nodup
  apart : st.surfaces.Pairwise RangesApart
  color_mem : ∀ c, st.colorBinding = some c → c ∈ st.surfaces.map (·.id)
  zeta_mem : ∀ z, st.zetaBinding = some z → z ∈ st.surfaces.map (·.id)
  bindings_ne : ∀ c, st.colorBinding = some c → st.zetaBinding ≠ some c

/-- bound color and zeta surfaces have equal dimensions -/
def BoundDims (st : SurfaceCacheState) : Prop :=
  ∀ c ∈ st.surfaces, ∀ z ∈ st.surfaces, st.colorBinding = some c.id → st.zetaBinding = some z.id →
    c.width = z.width ∧ c.height = z.height

section Footprint

variable {st st' : SurfaceCacheState}

theorem map_id_eq_of_footprint {l l' : List SurfaceBinding} (h : l'.map footprint = l.map footprint) :
    l'.map (·.id) = l.map (·.id) := by
  have := congrArg (List.map Prod.fst) h
  simpa only [List.map_map, Function.comp_def, footprint] using this

theorem map_vramAddr_eq_of_footprint {l l' : List SurfaceBinding} (h : l'.map footprint = l.map footprint) :
    l'.map (·.vramAddr) = l.map (·.vramAddr) := by
  have := congrArg (List.map fun f => f.2.1) h
  simpa only [List.map_map, Function.comp_def, footprint] using this

/-- a surface of a list with the same footprints has a twin in the other list -/
theorem exists_footprint_eq {l l' : List SurfaceBinding} (h : l'.map footprint = l.map footprint) {s : SurfaceBinding}
    (hs : s ∈ l') : ∃ t ∈ l, footprint t = footprint s := by
  have : footprint s ∈ l.map footprint := h ▸ List.mem_map_of_mem hs
  simpa using this

theorem pairwise_rangesApart_iff (l : List SurfaceBinding) :
    l.Pairwise RangesApart ↔
      (l.map footprint).Pairwise fun f g => f.2.1 + f.2.2.1 ≤ g.2.1 ∨ g.2.1 + g.2.2.1 ≤ f.2.1 := by
  rw [List.pairwise_map]
  rfl

/-- the invariant reads only the footprints, the bindings and the next pointer -/
theorem SurfaceInv.of_footprint (h : SurfaceInv st) (hfp : st'.surfaces.map footprint = st.surfaces.map footprint)
    (hc : st'.colorBinding = st.colorBinding) (hz : st'.zetaBinding = st.zetaBinding)
    (hn : st'.nextSurface = st.nextSurface) : SurfaceInv st' where
  ids_nodup := map_id_eq_of_footprint hfp ▸ h.ids_nodup
  id_lt s hs := by
    obtain ⟨t, ht, hts⟩ := exists_footprint_eq hfp hs
    have hid : t.id = s.id := congrArg Prod.fst hts
    rw [hn, ← hid]
    exact h.id_lt t ht
  addrs_nodup := map_vramAddr_eq_of_footprint hfp ▸ h.addrs_nodup
  apart := by
    rw [pairwise_rangesApart_iff, hfp, ← pairwise_rangesApart_iff]
    exact h.apart
  color_mem c hcb := map_id_eq_of_footprint hfp ▸ h.color_mem c (hc ▸ hcb)
  zeta_mem z hzb := map_id_eq_of_footprint hfp ▸ h.zeta_mem z (hz ▸ hzb)
  bindings_ne c hcb := hz ▸ h.bindings_ne c (hc ▸ hcb)

theorem BoundDims.of_footprint (h : BoundDims st) (hfp : st'.surfaces.map footprint = st.surfaces.map footprint)
    (hc : st'.colorBinding = st.colorBinding) (hz : st'.zetaBinding = st.zetaBinding) : BoundDims st' := by
  intro c hcm z hzm hcb hzb
  obtain ⟨c0, hc0, hfc⟩ := exists_footprint_eq hfp hcm
  obtain ⟨z0, hz0, hfz⟩ := exists_footprint_eq hfp hzm
  simp only [footprint, Prod.mk.injEq] at hfc hfz
  have := h c0 hc0 z0 hz0 (by rw [hfc.1, ← hc, hcb]) (by rw [hfz.1, ← hz, hzb])
  rw [← hfc.2.2.2.1, ← hfc.2.2.2.2, ← hfz.2.2.2.1, ← hfz.2.2.2.2]
  exact this

/-- a change to surfaces that keeps their footprints keeps the footprint list -/
theorem map_footprint_updateSurface (l : List SurfaceBinding) (id : ℕ) {f : SurfaceBinding → SurfaceBinding}
    (hf : ∀ s, footprint (f s) = footprint s) : (updateSurface l id f).map footprint = l.map footprint := by
  unfold updateSurface
  rw [List.map_map]
  apply List.map_congr_left
  intro s _
  simp only [Function.comp_apply]
  split_ifs
  · exact hf s
  · rfl

theorem map_footprint_updateBound (l : List SurfaceBinding) (bound : Option ℕ) {f : SurfaceBinding → SurfaceBinding}
    (hf : ∀ s, footprint (f s) = footprint s) : (updateBound l bound f).map footprint = l.map footprint := by
  cases bound with
  | none => rfl
  | some id => exact map_footprint_updateSurface l id hf

end Footprint

/-! ### Unbinding and invalidating -/

section Invalidate

variable {st st' : SurfaceCacheState}

theorem unbindSurface_inv (h : SurfaceInv st) (color : Bool) : SurfaceInv (unbindSurface st color) := by
  cases color
  · exact ⟨h.ids_nodup, h.id_lt, h.addrs_nodup, h.apart, h.color_mem, by simp [unbindSurface], by
      simp [unbindSurface]⟩
  · exact ⟨h.ids_nodup, h.id_lt, h.addrs_nodup, h.apart, by simp [unbindSurface], h.zeta_mem, by
      simp [unbindSurface]⟩

/-- with one part unbound there is no pair to compare -/
theorem unbindSurface_boundDims (st : SurfaceCacheState) (color : Bool) : BoundDims (unbindSurface st color) := by
  intro c hc z hz hcb hzb
  cases color
  · simp [unbindSurface] at hzb
  · simp [unbindSurface] at hcb

/-- what a successful invalidation does: the surface leaves the list and the bindings to it are cleared, each only
while its part's `buffer_dirty` is set -/
theorem surfaceInvalidate_eq_some {id : ℕ} (h : surfaceInvalidate st id = some st') :
    (st.colorBinding = some id → st.surfaceColor.bufferDirty = true) ∧
      (st.zetaBinding = some id → st.surfaceZeta.bufferDirty = true) ∧
      st' = { st with
        surfaces := st.surfaces.filter (·.id ≠ id)
        colorBinding := if st.colorBinding = some id then none else st.colorBinding
        zetaBinding := if st.zetaBinding = some id then none else st.zetaBinding } := by
  by_cases hc : st.colorBinding = some id <;> by_cases hz : st.zetaBinding = some id <;>
    cases hcd : st.surfaceColor.bufferDirty <;> cases hzd : st.surfaceZeta.bufferDirty <;>
    simp [surfaceInvalidate, unbindSurface, hc, hz, hcd, hzd] at h ⊢ <;>
    exact h.symm

/-- a pointer other than the one removed stays in the list -/
theorem mem_map_id_filter {l : List SurfaceBinding} {c id : ℕ} (hc : c ∈ l.map (·.id)) (hne : c ≠ id) :
    c ∈ (l.filter (·.id ≠ id)).map (·.id) := by
  obtain ⟨s, hs, rfl⟩ := List.mem_map.mp hc
  exact List.mem_map_of_mem (List.mem_filter.mpr ⟨hs, by simpa using hne⟩)

theorem surfaceInvalidate_inv (h : SurfaceInv st) {id : ℕ} (hinv : surfaceInvalidate st id = some st') :
    SurfaceInv st' := by
  obtain ⟨-, -, rfl⟩ := surfaceInvalidate_eq_some hinv
  have hsub : (st.surfaces.filter (·.id ≠ id)).Sublist st.surfaces := List.filter_sublist
  refine ⟨h.ids_nodup.sublist (hsub.map _), fun s hs => h.id_lt s (hsub.subset hs),
    h.addrs_nodup.sublist (hsub.map _), h.apart.sublist hsub, ?_, ?_, ?_⟩
  · intro c hcb
    dsimp only at hcb ⊢
    split_ifs at hcb with hc
    exact mem_map_id_filter (h.color_mem c hcb) fun hci => hc (hci ▸ hcb)
  · intro z hzb
    dsimp only at hzb ⊢
    split_ifs at hzb with hz
    exact mem_map_id_filter (h.zeta_mem z hzb) fun hzi => hz (hzi ▸ hzb)
  · intro c hcb
    dsimp only at hcb ⊢
    split_ifs at hcb ⊢
    · simp
    · exact h.bindings_ne c hcb

theorem surfaceInvalidate_boundDims (h : BoundDims st) {id : ℕ} (hinv : surfaceInvalidate st id = some st') :
    BoundDims st' := by
  obtain ⟨-, -, rfl⟩ := surfaceInvalidate_eq_some hinv
  intro c hc z hz hcb hzb
  dsimp only at hc hz hcb hzb
  simp only [List.mem_filter] at hc hz
  split_ifs at hcb hzb
  exact h c hc.1 z hz.1 hcb hzb

end Invalidate

/-! ### Runs of invalidations -/

/-- `st'` is `st` with surfaces invalidated: a sublist of the surfaces, each binding kept or cleared, and nothing else
changed -/
structure Evicts (st st' : SurfaceCacheState) : Prop where
  sublist : st'.surfaces.Sublist st.surfaces
  color : st'.colorBinding = st.colorBinding ∨ st'.colorBinding = none
  zeta : st'.zetaBinding = st.zetaBinding ∨ st'.zetaBinding = none
  rest : { st' with surfaces := st.surfaces, colorBinding := st.colorBinding, zetaBinding := st.zetaBinding } = st

theorem Evicts.refl (st : SurfaceCacheState) : Evicts st st :=
  ⟨List.Sublist.refl _, Or.inl rfl, Or.inl rfl, rfl⟩

theorem Evicts.trans {st st' st'' : SurfaceCacheState} (h1 : Evicts st st') (h2 : Evicts st' st'') :
    Evicts st st'' where
  sublist := h2.sublist.trans h1.sublist
  color := by rcases h2.color with h | h <;> simp [h, h1.color]
  zeta := by rcases h2.zeta with h | h <;> simp [h, h1.zeta]
  rest := by
    conv_rhs => rw [← h1.rest, ← h2.rest]

theorem Evicts.nextSurface {st st' : SurfaceCacheState} (h : Evicts st st') : st'.nextSurface = st.nextSurface :=
  by conv_rhs => rw [← h.rest]

theorem Evicts.surfaceColor {st st' : SurfaceCacheState} (h : Evicts st st') : st'.surfaceColor = st.surfaceColor :=
  by conv_rhs => rw [← h.rest]

theorem Evicts.surfaceZeta {st st' : SurfaceCacheState} (h : Evicts st st') : st'.surfaceZeta = st.surfaceZeta :=
  by conv_rhs => rw [← h.rest]

theorem surfaceInvalidate_evicts {st st' : SurfaceCacheState} {id : ℕ} (h : surfaceInvalidate st id = some st') :
    Evicts st st' := by
  obtain ⟨-, -, rfl⟩ := surfaceInvalidate_eq_some h
  refine ⟨List.filter_sublist, ?_, ?_, rfl⟩ <;> dsimp only <;> split_ifs <;> simp

/-- the invariant, the dimensions of the bound surfaces, and eviction from a start state -/
def InvalidatesFrom (st₀ st : SurfaceCacheState) : Prop := SurfaceInv st ∧ BoundDims st ∧ Evicts st₀ st

theorem InvalidatesFrom.invalidate {st₀ st st' : SurfaceCacheState} (h : InvalidatesFrom st₀ st) {id : ℕ}
    (hinv : surfaceInvalidate st id = some st') : InvalidatesFrom st₀ st' :=
  ⟨surfaceInvalidate_inv h.1 hinv, surfaceInvalidate_boundDims h.2.1 hinv,
    h.2.2.trans (surfaceInvalidate_evicts hinv)⟩

/-- a run of invalidations, each made or skipped by a test, keeps the invariant and only evicts -/
theorem foldlM_invalidate (p : SurfaceCacheState → SurfaceBinding → Prop) [∀ st s, Decidable (p st s)]
    (l : List SurfaceBinding) {st₀ st : SurfaceCacheState} (h₀ : SurfaceInv st₀ ∧ BoundDims st₀)
    (h : l.foldlM (fun st s => if p st s then surfaceInvalidate st s.id else some st) st₀ = some st) :
    InvalidatesFrom st₀ st := by
  refine Runs.foldlM_invariant (InvalidatesFrom st₀) (fun s a s' hs hstep => ?_) l
    ⟨h₀.1, h₀.2, Evicts.refl st₀⟩ h
  split_ifs at hstep
  · exact hs.invalidate hstep
  · cases hstep
    exact hs

theorem invalidateOverlappingSurfaces_spec {st st' : SurfaceCacheState} {surface : SurfaceBinding}
    (h₀ : SurfaceInv st ∧ BoundDims st) (h : invalidateOverlappingSurfaces st surface = some st') :
    InvalidatesFrom st st' :=
  foldlM_invalidate (fun _ o => checkSurfacesOverlap surface o = true) st.surfaces h₀ h

theorem surfaceEvictOld_spec {st st' : SurfaceCacheState} (h₀ : SurfaceInv st ∧ BoundDims st)
    (h : surfaceEvictOld st = some st') : InvalidatesFrom st st' :=
  foldlM_invalidate (fun st s => st.frameTime - s.frameTime ≥ surfaceAgeLimit) st.surfaces h₀ h

/-- after invalidate_overlapping_surfaces no surface overlaps the new one: a surface of the list that overlapped it
was removed, and a removed pointer does not come back -/
theorem not_overlap_of_foldlM_invalidate (surface : SurfaceBinding) :
    ∀ (l : List SurfaceBinding) {st st' : SurfaceCacheState},
      l.foldlM (fun st o => if checkSurfacesOverlap surface o then surfaceInvalidate st o.id else some st) st =
        some st' →
      ∀ s ∈ st'.surfaces, ∀ o ∈ l, o.id = s.id → checkSurfacesOverlap surface o = false
  | [], _, _, _, _, _, o, ho, _ => absurd ho List.not_mem_nil
  | a :: l, st, st', h, s, hs, o, ho, hid => by
    rw [List.foldlM_cons] at h
    obtain ⟨st1, h1, h2⟩ := Option.bind_eq_some_iff.mp h
    rcases List.mem_cons.mp ho with rfl | ho
    · -- the first surface: if it overlapped, its pointer left the list and later steps only remove more
      cases hover : checkSurfacesOverlap surface o
      · rfl
      · rw [hover, if_pos rfl] at h1
        have hrest : Evicts st1 st' := Runs.foldlM_invariant (Evicts st1)
          (fun s a s' hs hstep => by
            split_ifs at hstep
            · exact hs.trans (surfaceInvalidate_evicts hstep)
            · cases hstep
              exact hs) l (Evicts.refl st1) h2
        obtain ⟨-, -, rfl⟩ := surfaceInvalidate_eq_some h1
        have hs1 := List.mem_filter.mp (hrest.sublist.subset hs)
        simp [hid] at hs1
    · exact not_overlap_of_foldlM_invalidate surface l h2 s hs o ho hid

/-- a surface that overlaps nothing of the list is apart from it -/
theorem rangesApart_of_not_overlap {surface s : SurfaceBinding} (h : checkSurfacesOverlap surface s = false) :
    RangesApart s surface := by
  simp only [checkSurfacesOverlap, checkSurfaceOverlapsRange, Bool.not_eq_false', Bool.or_eq_true,
    decide_eq_true_eq] at h
  unfold RangesApart
  omega

/-- after invalidate_overlapping_surfaces every surface left is apart from the new one -/
theorem invalidateOverlappingSurfaces_apart {st st' : SurfaceCacheState} {surface : SurfaceBinding}
    (h₀ : SurfaceInv st ∧ BoundDims st) (h : invalidateOverlappingSurfaces st surface = some st') :
    ∀ s ∈ st'.surfaces, RangesApart s surface := by
  intro s hs
  have hsub := (invalidateOverlappingSurfaces_spec h₀ h).2.2.sublist
  exact rangesApart_of_not_overlap
    (not_overlap_of_foldlM_invalidate surface st.surfaces h s hs s (hsub.subset hs) rfl)

/-! ### Putting a surface -/

section Put

variable {st : SurfaceCacheState}

/-- a bound pointer is below the next one -/
theorem SurfaceInv.color_lt (h : SurfaceInv st) {c : ℕ} (hc : st.colorBinding = some c) : c < st.nextSurface := by
  obtain ⟨s, hs, rfl⟩ := List.mem_map.mp (h.color_mem c hc)
  exact h.id_lt s hs

theorem SurfaceInv.zeta_lt (h : SurfaceInv st) {z : ℕ} (hz : st.zetaBinding = some z) : z < st.nextSurface := by
  obtain ⟨s, hs, rfl⟩ := List.mem_map.mp (h.zeta_mem z hz)
  exact h.id_lt s hs

theorem surfaceGet_eq_none {l : List SurfaceBinding} {addr : ℕ} (h : surfaceGet l addr = none) :
    addr ∉ l.map (·.vramAddr) := by
  intro hmem
  obtain ⟨s, hs, rfl⟩ := List.mem_map.mp hmem
  have := List.find?_eq_none.mp h s hs
  simp at this

/-- what a successful surface_put does: the surfaces that overlap the new one are invalidated, and the new one, with
the next pointer, goes to the tail -/
theorem surfacePut_eq_some {addr : ℕ} {surfaceIn : SurfaceBinding} {r : SurfaceCacheState × SurfaceBinding}
    (h₀ : SurfaceInv st ∧ BoundDims st) (h : surfacePut st addr surfaceIn = some r) :
    ∃ st1, InvalidatesFrom st st1 ∧ (∀ s ∈ st1.surfaces, RangesApart s surfaceIn) ∧
      addr ∉ st.surfaces.map (·.vramAddr) ∧ r.2 = { surfaceIn with id := st.nextSurface } ∧
      r.1 = { st1 with surfaces := st1.surfaces ++ [r.2], nextSurface := st.nextSurface + 1 } := by
  unfold surfacePut at h
  split_ifs at h with hget
  obtain ⟨st1, h1, h2⟩ := Option.bind_eq_some_iff.mp h
  have hst1 := invalidateOverlappingSurfaces_spec h₀ h1
  cases h2
  refine ⟨st1, hst1, invalidateOverlappingSurfaces_apart h₀ h1, ?_, ?_, ?_⟩
  · exact surfaceGet_eq_none (Option.not_isSome_iff_eq_none.mp hget)
  · rw [hst1.2.2.nextSurface]
  · rw [hst1.2.2.nextSurface]

/-- surface_put keeps the invariant: the new surface is apart from the surfaces left, its address is new and its
pointer is the next one -/
theorem surfacePut_inv {surfaceIn : SurfaceBinding} {r : SurfaceCacheState × SurfaceBinding}
    (h₀ : SurfaceInv st ∧ BoundDims st) (h : surfacePut st surfaceIn.vramAddr surfaceIn = some r) :
    SurfaceInv r.1 ∧ BoundDims r.1 ∧ r.2 ∈ r.1.surfaces ∧ r.2.id = st.nextSurface ∧
      (∀ s ∈ r.1.surfaces, s ≠ r.2 → s ∈ st.surfaces) ∧
      r.2.width = surfaceIn.width ∧ r.2.height = surfaceIn.height ∧ Evicts st { r.1 with
        surfaces := r.1.surfaces.filter (·.id ≠ r.2.id), nextSurface := st.nextSurface } := by
  obtain ⟨st1, ⟨hinv, hdims, hev⟩, hapart, haddr, hout, hr⟩ := surfacePut_eq_some h₀ h
  obtain ⟨r1, out⟩ := r
  simp only at hout hr
  subst hout hr
  have hn := hev.nextSurface
  -- every pointer left is below the next one, so the new pointer is not among them
  have hfresh : ∀ s ∈ st1.surfaces, s.id ≠ st.nextSurface := fun s hs =>
    Nat.ne_of_lt (by rw [← hn]; exact hinv.id_lt s hs)
  have hnot : st.nextSurface ∉ st1.surfaces.map (·.id) := by
    intro hmem
    obtain ⟨s, hs, hid⟩ := List.mem_map.mp hmem
    exact hfresh s hs hid
  have hfilter : (st1.surfaces ++ [{ surfaceIn with id := st.nextSurface }]).filter (·.id ≠ st.nextSurface) =
      st1.surfaces := by
    rw [List.filter_append, List.filter_eq_self.mpr (by simpa using hfresh)]
    simp
  refine ⟨⟨?_, ?_, ?_, ?_, ?_, ?_, ?_⟩, ?_, by simp, rfl, ?_, rfl, rfl, ?_⟩
  · rw [List.map_append, List.nodup_append]
    refine ⟨hinv.ids_nodup, by simp, ?_⟩
    intro a ha b hb hab
    simp only [List.map_cons, List.map_nil, List.mem_singleton] at hb
    exact hnot (hb ▸ hab ▸ ha)
  · intro s hs
    rcases List.mem_append.mp hs with hs | hs
    · exact Nat.lt_succ_of_lt (hn ▸ hinv.id_lt s hs)
    · simp only [List.mem_singleton] at hs
      simp [hs]
  · rw [List.map_append, List.nodup_append]
    refine ⟨hinv.addrs_nodup, by simp, ?_⟩
    simp only [List.map_cons, List.map_nil, List.mem_singleton]
    intro a ha b hb hab
    subst hb hab
    exact haddr ((hev.sublist.map _).subset ha)
  · rw [List.pairwise_append]
    exact ⟨hinv.apart, List.pairwise_singleton _ _, fun s hs t ht => by
      simp only [List.mem_singleton] at ht
      subst ht
      exact hapart s hs⟩
  · intro c hc
    simp only [List.map_append, List.mem_append]
    exact Or.inl (hinv.color_mem c hc)
  · intro z hz
    simp only [List.map_append, List.mem_append]
    exact Or.inl (hinv.zeta_mem z hz)
  · exact hinv.bindings_ne
  · -- the new surface is bound to neither part, so a bound pair lies among the surfaces left
    intro c hc z hz hcb hzb
    have hc' : c ∈ st1.surfaces := by
      rcases List.mem_append.mp hc with hc | hc
      · exact hc
      · simp only [List.mem_singleton] at hc
        subst hc
        exact absurd (hinv.color_lt hcb) (by simp [hn])
    have hz' : z ∈ st1.surfaces := by
      rcases List.mem_append.mp hz with hz | hz
      · exact hz
      · simp only [List.mem_singleton] at hz
        subst hz
        exact absurd (hinv.zeta_lt hzb) (by simp [hn])
    exact hdims c hc' z hz' hcb hzb
  · intro s hs hne
    rcases List.mem_append.mp hs with hs | hs
    · exact hev.sublist.subset hs
    · exact absurd (List.mem_singleton.mp hs) hne
  · simp only [hfilter]
    convert hev using 2
    rw [hn]

end Put

/-! ### Binding a part -/

section Bind

variable {st st' : SurfaceCacheState}

/-- distinct surfaces have distinct pointers -/
theorem SurfaceInv.eq_of_id_eq (h : SurfaceInv st) {s t : SurfaceBinding} (hs : s ∈ st.surfaces)
    (ht : t ∈ st.surfaces) (hid : s.id = t.id) : s = t :=
  List.inj_on_of_nodup_map h.ids_nodup hs ht hid

theorem findSurface_eq_some {l : List SurfaceBinding} {id : ℕ} {s : SurfaceBinding}
    (h : findSurface l id = some s) : s ∈ l ∧ s.id = id :=
  ⟨List.mem_of_find?_eq_some h, by simpa using List.find?_some h⟩

theorem surfaceGet_eq_some {l : List SurfaceBinding} {addr : ℕ} {s : SurfaceBinding}
    (h : surfaceGet l addr = some s) : s ∈ l ∧ s.vramAddr = addr :=
  ⟨List.mem_of_find?_eq_some h, by simpa using List.find?_some h⟩

theorem unbindFoundOther_inv (h : SurfaceInv st) (color : Bool) (found : Option SurfaceBinding) :
    SurfaceInv (unbindFoundOther st color found) := by
  unfold unbindFoundOther
  split
  · split_ifs
    · exact unbindSurface_inv h _
    · exact h
  · exact h

/-- unbinding the other part touches neither the surfaces nor this part's binding -/
theorem unbindFoundOther_surfaces (st : SurfaceCacheState) (color : Bool) (found : Option SurfaceBinding) :
    (unbindFoundOther st color found).surfaces = st.surfaces ∧
      binding (unbindFoundOther st color found) color = binding st color ∧
      (unbindFoundOther st color found).nextSurface = st.nextSurface := by
  unfold unbindFoundOther
  split
  · split_ifs
    · cases color <;> simp [unbindSurface, binding]
    · simp
  · simp

/-- after it, the other part is not bound to the surface found -/
theorem unbindFoundOther_ne (st : SurfaceCacheState) (color : Bool) (f : SurfaceBinding) :
    binding (unbindFoundOther st color (some f)) (!color) ≠ some f.id := by
  simp only [unbindFoundOther]
  split_ifs with hb
  · cases color <;> simp [unbindSurface, binding]
  · exact hb

/-- the outcome of reuseFound: the surface found, compatible, with the zeta part made dirty by a color update, or no
surface after the one found, if any, is invalidated -/
theorem reuseFound_cases {color : Bool} {entry : SurfaceBinding} {found : Option SurfaceBinding}
    {r : SurfaceCacheState × Option SurfaceBinding} (h₀ : SurfaceInv st ∧ BoundDims st)
    (h : reuseFound st color entry found = some r) :
    (∃ f, found = some f ∧ r.2 = some f ∧ foundIsCompatible st color entry f = some true ∧
      r.1 = { st with surfaceZeta := { st.surfaceZeta with bufferDirty := st.surfaceZeta.bufferDirty || color } }) ∨
    (r.2 = none ∧ InvalidatesFrom st r.1) := by
  cases found with
  | none =>
    cases h
    exact Or.inr ⟨rfl, h₀.1, h₀.2, Evicts.refl st⟩
  | some f =>
    simp only [reuseFound] at h
    obtain ⟨isCompatible, hc, h⟩ := Option.bind_eq_some_iff.mp h
    cases isCompatible with
    | true =>
      cases h
      exact Or.inl ⟨f, rfl, rfl, hc, rfl⟩
    | false =>
      simp only [Bool.false_eq_true, if_false] at h
      obtain ⟨st1, h1, h2⟩ := Option.bind_eq_some_iff.mp h
      cases h2
      exact Or.inr ⟨rfl, InvalidatesFrom.invalidate ⟨h₀.1, h₀.2, Evicts.refl st⟩ h1⟩

/-- a new color surface leaves the zeta part dirty unless a bound zeta surface has its dimensions -/
theorem zetaDirtyAfterCreate_spec (h : SurfaceInv st) {entry : SurfaceBinding}
    (hz : zetaDirtyAfterCreate st entry = some st') :
    { st' with surfaceZeta := st.surfaceZeta } = st ∧
      (st'.surfaceZeta.bufferDirty = true ∨
        ∀ zs ∈ st.surfaces, st.zetaBinding = some zs.id → zs.width = entry.width ∧ zs.height = entry.height) := by
  unfold zetaDirtyAfterCreate at hz
  split at hz
  · rename_i z hzb
    obtain ⟨zeta, hfind, hz⟩ := Option.bind_eq_some_iff.mp hz
    obtain ⟨hmem, hid⟩ := findSurface_eq_some hfind
    split_ifs at hz with hne
    · cases hz
      exact ⟨rfl, Or.inl rfl⟩
    · cases hz
      refine ⟨rfl, Or.inr fun zs hzs hzsb => ?_⟩
      have : zs = zeta := h.eq_of_id_eq hzs hmem (by rw [hid]; simpa [hzb] using hzsb.symm)
      subst this
      simpa [not_or] using hne
  · cases hz
    exact ⟨rfl, Or.inr fun zs _ hzsb => by simp_all⟩

/-- what a successful createSurface does -/
theorem createSurface_spec (h₀ : SurfaceInv st ∧ BoundDims st) {color : Bool} {entry : SurfaceBinding}
    {r : SurfaceCacheState × SurfaceBinding} (h : createSurface st color entry = some r) :
    SurfaceInv r.1 ∧ BoundDims r.1 ∧ r.2 ∈ r.1.surfaces ∧ r.2.id = st.nextSurface ∧ r.2.width = entry.width ∧
      r.2.height = entry.height ∧ (∀ s ∈ r.1.surfaces, s ≠ r.2 → s ∈ st.surfaces) ∧
      (r.1.colorBinding = st.colorBinding ∨ r.1.colorBinding = none) ∧
      (r.1.zetaBinding = st.zetaBinding ∨ r.1.zetaBinding = none) ∧
      (color = true → r.1.surfaceZeta.bufferDirty = true ∨
        ∀ zs ∈ r.1.surfaces, r.1.zetaBinding = some zs.id → zs.width = entry.width ∧ zs.height = entry.height) := by
  unfold createSurface at h
  obtain ⟨put, hput, h⟩ := Option.bind_eq_some_iff.mp h
  obtain ⟨hinv, hdims, hmem, hid, hold, hw, hh, hev⟩ := surfacePut_inv h₀ hput
  -- zetaDirtyAfterCreate changes only the zeta register
  obtain ⟨st2, hrest, hdirty, rfl⟩ : ∃ st2, { st2 with surfaceZeta := put.1.surfaceZeta } = put.1 ∧
      (color = true → st2.surfaceZeta.bufferDirty = true ∨
        ∀ zs ∈ put.1.surfaces, put.1.zetaBinding = some zs.id → zs.width = entry.width ∧ zs.height = entry.height) ∧
      r = (st2, put.2) := by
    dsimp only at h
    split_ifs at h with hc
    · obtain ⟨st2, h2, h⟩ := Option.bind_eq_some_iff.mp h
      cases h
      obtain ⟨hrest, hd⟩ := zetaDirtyAfterCreate_spec hinv h2
      exact ⟨st2, hrest, fun _ => hd, rfl⟩
    · cases h
      exact ⟨put.1, rfl, fun hc' => absurd hc' hc, rfl⟩
  have hsurf : st2.surfaces = put.1.surfaces := by conv_rhs => rw [← hrest]
  have hcb : st2.colorBinding = put.1.colorBinding := by conv_rhs => rw [← hrest]
  have hzb : st2.zetaBinding = put.1.zetaBinding := by conv_rhs => rw [← hrest]
  have hn : st2.nextSurface = put.1.nextSurface := by conv_rhs => rw [← hrest]
  refine ⟨hinv.of_footprint (by rw [hsurf]) hcb hzb hn, hdims.of_footprint (by rw [hsurf]) hcb hzb,
    hsurf ▸ hmem, hid, hw, hh, hsurf ▸ hold, hcb ▸ hev.color, hzb ▸ hev.zeta, ?_⟩
  rw [hsurf, hzb]
  exact hdirty

/-- binding a part to a surface of the list that the other part is not bound to keeps the invariant -/
theorem bindPart_inv {s : SurfaceCacheState} (h : SurfaceInv s) {color : Bool} {id : ℕ}
    (hmem : id ∈ s.surfaces.map (·.id)) (hne : binding s (!color) ≠ some id) (g : Surface → Surface) :
    SurfaceInv (setSurfacePart (bindPart s color id) color g) := by
  cases color
  · refine ⟨h.ids_nodup, h.id_lt, h.addrs_nodup, h.apart, h.color_mem, ?_, ?_⟩
    · intro z hz
      simp only [setSurfacePart, bindPart, Bool.false_eq_true, if_false, Option.some.injEq] at hz
      exact hz ▸ hmem
    · intro c hc
      simp only [setSurfacePart, bindPart, Bool.false_eq_true, if_false, ne_eq, Option.some.injEq] at hc ⊢
      rintro rfl
      exact hne hc
  · refine ⟨h.ids_nodup, h.id_lt, h.addrs_nodup, h.apart, ?_, h.zeta_mem, ?_⟩
    · intro c hc
      simp only [setSurfacePart, bindPart, if_true, Option.some.injEq] at hc
      exact hc ▸ hmem
    · intro c hc
      simp only [setSurfacePart, bindPart, if_true, Option.some.injEq] at hc ⊢
      subst hc
      exact hne

/-- update_surface_part for the color part, entered with the color part unbound: the invariant holds after, and the
dimensions of the two targets agree unless the zeta part is dirty -/
theorem bindSurfacePart_color (h₀ : SurfaceInv st) (hcolor : st.colorBinding = none) {entry : SurfaceBinding}
    (h : bindSurfacePart st true entry = some st') :
    SurfaceInv st' ∧ (BoundDims st' ∨ st'.surfaceZeta.bufferDirty = true) := by
  unfold bindSurfacePart at h
  obtain ⟨reused, hr, h⟩ := Option.bind_eq_some_iff.mp h
  obtain ⟨bound, hb, h⟩ := Option.bind_eq_some_iff.mp h
  cases h
  have hinv1 := unbindFoundOther_inv h₀ true (surfaceGet st.surfaces entry.vramAddr)
  obtain ⟨hsurf1, hbind1, -⟩ := unbindFoundOther_surfaces st true (surfaceGet st.surfaces entry.vramAddr)
  have hcolor1 : (unbindFoundOther st true (surfaceGet st.surfaces entry.vramAddr)).colorBinding = none := by
    simpa [binding, hcolor] using hbind1
  have hdims1 : BoundDims (unbindFoundOther st true (surfaceGet st.surfaces entry.vramAddr)) :=
    fun c _ z _ hcb => by simp [hcolor1] at hcb
  rcases reuseFound_cases ⟨hinv1, hdims1⟩ hr with ⟨f, hff, hr2, -, hr1⟩ | ⟨hr2, hr1⟩
  · -- the surface found is reused, and the zeta part is made dirty
    rw [hr2] at hb
    simp only [Option.elim, Option.some.injEq] at hb
    subst hb
    have hfmem := (surfaceGet_eq_some hff).1
    rw [hff] at hr1 hsurf1 hinv1
    have hne := unbindFoundOther_ne st true f
    rw [hr1]
    refine ⟨bindPart_inv (by exact hinv1.of_footprint rfl rfl rfl rfl) ?_ ?_ _, Or.inr ?_⟩
    · exact hsurf1 ▸ List.mem_map_of_mem hfmem
    · simpa [binding] using hne
    · simp [setSurfacePart, bindPart]
  · -- a new surface is bound; its pointer is fresh, so the zeta part is not bound to it
    rw [hr2] at hb
    simp only [Option.elim] at hb
    obtain ⟨hinv2, -, hmem, hid, hw, hh, -, -, hzb2, hdirty⟩ := createSurface_spec ⟨hr1.1, hr1.2.1⟩ hb
    have hne : binding bound.1 (!true) ≠ some bound.2.id := by
      simp only [binding, Bool.not_true, Bool.false_eq_true, if_false]
      rcases hzb2 with hz | hz
      · rw [hz, hid]
        intro hzb
        exact Nat.lt_irrefl _ (hr1.1.zeta_lt hzb)
      · simp [hz]
    refine ⟨bindPart_inv hinv2 (List.mem_map_of_mem hmem) hne _, ?_⟩
    rcases hdirty rfl with hd | hd
    · exact Or.inr (by simpa [setSurfacePart, bindPart] using hd)
    · -- the new color surface has the entry's dimensions, and so has a bound zeta surface
      left
      intro c hc z hz hcb hzb
      simp only [setSurfacePart, bindPart, if_true, Option.some.injEq] at hc hz hcb hzb
      have hcout : c = bound.2 := hinv2.eq_of_id_eq hc hmem hcb.symm
      subst hcout
      obtain ⟨hzw, hzh⟩ := hd z hz hzb
      exact ⟨hw.trans hzw.symm, hh.trans hzh.symm⟩

/-- a zeta surface found compatible passed the last test -/
theorem foundIsCompatible_zeta {entry f : SurfaceBinding} (h : foundIsCompatible st false entry f = some true) :
    matchesColorBinding st f = some true := by
  simp only [foundIsCompatible, Bool.and_false, Bool.not_false, Bool.and_true] at h
  -- with `color` false the zeta-entry test is skipped: the branch that makes it is impossible
  split_ifs at h with h1 h2 h3 <;> simp only [Bool.false_and, Bool.false_eq_true] at h2
  all_goals
    obtain ⟨b, -, h⟩ := Option.bind_eq_some_iff.mp h
    split_ifs at h with hb
    · obtain ⟨m, hm, hbm⟩ := Option.map_eq_some_iff.mp h
      rw [hm, ← hbm, hb, Bool.true_and]
    · simp [hb] at h

/-- a zeta surface that passed the last test has the dimensions of the bound color surface -/
theorem matchesColorBinding_dims (h : SurfaceInv st) {f : SurfaceBinding} (hm : matchesColorBinding st f = some true)
    {cs : SurfaceBinding} (hcs : cs ∈ st.surfaces) (hc : st.colorBinding = some cs.id) :
    f.width = cs.width ∧ f.height = cs.height := by
  simp only [matchesColorBinding, hc] at hm
  obtain ⟨cs', hfind, hdims⟩ := Option.map_eq_some_iff.mp hm
  obtain ⟨hmem, hid⟩ := findSurface_eq_some hfind
  rw [h.eq_of_id_eq hmem hcs hid] at hdims
  simpa using hdims

/-- a binding that was kept or cleared, and is set, was set to the same surface before -/
theorem eq_of_kept_or_cleared {a b : Option ℕ} {x : ℕ} (h : a = b ∨ a = none) (ha : a = some x) : b = some x := by
  rcases h with h | h
  · rw [← h, ha]
  · simp [h] at ha

/-- update_surface_part for the zeta part, entered with the zeta part unbound and an entry with the dimensions of the
bound color surface: the invariant holds after, and so do equal dimensions -/
theorem bindSurfacePart_zeta (h₀ : SurfaceInv st) (hzeta : st.zetaBinding = none) {entry : SurfaceBinding}
    (hdims : ∀ cs ∈ st.surfaces, st.colorBinding = some cs.id → entry.width = cs.width ∧ entry.height = cs.height)
    (h : bindSurfacePart st false entry = some st') : SurfaceInv st' ∧ BoundDims st' := by
  unfold bindSurfacePart at h
  obtain ⟨reused, hr, h⟩ := Option.bind_eq_some_iff.mp h
  obtain ⟨bound, hb, h⟩ := Option.bind_eq_some_iff.mp h
  cases h
  have hinv1 := unbindFoundOther_inv h₀ false (surfaceGet st.surfaces entry.vramAddr)
  obtain ⟨hsurf1, hbind1, -⟩ := unbindFoundOther_surfaces st false (surfaceGet st.surfaces entry.vramAddr)
  have hzeta1 : (unbindFoundOther st false (surfaceGet st.surfaces entry.vramAddr)).zetaBinding = none := by
    simpa [binding, hzeta] using hbind1
  have hdims1 : BoundDims (unbindFoundOther st false (surfaceGet st.surfaces entry.vramAddr)) :=
    fun c _ z _ _ hzb => by simp [hzeta1] at hzb
  -- the color binding is kept or cleared by unbinding the other part
  have hcolor1 : (unbindFoundOther st false (surfaceGet st.surfaces entry.vramAddr)).colorBinding = st.colorBinding ∨
      (unbindFoundOther st false (surfaceGet st.surfaces entry.vramAddr)).colorBinding = none := by
    unfold unbindFoundOther
    split
    · split_ifs <;> simp [unbindSurface]
    · exact Or.inl rfl
  rcases reuseFound_cases ⟨hinv1, hdims1⟩ hr with ⟨f, hff, hr2, hcompat, hr1⟩ | ⟨hr2, hr1⟩
  · -- the surface found is reused: it passed the test against the bound color surface
    rw [hr2] at hb
    simp only [Option.elim, Option.some.injEq] at hb
    subst hb
    have hfmem := (surfaceGet_eq_some hff).1
    rw [hff] at hr1 hsurf1 hinv1 hcompat
    have hne := unbindFoundOther_ne st false f
    rw [hr1]
    have hinv1' : SurfaceInv { unbindFoundOther st false (some f) with
        surfaceZeta := { (unbindFoundOther st false (some f)).surfaceZeta with
          bufferDirty := (unbindFoundOther st false (some f)).surfaceZeta.bufferDirty || false } } :=
      hinv1.of_footprint rfl rfl rfl rfl
    refine ⟨bindPart_inv hinv1' (hsurf1 ▸ List.mem_map_of_mem hfmem) (by simpa [binding] using hne) _, ?_⟩
    intro c hc z hz hcb hzb
    simp only [setSurfacePart, bindPart, Bool.false_eq_true, if_false, Option.some.injEq] at hc hz hcb hzb
    have hzf : z = f := hinv1.eq_of_id_eq hz (hsurf1 ▸ hfmem) hzb.symm
    subst hzf
    obtain ⟨hw, hh⟩ := matchesColorBinding_dims hinv1 (foundIsCompatible_zeta hcompat) hc hcb
    exact ⟨hw.symm, hh.symm⟩
  · -- a new surface with the entry's dimensions, which are the bound color surface's
    rw [hr2] at hb
    simp only [Option.elim] at hb
    obtain ⟨hinv2, -, hmem, hid, hw, hh, hold, hcb2, -, -⟩ := createSurface_spec ⟨hr1.1, hr1.2.1⟩ hb
    have hne : binding bound.1 (!false) ≠ some bound.2.id := by
      simp only [binding, Bool.not_false, if_true]
      intro hcb
      have := hr1.1.color_lt (eq_of_kept_or_cleared hcb2 hcb)
      exact Nat.lt_irrefl _ (hid ▸ this)
    refine ⟨bindPart_inv hinv2 (List.mem_map_of_mem hmem) hne _, ?_⟩
    intro c hc z hz hcb hzb
    simp only [setSurfacePart, bindPart, Bool.false_eq_true, if_false, Option.some.injEq] at hc hz hcb hzb
    have hzout : z = bound.2 := hinv2.eq_of_id_eq hz hmem hzb.symm
    subst hzout
    -- the color surface is an old one, bound before the update
    have hcr : reused.1.colorBinding = some c.id := eq_of_kept_or_cleared hcb2 hcb
    have hcne : c ≠ bound.2 := fun hcz => Nat.lt_irrefl _ (hid ▸ hcz ▸ hr1.1.color_lt hcr)
    have hcst : c ∈ st.surfaces :=
      hsurf1 ▸ hr1.2.2.sublist.subset (hold c hc hcne)
    obtain ⟨hcw, hch⟩ := hdims c hcst
      (eq_of_kept_or_cleared hcolor1 (eq_of_kept_or_cleared hr1.2.2.color hcr))
    exact ⟨hcw.symm.trans hw.symm, hch.symm.trans hh.symm⟩

end Bind

/-! ### Updates and methods -/

/-- `st'` holds the surfaces of `st`, changed only where the invariant does not look, with the same bindings and the
same next pointer -/
structure SameFootprint (st st' : SurfaceCacheState) : Prop where
  footprints : st'.surfaces.map footprint = st.surfaces.map footprint
  color : st'.colorBinding = st.colorBinding
  zeta : st'.zetaBinding = st.zetaBinding
  next : st'.nextSurface = st.nextSurface

section Update

variable {st st' : SurfaceCacheState}

theorem inv_of_sameFootprint (h₀ : SurfaceInv st ∧ BoundDims st) (h : SameFootprint st st') :
    SurfaceInv st' ∧ BoundDims st' :=
  ⟨h₀.1.of_footprint h.footprints h.color h.zeta h.next, h₀.2.of_footprint h.footprints h.color h.zeta⟩

/-- a change of registers only -/
theorem SameFootprint.of_surfaces (hs : st'.surfaces = st.surfaces) (hc : st'.colorBinding = st.colorBinding)
    (hz : st'.zetaBinding = st.zetaBinding) (hn : st'.nextSurface = st.nextSurface) : SameFootprint st st' :=
  ⟨by rw [hs], hc, hz, hn⟩

theorem populateSurfaceBindingEntrySized_dims {color : Bool} {width height : ℕ} {entry : SurfaceBinding}
    (h : populateSurfaceBindingEntrySized st color width height = some entry) :
    entry.width = width ∧ entry.height = height := by
  unfold populateSurfaceBindingEntrySized at h
  obtain ⟨fmt, -, h⟩ := Option.bind_eq_some_iff.mp h
  split_ifs at h
  all_goals
    obtain ⟨shape, -, h⟩ := Option.bind_eq_some_iff.mp h
    cases h
    exact ⟨rfl, rfl⟩

/-- a zeta entry takes the dimensions of the bound color surface -/
theorem populateSurfaceBindingEntry_zeta (h₀ : SurfaceInv st) {entry : SurfaceBinding}
    (h : populateSurfaceBindingEntry st false = some entry) :
    ∀ cs ∈ st.surfaces, st.colorBinding = some cs.id → entry.width = cs.width ∧ entry.height = cs.height := by
  intro cs hcs hcb
  unfold populateSurfaceBindingEntry at h
  obtain ⟨⟨width, height⟩, hdims, h⟩ := Option.bind_eq_some_iff.mp h
  obtain ⟨hw, hh⟩ := populateSurfaceBindingEntrySized_dims h
  simp only [entryDimensions, hcb] at hdims
  obtain ⟨cs', hfind, hcs'⟩ := Option.map_eq_some_iff.mp hdims
  obtain ⟨hmem, hid⟩ := findSurface_eq_some hfind
  rw [h₀.eq_of_id_eq hmem hcs hid] at hcs'
  simp only [Prod.mk.injEq] at hcs'
  exact ⟨hw.trans hcs'.1.symm, hh.trans hcs'.2.symm⟩

theorem clearDrawDirty_same (st : SurfaceCacheState) (upload color : Bool) :
    SameFootprint st (clearDrawDirty st upload color) := by
  unfold clearDrawDirty setSurfacePart
  split_ifs <;> exact SameFootprint.of_surfaces rfl rfl rfl rfl

/-- update_surface_part for the color part, with the color part unbound first when its registers changed -/
theorem updateSurfacePart_color (h₀ : SurfaceInv st ∧ BoundDims st) (h : updateSurfacePart st true true = some st') :
    SurfaceInv st' ∧ (BoundDims st' ∨ st'.surfaceZeta.bufferDirty = true) := by
  unfold updateSurfacePart at h
  obtain ⟨entry, -, h⟩ := Option.bind_eq_some_iff.mp h
  obtain ⟨st1, h1, h⟩ := Option.bind_eq_some_iff.mp h
  cases h
  -- after an upload the draw-dirty bookkeeping does nothing
  simp only [clearDrawDirty, Bool.not_true, Bool.false_and, Bool.false_eq_true, if_false]
  unfold rebindIfDirty at h1
  split_ifs at h1
  · exact bindSurfacePart_color (unbindSurface_inv h₀.1 true) rfl h1
  · cases h1
    exact ⟨h₀.1, Or.inl h₀.2⟩

/-- update_surface_part for the zeta part: a zeta entry takes the bound color surface's dimensions -/
theorem updateSurfacePart_zeta (h₀ : SurfaceInv st ∧ BoundDims st) (h : updateSurfacePart st true false = some st') :
    SurfaceInv st' ∧ BoundDims st' := by
  unfold updateSurfacePart at h
  obtain ⟨entry, hentry, h⟩ := Option.bind_eq_some_iff.mp h
  obtain ⟨st1, h1, h⟩ := Option.bind_eq_some_iff.mp h
  cases h
  simp only [clearDrawDirty, Bool.not_true, Bool.false_and, Bool.false_eq_true, if_false]
  unfold rebindIfDirty at h1
  split_ifs at h1
  · exact bindSurfacePart_zeta (unbindSurface_inv h₀.1 false) rfl (populateSurfaceBindingEntry_zeta h₀.1 hentry) h1
  · cases h1
    exact h₀

/-- outside an upload update_surface_part only clears draw-dirty flags -/
theorem updateSurfacePart_download {color : Bool} (h : updateSurfacePart st false color = some st') :
    SameFootprint st st' := by
  unfold updateSurfacePart at h
  obtain ⟨entry, -, h⟩ := Option.bind_eq_some_iff.mp h
  obtain ⟨st1, h1, h⟩ := Option.bind_eq_some_iff.mp h
  cases h
  simp only [rebindIfDirty, Bool.false_and, Bool.false_eq_true, if_false, Option.some.injEq] at h1
  subst h1
  exact clearDrawDirty_same _ false color

theorem prepareUpload_inv (h₀ : SurfaceInv st ∧ BoundDims st) :
    SurfaceInv (prepareUpload st) ∧ BoundDims (prepareUpload st) := by
  -- a changed shape only sets registers; then the color part may be unbound
  have hregs : ∀ st', SameFootprint st st' → SurfaceInv st' ∧ BoundDims st' := fun _ h => inv_of_sameFootprint h₀ h
  unfold prepareUpload
  dsimp only
  split_ifs
  all_goals first
    | refine ⟨unbindSurface_inv (hregs _ ?_).1 true, unbindSurface_boundDims _ true⟩
      exact SameFootprint.of_surfaces rfl rfl rfl rfl
    | exact hregs _ (SameFootprint.of_surfaces rfl rfl rfl rfl)

/-- the upload branch: after the color part the dimensions agree unless the zeta part is dirty, and a dirty zeta part
is unbound before it is updated -/
theorem uploadSurfaces_inv (h₀ : SurfaceInv st ∧ BoundDims st) {colorWrite zetaWrite : Bool}
    (h : uploadSurfaces st colorWrite zetaWrite = some st') : SurfaceInv st' ∧ BoundDims st' := by
  unfold uploadSurfaces at h
  obtain ⟨st1, h1, h2⟩ := Option.bind_eq_some_iff.mp h
  have hprep := prepareUpload_inv h₀
  have hcolor : SurfaceInv st1 ∧ (BoundDims st1 ∨ st1.surfaceZeta.bufferDirty = true) := by
    unfold updateIfWritten at h1
    split_ifs at h1
    · exact updateSurfacePart_color hprep h1
    · cases h1
      exact ⟨hprep.1, Or.inl hprep.2⟩
  have hzeta : SurfaceInv (unbindDirtyZeta st1) ∧ BoundDims (unbindDirtyZeta st1) := by
    unfold unbindDirtyZeta
    split_ifs with hd
    · exact ⟨unbindSurface_inv hcolor.1 false, unbindSurface_boundDims st1 false⟩
    · exact ⟨hcolor.1, hcolor.2.resolve_right hd⟩
  unfold updateIfWritten at h2
  split_ifs at h2
  · exact updateSurfacePart_zeta hzeta h2
  · cases h2
    exact hzeta

theorem updateIfWritten_download {write color : Bool} (h : updateIfWritten st write false color = some st') :
    SameFootprint st st' := by
  unfold updateIfWritten at h
  split_ifs at h
  · exact updateSurfacePart_download h
  · cases h
    exact SameFootprint.of_surfaces rfl rfl rfl rfl

theorem updateParts_inv (h₀ : SurfaceInv st ∧ BoundDims st) {upload colorWrite zetaWrite : Bool}
    (h : updateParts st upload colorWrite zetaWrite = some st') : SurfaceInv st' ∧ BoundDims st' := by
  unfold updateParts at h
  split_ifs at h
  · exact uploadSurfaces_inv h₀ h
  · unfold downloadSurfaces at h
    obtain ⟨st1, h1, h2⟩ := Option.bind_eq_some_iff.mp h
    exact inv_of_sameFootprint (inv_of_sameFootprint h₀ (updateIfWritten_download h1)) (updateIfWritten_download h2)

theorem footprint_touchBound (frameTime drawTime : ℕ) (upload swizzle : Bool) (s : SurfaceBinding) :
    footprint (touchBound frameTime drawTime upload swizzle s) = footprint s := by
  cases upload <;> rfl

theorem touchBoundSurfaces_same (st : SurfaceCacheState) (upload : Bool) :
    SameFootprint st (touchBoundSurfaces st upload) := by
  unfold touchBoundSurfaces
  split_ifs <;>
    exact ⟨by rw [map_footprint_updateBound _ _ (footprint_touchBound _ _ _ _),
      map_footprint_updateBound _ _ (footprint_touchBound _ _ _ _)], rfl, rfl, rfl⟩

/-- pgraph_gl_surface_update keeps the invariant and the equal dimensions of the bound surfaces -/
theorem pgraphGlSurfaceUpdate_inv (h₀ : SurfaceInv st ∧ BoundDims st) {upload colorWrite zetaWrite : Bool}
    (h : pgraphGlSurfaceUpdate st upload colorWrite zetaWrite = some st') : SurfaceInv st' ∧ BoundDims st' := by
  unfold pgraphGlSurfaceUpdate at h
  obtain ⟨st1, h1, h⟩ := Option.bind_eq_some_iff.mp h
  obtain ⟨-, -, h⟩ := Option.bind_eq_some_iff.mp h
  have h1' := updateParts_inv (by exact inv_of_sameFootprint h₀ (SameFootprint.of_surfaces rfl rfl rfl rfl)) h1
  have h2 := inv_of_sameFootprint h1' (touchBoundSurfaces_same st1 upload)
  exact ⟨(surfaceEvictOld_spec h2 h).1, (surfaceEvictOld_spec h2 h).2.1⟩

theorem pgraphGlSetSurfaceDirty_same (st : SurfaceCacheState) (color zeta : Bool) :
    SameFootprint st (pgraphGlSetSurfaceDirty st color zeta) :=
  ⟨by
    simp only [pgraphGlSetSurfaceDirty]
    -- the marks change the draw-dirty flag, the frame time and `cleared` only
    rw [map_footprint_updateBound, map_footprint_updateBound] <;> exact fun _ => rfl, rfl, rfl, rfl⟩

theorem pgraphGlClearSurface_inv (h₀ : SurfaceInv st ∧ BoundDims st) {writeColor writeZeta fullClear : Bool}
    (h : pgraphGlClearSurface st writeColor writeZeta fullClear = some st') : SurfaceInv st' ∧ BoundDims st' := by
  unfold pgraphGlClearSurface at h
  obtain ⟨st1, h1, h⟩ := Option.bind_eq_some_iff.mp h
  cases h
  have h1' := pgraphGlSurfaceUpdate_inv
    (by exact inv_of_sameFootprint h₀ (SameFootprint.of_surfaces rfl rfl rfl rfl)) h1
  have h2 := inv_of_sameFootprint h1' (pgraphGlSetSurfaceDirty_same st1 writeColor writeZeta)
  refine inv_of_sameFootprint h2 (SameFootprint.mk ?_ rfl rfl rfl)
  dsimp only
  rw [map_footprint_updateBound, map_footprint_updateBound] <;> exact fun _ => rfl

/-- flush_surfaces unbinds both parts and invalidates every surface -/
theorem flushSurfaces_inv (h₀ : SurfaceInv st ∧ BoundDims st) (h : flushSurfaces st = some st') :
    SurfaceInv st' ∧ BoundDims st' := by
  unfold flushSurfaces at h
  dsimp only at h
  -- the run starts from the state with both parts unbound
  have hstart := fun {st₁ : SurfaceCacheState} (h₁ : SurfaceInv st₁ ∧ BoundDims st₁) =>
    (⟨unbindSurface_inv (unbindSurface_inv h₁.1 true) false, unbindSurface_boundDims _ false, Evicts.refl _⟩ :
      InvalidatesFrom _ (unbindSurface (unbindSurface st₁ true) false))
  obtain ⟨hinv, hdims, -⟩ := Runs.foldlM_invariant (InvalidatesFrom _)
    (fun _ _ _ hs hstep => InvalidatesFrom.invalidate hs hstep) _
    (hstart (by exact inv_of_sameFootprint h₀ (SameFootprint.of_surfaces rfl rfl rfl rfl))) h
  exact ⟨hinv, hdims⟩

theorem pgraphGlSurfaceFlush_inv (h₀ : SurfaceInv st ∧ BoundDims st) (h : pgraphGlSurfaceFlush st = some st') :
    SurfaceInv st' ∧ BoundDims st' := by
  unfold pgraphGlSurfaceFlush at h
  obtain ⟨st1, h1, h⟩ := Option.bind_eq_some_iff.mp h
  have h1' := flushSurfaces_inv h₀ h1
  split_ifs at h
  · exact pgraphGlSurfaceUpdate_inv h1' h
  · cases h
    exact h1'

/-- every method keeps the invariant and the equal dimensions of the bound surfaces -/
theorem surfaceStep_inv (h₀ : SurfaceInv st ∧ BoundDims st) {event : SurfaceEvent}
    (h : surfaceStep st event = some st') : SurfaceInv st' ∧ BoundDims st' := by
  cases event with
  | surfaceUpdate upload colorWrite zetaWrite => exact pgraphGlSurfaceUpdate_inv h₀ h
  | setSurfaceDirty color zeta =>
    cases h
    exact inv_of_sameFootprint h₀ (pgraphGlSetSurfaceDirty_same st color zeta)
  | clearSurface writeColor writeZeta fullClear => exact pgraphGlClearSurface_inv h₀ h
  | surfaceFlush => exact pgraphGlSurfaceFlush_inv h₀ h
  | flipIncrementWrite =>
    cases h
    exact inv_of_sameFootprint h₀ (SameFootprint.of_surfaces rfl rfl rfl rfl)
  | setContextDmaZeta dma =>
    cases h
    exact inv_of_sameFootprint h₀ (SameFootprint.of_surfaces rfl rfl rfl rfl)
  | setColorMask enabled =>
    cases h
    exact inv_of_sameFootprint h₀ (SameFootprint.of_surfaces rfl rfl rfl rfl)
  | setDepthMask enabled =>
    cases h
    exact inv_of_sameFootprint h₀ (SameFootprint.of_surfaces rfl rfl rfl rfl)
  | setSurfaceFormat colorFormat zetaFormat antiAliasing logWidth logHeight surfaceType =>
    simp only [surfaceStep] at h
    obtain ⟨st1, h1, h⟩ := Option.bind_eq_some_iff.mp h
    have h1' := pgraphGlSurfaceUpdate_inv h₀ h1
    split_ifs at h <;> cases h <;> exact inv_of_sameFootprint h1' (SameFootprint.of_surfaces rfl rfl rfl rfl)
  | _ =>
    simp only [surfaceStep] at h
    obtain ⟨st1, h1, h⟩ := Option.bind_eq_some_iff.mp h
    cases h
    -- the other handlers let pending draws land and then change registers only
    exact inv_of_sameFootprint (pgraphGlSurfaceUpdate_inv h₀ h1) (SameFootprint.of_surfaces rfl rfl rfl rfl)

/-- the invariant of the surface cache, over every run of methods that does not fail -/
theorem runSurfaceEvents_inv (h₀ : SurfaceInv st ∧ BoundDims st) {events : List SurfaceEvent}
    (h : runSurfaceEvents st events = some st') : SurfaceInv st' ∧ BoundDims st' :=
  Runs.foldlM_invariant (fun st => SurfaceInv st ∧ BoundDims st) (fun _ _ _ hs hstep => surfaceStep_inv hs hstep)
    events h₀ h

/-- with disjoint ranges pgraph_gl_surface_get_within finds the one surface that contains an address -/
theorem surfaceGetWithin_eq_of_mem {l : List SurfaceBinding} (h : l.Pairwise RangesApart) {s : SurfaceBinding}
    (hs : s ∈ l) {addr : ℕ} (hlo : s.vramAddr ≤ addr) (hhi : addr < s.vramAddr + s.size) :
    surfaceGetWithin l addr = some s := by
  -- two surfaces apart do not both hold the address
  refine TailQueue.find?_eq_of_unique (h.imp fun {t u} hapart hboth => ?_) hs (by simp [hlo, hhi])
  simp only [ge_iff_le, Bool.and_eq_true, decide_eq_true_eq] at hboth
  unfold RangesApart at hapart
  omega

/-- after any run that does not fail, an address inside a cached surface finds that surface -/
theorem runSurfaceEvents_getWithin (h₀ : SurfaceInv st ∧ BoundDims st) {events : List SurfaceEvent}
    (h : runSurfaceEvents st events = some st') {s : SurfaceBinding} (hs : s ∈ st'.surfaces) {addr : ℕ}
    (hlo : s.vramAddr ≤ addr) (hhi : addr < s.vramAddr + s.size) : surfaceGetWithin st'.surfaces addr = some s :=
  surfaceGetWithin_eq_of_mem (runSurfaceEvents_inv h₀ h).1.apart hs hlo hhi

end Update

/-! ## Moving the color target over the zeta target -/

/-- 4 × 4 linear targets with pitch 16 in a DMA object at VRAM address 0: A8R8G8B8 color at offset 0 and Z24S8 zeta
at offset 64, so that each takes 64 bytes; nothing bound yet -/
def twoTargetRegisters : SurfaceCacheState where
  surfaceShape := ⟨false, 0x08, 2, 0, 0, 0, 4, 0, 4, nv097SetSurfaceFormatAntiAliasingCenter1⟩
  lastSurfaceShape := zeroSurfaceShape
  setupRasterZFormat := false
  surfaceType := 0x1
  surfaceColor := ⟨0, 16, false, false, false⟩
  surfaceZeta := ⟨64, 16, false, false, false⟩
  dmaColor := ⟨nvDmaInMemoryClass, 0, 0xFFFF⟩
  dmaZeta := ⟨nvDmaInMemoryClass, 0, 0xFFFF⟩
  clearing := false
  colorWriteEnabled := true
  zWriteEnable := true
  stencilWriteEnable := false
  frameTime := 0
  drawTime := 0
  surfaces := []
  colorBinding := none
  zetaBinding := none
  nextSurface := 0

/-- a draw binds color `[0, 64)` and zeta `[64, 128)`; SET_SURFACE_COLOR_OFFSET moves the color target to 32, which
sets only the color `buffer_dirty`; at the next draw the new color surface `[32, 96)` overlaps the zeta surface, which
is still bound with its `buffer_dirty` clear, and invalidating it fails the assert -/
theorem color_offset_over_zeta_fails :
    (runSurfaceEvents twoTargetRegisters [.surfaceUpdate true true true, .setSurfaceColorOffset 32]).map
        (fun st => (st.colorBinding, st.zetaBinding, st.surfaceColor.bufferDirty, st.surfaceZeta.bufferDirty)) =
      some (some 0, some 1, true, false) ∧
    runSurfaceEvents twoTargetRegisters
      [.surfaceUpdate true true true, .setSurfaceColorOffset 32, .surfaceUpdate true true true] = none := by
  decide

/-- nothing is cached or bound before the first draw -/
theorem twoTargetRegisters_inv : SurfaceInv twoTargetRegisters ∧ BoundDims twoTargetRegisters := by
  constructor
  · constructor <;> simp [twoTargetRegisters]
  · intro c hc
    simp [twoTargetRegisters] at hc

/-- after the first draw, address 70 finds the zeta surface `[64, 128)` -/
theorem first_draw_finds_zeta :
    ∃ st' s, runSurfaceEvents twoTargetRegisters [.surfaceUpdate true true true] = some st' ∧ s ∈ st'.surfaces ∧
      s.vramAddr = 64 ∧ surfaceGetWithin st'.surfaces 70 = some s := by
  obtain ⟨st', h⟩ := Option.isSome_iff_exists.mp
    (by decide : (runSurfaceEvents twoTargetRegisters [.surfaceUpdate true true true]).isSome)
  have hzeta : (runSurfaceEvents twoTargetRegisters [.surfaceUpdate true true true]).map
      (fun st => st.surfaces.any fun s => s.vramAddr == 64 && decide (70 < s.vramAddr + s.size)) = some true := by
    decide
  rw [h] at hzeta
  obtain ⟨s, hs, h64, hhi⟩ : ∃ s ∈ st'.surfaces, s.vramAddr = 64 ∧ 70 < s.vramAddr + s.size := by
    simpa using hzeta
  exact ⟨st', s, h, hs, h64, runSurfaceEvents_getWithin twoTargetRegisters_inv h hs (by omega) hhi⟩

end Xemu.Pgraph
