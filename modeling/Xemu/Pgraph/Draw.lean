import Mathlib
/-!
# The PGRAPH draw path

A model of the part of PGRAPHState that the NV097 draw methods use (hw/xbox/nv2a/pgraph/pgraph.c, vertex.c) and of
what the renderer's flush_draw hands to the graphics API (gl/draw.c, vk/draw.c):

* the inline buffers of vertex.c: per attribute a current value `inline_value`, a flag `inline_buffer_populated` and
  one recorded value per completed vertex (`pgraph_allocate_inline_buffer_vertices`,
  `pgraph_finish_inline_buffer_vertex`, `pgraph_reset_inline_buffers`, `pgraph_reset_draw_arrays`);
* the index batches: `inline_elements` and the `draw_arrays` ranges with `draw_arrays_prevent_connect`;
* the handlers of `SET_BEGIN_END`, `DRAW_ARRAYS`, `ARRAY_ELEMENT16`, `ARRAY_ELEMENT32` and
  `pgraph_expand_draw_arrays`;
* flush_draw, as a log of draws: a multi-draw of ranges, a draw of elements, or a draw of inline vertices.

Attribute values are left abstract (`α`): the setters only move them around. The renderer is taken to draw (a surface
is bound and some write or test is enabled; the early returns of `draw_end` and `flush_draw` are not modelled), and
the `inline_array` path is not modelled. A failed `assert` is `none`.
-/

namespace Xemu.Pgraph

/-! ## Constants -/

/-- NV097_SET_BEGIN_END -/
def nv097SetBeginEnd : ℕ := 0x17FC
/-- NV097_ARRAY_ELEMENT16 -/
def nv097ArrayElement16 : ℕ := 0x1800
/-- NV097_ARRAY_ELEMENT32 -/
def nv097ArrayElement32 : ℕ := 0x1808
/-- NV097_DRAW_ARRAYS -/
def nv097DrawArrays : ℕ := 0x1810
/-- NV097_SET_BEGIN_END_OP_END -/
def nv097SetBeginEndOpEnd : ℕ := 0
/-- NV097_SET_BEGIN_END_OP_POLYGON, the last primitive -/
def nv097SetBeginEndOpPolygon : ℕ := 0x0A
/-- PRIM_TYPE_INVALID -/
def primTypeInvalid : ℕ := 0
/-- NV2A_MAX_BATCH_LENGTH -/
def nv2aMaxBatchLength : ℕ := 0x07FFFF
/-- ARRAY_SIZE(pg->draw_arrays_start) -/
def drawArraysSlots : ℕ := 1250

/-! ## State -/

/-- NV2A_VERTEXSHADER_ATTRIBUTES attribute slots -/
abbrev Attr := Fin 16

/-- a four-component attribute value -/
abbrev Vec4 (α : Type) := Fin 4 → α

/-- VertexAttribute, the fields of the inline buffers -/
structure VertexAttribute (α : Type) where
  inlineValue : Vec4 α
  inlineBufferPopulated : Bool
  inlineBuffer : ℕ → Vec4 α

/-- one call of the graphics API made by flush_draw -/
inductive Draw (α : Type)
  /-- glMultiDrawArrays over `(start, count)` ranges -/
  | multiDrawArrays (ranges : List (ℕ × ℕ))
  /-- glDrawElements over the inline elements -/
  | drawElements (elements : List ℕ)
  /-- glDrawArrays over the inline buffer: per vertex, the value of each attribute -/
  | inlineBuffer (vertices : List (Attr → Vec4 α))

/-- the fields of PGRAPHState the draw path reads and writes, and the draws made so far -/
structure DrawState (α : Type) where
  primitiveMode : ℕ
  vertexAttributes : Attr → VertexAttribute α
  inlineBufferLength : ℕ
  inlineElements : List ℕ
  drawArrays : List (ℕ × ℕ)
  drawArraysPreventConnect : Bool
  drawn : List (Draw α)

variable {α : Type}

/-! ## vertex.c -/

/-- pgraph_reset_draw_arrays -/
def resetDrawArrays (s : DrawState α) : DrawState α :=
  { s with drawArrays := [], drawArraysPreventConnect := false }

/-- pgraph_reset_inline_buffers -/
def resetInlineBuffers (s : DrawState α) : DrawState α :=
  resetDrawArrays { s with inlineElements := [], inlineBufferLength := 0 }

/-- replace one attribute -/
def updateAttribute (s : DrawState α) (attr : Attr) (f : VertexAttribute α → VertexAttribute α) : DrawState α :=
  { s with vertexAttributes := Function.update s.vertexAttributes attr (f (s.vertexAttributes attr)) }

/-- pgraph_allocate_inline_buffer_vertices: the first write to an attribute after a vertex was completed records the
old value for every vertex so far -/
def allocateInlineBufferVertices (s : DrawState α) (attr : Attr) : DrawState α :=
  if (s.vertexAttributes attr).inlineBufferPopulated ∨ s.inlineBufferLength = 0 then s
  else updateAttribute s attr fun a =>
    { a with
      inlineBufferPopulated := true
      inlineBuffer := fun i => if i < s.inlineBufferLength then a.inlineValue else a.inlineBuffer i }

/-- pgraph_finish_inline_buffer_vertex: record the current value of every populated attribute -/
def finishInlineBufferVertex (s : DrawState α) : Option (DrawState α) :=
  if s.inlineBufferLength < nv2aMaxBatchLength then
    some { s with
      vertexAttributes := fun attr =>
        let a := s.vertexAttributes attr
        if a.inlineBufferPopulated then
          { a with inlineBuffer := Function.update a.inlineBuffer s.inlineBufferLength a.inlineValue }
        else a
      inlineBufferLength := s.inlineBufferLength + 1 }
  else none

/-! ## flush_draw -/

/-- the value of an attribute at vertex `i` as the inline-buffer draw sends it: the recorded value when the attribute
is populated, the constant current value otherwise -/
def drawnValue (a : VertexAttribute α) (i : ℕ) : Vec4 α :=
  if a.inlineBufferPopulated then a.inlineBuffer i else a.inlineValue

/-- after the inline-buffer draw each populated attribute takes the value of the last vertex and stops being
populated -/
def afterInlineDraw (length : ℕ) (a : VertexAttribute α) : VertexAttribute α :=
  if a.inlineBufferPopulated then { a with inlineBufferPopulated := false, inlineValue := a.inlineBuffer (length - 1) }
  else a

/-- flush_draw (pgraph_gl_flush_draw, and the same in the Vulkan renderer): draw arrays, else inline elements, else the
inline buffer -/
def flushDraw (s : DrawState α) : Option (DrawState α) :=
  if s.drawArrays ≠ [] then
    if s.inlineElements = [] ∧ s.inlineBufferLength = 0 then
      some { s with drawn := s.drawn ++ [.multiDrawArrays s.drawArrays] }
    else none
  else if s.inlineElements ≠ [] then
    if s.inlineBufferLength = 0 then some { s with drawn := s.drawn ++ [.drawElements s.inlineElements] }
    else none
  else if s.inlineBufferLength ≠ 0 then
    some { s with
      drawn := s.drawn ++
        [.inlineBuffer ((List.range s.inlineBufferLength).map fun i attr => drawnValue (s.vertexAttributes attr) i)]
      vertexAttributes := fun attr => afterInlineDraw s.inlineBufferLength (s.vertexAttributes attr) }
  else some s

/-! ## Methods -/

/-- SET_BEGIN_END: END draws and resets, BEGIN opens a block with the primitive mode -/
def setBeginEnd (parameter : ℕ) (s : DrawState α) : Option (DrawState α) :=
  if parameter = nv097SetBeginEndOpEnd then
    if s.primitiveMode = primTypeInvalid then some (resetInlineBuffers s)
    else (flushDraw s).map fun s => { resetInlineBuffers s with primitiveMode := primTypeInvalid }
  else if s.primitiveMode ≠ primTypeInvalid then some s
  else if parameter ≤ nv097SetBeginEndOpPolygon then
    some (resetInlineBuffers { s with primitiveMode := parameter })
  else none

/-- the index range of DRAW_ARRAYS: `(start, count)` -/
def drawArraysRange (parameter : ℕ) : ℕ × ℕ :=
  (parameter % 2 ^ 24, parameter / 2 ^ 24 + 1)

/-- DRAW_ARRAYS: appended to the inline elements when there are some, else merged into the last range when it
continues it and connecting is allowed, else stored as a new range -/
def drawArraysMethod (parameter : ℕ) (s : DrawState α) : Option (DrawState α) :=
  let start := (drawArraysRange parameter).1
  let count := (drawArraysRange parameter).2
  if s.inlineElements ≠ [] then
    if s.inlineElements.length + count < nv2aMaxBatchLength ∧ s.drawArraysPreventConnect = false then
      some { s with inlineElements := s.inlineElements ++ List.range' start count }
    else none
  else if s.drawArrays.length < drawArraysSlots then
    match s.drawArrays.getLast? with
    | some (lastStart, lastCount) =>
      if s.drawArraysPreventConnect = false ∧ start = lastStart + lastCount then
        some { s with drawArrays := s.drawArrays.dropLast ++ [(lastStart, lastCount + count)] }
      else some { s with drawArrays := s.drawArrays ++ [(start, count)], drawArraysPreventConnect := false }
    | none => some { s with drawArrays := [(start, count)], drawArraysPreventConnect := false }
  else none

/-- pgraph_expand_draw_arrays: the stored ranges are drawn when there is more than one, then the last range becomes
inline elements -/
def expandDrawArrays (s : DrawState α) : Option (DrawState α) :=
  match s.drawArrays.getLast? with
  | none => none
  | some (start, count) => do
    let s ← if 1 < s.drawArrays.length then (flushDraw s).map resetInlineBuffers else some s
    if s.inlineElements.length + count < nv2aMaxBatchLength then
      some (resetDrawArrays { s with inlineElements := s.inlineElements ++ List.range' start count })
    else none

/-- ARRAY_ELEMENT16 and ARRAY_ELEMENT32: the stored ranges are expanded first, then the indices appended -/
def arrayElement (indices : List ℕ) (s : DrawState α) : Option (DrawState α) := do
  let s ← if s.drawArrays ≠ [] then expandDrawArrays s else some s
  if s.inlineElements.length < nv2aMaxBatchLength then some { s with inlineElements := s.inlineElements ++ indices }
  else none

/-- ARRAY_ELEMENT16: two 16-bit indices -/
def arrayElement16 (parameter : ℕ) : DrawState α → Option (DrawState α) :=
  arrayElement [parameter % 2 ^ 16, parameter / 2 ^ 16]

/-- ARRAY_ELEMENT32: one 32-bit index -/
def arrayElement32 (parameter : ℕ) : DrawState α → Option (DrawState α) :=
  arrayElement [parameter]

end Xemu.Pgraph
