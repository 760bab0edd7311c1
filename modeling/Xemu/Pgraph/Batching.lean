import Xemu.Pfifo.Pusher
/-!
# Draw batching

What the NV097 draw methods hand to the renderer, against a reference in which every `SET_BEGIN_END` block draws the
ranges of its `DRAW_ARRAYS` and the indices of its `ARRAY_ELEMENT16` and `ARRAY_ELEMENT32` methods once, in order.

* `drawArraysMethod_indices`: a `DRAW_ARRAYS` outside the element path appends its range to the index sequence of the
  stored ranges, whether it joins the last range or is stored as a new one;
* `runMethods_arraysBlocks`: delivered one method at a time, blocks of `DRAW_ARRAYS` draw exactly the reference;
* `arrayElement32_redraws_last_range`: an `ARRAY_ELEMENT32` with more than one stored range draws all of them, the last
  included, and then queues the last range again as inline elements;
* through the pusher, whose look-ahead squashes `END`, `BEGIN` between two `DRAW_ARRAYS` so that a block's range is
  stored beside the last block's, that redraws a range the guest drew once.
-/

namespace Xemu.Pgraph

open Xemu.Pfifo

variable {α : Type}

/-! ## Indices -/

/-- the indices of `(start, count)` ranges, in order -/
def rangeIndices (ranges : List (ℕ × ℕ)) : List ℕ := ranges.flatMap fun r => List.range' r.1 r.2

/-- the vertex indices one draw uses, in order -/
def Draw.indices : Draw α → List ℕ
  | .multiDrawArrays ranges => rangeIndices ranges
  | .drawElements elements => elements
  | .inlineBuffer vertices => List.range vertices.length

/-- the indices of one `DRAW_ARRAYS` parameter -/
def drawArraysIndices (parameter : ℕ) : List ℕ := List.range' (drawArraysRange parameter).1 (drawArraysRange parameter).2

/-- the reference: every BEGIN..END block draws the indices of its `DRAW_ARRAYS` and `ARRAY_ELEMENT` methods once, in
order. `block` holds the indices of the open block -/
def referenceDraws : List (ℕ × ℕ) → Option (List ℕ) → List (List ℕ)
  | [], _ => []
  | (method, parameter) :: rest, block =>
    if method = nv097SetBeginEnd then
      if parameter = nv097SetBeginEndOpEnd then
        match block with
        | some indices => indices :: referenceDraws rest none
        | none => referenceDraws rest none
      else referenceDraws rest (some (block.getD []))
    else if method = nv097DrawArrays then referenceDraws rest (block.map (· ++ drawArraysIndices parameter))
    else if method = nv097ArrayElement16 then
      referenceDraws rest (block.map (· ++ [parameter % 2 ^ 16, parameter / 2 ^ 16]))
    else if method = nv097ArrayElement32 then referenceDraws rest (block.map (· ++ [parameter]))
    else referenceDraws rest block

/-- the draw state of a reset PGRAPH: no block open, nothing batched, nothing drawn -/
def initDrawState (attrs : Attr → VertexAttribute α) : DrawState α :=
  ⟨primTypeInvalid, attrs, 0, [], [], false, []⟩

@[simp]
theorem rangeIndices_nil : rangeIndices [] = [] := rfl

@[simp]
theorem rangeIndices_append (rs rs' : List (ℕ × ℕ)) :
    rangeIndices (rs ++ rs') = rangeIndices rs ++ rangeIndices rs' := List.flatMap_append

@[simp]
theorem rangeIndices_singleton (r : ℕ × ℕ) : rangeIndices [r] = List.range' r.1 r.2 := by
  simp [rangeIndices]

/-! ## One DRAW_ARRAYS -/

/-- what a `DRAW_ARRAYS` outside the element path does: the new range joins the last one or is stored after it; the
rest of the draw state stays -/
theorem drawArraysMethod_indices {parameter : ℕ} {s s' : DrawState α} (hs : s.inlineElements = [])
    (h : drawArraysMethod parameter s = some s') :
    rangeIndices s'.drawArrays = rangeIndices s.drawArrays ++ drawArraysIndices parameter ∧
      s'.drawArrays.length ≤ s.drawArrays.length + 1 ∧ s'.inlineElements = [] ∧
      s'.inlineBufferLength = s.inlineBufferLength ∧ s'.primitiveMode = s.primitiveMode ∧ s'.drawn = s.drawn := by
  simp only [drawArraysMethod, hs, ne_eq, not_true_eq_false, if_false] at h
  split_ifs at h with hlen
  split at h
  · next lastStart lastCount hlast =>
    have hsplit := List.dropLast_append_getLast? _ hlast
    split_ifs at h with hjoin <;> cases h
    · -- the range continues the last one: the two index runs are one
      refine ⟨?_, by simp, rfl, rfl, rfl, rfl⟩
      conv_rhs => rw [← hsplit]
      simp only [rangeIndices_append, rangeIndices_singleton, List.append_assoc, drawArraysIndices, hjoin.2,
        List.range'_append_1]
    · exact ⟨by simp [drawArraysIndices], by simp, rfl, rfl, rfl, rfl⟩
  · next hlast =>
    cases h
    rw [List.getLast?_eq_none_iff.mp hlast]
    exact ⟨by simp [drawArraysIndices], by simp, rfl, rfl, rfl, rfl⟩

/-! ## Blocks of DRAW_ARRAYS, one method at a time -/

theorem runMethods_append (F : FloatOps α) (xs ys : List (ℕ × ℕ)) (s : DrawState α) :
    runMethods F (xs ++ ys) s = (runMethods F xs s).bind (runMethods F ys) := by
  induction xs generalizing s with
  | nil => rfl
  | cons x xs ih =>
    obtain ⟨method, parameter⟩ := x
    simp only [List.cons_append, runMethods]
    cases kelvinMethod F method parameter s with
    | none => rfl
    | some s => exact ih s

/-- a block that draws ranges: `SET_BEGIN_END(mode)`, `DRAW_ARRAYS` for each parameter, `SET_BEGIN_END(END)` -/
def arraysBlock (mode : ℕ) (parameters : List ℕ) : List (ℕ × ℕ) :=
  (nv097SetBeginEnd, mode) :: parameters.map (nv097DrawArrays, ·) ++ [(nv097SetBeginEnd, nv097SetBeginEndOpEnd)]

theorem kelvinMethod_drawArrays (F : FloatOps α) (parameter : ℕ) (s : DrawState α) :
    kelvinMethod F nv097DrawArrays parameter s = drawArraysMethod parameter s := by
  simp [kelvinMethod, nv097SetBeginEnd, nv097DrawArrays]

/-- the `DRAW_ARRAYS` of a block, from a state with no elements: they succeed while fewer than `1250` ranges are
stored, and the stored ranges grow by their indices -/
theorem runMethods_drawArrays (F : FloatOps α) (parameters : List ℕ) (s : DrawState α) (hs : s.inlineElements = [])
    (hlen : s.drawArrays.length + parameters.length < drawArraysSlots) :
    ∃ s', runMethods F (parameters.map (nv097DrawArrays, ·)) s = some s' ∧
      rangeIndices s'.drawArrays = rangeIndices s.drawArrays ++ parameters.flatMap drawArraysIndices ∧
      s'.drawArrays.length ≤ s.drawArrays.length + parameters.length ∧ s'.inlineElements = [] ∧
      s'.inlineBufferLength = s.inlineBufferLength ∧ s'.primitiveMode = s.primitiveMode ∧ s'.drawn = s.drawn := by
  induction parameters generalizing s with
  | nil => exact ⟨s, rfl, by simp, by simp, hs, rfl, rfl, rfl⟩
  | cons parameter parameters ih =>
    -- the first range is stored because fewer than `1250` are
    have hroom : s.drawArrays.length < drawArraysSlots := by simp at hlen; omega
    obtain ⟨s₁, h₁⟩ : ∃ s₁, drawArraysMethod parameter s = some s₁ := by
      simp only [drawArraysMethod, hs, ne_eq, not_true_eq_false, if_false, if_pos hroom]
      split
      · split_ifs <;> exact ⟨_, rfl⟩
      · exact ⟨_, rfl⟩
    obtain ⟨hi₁, hl₁, he₁, hb₁, hm₁, hd₁⟩ := drawArraysMethod_indices hs h₁
    obtain ⟨s', h', hi', hl', he', hb', hm', hd'⟩ := ih s₁ he₁ (by simp at hlen; omega)
    refine ⟨s', ?_, ?_, ?_, he', hb'.trans hb₁, hm'.trans hm₁, hd'.trans hd₁⟩
    · simp [runMethods, kelvinMethod_drawArrays, h₁, h']
    · simp [hi', hi₁]
    · simp; omega

theorem setBeginEnd_begin {mode : ℕ} (hmode : mode ≠ nv097SetBeginEndOpEnd) (hpoly : mode ≤ nv097SetBeginEndOpPolygon)
    {s : DrawState α} (hs : s.primitiveMode = primTypeInvalid) :
    setBeginEnd mode s = some (resetInlineBuffers { s with primitiveMode := mode }) := by
  simp [setBeginEnd, hmode, hs, hpoly]

/-- one block of ranges, delivered one method at a time, draws the indices of its ranges in one multi-draw and closes -/
theorem runMethods_arraysBlock (F : FloatOps α) {mode : ℕ} (hmode : mode ≠ nv097SetBeginEndOpEnd)
    (hpoly : mode ≤ nv097SetBeginEndOpPolygon) {parameters : List ℕ} (hne : parameters ≠ [])
    (hlen : parameters.length < drawArraysSlots) {s : DrawState α} (hs : s.primitiveMode = primTypeInvalid) :
    ∃ s', runMethods F (arraysBlock mode parameters) s = some s' ∧ s'.primitiveMode = primTypeInvalid ∧
      s'.drawn.map Draw.indices = s.drawn.map Draw.indices ++ [parameters.flatMap drawArraysIndices] := by
  have hbegin : kelvinMethod F nv097SetBeginEnd mode s = some (resetInlineBuffers { s with primitiveMode := mode }) := by
    simp [kelvinMethod, setBeginEnd_begin hmode hpoly hs]
  obtain ⟨s₁, h₁, hi₁, -, he₁, hb₁, hm₁, hd₁⟩ :=
    runMethods_drawArrays F parameters (resetInlineBuffers { s with primitiveMode := mode }) rfl
      (by simpa [resetInlineBuffers, resetDrawArrays] using hlen)
  simp only [resetInlineBuffers, resetDrawArrays, rangeIndices_nil, List.nil_append] at hi₁ hb₁ hm₁ hd₁
  -- the block's ranges are not empty, so END takes the draw-arrays path of flush_draw
  have hranges : s₁.drawArrays ≠ [] := by
    intro h
    obtain ⟨p, ps, rfl⟩ := List.exists_cons_of_ne_nil hne
    simp [h, drawArraysIndices, drawArraysRange] at hi₁
  have hmode₁ : s₁.primitiveMode ≠ primTypeInvalid := by
    simpa [hm₁, primTypeInvalid, nv097SetBeginEndOpEnd] using hmode
  have hend : kelvinMethod F nv097SetBeginEnd nv097SetBeginEndOpEnd s₁ =
      some { resetInlineBuffers { s₁ with drawn := s₁.drawn ++ [.multiDrawArrays s₁.drawArrays] } with
        primitiveMode := primTypeInvalid } := by
    simp [kelvinMethod, setBeginEnd, hmode₁, flushDraw, hranges, he₁, hb₁]
  refine ⟨{ resetInlineBuffers { s₁ with drawn := s₁.drawn ++ [.multiDrawArrays s₁.drawArrays] } with
    primitiveMode := primTypeInvalid }, ?_, rfl, ?_⟩
  · rw [arraysBlock, List.cons_append, runMethods, hbegin, Option.bind_some, runMethods_append, h₁,
      Option.bind_some]
    simp [runMethods, hend]
  · simp [hd₁, resetInlineBuffers, resetDrawArrays, Draw.indices, hi₁]

theorem referenceDraws_arraysBlock {mode : ℕ} (hmode : mode ≠ nv097SetBeginEndOpEnd) (parameters : List ℕ)
    (rest : List (ℕ × ℕ)) :
    referenceDraws (arraysBlock mode parameters ++ rest) none =
      parameters.flatMap drawArraysIndices :: referenceDraws rest none := by
  -- the DRAW_ARRAYS of the block extend the open block's indices one range at a time
  have hdraws : ∀ (ps : List ℕ) (acc : List ℕ), referenceDraws (ps.map (nv097DrawArrays, ·) ++
      [(nv097SetBeginEnd, nv097SetBeginEndOpEnd)] ++ rest) (some acc) =
      (acc ++ ps.flatMap drawArraysIndices) :: referenceDraws rest none := by
    intro ps
    induction ps with
    | nil => intro acc; simp [referenceDraws]
    | cons p ps ih =>
      intro acc
      simp only [List.map_cons, List.cons_append, referenceDraws, List.flatMap_cons]
      simp only [nv097DrawArrays, nv097SetBeginEnd, Option.map_some, List.append_assoc] at ih ⊢
      simpa using ih (acc ++ drawArraysIndices p)
  simpa [arraysBlock, referenceDraws, hmode] using hdraws parameters []

/-- blocks of ranges, delivered one method at a time, draw exactly the reference: each block's indices once, in one
multi-draw. Contiguous ranges are joined on the way (`drawArraysMethod_indices`) without changing the indices -/
theorem runMethods_arraysBlocks (F : FloatOps α) (blocks : List (ℕ × List ℕ))
    (hblocks : ∀ b ∈ blocks, b.1 ≠ nv097SetBeginEndOpEnd ∧ b.1 ≤ nv097SetBeginEndOpPolygon ∧ b.2 ≠ [] ∧
      b.2.length < drawArraysSlots)
    {s : DrawState α} (hs : s.primitiveMode = primTypeInvalid) :
    ∃ s', runMethods F (blocks.flatMap fun b => arraysBlock b.1 b.2) s = some s' ∧
      s'.drawn.map Draw.indices = s.drawn.map Draw.indices ++ referenceDraws (blocks.flatMap fun b => arraysBlock b.1 b.2) none := by
  induction blocks generalizing s with
  | nil => exact ⟨s, rfl, by simp [referenceDraws]⟩
  | cons b blocks ih =>
    obtain ⟨hmode, hpoly, hne, hlen⟩ := hblocks b (by simp)
    obtain ⟨s₁, h₁, hm₁, hd₁⟩ := runMethods_arraysBlock F hmode hpoly hne hlen hs
    obtain ⟨s', h', hd'⟩ := ih (fun b hb => hblocks b (by simp [hb])) hm₁
    refine ⟨s', ?_, ?_⟩
    · rw [List.flatMap_cons, runMethods_append, h₁]
      exact h'
    · rw [List.flatMap_cons, referenceDraws_arraysBlock hmode, hd', hd₁]
      simp

/-! ## ARRAY_ELEMENT after several ranges -/

/-- with more than one range stored, `ARRAY_ELEMENT32` draws every range, the last one included, and then queues the
last range again as inline elements, ahead of its own index: the last range's indices are drawn twice -/
theorem arrayElement32_redraws_last_range {parameter : ℕ} {s : DrawState α} {ranges : List (ℕ × ℕ)}
    {last : ℕ × ℕ} (hranges : ranges ≠ []) (hs : s.drawArrays = ranges ++ [last]) (he : s.inlineElements = [])
    (hb : s.inlineBufferLength = 0) (hcount : last.2 < nv2aMaxBatchLength) :
    ∃ s', arrayElement32 parameter s = some s' ∧ s'.drawn = s.drawn ++ [.multiDrawArrays (ranges ++ [last])] ∧
      s'.inlineElements = List.range' last.1 last.2 ++ [parameter] := by
  have hpos : 0 < ranges.length := List.length_pos_of_ne_nil hranges
  refine ⟨{ s with
    drawn := s.drawn ++ [.multiDrawArrays (ranges ++ [last])]
    inlineBufferLength := 0
    inlineElements := List.range' last.1 last.2 ++ [parameter]
    drawArrays := []
    drawArraysPreventConnect := false }, ?_, rfl, rfl⟩
  have hflush : flushDraw s = some { s with drawn := s.drawn ++ [.multiDrawArrays (ranges ++ [last])] } := by
    simp [flushDraw, hs, he, hb]
  simp [arrayElement32, arrayElement, hs, expandDrawArrays, hpos, hflush, resetInlineBuffers, resetDrawArrays,
    hcount]

/-! ## Through the pusher -/

/-- two blocks `BEGIN(TRIANGLES)`, `DRAW_ARRAYS`, `END`, the second with an `ARRAY_ELEMENT32` after its range -/
def squashedBlocks : List (ℕ × ℕ) :=
  [(nv097SetBeginEnd, 5), (nv097DrawArrays, 0x02000000), (nv097SetBeginEnd, nv097SetBeginEndOpEnd),
    (nv097SetBeginEnd, 5), (nv097DrawArrays, 0x0200000A), (nv097ArrayElement32, 20),
    (nv097SetBeginEnd, nv097SetBeginEndOpEnd)]

/-- the pusher squashes the first `END`, `BEGIN`, so both ranges are stored when the `ARRAY_ELEMENT32` comes; it draws
both, then `10, 11, 12, 20`: the range `10, 11, 12` is drawn twice, where the reference draws it once -/
theorem squashed_blocks_redraw_range :
    (runWords (kelvinEnv (α := Unit) ⟨fun _ => (), fun _ => (), fun _ => (), fun _ => (), (), ()⟩ fun _ => none)
        (encodeMethods squashedBlocks) 20 (initDrawState fun _ => ⟨fun _ => (), false, fun _ _ => ()⟩)).map
      (fun s => s.drawn.map Draw.indices) = some [[0, 1, 2, 10, 11, 12], [10, 11, 12, 20]] ∧
    referenceDraws squashedBlocks none = [[0, 1, 2], [10, 11, 12, 20]] := by
  decide

end Xemu.Pgraph
