import Xemu.Pgraph.Batching
/-!
# Immediate-mode vertex capture

A block `SET_BEGIN_END(mode)`, attribute setters, `SET_BEGIN_END(END)` is drawn from the inline buffers of vertex.c.
The reference (`Capture`) is the guest's view: the current value of every attribute after each write, and the values of
all attributes at each completed vertex. `Captures` relates the draw state to it inside a block:

* the inline buffer holds one vertex per completed vertex of the reference;
* each attribute's `inline_value` is its current value;
* the value the renderer would send for vertex `i` (`drawnValue`) is the value at the `i`-th completed vertex;
* an attribute that is not populated has kept one value since the block's first vertex.

Buffers are filled lazily: an attribute is given a buffer by its first write after a vertex, which back-fills the
earlier vertices with its old value. `Captures.setAttribute` shows that every setter keeps the relation, whatever
populated flags an earlier block left behind. At END (`vertex_capture_block`) the inline-buffer draw sends exactly the
reference's vertices, and afterwards every attribute holds its value at the last completed vertex: a write made after
the last vertex is lost (`vertex_capture_loses_late_write`).
-/

namespace Xemu.Pgraph

variable {α : Type}

/-! ## The reference -/

/-- the guest's view of a block: current values, and the values at each completed vertex -/
structure Capture (α : Type) where
  current : Attr → Vec4 α
  vertices : List (Attr → Vec4 α)

/-- one setter's write in the reference -/
def Capture.write (c : Capture α) (call : SetterCall α) : Capture α :=
  let current := Function.update c.current call.attr (call.update (c.current call.attr))
  ⟨current, if call.completes then c.vertices ++ [current] else c.vertices⟩

/-- the writes the setters among `methods` make -/
def setterCalls (F : FloatOps α) (methods : List (ℕ × ℕ)) : List (SetterCall α) :=
  methods.filterMap fun m => vertexSetter F m.1 m.2

/-- the reference of a block whose attributes start at `start` -/
def capture (start : Attr → Vec4 α) (calls : List (SetterCall α)) : Capture α :=
  calls.foldl Capture.write ⟨start, []⟩

theorem length_write_le (c : Capture α) (call : SetterCall α) :
    c.vertices.length ≤ (c.write call).vertices.length := by
  unfold Capture.write
  split <;> simp

theorem length_foldl_write_le (c : Capture α) (calls : List (SetterCall α)) :
    c.vertices.length ≤ (calls.foldl Capture.write c).vertices.length := by
  induction calls generalizing c with
  | nil => exact Nat.le_refl _
  | cons call calls ih => exact Nat.le_trans (length_write_le c call) (ih _)

/-! ## The draw state's fields under the vertex.c helpers -/

section Fields

variable (s : DrawState α) (attr : Attr) (f : VertexAttribute α → VertexAttribute α)

@[simp] theorem inlineBufferLength_updateAttribute :
    (updateAttribute s attr f).inlineBufferLength = s.inlineBufferLength := rfl
@[simp] theorem inlineElements_updateAttribute : (updateAttribute s attr f).inlineElements = s.inlineElements := rfl
@[simp] theorem drawArrays_updateAttribute : (updateAttribute s attr f).drawArrays = s.drawArrays := rfl
@[simp] theorem primitiveMode_updateAttribute : (updateAttribute s attr f).primitiveMode = s.primitiveMode := rfl
@[simp] theorem drawn_updateAttribute : (updateAttribute s attr f).drawn = s.drawn := rfl
@[simp] theorem vertexAttributes_updateAttribute :
    (updateAttribute s attr f).vertexAttributes =
      Function.update s.vertexAttributes attr (f (s.vertexAttributes attr)) := rfl

@[simp] theorem inlineBufferLength_allocate :
    (allocateInlineBufferVertices s attr).inlineBufferLength = s.inlineBufferLength := by
  unfold allocateInlineBufferVertices; split <;> rfl
@[simp] theorem inlineElements_allocate : (allocateInlineBufferVertices s attr).inlineElements = s.inlineElements := by
  unfold allocateInlineBufferVertices; split <;> rfl
@[simp] theorem drawArrays_allocate : (allocateInlineBufferVertices s attr).drawArrays = s.drawArrays := by
  unfold allocateInlineBufferVertices; split <;> rfl
@[simp] theorem primitiveMode_allocate : (allocateInlineBufferVertices s attr).primitiveMode = s.primitiveMode := by
  unfold allocateInlineBufferVertices; split <;> rfl
@[simp] theorem drawn_allocate : (allocateInlineBufferVertices s attr).drawn = s.drawn := by
  unfold allocateInlineBufferVertices; split <;> rfl

/-- after the allocation the written attribute has a buffer, unless no vertex was completed yet -/
theorem allocate_populated :
    ((allocateInlineBufferVertices s attr).vertexAttributes attr).inlineBufferPopulated = true ∨
      s.inlineBufferLength = 0 := by
  unfold allocateInlineBufferVertices
  split_ifs with h
  · rcases h with h | h
    · exact .inl h
    · exact .inr h
  · simp

end Fields

/-! ## The invariant -/

/-- the draw state inside a block follows the reference `c` -/
structure Captures (s : DrawState α) (c : Capture α) : Prop where
  length : s.inlineBufferLength = c.vertices.length
  current : ∀ a, (s.vertexAttributes a).inlineValue = c.current a
  recorded : ∀ a i (hi : i < c.vertices.length), drawnValue (s.vertexAttributes a) i = c.vertices[i] a
  unpopulated : ∀ a, (s.vertexAttributes a).inlineBufferPopulated = false → ∀ v ∈ c.vertices, v a = c.current a
  inlineElements : s.inlineElements = []
  drawArrays : s.drawArrays = []
  primitiveMode : s.primitiveMode ≠ primTypeInvalid

variable {s : DrawState α} {c : Capture α}

/-- BEGIN resets the inline buffers; the reference starts from the current values with no vertex -/
theorem captures_begin {mode : ℕ} (hmode : mode ≠ nv097SetBeginEndOpEnd) :
    Captures (resetInlineBuffers { s with primitiveMode := mode })
      ⟨fun a => (s.vertexAttributes a).inlineValue, []⟩ where
  length := rfl
  current _ := rfl
  recorded _ _ hi := absurd hi (Nat.not_lt_zero _)
  unpopulated _ _ _ hv := absurd hv List.not_mem_nil
  inlineElements := rfl
  drawArrays := rfl
  primitiveMode := hmode

/-- the back-fill keeps the relation: the earlier vertices get the old value, which an unpopulated attribute has held
since the first vertex -/
theorem Captures.allocate (h : Captures s c) (attr : Attr) : Captures (allocateInlineBufferVertices s attr) c := by
  unfold allocateInlineBufferVertices
  split_ifs with hskip
  · exact h
  · simp only [not_or, Bool.not_eq_true] at hskip
    refine ⟨h.length, fun a => ?_, fun a i hi => ?_, fun a ha => ?_, h.inlineElements, h.drawArrays,
      h.primitiveMode⟩
    · by_cases ha : a = attr
      · subst ha; simp [h.current]
      · simp [ha, h.current]
    · by_cases ha : a = attr
      · subst ha
        have hlt : i < s.inlineBufferLength := h.length ▸ hi
        simp only [vertexAttributes_updateAttribute, Function.update_self, drawnValue, if_true, hlt, h.current]
        exact (h.unpopulated a hskip.1 _ (List.getElem_mem hi)).symm
      · simpa [ha] using h.recorded a i hi
    · by_cases ha' : a = attr
      · subst ha'; simp at ha
      · simp only [vertexAttributes_updateAttribute, Function.update_of_ne ha'] at ha
        exact h.unpopulated a ha

/-- the write itself: the written attribute's current value changes; its recorded vertices do not, as it is populated
or there are none -/
theorem Captures.update (h : Captures s c) {attr : Attr}
    (hp : (s.vertexAttributes attr).inlineBufferPopulated = true ∨ s.inlineBufferLength = 0)
    (f : Vec4 α → Vec4 α) :
    Captures (updateAttribute s attr fun a => { a with inlineValue := f a.inlineValue })
      ⟨Function.update c.current attr (f (c.current attr)), c.vertices⟩ := by
  refine ⟨h.length, fun a => ?_, fun a i hi => ?_, fun a ha => ?_, h.inlineElements, h.drawArrays, h.primitiveMode⟩
  · by_cases ha : a = attr
    · subst ha; simp [h.current]
    · simp [ha, h.current]
  · by_cases ha : a = attr
    · subst ha
      rcases hp with hp | hp
      · simpa [drawnValue, hp] using h.recorded a i hi
      · have hzero : c.vertices.length = 0 := h.length.symm.trans hp
        simp only at hi
        omega
    · simpa [ha] using h.recorded a i hi
  · intro v hv
    by_cases ha' : a = attr
    · subst ha'
      -- an unpopulated written attribute means no vertex yet
      have hempty : c.vertices = [] := by
        rcases hp with hp | hp
        · simp [hp] at ha
        · exact List.eq_nil_of_length_eq_zero (h.length ▸ hp)
      simp [hempty] at hv
    · simp only [vertexAttributes_updateAttribute, Function.update_of_ne ha'] at ha
      simpa [ha'] using h.unpopulated a ha v hv

/-- completing a vertex records the current values, as the reference does -/
theorem Captures.finish (h : Captures s c) (hroom : s.inlineBufferLength < nv2aMaxBatchLength) :
    ∃ s', finishInlineBufferVertex s = some s' ∧ s'.drawn = s.drawn ∧
      Captures s' ⟨c.current, c.vertices ++ [c.current]⟩ := by
  refine ⟨_, if_pos hroom, rfl, by simp [h.length], fun a => ?_, fun a i hi => ?_, fun a ha => ?_, h.inlineElements,
    h.drawArrays, h.primitiveMode⟩
  · simp only
    split <;> exact h.current a
  · simp only [List.length_append, List.length_singleton] at hi
    have hlen := h.length
    rcases Nat.lt_or_ge i c.vertices.length with hlt | hge
    · -- an old vertex: the new entry sits past it
      have hne : i ≠ c.vertices.length := by omega
      rw [List.getElem_append_left hlt, ← h.recorded a i hlt]
      simp only [drawnValue]
      split <;> simp [*]
    · have heq : i = c.vertices.length := by omega
      subst heq
      rw [List.getElem_append_right (Nat.le_refl _)]
      simp only [drawnValue, List.getElem_singleton]
      split <;> simp [*, h.length, h.current]
  · intro v hv
    simp only at ha
    split at ha
    · simp_all
    · rcases List.mem_append.mp hv with hv | hv
      · exact h.unpopulated a ha v hv
      · simp at hv; simp [hv]

/-- one setter keeps the relation, with the reference making the same write -/
theorem Captures.setAttribute (h : Captures s c) (call : SetterCall α)
    (hroom : call.completes = true → c.vertices.length < nv2aMaxBatchLength) :
    ∃ s', setAttribute call s = some s' ∧ s'.drawn = s.drawn ∧ Captures s' (c.write call) := by
  have h₂ := (h.allocate call.attr).update (by simpa using allocate_populated s call.attr) call.update
  unfold Xemu.Pgraph.setAttribute Capture.write
  cases hc : call.completes with
  | false => exact ⟨_, rfl, by simp, by simpa using h₂⟩
  | true =>
    obtain ⟨s', hs', hd', hc'⟩ := h₂.finish (by simpa [h.length] using hroom hc)
    exact ⟨s', hs', by simpa using hd', by simpa using hc'⟩

/-! ## Setters among the methods -/

/-- the addresses of the draw methods select no setter -/
theorem vertexSetter_draw_methods (F : FloatOps α) (parameter : ℕ) :
    vertexSetter F nv097SetBeginEnd parameter = none ∧ vertexSetter F nv097DrawArrays parameter = none ∧
      vertexSetter F nv097ArrayElement16 parameter = none ∧ vertexSetter F nv097ArrayElement32 parameter = none :=
  ⟨rfl, rfl, rfl, rfl⟩

theorem kelvinMethod_of_vertexSetter {F : FloatOps α} {method parameter : ℕ} {call : SetterCall α}
    (h : vertexSetter F method parameter = some call) (s : DrawState α) :
    kelvinMethod F method parameter s = setAttribute call s := by
  obtain ⟨h₁, h₂, h₃, h₄⟩ := vertexSetter_draw_methods F parameter
  have hne : ∀ m, vertexSetter F m parameter = none → method ≠ m := by
    rintro m hm rfl
    simp [hm] at h
  simp [kelvinMethod, hne _ h₁, hne _ h₂, hne _ h₃, hne _ h₄, h]

/-- a run of setters keeps the relation, as long as the vertices fit in the batch -/
theorem Captures.runMethods {F : FloatOps α} (methods : List (ℕ × ℕ))
    (hset : ∀ m ∈ methods, (vertexSetter F m.1 m.2).isSome) (h : Captures s c)
    (hroom : ((setterCalls F methods).foldl Capture.write c).vertices.length ≤ nv2aMaxBatchLength) :
    ∃ s', runMethods F methods s = some s' ∧ s'.drawn = s.drawn ∧
      Captures s' ((setterCalls F methods).foldl Capture.write c) := by
  induction methods generalizing s c with
  | nil => exact ⟨s, rfl, rfl, h⟩
  | cons m methods ih =>
    obtain ⟨call, hcall⟩ := Option.isSome_iff_exists.mp (hset m (by simp))
    have hcalls : setterCalls F (m :: methods) = call :: setterCalls F methods := by
      simp [setterCalls, hcall]
    rw [hcalls, List.foldl_cons] at hroom ⊢
    -- a completing write adds a vertex that the final count includes
    have hroom₁ : call.completes = true → c.vertices.length < nv2aMaxBatchLength := by
      intro hc
      have hgrow : (c.write call).vertices.length = c.vertices.length + 1 := by simp [Capture.write, hc]
      have := length_foldl_write_le (c.write call) (setterCalls F methods)
      omega
    obtain ⟨s₁, h₁, hd₁, hc₁⟩ := h.setAttribute call hroom₁
    obtain ⟨s', h', hd', hc'⟩ := ih (fun m hm => hset m (by simp [hm])) hc₁ hroom
    exact ⟨s', by simp [Xemu.Pgraph.runMethods, kelvinMethod_of_vertexSetter hcall, h₁, h'], hd'.trans hd₁, hc'⟩

/-! ## END -/

/-- the vertices the inline-buffer draw sends are the reference's -/
theorem Captures.drawn_vertices (h : Captures s c) :
    ((List.range s.inlineBufferLength).map fun i attr => drawnValue (s.vertexAttributes attr) i) = c.vertices := by
  apply List.ext_getElem
  · simp [h.length]
  · intro i hi hi'
    funext a
    simpa using h.recorded a i hi'

/-- after the inline-buffer draw, every attribute holds its value at the last vertex -/
theorem Captures.afterInlineDraw (h : Captures s c) {last : Attr → Vec4 α} (hlast : c.vertices.getLast? = some last)
    (a : Attr) : (Xemu.Pgraph.afterInlineDraw s.inlineBufferLength (s.vertexAttributes a)).inlineValue = last a := by
  have hne : c.vertices ≠ [] := by rintro hc; simp [hc] at hlast
  have hlen : s.inlineBufferLength - 1 < c.vertices.length := by
    have := List.length_pos_of_ne_nil hne
    have := h.length
    omega
  have hget : c.vertices[s.inlineBufferLength - 1] = last := by
    rw [List.getLast?_eq_getElem?] at hlast
    obtain ⟨_, hx⟩ := List.getElem?_eq_some_iff.mp hlast
    simpa [h.length] using hx
  unfold Xemu.Pgraph.afterInlineDraw
  split
  · next hp =>
    have := h.recorded a _ hlen
    simp only [drawnValue, hp, if_true] at this
    simp [this, hget]
  · next hp =>
    simp only [Bool.not_eq_true] at hp
    rw [h.current a, ← h.unpopulated a hp last (List.mem_of_getLast? hlast)]

/-- END closes the block: the inline-buffer draw sends the reference's vertices, and every attribute then holds its
value at the last vertex (or its current value if no vertex was completed) -/
theorem Captures.setBeginEnd_end (h : Captures s c) :
    ∃ s', setBeginEnd nv097SetBeginEndOpEnd s = some s' ∧
      s'.drawn = s.drawn ++ (if c.vertices = [] then [] else [.inlineBuffer c.vertices]) ∧
      ∀ a, (s'.vertexAttributes a).inlineValue = ((c.vertices.getLast?.map fun v => v a).getD (c.current a)) := by
  have hend : ∀ s', flushDraw s = some s' →
      setBeginEnd nv097SetBeginEndOpEnd s = some { resetInlineBuffers s' with primitiveMode := primTypeInvalid } := by
    intro s' hs'
    simp [setBeginEnd, h.primitiveMode, hs']
  by_cases hv : c.vertices = []
  · -- no vertex: flush_draw has nothing to draw
    have hlen : s.inlineBufferLength = 0 := by simp [h.length, hv]
    have hflush : flushDraw s = some s := by simp [flushDraw, h.drawArrays, h.inlineElements, hlen]
    refine ⟨_, hend s hflush, ?_, fun a => ?_⟩
    · simp [resetInlineBuffers, resetDrawArrays, hv]
    · simp [resetInlineBuffers, resetDrawArrays, hv, h.current]
  · obtain ⟨last, hlast⟩ := Option.isSome_iff_exists.mp (List.getLast?_isSome.mpr hv)
    have hlen : s.inlineBufferLength ≠ 0 := by simpa [h.length] using hv
    have hflush : flushDraw s = some { s with
        drawn := s.drawn ++ [.inlineBuffer c.vertices]
        vertexAttributes := fun attr => Xemu.Pgraph.afterInlineDraw s.inlineBufferLength (s.vertexAttributes attr) } := by
      simp [flushDraw, h.drawArrays, h.inlineElements, hlen, h.drawn_vertices]
    refine ⟨_, hend _ hflush, ?_, fun a => ?_⟩
    · simp [resetInlineBuffers, resetDrawArrays, hv]
    · simpa [resetInlineBuffers, resetDrawArrays, hlast] using h.afterInlineDraw hlast a

/-! ## A whole block -/

/-- a block of attribute setters, delivered one method at a time. When END is processed, the inline-buffer draw sends,
for every vertex `i` and attribute `a`, the value `a` held when vertex `i` was completed; afterwards every attribute
holds the value it had at the last completed vertex, or its last written value when no vertex was completed. The
attributes may start with any populated flags -/
theorem vertex_capture_block (F : FloatOps α) {s : DrawState α} (hs : s.primitiveMode = primTypeInvalid) {mode : ℕ}
    (hmode : mode ≠ nv097SetBeginEndOpEnd) (hpoly : mode ≤ nv097SetBeginEndOpPolygon) (methods : List (ℕ × ℕ))
    (hset : ∀ m ∈ methods, (vertexSetter F m.1 m.2).isSome)
    (hroom : (capture (fun a => (s.vertexAttributes a).inlineValue) (setterCalls F methods)).vertices.length ≤
      nv2aMaxBatchLength) :
    ∃ s', runMethods F ((nv097SetBeginEnd, mode) :: methods ++ [(nv097SetBeginEnd, nv097SetBeginEndOpEnd)]) s =
        some s' ∧
      (let c := capture (fun a => (s.vertexAttributes a).inlineValue) (setterCalls F methods)
      s'.drawn = s.drawn ++ (if c.vertices = [] then [] else [.inlineBuffer c.vertices]) ∧
        ∀ a, (s'.vertexAttributes a).inlineValue = ((c.vertices.getLast?.map fun v => v a).getD (c.current a))) := by
  obtain ⟨s₁, h₁, hd₁, hc₁⟩ := (captures_begin (s := s) hmode).runMethods methods hset hroom
  obtain ⟨s', h', hd', hv'⟩ := hc₁.setBeginEnd_end
  refine ⟨s', ?_, ?_, hv'⟩
  · have hbegin : kelvinMethod F nv097SetBeginEnd mode s = some (resetInlineBuffers { s with primitiveMode := mode }) :=
      by simp [kelvinMethod, setBeginEnd_begin hmode hpoly hs]
    rw [List.cons_append, Xemu.Pgraph.runMethods, hbegin, Option.bind_some, runMethods_append, h₁, Option.bind_some]
    simp [Xemu.Pgraph.runMethods, kelvinMethod, h']
  · rw [hd', hd₁]
    rfl

/-- float conversions that keep the parameter's bits -/
def bitsFloatOps : FloatOps ℕ := ⟨fun p => p, fun p => p, fun p => p, fun p => p, 0, 1⟩

/-- a vertex from four `SET_VERTEX4F` words, then a diffuse colour written after it -/
def lateDiffuseWrites : List (ℕ × ℕ) :=
  [(nv097SetVertex4f, 1), (nv097SetVertex4f + 4, 2), (nv097SetVertex4f + 8, 3), (nv097SetVertex4f + 12, 4),
    (nv097SetDiffuseColor4ub, 0xFFFFFFFF)]

theorem vertex_capture_block_late_diffuse :
    ∃ s', runMethods bitsFloatOps ((nv097SetBeginEnd, 5) :: lateDiffuseWrites ++
        [(nv097SetBeginEnd, nv097SetBeginEndOpEnd)]) (initDrawState fun _ => ⟨fun _ => 0, false, fun _ _ => 0⟩) =
        some s' ∧
      (let c := capture (fun _ _ => 0) (setterCalls bitsFloatOps lateDiffuseWrites)
      s'.drawn = [] ++ (if c.vertices = [] then [] else [.inlineBuffer c.vertices]) ∧
        ∀ a, (s'.vertexAttributes a).inlineValue = ((c.vertices.getLast?.map fun v => v a).getD (c.current a))) :=
  vertex_capture_block bitsFloatOps rfl (by decide) (by decide) lateDiffuseWrites (by decide) (by decide)

/-- the diffuse colour written after the last vertex does not carry over: after END the attribute holds its value
at the vertex, `0`, where the guest last wrote `255` -/
theorem vertex_capture_loses_late_write :
    (runMethods bitsFloatOps ((nv097SetBeginEnd, 5) :: lateDiffuseWrites ++
        [(nv097SetBeginEnd, nv097SetBeginEndOpEnd)]) (initDrawState fun _ => ⟨fun _ => 0, false, fun _ _ => 0⟩)).map
        (fun s => (s.vertexAttributes nv2aVertexAttrDiffuse).inlineValue 0) = some 0 ∧
      (capture (fun _ _ => 0) (setterCalls bitsFloatOps lateDiffuseWrites)).current nv2aVertexAttrDiffuse 0 = 255 := by
  decide

end Xemu.Pgraph
