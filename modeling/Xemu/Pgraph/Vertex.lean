import Xemu.Pgraph.Draw
/-!
# Immediate-mode vertex attributes

The NV097 attribute setters of hw/xbox/nv2a/pgraph/pgraph.c. Each setter makes one write to one attribute: it calls
`pgraph_allocate_inline_buffer_vertices` for the attribute, changes some components of its current value, and, when
it writes the last component of the position, completes a vertex with `pgraph_finish_inline_buffer_vertex`. A setter
is therefore described by a `SetterCall`: the attribute, the change, and whether it completes a vertex; `setAttribute`
performs it. The source's helper macros (`SET_VERTEX_ATTRIBUTE_F`, `SET_VERTEX_COLOR_3F`, ...) are one definition each,
and each handler applies its macro to its own command and attribute.

The float conversions are left abstract in `FloatOps`.
-/

namespace Xemu.Pgraph

variable {α : Type}

/-- the conversions the setters make from a method parameter to a float -/
structure FloatOps (α : Type) where
  /-- `*(float*)&parameter` -/
  ofBits : ℕ → α
  /-- `(float)(int16_t)x` for a 16-bit `x` -/
  ofInt16 : ℕ → α
  /-- `x / 255.0f` for a byte `x` -/
  ofUnorm8 : ℕ → α
  /-- `MAX(-1.0f, (float)(int16_t)x / 32767.0f)` for a 16-bit `x` -/
  ofSnorm16 : ℕ → α
  /-- `0.0f` -/
  zero : α
  /-- `1.0f` -/
  one : α

/-! ## Attribute slots and methods -/

/-- NV2A_VERTEX_ATTR_POSITION -/
def nv2aVertexAttrPosition : Attr := 0
/-- NV2A_VERTEX_ATTR_WEIGHT -/
def nv2aVertexAttrWeight : Attr := 1
/-- NV2A_VERTEX_ATTR_NORMAL -/
def nv2aVertexAttrNormal : Attr := 2
/-- NV2A_VERTEX_ATTR_DIFFUSE -/
def nv2aVertexAttrDiffuse : Attr := 3
/-- NV2A_VERTEX_ATTR_SPECULAR -/
def nv2aVertexAttrSpecular : Attr := 4
/-- NV2A_VERTEX_ATTR_FOG -/
def nv2aVertexAttrFog : Attr := 5
/-- NV2A_VERTEX_ATTR_TEXTURE0 -/
def nv2aVertexAttrTexture0 : Attr := 9
/-- NV2A_VERTEX_ATTR_TEXTURE1 -/
def nv2aVertexAttrTexture1 : Attr := 10
/-- NV2A_VERTEX_ATTR_TEXTURE2 -/
def nv2aVertexAttrTexture2 : Attr := 11
/-- NV2A_VERTEX_ATTR_TEXTURE3 -/
def nv2aVertexAttrTexture3 : Attr := 12

def nv097SetVertex3f : ℕ := 0x1500
def nv097SetVertex4f : ℕ := 0x1518
def nv097SetNormal3f : ℕ := 0x1530
def nv097SetNormal3s : ℕ := 0x1540
def nv097SetDiffuseColor4f : ℕ := 0x1550
def nv097SetDiffuseColor3f : ℕ := 0x1560
def nv097SetDiffuseColor4ub : ℕ := 0x156C
def nv097SetSpecularColor4f : ℕ := 0x1570
def nv097SetSpecularColor3f : ℕ := 0x1580
def nv097SetSpecularColor4ub : ℕ := 0x158C
def nv097SetTexcoord02f : ℕ := 0x1590
def nv097SetTexcoord04f : ℕ := 0x15A0
def nv097SetTexcoord02s : ℕ := 0x1598
def nv097SetTexcoord04s : ℕ := 0x15B0
def nv097SetTexcoord12f : ℕ := 0x15B8
def nv097SetTexcoord14f : ℕ := 0x15C8
def nv097SetTexcoord12s : ℕ := 0x15C0
def nv097SetTexcoord14s : ℕ := 0x15D8
def nv097SetTexcoord22f : ℕ := 0x15E0
def nv097SetTexcoord24f : ℕ := 0x15F0
def nv097SetTexcoord22s : ℕ := 0x15E8
def nv097SetTexcoord24s : ℕ := 0x1600
def nv097SetTexcoord32f : ℕ := 0x1608
def nv097SetTexcoord34f : ℕ := 0x1620
def nv097SetTexcoord32s : ℕ := 0x1610
def nv097SetTexcoord34s : ℕ := 0x1630
def nv097SetFogCoord : ℕ := 0x1698
def nv097SetWeight1f : ℕ := 0x169C
def nv097SetWeight2f : ℕ := 0x16A0
def nv097SetWeight3f : ℕ := 0x16B0
def nv097SetWeight4f : ℕ := 0x16C0
def nv097SetVertexData2fM : ℕ := 0x1880
def nv097SetVertexData4fM : ℕ := 0x1A00
def nv097SetVertexData2s : ℕ := 0x1900
def nv097SetVertexData4ub : ℕ := 0x1940
def nv097SetVertexData4sM : ℕ := 0x1980

/-! ## One write -/

/-- `v` with component `k` set to `x` -/
def setComponent (v : Vec4 α) (k : ℕ) (x : α) : Vec4 α := fun i => if i.val = k then x else v i

/-- one write of a setter: the attribute, the change to its current value, and whether it completes a vertex -/
structure SetterCall (α : Type) where
  attr : Attr
  update : Vec4 α → Vec4 α
  completes : Bool

/-- the body every setter shares: allocate the attribute's inline buffer, change its current value, and complete a
vertex if the write asks for it -/
def setAttribute (call : SetterCall α) (s : DrawState α) : Option (DrawState α) :=
  let s := updateAttribute (allocateInlineBufferVertices s call.attr) call.attr fun a =>
    { a with inlineValue := call.update a.inlineValue }
  if call.completes then finishInlineBufferVertex s else some s

/-! ## The helper macros -/

section Macros

variable (F : FloatOps α)

/-- SET_VERTEX_ATTRIBUTE_F: component `slot` from the parameter's bits -/
def setVertexAttributeF (command : ℕ) (attr : Attr) (method parameter : ℕ) : SetterCall α :=
  ⟨attr, fun v => setComponent v ((method - command) / 4) (F.ofBits parameter), false⟩

/-- SET_VERTEX_COLOR_3F: component `slot`, and alpha `1.0` -/
def setVertexColor3F (command : ℕ) (attr : Attr) (method parameter : ℕ) : SetterCall α :=
  ⟨attr, fun v => setComponent (setComponent v ((method - command) / 4) (F.ofBits parameter)) 3 F.one, false⟩

/-- SET_VERTEX_ATRIBUTE_TEX_2F: component `slot`, then `r = 0.0`, `q = 1.0` -/
def setVertexAtributeTex2F (command : ℕ) (attr : Attr) (method parameter : ℕ) : SetterCall α :=
  ⟨attr, fun v =>
    setComponent (setComponent (setComponent v ((method - command) / 4) (F.ofBits parameter)) 2 F.zero) 3 F.one,
    false⟩

/-- SET_VERTEX_ATRIBUTE_TEX_2S: two signed 16-bit components, then `0.0`, `1.0` -/
def setVertexAtributeTex2S (attr : Attr) (parameter : ℕ) : SetterCall α :=
  ⟨attr, fun v =>
    setComponent (setComponent (setComponent (setComponent v 0 (F.ofInt16 (parameter % 2 ^ 16))) 1
      (F.ofInt16 (parameter / 2 ^ 16))) 2 F.zero) 3 F.one, false⟩

/-- SET_VERTEX_ATTRIBUTE_4S: two signed 16-bit components at `2 * part` -/
def setVertexAttribute4S (command : ℕ) (attr : Attr) (method parameter : ℕ) : SetterCall α :=
  let part := (method - command) / 4 % 2
  ⟨attr, fun v =>
    setComponent (setComponent v (part * 2) (F.ofInt16 (parameter % 2 ^ 16))) (part * 2 + 1)
      (F.ofInt16 (parameter / 2 ^ 16)), false⟩

/-- SET_VERTEX_ATTRIBUTE_4UB: four unsigned bytes, each divided by 255 -/
def setVertexAttribute4UB (attr : Attr) (parameter : ℕ) : SetterCall α :=
  ⟨attr, fun v =>
    setComponent (setComponent (setComponent (setComponent v 0 (F.ofUnorm8 (parameter % 2 ^ 8))) 1
      (F.ofUnorm8 (parameter / 2 ^ 8 % 2 ^ 8))) 2 (F.ofUnorm8 (parameter / 2 ^ 16 % 2 ^ 8))) 3
      (F.ofUnorm8 (parameter / 2 ^ 24 % 2 ^ 8)), false⟩

end Macros

/-! ## The handlers -/

section Handlers

variable (F : FloatOps α) (method parameter : ℕ)

/-- SET_VERTEX3F: the position, completing a vertex at `z` -/
def setVertex3f : SetterCall α :=
  let slot := (method - nv097SetVertex3f) / 4
  ⟨nv2aVertexAttrPosition, fun v => setComponent (setComponent v slot (F.ofBits parameter)) 3 F.one, slot == 2⟩

/-- SET_VERTEX4F: the position, completing a vertex at `w` -/
def setVertex4f : SetterCall α :=
  let slot := (method - nv097SetVertex4f) / 4
  ⟨nv2aVertexAttrPosition, fun v => setComponent v slot (F.ofBits parameter), slot == 3⟩

/-- SET_NORMAL3S: two normalised signed 16-bit components at `2 * part` -/
def setNormal3s : SetterCall α :=
  let part := (method - nv097SetNormal3s) / 4 % 2
  ⟨nv2aVertexAttrNormal, fun v =>
    setComponent (setComponent v (part * 2) (F.ofSnorm16 (parameter % 2 ^ 16))) (part * 2 + 1)
      (F.ofSnorm16 (parameter / 2 ^ 16)), false⟩

/-- SET_FOG_COORD: all four components from the parameter -/
def setFogCoord : SetterCall α :=
  ⟨nv2aVertexAttrFog, fun v =>
    setComponent (setComponent (setComponent (setComponent v 0 (F.ofBits parameter)) 1 (F.ofBits parameter)) 2
      (F.ofBits parameter)) 3 (F.ofBits parameter), false⟩

/-- SET_WEIGHT1F -/
def setWeight1f : SetterCall α :=
  ⟨nv2aVertexAttrWeight, fun v =>
    setComponent (setComponent (setComponent (setComponent v 0 (F.ofBits parameter)) 1 F.zero) 2 F.zero) 3 F.one,
    false⟩

/-- SET_WEIGHT2F -/
def setWeight2f : SetterCall α :=
  ⟨nv2aVertexAttrWeight, fun v =>
    setComponent (setComponent (setComponent v ((method - nv097SetWeight2f) / 4) (F.ofBits parameter)) 2 F.zero) 3
      F.one, false⟩

/-- SET_WEIGHT3F -/
def setWeight3f : SetterCall α :=
  ⟨nv2aVertexAttrWeight, fun v =>
    setComponent (setComponent v ((method - nv097SetWeight3f) / 4) (F.ofBits parameter)) 3 F.one, false⟩

/-- SET_VERTEX_DATA2F_M: component `part` of attribute `slot / 2`; `y` of the position completes a vertex -/
def setVertexData2fM : SetterCall α :=
  let slot := (method - nv097SetVertexData2fM) / 4
  let part := slot % 2
  ⟨Fin.ofNat 16 (slot / 2), fun v =>
    setComponent (setComponent (setComponent v part (F.ofBits parameter)) 2 F.zero) 3 F.one,
    slot / 2 == 0 && part == 1⟩

/-- SET_VERTEX_DATA4F_M: component `part` of attribute `slot / 4`; `w` of the position completes a vertex -/
def setVertexData4fM : SetterCall α :=
  let slot := (method - nv097SetVertexData4fM) / 4
  let part := slot % 4
  ⟨Fin.ofNat 16 (slot / 4), fun v => setComponent v part (F.ofBits parameter), slot / 4 == 0 && part == 3⟩

/-- SET_VERTEX_DATA2S: two signed 16-bit components of attribute `slot`; the position completes a vertex -/
def setVertexData2s : SetterCall α :=
  let slot := (method - nv097SetVertexData2s) / 4
  ⟨Fin.ofNat 16 slot, fun v =>
    setComponent (setComponent (setComponent (setComponent v 0 (F.ofInt16 (parameter % 2 ^ 16))) 1
      (F.ofInt16 (parameter / 2 ^ 16))) 2 F.zero) 3 F.one, slot == 0⟩

/-- SET_VERTEX_DATA4UB: four unsigned bytes of attribute `slot`; the position completes a vertex -/
def setVertexData4ub : SetterCall α :=
  let slot := (method - nv097SetVertexData4ub) / 4
  ⟨Fin.ofNat 16 slot, (setVertexAttribute4UB F (Fin.ofNat 16 slot) parameter).update, slot == 0⟩

/-- SET_VERTEX_DATA4S_M: two signed 16-bit components at `2 * part` of attribute `slot / 2`; the second half of the
position completes a vertex -/
def setVertexData4sM : SetterCall α :=
  let slot := (method - nv097SetVertexData4sM) / 4
  let part := slot % 2
  ⟨Fin.ofNat 16 (slot / 2), fun v =>
    setComponent (setComponent v (part * 2) (F.ofInt16 (parameter % 2 ^ 16))) (part * 2 + 1)
      (F.ofInt16 (parameter / 2 ^ 16)), slot / 2 == 0 && part == 1⟩

/-- SET_NORMAL3F -/
def setNormal3f : SetterCall α := setVertexAttributeF F nv097SetNormal3f nv2aVertexAttrNormal method parameter
/-- SET_DIFFUSE_COLOR4F -/
def setDiffuseColor4f : SetterCall α :=
  setVertexAttributeF F nv097SetDiffuseColor4f nv2aVertexAttrDiffuse method parameter
/-- SET_SPECULAR_COLOR4F -/
def setSpecularColor4f : SetterCall α :=
  setVertexAttributeF F nv097SetSpecularColor4f nv2aVertexAttrSpecular method parameter
/-- SET_TEXCOORD0_4F -/
def setTexcoord04f : SetterCall α := setVertexAttributeF F nv097SetTexcoord04f nv2aVertexAttrTexture0 method parameter
/-- SET_TEXCOORD1_4F -/
def setTexcoord14f : SetterCall α := setVertexAttributeF F nv097SetTexcoord14f nv2aVertexAttrTexture1 method parameter
/-- SET_TEXCOORD2_4F -/
def setTexcoord24f : SetterCall α := setVertexAttributeF F nv097SetTexcoord24f nv2aVertexAttrTexture2 method parameter
/-- SET_TEXCOORD3_4F -/
def setTexcoord34f : SetterCall α := setVertexAttributeF F nv097SetTexcoord34f nv2aVertexAttrTexture3 method parameter
/-- SET_WEIGHT4F -/
def setWeight4f : SetterCall α := setVertexAttributeF F nv097SetWeight4f nv2aVertexAttrWeight method parameter
/-- SET_DIFFUSE_COLOR3F -/
def setDiffuseColor3f : SetterCall α :=
  setVertexColor3F F nv097SetDiffuseColor3f nv2aVertexAttrDiffuse method parameter
/-- SET_SPECULAR_COLOR3F -/
def setSpecularColor3f : SetterCall α :=
  setVertexColor3F F nv097SetSpecularColor3f nv2aVertexAttrSpecular method parameter
/-- SET_TEXCOORD0_2F -/
def setTexcoord02f : SetterCall α :=
  setVertexAtributeTex2F F nv097SetTexcoord02f nv2aVertexAttrTexture0 method parameter
/-- SET_TEXCOORD1_2F -/
def setTexcoord12f : SetterCall α :=
  setVertexAtributeTex2F F nv097SetTexcoord12f nv2aVertexAttrTexture1 method parameter
/-- SET_TEXCOORD2_2F -/
def setTexcoord22f : SetterCall α :=
  setVertexAtributeTex2F F nv097SetTexcoord22f nv2aVertexAttrTexture2 method parameter
/-- SET_TEXCOORD3_2F -/
def setTexcoord32f : SetterCall α :=
  setVertexAtributeTex2F F nv097SetTexcoord32f nv2aVertexAttrTexture3 method parameter
/-- SET_TEXCOORD0_2S -/
def setTexcoord02s : SetterCall α := setVertexAtributeTex2S F nv2aVertexAttrTexture0 parameter
/-- SET_TEXCOORD1_2S -/
def setTexcoord12s : SetterCall α := setVertexAtributeTex2S F nv2aVertexAttrTexture1 parameter
/-- SET_TEXCOORD2_2S -/
def setTexcoord22s : SetterCall α := setVertexAtributeTex2S F nv2aVertexAttrTexture2 parameter
/-- SET_TEXCOORD3_2S -/
def setTexcoord32s : SetterCall α := setVertexAtributeTex2S F nv2aVertexAttrTexture3 parameter
/-- SET_TEXCOORD0_4S -/
def setTexcoord04s : SetterCall α :=
  setVertexAttribute4S F nv097SetTexcoord04s nv2aVertexAttrTexture0 method parameter
/-- SET_TEXCOORD1_4S -/
def setTexcoord14s : SetterCall α :=
  setVertexAttribute4S F nv097SetTexcoord14s nv2aVertexAttrTexture1 method parameter
/-- SET_TEXCOORD2_4S -/
def setTexcoord24s : SetterCall α :=
  setVertexAttribute4S F nv097SetTexcoord24s nv2aVertexAttrTexture2 method parameter
/-- SET_TEXCOORD3_4S -/
def setTexcoord34s : SetterCall α :=
  setVertexAttribute4S F nv097SetTexcoord34s nv2aVertexAttrTexture3 method parameter
/-- SET_DIFFUSE_COLOR4UB -/
def setDiffuseColor4ub : SetterCall α := setVertexAttribute4UB F nv2aVertexAttrDiffuse parameter
/-- SET_SPECULAR_COLOR4UB -/
def setSpecularColor4ub : SetterCall α := setVertexAttribute4UB F nv2aVertexAttrSpecular parameter

end Handlers

/-! ## Dispatch -/

/-- the method lies in the `range` words from `base` -/
def inMethodRange (base range method : ℕ) : Bool := base ≤ method && method < base + 4 * range

theorem inMethodRange_iff {base range method : ℕ} :
    inMethodRange base range method = true ↔ base ≤ method ∧ method < base + 4 * range := by
  simp [inMethodRange]

/-- the setter a method address selects in pgraph_kelvin_methods, with its range from methods.h.inc, or `none` for
a method that is not an attribute setter -/
def vertexSetter (F : FloatOps α) (method parameter : ℕ) : Option (SetterCall α) :=
  let table : List (ℕ × ℕ × (ℕ → ℕ → SetterCall α)) :=
    [(nv097SetVertex3f, 3, setVertex3f F), (nv097SetVertex4f, 4, setVertex4f F),
      (nv097SetNormal3f, 3, setNormal3f F), (nv097SetNormal3s, 3, setNormal3s F),
      (nv097SetDiffuseColor4f, 4, setDiffuseColor4f F), (nv097SetDiffuseColor3f, 3, setDiffuseColor3f F),
      (nv097SetDiffuseColor4ub, 1, fun _ => setDiffuseColor4ub F), (nv097SetSpecularColor4f, 4, setSpecularColor4f F),
      (nv097SetSpecularColor3f, 3, setSpecularColor3f F), (nv097SetSpecularColor4ub, 1, fun _ => setSpecularColor4ub F),
      (nv097SetTexcoord02f, 2, setTexcoord02f F), (nv097SetTexcoord04f, 4, setTexcoord04f F),
      (nv097SetTexcoord02s, 1, fun _ => setTexcoord02s F), (nv097SetTexcoord04s, 2, setTexcoord04s F),
      (nv097SetTexcoord12f, 2, setTexcoord12f F), (nv097SetTexcoord14f, 4, setTexcoord14f F),
      (nv097SetTexcoord12s, 1, fun _ => setTexcoord12s F), (nv097SetTexcoord14s, 2, setTexcoord14s F),
      (nv097SetTexcoord22f, 2, setTexcoord22f F), (nv097SetTexcoord24f, 4, setTexcoord24f F),
      (nv097SetTexcoord22s, 1, fun _ => setTexcoord22s F), (nv097SetTexcoord24s, 2, setTexcoord24s F),
      (nv097SetTexcoord32f, 2, setTexcoord32f F), (nv097SetTexcoord34f, 4, setTexcoord34f F),
      (nv097SetTexcoord32s, 1, fun _ => setTexcoord32s F), (nv097SetTexcoord34s, 2, setTexcoord34s F),
      (nv097SetFogCoord, 1, fun _ => setFogCoord F), (nv097SetWeight1f, 1, fun _ => setWeight1f F),
      (nv097SetWeight2f, 2, setWeight2f F), (nv097SetWeight3f, 3, setWeight3f F),
      (nv097SetWeight4f, 4, setWeight4f F), (nv097SetVertexData2fM, 32, setVertexData2fM F),
      (nv097SetVertexData4fM, 64, setVertexData4fM F), (nv097SetVertexData2s, 16, setVertexData2s F),
      (nv097SetVertexData4ub, 16, setVertexData4ub F), (nv097SetVertexData4sM, 32, setVertexData4sM F)]
  (table.find? fun e => inMethodRange e.1 e.2.1 method).map fun e => e.2.2 method parameter

end Xemu.Pgraph
