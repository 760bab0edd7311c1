import Xemu.Pgraph.Vertex
/-!
# pgraph_method

How PGRAPH hands the words of a method command to its handlers (hw/xbox/nv2a/pgraph/pgraph.c):

* `MethodEntry`: an entry of a method table, with its base, the end of its range (`METHOD_RANGE_END_NAME`) and how the
  handler was declared (`DEF_METHOD`, `DEF_METHOD_INC`, `DEF_METHOD_NON_INC`);
* `handlerCalls`: the handler calls one call of `pgraph_method` makes, by `pgraph_method_inc` and
  `pgraph_method_non_inc`, and the number of words it reports consumed;
* `dispatchMethod`: a class whose handlers are looked up in a table, generic in the handlers' effect;
* `kelvinMethod`: the effect of one handler call of NV_KELVIN_PRIMITIVE on the draw state, for the methods of the draw
  path and the attribute setters; every other method leaves the modelled fields as they are;
* `kelvinPgraphMethod`: the NV_KELVIN_PRIMITIVE case of `pgraph_method`, with the look-ahead that squashes a following
  `SET_BEGIN_END(END)`, `SET_BEGIN_END(mode)`, `DRAW_ARRAYS` into the draw arrays.

`parameters` is the list of pushbuffer words from the current data word on, as `word_ptr` points into the pushbuffer.
-/

namespace Xemu.Pgraph

variable {α σ : Type}

/-! ## Method tables -/

/-- how a handler was declared -/
inductive MethodWrapper
  /-- DEF_METHOD: called once per call of pgraph_method -/
  | plain
  /-- DEF_METHOD_INC: pgraph_method_inc -/
  | inc
  /-- DEF_METHOD_NON_INC: pgraph_method_non_inc -/
  | nonInc
deriving DecidableEq, Repr

/-- an entry of a method table: the handler's base address, the end of its range, and its wrapper -/
structure MethodEntry where
  base : ℕ
  rangeEnd : ℕ
  wrapper : MethodWrapper
deriving DecidableEq, Repr

/-- the handler calls `(method, parameter)` of one call of pgraph_method, and `num_words_consumed`.
pgraph_method_inc runs an increasing command's words to the end of the handler's range, pgraph_method_non_inc runs all
the words of a non-increasing command; otherwise the handler is called once with `parameter` -/
def handlerCalls (e : MethodEntry) (method parameter : ℕ) (parameters : List ℕ) (numWordsAvailable : ℕ)
    (inc : Bool) : List (ℕ × ℕ) × ℕ :=
  match e.wrapper, inc with
  | .inc, true =>
    let count := min numWordsAvailable ((e.rangeEnd - method) / 4)
    ((List.range count).map fun i => (method + 4 * i, parameters.getD i 0), count)
  | .nonInc, false => ((List.range numWordsAvailable).map fun i => (method, parameters.getD i 0), numWordsAvailable)
  | _, _ => ([(method, parameter)], 1)

/-- pgraph_method for a class whose handlers are found in `table`; `handle` is a handler call's effect, given the
entry, the subchannel, the method and the parameter. A method without a handler is skipped as one word -/
def dispatchMethod (table : ℕ → Option MethodEntry) (handle : MethodEntry → ℕ → ℕ → ℕ → σ → Option σ)
    (subchannel method parameter : ℕ) (parameters : List ℕ) (numWordsAvailable : ℕ) (inc : Bool) (s : σ) :
    Option (ℕ × σ) :=
  match table method with
  | none => some (1, s)
  | some e =>
    let r := handlerCalls e method parameter parameters numWordsAvailable inc
    (r.1.foldlM (fun s c => handle e subchannel c.1 c.2 s) s).map fun s => (r.2, s)

/-! ## NV_KELVIN_PRIMITIVE -/

/-- the entries of pgraph_kelvin_methods for the draw path and the attribute setters: base, range (methods.h.inc)
and wrapper -/
def kelvinMethodTable : List (ℕ × ℕ × MethodWrapper) :=
  [(nv097SetBeginEnd, 1, .plain), (nv097ArrayElement16, 1, .nonInc), (nv097ArrayElement32, 1, .nonInc),
    (nv097DrawArrays, 1, .plain),
    (nv097SetVertex3f, 3, .inc), (nv097SetVertex4f, 4, .inc), (nv097SetNormal3f, 3, .inc),
    (nv097SetNormal3s, 3, .inc), (nv097SetDiffuseColor4f, 4, .inc), (nv097SetDiffuseColor3f, 3, .inc),
    (nv097SetDiffuseColor4ub, 1, .inc), (nv097SetSpecularColor4f, 4, .inc), (nv097SetSpecularColor3f, 3, .inc),
    (nv097SetSpecularColor4ub, 1, .inc), (nv097SetTexcoord02f, 2, .inc), (nv097SetTexcoord04f, 4, .inc),
    (nv097SetTexcoord02s, 1, .inc), (nv097SetTexcoord04s, 2, .inc), (nv097SetTexcoord12f, 2, .inc),
    (nv097SetTexcoord14f, 4, .inc), (nv097SetTexcoord12s, 1, .inc), (nv097SetTexcoord14s, 2, .inc),
    (nv097SetTexcoord22f, 2, .inc), (nv097SetTexcoord24f, 4, .inc), (nv097SetTexcoord22s, 1, .inc),
    (nv097SetTexcoord24s, 2, .inc), (nv097SetTexcoord32f, 2, .inc), (nv097SetTexcoord34f, 4, .inc),
    (nv097SetTexcoord32s, 1, .inc), (nv097SetTexcoord34s, 2, .inc), (nv097SetFogCoord, 1, .plain),
    (nv097SetWeight1f, 1, .plain), (nv097SetWeight2f, 2, .inc), (nv097SetWeight3f, 3, .inc),
    (nv097SetWeight4f, 4, .inc), (nv097SetVertexData2fM, 32, .inc), (nv097SetVertexData4fM, 64, .inc),
    (nv097SetVertexData2s, 16, .inc), (nv097SetVertexData4ub, 16, .inc), (nv097SetVertexData4sM, 32, .inc)]

/-- `pgraph_kelvin_methods[METHOD_ADDR_TO_INDEX(method)]`, for the modelled handlers -/
def kelvinMethodEntry (method : ℕ) : Option MethodEntry :=
  (kelvinMethodTable.find? fun e => inMethodRange e.1 e.2.1 method).map fun e => ⟨e.1, e.1 + 4 * e.2.1, e.2.2⟩

/-- one handler call of NV_KELVIN_PRIMITIVE. Methods outside the draw path and the attribute setters do not change
the modelled fields -/
def kelvinMethod (F : FloatOps α) (method parameter : ℕ) (s : DrawState α) : Option (DrawState α) :=
  if method = nv097SetBeginEnd then setBeginEnd parameter s
  else if method = nv097DrawArrays then drawArraysMethod parameter s
  else if method = nv097ArrayElement16 then arrayElement16 parameter s
  else if method = nv097ArrayElement32 then arrayElement32 parameter s
  else match vertexSetter F method parameter with
    | some call => setAttribute call s
    | none => some s

/-- word-by-word delivery: every `(method, parameter)` to its handler, in order -/
def runMethods (F : FloatOps α) : List (ℕ × ℕ) → DrawState α → Option (DrawState α)
  | [], s => some s
  | (method, parameter) :: rest, s => (kelvinMethod F method parameter s).bind (runMethods F rest)

/-- LAM, LAP and LAMP of pgraph_method: after a DRAW_ARRAYS, the next six words look like `SET_BEGIN_END(END)`,
`SET_BEGIN_END(primitive_mode)` and a DRAW_ARRAYS header, in a batch that may still grow. A word is taken for a
header of a method when its bits `0x31fff` are the method -/
def squashBeginEnd (s : DrawState α) (parameters : List ℕ) (maxLookaheadWords : ℕ) : Bool :=
  let lam (i mthd : ℕ) := parameters.getD (i * 2 + 1) 0 &&& 0x31fff == mthd
  let lap (i prm : ℕ) := parameters.getD (i * 2 + 2) 0 == prm
  7 ≤ maxLookaheadWords && s.inlineElements.isEmpty && decide (s.drawArrays.length < drawArraysSlots - 1) &&
    (lam 0 nv097SetBeginEnd && lap 0 nv097SetBeginEndOpEnd) &&
    (lam 1 nv097SetBeginEnd && lap 1 s.primitiveMode) && lam 2 nv097DrawArrays

/-- the NV_KELVIN_PRIMITIVE case of pgraph_method: the handler's calls, then the squash, which skips four more words
and keeps the next range from joining the last one -/
def kelvinPgraphMethod (F : FloatOps α) (method parameter : ℕ) (parameters : List ℕ)
    (numWordsAvailable maxLookaheadWords : ℕ) (inc : Bool) (s : DrawState α) : Option (ℕ × DrawState α) :=
  match kelvinMethodEntry method with
  | none => some (1, s)
  | some e =>
    let r := handlerCalls e method parameter parameters numWordsAvailable inc
    (runMethods F r.1 s).map fun s =>
      if method = nv097DrawArrays ∧ squashBeginEnd s parameters maxLookaheadWords = true then
        (r.2 + 4, { s with drawArraysPreventConnect := true })
      else (r.2, s)

end Xemu.Pgraph
