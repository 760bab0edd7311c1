import Xemu.Pgraph.Methods
/-!
# The DMA pusher and the puller

A model of `pfifo_run_pusher` and `pfifo_run_puller` (hw/xbox/nv2a/pfifo.c). The pusher reads the pushbuffer from
`dma_get` to `dma_put`: a word that starts a command is decoded into a jump, a call, a return or a method header; a data
word of a method command goes, with the words after it, to the puller, which hands it to `pgraph_method` and reports how
many words were consumed. The pusher then moves `dma_get`, the method address and the method count by that number.

PGRAPH is a parameter (`PfifoEnv.pgraphMethod`), with its state `σ`, and so is the RAMHT lookup. The pushbuffer is a
function from byte offsets to words. The stall checks of both loops are taken to pass (no puller stall), and a failed
`assert` is `none`. The `uint32_t` arithmetic on `dma_get` is kept modulo `2 ^ 32`.
-/

namespace Xemu.Pfifo

/-- NV_PFIFO_CACHE1_DMA_STATE_METHOD_TYPE -/
inductive MethodType
  | inc
  | nonInc
deriving DecidableEq, Repr

/-- the forms of a word that starts a command, in the order pfifo_run_pusher tests them -/
inductive PushCommand
  | oldJump (target : ℕ)
  | jump (target : ℕ)
  | call (target : ℕ)
  | ret
  | methods (type : MethodType) (method subchannel count : ℕ)
  | reserved
deriving DecidableEq, Repr

/-- the classification of a command word ("match all forms") -/
def decodeHeader (word : ℕ) : PushCommand :=
  if word &&& 0xe0000003 = 0x20000000 then .oldJump (word &&& 0x1fffffff)
  else if word &&& 3 = 1 then .jump (word &&& 0xfffffffc)
  else if word &&& 3 = 2 then .call (word &&& 0xfffffffc)
  else if word = 0x00020000 then .ret
  else if word &&& 0xe0030003 = 0 then
    .methods .inc (word &&& 0x1ffc) (word / 2 ^ 13 &&& 7) (word / 2 ^ 18 &&& 0x7ff)
  else if word &&& 0xe0030003 = 0x40000000 then
    .methods .nonInc (word &&& 0x1ffc) (word / 2 ^ 13 &&& 7) (word / 2 ^ 18 &&& 0x7ff)
  else .reserved

/-- NV_PFIFO_CACHE1_DMA_STATE_ERROR, for the errors the pusher sets and survives -/
inductive DmaError
  | none
  | call
  | ret
deriving DecidableEq, Repr

/-- a valid RAMHT entry: the object's instance, and whether it belongs to the graphics engine -/
structure RamhtEntry where
  inst : ℕ
  graphics : Bool
deriving DecidableEq, Repr

/-- what the FIFO reaches outside itself: the RAMHT and `pgraph_method` (subchannel, method, parameter, parameters,
`num_words_available`, `max_lookahead_words`, `inc`), which returns the words it consumed -/
structure PfifoEnv (σ : Type) where
  ramhtLookup : ℕ → Option RamhtEntry
  pgraphMethod : ℕ → ℕ → ℕ → List ℕ → ℕ → ℕ → Bool → σ → Option (ℕ × σ)

/-- what the puller changes: the engines bound to the subchannels, and PGRAPH's state -/
structure Puller (σ : Type) where
  /-- NV_PFIFO_CACHE1_ENGINE: the subchannel is bound to the graphics engine -/
  engines : ℕ → Bool
  pgraph : σ

/-- the CACHE1 registers the pusher uses, and the puller's side -/
structure Pusher (σ : Type) where
  dmaGet : ℕ
  methodType : MethodType
  subchannel : ℕ
  method : ℕ
  methodCount : ℕ
  dcount : ℕ
  dmaSubroutine : ℕ
  error : DmaError
  puller : Puller σ

variable {σ : Type} (env : PfifoEnv σ)

/-! ## pfifo_run_puller -/

/-- pfifo_run_puller: method 0 binds the object's engine to the subchannel and goes to PGRAPH with the instance;
a method from `0x100` goes to PGRAPH, its parameter first translated through RAMHT for the object methods
`0x180` to `0x1FC`; the words consumed, or `none` on a failed assert -/
def runPuller (p : Puller σ) (method subchannel parameter : ℕ) (inc : Bool) (parameters : List ℕ)
    (numWordsAvailable maxLookaheadWords : ℕ) : Option (ℕ × Puller σ) :=
  if method = 0 then
    match env.ramhtLookup parameter with
    | some entry =>
      if entry.graphics then
        (env.pgraphMethod subchannel 0 entry.inst parameters numWordsAvailable maxLookaheadWords inc p.pgraph).map
          fun r => (r.1, ⟨Function.update p.engines subchannel true, r.2⟩)
      else none
    | none => none
  else if 0x100 ≤ method then
    let parameter := if 0x180 ≤ method ∧ method < 0x200 then (env.ramhtLookup parameter).map (·.inst)
      else some parameter
    match parameter with
    | some parameter =>
      if p.engines subchannel then
        (env.pgraphMethod subchannel method parameter parameters numWordsAvailable maxLookaheadWords inc
          p.pgraph).map fun r => (r.1, { p with pgraph := r.2 })
      else none
    | none => none
  else none

/-! ## pfifo_run_pusher -/

/-- the `n` pushbuffer words from byte offset `addr` -/
def pushbufferWords (dma : ℕ → ℕ) (addr n : ℕ) : List ℕ := (List.range n).map fun i => dma (addr + 4 * i)

/-- the data-word branch: the puller gets `MIN(method_count, num_words_available)` words, and the pusher moves past
the words it consumed -/
def pushData (dma : ℕ → ℕ) (avail : ℕ) (st : Pusher σ) : Option (Pusher σ) :=
  let inc := st.methodType = .inc
  (runPuller env st.puller st.method st.subchannel (dma st.dmaGet) inc (pushbufferWords dma st.dmaGet avail)
      (min st.methodCount avail) avail).map fun r =>
    { st with
      puller := r.2
      dmaGet := (st.dmaGet + 4 * r.1) % 2 ^ 32
      method := if inc then (st.method + 4 * r.1) % 0x2000 else st.method
      methodCount := st.methodCount - min st.methodCount r.1
      dcount := (st.dcount + r.1) % 2 ^ 32 }

/-- the command-word branch -/
def pushCommand (word : ℕ) (st : Pusher σ) : Option (Pusher σ) :=
  let next := (st.dmaGet + 4) % 2 ^ 32
  match decodeHeader word with
  | .oldJump target => some { st with dmaGet := target }
  | .jump target => some { st with dmaGet := target }
  | .call target =>
    -- a call inside a subroutine stops the pusher before dma_get is written back
    if st.dmaSubroutine % 2 = 1 then some { st with error := .call }
    else some { st with dmaSubroutine := next - next % 2 + 1, dmaGet := target }
  | .ret =>
    if st.dmaSubroutine % 2 = 1 then
      some { st with dmaGet := st.dmaSubroutine &&& 0xfffffffc, dmaSubroutine := st.dmaSubroutine - 1 }
    else some { st with dmaGet := next, error := .ret }
  | .methods type method subchannel count =>
    some { st with dmaGet := next, methodType := type, method, subchannel, methodCount := count, dcount := 0 }
  | .reserved => none

/-- one pass of the loop of pfifo_run_pusher, with `dma_get` not at `dma_put` -/
def pusherStep (dma : ℕ → ℕ) (dmaPut : ℕ) (st : Pusher σ) : Option (Pusher σ) :=
  let avail := (dmaPut + 2 ^ 32 - st.dmaGet) % 2 ^ 32
  if avail % 4 = 0 then
    if st.methodCount ≠ 0 then pushData env dma (avail / 4) st else pushCommand (dma st.dmaGet) st
  else none

/-- the loop of pfifo_run_pusher, for at most `fuel` passes: it stops at `dma_put` or on an error -/
def runPusher (dma : ℕ → ℕ) (dmaLen dmaPut : ℕ) : ℕ → Pusher σ → Option (Pusher σ)
  | 0, _ => none
  | fuel + 1, st =>
    if st.dmaGet = dmaPut then some st
    else if dmaLen ≤ st.dmaGet then none
    else (pusherStep env dma dmaPut st).bind fun st =>
      if st.error = .none then runPusher dma dmaLen dmaPut fuel st else some st

/-- pfifo_run_pusher: the pusher runs only without a pending error -/
def pfifoRunPusher (dma : ℕ → ℕ) (dmaLen dmaPut fuel : ℕ) (st : Pusher σ) : Option (Pusher σ) :=
  if st.error = .none then runPusher env dma dmaLen dmaPut fuel st else none

/-! ## The Kelvin engine -/

section Kelvin

open Xemu.Pgraph

variable {α : Type}

/-- pgraph_method with the Kelvin object bound to subchannel 0: `assert(graphics_class != 0x97)` fails on every other
subchannel; the RAMHT lookup is `ramht` -/
def kelvinEnv (F : FloatOps α) (ramht : ℕ → Option RamhtEntry) : PfifoEnv (DrawState α) where
  ramhtLookup := ramht
  pgraphMethod subchannel method parameter parameters numWordsAvailable maxLookaheadWords inc s :=
    if subchannel = 0 then kelvinPgraphMethod F method parameter parameters numWordsAvailable maxLookaheadWords inc s
    else none

/-- the header of an increasing method command on subchannel 0 -/
def incHeader (method count : ℕ) : ℕ := count * 2 ^ 18 + method

/-- each `(method, parameter)` as a command of its own -/
def encodeMethods : List (ℕ × ℕ) → List ℕ
  | [] => []
  | (method, parameter) :: rest => incHeader method 1 :: parameter :: encodeMethods rest

/-- a pushbuffer holding `words` from offset 0 -/
def pushbufferOf (words : List ℕ) (addr : ℕ) : ℕ := words.getD (addr / 4) 0

/-- the pusher at offset 0 between commands, with every subchannel bound to the graphics engine -/
def initPusher (g : σ) : Pusher σ := ⟨0, .inc, 0, 0, 0, 0, 0, .none, ⟨fun _ => true, g⟩⟩

/-- PGRAPH's state after the pusher ran over `words`, all of them put at once -/
def runWords (words : List ℕ) (fuel : ℕ) (g : σ) : Option σ :=
  (pfifoRunPusher env (pushbufferOf words) (4 * words.length) (4 * words.length) fuel (initPusher g)).map (·.puller.pgraph)

end Kelvin

end Xemu.Pfifo
