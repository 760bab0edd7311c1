import Mathlib
import Xemu.Core.ByteCopy
import Xemu.Core.Words
import Xemu.Dsp.Opcache
/-!
# The DSP DMA engine

Model of dsp_dma.c and of the DSP memory it moves words in and out of (dsp56k_read_memory and write_memory_raw of
dsp_cpu.c, over all of X, Y and P memory and the mix buffer that X memory shows twice; `dsp56kWriteMemory_pram` ties
it to the P-memory model of the decoder caches). dsp_dma_run walks a list of blocks in DSP memory; each block moves
`count` DSP words between DSP memory and the APU's scratch memory or its FIFOs, packed into bytes in an intermediate
buffer, 16-bit items for format 1 and 24-bit items in 32 bits for formats 2 and 6. Buffer 0xE is a circular region of
scratch memory, copied in chunks by scratch_circular_copy, buffer 0xF a linear one. The APU side is reached through
the callbacks the engine is built with (`DmaPorts`); `flatScratch` is scratch memory as one byte store.

* `scratchCircularCopy_write`/`_read`: a circular copy moves byte `j` of the buffer to or from scratch address
  `ringAddr base size offset' j`, where `offset'` is the offset wrapped to 0 when it is past the region, and leaves
  the offset at `(offset' + len) % size`;
* `scratch_leg_round_trip`: writing the buffer to scratch and reading it back with the same block leaves the buffer
  as it was, on the linear buffer and, when the transfer fits in the region, on the circular one;
* `packWords_loadItem` and `unpackWords_read`: each word packed into the buffer reads back as the bits of it that
  its item keeps, and unpacking stores those bits at every address of the transfer, aliased addresses included;
* `dma_scratch_round_trip` puts these together for two blocks, and `dma_circular_overwrite` shows a transfer longer
  than its circular region overwriting its own first word; `dspDmaBlock_writeback` shows the write-back storing the
  offset the transfer returns.
-/
namespace Xemu.Dsp

open ByteCopy

/-! ## DSP memory -/

/-- a word of the DSP core's storage: of X, Y or P RAM, or of the mix buffer that X memory shows twice -/
inductive DspCell
  | xram (i : ℕ)
  | yram (i : ℕ)
  | pram (i : ℕ)
  | mixbuffer (i : ℕ)
  deriving DecidableEq, Repr

instance : Inhabited DspCell := ⟨.xram 0⟩

/-- the arrays `xram`, `yram`, `pram` and `mixbuffer` of dsp_core_t, as one map from cells to words -/
abbrev DspCoreMemory := DspCell → ℕ

def dspXramSize : ℕ := 4096
def dspYramSize : ℕ := 2048
def dspMixbufferBase : ℕ := 0x001400
def dspMixbufferSize : ℕ := 1024
def dspPeriphBase : ℕ := 0xFFFF80

/-- dsp56k_read_memory. `none` is a failed assertion, or a peripheral register, which this model leaves out; an X
address past X RAM that is not the mix buffer reads as 0x00FFFFFF -/
def dsp56kReadMemory (m : DspCoreMemory) (space : DspSpace) (address : ℕ) : Option ℕ :=
  if address &&& 0xFF000000 ≠ 0 then none else
  match space with
  | .x =>
    if dspPeriphBase ≤ address then none
    else if dspMixbufferBase ≤ address ∧ address < dspMixbufferBase + dspMixbufferSize then
      some (m (.mixbuffer (address - dspMixbufferBase)))
    else if 0xc00 ≤ address ∧ address < 0xc00 + dspMixbufferSize then some (m (.mixbuffer (address - 0xc00)))
    else if address < dspXramSize then some (m (.xram address))
    else some 0x00FFFFFF
  | .y => if address < dspYramSize then some (m (.yram address)) else none
  -- read_memory_p: P words must be 24-bit
  | .p => if address < dspPramSize ∧ m (.pram address) &&& 0xFF000000 = 0 then some (m (.pram address)) else none

/-- write_memory_raw, which dsp56k_write_memory calls. `none` is a failed assertion, or a peripheral register -/
def dsp56kWriteMemory (m : DspCoreMemory) (space : DspSpace) (address value : ℕ) : Option DspCoreMemory :=
  if value &&& 0xFF000000 ≠ 0 ∨ address &&& 0xFF000000 ≠ 0 then none else
  match space with
  | .x =>
    if dspPeriphBase ≤ address then none
    else if dspMixbufferBase ≤ address ∧ address < dspMixbufferBase + dspMixbufferSize then
      some (Function.update m (.mixbuffer (address - dspMixbufferBase)) value)
    else if 0xc00 ≤ address ∧ address < 0xc00 + dspMixbufferSize then
      some (Function.update m (.mixbuffer (address - 0xc00)) value)
    else if address < dspXramSize then some (Function.update m (.xram address) value)
    else none
  | .y => if address < dspYramSize then some (Function.update m (.yram address) value) else none
  | .p => if address < dspPramSize then some (Function.update m (.pram address) value) else none

/-- the cell a write to `address` of `space` stores into, if the write can succeed -/
def dspCellOf (space : DspSpace) (address : ℕ) : Option DspCell :=
  if address &&& 0xFF000000 ≠ 0 then none else
  match space with
  | .x =>
    if dspPeriphBase ≤ address then none
    else if dspMixbufferBase ≤ address ∧ address < dspMixbufferBase + dspMixbufferSize then
      some (.mixbuffer (address - dspMixbufferBase))
    else if 0xc00 ≤ address ∧ address < 0xc00 + dspMixbufferSize then some (.mixbuffer (address - 0xc00))
    else if address < dspXramSize then some (.xram address)
    else none
  | .y => if address < dspYramSize then some (.yram address) else none
  | .p => if address < dspPramSize then some (.pram address) else none

theorem dsp56kWriteMemory_eq (m : DspCoreMemory) (space : DspSpace) (address value : ℕ) :
    dsp56kWriteMemory m space address value =
      if value &&& 0xFF000000 ≠ 0 then none else (dspCellOf space address).map fun c => Function.update m c value := by
  unfold dsp56kWriteMemory dspCellOf
  by_cases hv : value &&& 0xFF000000 ≠ 0
  · rw [if_pos (Or.inl hv), if_pos hv]
  · rw [if_neg hv]
    by_cases ha : address &&& 0xFF000000 ≠ 0
    · rw [if_pos (Or.inr ha), if_pos ha, Option.map_none]
    · rw [if_neg (by tauto), if_neg ha]
      cases space <;> dsimp only <;> split_ifs <;> rfl

theorem dsp56kReadMemory_of_cellOf {m : DspCoreMemory} {space : DspSpace} {address : ℕ} {c : DspCell}
    (h : dspCellOf space address = some c) (hword : m c &&& 0xFF000000 = 0) :
    dsp56kReadMemory m space address = some (m c) := by
  unfold dspCellOf at h
  unfold dsp56kReadMemory
  by_cases ha : address &&& 0xFF000000 ≠ 0
  · rw [if_pos ha] at h; cases h
  · rw [if_neg ha] at h ⊢
    cases space <;> dsimp only at h ⊢ <;> split_ifs at h ⊢ <;> simp_all

theorem dsp56kReadMemory_cell {m : DspCoreMemory} {space : DspSpace} {address v : ℕ} {c : DspCell}
    (h : dspCellOf space address = some c) (hread : dsp56kReadMemory m space address = some v) : v = m c := by
  unfold dspCellOf at h
  unfold dsp56kReadMemory at hread
  by_cases ha : address &&& 0xFF000000 ≠ 0
  · rw [if_pos ha] at h; cases h
  · rw [if_neg ha] at h hread
    cases space <;> dsimp only at h hread <;> split_ifs at h hread <;> simp_all

/-- a word written reads back -/
theorem dsp56kReadMemory_write_self {m m' : DspCoreMemory} {space : DspSpace} {address value : ℕ}
    (h : dsp56kWriteMemory m space address value = some m') : dsp56kReadMemory m' space address = some value := by
  rw [dsp56kWriteMemory_eq] at h
  split_ifs at h with hv
  obtain ⟨c, hc, rfl⟩ := Option.map_eq_some_iff.mp h
  have hword : Function.update m c value c &&& 0xFF000000 = 0 := by
    rw [Function.update_self]
    exact not_not.mp hv
  rw [dsp56kReadMemory_of_cellOf hc hword, Function.update_self]

/-- on P memory, this model of write_memory_raw and the one of the decoder caches agree -/
theorem dsp56kWriteMemory_pram {m : DspCoreMemory} {st : PramState} (hp : ∀ i, m (.pram i) = st.pram i)
    (address value : ℕ) :
    (dsp56kWriteMemory m .p address value).map (fun m' i => m' (.pram i)) =
      (writeMemoryRaw st .p address value).map PramState.pram := by
  unfold dsp56kWriteMemory writeMemoryRaw
  by_cases hchk : value &&& 0xFF000000 ≠ 0 ∨ address &&& 0xFF000000 ≠ 0
  · rw [if_pos hchk, if_pos hchk]
    rfl
  · rw [if_neg hchk, if_neg hchk]
    dsimp only
    by_cases haddr : address < dspPramSize
    · rw [if_pos haddr, if_pos haddr, Option.map_some, Option.map_some]
      congr 1
      funext i
      dsimp only
      by_cases hi : i = address
      · rw [hi, Function.update_self, Function.update_self]
      · rw [Function.update_of_ne (by simpa using hi), Function.update_of_ne hi, hp]
    · rw [if_neg haddr, if_neg haddr]
      rfl

/-! ## Blocks -/

def nodePointerVal : ℕ := 0x3fff
def nodePointerEol : ℕ := 1 <<< 14
def nodeControlDirection : ℕ := 1 <<< 1
def dmaControlFrozen : ℕ := 1 <<< 3
def dmaControlRunning : ℕ := 1 <<< 4

/-- the seven words of a DMA block as dsp_dma_run reads them; `scratchSize` is the last word plus one -/
structure DmaBlock where
  nextBlock : ℕ
  control : ℕ
  count : ℕ
  dspOffset : ℕ
  scratchOffset : ℕ
  scratchBase : ℕ
  scratchSize : ℕ
  deriving DecidableEq, Repr

namespace DmaBlock

variable (b : DmaBlock)

def dspInterleave : Bool := (b.control >>> 0) &&& 1 ≠ 0
def direction : Bool := b.control &&& nodeControlDirection ≠ 0
def unk2 : ℕ := (b.control >>> 2) &&& 0x3
def bufferOffsetWriteback : Bool := (b.control >>> 4) &&& 1 ≠ 0
def bufId : ℕ := (b.control >>> 5) &&& 0xf
def format : ℕ := (b.control >>> 10) &&& 0x7
def unk13 : Bool := (b.control >>> 13) &&& 1 ≠ 0
def channelCount : ℕ := (b.count &&& 0xF) + 1
def blockCount : ℕ := b.count >>> 4

end DmaBlock

/-- the item formats dsp_dma_run handles: 16-bit items (format 1) and 24-bit items in 32 bits (formats 2 and 6) -/
inductive DmaItem
  | u16
  | u24
  deriving DecidableEq, Repr

/-- the format switch of dsp_dma_run; any other format fails its assertion -/
def dmaItemOfFormat : ℕ → Option DmaItem
  | 1 => some .u16
  | 2 => some .u24
  | 6 => some .u24
  | _ => none

def DmaItem.itemSize : DmaItem → ℕ
  | .u16 => 2
  | .u24 => 4

def DmaItem.itemMask : DmaItem → ℕ
  | .u16 => 0x0000ffff
  | .u24 => 0x00ffffff

/-- the `if` chain dsp_dma_run runs on a DSP address `addr` whose next `extent` words it will touch (6 for a block,
`count` for a transfer): the space and the address in it, or a failed assertion -/
def dmaSpaceOf (addr extent : ℕ) : Option (DspSpace × ℕ) :=
  if addr < 0x1800 then
    if (addr + extent) % 2 ^ 32 < 0x1800 then some (.x, addr) else none
  else if 0x1800 ≤ addr ∧ addr < 0x2000 then
    if (addr + extent) % 2 ^ 32 < 0x2000 then some (.y, addr - 0x1800) else none
  else if 0x2800 ≤ addr ∧ addr < 0x3800 then
    if (addr + extent) % 2 ^ 32 < 0x3800 then some (.p, addr - 0x2800) else none
  else none

/-- the seven words of the block at `blockAddr` of `blockSpace` -/
def readDmaBlock (m : DspCoreMemory) (blockSpace : DspSpace) (blockAddr : ℕ) : Option DmaBlock := do
  let nextBlock ← dsp56kReadMemory m blockSpace blockAddr
  let control ← dsp56kReadMemory m blockSpace (blockAddr + 1)
  let count ← dsp56kReadMemory m blockSpace (blockAddr + 2)
  let dspOffset ← dsp56kReadMemory m blockSpace (blockAddr + 3)
  let scratchOffset ← dsp56kReadMemory m blockSpace (blockAddr + 4)
  let scratchBase ← dsp56kReadMemory m blockSpace (blockAddr + 5)
  let scratchSize ← dsp56kReadMemory m blockSpace (blockAddr + 6)
  some ⟨nextBlock, control, count, dspOffset, scratchOffset, scratchBase, (scratchSize + 1) % 2 ^ 32⟩

/-! ## Packing words into the buffer -/

/-- the store of one DSP word at offset `p` of the buffer: `v >> 8` into a `uint16_t`, or the word into a
`uint32_t` -/
def storeItem (buf : ℕ → UInt8) (item : DmaItem) (p v : ℕ) : ℕ → UInt8 :=
  match item with
  | .u16 => storeLe buf p 2 (v >>> 8)
  | .u24 => storeLe buf p 4 v

/-- the DSP word unpacked from item `i` of the buffer: the `uint16_t` at `i * 2` shifted up by 8, or the `uint32_t`
at `i * 4` masked -/
def loadItem (buf : ℕ → UInt8) (item : DmaItem) (i : ℕ) : ℕ :=
  match item with
  | .u16 => loadLe buf (i * 2) 2 <<< 8
  | .u24 => loadLe buf (i * 4) 4 &&& item.itemMask

/-- the non-interleaved loop of a transfer to scratch: DSP word `memAddress + i` stored as item `i`, for `i` below
`count` -/
def packWords (m : DspCoreMemory) (memSpace : DspSpace) (memAddress : ℕ) (item : DmaItem) (buf : ℕ → UInt8) :
    ℕ → Option (ℕ → UInt8)
  | 0 => some buf
  | i + 1 => do
    let buf ← packWords m memSpace memAddress item buf i
    let v ← dsp56kReadMemory m memSpace ((memAddress + i) % 2 ^ 32)
    some (storeItem buf item (i * item.itemSize) v)

/-- the interleaved loop: word `i` of channel `ch`, at `memAddress + ch * blockCount + i`, stored at item
`i * channelCount + ch` -/
def packInterleaved (m : DspCoreMemory) (memSpace : DspSpace) (memAddress : ℕ) (item : DmaItem)
    (blockCount channelCount : ℕ) (buf : ℕ → UInt8) : Option (ℕ → UInt8) :=
  (List.range blockCount).foldlM (fun buf i =>
    (List.range channelCount).foldlM (fun buf ch => do
      let v ← dsp56kReadMemory m memSpace ((memAddress + ch * blockCount + i) % 2 ^ 32)
      some (storeItem buf item (i * item.itemSize * channelCount + ch * item.itemSize) v)) buf) buf

/-- the loop of a transfer from scratch: item `i` of the buffer written to DSP word `memAddress + i`, for `i` below
`count` -/
def unpackWords (buf : ℕ → UInt8) (memSpace : DspSpace) (memAddress : ℕ) (item : DmaItem) (m : DspCoreMemory) :
    ℕ → Option DspCoreMemory
  | 0 => some m
  | i + 1 => do
    let m ← unpackWords buf memSpace memAddress item m i
    dsp56kWriteMemory m memSpace ((memAddress + i) % 2 ^ 32) (loadItem buf item i)

/-- the bits of a DSP word that survive a trip through an item -/
def DmaItem.keptBits : DmaItem → ℕ
  | .u16 => 0xFFFF00
  | .u24 => 0xFFFFFF

theorem keptBits_land_high (v : ℕ) (item : DmaItem) : v &&& item.keptBits &&& 0xFF000000 = 0 := by
  have hk : item.keptBits &&& 0xFF000000 = 0 := by cases item <;> decide
  rw [Nat.land_assoc, hk, Nat.and_zero]

theorem loadItem_storeItem (buf : ℕ → UInt8) (item : DmaItem) (i v : ℕ) :
    loadItem (storeItem buf item (i * item.itemSize) v) item i = v &&& item.keptBits := by
  cases item with
  | u16 =>
    -- the `uint16_t` holds bits 8 to 23, and the shift puts them back in place
    show loadLe (storeLe buf (i * 2) 2 (v >>> 8)) (i * 2) 2 <<< 8 = v &&& 0xFFFF00
    rw [loadLe_storeLe, Nat.shiftLeft_eq, Nat.shiftRight_eq_div_pow,
      show (0xFFFF00 : ℕ) = 2 ^ 24 - 2 ^ 8 by norm_num, Words.land_two_pow_sub_two_pow (by norm_num)]
    norm_num
    omega
  | u24 =>
    -- the `uint32_t` holds the low 32 bits, and the mask keeps 24 of them
    show loadLe (storeLe buf (i * 4) 4 v) (i * 4) 4 &&& 0x00ffffff = v &&& 0xFFFFFF
    rw [loadLe_storeLe, show (0x00ffffff : ℕ) = 2 ^ 24 - 1 by norm_num, Nat.and_two_pow_sub_one_eq_mod,
      Nat.and_two_pow_sub_one_eq_mod]
    norm_num

/-- storing an item leaves the other items as they were -/
theorem loadItem_storeItem_of_ne {i n : ℕ} (hne : i ≠ n) (buf : ℕ → UInt8) (item : DmaItem) (v : ℕ) :
    loadItem (storeItem buf item (n * item.itemSize) v) item i = loadItem buf item i := by
  cases item with
  | u16 =>
    show loadLe (storeLe buf (n * 2) 2 (v >>> 8)) (i * 2) 2 <<< 8 = loadLe buf (i * 2) 2 <<< 8
    rw [loadLe_congr fun k hk => storeLe_of_not_covers (by omega)]
  | u24 =>
    show loadLe (storeLe buf (n * 4) 4 v) (i * 4) 4 &&& _ = loadLe buf (i * 4) 4 &&& _
    rw [loadLe_congr fun k hk => storeLe_of_not_covers (by omega)]

section Packing

variable {m : DspCoreMemory} {sp : DspSpace} {a : ℕ} {item : DmaItem} {buf : ℕ → UInt8}

theorem packWords_succ_eq_some {n : ℕ} {buf' : ℕ → UInt8} (h : packWords m sp a item buf (n + 1) = some buf') :
    ∃ bufn v, packWords m sp a item buf n = some bufn ∧ dsp56kReadMemory m sp ((a + n) % 2 ^ 32) = some v ∧
      buf' = storeItem bufn item (n * item.itemSize) v := by
  simp only [packWords, bind, Option.bind_eq_some_iff, Option.some.injEq] at h
  obtain ⟨bufn, hn, v, hv, rfl⟩ := h
  exact ⟨bufn, v, hn, hv, rfl⟩

/-- every word the packing loop reads is in the buffer, with the bits its item keeps -/
theorem packWords_loadItem {n : ℕ} :
    ∀ {buf' : ℕ → UInt8}, packWords m sp a item buf n = some buf' →
      ∀ i < n, ∃ v, dsp56kReadMemory m sp ((a + i) % 2 ^ 32) = some v ∧ loadItem buf' item i = v &&& item.keptBits := by
  induction n with
  | zero => intro _ _ i hi; omega
  | succ n ih =>
    intro buf' h i hi
    obtain ⟨bufn, v, hn, hv, rfl⟩ := packWords_succ_eq_some h
    by_cases hin : i = n
    · rw [hin]
      exact ⟨v, hv, loadItem_storeItem bufn item n v⟩
    · obtain ⟨w, hw, hload⟩ := ih hn i (by omega)
      exact ⟨w, hw, by rw [loadItem_storeItem_of_ne hin, hload]⟩

theorem unpackWords_succ_eq_some {n : ℕ} {m' : DspCoreMemory} (h : unpackWords buf sp a item m (n + 1) = some m') :
    ∃ mn, unpackWords buf sp a item m n = some mn ∧
      dsp56kWriteMemory mn sp ((a + n) % 2 ^ 32) (loadItem buf item n) = some m' := by
  simp only [unpackWords, bind, Option.bind_eq_some_iff] at h
  exact h

/-- the cell DSP address `a + i` of a transfer is stored in -/
def transferCell (sp : DspSpace) (a i : ℕ) : DspCell := (dspCellOf sp ((a + i) % 2 ^ 32)).getD default

/-- the unpacking loop is a sequence of single-word writes to the cells of the transfer's addresses -/
theorem unpackWords_scatter {n : ℕ} :
    ∀ {m' : DspCoreMemory}, unpackWords buf sp a item m n = some m' →
      (∀ i < n, dspCellOf sp ((a + i) % 2 ^ 32) = some (transferCell sp a i)) ∧
        m' = scatter (transferCell sp a) (loadItem buf item) 0 n m := by
  induction n with
  | zero =>
    intro m' h
    simp only [unpackWords, Option.some.injEq] at h
    exact ⟨fun i hi => by omega, h.symm⟩
  | succ n ih =>
    intro m' h
    obtain ⟨mn, hn, hw⟩ := unpackWords_succ_eq_some h
    obtain ⟨hcells, rfl⟩ := ih hn
    rw [dsp56kWriteMemory_eq] at hw
    split_ifs at hw
    obtain ⟨c, hc, rfl⟩ := Option.map_eq_some_iff.mp hw
    have hcell : transferCell sp a n = c := by rw [transferCell, hc, Option.getD_some]
    refine ⟨fun i hi => ?_, ?_⟩
    · rcases Nat.lt_or_ge i n with hlt | hge
      · exact hcells i hlt
      · rw [show i = n by omega, hc, hcell]
    · rw [scatter_succ, hcell, Nat.zero_add]

/-- unpacking what packing stored gives every word of the transfer the bits its item keeps, also where two addresses
of the transfer are one cell of DSP memory -/
theorem unpackWords_read {n : ℕ} {buf₀ : ℕ → UInt8} {m' : DspCoreMemory} (hpack : packWords m sp a item buf₀ n = some buf)
    (hunpack : unpackWords buf sp a item m n = some m') {i : ℕ} (hi : i < n) :
    ∃ w, dsp56kReadMemory m sp ((a + i) % 2 ^ 32) = some w ∧
      dsp56kReadMemory m' sp ((a + i) % 2 ^ 32) = some (w &&& item.keptBits) := by
  obtain ⟨hcells, rfl⟩ := unpackWords_scatter hunpack
  obtain ⟨w, hw, -⟩ := packWords_loadItem hpack i hi
  have hwc : w = m (transferCell sp a i) := dsp56kReadMemory_cell (hcells i hi) hw
  -- every word of the transfer stored in this cell was read from it, so all of them write back the same bits
  have hcell : scatter (transferCell sp a) (loadItem buf item) 0 n m (transferCell sp a i) = w &&& item.keptBits := by
    apply scatter_of_agree ⟨i, hi, rfl⟩
    intro j hj hji
    obtain ⟨wj, hwj, hload⟩ := packWords_loadItem hpack j hj
    rw [Nat.zero_add, hload, dsp56kReadMemory_cell (hcells j hj) hwj, hji, ← hwc]
  refine ⟨w, hw, ?_⟩
  rw [dsp56kReadMemory_of_cellOf (hcells i hi) (by rw [hcell]; exact keptBits_land_high w item), hcell]

end Packing

/-! ## Moving the buffer -/

/-- the callbacks a DMA engine is built with, over the APU state `σ` they share through `rw_opaque`:
`scratchRw st buf ptr addr len dir` is `scratch_rw` on `&buf[ptr]` and scratch address `addr`, and
`fifoRw st buf index len dir` is `fifo_rw` on FIFO `index`; `dir` is set for a write from the buffer. `none` is a
failed assertion -/
structure DmaPorts (σ : Type) where
  scratchRw : σ → (ℕ → UInt8) → ℕ → ℕ → ℕ → Bool → Option (σ × (ℕ → UInt8))
  fifoRw : σ → (ℕ → UInt8) → ℕ → ℕ → Bool → Option (σ × (ℕ → UInt8))

variable {σ : Type}

/-- the loop of scratch_circular_copy with `transferSize` bytes from `bufOffset` left to move, at `scratchOffset`
in the region: each pass moves the bytes up to the end of the region or of the transfer, and wraps the offset to 0
at the end of the region. `none` is a failed assertion of `scratch_rw`, or a loop still running when the fuel is
spent -/
def circularCopyLoop (ports : DmaPorts σ) (scratchBase scratchSize : ℕ) (direction : Bool) :
    ℕ → σ → (ℕ → UInt8) → ℕ → ℕ → ℕ → Option (σ × (ℕ → UInt8) × ℕ)
  | fuel, st, buf, scratchOffset, transferSize, bufOffset =>
    if transferSize = 0 then some (st, buf, scratchOffset) else
    match fuel with
    | 0 => none
    | fuel + 1 =>
      let chunkSize := min transferSize (scratchSize - scratchOffset)
      let scratchAddr := (scratchBase + scratchOffset) % 2 ^ 32
      match ports.scratchRw st buf bufOffset scratchAddr chunkSize direction with
      | none => none
      | some (st', buf') =>
        let advanced := scratchOffset + chunkSize
        circularCopyLoop ports scratchBase scratchSize direction fuel st' buf'
          (if scratchSize ≤ advanced then 0 else advanced) (transferSize - chunkSize) (bufOffset + chunkSize)

/-- scratch_circular_copy: an offset past the region starts over at 0; returns the offset after the copy. Each pass
of the loop moves at least one byte when the region is not empty, so `transferSize` passes are enough -/
def scratchCircularCopy (ports : DmaPorts σ) (st : σ) (scratchBase scratchOffset scratchSize transferSize : ℕ)
    (buf : ℕ → UInt8) (direction : Bool) : Option (σ × (ℕ → UInt8) × ℕ) :=
  let scratchOffset := if scratchSize ≤ scratchOffset then 0 else scratchOffset
  circularCopyLoop ports scratchBase scratchSize direction transferSize st buf scratchOffset transferSize 0

/-- scratch memory as one byte store, and no FIFOs: `scratch_rw` is a `memcpy` to or from it -/
def flatScratch : DmaPorts (ℕ → UInt8) where
  scratchRw scratch buf ptr addr len dir :=
    if dir then some (memcpy scratch addr buf ptr len, buf) else some (scratch, memcpy buf ptr scratch addr len)
  fifoRw _ _ _ _ _ := none

section Circular

variable {base size : ℕ}

@[simp]
theorem flatScratch_write (scratch buf : ℕ → UInt8) (ptr addr len : ℕ) :
    flatScratch.scratchRw scratch buf ptr addr len true = some (memcpy scratch addr buf ptr len, buf) := rfl

@[simp]
theorem flatScratch_read (scratch buf : ℕ → UInt8) (ptr addr len : ℕ) :
    flatScratch.scratchRw scratch buf ptr addr len false = some (scratch, memcpy buf ptr scratch addr len) := rfl

/-- one pass of the loop ends the chunk at the end of the region or of the transfer, and the offset after it is
the offset `c` bytes further round the region -/
theorem wrap_offset {off c : ℕ} (hoff : off < size) (hc : c ≤ size - off) :
    (if size ≤ off + c then 0 else off + c) = (off + c) % size := by
  split_ifs with h
  · rw [show off + c = size by omega, Nat.mod_self]
  · rw [Nat.mod_eq_of_lt (by omega)]

theorem circularCopyLoop_write (hfit : base + size ≤ 2 ^ 32) :
    ∀ (fuel : ℕ) (scratch buf : ℕ → UInt8) (off T p : ℕ), off < size → T ≤ fuel →
      circularCopyLoop flatScratch base size true fuel scratch buf off T p =
        some (scatter (ringAddr base size off) buf p T scratch, buf, (off + T) % size) := by
  intro fuel
  induction fuel with
  | zero =>
    intro scratch buf off T p hoff hT
    rw [show T = 0 by omega, circularCopyLoop, if_pos rfl, scatter_zero, Nat.add_zero, Nat.mod_eq_of_lt hoff]
  | succ fuel ih =>
    intro scratch buf off T p hoff hT
    by_cases hT0 : T = 0
    · rw [hT0, circularCopyLoop, if_pos rfl, scatter_zero, Nat.add_zero, Nat.mod_eq_of_lt hoff]
    · rw [circularCopyLoop, if_neg hT0]
      dsimp only
      rw [flatScratch_write, Nat.mod_eq_of_lt (show base + off < 2 ^ 32 by omega)]
      dsimp only
      -- one chunk of `c` bytes, up to the end of the region or of the transfer
      generalize hc : min T (size - off) = c
      have hcle : c ≤ size - off := by omega
      have hcT : c ≤ T := by omega
      rw [wrap_offset hoff hcle, ih _ _ _ _ _ (Nat.mod_lt _ (by omega)) (by omega)]
      -- the chunk's bytes are consecutive in the region, and the rest go on round it
      have hchunk : memcpy scratch (base + off) buf p c = scatter (ringAddr base size off) buf p c scratch := by
        rw [memcpy_eq_scatter]
        exact scatter_congr fun j hj => by rw [ringAddr_of_lt (by omega)]
      have hrest : ringAddr base size ((off + c) % size) = fun j => ringAddr base size off (c + j) :=
        funext fun j => (ringAddr_add c j).symm
      rw [hchunk, hrest, ← scatter_add, Nat.add_sub_cancel' hcT, Nat.mod_add_mod, Nat.add_assoc,
        Nat.add_sub_cancel' hcT]

theorem circularCopyLoop_read (hfit : base + size ≤ 2 ^ 32) :
    ∀ (fuel : ℕ) (scratch buf : ℕ → UInt8) (off T p : ℕ), off < size → T ≤ fuel →
      circularCopyLoop flatScratch base size false fuel scratch buf off T p =
        some (scratch, gather (ringAddr base size off) scratch p T buf, (off + T) % size) := by
  intro fuel
  induction fuel with
  | zero =>
    intro scratch buf off T p hoff hT
    rw [show T = 0 by omega, circularCopyLoop, if_pos rfl, Nat.add_zero, Nat.mod_eq_of_lt hoff]
    congr
    funext i
    exact (gather_of_not_covers (by omega)).symm
  | succ fuel ih =>
    intro scratch buf off T p hoff hT
    by_cases hT0 : T = 0
    · rw [hT0, circularCopyLoop, if_pos rfl, Nat.add_zero, Nat.mod_eq_of_lt hoff]
      congr
      funext i
      exact (gather_of_not_covers (by omega)).symm
    · rw [circularCopyLoop, if_neg hT0]
      dsimp only
      rw [flatScratch_read, Nat.mod_eq_of_lt (show base + off < 2 ^ 32 by omega)]
      dsimp only
      generalize hc : min T (size - off) = c
      have hcle : c ≤ size - off := by omega
      have hcT : c ≤ T := by omega
      rw [wrap_offset hoff hcle, ih _ _ _ _ _ (Nat.mod_lt _ (by omega)) (by omega)]
      have hchunk : memcpy buf p scratch (base + off) c = gather (ringAddr base size off) scratch p c buf := by
        rw [memcpy_eq_gather]
        exact gather_congr fun j hj => by rw [ringAddr_of_lt (by omega), Nat.add_assoc]
      have hrest : ringAddr base size ((off + c) % size) = fun j => ringAddr base size off (c + j) :=
        funext fun j => (ringAddr_add c j).symm
      rw [hchunk, hrest, ← gather_add, Nat.add_sub_cancel' hcT, Nat.mod_add_mod, Nat.add_assoc,
        Nat.add_sub_cancel' hcT]

/-- the offset a circular copy starts at: the block's offset, or 0 if that is past the region -/
def circularStart (off size : ℕ) : ℕ := if size ≤ off then 0 else off

theorem circularStart_lt {off : ℕ} (hsize : 0 < size) : circularStart off size < size := by
  unfold circularStart
  split_ifs <;> omega

/-- scratch_circular_copy writing to flat scratch: byte `j` of the buffer goes to scratch address
`ringAddr base size offset' j`, and the offset ends `len` bytes further round the region -/
theorem scratchCircularCopy_write (hsize : 0 < size) (hfit : base + size ≤ 2 ^ 32) (scratch buf : ℕ → UInt8)
    (off T : ℕ) :
    scratchCircularCopy flatScratch scratch base off size T buf true =
      some (scatter (ringAddr base size (circularStart off size)) buf 0 T scratch, buf,
        (circularStart off size + T) % size) :=
  circularCopyLoop_write hfit T scratch buf _ T 0 (circularStart_lt hsize) le_rfl

/-- scratch_circular_copy reading from flat scratch: byte `j` of the buffer comes from scratch address
`ringAddr base size offset' j`, and the offset ends `len` bytes further round the region -/
theorem scratchCircularCopy_read (hsize : 0 < size) (hfit : base + size ≤ 2 ^ 32) (scratch buf : ℕ → UInt8)
    (off T : ℕ) :
    scratchCircularCopy flatScratch scratch base off size T buf false =
      some (scratch, gather (ringAddr base size (circularStart off size)) scratch 0 T buf,
        (circularStart off size + T) % size) :=
  circularCopyLoop_read hfit T scratch buf _ T 0 (circularStart_lt hsize) le_rfl

end Circular

/-! ## The engine -/

/-- the engine: the DSP's memory, the APU state its callbacks work on, the static intermediate buffer, and the
registers dsp_dma_run reads and writes -/
structure DmaState (σ : Type) where
  mem : DspCoreMemory
  rwOpaque : σ
  scratchBuf : ℕ → UInt8
  control : ℕ
  nextBlock : ℕ
  eol : Bool

/-- the buffer switch of a transfer from DSP memory: the packed `transferSize` bytes go to FIFO `buf_id` (0 to 3),
to the circular region (0xE) or to scratch address `scratchAddr` (0xF). Returns the scratch offset after the copy -/
def dmaBufferWrite (ports : DmaPorts σ) (st : σ) (buf : ℕ → UInt8) (b : DmaBlock) (transferSize scratchAddr : ℕ) :
    Option (σ × (ℕ → UInt8) × ℕ) :=
  if b.bufId ≤ 0x3 then
    (ports.fifoRw st buf b.bufId transferSize true).map fun r => (r.1, r.2, b.scratchOffset)
  else if b.bufId = 0xE then
    scratchCircularCopy ports st b.scratchBase b.scratchOffset b.scratchSize transferSize buf true
  else if b.bufId = 0xF then
    (ports.scratchRw st buf 0 scratchAddr transferSize true).map fun r => (r.1, r.2, b.scratchOffset)
  else none

/-- the buffer switch of a transfer to DSP memory: `transferSize` bytes from the circular region (0xE) or from
scratch address `scratchAddr` (0xF). Returns the scratch offset after the copy -/
def dmaBufferRead (ports : DmaPorts σ) (st : σ) (buf : ℕ → UInt8) (b : DmaBlock) (transferSize scratchAddr : ℕ) :
    Option (σ × (ℕ → UInt8) × ℕ) :=
  if b.bufId = 0xE then
    scratchCircularCopy ports st b.scratchBase b.scratchOffset b.scratchSize transferSize buf false
  else if b.bufId = 0xF then
    (ports.scratchRw st buf 0 scratchAddr transferSize false).map fun r => (r.1, r.2, b.scratchOffset)
  else none

theorem dmaBufferWrite_circular {ports : DmaPorts σ} {st : σ} {buf : ℕ → UInt8} {b : DmaBlock} {T addr : ℕ}
    (hE : b.bufId = 0xE) :
    dmaBufferWrite ports st buf b T addr =
      scratchCircularCopy ports st b.scratchBase b.scratchOffset b.scratchSize T buf true := by
  rw [dmaBufferWrite, if_neg (by omega), if_pos hE]

theorem dmaBufferRead_circular {ports : DmaPorts σ} {st : σ} {buf : ℕ → UInt8} {b : DmaBlock} {T addr : ℕ}
    (hE : b.bufId = 0xE) :
    dmaBufferRead ports st buf b T addr =
      scratchCircularCopy ports st b.scratchBase b.scratchOffset b.scratchSize T buf false := by
  rw [dmaBufferRead, if_pos hE]

/-- a block's buffer goes to scratch and comes back the same: through the linear buffer, or through the circular one
when the transfer fits in the region -/
theorem scratch_leg_round_trip {b b' : DmaBlock} {scratch scratch₁ scratch₂ buf buf₁ buf₂ : ℕ → UInt8}
    {T addr off₁ off₂ : ℕ}
    (hsame : b'.bufId = b.bufId ∧ b'.scratchBase = b.scratchBase ∧ b'.scratchOffset = b.scratchOffset ∧
      b'.scratchSize = b.scratchSize)
    (hfits : b.bufId = 0xE → 0 < b.scratchSize ∧ T ≤ b.scratchSize ∧ b.scratchBase + b.scratchSize ≤ 2 ^ 32)
    (h₁ : dmaBufferWrite flatScratch scratch buf b T addr = some (scratch₁, buf₁, off₁))
    (h₂ : dmaBufferRead flatScratch scratch₁ buf₁ b' T addr = some (scratch₂, buf₂, off₂)) : buf₂ = buf := by
  obtain ⟨hid, hbase, hoff, hsize⟩ := hsame
  by_cases hE : b.bufId = 0xE
  · -- around the region: at most `size` bytes go to distinct addresses
    obtain ⟨hpos, hT, hfit⟩ := hfits hE
    rw [dmaBufferWrite_circular hE, scratchCircularCopy_write hpos hfit] at h₁
    simp only [Option.some.injEq, Prod.mk.injEq] at h₁
    obtain ⟨rfl, rfl, rfl⟩ := h₁
    rw [dmaBufferRead_circular (hid.trans hE), hbase, hoff, hsize, scratchCircularCopy_read hpos hfit] at h₂
    simp only [Option.some.injEq, Prod.mk.injEq] at h₂
    obtain ⟨rfl, rfl, rfl⟩ := h₂
    exact gather_scatter_self (ringAddr_injOn hT)
  · unfold dmaBufferWrite at h₁
    unfold dmaBufferRead at h₂
    rw [hid, if_neg hE] at h₂
    by_cases hfifo : b.bufId ≤ 0x3
    · -- the flat port has no FIFOs
      simp only [if_pos hfifo, flatScratch, Option.map_none, reduceCtorEq] at h₁
    · by_cases hF : b.bufId = 0xF
      · -- the linear buffer: consecutive addresses
        rw [if_neg hfifo, if_neg hE, if_pos hF, flatScratch_write] at h₁
        simp only [Option.map_some, Option.some.injEq, Prod.mk.injEq] at h₁
        obtain ⟨rfl, rfl, rfl⟩ := h₁
        rw [if_pos hF, flatScratch_read] at h₂
        simp only [Option.map_some, Option.some.injEq, Prod.mk.injEq] at h₂
        obtain ⟨rfl, rfl, rfl⟩ := h₂
        -- the outer copy reads scratch back, the inner one wrote it
        rw [memcpy_eq_gather, memcpy_eq_scatter]
        exact gather_scatter_self fun i _ k _ h => by omega
      · rw [if_neg hfifo, if_neg hE, if_neg hF] at h₁
        cases h₁

/-- the transfer of one block after its words are read: the checks on the control word, the item format and the DSP
address, then the packing loop and the buffer write (direction set), or the buffer read and the unpacking loop
(direction clear). Returns the new state and the scratch offset the block's write-back stores -/
def dmaTransfer (ports : DmaPorts σ) (s : DmaState σ) (b : DmaBlock) : Option (DmaState σ × ℕ) := do
  if b.unk2 ≠ 0 ∨ b.unk13 then none
  let item ← dmaItemOfFormat b.format
  let scratchAddr := (b.scratchBase + b.scratchOffset) % 2 ^ 32
  let (memSpace, memAddress) ← dmaSpaceOf b.dspOffset b.count
  let transferSize := b.count * item.itemSize % 2 ^ 32
  if b.direction then
    let (buf, transferSize) ←
      if b.dspInterleave then
        (packInterleaved s.mem memSpace memAddress item b.blockCount b.channelCount s.scratchBuf).map
          fun buf => (buf, b.blockCount * item.itemSize * b.channelCount % 2 ^ 32)
      else (packWords s.mem memSpace memAddress item s.scratchBuf b.count).map fun buf => (buf, transferSize)
    let (st, buf, scratchOffset) ← dmaBufferWrite ports s.rwOpaque buf b transferSize scratchAddr
    some ({ s with rwOpaque := st, scratchBuf := buf }, scratchOffset)
  else
    if b.dspInterleave then none
    let (st, buf, scratchOffset) ← dmaBufferRead ports s.rwOpaque s.scratchBuf b transferSize scratchAddr
    let m ← unpackWords buf memSpace memAddress item s.mem b.count
    some ({ s with mem := m, rwOpaque := st, scratchBuf := buf }, scratchOffset)

theorem dmaTransfer_write_eq_some {ports : DmaPorts σ} {s s' : DmaState σ} {b : DmaBlock} {off : ℕ}
    (hdir : b.direction = true) (hint : b.dspInterleave = false) (h : dmaTransfer ports s b = some (s', off)) :
    ∃ item memSpace memAddress buf, dmaItemOfFormat b.format = some item ∧
      dmaSpaceOf b.dspOffset b.count = some (memSpace, memAddress) ∧
      packWords s.mem memSpace memAddress item s.scratchBuf b.count = some buf ∧
      dmaBufferWrite ports s.rwOpaque buf b (b.count * item.itemSize % 2 ^ 32)
        ((b.scratchBase + b.scratchOffset) % 2 ^ 32) = some (s'.rwOpaque, s'.scratchBuf, off) ∧
      s'.mem = s.mem := by
  unfold dmaTransfer at h
  simp only [hdir, hint, if_true, Bool.false_eq_true, if_false, bind] at h
  split_ifs at h with hchk
  · simp only [Option.bind_none, reduceCtorEq] at h
  · simp only [Option.bind_eq_some_iff, Option.map_eq_some_iff, Option.some.injEq] at h
    obtain ⟨item, hitem, ⟨memSpace, memAddress⟩, hsp, ⟨buf, T⟩, ⟨buf', hpack, hbt⟩, ⟨st, buf'', off'⟩, hw, heq⟩ := h
    simp only [Prod.mk.injEq] at hbt heq
    obtain ⟨rfl, rfl⟩ := hbt
    obtain ⟨rfl, rfl⟩ := heq
    exact ⟨item, memSpace, memAddress, _, hitem, hsp, hpack, hw, rfl⟩

theorem dmaTransfer_read_eq_some {ports : DmaPorts σ} {s s' : DmaState σ} {b : DmaBlock} {off : ℕ}
    (hdir : b.direction = false) (h : dmaTransfer ports s b = some (s', off)) :
    ∃ item memSpace memAddress, dmaItemOfFormat b.format = some item ∧
      dmaSpaceOf b.dspOffset b.count = some (memSpace, memAddress) ∧
      dmaBufferRead ports s.rwOpaque s.scratchBuf b (b.count * item.itemSize % 2 ^ 32)
        ((b.scratchBase + b.scratchOffset) % 2 ^ 32) = some (s'.rwOpaque, s'.scratchBuf, off) ∧
      unpackWords s'.scratchBuf memSpace memAddress item s.mem b.count = some s'.mem := by
  unfold dmaTransfer at h
  simp only [hdir, Bool.false_eq_true, if_false, bind] at h
  by_cases hchk : b.unk2 ≠ 0 ∨ b.unk13 = true
  · simp only [if_pos hchk, Option.bind_none, reduceCtorEq] at h
  · rw [if_neg hchk] at h
    cases hint : b.dspInterleave
    · simp only [hint, Bool.false_eq_true, if_false, Option.bind_eq_some_iff, Option.some.injEq] at h
      obtain ⟨item, hitem, ⟨memSpace, memAddress⟩, hsp, ⟨st, buf, off'⟩, hr, m, hm, heq⟩ := h
      simp only [Prod.mk.injEq] at heq
      obtain ⟨rfl, rfl⟩ := heq
      exact ⟨item, memSpace, memAddress, hitem, hsp, hr, hm⟩
    · simp only [hint, if_true, Option.bind_eq_some_iff, Option.bind_none, reduceCtorEq, and_false,
        exists_false] at h

/-- DSP words sent to scratch and read back with a block of the same count, DSP address, format and scratch fields
come back with the bits their item keeps, on the linear buffer and on the circular one when the transfer fits in
its region; a circular copy moves byte `j` to or from `ringAddr base size offset' j` and leaves the offset, which the
write-back stores, `len` bytes further round the region -/
theorem dma_scratch_round_trip :
    (∀ (base size off T : ℕ) (scratch buf : ℕ → UInt8), 0 < size → base + size ≤ 2 ^ 32 →
      scratchCircularCopy flatScratch scratch base off size T buf true =
          some (scatter (ringAddr base size (circularStart off size)) buf 0 T scratch, buf,
            (circularStart off size + T) % size) ∧
        scratchCircularCopy flatScratch scratch base off size T buf false =
          some (scratch, gather (ringAddr base size (circularStart off size)) scratch 0 T buf,
            (circularStart off size + T) % size)) ∧
    ∀ (s s₁ s₂ : DmaState (ℕ → UInt8)) (b₁ b₂ : DmaBlock) (item : DmaItem) (off₁ off₂ : ℕ),
      dmaItemOfFormat b₁.format = some item → b₁.direction = true → b₁.dspInterleave = false →
      b₂.direction = false → b₂.format = b₁.format → b₂.count = b₁.count → b₂.dspOffset = b₁.dspOffset →
      b₂.bufId = b₁.bufId → b₂.scratchBase = b₁.scratchBase → b₂.scratchOffset = b₁.scratchOffset →
      b₂.scratchSize = b₁.scratchSize →
      (b₁.bufId = 0xE → 0 < b₁.scratchSize ∧ b₁.count * item.itemSize ≤ b₁.scratchSize ∧
        b₁.scratchBase + b₁.scratchSize ≤ 2 ^ 32) →
      dmaTransfer flatScratch s b₁ = some (s₁, off₁) → dmaTransfer flatScratch s₁ b₂ = some (s₂, off₂) →
      ∃ memSpace memAddress, dmaSpaceOf b₁.dspOffset b₁.count = some (memSpace, memAddress) ∧
        (∀ i < b₁.count, ∃ w, dsp56kReadMemory s.mem memSpace ((memAddress + i) % 2 ^ 32) = some w ∧
          dsp56kReadMemory s₂.mem memSpace ((memAddress + i) % 2 ^ 32) = some (w &&& item.keptBits)) ∧
        (b₁.bufId = 0xE →
          off₁ = (circularStart b₁.scratchOffset b₁.scratchSize + b₁.count * item.itemSize % 2 ^ 32) %
            b₁.scratchSize ∧ off₂ = off₁) := by
  refine ⟨fun base size off T scratch buf hpos hfit =>
    ⟨scratchCircularCopy_write hpos hfit scratch buf off T, scratchCircularCopy_read hpos hfit scratch buf off T⟩, ?_⟩
  intro s s₁ s₂ b₁ b₂ item off₁ off₂ hitem hdir₁ hint hdir₂ hfmt hcount hoffs hid hbase hoff hsize hfits h₁ h₂
  obtain ⟨item₁, sp, a, buf, hitem₁, hsp, hpack, hw, hmem⟩ := dmaTransfer_write_eq_some hdir₁ hint h₁
  obtain ⟨item₂, sp₂, a₂, hitem₂, hsp₂, hr, hunpack⟩ := dmaTransfer_read_eq_some hdir₂ h₂
  -- both blocks have the one item format and DSP address
  rw [hitem, Option.some.injEq] at hitem₁
  rw [hfmt, hitem, Option.some.injEq] at hitem₂
  rw [hoffs, hcount, hsp, Option.some.injEq, Prod.mk.injEq] at hsp₂
  obtain ⟨rfl, rfl⟩ := hsp₂
  subst hitem₁ hitem₂
  rw [hcount, hbase, hoff] at hr
  have hfits' : b₁.bufId = 0xE →
      0 < b₁.scratchSize ∧ b₁.count * item.itemSize % 2 ^ 32 ≤ b₁.scratchSize ∧
        b₁.scratchBase + b₁.scratchSize ≤ 2 ^ 32 := fun hE => by
    obtain ⟨hpos, hT, hfit⟩ := hfits hE
    exact ⟨hpos, (Nat.mod_le _ _).trans hT, hfit⟩
  -- the scratch leg gives the unpacking loop the packed buffer
  have hbuf : s₂.scratchBuf = buf := scratch_leg_round_trip ⟨hid, hbase, hoff, hsize⟩ hfits' hw hr
  rw [hbuf, hcount, hmem] at hunpack
  refine ⟨sp, a, hsp, fun i hi => unpackWords_read hpack hunpack hi, fun hE => ?_⟩
  obtain ⟨hpos, -, hfit⟩ := hfits' hE
  rw [dmaBufferWrite_circular hE, scratchCircularCopy_write hpos hfit] at hw
  rw [dmaBufferRead_circular (hid.trans hE), hbase, hoff, hsize, scratchCircularCopy_read hpos hfit] at hr
  simp only [Option.some.injEq, Prod.mk.injEq] at hw hr
  exact ⟨hw.2.2.symm, hr.2.2.symm.trans hw.2.2⟩

/-- X:0 and X:1 hold two different 24-bit words -/
def overwriteMemory : DspCoreMemory := fun c =>
  if c = .xram 0 then 0x111111 else if c = .xram 1 then 0x222222 else 0

def overwriteState : DmaState (ℕ → UInt8) := ⟨overwriteMemory, fun _ => 0, fun _ => 0, 0, 0, false⟩

/-- two 24-bit words at X:0, through a circular region of 4 bytes at scratch address 0 -/
def overwriteBlock (control : ℕ) : DmaBlock := ⟨0x4000, control, 2, 0, 0, 0, 4⟩

/-- two 24-bit words at X:0, through a circular region of 8 bytes, which they fit in -/
def fitBlock (control : ℕ) : DmaBlock := ⟨0x4000, control, 2, 0, 0, 0, 8⟩

theorem dma_round_trip_fits :
    ∃ (s₁ s₂ : DmaState (ℕ → UInt8)) (off₁ off₂ : ℕ),
      dmaTransfer flatScratch overwriteState (fitBlock 0x9C2) = some (s₁, off₁) ∧
        dmaTransfer flatScratch s₁ (fitBlock 0x9C0) = some (s₂, off₂) ∧
        dsp56kReadMemory s₂.mem .x 0 = some (0x111111 &&& DmaItem.u24.keptBits) := by
  have hboth : ((dmaTransfer flatScratch overwriteState (fitBlock 0x9C2)).bind fun r =>
      dmaTransfer flatScratch r.1 (fitBlock 0x9C0)).isSome = true := by decide
  obtain ⟨⟨s₁, off₁⟩, h₁⟩ := Option.isSome_iff_exists.mp (show (dmaTransfer flatScratch overwriteState
    (fitBlock 0x9C2)).isSome = true by decide)
  rw [h₁, Option.bind_some] at hboth
  obtain ⟨⟨s₂, off₂⟩, h₂⟩ := Option.isSome_iff_exists.mp hboth
  obtain ⟨sp, a, hsp, hwords, -⟩ := dma_scratch_round_trip.2 overwriteState s₁ s₂ (fitBlock 0x9C2)
    (fitBlock 0x9C0) .u24 off₁ off₂ (by decide) (by decide) (by decide) (by decide) rfl rfl rfl (by decide) rfl rfl rfl
    (fun _ => ⟨by decide, by decide, by decide⟩) h₁ h₂
  have hx : dmaSpaceOf (fitBlock 0x9C2).dspOffset (fitBlock 0x9C2).count = some (.x, 0) := by decide
  rw [hx, Option.some.injEq, Prod.mk.injEq] at hsp
  obtain ⟨rfl, rfl⟩ := hsp
  obtain ⟨w, hw, hw₂⟩ := hwords 0 (by decide)
  rw [show (0 + 0) % 2 ^ 32 = 0 from rfl] at hw hw₂
  have hw0 : w = 0x111111 := by
    have h0 : dsp56kReadMemory overwriteState.mem .x 0 = some 0x111111 := by decide
    rw [h0] at hw
    exact (Option.some.inj hw).symm
  exact ⟨s₁, s₂, off₁, off₂, h₁, h₂, by rw [← hw0]; exact hw₂⟩

theorem dma_circular_overwrite :
    (overwriteBlock 0x9C2).direction = true ∧ (overwriteBlock 0x9C0).direction = false ∧
      (overwriteBlock 0x9C2).bufId = 0xE ∧ (overwriteBlock 0x9C0).bufId = 0xE ∧
      (overwriteBlock 0x9C2).format = 2 ∧ (overwriteBlock 0x9C0).format = 2 ∧
      (overwriteBlock 0x9C2).dspInterleave = false ∧
      dsp56kReadMemory overwriteState.mem .x 0 = some 0x111111 ∧
      ((dmaTransfer flatScratch overwriteState (overwriteBlock 0x9C2)).bind fun r =>
        (dmaTransfer flatScratch r.1 (overwriteBlock 0x9C0)).bind fun r => dsp56kReadMemory r.1.mem .x 0) =
        some 0x222222 := by
  decide

/-- one pass of dsp_dma_run's loop: read the block `next_block` points at, take its link, run its transfer, and
write the scratch offset back into the block if it asks for that -/
def dspDmaBlock (ports : DmaPorts σ) (s : DmaState σ) : Option (DmaState σ) := do
  let (blockSpace, blockAddr) ← dmaSpaceOf (s.nextBlock &&& nodePointerVal) 6
  let b ← readDmaBlock s.mem blockSpace blockAddr
  let s := { s with nextBlock := b.nextBlock, eol := s.eol || b.nextBlock &&& nodePointerEol ≠ 0 }
  let (s, scratchOffset) ← dmaTransfer ports s b
  if b.bufferOffsetWriteback then
    let m ← dsp56kWriteMemory s.mem blockSpace (blockAddr + 4) scratchOffset
    some { s with mem := m }
  else some s

/-- a block that asks for the write-back has the scratch offset its transfer returns stored in its fifth word -/
theorem dspDmaBlock_writeback {ports : DmaPorts σ} {s s' : DmaState σ} (h : dspDmaBlock ports s = some s') :
    ∃ blockSpace blockAddr b s₁ off, dmaSpaceOf (s.nextBlock &&& nodePointerVal) 6 = some (blockSpace, blockAddr) ∧
      readDmaBlock s.mem blockSpace blockAddr = some b ∧
      dmaTransfer ports { s with nextBlock := b.nextBlock, eol := s.eol || b.nextBlock &&& nodePointerEol ≠ 0 } b =
        some (s₁, off) ∧
      (b.bufferOffsetWriteback = true → dsp56kReadMemory s'.mem blockSpace (blockAddr + 4) = some off) := by
  unfold dspDmaBlock at h
  simp only [bind, Option.bind_eq_some_iff] at h
  obtain ⟨⟨blockSpace, blockAddr⟩, hsp, b, hb, ⟨s₁, off⟩, ht, hw⟩ := h
  refine ⟨blockSpace, blockAddr, b, s₁, off, hsp, hb, ht, fun hwb => ?_⟩
  rw [if_pos hwb, Option.bind_eq_some_iff] at hw
  obtain ⟨m, hm, hs'⟩ := hw
  rw [← Option.some.inj hs']
  exact dsp56kReadMemory_write_self hm

/-- the loop of dsp_dma_run, until a block links to the end of the list. `none` is a failed assertion, or a list
still not ended when the fuel is spent: a list that links back into itself never ends -/
def dmaRunLoop (ports : DmaPorts σ) : ℕ → DmaState σ → Option (DmaState σ)
  | fuel, s =>
    if s.nextBlock &&& nodePointerEol ≠ 0 then some s else
    match fuel with
    | 0 => none
    | fuel + 1 => (dspDmaBlock ports s).bind (dmaRunLoop ports fuel)

/-- dsp_dma_run: nothing unless the engine runs and is not frozen -/
def dspDmaRun (ports : DmaPorts σ) (fuel : ℕ) (s : DmaState σ) : Option (DmaState σ) :=
  if s.control &&& dmaControlRunning = 0 ∨ s.control &&& dmaControlFrozen ≠ 0 then some s
  else dmaRunLoop ports fuel s

end Xemu.Dsp
