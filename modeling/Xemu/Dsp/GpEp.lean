import Mathlib
import Xemu.Dsp.Alu
import Xemu.Dsp.Arith
import Xemu.Dsp.Dma
/-!
# Scratch memory and FIFOs of the GP and EP DSPs

Model of the callbacks of gp_ep.c that the DMA engines of the two DSPs move their buffers through. Scratch memory
and the FIFOs live in guest memory behind scatter-gather tables of 8-byte entries, one per 4096-byte page:
scatter_gather_rw resolves offset `o` as the address in entry `o / 4096`, plus `o % 4096`. A FIFO is the region
`[base, end)` of such memory, used as a ring from the offset in its CUR register: circular_scatter_gather_rw copies
up to `end`, starts over at `base`, and returns the new offset, which gp_fifo_rw and ep_fifo_rw store back in CUR.
The two differ in how they start: gp_fifo_rw asserts `cur < end`, ep_fifo_rw reduces an offset past the end modulo
`end - base`; both raise an offset below `base` to `base`. Output FIFO 0 of the EP hands its frame to the monitor
(ep_sink_samples) and sends silence in its place.

A call returns, stops at a failed assertion, divides by zero, or does not end (`Stop`):

* `scatterGatherLoop_read`: a read resolves byte `j` through the table (`sgePhys`), and `scatterGatherLoop_ends`:
  scatter_gather_rw stops only at an assertion;
* `circularLoop_read`: a FIFO read with `base ≤ cur < end` reads byte `j` from ring offset
  `ringAddr base (end - base) (cur - base) j` and leaves CUR at `base + (cur - base + len) % (end - base)`, and
  `circularLoop_ends`: started there it stops only at an assertion. Both go through one pass at a time
  (`circularLoop_succ`);
* `gpFifoRw_read`, `epFifoRw_read`, `gpFifoRw_ends`, `epFifoRw_ends`: for a FIFO with `base < end` the two calls
  bring CUR into the ring and then behave as above;
* `circularLoop_stuck`: with `base = end` a pass copies nothing and the loop never ends, which both calls reach from
  the guest's registers, and ep_fifo_rw divides by zero from a CUR at or past `end` (`fifoRw_empty_ring_fails`).
-/

namespace Xemu.Dsp

open ByteCopy

/-- how a call of the model stops short of returning: a failed assertion, a division by zero, or a loop still running
when the fuel is spent -/
inductive Stop
  | assertion
  | divisionByZero
  | fuel
  deriving DecidableEq, Repr

def targetPageSize : ℕ := 4096

/-- the monitor point of the audio debugger: which unit's output the host plays -/
inductive MonitorPoint
  | ac97
  | vp
  | gp
  | ep
  | gpOrEp
  deriving DecidableEq, Repr

/-- what the callbacks of gp_ep.c read and write: the APU's registers, guest memory, and the monitor -/
structure ApuState where
  regs : ℕ → ℕ
  ram : ℕ → UInt8
  ramSize : ℕ
  monitorPoint : MonitorPoint
  frameBuf : ℕ → UInt8

def nvPapuGpsaddr : ℕ := 0x00002040
def nvPapuGpfaddr : ℕ := 0x00002044
def nvPapuEpsaddr : ℕ := 0x00002048
def nvPapuEpfaddr : ℕ := 0x0000204C
def nvPapuGpsmaxsge : ℕ := 0x000020D4
def nvPapuGpfmaxsge : ℕ := 0x000020D8
def nvPapuEpsmaxsge : ℕ := 0x000020DC
def nvPapuEpfmaxsge : ℕ := 0x000020E0
def nvPapuGpofbase0 : ℕ := 0x00003024
def nvPapuGpofend0 : ℕ := 0x00003028
def nvPapuGpofcur0 : ℕ := 0x0000302C
def nvPapuGpifbase0 : ℕ := 0x00003064
def nvPapuGpifend0 : ℕ := 0x00003068
def nvPapuGpifcur0 : ℕ := 0x0000306C
def nvPapuEpofbase0 : ℕ := 0x00004024
def nvPapuEpofend0 : ℕ := 0x00004028
def nvPapuEpofcur0 : ℕ := 0x0000402C
def nvPapuEpifbase0 : ℕ := 0x00004064
def nvPapuEpifend0 : ℕ := 0x00004068
def nvPapuEpifcur0 : ℕ := 0x0000406C
/-- NV_PAPU_GPOFBASE0_VALUE, NV_PAPU_GPOFEND0_VALUE and NV_PAPU_GPOFCUR0_VALUE -/
def fifoValueMask : ℕ := 0x00FFFFFF
def gpOutputFifoCount : ℕ := 4
def gpInputFifoCount : ℕ := 2
def epOutputFifoCount : ℕ := 4
def epInputFifoCount : ℕ := 2

/-! ## Scatter-gather -/

/-- the guest address that offset `addr` of a scatter-gather region resolves to: the address in entry
`addr / TARGET_PAGE_SIZE` of the table at `sgeBase`, plus `addr % TARGET_PAGE_SIZE` -/
def sgePhys (ram : ℕ → UInt8) (sgeBase addr : ℕ) : ℕ :=
  loadLe ram (sgeBase + addr / targetPageSize * 8) 4 + addr % targetPageSize

/-- the loop of scatter_gather_rw, `len` bytes left from offset `ptr` of the buffer, at `offsetInPage` of page
`pageEntry` with `bytesToCopy` left in it: each pass copies up to the end of the page or of the transfer, to guest
memory (`dir` set) or from it, at the address the page's table entry gives -/
def scatterGatherLoop (ramSize sgeBase maxSge : ℕ) (dir : Bool) :
    ℕ → (ℕ → UInt8) → (ℕ → UInt8) → ℕ → ℕ → ℕ → ℕ → ℕ → Except Stop ((ℕ → UInt8) × (ℕ → UInt8))
  | fuel, ram, buf, ptr, pageEntry, offsetInPage, bytesToCopy, len =>
    if len = 0 then .ok (ram, buf) else
    match fuel with
    | 0 => .error .fuel
    | fuel + 1 =>
      if maxSge < pageEntry then .error .assertion else
      let prdAddress := loadLe ram (sgeBase + pageEntry * 8) 4
      let paddr := prdAddress + offsetInPage
      let bytesToCopy := min bytesToCopy len
      if ramSize ≤ paddr + bytesToCopy then .error .assertion else
      let (ram, buf) :=
        if dir then (memcpy ram paddr buf ptr bytesToCopy, buf) else (ram, memcpy buf ptr ram paddr bytesToCopy)
      -- after the first page the copy is page aligned
      scatterGatherLoop ramSize sgeBase maxSge dir fuel ram buf (ptr + bytesToCopy) (pageEntry + 1) 0
        targetPageSize (len - bytesToCopy)

/-- scatter_gather_rw: `len` bytes between the buffer at `ptr` and offset `addr` of the region whose table is at
`sgeBase`. Each pass of the loop copies at least one byte, so `len` passes are enough -/
def scatterGatherRw (st : ApuState) (sgeBase maxSge : ℕ) (buf : ℕ → UInt8) (ptr addr len : ℕ) (dir : Bool) :
    Except Stop (ApuState × (ℕ → UInt8)) :=
  (scatterGatherLoop st.ramSize sgeBase maxSge dir len st.ram buf ptr (addr / targetPageSize)
      (addr % targetPageSize) (targetPageSize - addr % targetPageSize) len).map
    fun r => ({ st with ram := r.1 }, r.2)

/-- gp_scratch_rw and ep_scratch_rw: scatter_gather_rw through the scratch table of the DSP -/
def gpScratchRw (st : ApuState) (buf : ℕ → UInt8) (ptr addr len : ℕ) (dir : Bool) :
    Except Stop (ApuState × (ℕ → UInt8)) :=
  scatterGatherRw st (st.regs nvPapuGpsaddr) (st.regs nvPapuGpsmaxsge) buf ptr addr len dir

def epScratchRw (st : ApuState) (buf : ℕ → UInt8) (ptr addr len : ℕ) (dir : Bool) :
    Except Stop (ApuState × (ℕ → UInt8)) :=
  scatterGatherRw st (st.regs nvPapuEpsaddr) (st.regs nvPapuEpsmaxsge) buf ptr addr len dir

/-! ## FIFOs -/

/-- the loop of circular_scatter_gather_rw over the FIFO `[base, end)`, `len` bytes left from offset `ptr` of the
buffer, at offset `cur`: each pass copies up to `end` or the end of the transfer and starts over at `base` on
reaching `end`. Returns the offset after the copy -/
def circularLoop (sgeBase maxSge base «end» : ℕ) (dir : Bool) :
    ℕ → ApuState → (ℕ → UInt8) → ℕ → ℕ → ℕ → Except Stop (ApuState × (ℕ → UInt8) × ℕ)
  | fuel, st, buf, ptr, cur, len =>
    if len = 0 then .ok (st, buf, cur) else
    match fuel with
    | 0 => .error .fuel
    | fuel + 1 =>
      let bytesToCopy := min (sub32 «end» cur) len
      if ¬(base ≤ cur ∧ (cur + bytesToCopy) % 2 ^ 32 ≤ «end») then .error .assertion else
      match scatterGatherRw st sgeBase maxSge buf ptr cur bytesToCopy dir with
      | .error e => .error e
      | .ok (st, buf) =>
        let cur := (cur + bytesToCopy) % 2 ^ 32
        if «end» ≤ cur then
          if cur ≠ «end» then .error .assertion
          else circularLoop sgeBase maxSge base «end» dir fuel st buf (ptr + bytesToCopy) base (len - bytesToCopy)
        else circularLoop sgeBase maxSge base «end» dir fuel st buf (ptr + bytesToCopy) cur (len - bytesToCopy)

/-- circular_scatter_gather_rw. With `base < end` each pass copies at least one byte, so `len` passes are enough -/
def circularScatterGatherRw (st : ApuState) (sgeBase maxSge : ℕ) (buf : ℕ → UInt8) (base «end» cur len : ℕ)
    (dir : Bool) : Except Stop (ApuState × (ℕ → UInt8) × ℕ) :=
  circularLoop sgeBase maxSge base «end» dir len st buf 0 cur len

/-- the BASE, END and CUR registers of FIFO `index`: an output FIFO (`dir` set) or an input FIFO, each register 0x10
after the one of the FIFO before; a FIFO past the count fails its assertion -/
def fifoRegs (ofBase0 ofEnd0 ofCur0 ifBase0 ifEnd0 ifCur0 outputCount inputCount index : ℕ) (dir : Bool) :
    Option (ℕ × ℕ × ℕ) :=
  if dir then
    if index < outputCount then some (ofBase0 + 0x10 * index, ofEnd0 + 0x10 * index, ofCur0 + 0x10 * index)
    else none
  else if index < inputCount then some (ifBase0 + 0x10 * index, ifEnd0 + 0x10 * index, ifCur0 + 0x10 * index)
  else none

/-- `SET_MASK(reg, mask, val)` for a mask whose lowest bit is bit 0 -/
def setMask (reg mask val : ℕ) : ℕ := reg &&& (2 ^ 32 - 1 - mask) ||| val &&& mask

/-- gp_fifo_rw: the FIFO's registers, the assertion `cur < end`, an offset below `base` raised to it, the circular
copy through the FIFO table, and the new offset stored in CUR -/
def gpFifoRw (st : ApuState) (buf : ℕ → UInt8) (index len : ℕ) (dir : Bool) :
    Except Stop (ApuState × (ℕ → UInt8)) := do
  let (baseReg, endReg, curReg) ← match fifoRegs nvPapuGpofbase0 nvPapuGpofend0 nvPapuGpofcur0 nvPapuGpifbase0
      nvPapuGpifend0 nvPapuGpifcur0 gpOutputFifoCount gpInputFifoCount index dir with
    | some r => pure r
    | none => throw .assertion
  let base := st.regs baseReg &&& fifoValueMask
  let «end» := st.regs endReg &&& fifoValueMask
  let cur := st.regs curReg &&& fifoValueMask
  if ¬cur < «end» then throw .assertion
  let cur := if cur < base then base else cur
  let (st, buf, cur) ←
    circularScatterGatherRw st (st.regs nvPapuGpfaddr) (st.regs nvPapuGpfmaxsge) buf base «end» cur len dir
  pure ({ st with regs := Function.update st.regs curReg (setMask (st.regs curReg) fifoValueMask cur) }, buf)

/-- the 256 stereo frames of silence ep_fifo_rw sends in place of a sunk frame -/
def epSilence : ℕ → UInt8 := fun _ => 0

/-- ep_sink_samples: whether the frame goes to the monitor instead of the FIFO; the monitor of the EP keeps a copy
of the frame, which must be one whole frame of 0x400 bytes -/
def epSinkSamples (st : ApuState) (buf : ℕ → UInt8) (len : ℕ) : Except Stop (ApuState × Bool) :=
  if st.monitorPoint = .ac97 then .ok (st, false)
  else if st.monitorPoint = .ep ∨ st.monitorPoint = .gpOrEp then
    if len = 0x400 then .ok ({ st with frameBuf := memcpy st.frameBuf 0 buf 0 len }, true)
    else .error .assertion
  else .ok (st, true)

/-- ep_fifo_rw: as gp_fifo_rw, but output FIFO 0 sends silence when the frame is sunk, and an offset at or past
`end` is reduced modulo `end - base` (a 32-bit difference) before being raised to `base` -/
def epFifoRw (st : ApuState) (buf : ℕ → UInt8) (index len : ℕ) (dir : Bool) :
    Except Stop (ApuState × (ℕ → UInt8)) := do
  let (baseReg, endReg, curReg) ← match fifoRegs nvPapuEpofbase0 nvPapuEpofend0 nvPapuEpofcur0 nvPapuEpifbase0
      nvPapuEpifend0 nvPapuEpifcur0 epOutputFifoCount epInputFifoCount index dir with
    | some r => pure r
    | none => throw .assertion
  let base := st.regs baseReg &&& fifoValueMask
  let «end» := st.regs endReg &&& fifoValueMask
  let cur := st.regs curReg &&& fifoValueMask
  let (st, sunk) ← if dir ∧ index = 0 then epSinkSamples st buf len else pure (st, false)
  if sunk ∧ ¬len ≤ 0x400 then throw .assertion
  let ptr := if sunk then epSilence else buf
  let cur ←
    if «end» ≤ cur then
      if sub32 «end» base = 0 then throw .divisionByZero else pure (cur % sub32 «end» base)
    else pure cur
  let cur := if cur < base then base else cur
  let (st, ptr, cur) ←
    circularScatterGatherRw st (st.regs nvPapuEpfaddr) (st.regs nvPapuEpfmaxsge) ptr base «end» cur len dir
  pure ({ st with regs := Function.update st.regs curReg (setMask (st.regs curReg) fifoValueMask cur) },
    if sunk then buf else ptr)

/-- the callbacks the GP's DMA engine is built with (dsp_init in gp_ep.c); any stop of a callback is a failed call
of the engine -/
def gpDmaPorts : DmaPorts ApuState where
  scratchRw st buf ptr addr len dir := (gpScratchRw st buf ptr addr len dir).toOption
  fifoRw st buf index len dir := (gpFifoRw st buf index len dir).toOption

def epDmaPorts : DmaPorts ApuState where
  scratchRw st buf ptr addr len dir := (epScratchRw st buf ptr addr len dir).toOption
  fifoRw st buf index len dir := (epFifoRw st buf index len dir).toOption

/-! ## Scatter-gather runs -/

section ScatterGather

variable {ramSize sgeBase maxSge : ℕ} {dir : Bool}

theorem scatterGatherLoop_zero (fuel : ℕ) (ram buf : ℕ → UInt8) (ptr pageEntry offsetInPage bytesToCopy : ℕ) :
    scatterGatherLoop ramSize sgeBase maxSge dir fuel ram buf ptr pageEntry offsetInPage bytesToCopy 0 =
      .ok (ram, buf) := by
  unfold scatterGatherLoop
  rw [if_pos rfl]

/-- every pass moves at least one byte, so `len` passes finish the copy: the loop stops only at an assertion -/
theorem scatterGatherLoop_ends :
    ∀ (fuel : ℕ) (ram buf : ℕ → UInt8) (ptr pageEntry offsetInPage bytesToCopy len : ℕ) (e : Stop),
      0 < bytesToCopy → len ≤ fuel →
        scatterGatherLoop ramSize sgeBase maxSge dir fuel ram buf ptr pageEntry offsetInPage bytesToCopy len =
          .error e → e = .assertion := by
  intro fuel
  induction fuel with
  | zero =>
    intro ram buf ptr pageEntry offsetInPage bytesToCopy len e _ hlen h
    rw [show len = 0 by omega, scatterGatherLoop_zero] at h
    cases h
  | succ fuel ih =>
    intro ram buf ptr pageEntry offsetInPage bytesToCopy len e hbytes hlen h
    by_cases h0 : len = 0
    · rw [h0, scatterGatherLoop_zero] at h
      cases h
    · unfold scatterGatherLoop at h
      rw [if_neg h0] at h
      dsimp only at h
      split_ifs at h
      · exact (Except.error.inj h).symm
      · exact (Except.error.inj h).symm
      -- the next pages are whole, and the pass moved at least one byte
      all_goals exact ih _ _ _ _ _ _ _ e (by decide) (by omega) h

/-- the bytes of one pass lie in one page: byte `j` of it is byte `a % 4096 + j` of page `a / 4096` -/
theorem sgePhys_of_lt {ram : ℕ → UInt8} {a j : ℕ} (hj : j < targetPageSize - a % targetPageSize) :
    sgePhys ram sgeBase (a + j) = loadLe ram (sgeBase + a / targetPageSize * 8) 4 + a % targetPageSize + j := by
  have hdiv : (a + j) / targetPageSize = a / targetPageSize := by unfold targetPageSize at *; omega
  have hmod : (a + j) % targetPageSize = a % targetPageSize + j := by unfold targetPageSize at *; omega
  rw [sgePhys, hdiv, hmod, Nat.add_assoc]

/-- a read resolves byte `j` of the transfer through the table: it copies guest byte `sgePhys ram sgeBase (a + j)`
-/
theorem scatterGatherLoop_read :
    ∀ (fuel : ℕ) (ram buf ram' buf' : ℕ → UInt8) (ptr a len : ℕ),
      scatterGatherLoop ramSize sgeBase maxSge false fuel ram buf ptr (a / targetPageSize) (a % targetPageSize)
          (targetPageSize - a % targetPageSize) len = .ok (ram', buf') →
        ram' = ram ∧ buf' = gather (fun j => sgePhys ram sgeBase (a + j)) ram ptr len buf := by
  intro fuel
  induction fuel with
  | zero =>
    intro ram buf ram' buf' ptr a len h
    unfold scatterGatherLoop at h
    split_ifs at h with h0
    cases h
    rw [h0, gather_zero]
    exact ⟨rfl, rfl⟩
  | succ fuel ih =>
    intro ram buf ram' buf' ptr a len h
    by_cases h0 : len = 0
    · rw [h0, scatterGatherLoop_zero] at h
      cases h
      rw [h0, gather_zero]
      exact ⟨rfl, rfl⟩
    · unfold scatterGatherLoop at h
      rw [if_neg h0] at h
      simp only [Bool.false_eq_true, ↓reduceIte] at h
      split_ifs at h with hmax hram
      generalize hc : min (targetPageSize - a % targetPageSize) len = c at h
      -- the pass copies the bytes of page `a / 4096` from `a % 4096` on
      have hchunk : memcpy buf ptr ram (loadLe ram (sgeBase + a / targetPageSize * 8) 4 + a % targetPageSize) c =
          gather (fun j => sgePhys ram sgeBase (a + j)) ram ptr c buf := by
        rw [memcpy_eq_gather]
        exact gather_congr fun j hj => (sgePhys_of_lt (by omega)).symm
      by_cases hlast : len ≤ targetPageSize - a % targetPageSize
      · -- the transfer ends in this page
        rw [show len - c = 0 by omega, scatterGatherLoop_zero] at h
        cases h
        exact ⟨rfl, by rw [hchunk, show c = len by omega]⟩
      · -- the rest starts at the next page
        have hdiv : (a + c) / targetPageSize = a / targetPageSize + 1 := by unfold targetPageSize at *; omega
        have hmod : (a + c) % targetPageSize = 0 := by unfold targetPageSize at *; omega
        obtain ⟨rfl, hbuf⟩ := ih ram _ ram' buf' (ptr + c) (a + c) (len - c) (by rwa [hdiv, hmod, Nat.sub_zero])
        refine ⟨rfl, ?_⟩
        rw [hbuf, hchunk, ← Nat.add_sub_cancel' (show c ≤ len by omega), gather_add, Nat.add_sub_cancel_left]
        simp only [Nat.add_assoc]

theorem scatterGatherRw_zero (st : ApuState) (buf : ℕ → UInt8) (ptr addr : ℕ) :
    scatterGatherRw st sgeBase maxSge buf ptr addr 0 dir = .ok (st, buf) := by
  unfold scatterGatherRw
  rw [scatterGatherLoop_zero]
  rfl

theorem scatterGatherRw_ends {st : ApuState} {buf : ℕ → UInt8} {ptr addr len : ℕ} {e : Stop}
    (h : scatterGatherRw st sgeBase maxSge buf ptr addr len dir = .error e) : e = .assertion := by
  unfold scatterGatherRw at h
  cases hloop : scatterGatherLoop st.ramSize sgeBase maxSge dir len st.ram buf ptr (addr / targetPageSize)
      (addr % targetPageSize) (targetPageSize - addr % targetPageSize) len with
  | error e' =>
    rw [hloop] at h
    obtain rfl : e' = e := Except.error.inj h
    exact scatterGatherLoop_ends len _ _ _ _ _ _ _ e'
      (Nat.sub_pos_of_lt (Nat.mod_lt addr (by decide : 0 < targetPageSize))) le_rfl hloop
  | ok r =>
    rw [hloop] at h
    cases h

theorem scatterGatherRw_read {st st' : ApuState} {buf buf' : ℕ → UInt8} {ptr addr len : ℕ}
    (h : scatterGatherRw st sgeBase maxSge buf ptr addr len false = .ok (st', buf')) :
    st' = st ∧ buf' = gather (fun j => sgePhys st.ram sgeBase (addr + j)) st.ram ptr len buf := by
  unfold scatterGatherRw at h
  cases hloop : scatterGatherLoop st.ramSize sgeBase maxSge false len st.ram buf ptr (addr / targetPageSize)
      (addr % targetPageSize) (targetPageSize - addr % targetPageSize) len with
  | error e =>
    rw [hloop] at h
    cases h
  | ok r =>
    rw [hloop] at h
    obtain ⟨hram, hbuf⟩ := scatterGatherLoop_read len st.ram buf r.1 r.2 ptr addr len hloop
    simp only [Except.map, Except.ok.injEq, Prod.mk.injEq] at h
    obtain ⟨rfl, rfl⟩ := h
    rw [hram]
    exact ⟨rfl, hbuf⟩

end ScatterGather

/-! ## Circular runs -/

section Circular

variable {sgeBase maxSge base «end» : ℕ} {dir : Bool}

theorem circularLoop_zero (fuel : ℕ) (st : ApuState) (buf : ℕ → UInt8) (ptr cur : ℕ) :
    circularLoop sgeBase maxSge base «end» dir fuel st buf ptr cur 0 = .ok (st, buf, cur) := by
  unfold circularLoop
  rw [if_pos rfl]

/-- the offset after a pass that copies `c` bytes from `base ≤ cur < end`, up to `end` at most, is the one `c`
bytes further round the ring -/
theorem circular_next {cur c : ℕ} (hbase : base ≤ cur) (hcur : cur < «end») (hc : c ≤ «end» - cur) :
    (if «end» ≤ cur + c then base else cur + c) = base + (cur - base + c) % («end» - base) := by
  split_ifs with h
  · rw [show cur - base + c = «end» - base by omega, Nat.mod_self, Nat.add_zero]
  · rw [Nat.mod_eq_of_lt (by omega)]
    omega

/-- one pass of the loop from `base ≤ cur < end`: it copies `min (end - cur) len` bytes at `cur` and goes on from
the offset that many bytes further round the ring -/
theorem circularLoop_succ (hend : «end» < 2 ^ 32) {fuel : ℕ} {st : ApuState} {buf : ℕ → UInt8} {ptr cur len : ℕ}
    (hbase : base ≤ cur) (hcur : cur < «end») (h0 : len ≠ 0) :
    circularLoop sgeBase maxSge base «end» dir (fuel + 1) st buf ptr cur len =
      match scatterGatherRw st sgeBase maxSge buf ptr cur (min («end» - cur) len) dir with
      | .error e => .error e
      | .ok (st, buf) =>
        circularLoop sgeBase maxSge base «end» dir fuel st buf (ptr + min («end» - cur) len)
          (base + (cur - base + min («end» - cur) len) % («end» - base)) (len - min («end» - cur) len) := by
  rw [circularLoop.eq_def]
  simp only [if_neg h0, sub32_of_le hcur.le hend]
  have hfit : (cur + min («end» - cur) len) % 2 ^ 32 = cur + min («end» - cur) len := Nat.mod_eq_of_lt (by omega)
  rw [hfit, if_neg (by omega), ← circular_next hbase hcur (Nat.min_le_left _ _)]
  cases scatterGatherRw st sgeBase maxSge buf ptr cur (min («end» - cur) len) dir with
  | error e => rfl
  | ok r =>
    dsimp only
    -- both branches of the wrap go on from the same offset; the assertion `cur = end` holds at the wrap
    by_cases hwrap : «end» ≤ cur + min («end» - cur) len
    · rw [if_pos hwrap, if_pos hwrap, if_neg (by omega)]
    · rw [if_neg hwrap, if_neg hwrap]

/-- a FIFO read from `base ≤ cur < end` reads byte `j` from ring offset `ringAddr base (end - base) (cur - base) j`,
resolved through the table, and leaves the offset `len` bytes further round the ring -/
theorem circularLoop_read (hlt : base < «end») (hend : «end» < 2 ^ 32) :
    ∀ (fuel : ℕ) (st st' : ApuState) (buf buf' : ℕ → UInt8) (ptr cur cur' len : ℕ), base ≤ cur → cur < «end» →
      circularLoop sgeBase maxSge base «end» false fuel st buf ptr cur len = .ok (st', buf', cur') →
        st' = st ∧
          buf' = gather (fun j => sgePhys st.ram sgeBase (ringAddr base («end» - base) (cur - base) j)) st.ram
            ptr len buf ∧
          cur' = base + (cur - base + len) % («end» - base) := by
  intro fuel
  induction fuel with
  | zero =>
    intro st st' buf buf' ptr cur cur' len hbase hcur h
    unfold circularLoop at h
    split_ifs at h with h0
    cases h
    exact ⟨rfl, by rw [h0, gather_zero], by rw [h0, Nat.add_zero, Nat.mod_eq_of_lt (by omega)]; omega⟩
  | succ fuel ih =>
    intro st st' buf buf' ptr cur cur' len hbase hcur h
    by_cases h0 : len = 0
    · rw [h0, circularLoop_zero] at h
      cases h
      exact ⟨rfl, by rw [h0, gather_zero], by rw [h0, Nat.add_zero, Nat.mod_eq_of_lt (by omega)]; omega⟩
    · rw [circularLoop_succ hend hbase hcur h0] at h
      generalize hc : min («end» - cur) len = c at h
      cases hsg : scatterGatherRw st sgeBase maxSge buf ptr cur c false with
      | error e =>
        rw [hsg] at h
        cases h
      | ok r =>
        obtain ⟨st₁, buf₁⟩ := r
        obtain ⟨hst₁, hbuf₁⟩ := scatterGatherRw_read hsg
        rw [hsg] at h
        dsimp only at h
        rw [hst₁, hbuf₁] at h
        have hoff : (cur - base + c) % («end» - base) < «end» - base := Nat.mod_lt _ (by omega)
        obtain ⟨hst, hbuf, hcur'⟩ := ih st st' _ buf' (ptr + c) _ cur' (len - c) (by omega) (by omega) h
        rw [Nat.add_sub_cancel_left] at hbuf hcur'
        refine ⟨hst, ?_, ?_⟩
        · -- the first pass's bytes are consecutive, the rest continue round the ring
          have hchunk : gather (fun j => sgePhys st.ram sgeBase (cur + j)) st.ram ptr c buf =
              gather (fun j => sgePhys st.ram sgeBase (ringAddr base («end» - base) (cur - base) j)) st.ram ptr c
                buf := gather_congr fun j hj => by rw [ringAddr_of_lt (by omega)]; congr 1; omega
          rw [hbuf, hchunk, ← Nat.add_sub_cancel' (show c ≤ len by omega), gather_add, Nat.add_sub_cancel_left]
          congr 1
          funext j
          rw [ringAddr_add]
        · rw [hcur', Nat.mod_add_mod, Nat.add_assoc, Nat.add_sub_cancel' (by omega)]

/-- with `base < end`, a loop started inside the ring copies at least one byte a pass, so `len` passes finish it:
it stops only at an assertion of scatter_gather_rw -/
theorem circularLoop_ends (hlt : base < «end») (hend : «end» < 2 ^ 32) :
    ∀ (fuel : ℕ) (st : ApuState) (buf : ℕ → UInt8) (ptr cur len : ℕ) (e : Stop), base ≤ cur → cur < «end» →
      len ≤ fuel → circularLoop sgeBase maxSge base «end» dir fuel st buf ptr cur len = .error e → e = .assertion := by
  intro fuel
  induction fuel with
  | zero =>
    intro st buf ptr cur len e _ _ hlen h
    rw [show len = 0 by omega, circularLoop_zero] at h
    cases h
  | succ fuel ih =>
    intro st buf ptr cur len e hbase hcur hlen h
    by_cases h0 : len = 0
    · rw [h0, circularLoop_zero] at h
      cases h
    · rw [circularLoop_succ hend hbase hcur h0] at h
      generalize hc : min («end» - cur) len = c at h
      cases hsg : scatterGatherRw st sgeBase maxSge buf ptr cur c dir with
      | error e' =>
        rw [hsg] at h
        obtain rfl : e' = e := Except.error.inj h
        exact scatterGatherRw_ends hsg
      | ok r =>
        obtain ⟨st₁, buf₁⟩ := r
        rw [hsg] at h
        have hoff : (cur - base + c) % («end» - base) < «end» - base := Nat.mod_lt _ (by omega)
        -- the pass moved at least one byte
        exact ih st₁ buf₁ _ _ _ e (by omega) (by omega) (by omega) h

/-- with `base = end` a pass copies nothing and starts over where it was, so no amount of fuel ends the loop -/
theorem circularLoop_stuck (hbase : base < 2 ^ 32) {len : ℕ} (hlen : 0 < len) :
    ∀ (fuel : ℕ) (st : ApuState) (buf : ℕ → UInt8) (ptr : ℕ),
      circularLoop sgeBase maxSge base base dir fuel st buf ptr base len = .error .fuel := by
  intro fuel
  induction fuel with
  | zero =>
    intro st buf ptr
    unfold circularLoop
    rw [if_neg (by omega)]
  | succ fuel ih =>
    intro st buf ptr
    unfold circularLoop
    rw [if_neg (by omega)]
    dsimp only
    have hnone : min (sub32 base base) len = 0 := by rw [sub32_of_le le_rfl hbase, Nat.sub_self, Nat.zero_min]
    have hcur : (base + 0) % 2 ^ 32 = base := by rw [Nat.add_zero, Nat.mod_eq_of_lt hbase]
    rw [hnone, hcur, if_neg (by omega), scatterGatherRw_zero]
    dsimp only
    rw [if_pos le_rfl, if_neg (by omega), Nat.sub_zero, Nat.add_zero]
    exact ih st buf ptr

end Circular

/-! ## FIFO calls -/

theorem fifoValue_lt (v : ℕ) : v &&& fifoValueMask < 2 ^ 32 :=
  lt_of_le_of_lt Nat.and_le_right (by decide)

/-- raising an offset below `base` to `base` -/
theorem raise_eq_max (base cur : ℕ) : (if cur < base then base else cur) = max base cur := by
  split_ifs with h
  · exact (max_eq_left h.le).symm
  · exact (max_eq_right (Nat.not_lt.mp h)).symm

section Copy

variable {st st' : ApuState} {sgeBase maxSge base «end» c len curReg : ℕ} {dir : Bool}

/-- the end of both FIFO calls, a read from `base ≤ c < end` with its offset stored back in CUR: byte `j` comes from
ring offset `ringAddr base (end - base) (c - base) j`, and CUR is left `len` bytes further round the ring -/
theorem fifoCopy_read (hlt : base < «end») (hend : «end» < 2 ^ 32) (hb : base ≤ c) (hc : c < «end»)
    {buf buf' : ℕ → UInt8}
    (h : (circularScatterGatherRw st sgeBase maxSge buf base «end» c len false).map
      (fun q => ({ q.1 with regs := Function.update q.1.regs curReg (setMask (q.1.regs curReg) fifoValueMask q.2.2) },
        q.2.1)) = .ok (st', buf')) :
    buf' = gather (fun j => sgePhys st.ram sgeBase (ringAddr base («end» - base) (c - base) j)) st.ram 0 len buf ∧
      st' = { st with
        regs := Function.update st.regs curReg
          (setMask (st.regs curReg) fifoValueMask (base + (c - base + len) % («end» - base))) } := by
  cases hres : circularScatterGatherRw st sgeBase maxSge buf base «end» c len false with
  | error e =>
    rw [hres] at h
    cases h
  | ok r =>
    obtain ⟨st₁, buf₁, cur₁⟩ := r
    obtain ⟨hst₁, hbuf₁, hcur₁⟩ := circularLoop_read hlt hend len st st₁ buf buf₁ 0 c cur₁ len hb hc hres
    rw [hres] at h
    simp only [Except.map, Except.ok.injEq, Prod.mk.injEq] at h
    obtain ⟨rfl, rfl⟩ := h
    rw [hst₁, hbuf₁, hcur₁]
    exact ⟨rfl, rfl⟩

/-- a copy from `base ≤ c < end` stops only at an assertion, whatever the call makes of its result -/
theorem fifoCopy_ends (hlt : base < «end») (hend : «end» < 2 ^ 32) (hb : base ≤ c) (hc : c < «end»)
    {buf : ℕ → UInt8} {β : Type} {g : ApuState × (ℕ → UInt8) × ℕ → β} {e : Stop}
    (h : (circularScatterGatherRw st sgeBase maxSge buf base «end» c len dir).map g = .error e) : e = .assertion := by
  cases hres : circularScatterGatherRw st sgeBase maxSge buf base «end» c len dir with
  | error e' =>
    rw [hres] at h
    obtain rfl : e' = e := Except.error.inj h
    exact circularLoop_ends hlt hend len _ _ _ _ _ e' hb hc le_rfl hres
  | ok r =>
    rw [hres] at h
    cases h

end Copy

section Gp

variable {st st' : ApuState} {buf buf' : ℕ → UInt8} {index len : ℕ} {dir : Bool} {baseReg endReg curReg : ℕ}

theorem gpFifoRw_eq
    (hregs : fifoRegs nvPapuGpofbase0 nvPapuGpofend0 nvPapuGpofcur0 nvPapuGpifbase0 nvPapuGpifend0 nvPapuGpifcur0
      gpOutputFifoCount gpInputFifoCount index dir = some (baseReg, endReg, curReg)) :
    gpFifoRw st buf index len dir =
      if ¬(st.regs curReg &&& fifoValueMask) < (st.regs endReg &&& fifoValueMask) then .error .assertion
      else (circularScatterGatherRw st (st.regs nvPapuGpfaddr) (st.regs nvPapuGpfmaxsge) buf
          (st.regs baseReg &&& fifoValueMask) (st.regs endReg &&& fifoValueMask)
          (max (st.regs baseReg &&& fifoValueMask) (st.regs curReg &&& fifoValueMask)) len dir).map
        fun r => ({ r.1 with regs := Function.update r.1.regs curReg (setMask (r.1.regs curReg) fifoValueMask r.2.2) },
          r.2.1) := by
  unfold gpFifoRw
  rw [hregs]
  simp only [bind, Except.bind, pure, Except.pure, raise_eq_max]
  -- the assertion on `cur`
  split_ifs <;> rfl

/-- gp_fifo_rw reading from a FIFO with `base < end` and CUR below `end`: byte `j` comes from the ring offset `j`
bytes past `c0 = max base cur`, resolved through the FIFO table, and CUR is left `len` bytes further round -/
theorem gpFifoRw_read {base «end» cur : ℕ}
    (hregs : fifoRegs nvPapuGpofbase0 nvPapuGpofend0 nvPapuGpofcur0 nvPapuGpifbase0 nvPapuGpifend0 nvPapuGpifcur0
      gpOutputFifoCount gpInputFifoCount index false = some (baseReg, endReg, curReg))
    (hbase : st.regs baseReg &&& fifoValueMask = base) (hend : st.regs endReg &&& fifoValueMask = «end»)
    (hcur : st.regs curReg &&& fifoValueMask = cur) (hlt : base < «end») (hcurEnd : cur < «end»)
    (h : gpFifoRw st buf index len false = .ok (st', buf')) :
    buf' = gather (fun j => sgePhys st.ram (st.regs nvPapuGpfaddr)
        (ringAddr base («end» - base) (max base cur - base) j)) st.ram 0 len buf ∧
      st' = { st with
        regs := Function.update st.regs curReg
          (setMask (st.regs curReg) fifoValueMask (base + (max base cur - base + len) % («end» - base))) } := by
  rw [gpFifoRw_eq hregs, hbase, hend, hcur, if_neg (not_not.mpr hcurEnd)] at h
  exact fifoCopy_read hlt (hend ▸ fifoValue_lt _) (le_max_left _ _) (max_lt hlt hcurEnd) h

/-- gp_fifo_rw on a FIFO with `base < end` stops only at one of its assertions -/
theorem gpFifoRw_ends {e : Stop}
    (hregs : fifoRegs nvPapuGpofbase0 nvPapuGpofend0 nvPapuGpofcur0 nvPapuGpifbase0 nvPapuGpifend0 nvPapuGpifcur0
      gpOutputFifoCount gpInputFifoCount index dir = some (baseReg, endReg, curReg))
    (hlt : st.regs baseReg &&& fifoValueMask < st.regs endReg &&& fifoValueMask)
    (h : gpFifoRw st buf index len dir = .error e) : e = .assertion := by
  rw [gpFifoRw_eq hregs] at h
  by_cases hcur : st.regs curReg &&& fifoValueMask < st.regs endReg &&& fifoValueMask
  · rw [if_neg (not_not.mpr hcur)] at h
    exact fifoCopy_ends hlt (fifoValue_lt _) (le_max_left _ _) (max_lt hlt hcur) h
  · rw [if_pos hcur] at h
    exact (Except.error.inj h).symm

/-- gp_fifo_rw on a FIFO with `base = end` and `cur < end`: the offset is raised to `base`, and the copy never ends -/
theorem gpFifoRw_stuck
    (hregs : fifoRegs nvPapuGpofbase0 nvPapuGpofend0 nvPapuGpofcur0 nvPapuGpifbase0 nvPapuGpifend0 nvPapuGpifcur0
      gpOutputFifoCount gpInputFifoCount index dir = some (baseReg, endReg, curReg))
    (hend : st.regs endReg &&& fifoValueMask = st.regs baseReg &&& fifoValueMask)
    (hcur : st.regs curReg &&& fifoValueMask < st.regs endReg &&& fifoValueMask) (hlen : 0 < len) :
    gpFifoRw st buf index len dir = .error .fuel := by
  have hraise : max (st.regs baseReg &&& fifoValueMask) (st.regs curReg &&& fifoValueMask) =
      st.regs baseReg &&& fifoValueMask := max_eq_left (hend ▸ hcur).le
  rw [gpFifoRw_eq hregs, if_neg (not_not.mpr hcur), hraise, hend, circularScatterGatherRw,
    circularLoop_stuck (fifoValue_lt _) hlen]
  rfl

end Gp

section Ep

variable {st st' : ApuState} {buf buf' : ℕ → UInt8} {index len : ℕ} {dir : Bool} {baseReg endReg curReg : ℕ}

theorem epSinkSamples_ends {e : Stop} (h : epSinkSamples st buf len = .error e) : e = .assertion := by
  unfold epSinkSamples at h
  split_ifs at h
  exact (Except.error.inj h).symm

/-- ep_fifo_rw reading from a FIFO with `base < end`: as gp_fifo_rw, from `c0 = max base cur`, where a CUR at or
past `end` is first reduced modulo `end - base` -/
theorem epFifoRw_read {base «end» cur : ℕ}
    (hregs : fifoRegs nvPapuEpofbase0 nvPapuEpofend0 nvPapuEpofcur0 nvPapuEpifbase0 nvPapuEpifend0 nvPapuEpifcur0
      epOutputFifoCount epInputFifoCount index false = some (baseReg, endReg, curReg))
    (hbase : st.regs baseReg &&& fifoValueMask = base) (hend : st.regs endReg &&& fifoValueMask = «end»)
    (hcur : st.regs curReg &&& fifoValueMask = cur) (hlt : base < «end»)
    (h : epFifoRw st buf index len false = .ok (st', buf')) :
    let c0 := max base (if «end» ≤ cur then cur % («end» - base) else cur)
    buf' = gather (fun j => sgePhys st.ram (st.regs nvPapuEpfaddr) (ringAddr base («end» - base) (c0 - base) j))
        st.ram 0 len buf ∧
      st' = { st with
        regs := Function.update st.regs curReg
          (setMask (st.regs curReg) fifoValueMask (base + (c0 - base + len) % («end» - base))) } := by
  have hend32 : «end» < 2 ^ 32 := hend ▸ fifoValue_lt _
  have hne : «end» - base ≠ 0 := by omega
  unfold epFifoRw at h
  rw [hregs] at h
  -- a read is never sunk, and an offset past `end` is reduced by a nonzero difference
  simp only [bind, Except.bind, pure, Except.pure, raise_eq_max, hbase, hend, hcur, sub32_of_le hlt.le hend32, hne,
    Bool.false_eq_true, false_and, if_false] at h
  by_cases hwrap : «end» ≤ cur
  · rw [if_pos hwrap] at h ⊢
    have hmod : cur % («end» - base) < «end» := lt_of_lt_of_le (Nat.mod_lt cur (by omega)) (Nat.sub_le _ _)
    exact fifoCopy_read hlt hend32 (le_max_left _ _) (max_lt hlt hmod) h
  · rw [if_neg hwrap] at h ⊢
    exact fifoCopy_read hlt hend32 (le_max_left _ _) (max_lt hlt (Nat.lt_of_not_le hwrap)) h

/-- ep_fifo_rw on a FIFO with `base < end` stops only at one of its assertions or those of ep_sink_samples: the
offset is reduced into the ring, whether CUR is past `end` or not -/
theorem epFifoRw_ends {e : Stop}
    (hregs : fifoRegs nvPapuEpofbase0 nvPapuEpofend0 nvPapuEpofcur0 nvPapuEpifbase0 nvPapuEpifend0 nvPapuEpifcur0
      epOutputFifoCount epInputFifoCount index dir = some (baseReg, endReg, curReg))
    (hlt : st.regs baseReg &&& fifoValueMask < st.regs endReg &&& fifoValueMask)
    (h : epFifoRw st buf index len dir = .error e) : e = .assertion := by
  generalize hbase : st.regs baseReg &&& fifoValueMask = base at hlt
  generalize hend : st.regs endReg &&& fifoValueMask = «end» at hlt
  generalize hcur : st.regs curReg &&& fifoValueMask = cur
  have hend32 : «end» < 2 ^ 32 := hend ▸ fifoValue_lt _
  have hne : «end» - base ≠ 0 := by omega
  have hmod : cur % («end» - base) < «end» := lt_of_lt_of_le (Nat.mod_lt cur (by omega)) (Nat.sub_le _ _)
  unfold epFifoRw at h
  rw [hregs] at h
  simp only [bind, Except.bind, pure, Except.pure, throw, throwThe, MonadExceptOf.throw, raise_eq_max, hbase, hend,
    hcur, sub32_of_le hlt.le hend32, hne, if_false] at h
  -- whatever the sink did, the copy starts inside the ring: at CUR, or at CUR reduced modulo `end - base`
  by_cases hsink : dir = true ∧ index = 0
  · rw [if_pos hsink] at h
    cases hs : epSinkSamples st buf len with
    | error e' =>
      rw [hs] at h
      obtain rfl : e' = e := Except.error.inj h
      exact epSinkSamples_ends hs
    | ok r =>
      obtain ⟨st₁, sunk⟩ := r
      rw [hs] at h
      dsimp only at h
      by_cases hbig : sunk = true ∧ ¬len ≤ 1024
      · rw [if_pos hbig] at h
        exact (Except.error.inj h).symm
      · rw [if_neg hbig] at h
        by_cases hwrap : «end» ≤ cur
        · rw [if_pos hwrap] at h
          exact fifoCopy_ends hlt hend32 (le_max_left _ _) (max_lt hlt hmod) h
        · rw [if_neg hwrap] at h
          exact fifoCopy_ends hlt hend32 (le_max_left _ _) (max_lt hlt (Nat.lt_of_not_le hwrap)) h
  · rw [if_neg hsink] at h
    simp only [Bool.false_eq_true, false_and, if_false] at h
    by_cases hwrap : «end» ≤ cur
    · rw [if_pos hwrap] at h
      exact fifoCopy_ends hlt hend32 (le_max_left _ _) (max_lt hlt hmod) h
    · rw [if_neg hwrap] at h
      exact fifoCopy_ends hlt hend32 (le_max_left _ _) (max_lt hlt (Nat.lt_of_not_le hwrap)) h

/-- ep_fifo_rw on a FIFO with `base = end` and an offset at or past `end`: the offset is reduced modulo zero -/
theorem epFifoRw_divByZero
    (hregs : fifoRegs nvPapuEpofbase0 nvPapuEpofend0 nvPapuEpofcur0 nvPapuEpifbase0 nvPapuEpifend0 nvPapuEpifcur0
      epOutputFifoCount epInputFifoCount index dir = some (baseReg, endReg, curReg))
    (hsink : ¬(dir = true ∧ index = 0))
    (hend : st.regs endReg &&& fifoValueMask = st.regs baseReg &&& fifoValueMask)
    (hcur : st.regs endReg &&& fifoValueMask ≤ st.regs curReg &&& fifoValueMask) :
    epFifoRw st buf index len dir = .error .divisionByZero := by
  have hzero : sub32 (st.regs endReg &&& fifoValueMask) (st.regs baseReg &&& fifoValueMask) = 0 := by
    rw [hend, sub32_of_le le_rfl (fifoValue_lt _), Nat.sub_self]
  unfold epFifoRw
  rw [hregs]
  simp only [bind, Except.bind, pure, Except.pure, if_neg hsink, Bool.false_eq_true, false_and, if_false,
    if_pos hcur, hzero, if_true]
  rfl

/-- ep_fifo_rw on a FIFO with `base = end` and `cur < end`: as in gp_fifo_rw, the copy never ends -/
theorem epFifoRw_stuck
    (hregs : fifoRegs nvPapuEpofbase0 nvPapuEpofend0 nvPapuEpofcur0 nvPapuEpifbase0 nvPapuEpifend0 nvPapuEpifcur0
      epOutputFifoCount epInputFifoCount index dir = some (baseReg, endReg, curReg))
    (hsink : ¬(dir = true ∧ index = 0))
    (hend : st.regs endReg &&& fifoValueMask = st.regs baseReg &&& fifoValueMask)
    (hcur : st.regs curReg &&& fifoValueMask < st.regs endReg &&& fifoValueMask) (hlen : 0 < len) :
    epFifoRw st buf index len dir = .error .fuel := by
  have hpast : ¬st.regs endReg &&& fifoValueMask ≤ st.regs curReg &&& fifoValueMask := Nat.not_le.mpr hcur
  have hbelow : st.regs curReg &&& fifoValueMask < st.regs baseReg &&& fifoValueMask := hend ▸ hcur
  unfold epFifoRw
  rw [hregs]
  simp only [bind, Except.bind, pure, Except.pure, if_neg hsink, Bool.false_eq_true, false_and, if_false,
    if_neg hpast, if_pos hbelow]
  rw [hend, circularScatterGatherRw, circularLoop_stuck (fifoValue_lt _) hlen]

end Ep

/-! ## A FIFO with `base = end` -/

/-- A guest that programs a FIFO with `base = end` (the registers are the guest's, and nothing checks them) stalls
the DSP's FIFO calls: the circular copy from `base = end` makes no progress for any amount of fuel, gp_fifo_rw and
ep_fifo_rw reach it from any CUR below `end`, and ep_fifo_rw reduces a CUR at or past `end` modulo zero. With
`base < end` both calls end (`gpFifoRw_ends`, `epFifoRw_ends`) and move the bytes round the ring (`gpFifoRw_read`,
`epFifoRw_read`). -/
theorem fifoRw_empty_ring_fails :
    (∀ (sgeBase maxSge base len : ℕ) (dir : Bool), base < 2 ^ 32 → 0 < len →
      ∀ (fuel : ℕ) (st : ApuState) (buf : ℕ → UInt8) (ptr : ℕ),
        circularLoop sgeBase maxSge base base dir fuel st buf ptr base len = .error .fuel) ∧
    (∀ (st : ApuState) (buf : ℕ → UInt8) (index len : ℕ) (dir : Bool) (baseReg endReg curReg : ℕ),
      fifoRegs nvPapuGpofbase0 nvPapuGpofend0 nvPapuGpofcur0 nvPapuGpifbase0 nvPapuGpifend0 nvPapuGpifcur0
        gpOutputFifoCount gpInputFifoCount index dir = some (baseReg, endReg, curReg) →
      st.regs endReg &&& fifoValueMask = st.regs baseReg &&& fifoValueMask →
      st.regs curReg &&& fifoValueMask < st.regs endReg &&& fifoValueMask → 0 < len →
      gpFifoRw st buf index len dir = .error .fuel) ∧
    (∀ (st : ApuState) (buf : ℕ → UInt8) (index len : ℕ) (dir : Bool) (baseReg endReg curReg : ℕ),
      fifoRegs nvPapuEpofbase0 nvPapuEpofend0 nvPapuEpofcur0 nvPapuEpifbase0 nvPapuEpifend0 nvPapuEpifcur0
        epOutputFifoCount epInputFifoCount index dir = some (baseReg, endReg, curReg) →
      ¬(dir = true ∧ index = 0) → st.regs endReg &&& fifoValueMask = st.regs baseReg &&& fifoValueMask →
      st.regs curReg &&& fifoValueMask < st.regs endReg &&& fifoValueMask → 0 < len →
      epFifoRw st buf index len dir = .error .fuel) ∧
    (∀ (st : ApuState) (buf : ℕ → UInt8) (index len : ℕ) (dir : Bool) (baseReg endReg curReg : ℕ),
      fifoRegs nvPapuEpofbase0 nvPapuEpofend0 nvPapuEpofcur0 nvPapuEpifbase0 nvPapuEpifend0 nvPapuEpifcur0
        epOutputFifoCount epInputFifoCount index dir = some (baseReg, endReg, curReg) →
      ¬(dir = true ∧ index = 0) → st.regs endReg &&& fifoValueMask = st.regs baseReg &&& fifoValueMask →
      st.regs endReg &&& fifoValueMask ≤ st.regs curReg &&& fifoValueMask →
      epFifoRw st buf index len dir = .error .divisionByZero) := by
  refine ⟨?_, ?_, ?_, ?_⟩
  · intro sgeBase maxSge base len dir hbase hlen
    exact circularLoop_stuck hbase hlen
  · intro st buf index len dir baseReg endReg curReg hregs hend hcur hlen
    exact gpFifoRw_stuck hregs hend hcur hlen
  · intro st buf index len dir baseReg endReg curReg hregs hsink hend hcur hlen
    exact epFifoRw_stuck hregs hsink hend hcur hlen
  · intro st buf index len dir baseReg endReg curReg hregs hsink hend hcur
    exact epFifoRw_divByZero hregs hsink hend hcur

/-- GP input FIFO 0 and EP input FIFOs 0 and 1 programmed with `base = end = 0x100`; CUR is 0, except for EP input
FIFO 0, where it is `0x100` -/
def emptyRingState : ApuState where
  regs r :=
    if r = nvPapuGpifbase0 ∨ r = nvPapuGpifend0 ∨ r = nvPapuEpifbase0 ∨ r = nvPapuEpifend0 ∨ r = nvPapuEpifcur0 ∨
      r = nvPapuEpifbase0 + 0x10 ∨ r = nvPapuEpifend0 + 0x10 then 0x100 else 0
  ram _ := 0
  ramSize := 0x10000
  monitorPoint := .ac97
  frameBuf _ := 0

theorem empty_ring_reads_stall :
    circularLoop 0 0 0x100 0x100 false 1000 emptyRingState (fun _ => 0) 0 0x100 4 = .error .fuel ∧
      gpFifoRw emptyRingState (fun _ => 0) 0 4 false = .error .fuel ∧
      epFifoRw emptyRingState (fun _ => 0) 1 4 false = .error .fuel ∧
      epFifoRw emptyRingState (fun _ => 0) 0 4 false = .error .divisionByZero :=
  ⟨fifoRw_empty_ring_fails.1 0 0 0x100 4 false (by decide) (by decide) 1000 _ _ 0,
    fifoRw_empty_ring_fails.2.1 _ _ 0 4 false 0x3064 0x3068 0x306C (by decide) (by decide) (by decide) (by decide),
    fifoRw_empty_ring_fails.2.2.1 _ _ 1 4 false 0x4074 0x4078 0x407C (by decide) (by decide) (by decide) (by decide)
      (by decide),
    fifoRw_empty_ring_fails.2.2.2 _ _ 0 4 false 0x4064 0x4068 0x406C (by decide) (by decide) (by decide)
      (by decide)⟩

end Xemu.Dsp
