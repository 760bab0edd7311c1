import Mathlib
import Xemu.Core.ByteCopy
/-!
# The NIC's descriptor rings

The receive and transmit rings of nvnet (hw/xbox/mcpx/nvnet/nvnet.c). Each ring is three registers: its base, the
CURRENT descriptor and the NEXT one; the ring size is a 16-bit field of NVNET_RING_SIZE, plus one. Before each
access update_current_*_ring_desc_addr makes CURRENT the NEXT pointer, or the base when NEXT lies outside the ring,
and after each descriptor advance_next_*_ring_desc_addr moves NEXT one descriptor on, back to the base past the
end. dma_packet_to_guest writes a received frame to the CURRENT descriptor's buffer; dma_packet_from_guest
gathers the buffers of valid transmit descriptors into tx_dma_buf up to one flagged LASTPACKET, and hands the frame
to send_packet.

* `RingAt`: a ring of `n` descriptors below 4 GiB whose NEXT pointer is its `k`-th descriptor, or lies outside it
  (`k = 0`). `RingAt.updateCurrent` and `RingAt.advanceNext`: one access uses descriptor `k`, and NEXT then
  points at `(k + 1) % n`.
* `receiveEvents_cyclic`: on such a ring, the frames the guest takes land in descriptors `k`, `k + 1`, ... modulo
  `n`, whatever frames are refused and whatever the guest writes to its memory in between, such as the flags that give
  a descriptor back.
* `ring_size_field_max_wraps`: a size field of `0xFFFF` gives a ring of 65536 descriptors, but the `uint16_t` sum is
  0, so that every received frame lands in the first descriptor and a kick transmits nothing.
-/

namespace Xemu.Nvnet

/-! ## Descriptors -/

/-- `sizeof(struct RingDesc)` -/
def ringDescSize : ℕ := 8

/-- `struct RingDesc`, its fields as load_ring_desc returns them -/
structure RingDesc where
  bufferAddr : ℕ
  length : ℕ
  flags : ℕ
  deriving DecidableEq, Repr

/-- `NV_TX_LASTPACKET` -/
def nvTxLastpacket : ℕ := 0x0001

/-- `NV_TX_VALID` -/
def nvTxValid : ℕ := 0x8000

/-- the flags a transmitted descriptor loses: `NV_TX_VALID`, `NV_TX_RETRYERROR`, `NV_TX_DEFERRED`,
`NV_TX_CARRIERLOST`, `NV_TX_LATECOLLISION`, `NV_TX_UNDERFLOW` and `NV_TX_ERROR` -/
def nvTxDoneMask : ℕ := 0x8000 ||| 0x0008 ||| 0x0400 ||| 0x0800 ||| 0x1000 ||| 0x2000 ||| 0x4000

/-- `NV_RX_DESCRIPTORVALID` -/
def nvRxDescriptorvalid : ℕ := 0x0001

/-- `NV_RX_BIT4` -/
def nvRxBit4 : ℕ := 0x0010

/-- `NV_RX_AVAIL` -/
def nvRxAvail : ℕ := 0x8000

/-- `NVNET_IRQ_STATUS_RX` -/
def nvnetIrqStatusRx : ℕ := 0x02

/-- `NVNET_IRQ_STATUS_TX` -/
def nvnetIrqStatusTx : ℕ := 0x10

/-- `TX_ALLOC_BUFSIZE`, the size of tx_dma_buf -/
def txAllocBufsize : ℕ := 1500 + 128

/-- the `n` little-endian bytes of `x` -/
def leBytes : ℕ → ℕ → List UInt8
  | 0, _ => []
  | n + 1, x => UInt8.ofNat x :: leBytes n (x / 256)

/-- the value of little-endian bytes -/
def leValue : List UInt8 → ℕ
  | [] => 0
  | b :: bs => b.toNat + 256 * leValue bs

/-- `pci_dma_read(d, addr, dst, n)` from guest memory -/
def dmaRead (mem : ℕ → UInt8) (addr n : ℕ) : List UInt8 := (List.range n).map fun k => mem (addr + k)

/-- `pci_dma_write(d, addr, bytes, bytes.length)` to guest memory -/
def dmaWrite (mem : ℕ → UInt8) (addr : ℕ) (bytes : List UInt8) : ℕ → UInt8 :=
  ByteCopy.memcpy mem addr (fun k => bytes.getD k 0) 0 bytes.length

/-- load_ring_desc: the little-endian `buffer_addr`, `length` and `flags` of the descriptor at `addr` -/
def loadRingDesc (mem : ℕ → UInt8) (addr : ℕ) : RingDesc :=
  let raw := dmaRead mem addr ringDescSize
  { bufferAddr := leValue (raw.take 4), length := leValue ((raw.drop 4).take 2), flags := leValue (raw.drop 6) }

/-- store_ring_desc -/
def storeRingDesc (mem : ℕ → UInt8) (addr : ℕ) (desc : RingDesc) : ℕ → UInt8 :=
  dmaWrite mem addr (leBytes 4 desc.bufferAddr ++ leBytes 2 desc.length ++ leBytes 2 desc.flags)

/-! ## Ring pointers -/

/-- the registers of one ring: `*_RING_PHYS_ADDR`, `*_RING_CURRENT_DESC_PHYS_ADDR`, `*_RING_NEXT_DESC_PHYS_ADDR` -/
structure RingPtrs where
  base : ℕ
  current : ℕ
  next : ℕ
  deriving DecidableEq, Repr

/-- `GET_MASK(ring_size, mask) + 1`, returned as a `uint16_t`; `shift` is `ctz32(mask)` -/
def ringSizeOfField (reg mask shift : ℕ) : ℕ := ((reg &&& mask) >>> shift + 1) % 2 ^ 16

/-- `max_desc_addr = base_desc_addr + ring_size * sizeof(struct RingDesc)`, a `uint32_t` -/
def maxDescAddr (size : ℕ) (r : RingPtrs) : ℕ := (r.base + size * ringDescSize) % 2 ^ 32

/-- update_current_*_ring_desc_addr: CURRENT becomes NEXT, or the base when NEXT lies outside the ring; the test
`cur_desc_addr + sizeof(struct RingDesc) > max_desc_addr` is made in `size_t` -/
def updateCurrentRingDescAddr (size : ℕ) (r : RingPtrs) : RingPtrs :=
  { r with current := if r.next < r.base ∨ maxDescAddr size r < r.next + ringDescSize then r.base else r.next }

/-- advance_next_*_ring_desc_addr: NEXT is the descriptor after CURRENT, or the base past the end of the ring -/
def advanceNextRingDescAddr (size : ℕ) (r : RingPtrs) : RingPtrs :=
  { r with
    next := if maxDescAddr size r ≤ (r.current + ringDescSize) % 2 ^ 32 then r.base
      else (r.current + ringDescSize) % 2 ^ 32 }

/-! ## The NIC -/

/-- the NIC state the rings use: NVNET_RING_SIZE, the two rings, the enable bits that nvnet_can_receive and
can_transmit test, NVNET_IRQ_STATUS, the guest's memory and the bytes gathered in `tx_dma_buf` so far -/
structure Nic where
  ringSize : ℕ
  rx : RingPtrs
  tx : RingPtrs
  rxEnabled : Bool
  txEnabled : Bool
  dmaEnabled : Bool
  linkUp : Bool
  irqStatus : ℕ
  mem : ℕ → UInt8
  txBuf : List UInt8

/-- get_tx_ring_size -/
def getTxRingSize (s : Nic) : ℕ := ringSizeOfField s.ringSize 0x0000FFFF 0

/-- get_rx_ring_size -/
def getRxRingSize (s : Nic) : ℕ := ringSizeOfField s.ringSize 0xFFFF0000 16

/-- update_current_rx_ring_desc_addr -/
def updateCurrentRxRingDescAddr (s : Nic) : Nic := { s with rx := updateCurrentRingDescAddr (getRxRingSize s) s.rx }

/-- update_current_tx_ring_desc_addr -/
def updateCurrentTxRingDescAddr (s : Nic) : Nic := { s with tx := updateCurrentRingDescAddr (getTxRingSize s) s.tx }

/-- advance_next_rx_ring_desc_addr -/
def advanceNextRxRingDescAddr (s : Nic) : Nic := { s with rx := advanceNextRingDescAddr (getRxRingSize s) s.rx }

/-- advance_next_tx_ring_desc_addr -/
def advanceNextTxRingDescAddr (s : Nic) : Nic := { s with tx := advanceNextRingDescAddr (getTxRingSize s) s.tx }

/-- reset_descriptor_ring_pointers -/
def resetDescriptorRingPointers (s : Nic) : Nic :=
  { s with rx := { s.rx with current := s.rx.base, next := s.rx.base },
           tx := { s.tx with current := s.tx.base, next := s.tx.base } }

/-- rx_buf_available: whether the descriptor NEXT points at is free for a frame -/
def rxBufAvailable (s : Nic) : Nic × Bool :=
  let s := updateCurrentRxRingDescAddr s
  (s, (loadRingDesc s.mem s.rx.current).flags &&& nvRxAvail ≠ 0)

/-- nvnet_can_receive -/
def nvnetCanReceive (s : Nic) : Nic × Bool :=
  let (s, bufAvail) := rxBufAvailable s
  (s, s.rxEnabled && s.dmaEnabled && s.linkUp && bufAvail)

/-- dma_packet_to_guest: the frame goes to the buffer of the CURRENT receive descriptor, which is handed back to the
guest with the frame's length; `-1` when there is no free descriptor, `none` where the `assert` fails -/
def dmaPacketToGuest (s : Nic) (buf : List UInt8) : Option (Nic × ℤ) :=
  let (s, canRx) := nvnetCanReceive s
  if canRx = false then some (s, -1) else
  let s := updateCurrentRxRingDescAddr s
  let desc := loadRingDesc s.mem s.rx.current
  if desc.flags &&& nvRxAvail = 0 then some (s, -1)
  else if desc.length + 1 < buf.length then none
  else
    let mem := dmaWrite s.mem desc.bufferAddr buf
    let mem := storeRingDesc mem s.rx.current
      { desc with length := buf.length % 2 ^ 16, flags := nvRxBit4 ||| nvRxDescriptorvalid }
    some (advanceNextRxRingDescAddr { s with mem, irqStatus := s.irqStatus ||| nvnetIrqStatusRx }, buf.length)

/-- can_transmit -/
def canTransmit (s : Nic) : Bool := s.txEnabled && s.dmaEnabled && s.linkUp

/-- the loop of dma_packet_from_guest with `fuel` turns left: it gathers the buffers of valid descriptors, clears
their flags, and stops at an invalid descriptor or after the frame that a LASTPACKET descriptor ends, which it
returns; `none` where the `assert` on tx_dma_buf fails -/
def txDescriptorLoop : ℕ → Nic → Option (Nic × List (List UInt8))
  | 0, s => some (s, [])
  | fuel + 1, s =>
    let s := updateCurrentTxRingDescAddr s
    let desc := loadRingDesc s.mem s.tx.current
    -- `uint16_t length = desc.length + 1`
    let length := (desc.length + 1) % 2 ^ 16
    if desc.flags &&& nvTxValid = 0 then some (s, [])
    else if txAllocBufsize < s.txBuf.length + length then none
    else
      let frame := s.txBuf ++ dmaRead s.mem desc.bufferAddr length
      let isLast := desc.flags &&& nvTxLastpacket ≠ 0
      -- `desc.flags &= ~(...)` on a `uint16_t`
      let s := { s with
        txBuf := if isLast then [] else frame
        mem := storeRingDesc s.mem s.tx.current { desc with flags := desc.flags &&& (0xFFFF ^^^ nvTxDoneMask) } }
      let s := advanceNextTxRingDescAddr s
      if isLast then some (s, [frame]) else txDescriptorLoop fuel s

/-- dma_packet_from_guest: the frames a kick hands to send_packet, at most one -/
def dmaPacketFromGuest (s : Nic) : Option (Nic × List (List UInt8)) :=
  if canTransmit s = false then some (s, []) else do
  -- `for (int i = 0; i < get_tx_ring_size(s); i++)`: the loop does not change the size
  let (s, sent) ← txDescriptorLoop (getTxRingSize s) s
  pure (if sent = [] then s else { s with irqStatus := s.irqStatus ||| nvnetIrqStatusTx }, sent)

/-- dma_packet_to_guest on each frame in turn: the descriptors the frames the guest took went to -/
def receiveAll : Nic → List (List UInt8) → Option (Nic × List ℕ)
  | s, [] => some (s, [])
  | s, buf :: bufs => do
    let (s, rval) ← dmaPacketToGuest s buf
    let (s', used) ← receiveAll s bufs
    pure (s', if 0 ≤ rval then s.rx.current :: used else used)

/-- what the receive side sees: a frame from the network, or the guest writing a byte of its memory, as when it gives
a descriptor back by setting `NV_RX_AVAIL` in its flags -/
inductive RxEvent
  | frame (buf : List UInt8)
  | guestWrite (addr : ℕ) (byte : UInt8)

/-- the events in turn: the descriptors the frames the guest took went to -/
def receiveEvents : Nic → List RxEvent → Option (Nic × List ℕ)
  | s, [] => some (s, [])
  | s, .frame buf :: evs => do
    let (s, rval) ← dmaPacketToGuest s buf
    let (s', used) ← receiveEvents s evs
    pure (s', if 0 ≤ rval then s.rx.current :: used else used)
  | s, .guestWrite addr byte :: evs => receiveEvents { s with mem := Function.update s.mem addr byte } evs

/-! ## What one access does to the ring -/

@[simp]
theorem updateCurrentRingDescAddr_base (size : ℕ) (r : RingPtrs) : (updateCurrentRingDescAddr size r).base = r.base :=
  rfl

@[simp]
theorem updateCurrentRingDescAddr_next (size : ℕ) (r : RingPtrs) : (updateCurrentRingDescAddr size r).next = r.next :=
  rfl

@[simp]
theorem advanceNextRingDescAddr_base (size : ℕ) (r : RingPtrs) : (advanceNextRingDescAddr size r).base = r.base :=
  rfl

@[simp]
theorem advanceNextRingDescAddr_current (size : ℕ) (r : RingPtrs) :
    (advanceNextRingDescAddr size r).current = r.current :=
  rfl

/-- a second update changes nothing: it reads the same NEXT -/
@[simp]
theorem updateCurrentRingDescAddr_idem (size : ℕ) (r : RingPtrs) :
    updateCurrentRingDescAddr size (updateCurrentRingDescAddr size r) = updateCurrentRingDescAddr size r :=
  rfl

/-- a ring of `n` descriptors at `r.base`, below 4 GiB, whose NEXT pointer is its `k`-th descriptor or lies outside
the ring, where update_current takes the base (`k = 0`) -/
structure RingAt (r : RingPtrs) (n k : ℕ) : Prop where
  slot : k < n
  fits : r.base + n * ringDescSize < 2 ^ 32
  next : r.next = r.base + k * ringDescSize ∨
    (k = 0 ∧ (r.next < r.base ∨ r.base + n * ringDescSize < r.next + ringDescSize))

theorem RingAt.maxDescAddr_eq {r : RingPtrs} {n k : ℕ} (h : RingAt r n k) :
    maxDescAddr n r = r.base + n * ringDescSize :=
  Nat.mod_eq_of_lt h.fits

/-- the access uses descriptor `k` -/
theorem RingAt.updateCurrent {r : RingPtrs} {n k : ℕ} (h : RingAt r n k) :
    (updateCurrentRingDescAddr n r).current = r.base + k * ringDescSize := by
  have hslot := h.slot
  unfold updateCurrentRingDescAddr
  rw [h.maxDescAddr_eq]
  rcases h.next with hnext | ⟨rfl, hout⟩
  · -- an aligned NEXT inside the ring is taken as it is
    have hin : ¬(r.next < r.base ∨ r.base + n * ringDescSize < r.next + ringDescSize) := by
      rw [hnext]
      unfold ringDescSize
      omega
    rw [if_neg hin, hnext]
  · rw [if_pos hout, Nat.zero_mul, Nat.add_zero]

theorem RingAt.of_updateCurrent {r : RingPtrs} {n k : ℕ} (h : RingAt r n k) :
    RingAt (updateCurrentRingDescAddr n r) n k :=
  ⟨h.slot, h.fits, h.next⟩

/-- after the access NEXT points at descriptor `(k + 1) % n` -/
theorem RingAt.advanceNext {r : RingPtrs} {n k : ℕ} (h : RingAt r n k) :
    RingAt (advanceNextRingDescAddr n (updateCurrentRingDescAddr n r)) n ((k + 1) % n) := by
  have hslot := h.slot
  have hfits := h.fits
  have hcur := h.updateCurrent
  refine ⟨Nat.mod_lt _ (by omega), hfits, Or.inl ?_⟩
  simp only [advanceNextRingDescAddr, updateCurrentRingDescAddr_base, maxDescAddr, Nat.mod_eq_of_lt hfits, hcur]
  unfold ringDescSize at hfits ⊢
  rw [Nat.mod_eq_of_lt (show r.base + k * 8 + 8 < 2 ^ 32 by omega)]
  split_ifs with hwrap
  · -- past the last descriptor NEXT goes back to the base
    rw [show k + 1 = n by omega, Nat.mod_self]
    omega
  · rw [Nat.mod_eq_of_lt (show k + 1 < n by omega)]
    omega

/-! ## Received frames go round the ring -/

/-- what dma_packet_to_guest can do to the receive ring: refuse the frame, with CURRENT updated, or take it, with
CURRENT updated and NEXT advanced -/
theorem dmaPacketToGuest_rx {s s' : Nic} {buf : List UInt8} {rval : ℤ} (h : dmaPacketToGuest s buf = some (s', rval)) :
    s'.ringSize = s.ringSize ∧
      (rval = -1 ∧ s'.rx = updateCurrentRingDescAddr (getRxRingSize s) s.rx ∨
        rval = buf.length ∧
          s'.rx = advanceNextRingDescAddr (getRxRingSize s) (updateCurrentRingDescAddr (getRxRingSize s) s.rx)) := by
  unfold dmaPacketToGuest nvnetCanReceive rxBufAvailable at h
  simp only at h
  split_ifs at h with hcan hfree hfit
  · cases h
    exact ⟨rfl, Or.inl ⟨rfl, rfl⟩⟩
  · cases h
    exact ⟨rfl, Or.inl ⟨rfl, rfl⟩⟩
  · cases h
    exact ⟨rfl, Or.inr ⟨rfl, rfl⟩⟩

/-- the receive ring's size does not change as frames arrive -/
theorem getRxRingSize_of_dmaPacketToGuest {s s' : Nic} {buf : List UInt8} {rval : ℤ}
    (h : dmaPacketToGuest s buf = some (s', rval)) : getRxRingSize s' = getRxRingSize s := by
  unfold getRxRingSize
  rw [(dmaPacketToGuest_rx h).1]

/-- the receive ring's base does not change as frames arrive -/
theorem rxBase_of_dmaPacketToGuest {s s' : Nic} {buf : List UInt8} {rval : ℤ}
    (h : dmaPacketToGuest s buf = some (s', rval)) : s'.rx.base = s.rx.base := by
  rcases (dmaPacketToGuest_rx h).2 with ⟨-, hrx⟩ | ⟨-, hrx⟩ <;> rw [hrx] <;> rfl

/-- one frame: a taken frame lands in descriptor `k` and moves NEXT on, a refused one leaves NEXT where it was -/
theorem RingAt.dmaPacketToGuest {s s' : Nic} {buf : List UInt8} {rval : ℤ} {k : ℕ}
    (hring : RingAt s.rx (getRxRingSize s) k) (h : dmaPacketToGuest s buf = some (s', rval)) :
    (0 ≤ rval → s'.rx.current = s.rx.base + k * ringDescSize ∧
      RingAt s'.rx (getRxRingSize s) ((k + 1) % getRxRingSize s)) ∧
    (rval < 0 → RingAt s'.rx (getRxRingSize s) k) := by
  rcases (dmaPacketToGuest_rx h).2 with ⟨rfl, hrx⟩ | ⟨rfl, hrx⟩
  · refine ⟨fun hnonneg => absurd hnonneg (by decide), fun _ => ?_⟩
    rw [hrx]
    exact hring.of_updateCurrent
  · refine ⟨fun _ => ⟨?_, ?_⟩, fun hneg => absurd hneg (by omega)⟩
    · rw [hrx, advanceNextRingDescAddr_current]
      exact hring.updateCurrent
    · rw [hrx]
      exact hring.advanceNext

/-- receiving frames with no guest write between them -/
theorem receiveAll_eq_receiveEvents (s : Nic) (bufs : List (List UInt8)) :
    receiveAll s bufs = receiveEvents s (bufs.map .frame) := by
  induction bufs generalizing s with
  | nil => rfl
  | cons buf bufs ih => simp only [receiveAll, receiveEvents, List.map_cons, ih]

theorem receiveEvents_nil_eq_some {s s' : Nic} {used : List ℕ} (h : receiveEvents s [] = some (s', used)) :
    used = [] := by
  simp only [receiveEvents, Option.some.injEq, Prod.mk.injEq] at h
  exact h.2.symm

/-- a run of receptions: the first frame, then the others from the state it leaves -/
theorem receiveEvents_frame_eq_some {s s' : Nic} {buf : List UInt8} {evs : List RxEvent} {used : List ℕ}
    (h : receiveEvents s (.frame buf :: evs) = some (s', used)) :
    ∃ s₁ rval rest, dmaPacketToGuest s buf = some (s₁, rval) ∧ receiveEvents s₁ evs = some (s', rest) ∧
      used = if 0 ≤ rval then s₁.rx.current :: rest else rest := by
  simp only [receiveEvents, Option.bind_eq_bind, Option.bind_eq_some_iff, Option.pure_def, Option.some.injEq] at h
  obtain ⟨⟨s₁, rval⟩, h₁, ⟨s₂, rest⟩, hrest, hused⟩ := h
  obtain ⟨rfl, rfl⟩ := Prod.mk.inj hused
  exact ⟨s₁, rval, rest, h₁, hrest, rfl⟩

/-- the frames the guest takes land in descriptors `k`, `k + 1`, ... of the ring, modulo its size, whatever frames are
refused and whatever the guest writes in between: each descriptor is used again only after the others -/
theorem receiveEvents_cyclic {s s' : Nic} {evs : List RxEvent} {used : List ℕ} {k : ℕ}
    (hring : RingAt s.rx (getRxRingSize s) k) (h : receiveEvents s evs = some (s', used)) :
    used = (List.range used.length).map fun j => s.rx.base + (k + j) % getRxRingSize s * ringDescSize := by
  induction evs generalizing s k used with
  | nil =>
    rw [receiveEvents_nil_eq_some h]
    rfl
  | cons ev evs ih =>
    cases ev with
    | guestWrite addr byte =>
      -- a write to guest memory leaves the ring registers and the size field
      rw [receiveEvents] at h
      exact ih (s := { s with mem := Function.update s.mem addr byte }) hring h
    | frame buf =>
      obtain ⟨s₁, rval, rest, h₁, hrest, rfl⟩ := receiveEvents_frame_eq_some h
      have hsize := getRxRingSize_of_dmaPacketToGuest h₁
      have hbase := rxBase_of_dmaPacketToGuest h₁
      have hstep := hring.dmaPacketToGuest h₁
      by_cases hnonneg : 0 ≤ rval
      · -- a taken frame: descriptor `k`, and the rest from `(k + 1) % n`
        obtain ⟨hcur, hnext⟩ := hstep.1 hnonneg
        rw [← hsize] at hnext
        have htail := ih hnext hrest
        rw [hsize, hbase] at htail
        rw [if_pos hnonneg, List.length_cons, List.range_succ_eq_map, List.map_cons, List.map_map, Nat.add_zero,
          Nat.mod_eq_of_lt hring.slot, hcur]
        congr 1
        refine htail.trans (List.map_congr_left fun j _ => ?_)
        rw [Function.comp_apply, Nat.mod_add_mod, Nat.succ_eq_add_one, Nat.add_assoc, Nat.add_comm 1 j]
      · -- a refused frame: the rest from `k`
        have hkeep := hstep.2 (by omega)
        rw [← hsize] at hkeep
        have htail := ih hkeep hrest
        rw [hsize, hbase] at htail
        rw [if_neg hnonneg]
        exact htail

/-- three receive descriptors at 0x1000, each free, with a buffer of 1536 bytes at 0x2000 -/
def threeSlotMem (a : ℕ) : UInt8 :=
  if 0x1000 ≤ a ∧ a < 0x1018 then [0x00, 0x20, 0x00, 0x00, 0xFF, 0x05, 0x00, 0x80].getD ((a - 0x1000) % 8) 0 else 0

/-- a NIC receiving into a ring of three descriptors whose NEXT pointer is the last one -/
def threeSlotNic : Nic where
  ringSize := 0x00020000
  rx := ⟨0x1000, 0x1000, 0x1010⟩
  tx := ⟨0x3000, 0x3000, 0x3000⟩
  rxEnabled := true
  txEnabled := true
  dmaEnabled := true
  linkUp := true
  irqStatus := 0
  mem := threeSlotMem
  txBuf := []

/-- four frames arriving at `threeSlotNic`, the guest giving descriptor 2 back before the fourth, go to its
descriptors 2, 0, 1 and 2 -/
theorem threeSlotNic_rearmed :
    (receiveEvents threeSlotNic [.frame [1], .frame [2], .frame [3], .guestWrite 0x1017 0x80, .frame [4]]).map
        Prod.snd = some [0x1010, 0x1000, 0x1008, 0x1010] ∧
      ∃ s' used, receiveEvents threeSlotNic
          [.frame [1], .frame [2], .frame [3], .guestWrite 0x1017 0x80, .frame [4]] = some (s', used) ∧
        used = (List.range used.length).map fun j =>
          threeSlotNic.rx.base + (2 + j) % getRxRingSize threeSlotNic * ringDescSize := by
  obtain ⟨⟨s', used⟩, h⟩ := Option.isSome_iff_exists.1 (show (receiveEvents threeSlotNic
    [.frame [1], .frame [2], .frame [3], .guestWrite 0x1017 0x80, .frame [4]]).isSome = true by decide)
  exact ⟨by decide, s', used, h, receiveEvents_cyclic ⟨by decide, by decide, Or.inl (by decide)⟩ h⟩

/-- without the guest's write the fourth frame finds descriptor 2 still held and is refused -/
example : (receiveEvents threeSlotNic [.frame [1], .frame [2], .frame [3], .frame [4]]).map Prod.snd =
    some [0x1010, 0x1000, 0x1008] := by
  decide

/-! ## A size field of 0xFFFF -/

/-- with a size of 0 every access takes the base: NEXT lies past `max_desc_addr`, or before the base -/
theorem updateCurrentRingDescAddr_zero (r : RingPtrs) : (updateCurrentRingDescAddr 0 r).current = r.base := by
  have hmax : maxDescAddr 0 r ≤ r.base := by
    rw [maxDescAddr, Nat.zero_mul, Nat.add_zero]
    exact Nat.mod_le _ _
  have hout : r.next < r.base ∨ maxDescAddr 0 r < r.next + ringDescSize := by
    unfold ringDescSize
    omega
  rw [updateCurrentRingDescAddr, if_pos hout]

/-- with a receive ring of size 0 every frame the guest takes lands in the first descriptor, whatever the guest
writes -/
theorem receiveEvents_of_size_zero {s s' : Nic} {evs : List RxEvent} {used : List ℕ}
    (hsize : getRxRingSize s = 0) (h : receiveEvents s evs = some (s', used)) :
    used = List.replicate used.length s.rx.base := by
  induction evs generalizing s used with
  | nil =>
    rw [receiveEvents_nil_eq_some h]
    rfl
  | cons ev evs ih =>
    cases ev with
    | guestWrite addr byte =>
      rw [receiveEvents] at h
      exact ih (s := { s with mem := Function.update s.mem addr byte }) hsize h
    | frame buf =>
      obtain ⟨s₁, rval, rest, h₁, hrest, rfl⟩ := receiveEvents_frame_eq_some h
      have hsize₁ : getRxRingSize s₁ = 0 := by rw [getRxRingSize_of_dmaPacketToGuest h₁, hsize]
      -- both outcomes run update_current, which takes the base
      have hcur : s₁.rx.current = s.rx.base := by
        rcases (dmaPacketToGuest_rx h₁).2 with ⟨-, hrx⟩ | ⟨-, hrx⟩ <;> rw [hrx, hsize] <;>
          exact updateCurrentRingDescAddr_zero _
      have htail := ih hsize₁ hrest
      rw [rxBase_of_dmaPacketToGuest h₁] at htail
      split_ifs
      · rw [List.length_cons, List.replicate_succ, hcur, ← htail]
      · exact htail

/-- with a transmit ring of size 0 a kick transmits nothing and changes nothing -/
theorem dmaPacketFromGuest_of_size_zero {s : Nic} (hsize : getTxRingSize s = 0) : dmaPacketFromGuest s = some (s, []) := by
  unfold dmaPacketFromGuest
  split_ifs
  · rfl
  · rw [hsize]
    rfl

/-- a size field of `0xFFFF`, a ring of 65536 descriptors, makes the `uint16_t` ring size 0: every frame the guest
takes lands in the ring's first descriptor, and a kick of the transmit ring hands nothing to send_packet -/
theorem ring_size_field_max_wraps :
    (∀ (s : Nic) (bufs : List (List UInt8)) (s' : Nic) (used : List ℕ),
      (s.ringSize &&& 0xFFFF0000) >>> 16 = 0xFFFF → receiveAll s bufs = some (s', used) →
        used = List.replicate used.length s.rx.base) ∧
    (∀ s : Nic, s.ringSize &&& 0x0000FFFF = 0xFFFF → dmaPacketFromGuest s = some (s, [])) := by
  refine ⟨fun s bufs s' used hfield h => receiveEvents_of_size_zero ?_ ((receiveAll_eq_receiveEvents s bufs) ▸ h),
    fun s hfield => ?_⟩
  · rw [getRxRingSize, ringSizeOfField, hfield]
    rfl
  · apply dmaPacketFromGuest_of_size_zero
    rw [getTxRingSize, ringSizeOfField, Nat.shiftRight_zero, hfield]
    rfl

/-- the ring of `threeSlotNic` with both size fields at `0xFFFF` -/
def maxRingNic : Nic := { threeSlotNic with ringSize := 0xFFFFFFFF }

/-- a kick of its transmit ring hands nothing to send_packet and leaves the NIC as it was -/
theorem max_ring_kick_sends_nothing : dmaPacketFromGuest maxRingNic = some (maxRingNic, []) :=
  ring_size_field_max_wraps.2 maxRingNic (by decide)

end Xemu.Nvnet
