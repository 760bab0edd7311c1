import Mathlib
import Xemu.Nvnet.Ring
/-!
# Transmission: fragments gathered into frames

dma_packet_from_guest on a transmit ring laid out as a driver lays it out: `n` descriptors below 4 GiB, with their
buffers outside the ring. The loop reads the descriptor CURRENT points at, appends its buffer to tx_dma_buf, writes
it back with VALID and the error flags cleared and moves NEXT on; a descriptor flagged LASTPACKET ends the frame,
which goes to send_packet, and an invalid one ends the kick with the fragments kept in tx_dma_buf.

* `loadRingDesc_storeRingDesc_self`: a descriptor written back reads back, its fields being `uint32_t` and
  `uint16_t` values; `loadRingDesc_storeRingDesc_of_apart`: a write to another descriptor leaves it as it was.
* `txDescriptorLoop_valid`: one turn of the loop on a valid descriptor.
* `txDescriptorLoop_gather`: valid descriptors without LASTPACKET at slots `k`, `k + 1`, ... append their buffers in
  ring order and are each written back once, with VALID cleared (`Gathered`).
* `dmaPacketFromGuest_frame`: a kick hands send_packet tx_dma_buf followed by the buffers of the descriptors up to
  and including the LASTPACKET one; `dmaPacketFromGuest_partial`: a kick that meets an invalid descriptor hands on
  nothing and keeps the fragments for the next kick.
-/

namespace Xemu.Nvnet

/-! ## Descriptors in guest memory -/

@[simp]
theorem length_leBytes (n x : ℕ) : (leBytes n x).length = n := by
  induction n generalizing x with
  | zero => rfl
  | succ n ih => simp [leBytes, ih]

/-- little-endian bytes read back as the number, reduced to the width they hold -/
theorem leValue_leBytes (n x : ℕ) : leValue (leBytes n x) = x % 256 ^ n := by
  induction n generalizing x with
  | zero => simp [leBytes, leValue, Nat.mod_one]
  | succ n ih =>
    have hbyte : (UInt8.ofNat x).toNat = x % 256 := by simp
    rw [leBytes, leValue, ih, hbyte, Nat.pow_succ, Nat.mul_comm (256 ^ n) 256, Nat.mod_mul]

theorem leValue_lt (l : List UInt8) : leValue l < 256 ^ l.length := by
  induction l with
  | nil => simp [leValue]
  | cons b l ih =>
    have hb : b.toNat < 256 := b.toNat_lt
    rw [leValue, List.length_cons, Nat.pow_succ]
    omega

@[simp]
theorem length_dmaRead (mem : ℕ → UInt8) (addr n : ℕ) : (dmaRead mem addr n).length = n := by
  simp [dmaRead]

theorem dmaWrite_of_lt {mem : ℕ → UInt8} {addr : ℕ} {bytes : List UInt8} {j : ℕ} (hj : j < bytes.length) :
    dmaWrite mem addr bytes (addr + j) = bytes.getD j 0 := by
  rw [dmaWrite, ByteCopy.memcpy_of_covers (by omega) (by omega), Nat.zero_add, Nat.add_sub_cancel_left]

theorem dmaWrite_of_apart {mem : ℕ → UInt8} {addr : ℕ} {bytes : List UInt8} {a : ℕ}
    (h : a < addr ∨ addr + bytes.length ≤ a) : dmaWrite mem addr bytes a = mem a :=
  ByteCopy.memcpy_of_not_covers (by omega)

theorem dmaRead_dmaWrite_self (mem : ℕ → UInt8) (addr : ℕ) (bytes : List UInt8) :
    dmaRead (dmaWrite mem addr bytes) addr bytes.length = bytes := by
  apply List.ext_getElem (length_dmaRead _ _ _)
  intro j hj _
  rw [length_dmaRead] at hj
  simp only [dmaRead, List.getElem_map, List.getElem_range]
  rw [dmaWrite_of_lt hj, List.getD_eq_getElem _ _ hj]

/-- a read of bytes that a write does not touch -/
theorem dmaRead_dmaWrite_of_apart {mem : ℕ → UInt8} {addr : ℕ} {bytes : List UInt8} {a n : ℕ}
    (h : addr + bytes.length ≤ a ∨ a + n ≤ addr) : dmaRead (dmaWrite mem addr bytes) a n = dmaRead mem a n := by
  unfold dmaRead
  apply List.map_congr_left
  intro j hj
  rw [List.mem_range] at hj
  exact dmaWrite_of_apart (by omega)

/-- reads of memory that agrees on the bytes read -/
theorem dmaRead_congr {mem mem' : ℕ → UInt8} {a n : ℕ} (h : ∀ j < n, mem (a + j) = mem' (a + j)) :
    dmaRead mem a n = dmaRead mem' a n := by
  unfold dmaRead
  apply List.map_congr_left
  intro j hj
  exact h j (List.mem_range.1 hj)

@[simp]
theorem length_descBytes (d : RingDesc) :
    (leBytes 4 d.bufferAddr ++ leBytes 2 d.length ++ leBytes 2 d.flags).length = ringDescSize := by
  simp [ringDescSize]

/-- a descriptor written back reads back -/
theorem loadRingDesc_storeRingDesc_self (mem : ℕ → UInt8) (addr : ℕ) {d : RingDesc} (ha : d.bufferAddr < 2 ^ 32)
    (hl : d.length < 2 ^ 16) (hf : d.flags < 2 ^ 16) : loadRingDesc (storeRingDesc mem addr d) addr = d := by
  have hraw : dmaRead (storeRingDesc mem addr d) addr ringDescSize =
      leBytes 4 d.bufferAddr ++ (leBytes 2 d.length ++ leBytes 2 d.flags) := by
    rw [← length_descBytes d, storeRingDesc, dmaRead_dmaWrite_self, List.append_assoc]
  have hfront : (leBytes 4 d.bufferAddr ++ leBytes 2 d.length).length = 6 := by simp
  have ha' : d.bufferAddr < 256 ^ 4 := lt_of_lt_of_eq ha (by norm_num)
  have hl' : d.length < 256 ^ 2 := lt_of_lt_of_eq hl (by norm_num)
  have hf' : d.flags < 256 ^ 2 := lt_of_lt_of_eq hf (by norm_num)
  simp only [loadRingDesc, hraw]
  rw [List.take_left' (length_leBytes 4 _), List.drop_left' (length_leBytes 4 _),
    List.take_left' (length_leBytes 2 _), ← List.append_assoc, List.drop_left' hfront,
    leValue_leBytes, leValue_leBytes, leValue_leBytes, Nat.mod_eq_of_lt ha', Nat.mod_eq_of_lt hl',
    Nat.mod_eq_of_lt hf']

/-- a write to another descriptor, or to bytes outside the descriptor, leaves it as it was -/
theorem loadRingDesc_storeRingDesc_of_apart {mem : ℕ → UInt8} {addr a : ℕ} {d : RingDesc}
    (h : addr + ringDescSize ≤ a ∨ a + ringDescSize ≤ addr) :
    loadRingDesc (storeRingDesc mem addr d) a = loadRingDesc mem a := by
  unfold loadRingDesc storeRingDesc
  rw [dmaRead_dmaWrite_of_apart (by rw [length_descBytes]; exact h)]

/-- the fields of a loaded descriptor are `uint32_t` and `uint16_t` values -/
theorem loadRingDesc_bounds (mem : ℕ → UInt8) (addr : ℕ) :
    (loadRingDesc mem addr).bufferAddr < 2 ^ 32 ∧ (loadRingDesc mem addr).length < 2 ^ 16 ∧
      (loadRingDesc mem addr).flags < 2 ^ 16 := by
  have h₁ := leValue_lt ((dmaRead mem addr ringDescSize).take 4)
  have h₂ := leValue_lt (((dmaRead mem addr ringDescSize).drop 4).take 2)
  have h₃ := leValue_lt ((dmaRead mem addr ringDescSize).drop 6)
  simp only [List.length_take, List.length_drop, length_dmaRead, ringDescSize] at h₁ h₂ h₃
  exact ⟨h₁, h₂, h₃⟩

/-! ## Slots of the ring -/

/-- the address of descriptor `i % n` of the ring -/
def slotAddr (r : RingPtrs) (n i : ℕ) : ℕ := r.base + i % n * ringDescSize

/-- the bytes a descriptor's buffer holds: `uint16_t length = desc.length + 1` -/
def fragmentLength (d : RingDesc) : ℕ := (d.length + 1) % 2 ^ 16

/-- the descriptor as dma_packet_from_guest writes it back -/
def txDone (d : RingDesc) : RingDesc := { d with flags := d.flags &&& (0xFFFF ^^^ nvTxDoneMask) }

/-- a buffer that lies before or after the `n` descriptors of the ring -/
def OutsideRing (r : RingPtrs) (n : ℕ) (d : RingDesc) : Prop :=
  d.bufferAddr + fragmentLength d ≤ r.base ∨ r.base + n * ringDescSize ≤ d.bufferAddr

theorem slotAddr_add_mod (r : RingPtrs) (n a i : ℕ) : slotAddr r n (a % n + i) = slotAddr r n (a + i) := by
  rw [slotAddr, slotAddr, Nat.mod_add_mod]

theorem RingAt.slotAddr_eq {r : RingPtrs} {n k : ℕ} (h : RingAt r n k) : slotAddr r n k = r.base + k * ringDescSize := by
  rw [slotAddr, Nat.mod_eq_of_lt h.slot]

theorem RingAt.pos {r : RingPtrs} {n k : ℕ} (h : RingAt r n k) : 0 < n :=
  lt_of_le_of_lt (Nat.zero_le k) h.slot

/-- two offsets less than `n` from the same slot are different slots -/
theorem mod_ne_of_ne {n k i j : ℕ} (hi : i < n) (hj : j < n) (hne : i ≠ j) : (k + i) % n ≠ (k + j) % n := by
  intro heq
  have hmod : i % n = j % n := Nat.ModEq.add_left_cancel' k heq
  rw [Nat.mod_eq_of_lt hi, Nat.mod_eq_of_lt hj] at hmod
  exact hne hmod

/-- different slots do not overlap -/
theorem slotAddr_apart {r : RingPtrs} {n i j : ℕ} (hne : i % n ≠ j % n) :
    slotAddr r n i + ringDescSize ≤ slotAddr r n j ∨ slotAddr r n j + ringDescSize ≤ slotAddr r n i := by
  unfold slotAddr ringDescSize
  generalize i % n = p at hne ⊢
  generalize j % n = q at hne ⊢
  omega

/-- a slot lies inside the ring -/
theorem slotAddr_mem {r : RingPtrs} {n : ℕ} (hn : 0 < n) (i : ℕ) :
    r.base ≤ slotAddr r n i ∧ slotAddr r n i + ringDescSize ≤ r.base + n * ringDescSize := by
  have hlt := Nat.mod_lt i hn
  unfold slotAddr ringDescSize
  generalize i % n = p at hlt ⊢
  omega

/-! ## One turn of the loop -/

/-- CURRENT, updated at the top of the loop, is the slot NEXT points at -/
theorem RingAt.updateCurrentTx {s : Nic} {k : ℕ} (hring : RingAt s.tx (getTxRingSize s) k) :
    (updateCurrentTxRingDescAddr s).tx.current = slotAddr s.tx (getTxRingSize s) k := by
  rw [hring.slotAddr_eq]
  exact hring.updateCurrent

/-- one turn of the transmit loop on a valid descriptor whose buffer fits in tx_dma_buf: the descriptor is written
back done and NEXT moves on; a LASTPACKET descriptor ends the loop with the frame, any other adds its buffer to
tx_dma_buf -/
theorem txDescriptorLoop_valid {s : Nic} {n k : ℕ} (fuel : ℕ) (hn : getTxRingSize s = n)
    (hring : RingAt s.tx n k) {d : RingDesc} (hd : loadRingDesc s.mem (slotAddr s.tx n k) = d)
    (hvalid : d.flags &&& nvTxValid ≠ 0) (hfit : s.txBuf.length + fragmentLength d ≤ txAllocBufsize) :
    ∃ s₁ : Nic, s₁.ringSize = s.ringSize ∧
      s₁.tx = advanceNextRingDescAddr n (updateCurrentRingDescAddr n s.tx) ∧
      s₁.mem = storeRingDesc s.mem (slotAddr s.tx n k) (txDone d) ∧
      s₁.irqStatus = s.irqStatus ∧ canTransmit s₁ = canTransmit s ∧
      (d.flags &&& nvTxLastpacket ≠ 0 → s₁.txBuf = [] ∧
        txDescriptorLoop (fuel + 1) s = some (s₁, [s.txBuf ++ dmaRead s.mem d.bufferAddr (fragmentLength d)])) ∧
      (d.flags &&& nvTxLastpacket = 0 → s₁.txBuf = s.txBuf ++ dmaRead s.mem d.bufferAddr (fragmentLength d) ∧
        txDescriptorLoop (fuel + 1) s = txDescriptorLoop fuel s₁) := by
  subst hn
  have hcur := hring.updateCurrentTx
  have hdesc : loadRingDesc (updateCurrentTxRingDescAddr s).mem (slotAddr s.tx (getTxRingSize s) k) = d := hd
  have hnotfull : ¬txAllocBufsize < (updateCurrentTxRingDescAddr s).txBuf.length + (d.length + 1) % 2 ^ 16 :=
    Nat.not_lt.2 hfit
  refine ⟨advanceNextTxRingDescAddr
    { updateCurrentTxRingDescAddr s with
      txBuf := if d.flags &&& nvTxLastpacket ≠ 0 then [] else
        s.txBuf ++ dmaRead s.mem d.bufferAddr (fragmentLength d)
      mem := storeRingDesc s.mem (slotAddr s.tx (getTxRingSize s) k) (txDone d) },
    rfl, rfl, rfl, rfl, rfl, fun hlast => ⟨if_pos hlast, ?_⟩, fun hmore => ⟨if_neg (not_not.2 hmore), ?_⟩⟩
  · -- the frame is complete: the loop stops with it
    rw [txDescriptorLoop]
    simp only [hcur, hdesc, if_neg hvalid, hnotfull, if_false, if_pos hlast]
    rfl
  · -- a middle fragment: the loop goes on
    have hcont : ¬(d.flags &&& nvTxLastpacket ≠ 0) := not_not.2 hmore
    rw [txDescriptorLoop]
    simp only [hcur, hdesc, if_neg hvalid, hnotfull, if_false, if_neg hcont]
    rfl

/-- an invalid descriptor ends the kick: only CURRENT has moved -/
theorem txDescriptorLoop_invalid {s : Nic} {n k : ℕ} (fuel : ℕ) (hn : getTxRingSize s = n)
    (hring : RingAt s.tx n k) {d : RingDesc} (hd : loadRingDesc s.mem (slotAddr s.tx n k) = d)
    (hinvalid : d.flags &&& nvTxValid = 0) : txDescriptorLoop (fuel + 1) s = some (updateCurrentTxRingDescAddr s, []) := by
  subst hn
  have hcur := hring.updateCurrentTx
  have hdesc : loadRingDesc (updateCurrentTxRingDescAddr s).mem (slotAddr s.tx (getTxRingSize s) k) = d := hd
  rw [txDescriptorLoop]
  simp only [hcur, hdesc, if_pos hinvalid]

/-! ## Descriptors taken in ring order -/

/-- the ring and memory after the loop took the descriptors `frags` at slots `k`, `k + 1`, ... of a ring of `n`:
NEXT is past them, each of them is written back done, and the other slots and the memory outside the ring are as
they were -/
structure Gathered (s s' : Nic) (n k : ℕ) (frags : List RingDesc) : Prop where
  ringSize : s'.ringSize = s.ringSize
  base : s'.tx.base = s.tx.base
  ring : RingAt s'.tx n ((k + frags.length) % n)
  outside : ∀ a, a < s.tx.base ∨ s.tx.base + n * ringDescSize ≤ a → s'.mem a = s.mem a
  pending : ∀ i, frags.length ≤ i → i < n →
    loadRingDesc s'.mem (slotAddr s.tx n (k + i)) = loadRingDesc s.mem (slotAddr s.tx n (k + i))
  done : ∀ i (hi : i < frags.length), loadRingDesc s'.mem (slotAddr s.tx n (k + i)) = txDone frags[i]

/-- the slots after `a` of them, counted from the slot they lead to -/
theorem slotAddr_shift {r r' : RingPtrs} {n k a i : ℕ} (hbase : r'.base = r.base) (hai : a ≤ i) :
    slotAddr r' n ((k + a) % n + (i - a)) = slotAddr r n (k + i) := by
  rw [slotAddr_add_mod, show k + a + (i - a) = k + i by omega]
  unfold slotAddr
  rw [hbase]

theorem slotAddr_add_self (r : RingPtrs) (n j : ℕ) : slotAddr r n (j + n) = slotAddr r n j := by
  unfold slotAddr
  rw [Nat.add_mod_right]

theorem Gathered.nil {s : Nic} {n k : ℕ} (hring : RingAt s.tx n k) : Gathered s s n k [] where
  ringSize := rfl
  base := rfl
  ring := by
    rw [List.length_nil, Nat.add_zero, Nat.mod_eq_of_lt hring.slot]
    exact hring
  outside := fun _ _ => rfl
  pending := fun _ _ _ => rfl
  done := fun i hi => absurd hi (Nat.not_lt_zero i)

/-- one descriptor taken: the state `txDescriptorLoop_valid` leaves -/
theorem Gathered.single {s s₁ : Nic} {n k : ℕ} {d : RingDesc} (hring : RingAt s.tx n k)
    (hsize : s₁.ringSize = s.ringSize) (htx : s₁.tx = advanceNextRingDescAddr n (updateCurrentRingDescAddr n s.tx))
    (hmem : s₁.mem = storeRingDesc s.mem (slotAddr s.tx n k) (txDone d))
    (hd : loadRingDesc s.mem (slotAddr s.tx n k) = d) : Gathered s s₁ n k [d] where
  ringSize := hsize
  base := by rw [htx]; rfl
  ring := by
    rw [htx]
    exact hring.advanceNext
  outside := by
    intro a ha
    have hslot := slotAddr_mem (r := s.tx) hring.pos k
    rw [hmem, storeRingDesc]
    exact dmaWrite_of_apart (by rw [length_descBytes]; omega)
  pending := by
    intro i hi hin
    have hne : (k + i) % n ≠ k % n := by
      have h := mod_ne_of_ne (k := k) hin hring.pos (by
        rw [List.length_singleton] at hi
        omega)
      rwa [Nat.add_zero] at h
    rw [hmem]
    exact loadRingDesc_storeRingDesc_of_apart (slotAddr_apart hne.symm)
  done := by
    intro i hi
    have hi0 : i = 0 := by
      rw [List.length_singleton] at hi
      omega
    subst hi0
    obtain ⟨ha, hl, hf⟩ := loadRingDesc_bounds s.mem (slotAddr s.tx n k)
    rw [hd] at ha hl hf
    have hflags : (txDone d).flags < 2 ^ 16 := lt_of_le_of_lt Nat.and_le_left hf
    rw [hmem, Nat.add_zero]
    exact loadRingDesc_storeRingDesc_self _ _ ha hl hflags

/-- descriptors taken in two runs of the loop, the second from where the first stopped -/
theorem Gathered.trans {s s₁ s₂ : Nic} {n k : ℕ} {l₁ l₂ : List RingDesc} (h₁ : Gathered s s₁ n k l₁)
    (h₂ : Gathered s₁ s₂ n ((k + l₁.length) % n) l₂) (hlen : l₁.length + l₂.length ≤ n) :
    Gathered s s₂ n k (l₁ ++ l₂) where
  ringSize := h₂.ringSize.trans h₁.ringSize
  base := h₂.base.trans h₁.base
  ring := by
    have hring := h₂.ring
    rwa [Nat.mod_add_mod, Nat.add_assoc, ← List.length_append] at hring
  outside := by
    intro a ha
    rw [← h₁.base] at ha
    rw [h₂.outside a ha, h₁.outside a (by rwa [h₁.base] at ha)]
  pending := by
    intro i hi hin
    rw [List.length_append] at hi
    have hslot : slotAddr s₁.tx n ((k + l₁.length) % n + (i - l₁.length)) = slotAddr s.tx n (k + i) :=
      slotAddr_shift h₁.base (by omega)
    rw [← hslot, h₂.pending (i - l₁.length) (by omega) (by omega), hslot]
    exact h₁.pending i (by omega) hin
  done := by
    intro i hi
    by_cases hfirst : i < l₁.length
    · -- taken in the first run: the second run passes the slot by, `n` slots round the ring
      have hslot : slotAddr s₁.tx n ((k + l₁.length) % n + (n - l₁.length + i)) = slotAddr s.tx n (k + i) := by
        have hwrap : k + l₁.length + (n - l₁.length + i) = k + i + n := by omega
        rw [slotAddr_add_mod, hwrap, slotAddr_add_self]
        unfold slotAddr
        rw [h₁.base]
      rw [← hslot, h₂.pending (n - l₁.length + i) (by omega) (by omega), hslot, h₁.done i hfirst,
        List.getElem_append_left hfirst]
    · -- taken in the second run
      have hslot : slotAddr s₁.tx n ((k + l₁.length) % n + (i - l₁.length)) = slotAddr s.tx n (k + i) :=
        slotAddr_shift h₁.base (by omega)
      rw [List.length_append] at hi
      rw [← hslot, h₂.done (i - l₁.length) (by omega), List.getElem_append_right (by omega)]

/-- a buffer outside the ring reads the same after the loop took descriptors -/
theorem Gathered.dmaRead_eq {s s' : Nic} {n k : ℕ} {l : List RingDesc} (hg : Gathered s s' n k l) {d : RingDesc}
    (hout : OutsideRing s.tx n d) :
    dmaRead s'.mem d.bufferAddr (fragmentLength d) = dmaRead s.mem d.bufferAddr (fragmentLength d) := by
  apply dmaRead_congr
  intro j hj
  unfold OutsideRing at hout
  exact hg.outside _ (by omega)

/-- the descriptor after those taken, at the slot NEXT now leads to, is as it was -/
theorem Gathered.loadRingDesc_next {s s' : Nic} {n k : ℕ} {l : List RingDesc} (hg : Gathered s s' n k l)
    (hlen : l.length < n) :
    loadRingDesc s'.mem (slotAddr s'.tx n ((k + l.length) % n)) = loadRingDesc s.mem (slotAddr s.tx n (k + l.length)) := by
  have hslot := slotAddr_shift (n := n) (k := k) (i := l.length) hg.base le_rfl
  rw [Nat.sub_self, Nat.add_zero] at hslot
  rw [hslot]
  exact hg.pending l.length le_rfl hlen

@[simp]
theorem length_flatten_dmaRead (mem : ℕ → UInt8) (l : List RingDesc) :
    (l.map fun d => dmaRead mem d.bufferAddr (fragmentLength d)).flatten.length = (l.map fragmentLength).sum := by
  induction l with
  | nil => rfl
  | cons d l ih => rw [List.map_cons, List.flatten_cons, List.length_append, ih, length_dmaRead, List.map_cons,
      List.sum_cons]

theorem outsideRing_congr {r r' : RingPtrs} {n : ℕ} {d : RingDesc} (hbase : r'.base = r.base) :
    OutsideRing r' n d ↔ OutsideRing r n d := by
  unfold OutsideRing
  rw [hbase]

/-- the transmit ring size read from a NIC whose NVNET_RING_SIZE is another's -/
theorem getTxRingSize_congr {s s' : Nic} (h : s'.ringSize = s.ringSize) : getTxRingSize s' = getTxRingSize s := by
  unfold getTxRingSize
  rw [h]

/-- valid descriptors without LASTPACKET at slots `k`, `k + 1`, ... of a ring of `n`: the loop takes each of them in
turn, appending its buffer to tx_dma_buf -/
theorem txDescriptorLoop_gather {n : ℕ} : ∀ (frags : List RingDesc) {s : Nic} {k : ℕ} (fuel : ℕ),
    getTxRingSize s = n → RingAt s.tx n k → frags.length ≤ n →
    (∀ i (hi : i < frags.length), loadRingDesc s.mem (slotAddr s.tx n (k + i)) = frags[i]) →
    (∀ d ∈ frags, d.flags &&& nvTxValid ≠ 0 ∧ d.flags &&& nvTxLastpacket = 0 ∧ OutsideRing s.tx n d) →
    s.txBuf.length + (frags.map fragmentLength).sum ≤ txAllocBufsize →
    ∃ s', txDescriptorLoop (frags.length + fuel) s = txDescriptorLoop fuel s' ∧ Gathered s s' n k frags ∧
      s'.txBuf = s.txBuf ++ (frags.map fun d => dmaRead s.mem d.bufferAddr (fragmentLength d)).flatten ∧
      s'.irqStatus = s.irqStatus ∧ canTransmit s' = canTransmit s
  | [], s, _, fuel, _, hring, _, _, _, _ =>
    ⟨s, by rw [List.length_nil, Nat.zero_add], Gathered.nil hring, by simp, rfl, rfl⟩
  | d :: rest, s, k, fuel, hn, hring, hlen, hdesc, hfrags, hfit => by
    obtain ⟨hvalid, hmore, -⟩ := hfrags d List.mem_cons_self
    have hd : loadRingDesc s.mem (slotAddr s.tx n k) = d := by
      have h₀ := hdesc 0 (by simp)
      rwa [Nat.add_zero, List.getElem_cons_zero] at h₀
    have hfit₀ : s.txBuf.length + fragmentLength d ≤ txAllocBufsize := by
      simp only [List.map_cons, List.sum_cons] at hfit
      omega
    -- the first descriptor
    obtain ⟨s₁, hsize₁, htx₁, hmem₁, hirq₁, hcan₁, -, hstep⟩ :=
      txDescriptorLoop_valid (rest.length + fuel) hn hring hd hvalid hfit₀
    obtain ⟨hbuf₁, hloop₁⟩ := hstep hmore
    have hg₁ : Gathered s s₁ n k [d] := Gathered.single hring hsize₁ htx₁ hmem₁ hd
    -- the others, from the next slot, in the memory after the first write-back
    have hdesc₁ : ∀ i (hi : i < rest.length),
        loadRingDesc s₁.mem (slotAddr s₁.tx n ((k + [d].length) % n + i)) = rest[i] := by
      intro i hi
      have hslot := slotAddr_shift (n := n) (k := k) (a := [d].length) (i := i + 1) hg₁.base (by simp)
      rw [List.length_singleton, Nat.add_sub_cancel] at hslot
      rw [List.length_singleton, hslot, hg₁.pending (i + 1) (by simp) (by simp at hlen; omega)]
      have hi₁ := hdesc (i + 1) (by simp; omega)
      rwa [List.getElem_cons_succ] at hi₁
    have hfrags₁ : ∀ d' ∈ rest, d'.flags &&& nvTxValid ≠ 0 ∧ d'.flags &&& nvTxLastpacket = 0 ∧
        OutsideRing s₁.tx n d' := by
      intro d' hd'
      obtain ⟨hv, hm, hout⟩ := hfrags d' (List.mem_cons_of_mem d hd')
      exact ⟨hv, hm, (outsideRing_congr hg₁.base).2 hout⟩
    have hfit₁ : s₁.txBuf.length + (rest.map fragmentLength).sum ≤ txAllocBufsize := by
      simp only [List.map_cons, List.sum_cons] at hfit
      rw [hbuf₁, List.length_append, length_dmaRead]
      omega
    obtain ⟨s', hloop', hg', hbuf', hirq', hcan'⟩ :=
      txDescriptorLoop_gather rest fuel ((getTxRingSize_congr hsize₁).trans hn) hg₁.ring (by simp at hlen; omega)
        hdesc₁ hfrags₁ hfit₁
    refine ⟨s', ?_, hg₁.trans hg' (by simp at hlen ⊢; omega), ?_, hirq'.trans hirq₁, hcan'.trans hcan₁⟩
    · rw [List.length_cons, show rest.length + 1 + fuel = rest.length + fuel + 1 by omega, hloop₁, hloop']
    · -- the buffers of the others read the same before and after the first write-back
      have hreads : (rest.map fun d' => dmaRead s₁.mem d'.bufferAddr (fragmentLength d')) =
          rest.map fun d' => dmaRead s.mem d'.bufferAddr (fragmentLength d') := by
        apply List.map_congr_left
        intro d' hd'
        exact hg₁.dmaRead_eq (hfrags d' (List.mem_cons_of_mem d hd')).2.2
      rw [hbuf', hreads, hbuf₁, List.map_cons, List.flatten_cons, List.append_assoc]

/-! ## Kicks -/

/-- the loop's fuel split at the descriptors it takes before the last one it reads -/
theorem fuel_split {n m : ℕ} (h : m < n) : n = m + ((n - m - 1) + 1) := by omega

/-- a kick of a NIC that can transmit is a run of the loop, with the interrupt raised when a frame went out -/
theorem dmaPacketFromGuest_of_loop {s s' : Nic} {sent : List (List UInt8)} (hcan : canTransmit s = true)
    (hloop : txDescriptorLoop (getTxRingSize s) s = some (s', sent)) :
    dmaPacketFromGuest s =
      some (if sent = [] then s' else { s' with irqStatus := s'.irqStatus ||| nvnetIrqStatusTx }, sent) := by
  unfold dmaPacketFromGuest
  rw [if_neg (by rw [hcan]; decide), hloop]
  rfl

/-- the loop of a kick takes the valid `frags` from NEXT on and comes to `next`, the descriptor after them, as it
was in memory -/
theorem txDescriptorLoop_reach {s : Nic} {n k : ℕ} (frags : List RingDesc) (next : RingDesc)
    (hn : getTxRingSize s = n) (hring : RingAt s.tx n k) (hlen : frags.length < n)
    (hdesc : ∀ i (hi : i < (frags ++ [next]).length),
      loadRingDesc s.mem (slotAddr s.tx n (k + i)) = (frags ++ [next])[i])
    (hfrags : ∀ d ∈ frags, d.flags &&& nvTxValid ≠ 0 ∧ d.flags &&& nvTxLastpacket = 0 ∧ OutsideRing s.tx n d)
    (hfit : s.txBuf.length + (frags.map fragmentLength).sum ≤ txAllocBufsize) :
    ∃ s₁, txDescriptorLoop (getTxRingSize s) s = txDescriptorLoop (n - frags.length - 1 + 1) s₁ ∧
      Gathered s s₁ n k frags ∧ getTxRingSize s₁ = n ∧
      loadRingDesc s₁.mem (slotAddr s₁.tx n ((k + frags.length) % n)) = next ∧
      s₁.txBuf = s.txBuf ++ (frags.map fun d => dmaRead s.mem d.bufferAddr (fragmentLength d)).flatten ∧
      s₁.irqStatus = s.irqStatus := by
  obtain ⟨s₁, hloop₁, hg₁, hbuf₁, hirq₁, -⟩ :=
    txDescriptorLoop_gather frags (n - frags.length - 1 + 1) hn hring hlen.le
      (fun i hi => by rw [hdesc i (by simp; omega), List.getElem_append_left hi]) hfrags hfit
  have hd : loadRingDesc s₁.mem (slotAddr s₁.tx n ((k + frags.length) % n)) = next := by
    rw [hg₁.loadRingDesc_next hlen, hdesc frags.length (by simp)]
    simp
  refine ⟨s₁, ?_, hg₁, (getTxRingSize_congr hg₁.ringSize).trans hn, hd, hbuf₁, hirq₁⟩
  rw [← hloop₁, hn, ← fuel_split hlen]

/-- a kick of a ring whose descriptors from NEXT on are the valid `frags`, then `last` flagged LASTPACKET, with
their buffers outside the ring and fitting tx_dma_buf: send_packet gets what tx_dma_buf held followed by their buffers
in ring order, each descriptor is written back done once, tx_dma_buf is emptied and the interrupt raised -/
theorem dmaPacketFromGuest_frame {s : Nic} {n k : ℕ} (frags : List RingDesc) (last : RingDesc)
    (hcan : canTransmit s = true) (hn : getTxRingSize s = n) (hring : RingAt s.tx n k) (hlen : frags.length < n)
    (hdesc : ∀ i (hi : i < (frags ++ [last]).length),
      loadRingDesc s.mem (slotAddr s.tx n (k + i)) = (frags ++ [last])[i])
    (hfrags : ∀ d ∈ frags, d.flags &&& nvTxValid ≠ 0 ∧ d.flags &&& nvTxLastpacket = 0 ∧ OutsideRing s.tx n d)
    (hlast : last.flags &&& nvTxValid ≠ 0 ∧ last.flags &&& nvTxLastpacket ≠ 0 ∧ OutsideRing s.tx n last)
    (hfit : s.txBuf.length + ((frags ++ [last]).map fragmentLength).sum ≤ txAllocBufsize) :
    ∃ s', dmaPacketFromGuest s =
        some (s', [s.txBuf ++ ((frags ++ [last]).map fun d => dmaRead s.mem d.bufferAddr (fragmentLength d)).flatten]) ∧
      Gathered s s' n k (frags ++ [last]) ∧ s'.txBuf = [] ∧ s'.irqStatus = s.irqStatus ||| nvnetIrqStatusTx := by
  simp only [List.map_append, List.sum_append, List.map_singleton, List.sum_singleton] at hfit
  -- the fragments before the last
  obtain ⟨s₁, hloop₁, hg₁, hn₁, hd, hbuf₁, hirq₁⟩ :=
    txDescriptorLoop_reach frags last hn hring hlen hdesc hfrags (by omega)
  -- the last one, at the slot the others lead to
  have hfit₁ : s₁.txBuf.length + fragmentLength last ≤ txAllocBufsize := by
    rw [hbuf₁, List.length_append, length_flatten_dmaRead]
    omega
  obtain ⟨s₂, hsize₂, htx₂, hmem₂, hirq₂, -, hstep, -⟩ :=
    txDescriptorLoop_valid (n - frags.length - 1) hn₁ hg₁.ring hd hlast.1 hfit₁
  obtain ⟨hbuf₂, hloop₂⟩ := hstep hlast.2.1
  have hg : Gathered s s₂ n k (frags ++ [last]) :=
    hg₁.trans (Gathered.single hg₁.ring hsize₂ htx₂ hmem₂ hd) (by simp; omega)
  -- the frame: tx_dma_buf after the others, then the last buffer, read in the memory after the write-backs
  have hframe : s₁.txBuf ++ dmaRead s₁.mem last.bufferAddr (fragmentLength last) =
      s.txBuf ++ ((frags ++ [last]).map fun d => dmaRead s.mem d.bufferAddr (fragmentLength d)).flatten := by
    rw [hbuf₁, hg₁.dmaRead_eq hlast.2.2, List.map_append, List.flatten_append, List.map_singleton,
      List.flatten_singleton, List.append_assoc]
  refine ⟨{ s₂ with irqStatus := s₂.irqStatus ||| nvnetIrqStatusTx }, ?_,
    ⟨hg.ringSize, hg.base, hg.ring, hg.outside, hg.pending, hg.done⟩, hbuf₂, by rw [hirq₂, hirq₁]⟩
  rw [dmaPacketFromGuest_of_loop hcan (hloop₁.trans hloop₂), if_neg (List.cons_ne_nil _ _), hframe]

/-- a transmit ring of three descriptors at 0x3000: a 2-byte fragment at 0x4000, then a 1-byte one at 0x4010 flagged
LASTPACKET -/
def twoFragmentMem (a : ℕ) : UInt8 :=
  if 0x3000 ≤ a ∧ a < 0x3010 then
    [0x00, 0x40, 0x00, 0x00, 0x01, 0x00, 0x00, 0x80, 0x10, 0x40, 0x00, 0x00, 0x00, 0x00, 0x01, 0x80].getD (a - 0x3000) 0
  else if a = 0x4000 then 1 else if a = 0x4001 then 2 else if a = 0x4010 then 3 else 0

/-- a NIC about to transmit from `twoFragmentMem` -/
def twoFragmentNic : Nic where
  ringSize := 0x00000002
  rx := ⟨0x1000, 0x1000, 0x1000⟩
  tx := ⟨0x3000, 0x3000, 0x3000⟩
  rxEnabled := true
  txEnabled := true
  dmaEnabled := true
  linkUp := true
  irqStatus := 0
  mem := twoFragmentMem
  txBuf := []

example : (dmaPacketFromGuest twoFragmentNic).map Prod.snd = some [[1, 2, 3]] := by decide

/-- a kick that meets an invalid descriptor after the valid `frags`, none flagged LASTPACKET: nothing goes to
send_packet, the descriptors are written back done, and their buffers stay in tx_dma_buf for the next kick -/
theorem dmaPacketFromGuest_partial {s : Nic} {n k : ℕ} (frags : List RingDesc) (stop : RingDesc)
    (hcan : canTransmit s = true) (hn : getTxRingSize s = n) (hring : RingAt s.tx n k) (hlen : frags.length < n)
    (hdesc : ∀ i (hi : i < (frags ++ [stop]).length),
      loadRingDesc s.mem (slotAddr s.tx n (k + i)) = (frags ++ [stop])[i])
    (hfrags : ∀ d ∈ frags, d.flags &&& nvTxValid ≠ 0 ∧ d.flags &&& nvTxLastpacket = 0 ∧ OutsideRing s.tx n d)
    (hstop : stop.flags &&& nvTxValid = 0)
    (hfit : s.txBuf.length + (frags.map fragmentLength).sum ≤ txAllocBufsize) :
    ∃ s', dmaPacketFromGuest s = some (s', []) ∧ Gathered s s' n k frags ∧
      s'.txBuf = s.txBuf ++ (frags.map fun d => dmaRead s.mem d.bufferAddr (fragmentLength d)).flatten ∧
      s'.irqStatus = s.irqStatus := by
  obtain ⟨s₁, hloop₁, hg₁, hn₁, hd, hbuf₁, hirq₁⟩ :=
    txDescriptorLoop_reach frags stop hn hring hlen hdesc hfrags hfit
  have hloop₂ := txDescriptorLoop_invalid (n - frags.length - 1) hn₁ hg₁.ring hd hstop
  -- the invalid descriptor moves CURRENT only
  have hring₂ : RingAt (updateCurrentTxRingDescAddr s₁).tx n ((k + frags.length) % n) := by
    unfold updateCurrentTxRingDescAddr
    rw [hn₁]
    exact hg₁.ring.of_updateCurrent
  refine ⟨updateCurrentTxRingDescAddr s₁, ?_,
    ⟨hg₁.ringSize, hg₁.base, hring₂, hg₁.outside, hg₁.pending, hg₁.done⟩, hbuf₁, hirq₁⟩
  rw [dmaPacketFromGuest_of_loop hcan (hloop₁.trans hloop₂), if_pos rfl]

end Xemu.Nvnet
