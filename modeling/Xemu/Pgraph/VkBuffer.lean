import Mathlib
import Xemu.Core.Align
import Xemu.Core.ByteCopy
import Xemu.Core.Runs
/-!
# The Vulkan staging buffers

The Vulkan renderer stages index data, inline vertex data and uniforms in host-mapped storage buffers
(hw/xbox/nv2a/pgraph/vk/buffer.c, draw.c). pgraph_vk_append_to_buffer asserts with pgraph_vk_buffer_has_space_for that
the items fit, then copies them one after another from `buffer_offset`, each at the offset rounded up to the
alignment; sync_staging_buffer hands the staged bytes to the device buffer and resets `buffer_offset` to 0.

* `appendLoop`: the copy loop, which also gives where each memcpy wrote.
* `pgraphVkAppendToBuffer`, `syncStagingBuffer`, and `stagingStep` for a run of appends and resets, with the copies
  made since the last reset beside the buffer.

An append places its items at aligned, increasing offsets from `buffer_offset` on, each apart from the next
(`appendLoop_mem`, `appendLoop_pairwise`), with each item's bytes intact at its offset (`appendLoop_mapped_item`). It
returns the first item's offset and leaves `buffer_offset` at the last item's end (`pgraphVkAppendToBuffer_head`,
`pgraphVkAppendToBuffer_offset`). Along a run the copies since the last reset stay in order behind `buffer_offset`
(`runStaging_staged`) and an append never touches the bytes before it (`stagingStep_mapped_below`). The assertion
counts the items' sizes but not the padding the loop puts between them: with one item or alignment 1, as every caller
passes, the copies stay inside the buffer (`append_in_bounds`); with two items and any larger alignment the second
can land past its end (`append_pads_past_buffer`).
-/

namespace Xemu.Pgraph

open Align ByteCopy

/-! ## Buffers and appends -/

/-- the fields of StorageBuffer the appends use: `buffer_size`, `buffer_offset`, and the bytes behind `mapped` -/
structure StorageBuffer where
  bufferSize : ℕ
  bufferOffset : ℕ
  mapped : ℕ → UInt8

/-- pgraph_vk_buffer_has_space_for -/
def pgraphVkBufferHasSpaceFor (b : StorageBuffer) (size alignment : ℕ) : Bool :=
  alignUp b.bufferOffset alignment + size ≤ b.bufferSize

/-- the copy loop of pgraph_vk_append_to_buffer over the items, `data[i]` and `sizes[i]`: each goes to `buffer_offset`
rounded up, and `buffer_offset` moves past it. Beside the buffer, the destination and size of each memcpy in order. -/
def appendLoop (alignment : ℕ) : StorageBuffer → List ((ℕ → UInt8) × ℕ) → StorageBuffer × List (ℕ × ℕ)
  | b, [] => (b, [])
  | b, (data, size) :: items =>
    let offset := alignUp b.bufferOffset alignment
    let r := appendLoop alignment { b with bufferOffset := offset + size, mapped := memcpy b.mapped offset data 0 size }
      items
    (r.1, (offset, size) :: r.2)

/-- pgraph_vk_append_to_buffer: the starting offset, the buffer after the loop and the copies it made; `none` where
the has-space assertion fails -/
def pgraphVkAppendToBuffer (b : StorageBuffer) (items : List ((ℕ → UInt8) × ℕ)) (alignment : ℕ) :
    Option (ℕ × StorageBuffer × List (ℕ × ℕ)) :=
  let totalSize := (items.map Prod.snd).sum
  if pgraphVkBufferHasSpaceFor b totalSize alignment then
    let startingOffset := alignUp b.bufferOffset alignment
    some (startingOffset, appendLoop alignment b items)
  else none

/-- sync_staging_buffer on the staging side: the size of the one copy to the device buffer, `[0, buffer_offset)`, and
`buffer_offset` back at 0; nothing for an empty buffer -/
def syncStagingBuffer (b : StorageBuffer) : Option ℕ × StorageBuffer :=
  if b.bufferOffset = 0 then (none, b) else (some b.bufferOffset, { b with bufferOffset := 0 })

/-- a copy `c` ends at or before the copy `c'` begins -/
def CopyBefore (c c' : ℕ × ℕ) : Prop := c.1 + c.2 ≤ c'.1

/-! ## The copy loop -/

section Loop

variable {alignment : ℕ}

@[simp]
theorem appendLoop_bufferSize (b : StorageBuffer) (items : List ((ℕ → UInt8) × ℕ)) :
    (appendLoop alignment b items).1.bufferSize = b.bufferSize := by
  induction items generalizing b with
  | nil => rfl
  | cons item items ih => exact ih _

/-- the loop ends at the last copy's end, or where it started for no items -/
theorem appendLoop_offset (b : StorageBuffer) (items : List ((ℕ → UInt8) × ℕ)) :
    (appendLoop alignment b items).1.bufferOffset =
      ((appendLoop alignment b items).2.getLast?.map fun c => c.1 + c.2).getD b.bufferOffset := by
  induction items generalizing b with
  | nil => rfl
  | cons item items ih =>
    simp only [appendLoop, List.getLast?_cons, Option.map_some, Option.getD_some]
    rw [ih]
    cases (appendLoop alignment _ items).2.getLast? <;> rfl

/-- the loop only moves `buffer_offset` forward -/
theorem appendLoop_offset_le (ha : 0 < alignment) (b : StorageBuffer) (items : List ((ℕ → UInt8) × ℕ)) :
    b.bufferOffset ≤ (appendLoop alignment b items).1.bufferOffset := by
  induction items generalizing b with
  | nil => exact le_rfl
  | cons item items ih =>
    obtain ⟨data, size⟩ := item
    calc b.bufferOffset ≤ alignUp b.bufferOffset alignment := le_alignUp ha
      _ ≤ alignUp b.bufferOffset alignment + size := Nat.le_add_right _ _
      _ ≤ _ := ih { b with
        bufferOffset := alignUp b.bufferOffset alignment + size
        mapped := memcpy b.mapped (alignUp b.bufferOffset alignment) data 0 size }

/-- every copy starts at an aligned offset at or past where the loop started, and ends before where it stops -/
theorem appendLoop_mem (ha : 0 < alignment) (b : StorageBuffer) (items : List ((ℕ → UInt8) × ℕ)) :
    ∀ c ∈ (appendLoop alignment b items).2,
      b.bufferOffset ≤ c.1 ∧ alignment ∣ c.1 ∧ c.1 + c.2 ≤ (appendLoop alignment b items).1.bufferOffset := by
  induction items generalizing b with
  | nil => simp [appendLoop]
  | cons item items ih =>
    obtain ⟨data, size⟩ := item
    set b' : StorageBuffer :=
      { b with
        bufferOffset := alignUp b.bufferOffset alignment + size
        mapped := memcpy b.mapped (alignUp b.bufferOffset alignment) data 0 size }
    have hstart : b.bufferOffset ≤ alignUp b.bufferOffset alignment := le_alignUp ha
    intro c hc
    simp only [appendLoop, List.mem_cons] at hc
    rcases hc with rfl | hc
    · -- this item ends where the rest of the loop starts
      exact ⟨hstart, dvd_alignUp _ _, appendLoop_offset_le ha b' items⟩
    · obtain ⟨h1, h2, h3⟩ := ih b' c hc
      exact ⟨hstart.trans ((Nat.le_add_right _ _).trans h1), h2, h3⟩

/-- each copy ends at or before every later one begins -/
theorem appendLoop_pairwise (ha : 0 < alignment) (b : StorageBuffer) (items : List ((ℕ → UInt8) × ℕ)) :
    (appendLoop alignment b items).2.Pairwise CopyBefore := by
  induction items generalizing b with
  | nil => exact List.Pairwise.nil
  | cons item items ih =>
    obtain ⟨data, size⟩ := item
    simp only [appendLoop]
    refine List.Pairwise.cons (fun c hc => ?_) (ih _)
    exact (appendLoop_mem ha _ items c hc).1

/-- a byte no copy covers keeps its value -/
theorem appendLoop_mapped_of_not_covers {b : StorageBuffer} {items : List ((ℕ → UInt8) × ℕ)} {j : ℕ}
    (hj : ∀ c ∈ (appendLoop alignment b items).2, ¬(c.1 ≤ j ∧ j < c.1 + c.2)) :
    (appendLoop alignment b items).1.mapped j = b.mapped j := by
  induction items generalizing b with
  | nil => rfl
  | cons item items ih =>
    obtain ⟨data, size⟩ := item
    simp only [appendLoop, List.mem_cons, forall_eq_or_imp] at hj ⊢
    rw [ih hj.2]
    exact memcpy_of_not_covers hj.1

/-- the loop leaves the bytes before its start as they were -/
theorem appendLoop_mapped_below (ha : 0 < alignment) {b : StorageBuffer} {items : List ((ℕ → UInt8) × ℕ)} {j : ℕ}
    (hj : j < b.bufferOffset) : (appendLoop alignment b items).1.mapped j = b.mapped j := by
  apply appendLoop_mapped_of_not_covers
  intro c hc hcover
  have h := (appendLoop_mem ha b items c hc).1
  omega

/-- each item's bytes are at its copy's offset when the loop ends: the later copies begin past it -/
theorem appendLoop_mapped_item (ha : 0 < alignment) (b : StorageBuffer) (items : List ((ℕ → UInt8) × ℕ)) :
    ∀ p ∈ (appendLoop alignment b items).2.zip items, ∀ k < p.2.2,
      (appendLoop alignment b items).1.mapped (p.1.1 + k) = p.2.1 k := by
  induction items generalizing b with
  | nil => simp [appendLoop]
  | cons item items ih =>
    obtain ⟨data, size⟩ := item
    intro p hp k hk
    simp only [appendLoop, List.zip_cons_cons, List.mem_cons] at hp ⊢
    rcases hp with rfl | hp
    · -- this item's copy: the rest of the loop starts past it, so the memcpy's bytes stay
      dsimp only at hk ⊢
      rw [appendLoop_mapped_below ha (by dsimp only; omega)]
      dsimp only
      rw [memcpy_of_covers (Nat.le_add_right _ _) (by omega)]
      simp
    · exact ih _ p hp k hk

end Loop

/-! ## pgraph_vk_append_to_buffer -/

section Append

variable {b : StorageBuffer} {items : List ((ℕ → UInt8) × ℕ)} {alignment : ℕ} {r : ℕ × StorageBuffer × List (ℕ × ℕ)}

theorem pgraphVkAppendToBuffer_eq_some (h : pgraphVkAppendToBuffer b items alignment = some r) :
    alignUp b.bufferOffset alignment + (items.map Prod.snd).sum ≤ b.bufferSize ∧
      r = (alignUp b.bufferOffset alignment, appendLoop alignment b items) := by
  unfold pgraphVkAppendToBuffer pgraphVkBufferHasSpaceFor at h
  dsimp only at h
  split_ifs at h with hspace
  cases h
  exact ⟨of_decide_eq_true hspace, rfl⟩

/-- the returned offset is the first item's -/
theorem pgraphVkAppendToBuffer_head (h : pgraphVkAppendToBuffer b items alignment = some r) {c : ℕ × ℕ}
    (hc : r.2.2.head? = some c) : c.1 = r.1 := by
  obtain ⟨-, rfl⟩ := pgraphVkAppendToBuffer_eq_some h
  cases items with
  | nil => cases hc
  | cons item items =>
    simp only [appendLoop, List.head?_cons, Option.some.injEq] at hc
    rw [← hc]

/-- `buffer_offset` ends at the last item's end -/
theorem pgraphVkAppendToBuffer_offset (h : pgraphVkAppendToBuffer b items alignment = some r) {c : ℕ × ℕ}
    (hc : r.2.2.getLast? = some c) : r.2.1.bufferOffset = c.1 + c.2 := by
  obtain ⟨-, rfl⟩ := pgraphVkAppendToBuffer_eq_some h
  rw [appendLoop_offset, hc]
  rfl

/-- the loop's end is the padded start plus the items when no padding falls between them: one item, or alignment 1 -/
theorem appendLoop_offset_of_unpadded (ha : 0 < alignment) (b : StorageBuffer) (hcase : alignment = 1 ∨ items.length ≤ 1) :
    (appendLoop alignment b items).1.bufferOffset ≤ alignUp b.bufferOffset alignment + (items.map Prod.snd).sum := by
  rcases hcase with rfl | hlen
  · induction items generalizing b with
    | nil => simp [appendLoop]
    | cons item items ih =>
      obtain ⟨data, size⟩ := item
      simp only [appendLoop, List.map_cons, List.sum_cons, alignUp_one] at ih ⊢
      calc _ ≤ b.bufferOffset + size + (items.map Prod.snd).sum := ih _
        _ = b.bufferOffset + (size + (items.map Prod.snd).sum) := Nat.add_assoc _ _ _
  · match items, hlen with
    | [], _ => simpa [appendLoop] using le_alignUp ha
    | [(data, size)], _ => simp [appendLoop]

/-- with one item or alignment 1, every copy an append makes lies inside the buffer, and each item's bytes are at its
copy's offset when the append returns -/
theorem append_in_bounds (ha : 0 < alignment) (hcase : alignment = 1 ∨ items.length ≤ 1)
    (h : pgraphVkAppendToBuffer b items alignment = some r) :
    (∀ c ∈ r.2.2, c.1 + c.2 ≤ b.bufferSize) ∧
      ∀ p ∈ r.2.2.zip items, ∀ k < p.2.2, r.2.1.mapped (p.1.1 + k) = p.2.1 k := by
  obtain ⟨hspace, rfl⟩ := pgraphVkAppendToBuffer_eq_some h
  refine ⟨fun c hc => ?_, appendLoop_mapped_item ha b items⟩
  calc c.1 + c.2 ≤ (appendLoop alignment b items).1.bufferOffset := (appendLoop_mem ha b items c hc).2.2
    _ ≤ alignUp b.bufferOffset alignment + (items.map Prod.snd).sum := appendLoop_offset_of_unpadded ha b hcase
    _ ≤ b.bufferSize := hspace

end Append

/-- one 8-byte item at alignment 4 into a 16-byte buffer whose offset is 3: it is copied to `[4, 12)` -/
theorem one_item_append_in_bounds :
    ∃ r, pgraphVkAppendToBuffer ⟨16, 3, fun _ => 0⟩ [(fun k => k.toUInt8, 8)] 4 = some r ∧ r.2.2 = [(4, 8)] ∧
      (∀ c ∈ r.2.2, c.1 + c.2 ≤ 16) ∧
      ∀ p ∈ r.2.2.zip [(fun k => k.toUInt8, 8)], ∀ k < p.2.2, r.2.1.mapped (p.1.1 + k) = p.2.1 k :=
  ⟨_, rfl, rfl, @append_in_bounds ⟨16, 3, fun _ => 0⟩ [(fun k => k.toUInt8, 8)] 4 _ (by decide) (Or.inr (by decide)) rfl⟩

/-- what the renderer does to one staging buffer: an append of items at an alignment `2 ^ alignLog` (1 for index and
vertex data, `minUniformBufferOffsetAlignment`, a power of two, for uniforms), or a sync -/
inductive StagingOp
  | append (items : List ((ℕ → UInt8) × ℕ)) (alignLog : ℕ)
  | sync

/-- one operation on the buffer, with the copies made since the last reset beside it; `none` where an assert fails -/
def stagingStep (s : StorageBuffer × List (ℕ × ℕ)) : StagingOp → Option (StorageBuffer × List (ℕ × ℕ))
  | .append items alignLog => (pgraphVkAppendToBuffer s.1 items (2 ^ alignLog)).map fun r => (r.2.1, s.2 ++ r.2.2)
  | .sync => some ((syncStagingBuffer s.1).2, [])

/-- the copies since the last reset are in order, and behind `buffer_offset` -/
structure Staged (s : StorageBuffer × List (ℕ × ℕ)) : Prop where
  ordered : s.2.Pairwise CopyBefore
  behind : ∀ c ∈ s.2, c.1 + c.2 ≤ s.1.bufferOffset

section Run

variable {s s' : StorageBuffer × List (ℕ × ℕ)}

theorem Staged.step (hs : Staged s) (op : StagingOp) (h : stagingStep s op = some s') : Staged s' := by
  cases op with
  | sync =>
    cases h
    exact ⟨List.Pairwise.nil, fun c hc => by cases hc⟩
  | append items alignLog =>
    obtain ⟨r, hr, rfl⟩ := Option.map_eq_some_iff.mp h
    obtain ⟨-, rfl⟩ := pgraphVkAppendToBuffer_eq_some hr
    have hmem := appendLoop_mem (Nat.two_pow_pos alignLog) s.1 items
    refine ⟨List.pairwise_append.mpr ⟨hs.ordered, appendLoop_pairwise (Nat.two_pow_pos alignLog) s.1 items, ?_⟩, ?_⟩
    · -- the earlier copies end behind the offset the new ones start from
      intro c hc c' hc'
      exact (hs.behind c hc).trans (hmem c' hc').1
    · intro c hc
      rcases List.mem_append.mp hc with hc | hc
      · exact (hs.behind c hc).trans (appendLoop_offset_le (Nat.two_pow_pos alignLog) s.1 items)
      · exact (hmem c hc).2.2

/-- an append leaves the bytes staged before it as they were -/
theorem stagingStep_mapped_below {op : StagingOp} (h : stagingStep s op = some s') {j : ℕ}
    (hj : j < s.1.bufferOffset) : s'.1.mapped j = s.1.mapped j := by
  cases op with
  | sync =>
    cases h
    unfold syncStagingBuffer
    split_ifs <;> rfl
  | append items alignLog =>
    obtain ⟨r, hr, rfl⟩ := Option.map_eq_some_iff.mp h
    obtain ⟨-, rfl⟩ := pgraphVkAppendToBuffer_eq_some hr
    exact appendLoop_mapped_below (Nat.two_pow_pos alignLog) hj

/-- the staging run: the operations in turn, stopping at a failed assert -/
def runStaging (s : StorageBuffer × List (ℕ × ℕ)) (ops : List StagingOp) : Option (StorageBuffer × List (ℕ × ℕ)) :=
  ops.foldlM stagingStep s

/-- along every run, the copies since the last reset stay in order and behind `buffer_offset`: no append overlaps the
data staged before it -/
theorem runStaging_staged (b : StorageBuffer) (ops : List StagingOp)
    (h : runStaging (b, []) ops = some s') : Staged s' := by
  have h0 : Staged (b, []) := ⟨List.Pairwise.nil, fun c hc => by cases hc⟩
  exact Runs.foldlM_invariant Staged (fun s op s' hs hstep => hs.step op hstep) ops h0 h

end Run

/-- a uniform append at alignment 16, a sync, then two index appends: the copies since the sync are `[0, 6)` and
`[6, 10)`, behind `buffer_offset` 10 -/
theorem appends_after_sync_staged :
    ∃ s', runStaging (⟨64, 0, fun _ => 0⟩, [])
        [.append [(fun _ => 7, 12)] 4, .sync, .append [(fun _ => 1, 6)] 0, .append [(fun _ => 2, 4)] 0] = some s' ∧
      s'.2 = [(0, 6), (6, 4)] ∧ s'.1.bufferOffset = 10 ∧ Staged s' := by
  obtain ⟨s', h⟩ := Option.isSome_iff_exists.mp (by decide : (runStaging (⟨64, 0, fun _ => 0⟩, [])
    [.append [(fun _ => 7, 12)] 4, .sync, .append [(fun _ => 1, 6)] 0, .append [(fun _ => 2, 4)] 0]).isSome)
  have hcopies : (runStaging (⟨64, 0, fun _ => 0⟩, [])
      [.append [(fun _ => 7, 12)] 4, .sync, .append [(fun _ => 1, 6)] 0, .append [(fun _ => 2, 4)] 0]).map
      (fun s => (s.2, s.1.bufferOffset)) = some ([(0, 6), (6, 4)], 10) := by
    decide
  rw [h, Option.map_some, Option.some.injEq, Prod.mk.injEq] at hcopies
  exact ⟨s', h, hcopies.1, hcopies.2, runStaging_staged _ _ h⟩

end Xemu.Pgraph
