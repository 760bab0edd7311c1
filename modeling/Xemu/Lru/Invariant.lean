import Mathlib
import Xemu.Lru.Basic

/-!
The representation invariant of `include/qemu/lru.h` over whole runs.

`LruInv` says how the two kinds of tail queue, the in-use flags and the two counters fit together:
- the global list has no duplicates;
- a node of the global list appears in a bin exactly when it is in use, then once, in the bin of its hash;
- bins hold only nodes of the global list;
- `num_used` counts the nodes in use and the nodes on all bins, and `num_used + num_free` is the length of the
  global list;
- no two nodes in use have the same hash and keys that `compare_nodes` calls equal.

Every operation keeps it (`addFree_inv`, `evictNode_inv`, `tryEvictOne_inv`, `lookup_inv`, `flush_inv`), so it
holds in every reachable state (`reachable_inv`). The last part needs `compare_nodes` to be symmetric: a new key
is compared against stored ones in one direction only.
-/

namespace Xemu.Qemu

open TailQueue

variable {ν κ : Type} [DecidableEq ν]

/-- the number of nodes on all bins -/
def binsTotal (s : Lru ν κ) : ℤ := ∑ b ∈ Finset.range lruNumBins, ((s.bins b).length : ℤ)

theorem lruHashToBin_lt (hash : UInt64) : lruHashToBin hash < lruNumBins :=
  Nat.mod_lt _ lruNumBins_pos

omit [DecidableEq ν] in
theorem sum_update_length (f : ℕ → List ν) {b : ℕ} (hb : b < lruNumBins) (l : List ν) :
    ∑ c ∈ Finset.range lruNumBins, ((Function.update f b l c).length : ℤ) =
      ∑ c ∈ Finset.range lruNumBins, ((f c).length : ℤ) + l.length - (f b).length := by
  have hm : b ∈ Finset.range lruNumBins := Finset.mem_range.2 hb
  rw [← Finset.add_sum_erase _ _ hm, ← Finset.add_sum_erase _ (fun c => ((f c).length : ℤ)) hm]
  have hrest : ∑ c ∈ (Finset.range lruNumBins).erase b, ((Function.update f b l c).length : ℤ) =
      ∑ c ∈ (Finset.range lruNumBins).erase b, ((f c).length : ℤ) :=
    Finset.sum_congr rfl fun c hc => by rw [Function.update_of_ne (Finset.ne_of_mem_erase hc)]
  rw [hrest, Function.update_self]
  ring

/-- the representation invariant; `compareNodes a b = false` means the keys are equal -/
structure LruInv (compareNodes : κ → κ → Bool) (s : Lru ν κ) : Prop where
  nodup : s.global.Nodup
  binCount : ∀ n ∈ s.global, ∀ b,
    (s.bins b).count n = if s.binLinked n = true ∧ b = lruHashToBin (s.hash n) then 1 else 0
  binGlobal : ∀ b, ∀ n ∈ s.bins b, n ∈ s.global
  usedLinked : s.numUsed = s.global.countP s.binLinked
  usedBins : s.numUsed = binsTotal s
  usedFree : s.numUsed + s.numFree = s.global.length
  unique : ∀ m ∈ s.global, ∀ n ∈ s.global, s.binLinked m = true → s.binLinked n = true →
    s.hash m = s.hash n → compareNodes (s.key m) (s.key n) = false → m = n

variable {compareNodes : κ → κ → Bool} {s : Lru ν κ}

namespace LruInv

/-- a node in a bin is in use and sits in the bin of its hash -/
theorem mem_bin (h : LruInv compareNodes s) {b : ℕ} {n : ν} (hn : n ∈ s.bins b) :
    s.binLinked n = true ∧ b = lruHashToBin (s.hash n) := by
  have hc := h.binCount n (h.binGlobal b n hn) b
  have hpos : 0 < (s.bins b).count n := List.count_pos_iff.2 hn
  split_ifs at hc with hl
  · exact hl
  · omega

/-- a node in use is in the bin of its hash -/
theorem mem_bin_of_linked (h : LruInv compareNodes s) {n : ν} (hg : n ∈ s.global) (hl : s.binLinked n = true) :
    n ∈ s.bins (lruHashToBin (s.hash n)) := by
  have hc := h.binCount n hg (lruHashToBin (s.hash n))
  rw [if_pos ⟨hl, rfl⟩] at hc
  exact List.count_pos_iff.1 (by omega)

/-- a node not in use is in no bin -/
theorem not_mem_bin (h : LruInv compareNodes s) {n : ν} (hl : s.binLinked n = false)
    (b : ℕ) : n ∉ s.bins b := by
  intro hn
  have := (h.mem_bin hn).1
  rw [hl] at this
  exact Bool.false_ne_true this

/-- the invariant only depends on the queues up to reordering each of them -/
theorem of_perm (h : LruInv compareNodes s) {t : Lru ν κ} (hg : t.global.Perm s.global)
    (hb : ∀ b, (t.bins b).Perm (s.bins b)) (hu : t.numUsed = s.numUsed) (hf : t.numFree = s.numFree)
    (hh : t.hash = s.hash) (hk : t.key = s.key) (hl : t.binLinked = s.binLinked) : LruInv compareNodes t where
  nodup := hg.nodup_iff.2 h.nodup
  binCount n hn b := by
    rw [(hb b).count_eq, h.binCount n (hg.mem_iff.1 hn) b, hl, hh]
  binGlobal b n hn := hg.mem_iff.2 (h.binGlobal b n ((hb b).mem_iff.1 hn))
  usedLinked := by rw [hu, h.usedLinked, hg.countP_eq, hl]
  usedBins := by
    rw [hu, h.usedBins, binsTotal, binsTotal]
    exact Finset.sum_congr rfl fun b _ => by rw [(hb b).length_eq]
  usedFree := by rw [hu, hf, h.usedFree, hg.length_eq]
  unique m hm n hn := by
    rw [hl, hh, hk]
    exact h.unique m (hg.mem_iff.1 hm) n (hg.mem_iff.1 hn)

end LruInv

/-! ## `lru_init` and `lru_add_free` -/

theorem init_inv (s0 : Lru ν κ) : LruInv compareNodes (lruInit s0) where
  nodup := List.nodup_nil
  binCount n hn := by simp [lruInit] at hn
  binGlobal b n hn := by simp [lruInit] at hn
  usedLinked := by simp [lruInit]
  usedBins := by simp [lruInit, binsTotal]
  usedFree := by simp [lruInit]
  unique m hm := by simp [lruInit] at hm

theorem addFree_inv (h : LruInv compareNodes s) {node : ν} (hfresh : node ∉ s.global) :
    LruInv compareNodes (lruAddFree s node) where
  nodup := List.nodup_append.2 ⟨h.nodup, List.nodup_singleton _, fun a ha b hb => by
    rw [List.mem_singleton.1 hb]; rintro rfl; exact hfresh ha⟩
  binCount n hn b := by
    simp only [lruAddFree, List.mem_append, List.mem_singleton] at hn ⊢
    by_cases hnn : n = node
    · subst hnn
      have hnot : n ∉ s.bins b := fun hb => hfresh (h.binGlobal b n hb)
      simp [List.count_eq_zero_of_not_mem hnot]
    · have hl : Function.update s.binLinked node false n = s.binLinked n := Function.update_of_ne hnn _ _
      simpa [lruAddFree, hl] using h.binCount n (hn.resolve_right hnn) b
  binGlobal b n hn := List.mem_append_left _ (h.binGlobal b n hn)
  usedLinked := by
    have hagree : s.global.countP (Function.update s.binLinked node false) = s.global.countP s.binLinked :=
      List.countP_congr fun z hz => by
        have hzn : z ≠ node := by rintro rfl; exact hfresh hz
        rw [Function.update_of_ne hzn]
    simp [lruAddFree, List.countP_append, hagree, h.usedLinked]
  usedBins := h.usedBins
  usedFree := by simp only [lruAddFree, List.length_append, List.length_singleton]; push_cast; linarith [h.usedFree]
  unique m hm n hn hlm hln := by
    simp only [lruAddFree, List.mem_append, List.mem_singleton] at hm hn hlm hln
    have hmn : m ≠ node := fun e => by subst e; simp at hlm
    have hnn : n ≠ node := fun e => by subst e; simp at hln
    rw [Function.update_of_ne hmn] at hlm
    rw [Function.update_of_ne hnn] at hln
    exact h.unique m (hm.resolve_right hmn) n (hn.resolve_right hnn) hlm hln

/-! ## Eviction -/

/-- `t` arises from `s` by taking nodes out of use: the global list, hashes and keys are unchanged -/
structure Shrinks (s t : Lru ν κ) : Prop where
  global : t.global = s.global
  hash : t.hash = s.hash
  key : t.key = s.key
  linked : ∀ n, t.binLinked n = true → s.binLinked n = true

omit [DecidableEq ν] in
theorem Shrinks.refl (s : Lru ν κ) : Shrinks s s := ⟨rfl, rfl, rfl, fun _ h => h⟩

theorem linked_of_update_false {f : ν → Bool} {x m : ν} (h : Function.update f x false m = true) :
    f m = true ∧ m ≠ x := by
  by_cases hm : m = x
  · subst hm; simp at h
  · rw [Function.update_of_ne hm] at h; exact ⟨h, hm⟩

theorem evictNode_shrinks (s : Lru ν κ) (node : ν) : Shrinks s (lruEvictNode s node) := by
  unfold lruEvictNode
  split_ifs
  · exact ⟨rfl, rfl, rfl, fun n hn => (linked_of_update_false hn).1⟩
  · exact Shrinks.refl s

theorem evictNode_unlinked (s : Lru ν κ) (node : ν) : (lruEvictNode s node).binLinked node = false := by
  unfold lruEvictNode
  split_ifs with hl
  · simp
  · simpa using hl

theorem evictNode_of_linked {node : ν} (hl : s.binLinked node = true) :
    lruEvictNode s node = { binRemove s (lruHashToBin (s.hash node)) node with
      numUsed := s.numUsed - 1, numFree := s.numFree + 1 } := by
  simp [lruEvictNode, hl]

theorem evictNode_inv (h : LruInv compareNodes s) {node : ν} (hn : node ∈ s.global) :
    LruInv compareNodes (lruEvictNode s node) := by
  by_cases hl : s.binLinked node = true
  swap
  · simpa [lruEvictNode, hl] using h
  rw [evictNode_of_linked hl]
  have hmem : node ∈ s.bins (lruHashToBin (s.hash node)) := h.mem_bin_of_linked hn hl
  have hbN : lruHashToBin (s.hash node) < lruNumBins := lruHashToBin_lt _
  refine
    { nodup := h.nodup
      binCount := ?_
      binGlobal := ?_
      usedLinked := ?_
      usedBins := ?_
      usedFree := by simp only [binRemove_global]; linarith [h.usedFree]
      unique := ?_ }
  · intro m hm c
    simp only [binRemove_global, binRemove_bins, binRemove_binLinked, binRemove_hash] at hm ⊢
    have hc0 := h.binCount m hm c
    by_cases hmn : m = node
    · subst hmn
      simp only [Function.update_self, Bool.false_eq_true, false_and, ↓reduceIte]
      by_cases hc : c = lruHashToBin (s.hash m)
      · subst hc
        rw [if_pos ⟨hl, rfl⟩] at hc0
        simp [hc0]
      · rw [if_neg (fun e => hc e.2)] at hc0
        simp [Function.update_of_ne hc, hc0]
    · simp only [Function.update_of_ne hmn]
      by_cases hc : c = lruHashToBin (s.hash node)
      · subst hc
        simp only [Function.update_self, List.count_erase_of_ne hmn]
        exact hc0
      · simp only [Function.update_of_ne hc]
        exact hc0
  · intro c m hm
    simp only [binRemove_bins, binRemove_global] at hm ⊢
    by_cases hc : c = lruHashToBin (s.hash node)
    · subst hc
      rw [Function.update_self] at hm
      exact h.binGlobal _ m (List.mem_of_mem_erase hm)
    · rw [Function.update_of_ne hc] at hm
      exact h.binGlobal c m hm
  · have := countP_update false h.nodup hn (f := s.binLinked)
    simp only [hl, ↓reduceIte, Bool.false_eq_true] at this
    simp only [binRemove_global, binRemove_binLinked, h.usedLinked]
    omega
  · simp only [binsTotal, binRemove_bins]
    rw [sum_update_length _ hbN, List.length_erase_of_mem hmem, h.usedBins, binsTotal]
    have : 1 ≤ (s.bins (lruHashToBin (s.hash node))).length := List.length_pos_of_mem hmem
    rw [Nat.cast_sub this]
    ring
  · intro m hm n hn hlm hln
    simp only [binRemove_global, binRemove_binLinked, binRemove_hash, binRemove_key] at hm hn hlm hln ⊢
    exact h.unique m hm n hn (linked_of_update_false hlm).1 (linked_of_update_false hln).1

theorem tryEvictOne_inv (h : LruInv compareNodes s) (pre : ν → Bool) :
    LruInv compareNodes (lruTryEvictOne pre s).2 := by
  unfold lruTryEvictOne
  split
  · rename_i found hf
    exact evictNode_inv h (lastWhere_some hf).1
  · exact h

theorem tryEvictOne_shrinks (s : Lru ν κ) (pre : ν → Bool) : Shrinks s (lruTryEvictOne pre s).2 := by
  unfold lruTryEvictOne
  split
  · exact evictNode_shrinks s _
  · exact Shrinks.refl s

/-- what the miss path of `lru_lookup` gets from `lru_get_one_free`: a node of the global list that is not in use,
in a state where nodes were at most taken out of use -/
theorem getOneFree_spec (h : LruInv compareNodes s) {pre : ν → Bool} {found : ν} {s1 : Lru ν κ}
    (hg : lruGetOneFree pre s = some (found, s1)) :
    LruInv compareNodes s1 ∧ Shrinks s s1 ∧ found ∈ s1.global ∧ s1.binLinked found = false := by
  unfold lruGetOneFree at hg
  split at hg
  · rename_i x hx
    obtain ⟨rfl, rfl⟩ := Prod.mk.inj (Option.some.inj hg)
    obtain ⟨hm, hf⟩ := lastWhere_some hx
    exact ⟨h, Shrinks.refl _, hm, by simpa using hf⟩
  · unfold lruEvictOne lruTryEvictOne at hg
    simp only [lruIsNodeInUse_eq] at hg
    cases hx : lastWhere (fun n => s.binLinked n && pre n) s.global with
    | none => simp [hx] at hg
    | some x =>
      simp only [hx, Option.some.injEq, Prod.mk.injEq] at hg
      obtain ⟨rfl, rfl⟩ := hg
      have hm := (lastWhere_some hx).1
      exact ⟨evictNode_inv h hm, evictNode_shrinks s _, by simpa [(evictNode_shrinks s x).global] using hm,
        evictNode_unlinked s x⟩

/-! ## `lru_lookup` -/

/-- the hit path only reorders the global list and the node's bin -/
theorem relinkHit_inv (h : LruInv compareNodes s) {found : ν} (hb : found ∈ s.bins (lruHashToBin (s.hash found))) :
    LruInv compareNodes (lruRelink (binRemove s (lruHashToBin (s.hash found)) found)
      (lruHashToBin (s.hash found)) found) := by
  obtain ⟨hl, -⟩ := h.mem_bin hb
  have hg := h.binGlobal _ _ hb
  refine h.of_perm (moveToHead_perm hg) (fun c => ?_) rfl rfl rfl rfl ?_
  · by_cases hc : c = lruHashToBin (s.hash found)
    · subst hc
      simpa using (List.perm_cons_erase hb).symm
    · simp [Function.update_of_ne hc]
  · simp only [lruRelink_binLinked, binRemove_binLinked, Function.update_idem]
    rw [← hl, Function.update_eq_self]

/-- the miss path puts a node that was not in use into the bin of the new hash -/
theorem relinkClaim_inv (h : LruInv compareNodes s) (hsymm : ∀ a b, compareNodes a b = false → compareNodes b a = false)
    {found : ν} {hash : UInt64} {key : κ} (hf : found ∈ s.global) (hl : s.binLinked found = false)
    (hmiss : ∀ m ∈ s.global, s.binLinked m = true → s.hash m = hash → compareNodes (s.key m) key = true) :
    LruInv compareNodes (lruRelink (lruClaim s found hash key) (lruHashToBin hash) found) := by
  have hbN : lruHashToBin hash < lruNumBins := lruHashToBin_lt _
  refine
    { nodup := by simpa using nodup_moveToHead hf h.nodup
      binCount := ?_
      binGlobal := ?_
      usedLinked := ?_
      usedBins := ?_
      usedFree := ?_
      unique := ?_ }
  · intro m hm c
    simp only [lruRelink_global, lruClaim_global, mem_moveToHead hf] at hm
    simp only [lruRelink_bins, lruRelink_binLinked, lruRelink_hash, lruClaim_bins, lruClaim_binLinked,
      lruClaim_hash]
    by_cases hmf : m = found
    · subst hmf
      simp only [Function.update_self, true_and]
      have hnot := h.not_mem_bin hl
      by_cases hc : c = lruHashToBin hash
      · subst hc
        simp [List.count_eq_zero_of_not_mem (hnot _)]
      · simp [hc, List.count_eq_zero_of_not_mem (hnot c)]
    · simp only [Function.update_of_ne hmf]
      by_cases hc : c = lruHashToBin hash
      · subst hc
        simp only [Function.update_self, List.count_cons_of_ne (Ne.symm hmf)]
        exact h.binCount m hm _
      · simp only [Function.update_of_ne hc]
        exact h.binCount m hm c
  · intro c m hm
    simp only [lruRelink_global, lruClaim_global, mem_moveToHead hf, lruRelink_bins, lruClaim_bins] at hm ⊢
    by_cases hc : c = lruHashToBin hash
    · subst hc
      rcases List.mem_cons.1 (by simpa using hm) with rfl | hm'
      · exact hf
      · exact h.binGlobal _ m hm'
    · rw [Function.update_of_ne hc] at hm
      exact h.binGlobal c m hm
  · have hc := countP_update true h.nodup hf (f := s.binLinked)
    simp only [hl, Bool.false_eq_true, ↓reduceIte] at hc
    simp only [lruRelink_numUsed, lruClaim_numUsed, lruRelink_global, lruClaim_global, lruRelink_binLinked,
      lruClaim_binLinked, (moveToHead_perm hf).countP_eq, h.usedLinked]
    omega
  · simp only [binsTotal, lruRelink_bins, lruRelink_numUsed, lruClaim_bins, lruClaim_numUsed]
    rw [sum_update_length _ hbN, h.usedBins, binsTotal, List.length_cons]
    push_cast
    ring
  · simp only [lruRelink_numUsed, lruRelink_numFree, lruClaim_numUsed, lruClaim_numFree, lruRelink_global,
      lruClaim_global, length_moveToHead hf]
    linarith [h.usedFree]
  · intro m hm n hn hlm hln hh hk
    simp only [lruRelink_global, lruClaim_global, mem_moveToHead hf, lruRelink_binLinked, lruClaim_binLinked,
      lruRelink_hash, lruClaim_hash, lruRelink_key, lruClaim_key] at hm hn hlm hln hh hk
    by_cases hmf : m = found <;> by_cases hnf : n = found
    · rw [hmf, hnf]
    · subst hmf
      simp only [Function.update_self, Function.update_of_ne hnf] at hh hk hln
      have := hmiss n hn hln hh.symm
      rw [hsymm _ _ hk] at this
      exact absurd this Bool.false_ne_true
    · subst hnf
      simp only [Function.update_self, Function.update_of_ne hmf] at hh hk hlm
      rw [hmiss m hm hlm hh] at hk
      exact absurd hk (by simp)
    · simp only [Function.update_of_ne hmf, Function.update_of_ne hnf] at hh hk hlm hln
      exact h.unique m hm n hn hlm hln hh hk

/-- `lru_lookup` with the comparison `compareLookup` keeps the invariant for a symmetric comparison that calls keys
equal only when `compareLookup` does -/
theorem lookup_inv (h : LruInv compareNodes s) (hsymm : ∀ a b, compareNodes a b = false → compareNodes b a = false)
    {compareLookup : κ → κ → Bool} (hcmp : ∀ a b, compareNodes a b = false → compareLookup a b = false)
    {pre : ν → Bool} {hash : UInt64} {key : κ} {found : ν} {s' : Lru ν κ}
    (hl : lruLookup compareLookup pre s hash key = some (found, s')) : LruInv compareNodes s' := by
  cases hx : lruBinFind compareLookup s hash key with
  | some x =>
    rw [lruLookup_of_hit hx] at hl
    simp only [Option.some.injEq, Prod.mk.injEq] at hl
    obtain ⟨rfl, rfl⟩ := hl
    unfold lruBinFind at hx
    have hb := List.mem_of_find?_eq_some hx
    have hhash : s.hash x = hash := by
      have := List.find?_some hx
      simp only [Bool.and_eq_true, beq_iff_eq] at this
      exact this.1
    rw [← hhash] at hb ⊢
    exact relinkHit_inv h hb
  | none =>
    rw [lruLookup_of_miss hx] at hl
    obtain ⟨⟨x, s1⟩, hg, hl⟩ := Option.map_eq_some_iff.1 hl
    simp only [Prod.mk.injEq] at hl
    obtain ⟨rfl, rfl⟩ := hl
    obtain ⟨h1, hs, hf, hlf⟩ := getOneFree_spec h hg
    refine relinkClaim_inv h1 hsymm hf hlf fun m hm hlm hhm => ?_
    rw [hs.global] at hm
    rw [hs.hash] at hhm
    have hb := h.mem_bin_of_linked hm (hs.linked m hlm)
    rw [hhm] at hb
    unfold lruBinFind at hx
    rw [hs.key]
    cases hc : compareNodes (s.key m) key with
    | true => rfl
    | false =>
      have := List.find?_eq_none.1 hx m hb
      simp [hhm, hcmp _ _ hc] at this

/-! ## `lru_flush` -/

/-- one node of the flush keeps the invariant and the members of the global list -/
theorem flushNode_inv (h : LruInv compareNodes s) (pre : ν → Bool) {iter : ν} (hi : iter ∈ s.global) :
    LruInv compareNodes (lruFlushNode pre s iter) ∧ ∀ n, n ∈ (lruFlushNode pre s iter).global ↔ n ∈ s.global := by
  unfold lruFlushNode
  split_ifs
  · have hg : (lruEvictNode s iter).global = s.global := (evictNode_shrinks s iter).global
    have hi' : iter ∈ (lruEvictNode s iter).global := hg ▸ hi
    refine ⟨(evictNode_inv h hi).of_perm (moveToTail_perm hi') (fun _ => List.Perm.refl _) rfl rfl rfl rfl rfl,
      fun n => ?_⟩
    rw [mem_moveToTail hi', hg]
  · exact ⟨h, fun _ => Iff.rfl⟩

/-- the walk over a snapshot of a bin: every node visited is still in the global list when its turn comes -/
theorem foldl_flushNode_inv (pre : ν → Bool) (l : List ν) :
    ∀ s : Lru ν κ, LruInv compareNodes s → (∀ x ∈ l, x ∈ s.global) →
      LruInv compareNodes (l.foldl (lruFlushNode pre) s) ∧
        ∀ n, n ∈ (l.foldl (lruFlushNode pre) s).global ↔ n ∈ s.global := by
  induction l with
  | nil => exact fun s h _ => ⟨h, fun _ => Iff.rfl⟩
  | cons x l ih =>
    intro s h hl
    obtain ⟨h1, hg1⟩ := flushNode_inv h pre (hl x List.mem_cons_self)
    obtain ⟨h2, hg2⟩ := ih _ h1 fun y hy => (hg1 y).2 (hl y (List.mem_cons_of_mem _ hy))
    exact ⟨h2, fun n => (hg2 n).trans (hg1 n)⟩

theorem flushBin_inv (h : LruInv compareNodes s) (pre : ν → Bool) (bin : ℕ) :
    LruInv compareNodes (lruFlushBin pre s bin) ∧ ∀ n, n ∈ (lruFlushBin pre s bin).global ↔ n ∈ s.global :=
  foldl_flushNode_inv pre _ s h (h.binGlobal bin)

theorem foldl_flushBin_inv (pre : ν → Bool) (bins : List ℕ) :
    ∀ s : Lru ν κ, LruInv compareNodes s →
      LruInv compareNodes (bins.foldl (lruFlushBin pre) s) ∧
        ∀ n, n ∈ (bins.foldl (lruFlushBin pre) s).global ↔ n ∈ s.global := by
  induction bins with
  | nil => exact fun s h => ⟨h, fun _ => Iff.rfl⟩
  | cons b bins ih =>
    intro s h
    obtain ⟨h1, hg1⟩ := flushBin_inv h pre b
    obtain ⟨h2, hg2⟩ := ih _ h1
    exact ⟨h2, fun n => (hg2 n).trans (hg1 n)⟩

theorem flush_inv (h : LruInv compareNodes s) (pre : ν → Bool) :
    LruInv compareNodes (lruFlush pre s) ∧ ∀ n, n ∈ (lruFlush pre s).global ↔ n ∈ s.global :=
  foldl_flushBin_inv pre _ s h

/-! ## Runs -/

/-- every operation keeps the invariant and every node of the global list -/
theorem step_inv (hsymm : ∀ a b, compareNodes a b = false → compareNodes b a = false)
    {compareLookup : κ → κ → Bool} (hcmp : ∀ a b, compareNodes a b = false → compareLookup a b = false)
    {e : Option ν} {t : Lru ν κ} (h : LruInv compareNodes s) (hs : LruStep compareLookup s e t) :
    LruInv compareNodes t ∧ ∀ n ∈ s.global, n ∈ t.global := by
  cases hs with
  | addFree node fresh =>
    exact ⟨addFree_inv h fresh, fun n hn => List.mem_append_left _ hn⟩
  | lookup pre hash key found s' hl =>
    refine ⟨lookup_inv h hsymm hcmp hl, fun n hn => ?_⟩
    cases hx : lruBinFind compareLookup s hash key with
    | some x =>
      rw [lruLookup_of_hit hx] at hl
      simp only [Option.some.injEq, Prod.mk.injEq] at hl
      obtain ⟨rfl, rfl⟩ := hl
      unfold lruBinFind at hx
      have hxg := h.binGlobal _ _ (List.mem_of_find?_eq_some hx)
      simpa [mem_moveToHead hxg] using hn
    | none =>
      rw [lruLookup_of_miss hx] at hl
      obtain ⟨⟨x, s1⟩, hg, hl⟩ := Option.map_eq_some_iff.1 hl
      simp only [Prod.mk.injEq] at hl
      obtain ⟨rfl, rfl⟩ := hl
      obtain ⟨-, hs, hf, -⟩ := getOneFree_spec h hg
      rw [hs.global] at hf
      simpa [mem_moveToHead hf, hs.global] using hn
  | evictNode node added =>
    exact ⟨evictNode_inv h added, fun n hn => by rwa [(evictNode_shrinks s node).global]⟩
  | tryEvictOne pre =>
    exact ⟨tryEvictOne_inv h pre, fun n hn => by rwa [(tryEvictOne_shrinks s pre).global]⟩
  | evictOne pre found s' he =>
    unfold lruEvictOne at he
    split at he
    · rename_i x s1 ht
      simp only [Option.some.injEq, Prod.mk.injEq] at he
      obtain ⟨rfl, rfl⟩ := he
      have h1 := tryEvictOne_inv h pre
      have hs1 := tryEvictOne_shrinks s pre
      rw [ht] at h1 hs1
      exact ⟨h1, fun n hn => by rwa [hs1.global]⟩
    · simp at he
  | flush pre =>
    obtain ⟨h1, hg⟩ := flush_inv h pre
    exact ⟨h1, fun n hn => (hg n).2 hn⟩

/-- the invariant and the members of the global list along any sequence of operations -/
theorem steps_inv (hsymm : ∀ a b, compareNodes a b = false → compareNodes b a = false)
    {compareLookup : κ → κ → Bool} (hcmp : ∀ a b, compareNodes a b = false → compareLookup a b = false)
    {t : Lru ν κ} (h : LruInv compareNodes s) (hst : Relation.ReflTransGen (LruStepAny compareLookup) s t) :
    LruInv compareNodes t ∧ ∀ n ∈ s.global, n ∈ t.global := by
  induction hst with
  | refl => exact ⟨h, fun _ hn => hn⟩
  | tail _ hstep ih =>
    obtain ⟨h1, hg1⟩ := ih
    obtain ⟨e, hstep⟩ := hstep
    obtain ⟨h2, hg2⟩ := step_inv hsymm hcmp h1 hstep
    exact ⟨h2, fun n hn => hg2 n (hg1 n hn)⟩

theorem reachable_inv (hsymm : ∀ a b, compareNodes a b = false → compareNodes b a = false)
    (hs : LruReachable compareNodes s) : LruInv compareNodes s := by
  obtain ⟨s0, hst⟩ := hs
  exact (steps_inv hsymm (fun _ _ h => h) (init_inv s0) hst).1

/-! ## The shape of the queues

Everything in the invariant but the uniqueness of keys holds whatever `compare_nodes` does: it is the invariant for
a comparison that never calls two keys equal. -/

/-- the invariant without key uniqueness -/
def LruShape (s : Lru ν κ) : Prop := LruInv (fun _ _ => true : κ → κ → Bool) s

theorem step_shape {compareLookup : κ → κ → Bool} {e : Option ν} {t : Lru ν κ} (h : LruShape s)
    (hs : LruStep compareLookup s e t) : LruShape t ∧ ∀ n ∈ s.global, n ∈ t.global :=
  step_inv (by simp) (by simp) h hs

end Xemu.Qemu
