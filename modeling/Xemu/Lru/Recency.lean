import Mathlib
import Xemu.Lru.Representation

/-!
Eviction order of `include/qemu/lru.h`.

Recency is kept only by position on the global list. To say which node is least recently used, a run is extended
with a history (`LruTimed`): `now` counts the lookups made so far and `lastLookup n` is the number of the last
lookup that returned `n`. Only lookups touch the history.

`recency_step` and `lookup_recency`: every operation other than a lookup leaves the nodes in use in the same order
(it may drop some), and a lookup puts the node it returns in front of all others. So along every run the nodes in
use are in strictly decreasing order of their last lookup, and `lru_eviction_order` follows: the reverse walk of
`lru_try_evict_one` evicts the accepted node in use whose last lookup is oldest, and `lru_get_one_free` evicts
nothing when a free node exists, which is whenever `num_free` is not zero.
-/

namespace Xemu.Qemu

open TailQueue

variable {ν κ : Type} [DecidableEq ν] {compareNodes : κ → κ → Bool} {s t : Lru ν κ}

/-- a run together with the number of lookups made and the number of the last lookup that returned each node -/
inductive LruTimed (compareNodes : κ → κ → Bool) : Lru ν κ → (ν → ℕ) → ℕ → Prop where
  | init (s0 : Lru ν κ) : LruTimed compareNodes (lruInit s0) (fun _ => 0) 0
  | other {s t : Lru ν κ} {lastLookup : ν → ℕ} {now : ℕ} :
      LruTimed compareNodes s lastLookup now → LruStep compareNodes s none t → LruTimed compareNodes t lastLookup now
  | lookup {s t : Lru ν κ} {lastLookup : ν → ℕ} {now : ℕ} {found : ν} :
      LruTimed compareNodes s lastLookup now → LruStep compareNodes s (some found) t →
        LruTimed compareNodes t (Function.update lastLookup found (now + 1)) (now + 1)

/-- the nodes in use, in global-list order -/
def inUse (s : Lru ν κ) : List ν := s.global.filter s.binLinked

/-! ## Steps other than lookups -/

omit [DecidableEq ν] in
theorem inUse_shrinks (hs : Shrinks s t) : (inUse t).Sublist (inUse s) := by
  unfold inUse
  rw [hs.global]
  exact List.monotone_filter_right _ fun n hn => hs.linked n hn

theorem inUse_flushNode (pre : ν → Bool) (s : Lru ν κ) (iter : ν) :
    (inUse (lruFlushNode pre s iter)).Sublist (inUse s) := by
  unfold lruFlushNode
  split_ifs
  · have hsub := inUse_shrinks (evictNode_shrinks s iter)
    unfold inUse at hsub ⊢
    rwa [filter_moveToTail_of_not _ (evictNode_unlinked s iter)]
  · exact List.Sublist.refl _

theorem inUse_foldl_flushNode (pre : ν → Bool) (l : List ν) :
    ∀ s : Lru ν κ, (inUse (l.foldl (lruFlushNode pre) s)).Sublist (inUse s) := by
  induction l with
  | nil => exact fun s => List.Sublist.refl _
  | cons x l ih => exact fun s => (ih _).trans (inUse_flushNode pre s x)

theorem inUse_flush (pre : ν → Bool) (s : Lru ν κ) : (inUse (lruFlush pre s)).Sublist (inUse s) := by
  unfold lruFlush
  generalize List.range lruNumBins = bins
  induction bins generalizing s with
  | nil => exact List.Sublist.refl _
  | cons b bins ih => exact (ih _).trans (inUse_foldl_flushNode pre _ s)

theorem inUse_evictOne {pre : ν → Bool} {found : ν} (he : lruEvictOne pre s = some (found, t)) :
    (inUse t).Sublist (inUse s) := by
  unfold lruEvictOne at he
  split at he
  · rename_i x s1 ht
    simp only [Option.some.injEq, Prod.mk.injEq] at he
    obtain ⟨rfl, rfl⟩ := he
    have := tryEvictOne_shrinks s pre
    rw [ht] at this
    exact inUse_shrinks this
  · simp at he

/-- an operation other than a lookup keeps the nodes in use in order and adds none -/
theorem recency_step (hs : LruStep compareNodes s none t) : (inUse t).Sublist (inUse s) := by
  cases hs with
  | addFree node fresh =>
    have hagree : s.global.filter (Function.update s.binLinked node false) = s.global.filter s.binLinked :=
      List.filter_congr fun z hz => by
        have hzn : z ≠ node := by rintro rfl; exact fresh hz
        rw [Function.update_of_ne hzn]
    simp [inUse, lruAddFree, List.filter_append, hagree]
  | evictNode node _ => exact inUse_shrinks (evictNode_shrinks s node)
  | tryEvictOne pre => exact inUse_shrinks (tryEvictOne_shrinks s pre)
  | evictOne pre found s' he => exact inUse_evictOne he
  | flush pre => exact inUse_flush pre s

/-! ## Lookups -/

/-- after the relink at the end of `lru_lookup`, the node is the first node in use -/
theorem inUse_relink {t0 : Lru ν κ} {x : ν} (bin : ℕ) (hnd : t0.global.Nodup) :
    inUse (lruRelink t0 bin x) = x :: (t0.global.erase x).filter t0.binLinked := by
  have hx : x ∉ t0.global.erase x := hnd.not_mem_erase
  have hagree : (t0.global.erase x).filter (Function.update t0.binLinked x true) =
      (t0.global.erase x).filter t0.binLinked :=
    List.filter_congr fun z hz => by
      have hzx : z ≠ x := by rintro rfl; exact hx hz
      rw [Function.update_of_ne hzx]
  simp [inUse, moveToHead, hagree]

/-- a lookup puts the node it returns in front of the nodes in use, which keep their order -/
theorem lookup_recency (h : LruShape s) {pre : ν → Bool} {hash : UInt64} {key : κ} {found : ν}
    (hl : lruLookup compareNodes pre s hash key = some (found, t)) :
    ∃ L, inUse t = found :: L ∧ L.Sublist (inUse s) ∧ found ∉ L := by
  cases hx : lruBinFind compareNodes s hash key with
  | some x =>
    rw [lruLookup_of_hit hx] at hl
    simp only [Option.some.injEq, Prod.mk.injEq] at hl
    obtain ⟨rfl, rfl⟩ := hl
    have hnot : x ∉ s.global.erase x := h.nodup.not_mem_erase
    have hagree : (s.global.erase x).filter (Function.update s.binLinked x false) =
        (s.global.erase x).filter s.binLinked :=
      List.filter_congr fun z hz => by
        have hzx : z ≠ x := by rintro rfl; exact hnot hz
        rw [Function.update_of_ne hzx]
    refine ⟨(s.global.erase x).filter s.binLinked, ?_, (List.erase_sublist).filter _,
      fun hm => hnot (List.mem_filter.1 hm).1⟩
    rw [@inUse_relink _ _ _ (binRemove s _ x) x _ h.nodup]
    simp [hagree]
  | none =>
    rw [lruLookup_of_miss hx] at hl
    obtain ⟨⟨x, s1⟩, hg, hl⟩ := Option.map_eq_some_iff.1 hl
    simp only [Prod.mk.injEq] at hl
    obtain ⟨rfl, rfl⟩ := hl
    obtain ⟨h1, hs, -, -⟩ := getOneFree_spec h hg
    have hnot : x ∉ s1.global.erase x := h1.nodup.not_mem_erase
    refine ⟨(s1.global.erase x).filter s1.binLinked,
      by rw [@inUse_relink _ _ _ (lruClaim s1 x hash key) x _ h1.nodup]; rfl, ?_, fun hm => hnot (List.mem_filter.1 hm).1⟩
    rw [hs.global]
    exact (List.monotone_filter_right _ fun n hn => hs.linked n hn).trans ((List.erase_sublist).filter _)

/-! ## Runs -/

/-- the nodes in use are ordered by their last lookup, most recent first, and no lookup is in the future -/
structure RecencyInv (s : Lru ν κ) (lastLookup : ν → ℕ) (now : ℕ) : Prop where
  shape : LruShape s
  order : (inUse s).Pairwise fun a b => lastLookup b < lastLookup a
  past : ∀ n, lastLookup n ≤ now

theorem timed_inv {lastLookup : ν → ℕ} {now : ℕ} (h : LruTimed compareNodes s lastLookup now) :
    RecencyInv s lastLookup now := by
  induction h with
  | init s0 => exact ⟨init_inv s0, by simp [inUse, lruInit], fun _ => le_rfl⟩
  | other _ hs ih =>
    exact ⟨(step_shape ih.shape hs).1, ih.order.sublist (recency_step hs), ih.past⟩
  | @lookup s t lastLookup now found _ hs ih =>
    refine ⟨(step_shape ih.shape hs).1, ?_, fun n => ?_⟩
    · cases hs with
      | lookup pre hash key _ _ hl =>
        obtain ⟨L, hL, hsub, hf⟩ := lookup_recency ih.shape hl
        rw [hL, List.pairwise_cons]
        have hne : ∀ b ∈ L, b ≠ found := fun b hb e => hf (e ▸ hb)
        refine ⟨fun b hb => ?_, (ih.order.sublist hsub).imp_of_mem fun ha hb hab => ?_⟩
        · rw [Function.update_self, Function.update_of_ne (hne b hb)]
          exact Nat.lt_succ_of_le (ih.past b)
        · rwa [Function.update_of_ne (hne _ ha), Function.update_of_ne (hne _ hb)]
    · by_cases hn : n = found
      · subst hn; simp
      · rw [Function.update_of_ne hn]; exact Nat.le_succ_of_le (ih.past n)

/-! ## Eviction order -/

/-- `num_free` counts the nodes of the global list that are not in use -/
theorem numFree_eq (h : LruShape s) : s.numFree = s.global.countP fun n => !s.binLinked n := by
  have hl := List.length_eq_countP_add_countP s.binLinked (l := s.global)
  have hc : s.global.countP (fun a => decide ¬s.binLinked a = true) = s.global.countP fun n => !s.binLinked n :=
    List.countP_congr fun a _ => by simp
  have := h.usedFree
  rw [h.usedLinked, hl, hc] at this
  push_cast at this
  linarith

/-- what the order of the global list means for eviction -/
def LruEvictionOrder (s : Lru ν κ) (lastLookup : ν → ℕ) : Prop :=
  -- the nodes in use, in global-list order, are in strictly decreasing order of their last lookup
  (inUse s).Pairwise (fun a b => lastLookup b < lastLookup a) ∧
  -- `lru_try_evict_one` evicts, among the nodes in use that `pre_node_evict` accepts, the least recently looked up
  (∀ pre found s', lruTryEvictOne pre s = (some found, s') →
    found ∈ s.global ∧ lruIsNodeInUse s found = true ∧ pre found = true ∧ lruIsNodeInUse s' found = false ∧
      ∀ m ∈ s.global, lruIsNodeInUse s m = true → pre m = true → m ≠ found → lastLookup found < lastLookup m) ∧
  (∀ pre s', lruTryEvictOne pre s = (none, s') →
    s' = s ∧ ∀ m ∈ s.global, lruIsNodeInUse s m = true → pre m = false) ∧
  -- `lru_get_one_free` returns a free node and evicts nothing whenever one exists, that is when `num_free ≠ 0`
  (∀ pre, (∃ m ∈ s.global, lruIsNodeInUse s m = false) →
    ∃ n, lruGetOneFree pre s = some (n, s) ∧ n ∈ s.global ∧ lruIsNodeInUse s n = false) ∧
  (s.numFree ≠ 0 ↔ ∃ m ∈ s.global, lruIsNodeInUse s m = false)

theorem lru_eviction_order (compareNodes : κ → κ → Bool) (s : Lru ν κ) (lastLookup : ν → ℕ) (now : ℕ)
    (h : LruTimed compareNodes s lastLookup now) : LruEvictionOrder s lastLookup := by
  have hi := timed_inv h
  refine ⟨hi.order, ?_, ?_, ?_, ?_⟩
  · intro pre found s' he
    cases hx : lastWhere (fun n => s.binLinked n && pre n) s.global with
    | none => rw [lruTryEvictOne_of_none hx] at he; simp at he
    | some x =>
      rw [lruTryEvictOne_of_some hx, Prod.mk.injEq, Option.some.injEq] at he
      obtain ⟨rfl, rfl⟩ := he
      obtain ⟨hm, hp⟩ := lastWhere_some hx
      simp only [Bool.and_eq_true] at hp
      refine ⟨hm, hp.1, hp.2, by simpa using evictNode_unlinked s x, fun m hm' hlm hpm hne => ?_⟩
      have hpq : ∀ z, (s.binLinked z && pre z) = true → s.binLinked z = true := fun z hz => by
        simp only [Bool.and_eq_true] at hz
        exact hz.1
      have hord : (s.global.filter s.binLinked).Pairwise fun a b => lastLookup b < lastLookup a := hi.order
      exact lastWhere_min (r := fun a b => lastLookup b < lastLookup a) hpq hord hx hm' (by simp_all) hne
  · intro pre s' he
    cases hx : lastWhere (fun n => s.binLinked n && pre n) s.global with
    | some x => rw [lruTryEvictOne_of_some hx] at he; simp at he
    | none =>
      rw [lruTryEvictOne_of_none hx, Prod.mk.injEq] at he
      refine ⟨he.2.symm, fun m hm hlm => ?_⟩
      have := lastWhere_none.1 hx m hm
      simp only [Bool.and_eq_false_iff] at this
      simp only [lruIsNodeInUse_eq] at hlm
      simpa [hlm] using this
  · rintro pre ⟨m, hm, hlm⟩
    obtain ⟨n, hn⟩ := lastWhere_isSome (p := fun n => !s.binLinked n) hm (by simpa using hlm)
    obtain ⟨hng, hnf⟩ := lastWhere_some hn
    exact ⟨n, lruGetOneFree_of_some hn, hng, by simpa using hnf⟩
  · rw [numFree_eq hi.shape]
    constructor
    · intro hne
      have hpos : 0 < s.global.countP fun n => !s.binLinked n := by omega
      obtain ⟨m, hm, hf⟩ := List.countP_pos_iff.1 hpos
      exact ⟨m, hm, by simpa using hf⟩
    · rintro ⟨m, hm, hf⟩
      have : 0 < s.global.countP fun n => !s.binLinked n := List.countP_pos_iff.2 ⟨m, hm, by simpa using hf⟩
      omega

/-- the run of `twoNodeRun` with its history: one lookup, which returned node 1 -/
theorem twoNodeRun_timed : LruTimed natCompare twoNodeRun (Function.update (fun _ => 0) 1 1) 1 := by
  have h0 : LruTimed natCompare (lruInit blankLru) (fun _ => 0) 0 := LruTimed.init blankLru
  have h1 := h0.other (.addFree _ 0 (by simp [lruInit]))
  have h2 := h1.other (.addFree _ 1 (by simp [lruAddFree, lruInit]))
  exact h2.lookup (.lookup _ (fun _ => true) 7 3 1 twoNodeRun rfl)

theorem twoNodeRun_eviction_order : LruEvictionOrder twoNodeRun (Function.update (fun _ => 0) 1 1) :=
  lru_eviction_order natCompare twoNodeRun _ 1 twoNodeRun_timed

end Xemu.Qemu
