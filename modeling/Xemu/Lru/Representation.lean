import Mathlib
import Xemu.Lru.Invariant

/-!
What the invariant of `include/qemu/lru.h` gives its users.

`LruRepresentation` collects, for one state, the facts a user of the LRU list relies on: nodes stay on the global
list exactly once, in-use nodes sit once in the bin of their hash and nowhere else, the counters agree with the
queues, keys are unique among nodes in use, and `lru_lookup` returns the node in use for its hash and key when
there is one, without calling `init_node`. `lru_representation_invariant` proves it for every reachable state when
`compare_nodes` is an equivalence on keys.
-/

namespace Xemu.Qemu

open TailQueue

variable {ν κ : Type} [DecidableEq ν] {compareNodes : κ → κ → Bool} {s : Lru ν κ}

/-! ## `lru_lookup` -/

/-- with keys unique, the walk over the bin finds the one node in use for the hash and key -/
theorem binFind_of_present (h : LruInv compareNodes s) (heqv : Equivalence fun a b => compareNodes a b = false)
    {m : ν} {hash : UInt64} {key : κ} (hm : m ∈ s.global) (hl : s.binLinked m = true) (hh : s.hash m = hash)
    (hk : compareNodes (s.key m) key = false) : lruBinFind compareNodes s hash key = some m := by
  have hb : m ∈ s.bins (lruHashToBin hash) := hh ▸ h.mem_bin_of_linked hm hl
  unfold lruBinFind
  cases hx : (s.bins (lruHashToBin hash)).find? (fun n => s.hash n == hash && !compareNodes (s.key n) key) with
  | none =>
    have := List.find?_eq_none.1 hx m hb
    simp [hh, hk] at this
  | some x =>
    have hxb := List.mem_of_find?_eq_some hx
    have hpx := List.find?_some hx
    simp only [Bool.and_eq_true, beq_iff_eq, Bool.not_eq_eq_eq_not, Bool.not_true] at hpx
    obtain ⟨hlx, -⟩ := h.mem_bin hxb
    have hkx : compareNodes (s.key x) (s.key m) = false := heqv.trans hpx.2 (heqv.symm hk)
    rw [h.unique x (h.binGlobal _ x hxb) m hm hlx hl (hpx.1.trans hh.symm) hkx]

/-- the node returned carries the hash looked up and is in use afterwards -/
theorem lookup_found {pre : ν → Bool} {hash : UInt64} {key : κ} {found : ν}
    {s' : Lru ν κ} (hl : lruLookup compareNodes pre s hash key = some (found, s')) :
    s'.hash found = hash ∧ s'.binLinked found = true := by
  cases hx : lruBinFind compareNodes s hash key with
  | some x =>
    rw [lruLookup_of_hit hx] at hl
    simp only [Option.some.injEq, Prod.mk.injEq] at hl
    obtain ⟨rfl, rfl⟩ := hl
    unfold lruBinFind at hx
    have hpx := List.find?_some hx
    simp only [Bool.and_eq_true, beq_iff_eq] at hpx
    simp [hpx.1]
  | none =>
    rw [lruLookup_of_miss hx] at hl
    obtain ⟨⟨x, s1⟩, -, hl⟩ := Option.map_eq_some_iff.1 hl
    simp only [Prod.mk.injEq] at hl
    obtain ⟨rfl, rfl⟩ := hl
    simp

/-- `lru_lookup` fails (its `lru_evict_one` assertion fires) only when every node is in use and refused -/
theorem lookup_none {pre : ν → Bool} {hash : UInt64} {key : κ}
    (hl : lruLookup compareNodes pre s hash key = none) : ∀ m ∈ s.global, s.binLinked m = true ∧ pre m = false := by
  cases hx : lruBinFind compareNodes s hash key with
  | some x => rw [lruLookup_of_hit hx] at hl; exact absurd hl (by simp)
  | none =>
    rw [lruLookup_of_miss hx, Option.map_eq_none_iff] at hl
    unfold lruGetOneFree at hl
    cases hf : lastWhere (fun n => !lruIsNodeInUse s n) s.global with
    | some x => rw [hf] at hl; exact absurd hl (by simp)
    | none =>
      rw [hf] at hl
      unfold lruEvictOne lruTryEvictOne at hl
      cases he : lastWhere (fun n => lruIsNodeInUse s n && pre n) s.global with
      | some x => rw [he] at hl; exact absurd hl (by simp)
      | none =>
        intro m hm
        have h1 := lastWhere_none.1 hf m hm
        have h2 := lastWhere_none.1 he m hm
        simp only [lruIsNodeInUse_eq, Bool.not_eq_eq_eq_not, Bool.not_false] at h1
        simpa [h1] using h2

/-! ## The representation -/

/-- the facts about one state that the users of the LRU list rely on -/
def LruRepresentation (compareNodes : κ → κ → Bool) (s : Lru ν κ) : Prop :=
  -- every node on the global list stays there exactly once, whatever operations follow
  (∀ t, Relation.ReflTransGen (LruStepAny compareNodes) s t → ∀ n ∈ s.global, t.global.count n = 1) ∧
  -- a node is in use iff it is in a bin, then once and in the bin of its hash; bins hold only such nodes
  (∀ n ∈ s.global, ∀ b,
    (s.bins b).count n = if lruIsNodeInUse s n = true ∧ b = lruHashToBin (s.hash n) then 1 else 0) ∧
  (∀ b, ∀ n ∈ s.bins b, n ∈ s.global) ∧
  -- the counters
  s.numUsed = ∑ b ∈ Finset.range lruNumBins, ((s.bins b).length : ℤ) ∧
  s.numUsed + s.numFree = s.global.length ∧
  -- no two nodes in use with the same hash and equal keys
  (∀ m ∈ s.global, ∀ n ∈ s.global, lruIsNodeInUse s m = true → lruIsNodeInUse s n = true →
    s.hash m = s.hash n → compareNodes (s.key m) (s.key n) = false → m = n) ∧
  -- what `lru_lookup` returns, and that a hit leaves the stored key and the counters alone
  (∀ pre hash key found s', lruLookup compareNodes pre s hash key = some (found, s') →
    s'.hash found = hash ∧ lruIsNodeInUse s' found = true ∧
    ∀ m ∈ s.global, lruIsNodeInUse s m = true → s.hash m = hash → compareNodes (s.key m) key = false →
      found = m ∧ s'.hash = s.hash ∧ s'.key = s.key ∧ s'.numUsed = s.numUsed ∧ s'.numFree = s.numFree) ∧
  (∀ pre hash key, lruLookup compareNodes pre s hash key = none →
    ∀ m ∈ s.global, lruIsNodeInUse s m = true ∧ pre m = false)

theorem lru_representation_invariant (compareNodes : κ → κ → Bool)
    (heqv : Equivalence fun a b => compareNodes a b = false) (s : Lru ν κ) (hs : LruReachable compareNodes s) :
    LruRepresentation compareNodes s := by
  have hsymm : ∀ a b, compareNodes a b = false → compareNodes b a = false := fun _ _ => heqv.symm
  have h := reachable_inv hsymm hs
  refine ⟨?_, ?_, h.binGlobal, h.usedBins, h.usedFree, ?_, ?_, fun _ _ _ hl => lookup_none hl⟩
  · intro t ht n hn
    obtain ⟨ht', hg⟩ := steps_inv hsymm (fun _ _ h => h) h ht
    exact List.count_eq_one_of_mem ht'.nodup (hg n hn)
  · intro n hn b
    exact h.binCount n hn b
  · intro m hm n hn hlm hln
    exact h.unique m hm n hn hlm hln
  · intro pre hash key found s' hl
    obtain ⟨hh, hlf⟩ := lookup_found hl
    refine ⟨hh, hlf, fun m hm hlm hhm hkm => ?_⟩
    have hx := binFind_of_present h heqv hm hlm hhm hkm
    rw [lruLookup_of_hit hx] at hl
    simp only [Option.some.injEq, Prod.mk.injEq] at hl
    obtain ⟨rfl, rfl⟩ := hl
    simp

/-! ## A run -/

/-- keys are numbers, equal when `compare_nodes` says they do not differ -/
def natCompare (a b : ℕ) : Bool := a != b

theorem natCompare_eq_false {a b : ℕ} : natCompare a b = false ↔ a = b := by simp [natCompare]

theorem natCompare_equiv : Equivalence fun a b => natCompare a b = false := by
  refine ⟨fun _ => natCompare_eq_false.2 rfl, fun h => ?_, fun h1 h2 => ?_⟩
  · exact natCompare_eq_false.2 (natCompare_eq_false.1 h).symm
  · exact natCompare_eq_false.2 ((natCompare_eq_false.1 h1).trans (natCompare_eq_false.1 h2))

/-- memory before `lru_init`: no node linked anywhere -/
def blankLru : Lru ℕ ℕ := ⟨[], fun _ => [], 0, 0, fun _ => 0, fun _ => false, fun _ => 0⟩

/-- two nodes added, then a lookup of hash 7 and key 3, which takes node 1 -/
def twoNodeRun : Lru ℕ ℕ :=
  lruRelink (lruClaim (lruAddFree (lruAddFree (lruInit blankLru) 0) 1) 1 7 3) (lruHashToBin 7) 1

theorem twoNodeRun_reachable : LruReachable natCompare twoNodeRun := by
  refine ⟨blankLru, ?_⟩
  have h1 : LruStepAny natCompare (lruInit blankLru) (lruAddFree (lruInit blankLru) 0) :=
    ⟨_, .addFree _ 0 (by simp [lruInit])⟩
  have h2 : LruStepAny natCompare (lruAddFree (lruInit blankLru) 0)
      (lruAddFree (lruAddFree (lruInit blankLru) 0) 1) :=
    ⟨_, .addFree _ 1 (by simp [lruAddFree, lruInit])⟩
  have h3 : LruStepAny natCompare (lruAddFree (lruAddFree (lruInit blankLru) 0) 1) twoNodeRun :=
    ⟨_, .lookup _ (fun _ => true) 7 3 1 _ rfl⟩
  exact .tail (.tail (.single h1) h2) h3

theorem twoNodeRun_representation : LruRepresentation natCompare twoNodeRun :=
  lru_representation_invariant natCompare natCompare_equiv twoNodeRun twoNodeRun_reachable

end Xemu.Qemu
