import Mathlib
import Xemu.Core.TailQueue

/-!
The LRU object list of `include/qemu/lru.h`.

An `Lru` keeps every node on a global tail queue (most recently looked up first) and every node in use on one of
`LRU_NUM_BINS` hash-bin tail queues. The model keeps, besides the two kinds of queue and the two counters, the
per-node fields the operations read: `hash`, the back link of `next_bin` (whose being non-null is
`QTAILQ_IN_USE`), and the key that `init_node` stored in the node's container, which is what `compare_nodes`
looks at.

The user callbacks are parameters: `compare_nodes` is a function of the stored key and the key looked up,
`pre_node_evict` is a predicate on nodes given with each operation that may call it (so each call may answer
differently from the calls of other operations), and `init_node` stores the key. `post_node_evict` only reclaims
the user's resources and is not modelled.

A failed `assert` (in `lru_evict_one`, when no node can be evicted) is `none`. `LruStep` is one call of an
operation, with the callers' side of the contract as premises: a node is added once, and only nodes that were
added are evicted by hand.
-/

namespace Xemu.Qemu

open TailQueue

/-- `LRU_NUM_BINS` -/
def lruNumBins : ℕ := 1 <<< 16

theorem lruNumBins_pos : 0 < lruNumBins := by decide

/-- an `Lru` with the fields of the nodes it manages (nodes are named by `ν`, keys have type `κ`) -/
structure Lru (ν κ : Type) where
  global : List ν
  bins : ℕ → List ν
  numUsed : ℤ
  numFree : ℤ
  /-- `node->hash` -/
  hash : ν → UInt64
  /-- `node->next_bin.tqe_circ.tql_prev != NULL` -/
  binLinked : ν → Bool
  /-- the key `init_node` stored in the node's container -/
  key : ν → κ

variable {ν κ : Type} [DecidableEq ν]

/-! ## Tail queue steps on the bins -/

/-- `QTAILQ_REMOVE(&lru->bins[bin], node, next_bin)`: the node leaves the bin and its back link is cleared -/
def binRemove (s : Lru ν κ) (bin : ℕ) (node : ν) : Lru ν κ :=
  { s with bins := Function.update s.bins bin ((s.bins bin).erase node),
           binLinked := Function.update s.binLinked node false }

/-- `QTAILQ_INSERT_HEAD(&lru->bins[bin], node, next_bin)` -/
def binInsertHead (s : Lru ν κ) (bin : ℕ) (node : ν) : Lru ν κ :=
  { s with bins := Function.update s.bins bin (node :: s.bins bin),
           binLinked := Function.update s.binLinked node true }

@[simp] theorem binRemove_global (s : Lru ν κ) (b : ℕ) (n : ν) : (binRemove s b n).global = s.global := rfl
@[simp] theorem binRemove_hash (s : Lru ν κ) (b : ℕ) (n : ν) : (binRemove s b n).hash = s.hash := rfl
@[simp] theorem binRemove_key (s : Lru ν κ) (b : ℕ) (n : ν) : (binRemove s b n).key = s.key := rfl
@[simp] theorem binRemove_numUsed (s : Lru ν κ) (b : ℕ) (n : ν) : (binRemove s b n).numUsed = s.numUsed := rfl
@[simp] theorem binRemove_numFree (s : Lru ν κ) (b : ℕ) (n : ν) : (binRemove s b n).numFree = s.numFree := rfl
@[simp] theorem binRemove_bins (s : Lru ν κ) (b : ℕ) (n : ν) :
    (binRemove s b n).bins = Function.update s.bins b ((s.bins b).erase n) := rfl
@[simp] theorem binRemove_binLinked (s : Lru ν κ) (b : ℕ) (n : ν) :
    (binRemove s b n).binLinked = Function.update s.binLinked n false := rfl

@[simp] theorem binInsertHead_global (s : Lru ν κ) (b : ℕ) (n : ν) : (binInsertHead s b n).global = s.global := rfl
@[simp] theorem binInsertHead_hash (s : Lru ν κ) (b : ℕ) (n : ν) : (binInsertHead s b n).hash = s.hash := rfl
@[simp] theorem binInsertHead_key (s : Lru ν κ) (b : ℕ) (n : ν) : (binInsertHead s b n).key = s.key := rfl
@[simp] theorem binInsertHead_numUsed (s : Lru ν κ) (b : ℕ) (n : ν) :
    (binInsertHead s b n).numUsed = s.numUsed := rfl
@[simp] theorem binInsertHead_numFree (s : Lru ν κ) (b : ℕ) (n : ν) :
    (binInsertHead s b n).numFree = s.numFree := rfl
@[simp] theorem binInsertHead_bins (s : Lru ν κ) (b : ℕ) (n : ν) :
    (binInsertHead s b n).bins = Function.update s.bins b (n :: s.bins b) := rfl
@[simp] theorem binInsertHead_binLinked (s : Lru ν κ) (b : ℕ) (n : ν) :
    (binInsertHead s b n).binLinked = Function.update s.binLinked n true := rfl

/-! ## The operations -/

/-- `lru_init`: empty queues and zero counters; the nodes' own memory is not touched -/
def lruInit (s : Lru ν κ) : Lru ν κ :=
  { s with global := [], bins := fun _ => [], numUsed := 0, numFree := 0 }

/-- `lru_add_free` -/
def lruAddFree (s : Lru ν κ) (node : ν) : Lru ν κ :=
  { s with binLinked := Function.update s.binLinked node false, global := s.global ++ [node],
           numFree := s.numFree + 1 }

/-- `lru_hash_to_bin` -/
def lruHashToBin (hash : UInt64) : ℕ := hash.toNat % lruNumBins

/-- `lru_get_node_bin` -/
def lruGetNodeBin (s : Lru ν κ) (node : ν) : ℕ := lruHashToBin (s.hash node)

omit [DecidableEq ν] in
@[simp] theorem lruGetNodeBin_eq (s : Lru ν κ) (node : ν) : lruGetNodeBin s node = lruHashToBin (s.hash node) :=
  rfl

/-- `lru_is_node_in_use` -/
def lruIsNodeInUse (s : Lru ν κ) (node : ν) : Bool := s.binLinked node

omit [DecidableEq ν] in
@[simp] theorem lruIsNodeInUse_eq (s : Lru ν κ) (node : ν) : lruIsNodeInUse s node = s.binLinked node := rfl

/-- `lru_evict_node` -/
def lruEvictNode (s : Lru ν κ) (node : ν) : Lru ν κ :=
  if lruIsNodeInUse s node then
    let s1 := binRemove s (lruGetNodeBin s node) node
    { s1 with numUsed := s1.numUsed - 1, numFree := s1.numFree + 1 }
  else s

/-- `lru_try_evict_one`: the reverse walk of the global list stops at the first node in use that
`pre_node_evict` lets go -/
def lruTryEvictOne (preNodeEvict : ν → Bool) (s : Lru ν κ) : Option ν × Lru ν κ :=
  match lastWhere (fun n => lruIsNodeInUse s n && preNodeEvict n) s.global with
  | some found => (some found, lruEvictNode s found)
  | none => (none, s)

theorem lruTryEvictOne_of_some {pre : ν → Bool} {s : Lru ν κ} {x : ν}
    (h : TailQueue.lastWhere (fun n => s.binLinked n && pre n) s.global = some x) :
    lruTryEvictOne pre s = (some x, lruEvictNode s x) := by
  simp [lruTryEvictOne, h]

theorem lruTryEvictOne_of_none {pre : ν → Bool} {s : Lru ν κ}
    (h : TailQueue.lastWhere (fun n => s.binLinked n && pre n) s.global = none) :
    lruTryEvictOne pre s = (none, s) := by
  simp [lruTryEvictOne, h]

/-- `lru_evict_one`: `none` when its assertion fails -/
def lruEvictOne (preNodeEvict : ν → Bool) (s : Lru ν κ) : Option (ν × Lru ν κ) :=
  match lruTryEvictOne preNodeEvict s with
  | (some found, s') => some (found, s')
  | (none, _) => none

/-- `lru_get_one_free` -/
def lruGetOneFree (preNodeEvict : ν → Bool) (s : Lru ν κ) : Option (ν × Lru ν κ) :=
  match lastWhere (fun n => !lruIsNodeInUse s n) s.global with
  | some found => some (found, s)
  | none => lruEvictOne preNodeEvict s

theorem lruGetOneFree_of_some {pre : ν → Bool} {s : Lru ν κ} {x : ν}
    (h : TailQueue.lastWhere (fun n => !s.binLinked n) s.global = some x) : lruGetOneFree pre s = some (x, s) := by
  simp [lruGetOneFree, h]

/-- `lru_contains_hash` -/
def lruContainsHash (s : Lru ν κ) (hash : UInt64) : Bool :=
  (s.bins (lruHashToBin hash)).any fun n => s.hash n == hash

/-- the miss path of `lru_lookup` on the node it got: `found->hash = hash`, `init_node`, and the counters -/
def lruClaim (s : Lru ν κ) (found : ν) (hash : UInt64) (key : κ) : Lru ν κ :=
  { s with hash := Function.update s.hash found hash, key := Function.update s.key found key,
           numUsed := s.numUsed + 1, numFree := s.numFree - 1 }

/-- the end of `lru_lookup`: the node moves to the head of the global list and is put at the head of its bin -/
def lruRelink (s : Lru ν κ) (bin : ℕ) (found : ν) : Lru ν κ :=
  binInsertHead { s with global := moveToHead s.global found } bin found

section Fields

variable (s : Lru ν κ) (found : ν) (bin : ℕ) (hash : UInt64) (key : κ)

@[simp] theorem lruClaim_global : (lruClaim s found hash key).global = s.global := rfl
@[simp] theorem lruClaim_bins : (lruClaim s found hash key).bins = s.bins := rfl
@[simp] theorem lruClaim_binLinked : (lruClaim s found hash key).binLinked = s.binLinked := rfl
@[simp] theorem lruClaim_hash : (lruClaim s found hash key).hash = Function.update s.hash found hash := rfl
@[simp] theorem lruClaim_key : (lruClaim s found hash key).key = Function.update s.key found key := rfl
@[simp] theorem lruClaim_numUsed : (lruClaim s found hash key).numUsed = s.numUsed + 1 := rfl
@[simp] theorem lruClaim_numFree : (lruClaim s found hash key).numFree = s.numFree - 1 := rfl

@[simp] theorem lruRelink_global : (lruRelink s bin found).global = moveToHead s.global found := rfl
@[simp] theorem lruRelink_bins :
    (lruRelink s bin found).bins = Function.update s.bins bin (found :: s.bins bin) := rfl
@[simp] theorem lruRelink_binLinked :
    (lruRelink s bin found).binLinked = Function.update s.binLinked found true := rfl
@[simp] theorem lruRelink_hash : (lruRelink s bin found).hash = s.hash := rfl
@[simp] theorem lruRelink_key : (lruRelink s bin found).key = s.key := rfl
@[simp] theorem lruRelink_numUsed : (lruRelink s bin found).numUsed = s.numUsed := rfl
@[simp] theorem lruRelink_numFree : (lruRelink s bin found).numFree = s.numFree := rfl

end Fields

/-- `lru_lookup`, with `compare_nodes` returning `true` when the stored key differs from the key looked up -/
def lruLookup (compareNodes : κ → κ → Bool) (preNodeEvict : ν → Bool) (s : Lru ν κ) (hash : UInt64)
    (key : κ) : Option (ν × Lru ν κ) :=
  let bin := lruHashToBin hash
  match (s.bins bin).find? (fun n => s.hash n == hash && !compareNodes (s.key n) key) with
  | some found => some (found, lruRelink (binRemove s bin found) bin found)
  | none =>
    match lruGetOneFree preNodeEvict s with
    | some (found, s1) => some (found, lruRelink (lruClaim s1 found hash key) bin found)
    | none => none

/-- the walk over the bin of `lru_lookup` -/
def lruBinFind (compareNodes : κ → κ → Bool) (s : Lru ν κ) (hash : UInt64) (key : κ) : Option ν :=
  (s.bins (lruHashToBin hash)).find? (fun n => s.hash n == hash && !compareNodes (s.key n) key)

theorem lruLookup_of_hit {compareNodes : κ → κ → Bool} {pre : ν → Bool} {s : Lru ν κ} {hash : UInt64} {key : κ}
    {found : ν} (h : lruBinFind compareNodes s hash key = some found) :
    lruLookup compareNodes pre s hash key =
      some (found, lruRelink (binRemove s (lruHashToBin hash) found) (lruHashToBin hash) found) := by
  unfold lruBinFind at h
  simp [lruLookup, h]

theorem lruLookup_of_miss {compareNodes : κ → κ → Bool} {pre : ν → Bool} {s : Lru ν κ} {hash : UInt64} {key : κ}
    (h : lruBinFind compareNodes s hash key = none) :
    lruLookup compareNodes pre s hash key =
      (lruGetOneFree pre s).map fun p => (p.1, lruRelink (lruClaim p.2 p.1 hash key) (lruHashToBin hash) p.1) := by
  unfold lruBinFind at h
  simp only [lruLookup, h]
  cases lruGetOneFree pre s <;> rfl

/-- the body of the `QTAILQ_FOREACH_SAFE` loop of `lru_flush` -/
def lruFlushNode (preNodeEvict : ν → Bool) (s : Lru ν κ) (iter : ν) : Lru ν κ :=
  if preNodeEvict iter then
    let s1 := lruEvictNode s iter
    { s1 with global := moveToTail s1.global iter }
  else s

/-- one bin of `lru_flush`: the safe walk visits the nodes the bin held when the walk began -/
def lruFlushBin (preNodeEvict : ν → Bool) (s : Lru ν κ) (bin : ℕ) : Lru ν κ :=
  (s.bins bin).foldl (lruFlushNode preNodeEvict) s

/-- `lru_flush` -/
def lruFlush (preNodeEvict : ν → Bool) (s : Lru ν κ) : Lru ν κ :=
  (List.range lruNumBins).foldl (lruFlushBin preNodeEvict) s

/-- the nodes `lru_visit_active` hands to its visitor, in order -/
def lruVisitActive (s : Lru ν κ) : List ν :=
  (List.range lruNumBins).flatMap s.bins

/-! ## Runs -/

/-- one call of an LRU operation, under the callers' contract; the label is the node `lru_lookup` returned, and
`none` for the other operations -/
inductive LruStep (compareNodes : κ → κ → Bool) : Lru ν κ → Option ν → Lru ν κ → Prop where
  | addFree (s : Lru ν κ) (node : ν) (fresh : node ∉ s.global) : LruStep compareNodes s none (lruAddFree s node)
  | lookup (s : Lru ν κ) (pre : ν → Bool) (hash : UInt64) (key : κ) (found : ν) (s' : Lru ν κ)
      (h : lruLookup compareNodes pre s hash key = some (found, s')) : LruStep compareNodes s (some found) s'
  | evictNode (s : Lru ν κ) (node : ν) (added : node ∈ s.global) :
      LruStep compareNodes s none (lruEvictNode s node)
  | tryEvictOne (s : Lru ν κ) (pre : ν → Bool) : LruStep compareNodes s none (lruTryEvictOne pre s).2
  | evictOne (s : Lru ν κ) (pre : ν → Bool) (found : ν) (s' : Lru ν κ)
      (h : lruEvictOne pre s = some (found, s')) : LruStep compareNodes s none s'
  | flush (s : Lru ν κ) (pre : ν → Bool) : LruStep compareNodes s none (lruFlush pre s)

/-- some operation takes `s` to `t` -/
def LruStepAny (compareNodes : κ → κ → Bool) (s t : Lru ν κ) : Prop := ∃ e, LruStep compareNodes s e t

/-- the states a run of LRU operations reaches from `lru_init` -/
def LruReachable (compareNodes : κ → κ → Bool) (s : Lru ν κ) : Prop :=
  ∃ s0 : Lru ν κ, Relation.ReflTransGen (LruStepAny compareNodes) (lruInit s0) s

end Xemu.Qemu
