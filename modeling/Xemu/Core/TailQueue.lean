import Mathlib

/-!
Tail queues as lists, head first.

An intrusive tail queue (a head with first/last pointers, each element with a next pointer and a back link) is
modelled by the list of its elements in forward order. Removing an element is `List.erase`, inserting at the head
is `List.cons`, inserting at the tail is appending a singleton, and a reverse walk that stops at the first element
satisfying a test is `lastWhere`. On a list without duplicates these are exactly the pointer operations.

Results:
- `moveToHead` and `moveToTail` (remove, then insert) permute a list that holds the element, so they keep it free
  of duplicates and keep its members;
- `lastWhere` finds the last element satisfying the test, and `lastWhere_min` says that on a list whose selected
  elements are ordered by a relation, the element found is below every other element that passes the test;
- a forward walk (`List.find?`) finds the one element that passes a test no two elements pass together
  (`find?_eq_of_unique`).
-/

namespace TailQueue

variable {α : Type}

/-! ## Moving an element to one end -/

section Move

variable [DecidableEq α]

/-- remove `x`, then insert it at the head -/
def moveToHead (l : List α) (x : α) : List α := x :: l.erase x

/-- remove `x`, then insert it at the tail -/
def moveToTail (l : List α) (x : α) : List α := l.erase x ++ [x]

theorem moveToHead_perm {l : List α} {x : α} (h : x ∈ l) : (moveToHead l x).Perm l :=
  (List.perm_cons_erase h).symm

theorem moveToTail_perm {l : List α} {x : α} (h : x ∈ l) : (moveToTail l x).Perm l := by
  unfold moveToTail
  exact (List.perm_append_singleton x _).trans (List.perm_cons_erase h).symm

@[simp] theorem mem_moveToHead {l : List α} {x y : α} (h : x ∈ l) : y ∈ moveToHead l x ↔ y ∈ l :=
  (moveToHead_perm h).mem_iff

@[simp] theorem mem_moveToTail {l : List α} {x y : α} (h : x ∈ l) : y ∈ moveToTail l x ↔ y ∈ l :=
  (moveToTail_perm h).mem_iff

theorem nodup_moveToHead {l : List α} {x : α} (h : x ∈ l) (hl : l.Nodup) : (moveToHead l x).Nodup :=
  (moveToHead_perm h).nodup_iff.2 hl

theorem length_moveToHead {l : List α} {x : α} (h : x ∈ l) : (moveToHead l x).length = l.length :=
  (moveToHead_perm h).length_eq

/-- moving an element that the filter drops changes nothing the filter keeps -/
theorem filter_moveToTail_of_not {l : List α} {x : α} (p : α → Bool) (hx : p x = false) :
    (moveToTail l x).filter p = l.filter p := by
  have hx' : x ∉ l.filter p := fun h => by simp [(List.mem_filter.1 h).2] at hx
  simp [moveToTail, List.filter_append, hx, ← List.erase_filter, List.erase_of_not_mem hx']

/-- flipping the flag of one element of a list without duplicates changes the number of flagged elements by the
difference of the two flag values -/
theorem countP_update {l : List α} {f : α → Bool} {x : α} (v : Bool) (hl : l.Nodup) (hx : x ∈ l) :
    l.countP (Function.update f x v) + (if f x then 1 else 0) = l.countP f + (if v then 1 else 0) := by
  induction l with
  | nil => simp at hx
  | cons y l ih =>
    obtain ⟨hy, hl'⟩ := List.nodup_cons.1 hl
    by_cases hxy : x = y
    · subst hxy
      have hagree : l.countP (Function.update f x v) = l.countP f :=
        List.countP_congr fun z hz => by
          have hzx : z ≠ x := fun e => hy (e ▸ hz)
          rw [Function.update_of_ne hzx]
      simp only [List.countP_cons, Function.update_self, hagree]
      cases v <;> cases f x <;> simp
    · have hx' : x ∈ l := (List.mem_cons.1 hx).resolve_left hxy
      have := ih hl' hx'
      simp only [List.countP_cons, Function.update_of_ne (Ne.symm hxy)]
      omega

end Move

/-! ## Reverse search -/

/-- the walk from the tail towards the head that stops at the first element satisfying `p` -/
def lastWhere (p : α → Bool) (l : List α) : Option α := l.reverse.find? p

theorem lastWhere_some {p : α → Bool} {l : List α} {x : α} (h : lastWhere p l = some x) : x ∈ l ∧ p x = true :=
  ⟨List.mem_reverse.1 (List.mem_of_find?_eq_some h), List.find?_some h⟩

theorem lastWhere_none {p : α → Bool} {l : List α} : lastWhere p l = none ↔ ∀ y ∈ l, p y = false := by
  simp [lastWhere, List.find?_eq_none]

theorem lastWhere_isSome {p : α → Bool} {l : List α} {y : α} (hy : y ∈ l) (hp : p y = true) :
    ∃ x, lastWhere p l = some x := by
  cases h : lastWhere p l with
  | some x => exact ⟨x, rfl⟩
  | none => exact absurd ((lastWhere_none.1 h) y hy) (by simp [hp])

/-- the element found is at the end of the list, after every other element that passes the test -/
theorem lastWhere_split {p : α → Bool} {l : List α} {x : α} (h : lastWhere p l = some x) :
    ∃ a b, l = a ++ x :: b ∧ ∀ y ∈ b, p y = false := by
  obtain ⟨hpx, a, b, hab, hb⟩ := List.find?_eq_some_iff_append.1 h
  refine ⟨b.reverse, a.reverse, ?_, fun y hy => by simpa using hb y (List.mem_reverse.1 hy)⟩
  have := congrArg List.reverse hab
  simpa using this

/-- On a list whose elements selected by `q` are pairwise related by `r` (earlier before later), the reverse
search for a test that implies `q` finds an element that every other passing element is related to. -/
theorem lastWhere_min {p q : α → Bool} {r : α → α → Prop} {l : List α} {x y : α}
    (hpq : ∀ z, p z = true → q z = true) (hs : (l.filter q).Pairwise r) (h : lastWhere p l = some x)
    (hy : y ∈ l) (hpy : p y = true) (hne : y ≠ x) : r y x := by
  obtain ⟨a, b, rfl, hb⟩ := lastWhere_split h
  have hpx := (lastWhere_some h).2
  have hya : y ∈ a := by
    rcases List.mem_append.1 hy with hya | hyb
    · exact hya
    · rcases List.mem_cons.1 hyb with rfl | hyb
      · exact absurd rfl hne
      · exact absurd (hb y hyb) (by simp [hpy])
  rw [List.filter_append, List.pairwise_append] at hs
  refine hs.2.2 y (List.mem_filter.2 ⟨hya, hpq y hpy⟩) x ?_
  simp [hpq x hpx]

/-! ## Forward search -/

/-- on a list where no two elements both pass the test, the walk from the head finds the one that passes -/
theorem find?_eq_of_unique {p : α → Bool} {l : List α} (hl : l.Pairwise fun a b => ¬(p a = true ∧ p b = true))
    {x : α} (hx : x ∈ l) (hp : p x = true) : l.find? p = some x := by
  induction l with
  | nil => cases hx
  | cons y l ih =>
    rw [List.pairwise_cons] at hl
    rcases List.mem_cons.mp hx with rfl | hx
    · exact List.find?_cons_of_pos hp
    · -- the head fails the test, since `x` after it passes
      have hy : ¬p y = true := fun hy => hl.1 x hx ⟨hy, hp⟩
      rw [List.find?_cons_of_neg hy]
      exact ih hl.2 hx

end TailQueue
