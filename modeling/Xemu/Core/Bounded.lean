import Mathlib
/-!
# Fixed-size arrays with checked accesses

A C array of fixed size as a list of that length. `store` is `memcpy(arr + off, src, n)` and `load` reads `n`
elements at `off`; both are `none` where the access runs past the end of the array, so that a model built from
them fails exactly where the C code would read or write out of bounds. `window` is what a load in bounds returns.

* `window_add`, `window_window`: windows split into adjacent windows, and a window of a window is a window.
* `window_store_self`, `window_store_of_le`, `window_store_of_ge`: what a window shows after a store, on the stored
  range and on ranges before and after it.
* `storeAll` runs a list of stores; `storeAll_eq_none_iff`: it fails exactly when one of them runs past the end;
  `window_storeAll_of_apart`: a range no store touches keeps its contents; `window_storeAll_of_mem`: when no two
  stores overlap, each range shows what was stored there.
-/

namespace Bounded

variable {α : Type*}

/-- `memcpy(arr + off, src, src.length)`; `none` where the copy runs past the end of the array -/
def store (arr : List α) (off : ℕ) (src : List α) : Option (List α) :=
  if off + src.length ≤ arr.length then some (arr.take off ++ src ++ arr.drop (off + src.length)) else none

/-- the `n` elements at `off`, as far as the array has them -/
def window (arr : List α) (off n : ℕ) : List α := (arr.drop off).take n

/-- the `n` elements at `off`; `none` where they run past the end of the array -/
def load (arr : List α) (off n : ℕ) : Option (List α) :=
  if off + n ≤ arr.length then some (window arr off n) else none

theorem store_eq_none_iff {arr : List α} {off : ℕ} {src : List α} :
    store arr off src = none ↔ arr.length < off + src.length := by
  unfold store
  split_ifs with h
  · simp only [false_iff, Nat.not_lt]
    exact h
  · simp only [true_iff]
    omega

theorem store_eq_some {arr : List α} {off : ℕ} {src : List α} (h : off + src.length ≤ arr.length) :
    store arr off src = some (arr.take off ++ src ++ arr.drop (off + src.length)) := by
  rw [store, if_pos h]

/-- copying nothing changes nothing -/
theorem store_nil {arr : List α} {off : ℕ} (h : off ≤ arr.length) : store arr off [] = some arr := by
  rw [store_eq_some (by simpa using h), List.length_nil, Nat.add_zero, List.append_nil, List.take_append_drop]

theorem load_eq_some {arr : List α} {off n : ℕ} (h : off + n ≤ arr.length) :
    load arr off n = some (window arr off n) := by
  rw [load, if_pos h]

theorem length_store {arr arr' : List α} {off : ℕ} {src : List α} (h : store arr off src = some arr') :
    arr'.length = arr.length := by
  unfold store at h
  split_ifs at h with hle
  cases h
  simp only [List.length_append, List.length_take, List.length_drop]
  omega

theorem length_window {arr : List α} {off n : ℕ} (h : off + n ≤ arr.length) : (window arr off n).length = n := by
  simp only [window, List.length_take, List.length_drop]
  omega

/-- a window splits into two adjacent windows -/
theorem window_add (arr : List α) (off a b : ℕ) :
    window arr off (a + b) = window arr off a ++ window arr (off + a) b := by
  rw [window, List.take_add, List.drop_drop, window, window]

/-- a window of a window is a window of the array -/
theorem window_window (arr : List α) {off n off' n' : ℕ} (h : off' + n' ≤ n) :
    window (window arr off n) off' n' = window arr (off + off') n' := by
  simp only [window, List.drop_take, List.drop_drop, List.take_take]
  rw [Nat.min_eq_left (by omega)]

/-- the stored range shows what was stored -/
theorem window_store_self {arr arr' : List α} {off : ℕ} {src : List α} (h : store arr off src = some arr') :
    window arr' off src.length = src := by
  unfold store at h
  split_ifs at h with hle
  cases h
  have htake : (arr.take off).length = off := by
    rw [List.length_take]
    omega
  simp [window, htake]

/-- a range that ends before the stored one keeps its contents -/
theorem window_store_of_le {arr arr' : List α} {off : ℕ} {src : List α} (h : store arr off src = some arr')
    {off' n : ℕ} (hle : off' + n ≤ off) : window arr' off' n = window arr off' n := by
  unfold store at h
  split_ifs at h with hst
  cases h
  have htake : (arr.take off).length = off := by
    rw [List.length_take]
    omega
  rw [window, List.append_assoc, List.drop_append_of_le_length (by omega),
    List.take_append_of_le_length (by simp only [List.length_drop]; omega), List.drop_take, List.take_take,
    Nat.min_eq_left (by omega), window]

/-- a range that starts after the stored one keeps its contents -/
theorem window_store_of_ge {arr arr' : List α} {off : ℕ} {src : List α} (h : store arr off src = some arr')
    {off' n : ℕ} (hge : off + src.length ≤ off') : window arr' off' n = window arr off' n := by
  unfold store at h
  split_ifs at h with hst
  cases h
  have hpre : (arr.take off ++ src).length = off + src.length := by
    simp only [List.length_append, List.length_take]
    omega
  rw [window, List.drop_append, hpre, List.drop_eq_nil_of_le (by omega), List.nil_append, List.drop_drop,
    Nat.add_sub_cancel' hge, window]

/-- the stores `(offset, elements)` one after the other -/
def storeAll (arr : List α) : List (ℕ × List α) → Option (List α)
  | [] => some arr
  | w :: ws => (store arr w.1 w.2).bind fun arr => storeAll arr ws

/-- two stores that touch no common element -/
def Apart (w w' : ℕ × List α) : Prop := w.1 + w.2.length ≤ w'.1 ∨ w'.1 + w'.2.length ≤ w.1

/-- a store that ends where or before another begins -/
def StoreBefore (w w' : ℕ × List α) : Prop := w.1 + w.2.length ≤ w'.1

instance : Trans (@StoreBefore α) (@StoreBefore α) (@StoreBefore α) :=
  ⟨fun h₁ h₂ => Nat.le_trans h₁ (Nat.le_trans (Nat.le_add_right _ _) h₂)⟩

/-- stores in order, each ending where or before the next begins, are pairwise apart: it suffices to check
neighbours -/
theorem pairwise_apart_of_isChain {ws : List (ℕ × List α)} (h : ws.IsChain StoreBefore) : ws.Pairwise Apart :=
  (List.isChain_iff_pairwise.mp h).imp Or.inl

theorem storeAll_cons {arr arr' : List α} {w : ℕ × List α} {ws : List (ℕ × List α)}
    (h : storeAll arr (w :: ws) = some arr') : ∃ mid, store arr w.1 w.2 = some mid ∧ storeAll mid ws = some arr' := by
  simp only [storeAll, Option.bind_eq_some_iff] at h
  exact h

theorem storeAll_append {arr : List α} (ws₁ ws₂ : List (ℕ × List α)) :
    storeAll arr (ws₁ ++ ws₂) = (storeAll arr ws₁).bind fun arr => storeAll arr ws₂ := by
  induction ws₁ generalizing arr with
  | nil => rfl
  | cons w ws₁ ih =>
    simp only [List.cons_append, storeAll, Option.bind_assoc]
    congr 1
    funext mid
    exact ih

theorem length_storeAll {arr arr' : List α} :
    ∀ {ws : List (ℕ × List α)}, storeAll arr ws = some arr' → arr'.length = arr.length
  | [], h => by
    simp only [storeAll, Option.some.injEq] at h
    rw [h]
  | _ :: _, h => by
    obtain ⟨mid, hmid, hrest⟩ := storeAll_cons h
    rw [length_storeAll hrest, length_store hmid]

/-- the stores fail exactly when one of them runs past the end of the array -/
theorem storeAll_eq_none_iff {arr : List α} :
    ∀ {ws : List (ℕ × List α)}, storeAll arr ws = none ↔ ∃ w ∈ ws, arr.length < w.1 + w.2.length
  | [] => by simp [storeAll]
  | w :: ws => by
    simp only [storeAll, List.mem_cons, exists_eq_or_imp]
    cases hst : store arr w.1 w.2 with
    | none =>
      simp only [Option.bind_none, true_iff]
      exact Or.inl (store_eq_none_iff.1 hst)
    | some mid =>
      simp only [Option.bind_some]
      rw [storeAll_eq_none_iff, length_store hst]
      have hfit : ¬arr.length < w.1 + w.2.length := fun h => by
        rw [← store_eq_none_iff] at h
        rw [h] at hst
        cases hst
      simp [hfit]

/-- stores that all fit succeed -/
theorem storeAll_eq_some_of_fit {arr : List α} {ws : List (ℕ × List α)}
    (h : ∀ w ∈ ws, w.1 + w.2.length ≤ arr.length) : ∃ arr', storeAll arr ws = some arr' := by
  rw [← Option.ne_none_iff_exists', Ne, storeAll_eq_none_iff]
  rintro ⟨w, hw, hlt⟩
  exact absurd (h w hw) (Nat.not_le.2 hlt)

/-- a range that no store touches keeps its contents -/
theorem window_storeAll_of_apart {arr arr' : List α} {off n : ℕ} :
    ∀ {ws : List (ℕ × List α)}, (∀ w ∈ ws, w.1 + w.2.length ≤ off ∨ off + n ≤ w.1) →
      storeAll arr ws = some arr' → window arr' off n = window arr off n
  | [], _, h => by
    simp only [storeAll, Option.some.injEq] at h
    rw [h]
  | w :: ws, hws, h => by
    obtain ⟨mid, hmid, hrest⟩ := storeAll_cons h
    rw [window_storeAll_of_apart (fun w' hw' => hws w' (List.mem_cons_of_mem w hw')) hrest]
    rcases hws w List.mem_cons_self with hbefore | hafter
    · exact window_store_of_ge hmid hbefore
    · exact window_store_of_le hmid hafter

/-- when no two stores overlap, each range shows what was stored there -/
theorem window_storeAll_of_mem {arr arr' : List α} {w : ℕ × List α} :
    ∀ {ws : List (ℕ × List α)}, ws.Pairwise Apart → w ∈ ws → storeAll arr ws = some arr' →
      window arr' w.1 w.2.length = w.2
  | w' :: ws, hp, hw, h => by
    obtain ⟨mid, hmid, hrest⟩ := storeAll_cons h
    rw [List.pairwise_cons] at hp
    rcases List.mem_cons.1 hw with rfl | hw
    · have hapart : ∀ w'' ∈ ws, w''.1 + w''.2.length ≤ w.1 ∨ w.1 + w.2.length ≤ w''.1 :=
        fun w'' hw'' => (hp.1 w'' hw'').symm
      rw [window_storeAll_of_apart hapart hrest]
      exact window_store_self hmid
    · exact window_storeAll_of_mem hp.2 hw hrest

end Bounded
