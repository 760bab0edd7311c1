import Mathlib
/-!
Runs of a step that can fail.

A run folds a step `σ → α → Option σ` over a list of inputs (`List.foldlM` in `Option`) and stops at the first step
that fails. The invariant rule: a predicate that every successful step keeps holds at the end of every successful run.
For a step that fails with an error (`Except`), a run succeeds exactly when its first step does and the rest of the
run from there (`foldlM_cons_ok_iff`), and a run over the inputs of several groups in turn is one run over their
concatenation (`foldlM_flatMap`).
-/

namespace Runs

variable {σ α : Type*}

/-- the invariant rule for runs of a step that can fail -/
theorem foldlM_invariant (P : σ → Prop) {f : σ → α → Option σ} (hstep : ∀ s a s', P s → f s a = some s' → P s') :
    ∀ (l : List α) {s s' : σ}, P s → l.foldlM f s = some s' → P s'
  | [], s, s', hs, h => by
    cases h
    exact hs
  | a :: l, s, s', hs, h => by
    rw [List.foldlM_cons] at h
    obtain ⟨s1, h1, h2⟩ := Option.bind_eq_some_iff.mp h
    exact foldlM_invariant P hstep l (hstep s a s1 hs h1) h2

section Monadic

universe u v

variable {ε : Type u} {τ β : Type v} {γ : Type*}

theorem bind_eq_ok_iff {x : Except ε τ} {f : τ → Except ε β} {b : β} :
    x >>= f = .ok b ↔ ∃ a, x = .ok a ∧ f a = .ok b := by
  cases x with
  | error e =>
    constructor
    · intro h
      cases h
    · rintro ⟨a, ha, -⟩
      cases ha
  | ok a =>
    constructor
    · intro h
      exact ⟨a, rfl, h⟩
    · rintro ⟨a', ha, h⟩
      cases ha
      exact h

/-- a run succeeds exactly when its first step does and the rest of the run from there -/
theorem foldlM_cons_ok_iff {f : τ → γ → Except ε τ} {s : τ} {a : γ} {l : List γ} :
    (∃ s', (a :: l).foldlM f s = .ok s') ↔ ∃ s₁, f s a = .ok s₁ ∧ ∃ s', l.foldlM f s₁ = .ok s' := by
  simp only [List.foldlM_cons, bind_eq_ok_iff]
  constructor
  · rintro ⟨s', s₁, h₁, h⟩
    exact ⟨s₁, h₁, s', h⟩
  · rintro ⟨s₁, h₁, s', h⟩
    exact ⟨s', s₁, h₁, h⟩

/-- a run over the inputs of several groups in turn is one run over their concatenation -/
theorem foldlM_flatMap {τ : Type u} {β : Type*} {m : Type u → Type v} [Monad m] [LawfulMonad m] (g : β → List γ)
    (f : τ → γ → m τ) :
    ∀ (ls : List β) (s : τ), (ls.flatMap g).foldlM f s = ls.foldlM (fun s b => (g b).foldlM f s) s
  | [], s => rfl
  | b :: ls, s => by
    rw [List.flatMap_cons, List.foldlM_append, List.foldlM_cons]
    congr 1
    funext s₁
    exact foldlM_flatMap g f ls s₁

end Monadic

end Runs
