import Mathlib
/-!
# The 16-bit one's-complement checksum

The Internet checksum (RFC 1071) over a byte string: the string read as 16-bit big-endian words, an odd last byte
padded with a zero byte, summed, the carries folded back in (`fold`), and the result complemented. Sums are kept
as natural numbers here; a caller that adds in a fixed-width register states when its sum cannot wrap.

* `fold_lt`, `fold_mod`: the folded sum is a 16-bit value congruent to the sum modulo 0xFFFF.
* `fold_add_complement`: adding the complement of the folded sum to the sum folds to 0xFFFF, the check a receiver
  makes.
* `sum_words_append`: the words of a string cut at an even offset are the words of the two parts;
  `sum_words_pair_at`: a word at an even offset adds its value to the sum.
-/

namespace OnesComplement

/-- the 16-bit big-endian words of a byte string, an odd last byte padded with a zero byte -/
def words : List ℕ → List ℕ
  | [] => []
  | [a] => [a * 256]
  | a :: b :: t => (a * 256 + b) :: words t

/-- at most `n` rounds of `while (sum >> 16) sum = (sum & 0xFFFF) + (sum >> 16)` -/
def foldRounds : ℕ → ℕ → ℕ
  | 0, s => s
  | n + 1, s => if s >>> 16 = 0 then s else foldRounds n ((s &&& 0xFFFF) + (s >>> 16))

/-- the end-around carry, `while (sum >> 16) sum = (sum & 0xFFFF) + (sum >> 16)`: a round lowers any sum of 17
bits or more, so `s` rounds are enough -/
def fold (s : ℕ) : ℕ := foldRounds s s

/-- the complement of a 16-bit value, `~x` as a 16-bit word -/
def complement (x : ℕ) : ℕ := 0xFFFF - x

theorem land_ffff (s : ℕ) : s &&& 0xFFFF = s % 65536 :=
  Nat.and_two_pow_sub_one_eq_mod s 16

theorem shiftRight_16 (s : ℕ) : s >>> 16 = s / 65536 :=
  Nat.shiftRight_eq_div_pow s 16

theorem fold_step (s : ℕ) : (s &&& 0xFFFF) + (s >>> 16) = s % 65536 + s / 65536 := by
  rw [land_ffff, shiftRight_16]

theorem foldRounds_of_lt {s : ℕ} (h : s < 65536) : ∀ n, foldRounds n s = s
  | 0 => rfl
  | n + 1 => by
    rw [foldRounds, if_pos]
    rw [shiftRight_16]
    omega

/-- a round on a sum of 17 bits or more -/
theorem foldRounds_succ_of_ge {s : ℕ} (h : 65536 ≤ s) (n : ℕ) :
    foldRounds (n + 1) s = foldRounds n (s % 65536 + s / 65536) := by
  rw [foldRounds, if_neg, fold_step]
  rw [shiftRight_16]
  omega

/-- once there are as many rounds as the sum, more rounds change nothing -/
theorem foldRounds_stable : ∀ {n m s : ℕ}, s ≤ n → s ≤ m → foldRounds n s = foldRounds m s
  | 0, m, s, hn, _ => by
    rw [Nat.le_zero.1 hn, foldRounds_of_lt (by decide), foldRounds_of_lt (by decide)]
  | n + 1, m, s, hn, hm => by
    by_cases h : s < 65536
    · rw [foldRounds_of_lt h, foldRounds_of_lt h]
    · obtain ⟨m, rfl⟩ : ∃ m', m = m' + 1 := ⟨m - 1, by omega⟩
      rw [foldRounds_succ_of_ge (by omega), foldRounds_succ_of_ge (by omega)]
      exact foldRounds_stable (by omega) (by omega)

theorem fold_of_lt {s : ℕ} (h : s < 65536) : fold s = s :=
  foldRounds_of_lt h s

theorem fold_of_ge {s : ℕ} (h : 65536 ≤ s) : fold s = fold (s % 65536 + s / 65536) := by
  obtain ⟨n, hn⟩ : ∃ n, s = n + 1 := ⟨s - 1, by omega⟩
  rw [fold, fold, hn, foldRounds_succ_of_ge (by omega), ← hn]
  exact foldRounds_stable (by omega) le_rfl

/-- the folded sum is a 16-bit value -/
theorem fold_lt (s : ℕ) : fold s < 65536 := by
  induction s using Nat.strong_induction_on with
  | _ s ih =>
    by_cases h : s < 65536
    · rw [fold_of_lt h]
      exact h
    · rw [fold_of_ge (by omega)]
      exact ih _ (by omega)

/-- folding keeps the sum modulo 0xFFFF, since 0x10000 is 1 modulo 0xFFFF -/
theorem fold_mod (s : ℕ) : fold s % 65535 = s % 65535 := by
  induction s using Nat.strong_induction_on with
  | _ s ih =>
    by_cases h : s < 65536
    · rw [fold_of_lt h]
    · rw [fold_of_ge (by omega), ih _ (by omega)]
      omega

theorem fold_eq_zero_iff (s : ℕ) : fold s = 0 ↔ s = 0 := by
  induction s using Nat.strong_induction_on with
  | _ s ih =>
    by_cases h : s < 65536
    · rw [fold_of_lt h]
    · rw [fold_of_ge (by omega), ih _ (by omega)]
      omega

/-- a nonzero sum divisible by 0xFFFF folds to 0xFFFF -/
theorem fold_eq_of_mod {s : ℕ} (hs : s ≠ 0) (hmod : s % 65535 = 0) : fold s = 0xFFFF := by
  have hlt := fold_lt s
  have hm := fold_mod s
  have hne : fold s ≠ 0 := fun h => hs ((fold_eq_zero_iff s).1 h)
  omega

/-- the receiver's check: the sum with the complement of its folded value added folds to 0xFFFF -/
theorem fold_add_complement (s : ℕ) : fold (s + complement (fold s)) = 0xFFFF := by
  have hlt := fold_lt s
  have hm := fold_mod s
  apply fold_eq_of_mod
  · rw [complement]
    intro h
    have h0 : s = 0 := by omega
    subst h0
    rw [fold_of_lt (by decide)] at h
    omega
  · rw [complement]
    omega

@[simp]
theorem words_nil : words [] = [] := rfl

theorem words_cons_cons (a b : ℕ) (t : List ℕ) : words (a :: b :: t) = (a * 256 + b) :: words t := rfl

/-- cutting at an even offset: the words of the whole are those of the two parts -/
theorem words_append {l₁ : List ℕ} (h : l₁.length % 2 = 0) (l₂ : List ℕ) :
    words (l₁ ++ l₂) = words l₁ ++ words l₂ := by
  induction l₁ using words.induct with
  | case1 => rfl
  | case2 a => simp at h
  | case3 a b t ih =>
    simp only [List.cons_append, words_cons_cons, List.cons_append]
    rw [ih (by simp only [List.length_cons] at h; omega)]

theorem sum_words_append {l₁ : List ℕ} (h : l₁.length % 2 = 0) (l₂ : List ℕ) :
    (words (l₁ ++ l₂)).sum = (words l₁).sum + (words l₂).sum := by
  rw [words_append h, List.sum_append]

theorem sum_words_pair (a b : ℕ) : (words [a, b]).sum = a * 256 + b := by
  simp [words]

/-- a word at an even offset adds its value to the sum: the sum with `a`, `b` there is the sum with zeros there
and the word -/
theorem sum_words_pair_at {l₁ : List ℕ} (h : l₁.length % 2 = 0) (a b : ℕ) (l₂ : List ℕ) :
    (words (l₁ ++ [a, b] ++ l₂)).sum = (words (l₁ ++ [0, 0] ++ l₂)).sum + (a * 256 + b) := by
  have hab : (l₁ ++ [a, b]).length % 2 = 0 := by
    rw [List.length_append]
    simpa using h
  have h00 : (l₁ ++ [0, 0]).length % 2 = 0 := by
    rw [List.length_append]
    simpa using h
  rw [sum_words_append hab, sum_words_append h00, sum_words_append h, sum_words_append h, sum_words_pair,
    sum_words_pair]
  omega

end OnesComplement
