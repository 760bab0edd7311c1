import Mathlib
/-!
# Byte copies

A byte buffer as a function from offsets to bytes, `memcpy` on such buffers, and a sequence of copies of one length
from one source into one destination. The lemmas read one byte of the result of a sequence of copies:

* `copyAll_of_not_covers`: no copy covers the byte, so it keeps its old value;
* `copyAll_of_agree`: every copy that covers the byte writes the same value;
* `copyAll_of_mem`: the copies have pairwise disjoint destinations, so each byte holds what its one copy wrote.

Copies whose bytes go through an address map are `scatter` (writes) and `gather` (reads); `memcpy` is either one
with consecutive addresses, and a copy split into chunks is the concatenation of the chunks' copies
(`scatter_add`, `gather_add`). Through distinct addresses, reading back what was written gives the source
(`gather_scatter`); around a ring of `size` bytes the addresses of at most `size` bytes are distinct
(`ringAddr_injOn`).

Stores of single values (`applyStores`) leave an offset none of them names as it was, and where they name distinct
offsets each offset holds its one stored value (`applyStores_of_mem`).
-/

namespace ByteCopy

variable {β : Type}

/-- `memcpy(dst + d, src + s, n)` on buffers given as functions from offsets to bytes -/
def memcpy (dst : ℕ → β) (d : ℕ) (src : ℕ → β) (s n : ℕ) : ℕ → β :=
  fun j => if d ≤ j ∧ j < d + n then src (s + (j - d)) else dst j

theorem memcpy_of_covers {dst src : ℕ → β} {d s n j : ℕ} (h1 : d ≤ j) (h2 : j < d + n) :
    memcpy dst d src s n j = src (s + (j - d)) := by
  simp [memcpy, h1, h2]

theorem memcpy_of_not_covers {dst src : ℕ → β} {d s n j : ℕ} (h : ¬(d ≤ j ∧ j < d + n)) :
    memcpy dst d src s n j = dst j := by
  simp only [memcpy, if_neg h]

/-- copies of `n` bytes from `src`, one for each (destination, source) offset pair, in order -/
def copyAll (n : ℕ) (src dst : ℕ → β) (l : List (ℕ × ℕ)) : ℕ → β :=
  l.foldl (fun b c => memcpy b c.1 src c.2 n) dst

section CopyAll

variable {n : ℕ} {src dst : ℕ → β}

@[simp]
theorem copyAll_nil : copyAll n src dst [] = dst := rfl

@[simp]
theorem copyAll_cons (c : ℕ × ℕ) (l : List (ℕ × ℕ)) :
    copyAll n src dst (c :: l) = copyAll n src (memcpy dst c.1 src c.2 n) l := rfl

theorem copyAll_append (l₁ l₂ : List (ℕ × ℕ)) :
    copyAll n src dst (l₁ ++ l₂) = copyAll n src (copyAll n src dst l₁) l₂ := by
  simp [copyAll, List.foldl_append]

/-- a byte that no copy covers keeps its value -/
theorem copyAll_of_not_covers {l : List (ℕ × ℕ)} {j : ℕ} (h : ∀ c ∈ l, ¬(c.1 ≤ j ∧ j < c.1 + n)) :
    copyAll n src dst l j = dst j := by
  induction l generalizing dst with
  | nil => rfl
  | cons c l ih =>
    rw [copyAll_cons, ih (fun c' hc' => h c' (List.mem_cons_of_mem c hc')),
      memcpy_of_not_covers (h c List.mem_cons_self)]

/-- a byte that starts as `v` and that every covering copy sets to `v` ends as `v` -/
theorem copyAll_of_agree {l : List (ℕ × ℕ)} {j : ℕ} {v : β} (hdst : dst j = v)
    (h : ∀ c ∈ l, c.1 ≤ j → j < c.1 + n → src (c.2 + (j - c.1)) = v) : copyAll n src dst l j = v := by
  induction l generalizing dst with
  | nil => exact hdst
  | cons c l ih =>
    rw [copyAll_cons]
    refine ih ?_ (fun c' hc' => h c' (List.mem_cons_of_mem c hc'))
    by_cases hcov : c.1 ≤ j ∧ j < c.1 + n
    · rw [memcpy_of_covers hcov.1 hcov.2]
      exact h c List.mem_cons_self hcov.1 hcov.2
    · rw [memcpy_of_not_covers hcov, hdst]

/-- destinations of `n` bytes that do not overlap -/
def Apart (n : ℕ) (c c' : ℕ × ℕ) : Prop := c.1 + n ≤ c'.1 ∨ c'.1 + n ≤ c.1

/-- with pairwise disjoint destinations, every copied byte survives the whole sequence -/
theorem copyAll_of_mem {l : List (ℕ × ℕ)} (hl : l.Pairwise (Apart n)) {c : ℕ × ℕ} (hc : c ∈ l) {t : ℕ}
    (ht : t < n) : copyAll n src dst l (c.1 + t) = src (c.2 + t) := by
  induction l generalizing dst with
  | nil => cases hc
  | cons c₀ l ih =>
    rw [List.pairwise_cons] at hl
    rw [copyAll_cons]
    rcases List.mem_cons.mp hc with rfl | hc
    · -- the later copies all miss the bytes of this one
      have hmiss : ∀ c' ∈ l, ¬(c'.1 ≤ c.1 + t ∧ c.1 + t < c'.1 + n) := by
        intro c' hc' hcov
        rcases hl.1 c' hc' with h | h <;> omega
      rw [copyAll_of_not_covers hmiss, memcpy_of_covers (by omega) (by omega), Nat.add_sub_cancel_left]
    · exact ih hl.2 hc

end CopyAll

/-! ## Copies through an address map

A copy whose bytes do not go to consecutive addresses (around a ring, through a page table) is a sequence of
single-byte writes, byte `j` to address `addr j`, or of single-byte reads from there. Where two bytes go to one
address, the later one wins. -/

/-- `len` single-byte writes in order, byte `s + j` of `src` going to address `addr j` of `mem` -/
def scatter {α : Type} [DecidableEq α] (addr : ℕ → α) (src : ℕ → β) (s : ℕ) : ℕ → (α → β) → α → β
  | 0, mem => mem
  | len + 1, mem => Function.update (scatter addr src s len mem) (addr len) (src (s + len))

/-- `len` single-byte reads into `dst` from offset `d`, byte `d + j` read from address `addr j` of `mem` -/
def gather {α : Type} (addr : ℕ → α) (mem : α → β) (d len : ℕ) (dst : ℕ → β) : ℕ → β :=
  fun i => if d ≤ i ∧ i < d + len then mem (addr (i - d)) else dst i

section Gather

variable {α : Type} {addr addr' : ℕ → α} {mem : α → β} {dst : ℕ → β} {d len : ℕ}

theorem gather_of_lt {j : ℕ} (hj : j < len) : gather addr mem d len dst (d + j) = mem (addr j) := by
  simp only [gather, if_pos (⟨Nat.le_add_right d j, Nat.add_lt_add_left hj d⟩ : d ≤ d + j ∧ d + j < d + len),
    Nat.add_sub_cancel_left]

theorem gather_of_not_covers {i : ℕ} (h : ¬(d ≤ i ∧ i < d + len)) : gather addr mem d len dst i = dst i := by
  simp only [gather, if_neg h]

@[simp]
theorem gather_zero : gather addr mem d 0 dst = dst := by
  funext i
  exact gather_of_not_covers (by omega)

/-- two runs of reads, the second taking up the addresses and the destination where the first stopped -/
theorem gather_add (a b : ℕ) :
    gather addr mem d (a + b) dst = gather (fun j => addr (a + j)) mem (d + a) b (gather addr mem d a dst) := by
  funext i
  unfold gather
  by_cases h1 : d ≤ i ∧ i < d + a
  · rw [if_pos ⟨h1.1, by omega⟩, if_neg (by omega), if_pos h1]
  · by_cases h2 : d + a ≤ i ∧ i < d + a + b
    · rw [if_pos ⟨by omega, by omega⟩, if_pos h2]
      show mem (addr (i - d)) = mem (addr (a + (i - (d + a))))
      rw [show a + (i - (d + a)) = i - d by omega]
    · rw [if_neg (by omega), if_neg h2, if_neg h1]

theorem gather_congr (h : ∀ j < len, addr j = addr' j) : gather addr mem d len dst = gather addr' mem d len dst := by
  funext i
  unfold gather
  split_ifs with hi
  · rw [h (i - d) (by omega)]
  · rfl

end Gather

section Scatter

variable {α : Type} [DecidableEq α] {addr addr' : ℕ → α} {src dst : ℕ → β} {mem : α → β} {s d len : ℕ}

@[simp]
theorem scatter_zero : scatter addr src s 0 mem = mem := rfl

theorem scatter_succ :
    scatter addr src s (len + 1) mem = Function.update (scatter addr src s len mem) (addr len) (src (s + len)) :=
  rfl

/-- two runs of writes, the second taking up the addresses and the source where the first stopped -/
theorem scatter_add (a b : ℕ) :
    scatter addr src s (a + b) mem = scatter (fun j => addr (a + j)) src (s + a) b (scatter addr src s a mem) := by
  induction b with
  | zero => rfl
  | succ b ih => rw [← Nat.add_assoc, scatter_succ, ih, scatter_succ, Nat.add_assoc s a b]

/-- the writes read the address map at their own bytes only -/
theorem scatter_congr (h : ∀ j < len, addr j = addr' j) : scatter addr src s len mem = scatter addr' src s len mem := by
  induction len with
  | zero => rfl
  | succ len ih =>
    rw [scatter_succ, scatter_succ, ih (fun j hj => h j (by omega)), h len (by omega)]

/-- an address no byte goes to keeps its value -/
theorem scatter_of_ne {a : α} (h : ∀ j < len, addr j ≠ a) : scatter addr src s len mem a = mem a := by
  induction len with
  | zero => rfl
  | succ len ih =>
    rw [scatter_succ, Function.update_of_ne (h len (by omega)).symm]
    exact ih (fun j hj => h j (by omega))

/-- with distinct addresses every byte lands at its own address -/
theorem scatter_of_injOn (hinj : ∀ i < len, ∀ k < len, addr i = addr k → i = k) {j : ℕ} (hj : j < len) :
    scatter addr src s len mem (addr j) = src (s + j) := by
  induction len with
  | zero => omega
  | succ len ih =>
    rw [scatter_succ]
    by_cases hlast : j = len
    · rw [hlast, Function.update_self]
    · -- a byte before the last one: the last write goes elsewhere
      have hne : addr j ≠ addr len := fun h => hlast (hinj j hj len (by omega) h)
      rw [Function.update_of_ne hne]
      exact ih (fun i hi k hk => hinj i (by omega) k (by omega)) (by omega)

/-- an address that every write to it sets to `v`, and that some byte goes to, ends as `v` -/
theorem scatter_of_agree {a : α} {v : β} (hsome : ∃ j < len, addr j = a) (h : ∀ j < len, addr j = a → src (s + j) = v) :
    scatter addr src s len mem a = v := by
  induction len with
  | zero => obtain ⟨j, hj, _⟩ := hsome; omega
  | succ len ih =>
    rw [scatter_succ]
    by_cases hlast : addr len = a
    · rw [← hlast, Function.update_self, h len (by omega) hlast]
    · rw [Function.update_of_ne (Ne.symm hlast)]
      -- the byte that goes to `a` is an earlier one
      obtain ⟨j, hj, hja⟩ := hsome
      have hjlt : j < len := by
        rcases Nat.lt_or_ge j len with hlt | hge
        · exact hlt
        · have hjl : j = len := by omega
          rw [hjl] at hja
          exact absurd hja hlast
      exact ih ⟨j, hjlt, hja⟩ (fun i hi => h i (by omega))

theorem memcpy_succ {n : ℕ} :
    memcpy dst d src s (n + 1) = Function.update (memcpy dst d src s n) (d + n) (src (s + n)) := by
  funext i
  by_cases hi : i = d + n
  · rw [hi, Function.update_self, memcpy_of_covers (by omega) (by omega), Nat.add_sub_cancel_left]
  · rw [Function.update_of_ne hi]
    unfold memcpy
    by_cases hcov : d ≤ i ∧ i < d + n
    · rw [if_pos ⟨hcov.1, by omega⟩, if_pos hcov]
    · rw [if_neg (by omega), if_neg hcov]

/-- `memcpy` is the scatter to consecutive addresses -/
theorem memcpy_eq_scatter {n : ℕ} : memcpy dst d src s n = scatter (fun j => d + j) src s n dst := by
  induction n with
  | zero =>
    funext i
    exact memcpy_of_not_covers (by omega)
  | succ n ih => rw [memcpy_succ, ih, scatter_succ]

/-- `memcpy` is the gather from consecutive addresses -/
theorem memcpy_eq_gather {n : ℕ} : memcpy dst d src s n = gather (fun j => s + j) src d n dst := rfl

/-- reading back through the same distinct addresses what a scatter wrote gives its source -/
theorem gather_scatter (hinj : ∀ i < len, ∀ k < len, addr i = addr k → i = k) {j : ℕ} (hj : j < len) :
    gather addr (scatter addr src s len mem) d len dst (d + j) = src (s + j) := by
  rw [gather_of_lt hj, scatter_of_injOn hinj hj]

/-- scattering a buffer through distinct addresses and gathering it back in place leaves it as it was -/
theorem gather_scatter_self (hinj : ∀ i < len, ∀ k < len, addr i = addr k → i = k) :
    gather addr (scatter addr src 0 len mem) 0 len src = src := by
  funext i
  by_cases hi : i < len
  · rw [show i = 0 + i from (Nat.zero_add i).symm, gather_scatter hinj hi]
  · exact gather_of_not_covers (by omega)

end Scatter

/-! ## Rings

Byte `j` of a copy into a ring of `size` bytes at `base`, starting `off` bytes in, goes to `ringAddr base size off j`.
-/

/-- the address of byte `j` of a copy into the ring of `size` bytes at `base`, started `off` bytes in -/
def ringAddr (base size off j : ℕ) : ℕ := base + (off + j) % size

section Ring

variable {base size off : ℕ}

/-- bytes before the end of the ring go to consecutive addresses -/
theorem ringAddr_of_lt {j : ℕ} (h : off + j < size) : ringAddr base size off j = base + off + j := by
  rw [ringAddr, Nat.mod_eq_of_lt h, Nat.add_assoc]

/-- the bytes after the first `a` are a copy started `a` bytes further round the ring -/
theorem ringAddr_add (a j : ℕ) : ringAddr base size off (a + j) = ringAddr base size ((off + a) % size) j := by
  rw [ringAddr, ringAddr, Nat.mod_add_mod, Nat.add_assoc]

/-- fewer bytes than the ring holds go to distinct addresses -/
theorem ringAddr_injOn {len : ℕ} (hlen : len ≤ size) :
    ∀ i < len, ∀ k < len, ringAddr base size off i = ringAddr base size off k → i = k := by
  intro i hi k hk heq
  have hmod : (off + i) % size = (off + k) % size := by
    unfold ringAddr at heq
    omega
  -- two offsets with one residue differ by a multiple of `size`, and `|i - k| < size`
  rcases Nat.lt_trichotomy i k with hik | hik | hik
  · have hdvd : size ∣ (off + k) - (off + i) := Nat.dvd_of_mod_eq_zero (Nat.sub_mod_eq_zero_of_mod_eq hmod.symm)
    have := Nat.le_of_dvd (by omega) hdvd
    omega
  · exact hik
  · have hdvd : size ∣ (off + i) - (off + k) := Nat.dvd_of_mod_eq_zero (Nat.sub_mod_eq_zero_of_mod_eq hmod)
    have := Nat.le_of_dvd (by omega) hdvd
    omega

end Ring

/-! ## Little-endian words

`*(uintN_t *)(buf + p) = v` and `*(uintN_t *)(buf + p)` on a little-endian host, for an `N / 8`-byte type. -/

/-- byte `k` of `v`, least significant first -/
def leByte (v k : ℕ) : UInt8 := UInt8.ofNat (v >>> (8 * k))

/-- the `width` bytes of `v` stored at `p`, least significant first -/
def storeLe (buf : ℕ → UInt8) (p width v : ℕ) : ℕ → UInt8 := scatter (fun k => p + k) (leByte v) 0 width buf

/-- the `width` bytes at `p` read as a number, least significant first -/
def loadLe (buf : ℕ → UInt8) (p : ℕ) : ℕ → ℕ
  | 0 => 0
  | width + 1 => (buf p).toNat + 256 * loadLe buf (p + 1) width

section LittleEndian

theorem leByte_succ (v k : ℕ) : leByte v (k + 1) = leByte (v / 256) k := by
  rw [leByte, leByte, Nat.shiftRight_eq_div_pow, Nat.shiftRight_eq_div_pow, Nat.div_div_eq_div_mul,
    Nat.mul_succ, pow_add, Nat.mul_comm (2 ^ (8 * k))]
  rfl

theorem leByte_zero_toNat (v : ℕ) : (leByte v 0).toNat = v % 256 := by
  rw [leByte, Nat.mul_zero, Nat.shiftRight_zero, UInt8.toNat_ofNat']

/-- bytes that are those of `v` read back as `v` cut to the width -/
theorem loadLe_of_leByte {buf : ℕ → UInt8} {width : ℕ} :
    ∀ {p v : ℕ}, (∀ k < width, buf (p + k) = leByte v k) → loadLe buf p width = v % 256 ^ width := by
  induction width with
  | zero => intro p v _; rw [pow_zero, Nat.mod_one]; rfl
  | succ width ih =>
    intro p v hbytes
    -- the first byte is `v`'s low byte; the rest are the bytes of `v / 256`
    have hlow : (buf p).toNat = v % 256 := by rw [← leByte_zero_toNat, ← hbytes 0 (by omega), Nat.add_zero]
    have hrest : loadLe buf (p + 1) width = v / 256 % 256 ^ width := by
      apply ih
      intro k hk
      rw [Nat.add_assoc, Nat.add_comm 1 k, hbytes (k + 1) (by omega), leByte_succ]
    rw [loadLe, hlow, hrest, pow_succ', Nat.mod_mul]

theorem storeLe_of_lt {buf : ℕ → UInt8} {p width v k : ℕ} (hk : k < width) : storeLe buf p width v (p + k) = leByte v k := by
  have hinj : ∀ i < width, ∀ j < width, p + i = p + j → i = j := fun _ _ _ _ h => by omega
  rw [storeLe, scatter_of_injOn hinj hk, Nat.zero_add]

theorem storeLe_of_not_covers {buf : ℕ → UInt8} {p width v i : ℕ} (h : ¬(p ≤ i ∧ i < p + width)) :
    storeLe buf p width v i = buf i :=
  scatter_of_ne fun j _ hj => h ⟨by omega, by omega⟩

/-- a stored word reads back cut to its width -/
theorem loadLe_storeLe (buf : ℕ → UInt8) (p width v : ℕ) : loadLe (storeLe buf p width v) p width = v % 256 ^ width :=
  loadLe_of_leByte fun _ hk => storeLe_of_lt hk

/-- a load reads its own bytes only -/
theorem loadLe_congr {buf buf' : ℕ → UInt8} {width : ℕ} :
    ∀ {p : ℕ}, (∀ k < width, buf (p + k) = buf' (p + k)) → loadLe buf p width = loadLe buf' p width := by
  induction width with
  | zero => intro p _; rfl
  | succ width ih =>
    intro p h
    have hfirst := h 0 (by omega)
    rw [Nat.add_zero] at hfirst
    rw [loadLe, loadLe, hfirst, ih (fun k hk => by rw [Nat.add_assoc, Nat.add_comm 1 k]; exact h (k + 1) (by omega))]

end LittleEndian

/-! ## Single stores -/

section Stores

variable {buf : ℕ → β}

/-- stores of one value each, made in order -/
def applyStores (buf : ℕ → β) (stores : List (ℕ × β)) : ℕ → β :=
  stores.foldl (fun b st => Function.update b st.1 st.2) buf

/-- an offset no store names keeps its value -/
theorem applyStores_of_not_mem {stores : List (ℕ × β)} {q : ℕ} (h : q ∉ stores.map Prod.fst) :
    applyStores buf stores q = buf q := by
  induction stores generalizing buf with
  | nil => rfl
  | cons st stores ih =>
    simp only [List.map_cons, List.mem_cons, not_or] at h
    rw [applyStores, List.foldl_cons, ← applyStores, ih h.2, Function.update_of_ne h.1]

/-- where the stores name distinct offsets, each offset holds the one value stored there -/
theorem applyStores_of_mem {stores : List (ℕ × β)} (hnodup : (stores.map Prod.fst).Nodup) {q : ℕ} {v : β}
    (h : (q, v) ∈ stores) : applyStores buf stores q = v := by
  induction stores generalizing buf with
  | nil => cases h
  | cons st stores ih =>
    rw [List.map_cons, List.nodup_cons] at hnodup
    rw [applyStores, List.foldl_cons, ← applyStores]
    rcases List.mem_cons.mp h with rfl | hmem
    · -- the last store to `q`: no later one names it
      rw [applyStores_of_not_mem hnodup.1, Function.update_self]
    · exact ih hnodup.2 hmem

end Stores

end ByteCopy
