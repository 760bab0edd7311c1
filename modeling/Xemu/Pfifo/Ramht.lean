import Mathlib
import Xemu.Core.ByteCopy
import Xemu.Pfifo.Pusher
/-!
# The RAMHT hash table

pfifo_run_puller turns an object handle into the object's instance through RAMHT, the hash table in RAMIN
(hw/xbox/nv2a/pfifo.c): `ramht_hash` folds the handle into `bits` bits and mixes in the channel id, and `ramht_lookup`
asserts that the entry at `hash * 8` lies inside the table before it reads the entry's two words.

* `hashLoop`: the folding loop, with the fuel that bounds it; 32 passes finish a 32-bit handle (`hashLoop_fuel_add`).
* `ramhtHash`, `ramhtLookup`: the two functions, over the NV_PFIFO_RAMHT and NV_PFIFO_CACHE1_PUSH1 registers and the
  bytes of RAMIN. `ramhtEntry` is what the puller keeps of an entry, the `PfifoEnv.ramhtLookup` of `ramhtEnv`.

`bits` is one less than the table's size exponent (`ramhtBits_eq`), so the hash ranges over as many values as the
table has bytes (`ramhtHash_lt_ramhtSize`), eight times its entries. The lookup fails exactly where the hash is past
the table's entries: its second assertion, on RAMIN's size, always holds (`ramhtLookup_isSome_iff`). Only handles below the entry count, on the first
four channels, are sure to pass the assertion (`ramhtHash_in_table`); in every size setting and on every channel some
handle fails it, and the puller stops on that handle (`ramht_hash_escapes_table`).
-/

namespace Xemu.Pfifo

open ByteCopy

/-! ## Registers -/

/-- NV_PFIFO_RAMHT_SIZE, bits 16 and 17 of NV_PFIFO_RAMHT: the table holds `4K << size` bytes -/
def ramhtSizeField (ramht : ℕ) : ℕ := ramht / 2 ^ 16 % 4

/-- NV_PFIFO_RAMHT_BASE_ADDRESS, bits 4 to 8 of NV_PFIFO_RAMHT: the table's offset in RAMIN, in 4K pages -/
def ramhtBaseAddress (ramht : ℕ) : ℕ := ramht / 2 ^ 4 % 2 ^ 5

/-- NV_PFIFO_CACHE1_PUSH1_CHID: the channel the pusher runs -/
def cache1Push1Chid (push1 : ℕ) : ℕ := push1 % 2 ^ 5

/-- the size of the `nv2a-ramin` region -/
def raminSize : ℕ := 0x100000

/-- ctz32: the number of trailing zero bits of a 32-bit word, 32 for zero -/
def ctz32 (x : ℕ) : ℕ := ((List.range 32).find? (fun i => x.testBit i)).getD 32

/-- `ramht_size`, `1 << (size + 12)` -/
def ramhtSize (ramht : ℕ) : ℕ := 2 ^ (ramhtSizeField ramht + 12)

/-- `bits`, `ctz32(ramht_size) - 1` -/
def ramhtBits (ramht : ℕ) : ℕ := ctz32 (ramhtSize ramht) - 1

/-! ## ramht_hash and ramht_lookup -/

/-- the loop of ramht_hash: while the handle is not zero, XOR its low `bits` bits into the hash and shift them out;
`fuel` bounds the passes -/
def hashLoop (bits : ℕ) : ℕ → ℕ → ℕ → ℕ
  | 0, hash, _ => hash
  | fuel + 1, hash, handle =>
    if handle = 0 then hash else hashLoop bits fuel (hash ^^^ (handle &&& (2 ^ bits - 1))) (handle >>> bits)

/-- ramht_hash: the 32-bit handle folded by the loop, XOR the channel id shifted to the hash's top bits -/
def ramhtHash (ramht push1 handle : ℕ) : ℕ :=
  let bits := ramhtBits ramht
  hashLoop bits 32 0 handle ^^^ (cache1Push1Chid push1 <<< (bits - 4))

/-- RAMHTEntry, the two words of an entry as ramht_lookup decodes them -/
structure RamhtRecord where
  handle : ℕ
  inst : ℕ
  engine : ℕ
  channelId : ℕ
  valid : Bool
deriving DecidableEq, Repr

/-- ramht_lookup: the entry at `hash * 8` from the table's base; `none` where one of its two asserts fails -/
def ramhtLookup (ramht push1 : ℕ) (ramin : ℕ → UInt8) (handle : ℕ) : Option RamhtRecord :=
  let hash := ramhtHash ramht push1 handle
  if hash * 8 < ramhtSize ramht then
    let ramhtAddress := ramhtBaseAddress ramht <<< 12
    if ramhtAddress + hash * 8 < raminSize then
      let entryHandle := loadLe ramin (ramhtAddress + hash * 8) 4
      let entryContext := loadLe ramin (ramhtAddress + hash * 8 + 4) 4
      some
        { handle := entryHandle
          inst := (entryContext &&& 0x0000FFFF) <<< 4
          engine := (entryContext &&& 0x00030000) >>> 16
          channelId := (entryContext &&& 0x1F000000) >>> 24
          valid := entryContext &&& 0x80000000 != 0 }
    else none
  else none

/-- what pfifo_run_puller keeps of a lookup after `assert(entry.valid)`: the instance, and whether the engine is
ENGINE_GRAPHICS -/
def ramhtEntry (ramht push1 : ℕ) (ramin : ℕ → UInt8) (handle : ℕ) : Option RamhtEntry :=
  match ramhtLookup ramht push1 ramin handle with
  | some e => if e.valid then some ⟨e.inst, e.engine == 1⟩ else none
  | none => none

/-- the FIFO's surroundings with the RAMHT of the registers and RAMIN -/
def ramhtEnv {σ : Type} (ramht push1 : ℕ) (ramin : ℕ → UInt8)
    (pgraphMethod : ℕ → ℕ → ℕ → List ℕ → ℕ → ℕ → Bool → σ → Option (ℕ × σ)) : PfifoEnv σ :=
  ⟨ramhtEntry ramht push1 ramin, pgraphMethod⟩

/-! ## The hash's range -/

section Hash

variable {bits : ℕ}

theorem ramhtSizeField_lt (ramht : ℕ) : ramhtSizeField ramht < 4 := Nat.mod_lt _ (by norm_num)

theorem cache1Push1Chid_lt (push1 : ℕ) : cache1Push1Chid push1 < 2 ^ 5 := Nat.mod_lt _ (by norm_num)

/-- the size field picks one of four tables, from 4K to 32K, so `bits` runs from 11 to 14 -/
theorem ramhtBits_eq (ramht : ℕ) : ramhtBits ramht = ramhtSizeField ramht + 11 := by
  unfold ramhtBits ramhtSize
  have hs := ramhtSizeField_lt ramht
  generalize ramhtSizeField ramht = s at hs ⊢
  interval_cases s <;> decide

theorem ramhtHash_eq (ramht push1 handle : ℕ) :
    ramhtHash ramht push1 handle =
      hashLoop (ramhtSizeField ramht + 11) 32 0 handle ^^^ cache1Push1Chid push1 <<< (ramhtSizeField ramht + 7) := by
  simp only [ramhtHash, ramhtBits_eq]
  rfl

/-- every pass XORs in a value below `2 ^ bits`, so the hash stays below it -/
theorem hashLoop_lt {fuel hash handle : ℕ} (hhash : hash < 2 ^ bits) : hashLoop bits fuel hash handle < 2 ^ bits := by
  induction fuel generalizing hash handle with
  | zero => exact hhash
  | succ fuel ih =>
    rw [hashLoop]
    split_ifs with h0
    · exact hhash
    · apply ih
      rw [Nat.and_two_pow_sub_one_eq_mod]
      exact Nat.xor_lt_two_pow hhash (Nat.mod_lt _ (Nat.two_pow_pos bits))

/-- a handle below `2 ^ fuel` is finished within `fuel` passes: each pass shifts out at least one bit, and more fuel
changes nothing -/
theorem hashLoop_fuel_add (hbits : 0 < bits) {fuel hash handle : ℕ} (hhandle : handle < 2 ^ fuel) (k : ℕ) :
    hashLoop bits (fuel + k) hash handle = hashLoop bits fuel hash handle := by
  induction fuel generalizing hash handle with
  | zero =>
    have h0 : handle = 0 := by simpa using hhandle
    cases k with
    | zero => rfl
    | succ k => simp [hashLoop, h0]
  | succ fuel ih =>
    rw [Nat.add_right_comm, hashLoop, hashLoop]
    split_ifs with h0
    · rfl
    · apply ih
      rw [Nat.shiftRight_eq_div_pow, Nat.div_lt_iff_lt_mul (Nat.two_pow_pos bits)]
      calc handle < 2 ^ (fuel + 1) := hhandle
        _ = 2 ^ fuel * 2 := Nat.pow_succ 2 fuel
        _ ≤ 2 ^ fuel * 2 ^ bits := Nat.mul_le_mul_left _ (Nat.le_self_pow (Nat.pos_iff_ne_zero.mp hbits) 2)

/-- a handle of one chunk is XORed in whole by the first pass, and the second finds nothing left -/
theorem hashLoop_of_lt {fuel hash handle : ℕ} (hhandle : handle < 2 ^ bits) :
    hashLoop bits (fuel + 1) hash handle = hash ^^^ handle := by
  have hrest : handle >>> bits = 0 := by
    rw [Nat.shiftRight_eq_div_pow]
    exact Nat.div_eq_of_lt hhandle
  rw [hashLoop]
  split_ifs with h0
  · rw [h0, Nat.xor_zero]
  · rw [hrest, Nat.and_two_pow_sub_one_eq_mod, Nat.mod_eq_of_lt hhandle]
    cases fuel <;> simp [hashLoop]

/-- the channel id, shifted to the top bits of a table of `size`, stays below `2 ^ a` times the shift -/
theorem chidShift_lt {push1 s a : ℕ} (hchid : cache1Push1Chid push1 < 2 ^ a) :
    cache1Push1Chid push1 <<< (s + 7) < 2 ^ (a + (s + 7)) := by
  rw [Nat.shiftLeft_eq, Nat.pow_add 2 a]
  exact Nat.mul_lt_mul_of_pos_right hchid (Nat.two_pow_pos _)

/-- the fold stays below `2 ^ bits` and the channel id, five bits shifted by `bits - 4`, below `2 ^ (bits + 1)`: the
hash is below the table's size in bytes -/
theorem ramhtHash_lt_ramhtSize (ramht push1 handle : ℕ) : ramhtHash ramht push1 handle < ramhtSize ramht := by
  rw [ramhtHash_eq, ramhtSize]
  set s := ramhtSizeField ramht
  have hfold : hashLoop (s + 11) 32 0 handle < 2 ^ (s + 12) :=
    (hashLoop_lt (Nat.two_pow_pos _)).trans (Nat.pow_lt_pow_right (by norm_num) (by omega))
  have hchid : cache1Push1Chid push1 <<< (s + 7) < 2 ^ (5 + (s + 7)) := chidShift_lt (cache1Push1Chid_lt push1)
  rw [show 5 + (s + 7) = s + 12 by omega] at hchid
  exact Nat.xor_lt_two_pow hfold hchid

/-- the assertion of ramht_lookup asks for a hash below the table's entry count, `2 ^ (size + 9)` -/
theorem hash_mul_eight_lt_iff (ramht hash : ℕ) : hash * 8 < ramhtSize ramht ↔ hash < 2 ^ (ramhtSizeField ramht + 9) := by
  rw [ramhtSize, show ramhtSizeField ramht + 12 = ramhtSizeField ramht + 9 + 3 by omega, Nat.pow_add]
  omega

/-- a handle below the entry count, on one of the first four channels, hashes inside the table -/
theorem ramhtHash_in_table {ramht push1 handle : ℕ} (hhandle : handle < 2 ^ (ramhtSizeField ramht + 9))
    (hchid : cache1Push1Chid push1 < 4) : ramhtHash ramht push1 handle * 8 < ramhtSize ramht := by
  rw [hash_mul_eight_lt_iff, ramhtHash_eq]
  set s := ramhtSizeField ramht
  have hfold : hashLoop (s + 11) 32 0 handle = handle := by
    rw [show 32 = 31 + 1 from rfl, hashLoop_of_lt (hhandle.trans (Nat.pow_lt_pow_right (by norm_num) (by omega))),
      Nat.zero_xor]
  have hshift : cache1Push1Chid push1 <<< (s + 7) < 2 ^ (2 + (s + 7)) := chidShift_lt hchid
  rw [show 2 + (s + 7) = s + 9 by omega] at hshift
  rw [hfold]
  exact Nat.xor_lt_two_pow hhandle hshift

example : ramhtHash 0 0 0x1FF * 8 < ramhtSize 0 := by decide

end Hash

/-! ## The lookup and the puller -/

section Lookup

variable {σ : Type} {ramht push1 handle : ℕ} {ramin : ℕ → UInt8}

@[simp]
theorem ramhtEnv_ramhtLookup (pgraphMethod : ℕ → ℕ → ℕ → List ℕ → ℕ → ℕ → Bool → σ → Option (ℕ × σ)) :
    (ramhtEnv ramht push1 ramin pgraphMethod).ramhtLookup = ramhtEntry ramht push1 ramin := by
  unfold ramhtEnv
  rfl

/-- the table starts in the first 128K of RAMIN and holds at most 32K, so an entry inside the table is inside
RAMIN -/
theorem ramht_entry_in_ramin {hash : ℕ} (h : hash * 8 < ramhtSize ramht) :
    (ramhtBaseAddress ramht <<< 12) + hash * 8 + 8 ≤ raminSize := by
  have hbase : ramhtBaseAddress ramht < 2 ^ 5 := Nat.mod_lt _ (by norm_num)
  have hsize : ramhtSize ramht ≤ 2 ^ 15 :=
    Nat.pow_le_pow_right (by norm_num) (by have := ramhtSizeField_lt ramht; omega)
  rw [Nat.shiftLeft_eq, raminSize]
  omega

/-- the lookup fails exactly at its first assertion: the second, on RAMIN's size, always holds -/
theorem ramhtLookup_isSome_iff :
    (ramhtLookup ramht push1 ramin handle).isSome ↔ ramhtHash ramht push1 handle * 8 < ramhtSize ramht := by
  simp only [ramhtLookup]
  by_cases h : ramhtHash ramht push1 handle * 8 < ramhtSize ramht
  · rw [if_pos h, if_pos (by have := ramht_entry_in_ramin h; omega)]
    simp [h]
  · rw [if_neg h]
    simp [h]

theorem ramhtLookup_eq_none (h : ramhtSize ramht ≤ ramhtHash ramht push1 handle * 8) :
    ramhtLookup ramht push1 ramin handle = none := by
  simp only [ramhtLookup]
  rw [if_neg (Nat.not_lt.mpr h)]

theorem ramhtEntry_eq_none (h : ramhtSize ramht ≤ ramhtHash ramht push1 handle * 8) :
    ramhtEntry ramht push1 ramin handle = none := by
  simp only [ramhtEntry, ramhtLookup_eq_none h]

/-- method 0 binds the subchannel to the handle's object; the puller stops where the lookup fails -/
theorem runPuller_bind_eq_none {env : PfifoEnv σ} {p : Puller σ} {subchannel parameter : ℕ} {inc : Bool}
    {parameters : List ℕ} {n a : ℕ} (h : env.ramhtLookup parameter = none) :
    runPuller env p 0 subchannel parameter inc parameters n a = none := by
  simp [runPuller, h]

end Lookup

/-- in every size setting and on every channel, some 32-bit handle hashes past the table: zero where the channel's
bits already reach past it, and otherwise the entry count, whose bit the channel leaves set; the assertion of
ramht_lookup fails on it and the puller binding it stops -/
theorem ramht_hash_escapes_table (ramht push1 : ℕ) (ramin : ℕ → UInt8) :
    ∃ handle < 2 ^ 32, ramhtSize ramht ≤ ramhtHash ramht push1 handle * 8 ∧
      ∀ {σ : Type} (pgraphMethod : ℕ → ℕ → ℕ → List ℕ → ℕ → ℕ → Bool → σ → Option (ℕ × σ)) (p : Puller σ)
        (subchannel : ℕ) (inc : Bool) (parameters : List ℕ) (n a : ℕ),
        runPuller (ramhtEnv ramht push1 ramin pgraphMethod) p 0 subchannel handle inc parameters n a = none := by
  set s := ramhtSizeField ramht
  set c := cache1Push1Chid push1 <<< (s + 7)
  have hs : s < 4 := ramhtSizeField_lt ramht
  obtain ⟨handle, hlt, hhash⟩ : ∃ handle < 2 ^ 32, 2 ^ (s + 9) ≤ ramhtHash ramht push1 handle := by
    by_cases hc : 2 ^ (s + 9) ≤ c
    · -- the zero handle leaves the channel's bits alone
      refine ⟨0, by norm_num, ?_⟩
      rw [ramhtHash_eq, show hashLoop (s + 11) 32 0 0 = 0 from rfl, Nat.zero_xor]
      exact hc
    · -- the entry count is one chunk, and its bit survives the channel's
      have hlt : 2 ^ (s + 9) < 2 ^ (s + 11) := Nat.pow_lt_pow_right (by norm_num) (by omega)
      refine ⟨2 ^ (s + 9), Nat.pow_lt_pow_right (by norm_num) (by omega), ?_⟩
      rw [ramhtHash_eq, show 32 = 31 + 1 from rfl, hashLoop_of_lt hlt, Nat.zero_xor]
      apply Nat.ge_two_pow_of_testBit
      rw [Nat.testBit_xor, Nat.testBit_two_pow_self, Nat.testBit_lt_two_pow (Nat.lt_of_not_le hc)]
      rfl
  have hout : ramhtSize ramht ≤ ramhtHash ramht push1 handle * 8 := by
    rw [← Nat.not_lt, hash_mul_eight_lt_iff]
    exact Nat.not_lt.mpr hhash
  refine ⟨handle, hlt, hout, ?_⟩
  intro σ pgraphMethod p subchannel inc parameters n a
  apply runPuller_bind_eq_none
  rw [ramhtEnv_ramhtLookup]
  exact ramhtEntry_eq_none hout

/-- the 4K table and channel 0: the handle `0x200` hashes to itself, and its entry would start at the table's end -/
theorem ramht_4k_handle_0x200_out_of_table : ramhtSize 0 ≤ ramhtHash 0 0 0x200 * 8 := by decide

end Xemu.Pfifo
