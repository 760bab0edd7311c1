import Mathlib
import Xemu.Core.Runs
/-!
# The decoded-instruction caches of the DSP

Two caches sit in front of the DSP56300 decoder (hw/xbox/mcpx/apu/dsp/dsp_cpu.c). `lookup_opcode` keeps 256 entries
tagged by the xor of the opcode's bytes in front of the table search `lookup_opcode_slow`. `pram_opcache` keeps the
entry found for each P-memory address. `dsp56k_execute_instruction` uses the second cache without looking at the
word again, so every write to P memory has to clear the entry of its address.

The model keeps P memory, both caches, and every way P memory changes: writes from instructions, the host or DMA
(`write_memory_raw`), `dsp_bootstrap`, the resets, a snapshot load and the power-on fill. `CachesCoherent` says that
every entry of either cache is what `lookup_opcode_slow` gives for the word it stands for. `pramStep_coherent` shows
that every event keeps it. `opcache_never_stale` concludes that, over every run, the decoder runs the entry of the
current word and `lookup_opcode` agrees with the table search. X and Y memory and the peripherals are not part of the
model: a write there leaves P memory and the caches as they are.
-/

namespace Xemu.Dsp

/-- DSP_PRAM_SIZE -/
def dspPramSize : ℕ := 4096

/-- the memory spaces of dsp56k_write_memory -/
inductive DspSpace
  | x
  | y
  | p
  deriving DecidableEq, Repr

/-- a row of nonparallel_opcodes as lookup_opcode_slow reads it: the mask and value built from its template, and its
match_func -/
structure OpcodeRow where
  mask : ℕ
  value : ℕ
  matchFunc : Option (ℕ → Bool)

/-- lookup_opcode_slow: the index of the first row that matches; `none` where the source asserts -/
def lookupOpcodeSlow (table : List OpcodeRow) (op : ℕ) : Option ℕ :=
  table.findIdx? fun r => op &&& r.mask == r.value && r.matchFunc.all fun f => f op

/-- the tag of lookup_opcode's cache: the xor of the opcode's four bytes -/
def opcodeTag (op : ℕ) : ℕ :=
  (op >>> 24 &&& 0xff) ^^^ (op >>> 16 &&& 0xff) ^^^ (op >>> 8 &&& 0xff) ^^^ (op &&& 0xff)

/-- lookup_opcode: the entry for `op` and the cache afterwards; the static cache starts zeroed, so its entries start
as NULL -/
def lookupOpcode (table : List OpcodeRow) (cache : ℕ → ℕ × Option ℕ) (op : ℕ) :
    Option (ℕ × (ℕ → ℕ × Option ℕ)) :=
  let tag := opcodeTag op
  match cache tag with
  | (cached, some e) => if cached = op then some (e, cache) else
      (lookupOpcodeSlow table op).map fun e => (e, Function.update cache tag (op, some e))
  | (_, none) => (lookupOpcodeSlow table op).map fun e => (e, Function.update cache tag (op, some e))

/-- P memory and the two caches in front of the decoder -/
structure PramState where
  pram : ℕ → ℕ
  pramOpcache : ℕ → Option ℕ
  opcache : ℕ → ℕ × Option ℕ

/-- write_memory_raw (and write_memory_disasm, which calls it), as far as P memory goes; `none` where an assert
fails -/
def writeMemoryRaw (st : PramState) (space : DspSpace) (address value : ℕ) : Option PramState :=
  if value &&& 0xFF000000 ≠ 0 ∨ address &&& 0xFF000000 ≠ 0 then none
  else
    match space with
    | .p =>
      if address < dspPramSize then
        some { st with
          pram := Function.update st.pram address value
          pramOpcache := Function.update st.pramOpcache address none }
      else none
    | .x | .y => some st

/-- the decode part of dsp56k_execute_instruction at `pc`: the table entry it runs (`none` for an instruction with a
parallel move, which goes through opcodes_parmove) and the caches afterwards -/
def executeDecode (table : List OpcodeRow) (st : PramState) (pc : ℕ) : Option (Option ℕ × PramState) :=
  -- read_memory_p asserts a valid address and a 24-bit word
  if pc < dspPramSize ∧ st.pram pc &&& 0xFF000000 = 0 then
    let curInst := st.pram pc
    if curInst < 0x100000 then
      match st.pramOpcache pc with
      | some e => some (some e, st)
      | none => (lookupOpcode table st.opcache curInst).map fun found =>
          (some found.1, { st with opcache := found.2, pramOpcache := Function.update st.pramOpcache pc (some found.1) })
    else some (none, st)
  else none

/-- dsp_dma_run into DSP memory: one dsp56k_write_memory per word, at consecutive addresses -/
def dmaWriteWords (st : PramState) (space : DspSpace) : ℕ → List ℕ → Option PramState
  | _, [] => some st
  | address, v :: vs => (writeMemoryRaw st space address v).bind fun st => dmaWriteWords st space (address + 1) vs

/-- dsp_bootstrap: 0x800 words of scratch memory copied to P memory, the high byte of each cleared, and pram_opcache
cleared -/
def dspBootstrap (st : PramState) (scratch : List ℕ) : PramState :=
  { st with
    pram := fun i =>
      if i < 0x800 then
        let w := scratch.getD i 0
        if w &&& 0xff000000 ≠ 0 then w &&& 0x00ffffff else w
      else st.pram i
    pramOpcache := fun _ => none }

/-- what reaches P memory or the decoder -/
inductive PramEvent
  /-- dsp56k_execute_instruction at `pc`; the instruction's own memory writes are `write` events -/
  | execute (pc : ℕ)
  /-- dsp56k_write_memory, from an instruction or from the host through dsp_write_memory -/
  | write (space : DspSpace) (address value : ℕ)
  /-- dsp_dma_run moving words into DSP memory -/
  | dmaToMemory (space : DspSpace) (address : ℕ) (values : List ℕ)
  | bootstrap (scratch : List ℕ)
  /-- mcpx_apu_reset, also run by pre_load before a snapshot is restored -/
  | apuReset
  /-- a snapshot load: pre_load resets the APU, then P memory is restored -/
  | loadSnapshot (pram : ℕ → ℕ)
  /-- mcpx_apu_dsp_init: P memory filled with 0xCACACACA and pram_opcache cleared -/
  | dspInit

/-- one event; `none` where an assert fails -/
def pramStep (table : List OpcodeRow) (st : PramState) : PramEvent → Option PramState
  | .execute pc => (executeDecode table st pc).map Prod.snd
  | .write space address value => writeMemoryRaw st space address value
  | .dmaToMemory space address values => dmaWriteWords st space address values
  | .bootstrap scratch => some (dspBootstrap st scratch)
  | .apuReset => some { st with pramOpcache := fun _ => none }
  | .loadSnapshot pram => some { st with pram, pramOpcache := fun _ => none }
  | .dspInit => some { st with pram := fun _ => 0xCACACACA, pramOpcache := fun _ => none }

/-- a run of events -/
def runPram (table : List OpcodeRow) (st : PramState) (events : List PramEvent) : Option PramState :=
  events.foldlM (pramStep table) st

/-! ## Coherence -/

/-- every entry of either cache is what the table search gives for the word it stands for -/
structure CachesCoherent (table : List OpcodeRow) (st : PramState) : Prop where
  pram_opcache : ∀ pc e, st.pramOpcache pc = some e → lookupOpcodeSlow table (st.pram pc) = some e
  opcache : ∀ tag op e, st.opcache tag = (op, some e) → lookupOpcodeSlow table op = some e

section Coherence

variable {table : List OpcodeRow}

/-- lookup_opcode returns the table search's entry and keeps its cache coherent -/
theorem lookupOpcode_spec {cache : ℕ → ℕ × Option ℕ}
    (hc : ∀ tag op e, cache tag = (op, some e) → lookupOpcodeSlow table op = some e) {op e : ℕ}
    {cache' : ℕ → ℕ × Option ℕ} (h : lookupOpcode table cache op = some (e, cache')) :
    lookupOpcodeSlow table op = some e ∧
      ∀ tag op' e', cache' tag = (op', some e') → lookupOpcodeSlow table op' = some e' := by
  -- a miss stores the search's result under the tag; a hit returns an entry the cache already vouches for
  have hmiss : (lookupOpcodeSlow table op).map (fun e => (e, Function.update cache (opcodeTag op) (op, some e))) =
      some (e, cache') →
      lookupOpcodeSlow table op = some e ∧
        ∀ tag op' e', cache' tag = (op', some e') → lookupOpcodeSlow table op' = some e' := by
    intro hm
    obtain ⟨found, hfound, hpair⟩ := Option.map_eq_some_iff.mp hm
    cases hpair
    refine ⟨hfound, fun tag op' e' ht => ?_⟩
    by_cases htag : tag = opcodeTag op
    · subst htag
      rw [Function.update_self, Prod.mk.injEq, Option.some.injEq] at ht
      obtain ⟨rfl, rfl⟩ := ht
      exact hfound
    · rw [Function.update_of_ne htag] at ht
      exact hc tag op' e' ht
  unfold lookupOpcode at h
  dsimp only at h
  split at h
  · rename_i cached e₀ hcache
    split_ifs at h with hop
    · cases h
      subst hop
      exact ⟨hc _ _ _ hcache, hc⟩
    · exact hmiss h
  · exact hmiss h

/-- the decoder runs the table search's entry for the word at `pc` and keeps both caches coherent -/
theorem executeDecode_spec {st : PramState} (h₀ : CachesCoherent table st) {pc : ℕ} {entry : Option ℕ}
    {st' : PramState} (h : executeDecode table st pc = some (entry, st')) :
    (∀ e, entry = some e → lookupOpcodeSlow table (st.pram pc) = some e) ∧ CachesCoherent table st' ∧
      st'.pram = st.pram := by
  unfold executeDecode at h
  dsimp only at h
  split_ifs at h
  · split at h
    · rename_i e hcached
      cases h
      exact ⟨fun e' he' => (by cases he'; exact h₀.pram_opcache pc e hcached), h₀, rfl⟩
    · obtain ⟨found, hfound, hpair⟩ := Option.map_eq_some_iff.mp h
      cases hpair
      obtain ⟨hslow, hcache⟩ := lookupOpcode_spec h₀.opcache hfound
      refine ⟨fun e he => (by cases he; exact hslow), ⟨fun pc' e' he' => ?_, hcache⟩, rfl⟩
      dsimp only at he' ⊢
      by_cases hpc' : pc' = pc
      · subst hpc'
        rw [Function.update_self, Option.some.injEq] at he'
        subst he'
        exact hslow
      · rw [Function.update_of_ne hpc'] at he'
        exact h₀.pram_opcache pc' e' he'
  · cases h
    exact ⟨fun e he => (by cases he), h₀, rfl⟩

/-- a write to P memory clears the entry of its address; other writes touch neither -/
theorem writeMemoryRaw_coherent {st st' : PramState} (h₀ : CachesCoherent table st) {space : DspSpace}
    {address value : ℕ} (h : writeMemoryRaw st space address value = some st') : CachesCoherent table st' := by
  unfold writeMemoryRaw at h
  cases space with
  | p =>
    dsimp only at h
    split_ifs at h
    cases h
    refine ⟨fun pc e he => ?_, h₀.opcache⟩
    dsimp only at he ⊢
    by_cases hpc : pc = address
    · subst hpc
      simp at he
    · rw [Function.update_of_ne hpc] at he
      rw [Function.update_of_ne hpc]
      exact h₀.pram_opcache pc e he
  | x | y =>
    dsimp only at h
    split_ifs at h
    cases h
    exact h₀

theorem dmaWriteWords_coherent (values : List ℕ) {st st' : PramState} (h₀ : CachesCoherent table st)
    {space : DspSpace} {address : ℕ} (h : dmaWriteWords st space address values = some st') :
    CachesCoherent table st' := by
  induction values generalizing st address with
  | nil =>
    cases h
    exact h₀
  | cons v vs ih =>
    obtain ⟨st₁, h₁, h⟩ := Option.bind_eq_some_iff.mp h
    exact ih (writeMemoryRaw_coherent h₀ h₁) h

/-- a cleared per-address cache is coherent with any P memory -/
theorem coherent_of_cleared {st : PramState} (h₀ : CachesCoherent table st) (pram : ℕ → ℕ) :
    CachesCoherent table { st with pram, pramOpcache := fun _ => none } :=
  ⟨fun _ _ he => (by cases he), h₀.opcache⟩

/-- every event keeps both caches coherent -/
theorem pramStep_coherent {st st' : PramState} (h₀ : CachesCoherent table st) {event : PramEvent}
    (h : pramStep table st event = some st') : CachesCoherent table st' := by
  cases event with
  | execute pc =>
    obtain ⟨⟨entry, st₁⟩, hd, hst⟩ := Option.map_eq_some_iff.mp h
    cases hst
    exact (executeDecode_spec h₀ hd).2.1
  | write space address value => exact writeMemoryRaw_coherent h₀ h
  | dmaToMemory space address values => exact dmaWriteWords_coherent values h₀ h
  | bootstrap scratch =>
    cases h
    exact coherent_of_cleared h₀ _
  | apuReset =>
    cases h
    exact coherent_of_cleared h₀ st.pram
  | loadSnapshot pram =>
    cases h
    exact coherent_of_cleared h₀ pram
  | dspInit =>
    cases h
    exact coherent_of_cleared h₀ _

theorem runPram_coherent {st st' : PramState} (h₀ : CachesCoherent table st) {events : List PramEvent}
    (h : runPram table st events = some st') : CachesCoherent table st' :=
  Runs.foldlM_invariant (CachesCoherent table) (fun _ _ _ hs hstep => pramStep_coherent hs hstep) events h₀ h

/-- with a coherent cache, lookup_opcode returns exactly what lookup_opcode_slow returns -/
theorem lookupOpcode_eq_slow {cache : ℕ → ℕ × Option ℕ}
    (hc : ∀ tag op e, cache tag = (op, some e) → lookupOpcodeSlow table op = some e) (op : ℕ) :
    (lookupOpcode table cache op).map Prod.fst = lookupOpcodeSlow table op := by
  unfold lookupOpcode
  dsimp only
  split
  · rename_i cached e hcache
    split_ifs with hop
    · -- a hit returns an entry the coherent cache vouches for
      subst hop
      exact (hc _ _ _ hcache).symm
    · simp [Option.map_map, Function.comp_def]
  · simp [Option.map_map, Function.comp_def]

/-- over every run from coherent caches (power-on has both empty), the decoder runs the entry of the word now at
`pc`, and lookup_opcode agrees with lookup_opcode_slow on every opcode -/
theorem opcache_never_stale {st st' : PramState} (h₀ : CachesCoherent table st) {events : List PramEvent}
    (h : runPram table st events = some st') :
    (∀ pc e st'', executeDecode table st' pc = some (some e, st'') → lookupOpcodeSlow table (st'.pram pc) = some e) ∧
      ∀ op, (lookupOpcode table st'.opcache op).map Prod.fst = lookupOpcodeSlow table op := by
  have hcoh := runPram_coherent h₀ h
  exact ⟨fun pc e _ hd => (executeDecode_spec hcoh hd).1 e rfl, lookupOpcode_eq_slow hcoh.opcache⟩

end Coherence

/-! ## A run with self-modifying code -/

/-- a two-row table: words with bit 19 set are row 0, the others row 1 -/
def twoRowTable : List OpcodeRow := [⟨0x80000, 0x80000, none⟩, ⟨0, 0, none⟩]

/-- power-on: both caches empty -/
def powerOnPram : PramState := ⟨fun _ => 0, fun _ => none, fun _ => (0, none)⟩

theorem powerOnPram_coherent (table : List OpcodeRow) : CachesCoherent table powerOnPram :=
  ⟨fun _ _ he => (by cases he), fun _ _ _ he => (by cases he)⟩

/-- decode at 5, overwrite the word at 5, decode again: the run goes through and the caches agree with the table
search -/
theorem rewritten_word_decodes_fresh :
    (runPram twoRowTable powerOnPram [.execute 5, .write .p 5 0x80001, .execute 5]).elim False fun st =>
      (∀ pc e st'', executeDecode twoRowTable st pc = some (some e, st'') →
        lookupOpcodeSlow twoRowTable (st.pram pc) = some e) ∧
      ∀ op, (lookupOpcode twoRowTable st.opcache op).map Prod.fst = lookupOpcodeSlow twoRowTable op := by
  have hsome : (runPram twoRowTable powerOnPram [.execute 5, .write .p 5 0x80001, .execute 5]).isSome = true := by
    decide
  cases h : runPram twoRowTable powerOnPram [.execute 5, .write .p 5 0x80001, .execute 5] with
  | none => simp [h] at hsome
  | some st => exact opcache_never_stale (powerOnPram_coherent twoRowTable) h

/-- the word at 5 decodes as row 1; after the write it decodes as row 0 -/
example : ((runPram twoRowTable powerOnPram [.execute 5, .write .p 5 0x80001]).bind fun st =>
    executeDecode twoRowTable st 5).map Prod.fst = some (some 0) := by
  decide

end Xemu.Dsp
