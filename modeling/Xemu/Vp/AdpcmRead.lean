import Mathlib
import Xemu.Core.ByteCopy
import Xemu.Vp.Adpcm
/-!
# The ADPCM path of voice_get_samples

A buffer voice in the ADPCM format (hw/xbox/mcpx/apu/vp/vp.c, voice_get_samples) reads position `cbo` as sample
`cbo % ADPCM_SAMPLES_PER_BLOCK` of block `cbo / ADPCM_SAMPLES_PER_BLOCK`. Each block is `36 * samples_per_block`
bytes, copied word by word into the stack array `adpcm_block` of 18 words and decoded by adpcm_decode_block into
`adpcm_decoded`, 130 samples; `adpcm_block_index` remembers which block the array holds, so a block is fetched and
decoded once for a run of positions inside it. The voice is stereo or mono (`channels`), and `samples_per_block` is
`1 +` a 5-bit field of the voice, set by the guest apart from the stereo bit.

* Where `samples_per_block` is the voice's number of channels and every block read has accepted headers, the path
  reads exactly the decoded stream: position `cbo` gives sample `cbo % 64` of its block, for each channel, however the
  positions follow each other (`adpcm_voice_reads_decoded_stream`). ADPCM_SAMPLES_PER_BLOCK is 64 while a block holds
  65 samples, so the last sample of every block is never played.
* A block overflows one of the two stack arrays exactly when `samples_per_block` exceeds the number of channels
  (`adpcm_block_overflows_iff`): more than 2 copies past the 18 words of `adpcm_block`, and a mono voice with 2 decodes
  137 samples into the 130 of `adpcm_decoded`.
* A stereo voice with `samples_per_block` 1 decodes 25 samples per channel, and reads positions 25 to 63 of its blocks
  from what `adpcm_decoded` held before (`stereo_single_block_reads_stale`).

The bytes of the voice's memory are given at linear addresses; get_data_ptr's scatter-gather translation and the
word loads are left out, and so are streaming voices.
-/

namespace Xemu.Vp

open ByteCopy

/-- ADPCM_SAMPLES_PER_BLOCK -/
def adpcmSamplesPerBlock : ℕ := 64

/-- the fields of the voice the ADPCM path reads: NV_PAVS_VOICE_CFG_FMT_STEREO, `samples_per_block` and the base
address BA -/
structure AdpcmVoice where
  stereo : Bool
  samplesPerBlock : ℕ
  ba : ℕ
  deriving DecidableEq, Repr

/-- `channels` -/
def AdpcmVoice.channels (v : AdpcmVoice) : ℕ := if v.stereo then 2 else 1

/-- the locals of voice_get_samples the ADPCM path keeps from one sample to the next: `adpcm_block_index`, `none` for
-1, and the arrays `adpcm_block` (as bytes) and `adpcm_decoded` -/
structure AdpcmCache where
  blockIndex : Option ℕ
  block : ℕ → UInt8
  decoded : ℕ → ℤ

/-- block `i` fetched into `adpcm_block` and decoded into `adpcm_decoded`; `none` where a store falls outside one of
the arrays, `adpcm_block[36*2/4]` words and `adpcm_decoded[65*2]` -/
def adpcmLoadBlock (linear : ℕ → UInt8) (v : AdpcmVoice) (c : AdpcmCache) (i : ℕ) : Option AdpcmCache :=
  let blockSize := 36 * v.samplesPerBlock
  if 9 * v.samplesPerBlock > 36 * 2 / 4 then none
  else
    let block := fun j => if j < blockSize then linear (v.ba + i * blockSize + j) else c.block j
    match adpcmDecodeBlock block blockSize v.channels with
    | none => none
    | some (_, stores) =>
      if stores.all fun st => st.1 < 65 * 2 then some ⟨some i, block, applyStores c.decoded stores⟩ else none

/-- the sample at `cbo`: its block loaded unless it is the one held, then the sample of each channel, the left one
copied to the right for a mono voice -/
def adpcmReadSample (linear : ℕ → UInt8) (v : AdpcmVoice) (c : AdpcmCache) (cbo : ℕ) :
    Option ((ℤ × ℤ) × AdpcmCache) :=
  let blockIndex := cbo / adpcmSamplesPerBlock
  let blockPosition := cbo % adpcmSamplesPerBlock
  let loaded := if c.blockIndex = some blockIndex then some c else adpcmLoadBlock linear v c blockIndex
  loaded.map fun c =>
    let left := c.decoded (blockPosition * v.channels)
    ((left, if v.stereo then c.decoded (blockPosition * v.channels + 1) else left), c)

/-- the samples at the positions `cbos`, read in turn -/
def adpcmReadSamples (linear : ℕ → UInt8) (v : AdpcmVoice) : AdpcmCache → List ℕ → Option (List (ℤ × ℤ))
  | _, [] => some []
  | c, cbo :: cbos =>
    (adpcmReadSample linear v c cbo).bind fun r => (adpcmReadSamples linear v r.2 cbos).map (r.1 :: ·)

/-! ## The stream a voice holds -/

/-- the bytes of block `i` of the voice -/
def voiceBlock (linear : ℕ → UInt8) (v : AdpcmVoice) (i : ℕ) : ℕ → UInt8 :=
  fun j => linear (v.ba + i * (36 * v.samplesPerBlock) + j)

/-- the sample the voice holds at `cbo`: sample `cbo % 64` of block `cbo / 64`, for each channel -/
def adpcmVoiceSample (linear : ℕ → UInt8) (v : AdpcmVoice) (cbo : ℕ) : ℤ × ℤ :=
  let blk := voiceBlock linear v (cbo / adpcmSamplesPerBlock)
  let left := adpcmSample blk v.channels 0 (cbo % adpcmSamplesPerBlock)
  (left, if v.stereo then adpcmSample blk v.channels 1 (cbo % adpcmSamplesPerBlock) else left)

theorem AdpcmVoice.channels_pos (v : AdpcmVoice) : 0 < v.channels := by
  unfold AdpcmVoice.channels
  split_ifs <;> decide

theorem AdpcmVoice.channels_le_two (v : AdpcmVoice) : v.channels ≤ 2 := by
  unfold AdpcmVoice.channels
  split_ifs <;> decide

/-- a block of `36 * channels` bytes holds 8 chunks after its headers -/
theorem chunks_of_block {channels : ℕ} (hpos : 0 < channels) : (36 * channels - 4 * channels) / (channels * 4) = 8 := by
  rw [show 36 * channels - 4 * channels = 8 * (channels * 4) by omega]
  exact Nat.mul_div_cancel _ (by omega)

/-- `decoded` holds block `i`: each slot below `65 * channels` has its sample -/
def BlockHeld (linear : ℕ → UInt8) (v : AdpcmVoice) (i : ℕ) (decoded : ℕ → ℤ) : Prop :=
  ∀ q < 65 * v.channels,
    decoded q = adpcmSample (voiceBlock linear v i) v.channels (q % v.channels) (q / v.channels)

section Load

variable {linear : ℕ → UInt8} {v : AdpcmVoice}

/-- the stores of a decoded block all fall below `m` exactly when its slots do -/
theorem all_blockStores_lt_iff {block : ℕ → UInt8} {channels : ℕ} (hpos : 0 < channels) (n m : ℕ) :
    (blockStores block channels n).all (fun st => st.1 < m) = true ↔ channels * (1 + n * 8) ≤ m := by
  rw [(blockStores_perm block channels hpos n).all_eq, List.all_map, List.all_eq_true]
  simp only [List.mem_range, Function.comp, decide_eq_true_eq]
  constructor
  · intro h
    have hslots : 0 < channels * (1 + n * 8) := Nat.mul_pos hpos (by omega)
    have hlast := h (channels * (1 + n * 8) - 1) (by omega)
    omega
  · intro h p hp
    omega

/-- a block of one or two word groups whose headers are accepted: it is copied into `adpcm_block` and decoded, and the
load succeeds exactly when its slots fit the 130 of `adpcm_decoded` -/
theorem adpcmLoadBlock_of_accepted (hspb : 1 ≤ v.samplesPerBlock) (hspb2 : v.samplesPerBlock ≤ 2) {i : ℕ}
    (hacc : HeadersAccepted (voiceBlock linear v i) v.channels) (c : AdpcmCache) :
    ∃ block : ℕ → UInt8, (∀ j < 36 * v.samplesPerBlock, block j = voiceBlock linear v i j) ∧
      adpcmLoadBlock linear v c i =
        if v.channels * (1 + (36 * v.samplesPerBlock - 4 * v.channels) / (v.channels * 4) * 8) ≤ 65 * 2 then
          some ⟨some i, block, applyStores c.decoded
            (blockStores block v.channels ((36 * v.samplesPerBlock - 4 * v.channels) / (v.channels * 4)))⟩
        else none := by
  have hpos := v.channels_pos
  have htwo := v.channels_le_two
  set block : ℕ → UInt8 := fun j =>
    if j < 36 * v.samplesPerBlock then linear (v.ba + i * (36 * v.samplesPerBlock) + j) else c.block j with hblock
  have hagree : ∀ j < 36 * v.samplesPerBlock, block j = voiceBlock linear v i j := by
    intro j hj
    simp only [hblock]
    rw [if_pos hj]
    rfl
  have hheaders : ∀ j < 4 * v.channels, block j = voiceBlock linear v i j := fun j hj => hagree j (by omega)
  have hacc' : HeadersAccepted block v.channels := (headersAccepted_congr hheaders).mpr hacc
  have hsize : v.channels * 4 ≤ 36 * v.samplesPerBlock := by omega
  refine ⟨block, hagree, ?_⟩
  simp only [adpcmLoadBlock]
  rw [if_neg (by omega), ← hblock, adpcmDecodeBlock_accepted block v.channels hpos hsize hacc']
  simp only [all_blockStores_lt_iff hpos]

/-- a voice whose blocks have one word group per channel loads a block with accepted headers into the arrays, and
`adpcm_decoded` then holds it -/
theorem adpcmLoadBlock_held (hspb : v.samplesPerBlock = v.channels) {i : ℕ}
    (hacc : HeadersAccepted (voiceBlock linear v i) v.channels) (c : AdpcmCache) :
    ∃ c', adpcmLoadBlock linear v c i = some c' ∧ c'.blockIndex = some i ∧ BlockHeld linear v i c'.decoded := by
  have hpos := v.channels_pos
  have htwo := v.channels_le_two
  obtain ⟨block, hagree, hload⟩ := adpcmLoadBlock_of_accepted (by omega) (by omega) hacc c
  -- eight chunks: the 65 samples of each channel fill the slots below `65 * channels`
  rw [hspb, chunks_of_block hpos, if_pos (by nlinarith)] at hload
  rw [hspb] at hagree
  refine ⟨_, hload, rfl, fun q hq => ?_⟩
  have hmem : (q, adpcmSample block v.channels (q % v.channels) (q / v.channels)) ∈ blockStores block v.channels 8 :=
    (blockStores_perm block v.channels hpos 8).symm.subset (List.mem_map.mpr ⟨q, List.mem_range.mpr (by nlinarith), rfl⟩)
  dsimp only
  rw [applyStores_of_mem (nodup_blockStores_slots block v.channels hpos 8) hmem]
  -- the samples of the first 64 codes read the first `36 * channels` bytes only
  have hq64 : q / v.channels < 65 := (Nat.div_lt_iff_lt_mul hpos).mpr hq
  have hbound : 4 * v.channels * (1 + (q / v.channels + 7) / 8) ≤ 36 * v.channels := by
    rw [show 36 * v.channels = 4 * v.channels * 9 by ring]
    exact Nat.mul_le_mul_left _ (by omega)
  exact congrArg ChannelState.pcmdata
    (adpcmChannel_congr (Nat.mod_lt q hpos) (q / v.channels) fun j hj => hagree j (lt_of_lt_of_le hj hbound))

/-- a decoded block stores nothing at or past its last slot -/
theorem slot_not_mem_blockStores {block : ℕ → UInt8} {channels : ℕ} (hpos : 0 < channels) {n q : ℕ}
    (hq : channels * (1 + n * 8) ≤ q) : q ∉ (blockStores block channels n).map Prod.fst := by
  rw [((blockStores_perm block channels hpos n).map Prod.fst).mem_iff, List.map_map]
  simp only [List.mem_map, List.mem_range, Function.comp]
  omega

/-- a held block gives sample `bp` of channel `ch` at slot `bp * channels + ch` -/
theorem BlockHeld.slot {i : ℕ} {decoded : ℕ → ℤ} (h : BlockHeld linear v i decoded) {bp ch : ℕ} (hbp : bp < 65)
    (hch : ch < v.channels) : decoded (bp * v.channels + ch) = adpcmSample (voiceBlock linear v i) v.channels ch bp := by
  have hpos := v.channels_pos
  have hq : bp * v.channels + ch < 65 * v.channels := by nlinarith
  rw [h _ hq, Nat.mul_comm, Nat.mul_add_mod, Nat.mod_eq_of_lt hch, Nat.mul_add_div hpos, Nat.div_eq_of_lt hch,
    Nat.add_zero]

/-- the cache holds the block it names -/
def AdpcmCache.Holds (linear : ℕ → UInt8) (v : AdpcmVoice) (c : AdpcmCache) : Prop :=
  ∀ i, c.blockIndex = some i → BlockHeld linear v i c.decoded

/-- one sample: read from the held block, loaded first if it is another one -/
theorem adpcmReadSample_eq (hspb : v.samplesPerBlock = v.channels) {c : AdpcmCache} (hc : c.Holds linear v) {cbo : ℕ}
    (hacc : HeadersAccepted (voiceBlock linear v (cbo / adpcmSamplesPerBlock)) v.channels) :
    ∃ c', adpcmReadSample linear v c cbo = some (adpcmVoiceSample linear v cbo, c') ∧ c'.Holds linear v := by
  obtain ⟨c1, hload, hidx, hheld⟩ : ∃ c1, (if c.blockIndex = some (cbo / adpcmSamplesPerBlock) then some c
      else adpcmLoadBlock linear v c (cbo / adpcmSamplesPerBlock)) = some c1 ∧
      c1.blockIndex = some (cbo / adpcmSamplesPerBlock) ∧ BlockHeld linear v (cbo / adpcmSamplesPerBlock) c1.decoded := by
    split_ifs with h
    · exact ⟨c, rfl, h, hc _ h⟩
    · exact adpcmLoadBlock_held hspb hacc c
  have hbp : cbo % adpcmSamplesPerBlock < 65 := lt_of_lt_of_le (Nat.mod_lt _ (by decide)) (by decide)
  have hleft := hheld.slot hbp v.channels_pos
  refine ⟨c1, ?_, fun i hi => ?_⟩
  · simp only [adpcmReadSample, hload, Option.map_some, adpcmVoiceSample]
    rw [Nat.add_zero] at hleft
    rw [hleft]
    cases hst : v.stereo
    · rfl
    · -- a stereo voice reads the right channel from the next slot
      have hright : c1.decoded (cbo % adpcmSamplesPerBlock * v.channels + 1) =
          adpcmSample (voiceBlock linear v (cbo / adpcmSamplesPerBlock)) v.channels 1 (cbo % adpcmSamplesPerBlock) :=
        hheld.slot hbp (by simp [AdpcmVoice.channels, hst])
      simp only [if_true, hright]
  · rw [hidx] at hi
    cases hi
    exact hheld

end Load

/-- the samples a run of positions reads, in turn, from a cache that holds what it names -/
theorem adpcmReadSamples_eq {linear : ℕ → UInt8} {v : AdpcmVoice} (hspb : v.samplesPerBlock = v.channels) :
    ∀ (cbos : List ℕ) {c : AdpcmCache}, c.Holds linear v →
      (∀ cbo ∈ cbos, HeadersAccepted (voiceBlock linear v (cbo / adpcmSamplesPerBlock)) v.channels) →
      adpcmReadSamples linear v c cbos = some (cbos.map (adpcmVoiceSample linear v))
  | [], _, _, _ => rfl
  | cbo :: cbos, c, hc, hacc => by
    obtain ⟨c', hread, hc'⟩ := adpcmReadSample_eq hspb hc (hacc cbo List.mem_cons_self)
    rw [adpcmReadSamples, hread, Option.bind_some,
      adpcmReadSamples_eq hspb cbos hc' fun cbo' h => hacc cbo' (List.mem_cons_of_mem _ h)]
    rfl

/-- an ADPCM voice whose `samples_per_block` is its number of channels, reading blocks with accepted headers: in one
call of voice_get_samples, which starts with no block held, every position `cbo` gives sample `cbo % 64` of block
`cbo / 64` for each channel, whatever the order of the positions; the last of the 65 samples of a block is never
read -/
theorem adpcm_voice_reads_decoded_stream (linear : ℕ → UInt8) (v : AdpcmVoice)
    (hspb : v.samplesPerBlock = v.channels) (cbos : List ℕ)
    (hacc : ∀ cbo ∈ cbos, HeadersAccepted (voiceBlock linear v (cbo / adpcmSamplesPerBlock)) v.channels)
    (c : AdpcmCache) (hnone : c.blockIndex = none) :
    adpcmReadSamples linear v c cbos = some (cbos.map (adpcmVoiceSample linear v)) :=
  adpcmReadSamples_eq hspb cbos (fun i hi => by rw [hnone] at hi; cases hi) hacc

/-- a stereo voice over two blocks, and memory that repeats one block -/
def stereoVoice : AdpcmVoice := ⟨true, 2, 0⟩

def repeatedBlock : ℕ → UInt8 := fun a => stereoBlock (a % 72)

theorem stereo_voice_crosses_blocks :
    adpcmReadSamples repeatedBlock stereoVoice ⟨none, fun _ => 0, fun _ => 0⟩ [63, 64, 65] =
      some ([63, 64, 65].map (adpcmVoiceSample repeatedBlock stereoVoice)) :=
  adpcm_voice_reads_decoded_stream repeatedBlock stereoVoice rfl [63, 64, 65] (by decide) _ rfl

/-- loading a block whose headers are accepted overflows `adpcm_block` or `adpcm_decoded` exactly when the voice's
`samples_per_block` exceeds its number of channels: more than 2 word groups do not fit the 18 words of `adpcm_block`,
and a mono voice with 2 decodes 137 samples into the 130 of `adpcm_decoded` -/
theorem adpcm_block_overflows_iff (linear : ℕ → UInt8) (v : AdpcmVoice) (hspb : 1 ≤ v.samplesPerBlock) {i : ℕ}
    (hacc : HeadersAccepted (voiceBlock linear v i) v.channels) (c : AdpcmCache) :
    adpcmLoadBlock linear v c i = none ↔ v.channels < v.samplesPerBlock := by
  by_cases hbig : 2 < v.samplesPerBlock
  · -- the copy runs past `adpcm_block`
    have hnone : adpcmLoadBlock linear v c i = none := by
      simp only [adpcmLoadBlock]
      rw [if_pos (by omega)]
    exact ⟨fun _ => lt_of_le_of_lt v.channels_le_two hbig, fun _ => hnone⟩
  · obtain ⟨block, -, hload⟩ := adpcmLoadBlock_of_accepted hspb (by omega) hacc c
    rw [hload]
    -- the slots of the two voices for each of the two block sizes: 65, 137, 50 and 130
    have hsizes : v.samplesPerBlock = 1 ∨ v.samplesPerBlock = 2 := by omega
    rcases hsizes with h | h <;> cases hst : v.stereo <;> simp [AdpcmVoice.channels, hst, h]

theorem mono_double_block_overflows :
    1 ≤ (⟨false, 2, 0⟩ : AdpcmVoice).samplesPerBlock ∧
      HeadersAccepted (voiceBlock repeatedBlock ⟨false, 2, 0⟩ 0) (⟨false, 2, 0⟩ : AdpcmVoice).channels ∧
      (adpcmLoadBlock repeatedBlock ⟨false, 2, 0⟩ ⟨none, fun _ => 0, fun _ => 0⟩ 0 = none ↔
        (⟨false, 2, 0⟩ : AdpcmVoice).channels < (⟨false, 2, 0⟩ : AdpcmVoice).samplesPerBlock) :=
  ⟨by decide, by decide, adpcm_block_overflows_iff repeatedBlock ⟨false, 2, 0⟩ (by decide) (by decide) _⟩

/-- a stereo voice with `samples_per_block` 1 decodes 25 samples per channel, so a position from 25 to 63 of a block
it has just loaded reads what `adpcm_decoded` held before: the previous block's samples, or the stack's contents on
the first block of a call -/
theorem stereo_single_block_reads_stale (linear : ℕ → UInt8) (v : AdpcmVoice) (hst : v.stereo = true)
    (hspb : v.samplesPerBlock = 1) (c : AdpcmCache) {cbo : ℕ} (hother : c.blockIndex ≠ some (cbo / adpcmSamplesPerBlock))
    (hacc : HeadersAccepted (voiceBlock linear v (cbo / adpcmSamplesPerBlock)) v.channels)
    (hbp : 25 ≤ cbo % adpcmSamplesPerBlock) :
    ∃ c', adpcmReadSample linear v c cbo =
      some ((c.decoded (cbo % adpcmSamplesPerBlock * 2), c.decoded (cbo % adpcmSamplesPerBlock * 2 + 1)), c') := by
  have hC : v.channels = 2 := by simp [AdpcmVoice.channels, hst]
  obtain ⟨block, -, hload⟩ := adpcmLoadBlock_of_accepted (by omega) (by omega) hacc c
  -- three chunks after the headers: 25 samples of each channel in the slots below 50
  have hchunks : (36 * v.samplesPerBlock - 4 * v.channels) / (v.channels * 4) = 3 := by rw [hC, hspb]
  rw [hchunks, if_pos (by rw [hC]; norm_num)] at hload
  refine ⟨⟨some (cbo / adpcmSamplesPerBlock), block, applyStores c.decoded (blockStores block v.channels 3)⟩, ?_⟩
  simp only [adpcmReadSample, if_neg hother, hload, Option.map_some, hst, if_true, hC]
  have hfree : ∀ q, 50 ≤ q → q ∉ (blockStores block 2 3).map Prod.fst :=
    fun q hq => slot_not_mem_blockStores (by decide) (by omega)
  rw [applyStores_of_not_mem (hfree _ (by omega)), applyStores_of_not_mem (hfree _ (by omega))]

theorem stereo_single_block_second_half :
    stereoVoice.stereo = true ∧ ({ stereoVoice with samplesPerBlock := 1 } : AdpcmVoice).samplesPerBlock = 1 ∧
      (none : Option ℕ) ≠ some (40 / adpcmSamplesPerBlock) ∧
      HeadersAccepted (voiceBlock repeatedBlock { stereoVoice with samplesPerBlock := 1 } (40 / adpcmSamplesPerBlock))
        ({ stereoVoice with samplesPerBlock := 1 } : AdpcmVoice).channels ∧
      25 ≤ 40 % adpcmSamplesPerBlock ∧
      ∃ c', adpcmReadSample repeatedBlock { stereoVoice with samplesPerBlock := 1 } ⟨none, fun _ => 0, fun _ => 7⟩ 40 =
        some ((7, 7), c') := by
  refine ⟨rfl, rfl, by decide, by decide, by decide, ?_⟩
  exact stereo_single_block_reads_stale repeatedBlock _ rfl rfl ⟨none, fun _ => 0, fun _ => 7⟩ (by decide) (by decide)
    (by decide)

end Xemu.Vp
