import Mathlib
import Xemu.Core.Words
/-!
# The ADPCM decoder of the voice processor

adpcm_decode_block (hw/xbox/mcpx/apu/vp/adpcm.h) decodes one block of 4-bit ADPCM; voice_get_samples hands it
blocks of `36 * channels` bytes. The block starts with a header of 4 bytes per channel: the first sample, little-endian
and signed, and the step index, which has to lie in `[0, 88]` with the fourth byte zero, or the block is refused
(the result is 0, and the header samples of the channels up to the bad one are already stored). Chunks of 4 bytes per
channel follow, each byte two codes, low nibble first. A code moves the channel's sample by a delta read off
`step_table` and its step index by `index_table`, both clipped. The output interleaves the channels.

* A block whose headers are accepted stores sample `s` of channel `ch` at `s * channels + ch`, for every `s` below
  the result `1 + 8 * chunks`, each slot once, where the samples of a channel are those its own codes give one after
  the other (`adpcmSample`): `adpcm_decode_block_interleaves`.
* A refused block stores the header samples of the channels up to the first bad header and nothing else, so the rest
  of the output keeps what it held before: `adpcm_refused_block_stores_headers`.

The model keeps the sample and the step index of a channel as integers. The header check starts them in `[0, 88]` and
the `int16_t` range, and CLIP puts them back there after every code whatever they were, so the `int32_t` and `int8_t`
sums of the source never overflow and the model's integers are the source's. `pcmdata` and `index` are arrays of two
in the source: a block of more than two channels writes past them, so only one or two channels are defined behaviour,
and voice_get_samples passes one or two (`AdpcmVoice.channels_le_two`).
-/

namespace Xemu.Vp

open Words

/-! ## The decoder -/

/-- step_table -/
def stepTable : List ℕ :=
  [7, 8, 9, 10, 11, 12, 13, 14, 16, 17, 19, 21, 23, 25, 28, 31, 34, 37, 41, 45, 50, 55, 60, 66, 73, 80, 88, 97, 107,
    118, 130, 143, 157, 173, 190, 209, 230, 253, 279, 307, 337, 371, 408, 449, 494, 544, 598, 658, 724, 796, 876, 963,
    1060, 1166, 1282, 1411, 1552, 1707, 1878, 2066, 2272, 2499, 2749, 3024, 3327, 3660, 4026, 4428, 4871, 5358, 5894,
    6484, 7132, 7845, 8630, 9493, 10442, 11487, 12635, 13899, 15289, 16818, 18500, 20350, 22385, 24623, 27086, 29794,
    32767]

/-- index_table, for codes of 4 bits -/
def indexTable : List ℤ := [-1, -1, -1, -1, 2, 4, 6, 8]

/-- CLIP -/
def clip (data lo hi : ℤ) : ℤ := if data > hi then hi else if data < lo then lo else data

/-- `pcmdata[ch]` and `index[ch]` -/
structure ChannelState where
  pcmdata : ℤ
  index : ℤ
  deriving DecidableEq, Repr

/-- the delta of the code in the four bits of `b` from `shift` on, for the step `step` -/
def nibbleDelta (step b shift : ℕ) : ℤ :=
  let delta : ℤ := (step >>> 3 : ℕ)
  let delta := if b &&& (0x1 <<< shift) ≠ 0 then delta + (step >>> 2 : ℕ) else delta
  let delta := if b &&& (0x2 <<< shift) ≠ 0 then delta + (step >>> 1 : ℕ) else delta
  let delta := if b &&& (0x4 <<< shift) ≠ 0 then delta + step else delta
  if b &&& (0x8 <<< shift) ≠ 0 then -delta else delta

/-- one half of the loop body: the code in the bits of `b` from `shift` on, 0 for the low nibble and 4 for the high
one -/
def decodeNibble (st : ChannelState) (b shift : ℕ) : ChannelState :=
  let step := stepTable.getD st.index.toNat 0
  let pcmdata := st.pcmdata + nibbleDelta step b shift
  let index := st.index + indexTable.getD ((b >>> shift) &&& 0x7) 0
  ⟨clip pcmdata (-32768) 32767, clip index 0 88⟩

/-- the first sample of the header at `p`: `(int16_t) (inbuf [0] | (inbuf [1] << 8))` -/
def headerSample (inbuf : ℕ → UInt8) (p : ℕ) : ℤ := signedVal 15 ((inbuf p).toNat ||| (inbuf (p + 1)).toNat <<< 8)

/-- the step index of the header at `p`: `inbuf [2]` stored in an `int8_t` -/
def headerIndex (inbuf : ℕ → UInt8) (p : ℕ) : ℤ := signedVal 7 (inbuf (p + 2)).toNat

/-- `index [ch] < 0 || index [ch] > 88 || inbuf [3]` -/
def headerRefused (inbuf : ℕ → UInt8) (p : ℕ) : Bool :=
  decide (headerIndex inbuf p < 0) || decide (headerIndex inbuf p > 88) || inbuf (p + 3) != 0

/-- the decoder's pointers into `inbuf` and `outbuf`, `inbufsize`, the channels' states and the stores to `outbuf`,
oldest first -/
structure AdpcmState where
  inbuf : ℕ
  outbuf : ℕ
  inbufsize : ℕ
  pcmdata : ℕ → ℤ
  index : ℕ → ℤ
  stores : List (ℕ × ℤ)

/-- the state of channel `ch` -/
def AdpcmState.channel (s : AdpcmState) (ch : ℕ) : ChannelState := ⟨s.pcmdata ch, s.index ch⟩

/-- one pass of the header loop; the error carries the stores made when the header is refused -/
def headerStep (inbuf : ℕ → UInt8) (s : AdpcmState) (ch : ℕ) : Except (List (ℕ × ℤ)) AdpcmState :=
  let sample := headerSample inbuf s.inbuf
  let s := { s with
    stores := s.stores ++ [(s.outbuf, sample)]
    outbuf := s.outbuf + 1
    pcmdata := Function.update s.pcmdata ch sample
    index := Function.update s.index ch (headerIndex inbuf s.inbuf) }
  -- sanitize the input a little
  if headerRefused inbuf s.inbuf then .error s.stores
  else .ok { s with inbufsize := s.inbufsize - 4, inbuf := s.inbuf + 4 }

/-- byte `i` of channel `ch` in a chunk: its low code, stored at `outbuf [i * 2 * channels]`, then its high code, at
`outbuf [(i * 2 + 1) * channels]` -/
def byteStep (inbuf : ℕ → UInt8) (channels ch : ℕ) (s : AdpcmState) (i : ℕ) : AdpcmState :=
  let b := (inbuf s.inbuf).toNat
  let lo := decodeNibble (s.channel ch) b 0
  let hi := decodeNibble lo b 4
  { s with
    stores := s.stores ++ [(s.outbuf + i * 2 * channels, lo.pcmdata), (s.outbuf + (i * 2 + 1) * channels, hi.pcmdata)]
    pcmdata := Function.update s.pcmdata ch hi.pcmdata
    index := Function.update s.index ch hi.index
    inbuf := s.inbuf + 1 }

/-- the four bytes of channel `ch` in a chunk, then `outbuf++` -/
def channelStep (inbuf : ℕ → UInt8) (channels : ℕ) (s : AdpcmState) (ch : ℕ) : AdpcmState :=
  let s := (List.range 4).foldl (byteStep inbuf channels ch) s
  { s with outbuf := s.outbuf + 1 }

/-- one chunk: every channel, then `outbuf += channels * 7` -/
def chunkStep (inbuf : ℕ → UInt8) (channels : ℕ) (s : AdpcmState) : AdpcmState :=
  let s := (List.range channels).foldl (channelStep inbuf channels) s
  { s with outbuf := s.outbuf + channels * 7 }

/-- the state before the header loop; `pcmdata` and `index` are not initialised in the source -/
def adpcmStart (inbufsize : ℕ) : AdpcmState := ⟨0, 0, inbufsize, fun _ => 0, fun _ => 0, []⟩

/-- adpcm_decode_block: the number of samples of each channel it returns, and its stores to `outbuf`; `none` where it
divides by zero, with no channel -/
def adpcmDecodeBlock (inbuf : ℕ → UInt8) (inbufsize channels : ℕ) : Option (ℕ × List (ℕ × ℤ)) :=
  if inbufsize < channels * 4 then some (0, [])
  else
    match (List.range channels).foldlM (headerStep inbuf) (adpcmStart inbufsize) with
    | .error stores => some (0, stores)
    | .ok s =>
      if channels = 0 then none
      else
        let chunks := s.inbufsize / (channels * 4)
        some (1 + chunks * 8, ((List.range chunks).foldl (fun s _ => chunkStep inbuf channels s) s).stores)

/-! ## What a block holds -/

/-- the code channel `ch` decodes `n`-th: its bytes are 4 of every chunk of `4 * channels` after the headers, and each
gives its low nibble, then its high one -/
def adpcmCode (inbuf : ℕ → UInt8) (channels ch n : ℕ) : ℕ :=
  ((inbuf (4 * channels + 4 * channels * (n / 8) + 4 * ch + n % 8 / 2)).toNat >>> (4 * (n % 2))) % 16

/-- the state of channel `ch` once it has decoded `n` codes, from its header -/
def adpcmChannel (inbuf : ℕ → UInt8) (channels ch : ℕ) : ℕ → ChannelState
  | 0 => ⟨headerSample inbuf (4 * ch), headerIndex inbuf (4 * ch)⟩
  | n + 1 => decodeNibble (adpcmChannel inbuf channels ch n) (adpcmCode inbuf channels ch n) 0

/-- sample `s` of channel `ch` -/
def adpcmSample (inbuf : ℕ → UInt8) (channels ch s : ℕ) : ℤ := (adpcmChannel inbuf channels ch s).pcmdata

/-- every header of the block is accepted -/
def HeadersAccepted (inbuf : ℕ → UInt8) (channels : ℕ) : Prop := ∀ ch < channels, headerRefused inbuf (4 * ch) = false

instance (inbuf : ℕ → UInt8) (channels : ℕ) : Decidable (HeadersAccepted inbuf channels) :=
  inferInstanceAs (Decidable (∀ ch < channels, _))

/-! ## One code -/

/-- the mask `m = 2 ^ j` at `shift` tests bit `j` of the nibble at `shift` -/
theorem land_shiftLeft_ne_zero {b m j : ℕ} (shift : ℕ) (hm : m = 2 ^ j) (hj : j < 4) :
    b &&& (m <<< shift) ≠ 0 ↔ (b >>> shift) % 16 &&& (m <<< 0) ≠ 0 := by
  have hbit : ∀ x k : ℕ, x &&& 2 ^ k ≠ 0 ↔ x.testBit k = true := by
    intro x k
    rw [Nat.and_two_pow]
    cases x.testBit k <;> simp
  rw [hm, Nat.shiftLeft_eq, Nat.shiftLeft_eq, pow_zero, Nat.mul_one, ← pow_add, hbit, hbit,
    show (16 : ℕ) = 2 ^ 4 by norm_num, Nat.testBit_mod_two_pow, Nat.testBit_shiftRight]
  simp [hj, Nat.add_comm]

/-- the three low bits of the nibble at `shift` -/
theorem shiftRight_land_seven (b shift : ℕ) : (b >>> shift) &&& 0x7 = ((b >>> shift) % 16 >>> 0) &&& 0x7 := by
  have hmask : ∀ x : ℕ, x &&& 0x7 = x % 8 := fun x => Nat.and_two_pow_sub_one_eq_mod x 3
  rw [Nat.shiftRight_zero, hmask, hmask, Nat.mod_mod_of_dvd _ (by norm_num)]

/-- the high nibble is decoded as the low nibble of the byte shifted down -/
theorem decodeNibble_shift (st : ChannelState) (b shift : ℕ) :
    decodeNibble st b shift = decodeNibble st ((b >>> shift) % 16) 0 := by
  have h1 := land_shiftLeft_ne_zero (b := b) shift (m := 0x1) (j := 0) rfl (by norm_num)
  have h2 := land_shiftLeft_ne_zero (b := b) shift (m := 0x2) (j := 1) rfl (by norm_num)
  have h4 := land_shiftLeft_ne_zero (b := b) shift (m := 0x4) (j := 2) rfl (by norm_num)
  have h8 := land_shiftLeft_ne_zero (b := b) shift (m := 0x8) (j := 3) rfl (by norm_num)
  simp only [decodeNibble, nibbleDelta, h1, h2, h4, h8, shiftRight_land_seven b shift]
  congr

/-! ## The chunk loop -/

section Loops

variable (inbuf : ℕ → UInt8) (channels : ℕ)

/-- the two stores of byte `i` of channel `ch` in chunk `k`, with `outbuf` at `o` -/
def byteStores (o k ch i : ℕ) : List (ℕ × ℤ) :=
  [(o + i * 2 * channels, adpcmSample inbuf channels ch (8 * k + 2 * i + 1)),
    (o + (i * 2 + 1) * channels, adpcmSample inbuf channels ch (8 * k + 2 * i + 2))]

theorem adpcmCode_low (ch k : ℕ) {i : ℕ} (hi : i < 4) :
    adpcmCode inbuf channels ch (8 * k + 2 * i) =
      ((inbuf (4 * channels + 4 * channels * k + 4 * ch + i)).toNat >>> 0) % 16 := by
  have hk : (8 * k + 2 * i) / 8 = k := by omega
  have hbyte : (8 * k + 2 * i) % 8 / 2 = i := by omega
  have hlow : (8 * k + 2 * i) % 2 = 0 := by omega
  rw [adpcmCode, hk, hbyte, hlow]

theorem adpcmCode_high (ch k : ℕ) {i : ℕ} (hi : i < 4) :
    adpcmCode inbuf channels ch (8 * k + 2 * i + 1) =
      ((inbuf (4 * channels + 4 * channels * k + 4 * ch + i)).toNat >>> 4) % 16 := by
  have hk : (8 * k + 2 * i + 1) / 8 = k := by omega
  have hbyte : (8 * k + 2 * i + 1) % 8 / 2 = i := by omega
  have hhigh : (8 * k + 2 * i + 1) % 2 = 1 := by omega
  rw [adpcmCode, hk, hbyte, hhigh]

/-- the low nibble of byte `i` of channel `ch` in chunk `k` is the channel's code `8 * k + 2 * i` -/
theorem decodeNibble_low (ch k : ℕ) {i : ℕ} (hi : i < 4) :
    decodeNibble (adpcmChannel inbuf channels ch (8 * k + 2 * i))
        (inbuf (4 * channels + 4 * channels * k + 4 * ch + i)).toNat 0 =
      adpcmChannel inbuf channels ch (8 * k + 2 * i + 1) := by
  rw [adpcmChannel, adpcmCode_low inbuf channels ch k hi, ← decodeNibble_shift]

/-- and its high nibble the code after -/
theorem decodeNibble_high (ch k : ℕ) {i : ℕ} (hi : i < 4) :
    decodeNibble (adpcmChannel inbuf channels ch (8 * k + 2 * i + 1))
        (inbuf (4 * channels + 4 * channels * k + 4 * ch + i)).toNat 4 =
      adpcmChannel inbuf channels ch (8 * k + 2 * i + 2) := by
  conv_rhs => rw [show 8 * k + 2 * i + 2 = 8 * k + 2 * i + 1 + 1 by omega, adpcmChannel,
    adpcmCode_high inbuf channels ch k hi]
  exact decodeNibble_shift _ _ _

/-- the byte loop of channel `ch` in chunk `k`: after `j` bytes the channel has decoded `2 * j` more codes, and their
samples are stored -/
theorem foldl_byteStep {s : AdpcmState} {ch k : ℕ} (hin : s.inbuf = 4 * channels + 4 * channels * k + 4 * ch)
    (hch : s.channel ch = adpcmChannel inbuf channels ch (8 * k)) :
    ∀ j ≤ 4, (List.range j).foldl (byteStep inbuf channels ch) s =
      { s with
        stores := s.stores ++ (List.range j).flatMap (byteStores inbuf channels s.outbuf k ch)
        pcmdata := Function.update s.pcmdata ch (adpcmChannel inbuf channels ch (8 * k + 2 * j)).pcmdata
        index := Function.update s.index ch (adpcmChannel inbuf channels ch (8 * k + 2 * j)).index
        inbuf := s.inbuf + j }
  | 0, _ => by
    -- nothing decoded yet: the updates write back what the channel holds
    have hp : s.pcmdata ch = (adpcmChannel inbuf channels ch (8 * k)).pcmdata := congrArg ChannelState.pcmdata hch
    have hx : s.index ch = (adpcmChannel inbuf channels ch (8 * k)).index := congrArg ChannelState.index hch
    simp only [List.range_zero, List.foldl_nil, List.flatMap_nil, List.append_nil, Nat.mul_zero, Nat.add_zero, ← hp,
      ← hx, Function.update_eq_self]
  | j + 1, hj => by
    rw [List.range_succ, List.foldl_append, foldl_byteStep hin hch j (by omega), List.foldl_cons, List.foldl_nil]
    have hlo := decodeNibble_low inbuf channels ch k (i := j) (by omega)
    have hhi := decodeNibble_high inbuf channels ch k (i := j) (by omega)
    have hcodes : 8 * k + 2 * (j + 1) = 8 * k + 2 * j + 2 := by omega
    simp only [byteStep, AdpcmState.channel, Function.update_self, hin, hlo, hhi, Function.update_idem,
      List.flatMap_append, List.flatMap_singleton, List.append_assoc, byteStores, adpcmSample, hcodes]
    rfl

/-- the stores of channel `ch` in chunk `k`, with `outbuf` at `o` -/
def channelStores (o k ch : ℕ) : List (ℕ × ℤ) := (List.range 4).flatMap (byteStores inbuf channels o k ch)

/-- the stores of chunk `k`: channel `ch` starts at `outbuf` `channels + 8 * channels * k + ch` -/
def chunkStores (k : ℕ) : List (ℕ × ℤ) :=
  (List.range channels).flatMap fun ch => channelStores inbuf channels (channels + 8 * channels * k + ch) k ch

theorem channelStep_eq {s : AdpcmState} {ch k : ℕ} (hin : s.inbuf = 4 * channels + 4 * channels * k + 4 * ch)
    (hch : s.channel ch = adpcmChannel inbuf channels ch (8 * k)) :
    channelStep inbuf channels s ch =
      { s with
        stores := s.stores ++ channelStores inbuf channels s.outbuf k ch
        pcmdata := Function.update s.pcmdata ch (adpcmChannel inbuf channels ch (8 * k + 8)).pcmdata
        index := Function.update s.index ch (adpcmChannel inbuf channels ch (8 * k + 8)).index
        inbuf := s.inbuf + 4
        outbuf := s.outbuf + 1 } := by
  rw [channelStep, foldl_byteStep inbuf channels hin hch 4 le_rfl]
  rfl

/-- the decoder at the start of chunk `k`: past the headers and `k` chunks, every channel `8 * k` codes on -/
structure AtChunk (s : AdpcmState) (k : ℕ) : Prop where
  inPos : s.inbuf = 4 * channels + 4 * channels * k
  outPos : s.outbuf = channels + 8 * channels * k
  decoded : ∀ ch < channels, s.channel ch = adpcmChannel inbuf channels ch (8 * k)

/-- the decoder in chunk `k` after `m` channels -/
structure InChunk (s : AdpcmState) (k m : ℕ) : Prop where
  inPos : s.inbuf = 4 * channels + 4 * channels * k + 4 * m
  outPos : s.outbuf = channels + 8 * channels * k + m
  decoded : ∀ ch < channels, s.channel ch = adpcmChannel inbuf channels ch (if ch < m then 8 * k + 8 else 8 * k)

/-- the channel loop of chunk `k`, by induction on the channels done -/
theorem foldl_channelStep {s : AdpcmState} {k : ℕ} (hs : AtChunk inbuf channels s k) :
    ∀ m ≤ channels, InChunk inbuf channels ((List.range m).foldl (channelStep inbuf channels) s) k m ∧
      ((List.range m).foldl (channelStep inbuf channels) s).stores =
        s.stores ++ (List.range m).flatMap fun ch => channelStores inbuf channels (channels + 8 * channels * k + ch) k ch
  | 0, _ => ⟨⟨hs.inPos, hs.outPos, fun ch hch => by simpa using hs.decoded ch hch⟩, by simp⟩
  | m + 1, hm => by
    obtain ⟨hin, hstores⟩ := foldl_channelStep hs m (by omega)
    have hch : ((List.range m).foldl (channelStep inbuf channels) s).channel m = adpcmChannel inbuf channels m (8 * k) := by
      simpa using hin.decoded m (by omega)
    rw [List.range_succ, List.foldl_append, List.foldl_cons, List.foldl_nil, channelStep_eq inbuf channels hin.inPos hch]
    refine ⟨⟨?_, ?_, ?_⟩, ?_⟩
    · simp only [hin.inPos]
      omega
    · simp only [hin.outPos]
      omega
    · intro ch hch'
      have hprev := hin.decoded ch hch'
      by_cases hcm : ch = m
      · subst hcm
        simp [AdpcmState.channel]
      · have hlt : (ch < m + 1) = (ch < m) := by
          apply propext
          omega
        simp only [AdpcmState.channel, Function.update_of_ne hcm, hlt] at hprev ⊢
        exact hprev
    · simp only [hstores, hin.outPos, List.flatMap_append, List.flatMap_singleton, List.append_assoc]

/-- one chunk takes every channel 8 codes further -/
theorem chunkStep_atChunk {s : AdpcmState} {k : ℕ} (hs : AtChunk inbuf channels s k) :
    AtChunk inbuf channels (chunkStep inbuf channels s) (k + 1) ∧
      (chunkStep inbuf channels s).stores = s.stores ++ chunkStores inbuf channels k := by
  obtain ⟨hin, hstores⟩ := foldl_channelStep inbuf channels hs channels le_rfl
  refine ⟨⟨?_, ?_, ?_⟩, ?_⟩
  · simp only [chunkStep, hin.inPos]
    ring
  · simp only [chunkStep, hin.outPos]
    ring
  · intro ch hch
    have h := hin.decoded ch hch
    rw [if_pos hch] at h
    rw [show 8 * (k + 1) = 8 * k + 8 by ring]
    exact h
  · simp only [chunkStep, hstores, chunkStores]

/-- the chunk loop, by induction on the chunks done -/
theorem foldl_chunkStep {s : AdpcmState} (hs : AtChunk inbuf channels s 0) :
    ∀ n, AtChunk inbuf channels ((List.range n).foldl (fun s _ => chunkStep inbuf channels s) s) n ∧
      ((List.range n).foldl (fun s _ => chunkStep inbuf channels s) s).stores =
        s.stores ++ (List.range n).flatMap (chunkStores inbuf channels)
  | 0 => ⟨hs, by simp⟩
  | n + 1 => by
    obtain ⟨hn, hstores⟩ := foldl_chunkStep hs n
    obtain ⟨hn', hstores'⟩ := chunkStep_atChunk inbuf channels hn
    rw [List.range_succ, List.foldl_append, List.foldl_cons, List.foldl_nil]
    exact ⟨hn', by rw [hstores', hstores, List.flatMap_append, List.flatMap_singleton, List.append_assoc]⟩

/-- the header stores of the first `n` channels -/
def headerStores (n : ℕ) : List (ℕ × ℤ) := (List.range n).map fun ch => (ch, adpcmSample inbuf channels ch 0)

/-- the decoder after the headers of the first `n` channels -/
structure AfterHeaders (s : AdpcmState) (inbufsize n : ℕ) : Prop where
  inPos : s.inbuf = 4 * n
  outPos : s.outbuf = n
  size : s.inbufsize = inbufsize - 4 * n
  decoded : ∀ ch < n, s.channel ch = adpcmChannel inbuf channels ch 0
  stored : s.stores = headerStores inbuf channels n

theorem headerStep_accepted {s : AdpcmState} {ch : ℕ} (hin : s.inbuf = 4 * ch)
    (hacc : headerRefused inbuf (4 * ch) = false) :
    headerStep inbuf s ch = .ok
      { s with
        stores := s.stores ++ [(s.outbuf, adpcmSample inbuf channels ch 0)]
        outbuf := s.outbuf + 1
        pcmdata := Function.update s.pcmdata ch (adpcmChannel inbuf channels ch 0).pcmdata
        index := Function.update s.index ch (adpcmChannel inbuf channels ch 0).index
        inbufsize := s.inbufsize - 4
        inbuf := s.inbuf + 4 } := by
  simp only [headerStep, hin, hacc]
  rfl

/-- the header loop over accepted headers, by induction on the channels done -/
theorem foldlM_headerStep (inbufsize : ℕ) :
    ∀ n, (∀ ch < n, headerRefused inbuf (4 * ch) = false) →
      ∃ s, (List.range n).foldlM (headerStep inbuf) (adpcmStart inbufsize) = .ok s ∧
        AfterHeaders inbuf channels s inbufsize n
  | 0, _ => ⟨adpcmStart inbufsize, rfl, ⟨rfl, rfl, rfl, fun _ h => absurd h (Nat.not_lt_zero _), rfl⟩⟩
  | n + 1, hacc => by
    obtain ⟨s, hrun, hs⟩ := foldlM_headerStep inbufsize n fun ch hch => hacc ch (by omega)
    have hrun' : (List.range (n + 1)).foldlM (headerStep inbuf) (adpcmStart inbufsize) = headerStep inbuf s n := by
      rw [List.range_succ, List.foldlM_append, hrun]
      simp only [List.foldlM_cons, List.foldlM_nil, bind_pure]
      rfl
    rw [headerStep_accepted inbuf channels hs.inPos (hacc n (by omega))] at hrun'
    refine ⟨_, hrun', ⟨?_, ?_, ?_, ?_, ?_⟩⟩
    · simp only [hs.inPos]
      omega
    · simp only [hs.outPos]
    · simp only [hs.size]
      omega
    · intro ch hch
      by_cases hcn : ch = n
      · subst hcn
        simp [AdpcmState.channel]
      · have h := hs.decoded ch (by omega)
        simp only [AdpcmState.channel, Function.update_of_ne hcn] at h ⊢
        exact h
    · simp only [hs.stored, hs.outPos, headerStores, List.range_succ, List.map_append, List.map_singleton]

/-- the stores of a block whose headers are accepted and that holds `n` chunks, in the order the source makes them -/
def blockStores (n : ℕ) : List (ℕ × ℤ) :=
  headerStores inbuf channels channels ++ (List.range n).flatMap (chunkStores inbuf channels)

/-- adpcm_decode_block on a block whose headers are accepted: every chunk that fits whole is decoded -/
theorem adpcmDecodeBlock_accepted {inbufsize : ℕ} (hpos : 0 < channels) (hsize : channels * 4 ≤ inbufsize)
    (hacc : HeadersAccepted inbuf channels) :
    adpcmDecodeBlock inbuf inbufsize channels =
      some (1 + (inbufsize - 4 * channels) / (channels * 4) * 8,
        blockStores inbuf channels ((inbufsize - 4 * channels) / (channels * 4))) := by
  obtain ⟨s, hrun, hs⟩ := foldlM_headerStep inbuf channels inbufsize channels hacc
  have hstart : AtChunk inbuf channels s 0 :=
    ⟨by simp [hs.inPos], by simp [hs.outPos], fun ch hch => by simpa using hs.decoded ch hch⟩
  have hchunks := (foldl_chunkStep inbuf channels hstart ((inbufsize - 4 * channels) / (channels * 4))).2
  rw [adpcmDecodeBlock, if_neg (by omega), hrun]
  simp only [if_neg (Nat.pos_iff_ne_zero.mp hpos), hs.size, hchunks, hs.stored, blockStores]

theorem length_blockStores (n : ℕ) : (blockStores inbuf channels n).length = channels * (1 + n * 8) := by
  simp [blockStores, headerStores, chunkStores, channelStores, byteStores, List.length_flatMap]
  ring

/-- slot `p` of a block of `n` chunks holds sample `p / channels` of channel `p % channels` -/
theorem mem_blockStores (hpos : 0 < channels) {n p : ℕ} (hp : p < channels * (1 + n * 8)) :
    (p, adpcmSample inbuf channels (p % channels) (p / channels)) ∈ blockStores inbuf channels n := by
  have hch : p % channels < channels := Nat.mod_lt p hpos
  have hsplit : p = p / channels * channels + p % channels := (Nat.div_add_mod' p channels).symm
  have hs : p / channels < 1 + n * 8 := (Nat.div_lt_iff_lt_mul hpos).mpr (by rwa [Nat.mul_comm])
  rw [blockStores, List.mem_append]
  rcases Nat.eq_zero_or_pos (p / channels) with h0 | hpos'
  · -- the header sample
    refine Or.inl (List.mem_map.mpr ⟨p % channels, List.mem_range.mpr hch, ?_⟩)
    rw [h0, Nat.zero_mul, Nat.zero_add] at hsplit
    rw [h0, ← hsplit]
  · -- code `p / channels - 1` of the channel, in chunk `k`, byte `i`
    obtain ⟨k, i, r, hi, hr, hk⟩ : ∃ k i r, i < 4 ∧ r < 2 ∧ p / channels = 8 * k + 2 * i + r + 1 :=
      ⟨(p / channels - 1) / 8, (p / channels - 1) % 8 / 2, (p / channels - 1) % 2, by omega, by omega, by omega⟩
    have hkn : k < n := by omega
    refine Or.inr (List.mem_flatMap.mpr ⟨k, List.mem_range.mpr hkn, List.mem_flatMap.mpr ⟨p % channels,
      List.mem_range.mpr hch, List.mem_flatMap.mpr ⟨i, List.mem_range.mpr hi, ?_⟩⟩⟩)
    rw [hk] at hsplit
    rw [byteStores, hk]
    interval_cases r
    · -- the low nibble
      refine List.mem_cons.mpr (Or.inl (Prod.ext ?_ rfl))
      calc p = (8 * k + 2 * i + 0 + 1) * channels + p % channels := hsplit
        _ = channels + 8 * channels * k + p % channels + i * 2 * channels := by ring
    · -- the high nibble
      refine List.mem_cons.mpr (Or.inr (List.mem_singleton.mpr (Prod.ext ?_ rfl)))
      calc p = (8 * k + 2 * i + 1 + 1) * channels + p % channels := hsplit
        _ = channels + 8 * channels * k + p % channels + (i * 2 + 1) * channels := by ring

/-- the stores of a block of `n` chunks fill the slots below `channels * (1 + n * 8)`, each once -/
theorem blockStores_perm (hpos : 0 < channels) (n : ℕ) :
    (blockStores inbuf channels n).Perm ((List.range (channels * (1 + n * 8))).map
      fun p => (p, adpcmSample inbuf channels (p % channels) (p / channels))) := by
  have hnodup : ((List.range (channels * (1 + n * 8))).map
      fun p => (p, adpcmSample inbuf channels (p % channels) (p / channels))).Nodup :=
    List.nodup_range.map fun a b h => congrArg Prod.fst h
  -- every slot is stored, and there are no more stores than slots
  have hsub : ((List.range (channels * (1 + n * 8))).map
      fun p => (p, adpcmSample inbuf channels (p % channels) (p / channels))).Subperm (blockStores inbuf channels n) :=
    List.subperm_of_subset hnodup fun x hx => by
      obtain ⟨p, hp, rfl⟩ := List.mem_map.mp hx
      exact mem_blockStores inbuf channels hpos (List.mem_range.mp hp)
  exact (hsub.perm_of_length_le (by rw [length_blockStores, List.length_map, List.length_range])).symm

/-- no slot is stored twice -/
theorem nodup_blockStores_slots (hpos : 0 < channels) (n : ℕ) :
    ((blockStores inbuf channels n).map Prod.fst).Nodup := by
  rw [((blockStores_perm inbuf channels hpos n).map Prod.fst).nodup_iff, List.map_map]
  exact List.nodup_range.map_on fun a _ b _ h => h

end Loops

/-! ## The decoded block -/

/-- a block whose headers are accepted: adpcm_decode_block returns `1 + 8 * chunks` samples per channel, where the
chunks are those that fit whole after the headers, and stores sample `s` of channel `ch` at `s * channels + ch`, once
for each such slot and nowhere else -/
theorem adpcm_decode_block_interleaves (inbuf : ℕ → UInt8) {channels inbufsize : ℕ} (hpos : 0 < channels)
    (hsize : channels * 4 ≤ inbufsize) (hacc : HeadersAccepted inbuf channels) :
    ∃ stores, adpcmDecodeBlock inbuf inbufsize channels =
        some (1 + (inbufsize - 4 * channels) / (channels * 4) * 8, stores) ∧
      stores.Perm ((List.range (channels * (1 + (inbufsize - 4 * channels) / (channels * 4) * 8))).map
        fun p => (p, adpcmSample inbuf channels (p % channels) (p / channels))) := by
  exact ⟨_, adpcmDecodeBlock_accepted inbuf channels hpos hsize hacc, blockStores_perm inbuf channels hpos _⟩

/-- a stereo block of the 72 bytes voice_get_samples reads -/
def stereoBlock : ℕ → UInt8 := fun i =>
  if i < 8 then [0x34, 0x12, 0x05, 0x00, 0xcd, 0xab, 0x58, 0x00].getD i 0 else UInt8.ofNat (i * 37)

theorem stereo_block_interleaves :
    ∃ stores, adpcmDecodeBlock stereoBlock 72 2 = some (65, stores) ∧
      stores.Perm ((List.range 130).map fun p => (p, adpcmSample stereoBlock 2 (p % 2) (p / 2))) :=
  adpcm_decode_block_interleaves stereoBlock (by decide) (by decide) (by decide)

/-! ## What a channel reads -/

/-- the first `n` samples of a channel read only the headers and the chunks they need, the bytes below
`4 * channels * (1 + (n + 7) / 8)` -/
theorem adpcmChannel_congr {inbuf inbuf' : ℕ → UInt8} {channels ch : ℕ} (hch : ch < channels) :
    ∀ n, (∀ j < 4 * channels * (1 + (n + 7) / 8), inbuf j = inbuf' j) →
      adpcmChannel inbuf channels ch n = adpcmChannel inbuf' channels ch n
  | 0, h => by
    have hhdr : ∀ k < 3, inbuf (4 * ch + k) = inbuf' (4 * ch + k) := fun k hk => h _ (by omega)
    simp only [adpcmChannel, headerSample, headerIndex]
    rw [← Nat.add_zero (4 * ch), hhdr 0 (by omega), hhdr 1 (by omega), hhdr 2 (by omega)]
  | n + 1, h => by
    have hnext : (n + 1 + 7) / 8 = n / 8 + 1 := by omega
    have hmono : 4 * channels * (1 + (n + 7) / 8) ≤ 4 * channels * (1 + (n + 1 + 7) / 8) :=
      Nat.mul_le_mul_left _ (by omega)
    -- the byte of code `n` lies in the chunk `n / 8`
    have hbyte : 4 * channels + 4 * channels * (n / 8) + 4 * ch + n % 8 / 2 < 4 * channels * (1 + (n + 1 + 7) / 8) := by
      have hsplit : 4 * channels * (1 + (n / 8 + 1)) = 4 * channels + 4 * channels * (n / 8) + 4 * channels := by ring
      rw [hnext, hsplit]
      omega
    rw [adpcmChannel, adpcmChannel, adpcmChannel_congr hch n fun j hj => h j (lt_of_lt_of_le hj hmono), adpcmCode,
      adpcmCode, h _ hbyte]

/-- the header checks read the first `4 * channels` bytes only -/
theorem headersAccepted_congr {inbuf inbuf' : ℕ → UInt8} {channels : ℕ}
    (h : ∀ j < 4 * channels, inbuf j = inbuf' j) : HeadersAccepted inbuf channels ↔ HeadersAccepted inbuf' channels := by
  have hheader : ∀ ch < channels, headerRefused inbuf (4 * ch) = headerRefused inbuf' (4 * ch) := by
    intro ch hch
    unfold headerRefused headerIndex
    rw [h (4 * ch + 2) (by omega), h (4 * ch + 3) (by omega)]
  exact forall₂_congr fun ch hch => by rw [hheader ch hch]

/-! ## Refused blocks -/

/-- a block with a refused header: adpcm_decode_block returns 0 having stored the first sample of every header up to
and including the bad one, and nothing else; the rest of `outbuf` keeps what it held -/
theorem adpcm_refused_block_stores_headers (inbuf : ℕ → UInt8) {channels inbufsize bad : ℕ}
    (hsize : channels * 4 ≤ inbufsize) (hbad : bad < channels)
    (hfirst : ∀ ch < bad, headerRefused inbuf (4 * ch) = false) (hrefused : headerRefused inbuf (4 * bad) = true) :
    adpcmDecodeBlock inbuf inbufsize channels =
      some (0, (List.range (bad + 1)).map fun ch => (ch, headerSample inbuf (4 * ch))) := by
  obtain ⟨s, hrun, hs⟩ := foldlM_headerStep inbuf channels inbufsize bad hfirst
  -- the run up to the bad header succeeds, the bad header fails, and a failed run stays failed
  have hrun' : (List.range (bad + 1)).foldlM (headerStep inbuf) (adpcmStart inbufsize) =
      .error ((List.range (bad + 1)).map fun ch => (ch, headerSample inbuf (4 * ch))) := by
    rw [List.range_succ, List.foldlM_append, hrun]
    simp only [List.foldlM_cons, List.foldlM_nil, bind_pure]
    show headerStep inbuf s bad = _
    simp only [headerStep, hs.inPos, hrefused, if_true, hs.stored, hs.outPos, headerStores, List.map_append,
      List.map_singleton]
    rfl
  have hsplit : List.range channels = List.range (bad + 1) ++ (List.range (channels - (bad + 1))).map (bad + 1 + ·) := by
    rw [← List.range_add]
    congr 1
    omega
  rw [adpcmDecodeBlock, if_neg (by omega), hsplit, List.foldlM_append, hrun']
  rfl

/-- the stereo block with the step index of the second channel past 88 -/
def badIndexBlock : ℕ → UInt8 := fun i => if i = 6 then 0x59 else stereoBlock i

theorem bad_second_header_stores_two_samples :
    adpcmDecodeBlock badIndexBlock 72 2 =
      some (0, (List.range (1 + 1)).map fun ch => (ch, headerSample badIndexBlock (4 * ch))) :=
  adpcm_refused_block_stores_headers badIndexBlock (by decide) (by decide) (by decide) (by decide)

end Xemu.Vp
