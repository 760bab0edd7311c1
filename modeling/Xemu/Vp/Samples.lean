import Mathlib
/-!
# Sample positions of a buffer voice

A voice that plays from a buffer (hw/xbox/mcpx/apu/vp/vp.c, voice_get_samples) keeps its current position `cbo`
between calls and reads from it while the request is not filled and `cbo ≤ ebo`. After the loop it tests
`cbo >= ebo`: a looping voice goes back to `lbo`, any other voice is switched off. The test runs also when the loop
stopped because the request was filled, with `cbo` on the end sample `ebo` that has not been read yet; that sample is
then skipped.

`voiceGetSamples_eq` says what one call reads. `runRequests_prefix` shows that, as long as no request ends exactly
before `ebo`, any chunking of the requests plays the looped sequence `cbo … ebo, lbo … ebo, …`.
`request_ending_before_ebo_skips` shows that a request ending there replaces `ebo` by `lbo`.

voice_resample_callback calls voice_get_samples until the frame of `numSamplesPerFrame` samples is full or the voice is
off. A voice whose loop start is not past its end fills the frame or is switched off within
`numSamplesPerFrame - count + 1` calls (`voiceResampleCallback_ends`): after one call it is `Playable`, and from then
on every call reads. A looping voice with `lbo > ebo` never reads again once past `ebo`
(`looping_voice_past_end_starves`). The sample data (PCM containers, ADPCM blocks) is read at the positions given here
and is left out, and so are streaming voices and paused ones.
-/

namespace Xemu.Vp

/-- NUM_SAMPLES_PER_FRAME -/
def numSamplesPerFrame : ℕ := 32

/-- the fields of a buffer voice that voice_get_samples reads and writes: the current, loop and end offsets (CBO, LBO,
EBO), the loop flag and NV_PAVS_VOICE_PAR_STATE_ACTIVE_VOICE -/
structure BufferVoice where
  cbo : ℕ
  lbo : ℕ
  ebo : ℕ
  loop : Bool
  active : Bool
  deriving DecidableEq, Repr

/-- the sample loop of voice_get_samples: the positions read, and `cbo` when the loop stops -/
def readSamples (ebo : ℕ) : ℕ → ℕ → List ℕ × ℕ
  | 0, cbo => ([], cbo)
  | n + 1, cbo =>
    if cbo ≤ ebo then
      let rest := readSamples ebo n (cbo + 1)
      (cbo :: rest.1, rest.2)
    else ([], cbo)

/-- voice_off, as far as the voice's own fields go -/
def voiceOff (v : BufferVoice) : BufferVoice := { v with active := false }

/-- voice_get_samples for a voice that plays from a buffer, neither paused nor multipass: the positions read, in
order, and the voice with its new CBO -/
def voiceGetSamples (v : BufferVoice) (requested : ℕ) : List ℕ × BufferVoice :=
  let read := readSamples v.ebo requested v.cbo
  (read.1,
    if read.2 ≥ v.ebo then
      if v.loop then { v with cbo := v.lbo } else voiceOff { v with cbo := v.ebo }
    else { v with cbo := read.2 })

/-- a run of calls with the given request sizes: all positions read, and the voice at the end -/
def runRequests (v : BufferVoice) : List ℕ → List ℕ × BufferVoice
  | [] => ([], v)
  | n :: ns =>
    let first := voiceGetSamples v n
    let rest := runRequests first.2 ns
    (first.1 ++ rest.1, rest.2)

/-- voice_resample_callback: calls voice_get_samples until one frame is filled or the voice is off; each call that
reads nothing uses up one unit of `fuel` as well -/
def voiceResampleCallback : ℕ → BufferVoice → ℕ → List ℕ × BufferVoice
  | 0, v, _ => ([], v)
  | fuel + 1, v, count =>
    if count < numSamplesPerFrame ∧ v.active then
      let first := voiceGetSamples v (numSamplesPerFrame - count)
      let rest := voiceResampleCallback fuel first.2 (count + first.1.length)
      (first.1 ++ rest.1, rest.2)
    else ([], v)

/-! ## The looped sequence -/

/-- the position of the `k`-th sample a looping voice plays from `cbo`: `cbo … ebo`, then `lbo … ebo` again and
again -/
def loopedIndex (cbo lbo ebo k : ℕ) : ℕ :=
  if cbo + k ≤ ebo then cbo + k else lbo + (cbo + k - (ebo + 1)) % (ebo + 1 - lbo)

/-- no request of the run ends with the voice on its end sample -/
def NoEndAtEbo : BufferVoice → List ℕ → Prop
  | _, [] => True
  | v, n :: ns => v.cbo + n ≠ v.ebo ∧ NoEndAtEbo (voiceGetSamples v n).2 ns

theorem readSamples_eq (ebo n cbo : ℕ) :
    readSamples ebo n cbo = (List.range' cbo (min n (ebo + 1 - cbo)), cbo + min n (ebo + 1 - cbo)) := by
  induction n generalizing cbo with
  | zero => simp [readSamples]
  | succ n ih =>
    unfold readSamples
    split_ifs with h
    · -- one more sample, then the rest of the request from `cbo + 1`
      have hmin : min (n + 1) (ebo + 1 - cbo) = min n (ebo + 1 - (cbo + 1)) + 1 := by omega
      rw [ih, hmin, List.range'_succ]
      simp only [Prod.mk.injEq, true_and]
      omega
    · have hmin : min (n + 1) (ebo + 1 - cbo) = 0 := by omega
      simp [hmin]

/-- one call reads `min n (ebo + 1 - cbo)` positions from `cbo` on, and goes back to `lbo` (or switches the voice
off) as soon as it stops at or past `ebo` -/
theorem voiceGetSamples_eq (v : BufferVoice) (n : ℕ) :
    voiceGetSamples v n =
      (List.range' v.cbo (min n (v.ebo + 1 - v.cbo)),
        if v.cbo + min n (v.ebo + 1 - v.cbo) ≥ v.ebo then
          if v.loop then { v with cbo := v.lbo } else voiceOff { v with cbo := v.ebo }
        else { v with cbo := v.cbo + min n (v.ebo + 1 - v.cbo) }) := by
  simp only [voiceGetSamples, readSamples_eq]

@[simp]
theorem voiceGetSamples_lbo (v : BufferVoice) (n : ℕ) : (voiceGetSamples v n).2.lbo = v.lbo := by
  rw [voiceGetSamples_eq]
  split_ifs <;> rfl

@[simp]
theorem voiceGetSamples_ebo (v : BufferVoice) (n : ℕ) : (voiceGetSamples v n).2.ebo = v.ebo := by
  rw [voiceGetSamples_eq]
  split_ifs <;> rfl

@[simp]
theorem voiceGetSamples_loop (v : BufferVoice) (n : ℕ) : (voiceGetSamples v n).2.loop = v.loop := by
  rw [voiceGetSamples_eq]
  split_ifs <;> rfl

/-- a looping voice stays within `[lbo, ebo]` -/
theorem voiceGetSamples_cbo_le (v : BufferVoice) (hloop : v.loop = true) (hl : v.lbo ≤ v.ebo) (n : ℕ) :
    (voiceGetSamples v n).2.cbo ≤ v.ebo := by
  rw [voiceGetSamples_eq]
  split_ifs with h
  · exact hl
  · simp only [not_le] at h
    exact Nat.le_of_lt h

/-- after `ebo + 1 - lbo` positions the loop part repeats -/
theorem loopedIndex_lbo (lbo ebo k : ℕ) (hl : lbo ≤ ebo) :
    loopedIndex lbo lbo ebo k = lbo + k % (ebo + 1 - lbo) := by
  unfold loopedIndex
  split_ifs with h
  · rw [Nat.mod_eq_of_lt (by omega)]
  · have hk : lbo + k - (ebo + 1) = k - (ebo + 1 - lbo) := by omega
    rw [hk, ← Nat.mod_eq_sub_mod (by omega)]

/-- reading `m` positions without going back to `lbo` moves the sequence on by `m` -/
theorem loopedIndex_add (cbo lbo ebo m k : ℕ) :
    loopedIndex cbo lbo ebo (m + k) = loopedIndex (cbo + m) lbo ebo k := by
  unfold loopedIndex
  rw [← Nat.add_assoc]

/-- reading through `ebo` continues the sequence at `lbo` -/
theorem loopedIndex_add_wrap (cbo lbo ebo k : ℕ) (hc : cbo ≤ ebo) (hl : lbo ≤ ebo) :
    loopedIndex cbo lbo ebo (ebo + 1 - cbo + k) = loopedIndex lbo lbo ebo k := by
  rw [loopedIndex_lbo lbo ebo k hl]
  unfold loopedIndex
  rw [if_neg (by omega)]
  have hk : cbo + (ebo + 1 - cbo + k) - (ebo + 1) = k := by omega
  rw [hk]

theorem loopedIndex_of_le (cbo lbo ebo k : ℕ) (hk : cbo + k ≤ ebo) : loopedIndex cbo lbo ebo k = cbo + k := by
  simp [loopedIndex, hk]

/-- the positions one call reads, as a part of the looped sequence -/
theorem range'_eq_map_loopedIndex (cbo lbo ebo m : ℕ) (hm : cbo + m ≤ ebo + 1) :
    List.range' cbo m = (List.range m).map (loopedIndex cbo lbo ebo) := by
  rw [List.range'_eq_map_range]
  refine List.map_congr_left fun k hk => ?_
  rw [List.mem_range] at hk
  rw [loopedIndex_of_le cbo lbo ebo k (by omega)]

/-- every chunking of the requests plays a prefix of the looped sequence, as long as no request ends exactly before
`ebo` -/
theorem runRequests_prefix (ns : List ℕ) (v : BufferVoice) (hloop : v.loop = true) (hl : v.lbo ≤ v.ebo)
    (hc : v.cbo ≤ v.ebo) (hend : NoEndAtEbo v ns) :
    (runRequests v ns).1 = (List.range (runRequests v ns).1.length).map (loopedIndex v.cbo v.lbo v.ebo) := by
  induction ns generalizing v with
  | nil => rfl
  | cons n ns ih =>
    obtain ⟨hn, hrest⟩ := hend
    have hnext := ih (voiceGetSamples v n).2 (by simpa using hloop) (by simpa using hl)
      (by simpa using voiceGetSamples_cbo_le v hloop hl n) hrest
    simp only [voiceGetSamples_lbo, voiceGetSamples_ebo] at hnext
    set m := min n (v.ebo + 1 - v.cbo) with hm
    have hfirst : (voiceGetSamples v n).1 = List.range' v.cbo m := by rw [voiceGetSamples_eq]
    -- the rest of the run continues the looped sequence where this request left the voice
    have hshift : ∀ k, loopedIndex (voiceGetSamples v n).2.cbo v.lbo v.ebo k =
        loopedIndex v.cbo v.lbo v.ebo (m + k) := by
      intro k
      by_cases hwrap : v.cbo + m ≥ v.ebo
      · -- the request ran past `ebo` (it cannot stop on it) and the voice is back at `lbo`
        have hm' : m = v.ebo + 1 - v.cbo := by omega
        have hv : (voiceGetSamples v n).2.cbo = v.lbo := by
          rw [voiceGetSamples_eq, if_pos hwrap, if_pos hloop]
        rw [hv, hm', loopedIndex_add_wrap v.cbo v.lbo v.ebo k hc hl]
      · have hv : (voiceGetSamples v n).2.cbo = v.cbo + m := by
          rw [voiceGetSamples_eq, if_neg hwrap]
        rw [hv, loopedIndex_add v.cbo v.lbo v.ebo m k]
    simp only [runRequests, List.length_append, hfirst, List.length_range', List.range_add, List.map_append,
      List.map_map]
    rw [range'_eq_map_loopedIndex v.cbo v.lbo v.ebo m (by omega)]
    conv_lhs => rw [hnext]
    congr 1
    exact List.map_congr_left fun k _ => hshift k

/-- a request for at least one sample from a position up to `ebo` starts at that position -/
theorem voiceGetSamples_head (v : BufferVoice) (hc : v.cbo ≤ v.ebo) (n : ℕ) (hn : 0 < n) :
    (voiceGetSamples v n).1[0]? = some v.cbo := by
  rw [voiceGetSamples_eq]
  obtain ⟨k, hk⟩ : ∃ k, min n (v.ebo + 1 - v.cbo) = k + 1 := ⟨min n (v.ebo + 1 - v.cbo) - 1, by omega⟩
  rw [hk, List.range'_succ]
  rfl

/-! ## A request that ends before the end sample -/

/-- a looping voice before `ebo`, asked for exactly the samples up to `ebo`, reads `cbo … ebo - 1` and goes back to
`lbo`: the next request starts at `lbo` where the looped sequence has `ebo` -/
theorem request_ending_before_ebo_skips (v : BufferVoice) (hloop : v.loop = true) (hc : v.cbo < v.ebo)
    (hl : v.lbo < v.ebo) (n : ℕ) (hn : 0 < n) :
    (runRequests v [v.ebo - v.cbo, n]).1[v.ebo - v.cbo]? = some v.lbo ∧
      loopedIndex v.cbo v.lbo v.ebo (v.ebo - v.cbo) = v.ebo := by
  have hfirst : voiceGetSamples v (v.ebo - v.cbo) = (List.range' v.cbo (v.ebo - v.cbo), { v with cbo := v.lbo }) := by
    rw [voiceGetSamples_eq, Nat.min_eq_left (by omega), if_pos (by omega), if_pos hloop]
  have hsecond := voiceGetSamples_head { v with cbo := v.lbo } (by exact Nat.le_of_lt hl) n hn
  refine ⟨?_, loopedIndex_of_le v.cbo v.lbo v.ebo _ (by omega) |>.trans (by omega)⟩
  simp only [runRequests, hfirst, List.append_nil]
  rw [List.getElem?_append_right (by simp), List.length_range', Nat.sub_self]
  exact hsecond

/-- a 3-sample loop from 0, asked for 2 samples and then 1: it plays 0, 1, 0 where the loop has 0, 1, 2 -/
theorem three_sample_loop_skips_end :
    (0 : ℕ) < 2 ∧ (0 : ℕ) < 2 ∧ 0 < 1 ∧
      (runRequests ⟨0, 0, 2, true, true⟩ [2 - 0, 1]).1[2 - 0]? = some 0 ∧ loopedIndex 0 0 2 (2 - 0) = 2 :=
  ⟨by decide, by decide, by decide, request_ending_before_ebo_skips ⟨0, 0, 2, true, true⟩ rfl (by decide) (by decide) 1
    (by decide)⟩

/-- the mixer's own requests hit the end sample: a 33-sample loop, read one frame of 32 at a time, never plays its
last sample -/
example : (voiceResampleCallback 4 ⟨0, 0, 32, true, true⟩ 0).1 = List.range 32 ∧
    (voiceResampleCallback 4 ⟨0, 0, 32, true, true⟩ 0).2.cbo = 0 := by
  decide

/-! ## Filling a frame -/

/-- a voice whose next call reads: it is at or before its end sample, and a looping voice goes back to a loop start
that is not past the end -/
def Playable (v : BufferVoice) : Prop :=
  v.cbo ≤ v.ebo ∧ (v.loop = true → v.lbo ≤ v.ebo)

instance : DecidablePred Playable := fun v => by
  unfold Playable
  infer_instance

/-- a playable voice asked for samples reads at least one -/
theorem voiceGetSamples_length_pos {v : BufferVoice} (hv : Playable v) {n : ℕ} (hn : 0 < n) :
    0 < (voiceGetSamples v n).1.length := by
  rw [voiceGetSamples_eq, List.length_range']
  have := hv.1
  omega

/-- after any call of a voice whose loop start is not past its end, the voice is playable or switched off -/
theorem voiceGetSamples_playable {v : BufferVoice} (hl : v.loop = true → v.lbo ≤ v.ebo) (n : ℕ) :
    Playable (voiceGetSamples v n).2 ∨ (voiceGetSamples v n).2.active = false := by
  rw [voiceGetSamples_eq]
  split_ifs with hwrap hloop
  · -- back at the loop start
    exact Or.inl ⟨hl hloop, fun _ => hl hloop⟩
  · exact Or.inr rfl
  · -- stopped before the end sample
    exact Or.inl ⟨by simp only; omega, hl⟩

/-- the callback's loop stops when the frame is full or the voice is off -/
theorem frame_done_of_not_run {v : BufferVoice} {count : ℕ} (hrun : ¬(count < numSamplesPerFrame ∧ v.active = true)) :
    numSamplesPerFrame ≤ count ∨ v.active = false := by
  by_cases hcount : count < numSamplesPerFrame
  · exact Or.inr (by simpa [hcount] using hrun)
  · exact Or.inl (by omega)

/-- voice_resample_callback from a playable (or switched off) voice: each call while the frame is not full reads at
least one sample, so `numSamplesPerFrame - count` calls fill the frame unless the voice is switched off first -/
theorem voiceResampleCallback_of_playable (fuel : ℕ) (v : BufferVoice) (count : ℕ)
    (hv : Playable v ∨ v.active = false) (hfuel : numSamplesPerFrame - count ≤ fuel) :
    numSamplesPerFrame ≤ count + (voiceResampleCallback fuel v count).1.length ∨
      (voiceResampleCallback fuel v count).2.active = false := by
  induction fuel generalizing v count with
  | zero =>
    left
    simp only [voiceResampleCallback, List.length_nil]
    omega
  | succ fuel ih =>
    unfold voiceResampleCallback
    split_ifs with hrun
    · obtain ⟨hcount, hactive⟩ := hrun
      have hplay : Playable v := hv.resolve_right (by rw [hactive]; decide)
      have hread := voiceGetSamples_length_pos hplay (show 0 < numSamplesPerFrame - count by omega)
      have hnext := voiceGetSamples_playable (fun hloop => hplay.2 hloop) (numSamplesPerFrame - count)
      -- the rest of the frame is at least one sample shorter
      rcases ih _ (count + (voiceGetSamples v (numSamplesPerFrame - count)).1.length) hnext (by omega)
        with hfull | hoff
      · left
        simp only [List.length_append]
        omega
      · exact Or.inr hoff
    · simpa only [List.length_nil, Nat.add_zero] using frame_done_of_not_run hrun

/-- a voice whose loop start is not past its end fills its frame, or is switched off, within
`numSamplesPerFrame - count + 1` calls: the first call may read nothing, the next ones read -/
theorem voiceResampleCallback_ends {v : BufferVoice} (hl : v.loop = true → v.lbo ≤ v.ebo) {fuel count : ℕ}
    (hfuel : numSamplesPerFrame - count + 1 ≤ fuel) :
    numSamplesPerFrame ≤ count + (voiceResampleCallback fuel v count).1.length ∨
      (voiceResampleCallback fuel v count).2.active = false := by
  obtain ⟨fuel, rfl⟩ : ∃ f, fuel = f + 1 := ⟨fuel - 1, by omega⟩
  unfold voiceResampleCallback
  split_ifs with hrun
  · have hnext := voiceGetSamples_playable hl (numSamplesPerFrame - count)
    rcases voiceResampleCallback_of_playable fuel _ (count + (voiceGetSamples v (numSamplesPerFrame - count)).1.length)
      hnext (by omega) with hfull | hoff
    · left
      simp only [List.length_append]
      omega
    · exact Or.inr hoff
  · simpa only [List.length_nil, Nat.add_zero] using frame_done_of_not_run hrun

/-! ## A loop start past the end -/

/-- A looping voice whose loop start LBO lies past its end EBO, once past EBO, reads nothing, goes back to LBO and stays
active, so voice_resample_callback's loop never fills the frame: whatever the fuel, it ends with no sample read and
the voice still active. -/
theorem looping_voice_past_end_starves (v : BufferVoice) (hloop : v.loop = true) (hactive : v.active = true)
    (hlbo : v.ebo < v.lbo) (hcbo : v.ebo < v.cbo) :
    (∀ n, voiceGetSamples v n = ([], { v with cbo := v.lbo })) ∧
      ∀ fuel, voiceResampleCallback (fuel + 1) v 0 = ([], { v with cbo := v.lbo }) := by
  have hcall : ∀ w : BufferVoice, w.loop = true → w.ebo < w.cbo → ∀ n, voiceGetSamples w n = ([], { w with cbo := w.lbo }) := by
    intro w hwloop hwcbo n
    rw [voiceGetSamples_eq, Nat.min_eq_right (by omega), Nat.sub_eq_zero_of_le (by omega), List.range'_zero,
      Nat.add_zero, if_pos (by omega), if_pos hwloop]
  refine ⟨hcall v hloop hcbo, fun fuel => ?_⟩
  -- every call starts past the end and goes back to LBO, which is past the end as well
  induction fuel generalizing v with
  | zero =>
    rw [voiceResampleCallback, if_pos ⟨by decide, hactive⟩, hcall v hloop hcbo]
    rfl
  | succ fuel ih =>
    rw [voiceResampleCallback, if_pos ⟨by decide, hactive⟩, hcall v hloop hcbo]
    simp only [List.length_nil, Nat.add_zero, List.nil_append]
    rw [ih { v with cbo := v.lbo } hloop hactive hlbo hlbo]

theorem loop_start_past_end_starves_5_3 :
    (⟨5, 10, 3, true, true⟩ : BufferVoice).loop = true ∧ (⟨5, 10, 3, true, true⟩ : BufferVoice).active = true ∧
      (3 : ℕ) < 10 ∧ (3 : ℕ) < 5 ∧ voiceResampleCallback 100 ⟨5, 10, 3, true, true⟩ 0 = ([], ⟨10, 10, 3, true, true⟩) :=
  ⟨rfl, rfl, by decide, by decide,
    (looping_voice_past_end_starves ⟨5, 10, 3, true, true⟩ rfl rfl (by decide) (by decide)).2 99⟩

end Xemu.Vp
