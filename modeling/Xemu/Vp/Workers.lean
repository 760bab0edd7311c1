import Mathlib
/-!
# Parallel voice processing

Each frame the voice processor queues the active voices of the 2D, 3D and multipass lists
(hw/xbox/mcpx/apu/vp/vp.c) and hands them to worker threads. `voice_work_schedule` gives each queued voice to one
worker, round robin, except that a group of voices mixing into the multipass bin (bin 31) stays on one worker up to
the multipass voice that reads and clears the bin. Each worker runs `voice_process` over its voices on its own zeroed
mixbins, and adds them to the dispatcher's mixbins under a lock. The workers may finish in any order: `order` is the
order in which they add.

The samples of a frame are an element of an additive commutative monoid `M`, so float rounding is left out. A voice
enters as what one frame of it reads: its configuration, the samples its resampling produces and what each of its
eight slots adds to its bin. The envelopes, filters and resampling of voice_process act on the voice's own state only,
and are abstracted that way.

* `voiceWorkDispatch_sequential`: if every multipass voice of the queue is running and mixes into bins other than the
  multipass bin, the parallel mixbins are those of voice_process run over the queue in order on one shared array.
* `paused_multipass_voice_splits_group`: the scheduler ends a group at every multipass voice, but a paused one returns
  before it reads and clears the bin. Its group's contributions stay in the bin, where the sequential order hands
  them to the next multipass voice, and the parallel order leaves them on another worker.
-/

namespace Xemu.Vp

/-- MULTIPASS_BIN -/
def multipassBin : Fin 32 := 31

/-- MULTIPASS_BIN_MASK -/
def multipassBinMask : ℕ := 1 <<< 31

/-- MAX_VOICE_WORKERS -/
def maxVoiceWorkers : ℕ := 16

/-- the mixbins of one frame: a frame of samples for each of the NUM_MIXBINS = 32 bins -/
abbrev Mixbins (M : Type*) := Fin 32 → M

/-- a voice as one frame of voice_process and get_voice_bin_src_dst sees it -/
structure VoiceFrame (M : Type*) where
  paused : Bool
  multipass : Bool
  mpBin : Fin 32
  clearMix : Bool
  /-- what the resampling loop of a voice that is not multipass produces; `none` where it finds the voice inactive
  and returns -/
  resampled : Option M
  /-- NV_PAVS_VOICE_PAR_STATE_ACTIVE_VOICE once the samples are read -/
  active : Bool
  /-- voice_should_mute -/
  muted : Bool
  /-- `bin[0..7]`, the HRTF submixes in the first four for a 3D voice -/
  bin : Fin 8 → Fin 32
  /-- what slot `b` adds to `bin[b]` from the samples: the gain, the filters and the channel `b % channels` -/
  gain : Fin 8 → M → M

variable {M : Type*} [AddCommMonoid M]

/-! ## voice_process -/

/-- get_multipass_samples: the samples are the multipass bin, which CLEAR_MIX then clears -/
def getMultipassSamples (v : VoiceFrame M) (mixbins : Mixbins M) : M × Mixbins M :=
  (mixbins v.mpBin, if v.clearMix then Function.update mixbins v.mpBin 0 else mixbins)

/-- the last loop of voice_process: every slot adds to its bin -/
def mixIntoBins (v : VoiceFrame M) (samples : M) (mixbins : Mixbins M) : Mixbins M :=
  (List.finRange 8).foldl (fun mb b => Function.update mb (v.bin b) (mb (v.bin b) + v.gain b samples)) mixbins

/-- voice_process once the samples are read: the voice returns if it has gone inactive or is muted -/
def mixSamples (v : VoiceFrame M) (samples : M) (mixbins : Mixbins M) : Mixbins M :=
  if !v.active then mixbins
  else if v.muted then mixbins
  else mixIntoBins v samples mixbins

/-- voice_process -/
def voiceProcess (v : VoiceFrame M) (mixbins : Mixbins M) : Mixbins M :=
  if v.paused then mixbins
  else if v.multipass then
    let read := getMultipassSamples v mixbins
    mixSamples v read.1 read.2
  else
    match v.resampled with
    | none => mixbins
    | some samples => mixSamples v samples mixbins

/-- the loop of voice_worker_thread over its queue, and the reference order: voice_process over a queue in order on
one mixbins array -/
def processQueue (queue : List (VoiceFrame M)) (mixbins : Mixbins M) : Mixbins M :=
  queue.foldl (fun mb v => voiceProcess v mb) mixbins

/-! ## voice_work_schedule -/

/-- get_voice_bin_src_dst: the masks of the bins the voice reads, writes and clears -/
def getVoiceBinSrcDst (v : VoiceFrame M) : ℕ × ℕ × ℕ :=
  let src := if v.multipass then 1 <<< (v.mpBin : ℕ) else 0
  let clr := if v.multipass && v.clearMix then 1 <<< (v.mpBin : ℕ) else 0
  let dst := (List.finRange 8).foldl (fun d i => d ||| 1 <<< (v.bin i : ℕ)) 0
  (src, dst, clr)

/-- the variables of voice_work_schedule's loop -/
structure ScheduleState where
  nextWorkerToSchedule : ℕ
  group : Bool
  dirty : ℕ

/-- one pass of voice_work_schedule's loop: the worker the voice goes to, and the loop's variables after it; `none`
where one of the three asserts fails -/
def scheduleVoice (numWorkers : ℕ) (s : ScheduleState) (v : VoiceFrame M) : Option (ℕ × ScheduleState) :=
  let masks := getVoiceBinSrcDst v
  let src := masks.1
  let dst := masks.2.1
  let clr := masks.2.2
  if src ≠ 0 ∧ src ≠ multipassBinMask then none
  else if src ≠ 0 ∧ clr ≠ multipassBinMask then none
  else if src = 0 ∧ dst &&& multipassBinMask = 0 ∧ s.dirty &&& multipassBinMask ≠ 0 then none
  else
    let group := if dst &&& multipassBinMask &&& (0xffffffff ^^^ s.dirty) ≠ 0 then true else s.group
    let dirty := (s.dirty &&& (0xffffffff ^^^ clr)) ||| dst
    let group := if clr &&& multipassBinMask ≠ 0 then false else group
    let next := if !group then (s.nextWorkerToSchedule + 1) % numWorkers else s.nextWorkerToSchedule
    some (s.nextWorkerToSchedule, ⟨next, group, dirty⟩)

/-- the loop of voice_work_schedule from the state `s`: the worker of every queued voice -/
def scheduleFrom (numWorkers : ℕ) (s : ScheduleState) : List (VoiceFrame M) → Option (List ℕ)
  | [] => some []
  | v :: queue =>
    (scheduleVoice numWorkers s v).bind fun r => (scheduleFrom numWorkers r.2 queue).map (r.1 :: ·)

/-- voice_work_schedule -/
def voiceWorkSchedule (numWorkers : ℕ) (queue : List (VoiceFrame M)) : Option (List ℕ) :=
  scheduleFrom numWorkers ⟨0, false, 0⟩ queue

/-! ## voice_work_dispatch -/

/-- the queue of worker `w`: the voices the schedule gives it, in queue order -/
def workerQueue (queue : List (VoiceFrame M)) (assign : List ℕ) (w : ℕ) : List (VoiceFrame M) :=
  ((queue.zip assign).filter fun p => p.2 = w).map Prod.fst

/-- voice_work_dispatch: each worker processes its queue on zeroed mixbins, and the workers add theirs under the
lock in the order `order` in which they finish; the sum is added to `mixbins` -/
def voiceWorkDispatch (numWorkers : ℕ) (order : List ℕ) (queue : List (VoiceFrame M)) (mixbins : Mixbins M) :
    Option (Mixbins M) :=
  if queue.isEmpty then some mixbins
  else (voiceWorkSchedule numWorkers queue).map fun assign =>
    mixbins + order.foldl (fun acc w => acc + processQueue (workerQueue queue assign w) 0) 0

/-! ## What a voice adds -/

/-- what the slots of a voice add to the bins from `samples` -/
def contribution (v : VoiceFrame M) (samples : M) : Mixbins M :=
  ((List.finRange 8).map fun b => Pi.single (v.bin b) (v.gain b samples)).sum

/-- whether a slot of the voice mixes into the multipass bin -/
def writesMultipass (v : VoiceFrame M) : Bool := (List.finRange 8).any fun b => v.bin b = multipassBin

theorem update_add_eq_add_single (mb : Mixbins M) (k : Fin 32) (x : M) :
    Function.update mb k (mb k + x) = mb + Pi.single k x := by
  funext j
  by_cases hj : j = k
  · subst hj
    simp
  · simp [hj]

theorem foldl_mix_eq_add (v : VoiceFrame M) (samples : M) (l : List (Fin 8)) (mb : Mixbins M) :
    l.foldl (fun mb b => Function.update mb (v.bin b) (mb (v.bin b) + v.gain b samples)) mb =
      mb + (l.map fun b => Pi.single (v.bin b) (v.gain b samples)).sum := by
  induction l generalizing mb with
  | nil => simp
  | cons b l ih =>
    rw [List.foldl_cons, ih, update_add_eq_add_single, List.map_cons, List.sum_cons, add_assoc]

theorem mixIntoBins_eq_add (v : VoiceFrame M) (samples : M) (mb : Mixbins M) :
    mixIntoBins v samples mb = mb + contribution v samples :=
  foldl_mix_eq_add v samples _ mb

theorem mixSamples_eq_add (v : VoiceFrame M) (samples : M) (mb : Mixbins M) :
    mixSamples v samples mb = mb + mixSamples v samples 0 := by
  unfold mixSamples
  split_ifs
  · simp
  · simp
  · rw [mixIntoBins_eq_add, mixIntoBins_eq_add, zero_add]

/-- a voice with no slot on bin `k` adds nothing to it -/
theorem contribution_apply_of_ne (v : VoiceFrame M) (samples : M) {k : Fin 32} (hk : ∀ b, v.bin b ≠ k) :
    contribution v samples k = 0 := by
  rw [contribution, Pi.list_sum_apply, List.map_map]
  apply List.sum_eq_zero
  intro x hx
  obtain ⟨b, -, rfl⟩ := List.mem_map.1 hx
  simp [Ne.symm (hk b)]

theorem mixSamples_zero_apply (v : VoiceFrame M) (samples : M) {k : Fin 32} (hk : ∀ b, v.bin b ≠ k) :
    mixSamples v samples 0 k = 0 := by
  unfold mixSamples
  split_ifs
  · rfl
  · rfl
  · rw [mixIntoBins_eq_add, zero_add]
    exact contribution_apply_of_ne v samples hk

omit [AddCommMonoid M] in
theorem not_writesMultipass {v : VoiceFrame M} (h : writesMultipass v = false) : ∀ b, v.bin b ≠ multipassBin := by
  intro b hb
  have : writesMultipass v = true := List.any_eq_true.2 ⟨b, List.mem_finRange b, decide_eq_true hb⟩
  rw [h] at this
  exact Bool.false_ne_true this

/-- a voice that does not read the mixbins adds the same whatever they hold -/
theorem voiceProcess_of_not_read {v : VoiceFrame M} (h : v.multipass = false ∨ v.paused = true) (mb : Mixbins M) :
    voiceProcess v mb = mb + voiceProcess v 0 := by
  rcases h with hm | hp
  · by_cases hp : v.paused = true
    · simp [voiceProcess, hp]
    · simp only [voiceProcess, hp, hm, Bool.false_eq_true, if_false]
      cases v.resampled with
      | none => simp
      | some samples => exact mixSamples_eq_add v samples mb
  · simp [voiceProcess, hp]

/-- a running multipass voice that clears: the bin is read and cleared, then the voice adds what it read -/
theorem voiceProcess_of_read {v : VoiceFrame M} (hp : v.paused = false) (hm : v.multipass = true)
    (hc : v.clearMix = true) (mb : Mixbins M) :
    voiceProcess v mb = Function.update mb v.mpBin 0 + mixSamples v (mb v.mpBin) 0 := by
  simp only [voiceProcess, hp, hm, getMultipassSamples, hc, Bool.false_eq_true, if_false, if_true]
  exact mixSamples_eq_add _ _ _

/-- what a voice that is not multipass adds to a bin none of its slots mixes into -/
theorem voiceProcess_zero_apply {v : VoiceFrame M} (hm : v.multipass = false) {k : Fin 32} (hk : ∀ b, v.bin b ≠ k) :
    voiceProcess v 0 k = 0 := by
  by_cases hp : v.paused = true
  · simp [voiceProcess, hp]
  · simp only [voiceProcess, hp, hm, Bool.false_eq_true, if_false]
    cases v.resampled with
    | none => rfl
    | some samples => exact mixSamples_zero_apply v samples hk

/-! ## The scheduler's masks -/

/-- the multipass bit of the dirty mask -/
def ScheduleState.mpDirty (s : ScheduleState) : Bool := s.dirty.testBit 31

theorem testBit_multipassBinMask (i : ℕ) : multipassBinMask.testBit i = decide (31 = i) := by
  rw [multipassBinMask, Nat.one_shiftLeft, Nat.testBit_two_pow]

theorem land_mask_eq_zero (x : ℕ) : x &&& multipassBinMask = 0 ↔ x.testBit 31 = false := by
  constructor
  · intro h
    have h31 := congrArg (Nat.testBit · 31) h
    simpa [Nat.testBit_and, testBit_multipassBinMask] using h31
  · intro h
    apply Nat.eq_of_testBit_eq
    intro i
    rw [Nat.testBit_and, testBit_multipassBinMask, Nat.zero_testBit]
    by_cases hi : 31 = i
    · subst hi
      simp [h]
    · simp [hi]

theorem land_mask_land_eq_zero (x y : ℕ) :
    x &&& multipassBinMask &&& y = 0 ↔ (x.testBit 31 && y.testBit 31) = false := by
  rw [Nat.and_assoc, Nat.and_comm multipassBinMask y, ← Nat.and_assoc, land_mask_eq_zero, Nat.testBit_and]

theorem testBit_compl32 (x : ℕ) : (0xffffffff ^^^ x).testBit 31 = !x.testBit 31 := by
  rw [Nat.testBit_xor, (by decide : (0xffffffff : ℕ).testBit 31 = true), Bool.true_xor]

theorem testBit_foldl_or (f : Fin 8 → ℕ) (k : ℕ) (l : List (Fin 8)) (acc : ℕ) :
    (l.foldl (fun d i => d ||| 1 <<< f i) acc).testBit k = (acc.testBit k || l.any fun i => f i = k) := by
  induction l generalizing acc with
  | nil => simp
  | cons i l ih =>
    rw [List.foldl_cons, ih, Nat.testBit_or, Nat.one_shiftLeft, Nat.testBit_two_pow, List.any_cons, Bool.or_assoc]

omit [AddCommMonoid M] in
/-- the multipass bit of the destination mask says whether a slot mixes into the multipass bin -/
theorem testBit_dst (v : VoiceFrame M) :
    ((List.finRange 8).foldl (fun d i => d ||| 1 <<< (v.bin i : ℕ)) 0).testBit 31 = writesMultipass v := by
  rw [testBit_foldl_or, Nat.zero_testBit, Bool.false_or, writesMultipass]
  simp [Fin.ext_iff, multipassBin]

omit [AddCommMonoid M] in
/-- the scheduler on a voice that is not multipass: it reads and clears nothing, so it may come while the multipass
bin is dirty only if it mixes into it; it opens a group if it is the first to dirty the bin -/
theorem scheduleVoice_of_not_multipass {n : ℕ} {s s' : ScheduleState} {v : VoiceFrame M} {w : ℕ}
    (hm : v.multipass = false) (h : scheduleVoice n s v = some (w, s')) :
    w = s.nextWorkerToSchedule ∧ (writesMultipass v = true ∨ s.mpDirty = false) ∧
      s'.group = (if writesMultipass v && !s.mpDirty then true else s.group) ∧
      s'.mpDirty = (s.mpDirty || writesMultipass v) ∧
      s'.nextWorkerToSchedule = if s'.group then s.nextWorkerToSchedule else (s.nextWorkerToSchedule + 1) % n := by
  have hdst := testBit_dst v
  simp only [scheduleVoice, getVoiceBinSrcDst, hm] at h
  generalize (List.finRange 8).foldl (fun d i => d ||| 1 <<< (v.bin i : ℕ)) 0 = dst at h hdst
  simp only [Bool.false_eq_true, if_false, Bool.false_and, ne_eq, not_true_eq_false, false_and, true_and,
    Nat.zero_and, Nat.xor_zero, land_mask_land_eq_zero, testBit_compl32, hdst,
    Bool.not_eq_false] at h
  split at h
  · exact absurd h (by simp)
  rename_i h3
  simp only [Option.some.injEq, Prod.mk.injEq] at h
  obtain ⟨rfl, rfl⟩ := h
  simp only [land_mask_eq_zero, hdst] at h3
  refine ⟨rfl, ?_, rfl, ?_, ?_⟩
  · cases hw : writesMultipass v
    · simp_all [ScheduleState.mpDirty]
    · exact Or.inl rfl
  · simp only [ScheduleState.mpDirty, Nat.testBit_or, Nat.testBit_and, hdst,
      (by decide : (4294967295 : ℕ).testBit 31 = true), Bool.and_true]
  · cases (writesMultipass v && !s.dirty.testBit 31) <;> cases s.group <;> simp

omit [AddCommMonoid M] in
/-- the scheduler on a multipass voice: the asserts hold only for the multipass bin with CLEAR_MIX set, and the
voice closes its group, after which the bin is dirty only if the voice mixes into it -/
theorem scheduleVoice_of_multipass {n : ℕ} {s s' : ScheduleState} {v : VoiceFrame M} {w : ℕ}
    (hm : v.multipass = true) (h : scheduleVoice n s v = some (w, s')) :
    w = s.nextWorkerToSchedule ∧ v.mpBin = multipassBin ∧ v.clearMix = true ∧ s'.group = false ∧
      s'.mpDirty = writesMultipass v ∧ s'.nextWorkerToSchedule = (s.nextWorkerToSchedule + 1) % n := by
  have hdst := testBit_dst v
  simp only [scheduleVoice, getVoiceBinSrcDst, hm, if_true, Bool.true_and] at h
  generalize (List.finRange 8).foldl (fun d i => d ||| 1 <<< (v.bin i : ℕ)) 0 = dst at h hdst
  have hsrc : 1 <<< (v.mpBin : ℕ) ≠ 0 := by
    rw [Nat.one_shiftLeft]
    exact Nat.pos_iff_ne_zero.1 (Nat.two_pow_pos _)
  have hmask : multipassBinMask ≠ 0 := by decide
  -- the first assert: the bin is the multipass bin
  by_cases hsrcEq : 1 <<< (v.mpBin : ℕ) = multipassBinMask
  swap
  · simp [hsrc, hsrcEq] at h
  have hbin : v.mpBin = multipassBin := by
    apply Fin.ext
    rw [multipassBinMask, Nat.one_shiftLeft, Nat.one_shiftLeft] at hsrcEq
    exact Nat.pow_right_injective le_rfl hsrcEq
  -- the second assert: CLEAR_MIX is set
  cases hc : v.clearMix
  · simp [hc, hsrcEq, hmask, Ne.symm hmask] at h
  simp only [hc, hsrcEq, ne_eq, hmask, not_false_eq_true, not_true_eq_false, and_false, false_and, if_false,
    if_true, Nat.and_self, Option.some.injEq, Prod.mk.injEq] at h
  obtain ⟨rfl, rfl⟩ := h
  refine ⟨rfl, hbin, rfl, rfl, ?_, rfl⟩
  simp only [ScheduleState.mpDirty, Nat.testBit_or, Nat.testBit_and, testBit_compl32, hdst,
    testBit_multipassBinMask, decide_true, Bool.not_true, Bool.and_false, Bool.false_or]

/-- the workers' mixbins after the voices of `queue`, each processed on the mixbins of the worker `assign` gives it -/
def runInterleaved : List (VoiceFrame M) → List ℕ → (ℕ → Mixbins M) → ℕ → Mixbins M
  | v :: queue, w :: assign, par => runInterleaved queue assign (Function.update par w (voiceProcess v (par w)))
  | _, _, par => par

/-- a worker's mixbins depend only on its own voices: the interleaving of the workers does not matter -/
theorem runInterleaved_apply (queue : List (VoiceFrame M)) (assign : List ℕ) (par : ℕ → Mixbins M) (w : ℕ) :
    runInterleaved queue assign par w = processQueue (workerQueue queue assign w) (par w) := by
  induction queue generalizing assign par with
  | nil => simp [runInterleaved, workerQueue, processQueue]
  | cons v queue ih =>
    cases assign with
    | nil => simp [runInterleaved, workerQueue, processQueue]
    | cons a assign =>
      rw [runInterleaved, ih]
      by_cases ha : a = w
      · subst ha
        simp [workerQueue, processQueue]
      · simp [workerQueue, processQueue, ha, Function.update_of_ne (Ne.symm ha)]

theorem foldl_add_eq_sum (f : ℕ → Mixbins M) (order : List ℕ) (acc : Mixbins M) :
    order.foldl (fun acc w => acc + f w) acc = acc + (order.map f).sum := by
  induction order generalizing acc with
  | nil => simp
  | cons w order ih => rw [List.foldl_cons, ih, List.map_cons, List.sum_cons, add_assoc]

theorem sum_range_map (f : ℕ → Mixbins M) (n : ℕ) : ((List.range n).map f).sum = ∑ w ∈ Finset.range n, f w := by
  rw [← List.sum_toFinset _ List.nodup_range]
  congr 1
  ext w
  simp

/-- the dispatcher's sum does not depend on the order in which the workers take the lock -/
theorem foldl_order_eq_sum {n : ℕ} {order : List ℕ} (horder : order.Perm (List.range n)) (f : ℕ → Mixbins M) :
    order.foldl (fun acc w => acc + f w) 0 = ∑ w ∈ Finset.range n, f w := by
  rw [foldl_add_eq_sum, zero_add, (horder.map f).sum_eq, sum_range_map]

/-! ## The parallel mix is the sequential one -/

/-- what the interleaved run keeps while it follows the schedule: the workers' mixbins add up to the shared ones,
the group is open exactly while the multipass bin is dirty, and only the worker of the open group holds anything in
the multipass bin -/
structure ParallelInv (n : ℕ) (s : ScheduleState) (seq : Mixbins M) (par : ℕ → Mixbins M) : Prop where
  next_lt : s.nextWorkerToSchedule < n
  sum : ∑ w ∈ Finset.range n, par w = seq
  group : s.group = s.mpDirty
  idle : ∀ w, w ≠ s.nextWorkerToSchedule → par w multipassBin = 0
  clean : s.mpDirty = false → par s.nextWorkerToSchedule multipassBin = 0

theorem parallelInv_start {n : ℕ} (hn : 0 < n) : ParallelInv n ⟨0, false, 0⟩ (0 : Mixbins M) 0 :=
  ⟨hn, by simp, by simp [ScheduleState.mpDirty], fun _ _ => rfl, fun _ => rfl⟩

/-- the multipass bin of the shared mixbins is the one of the open group's worker -/
theorem ParallelInv.seq_multipass {n : ℕ} {s : ScheduleState} {seq : Mixbins M} {par : ℕ → Mixbins M}
    (h : ParallelInv n s seq par) : seq multipassBin = par s.nextWorkerToSchedule multipassBin := by
  rw [← h.sum, Finset.sum_apply]
  apply Finset.sum_eq_single
  · intro w _ hw
    exact h.idle w hw
  · intro hnot
    exact absurd (Finset.mem_range.2 h.next_lt) hnot

theorem sum_update_add {n w : ℕ} (hw : w < n) (par : ℕ → Mixbins M) (d : Mixbins M) :
    ∑ j ∈ Finset.range n, Function.update par w (par w + d) j = ∑ j ∈ Finset.range n, par j + d := by
  have hmem : w ∈ Finset.range n := Finset.mem_range.2 hw
  rw [Finset.sum_update_of_mem hmem, Finset.sum_eq_add_sum_sdiff_singleton_of_mem hmem par, add_right_comm]

/-- after a voice that leaves the multipass bin clean, no worker holds anything in it -/
theorem parallelInv_of_clean {n : ℕ} {s s' : ScheduleState} {seq : Mixbins M} {par : ℕ → Mixbins M}
    (h : ParallelInv n s seq par) (x : Mixbins M) (hx : x multipassBin = 0) (hnext : s'.nextWorkerToSchedule < n)
    (hgroup : s'.group = false) (hdirty : s'.mpDirty = false) :
    ParallelInv n s' (∑ j ∈ Finset.range n, Function.update par s.nextWorkerToSchedule x j)
      (Function.update par s.nextWorkerToSchedule x) := by
  have hzero : ∀ j, Function.update par s.nextWorkerToSchedule x j multipassBin = 0 := by
    intro j
    by_cases hj : j = s.nextWorkerToSchedule
    · subst hj
      simpa using hx
    · rw [Function.update_of_ne hj]
      exact h.idle j hj
  exact ⟨hnext, rfl, by rw [hgroup, hdirty], fun j _ => hzero j, fun _ => hzero _⟩

variable {n : ℕ} {s s' : ScheduleState} {seq : Mixbins M} {par : ℕ → Mixbins M} {v : VoiceFrame M} {w : ℕ}

/-- a voice that is not multipass keeps the invariant: it adds the same to its worker's and to the shared mixbins,
and it comes while the multipass bin is dirty only to mix into it on the open group's worker -/
theorem ParallelInv.step_of_not_multipass (hn : 0 < n) (h : ParallelInv n s seq par) (hm : v.multipass = false)
    (hs : scheduleVoice n s v = some (w, s')) :
    ParallelInv n s' (voiceProcess v seq) (Function.update par w (voiceProcess v (par w))) := by
  obtain ⟨rfl, hassert, hgroup, hdirty, hnext⟩ := scheduleVoice_of_not_multipass hm hs
  have hadd := voiceProcess_of_not_read (Or.inl hm)
  have hsum : ∑ j ∈ Finset.range n, Function.update par s.nextWorkerToSchedule
      (par s.nextWorkerToSchedule + voiceProcess v 0) j = seq + voiceProcess v 0 := by
    rw [sum_update_add h.next_lt, h.sum]
  rw [hadd seq, hadd (par _), ← hsum]
  cases hw : writesMultipass v
  · -- the voice stays out of the multipass bin, which is clean
    have hclean : s.mpDirty = false := by simpa [hw] using hassert
    have hgroup' : s'.group = false := by rw [hgroup, hw, h.group, hclean]; rfl
    refine parallelInv_of_clean h _ ?_ ?_ hgroup' (by rw [hdirty, hclean, hw]; rfl)
    · rw [Pi.add_apply, h.clean hclean, voiceProcess_zero_apply hm (not_writesMultipass hw), add_zero]
    · rw [hnext, hgroup']
      exact Nat.mod_lt _ hn
  · -- the voice mixes into the multipass bin: the group is open on this worker
    have hgroup' : s'.group = true := by
      rw [hgroup]
      cases hd : s.mpDirty
      · simp [hw]
      · simp [hw, h.group, hd]
    have hnext' : s'.nextWorkerToSchedule = s.nextWorkerToSchedule := by rw [hnext, hgroup', if_pos rfl]
    refine ⟨hnext' ▸ h.next_lt, rfl, by rw [hgroup', hdirty, hw, Bool.or_true], ?_, ?_⟩
    · intro j hj
      rw [hnext'] at hj
      rw [Function.update_of_ne hj]
      exact h.idle j hj
    · rw [hdirty, hw, Bool.or_true]
      intro hf
      cases hf

/-- a running multipass voice that stays out of the multipass bin keeps the invariant: it reads on its worker what
the shared order would read, and leaves the bin clean on every worker -/
theorem ParallelInv.step_of_multipass (hn : 0 < n) (h : ParallelInv n s seq par) (hm : v.multipass = true)
    (hp : v.paused = false) (hw : writesMultipass v = false) (hs : scheduleVoice n s v = some (w, s')) :
    ParallelInv n s' (voiceProcess v seq) (Function.update par w (voiceProcess v (par w))) := by
  obtain ⟨rfl, hbin, hc, hgroup, hdirty, hnext⟩ := scheduleVoice_of_multipass hm hs
  have hread := voiceProcess_of_read hp hm hc
  rw [hbin] at hread
  have hout : ∀ x, mixSamples v x 0 multipassBin = 0 := fun x => mixSamples_zero_apply v x (not_writesMultipass hw)
  -- the shared order reads what the group's worker reads
  have hseq : voiceProcess v seq = ∑ j ∈ Finset.range n, Function.update par s.nextWorkerToSchedule
      (voiceProcess v (par s.nextWorkerToSchedule)) j := by
    have hmem := Finset.mem_range.2 h.next_lt
    rw [Finset.sum_update_of_mem hmem, hread, hread, ← h.seq_multipass, ← h.sum,
      Finset.sum_eq_add_sum_sdiff_singleton_of_mem hmem par]
    funext b
    by_cases hb : b = multipassBin
    · subst hb
      have hrest : (∑ j ∈ Finset.range n \ {s.nextWorkerToSchedule}, par j) multipassBin = 0 := by
        rw [Finset.sum_apply]
        apply Finset.sum_eq_zero
        intro j hj
        exact h.idle j (by simpa using (Finset.mem_sdiff.1 hj).2)
      simp [hrest]
    · simp [Function.update_of_ne hb, add_right_comm]
  rw [hseq]
  refine parallelInv_of_clean h _ ?_ ?_ hgroup (by rw [hdirty, hw])
  · rw [hread, Pi.add_apply, Function.update_self, hout, add_zero]
  · rw [hnext]
    exact Nat.mod_lt _ hn

/-- the invariant over a whole schedule: the workers' mixbins add up to those of the shared order -/
theorem ParallelInv.run (hn : 0 < n) :
    ∀ (queue : List (VoiceFrame M)) (s : ScheduleState) (seq : Mixbins M) (par : ℕ → Mixbins M) (assign : List ℕ),
      (∀ v ∈ queue, v.multipass = true → v.paused = false ∧ writesMultipass v = false) →
      ParallelInv n s seq par → scheduleFrom n s queue = some assign →
      ∑ w ∈ Finset.range n, runInterleaved queue assign par w = processQueue queue seq
  | [], s, seq, par, assign, _, h, hs => by
    simp only [scheduleFrom, Option.some.injEq] at hs
    subst hs
    exact h.sum
  | v :: queue, s, seq, par, assign, hv, h, hs => by
    simp only [scheduleFrom, Option.bind_eq_some_iff, Option.map_eq_some_iff] at hs
    obtain ⟨⟨w, s'⟩, hstep, rest, hrest, rfl⟩ := hs
    have h' : ParallelInv n s' (voiceProcess v seq) (Function.update par w (voiceProcess v (par w))) := by
      cases hm : v.multipass
      · exact h.step_of_not_multipass hn hm hstep
      · obtain ⟨hp, hw⟩ := hv v List.mem_cons_self hm
        exact h.step_of_multipass hn hm hp hw hstep
    exact ParallelInv.run hn queue s' _ _ rest (fun u hu => hv u (List.mem_cons_of_mem v hu)) h' hrest

/-- if every multipass voice of the queue is running and mixes into bins other than the multipass bin, the workers
add, in whatever order they finish, what voice_process over the queue in order on one mixbins array adds -/
theorem voiceWorkDispatch_sequential (hn : 0 < n) {order : List ℕ} (horder : order.Perm (List.range n))
    {queue : List (VoiceFrame M)} (hv : ∀ v ∈ queue, v.multipass = true → v.paused = false ∧ writesMultipass v = false)
    {assign : List ℕ} (hs : voiceWorkSchedule n queue = some assign) (mixbins : Mixbins M) :
    voiceWorkDispatch n order queue mixbins = some (mixbins + processQueue queue 0) := by
  unfold voiceWorkDispatch
  split
  · rename_i hempty
    rw [List.isEmpty_iff.1 hempty]
    simp [processQueue]
  · rw [hs, Option.map_some, foldl_order_eq_sum horder]
    have hworkers : ∀ w, processQueue (workerQueue queue assign w) 0 = runInterleaved queue assign 0 w := by
      intro w
      rw [runInterleaved_apply]
      rfl
    simp only [hworkers]
    rw [ParallelInv.run hn queue _ 0 0 assign hv (parallelInv_start hn) hs]

/-! ## A paused multipass voice -/

/-- a voice that is not multipass mixing `x` into the multipass bin from its slot 0 -/
def submixVoice (x : ℤ) : VoiceFrame ℤ where
  paused := false
  multipass := false
  mpBin := 0
  clearMix := false
  resampled := some x
  active := true
  muted := false
  bin := fun _ => multipassBin
  gain := fun b samples => if b = 0 then samples else 0

/-- a multipass voice with CLEAR_MIX on the multipass bin, mixing what it reads into bin 0 from its slot 0 -/
def multipassVoice (paused : Bool) : VoiceFrame ℤ where
  paused := paused
  multipass := true
  mpBin := multipassBin
  clearMix := true
  resampled := none
  active := true
  muted := false
  bin := fun _ => 0
  gain := fun b samples => if b = 0 then samples else 0

/-- two multipass groups, the first one read by a paused multipass voice -/
def pausedGroupQueue : List (VoiceFrame ℤ) :=
  [submixVoice 1, multipassVoice true, submixVoice 2, multipassVoice false]

theorem pausedGroupQueue_schedule {n : ℕ} (hn : 2 ≤ n) : voiceWorkSchedule n pausedGroupQueue = some [0, 0, 1, 1] := by
  have h1 : scheduleVoice n ⟨0, false, 0⟩ (submixVoice 1) = some (0, ⟨0, true, 2147483648⟩) := rfl
  have h2 : scheduleVoice n ⟨0, true, 2147483648⟩ (multipassVoice true) = some (0, ⟨(0 + 1) % n, false, 1⟩) := rfl
  have h3 : scheduleVoice n ⟨1, false, 1⟩ (submixVoice 2) = some (1, ⟨1, true, 2147483649⟩) := rfl
  have h4 : scheduleVoice n ⟨1, true, 2147483649⟩ (multipassVoice false) =
      some (1, ⟨(1 + 1) % n, false, 1⟩) := rfl
  have hmod : (0 + 1) % n = 1 := Nat.mod_eq_of_lt (by omega)
  simp only [voiceWorkSchedule, pausedGroupQueue, scheduleFrom, h1, Option.bind_some, h2, hmod, h3, h4,
    Option.map_some]

theorem pausedGroupQueue_worker {w : ℕ} (h0 : w ≠ 0) (h1 : w ≠ 1) :
    workerQueue pausedGroupQueue [0, 0, 1, 1] w = [] := by
  simp [workerQueue, pausedGroupQueue, Ne.symm h0, Ne.symm h1]

/-- with two workers or more, and whatever order they finish in, the parallel mixbins have 2 in bin 0 and 1 in the
multipass bin, where voice_process over the queue in order gives 3 and 0: the paused multipass voice ends its group
for the scheduler, but leaves the group's contribution in the bin, where only the sequential order hands it to the
next multipass voice -/
theorem paused_multipass_voice_splits_group (n : ℕ) (hn : 2 ≤ n) (order : List ℕ)
    (horder : order.Perm (List.range n)) :
    voiceWorkSchedule n pausedGroupQueue = some [0, 0, 1, 1] ∧
      (voiceWorkDispatch n order pausedGroupQueue 0).map (fun mb => (mb 0, mb multipassBin)) = some (2, 1) ∧
      (processQueue pausedGroupQueue 0 0, processQueue pausedGroupQueue 0 multipassBin) = (3, 0) := by
  have hsched := pausedGroupQueue_schedule hn
  refine ⟨hsched, ?_, by decide⟩
  have hsum : ∑ w ∈ Finset.range n, processQueue (workerQueue pausedGroupQueue [0, 0, 1, 1] w) 0 =
      processQueue (workerQueue pausedGroupQueue [0, 0, 1, 1] 0) 0 +
        processQueue (workerQueue pausedGroupQueue [0, 0, 1, 1] 1) 0 := by
    apply Finset.sum_eq_add 0 1 (by decide)
    · intro w _ hw
      rw [pausedGroupQueue_worker hw.1 hw.2]
      rfl
    · intro h0
      exact absurd (Finset.mem_range.2 (by omega)) h0
    · intro h1
      exact absurd (Finset.mem_range.2 (by omega)) h1
  have hnonempty : pausedGroupQueue.isEmpty = false := rfl
  simp only [voiceWorkDispatch, hnonempty, Bool.false_eq_true, if_false, hsched, Option.map_some,
    foldl_order_eq_sum horder, hsum, Option.some.injEq, Prod.mk.injEq, Pi.add_apply, zero_add]
  decide

theorem two_worker_paused_group :
    2 ≤ 2 ∧ [0, 1].Perm (List.range 2) ∧
      voiceWorkSchedule 2 pausedGroupQueue = some [0, 0, 1, 1] ∧
      (voiceWorkDispatch 2 [0, 1] pausedGroupQueue 0).map (fun mb => (mb 0, mb multipassBin)) = some (2, 1) ∧
      (processQueue pausedGroupQueue 0 0, processQueue pausedGroupQueue 0 multipassBin) = (3, 0) :=
  ⟨le_rfl, List.Perm.refl _, paused_multipass_voice_splits_group 2 le_rfl [0, 1] (List.Perm.refl _)⟩

end Xemu.Vp
