import Mathlib
import Xemu.Core.Runs
/-!
# The voice lists of a frame

Each frame mcpx_apu_vp_frame (hw/xbox/mcpx/apu/vp/vp.c) walks the 2D, 3D and multipass voice lists from their top
registers, following the NEXT_VOICE_HANDLE link of each voice until the handle 0xFFFF, and at most
MCPX_HW_MAX_VOICES voices a list. An active voice is queued for the workers (voice_work_enqueue), which takes the
voice's spinlock and holds it until the workers are done; an inactive one is reported to the front end
(fe_method SE2FE_IDLE_VOICE). The lists are linked by the VOICE_ON method of the front end, at the top of a list or
after an antecedent voice, and the guest may also write the registers and the links directly.

* `walkList_eq`, `mcpxApuVpFrame_eq`: the frame visits the handles of `frameVisits` in order, one `visitVoice` each.
* `mcpxApuVpFrame_ok_iff`: the frame returns exactly when the active voices it visits are distinct handles below
  MCPX_HW_MAX_VOICES (and inactive ones may be reported), and then it queues each of them once
  (`mcpxApuVpFrame_queue`). The guard on the list length bounds the walk, not what it queues: a second visit of an
  active voice spins on the spinlock the frame already holds, and a handle past the spinlock array indexes past it.
* `voice_list_walk_breaks`: VOICE_ON of the voice at the top of a list links the voice to itself, and the next frame
  deadlocks on it; an active voice with a handle past the spinlock array makes the frame index past it.

The `is_voice_locked` wait of voice_work_acquire_voice_lock_for_processing, which lasts while the front end holds
the voice, the CVL and NVL registers the walk writes, and the other fields VOICE_ON sets (the offset, the envelopes
and the filters) are left out.
-/

namespace Xemu.Vp

/-- MCPX_HW_MAX_VOICES -/
def mcpxHwMaxVoices : ℕ := 256

/-- the top registers of voice_list_regs: NV_PAPU_TVL2D, NV_PAPU_TVL3D and NV_PAPU_TVLMP -/
def voiceListTop : ℕ → ℕ
  | 0 => 0x00002054
  | 1 => 0x00002060
  | _ => 0x0000206C

def nvPapuFeav : ℕ := 0x00001118
def nvPapuFeavValue : ℕ := 0x0000FFFF
def nvPapuFeavLst : ℕ := 0x00030000
def nvPapuFetforce1 : ℕ := 0x00001504
def nvPapuFetforce1Se2feIdleVoice : ℕ := 1 <<< 15
def nv1ba0PioVoiceOnHandle : ℕ := 0x0000FFFF
def nvPavsVoiceTarPitchLinkNextVoiceHandle : ℕ := 0x0000FFFF
def nvPavsVoiceParStateActiveVoice : ℕ := 1 <<< 21

/-- voice_set_mask on a 32-bit word: the field `mask`, whose lowest bit is bit `shift`, set to `val` -/
def voiceSetMask (word mask shift val : ℕ) : ℕ := word &&& (0xFFFFFFFF ^^^ mask) ||| (val <<< shift) &&& mask

/-- the two words of each voice that the list walk reads, by voice handle: NV_PAVS_VOICE_TAR_PITCH_LINK and
NV_PAVS_VOICE_PAR_STATE -/
structure VoiceLinks where
  pitchLink : ℕ → ℕ
  parState : ℕ → ℕ

namespace VoiceLinks

/-- voice_get_mask of NV_PAVS_VOICE_TAR_PITCH_LINK_NEXT_VOICE_HANDLE, the field at bit 0 -/
def nextVoiceHandle (mem : VoiceLinks) (v : ℕ) : ℕ := mem.pitchLink v &&& nvPavsVoiceTarPitchLinkNextVoiceHandle

/-- voice_get_mask of NV_PAVS_VOICE_PAR_STATE_ACTIVE_VOICE, the bit 21 -/
def activeVoice (mem : VoiceLinks) (v : ℕ) : Bool := (mem.parState v &&& nvPavsVoiceParStateActiveVoice) >>> 21 != 0

end VoiceLinks

/-- how a frame stops short of returning: a failed assertion, a spin on a spinlock the frame thread holds, or a
spinlock past the end of voice_spinlocks -/
inductive FrameStop
  | assertion
  | selfDeadlock
  | lockOutOfBounds
  deriving DecidableEq, Repr

/-- VoiceWorkItem -/
structure VoiceWorkItem where
  voice : ℕ
  list : ℕ
  deriving DecidableEq, Repr

/-- what the walk builds: the queue of voice_work_dispatch, the voice spinlocks the frame thread holds, and the voices
reported idle to the front end -/
structure FrameState where
  queue : List VoiceWorkItem
  held : List ℕ
  idle : List ℕ
  deriving DecidableEq, Repr

/-- voice_work_acquire_voice_lock_for_processing: `qemu_spin_lock(&d->vp.voice_spinlocks[v])`, which indexes past
the array for `v ≥ MCPX_HW_MAX_VOICES` and never returns on a spinlock this thread already holds -/
def voiceWorkAcquireVoiceLockForProcessing (held : List ℕ) (v : ℕ) : Except FrameStop (List ℕ) :=
  if mcpxHwMaxVoices ≤ v then .error .lockOutOfBounds
  else if v ∈ held then .error .selfDeadlock
  else .ok (held ++ [v])

/-- voice_work_enqueue: the queue must have room, then the item is queued and the voice's spinlock taken -/
def voiceWorkEnqueue (st : FrameState) (v list : ℕ) : Except FrameStop FrameState :=
  if ¬st.queue.length < mcpxHwMaxVoices then .error .assertion
  else
    match voiceWorkAcquireVoiceLockForProcessing st.held v with
    | .error e => .error e
    | .ok held => .ok { st with queue := st.queue ++ [⟨v, list⟩], held := held }

/-- fe_method with SE2FE_IDLE_VOICE: a trap to the front end if NV_PAPU_FETFORCE1 asks for it, and `assert(false)`
otherwise -/
def feIdleVoice (regs : ℕ → ℕ) (st : FrameState) (v : ℕ) : Except FrameStop FrameState :=
  if regs nvPapuFetforce1 &&& nvPapuFetforce1Se2feIdleVoice ≠ 0 then .ok { st with idle := st.idle ++ [v] }
  else .error .assertion

/-- the body of the walk for voice `v` of list `list` -/
def visitVoice (mem : VoiceLinks) (regs : ℕ → ℕ) (list : ℕ) (st : FrameState) (v : ℕ) :
    Except FrameStop FrameState :=
  if mem.activeVoice v then voiceWorkEnqueue st v list else feIdleVoice regs st v

/-- the walk of one list from the handle `current`, with `n` passes left before the guard `i >= MCPX_HW_MAX_VOICES`
breaks it; `uint16_t v = d->regs[current]` keeps the low 16 bits of the register -/
def walkList (mem : VoiceLinks) (regs : ℕ → ℕ) (list : ℕ) : ℕ → ℕ → FrameState → Except FrameStop FrameState
  | 0, _, st => .ok st
  | n + 1, current, st =>
    if current = 0xFFFF then .ok st
    else
      let v := current % 2 ^ 16
      match visitVoice mem regs list st v with
      | .error e => .error e
      | .ok st => walkList mem regs list n (mem.nextVoiceHandle v) st

/-- the walk of mcpx_apu_vp_frame over the three lists, up to voice_work_dispatch; the spinlocks are released after
the dispatch -/
def mcpxApuVpFrame (mem : VoiceLinks) (regs : ℕ → ℕ) : Except FrameStop FrameState :=
  (List.range 3).foldlM (fun st list => walkList mem regs list mcpxHwMaxVoices (regs (voiceListTop list)) st)
    ⟨[], [], []⟩

/-- the list insertion of fe_method with NV1BA0_PIO_VOICE_ON: at the top of the list NV_PAPU_FEAV_LST names, or after
the antecedent voice NV_PAPU_FEAV_VALUE; the voice is then marked active. is_voice_locked asserts a valid handle -/
def voiceOn (mem : VoiceLinks) (regs : ℕ → ℕ) (argument : ℕ) : Except FrameStop (VoiceLinks × (ℕ → ℕ)) :=
  let selectedHandle := argument &&& nv1ba0PioVoiceOnHandle
  if ¬selectedHandle < mcpxHwMaxVoices then .error .assertion
  else
    let list := (regs nvPapuFeav &&& nvPapuFeavLst) >>> 16
    let linked : Except FrameStop (VoiceLinks × (ℕ → ℕ)) :=
      if list ≠ 0 then
        -- the voice is added to the top of the selected list
        let topReg := voiceListTop (list - 1)
        .ok ({ mem with
            pitchLink := Function.update mem.pitchLink selectedHandle
              (voiceSetMask (mem.pitchLink selectedHandle) nvPavsVoiceTarPitchLinkNextVoiceHandle 0 (regs topReg)) },
          Function.update regs topReg selectedHandle)
      else
        -- the voice is added after the antecedent voice
        let antecedentVoice := regs nvPapuFeav &&& nvPapuFeavValue
        if antecedentVoice = 0xFFFF then .error .assertion
        else
          let nextHandle := mem.nextVoiceHandle antecedentVoice
          let link := Function.update mem.pitchLink selectedHandle
            (voiceSetMask (mem.pitchLink selectedHandle) nvPavsVoiceTarPitchLinkNextVoiceHandle 0 nextHandle)
          let link := Function.update link antecedentVoice
            (voiceSetMask (link antecedentVoice) nvPavsVoiceTarPitchLinkNextVoiceHandle 0 selectedHandle)
          .ok ({ mem with pitchLink := link }, regs)
    linked.map fun r => ({ r.1 with
        parState := Function.update r.1.parState selectedHandle
          (voiceSetMask (r.1.parState selectedHandle) nvPavsVoiceParStateActiveVoice 21 1) }, r.2)

/-! ## The voices a frame visits -/

/-- the handles the walk of one list visits from `current`, `n` passes at most -/
def listVisits (mem : VoiceLinks) : ℕ → ℕ → List ℕ
  | 0, _ => []
  | n + 1, current =>
    if current = 0xFFFF then []
    else current % 2 ^ 16 :: listVisits mem n (mem.nextVoiceHandle (current % 2 ^ 16))

/-- the voices the frame visits, each with its list -/
def frameVisits (mem : VoiceLinks) (regs : ℕ → ℕ) : List (ℕ × ℕ) :=
  (List.range 3).flatMap fun list =>
    (listVisits mem mcpxHwMaxVoices (regs (voiceListTop list))).map fun v => (list, v)

/-- the active voices among the visits, in order -/
def activeVisits (mem : VoiceLinks) (vs : List (ℕ × ℕ)) : List ℕ :=
  (vs.filter fun p => mem.activeVoice p.2).map Prod.snd

theorem walkList_eq (mem : VoiceLinks) (regs : ℕ → ℕ) (list : ℕ) :
    ∀ (n current : ℕ) (st : FrameState),
      walkList mem regs list n current st = (listVisits mem n current).foldlM (visitVoice mem regs list) st
  | 0, _, st => rfl
  | n + 1, current, st => by
    unfold walkList listVisits
    by_cases hend : current = 0xFFFF
    · rw [if_pos hend, if_pos hend]
      rfl
    · rw [if_neg hend, if_neg hend, List.foldlM_cons]
      dsimp only
      cases visitVoice mem regs list st (current % 2 ^ 16) with
      | error e => rfl
      | ok st₁ => exact walkList_eq mem regs list n _ st₁

theorem mcpxApuVpFrame_eq (mem : VoiceLinks) (regs : ℕ → ℕ) :
    mcpxApuVpFrame mem regs = (frameVisits mem regs).foldlM (fun st p => visitVoice mem regs p.1 st p.2) ⟨[], [], []⟩ := by
  unfold mcpxApuVpFrame frameVisits
  rw [Runs.foldlM_flatMap]
  congr 1
  funext st list
  rw [walkList_eq, List.foldlM_map]

section Run

variable {mem : VoiceLinks} {regs : ℕ → ℕ}

theorem voiceWorkEnqueue_ok_iff (st : FrameState) (v list : ℕ) :
    (∃ st', voiceWorkEnqueue st v list = .ok st') ↔
      st.queue.length < mcpxHwMaxVoices ∧ v < mcpxHwMaxVoices ∧ v ∉ st.held := by
  unfold voiceWorkEnqueue voiceWorkAcquireVoiceLockForProcessing
  by_cases hroom : st.queue.length < mcpxHwMaxVoices
  · rw [if_neg (not_not.mpr hroom)]
    by_cases hlt : mcpxHwMaxVoices ≤ v
    · rw [if_pos hlt]
      simp only [reduceCtorEq, exists_false, false_iff, not_and, not_not]
      omega
    · rw [if_neg hlt]
      by_cases hheld : v ∈ st.held
      · rw [if_pos hheld]
        simp [hheld]
      · rw [if_neg hheld]
        simp only [Except.ok.injEq, exists_eq', true_iff]
        exact ⟨hroom, by omega, hheld⟩
  · rw [if_pos hroom]
    simp [hroom]

theorem voiceWorkEnqueue_eq_ok {st st' : FrameState} {v list : ℕ} (h : voiceWorkEnqueue st v list = .ok st') :
    st' = { st with queue := st.queue ++ [⟨v, list⟩], held := st.held ++ [v] } := by
  unfold voiceWorkEnqueue voiceWorkAcquireVoiceLockForProcessing at h
  split_ifs at h
  exact (Except.ok.inj h).symm

/-- distinct handles below MCPX_HW_MAX_VOICES, as many as the queue holds, are every handle -/
theorem mem_of_full {held : List ℕ} (hnd : held.Nodup) (hlt : ∀ w ∈ held, w < mcpxHwMaxVoices)
    (hfull : mcpxHwMaxVoices ≤ held.length) {v : ℕ} (hv : v < mcpxHwMaxVoices) : v ∈ held := by
  have hsub : held.toFinset ⊆ Finset.range mcpxHwMaxVoices := fun w hw =>
    Finset.mem_range.mpr (hlt w (List.mem_toFinset.mp hw))
  have hcard : (Finset.range mcpxHwMaxVoices).card ≤ held.toFinset.card := by
    rw [Finset.card_range, List.toFinset_card_of_nodup hnd]
    exact hfull
  rw [← List.mem_toFinset, Finset.eq_of_subset_of_card_le hsub hcard]
  exact Finset.mem_range.mpr hv

theorem activeVisits_cons (p : ℕ × ℕ) (vs : List (ℕ × ℕ)) :
    activeVisits mem (p :: vs) = if mem.activeVoice p.2 then p.2 :: activeVisits mem vs else activeVisits mem vs := by
  unfold activeVisits
  rw [List.filter_cons]
  split_ifs <;> rfl

/-- the queued voices are those whose spinlocks are held, distinct and below MCPX_HW_MAX_VOICES -/
structure QueueInv (st : FrameState) : Prop where
  held_eq : st.held = st.queue.map VoiceWorkItem.voice
  nodup : st.held.Nodup
  lt : ∀ v ∈ st.held, v < mcpxHwMaxVoices

/-- queueing a new voice below MCPX_HW_MAX_VOICES keeps the invariant -/
theorem QueueInv.enqueue {st : FrameState} (hinv : QueueInv st) {v list : ℕ} (hv : v < mcpxHwMaxVoices)
    (hnew : v ∉ st.held) : QueueInv { st with queue := st.queue ++ [⟨v, list⟩], held := st.held ++ [v] } where
  held_eq := by simp [hinv.held_eq]
  nodup := by
    refine List.nodup_append.mpr ⟨hinv.nodup, List.nodup_singleton v, fun a ha b hb => ?_⟩
    rw [List.mem_singleton.mp hb]
    exact fun h => hnew (h ▸ ha)
  lt := by
    intro w hw
    rcases List.mem_append.mp hw with h | h
    · exact hinv.lt w h
    · rw [List.mem_singleton.mp h]
      exact hv

theorem visitVoice_of_active {list : ℕ} {st : FrameState} {v : ℕ} (hact : mem.activeVoice v = true) :
    visitVoice mem regs list st v = voiceWorkEnqueue st v list := if_pos hact

theorem visitVoice_of_inactive {list : ℕ} {st : FrameState} {v : ℕ} (hact : mem.activeVoice v = false) :
    visitVoice mem regs list st v = feIdleVoice regs st v := if_neg (by simp [hact])

/-- a run of visits returns exactly when the active voices it visits are new, distinct handles below
MCPX_HW_MAX_VOICES, and every inactive one may be reported to the front end -/
theorem visits_ok_iff (vs : List (ℕ × ℕ)) :
    ∀ st : FrameState, QueueInv st →
      ((∃ st', vs.foldlM (fun st p => visitVoice mem regs p.1 st p.2) st = .ok st') ↔
        (st.held ++ activeVisits mem vs).Nodup ∧ (∀ v ∈ activeVisits mem vs, v < mcpxHwMaxVoices) ∧
          ∀ p ∈ vs, mem.activeVoice p.2 = false → regs nvPapuFetforce1 &&& nvPapuFetforce1Se2feIdleVoice ≠ 0) := by
  induction vs with
  | nil =>
    intro st hinv
    simp only [List.foldlM_nil, activeVisits, List.filter_nil, List.map_nil, List.append_nil, List.not_mem_nil,
      false_imp_iff, imp_true_iff, and_true]
    exact ⟨fun _ => hinv.nodup, fun _ => ⟨st, rfl⟩⟩
  | cons p vs ih =>
    intro st hinv
    rw [Runs.foldlM_cons_ok_iff, activeVisits_cons]
    cases hact : mem.activeVoice p.2 with
    | true =>
      rw [visitVoice_of_active hact, if_pos rfl]
      by_cases hok : st.queue.length < mcpxHwMaxVoices ∧ p.2 < mcpxHwMaxVoices ∧ p.2 ∉ st.held
      · -- the voice is queued, and the rest of the run goes on from the longer queue
        obtain ⟨st₁, h₁⟩ := (voiceWorkEnqueue_ok_iff st p.2 p.1).mpr hok
        have hst₁ := voiceWorkEnqueue_eq_ok h₁
        have hrest := ih st₁ (hst₁ ▸ hinv.enqueue hok.2.1 hok.2.2)
        rw [hst₁, List.append_assoc, List.singleton_append] at hrest
        rw [← hst₁] at hrest
        constructor
        · rintro ⟨s₁, hs₁, hs⟩
          rw [h₁, Except.ok.injEq] at hs₁
          subst hs₁
          obtain ⟨hnd, hlt, htrap⟩ := hrest.mp hs
          refine ⟨hnd, List.forall_mem_cons.mpr ⟨hok.2.1, hlt⟩, List.forall_mem_cons.mpr ⟨?_, htrap⟩⟩
          simp [hact]
        · rintro ⟨hnd, hlt, htrap⟩
          exact ⟨st₁, h₁, hrest.mpr ⟨hnd, (List.forall_mem_cons.mp hlt).2, (List.forall_mem_cons.mp htrap).2⟩⟩
      · -- the enqueue fails, and so does the condition: a full queue holds every handle
        have hfail : ∀ s₁, voiceWorkEnqueue st p.2 p.1 ≠ .ok s₁ := fun s₁ h =>
          hok ((voiceWorkEnqueue_ok_iff st p.2 p.1).mp ⟨s₁, h⟩)
        simp only [hfail, false_and, exists_false, false_iff, not_and]
        intro hnd hlt
        have hv : p.2 < mcpxHwMaxVoices := hlt p.2 List.mem_cons_self
        have hnew : p.2 ∉ st.held := fun h => (List.nodup_append.mp hnd).2.2 _ h _ List.mem_cons_self rfl
        refine absurd ⟨?_, hv, hnew⟩ hok
        by_contra hroom
        rw [← List.length_map VoiceWorkItem.voice, ← hinv.held_eq] at hroom
        exact hnew (mem_of_full hinv.nodup hinv.lt (by omega) hv)
    | false =>
      rw [visitVoice_of_inactive hact, if_neg (by decide)]
      unfold feIdleVoice
      by_cases htrap : regs nvPapuFetforce1 &&& nvPapuFetforce1Se2feIdleVoice ≠ 0
      · -- the voice is reported idle; the queue is unchanged
        rw [if_pos htrap]
        have hrest := ih { st with idle := st.idle ++ [p.2] } ⟨hinv.held_eq, hinv.nodup, hinv.lt⟩
        simp only [Except.ok.injEq, exists_eq_left']
        rw [hrest, List.forall_mem_cons]
        constructor
        · rintro ⟨hnd, hlt, hall⟩
          exact ⟨hnd, hlt, fun _ => htrap, hall⟩
        · rintro ⟨hnd, hlt, -, hall⟩
          exact ⟨hnd, hlt, hall⟩
      · rw [if_neg htrap]
        simp only [reduceCtorEq, false_and, exists_false, false_iff, not_and]
        intro _ _ hall
        exact htrap (hall p List.mem_cons_self hact)

/-- what a run of visits queues: the active voices, in order, each with its list -/
theorem visits_queue (vs : List (ℕ × ℕ)) :
    ∀ st st' : FrameState, vs.foldlM (fun st p => visitVoice mem regs p.1 st p.2) st = .ok st' →
      st'.queue = st.queue ++ (vs.filter fun p => mem.activeVoice p.2).map fun p => ⟨p.2, p.1⟩ := by
  induction vs with
  | nil =>
    intro st st' h
    cases h
    simp
  | cons p vs ih =>
    intro st st' h
    rw [List.foldlM_cons, Runs.bind_eq_ok_iff] at h
    obtain ⟨st₁, h₁, h⟩ := h
    rw [ih st₁ st' h, List.filter_cons]
    cases hact : mem.activeVoice p.2 with
    | true =>
      rw [visitVoice_of_active hact] at h₁
      rw [voiceWorkEnqueue_eq_ok h₁, if_pos rfl]
      simp
    | false =>
      rw [visitVoice_of_inactive hact] at h₁
      unfold feIdleVoice at h₁
      split_ifs at h₁
      rw [← Except.ok.inj h₁, if_neg (by decide)]

/-- mcpx_apu_vp_frame returns exactly when the active voices of the three lists are distinct handles below
MCPX_HW_MAX_VOICES and the inactive ones may be reported to the front end -/
theorem mcpxApuVpFrame_ok_iff (mem : VoiceLinks) (regs : ℕ → ℕ) :
    (∃ st, mcpxApuVpFrame mem regs = .ok st) ↔
      (activeVisits mem (frameVisits mem regs)).Nodup ∧
        (∀ v ∈ activeVisits mem (frameVisits mem regs), v < mcpxHwMaxVoices) ∧
        ∀ p ∈ frameVisits mem regs, mem.activeVoice p.2 = false →
          regs nvPapuFetforce1 &&& nvPapuFetforce1Se2feIdleVoice ≠ 0 := by
  rw [mcpxApuVpFrame_eq]
  exact visits_ok_iff _ _ ⟨rfl, List.nodup_nil, fun _ h => absurd h List.not_mem_nil⟩

/-- when mcpx_apu_vp_frame returns, it has queued each active voice it visited once, with its list -/
theorem mcpxApuVpFrame_queue {mem : VoiceLinks} {regs : ℕ → ℕ} {st : FrameState}
    (h : mcpxApuVpFrame mem regs = .ok st) :
    st.queue = ((frameVisits mem regs).filter fun p => mem.activeVoice p.2).map fun p => ⟨p.2, p.1⟩ := by
  rw [mcpxApuVpFrame_eq] at h
  exact visits_queue _ _ _ h

end Run

/-! ## Lists that fail the walk -/

theorem listVisits_succ {mem : VoiceLinks} {n current : ℕ} (hc : current ≠ 0xFFFF) :
    listVisits mem (n + 1) current =
      current % 2 ^ 16 :: listVisits mem n (mem.nextVoiceHandle (current % 2 ^ 16)) := by
  rw [listVisits, if_neg hc]

/-- the visits of the frame start with those of the 2D list -/
theorem frameVisits_eq (mem : VoiceLinks) (regs : ℕ → ℕ) :
    frameVisits mem regs = (listVisits mem mcpxHwMaxVoices (regs (voiceListTop 0))).map (fun v => (0, v)) ++
      (List.range' 1 2).flatMap fun list =>
        (listVisits mem mcpxHwMaxVoices (regs (voiceListTop list))).map fun v => (list, v) := by
  rfl

/-- an active voice at the top of the 2D list that links to itself: the walk queues it, comes back to it, and spins on
the spinlock it took the first time -/
theorem mcpxApuVpFrame_self_link {mem : VoiceLinks} {regs : ℕ → ℕ} {v : ℕ} (htop : regs (voiceListTop 0) = v)
    (hv : v < mcpxHwMaxVoices) (hself : mem.nextVoiceHandle v = v) (hact : mem.activeVoice v = true) :
    mcpxApuVpFrame mem regs = .error .selfDeadlock := by
  have hv16 : v % 2 ^ 16 = v := Nat.mod_eq_of_lt (lt_of_lt_of_le hv (by decide))
  have hne : v ≠ 0xFFFF := by unfold mcpxHwMaxVoices at hv; omega
  have hvisits : listVisits mem mcpxHwMaxVoices v = v :: v :: listVisits mem 254 v := by
    rw [show mcpxHwMaxVoices = 254 + 1 + 1 from rfl, listVisits_succ hne, hv16, hself, listVisits_succ hne, hv16,
      hself]
  -- the first visit queues the voice and takes its spinlock, the second finds the spinlock held
  have hfirst : voiceWorkEnqueue ⟨[], [], []⟩ v 0 = .ok ⟨[⟨v, 0⟩], [v], []⟩ := by
    unfold voiceWorkEnqueue voiceWorkAcquireVoiceLockForProcessing
    rw [if_neg (by decide), if_neg (by omega), if_neg List.not_mem_nil]
    rfl
  have hsecond : voiceWorkEnqueue ⟨[⟨v, 0⟩], [v], []⟩ v 0 = .error .selfDeadlock := by
    unfold voiceWorkEnqueue voiceWorkAcquireVoiceLockForProcessing
    dsimp only
    rw [if_neg (by simp [mcpxHwMaxVoices]), if_neg (by omega), if_pos (List.mem_singleton_self v)]
  rw [mcpxApuVpFrame_eq, frameVisits_eq, htop, hvisits, List.map_cons, List.map_cons, List.cons_append,
    List.cons_append, List.foldlM_cons, visitVoice_of_active hact, hfirst]
  show List.foldlM _ ({ queue := [⟨v, 0⟩], held := [v], idle := [] } : FrameState) _ = _
  rw [List.foldlM_cons, visitVoice_of_active hact, hsecond]
  rfl

/-- an active voice at the top of the 2D list with a handle past the spinlock array -/
theorem mcpxApuVpFrame_out_of_range {mem : VoiceLinks} {regs : ℕ → ℕ} {v : ℕ} (htop : regs (voiceListTop 0) = v)
    (hv : mcpxHwMaxVoices ≤ v) (hv' : v < 0xFFFF) (hact : mem.activeVoice v = true) :
    mcpxApuVpFrame mem regs = .error .lockOutOfBounds := by
  have hv16 : v % 2 ^ 16 = v := Nat.mod_eq_of_lt (by omega)
  rw [mcpxApuVpFrame_eq, frameVisits_eq, htop, show mcpxHwMaxVoices = 255 + 1 from rfl,
    listVisits_succ (by omega), hv16, List.map_cons, List.cons_append, List.foldlM_cons,
    visitVoice_of_active hact]
  have hfail : voiceWorkEnqueue ⟨[], [], []⟩ v 0 = .error .lockOutOfBounds := by
    unfold voiceWorkEnqueue voiceWorkAcquireVoiceLockForProcessing
    rw [if_neg (by decide), if_pos hv]
  rw [hfail]
  rfl


/-! ## VOICE_ON at the top of a list -/

theorem voiceSetMask_land {word mask shift val : ℕ} (h : (0xFFFFFFFF ^^^ mask) &&& mask = 0) :
    voiceSetMask word mask shift val &&& mask = (val <<< shift) &&& mask := by
  unfold voiceSetMask
  rw [Nat.and_or_distrib_right, Nat.land_assoc, h, Nat.and_zero, Nat.zero_or, Nat.land_assoc, Nat.and_self]

theorem voiceListTop_ne_feav (list : ℕ) : voiceListTop list ≠ nvPapuFeav := by
  unfold voiceListTop
  split <;> decide

/-- VOICE_ON of a valid handle into a list: the handle becomes the top of the list, links to the old top and is
active -/
theorem voiceOn_top {mem : VoiceLinks} {regs : ℕ → ℕ} {argument : ℕ}
    (hh : argument &&& nv1ba0PioVoiceOnHandle < mcpxHwMaxVoices)
    (hl : (regs nvPapuFeav &&& nvPapuFeavLst) >>> 16 ≠ 0) :
    ∃ mem' regs', voiceOn mem regs argument = .ok (mem', regs') ∧
      regs' = Function.update regs (voiceListTop ((regs nvPapuFeav &&& nvPapuFeavLst) >>> 16 - 1))
        (argument &&& nv1ba0PioVoiceOnHandle) ∧
      mem'.nextVoiceHandle (argument &&& nv1ba0PioVoiceOnHandle) =
        regs (voiceListTop ((regs nvPapuFeav &&& nvPapuFeavLst) >>> 16 - 1)) &&& nvPavsVoiceTarPitchLinkNextVoiceHandle ∧
      mem'.activeVoice (argument &&& nv1ba0PioVoiceOnHandle) = true := by
  unfold voiceOn
  simp only [if_neg (not_not.mpr hh), if_pos hl, Except.map]
  refine ⟨_, _, rfl, rfl, ?_, ?_⟩
  · unfold VoiceLinks.nextVoiceHandle
    dsimp only
    rw [Function.update_self, voiceSetMask_land (by decide), Nat.shiftLeft_zero]
  · unfold VoiceLinks.activeVoice
    dsimp only
    rw [Function.update_self, voiceSetMask_land (by decide)]
    rfl

/-- A voice put on the same list twice by VOICE_ON links to itself, and the next frame spins on the spinlock it took
for it; an active voice with a handle past the spinlock array at the top of a list makes the frame index past the
array. -/
theorem voice_list_walk_breaks :
    (∀ (mem : VoiceLinks) (regs : ℕ → ℕ) (argument : ℕ), argument &&& nv1ba0PioVoiceOnHandle < mcpxHwMaxVoices →
      (regs nvPapuFeav &&& nvPapuFeavLst) >>> 16 = 1 →
      ∃ mem₂ regs₂, (voiceOn mem regs argument >>= fun r => voiceOn r.1 r.2 argument) = .ok (mem₂, regs₂) ∧
        mcpxApuVpFrame mem₂ regs₂ = .error .selfDeadlock) ∧
    (∀ (mem : VoiceLinks) (regs : ℕ → ℕ) (v : ℕ), regs (voiceListTop 0) = v → mcpxHwMaxVoices ≤ v → v < 0xFFFF →
      mem.activeVoice v = true → mcpxApuVpFrame mem regs = .error .lockOutOfBounds) := by
  refine ⟨fun mem regs argument hh hlist => ?_, fun mem regs v htop hv hv' hact => mcpxApuVpFrame_out_of_range htop hv hv' hact⟩
  set handle := argument &&& nv1ba0PioVoiceOnHandle with hhandle
  obtain ⟨mem₁, regs₁, h₁, hregs₁, -, -⟩ := @voiceOn_top mem regs argument hh (by rw [hlist]; decide)
  rw [hlist] at hregs₁
  -- the first VOICE_ON makes the handle the top of the 2D list, and leaves the list selection as it was
  have htop₁ : regs₁ (voiceListTop 0) = handle := by rw [hregs₁, Function.update_self]
  have hlist₁ : (regs₁ nvPapuFeav &&& nvPapuFeavLst) >>> 16 = 1 := by
    rw [hregs₁, Function.update_of_ne (voiceListTop_ne_feav 0).symm, hlist]
  obtain ⟨mem₂, regs₂, h₂, hregs₂, hnext, hact⟩ := @voiceOn_top mem₁ regs₁ argument hh (by rw [hlist₁]; decide)
  rw [hlist₁] at hregs₂ hnext
  refine ⟨mem₂, regs₂, by rw [h₁]; exact h₂, mcpxApuVpFrame_self_link ?_ hh ?_ hact⟩
  · rw [hregs₂, Function.update_self]
  · -- the second VOICE_ON links the handle to the top, which is the handle itself
    rw [hnext, show (1 - 1 : ℕ) = 0 from rfl, htop₁, show nvPavsVoiceTarPitchLinkNextVoiceHandle = 2 ^ 16 - 1 from rfl,
      Nat.and_two_pow_sub_one_eq_mod, Nat.mod_eq_of_lt (lt_of_lt_of_le hh (by decide))]

/-- voice memory with every link at the end of a list and every voice inactive; the 2D list is empty and selected
for VOICE_ON -/
def emptyVoiceLinks : VoiceLinks := ⟨fun _ => 0xFFFF, fun _ => 0⟩

def twoDListSelected : ℕ → ℕ := fun r => if r = nvPapuFeav then 0x10000 else 0xFFFF

theorem relinked_voice_5_deadlocks :
    (∃ mem₂ regs₂, (voiceOn emptyVoiceLinks twoDListSelected 5 >>= fun r => voiceOn r.1 r.2 5) = .ok (mem₂, regs₂) ∧
      mcpxApuVpFrame mem₂ regs₂ = .error .selfDeadlock) ∧
    mcpxApuVpFrame ⟨fun _ => 0xFFFF, fun _ => nvPavsVoiceParStateActiveVoice⟩ (fun _ => 0x100) = .error .lockOutOfBounds :=
  ⟨voice_list_walk_breaks.1 emptyVoiceLinks twoDListSelected 5 (by decide) (by decide),
    voice_list_walk_breaks.2 _ _ 0x100 rfl (by decide) (by decide) (by decide)⟩

end Xemu.Vp
