import Mathlib
import Xemu.Core.Runs
import Xemu.Dsp.Address
import Xemu.Dsp.Loop
import Xemu.Dsp.Opcache
/-!
# Interrupts of the DSP core

dsp56k_add_interrupt (dsp_cpu.c) flags an interrupt pending in `interrupt_is_pending` and counts it in
`interrupt_counter`, unless its level in `interrupt_ipl` is -1 (unused). After every instruction
dsp_postexecute_interrupts either runs the pipeline of the fast interrupt in progress (`interrupt_state` DISABLED,
counting `interrupt_pipeline_count` down from 5), or posts the trace interrupt if T is set and arbitrates between the
pending interrupts. The one it takes leaves the table and its vector is fetched two instructions later.

* The counter counts the pending interrupts, over every run from reset: `interrupt_counter_counts_pending`. The level
  table never changes, so only interrupts 0 to 4 (reset, illegal, stack error, trace, SWI) are ever pending.
* The arbitration takes the first interrupt, in number order, of the highest level among those that SR's mask lets
  through: `List.argmax` of the levels over them (`postexecute_arbitrates_argmax`).
* A fast interrupt runs the two words at its vector after two more instructions of the interrupted code, returns to
  the next one, and takes no other interrupt until its sixth instruction: `fast_interrupt_pipeline`.
-/

namespace Xemu.Dsp

/-- DSP_REG_OMR -/
def dspRegOmr : ℕ := 0x3a

/-- DSP_INTER_TRACE -/
def dspInterTrace : ℕ := 0x3

/-- DSP_INTERRUPT_NONE, DSP_INTERRUPT_DISABLED and DSP_INTERRUPT_LONG -/
inductive InterruptState
  | none
  | disabled
  | long
  deriving DecidableEq, Repr

/-- the vector addresses of the `dsp_interrupt` table, by interrupt number -/
def dspInterruptVector : List ℕ := [0x00, 0x3e, 0x02, 0x04, 0x06, 0xff, 0x20, 0x22, 0x0e, 0x0c, 0x12, 0x10]

/-- read_memory_p; `none` where one of its asserts fails -/
def readMemoryP (pram : ℕ → ℕ) (address : ℕ) : Option ℕ :=
  if address < dspPramSize ∧ pram address &&& 0xFF000000 = 0 then some (pram address) else none

/-- the fields of dsp_core_t the interrupt code reads and writes; `core` holds the registers, the system stack, PC and
the REP flag, and the arrays are indexed by interrupt number -/
structure InterruptCore where
  core : LoopCore
  interruptState : InterruptState
  interruptInstrFetch : ℕ
  interruptSavePc : ℕ
  interruptCounter : ℕ
  interruptIplToRaise : ℕ
  interruptPipelineCount : ℕ
  interruptIpl : ℕ → ℤ
  interruptIsPending : ℕ → ℕ

/-- dsp56k_add_interrupt -/
def dsp56kAddInterrupt (st : InterruptCore) (inter : ℕ) : InterruptCore :=
  -- detect if this interrupt is used or not
  if st.interruptIpl inter = -1 then st
  -- add this interrupt to the pending interrupts table
  else if st.interruptIsPending inter = 0 then
    { st with
      interruptIsPending := Function.update st.interruptIsPending inter 1
      interruptCounter := (st.interruptCounter + 1) % 2 ^ 16 }
  else st

/-- the test for a JSR at an interrupt vector, which makes the interrupt long -/
def isJsrInstr (instr : ℕ) : Bool := instr &&& 0xfff000 == 0x0d0000 || instr &&& 0xffc0ff == 0x0bc080

/-- a JSR at the vector: the interrupt becomes long, PC and SR of the interrupted code are pushed, LF, T, S1, S0, I1
and I0 cleared and the mask raised to the one the interrupt asks for -/
def startLongInterrupt (st : InterruptCore) : Option InterruptCore :=
  (dspStackPush st.core st.interruptSavePc (st.core.regs dspRegSr) false).map fun core =>
    let sr := core.regs dspRegSr &&& (bitmask 16 - ((1 <<< dspSrLf) ||| (1 <<< dspSrT) ||| (1 <<< dspSrS1) |||
      (1 <<< dspSrS0) ||| (1 <<< dspSrI0) ||| (1 <<< dspSrI1)))
    { st with
      interruptState := .long
      core := { core with regs := setReg core.regs dspRegSr (sr ||| st.interruptIplToRaise <<< dspSrI0) } }

/-- the switch of dsp_postexecute_interrupts while a fast interrupt runs (`interrupt_state` DISABLED): `inl` where the
function returns, `inr` where it goes on to look for an interrupt; `none` where an assert fails -/
def interruptPipeline (pram : ℕ → ℕ) (st : InterruptCore) : Option (InterruptCore ⊕ InterruptCore) :=
  match st.interruptPipelineCount with
  | 5 => some (.inl { st with interruptPipelineCount := 4 })
  | 4 =>
    -- prefetch interrupt instruction 1
    let st := { st with interruptSavePc := st.core.pc % 2 ^ 16, core := { st.core with pc := st.interruptInstrFetch } }
    (readMemoryP pram st.interruptInstrFetch).bind fun instr =>
      (if isJsrInstr instr then startLongInterrupt st else some st).map fun st =>
        .inl { st with interruptPipelineCount := 3 }
  | 3 =>
    -- prefetch interrupt instruction 2
    (if st.core.pc = st.interruptInstrFetch + 1 then
      (readMemoryP pram st.core.pc).bind fun instr => if isJsrInstr instr then startLongInterrupt st else some st
    else some st).map fun st => .inl { st with interruptPipelineCount := 2 }
  | 2 =>
    -- was it a fast interrupt? then back to the interrupted code
    let st := if st.core.pc = st.interruptInstrFetch + 2 then { st with core := { st.core with pc := st.interruptSavePc } }
      else st
    some (.inl { st with interruptPipelineCount := 1 })
  | 1 => some (.inl { st with interruptPipelineCount := 0 })
  | 0 => some (.inr { st with interruptSavePc := 0xffff, interruptInstrFetch := 0xffff, interruptState := .none })
  | _ => some (.inr st)

/-- the trace interrupt, posted when SR's T bit is set -/
def postTrace (st : InterruptCore) : InterruptCore :=
  if st.core.regs dspRegSr &&& (1 <<< dspSrT) ≠ 0 then dsp56kAddInterrupt st dspInterTrace else st

/-- `ipl_sr`: the interrupt mask I1:I0 of SR -/
def iplSr (st : InterruptCore) : ℤ := ((st.core.regs dspRegSr >>> dspSrI0) &&& bitmask 2 : ℕ)

/-- the arbitration loop over the interrupts left to look at; `index` and `iplToRaise` are the interrupt chosen so
far and its level, `none` (the source's 0xffff) and -1 before any -/
def arbitrateInterrupts (ipl : ℕ → ℤ) (isPending : ℕ → ℕ) (iplSr : ℤ) : List ℕ → Option ℕ → ℤ → Option ℕ
  | [], index, _ => index
  | i :: rest, index, iplToRaise =>
    if isPending i = 1 then
      -- a level 3 interrupt is taken at once
      if ipl i = 3 then some i
      -- masked in SR
      else if ipl i < iplSr then arbitrateInterrupts ipl isPending iplSr rest index iplToRaise
      -- not above the interrupt chosen so far
      else if ipl i ≤ iplToRaise then arbitrateInterrupts ipl isPending iplSr rest index iplToRaise
      else arbitrateInterrupts ipl isPending iplSr rest (some i) (ipl i)
    else arbitrateInterrupts ipl isPending iplSr rest index iplToRaise

/-- the arbitrated interrupt taken off the pending table and started: its vector fetched after the pipeline, at the
level above its own; `none` where an assert fails (the SSI exceptions and the host command) -/
def startInterrupt (st : InterruptCore) (index : ℕ) : Option InterruptCore :=
  let iplToRaise := min (st.interruptIpl index + 1) 3
  let st := { st with
    interruptIsPending := Function.update st.interruptIsPending index 0
    interruptCounter := st.interruptCounter - 1
    interruptInstrFetch := dspInterruptVector.getD index 0
    interruptPipelineCount := 5
    interruptState := .disabled
    interruptIplToRaise := iplToRaise.toNat }
  if st.interruptInstrFetch = 0xe ∨ st.interruptInstrFetch = 0x12 ∨ st.interruptInstrFetch = 0xff then none
  else some st

/-- the end of dsp_postexecute_interrupts, once interrupts are enabled: the trace interrupt, then the arbitration -/
def postexecuteArbitrate (st : InterruptCore) : Option InterruptCore :=
  let st := postTrace st
  -- no interrupt to execute
  if st.interruptCounter = 0 then some st
  else
    match arbitrateInterrupts st.interruptIpl st.interruptIsPending (iplSr st) (List.range 12) none (-1) with
    | none => some st
    | some index => startInterrupt st index

/-- dsp_postexecute_interrupts -/
def dspPostexecuteInterrupts (pram : ℕ → ℕ) (st : InterruptCore) : Option InterruptCore :=
  -- REP is not interruptible
  if st.core.loopRep then some st
  -- a fast interrupt can not be interrupted
  else if st.interruptState = .disabled then (interruptPipeline pram st).bind (Sum.elim some postexecuteArbitrate)
  else postexecuteArbitrate st

/-- the levels dsp56k_reset_cpu sets: 3 for interrupts 0 to 4, -1 (unused) for the others -/
def resetIpl (i : ℕ) : ℤ := if i < 5 then 3 else -1

/-- dsp56k_reset_cpu, on the state modelled here -/
def dsp56kResetCpu (st : InterruptCore) : InterruptCore :=
  { st with
    core := { st.core with
      regs := fun r => if r = dspRegOmr then 0x02 else if dspRegM0 ≤ r ∧ r < dspRegM0 + 8 then 0x00ffff else 0
      stackSsh := fun _ => 0
      stackSsl := fun _ => 0
      pc := 0x0000
      loopRep := false }
    interruptIsPending := fun _ => 0
    interruptState := .none
    interruptInstrFetch := 0xffff
    interruptSavePc := 0xffff
    interruptCounter := 0
    interruptPipelineCount := 0
    interruptIpl := resetIpl }

/-- what moves the interrupt machinery: an interrupt posted (by a peripheral, by the stack on an error, by an
illegal instruction), an instruction (any change to the core; a JSR or BSR in a long interrupt also sets
`interrupt_state` to DISABLED), and dsp_postexecute_interrupts after it, reading P memory as it is then -/
inductive InterruptEvent
  | post (inter : Fin 12)
  | instruction (core : LoopCore) (jsr : Bool)
  | postexecute (pram : ℕ → ℕ)

/-- one event -/
def interruptStep (st : InterruptCore) : InterruptEvent → Option InterruptCore
  | .post inter => some (dsp56kAddInterrupt st inter)
  | .instruction core jsr =>
    some { st with
      core
      interruptState := if jsr ∧ st.interruptState = .long then .disabled else st.interruptState }
  | .postexecute pram => dspPostexecuteInterrupts pram st

/-! ## The pending table -/

/-- the interrupts a pending table flags -/
def pendingSet (isPending : ℕ → ℕ) : Finset ℕ := (Finset.range 12).filter fun i => isPending i = 1

/-- the counter counts the flags, each flag is 0 or 1, and only interrupts in use are pending -/
structure InterruptInv (st : InterruptCore) : Prop where
  flag : ∀ i < 12, st.interruptIsPending i ≤ 1
  used : ∀ i < 12, st.interruptIsPending i = 1 → st.interruptIpl i ≠ -1
  counter : st.interruptCounter = (pendingSet st.interruptIsPending).card

/-- the fields the invariant reads are the same -/
structure SameTable (st st' : InterruptCore) : Prop where
  isPending : st'.interruptIsPending = st.interruptIsPending
  counter : st'.interruptCounter = st.interruptCounter
  ipl : st'.interruptIpl = st.interruptIpl

theorem InterruptInv.of_sameTable {st st' : InterruptCore} (h : InterruptInv st) (hs : SameTable st st') :
    InterruptInv st' where
  flag := by rw [hs.isPending]; exact h.flag
  used := by rw [hs.isPending, hs.ipl]; exact h.used
  counter := by rw [hs.counter, h.counter, hs.isPending]

theorem card_pendingSet_le (isPending : ℕ → ℕ) : (pendingSet isPending).card ≤ 12 :=
  (Finset.card_filter_le _ _).trans (Finset.card_range 12).le

/-- setting a clear flag adds one interrupt to the set -/
theorem card_pendingSet_set {isPending : ℕ → ℕ} {i : ℕ} (hi : i < 12) (hclear : isPending i = 0) :
    (pendingSet (Function.update isPending i 1)).card = (pendingSet isPending).card + 1 := by
  have hset : pendingSet (Function.update isPending i 1) = insert i (pendingSet isPending) := by
    ext j
    by_cases hj : j = i
    · subst hj
      simp [pendingSet, hi]
    · simp [pendingSet, hj]
  have hnot : i ∉ pendingSet isPending := by simp [pendingSet, hclear]
  rw [hset, Finset.card_insert_of_notMem hnot]

/-- clearing a set flag takes one interrupt out of the set -/
theorem card_pendingSet_clear {isPending : ℕ → ℕ} {i : ℕ} (hi : i < 12) (hset : isPending i = 1) :
    (pendingSet (Function.update isPending i 0)).card = (pendingSet isPending).card - 1 := by
  have herase : pendingSet (Function.update isPending i 0) = (pendingSet isPending).erase i := by
    ext j
    by_cases hj : j = i
    · subst hj
      simp [pendingSet]
    · simp [pendingSet, hj]
  have hmem : i ∈ pendingSet isPending := by simp [pendingSet, hi, hset]
  rw [herase, Finset.card_erase_of_mem hmem]

/-- a flag written into a table of 0s and 1s keeps it so, where the written value is 0 or 1 -/
theorem update_flag_le {isPending : ℕ → ℕ} (h : ∀ i < 12, isPending i ≤ 1) {j v : ℕ} (hv : v ≤ 1) :
    ∀ i < 12, Function.update isPending j v i ≤ 1 := by
  intro i hi
  by_cases hij : i = j
  · subst hij
    simpa using hv
  · simpa [Function.update_of_ne hij] using h i hi

theorem dsp56kAddInterrupt_ipl (st : InterruptCore) (inter : ℕ) :
    (dsp56kAddInterrupt st inter).interruptIpl = st.interruptIpl := by
  unfold dsp56kAddInterrupt
  split_ifs <;> rfl

/-- posting an interrupt keeps the count: a fresh flag is counted once, a flag already set is not counted again -/
theorem dsp56kAddInterrupt_inv {st : InterruptCore} (h : InterruptInv st) {inter : ℕ} (hinter : inter < 12) :
    InterruptInv (dsp56kAddInterrupt st inter) := by
  unfold dsp56kAddInterrupt
  split_ifs with hipl hfresh
  · exact h
  · refine ⟨update_flag_le h.flag le_rfl, fun i hi hp => ?_, ?_⟩
    · by_cases hii : i = inter
      · subst hii
        exact hipl
      · exact h.used i hi (by simpa [Function.update_of_ne hii] using hp)
    · have hle := card_pendingSet_le st.interruptIsPending
      dsimp only
      rw [card_pendingSet_set hinter hfresh, h.counter, Nat.mod_eq_of_lt (by omega)]
  · exact h

theorem postTrace_inv {st : InterruptCore} (h : InterruptInv st) : InterruptInv (postTrace st) := by
  unfold postTrace
  split_ifs
  · exact dsp56kAddInterrupt_inv h (by decide)
  · exact h

theorem postTrace_ipl (st : InterruptCore) : (postTrace st).interruptIpl = st.interruptIpl := by
  unfold postTrace
  split_ifs
  · exact dsp56kAddInterrupt_ipl st dspInterTrace
  · rfl

/-- the arbitration takes a pending interrupt among those it looks at, or keeps the one it had -/
theorem arbitrateInterrupts_mem {ipl : ℕ → ℤ} {isPending : ℕ → ℕ} {sr : ℤ} :
    ∀ {l : List ℕ} {index : Option ℕ} {r : ℤ} {i : ℕ}, arbitrateInterrupts ipl isPending sr l index r = some i →
      (i ∈ l ∧ isPending i = 1) ∨ index = some i
  | [], _, _, _, h => .inr h
  | j :: rest, index, r, i, h => by
    unfold arbitrateInterrupts at h
    split_ifs at h with hp h3 hmask hle
    · cases h
      exact .inl ⟨List.mem_cons_self, hp⟩
    all_goals first
      | (rcases arbitrateInterrupts_mem h with ⟨hmem, hpi⟩ | hidx
         · exact .inl ⟨List.mem_cons_of_mem _ hmem, hpi⟩
         · exact .inr hidx)
      | (rcases arbitrateInterrupts_mem h with ⟨hmem, hpi⟩ | hidx
         · exact .inl ⟨List.mem_cons_of_mem _ hmem, hpi⟩
         · cases hidx
           exact .inl ⟨List.mem_cons_self, hp⟩)

/-- taking a pending interrupt off the table counts it off -/
theorem startInterrupt_inv {st st' : InterruptCore} (h : InterruptInv st) {index : ℕ} (hindex : index < 12)
    (hpending : st.interruptIsPending index = 1) (hstart : startInterrupt st index = some st') : InterruptInv st' := by
  unfold startInterrupt at hstart
  dsimp only at hstart
  split_ifs at hstart
  cases hstart
  refine ⟨update_flag_le h.flag (Nat.zero_le 1), fun i hi hp => ?_, ?_⟩
  · by_cases hii : i = index
    · subst hii
      simp at hp
    · exact h.used i hi (by simpa [Function.update_of_ne hii] using hp)
  · dsimp only
    rw [card_pendingSet_clear hindex hpending, h.counter]

theorem postexecuteArbitrate_inv {st st' : InterruptCore} (h : InterruptInv st)
    (hrun : postexecuteArbitrate st = some st') : InterruptInv st' := by
  have ht := postTrace_inv h
  unfold postexecuteArbitrate at hrun
  dsimp only at hrun
  split_ifs at hrun
  · cases hrun
    exact ht
  · split at hrun
    · cases hrun
      exact ht
    · rename_i index hidx
      rcases arbitrateInterrupts_mem hidx with ⟨hmem, hp⟩ | hnone
      · exact startInterrupt_inv ht (List.mem_range.mp hmem) hp hrun
      · cases hnone

/-- the pipeline of a fast interrupt leaves the table alone -/
theorem interruptPipeline_sameTable {pram : ℕ → ℕ} {st : InterruptCore} {r : InterruptCore ⊕ InterruptCore}
    (h : interruptPipeline pram st = some r) : SameTable st (Sum.elim id id r) := by
  have hlong : ∀ {s s' : InterruptCore}, startLongInterrupt s = some s' → SameTable s s' := by
    intro s s' hs
    unfold startLongInterrupt at hs
    obtain ⟨core, -, rfl⟩ := Option.map_eq_some_iff.mp hs
    exact ⟨rfl, rfl, rfl⟩
  unfold interruptPipeline at h
  split at h
  · cases h
    exact ⟨rfl, rfl, rfl⟩
  · obtain ⟨instr, -, hmap⟩ := Option.bind_eq_some_iff.mp h
    obtain ⟨s, hs, rfl⟩ := Option.map_eq_some_iff.mp hmap
    split_ifs at hs
    · exact ⟨(hlong hs).isPending, (hlong hs).counter, (hlong hs).ipl⟩
    · cases hs
      exact ⟨rfl, rfl, rfl⟩
  · obtain ⟨s, hs, rfl⟩ := Option.map_eq_some_iff.mp h
    split_ifs at hs
    · obtain ⟨instr, -, hs⟩ := Option.bind_eq_some_iff.mp hs
      split_ifs at hs
      · exact ⟨(hlong hs).isPending, (hlong hs).counter, (hlong hs).ipl⟩
      · cases hs
        exact ⟨rfl, rfl, rfl⟩
    · cases hs
      exact ⟨rfl, rfl, rfl⟩
  · cases h
    split_ifs <;> exact ⟨rfl, rfl, rfl⟩
  · cases h
    exact ⟨rfl, rfl, rfl⟩
  · cases h
    exact ⟨rfl, rfl, rfl⟩
  · cases h
    exact ⟨rfl, rfl, rfl⟩

theorem dspPostexecuteInterrupts_inv {pram : ℕ → ℕ} {st st' : InterruptCore} (h : InterruptInv st)
    (hrun : dspPostexecuteInterrupts pram st = some st') : InterruptInv st' := by
  unfold dspPostexecuteInterrupts at hrun
  split_ifs at hrun
  · cases hrun
    exact h
  · obtain ⟨r, hr, hnext⟩ := Option.bind_eq_some_iff.mp hrun
    have hs := h.of_sameTable (interruptPipeline_sameTable hr)
    cases r with
    | inl s =>
      cases hnext
      exact hs
    | inr s => exact postexecuteArbitrate_inv hs hnext
  · exact postexecuteArbitrate_inv h hrun

/-- one event keeps the invariant -/
theorem interruptStep_inv {st st' : InterruptCore} {e : InterruptEvent} (h : InterruptInv st)
    (hstep : interruptStep st e = some st') : InterruptInv st' := by
  cases e with
  | post inter =>
    cases hstep
    exact dsp56kAddInterrupt_inv h inter.isLt
  | instruction core jsr =>
    cases hstep
    exact h.of_sameTable ⟨rfl, rfl, rfl⟩
  | postexecute pram => exact dspPostexecuteInterrupts_inv h hstep

/-- no event changes the level table -/
theorem interruptStep_ipl {st st' : InterruptCore} {e : InterruptEvent} (hstep : interruptStep st e = some st') :
    st'.interruptIpl = st.interruptIpl := by
  cases e with
  | post inter =>
    cases hstep
    exact dsp56kAddInterrupt_ipl st inter
  | instruction core jsr =>
    cases hstep
    rfl
  | postexecute pram =>
    unfold interruptStep dspPostexecuteInterrupts at hstep
    have harb : ∀ {s s' : InterruptCore}, postexecuteArbitrate s = some s' → s'.interruptIpl = s.interruptIpl := by
      intro s s' hs
      unfold postexecuteArbitrate at hs
      dsimp only at hs
      split_ifs at hs
      · cases hs
        exact postTrace_ipl s
      · split at hs
        · cases hs
          exact postTrace_ipl s
        · unfold startInterrupt at hs
          dsimp only at hs
          split_ifs at hs
          cases hs
          exact postTrace_ipl s
    split_ifs at hstep
    · cases hstep
      rfl
    · obtain ⟨r, hr, hnext⟩ := Option.bind_eq_some_iff.mp hstep
      have hs := (interruptPipeline_sameTable hr).ipl
      cases r with
      | inl s =>
        cases hnext
        exact hs
      | inr s => exact (harb hnext).trans hs
    · exact harb hstep

theorem resetCpu_inv (st : InterruptCore) : InterruptInv (dsp56kResetCpu st) where
  flag := fun _ _ => Nat.zero_le 1
  used := fun _ _ h => by simp [dsp56kResetCpu] at h
  counter := by simp [dsp56kResetCpu, pendingSet]

/-- the invariant and the reset level table, carried along a run from reset -/
theorem resetRun_inv {st0 : InterruptCore} {events : List InterruptEvent} {st : InterruptCore}
    (hrun : events.foldlM interruptStep (dsp56kResetCpu st0) = some st) :
    InterruptInv st ∧ st.interruptIpl = resetIpl :=
  Runs.foldlM_invariant (fun s => InterruptInv s ∧ s.interruptIpl = resetIpl)
    (fun s e s' hs hstep => ⟨interruptStep_inv hs.1 hstep, (interruptStep_ipl hstep).trans hs.2⟩) events
    ⟨resetCpu_inv st0, rfl⟩ hrun

/-- from reset, over any run of posted interrupts, instructions and dsp_postexecute_interrupts, the counter counts the
pending interrupts, each flag is 0 or 1, the level table is as reset set it and only interrupts in use are pending -/
theorem interrupt_counter_counts_pending (st0 : InterruptCore) (events : List InterruptEvent) {st : InterruptCore}
    (hrun : events.foldlM interruptStep (dsp56kResetCpu st0) = some st) :
    InterruptInv st ∧ st.interruptIpl = resetIpl :=
  resetRun_inv hrun

/-- an idle core: every register, stack slot and field 0 -/
def zeroInterruptCore : InterruptCore :=
  ⟨⟨fun _ => 0, fun _ => 0, fun _ => 0, 0, false, false⟩, .none, 0, 0, 0, 0, 0, fun _ => 0, fun _ => 0⟩

/-- the stack error posted twice, the unused host transmit interrupt posted, and one instruction finished -/
theorem stack_error_counted_once :
    ([.post 2, .post 2, .post 7, .postexecute fun _ => 0].foldlM interruptStep (dsp56kResetCpu zeroInterruptCore)).elim
      False fun st => InterruptInv st ∧ st.interruptIpl = resetIpl := by
  have hsome : ([.post 2, .post 2, .post 7, .postexecute fun _ => 0].foldlM interruptStep
      (dsp56kResetCpu zeroInterruptCore)).isSome = true := by decide
  cases h : [.post 2, .post 2, .post 7, .postexecute fun _ => 0].foldlM interruptStep (dsp56kResetCpu zeroInterruptCore) with
  | none => simp [h] at hsome
  | some st => exact interrupt_counter_counts_pending zeroInterruptCore _ h

/-! ## Arbitration -/

/-- an interrupt the arbitration may take: pending, at a level SR's mask lets through -/
def arbitrable (ipl : ℕ → ℤ) (isPending : ℕ → ℕ) (sr : ℤ) (i : ℕ) : Bool := isPending i == 1 && decide (sr ≤ ipl i)

/-- the interrupt the arbitration is to take: of the highest level among the pending interrupts the mask lets through,
the first in number order -/
noncomputable def arbitrationChoice (st : InterruptCore) : Option ℕ :=
  ((List.range 12).filter (arbitrable st.interruptIpl st.interruptIsPending (iplSr st))).argmax st.interruptIpl

/-- the level of the interrupt chosen so far, -1 before any -/
def chosenLevel (ipl : ℕ → ℤ) : Option ℕ → ℤ
  | none => -1
  | some c => ipl c

/-- once an interrupt of the top level is chosen, nothing after it replaces it -/
theorem foldl_argAux_of_top {ipl : ℕ → ℤ} {i : ℕ} :
    ∀ {l : List ℕ}, (∀ j ∈ l, ipl j ≤ ipl i) → l.foldl (List.argAux fun b c => ipl c < ipl b) (some i) = some i
  | [], _ => rfl
  | j :: rest, h => by
    have hj : ¬ipl i < ipl j := not_lt.mpr (h j List.mem_cons_self)
    simp only [List.foldl_cons, List.argAux, if_neg hj]
    exact foldl_argAux_of_top fun k hk => h k (List.mem_cons_of_mem _ hk)

/-- the arbitration loop is the `argmax` fold over the interrupts it may take: its early exit at level 3 takes what
the fold would, as no level is above 3 -/
theorem arbitrateInterrupts_eq_foldl {ipl : ℕ → ℤ} {isPending : ℕ → ℕ} {sr : ℤ} (hsr0 : 0 ≤ sr) (hsr3 : sr ≤ 3) :
    ∀ {l : List ℕ} {index : Option ℕ}, (∀ j ∈ l, ipl j ≤ 3) → chosenLevel ipl index < 3 →
      arbitrateInterrupts ipl isPending sr l index (chosenLevel ipl index) =
        (l.filter (arbitrable ipl isPending sr)).foldl (List.argAux fun b c => ipl c < ipl b) index
  | [], _, _, _ => rfl
  | i :: rest, index, hipl, hlevel => by
    have hrest : ∀ j ∈ rest, ipl j ≤ 3 := fun j hj => hipl j (List.mem_cons_of_mem _ hj)
    have hi3 := hipl i List.mem_cons_self
    -- the choice the fold makes at `i`, when `i` beats the one chosen so far
    have hbeat : ipl i > chosenLevel ipl index → List.argAux (fun b c => ipl c < ipl b) index i = some i := by
      intro hgt
      cases index with
      | none => rfl
      | some c => exact if_pos hgt
    rw [arbitrateInterrupts, List.filter_cons]
    by_cases hp : isPending i = 1
    · rw [if_pos hp]
      by_cases h3 : ipl i = 3
      · -- the early exit: `i` is taken, and no later interrupt is above it
        have hel : arbitrable ipl isPending sr i = true := by simp [arbitrable, hp, h3, hsr3]
        rw [if_pos h3, if_pos hel, List.foldl_cons, hbeat (by omega)]
        exact (foldl_argAux_of_top fun j hj => h3 ▸ hrest j (List.mem_filter.mp hj).1).symm
      · rw [if_neg h3]
        by_cases hmask : ipl i < sr
        · have hel : arbitrable ipl isPending sr i = false := by simp [arbitrable, not_le.mpr hmask]
          rw [if_pos hmask, if_neg (by simp [hel])]
          exact arbitrateInterrupts_eq_foldl hsr0 hsr3 hrest hlevel
        · have hel : arbitrable ipl isPending sr i = true := by simp [arbitrable, hp, not_lt.mp hmask]
          rw [if_neg hmask, if_pos hel, List.foldl_cons]
          by_cases hle : ipl i ≤ chosenLevel ipl index
          · -- not above the one chosen so far, which is then some interrupt of level at least `i`'s
            rw [if_pos hle]
            cases index with
            | none =>
              simp only [chosenLevel] at hle
              omega
            | some c =>
              simp only [List.argAux, chosenLevel] at hle ⊢
              rw [if_neg (not_lt.mpr hle)]
              exact arbitrateInterrupts_eq_foldl hsr0 hsr3 hrest hlevel
          · rw [if_neg hle, hbeat (lt_of_not_ge hle)]
            exact arbitrateInterrupts_eq_foldl hsr0 hsr3 hrest (by simp only [chosenLevel]; omega)
    · have hel : arbitrable ipl isPending sr i = false := by simp [arbitrable, hp]
      rw [if_neg hp, if_neg (by simp [hel])]
      exact arbitrateInterrupts_eq_foldl hsr0 hsr3 hrest hlevel

theorem iplSr_nonneg (st : InterruptCore) : 0 ≤ iplSr st := Int.natCast_nonneg _

theorem iplSr_le_three (st : InterruptCore) : iplSr st ≤ 3 := by
  have h : (st.core.regs dspRegSr >>> dspSrI0) &&& bitmask 2 ≤ 3 := Nat.and_le_right
  unfold iplSr
  omega

theorem dspPostexecuteInterrupts_eq_choice (pram : ℕ → ℕ) {st : InterruptCore} (hinv : InterruptInv st)
    (hipl : ∀ i < 12, st.interruptIpl i ≤ 3) (hrep : st.core.loopRep = false)
    (hstate : st.interruptState ≠ .disabled) :
    dspPostexecuteInterrupts pram st =
      (arbitrationChoice (postTrace st)).elim (some (postTrace st)) (startInterrupt (postTrace st)) := by
  have ht := postTrace_inv hinv
  have htipl : ∀ j ∈ List.range 12, (postTrace st).interruptIpl j ≤ 3 := by
    intro j hj
    rw [postTrace_ipl]
    exact hipl j (List.mem_range.mp hj)
  simp only [dspPostexecuteInterrupts, hrep, hstate, Bool.false_eq_true, if_false]
  unfold postexecuteArbitrate
  dsimp only
  split_ifs with hcount
  · -- nothing pending: nothing to take
    have hempty : ∀ i < 12, (postTrace st).interruptIsPending i ≠ 1 := by
      intro i hi hp
      have hmem : i ∈ pendingSet (postTrace st).interruptIsPending := by simp [pendingSet, hi, hp]
      rw [ht.counter, Finset.card_eq_zero] at hcount
      simp [hcount] at hmem
    have hnil : (List.range 12).filter (arbitrable (postTrace st).interruptIpl (postTrace st).interruptIsPending
        (iplSr (postTrace st))) = [] := by
      rw [List.filter_eq_nil_iff]
      intro i hi
      simp [arbitrable, hempty i (List.mem_range.mp hi)]
    rw [arbitrationChoice, hnil]
    rfl
  · have harb : arbitrateInterrupts (postTrace st).interruptIpl (postTrace st).interruptIsPending
        (iplSr (postTrace st)) (List.range 12) none (-1) =
        ((List.range 12).filter (arbitrable (postTrace st).interruptIpl (postTrace st).interruptIsPending
          (iplSr (postTrace st)))).foldl (List.argAux fun b c => (postTrace st).interruptIpl c <
            (postTrace st).interruptIpl b) none :=
      arbitrateInterrupts_eq_foldl (iplSr_nonneg _) (iplSr_le_three _) htipl (by simp [chosenLevel])
    rw [harb, arbitrationChoice, List.argmax]
    cases (List.filter _ (List.range 12)).foldl _ none <;> rfl

/-- with interrupts enabled and outside REP, dsp_postexecute_interrupts posts the trace interrupt if T is set, then
takes the interrupt `arbitrationChoice` names, if any -/
theorem postexecute_arbitrates_argmax (pram : ℕ → ℕ) {st : InterruptCore} (hinv : InterruptInv st)
    (hipl : ∀ i < 12, st.interruptIpl i ≤ 3) (hrep : st.core.loopRep = false)
    (hstate : st.interruptState ≠ .disabled) :
    dspPostexecuteInterrupts pram st =
      (arbitrationChoice (postTrace st)).elim (some (postTrace st)) (startInterrupt (postTrace st)) :=
  dspPostexecuteInterrupts_eq_choice pram hinv hipl hrep hstate

theorem resetIpl_le_three (i : ℕ) : resetIpl i ≤ 3 := by
  unfold resetIpl
  split_ifs <;> decide

/-- the stack error posted after reset -/
theorem stack_error_arbitrated :
    dspPostexecuteInterrupts (fun _ => 0) (dsp56kAddInterrupt (dsp56kResetCpu zeroInterruptCore) 2) =
      (arbitrationChoice (postTrace (dsp56kAddInterrupt (dsp56kResetCpu zeroInterruptCore) 2))).elim
        (some (postTrace (dsp56kAddInterrupt (dsp56kResetCpu zeroInterruptCore) 2)))
        (startInterrupt (postTrace (dsp56kAddInterrupt (dsp56kResetCpu zeroInterruptCore) 2))) :=
  postexecute_arbitrates_argmax (fun _ => 0) (dsp56kAddInterrupt_inv (resetCpu_inv _) (by decide))
    (fun i _ => by
      rw [dsp56kAddInterrupt_ipl]
      exact resetIpl_le_three i)
    rfl (by decide)

/-- over interrupts all of one level, the first is the `argmax` -/
theorem argmax_of_const {f : ℕ → ℤ} {c : ℤ} : ∀ {l : List ℕ}, (∀ x ∈ l, f x = c) → l.argmax f = l.head?
  | [], _ => rfl
  | a :: l, h => by
    rw [List.argmax_cons, argmax_of_const fun x hx => h x (List.mem_cons_of_mem _ hx)]
    cases l with
    | nil => rfl
    | cons b l =>
      have hab : ¬f a < f b := by rw [h a List.mem_cons_self, h b (by simp)]; exact lt_irrefl c
      simp [hab]

/-- with the levels reset sets, every pending interrupt is at level 3, above any mask: the arbitration takes the
lowest-numbered pending interrupt -/
theorem arbitrationChoice_of_reset {st : InterruptCore} (hinv : InterruptInv st) (hipl : st.interruptIpl = resetIpl) :
    arbitrationChoice st = ((List.range 12).filter fun i => st.interruptIsPending i == 1).head? := by
  have hlevel : ∀ i < 12, st.interruptIsPending i = 1 → st.interruptIpl i = 3 := by
    intro i hi hp
    have hused := hinv.used i hi hp
    rw [hipl, resetIpl] at hused ⊢
    split_ifs at hused ⊢ with h5
    · rfl
    · exact absurd rfl hused
  have hfilter : (List.range 12).filter (arbitrable st.interruptIpl st.interruptIsPending (iplSr st)) =
      (List.range 12).filter fun i => st.interruptIsPending i == 1 := by
    apply List.filter_congr
    intro i hi
    by_cases hp : st.interruptIsPending i = 1
    · simp [arbitrable, hp, hlevel i (List.mem_range.mp hi) hp, iplSr_le_three st]
    · simp [arbitrable, hp]
  rw [arbitrationChoice, hfilter]
  apply argmax_of_const
  intro i hi
  rw [List.mem_filter] at hi
  exact hlevel i (List.mem_range.mp hi.1) (by simpa using hi.2)

/-- from reset, outside REP and the pipeline of a fast interrupt, dsp_postexecute_interrupts takes the lowest-numbered
pending interrupt, whatever SR's mask: only interrupts 0 to 4 are in use, all at level 3 -/
theorem reset_serves_lowest_first (st0 : InterruptCore) (events : List InterruptEvent) {st : InterruptCore}
    (hrun : events.foldlM interruptStep (dsp56kResetCpu st0) = some st) (pram : ℕ → ℕ)
    (hrep : st.core.loopRep = false) (hstate : st.interruptState ≠ .disabled) :
    dspPostexecuteInterrupts pram st =
      (((List.range 12).filter fun i => (postTrace st).interruptIsPending i == 1).head?).elim (some (postTrace st))
        (startInterrupt (postTrace st)) := by
  obtain ⟨hinv, hipl⟩ := resetRun_inv hrun
  have hipl3 : ∀ i < 12, st.interruptIpl i ≤ 3 := fun i _ => hipl ▸ resetIpl_le_three i
  rw [dspPostexecuteInterrupts_eq_choice pram hinv hipl3 hrep hstate,
    arbitrationChoice_of_reset (postTrace_inv hinv) ((postTrace_ipl st).trans hipl)]

/-- the software interrupt and the stack error posted after reset -/
def swiAndStackError : InterruptCore := dsp56kAddInterrupt (dsp56kAddInterrupt (dsp56kResetCpu zeroInterruptCore) 4) 2

theorem reset_serves_stack_error_first :
    dspPostexecuteInterrupts (fun _ => 0) swiAndStackError =
      (((List.range 12).filter fun i => (postTrace swiAndStackError).interruptIsPending i == 1).head?).elim
        (some (postTrace swiAndStackError)) (startInterrupt (postTrace swiAndStackError)) :=
  reset_serves_lowest_first zeroInterruptCore [.post 4, .post 2] rfl (fun _ => 0) rfl (by decide)

/-! ## The pipeline of a fast interrupt -/

/-- `n` instructions of one word that do not branch, outside any loop, each followed by dsp_postexecute_interrupts: the
PCs they run at, and the state after them -/
def runStraightLine (pram : ℕ → ℕ) : ℕ → InterruptCore → Option (List ℕ × InterruptCore)
  | 0, st => some ([], st)
  | n + 1, st =>
    (dspPostexecuteInterrupts pram { st with core := { st.core with pc := st.core.pc + 1 } }).bind fun st' =>
      (runStraightLine pram n st').map fun r => (st.core.pc :: r.1, r.2)

/-- a fast interrupt, just taken at PC `p` with its vector at `v`, whose two words are no JSR: two more instructions of
the interrupted code run, then the two vector words, then the code goes on at `p + 2`; the sixth instruction enables
interrupts again, and until then the pending table is left alone -/
theorem fast_interrupt_pipeline {pram : ℕ → ℕ} {st : InterruptCore} {p v w0 w1 : ℕ}
    (hstate : st.interruptState = .disabled) (hcount : st.interruptPipelineCount = 5) (hfetch : st.interruptInstrFetch = v)
    (hpc : st.core.pc = p) (hrep : st.core.loopRep = false) (hp : p + 2 < 2 ^ 16)
    (hw0 : readMemoryP pram v = some w0) (hj0 : isJsrInstr w0 = false)
    (hw1 : readMemoryP pram (v + 1) = some w1) (hj1 : isJsrInstr w1 = false) :
    runStraightLine pram 6 st = (postexecuteArbitrate { st with
        core := { st.core with pc := p + 4 }
        interruptSavePc := 0xffff
        interruptInstrFetch := 0xffff
        interruptState := .none
        interruptPipelineCount := 0 }).map fun st' => ([p, p + 1, v, v + 1, p + 2, p + 3], st') := by
  obtain ⟨core, state, fetch, savePc, counter, toRaise, count, ipl, pending⟩ := st
  obtain ⟨regs, ssh, ssl, pc, loopRep, pcOnRep⟩ := core
  simp only at hstate hcount hfetch hpc hrep
  subst hstate hcount hfetch hpc hrep
  -- the return address is saved modulo 2^16 when the first vector word is fetched
  have hsave : (pc + 1 + 1) % 65536 = pc + 2 := Nat.mod_eq_of_lt hp
  simp [runStraightLine, dspPostexecuteInterrupts, interruptPipeline, hw0, hj0, hw1, hj1, hsave]
  rw [show pc + 2 + 1 + 1 = pc + 4 by omega]
  cases postexecuteArbitrate _ <;> rfl

/-- the stack error taken first after reset, its vector at 0x02 -/
def stackErrorTaken : InterruptCore := (startInterrupt (postTrace swiAndStackError) 2).getD zeroInterruptCore

theorem stack_error_vector_runs :
    runStraightLine (fun _ => 0) 6 stackErrorTaken = (postexecuteArbitrate { stackErrorTaken with
        core := { stackErrorTaken.core with pc := 0 + 4 }
        interruptSavePc := 0xffff
        interruptInstrFetch := 0xffff
        interruptState := .none
        interruptPipelineCount := 0 }).map fun st' => ([0, 0 + 1, 2, 2 + 1, 0 + 2, 0 + 3], st') :=
  @fast_interrupt_pipeline (fun _ => 0) stackErrorTaken 0 2 0 0 (by decide) (by decide) (by decide) (by decide)
    (by decide) (by decide) (by decide) (by decide) (by decide) (by decide)

end Xemu.Dsp
