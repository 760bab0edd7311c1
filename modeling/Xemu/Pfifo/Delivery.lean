import Xemu.Core.TailQueue
import Xemu.Pfifo.Commands
/-!
# Batched delivery

The pusher hands a method command's data words to the puller in batches: `pgraph_method_inc` runs an increasing
handler over the words up to the end of its range, `pgraph_method_non_inc` a non-increasing one over all the words
available, and the pusher then moves `dma_get`, the method and the count by the number of words consumed. This module
shows that the batches deliver exactly what the words delivered one at a time deliver (`wordByWord`), for PGRAPH
classes whose handlers are found in a method table (`tableEnv`), whatever pieces `dma_put` arrives in.

The reference decoder `decodeWords` reads method commands, one data word at a time, and reads back what
`encodeCommands` writes (`decodeWords_encodeCommands`). `remaining` is what is left of the reference at a pusher state;
`pusherStep_remaining` says that one pass of the pusher loop keeps it, `runPusher_remaining` that a run does, and
`runPieces_eq_remaining` that the pusher woken at any rising `dma_put` values leaves the reference's puller, from any
`dma_get` where the reference can take over, inside a command or at its header. The Kelvin method table meets the
table hypotheses (`kelvinMethodEntry_batchTable`).
-/

namespace Xemu.Pfifo

open Xemu.Pgraph

variable {σ : Type}

/-! ## Tables and the reference decoder -/

/-- pgraph_method for a class whose handlers are found in `table`, without a look-ahead -/
def tableEnv (ramht : ℕ → Option RamhtEntry) (table : ℕ → Option MethodEntry)
    (handle : MethodEntry → ℕ → ℕ → ℕ → σ → Option σ) : PfifoEnv σ where
  ramhtLookup := ramht
  pgraphMethod subchannel method parameter parameters numWordsAvailable _ inc s :=
    dispatchMethod table handle subchannel method parameter parameters numWordsAvailable inc s

/-- a method table whose batched handlers behave, at the aligned methods the pusher decodes: they sit at `0x200` or
above, past method `0` and the object methods, and an increasing handler's entries cover its range, which ends within
the method field -/
structure BatchTable (table : ℕ → Option MethodEntry) : Prop where
  batched_high : ∀ m e, m % 4 = 0 → table m = some e → e.wrapper ≠ .plain → 0x200 ≤ m
  inc_end : ∀ m e, m % 4 = 0 → table m = some e → e.wrapper = .inc → m + 4 ≤ e.rangeEnd ∧ e.rangeEnd ≤ 0x2000
  inc_next : ∀ m e, m % 4 = 0 → table m = some e → e.wrapper = .inc → m + 8 ≤ e.rangeEnd →
    table (m + 4) = some e

/-- an increasing handler's entries cover the methods up to its range end -/
theorem BatchTable.inc_cover {table : ℕ → Option MethodEntry} (ht : BatchTable table) {m : ℕ} {e : MethodEntry}
    (hm : m % 4 = 0) (he : table m = some e) (hinc : e.wrapper = .inc) :
    ∀ k, m + 4 * k + 4 ≤ e.rangeEnd → table (m + 4 * k) = some e
  | 0, _ => he
  | k + 1, hk => by
    have hprev := ht.inc_cover hm he hinc k (by omega)
    rw [show m + 4 * (k + 1) = m + 4 * k + 4 by omega]
    exact ht.inc_next _ e (by omega) hprev hinc (by omega)

/-! ### The Kelvin table -/

/-- the ranges of the entries of pgraph_kelvin_methods are apart -/
theorem kelvinMethodTable_apart :
    kelvinMethodTable.Pairwise fun a b => a.1 + 4 * a.2.1 ≤ b.1 ∨ b.1 + 4 * b.2.1 ≤ a.1 := by
  decide

/-- every entry is aligned and ends within the method field, and a batched one sits at `0x200` or above -/
theorem kelvinMethodTable_bounds :
    ∀ t ∈ kelvinMethodTable, t.1 % 4 = 0 ∧ t.1 + 4 * t.2.1 ≤ 0x2000 ∧ (t.2.2 ≠ .plain → 0x200 ≤ t.1) := by
  decide

theorem kelvinMethodEntry_eq_some {m : ℕ} {e : MethodEntry} (h : kelvinMethodEntry m = some e) :
    ∃ t ∈ kelvinMethodTable, t.1 ≤ m ∧ m < t.1 + 4 * t.2.1 ∧ e = ⟨t.1, t.1 + 4 * t.2.1, t.2.2⟩ := by
  obtain ⟨t, ht, rfl⟩ := Option.map_eq_some_iff.mp h
  have hin := List.find?_some ht
  rw [inMethodRange_iff] at hin
  exact ⟨t, List.mem_of_find?_eq_some ht, hin.1, hin.2, rfl⟩

/-- a method in an entry's range finds that entry: no other range holds it -/
theorem kelvinMethodEntry_of_mem {t : ℕ × ℕ × MethodWrapper} (ht : t ∈ kelvinMethodTable) {m : ℕ}
    (hlo : t.1 ≤ m) (hhi : m < t.1 + 4 * t.2.1) : kelvinMethodEntry m = some ⟨t.1, t.1 + 4 * t.2.1, t.2.2⟩ := by
  have hfind : kelvinMethodTable.find? (fun e => inMethodRange e.1 e.2.1 m) = some t := by
    refine TailQueue.find?_eq_of_unique (kelvinMethodTable_apart.imp fun {a b} hab hboth => ?_) ht
      (inMethodRange_iff.mpr ⟨hlo, hhi⟩)
    rw [inMethodRange_iff, inMethodRange_iff] at hboth
    omega
  simp [kelvinMethodEntry, hfind]

/-- the Kelvin table meets the hypotheses of batched delivery -/
theorem kelvinMethodEntry_batchTable : BatchTable kelvinMethodEntry where
  batched_high m e _ he hw := by
    obtain ⟨t, ht, hlo, -, rfl⟩ := kelvinMethodEntry_eq_some he
    exact ((kelvinMethodTable_bounds t ht).2.2 hw).trans hlo
  inc_end m e hm4 he _ := by
    obtain ⟨t, ht, hlo, hhi, rfl⟩ := kelvinMethodEntry_eq_some he
    obtain ⟨ht4, hend, -⟩ := kelvinMethodTable_bounds t ht
    -- `m` and the base are aligned, so the word after `m` is still in the range
    exact ⟨by dsimp only; omega, hend⟩
  inc_next m e _ he _ hnext := by
    obtain ⟨t, ht, hlo, -, rfl⟩ := kelvinMethodEntry_eq_some he
    dsimp only at hnext
    exact kelvinMethodEntry_of_mem ht (by omega) (by omega)

/-- the reference decoder, for at most `fuel` commands -/
def decodeWordsAux : ℕ → List ℕ → Option (List Delivery)
  | _, [] => some []
  | 0, _ :: _ => none
  | fuel + 1, word :: words =>
    match decodeHeader word with
    | .methods type method subchannel count =>
      if count ≤ words.length then
        (decodeWordsAux fuel (words.drop count)).map (dataDeliveries type method subchannel (words.take count) ++ ·)
      else none
    | _ => none

/-- the reference decoder: method commands only, each data word delivered on its own -/
def decodeWords (words : List ℕ) : Option (List Delivery) := decodeWordsAux words.length words

/-- every command takes at least its header word, so fuel for as many commands as there are words is enough -/
theorem decodeWordsAux_fuel {fuel fuel' : ℕ} {words : List ℕ} (hf : words.length ≤ fuel)
    (hf' : words.length ≤ fuel') : decodeWordsAux fuel words = decodeWordsAux fuel' words := by
  induction fuel generalizing fuel' words with
  | zero => rw [List.eq_nil_of_length_eq_zero (Nat.le_zero.mp hf)]; cases fuel' <;> rfl
  | succ fuel ih =>
    cases words with
    | nil => cases fuel' <;> rfl
    | cons word words =>
      obtain ⟨fuel', rfl⟩ : ∃ n, fuel' = n + 1 := ⟨fuel' - 1, by simp only [List.length_cons] at hf'; omega⟩
      simp only [List.length_cons] at hf hf'
      simp only [decodeWordsAux]
      split
      · rw [@ih fuel' _ (by simp only [List.length_drop]; omega) (by simp only [List.length_drop]; omega)]
      · rfl

theorem decodeWords_nil : decodeWords [] = some [] := rfl

theorem decodeWords_cons (word : ℕ) (words : List ℕ) :
    decodeWords (word :: words) =
      match decodeHeader word with
      | .methods type method subchannel count =>
        if count ≤ words.length then
          (decodeWords (words.drop count)).map (dataDeliveries type method subchannel (words.take count) ++ ·)
        else none
      | _ => none := by
  simp only [decodeWords, List.length_cons, decodeWordsAux]
  split
  · rw [@decodeWordsAux_fuel words.length (words.drop _).length _ (by simp only [List.length_drop]; omega) le_rfl]
  · rfl

/-- a decoded method is aligned and within the method field -/
theorem decodeHeader_method {word method subchannel count : ℕ} {type : MethodType}
    (h : decodeHeader word = .methods type method subchannel count) : method % 4 = 0 ∧ method < 0x2000 := by
  have hfield : (word &&& 0x1ffc) % 4 = 0 ∧ word &&& 0x1ffc < 0x2000 := by
    refine ⟨?_, Nat.lt_of_le_of_lt Nat.and_le_right (by decide)⟩
    rw [← land_three_eq_mod, Nat.land_assoc, show (0x1ffc &&& 3 : ℕ) = 0 by decide, Nat.and_zero]
  unfold decodeHeader at h
  split_ifs at h <;> cases h <;> exact hfield

/-- the reference decoder reads back the commands it is given -/
theorem decodeWords_encodeCommands :
    ∀ {cmds : List MethodCommand}, (∀ c ∈ cmds, c.Valid) → decodeWords (encodeCommands cmds) = some (commandDeliveries cmds)
  | [], _ => rfl
  | c :: cmds, h => by
    have hrest := decodeWords_encodeCommands fun c' hc' => h c' (List.mem_cons_of_mem c hc')
    have hwords : encodeCommands (c :: cmds) = c.header :: (c.data ++ encodeCommands cmds) := by
      simp [encodeCommands]
    rw [hwords, decodeWords_cons, decodeHeader_header (h c List.mem_cons_self)]
    simp [hrest, commandDeliveries]

/-- SET_VERTEX3F with four words, so that the fourth falls past the handler's range, at `0x150c` where no handler
sits, then ARRAY_ELEMENT16 with two -/
def kelvinCommands : List MethodCommand :=
  [⟨.inc, nv097SetVertex3f, 0, [1, 2, 3, 4]⟩, ⟨.nonInc, nv097ArrayElement16, 0, [5, 6]⟩]

/-- the two commands read back -/
theorem kelvin_commands_decode :
    (∀ c ∈ kelvinCommands, c.Valid) ∧
      decodeWords (encodeCommands kelvinCommands) = some (commandDeliveries kelvinCommands) := by
  have hvalid : ∀ c ∈ kelvinCommands, c.Valid := by
    intro c hc
    simp only [kelvinCommands, List.mem_cons, List.not_mem_nil, or_false] at hc
    rcases hc with rfl | rfl <;> exact ⟨by decide, by decide, by decide, by decide⟩
  exact ⟨hvalid, decodeWords_encodeCommands hvalid⟩

/-! ## Deliveries -/

section Deliveries

variable {type : MethodType} {method : ℕ} (subchannel : ℕ)

theorem stepMethod_zero (hm : method < 0x2000) : stepMethod type method 0 = method := by
  unfold stepMethod; split <;> omega

theorem stepMethod_lt (hm : method < 0x2000) (n : ℕ) : stepMethod type method n < 0x2000 := by
  unfold stepMethod; split <;> omega

theorem stepMethod_stepMethod (a b : ℕ) :
    stepMethod type (stepMethod type method a) b = stepMethod type method (a + b) := by
  unfold stepMethod; split <;> omega

@[simp]
theorem length_dataDeliveries : ∀ (method : ℕ) (words : List ℕ),
    (dataDeliveries type method subchannel words).length = words.length
  | _, [] => rfl
  | _, _ :: words => by simp [dataDeliveries, length_dataDeliveries _ words]

/-- the words after the first `n` are delivered from the method `n` words on -/
theorem drop_dataDeliveries (n : ℕ) : ∀ {method : ℕ} (words : List ℕ), method < 0x2000 →
    (dataDeliveries type method subchannel words).drop n =
      dataDeliveries type (stepMethod type method n) subchannel (words.drop n) := by
  induction n with
  | zero => intro method words hm; rw [stepMethod_zero hm]; rfl
  | succ n ih =>
    intro method words hm
    cases words with
    | nil => rfl
    | cons word words =>
      rw [dataDeliveries, List.drop_succ_cons, List.drop_succ_cons, ih words (stepMethod_lt hm 1),
        stepMethod_stepMethod, Nat.add_comm 1 n]

/-- the `i`-th word is delivered at the method `i` words on -/
theorem dataDeliveries_eq_map : ∀ {method : ℕ} (words : List ℕ), method < 0x2000 →
    dataDeliveries type method subchannel words =
      (List.range words.length).map fun i => ⟨subchannel, stepMethod type method i, type = .inc, words.getD i 0⟩
  | _, [], _ => rfl
  | _, word :: words, hm => by
    rw [dataDeliveries, dataDeliveries_eq_map words (stepMethod_lt hm 1), List.length_cons, List.range_succ_eq_map,
      List.map_cons, List.map_map, stepMethod_zero hm]
    congr 2
    funext i
    simp [stepMethod_stepMethod, Nat.add_comm 1 i]

theorem wordByWord_append (env : PfifoEnv σ) (ds' : List Delivery) : ∀ (p : Puller σ) (ds : List Delivery),
    wordByWord env p (ds ++ ds') = (wordByWord env p ds).bind fun p => wordByWord env p ds'
  | _, [] => rfl
  | p, d :: ds => by simp only [List.cons_append, wordByWord, Option.bind_assoc, wordByWord_append env ds']

/-- deliveries that each make one handler call make the calls one after the other -/
theorem wordByWord_eq_foldlM (env : PfifoEnv σ) (engines : ℕ → Bool) (f : σ → ℕ × ℕ → Option σ) :
    ∀ (ds : List Delivery), (∀ d ∈ ds, ∀ g, deliverWord env ⟨engines, g⟩ d = (f g (d.method, d.word)).map (⟨engines, ·⟩)) →
    ∀ g, wordByWord env ⟨engines, g⟩ ds = ((ds.map fun d => (d.method, d.word)).foldlM f g).map (⟨engines, ·⟩)
  | [], _, _ => rfl
  | d :: ds, hds, g => by
    have hrest := wordByWord_eq_foldlM env engines f ds fun d' hd' => hds d' (List.mem_cons_of_mem d hd')
    simp only [wordByWord, hds d List.mem_cons_self, List.map_cons, List.foldlM_cons, Option.bind_map]
    simp [hrest, Option.map_bind]

end Deliveries

/-! ## One call of the puller -/

/-- pgraph_method calls the handler at `method` once, with the puller's parameter: the method has no handler, a plain
one, or a batched one whose command has the other type -/
def SingleCall (table : ℕ → Option MethodEntry) (method : ℕ) (inc : Bool) : Prop :=
  ∀ e, table method = some e →
    e.wrapper = .plain ∨ (e.wrapper = .inc ∧ inc = false) ∨ (e.wrapper = .nonInc ∧ inc = true)

section Puller

variable {ramht : ℕ → Option RamhtEntry} {table : ℕ → Option MethodEntry}
  {handle : MethodEntry → ℕ → ℕ → ℕ → σ → Option σ}

theorem handlerCalls_single {e : MethodEntry} {inc : Bool}
    (h : e.wrapper = .plain ∨ (e.wrapper = .inc ∧ inc = false) ∨ (e.wrapper = .nonInc ∧ inc = true))
    (method parameter : ℕ) (parameters : List ℕ) (n : ℕ) :
    handlerCalls e method parameter parameters n inc = ([(method, parameter)], 1) := by
  unfold handlerCalls
  rcases h with h | ⟨h, rfl⟩ | ⟨h, rfl⟩ <;> simp [h]

/-- a single call does not read the words after the parameter -/
theorem dispatchMethod_single {method : ℕ} {inc : Bool} (h : SingleCall table method inc)
    (parameters parameters' : List ℕ) (n n' : ℕ) (subchannel parameter : ℕ) (g : σ) :
    dispatchMethod table handle subchannel method parameter parameters n inc g =
      dispatchMethod table handle subchannel method parameter parameters' n' inc g := by
  unfold dispatchMethod
  split
  · rfl
  · rename_i e he
    rw [handlerCalls_single (h e he), handlerCalls_single (h e he)]

theorem dispatchMethod_single_fst {method : ℕ} {inc : Bool} (h : SingleCall table method inc)
    {subchannel parameter : ℕ} {parameters : List ℕ} {n : ℕ} {g : σ} {r : ℕ × σ}
    (hr : dispatchMethod table handle subchannel method parameter parameters n inc g = some r) : r.1 = 1 := by
  unfold dispatchMethod at hr
  split at hr
  · cases hr; rfl
  · rename_i e he
    rw [handlerCalls_single (h e he)] at hr
    obtain ⟨g', -, rfl⟩ := Option.map_eq_some_iff.mp hr
    rfl

/-- with single calls at `0` and at the method, the puller delivers only the current word -/
theorem runPuller_single {method : ℕ} {inc : Bool} (h0 : SingleCall table 0 inc) (hm : SingleCall table method inc)
    (p : Puller σ) (subchannel parameter : ℕ) (parameters : List ℕ) (n a : ℕ) :
    runPuller (tableEnv ramht table handle) p method subchannel parameter inc parameters n a =
      runPuller (tableEnv ramht table handle) p method subchannel parameter inc [parameter] 1 1 := by
  simp only [runPuller, tableEnv, dispatchMethod_single h0 parameters [parameter] n 1,
    dispatchMethod_single hm parameters [parameter] n 1]

/-- the words the puller reports consumed are those its call of pgraph_method reports -/
theorem runPuller_fst {env : PfifoEnv σ} {p : Puller σ} {method subchannel parameter : ℕ} {inc : Bool}
    {parameters : List ℕ} {n a : ℕ} {r : ℕ × Puller σ}
    (hr : runPuller env p method subchannel parameter inc parameters n a = some r) :
    ∃ parameter' r', env.pgraphMethod subchannel (if method = 0 then 0 else method) parameter' parameters n a inc
      p.pgraph = some r' ∧ r.1 = r'.1 := by
  unfold runPuller at hr
  dsimp only at hr
  -- every branch but a successful call of pgraph_method fails
  split_ifs at hr with hm0 <;> simp only [hm0, if_true, if_false] <;> (repeat' split at hr) <;> first
    | cases hr
    | obtain ⟨r', hr', rfl⟩ := Option.map_eq_some_iff.mp hr; exact ⟨_, r', hr', rfl⟩

theorem runPuller_single_fst {method : ℕ} {inc : Bool} (h0 : SingleCall table 0 inc)
    (hm : SingleCall table method inc) {p : Puller σ} {subchannel parameter : ℕ} {parameters : List ℕ} {n a : ℕ}
    {r : ℕ × Puller σ}
    (hr : runPuller (tableEnv ramht table handle) p method subchannel parameter inc parameters n a = some r) :
    r.1 = 1 := by
  obtain ⟨parameter', r', hr', hfst⟩ := runPuller_fst hr
  rw [hfst]
  dsimp only [tableEnv] at hr'
  split_ifs at hr'
  · exact dispatchMethod_single_fst h0 hr'
  · exact dispatchMethod_single_fst hm hr'

/-- the puller at a method with a handler, past the object methods -/
theorem runPuller_entry {method : ℕ} {e : MethodEntry} (hm : 0x200 ≤ method) (he : table method = some e)
    (p : Puller σ) (subchannel parameter : ℕ) (inc : Bool) (parameters : List ℕ) (n a : ℕ) :
    runPuller (tableEnv ramht table handle) p method subchannel parameter inc parameters n a =
      if p.engines subchannel then
        (((handlerCalls e method parameter parameters n inc).1.foldlM
          (fun s c => handle e subchannel c.1 c.2 s) p.pgraph).map
            fun g => ((handlerCalls e method parameter parameters n inc).2, ⟨p.engines, g⟩))
      else none := by
  have hm0 : method ≠ 0 := by omega
  have hobj : ¬(0x180 ≤ method ∧ method < 0x200) := by omega
  simp only [runPuller, hm0, if_false, show 0x100 ≤ method by omega, if_true, hobj, tableEnv, dispatchMethod, he,
    Option.map_map]
  rfl

/-- one word at a method with a handler: the handler's call -/
theorem deliverWord_entry {e : MethodEntry} {d : Delivery} (hm : 0x200 ≤ d.method) (he : table d.method = some e)
    (hend : e.wrapper = .inc → d.inc = true → d.method + 4 ≤ e.rangeEnd) {engines : ℕ → Bool}
    (heng : engines d.subchannel = true) (g : σ) :
    deliverWord (tableEnv ramht table handle) ⟨engines, g⟩ d =
      (handle e d.subchannel d.method d.word g).map (⟨engines, ·⟩) := by
  have hcalls : handlerCalls e d.method d.word [d.word] 1 d.inc = ([(d.method, d.word)], 1) := by
    unfold handlerCalls
    split
    · rename_i hw hinc
      have hone : min 1 ((e.rangeEnd - d.method) / 4) = 1 := by have := hend hw hinc; omega
      simp [hone]
    · rfl
    · rfl
  simp only [deliverWord, runPuller_entry hm he, heng, if_true, hcalls, List.foldlM_cons, List.foldlM_nil]
  simp [Option.map_map, Function.comp_def]

theorem BatchTable.single_zero (ht : BatchTable table) (inc : Bool) : SingleCall table 0 inc := by
  intro e he
  have hplain : e.wrapper = .plain := by
    by_contra hw
    have := ht.batched_high 0 e rfl he hw
    omega
  exact Or.inl hplain

theorem exists_batched_of_not_single {method : ℕ} {inc : Bool} (h : ¬SingleCall table method inc) :
    ∃ e, table method = some e ∧ ((e.wrapper = .inc ∧ inc = true) ∨ (e.wrapper = .nonInc ∧ inc = false)) := by
  simp only [SingleCall, not_forall, not_or] at h
  obtain ⟨e, he, hplain, hinc, hnon⟩ := h
  refine ⟨e, he, ?_⟩
  cases hw : e.wrapper <;> cases inc <;> simp_all

/-! ## A batch against its words -/

/-- the first `count` words of a command, delivered one at a time, run `f` at the method and word of each -/
theorem wordByWord_take (p : Puller σ) (type : MethodType) {method : ℕ} (subchannel : ℕ) {words : List ℕ}
    {count : ℕ} (hm : method < 0x2000) (hcount : count ≤ words.length) (f : σ → ℕ × ℕ → Option σ)
    (hdeliver : ∀ i < count, ∀ g, deliverWord (tableEnv ramht table handle) ⟨p.engines, g⟩
      ⟨subchannel, stepMethod type method i, type = .inc, words.getD i 0⟩ =
        (f g (stepMethod type method i, words.getD i 0)).map (⟨p.engines, ·⟩)) :
    wordByWord (tableEnv ramht table handle) p (dataDeliveries type method subchannel words) =
      (((List.range count).map fun i => (stepMethod type method i, words.getD i 0)).foldlM f p.pgraph).bind
        fun g => wordByWord (tableEnv ramht table handle) ⟨p.engines, g⟩
          ((dataDeliveries type method subchannel words).drop count) := by
  have htake : (dataDeliveries type method subchannel words).take count =
      (List.range count).map fun i => ⟨subchannel, stepMethod type method i, type = .inc, words.getD i 0⟩ := by
    rw [dataDeliveries_eq_map _ words hm, ← List.map_take, List.take_range, Nat.min_eq_left hcount]
  have hds : ∀ d ∈ (dataDeliveries type method subchannel words).take count, ∀ g,
      deliverWord (tableEnv ramht table handle) ⟨p.engines, g⟩ d = (f g (d.method, d.word)).map (⟨p.engines, ·⟩) := by
    rw [htake]
    intro d hd g
    obtain ⟨i, hi, rfl⟩ := List.mem_map.mp hd
    exact hdeliver i (List.mem_range.mp hi) g
  conv_lhs => rw [← List.take_append_drop count (dataDeliveries type method subchannel words)]
  rw [wordByWord_append, wordByWord_eq_foldlM _ p.engines f _ hds p.pgraph, Option.bind_map, htake, List.map_map]
  rfl

/-- a subchannel without the graphics engine fails a batched handler's first word -/
theorem wordByWord_unbound (p : Puller σ) (type : MethodType) {method : ℕ} (subchannel : ℕ) {words : List ℕ}
    {e : MethodEntry} (hm : 0x200 ≤ method) (he : table method = some e)
    (heng : p.engines subchannel = false) (hlen : 0 < words.length) :
    wordByWord (tableEnv ramht table handle) p (dataDeliveries type method subchannel words) = none := by
  obtain ⟨word, words, rfl⟩ : ∃ w ws, words = w :: ws := List.exists_cons_of_length_pos hlen
  simp [dataDeliveries, wordByWord, deliverWord, runPuller_entry hm he, heng]

section Batch

variable (ht : BatchTable table) (p : Puller σ) (type : MethodType) {method : ℕ} (subchannel : ℕ)
  {words params : List ℕ} {n : ℕ}
include ht

/-- a single call: the batch is the first word -/
theorem runPuller_batch_single (hs : SingleCall table method (type = .inc)) (hlen : 0 < words.length)
    (a : ℕ) :
    (runPuller (tableEnv ramht table handle) p method subchannel (words.getD 0 0) (type = .inc) params n a).bind
        (fun r => wordByWord (tableEnv ramht table handle) r.2 ((dataDeliveries type method subchannel words).drop r.1)) =
      wordByWord (tableEnv ramht table handle) p (dataDeliveries type method subchannel words) := by
  have h0 := ht.single_zero (type = .inc)
  obtain ⟨word, words, rfl⟩ : ∃ w ws, words = w :: ws := List.exists_cons_of_length_pos hlen
  rw [runPuller_single h0 hs, Option.bind_congr fun r hr => by rw [runPuller_single_fst h0 hs hr]]
  simp only [dataDeliveries, List.drop_one, List.tail_cons, wordByWord, deliverWord, Option.bind_map, List.getD_cons_zero]
  rfl

/-- an increasing handler: the batch runs the words up to the end of the handler's range -/
theorem runPuller_batch_inc {e : MethodEntry} (he : table method = some e) (hw : e.wrapper = .inc)
    (htype : type = .inc) (hmethod : method % 4 = 0 ∧ method < 0x2000) (hn : 0 < n) (hlen : n ≤ words.length)
    (hparams : ∀ i < n, params.getD i 0 = words.getD i 0) (a : ℕ) :
    (runPuller (tableEnv ramht table handle) p method subchannel (words.getD 0 0) (type = .inc) params n a).bind
        (fun r => wordByWord (tableEnv ramht table handle) r.2 ((dataDeliveries type method subchannel words).drop r.1)) =
      wordByWord (tableEnv ramht table handle) p (dataDeliveries type method subchannel words) := by
  subst htype
  have hm200 := ht.batched_high method e hmethod.1 he (by rw [hw]; decide)
  obtain ⟨hfirst, hend⟩ := ht.inc_end method e hmethod.1 he hw
  -- the batch stops at the end of the handler's range, which is within the method field
  have hstep : ∀ i < min n ((e.rangeEnd - method) / 4), stepMethod .inc method i = method + 4 * i := by
    intro i hi
    simp only [stepMethod, if_true]
    omega
  have hcalls : handlerCalls e method (words.getD 0 0) params n true =
      ((List.range (min n ((e.rangeEnd - method) / 4))).map fun i => (stepMethod .inc method i, words.getD i 0),
        min n ((e.rangeEnd - method) / 4)) := by
    simp only [handlerCalls, hw, Prod.mk.injEq, and_true]
    refine List.map_congr_left fun i hi => ?_
    rw [List.mem_range] at hi
    rw [hstep i hi, hparams i (by omega)]
  rw [runPuller_entry hm200 he, show decide (MethodType.inc = .inc) = true by decide, hcalls]
  cases heng : p.engines subchannel
  · rw [wordByWord_unbound p .inc subchannel hm200 he heng (by omega)]
    rfl
  · have hdeliver : ∀ i < min n ((e.rangeEnd - method) / 4), ∀ g,
        deliverWord (tableEnv ramht table handle) ⟨p.engines, g⟩
          ⟨subchannel, stepMethod .inc method i, decide (MethodType.inc = .inc), words.getD i 0⟩ =
        (handle e subchannel (stepMethod .inc method i) (words.getD i 0) g).map (⟨p.engines, ·⟩) := by
      intro i hi g
      have hcover : method + 4 * i + 4 ≤ e.rangeEnd := by omega
      rw [hstep i hi]
      exact deliverWord_entry (show 0x200 ≤ method + 4 * i by omega) (ht.inc_cover hmethod.1 he hw i hcover)
        (fun _ _ => hcover) heng g
    rw [wordByWord_take p .inc subchannel hmethod.2 (by omega) (fun g c => handle e subchannel c.1 c.2 g) hdeliver]
    simp only [if_true, Option.bind_map]
    rfl

/-- a non-increasing handler: the batch runs every word available at the one method -/
theorem runPuller_batch_nonInc {e : MethodEntry} (he : table method = some e) (hw : e.wrapper = .nonInc)
    (htype : type = .nonInc) (hmethod : method % 4 = 0 ∧ method < 0x2000) (hn : 0 < n) (hlen : n ≤ words.length)
    (hparams : ∀ i < n, params.getD i 0 = words.getD i 0) (a : ℕ) :
    (runPuller (tableEnv ramht table handle) p method subchannel (words.getD 0 0) (type = .inc) params n a).bind
        (fun r => wordByWord (tableEnv ramht table handle) r.2 ((dataDeliveries type method subchannel words).drop r.1)) =
      wordByWord (tableEnv ramht table handle) p (dataDeliveries type method subchannel words) := by
  subst htype
  have hm200 := ht.batched_high method e hmethod.1 he (by rw [hw]; decide)
  have hstep : ∀ i, stepMethod .nonInc method i = method := fun i => by simp [stepMethod]
  have hcalls : handlerCalls e method (words.getD 0 0) params n false =
      ((List.range n).map fun i => (stepMethod .nonInc method i, words.getD i 0), n) := by
    simp only [handlerCalls, hw, Prod.mk.injEq, and_true]
    refine List.map_congr_left fun i hi => ?_
    rw [List.mem_range] at hi
    rw [hstep i, hparams i hi]
  rw [runPuller_entry hm200 he, show decide (MethodType.nonInc = .inc) = false by decide, hcalls]
  cases heng : p.engines subchannel
  · rw [wordByWord_unbound p .nonInc subchannel hm200 he heng (by omega)]
    rfl
  · have hdeliver : ∀ i < n, ∀ g,
        deliverWord (tableEnv ramht table handle) ⟨p.engines, g⟩
          ⟨subchannel, stepMethod .nonInc method i, decide (MethodType.nonInc = .inc), words.getD i 0⟩ =
        (handle e subchannel (stepMethod .nonInc method i) (words.getD i 0) g).map (⟨p.engines, ·⟩) := by
      intro i _ g
      rw [hstep i]
      exact deliverWord_entry hm200 he (fun h => absurd (hw ▸ h) (by decide)) heng g
    rw [wordByWord_take p .nonInc subchannel hmethod.2 hlen (fun g c => handle e subchannel c.1 c.2 g) hdeliver]
    simp only [if_true, Option.bind_map]
    rfl

/-- one call of the puller with the first `n` words of a command, then the words it did not consume one at a time,
delivers what all the command's words deliver one at a time -/
theorem runPuller_batch (hmethod : method % 4 = 0 ∧ method < 0x2000) (hn : 0 < n) (hlen : n ≤ words.length)
    (hparams : ∀ i < n, params.getD i 0 = words.getD i 0) (a : ℕ) :
    (runPuller (tableEnv ramht table handle) p method subchannel (words.getD 0 0) (type = .inc) params n a).bind
        (fun r => wordByWord (tableEnv ramht table handle) r.2 ((dataDeliveries type method subchannel words).drop r.1)) =
      wordByWord (tableEnv ramht table handle) p (dataDeliveries type method subchannel words) := by
  by_cases hs : SingleCall table method (type = .inc)
  · exact runPuller_batch_single ht p type subchannel hs (by omega) a
  · obtain ⟨e, he, ⟨hw, hinc⟩ | ⟨hw, hinc⟩⟩ := exists_batched_of_not_single hs
    · exact runPuller_batch_inc ht p type subchannel he hw (of_decide_eq_true hinc) hmethod hn hlen hparams a
    · have htype : type = .nonInc := by cases type <;> simp_all
      exact runPuller_batch_nonInc ht p type subchannel he hw htype hmethod hn hlen hparams a

/-- the puller consumes at least one word and at most the `n` it is given -/
theorem runPuller_consumed (hmethod : method % 4 = 0 ∧ method < 0x2000) (hn : 0 < n) {parameter : ℕ} {inc : Bool}
    {a : ℕ} {r : ℕ × Puller σ}
    (hr : runPuller (tableEnv ramht table handle) p method subchannel parameter inc params n a = some r) :
    1 ≤ r.1 ∧ r.1 ≤ n := by
  by_cases hs : SingleCall table method inc
  · rw [runPuller_single_fst (ht.single_zero inc) hs hr]
    omega
  · obtain ⟨e, he, hb⟩ := exists_batched_of_not_single hs
    have hm200 := ht.batched_high method e hmethod.1 he (by rcases hb with ⟨hw, _⟩ | ⟨hw, _⟩ <;> rw [hw] <;> decide)
    rw [runPuller_entry hm200 he] at hr
    split_ifs at hr
    obtain ⟨g, -, rfl⟩ := Option.map_eq_some_iff.mp hr
    rcases hb with ⟨hw, rfl⟩ | ⟨hw, rfl⟩
    · -- an increasing handler's range holds at least the first word
      have hfirst := (ht.inc_end method e hmethod.1 he hw).1
      simp only [handlerCalls, hw]
      omega
    · simp only [handlerCalls, hw]
      omega

end Batch

end Puller

/-! ## The pusher against the reference -/

/-- the reference's deliveries still to come at a pusher state: the rest of the current command, then what the words
after it decode to -/
def pendingDeliveries (words : List ℕ) (st : Pusher σ) : Option (List Delivery) :=
  (decodeWords (words.drop (st.dmaGet / 4 + st.methodCount))).map fun ds =>
    dataDeliveries st.methodType st.method st.subchannel ((words.drop (st.dmaGet / 4)).take st.methodCount) ++ ds

/-- the puller the reference leaves after the rest of the pushbuffer, from a pusher state on -/
def remaining (env : PfifoEnv σ) (words : List ℕ) (st : Pusher σ) : Option (Puller σ) :=
  (pendingDeliveries words st).bind (wordByWord env st.puller)

/-- the pusher stands where the reference can take over: at a word, with the current command's words left within the
pushbuffer, at an aligned method in the method field, and the words after them decode -/
structure AtCommand (words : List ℕ) (st : Pusher σ) : Prop where
  aligned : st.dmaGet % 4 = 0
  within : st.dmaGet / 4 + st.methodCount ≤ words.length
  decodes : (decodeWords (words.drop (st.dmaGet / 4 + st.methodCount))).isSome
  method_field : st.methodCount ≠ 0 → st.method % 4 = 0 ∧ st.method < 0x2000
  no_error : st.error = .none

/-- a successful decode splits off the first command -/
theorem decodeWords_cons_eq_some {word : ℕ} {words : List ℕ} {ds : List Delivery}
    (h : decodeWords (word :: words) = some ds) :
    ∃ type method subchannel count ds', decodeHeader word = .methods type method subchannel count ∧
      count ≤ words.length ∧ decodeWords (words.drop count) = some ds' ∧
      ds = dataDeliveries type method subchannel (words.take count) ++ ds' := by
  rw [decodeWords_cons] at h
  split at h
  · rename_i type method subchannel count hdec
    split_ifs at h with hcount
    obtain ⟨ds', hds', rfl⟩ := Option.map_eq_some_iff.mp h
    exact ⟨type, method, subchannel, count, ds', hdec, hcount, hds', rfl⟩
  · cases h

/-- the words available to the pusher, with `dma_put` ahead of `dma_get` -/
theorem avail_eq {get put : ℕ} (hget : get ≤ put) (hput : put < 2 ^ 32) : (put + 2 ^ 32 - get) % 2 ^ 32 = put - get := by
  omega

/-- the words the pusher hands the puller are the pushbuffer's from `dma_get` on -/
theorem getD_pushbufferWords (words : List ℕ) (k : ℕ) {a i : ℕ} (hi : i < a) :
    (pushbufferWords (pushbufferOf words) (4 * k) a).getD i 0 = words.getD (k + i) 0 := by
  simp only [pushbufferWords, List.getD_eq_getElem?_getD, List.getElem?_map, List.getElem?_range hi, Option.map_some,
    Option.getD_some, pushbufferOf]
  rw [show (4 * k + 4 * i) / 4 = k + i by omega]

theorem getD_take_drop (words : List ℕ) (k : ℕ) {c i : ℕ} (hi : i < c) :
    ((words.drop k).take c).getD i 0 = words.getD (k + i) 0 := by
  simp only [List.getD_eq_getElem?_getD, List.getElem?_take, hi, if_true, List.getElem?_drop]

section Step

variable {ramht : ℕ → Option RamhtEntry} {table : ℕ → Option MethodEntry}
  {handle : MethodEntry → ℕ → ℕ → ℕ → σ → Option σ} (ht : BatchTable table) {words : List ℕ}
  (hwords : 4 * words.length < 2 ^ 32) {put : ℕ} (hput : put % 4 = 0) (hput_le : put ≤ 4 * words.length)
  {st : Pusher σ} (h : AtCommand words st) (hget : st.dmaGet < put)
include ht hwords hput hput_le h hget

/-- a data word: the batch and the words the puller did not consume leave what the reference leaves -/
theorem pushData_remaining (hcount : st.methodCount ≠ 0) :
    (pushData (tableEnv ramht table handle) (pushbufferOf words) ((put - st.dmaGet) / 4) st).bind
      (remaining (tableEnv ramht table handle) words) = remaining (tableEnv ramht table handle) words st := by
  obtain ⟨ds, hds⟩ := Option.isSome_iff_exists.mp h.decodes
  obtain ⟨k, hk⟩ : ∃ k, st.dmaGet = 4 * k := ⟨st.dmaGet / 4, by have := h.aligned; omega⟩
  have hk4 : st.dmaGet / 4 = k := by omega
  have hwithin := h.within
  have hmeth := h.method_field hcount
  rw [hk4] at hwithin hds
  -- the rest of the current command
  have hcur_len : ((words.drop k).take st.methodCount).length = st.methodCount := by simp; omega
  have hparams : ∀ i < min st.methodCount ((put - st.dmaGet) / 4),
      (pushbufferWords (pushbufferOf words) st.dmaGet ((put - st.dmaGet) / 4)).getD i 0 =
        ((words.drop k).take st.methodCount).getD i 0 := by
    intro i hi
    rw [hk, getD_pushbufferWords words k (by omega), getD_take_drop words k (by omega)]
  have hfirst : pushbufferOf words st.dmaGet = ((words.drop k).take st.methodCount).getD 0 0 := by
    rw [getD_take_drop words k (by omega), pushbufferOf, hk4]
    rfl
  have hremaining : remaining (tableEnv ramht table handle) words st =
      wordByWord (tableEnv ramht table handle) st.puller
        (dataDeliveries st.methodType st.method st.subchannel ((words.drop k).take st.methodCount) ++ ds) := by
    simp only [remaining, pendingDeliveries, hk4, hds, Option.map_some, Option.bind_some]
  unfold pushData
  rw [Option.bind_map, hremaining, wordByWord_append, hfirst,
    ← runPuller_batch ht st.puller st.methodType st.subchannel hmeth (by omega) (by omega) hparams, Option.bind_assoc]
  refine Option.bind_congr fun r hr => ?_
  obtain ⟨hr1, hr2⟩ := runPuller_consumed ht st.puller st.subchannel hmeth (by omega) hr
  -- the pusher moved past the `r.1` words consumed
  have hget' : (st.dmaGet + 4 * r.1) % 2 ^ 32 / 4 = k + r.1 := by omega
  have hcount' : st.methodCount - min st.methodCount r.1 = st.methodCount - r.1 := by omega
  have hmethod' : (if st.methodType = .inc then (st.method + 4 * r.1) % 0x2000 else st.method) =
      stepMethod st.methodType st.method r.1 := rfl
  have hcur' : (words.drop (k + r.1)).take (st.methodCount - r.1) = ((words.drop k).take st.methodCount).drop r.1 := by
    rw [List.drop_take, List.drop_drop]
  simp only [Function.comp_apply, remaining, pendingDeliveries, hget', hcount', hcur',
    show k + r.1 + (st.methodCount - r.1) = k + st.methodCount by omega, hds, Option.map_some, Option.bind_some,
    wordByWord_append]
  rw [hmethod', drop_dataDeliveries _ _ _ hmeth.2]

/-- a data word: the pusher moves past at least one word, and at most to `dma_put` -/
theorem pushData_atCommand (hcount : st.methodCount ≠ 0) {st' : Pusher σ}
    (hst : pushData (tableEnv ramht table handle) (pushbufferOf words) ((put - st.dmaGet) / 4) st = some st') :
    AtCommand words st' ∧ st.dmaGet < st'.dmaGet ∧ st'.dmaGet ≤ put := by
  have hmeth := h.method_field hcount
  have hwithin := h.within
  have hal := h.aligned
  obtain ⟨r, hr, rfl⟩ := Option.map_eq_some_iff.mp hst
  obtain ⟨hr1, hr2⟩ := runPuller_consumed ht st.puller st.subchannel hmeth (by omega) hr
  have hget' : (st.dmaGet + 4 * r.1) % 2 ^ 32 = st.dmaGet + 4 * r.1 := Nat.mod_eq_of_lt (by omega)
  refine ⟨⟨?_, ?_, ?_, ?_, h.no_error⟩, ?_, ?_⟩ <;> simp only [hget']
  · omega
  · omega
  · rw [show (st.dmaGet + 4 * r.1) / 4 + (st.methodCount - min st.methodCount r.1) =
      st.dmaGet / 4 + st.methodCount by omega]
    exact h.decodes
  · intro _
    split <;> omega
  · omega
  · omega

omit ht in
/-- a header: the pusher takes on the command the reference decodes -/
theorem pushCommand_remaining (hcount : st.methodCount = 0) :
    (pushCommand (pushbufferOf words st.dmaGet) st).bind (remaining (tableEnv ramht table handle) words) =
      remaining (tableEnv ramht table handle) words st := by
  obtain ⟨ds, hds⟩ := Option.isSome_iff_exists.mp h.decodes
  have hal := h.aligned
  have hk : st.dmaGet / 4 < words.length := by omega
  rw [hcount, Nat.add_zero] at hds
  have hds0 := hds
  rw [List.drop_eq_getElem_cons hk] at hds0
  obtain ⟨type, method, subchannel, count, ds', hdec, hle, hds', hds_eq⟩ := decodeWords_cons_eq_some hds0
  have hword : pushbufferOf words st.dmaGet = words[st.dmaGet / 4] := List.getD_eq_getElem _ _ hk
  have hnext : (st.dmaGet + 4) % 2 ^ 32 / 4 = st.dmaGet / 4 + 1 := by omega
  have hrest : words.drop (st.dmaGet / 4 + 1 + count) = (words.drop (st.dmaGet / 4 + 1)).drop count := by
    rw [List.drop_drop]
  have hrem : remaining (tableEnv ramht table handle) words st =
      wordByWord (tableEnv ramht table handle) st.puller ds := by
    simp [remaining, pendingDeliveries, hcount, hds, dataDeliveries]
  rw [hrem, hds_eq]
  simp only [pushCommand, hword, hdec, Option.bind_some, remaining, pendingDeliveries, hnext, hrest, hds',
    Option.map_some]

omit ht in
/-- a header: the pusher stands at the command's first data word -/
theorem pushCommand_atCommand (hcount : st.methodCount = 0) {st' : Pusher σ}
    (hst : pushCommand (pushbufferOf words st.dmaGet) st = some st') :
    AtCommand words st' ∧ st.dmaGet < st'.dmaGet ∧ st'.dmaGet ≤ put := by
  obtain ⟨ds, hds⟩ := Option.isSome_iff_exists.mp h.decodes
  have hal := h.aligned
  have hk : st.dmaGet / 4 < words.length := by omega
  rw [hcount, Nat.add_zero, List.drop_eq_getElem_cons hk] at hds
  obtain ⟨type, method, subchannel, count, ds', hdec, hle, hds', -⟩ := decodeWords_cons_eq_some hds
  have hword : pushbufferOf words st.dmaGet = words[st.dmaGet / 4] := List.getD_eq_getElem _ _ hk
  rw [hword, pushCommand, hdec] at hst
  cases hst
  have hnext : (st.dmaGet + 4) % 2 ^ 32 = st.dmaGet + 4 := Nat.mod_eq_of_lt (by omega)
  simp only [List.length_drop] at hle
  refine ⟨⟨?_, ?_, ?_, fun _ => decodeHeader_method hdec, h.no_error⟩, ?_, ?_⟩ <;> simp only [hnext]
  · omega
  · omega
  · rw [show (st.dmaGet + 4) / 4 + count = st.dmaGet / 4 + 1 + count by omega, ← List.drop_drop, hds']
    rfl
  · omega
  · omega

/-- one pass of the pusher loop leaves what the reference leaves -/
theorem pusherStep_remaining :
    (pusherStep (tableEnv ramht table handle) (pushbufferOf words) put st).bind
      (remaining (tableEnv ramht table handle) words) = remaining (tableEnv ramht table handle) words st := by
  have hal := h.aligned
  unfold pusherStep
  dsimp only
  rw [avail_eq hget.le (by omega), if_pos (by omega)]
  by_cases hcount : st.methodCount = 0
  · rw [if_neg (not_not.mpr hcount)]
    exact pushCommand_remaining hwords hput hput_le h hget hcount
  · rw [if_pos hcount]
    exact pushData_remaining ht hwords hput hput_le h hget hcount

/-- one pass of the pusher loop moves forward, towards `dma_put`, and keeps the pusher where the reference can take
over -/
theorem pusherStep_atCommand {st' : Pusher σ}
    (hst : pusherStep (tableEnv ramht table handle) (pushbufferOf words) put st = some st') :
    AtCommand words st' ∧ st.dmaGet < st'.dmaGet ∧ st'.dmaGet ≤ put := by
  have hal := h.aligned
  unfold pusherStep at hst
  dsimp only at hst
  rw [avail_eq hget.le (by omega), if_pos (by omega)] at hst
  by_cases hcount : st.methodCount = 0
  · rw [if_neg (not_not.mpr hcount)] at hst
    exact pushCommand_atCommand hwords hput hput_le h hget hcount hst
  · rw [if_pos hcount] at hst
    exact pushData_atCommand ht hwords hput hput_le h hget hcount hst

end Step

/-! ## Runs -/

/-- a pass of the pusher loop that neither stops at `dma_put` nor fails the bounds check -/
theorem runPusher_succ {env : PfifoEnv σ} {dma : ℕ → ℕ} {dmaLen dmaPut fuel : ℕ} {st : Pusher σ}
    (hne : st.dmaGet ≠ dmaPut) (hlt : st.dmaGet < dmaLen) :
    runPusher env dma dmaLen dmaPut (fuel + 1) st =
      (pusherStep env dma dmaPut st).bind fun s => if s.error = .none then runPusher env dma dmaLen dmaPut fuel s
        else some s := by
  rw [runPusher, if_neg hne, if_neg (by omega)]

/-- the pusher woken once for each value `dma_put` takes, in turn -/
def runPieces (env : PfifoEnv σ) (dma : ℕ → ℕ) (dmaLen fuel : ℕ) : List ℕ → Pusher σ → Option (Pusher σ)
  | [], st => some st
  | put :: puts, st => (pfifoRunPusher env dma dmaLen put fuel st).bind (runPieces env dma dmaLen fuel puts)

section Run

variable {ramht : ℕ → Option RamhtEntry} {table : ℕ → Option MethodEntry}
  {handle : MethodEntry → ℕ → ℕ → ℕ → σ → Option σ} (ht : BatchTable table) {words : List ℕ}
  (hwords : 4 * words.length < 2 ^ 32) {dmaLen : ℕ} (hlen : 4 * words.length ≤ dmaLen)
include ht hwords hlen

/-- a run of the pusher up to `dma_put` leaves what the reference leaves; the induction is on the fuel, which
bounds the words left -/
theorem runPusher_remaining {put : ℕ} (hput : put % 4 = 0) (hput_le : put ≤ 4 * words.length) :
    ∀ (fuel : ℕ) (st : Pusher σ), AtCommand words st → st.dmaGet ≤ put → (put - st.dmaGet) / 4 < fuel →
      (runPusher (tableEnv ramht table handle) (pushbufferOf words) dmaLen put fuel st).bind
        (remaining (tableEnv ramht table handle) words) = remaining (tableEnv ramht table handle) words st
  | 0, _, _, _, hfuel => absurd hfuel (Nat.not_lt_zero _)
  | fuel + 1, st, h, hget, hfuel => by
    by_cases heq : st.dmaGet = put
    · simp only [runPusher, heq, if_true, Option.bind_some]
    · have hlt : st.dmaGet < put := by omega
      have hal := h.aligned
      rw [runPusher_succ heq (by omega), Option.bind_assoc]
      conv_rhs => rw [← pusherStep_remaining ht hwords hput hput_le h hlt]
      refine Option.bind_congr fun s hs => ?_
      obtain ⟨hs', hmove, hle⟩ := pusherStep_atCommand ht hwords hput hput_le h hlt hs
      have hal' := hs'.aligned
      rw [if_pos hs'.no_error]
      exact runPusher_remaining hput hput_le fuel s hs' hle (by omega)

/-- a run of the pusher ends at `dma_put`, where the reference can take over -/
theorem runPusher_atCommand {put : ℕ} (hput : put % 4 = 0) (hput_le : put ≤ 4 * words.length) :
    ∀ (fuel : ℕ) (st : Pusher σ), AtCommand words st → st.dmaGet ≤ put → (put - st.dmaGet) / 4 < fuel →
      ∀ {s : Pusher σ}, runPusher (tableEnv ramht table handle) (pushbufferOf words) dmaLen put fuel st = some s →
        AtCommand words s ∧ s.dmaGet = put
  | 0, _, _, _, hfuel, _, _ => absurd hfuel (Nat.not_lt_zero _)
  | fuel + 1, st, h, hget, hfuel, s, hs => by
    by_cases heq : st.dmaGet = put
    · simp only [runPusher, heq, if_true, Option.some.injEq] at hs
      subst hs
      exact ⟨h, heq⟩
    · have hlt : st.dmaGet < put := by omega
      have hal := h.aligned
      rw [runPusher_succ heq (by omega)] at hs
      obtain ⟨s', hs', hrun⟩ := Option.bind_eq_some_iff.mp hs
      obtain ⟨h', hmove, hle⟩ := pusherStep_atCommand ht hwords hput hput_le h hlt hs'
      have hal' := h'.aligned
      rw [if_pos h'.no_error] at hrun
      exact runPusher_atCommand hput hput_le fuel s' h' hle (by omega) hrun

/-- the pusher woken at each of a rising sequence of `dma_put` values leaves what the reference leaves -/
theorem runPieces_remaining : ∀ (puts : List ℕ) (st : Pusher σ), puts.Pairwise (· ≤ ·) →
    (∀ put ∈ puts, put % 4 = 0 ∧ put ≤ 4 * words.length) → AtCommand words st → (∀ put ∈ puts, st.dmaGet ≤ put) →
    (runPieces (tableEnv ramht table handle) (pushbufferOf words) dmaLen (words.length + 1) puts st).bind
      (remaining (tableEnv ramht table handle) words) = remaining (tableEnv ramht table handle) words st
  | [], _, _, _, _, _ => rfl
  | put :: puts, st, hsorted, hputs, h, hget => by
    obtain ⟨hput, hput_le⟩ := hputs put List.mem_cons_self
    have hstart := hget put List.mem_cons_self
    rw [runPieces, pfifoRunPusher, if_pos h.no_error, Option.bind_assoc]
    conv_rhs => rw [← runPusher_remaining ht hwords hlen hput hput_le (words.length + 1) st h hstart (by omega)]
    refine Option.bind_congr fun s hs => ?_
    obtain ⟨h', hat⟩ := runPusher_atCommand ht hwords hlen hput hput_le (words.length + 1) st h hstart (by omega) hs
    refine runPieces_remaining puts s (List.pairwise_cons.mp hsorted).2
      (fun p hp => hputs p (List.mem_cons_of_mem put hp)) h' fun p hp => ?_
    rw [hat]
    exact (List.pairwise_cons.mp hsorted).1 p hp

/-- the pusher woken at each of a rising sequence of `dma_put` values stays where the reference can take over, and
moves past each value -/
theorem runPieces_atCommand : ∀ (puts : List ℕ) (st : Pusher σ), puts.Pairwise (· ≤ ·) →
    (∀ put ∈ puts, put % 4 = 0 ∧ put ≤ 4 * words.length) → AtCommand words st → (∀ put ∈ puts, st.dmaGet ≤ put) →
    ∀ {s : Pusher σ}, runPieces (tableEnv ramht table handle) (pushbufferOf words) dmaLen (words.length + 1) puts st =
      some s → AtCommand words s ∧ st.dmaGet ≤ s.dmaGet ∧ ∀ put ∈ puts, put ≤ s.dmaGet
  | [], _, _, _, h, _, s, hs => by
    cases hs
    exact ⟨h, le_rfl, fun _ hp => absurd hp List.not_mem_nil⟩
  | put :: puts, st, hsorted, hputs, h, hget, s, hs => by
    obtain ⟨hput, hput_le⟩ := hputs put List.mem_cons_self
    have hstart := hget put List.mem_cons_self
    rw [runPieces, pfifoRunPusher, if_pos h.no_error] at hs
    obtain ⟨s', hs', hrest⟩ := Option.bind_eq_some_iff.mp hs
    obtain ⟨h', hat⟩ := runPusher_atCommand ht hwords hlen hput hput_le (words.length + 1) st h hstart (by omega) hs'
    have hsorted' := List.pairwise_cons.mp hsorted
    obtain ⟨hs, hmono, hpast⟩ := runPieces_atCommand puts s' hsorted'.2
      (fun p hp => hputs p (List.mem_cons_of_mem put hp)) h' (fun p hp => hat ▸ hsorted'.1 p hp) hrest
    refine ⟨hs, by omega, fun p hp => ?_⟩
    rcases List.mem_cons.mp hp with rfl | hp
    · omega
    · exact hpast p hp

/-- from any state where the reference can take over, at the header of a command or inside one, the pusher woken at
a rising sequence of `dma_put` values and at last at the end of the pushbuffer leaves the puller that the reference
leaves for the rest of the pushbuffer -/
theorem runPieces_eq_remaining {puts : List ℕ} (hsorted : puts.Pairwise (· ≤ ·))
    (hputs : ∀ put ∈ puts, put % 4 = 0 ∧ put ≤ 4 * words.length) {st : Pusher σ} (h0 : AtCommand words st)
    (hstart : ∀ put ∈ puts, st.dmaGet ≤ put) :
    (runPieces (tableEnv ramht table handle) (pushbufferOf words) dmaLen (words.length + 1)
        (puts ++ [4 * words.length]) st).map (·.puller) = remaining (tableEnv ramht table handle) words st := by
  have hwithin := h0.within
  have hal := h0.aligned
  -- the last value of `dma_put` is the end of the pushbuffer
  have hsorted' : (puts ++ [4 * words.length]).Pairwise (· ≤ ·) :=
    List.pairwise_append.mpr ⟨hsorted, List.pairwise_singleton _ _,
      fun a ha b hb => by rw [List.mem_singleton.mp hb]; exact (hputs a ha).2⟩
  have hputs' : ∀ put ∈ puts ++ [4 * words.length], put % 4 = 0 ∧ put ≤ 4 * words.length := by
    intro put hp
    rcases List.mem_append.mp hp with hp | hp
    · exact hputs put hp
    · rw [List.mem_singleton.mp hp]
      omega
  have hstart' : ∀ put ∈ puts ++ [4 * words.length], st.dmaGet ≤ put := by
    intro put hp
    rcases List.mem_append.mp hp with hp | hp
    · exact hstart put hp
    · rw [List.mem_singleton.mp hp]
      omega
  -- there the reference has nothing left to deliver
  have hend : ∀ s, runPieces (tableEnv ramht table handle) (pushbufferOf words) dmaLen (words.length + 1)
      (puts ++ [4 * words.length]) st = some s → remaining (tableEnv ramht table handle) words s = some s.puller := by
    intro s hs
    obtain ⟨hs', -, hpast⟩ := runPieces_atCommand ht hwords hlen _ st hsorted' hputs' h0 hstart' hs
    have hlast := hpast (4 * words.length) (List.mem_append_right _ (List.mem_singleton_self _))
    have hwithin' := hs'.within
    have hal' := hs'.aligned
    have hcount' : s.methodCount = 0 := by omega
    have hget' : s.dmaGet / 4 = words.length := by omega
    simp [remaining, pendingDeliveries, hcount', hget', decodeWords_nil, dataDeliveries, wordByWord]
  calc (runPieces (tableEnv ramht table handle) (pushbufferOf words) dmaLen (words.length + 1)
          (puts ++ [4 * words.length]) st).map (·.puller)
      _ = (runPieces (tableEnv ramht table handle) (pushbufferOf words) dmaLen (words.length + 1)
          (puts ++ [4 * words.length]) st).bind (remaining (tableEnv ramht table handle) words) := by
        rw [Option.map_eq_bind]
        exact Option.bind_congr fun s hs => (hend s hs).symm
      _ = remaining (tableEnv ramht table handle) words st :=
        runPieces_remaining ht hwords hlen _ st hsorted' hputs' h0 hstart'

end Run

/-! ## Batched delivery -/

/-- the pusher, woken at any rising sequence of `dma_put` values and at last at the end of a pushbuffer of method
commands, leaves the puller that the reference leaves, which delivers every data word on its own -/
theorem runPieces_eq_wordByWord (ramht : ℕ → Option RamhtEntry) {table : ℕ → Option MethodEntry}
    (handle : MethodEntry → ℕ → ℕ → ℕ → σ → Option σ) (ht : BatchTable table) {words : List ℕ}
    {ds : List Delivery} (hdecode : decodeWords words = some ds) (hwords : 4 * words.length < 2 ^ 32)
    {dmaLen : ℕ} (hlen : 4 * words.length ≤ dmaLen) {puts : List ℕ} (hsorted : puts.Pairwise (· ≤ ·))
    (hputs : ∀ put ∈ puts, put % 4 = 0 ∧ put ≤ 4 * words.length) (st : Pusher σ) (hget : st.dmaGet = 0)
    (hcount : st.methodCount = 0) (herror : st.error = .none) :
    (runPieces (tableEnv ramht table handle) (pushbufferOf words) dmaLen (words.length + 1)
        (puts ++ [4 * words.length]) st).map (·.puller) =
      wordByWord (tableEnv ramht table handle) st.puller ds := by
  have h0 : AtCommand words st :=
    ⟨by omega, by omega, by simp [hget, hcount, hdecode], fun h => absurd hcount h, herror⟩
  have hrem0 : remaining (tableEnv ramht table handle) words st =
      wordByWord (tableEnv ramht table handle) st.puller ds := by
    simp [remaining, pendingDeliveries, hget, hcount, hdecode, dataDeliveries]
  rw [runPieces_eq_remaining ht hwords hlen hsorted hputs h0 fun _ _ => by omega, hrem0]

/-- a handler that logs its calls -/
def logCall (_ : MethodEntry) (_ method parameter : ℕ) (log : List (ℕ × ℕ)) : Option (List (ℕ × ℕ)) :=
  some (log ++ [(method, parameter)])

/-- the Kelvin table, with `dma_put` stopping after the first data word, then moving to the end -/
theorem runPieces_eq_wordByWord_split :
    (runPieces (tableEnv (fun _ => none) kelvinMethodEntry logCall) (pushbufferOf (encodeCommands kelvinCommands))
        (4 * (encodeCommands kelvinCommands).length) ((encodeCommands kelvinCommands).length + 1)
        ([8] ++ [4 * (encodeCommands kelvinCommands).length]) ⟨0, .inc, 0, 0, 0, 0, 0, .none, ⟨fun _ => true, []⟩⟩).map
        (·.puller) =
      wordByWord (tableEnv (fun _ => none) kelvinMethodEntry logCall) ⟨fun _ => true, []⟩
        (commandDeliveries kelvinCommands) :=
  runPieces_eq_wordByWord (fun _ => none) logCall kelvinMethodEntry_batchTable (by decide) (by decide) le_rfl
    (by decide) (by decide) _ rfl rfl rfl

/-- the fourth word of SET_VERTEX3F is skipped -/
example : (wordByWord (tableEnv (fun _ => none) kelvinMethodEntry logCall) ⟨fun _ => true, []⟩
    (commandDeliveries kelvinCommands)).map (·.pgraph) =
      some [(0x1500, 1), (0x1504, 2), (0x1508, 3), (0x1800, 5), (0x1800, 6)] := by
  decide

/-! ## Object methods -/

/-- the RAMHT entry of the object handle `5`: instance `0x1234`, of the graphics engine -/
def objectRamht (handle : ℕ) : Option RamhtEntry := if handle = 5 then some ⟨0x1234, true⟩ else none

/-- a plain handler at the object method `0x180` -/
def objectTable (method : ℕ) : Option MethodEntry := if method = 0x180 then some ⟨0x180, 0x184, .plain⟩ else none

/-- the handler of an object method receives the object's instance, not the data word: pfifo_run_puller translates the
handle `5` through RAMHT -/
theorem object_method_parameter_translated :
    runWords (tableEnv objectRamht objectTable logCall) (encodeCommands [⟨.inc, 0x180, 0, [5]⟩]) 4 [] =
        some [(0x180, 0x1234)] ∧
      (commandDeliveries [⟨.inc, 0x180, 0, [5]⟩]).map (fun d => (d.method, d.word)) = [(0x180, 5)] := by
  decide

end Xemu.Pfifo
