import Xemu.Core.BitDeposit
import Xemu.Pfifo.Pusher
/-!
# Method commands

A pushbuffer made of method commands, and what delivering it one word at a time means.

* `MethodCommand`: a header (type, method, subchannel, count) and its data words; `MethodCommand.header` is the header
  word, and `decodeHeader_header` says that pfifo_run_pusher decodes it back into the same fields.
* `Delivery`: one data word with the method, subchannel and type it is delivered under. An increasing command steps
  the method by 4 per word, modulo the 11-bit method field; a non-increasing one keeps it.
* `wordByWord`: the reference of batched delivery: each word through `pfifo_run_puller` on its own, with one word
  available and no look-ahead.
-/

namespace Xemu.Pfifo

open BitDeposit

/-- bits 29 to 31 of a method header -/
def MethodType.headerBits : MethodType → ℕ
  | .inc => 0
  | .nonInc => 2

/-- a method command: the fields of its header and its data words -/
structure MethodCommand where
  type : MethodType
  method : ℕ
  subchannel : ℕ
  data : List ℕ
deriving DecidableEq, Repr

/-- the header word: type in bits 29 to 31, count in bits 18 to 28, subchannel in bits 13 to 15, method in bits 2
to 12 -/
def MethodCommand.header (c : MethodCommand) : ℕ :=
  (c.type.headerBits * 2 ^ 11 + c.data.length) * 2 ^ 18 + (c.subchannel * 2 ^ 13 + c.method)

/-- the fields fit their bits -/
structure MethodCommand.Valid (c : MethodCommand) : Prop where
  method_lt : c.method < 2 ^ 13
  method_aligned : c.method % 4 = 0
  subchannel_lt : c.subchannel < 8
  count_lt : c.data.length < 2 ^ 11

/-- the pushbuffer words of the commands -/
def encodeCommands (cmds : List MethodCommand) : List ℕ := cmds.flatMap fun c => c.header :: c.data

/-! ## Decoding a header -/

section Decode

variable {c : MethodCommand}

theorem land_three_eq_mod (x : ℕ) : x &&& 3 = x % 4 := Nat.and_two_pow_sub_one_eq_mod x 2

theorem headerBits_le (t : MethodType) : t.headerBits ≤ 2 := by cases t <;> decide

/-- the low part of the header: subchannel and method, below bit 16 -/
theorem low_lt (hc : c.Valid) : c.subchannel * 2 ^ 13 + c.method < 2 ^ 16 := by
  have := hc.subchannel_lt; have := hc.method_lt; omega

/-- the type bits, read through a mask whose low part clears every aligned number below bit 16 -/
theorem header_land_type_mask (hc : c.Valid) {mask : ℕ} (hmask : mask < 2 ^ 18)
    (hsub : ∀ x < 2 ^ 16, x % 4 = 0 → x &&& mask = 0) :
    c.header &&& (0x3800 * 2 ^ 18 + mask) = c.type.headerBits * 2 ^ 29 := by
  have hlo := low_lt hc
  have ht := headerBits_le c.type
  have hlow : c.subchannel * 2 ^ 13 + c.method < 2 ^ 18 := by omega
  unfold MethodCommand.header
  rw [land_mul_two_pow_add _ _ hlow hmask, hsub _ hlo (by have := hc.method_aligned; omega),
    show (0x3800 : ℕ) = 7 * 2 ^ 11 + 0 by decide, land_mul_two_pow_add _ _ hc.count_lt (by decide), Nat.and_zero,
    Nat.and_two_pow_sub_one_eq_mod _ 3, Nat.mod_eq_of_lt (by omega : c.type.headerBits < 2 ^ 3)]
  omega

/-- pfifo_run_pusher decodes a header into the command's own fields -/
theorem decodeHeader_header (hc : c.Valid) :
    decodeHeader c.header = .methods c.type c.method c.subchannel c.data.length := by
  have hm := hc.method_lt
  have hal := hc.method_aligned
  have hsc := hc.subchannel_lt
  have hcount := hc.count_lt
  have ht := headerBits_le c.type
  -- the two low bits are the method's, which are clear
  have hlow : c.header &&& 3 = 0 := by
    rw [land_three_eq_mod]; unfold MethodCommand.header; omega
  have hjump : c.header &&& 0xe0000003 = c.type.headerBits * 2 ^ 29 := by
    rw [show (0xe0000003 : ℕ) = 0x3800 * 2 ^ 18 + 3 by decide]
    exact header_land_type_mask hc (by decide) fun x _ hx => by rw [land_three_eq_mod]; exact hx
  have hmethods : c.header &&& 0xe0030003 = c.type.headerBits * 2 ^ 29 := by
    rw [show (0xe0030003 : ℕ) = 0x3800 * 2 ^ 18 + (3 * 2 ^ 16 + 3) by decide]
    refine header_land_type_mask hc (by decide) fun x hx hx4 => ?_
    rw [land_mul_two_pow_add_of_lt _ hx (by decide), land_three_eq_mod, hx4]
  have hret : c.header ≠ 0x00020000 := by unfold MethodCommand.header; omega
  -- the fields
  have hmethod : c.header &&& 0x1ffc = c.method := by
    have hsplit : c.header = ((c.type.headerBits * 2 ^ 11 + c.data.length) * 2 ^ 5 + c.subchannel) * 2 ^ 13 +
        c.method := by unfold MethodCommand.header; omega
    have hword : c.method = c.method / 4 * 2 ^ 2 + 0 := by omega
    rw [hsplit, mul_two_pow_add_land _ hm (by decide), hword,
      show (0x1ffc : ℕ) = 0x7ff * 2 ^ 2 + 0 by decide, land_mul_two_pow_add _ _ (by decide) (by decide),
      Nat.and_zero, Nat.and_two_pow_sub_one_eq_mod _ 11]
    omega
  have hsub : c.header / 8192 &&& 7 = c.subchannel := by
    have hsplit : c.header / 8192 = (c.type.headerBits * 2 ^ 11 + c.data.length) * 4 * 2 ^ 3 + c.subchannel := by
      unfold MethodCommand.header; omega
    rw [hsplit, mul_two_pow_add_land _ hsc (by decide), Nat.and_two_pow_sub_one_eq_mod _ 3, Nat.mod_eq_of_lt hsc]
  have hcnt : c.header / 262144 &&& 0x7ff = c.data.length := by
    have hsplit : c.header / 262144 = c.type.headerBits * 2 ^ 11 + c.data.length := by
      unfold MethodCommand.header; omega
    rw [hsplit, Nat.and_two_pow_sub_one_eq_mod _ 11]
    omega
  unfold decodeHeader
  cases hty : c.type with
  | inc =>
    rw [hty] at hjump hmethods
    simp [hjump, hlow, hret, hmethods, hmethod, hsub, hcnt, MethodType.headerBits]
  | nonInc =>
    rw [hty] at hjump hmethods
    simp [hjump, hlow, hret, hmethods, hmethod, hsub, hcnt, MethodType.headerBits]

end Decode

/-! ## Deliveries -/

/-- one data word as the puller receives it -/
structure Delivery where
  subchannel : ℕ
  method : ℕ
  inc : Bool
  word : ℕ
deriving DecidableEq, Repr

/-- the method after `n` words: an increasing command steps the 11-bit method field by one word per word -/
def stepMethod (type : MethodType) (method n : ℕ) : ℕ :=
  if type = .inc then (method + 4 * n) % 0x2000 else method

/-- the deliveries of the data words of a command from `method` on -/
def dataDeliveries (type : MethodType) (method subchannel : ℕ) : List ℕ → List Delivery
  | [] => []
  | word :: words => ⟨subchannel, method, type = .inc, word⟩ ::
      dataDeliveries type (stepMethod type method 1) subchannel words

/-- the deliveries of the commands, in order -/
def commandDeliveries (cmds : List MethodCommand) : List Delivery :=
  cmds.flatMap fun c => dataDeliveries c.type c.method c.subchannel c.data

variable {σ : Type} (env : PfifoEnv σ)

/-- one word through pfifo_run_puller on its own -/
def deliverWord (p : Puller σ) (d : Delivery) : Option (Puller σ) :=
  (runPuller env p d.method d.subchannel d.word d.inc [d.word] 1 1).map (·.2)

/-- the reference: the words delivered one at a time -/
def wordByWord : Puller σ → List Delivery → Option (Puller σ)
  | p, [] => some p
  | p, d :: ds => (deliverWord env p d).bind fun p => wordByWord p ds

end Xemu.Pfifo
