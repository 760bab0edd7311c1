import Xemu.Pfifo.Commands
import Xemu.Pgraph.Batching
/-!
# The look-ahead squash against the command decoder

After a `DRAW_ARRAYS`, `pgraph_method` looks at the next six pushbuffer words and, when they look like
`SET_BEGIN_END(END)`, `SET_BEGIN_END(mode)` and a `DRAW_ARRAYS` header, skips four of them. It tells a header by
`word & 0x31fff` alone: `header_land_lookahead_mask` shows that this reads only the method field, so the header of a
`SET_BEGIN_END` command with any count, subchannel or type passes. A `SET_BEGIN_END` command with two data words
makes the squash skip a data word of the pusher's own command (`squash_skips_data_word`).
-/

namespace Xemu.Pfifo

open Xemu.Pgraph BitDeposit

/-- the look-ahead's test reads only the method field of a header -/
theorem header_land_lookahead_mask {c : MethodCommand} (hc : c.Valid) : c.header &&& 0x31fff = c.method := by
  have hlo := low_lt hc
  have hm := hc.method_lt
  unfold MethodCommand.header
  rw [mul_two_pow_add_land _ (by omega : c.subchannel * 2 ^ 13 + c.method < 2 ^ 18) (by decide),
    show (0x31fff : ℕ) = 3 * 2 ^ 16 + (2 ^ 13 - 1) by decide, land_mul_two_pow_add_of_lt _ hlo (by decide),
    Nat.and_two_pow_sub_one_eq_mod]
  omega

/-- `BEGIN(QUADS)`, a `DRAW_ARRAYS`, then one `SET_BEGIN_END` command of two words (`END`, then a word for
`ARRAY_ELEMENT16`), an empty command for method `8`, another `DRAW_ARRAYS` and `END` -/
def countTwoEndCommands : List MethodCommand :=
  [⟨.inc, nv097SetBeginEnd, 0, [8]⟩, ⟨.inc, nv097DrawArrays, 0, [0x02000000]⟩,
    ⟨.inc, nv097SetBeginEnd, 0, [nv097SetBeginEndOpEnd, 0x000417FC]⟩, ⟨.inc, 8, 0, []⟩,
    ⟨.inc, nv097DrawArrays, 0, [0x0200000A]⟩, ⟨.inc, nv097SetBeginEnd, 0, [nv097SetBeginEndOpEnd]⟩]

/-- the words after the first `DRAW_ARRAYS` pass the look-ahead, so the pusher skips the `END` and the
`ARRAY_ELEMENT16` word of the two-word command and draws both ranges at once; delivered one word at a time, the same
commands draw only the first range -/
theorem squash_skips_data_word :
    commandDeliveries countTwoEndCommands =
      [⟨0, nv097SetBeginEnd, true, 8⟩, ⟨0, nv097DrawArrays, true, 0x02000000⟩,
        ⟨0, nv097SetBeginEnd, true, nv097SetBeginEndOpEnd⟩, ⟨0, nv097ArrayElement16, true, 0x000417FC⟩,
        ⟨0, nv097DrawArrays, true, 0x0200000A⟩, ⟨0, nv097SetBeginEnd, true, nv097SetBeginEndOpEnd⟩] ∧
    (runWords (kelvinEnv (α := Unit) ⟨fun _ => (), fun _ => (), fun _ => (), fun _ => (), (), ()⟩ fun _ => none)
        (encodeCommands countTwoEndCommands) 20 (initDrawState fun _ => ⟨fun _ => (), false, fun _ _ => ()⟩)).map
      (fun s => s.drawn.map Draw.indices) = some [[0, 1, 2, 10, 11, 12]] ∧
    (wordByWord (kelvinEnv (α := Unit) ⟨fun _ => (), fun _ => (), fun _ => (), fun _ => (), (), ()⟩ fun _ => none)
        ⟨fun _ => true, initDrawState fun _ => ⟨fun _ => (), false, fun _ _ => ()⟩⟩
        (commandDeliveries countTwoEndCommands)).map (fun s => s.pgraph.drawn.map Draw.indices) = some [[0, 1, 2]] := by
  decide

end Xemu.Pfifo
