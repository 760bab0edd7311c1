import Mathlib
import Xemu.Core.OnesComplement
/-!
# The network proxy's checksums

`ip_checksum` and `tcp_udp_checksum` (hw/xbox/mcpx/nvnet/nvnet.c) add the buffer's 16-bit big-endian words, an
odd last byte as a high byte, into a `uint32_t`, fold the carries and return the complement as a `uint16_t`.
`tcp_udp_checksum` first adds the pseudo header: the two addresses in host order as 16-bit halves, the protocol
and the length.

* `ipChecksum_eq`, `tcpUdpChecksum_eq`: while the `uint32_t` sum cannot wrap (buffers up to 128 KiB for
  ip_checksum, 64 KiB for tcp_udp_checksum), they compute the RFC 1071 checksum of `OnesComplement`, odd lengths
  included.
* `ipChecksum_long_run`: on 131076 bytes of 0xFF the sum wraps and ip_checksum returns 1, where the RFC 1071
  checksum is 0.

`IpHeaderValid` and `TcpSegmentValid` are the checks a receiver makes on a header and on a segment.
-/

namespace Xemu.Nvnet

open OnesComplement

/-- the byte values of a buffer -/
def byteVals (data : List UInt8) : List ℕ := data.map UInt8.toNat

/-- the loop of ip_checksum and tcp_udp_checksum over the buffer: each 16-bit big-endian word, an odd last byte as
its high byte, added to the `uint32_t` sum -/
def addWords (sum : ℕ) : List UInt8 → ℕ
  | [] => sum
  | [a] => (sum + (a.toNat <<< 8)) % 2 ^ 32
  | a :: b :: t => addWords ((sum + ((a.toNat <<< 8) ||| b.toNat)) % 2 ^ 32) t

/-- `return ~sum;` from a `uint32_t` into a `uint16_t` -/
def complement16 (sum : ℕ) : ℕ := (2 ^ 32 - 1 - sum) % 2 ^ 16

/-- ip_checksum -/
def ipChecksum (data : List UInt8) : ℕ := complement16 (fold (addWords 0 data))

/-- the pseudo header of tcp_udp_checksum, added into the `uint32_t` sum -/
def pseudoHeaderSum (srcIp dstIp proto len : ℕ) : ℕ :=
  let sum := (srcIp >>> 16) &&& 0xFFFF
  let sum := (sum + (srcIp &&& 0xFFFF)) % 2 ^ 32
  let sum := (sum + ((dstIp >>> 16) &&& 0xFFFF)) % 2 ^ 32
  let sum := (sum + (dstIp &&& 0xFFFF)) % 2 ^ 32
  let sum := (sum + proto) % 2 ^ 32
  (sum + len) % 2 ^ 32

/-- tcp_udp_checksum: `srcIp` and `dstIp` in host order -/
def tcpUdpChecksum (srcIp dstIp proto : ℕ) (data : List UInt8) : ℕ :=
  complement16 (fold (addWords (pseudoHeaderSum srcIp dstIp proto data.length) data))

/-- the RFC 1071 pseudo header sum -/
def pseudoSum (srcIp dstIp proto len : ℕ) : ℕ :=
  srcIp / 2 ^ 16 % 2 ^ 16 + srcIp % 2 ^ 16 + dstIp / 2 ^ 16 % 2 ^ 16 + dstIp % 2 ^ 16 + proto + len

/-- the receiver's check of an IPv4 header -/
def IpHeaderValid (hdr : List UInt8) : Prop := fold (words (byteVals hdr)).sum = 0xFFFF

/-- the receiver's check of a TCP or UDP segment, addresses in host order -/
def TcpSegmentValid (srcIp dstIp proto : ℕ) (seg : List UInt8) : Prop :=
  fold (pseudoSum srcIp dstIp proto seg.length + (words (byteVals seg)).sum) = 0xFFFF

instance (hdr : List UInt8) : Decidable (IpHeaderValid hdr) := by
  unfold IpHeaderValid
  infer_instance

instance (srcIp dstIp proto : ℕ) (seg : List UInt8) : Decidable (TcpSegmentValid srcIp dstIp proto seg) := by
  unfold TcpSegmentValid
  infer_instance

/-! ## The sum of the words -/

theorem word_eq (a b : UInt8) : (a.toNat <<< 8) ||| b.toNat = a.toNat * 256 + b.toNat := by
  rw [← Nat.shiftLeft_add_eq_or_of_lt (UInt8.toNat_lt b), Nat.shiftLeft_eq]

theorem words_byteVals_cons_cons (a b : UInt8) (t : List UInt8) :
    words (byteVals (a :: b :: t)) = (a.toNat * 256 + b.toNat) :: words (byteVals t) := rfl

/-- every word is below 0x10000, so the words of `n` bytes add up to at most `0xFFFF * ⌈n/2⌉` -/
theorem sum_words_le : ∀ data : List UInt8, (words (byteVals data)).sum ≤ 65535 * ((data.length + 1) / 2)
  | [] => by simp [byteVals]
  | [a] => by
    have ha := UInt8.toNat_lt a
    simp only [byteVals, List.map_cons, List.map_nil, words, List.sum_cons, List.sum_nil, List.length_cons,
      List.length_nil]
    omega
  | a :: b :: t => by
    have ih := sum_words_le t
    have ha := UInt8.toNat_lt a
    have hb := UInt8.toNat_lt b
    rw [words_byteVals_cons_cons, List.sum_cons]
    simp only [List.length_cons]
    omega

/-- while the `uint32_t` cannot wrap, the loop adds the words -/
theorem addWords_eq : ∀ {sum : ℕ} {data : List UInt8}, sum + (words (byteVals data)).sum < 2 ^ 32 →
    addWords sum data = sum + (words (byteVals data)).sum
  | sum, [], _ => by simp [addWords, byteVals]
  | sum, [a], h => by
    simp only [byteVals, List.map_cons, List.map_nil, words, List.sum_cons, List.sum_nil, Nat.add_zero] at h ⊢
    rw [addWords, Nat.shiftLeft_eq, Nat.mod_eq_of_lt h]
  | sum, a :: b :: t, h => by
    rw [words_byteVals_cons_cons, List.sum_cons, ← Nat.add_assoc] at h
    have hword : sum + (a.toNat * 256 + b.toNat) < 2 ^ 32 := Nat.lt_of_le_of_lt (Nat.le_add_right _ _) h
    rw [addWords, word_eq, Nat.mod_eq_of_lt hword, addWords_eq h, words_byteVals_cons_cons, List.sum_cons,
      Nat.add_assoc]

theorem complement16_eq {s : ℕ} (h : s < 2 ^ 16) : complement16 s = complement s := by
  simp only [complement16, complement, Nat.reducePow] at h ⊢
  omega

/-- ip_checksum is the RFC 1071 checksum on buffers up to 128 KiB -/
theorem ipChecksum_eq {data : List UInt8} (h : data.length ≤ 131072) :
    ipChecksum data = complement (fold (words (byteVals data)).sum) := by
  have hle := sum_words_le data
  have hbound : (words (byteVals data)).sum < 2 ^ 32 := by
    have : (data.length + 1) / 2 ≤ 65536 := by omega
    calc (words (byteVals data)).sum ≤ 65535 * ((data.length + 1) / 2) := hle
      _ ≤ 65535 * 65536 := Nat.mul_le_mul_left _ this
      _ < 2 ^ 32 := by norm_num
  rw [ipChecksum, addWords_eq (by omega), Nat.zero_add, complement16_eq (fold_lt _)]

theorem pseudoHeaderSum_eq {srcIp dstIp proto len : ℕ} (hsrc : srcIp < 2 ^ 32) (hdst : dstIp < 2 ^ 32)
    (hproto : proto < 2 ^ 16) (hlen : len < 2 ^ 16) :
    pseudoHeaderSum srcIp dstIp proto len = pseudoSum srcIp dstIp proto len := by
  simp only [pseudoHeaderSum, pseudoSum, shiftRight_16, land_ffff, Nat.reducePow] at hsrc hdst hproto hlen ⊢
  omega

theorem pseudoSum_lt {srcIp dstIp proto len : ℕ} (hproto : proto < 2 ^ 16) (hlen : len < 2 ^ 16) :
    pseudoSum srcIp dstIp proto len < 6 * 2 ^ 16 := by
  unfold pseudoSum
  omega

/-- tcp_udp_checksum is the RFC 1071 checksum over the pseudo header and the data, for data below 64 KiB -/
theorem tcpUdpChecksum_eq {srcIp dstIp proto : ℕ} {data : List UInt8} (hsrc : srcIp < 2 ^ 32)
    (hdst : dstIp < 2 ^ 32) (hproto : proto < 2 ^ 16) (h : data.length < 2 ^ 16) :
    tcpUdpChecksum srcIp dstIp proto data =
      complement (fold (pseudoSum srcIp dstIp proto data.length + (words (byteVals data)).sum)) := by
  have hle := sum_words_le data
  have hps := @pseudoSum_lt srcIp dstIp _ _ hproto h
  have hbound : (words (byteVals data)).sum ≤ 65535 * 32768 := by
    have : (data.length + 1) / 2 ≤ 32768 := by omega
    exact hle.trans (Nat.mul_le_mul_left _ this)
  rw [tcpUdpChecksum, pseudoHeaderSum_eq hsrc hdst hproto h, addWords_eq (by omega),
    complement16_eq (fold_lt _)]

/-- a segment verifies exactly when tcp_udp_checksum over it, its checksum field as it stands, is zero -/
theorem tcpSegmentValid_iff {srcIp dstIp proto : ℕ} {seg : List UInt8} (hsrc : srcIp < 2 ^ 32)
    (hdst : dstIp < 2 ^ 32) (hproto : proto < 2 ^ 16) (h : seg.length < 2 ^ 16) :
    TcpSegmentValid srcIp dstIp proto seg ↔ tcpUdpChecksum srcIp dstIp proto seg = 0 := by
  have hlt := fold_lt (pseudoSum srcIp dstIp proto seg.length + (words (byteVals seg)).sum)
  rw [TcpSegmentValid, tcpUdpChecksum_eq hsrc hdst hproto h, complement]
  omega

/-! ## Where the sum wraps -/

theorem word_ff : ((0xFF : UInt8).toNat <<< 8) ||| (0xFF : UInt8).toNat = 65535 := by
  rw [word_eq]
  rfl

theorem addWords_ff (k : ℕ) : ∀ sum, sum < 2 ^ 32 →
    addWords sum (List.replicate (2 * k) 0xFF) = (sum + k * 65535) % 2 ^ 32 := by
  induction k with
  | zero =>
    intro sum hsum
    simp only [Nat.mul_zero, List.replicate_zero, addWords, Nat.zero_mul, Nat.add_zero]
    exact (Nat.mod_eq_of_lt hsum).symm
  | succ k ih =>
    intro sum hsum
    show addWords sum (0xFF :: 0xFF :: List.replicate (2 * k) 0xFF) = _
    rw [addWords, word_ff, ih _ (Nat.mod_lt _ (Nat.two_pow_pos 32)), Nat.mod_add_mod,
      show sum + 65535 + k * 65535 = sum + (k + 1) * 65535 by ring]

/-- on 131076 bytes of 0xFF the `uint32_t` sum wraps: ip_checksum returns 1, where the RFC 1071 checksum is 0 -/
theorem ipChecksum_long_run :
    ipChecksum (List.replicate 131076 0xFF) = 1 ∧
      complement (fold (words (byteVals (List.replicate 131076 0xFF))).sum) = 0 := by
  have hrun := addWords_ff 65538 0 (by norm_num)
  have hwords : ∀ k, (words (byteVals (List.replicate (2 * k) (0xFF : UInt8)))).sum = k * 65535 := by
    intro k
    induction k with
    | zero => rfl
    | succ k ih =>
      rw [(by ring : 2 * (k + 1) = 2 * k + 1 + 1), List.replicate_succ, List.replicate_succ,
        words_byteVals_cons_cons, List.sum_cons, ih]
      simp only [UInt8.reduceToNat]
      ring
  constructor
  · rw [ipChecksum, (by norm_num : 131076 = 2 * 65538), hrun]
    norm_num [fold_of_lt, complement16]
  · rw [(by norm_num : 131076 = 2 * 65538), hwords, fold_eq_of_mod (by norm_num) (by norm_num)]
    rfl

end Xemu.Nvnet
