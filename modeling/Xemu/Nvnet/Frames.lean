import Mathlib
import Xemu.Core.Bounded
import Xemu.Nvnet.Checksum
/-!
# The frames the network proxy injects into the guest

The NV2A proxy of hw/xbox/mcpx/nvnet/nvnet.c answers the guest's traffic with Ethernet frames it builds by hand:
a zeroed buffer (`memset`), the header fields written one by one, the IP checksum and (for TCP) the TCP checksum
computed over what was written and stored, and then a prefix of the buffer handed to `dma_packet_to_guest`. The
builders here do the same through `Bounded`, so that a write or a read past a buffer's end is `none`.

Addresses are the four bytes of a `uint32_t` held in network order, as the proxy keeps them; ports, sequence
numbers and lengths are the host values, and `be16`/`be32` are the bytes the code stores for them.

* `WellFormedIp`: what the guest's IPv4 stack checks of a frame: the total length field, the header checksum and,
  for TCP, the segment checksum over the pseudo header.
* `storeIpChecksum_spec`, `storeTcpChecksum_spec`: computing a checksum over a range whose checksum field is still
  zero and storing it there makes the range verify, and leaves the rest of the buffer alone.
* `wellFormedIp_window`: the frame cut from a buffer whose fields are right is well formed.
-/

namespace Xemu.Nvnet

open Bounded OnesComplement

/-- a MAC address -/
abbrev Mac := List.Vector UInt8 6

/-- an IPv4 address: the four bytes of a `uint32_t` in network order -/
abbrev Ip4 := List.Vector UInt8 4

/-- the proxy's globals: `nvnet_dhcp_*`, `nvnet_proxy_enabled` and the two MAC addresses -/
structure ProxyGlobals where
  dhcpClientIp : Ip4
  dhcpGateway : Ip4
  dhcpDns : Ip4
  dhcpServerIp : Ip4
  proxyEnabled : Bool
  xboxMac : Mac
  hostMac : Mac

/-- `tcp_conn_t`, without the socket -/
structure TcpConn where
  active : Bool
  xboxIp : Ip4
  xboxPort : ℕ
  remoteIp : Ip4
  remotePort : ℕ
  seqOut : ℕ
  ackOut : ℕ
  seqIn : ℕ
  state : ℕ

/-- `udp_conn_t`, without the socket -/
structure UdpConn where
  active : Bool
  xboxIp : Ip4
  xboxPort : ℕ
  remoteIp : Ip4
  remotePort : ℕ
  lastUsed : ℤ

/-- `inbound_conn_t` -/
structure InboundConn where
  active : Bool
  listenFd : ℤ
  clientFd : ℤ
  clientIp : Ip4
  clientPort : ℕ
  xboxPort : ℕ
  state : ℕ
  seqToXbox : ℕ
  seqToClient : ℕ

/-! ## Bytes -/

/-- `p[0] = x >> 8; p[1] = x & 0xFF;` -/
def be16 (x : ℕ) : List UInt8 := [UInt8.ofNat (x >>> 8), UInt8.ofNat (x &&& 0xFF)]

/-- `x = htonl(x); memcpy(p, &x, 4);` -/
def be32 (x : ℕ) : List UInt8 :=
  [UInt8.ofNat (x >>> 24), UInt8.ofNat (x >>> 16), UInt8.ofNat (x >>> 8), UInt8.ofNat x]

/-- `ntohl` of bytes read from a frame, most significant first -/
def ntohl (bytes : List UInt8) : ℕ := bytes.foldl (fun acc b => acc * 256 + b.toNat) 0

/-- `memset(pkt, 0, sizeof(pkt))` -/
def zeroed (n : ℕ) : List UInt8 := List.replicate n 0

@[simp]
theorem length_be16 (x : ℕ) : (be16 x).length = 2 := rfl

@[simp]
theorem length_be32 (x : ℕ) : (be32 x).length = 4 := rfl

@[simp]
theorem length_zeroed (n : ℕ) : (zeroed n).length = n := List.length_replicate

theorem ntohl_go_lt (acc : ℕ) (bytes : List UInt8) :
    bytes.foldl (fun acc b => acc * 256 + b.toNat) acc < (acc + 1) * 256 ^ bytes.length := by
  induction bytes generalizing acc with
  | nil => simp
  | cons b bytes ih =>
    have hb := UInt8.toNat_lt b
    have hstep := ih (acc * 256 + b.toNat)
    rw [List.foldl_cons, List.length_cons, Nat.pow_succ]
    calc _ < (acc * 256 + b.toNat + 1) * 256 ^ bytes.length := hstep
      _ ≤ (acc + 1) * 256 * 256 ^ bytes.length := Nat.mul_le_mul_right _ (by omega)
      _ = (acc + 1) * (256 ^ bytes.length * 256) := by ring

theorem ntohl_lt (bytes : List UInt8) : ntohl bytes < 256 ^ bytes.length := by
  have h := ntohl_go_lt 0 bytes
  rw [Nat.zero_add, Nat.one_mul] at h
  exact h

theorem ntohl_ip4_lt (ip : Ip4) : ntohl ip.toList < 2 ^ 32 := by
  have h := ntohl_lt ip.toList
  rwa [List.Vector.toList_length] at h

/-- the two bytes of `be16 c` make the word `c` -/
theorem word_be16 {c : ℕ} (hc : c < 65536) :
    (UInt8.ofNat (c >>> 8)).toNat * 256 + (UInt8.ofNat (c &&& 0xFF)).toNat = c := by
  rw [UInt8.toNat_ofNat', UInt8.toNat_ofNat', Nat.shiftRight_eq_div_pow,
    show (0xFF : ℕ) = 2 ^ 8 - 1 from rfl, Nat.and_two_pow_sub_one_eq_mod]
  omega

theorem ntohl_be16 {c : ℕ} (hc : c < 65536) : ntohl (be16 c) = c := by
  simp only [ntohl, be16, List.foldl_cons, List.foldl_nil, Nat.zero_mul, Nat.zero_add]
  exact word_be16 hc

theorem window_zeroed {n off k : ℕ} (h : off + k ≤ n) : window (zeroed n) off k = List.replicate k 0 := by
  rw [window, zeroed, List.drop_replicate, List.take_replicate, Nat.min_eq_left (by omega)]

/-! ## What the guest checks -/

/-- what the guest's IPv4 stack checks of a frame carrying IPv4 with a 20-byte header: the total length is the
frame's, the header checksum verifies and, for TCP, the segment's checksum verifies over the pseudo header -/
def WellFormedIp (frame : List UInt8) : Prop :=
  34 ≤ frame.length ∧ window frame 12 2 = [0x08, 0x00] ∧ window frame 14 1 = [0x45] ∧
    ntohl (window frame 16 2) + 14 = frame.length ∧ IpHeaderValid (window frame 14 20) ∧
    (window frame 23 1 = [6] →
      TcpSegmentValid (ntohl (window frame 26 4)) (ntohl (window frame 30 4)) 6 (frame.drop 34))

instance (frame : List UInt8) : Decidable (WellFormedIp frame) := by
  unfold WellFormedIp
  infer_instance

/-- a window of the frame cut from a buffer is the buffer's -/
theorem window_cut (pkt : List UInt8) {len off n : ℕ} (h : off + n ≤ len) :
    window (window pkt 0 len) off n = window pkt off n := by
  rw [window_window pkt h, Nat.zero_add]

/-- the segment of the frame cut from a buffer is the buffer's, up to the IP total length -/
theorem drop_window_cut (pkt : List UInt8) {total : ℕ} (h20 : 20 ≤ total) (hlen : 14 + total ≤ pkt.length) :
    (window pkt 0 (14 + total)).drop 34 = window pkt 34 (total - 20) := by
  have hflen : (window pkt 0 (14 + total)).length = 14 + total := length_window (by omega)
  rw [← List.take_length (l := (window pkt 0 (14 + total)).drop 34), List.length_drop, hflen, ← window,
    window_cut pkt (by omega)]
  congr 1
  omega

/-- the frame `dma_packet_to_guest(s, pkt, 14 + total)` hands over is well formed when the buffer's fields are -/
theorem wellFormedIp_window {pkt : List UInt8} {total : ℕ} (h20 : 20 ≤ total) (hlen : 14 + total ≤ pkt.length)
    (heth : window pkt 12 2 = [0x08, 0x00]) (hver : window pkt 14 1 = [0x45])
    (htotal : ntohl (window pkt 16 2) = total) (hip : IpHeaderValid (window pkt 14 20))
    (htcp : window pkt 23 1 = [6] →
      TcpSegmentValid (ntohl (window pkt 26 4)) (ntohl (window pkt 30 4)) 6 (window pkt 34 (total - 20))) :
    WellFormedIp (window pkt 0 (14 + total)) := by
  have hflen : (window pkt 0 (14 + total)).length = 14 + total := length_window (by omega)
  refine ⟨by omega, by rw [window_cut pkt (by omega), heth], by rw [window_cut pkt (by omega), hver], ?_,
    by rwa [window_cut pkt (by omega)], ?_⟩
  · rw [window_cut pkt (by omega), htotal, hflen]
    omega
  · intro hproto
    rw [window_cut pkt (by omega), window_cut pkt (by omega), drop_window_cut pkt h20 hlen]
    exact htcp (by rwa [window_cut pkt (by omega)] at hproto)

/-- a well-formed TCP frame cut from a buffer has a segment that verifies -/
theorem tcpSegmentValid_of_wellFormedIp {pkt : List UInt8} {total : ℕ} (h20 : 20 ≤ total)
    (hlen : 14 + total ≤ pkt.length) (hproto : window pkt 23 1 = [6]) (h : WellFormedIp (window pkt 0 (14 + total))) :
    TcpSegmentValid (ntohl (window pkt 26 4)) (ntohl (window pkt 30 4)) 6 (window pkt 34 (total - 20)) := by
  obtain ⟨-, -, -, -, -, htcp⟩ := h
  rw [window_cut pkt (show 23 + 1 ≤ 14 + total by omega), window_cut pkt (show 26 + 4 ≤ 14 + total by omega),
    window_cut pkt (show 30 + 4 ≤ 14 + total by omega), drop_window_cut pkt h20 hlen] at htcp
  exact htcp hproto

/-! ## Checksums stored into a frame -/

theorem byteVals_append (l₁ l₂ : List UInt8) : byteVals (l₁ ++ l₂) = byteVals l₁ ++ byteVals l₂ :=
  List.map_append

/-- storing `be16 c` over a zero word at an even offset adds `c` to the sum of the words -/
theorem sum_words_be16 {l₁ : List UInt8} (h : l₁.length % 2 = 0) (l₂ : List UInt8) {c : ℕ} (hc : c < 65536) :
    (words (byteVals (l₁ ++ be16 c ++ l₂))).sum = (words (byteVals (l₁ ++ [0, 0] ++ l₂))).sum + c := by
  have hl : (byteVals l₁).length % 2 = 0 := by
    rw [byteVals, List.length_map]
    exact h
  rw [byteVals_append, byteVals_append, byteVals_append, byteVals_append]
  rw [show byteVals (be16 c) = [(UInt8.ofNat (c >>> 8)).toNat, (UInt8.ofNat (c &&& 0xFF)).toNat] from rfl,
    sum_words_pair_at hl, word_be16 hc]
  rfl

/-- the receiver's check passes on a range whose zero checksum field was replaced by the complement of its folded
sum, the pseudo header's sum `base` included -/
theorem fold_store_complement (base : ℕ) {l₁ : List UInt8} (h : l₁.length % 2 = 0) (l₂ : List UInt8) :
    fold (base + (words (byteVals (l₁ ++ be16 (complement (fold (base + (words (byteVals
      (l₁ ++ [0, 0] ++ l₂))).sum))) ++ l₂))).sum) = 0xFFFF := by
  have hc : complement (fold (base + (words (byteVals (l₁ ++ [0, 0] ++ l₂))).sum)) < 65536 := by
    rw [complement]
    omega
  rw [sum_words_be16 h l₂ hc, ← Nat.add_assoc]
  exact fold_add_complement _

/-- `ip_ck = ip_checksum(ip, 20); ip[10] = ip_ck >> 8; ip[11] = ip_ck & 0xFF;` -/
def storeIpChecksum (pkt : List UInt8) : Option (List UInt8) := do
  let hdr ← load pkt 14 20
  store pkt 24 (be16 (ipChecksum hdr))

/-- `tcp_ck = tcp_udp_checksum(src_ip, dst_ip, 6, tcp, len); tcp[16] = tcp_ck >> 8; tcp[17] = tcp_ck & 0xFF;` -/
def storeTcpChecksum (srcIp dstIp len : ℕ) (pkt : List UInt8) : Option (List UInt8) := do
  let seg ← load pkt 34 len
  store pkt 50 (be16 (tcpUdpChecksum srcIp dstIp 6 seg))

/-- a range with a 2-byte field at `k` is the bytes before it, the field and the bytes after it -/
theorem window_around (arr : List UInt8) (off : ℕ) {n k : ℕ} (hk : k + 2 ≤ n) :
    window arr off n = window arr off k ++ window arr (off + k) 2 ++ window arr (off + k + 2) (n - k - 2) := by
  rw [Nat.add_assoc off k 2, ← window_add, ← window_add]
  congr 1
  omega

/-- storing a checksum into the field `[pos, pos + 2)` of a buffer leaves every range apart from it alone -/
theorem window_store_apart {pkt pkt' : List UInt8} {pos c : ℕ} (h : store pkt pos (be16 c) = some pkt')
    {off n : ℕ} (hoff : off + n ≤ pos ∨ pos + 2 ≤ off) : window pkt' off n = window pkt off n := by
  rcases hoff with hle | hge
  · exact window_store_of_le h hle
  · exact window_store_of_ge h hge

/-- storing a checksum computed as `complement (fold (base + sum))` over a range with a zero field at an even
offset `k` makes the range verify -/
theorem window_store_checksum {pkt pkt' : List UInt8} (off n k base : ℕ) (hk : k + 2 ≤ n) (heven : k % 2 = 0)
    (hfit : off + n ≤ pkt.length) (hzero : window pkt (off + k) 2 = [0, 0])
    (h : store pkt (off + k) (be16 (complement (fold (base + (words (byteVals (window pkt off n))).sum)))) =
      some pkt') :
    fold (base + (words (byteVals (window pkt' off n))).sum) = 0xFFFF := by
  have hlen : (window pkt off k).length % 2 = 0 := by
    rw [length_window (by omega)]
    exact heven
  have hself := window_store_self h
  rw [length_be16] at hself
  rw [window_around pkt' off hk, window_store_of_le h (Nat.le_refl _), hself,
    window_store_of_ge h (by simp), window_around pkt off hk, hzero]
  exact fold_store_complement base hlen _

/-- the IP checksum, stored over a header whose checksum field is zero, makes the header verify -/
theorem storeIpChecksum_spec {pkt : List UInt8} (hlen : 34 ≤ pkt.length) (hzero : window pkt 24 2 = [0, 0]) :
    ∃ pkt', storeIpChecksum pkt = some pkt' ∧ pkt'.length = pkt.length ∧ IpHeaderValid (window pkt' 14 20) ∧
      ∀ {off n}, off + n ≤ 24 ∨ 26 ≤ off → window pkt' off n = window pkt off n := by
  have hhdr : (window pkt 14 20).length = 20 := length_window (by omega)
  obtain ⟨pkt', hst⟩ : ∃ pkt', store pkt 24 (be16 (ipChecksum (window pkt 14 20))) = some pkt' := by
    refine ⟨_, store_eq_some ?_⟩
    rw [length_be16]
    omega
  refine ⟨pkt', by rw [storeIpChecksum, load_eq_some (by omega)]; exact hst, length_store hst, ?_,
    fun hoff => window_store_apart hst hoff⟩
  rw [ipChecksum_eq (by omega)] at hst
  have hvalid := window_store_checksum 14 20 10 0 (by omega) (by omega) (by omega) hzero (by simpa using hst)
  rw [IpHeaderValid]
  simpa using hvalid

/-- the TCP checksum, stored over a segment whose checksum field is zero, makes the segment verify over the
pseudo header -/
theorem storeTcpChecksum_spec {srcIp dstIp len : ℕ} {pkt : List UInt8} (hsrc : srcIp < 2 ^ 32)
    (hdst : dstIp < 2 ^ 32) (hlen : 18 ≤ len) (hlen' : len < 2 ^ 16) (hfit : 34 + len ≤ pkt.length)
    (hzero : window pkt 50 2 = [0, 0]) :
    ∃ pkt', storeTcpChecksum srcIp dstIp len pkt = some pkt' ∧ pkt'.length = pkt.length ∧
      TcpSegmentValid srcIp dstIp 6 (window pkt' 34 len) ∧
      ∀ {off n}, off + n ≤ 50 ∨ 52 ≤ off → window pkt' off n = window pkt off n := by
  have hseg : (window pkt 34 len).length = len := length_window hfit
  obtain ⟨pkt', hst⟩ : ∃ pkt', store pkt 50 (be16 (tcpUdpChecksum srcIp dstIp 6 (window pkt 34 len))) = some pkt' := by
    refine ⟨_, store_eq_some ?_⟩
    rw [length_be16]
    omega
  refine ⟨pkt', by rw [storeTcpChecksum, load_eq_some hfit]; exact hst, length_store hst, ?_,
    fun hoff => window_store_apart hst hoff⟩
  rw [tcpUdpChecksum_eq hsrc hdst (by decide) (by omega), hseg] at hst
  have hvalid := window_store_checksum 34 len 16 (pseudoSum srcIp dstIp 6 len) (by omega) (by omega) hfit hzero
    (by simpa using hst)
  have hseg' : (window pkt' 34 len).length = len := by
    rw [length_window (by rw [length_store hst]; exact hfit)]
  rw [TcpSegmentValid, hseg']
  exact hvalid

end Xemu.Nvnet
