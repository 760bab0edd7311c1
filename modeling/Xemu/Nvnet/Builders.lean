import Xemu.Nvnet.Frames
/-!
# The proxy's frame builders

Each function that builds a frame for the guest in hw/xbox/mcpx/nvnet/nvnet.c, with the writes in the order of the
source: send_tcp_to_xbox, inject_tcp_syn_to_xbox, the data frames of poll_inbound_connections, the handshake ACK
of handle_inbound_tcp_response, the UDP frames of proxy_poll_rx and the DHCP reply of handle_dhcp_packet.
`ipId` stands for the two `rand()` bytes of the IP identification and `isn` for the `rand()` initial sequence
number.

* `IpFields`: the header fields a builder writes, kept by the checksum stores (`IpFields.storeIpChecksum`,
  `IpFields.storeTcpChecksum`) and enough, with the checksums, for `WellFormedIp` (`IpFields.wellFormed`).
* `sendTcpToXbox_spec`, `injectTcpSynToXbox_spec`, `inboundDataFrame_spec`, `dhcpReply_spec`: these frames are
  well formed for every payload that fits.
* `udpFrameToXbox_eq_none_iff`: the UDP frame of proxy_poll_rx writes past its 1514-byte buffer exactly when the
  datagram has more than 1472 bytes; `udpFrameToXbox_spec`: otherwise it is well formed.
* `inboundAckFrame_spec`: the handshake ACK has a valid IP header but a zero TCP checksum field, so the guest
  accepts it only when its checksum happens to be zero.
-/

namespace Xemu.Nvnet

open Bounded OnesComplement

/-! ## The header fields -/

/-- the Ethernet and IPv4 header fields of a frame buffer, its checksum apart -/
structure IpFields (pkt : List UInt8) (total : ℕ) (proto : UInt8) (src dst : List UInt8) : Prop where
  eth : window pkt 12 2 = [0x08, 0x00]
  ver : window pkt 14 1 = [0x45]
  len : window pkt 16 2 = be16 total
  proto : window pkt 23 1 = [proto]
  src : window pkt 26 4 = src
  dst : window pkt 30 4 = dst

/-- writes that include the Ethernet type and the IP header fields -/
structure WritesIpFields (ws : List (ℕ × List UInt8)) (total : ℕ) (proto : UInt8) (src dst : List UInt8) : Prop where
  eth : (12, [0x08, 0x00]) ∈ ws
  ver : (14, [0x45]) ∈ ws
  len : (16, be16 total) ∈ ws
  proto : (23, [proto]) ∈ ws
  src : (26, src) ∈ ws
  dst : (30, dst) ∈ ws

/-- the fields as non-overlapping writes leave them -/
theorem IpFields.of_storeAll {arr pkt : List UInt8} {ws : List (ℕ × List UInt8)} {total : ℕ} {proto : UInt8}
    {src dst : List UInt8} (hp : ws.Pairwise Apart) (h : storeAll arr ws = some pkt) (hsrc : src.length = 4)
    (hdst : dst.length = 4) (hw : WritesIpFields ws total proto src dst) : IpFields pkt total proto src dst where
  eth := window_storeAll_of_mem hp hw.eth h
  ver := window_storeAll_of_mem hp hw.ver h
  len := window_storeAll_of_mem hp hw.len h
  proto := window_storeAll_of_mem hp hw.proto h
  src := by simpa [hsrc] using window_storeAll_of_mem hp hw.src h
  dst := by simpa [hdst] using window_storeAll_of_mem hp hw.dst h

/-- stores that leave the header's first 34 bytes alone, the checksum field apart, keep the fields -/
theorem IpFields.of_window {pkt pkt' : List UInt8} {total : ℕ} {proto : UInt8} {src dst : List UInt8}
    (h : IpFields pkt total proto src dst)
    (hw : ∀ {off n}, off + n ≤ 34 → off + n ≤ 24 ∨ 26 ≤ off → window pkt' off n = window pkt off n) :
    IpFields pkt' total proto src dst where
  eth := by rw [hw (by omega) (by omega), h.eth]
  ver := by rw [hw (by omega) (by omega), h.ver]
  len := by rw [hw (by omega) (by omega), h.len]
  proto := by rw [hw (by omega) (by omega), h.proto]
  src := by rw [hw (by omega) (by omega), h.src]
  dst := by rw [hw (by omega) (by omega), h.dst]

/-- `storeIpChecksum` over written fields and a zero checksum field -/
theorem IpFields.storeIpChecksum {pkt : List UInt8} {total : ℕ} {proto : UInt8} {src dst : List UInt8}
    (h : IpFields pkt total proto src dst) (hlen : 34 ≤ pkt.length) (hzero : window pkt 24 2 = [0, 0]) :
    ∃ pkt', storeIpChecksum pkt = some pkt' ∧ pkt'.length = pkt.length ∧ IpFields pkt' total proto src dst ∧
      IpHeaderValid (window pkt' 14 20) ∧ ∀ {off n}, 26 ≤ off → window pkt' off n = window pkt off n := by
  obtain ⟨pkt', hst, hlen', hvalid, hrest⟩ := storeIpChecksum_spec hlen hzero
  exact ⟨pkt', hst, hlen', h.of_window fun _ hoff => hrest hoff, hvalid, fun hoff => hrest (Or.inr hoff)⟩

/-- `storeTcpChecksum` over a segment with a zero checksum field, the pseudo header taken from the fields -/
theorem IpFields.storeTcpChecksum {pkt : List UInt8} {total : ℕ} {src dst : List UInt8}
    (h : IpFields pkt total 6 src dst) (hsrc : src.length = 4) (hdst : dst.length = 4) (h38 : 38 ≤ total)
    (h16 : total < 2 ^ 16) (hlen : 14 + total ≤ pkt.length) (hzero : window pkt 50 2 = [0, 0]) :
    ∃ pkt', storeTcpChecksum (ntohl src) (ntohl dst) (total - 20) pkt = some pkt' ∧ pkt'.length = pkt.length ∧
      IpFields pkt' total 6 src dst ∧ window pkt' 14 20 = window pkt 14 20 ∧
      TcpSegmentValid (ntohl src) (ntohl dst) 6 (window pkt' 34 (total - 20)) ∧
      ∀ {off n}, off + n ≤ 50 ∨ 52 ≤ off → window pkt' off n = window pkt off n := by
  have hs : ntohl src < 2 ^ 32 := by simpa [hsrc] using ntohl_lt src
  have hd : ntohl dst < 2 ^ 32 := by simpa [hdst] using ntohl_lt dst
  obtain ⟨pkt', hst, hlen', hvalid, hrest⟩ :=
    @storeTcpChecksum_spec (ntohl src) (ntohl dst) (total - 20) pkt hs hd (by omega) (by omega) (by omega) hzero
  exact ⟨pkt', hst, hlen', h.of_window fun hle _ => hrest (Or.inl (by omega)), hrest (Or.inl (by omega)), hvalid,
    hrest⟩

/-- the frame cut from a buffer with the fields written and the checksums stored is well formed -/
theorem IpFields.wellFormed {pkt : List UInt8} {total : ℕ} {proto : UInt8} {src dst : List UInt8}
    (h : IpFields pkt total proto src dst) (h20 : 20 ≤ total) (h16 : total < 2 ^ 16) (hlen : 14 + total ≤ pkt.length)
    (hip : IpHeaderValid (window pkt 14 20))
    (htcp : proto = 6 → TcpSegmentValid (ntohl src) (ntohl dst) 6 (window pkt 34 (total - 20))) :
    WellFormedIp (window pkt 0 (14 + total)) := by
  apply wellFormedIp_window h20 hlen h.eth h.ver (by rw [h.len, ntohl_be16 h16]) hip
  intro hproto
  rw [h.src, h.dst]
  rw [h.proto, List.cons.injEq] at hproto
  exact htcp hproto.1

/-- a well-formed TCP frame cut from a buffer with the fields written has a segment that verifies -/
theorem IpFields.tcpSegmentValid {pkt : List UInt8} {total : ℕ} {src dst : List UInt8}
    (h : IpFields pkt total 6 src dst) (h20 : 20 ≤ total) (hlen : 14 + total ≤ pkt.length)
    (hwf : WellFormedIp (window pkt 0 (14 + total))) :
    TcpSegmentValid (ntohl src) (ntohl dst) 6 (window pkt 34 (total - 20)) := by
  have hseg := tcpSegmentValid_of_wellFormedIp h20 hlen h.proto hwf
  rwa [h.src, h.dst] at hseg

/-- a range that no write touches is still zero -/
theorem window_storeAll_zeroed {n : ℕ} {ws : List (ℕ × List UInt8)} {pkt : List UInt8} {off k : ℕ}
    (h : storeAll (zeroed n) ws = some pkt) (hk : off + k ≤ n)
    (hapart : ∀ w ∈ ws, w.1 + w.2.length ≤ off ∨ off + k ≤ w.1) : window pkt off k = List.replicate k 0 := by
  rw [window_storeAll_of_apart hapart h, window_zeroed hk]

/-! ## send_tcp_to_xbox -/

/-- `conn->seq_out` after send_tcp_to_xbox: the payload, then one for a SYN and one for a FIN -/
def advanceSeqOut (seqOut : ℕ) (flags : UInt8) (len : ℕ) : ℕ :=
  let seqOut := if 0 < len then (seqOut + len) % 2 ^ 32 else seqOut
  let seqOut := if flags &&& 0x02 ≠ 0 then (seqOut + 1) % 2 ^ 32 else seqOut
  if flags &&& 0x01 ≠ 0 then (seqOut + 1) % 2 ^ 32 else seqOut

/-- the header writes of send_tcp_to_xbox -/
def sendTcpWrites (g : ProxyGlobals) (conn : TcpConn) (flags : UInt8) (ipId : UInt8 × UInt8) (ipTotal : ℕ) :
    List (ℕ × List UInt8) :=
  [(0, g.xboxMac.toList), (6, g.hostMac.toList), (12, [0x08, 0x00]),
    (14, [0x45]), (16, be16 ipTotal), (18, [ipId.1, ipId.2]), (22, [64]), (23, [6]),
    (26, conn.remoteIp.toList), (30, conn.xboxIp.toList),
    (34, be16 conn.remotePort), (36, be16 conn.xboxPort), (38, be32 conn.seqOut), (42, be32 conn.ackOut),
    (46, [0x50]), (47, [flags]), (48, [0xFF, 0xFF])]

/-- send_tcp_to_xbox: the connection after it and the frame it hands to dma_packet_to_guest -/
def sendTcpToXbox (g : ProxyGlobals) (conn : TcpConn) (flags : UInt8) (payload : List UInt8)
    (ipId : UInt8 × UInt8) : Option (TcpConn × List UInt8) := do
  let ipTotal := 20 + 20 + payload.length
  let pkt ← storeAll (zeroed 1514) (sendTcpWrites g conn flags ipId ipTotal)
  let pkt ← if 0 < payload.length then store pkt 54 payload else pure pkt
  let pkt ← storeIpChecksum pkt
  -- the pseudo header's addresses are read back from the IP header
  let src ← load pkt 26 4
  let dst ← load pkt 30 4
  let pkt ← storeTcpChecksum (ntohl src) (ntohl dst) (20 + payload.length) pkt
  let frame ← load pkt 0 (14 + ipTotal)
  pure ({ conn with seqOut := advanceSeqOut conn.seqOut flags payload.length }, frame)

/-- every frame of send_tcp_to_xbox whose payload fits is well formed, and carries the connection's sequence and
acknowledgement numbers, the flags and the payload -/
theorem sendTcpToXbox_spec (g : ProxyGlobals) (conn : TcpConn) (flags : UInt8) (payload : List UInt8)
    (ipId : UInt8 × UInt8) (hlen : payload.length ≤ 1460) :
    ∃ frame, sendTcpToXbox g conn flags payload ipId =
        some ({ conn with seqOut := advanceSeqOut conn.seqOut flags payload.length }, frame) ∧
      WellFormedIp frame ∧ frame.length = 54 + payload.length ∧ window frame 38 4 = be32 conn.seqOut ∧
      window frame 42 4 = be32 conn.ackOut ∧ window frame 47 1 = [flags] ∧ window frame 54 payload.length = payload := by
  have hp : (sendTcpWrites g conn flags ipId (20 + 20 + payload.length)).Pairwise Apart := by
    apply pairwise_apart_of_isChain
    simp [sendTcpWrites, StoreBefore]
  obtain ⟨pkt₀, h₀⟩ : ∃ pkt, storeAll (zeroed 1514) (sendTcpWrites g conn flags ipId (20 + 20 + payload.length)) =
      some pkt := storeAll_eq_some_of_fit (by simp [sendTcpWrites])
  have hlen₀ : pkt₀.length = 1514 := by rw [length_storeAll h₀, length_zeroed]
  -- the payload
  obtain ⟨pkt₁, h₁⟩ : ∃ pkt, store pkt₀ 54 payload = some pkt := ⟨_, store_eq_some (by omega)⟩
  have hlen₁ : pkt₁.length = 1514 := by rw [length_store h₁, hlen₀]
  have hkeep₁ : ∀ {off n}, off + n ≤ 54 → window pkt₁ off n = window pkt₀ off n := window_store_of_le h₁
  have hw : WritesIpFields (sendTcpWrites g conn flags ipId (20 + 20 + payload.length)) (20 + 20 + payload.length) 6
      conn.remoteIp.toList conn.xboxIp.toList := by
    constructor <;> simp [sendTcpWrites]
  have hf₁ : IpFields pkt₁ (20 + 20 + payload.length) 6 conn.remoteIp.toList conn.xboxIp.toList :=
    (IpFields.of_storeAll hp h₀ (by simp) (by simp) hw).of_window fun h _ => hkeep₁ (by omega)
  have hz24 : window pkt₁ 24 2 = [0, 0] := by
    rw [hkeep₁ (by omega)]
    exact window_storeAll_zeroed h₀ (by omega) (by simp [sendTcpWrites])
  have hz50 : window pkt₁ 50 2 = [0, 0] := by
    rw [hkeep₁ (by omega)]
    exact window_storeAll_zeroed h₀ (by omega) (by simp [sendTcpWrites])
  -- the two checksums
  obtain ⟨pkt₂, h₂, hlen₂, hf₂, hip₂, hkeep₂⟩ := hf₁.storeIpChecksum (by omega) hz24
  obtain ⟨pkt₃, h₃, hlen₃, hf₃, hhdr₃, htcp₃, hkeep₃⟩ :=
    hf₂.storeTcpChecksum (by simp) (by simp) (by omega) (by omega) (by omega) (by rw [hkeep₂ (by omega)]; exact hz50)
  rw [show 20 + 20 + payload.length - 20 = 20 + payload.length by omega] at h₃
  have hsrc : load pkt₂ 26 4 = some conn.remoteIp.toList := by rw [load_eq_some (by omega), hf₂.src]
  have hdst : load pkt₂ 30 4 = some conn.xboxIp.toList := by rw [load_eq_some (by omega), hf₂.dst]
  have hframe : load pkt₃ 0 (14 + (20 + 20 + payload.length)) =
      some (window pkt₃ 0 (14 + (20 + 20 + payload.length))) := load_eq_some (by omega)
  -- what the frame shows of the buffer before the checksums
  have hshow : ∀ {off n}, 26 ≤ off → 52 ≤ off ∨ off + n ≤ 50 → off + n ≤ 54 + payload.length →
      window (window pkt₃ 0 (14 + (20 + 20 + payload.length))) off n = window pkt₁ off n := by
    intro off n h26 h50 hn
    rw [window_window pkt₃ (by omega), Nat.zero_add, hkeep₃ (by omega), hkeep₂ (by omega)]
  refine ⟨window pkt₃ 0 (14 + (20 + 20 + payload.length)), ?_, ?_, ?_, ?_, ?_, ?_, ?_⟩
  · simp only [sendTcpToXbox, h₀, Option.bind_eq_bind, Option.bind_some]
    split_ifs with hpos
    · simp only [h₁, h₂, hsrc, hdst, h₃, hframe, Option.bind_some]
      rfl
    · -- without a payload nothing is copied, and the buffer is the one after the header writes
      have hnil : payload = [] := List.eq_nil_of_length_eq_zero (by omega)
      rw [hnil, store_nil (by omega), Option.some.injEq] at h₁
      subst h₁
      simp only [Option.pure_def, Option.bind_some, h₂, hsrc, hdst, h₃, hframe]
  · exact hf₃.wellFormed (by omega) (by omega) (by omega) (by rw [hhdr₃]; exact hip₂) fun _ => htcp₃
  · rw [length_window (by omega)]
    omega
  · rw [hshow (by omega) (by omega) (by omega), hkeep₁ (by omega)]
    exact window_storeAll_of_mem (w := (38, be32 conn.seqOut)) hp (by simp [sendTcpWrites]) h₀
  · rw [hshow (by omega) (by omega) (by omega), hkeep₁ (by omega)]
    exact window_storeAll_of_mem (w := (42, be32 conn.ackOut)) hp (by simp [sendTcpWrites]) h₀
  · rw [hshow (by omega) (by omega) (by omega), hkeep₁ (by omega)]
    exact window_storeAll_of_mem (w := (47, [flags])) hp (by simp [sendTcpWrites]) h₀
  · rw [hshow (by omega) (by omega) (by omega)]
    exact window_store_self h₁

/-! ## Frames whose IP checksum is stored before the TCP header is written -/

/-- inject_tcp_syn_to_xbox and the data frames of poll_inbound_connections write the Ethernet and IP headers,
store the IP checksum, write the TCP header and the data, and store the TCP checksum: the frame is well formed,
shows every TCP write that the checksum leaves alone, and is zero where neither writes -/
theorem ipThenTcp_spec {n total : ℕ} {ipWs tcpWs : List (ℕ × List UInt8)} {src dst : List UInt8}
    (hsrc : src.length = 4) (hdst : dst.length = 4) (h38 : 38 ≤ total) (h16 : total < 2 ^ 16)
    (hn : 14 + total ≤ n) (hfields : WritesIpFields ipWs total 6 src dst) (hipAp : ipWs.Pairwise Apart)
    (hipFit : ∀ w ∈ ipWs, w.1 + w.2.length ≤ 34) (hip24 : ∀ w ∈ ipWs, w.1 + w.2.length ≤ 24 ∨ 26 ≤ w.1)
    (htcpAp : tcpWs.Pairwise Apart) (htcpFit : ∀ w ∈ tcpWs, 34 ≤ w.1 ∧ w.1 + w.2.length ≤ n)
    (htcp50 : ∀ w ∈ tcpWs, w.1 + w.2.length ≤ 50 ∨ 52 ≤ w.1) :
    ∃ pkt₀ pkt₁ pkt₂ pkt₃, storeAll (zeroed n) ipWs = some pkt₀ ∧ storeIpChecksum pkt₀ = some pkt₁ ∧
      storeAll pkt₁ tcpWs = some pkt₂ ∧ storeTcpChecksum (ntohl src) (ntohl dst) (total - 20) pkt₂ = some pkt₃ ∧
      pkt₃.length = n ∧ WellFormedIp (window pkt₃ 0 (14 + total)) ∧ (∀ w ∈ tcpWs, window pkt₃ w.1 w.2.length = w.2) ∧
      ∀ {off k}, 34 ≤ off → off + k ≤ n → off + k ≤ 50 ∨ 52 ≤ off →
        (∀ w ∈ tcpWs, w.1 + w.2.length ≤ off ∨ off + k ≤ w.1) → window pkt₃ off k = List.replicate k 0 := by
  obtain ⟨pkt₀, h₀⟩ : ∃ pkt, storeAll (zeroed n) ipWs = some pkt := storeAll_eq_some_of_fit fun w hw => by
    have := hipFit w hw
    rw [length_zeroed]
    omega
  have hlen₀ : pkt₀.length = n := by rw [length_storeAll h₀, length_zeroed]
  have hf₀ := IpFields.of_storeAll hipAp h₀ hsrc hdst hfields
  have hz24 : window pkt₀ 24 2 = [0, 0] := window_storeAll_zeroed h₀ (by omega) hip24
  have hz50 : window pkt₀ 50 2 = [0, 0] :=
    window_storeAll_zeroed h₀ (by omega) fun w hw => Or.inl ((hipFit w hw).trans (by omega))
  obtain ⟨pkt₁, h₁, hlen₁, hf₁, hip₁, hkeep₁⟩ := hf₀.storeIpChecksum (by omega) hz24
  obtain ⟨pkt₂, h₂⟩ : ∃ pkt, storeAll pkt₁ tcpWs = some pkt := storeAll_eq_some_of_fit fun w hw => by
    have := (htcpFit w hw).2
    omega
  -- the TCP writes leave the first 34 bytes alone
  have hkeep₂ : ∀ {off k}, off + k ≤ 34 → window pkt₂ off k = window pkt₁ off k := fun hk =>
    window_storeAll_of_apart (fun w hw => Or.inr (hk.trans (htcpFit w hw).1)) h₂
  have hz50₂ : window pkt₂ 50 2 = [0, 0] := by
    rw [window_storeAll_of_apart (fun w hw => htcp50 w hw) h₂, hkeep₁ (by omega), hz50]
  obtain ⟨pkt₃, h₃, hlen₃, hf₃, hhdr₃, htcp₃, hkeep₃⟩ :=
    (hf₁.of_window fun hk _ => hkeep₂ hk).storeTcpChecksum hsrc hdst h38 h16
      (by rw [length_storeAll h₂, hlen₁, hlen₀]; exact hn) hz50₂
  refine ⟨pkt₀, pkt₁, pkt₂, pkt₃, h₀, h₁, h₂, h₃, by rw [hlen₃, length_storeAll h₂, hlen₁, hlen₀], ?_, ?_, ?_⟩
  · apply hf₃.wellFormed (by omega) h16 (by rw [hlen₃, length_storeAll h₂, hlen₁, hlen₀]; exact hn)
      (by rw [hhdr₃, hkeep₂ (by omega)]; exact hip₁)
    intro _
    exact htcp₃
  · intro w hw
    rw [hkeep₃ (htcp50 w hw)]
    exact window_storeAll_of_mem htcpAp hw h₂
  · intro off k h34 hk h50 hapart
    have h26 : 26 ≤ off := by omega
    rw [hkeep₃ h50, window_storeAll_of_apart hapart h₂, hkeep₁ h26]
    exact window_storeAll_zeroed h₀ hk fun w hw => Or.inl ((hipFit w hw).trans h34)

/-- the Ethernet and IP header writes of inject_tcp_syn_to_xbox -/
def injectSynIpWrites (g : ProxyGlobals) (conn : InboundConn) (ipId : UInt8 × UInt8) : List (ℕ × List UInt8) :=
  [(0, g.xboxMac.toList), (6, g.hostMac.toList), (12, [0x08, 0x00]),
    (14, [0x45]), (16, [0, 44]), (18, [ipId.1, ipId.2]), (22, [64]), (23, [6]),
    (26, conn.clientIp.toList), (30, g.dhcpClientIp.toList)]

/-- the TCP header writes of inject_tcp_syn_to_xbox, the MSS option last -/
def injectSynTcpWrites (conn : InboundConn) : List (ℕ × List UInt8) :=
  [(34, be16 conn.clientPort), (36, be16 conn.xboxPort), (38, be32 conn.seqToXbox),
    (46, [0x60]), (47, [0x02]), (48, [0xFF, 0xFF]), (54, [2, 4, 0x05, 0xB4])]

/-- inject_tcp_syn_to_xbox: the SYN that opens an inbound connection towards the Xbox -/
def injectTcpSynToXbox (g : ProxyGlobals) (conn : InboundConn) (ipId : UInt8 × UInt8) (isn : ℕ) :
    Option (InboundConn × List UInt8) := do
  let pkt ← storeAll (zeroed 74) (injectSynIpWrites g conn ipId)
  let pkt ← storeIpChecksum pkt
  let conn := { conn with seqToXbox := isn % 2 ^ 32 }
  let pkt ← storeAll pkt (injectSynTcpWrites conn)
  let pkt ← storeTcpChecksum (ntohl conn.clientIp.toList) (ntohl g.dhcpClientIp.toList) 24 pkt
  let frame ← load pkt 0 (14 + 20 + 24)
  pure ({ conn with state := 1, seqToXbox := (conn.seqToXbox + 1) % 2 ^ 32 }, frame)

theorem be16_44 : be16 44 = [0, 44] := by decide

/-- the injected SYN is a well-formed 58-byte frame carrying the initial sequence number -/
theorem injectTcpSynToXbox_spec (g : ProxyGlobals) (conn : InboundConn) (ipId : UInt8 × UInt8) (isn : ℕ) :
    ∃ frame, injectTcpSynToXbox g conn ipId isn =
        some ({ conn with state := 1, seqToXbox := (isn % 2 ^ 32 + 1) % 2 ^ 32 }, frame) ∧
      WellFormedIp frame ∧ frame.length = 58 ∧ window frame 38 4 = be32 (isn % 2 ^ 32) ∧ window frame 47 1 = [0x02] := by
  obtain ⟨pkt₀, pkt₁, pkt₂, pkt₃, h₀, h₁, h₂, h₃, hlen₃, hwf, htcp, -⟩ :=
    @ipThenTcp_spec 74 44 (injectSynIpWrites g conn ipId) (injectSynTcpWrites { conn with seqToXbox := isn % 2 ^ 32 })
      conn.clientIp.toList g.dhcpClientIp.toList (by simp) (by simp) (by omega) (by omega) (by omega)
      (by constructor <;> simp [injectSynIpWrites, be16_44]) (by simp [injectSynIpWrites, Apart])
      (by simp [injectSynIpWrites]) (by simp [injectSynIpWrites]) (by simp [injectSynTcpWrites, Apart])
      (by simp [injectSynTcpWrites]) (by simp [injectSynTcpWrites])
  have hframe : load pkt₃ 0 (14 + 20 + 24) = some (window pkt₃ 0 (14 + 44)) := load_eq_some (by omega)
  have hshow : ∀ {off k}, off + k ≤ 58 → window (window pkt₃ 0 (14 + 44)) off k = window pkt₃ off k := fun hk => by
    rw [window_window pkt₃ hk, Nat.zero_add]
  refine ⟨window pkt₃ 0 (14 + 44), ?_, hwf, length_window (by omega), ?_, ?_⟩
  · simp only [injectTcpSynToXbox, h₀, h₁, h₂, Option.bind_eq_bind, Option.bind_some]
    simp only [show (44 : ℕ) - 20 = 24 from rfl] at h₃
    simp only [h₃, hframe, Option.bind_some]
    rfl
  · rw [hshow (by omega)]
    exact htcp (38, be32 (isn % 2 ^ 32)) (by simp [injectSynTcpWrites])
  · rw [hshow (by omega)]
    exact htcp (47, [0x02]) (by simp [injectSynTcpWrites])

/-- the Ethernet and IP header writes of a data frame of poll_inbound_connections -/
def inboundDataIpWrites (g : ProxyGlobals) (conn : InboundConn) (ipLen : ℕ) : List (ℕ × List UInt8) :=
  [(0, g.xboxMac.toList), (6, g.hostMac.toList), (12, [0x08, 0x00]),
    (14, [0x45]), (16, be16 ipLen), (22, [64]), (23, [6]),
    (26, conn.clientIp.toList), (30, g.dhcpClientIp.toList)]

/-- the TCP header and data writes of a data frame of poll_inbound_connections: PSH and ACK, no acknowledgement
number -/
def inboundDataTcpWrites (conn : InboundConn) (data : List UInt8) : List (ℕ × List UInt8) :=
  [(34, be16 conn.clientPort), (36, be16 conn.xboxPort), (38, be32 conn.seqToXbox),
    (46, [0x50]), (47, [0x18]), (48, [0xFF, 0xFF]), (54, data)]

/-- the data frame poll_inbound_connections builds for the bytes `recv` returned on an established inbound
connection -/
def inboundDataFrame (g : ProxyGlobals) (conn : InboundConn) (data : List UInt8) :
    Option (InboundConn × List UInt8) := do
  let ipLen := 20 + 20 + data.length
  let pkt ← storeAll (zeroed 1514) (inboundDataIpWrites g conn ipLen)
  let pkt ← storeIpChecksum pkt
  let pkt ← storeAll pkt (inboundDataTcpWrites conn data)
  let seqToXbox := (conn.seqToXbox + data.length) % 2 ^ 32
  let pkt ← storeTcpChecksum (ntohl conn.clientIp.toList) (ntohl g.dhcpClientIp.toList) (20 + data.length) pkt
  let frame ← load pkt 0 (14 + ipLen)
  pure ({ conn with seqToXbox }, frame)

/-- every data frame of poll_inbound_connections is well formed and carries the data at the connection's
sequence number, with the ACK flag set and the acknowledgement number left zero -/
theorem inboundDataFrame_spec (g : ProxyGlobals) (conn : InboundConn) (data : List UInt8)
    (hlen : data.length ≤ 1460) :
    ∃ frame, inboundDataFrame g conn data =
        some ({ conn with seqToXbox := (conn.seqToXbox + data.length) % 2 ^ 32 }, frame) ∧
      WellFormedIp frame ∧ frame.length = 54 + data.length ∧ window frame 38 4 = be32 conn.seqToXbox ∧
      window frame 42 4 = [0, 0, 0, 0] ∧ window frame 47 1 = [0x18] ∧ window frame 54 data.length = data := by
  obtain ⟨pkt₀, pkt₁, pkt₂, pkt₃, h₀, h₁, h₂, h₃, hlen₃, hwf, htcp, hzero⟩ :=
    @ipThenTcp_spec 1514 (20 + 20 + data.length) (inboundDataIpWrites g conn (20 + 20 + data.length))
      (inboundDataTcpWrites conn data) conn.clientIp.toList g.dhcpClientIp.toList (by simp) (by simp) (by omega)
      (by omega) (by omega) (by constructor <;> simp [inboundDataIpWrites]) (by simp [inboundDataIpWrites, Apart])
      (by simp [inboundDataIpWrites]) (by simp [inboundDataIpWrites]) (by simp [inboundDataTcpWrites, Apart])
      (by simp [inboundDataTcpWrites]; omega) (by simp [inboundDataTcpWrites])
  rw [show 20 + 20 + data.length - 20 = 20 + data.length by omega] at h₃
  have hframe : load pkt₃ 0 (14 + (20 + 20 + data.length)) = some (window pkt₃ 0 (14 + (20 + 20 + data.length))) :=
    load_eq_some (by omega)
  have hshow : ∀ {off k}, off + k ≤ 54 + data.length →
      window (window pkt₃ 0 (14 + (20 + 20 + data.length))) off k = window pkt₃ off k := fun hk => by
    rw [window_window pkt₃ (by omega), Nat.zero_add]
  refine ⟨window pkt₃ 0 (14 + (20 + 20 + data.length)), ?_, hwf, by rw [length_window (by omega)]; omega, ?_, ?_, ?_,
    ?_⟩
  · simp only [inboundDataFrame, h₀, h₁, h₂, h₃, hframe, Option.bind_eq_bind, Option.bind_some]
    rfl
  · rw [hshow (by omega)]
    exact htcp (38, be32 conn.seqToXbox) (by simp [inboundDataTcpWrites])
  · rw [hshow (by omega)]
    exact hzero (by omega) (by omega) (by omega) (by simp [inboundDataTcpWrites])
  · rw [hshow (by omega)]
    exact htcp (47, [0x18]) (by simp [inboundDataTcpWrites])
  · rw [hshow (by omega)]
    exact htcp (54, data) (by simp [inboundDataTcpWrites])

/-! ## The handshake ACK of handle_inbound_tcp_response -/

/-- the writes of the ACK with which handle_inbound_tcp_response completes the handshake -/
def inboundAckWrites (g : ProxyGlobals) (conn : InboundConn) : List (ℕ × List UInt8) :=
  [(0, g.xboxMac.toList), (6, g.hostMac.toList), (12, [0x08, 0x00]),
    (14, [0x45]), (16, [0, 40]), (22, [64]), (23, [6]),
    (26, conn.clientIp.toList), (30, g.dhcpClientIp.toList),
    (34, be16 conn.clientPort), (36, be16 conn.xboxPort), (38, be32 conn.seqToXbox), (42, be32 conn.seqToClient),
    (46, [0x50]), (47, [0x10]), (48, [0xFF, 0xFF])]

/-- the handshake ACK: the IP checksum is computed inline, and nothing computes a TCP checksum -/
def inboundAckFrame (g : ProxyGlobals) (conn : InboundConn) : Option (List UInt8) := do
  let pkt ← storeAll (zeroed 54) (inboundAckWrites g conn)
  -- the loop over `ack_pkt[14..34)` reads the words ip_checksum reads
  let hdr ← load pkt 14 20
  let ipSum := fold (addWords 0 hdr)
  let pkt ← store pkt 24
    [UInt8.ofNat (((2 ^ 32 - 1 - ipSum) >>> 8) &&& 0xFF), UInt8.ofNat ((2 ^ 32 - 1 - ipSum) &&& 0xFF)]
  load pkt 0 54

/-- the bytes of `~ip_sum` the inline code stores are those of ip_checksum's result -/
theorem inlineChecksum_eq (s : ℕ) :
    [UInt8.ofNat (((2 ^ 32 - 1 - s) >>> 8) &&& 0xFF), UInt8.ofNat ((2 ^ 32 - 1 - s) &&& 0xFF)] =
      be16 (complement16 s) := by
  have hff : ∀ x : ℕ, x &&& 0xFF = x % 256 := fun x => Nat.and_two_pow_sub_one_eq_mod x 8
  simp only [be16, complement16, List.cons.injEq, and_true]
  constructor <;> apply UInt8.ext <;>
    simp only [UInt8.toNat_ofNat', hff, Nat.shiftRight_eq_div_pow, Nat.reducePow] <;> omega

theorem be16_40 : be16 40 = [0, 40] := by decide

/-- the handshake ACK has a valid IP header and a zero TCP checksum field: it is well formed exactly when the
checksum of its segment, that field zero, is zero -/
theorem inboundAckFrame_spec (g : ProxyGlobals) (conn : InboundConn) :
    ∃ frame, inboundAckFrame g conn = some frame ∧ frame.length = 54 ∧ IpHeaderValid (window frame 14 20) ∧
      window frame 50 2 = [0, 0] ∧
      (WellFormedIp frame ↔
        tcpUdpChecksum (ntohl conn.clientIp.toList) (ntohl g.dhcpClientIp.toList) 6 (window frame 34 20) = 0) := by
  have hp : (inboundAckWrites g conn).Pairwise Apart := by
    apply pairwise_apart_of_isChain
    simp [inboundAckWrites, StoreBefore]
  obtain ⟨pkt₀, h₀⟩ : ∃ pkt, storeAll (zeroed 54) (inboundAckWrites g conn) = some pkt :=
    storeAll_eq_some_of_fit (by simp [inboundAckWrites])
  have hlen₀ : pkt₀.length = 54 := by rw [length_storeAll h₀, length_zeroed]
  have hw : WritesIpFields (inboundAckWrites g conn) 40 6 conn.clientIp.toList g.dhcpClientIp.toList := by
    constructor <;> simp [inboundAckWrites, be16_40]
  have hz50 : window pkt₀ 50 2 = [0, 0] := window_storeAll_zeroed h₀ (by omega) (by simp [inboundAckWrites])
  obtain ⟨pkt₁, h₁, hlen₁, hf₁, hip₁, hkeep₁⟩ :=
    (IpFields.of_storeAll hp h₀ (by simp) (by simp) hw).storeIpChecksum (by omega)
      (window_storeAll_zeroed h₀ (by omega) (by simp [inboundAckWrites]))
  have hhdr : load pkt₀ 14 20 = some (window pkt₀ 14 20) := load_eq_some (by omega)
  have hst : store pkt₀ 24 (be16 (ipChecksum (window pkt₀ 14 20))) = some pkt₁ := by
    simpa only [storeIpChecksum, hhdr, Option.bind_eq_bind, Option.bind_some] using h₁
  have hframe : load pkt₁ 0 54 = some (window pkt₁ 0 (14 + 40)) := load_eq_some (by omega)
  refine ⟨window pkt₁ 0 (14 + 40), ?_, length_window (by omega), ?_, ?_, ?_⟩
  · simp only [inboundAckFrame, h₀, hhdr, Option.bind_eq_bind, Option.bind_some, inlineChecksum_eq]
    rw [show complement16 (fold (addWords 0 (window pkt₀ 14 20))) = ipChecksum (window pkt₀ 14 20) from rfl, hst]
    exact hframe
  · rw [window_cut pkt₁ (by omega)]
    exact hip₁
  · rw [window_cut pkt₁ (by omega), hkeep₁ (by omega)]
    exact hz50
  · rw [window_cut pkt₁ (show 34 + 20 ≤ 14 + 40 by omega),
      ← tcpSegmentValid_iff (ntohl_ip4_lt conn.clientIp) (ntohl_ip4_lt g.dhcpClientIp) (by decide)
        (by rw [length_window (by omega)]; decide)]
    constructor
    · intro hwf
      exact hf₁.tcpSegmentValid (by omega) (by omega) hwf
    · intro hvalid
      exact hf₁.wellFormed (by omega) (by omega) (by omega) hip₁ fun _ => hvalid

/-- the proxy at 192.168.1.3 as the DHCP server gave it, with its default host MAC -/
def ftpGlobals : ProxyGlobals where
  dhcpClientIp := ⟨[192, 168, 1, 3], rfl⟩
  dhcpGateway := ⟨[192, 168, 1, 1], rfl⟩
  dhcpDns := ⟨[8, 8, 8, 8], rfl⟩
  dhcpServerIp := ⟨[192, 168, 1, 2], rfl⟩
  proxyEnabled := true
  xboxMac := ⟨[0x00, 0x50, 0xF2, 0x12, 0x34, 0x56], rfl⟩
  hostMac := ⟨[0x00, 0x50, 0x56, 0xC0, 0x00, 0x01], rfl⟩

/-- an FTP client at 192.168.1.2:50000 whose connection to port 21 the Xbox has answered with a SYN-ACK -/
def ftpConn : InboundConn where
  active := true
  listenFd := 3
  clientFd := 4
  clientIp := ⟨[192, 168, 1, 2], rfl⟩
  clientPort := 50000
  xboxPort := 21
  state := 2
  seqToXbox := 1001
  seqToClient := 2001

/-- the handshake ACK's TCP checksum field is never set: for every connection the guest accepts the frame only
when the segment's checksum happens to be zero, and the ACK to this FTP client is rejected -/
theorem inbound_ack_frame_unchecksummed :
    (∀ (g : ProxyGlobals) (conn : InboundConn), ∃ frame, inboundAckFrame g conn = some frame ∧
      IpHeaderValid (window frame 14 20) ∧ window frame 50 2 = [0, 0] ∧
      (WellFormedIp frame ↔
        tcpUdpChecksum (ntohl conn.clientIp.toList) (ntohl g.dhcpClientIp.toList) 6 (window frame 34 20) = 0)) ∧
    ∃ frame, inboundAckFrame ftpGlobals ftpConn = some frame ∧ ¬WellFormedIp frame := by
  refine ⟨fun g conn => ?_, ⟨_, rfl, by decide⟩⟩
  obtain ⟨frame, hframe, -, hip, hzero, hiff⟩ := inboundAckFrame_spec g conn
  exact ⟨frame, hframe, hip, hzero, hiff⟩

/-! ## The UDP frames of proxy_poll_rx -/

/-- the writes of the frame proxy_poll_rx builds for a datagram `recvfrom` returned, the datagram last -/
def udpFrameWrites (g : ProxyGlobals) (conn : UdpConn) (data : List UInt8) : List (ℕ × List UInt8) :=
  [(0, g.xboxMac.toList), (6, g.hostMac.toList), (12, [0x08, 0x00]),
    (14, [0x45]), (16, be16 (20 + 8 + data.length)), (22, [64]), (23, [17]),
    (26, conn.remoteIp.toList), (30, conn.xboxIp.toList),
    (34, be16 conn.remotePort), (36, be16 conn.xboxPort), (38, be16 (8 + data.length)), (42, data)]

/-- the frame proxy_poll_rx builds in its 1514-byte buffer for a datagram of a UDP connection -/
def udpFrameToXbox (g : ProxyGlobals) (conn : UdpConn) (data : List UInt8) : Option (List UInt8) := do
  let ipLen := 20 + 8 + data.length
  let pkt ← storeAll (zeroed 1514) (udpFrameWrites g conn data)
  let pkt ← storeIpChecksum pkt
  load pkt 0 (14 + ipLen)

/-- a datagram of at most 1472 bytes gives a well-formed frame that carries it -/
theorem udpFrameToXbox_spec (g : ProxyGlobals) (conn : UdpConn) (data : List UInt8) (hlen : data.length ≤ 1472) :
    ∃ frame, udpFrameToXbox g conn data = some frame ∧ WellFormedIp frame ∧ frame.length = 42 + data.length ∧
      window frame 42 data.length = data := by
  have hp : (udpFrameWrites g conn data).Pairwise Apart := by
    apply pairwise_apart_of_isChain
    simp [udpFrameWrites, StoreBefore]
  obtain ⟨pkt₀, h₀⟩ : ∃ pkt, storeAll (zeroed 1514) (udpFrameWrites g conn data) = some pkt :=
    storeAll_eq_some_of_fit (by simp [udpFrameWrites]; omega)
  have hlen₀ : pkt₀.length = 1514 := by rw [length_storeAll h₀, length_zeroed]
  have hw : WritesIpFields (udpFrameWrites g conn data) (20 + 8 + data.length) 17 conn.remoteIp.toList
      conn.xboxIp.toList := by
    constructor <;> simp [udpFrameWrites]
  obtain ⟨pkt₁, h₁, hlen₁, hf₁, hip₁, hkeep₁⟩ :=
    (IpFields.of_storeAll hp h₀ (by simp) (by simp) hw).storeIpChecksum (by omega)
      (window_storeAll_zeroed h₀ (by omega) (by simp [udpFrameWrites]))
  have hframe : load pkt₁ 0 (14 + (20 + 8 + data.length)) = some (window pkt₁ 0 (14 + (20 + 8 + data.length))) :=
    load_eq_some (by omega)
  refine ⟨window pkt₁ 0 (14 + (20 + 8 + data.length)), ?_, ?_, ?_, ?_⟩
  · simp only [udpFrameToXbox, h₀, h₁, hframe, Option.bind_eq_bind, Option.bind_some]
  · exact hf₁.wellFormed (by omega) (by omega) (by omega) hip₁ fun h => absurd h (by decide)
  · rw [length_window (by omega)]
    omega
  · rw [window_window pkt₁ (by omega), Nat.zero_add, hkeep₁ (by omega)]
    exact window_storeAll_of_mem (w := (42, data)) hp (by simp [udpFrameWrites]) h₀

/-- the datagram is copied past the end of the 1514-byte buffer exactly when it has more than 1472 bytes -/
theorem udpFrameToXbox_eq_none_iff (g : ProxyGlobals) (conn : UdpConn) (data : List UInt8) :
    udpFrameToXbox g conn data = none ↔ 1472 < data.length := by
  constructor
  · intro hnone
    by_contra hle
    obtain ⟨frame, hsome, -⟩ := udpFrameToXbox_spec g conn data (by omega)
    rw [hnone] at hsome
    cases hsome
  · intro hlt
    have hover : storeAll (zeroed 1514) (udpFrameWrites g conn data) = none :=
      storeAll_eq_none_iff.2 ⟨(42, data), by simp [udpFrameWrites], by simp; omega⟩
    simp only [udpFrameToXbox, hover, Option.bind_eq_bind, Option.bind_none]

/-- the frames proxy_poll_rx and poll_inbound_connections build for what a receive call returns: the TCP frames fit
their 1514-byte buffers for every count up to the 1400 bytes asked for, and their length is what was written; the
UDP frame does so up to 1472 bytes, and a datagram of the 2048 bytes recvfrom may return is copied past its end -/
theorem udp_datagram_overflows_frame :
    (∀ (g : ProxyGlobals) (conn : TcpConn) (flags : UInt8) (payload : List UInt8) (ipId : UInt8 × UInt8),
      payload.length ≤ 1400 → ∃ frame,
        sendTcpToXbox g conn flags payload ipId =
          some ({ conn with seqOut := advanceSeqOut conn.seqOut flags payload.length }, frame) ∧
        frame.length = 54 + payload.length ∧ WellFormedIp frame) ∧
    (∀ (g : ProxyGlobals) (conn : InboundConn) (data : List UInt8), data.length ≤ 1400 → ∃ frame,
      inboundDataFrame g conn data = some ({ conn with seqToXbox := (conn.seqToXbox + data.length) % 2 ^ 32 }, frame) ∧
        frame.length = 54 + data.length ∧ WellFormedIp frame) ∧
    (∀ (g : ProxyGlobals) (conn : UdpConn) (data : List UInt8), data.length ≤ 1472 → ∃ frame,
      udpFrameToXbox g conn data = some frame ∧ frame.length = 42 + data.length ∧ WellFormedIp frame) ∧
    ∀ (g : ProxyGlobals) (conn : UdpConn), udpFrameToXbox g conn (List.replicate 2048 0) = none := by
  refine ⟨fun g conn flags payload ipId hlen => ?_, fun g conn data hlen => ?_, fun g conn data hlen => ?_,
    fun g conn => (udpFrameToXbox_eq_none_iff g conn _).2 (by rw [List.length_replicate]; decide)⟩
  · obtain ⟨frame, hsend, hwf, hlength, -⟩ := sendTcpToXbox_spec g conn flags payload ipId (by omega)
    exact ⟨frame, hsend, hlength, hwf⟩
  · obtain ⟨frame, hsend, hwf, hlength, -⟩ := inboundDataFrame_spec g conn data (by omega)
    exact ⟨frame, hsend, hlength, hwf⟩
  · obtain ⟨frame, hsend, hwf, hlength, -⟩ := udpFrameToXbox_spec g conn data hlen
    exact ⟨frame, hsend, hlength, hwf⟩

/-! ## The DHCP reply of handle_dhcp_packet -/

/-- `DHCP_SERVER_PORT` -/
def dhcpServerPort : ℕ := 67

/-- `DHCP_CLIENT_PORT` -/
def dhcpClientPort : ℕ := 68

/-- `DHCP_DISCOVER` -/
def dhcpDiscover : ℕ := 1

/-- `DHCP_OFFER` -/
def dhcpOffer : ℕ := 2

/-- `DHCP_REQUEST` -/
def dhcpRequest : ℕ := 3

/-- `DHCP_ACK` -/
def dhcpAck : ℕ := 5

/-- the writes of the DHCP reply before its lengths: the headers, the BOOTP fields, the magic cookie and the
options, OFFER for a DISCOVER and ACK otherwise; `xid` is the transaction id copied from the request -/
def dhcpReplyWrites (g : ProxyGlobals) (msgType : ℕ) (xid : List UInt8) : List (ℕ × List UInt8) :=
  [(0, g.xboxMac.toList), (6, g.hostMac.toList), (12, [0x08, 0x00]),
    (14, [0x45]), (22, [64]), (23, [17]), (26, g.dhcpServerIp.toList), (30, [0xFF, 0xFF, 0xFF, 0xFF]),
    (34, [0, UInt8.ofNat dhcpServerPort]), (36, [0, UInt8.ofNat dhcpClientPort]),
    (42, [2]), (43, [1]), (44, [6]), (46, xid), (52, [0x80]), (58, g.dhcpClientIp.toList),
    (62, g.dhcpServerIp.toList), (70, g.xboxMac.toList), (278, [99, 130, 83, 99]),
    (282, [53, 1, UInt8.ofNat (if msgType = dhcpDiscover then dhcpOffer else dhcpAck)]),
    (285, [54, 4] ++ g.dhcpServerIp.toList), (291, [51, 4] ++ be32 86400), (297, [1, 4] ++ be32 0xFFFFFF00),
    (303, [3, 4] ++ g.dhcpGateway.toList), (309, [6, 4] ++ g.dhcpDns.toList), (315, [255])]

/-- the reply handle_dhcp_packet builds in its 512-byte buffer; the options end at byte 316 -/
def dhcpReply (g : ProxyGlobals) (msgType : ℕ) (xid : List UInt8) : Option (List UInt8) := do
  let resp ← storeAll (zeroed 512) (dhcpReplyWrites g msgType xid)
  let bootpLen := 316 - 42
  let udpLen := 8 + bootpLen
  let ipLen := 20 + udpLen
  let resp ← storeAll resp [(16, be16 ipLen), (38, be16 udpLen)]
  let resp ← storeIpChecksum resp
  load resp 0 (14 + ipLen)

/-- the DHCP reply is a well-formed 316-byte frame -/
theorem dhcpReply_spec (g : ProxyGlobals) (msgType : ℕ) (xid : List UInt8) (hxid : xid.length = 4) :
    ∃ frame, dhcpReply g msgType xid = some frame ∧ WellFormedIp frame ∧ frame.length = 316 := by
  have hp : (dhcpReplyWrites g msgType xid ++ [(16, be16 302), (38, be16 282)]).Pairwise Apart := by
    -- the reply's own writes are in order; the two lengths written after them fall between
    rw [List.pairwise_append]
    refine ⟨pairwise_apart_of_isChain (by simp [dhcpReplyWrites, StoreBefore, hxid]), by simp [Apart], ?_⟩
    simp [dhcpReplyWrites, Apart, hxid]
  obtain ⟨pkt₀, h₀⟩ : ∃ pkt, storeAll (zeroed 512) (dhcpReplyWrites g msgType xid) = some pkt :=
    storeAll_eq_some_of_fit (by simp [dhcpReplyWrites, hxid])
  have hlen₀ : pkt₀.length = 512 := by rw [length_storeAll h₀, length_zeroed]
  obtain ⟨pkt₁, h₁⟩ : ∃ pkt, storeAll pkt₀ [(16, be16 302), (38, be16 282)] = some pkt :=
    storeAll_eq_some_of_fit (by simp [hlen₀])
  have hall : storeAll (zeroed 512) (dhcpReplyWrites g msgType xid ++ [(16, be16 302), (38, be16 282)]) =
      some pkt₁ := by
    rw [storeAll_append, h₀, Option.bind_some, h₁]
  have hlen₁ : pkt₁.length = 512 := by rw [length_storeAll hall, length_zeroed]
  have hw : WritesIpFields (dhcpReplyWrites g msgType xid ++ [(16, be16 302), (38, be16 282)]) 302 17
      g.dhcpServerIp.toList [0xFF, 0xFF, 0xFF, 0xFF] := by
    constructor <;> simp [dhcpReplyWrites]
  obtain ⟨pkt₂, h₂, hlen₂, hf₂, hip₂, -⟩ :=
    (IpFields.of_storeAll hp hall (by simp) rfl hw).storeIpChecksum (by omega)
      (window_storeAll_zeroed hall (by omega) (by simp [dhcpReplyWrites, hxid]))
  have hframe : load pkt₂ 0 (14 + 302) = some (window pkt₂ 0 (14 + 302)) := load_eq_some (by omega)
  refine ⟨window pkt₂ 0 (14 + 302), ?_, ?_, length_window (by omega)⟩
  · simp only [dhcpReply, h₀, h₁, h₂, hframe, Option.bind_eq_bind, Option.bind_some]
  · exact hf₂.wellFormed (by omega) (by omega) (by omega) hip₂ fun h => absurd h (by decide)

end Xemu.Nvnet
