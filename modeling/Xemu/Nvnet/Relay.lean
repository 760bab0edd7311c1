import Xemu.Nvnet.Handlers
/-!
# The TCP relay and the header parsers on the guest's frames

What send_packet does with a TCP frame from the guest. handle_tcp_packet takes the payload to be everything after
the TCP header up to the end of the frame, `size - 14 - ihl - tcp_hdr_len`, and not up to the end of the IP packet
that the IP total length delimits. The two differ by the Ethernet padding of a frame shorter than the Ethernet
minimum, and the padding goes to the server as data.

* `payloadLength_eq`: without wrap-around, the handler's payload length is the frame's size less the headers.
* `padded_segment_relays_padding`: on an established connection, a segment without SYN or FIN sends its IP data
  and the frame's padding after it, and acknowledges both; with a bare ACK padded to the 60-byte minimum, the server
  receives six zero bytes.
* `tcpSegment_repeated`: a retransmitted segment is sent to the server again; nothing compares its sequence number
  with the bytes already taken.
* `tcp_header_read_past_frame`: the parsers read the TCP header where the IHL puts it, and for a frame of 54 to 281
  bytes whose IHL puts it past the end, send_packet reads past the frame.
-/

namespace Xemu.Nvnet

open Bounded

/-! ## The data of a segment -/

/-- where handle_tcp_packet takes the payload to start: past the Ethernet, IP and TCP headers -/
def payloadOffset (b14 b12 : UInt8) : ℕ := 14 + ipHeaderLength b14 + tcpHeaderLength b12

/-- the IP total length, bytes 16 and 17 of the frame -/
def ipTotalLength (buf : List UInt8) : ℕ := ntohl (window buf 16 2)

/-- the segment's data: from the end of the TCP header to the end of the IP packet -/
def segmentData (buf : List UInt8) (b14 b12 : UInt8) : List UInt8 :=
  window buf (payloadOffset b14 b12) (14 + ipTotalLength buf - payloadOffset b14 b12)

/-- the bytes of the frame after the IP packet -/
def ethernetPadding (buf : List UInt8) : List UInt8 :=
  window buf (14 + ipTotalLength buf) (buf.length - (14 + ipTotalLength buf))

/-- the three `size_t` subtractions of handle_tcp_packet, on a frame that holds the headers -/
theorem payloadLength_eq {buf : List UInt8} {b14 b12 : UInt8} (hfit : payloadOffset b14 b12 ≤ buf.length)
    (hsize : buf.length < 2 ^ 64) :
    sizeSub (sizeSub (sizeSub buf.length 14) (ipHeaderLength b14)) (tcpHeaderLength b12) =
      buf.length - payloadOffset b14 b12 := by
  unfold payloadOffset at hfit ⊢
  have hether : sizeSub buf.length 14 = buf.length - 14 := sizeSub_of_le (by omega) hsize
  have hip : sizeSub (buf.length - 14) (ipHeaderLength b14) = buf.length - 14 - ipHeaderLength b14 :=
    sizeSub_of_le (by omega) (by omega)
  have htcp : sizeSub (buf.length - 14 - ipHeaderLength b14) (tcpHeaderLength b12) =
      buf.length - 14 - ipHeaderLength b14 - tcpHeaderLength b12 :=
    sizeSub_of_le (by omega) (by omega)
  rw [hether, hip, htcp]
  omega

/-- what follows the TCP header is the segment's data, then the padding -/
theorem window_payload_eq {buf : List UInt8} {b14 b12 : UInt8}
    (hdata : payloadOffset b14 b12 ≤ 14 + ipTotalLength buf) (hpad : 14 + ipTotalLength buf ≤ buf.length) :
    window buf (payloadOffset b14 b12) (buf.length - payloadOffset b14 b12) =
      segmentData buf b14 b12 ++ ethernetPadding buf := by
  have hsplit : buf.length - payloadOffset b14 b12 =
      (14 + ipTotalLength buf - payloadOffset b14 b12) + (buf.length - (14 + ipTotalLength buf)) := by
    omega
  rw [hsplit, window_add, Nat.add_sub_cancel' hdata]
  rfl

/-! ## The relay on an established connection -/

/-- on an established connection, a segment without SYN or FIN sends everything after its TCP header to the end of
the frame: its IP data and then the Ethernet padding, both acknowledged to the guest -/
theorem padded_segment_relays_padding {st : ProxyState} {env : HostEnv} {buf : List UInt8}
    {b14 b12 flags : UInt8} {srcPort dstPort : ℕ} {dstIp : Ip4} {seq : ℕ} {i : Fin maxTcpConns}
    (hen : st.globals.proxyEnabled = true) (hf : TcpFrame buf b14 b12 flags srcPort dstPort dstIp seq)
    (hsize : buf.length < 2 ^ 64) (hsyn : flags &&& 0x02 = 0) (hfin : flags &&& 0x01 = 0)
    (hfound : findTcpConn st srcPort dstIp dstPort = some i) (hest : (st.tcpConns.get i).state = 2)
    (hdata : payloadOffset b14 b12 ≤ 14 + ipTotalLength buf) (hpad : 14 + ipTotalLength buf ≤ buf.length)
    (hsome : payloadOffset b14 b12 < buf.length) :
    ∃ frame, handleTcpPacket st env buf =
        some (true,
          { st with
            tcpConns := st.tcpConns.set i
              { st.tcpConns.get i with
                ackOut := (seq + (segmentData buf b14 b12 ++ ethernetPadding buf).length) % 2 ^ 32 } },
          [Effect.tcpSend i (segmentData buf b14 b12 ++ ethernetPadding buf), Effect.toGuest frame]) ∧
      WellFormedIp frame ∧
      window frame 42 4 = be32 ((seq + (segmentData buf b14 b12 ++ ethernetPadding buf).length) % 2 ^ 32) := by
  have hlen := payloadLength_eq hsome.le hsize
  have hsent := window_payload_eq hdata hpad
  have hcount : (segmentData buf b14 b12 ++ ethernetPadding buf).length = buf.length - payloadOffset b14 b12 := by
    rw [← hsent, length_window (by omega)]
  obtain ⟨frame, hseg, hwf, hack⟩ :=
    @tcpSegment_established st env buf i flags seq (payloadOffset b14 b12) (buf.length - payloadOffset b14 b12)
      hest hfin (by omega) (by omega)
  rw [hsent] at hseg
  rw [hcount]
  refine ⟨frame, ?_, hwf, hack⟩
  rw [handleTcpPacket_of_tcpFrame hen hf, if_neg (not_not.2 hsyn), hfound]
  exact hlen ▸ hseg

/-- a connection of the Xbox at 192.168.1.3:49152 to 93.184.216.34:80, established, with 1000 bytes taken -/
def webConn : TcpConn where
  active := true
  xboxIp := ftpGlobals.dhcpClientIp
  xboxPort := 49152
  remoteIp := ⟨[93, 184, 216, 34], rfl⟩
  remotePort := 80
  seqOut := 5001
  ackOut := 1001
  seqIn := 1001
  state := 2

/-- a slot no connection uses -/
def closedTcpConn : TcpConn where
  active := false
  xboxIp := ⟨[0, 0, 0, 0], rfl⟩
  xboxPort := 0
  remoteIp := ⟨[0, 0, 0, 0], rfl⟩
  remotePort := 0
  seqOut := 0
  ackOut := 0
  seqIn := 0
  state := 0

/-- a slot no UDP connection uses -/
def closedUdpConn : UdpConn where
  active := false
  xboxIp := ⟨[0, 0, 0, 0], rfl⟩
  xboxPort := 0
  remoteIp := ⟨[0, 0, 0, 0], rfl⟩
  remotePort := 0
  lastUsed := 0

/-- a slot no inbound connection uses -/
def closedInboundConn : InboundConn where
  active := false
  listenFd := 0
  clientFd := 0
  clientIp := ⟨[0, 0, 0, 0], rfl⟩
  clientPort := 0
  xboxPort := 0
  state := 0
  seqToXbox := 0
  seqToClient := 0

/-- the first slot of the TCP table -/
def webSlot : Fin maxTcpConns := ⟨0, by decide⟩

/-- the proxy with `webConn` in the first slot and nothing else open -/
def webProxy : ProxyState where
  globals := ftpGlobals
  tcpConns := (List.Vector.replicate maxTcpConns closedTcpConn).set webSlot webConn
  udpConns := List.Vector.replicate maxUdpConns closedUdpConn
  inboundConns := List.Vector.replicate maxInboundConns closedInboundConn

/-- a host whose sockets open and whose network auto-detection finds nothing -/
def quietHost : HostEnv where
  now := 0
  ipId := (0, 0)
  rand := 7
  socketOk := true
  detected := none

/-- the Xbox's bare ACK of byte 5001 on `webConn`, a 54-byte frame padded with zeros to the 60-byte Ethernet
minimum -/
def paddedAck : List UInt8 :=
  [0x00, 0x50, 0x56, 0xC0, 0x00, 0x01, 0x00, 0x50, 0xF2, 0x12, 0x34, 0x56, 0x08, 0x00,
    0x45, 0x00, 0x00, 0x28, 0x00, 0x00, 0x40, 0x00, 0x40, 0x06, 0x00, 0x00, 192, 168, 1, 3, 93, 184, 216, 34,
    0xC0, 0x00, 0x00, 0x50, 0x00, 0x00, 0x03, 0xE9, 0x00, 0x00, 0x13, 0x89, 0x50, 0x10, 0xFF, 0xFF, 0x00, 0x00,
    0x00, 0x00] ++ List.replicate 6 0

/-- the padded bare ACK carries no data, and the proxy sends its six bytes of padding to the web server -/
theorem paddedAck_relays_padding :
    segmentData paddedAck 0x45 0x50 = [] ∧ ethernetPadding paddedAck = [0, 0, 0, 0, 0, 0] ∧
      ∃ frame, handleTcpPacket webProxy quietHost paddedAck =
          some (true,
            { webProxy with
              tcpConns := webProxy.tcpConns.set webSlot
                { webProxy.tcpConns.get webSlot with
                  ackOut := (1001 + (segmentData paddedAck 0x45 0x50 ++ ethernetPadding paddedAck).length) %
                    2 ^ 32 } },
            [Effect.tcpSend webSlot (segmentData paddedAck 0x45 0x50 ++ ethernetPadding paddedAck),
              Effect.toGuest frame]) ∧
        WellFormedIp frame ∧
        window frame 42 4 =
          be32 ((1001 + (segmentData paddedAck 0x45 0x50 ++ ethernetPadding paddedAck).length) % 2 ^ 32) :=
  ⟨by decide, by decide,
    @padded_segment_relays_padding webProxy quietHost paddedAck 0x45 0x50 0x10 49152 80 ⟨[93, 184, 216, 34], rfl⟩
      1001 webSlot rfl ⟨by decide, by decide, by decide, by decide, by decide, by decide, by decide, by decide,
        by decide, by decide⟩
      (by decide) (by decide) (by decide) (by decide) rfl (by decide) (by decide) (by decide)⟩

/-- a segment the connection has already taken is sent to the server a second time: the relay sends what a
segment carries whatever its sequence number -/
theorem tcpSegment_repeated {st : ProxyState} {env : HostEnv} {buf : List UInt8} {i : Fin maxTcpConns}
    {flags : UInt8} {seq off len : ℕ} (hest : (st.tcpConns.get i).state = 2) (hfin : flags &&& 0x01 = 0)
    (hpos : 0 < len) (hfit : off + len ≤ buf.length) :
    ∃ st₁ st₂ frame₁ frame₂, tcpSegment st env buf i flags seq off len =
        some (true, st₁, [Effect.tcpSend i (window buf off len), Effect.toGuest frame₁]) ∧
      tcpSegment st₁ env buf i flags seq off len =
        some (true, st₂, [Effect.tcpSend i (window buf off len), Effect.toGuest frame₂]) := by
  obtain ⟨frame₁, hfirst, -, -⟩ := @tcpSegment_established st env buf i flags seq off len hest hfin hpos hfit
  -- the first copy only moves `ack_out`: the connection stays established
  have hest₁ : ((st.tcpConns.set i { st.tcpConns.get i with ackOut := (seq + len) % 2 ^ 32 }).get i).state = 2 := by
    rw [List.Vector.get_set_same]
    exact hest
  obtain ⟨frame₂, hsecond, -, -⟩ :=
    @tcpSegment_established { st with tcpConns := st.tcpConns.set i _ } env buf i flags seq off len hest₁ hfin hpos
      hfit
  exact ⟨_, _, frame₁, frame₂, hfirst, hsecond⟩

/-! ## Where the parsers read -/

/-- a frame of 54 to 281 bytes carrying TCP over IPv4, whose IHL puts the TCP flags byte past its end, passes
handle_arp_packet and handle_dhcp_packet, and handle_inbound_tcp_response then reads past the end of the frame,
in every proxy state -/
theorem tcp_header_read_past_frame {st : ProxyState} {env : HostEnv} {buf : List UInt8} {b14 : UInt8}
    (hlen : 54 ≤ buf.length) (hshort : buf.length < 282) (heth : read16 buf 12 = some 0x0800)
    (hproto : byteAt buf 23 = some 6) (hihl : byteAt buf 14 = some b14)
    (hpast : buf.length ≤ 14 + ipHeaderLength b14 + 13) : sendPacket st env buf = none := by
  have harp : handleArpPacket st buf = some (false, st, []) := handleArpPacket_of_ethertype heth (by decide)
  have hdhcp : handleDhcpPacket st env buf = some (false, st, []) := handleDhcpPacket_of_short hshort
  have hinbound : handleInboundTcpResponse st buf = none :=
    handleInboundTcpResponse_eq_none hlen heth hproto hihl hpast
  unfold sendPacket
  simp only [harp, hdhcp, hinbound, Option.bind_eq_bind, Option.bind_some, Option.bind_none, Bool.false_eq_true,
    if_false]

/-- a 54-byte IPv4 frame carrying TCP whose IHL is 15: its TCP header would start at byte 74 -/
def longIhlFrame : List UInt8 :=
  List.replicate 12 0 ++ [0x08, 0x00, 0x4F] ++ List.replicate 8 0 ++ [6] ++ List.replicate 30 0

theorem longIhlFrame_read_past_frame : sendPacket webProxy quietHost longIhlFrame = none :=
  @tcp_header_read_past_frame webProxy quietHost longIhlFrame 0x4F (by decide) (by decide) (by decide) (by decide)
    (by decide) (by decide)

end Xemu.Nvnet
