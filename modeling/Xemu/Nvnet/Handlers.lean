import Mathlib
import Xemu.Nvnet.Builders
/-!
# The proxy's frame handlers

send_packet (hw/xbox/mcpx/nvnet/nvnet.c) hands every frame the guest transmits to the proxy's handlers in turn:
handle_arp_packet, handle_dhcp_packet, handle_inbound_tcp_response, handle_udp_packet and handle_tcp_packet, the
first that returns 1 taking it. A frame is the `size` bytes `buf[0..size)`, so that a read past its end is `none`
here. What the handlers do to the host's sockets and to the guest comes out as `Effect`s; what the host answers
(the time, `rand()`, whether `socket()` succeeds, what the network auto-detection finds) comes in as a `HostEnv`.
proxy_poll_rx, which send_packet runs first, reads the sockets and not the frame; its frames are the builders of
`Builders`.
-/

namespace Xemu.Nvnet

open Bounded

/-- `MAX_TCP_CONNS` -/
def maxTcpConns : ℕ := 64

/-- `MAX_UDP_CONNS` -/
def maxUdpConns : ℕ := 32

/-- `MAX_INBOUND_CONNS` -/
def maxInboundConns : ℕ := 8

/-- the proxy's globals and its three connection tables -/
structure ProxyState where
  globals : ProxyGlobals
  tcpConns : List.Vector TcpConn maxTcpConns
  udpConns : List.Vector UdpConn maxUdpConns
  inboundConns : List.Vector InboundConn maxInboundConns

/-- what the host answers a handler: `time(NULL)`, the `rand()` bytes of an IP identification and a `rand()`
initial sequence number, whether `socket()` succeeds, and the client, server and gateway addresses the
auto-detection of handle_dhcp_packet finds (`none` when it finds no client address or no gateway) -/
structure HostEnv where
  now : ℤ
  ipId : UInt8 × UInt8
  rand : ℕ
  socketOk : Bool
  detected : Option (Ip4 × Ip4 × Ip4)

/-- what a handler does outside the proxy's state -/
inductive Effect where
  /-- `dma_packet_to_guest` -/
  | toGuest (frame : List UInt8)
  /-- `qemu_send_packet` to the network backend -/
  | toNetwork (frame : List UInt8)
  /-- `connect` of the socket of `tcp_conns[idx]` -/
  | tcpConnect (idx : ℕ) (ip : Ip4) (port : ℕ)
  /-- `send` on the socket of `tcp_conns[idx]` -/
  | tcpSend (idx : ℕ) (data : List UInt8)
  /-- `close` of the socket of `tcp_conns[idx]` -/
  | tcpClose (idx : ℕ)
  /-- a new socket for `udp_conns[idx]` -/
  | udpOpen (idx : ℕ)
  /-- `close` of the socket of `udp_conns[idx]` -/
  | udpClose (idx : ℕ)
  /-- `sendto` on the socket of `udp_conns[idx]` -/
  | udpSendto (idx : ℕ) (ip : Ip4) (port : ℕ) (data : List UInt8)
  /-- `send` to the client of `inbound_conns[idx]` -/
  | inboundSend (idx : ℕ) (data : List UInt8)
  /-- `close` of the client socket of `inbound_conns[idx]` -/
  | inboundClose (idx : ℕ)
  deriving DecidableEq

/-- what a handler returns: whether it took the frame (its `return 1`), the proxy's state and the effects;
`none` is a read past the end of the frame -/
abbrev Handled := Bool × ProxyState × List Effect

/-! ## Reading the frame -/

/-- `buf[i]` -/
def byteAt (buf : List UInt8) (i : ℕ) : Option UInt8 := buf[i]?

/-- `(buf[i] << 8) | buf[i + 1]` -/
def read16 (buf : List UInt8) (i : ℕ) : Option ℕ := do
  let hi ← byteAt buf i
  let lo ← byteAt buf (i + 1)
  pure ((hi.toNat <<< 8) ||| lo.toNat)

/-- `memcpy(&x, buf + off, n)` into an address -/
def loadVec (buf : List UInt8) (off n : ℕ) : Option (List.Vector UInt8 n) :=
  if h : off + n ≤ buf.length then some ⟨window buf off n, length_window h⟩ else none

/-- `a - b` in `size_t` -/
def sizeSub (a b : ℕ) : ℕ := (a + (2 ^ 64 - b % 2 ^ 64)) % 2 ^ 64

/-- `size_t` subtraction without wrap-around is subtraction -/
theorem sizeSub_of_le {a b : ℕ} (h : b ≤ a) (ha : a < 2 ^ 64) : sizeSub a b = a - b := by
  unfold sizeSub
  rw [Nat.mod_eq_of_lt (show b < 2 ^ 64 by omega), show a + (2 ^ 64 - b) = a - b + 2 ^ 64 by omega,
    Nat.add_mod_right, Nat.mod_eq_of_lt (by omega)]

/-- the IP header length `(buf[14] & 0x0F) * 4` -/
def ipHeaderLength (b14 : UInt8) : ℕ := (b14.toNat &&& 0x0F) * 4

/-- the TCP header length `((tcp[12] >> 4) & 0x0F) * 4` -/
def tcpHeaderLength (b12 : UInt8) : ℕ := ((b12.toNat >>> 4) &&& 0x0F) * 4

/-! ## handle_arp_packet -/

/-- the writes of the ARP reply: to the requester, from the host MAC, for the address asked about -/
def arpReplyWrites (g : ProxyGlobals) (requester targetIp senderIp : List UInt8) : List (ℕ × List UInt8) :=
  [(0, requester), (6, g.hostMac.toList), (12, [0x08, 0x06]), (14, [0x00, 0x01]), (16, [0x08, 0x00]), (18, [6]),
    (19, [4]), (20, [0x00, 0x02]), (22, g.hostMac.toList), (28, targetIp), (32, requester), (38, senderIp)]

/-- handle_arp_packet: answers an ARP request for any address but the Xbox's own -/
def handleArpPacket (st : ProxyState) (buf : List UInt8) : Option Handled := do
  if st.globals.proxyEnabled = false ∨ buf.length < 42 then return (false, st, [])
  let ethertype ← read16 buf 12
  if ethertype ≠ 0x0806 then return (false, st, [])
  let arpOp ← read16 buf 20
  if arpOp ≠ 1 then return (false, st, [])
  let targetIp ← loadVec buf 38 4
  let requester ← loadVec buf 6 6
  let st := { st with globals := { st.globals with xboxMac := requester } }
  -- a request for the Xbox's own address is Duplicate Address Detection: taken, not answered
  if targetIp = st.globals.dhcpClientIp then return (true, st, [])
  let senderIp ← load buf 28 4
  let reply ← storeAll (zeroed 42) (arpReplyWrites st.globals requester.toList targetIp.toList senderIp)
  pure (true, st, [Effect.toGuest reply])

/-! ## handle_dhcp_packet -/

/-- the option walk of handle_dhcp_packet from byte `pos`: the value of option 53 (the message type), or 0 at
the end option or once the walk reaches the frame's last two bytes; it moves at least one byte a round, so
`fuel` rounds for a frame of `fuel` bytes are enough -/
def dhcpMsgTypeWalk (buf : List UInt8) : ℕ → ℕ → Option ℕ
  | 0, _ => pure 0
  | fuel + 1, pos =>
    if pos + 2 < buf.length then do
      let o0 ← byteAt buf pos
      if o0 = 255 then pure 0
      else if o0 = 0 then dhcpMsgTypeWalk buf fuel (pos + 1)
      else do
        let o1 ← byteAt buf (pos + 1)
        if o0 = 53 ∧ 1 ≤ o1 then (fun t : UInt8 => t.toNat) <$> byteAt buf (pos + 2)
        else dhcpMsgTypeWalk buf fuel (pos + 2 + o1.toNat)
    else pure 0

/-- handle_dhcp_packet: answers a DISCOVER with an OFFER and a REQUEST with an ACK -/
def handleDhcpPacket (st : ProxyState) (env : HostEnv) (buf : List UInt8) : Option Handled := do
  if buf.length < 282 then return (false, st, [])
  let ethertype ← read16 buf 12
  if ethertype ≠ 0x0800 then return (false, st, [])
  let protocol ← byteAt buf 23
  if protocol ≠ 17 then return (false, st, [])
  let dstPort ← read16 buf 36
  if dstPort ≠ dhcpServerPort then return (false, st, [])
  let op ← byteAt buf 42
  if op ≠ 1 then return (false, st, [])
  let msgType ← dhcpMsgTypeWalk buf buf.length 282
  if msgType ≠ dhcpDiscover ∧ msgType ≠ dhcpRequest then return (false, st, [])
  let mac ← loadVec buf 6 6
  let mut st := { st with globals := { st.globals with xboxMac := mac } }
  -- without a configured proxy the addresses come from the host's routes, and the request is dropped when
  -- there are none
  if st.globals.proxyEnabled = false then
    match env.detected with
    | some (client, server, gateway) =>
      st := { st with
        globals := { st.globals with
          dhcpClientIp := client, dhcpServerIp := server, dhcpGateway := gateway, proxyEnabled := true } }
    | none => return (true, st, [])
  let xid ← load buf 46 4
  let reply ← dhcpReply st.globals msgType xid
  pure (true, st, [Effect.toGuest reply])

/-! ## handle_inbound_tcp_response -/

/-- the first inbound connection a segment answers: active with a client, from its Xbox port to its client -/
def findInboundConn (st : ProxyState) (srcPort dstPort : ℕ) (dstIp : Ip4) : Option (Fin maxInboundConns) :=
  (List.finRange maxInboundConns).find? fun i =>
    let conn := st.inboundConns.get i
    decide (conn.active = true ∧ 0 < conn.clientFd ∧ srcPort = conn.xboxPort ∧ dstPort = conn.clientPort ∧
      dstIp = conn.clientIp)

/-- handle_inbound_tcp_response once the segment matched `inbound_conns[i]`: a SYN+ACK while the SYN is out
completes the handshake, data is forwarded to the client, a FIN closes it -/
def inboundResponse (st : ProxyState) (buf : List UInt8) (i : Fin maxInboundConns) (flags : UInt8)
    (tcp payloadOff payloadLen : ℕ) : Option Handled := do
  let conn := st.inboundConns.get i
  let (conn, eff₁) ← if flags &&& 0x12 = 0x12 ∧ conn.state = 1 then do
      let xboxSeq ← ntohl <$> load buf (tcp + 4) 4
      let xboxAck ← ntohl <$> load buf (tcp + 8) 4
      let conn := { conn with state := 2, seqToClient := (xboxSeq + 1) % 2 ^ 32, seqToXbox := xboxAck }
      let frame ← inboundAckFrame st.globals conn
      pure (conn, [Effect.toGuest frame])
    else pure (conn, [])
  let eff₂ ← if flags &&& 0x10 ≠ 0 ∧ 0 < payloadLen then do
      let payload ← load buf payloadOff payloadLen
      pure [Effect.inboundSend i payload]
    else pure []
  let (conn, eff₃) := if flags &&& 0x01 ≠ 0 then ({ conn with clientFd := 0, state := 0 }, [Effect.inboundClose i])
    else (conn, [])
  pure (true, { st with inboundConns := st.inboundConns.set i conn }, eff₁ ++ eff₂ ++ eff₃)

/-- handle_inbound_tcp_response: the guest's segments on the connections the proxy accepted for it -/
def handleInboundTcpResponse (st : ProxyState) (buf : List UInt8) : Option Handled := do
  if buf.length < 54 then return (false, st, [])
  let ethertype ← read16 buf 12
  if ethertype ≠ 0x0800 then return (false, st, [])
  let protocol ← byteAt buf 23
  if protocol ≠ 6 then return (false, st, [])
  let b14 ← byteAt buf 14
  let ihl := ipHeaderLength b14
  let tcp := 14 + ihl
  let srcPort ← read16 buf tcp
  let dstPort ← read16 buf (tcp + 2)
  let flags ← byteAt buf (tcp + 13)
  let b12 ← byteAt buf (tcp + 12)
  let tcpHdrLen := tcpHeaderLength b12
  let dstIp ← loadVec buf 30 4
  match findInboundConn st srcPort dstPort dstIp with
  | none => pure (false, st, [])
  | some i =>
    inboundResponse st buf i flags tcp (tcp + tcpHdrLen) (sizeSub (sizeSub (sizeSub buf.length 14) ihl) tcpHdrLen)

/-! ## handle_udp_packet -/

/-- the loop of find_or_create_udp_conn over the slots `is`: it stops at the connection's slot, refreshing its
time, and on the way closes the expired slots and keeps the first free one -/
def udpConnScan (env : HostEnv) (xboxPort : ℕ) (remoteIp : Ip4) (remotePort : ℕ) :
    List (Fin maxUdpConns) → List.Vector UdpConn maxUdpConns → Option (Fin maxUdpConns) → List Effect →
      List.Vector UdpConn maxUdpConns × Option (Fin maxUdpConns) × Option (Fin maxUdpConns) × List Effect
  | [], conns, free, eff => (conns, none, free, eff)
  | i :: is, conns, free, eff =>
    let c := conns.get i
    if c.active = true ∧ c.xboxPort = xboxPort ∧ c.remoteIp = remoteIp ∧ c.remotePort = remotePort then
      (conns.set i { c with lastUsed := env.now }, some i, free, eff)
    else
      let free := if c.active = false ∧ free = none then some i else free
      if c.active = true ∧ 60 < env.now - c.lastUsed then
        udpConnScan env xboxPort remoteIp remotePort is (conns.set i { c with active := false })
          (if free = none then some i else free) (eff ++ [Effect.udpClose i])
      else udpConnScan env xboxPort remoteIp remotePort is conns free eff

/-- find_or_create_udp_conn: the slot of the connection, or a new one in the first free slot -/
def findOrCreateUdpConn (st : ProxyState) (env : HostEnv) (xboxPort : ℕ) (remoteIp : Ip4) (remotePort : ℕ) :
    ProxyState × Option (Fin maxUdpConns) × List Effect :=
  let (conns, found, free, eff) :=
    udpConnScan env xboxPort remoteIp remotePort (List.finRange maxUdpConns) st.udpConns none []
  let st := { st with udpConns := conns }
  match found, free with
  | some i, _ => (st, some i, eff)
  | none, none => (st, none, eff)
  | none, some i =>
    if env.socketOk then
      let conn : UdpConn :=
        { active := true, xboxIp := st.globals.dhcpClientIp, xboxPort, remoteIp, remotePort, lastUsed := env.now }
      ({ st with udpConns := conns.set i conn }, some i, eff ++ [Effect.udpOpen i])
    else (st, none, eff)

/-- handle_udp_packet: relays a datagram, DHCP apart, to its destination -/
def handleUdpPacket (st : ProxyState) (env : HostEnv) (buf : List UInt8) : Option Handled := do
  if st.globals.proxyEnabled = false ∨ buf.length < 42 then return (false, st, [])
  let ethertype ← read16 buf 12
  if ethertype ≠ 0x0800 then return (false, st, [])
  let protocol ← byteAt buf 23
  if protocol ≠ 17 then return (false, st, [])
  let dstPort ← read16 buf 36
  if dstPort = dhcpServerPort then return (false, st, [])
  let srcPort ← read16 buf 34
  let dstIp ← loadVec buf 30 4
  let udpLenField ← read16 buf 38
  -- `((buf[38] << 8) | buf[39]) - 8` is an `int`, stored in a `size_t`
  let udpLen := sizeSub udpLenField 8
  let (st, idx, eff) := findOrCreateUdpConn st env srcPort dstIp dstPort
  match idx with
  | none => pure (false, st, eff)
  | some i =>
    let payload ← load buf 42 udpLen
    pure (true, st, eff ++ [Effect.udpSendto i dstIp dstPort payload])

/-! ## handle_tcp_packet -/

/-- find_tcp_conn -/
def findTcpConn (st : ProxyState) (xboxPort : ℕ) (remoteIp : Ip4) (remotePort : ℕ) : Option (Fin maxTcpConns) :=
  (List.finRange maxTcpConns).find? fun i =>
    let c := st.tcpConns.get i
    decide (c.active = true ∧ c.xboxPort = xboxPort ∧ c.remoteIp = remoteIp ∧ c.remotePort = remotePort)

/-- the SYN branch of handle_tcp_packet: a connection with the same ports is reset, the first free slot gets a
new one, and the SYN+ACK goes to the guest at once -/
def tcpSyn (st : ProxyState) (env : HostEnv) (srcPort dstPort : ℕ) (dstIp : Ip4) (seq : ℕ)
    (found : Option (Fin maxTcpConns)) : Option Handled := do
  let (st, eff) := match found with
    | some i => ({ st with tcpConns := st.tcpConns.set i { st.tcpConns.get i with active := false } },
        [Effect.tcpClose i])
    | none => (st, [])
  match (List.finRange maxTcpConns).find? (fun i => !(st.tcpConns.get i).active) with
  | none => pure (false, st, eff)
  | some i =>
    if env.socketOk = false then return (false, st, eff)
    let conn : TcpConn :=
      { active := true, xboxIp := st.globals.dhcpClientIp, xboxPort := srcPort, remoteIp := dstIp
        remotePort := dstPort, seqOut := env.rand % 2 ^ 32, ackOut := (seq + 1) % 2 ^ 32
        seqIn := (seq + 1) % 2 ^ 32, state := 1 }
    let (conn, frame) ← sendTcpToXbox st.globals conn 0x12 [] env.ipId
    pure (true, { st with tcpConns := st.tcpConns.set i conn },
      eff ++ [Effect.tcpConnect i dstIp dstPort, Effect.toGuest frame])

/-- handle_tcp_packet on a segment, not a SYN, of the connection in slot `i`: an ACK establishes it, data on an
established connection is sent on and acknowledged, a FIN closes it -/
def tcpSegment (st : ProxyState) (env : HostEnv) (buf : List UInt8) (i : Fin maxTcpConns) (flags : UInt8)
    (seq payloadOff payloadLen : ℕ) : Option Handled := do
  let conn := st.tcpConns.get i
  let conn := if flags &&& 0x10 ≠ 0 ∧ conn.state = 1 then { conn with state := 2 } else conn
  let (conn, eff₁) ← if 0 < payloadLen ∧ conn.state = 2 then do
      let payload ← load buf payloadOff payloadLen
      let (conn, frame) ← sendTcpToXbox st.globals { conn with ackOut := (seq + payloadLen) % 2 ^ 32 } 0x10 []
        env.ipId
      pure (conn, [Effect.tcpSend i payload, Effect.toGuest frame])
    else pure (conn, [])
  let (conn, eff₂) ← if flags &&& 0x01 ≠ 0 then do
      let (conn, frame) ← sendTcpToXbox st.globals { conn with ackOut := (seq + 1) % 2 ^ 32 } 0x11 [] env.ipId
      pure ({ conn with active := false }, [Effect.toGuest frame, Effect.tcpClose i])
    else pure (conn, [])
  pure (true, { st with tcpConns := st.tcpConns.set i conn }, eff₁ ++ eff₂)

/-- handle_tcp_packet: the guest's TCP segments to the outside -/
def handleTcpPacket (st : ProxyState) (env : HostEnv) (buf : List UInt8) : Option Handled := do
  if st.globals.proxyEnabled = false ∨ buf.length < 54 then return (false, st, [])
  let ethertype ← read16 buf 12
  if ethertype ≠ 0x0800 then return (false, st, [])
  let protocol ← byteAt buf 23
  if protocol ≠ 6 then return (false, st, [])
  let b14 ← byteAt buf 14
  let ihl := ipHeaderLength b14
  let tcp := 14 + ihl
  let srcPort ← read16 buf tcp
  let dstPort ← read16 buf (tcp + 2)
  let seq ← ntohl <$> load buf (tcp + 4) 4
  let flags ← byteAt buf (tcp + 13)
  let b12 ← byteAt buf (tcp + 12)
  let tcpHdrLen := tcpHeaderLength b12
  let dstIp ← loadVec buf 30 4
  let payloadLen := sizeSub (sizeSub (sizeSub buf.length 14) ihl) tcpHdrLen
  let found := findTcpConn st srcPort dstIp dstPort
  if flags &&& 0x02 ≠ 0 then tcpSyn st env srcPort dstPort dstIp seq found
  else match found with
    | none => pure (false, st, [])
    | some i => tcpSegment st env buf i flags seq (tcp + tcpHdrLen) payloadLen

/-! ## send_packet -/

/-- send_packet once proxy_poll_rx is done: the handlers in turn, and the network backend when none took the
frame and the proxy is off -/
def sendPacket (st : ProxyState) (env : HostEnv) (buf : List UInt8) : Option (ProxyState × List Effect) := do
  let (done, st, e₁) ← handleArpPacket st buf
  if done then return (st, e₁)
  let (done, st, e₂) ← handleDhcpPacket st env buf
  if done then return (st, e₁ ++ e₂)
  let (done, st, e₃) ← handleInboundTcpResponse st buf
  if done then return (st, e₁ ++ e₂ ++ e₃)
  let (done, st, e₄) ← handleUdpPacket st env buf
  if done then return (st, e₁ ++ e₂ ++ e₃ ++ e₄)
  let (done, st, e₅) ← handleTcpPacket st env buf
  if done ∨ st.globals.proxyEnabled = true then return (st, e₁ ++ e₂ ++ e₃ ++ e₄ ++ e₅)
  pure (st, e₁ ++ e₂ ++ e₃ ++ e₄ ++ e₅ ++ [Effect.toNetwork buf])

/-! ## The handlers on a frame they do not take -/

theorem byteAt_eq_none {buf : List UInt8} {i : ℕ} (h : buf.length ≤ i) : byteAt buf i = none :=
  List.getElem?_eq_none h

/-- handle_arp_packet passes on every frame that is not ARP -/
theorem handleArpPacket_of_ethertype {st : ProxyState} {buf : List UInt8} {ethertype : ℕ}
    (heth : read16 buf 12 = some ethertype) (hne : ethertype ≠ 0x0806) : handleArpPacket st buf = some (false, st, []) := by
  unfold handleArpPacket
  split_ifs with hshort
  · rfl
  · simp only [heth, Option.bind_eq_bind, Option.bind_some, if_pos hne]
    rfl

/-- handle_dhcp_packet passes on every frame shorter than 282 bytes -/
theorem handleDhcpPacket_of_short {st : ProxyState} {env : HostEnv} {buf : List UInt8} (h : buf.length < 282) :
    handleDhcpPacket st env buf = some (false, st, []) := by
  unfold handleDhcpPacket
  rw [if_pos h]
  rfl

/-- handle_inbound_tcp_response reads the TCP header where the IHL puts it, whatever the frame's size: when the
flags byte lies past the frame's end, so does the read -/
theorem handleInboundTcpResponse_eq_none {st : ProxyState} {buf : List UInt8} {b14 : UInt8}
    (hlen : 54 ≤ buf.length) (heth : read16 buf 12 = some 0x0800) (hproto : byteAt buf 23 = some 6)
    (hihl : byteAt buf 14 = some b14) (hpast : buf.length ≤ 14 + ipHeaderLength b14 + 13) :
    handleInboundTcpResponse st buf = none := by
  have hflags : byteAt buf (14 + ipHeaderLength b14 + 13) = none := byteAt_eq_none hpast
  unfold handleInboundTcpResponse
  rw [if_neg (by omega)]
  simp only [heth, hproto, hihl, hflags, Option.bind_eq_bind, Option.bind_some, Option.bind_none,
    Option.bind_fun_none, ne_eq, not_true_eq_false, if_false]

/-! ## handle_tcp_packet on a frame that parses -/

/-- an IPv4 frame carrying TCP, at least 54 bytes long, whose TCP header lies where the IHL byte `b14` puts it
and reads as these fields -/
structure TcpFrame (buf : List UInt8) (b14 b12 flags : UInt8) (srcPort dstPort : ℕ) (dstIp : Ip4) (seq : ℕ) :
    Prop where
  min : 54 ≤ buf.length
  eth : read16 buf 12 = some 0x0800
  proto : byteAt buf 23 = some 6
  ihl : byteAt buf 14 = some b14
  src : read16 buf (14 + ipHeaderLength b14) = some srcPort
  dst : read16 buf (14 + ipHeaderLength b14 + 2) = some dstPort
  seq : ntohl <$> load buf (14 + ipHeaderLength b14 + 4) 4 = some seq
  flags : byteAt buf (14 + ipHeaderLength b14 + 13) = some flags
  dataOff : byteAt buf (14 + ipHeaderLength b14 + 12) = some b12
  dstIp : loadVec buf 30 4 = some dstIp

/-- on a frame that parses, handle_tcp_packet takes the SYN branch or the connection's segment branch -/
theorem handleTcpPacket_of_tcpFrame {st : ProxyState} {env : HostEnv} {buf : List UInt8}
    {b14 b12 flags : UInt8} {srcPort dstPort : ℕ} {dstIp : Ip4} {seq : ℕ} (hen : st.globals.proxyEnabled = true)
    (hf : TcpFrame buf b14 b12 flags srcPort dstPort dstIp seq) :
    handleTcpPacket st env buf =
      if flags &&& 0x02 ≠ 0 then tcpSyn st env srcPort dstPort dstIp seq (findTcpConn st srcPort dstIp dstPort)
      else match findTcpConn st srcPort dstIp dstPort with
        | none => pure (false, st, [])
        | some i => tcpSegment st env buf i flags seq (14 + ipHeaderLength b14 + tcpHeaderLength b12)
            (sizeSub (sizeSub (sizeSub buf.length 14) (ipHeaderLength b14)) (tcpHeaderLength b12)) := by
  have hmin := hf.min
  unfold handleTcpPacket
  rw [if_neg (by simp only [hen, Bool.true_eq_false, false_or, Nat.not_lt]; exact hmin)]
  simp only [hf.eth, hf.proto, hf.ihl, hf.src, hf.dst, hf.seq, hf.flags, hf.dataOff, hf.dstIp,
    Option.bind_eq_bind, Option.bind_some, ne_eq, not_true_eq_false, if_false]

/-- a segment with only the ACK flag leaves `seq_out` alone -/
theorem advanceSeqOut_ack (seqOut : ℕ) : advanceSeqOut seqOut 0x10 0 = seqOut := by
  have hsyn : (0x10 : UInt8) &&& 0x02 = 0 := by decide
  have hfin : (0x10 : UInt8) &&& 0x01 = 0 := by decide
  simp [advanceSeqOut, hsyn, hfin]

/-- on an established connection a segment with data and no FIN is sent on whole, and acknowledged to the guest
with a well-formed frame whose acknowledgement number is its sequence number plus its length -/
theorem tcpSegment_established {st : ProxyState} {env : HostEnv} {buf : List UInt8} {i : Fin maxTcpConns}
    {flags : UInt8} {seq off len : ℕ} (hest : (st.tcpConns.get i).state = 2) (hfin : flags &&& 0x01 = 0)
    (hpos : 0 < len) (hfit : off + len ≤ buf.length) :
    ∃ frame, tcpSegment st env buf i flags seq off len =
        some (true,
          { st with tcpConns := st.tcpConns.set i { st.tcpConns.get i with ackOut := (seq + len) % 2 ^ 32 } },
          [Effect.tcpSend i (window buf off len), Effect.toGuest frame]) ∧
      WellFormedIp frame ∧ window frame 42 4 = be32 ((seq + len) % 2 ^ 32) := by
  obtain ⟨frame, hsend, hwf, -, -, hack, -, -⟩ :=
    sendTcpToXbox_spec st.globals { st.tcpConns.get i with ackOut := (seq + len) % 2 ^ 32 } 0x10 [] env.ipId
      (by simp)
  refine ⟨frame, ?_, hwf, hack⟩
  have hload : load buf off len = some (window buf off len) := load_eq_some hfit
  simp only [List.length_nil, advanceSeqOut_ack] at hsend
  -- the connection is past the handshake, carries data and is not closing
  have hstate : ¬(flags &&& 0x10 ≠ 0 ∧ (st.tcpConns.get i).state = 1) := fun h => by
    rw [hest] at h
    exact absurd h.2 (by decide)
  have hdata : 0 < len ∧ (st.tcpConns.get i).state = 2 := ⟨hpos, hest⟩
  have hnofin : ¬(flags &&& 0x01 ≠ 0) := fun h => h hfin
  unfold tcpSegment
  simp only [if_neg hstate, if_pos hdata, if_neg hnofin, hload, hsend, Option.bind_eq_bind, Option.bind_some]
  rfl

end Xemu.Nvnet
