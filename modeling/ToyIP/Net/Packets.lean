import ToyIP.Net.Headers
import ToyIP.Tcp.Sides
import ToyIP.Tcp.Effects

/-! # Network: packets that are sent and received

`tcp_transmit_skb`, `udp_send`, `icmpv4_reply`, `icmpv4_timestamp`, `ip_output` and
`netdev_transmit` on the memory of a buffer, and `netdev_receive`, `ip_rcv`, `tcp_init_segment` and
`udp_init_segment` on the memory a frame was read into. The headers are reached by their offsets
from `head`, the text by `data`. -/

namespace ToyIP.Net.Packets

open ToyIP.Lib.Bytes ToyIP.Net.Checksum ToyIP.Net.Headers ToyIP.Tcp.Types ToyIP.Tcp.Effects

/-! ### Headers in a buffer -/

/-- `ip_hdr`: the header behind the Ethernet header. -/
def ipHdr (mem : List UInt8) : Iphdr := Iphdr.read (slice mem 14 20)

def putIpHdr (mem : List UInt8) (h : Iphdr) : List UInt8 := splice mem 14 h.bytes

/-- `tcp_hdr`: the header behind an IP header without options. -/
def tcpHdr (mem : List UInt8) : Tcphdr := Tcphdr.read (slice mem 34 20)

def putTcpHdr (mem : List UInt8) (h : Tcphdr) : List UInt8 := splice mem 34 h.bytes

/-- `udp_hdr`. -/
def udpHdr (mem : List UInt8) : Udphdr := Udphdr.read (slice mem 34 8)

def putUdpHdr (mem : List UInt8) (h : Udphdr) : List UInt8 := splice mem 34 h.bytes

/-! ### Sending -/

/-- `ip_output`, with the address `dev` of the device of the route. -/
def ipOutput (dev daddr : UInt32) (skb : SkBuff) : SkBuff :=
  let skb := skbPush skb 20
  let ih := { ipHdr skb.mem with
    version := 4, ihl := 5, tos := 0, len := skb.len.toUInt16, flags := 0, fragOffset := 0, ttl := 64
    proto := skb.protocol.toUInt8, saddr := dev, daddr := daddr, csum := 0 }
  let ih := { ih with
    len := htons ih.len, id := htons ih.id, daddr := htonl ih.daddr, saddr := htonl ih.saddr
    csum := htons ih.csum }
  let mem := putIpHdr skb.mem ih
  let ih := { ih with csum := checksum (slice mem 14 (4 * ih.ihl.toNat)) 0 }
  { skb with mem := putIpHdr mem ih }

/-- `netdev_transmit`: the Ethernet header is written at `data`. -/
def netdevTransmit (dstHw hwaddr : Vector UInt8 6) (skb : SkBuff) : SkBuff :=
  let skb := skbPush skb 14
  { skb with mem := splice skb.mem skb.data (EthHdr.bytes ⟨dstHw, hwaddr, htons 0x0800⟩) }

/-- What `tun_write` is given. -/
def frame (skb : SkBuff) : List UInt8 := slice skb.mem skb.data skb.len.toNat

/-- `tcp_alloc_skb`. -/
def tcpAllocSkb (optlen size : ℕ) : SkBuff :=
  { skbReserve (allocSkb (54 + optlen + size)) (54 + optlen + size) with
    protocol := 6, dlen := UInt32.ofNat size }

/-- `tcp_write_options`. -/
def tcpWriteOptions (skb : SkBuff) (mss : UInt16) (optlen : ℕ) : SkBuff :=
  let mem := splice skb.mem 54 (2 :: 4 :: le16 (htons mss))
  { skb with mem := putTcpHdr mem { tcpHdr mem with hl := BitVec.ofNat 4 (5 + optlen / 4) } }

/-- `tcp_transmit_skb`. -/
def tcpTransmitSkb (dev : UInt32) (sk : TcpSock) (skb : SkBuff) (seq : UInt32) : SkBuff :=
  let th := tcpHdr skb.mem
  let th := { th with hl := if th.hl = 0 then 5 else th.hl }
  let skb := skbPush skb (4 * th.hl.toNat)
  let th := { th with
    sport := sk.sport, dport := sk.dport, seq := seq, ackSeq := sk.rcvNxt
    win := sk.rcvWnd.toUInt16, csum := 0, urp := 0, rsvd := 0 }
  let th := { th with
    sport := htons th.sport, dport := htons th.dport, seq := htonl th.seq
    ackSeq := htonl th.ackSeq, win := htons th.win, csum := htons th.csum, urp := htons th.urp }
  let mem := putTcpHdr skb.mem th
  let th := { th with
    csum := tcpUdpChecksum (htonl sk.saddr) (htonl sk.daddr) 6 (mem.drop skb.data)
      skb.len.toUInt16 }
  ipOutput dev sk.daddr { skb with mem := putTcpHdr mem th }

/-- What `tcp_transmit_skb` hands to `ip_output`. -/
def tcpFill (sk : TcpSock) (skb : SkBuff) (seq : UInt32) : SkBuff :=
  let th := tcpHdr skb.mem
  let th := { th with hl := if th.hl = 0 then 5 else th.hl }
  let skb := skbPush skb (4 * th.hl.toNat)
  let th := { th with
    sport := sk.sport, dport := sk.dport, seq := seq, ackSeq := sk.rcvNxt
    win := sk.rcvWnd.toUInt16, csum := 0, urp := 0, rsvd := 0 }
  let th := { th with
    sport := htons th.sport, dport := htons th.dport, seq := htonl th.seq
    ackSeq := htonl th.ackSeq, win := htons th.win, csum := htons th.csum, urp := htons th.urp }
  let mem := putTcpHdr skb.mem th
  let th := { th with
    csum := tcpUdpChecksum (htonl sk.saddr) (htonl sk.daddr) 6 (mem.drop skb.data)
      skb.len.toUInt16 }
  { skb with mem := putTcpHdr mem th }

theorem tcpTransmitSkb_fill (dev : UInt32) (sk : TcpSock) (skb : SkBuff) (seq : UInt32) :
    tcpTransmitSkb dev sk skb seq = ipOutput dev sk.daddr (tcpFill sk skb seq) := rfl

/-- The addresses and ports of a `struct sock`. -/
structure Endpoints where
  saddr : UInt32
  daddr : UInt32
  sport : UInt16
  dport : UInt16
  deriving DecidableEq, Repr

/-- `udp_alloc_skb`. -/
def udpAllocSkb (size : ℕ) : SkBuff :=
  { skbReserve (allocSkb (42 + size)) (42 + size) with protocol := 17, dlen := UInt32.ofNat size }

/-- `udp_send`. -/
def udpSend (dev : UInt32) (sk : Endpoints) (buf : List UInt8) : SkBuff :=
  let skb := skbPush (udpAllocSkb buf.length) buf.length
  let skb := skbPush { skb with mem := splice skb.mem skb.data buf } 8
  let uh := { udpHdr skb.mem with sport := sk.sport, dport := sk.dport, len := skb.len.toUInt16 }
  let uh := { uh with sport := htons uh.sport, dport := htons uh.dport, len := htons uh.len }
  let mem := putUdpHdr skb.mem uh
  let uh := { uh with
    csum := tcpUdpChecksum (htonl sk.saddr) (htonl sk.daddr) 17 (mem.drop skb.data)
      skb.len.toUInt16 }
  ipOutput dev sk.daddr { skb with mem := putUdpHdr mem uh }

/-- `icmp_len`: the length of the message by the IP header of the request, a `uint16_t`. -/
def icmpLen (mem : List UInt8) : ℕ :=
  ((ipHdr mem).len.toNat + 65536 - 4 * (ipHdr mem).ihl.toNat) % 65536

/-- The end of `icmpv4_reply` and `icmpv4_timestamp`: the checksum is computed over `icmp_len` bytes
with its field zeroed, and the message goes back to where the request came from. -/
def icmpSend (dev : UInt32) (skb : SkBuff) (icmpLen : ℕ) : SkBuff :=
  let mem := splice skb.mem (skb.data + 2) (le16 0)
  let mem := splice mem (skb.data + 2) (le16 (checksum (slice mem skb.data icmpLen) 0))
  ipOutput dev (ipHdr skb.mem).saddr { skb with mem := mem, protocol := 1 }

/-- `icmpv4_reply`: the request is answered in its own buffer. -/
def icmpv4Reply (dev : UInt32) (skb : SkBuff) : SkBuff :=
  let icmpLen := icmpLen skb.mem
  let skb := skbPush (skbReserve skb (34 + icmpLen)) icmpLen
  icmpSend dev { skb with mem := splice skb.mem skb.data [0] } icmpLen

/-- `icmpv4_timestamp`, at the time `ts_recv`. -/
def icmpv4Timestamp (dev tsRecv : UInt32) (skb : SkBuff) : SkBuff :=
  let icmpLen := icmpLen skb.mem
  let skb := skbPush (skbReserve skb (34 + icmpLen)) icmpLen
  let mem := splice skb.mem skb.data [14]
  let mem := splice mem (skb.data + 12) (le32 (htonl tsRecv))
  let mem := splice mem (skb.data + 8) (le32 (htonl tsRecv))
  icmpSend dev { skb with mem := mem } icmpLen

/-! ### Receiving -/

/-- A datagram that `udp_in` puts on a receive queue. -/
structure Datagram where
  saddr : UInt32
  daddr : UInt32
  sport : UInt16
  dport : UInt16
  dlen : UInt32
  payload : List UInt8
  deriving DecidableEq, Repr

/-- What `ip_rcv` hands on. -/
inductive Packet
  | icmp (mem : List UInt8)
  | tcp (seg : Seg)
  | udp (d : Datagram)
  deriving DecidableEq, Repr

/-- `ip_init_pkt`. -/
def ipInitPkt (mem : List UInt8) : List UInt8 :=
  let ih := ipHdr mem
  putIpHdr mem { ih with
    saddr := htonl ih.saddr, daddr := htonl ih.daddr, len := htons ih.len, id := htons ih.id }

/-- `tcp_init_segment`: the header in host order, and the text from `th->data` on. The text of a
segment with options would start behind them; `opts` are the bytes in between. -/
def tcpInitSegment (mem : List UInt8) : Seg :=
  let ih := ipHdr mem
  let th := tcpHdr mem
  let dlen := ih.len.toUInt32 - UInt32.ofNat (4 * ih.ihl.toNat) - UInt32.ofNat (4 * th.hl.toNat)
  { saddr := ih.saddr
    daddr := ih.daddr
    th :=
      { sport := htons th.sport, dport := htons th.dport, seq := htonl th.seq
        ackSeq := htonl th.ackSeq, hl := UInt8.ofNat th.hl.toNat, fin := th.fin, syn := th.syn
        rst := th.rst, psh := th.psh, ack := th.ack, urg := th.urg, ece := th.ece, cwr := th.cwr
        win := htons th.win, opts := slice mem 54 (4 * th.hl.toNat - 20) }
    dlen := dlen
    payload := slice mem 54 dlen.toNat }

/-- `udp_init_segment`. -/
def udpInitSegment (mem : List UInt8) : Datagram :=
  let ih := ipHdr mem
  let uh := udpHdr mem
  let dlen := (htons uh.len).toUInt32 - 8
  { saddr := ih.saddr, daddr := ih.daddr, sport := htons uh.sport, dport := htons uh.dport
    dlen := dlen, payload := slice mem 42 dlen.toNat }

/-- `ip_rcv` on a stack with the address `stackaddr`. -/
def ipRcv (stackaddr : UInt32) (mem : List UInt8) : Option Packet :=
  let ih := ipHdr mem
  if ih.version ≠ 4 then none
  else if ih.ihl.toNat < 5 then none
  else if ih.ttl = 0 then none
  else if checksum (slice mem 14 (4 * ih.ihl.toNat)) 0 ≠ 0 then none
  else
    let mem := ipInitPkt mem
    let ih := ipHdr mem
    if ih.daddr ≠ stackaddr then none
    else if ih.proto = 1 then some (.icmp mem)
    else if ih.proto = 6 then some (.tcp (tcpInitSegment mem))
    else if ih.proto = 17 then some (.udp (udpInitSegment mem))
    else none

/-- `netdev_receive`, for frames that carry IPv4. -/
def netdevReceive (stackaddr : UInt32) (mem : List UInt8) : Option Packet :=
  if htons (of16 (slice mem 12 2)) = 0x0800 then ipRcv stackaddr mem else none

/-- What `ip_rcv` checks of a packet that it hands on, and where the packet goes. -/
theorem ipRcv_eq_some {addr : UInt32} {mem : List UInt8} {p : Packet} : ipRcv addr mem = some p ↔
    ((ipHdr mem).version = 4 ∧ ¬ (ipHdr mem).ihl.toNat < 5 ∧ (ipHdr mem).ttl ≠ 0 ∧
      checksum (slice mem 14 (4 * (ipHdr mem).ihl.toNat)) 0 = 0 ∧
      (ipHdr (ipInitPkt mem)).daddr = addr) ∧
    ((ipHdr (ipInitPkt mem)).proto = 1 ∧ p = .icmp (ipInitPkt mem) ∨
      (ipHdr (ipInitPkt mem)).proto = 6 ∧ p = .tcp (tcpInitSegment (ipInitPkt mem)) ∨
      (ipHdr (ipInitPkt mem)).proto = 17 ∧ p = .udp (udpInitSegment (ipInitPkt mem))) := by
  unfold ipRcv
  constructor
  · intro h
    obtain ⟨hversion, h⟩ := Option.ite_none_left_eq_some.mp h
    obtain ⟨hihl, h⟩ := Option.ite_none_left_eq_some.mp h
    obtain ⟨httl, h⟩ := Option.ite_none_left_eq_some.mp h
    obtain ⟨hcsum, h⟩ := Option.ite_none_left_eq_some.mp h
    obtain ⟨hdaddr, h⟩ := Option.ite_none_left_eq_some.mp h
    refine ⟨⟨not_not.mp hversion, hihl, httl, not_not.mp hcsum, not_not.mp hdaddr⟩, ?_⟩
    split_ifs at h with hicmp htcp hudp
    · exact .inl ⟨hicmp, (Option.some.inj h).symm⟩
    · exact .inr (.inl ⟨htcp, (Option.some.inj h).symm⟩)
    · exact .inr (.inr ⟨hudp, (Option.some.inj h).symm⟩)
  · rintro ⟨⟨hversion, hihl, httl, hcsum, hdaddr⟩, hproto⟩
    simp only [if_neg (not_not.mpr hversion), if_neg hihl, if_neg httl, if_neg (not_not.mpr hcsum),
      if_neg (not_not.mpr hdaddr)]
    rcases hproto with ⟨hproto, rfl⟩ | ⟨hproto, rfl⟩ | ⟨hproto, rfl⟩
    · rw [if_pos hproto]
    · rw [hproto, if_neg (by decide), if_pos rfl]
    · rw [hproto, if_neg (by decide), if_neg (by decide), if_pos rfl]

/-! ### The header in host byte order -/

section Header

variable {mem : List UInt8} (hmem : 34 ≤ mem.length)
include hmem

theorem ipHdr_putIpHdr (ih : Iphdr) : ipHdr (putIpHdr mem ih) = ih := by
  rw [ipHdr, putIpHdr, slice_splice_eq ih.length_bytes hmem, Iphdr.read_bytes]

theorem ipHdr_ipInitPkt : ipHdr (ipInitPkt mem) = { ipHdr mem with
    saddr := htonl (ipHdr mem).saddr, daddr := htonl (ipHdr mem).daddr
    len := htons (ipHdr mem).len, id := htons (ipHdr mem).id } := ipHdr_putIpHdr hmem _

/-- Behind the IP header nothing has changed. -/
theorem drop_ipInitPkt {j : ℕ} (hj : 34 ≤ j) : (ipInitPkt mem).drop j = mem.drop j := by
  refine drop_splice_behind (by omega) ?_
  rw [Iphdr.length_bytes]
  exact hj

theorem slice_ipInitPkt {j : ℕ} (hj : 34 ≤ j) (n : ℕ) :
    slice (ipInitPkt mem) j n = slice mem j n := by
  rw [slice, drop_ipInitPkt hmem hj, slice]

theorem length_ipInitPkt : (ipInitPkt mem).length = mem.length :=
  length_splice (by rw [Iphdr.length_bytes]; omega)

end Header

end ToyIP.Net.Packets
