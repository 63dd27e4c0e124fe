import ToyIP.Net.RoundTrip
import ToyIP.Net.Arp

/-! # Network: routes, neighbours and the device

`route_lookup`, `dst_neigh_output` and the callers of `ip_output` down to `tun_write`, with all the
ways to stop early: there is no route, or ARP does not know the next hop. The ARP cache can change
while `dst_neigh_output` sleeps, so each of its tries has a cache of its own.

`ip_output` looks up the destination that it finds in the header before it writes one. With the
table of `route_init` this does not matter: no entry but the last one matches any address. -/

namespace ToyIP.Net.Route

open ToyIP.Lib.Bytes ToyIP.Net.Checksum ToyIP.Net.Headers ToyIP.Net.Packets ToyIP.Net.RoundTrip
  ToyIP.Net.Arp ToyIP.Tcp.Types ToyIP.Tcp.Effects

/-! ### Routes -/

def rtLoopback : UInt8 := 0x01
def rtGateway : UInt8 := 0x02
def rtHost : UInt8 := 0x03

/-- `struct rtentry`. -/
structure Rtentry where
  dst : UInt32
  gateway : UInt32
  netmask : UInt32
  flags : UInt8
  metric : UInt32
  dev : Netdev
  deriving DecidableEq

def routeAdd (dst gateway netmask : UInt32) (flags : UInt8) (metric : UInt32) (dev : Netdev)
    (routes : List Rtentry) : List Rtentry := routes ++ [⟨dst, gateway, netmask, flags, metric, dev⟩]

/-- `"127.0.0.1"`. -/
def loop : Netdev := ⟨0x7F000001, #v[0, 0, 0, 0, 0, 0]⟩

/-- `"10.0.1.4"`. -/
def netdev : Netdev := ⟨0x0A000104, mac [0x00, 0x0c, 0x29, 0x6d, 0x50, 0x25]⟩

/-- `"10.0.1.5"`. -/
def tapaddr : UInt32 := 0x0A000105

def routeInit : List Rtentry :=
  routeAdd 0 tapaddr 0 rtGateway 0 netdev
    (routeAdd netdev.addr 0 0xffffff00 rtHost 0 netdev
      (routeAdd loop.addr 0 0xff000000 rtLoopback 0 loop []))

/-- The loop of `route_lookup`; `rt` is the entry before. -/
def routeLookupFrom (daddr : UInt32) : Option Rtentry → List Rtentry → Option Rtentry
  | rt, [] => rt
  | _, rt :: rest =>
    if rt.netmask &&& daddr = rt.dst then some rt else routeLookupFrom daddr (some rt) rest

def routeLookup (routes : List Rtentry) (daddr : UInt32) : Option Rtentry :=
  routeLookupFrom daddr none routes

/-! ### Sending -/

/-- The buffer after a call, and the frames that were given to `tun_write`. -/
structure Output where
  skb : SkBuff
  frames : List (List UInt8) := []
  deriving DecidableEq

/-- The tries of `dst_neigh_output`, with the caches they see. -/
def neighTries (dev : Netdev) (saddr daddr : UInt32) (skb : SkBuff) :
    List (List ArpCacheEntry) → Output
  | [] => { skb := skb }
  | cache :: caches =>
    match arpGetHwaddr cache daddr with
    | some dmac =>
      let skb := netdevTransmit dmac dev.hwaddr skb
      { skb := skb, frames := [frame skb] }
    | none =>
      let o := neighTries dev saddr daddr skb caches
      { o with frames := frame (arpRequest dev saddr daddr) :: o.frames }

/-- The address that is resolved. -/
def nextHop (rt : Rtentry) (daddr : UInt32) : UInt32 :=
  if rt.flags &&& rtGateway ≠ 0 then rt.gateway else daddr

def dstNeighOutput (caches : ℕ → List ArpCacheEntry) (rt : Rtentry) (skb : SkBuff) : Output :=
  let iphdr := ipHdr skb.mem
  neighTries rt.dev (htonl iphdr.saddr) (nextHop rt (htonl iphdr.daddr)) skb
    [caches 0, caches 1, caches 2]

/-- `ip_output` as a whole; `Packets.ipOutput` is what it does with a route. -/
def ipOutput (routes : List Rtentry) (caches : ℕ → List ArpCacheEntry) (daddr : UInt32)
    (skb : SkBuff) : Output :=
  match routeLookup routes (ipHdr skb.mem).daddr with
  | none => { skb := skb }
  | some rt => dstNeighOutput caches rt (Packets.ipOutput rt.dev.addr daddr skb)

def tcpTransmitSkb (routes : List Rtentry) (caches : ℕ → List ArpCacheEntry) (sk : TcpSock)
    (skb : SkBuff) (seq : UInt32) : Output :=
  ipOutput routes caches sk.daddr (tcpFill sk skb seq)

/-- What `icmpv4_reply` and `icmpv4_timestamp` hand to `ip_output`. -/
def icmpFill (skb : SkBuff) (icmpLen : ℕ) : SkBuff :=
  let mem := splice skb.mem (skb.data + 2) (le16 0)
  let mem := splice mem (skb.data + 2) (le16 (checksum (slice mem skb.data icmpLen) 0))
  { skb with mem := mem, protocol := 1 }

/-- The message of `icmpv4_reply` before its checksum is computed. -/
def replySkb (skb : SkBuff) : SkBuff :=
  let skb := skbPush (skbReserve skb (34 + icmpLen skb.mem)) (icmpLen skb.mem)
  { skb with mem := splice skb.mem skb.data [0] }

def icmpv4Reply (routes : List Rtentry) (caches : ℕ → List ArpCacheEntry) (skb : SkBuff) : Output :=
  ipOutput routes caches (ipHdr (replySkb skb).mem).saddr (icmpFill (replySkb skb) (icmpLen skb.mem))

/-- The message of `icmpv4_timestamp`, at the time `ts_recv`. -/
def timestampSkb (tsRecv : UInt32) (skb : SkBuff) : SkBuff :=
  let skb := skbPush (skbReserve skb (34 + icmpLen skb.mem)) (icmpLen skb.mem)
  let mem := splice skb.mem skb.data [14]
  let mem := splice mem (skb.data + 12) (le32 (htonl tsRecv))
  { skb with mem := splice mem (skb.data + 8) (le32 (htonl tsRecv)) }

def icmpv4Timestamp (routes : List Rtentry) (caches : ℕ → List ArpCacheEntry) (tsRecv : UInt32)
    (skb : SkBuff) : Output :=
  ipOutput routes caches (ipHdr (timestampSkb tsRecv skb).mem).saddr
    (icmpFill (timestampSkb tsRecv skb) (icmpLen skb.mem))

/-- What `icmpv4_incoming` writes to the device for a packet that `ip_rcv` hands on. -/
def icmpv4Incoming (routes : List Rtentry) (caches : ℕ → List ArpCacheEntry) (tsRecv : UInt32)
    (mem : List UInt8) : List (List UInt8) :=
  if mem.getD 34 0 = 8 then (icmpv4Reply routes caches { mem := mem }).frames
  else if mem.getD 34 0 = 13 then (icmpv4Timestamp routes caches tsRecv { mem := mem }).frames
  else []

theorem icmpv4Reply_fill (dev : UInt32) (skb : SkBuff) : Packets.icmpv4Reply dev skb =
    Packets.ipOutput dev (ipHdr (replySkb skb).mem).saddr
      (icmpFill (replySkb skb) (icmpLen skb.mem)) := rfl

theorem icmpv4Timestamp_fill (dev tsRecv : UInt32) (skb : SkBuff) :
    Packets.icmpv4Timestamp dev tsRecv skb =
      Packets.ipOutput dev (ipHdr (timestampSkb tsRecv skb).mem).saddr
        (icmpFill (timestampSkb tsRecv skb) (icmpLen skb.mem)) := rfl

/-! ### The table of `route_init` -/

/-- The last entry of `route_init`. -/
def defaultRoute : Rtentry := ⟨0, tapaddr, 0, rtGateway, 0, netdev⟩

/-- An address has none of the bits that its netmask lacks. -/
theorem and_ne {mask daddr dst b : UInt32} (hmask : mask &&& b = 0) (hdst : dst &&& b ≠ 0) :
    mask &&& daddr ≠ dst := by
  rintro rfl
  apply hdst
  rw [UInt32.and_comm mask, UInt32.and_assoc, hmask, UInt32.and_zero]

/-- The first two entries hold host addresses, which match nothing under their netmasks. -/
theorem routeLookup_routeInit (daddr : UInt32) : routeLookup routeInit daddr = some defaultRoute := by
  have hloop : (0xff000000 : UInt32) &&& daddr ≠ loop.addr :=
    and_ne (b := 1) (by decide) (by decide)
  have hnet : (0xffffff00 : UInt32) &&& daddr ≠ netdev.addr :=
    and_ne (b := 4) (by decide) (by decide)
  have hall : (0 : UInt32) &&& daddr = 0 := UInt32.zero_and
  show routeLookupFrom daddr none [⟨loop.addr, 0, 0xff000000, rtLoopback, 0, loop⟩,
    ⟨netdev.addr, 0, 0xffffff00, rtHost, 0, netdev⟩, defaultRoute] = _
  rw [routeLookupFrom, if_neg hloop, routeLookupFrom, if_neg hnet, routeLookupFrom]
  exact if_pos hall

/-! ### The device -/

/-- The header of `ip_output` in the buffer. -/
theorem ipHdr_ipOutput (dev daddr : UInt32) {skb : SkBuff} (h : 34 ≤ skb.mem.length) :
    ipHdr (Packets.ipOutput dev daddr skb).mem =
      wireIp dev daddr skb.protocol.toUInt8 (ipHdr skb.mem).id (skb.len + 20).toUInt16
        (ipCsum dev daddr skb.protocol.toUInt8 (ipHdr skb.mem).id (skb.len + 20).toUInt16) := by
  rw [ipOutput_eq_id dev daddr skb h]
  exact ipHdr_putIpHdr h _

theorem daddr_ipOutput (dev daddr : UInt32) {skb : SkBuff} (h : 34 ≤ skb.mem.length) :
    htonl (ipHdr (Packets.ipOutput dev daddr skb).mem).daddr = daddr := by
  rw [ipHdr_ipOutput dev daddr h]
  exact htonl_htonl daddr

theorem length_ipOutput (dev daddr : UInt32) {skb : SkBuff} (h : 34 ≤ skb.mem.length) :
    (Packets.ipOutput dev daddr skb).mem.length = skb.mem.length := by
  rw [ipOutput_eq_id dev daddr skb h]
  exact length_splice (by rw [Iphdr.length_bytes]; omega)

/-- The next hop is known at once. -/
theorem dstNeighOutput_known {caches : ℕ → List ArpCacheEntry} {rt : Rtentry} {skb : SkBuff}
    {dmac : Vector UInt8 6}
    (h : arpGetHwaddr (caches 0) (nextHop rt (htonl (ipHdr skb.mem).daddr)) = some dmac) :
    dstNeighOutput caches rt skb =
      ⟨netdevTransmit dmac rt.dev.hwaddr skb, [frame (netdevTransmit dmac rt.dev.hwaddr skb)]⟩ := by
  unfold dstNeighOutput
  simp only
  rw [neighTries, h]

/-- `ip_output` with a route and a known next hop. -/
theorem ipOutput_known {routes : List Rtentry} {caches : ℕ → List ArpCacheEntry} {rt : Rtentry}
    {daddr : UInt32} {skb : SkBuff} {dmac : Vector UInt8 6} (h : 34 ≤ skb.mem.length)
    (hrt : routeLookup routes (ipHdr skb.mem).daddr = some rt)
    (harp : arpGetHwaddr (caches 0) (nextHop rt daddr) = some dmac) :
    ipOutput routes caches daddr skb =
      ⟨netdevTransmit dmac rt.dev.hwaddr (Packets.ipOutput rt.dev.addr daddr skb),
        [frame (netdevTransmit dmac rt.dev.hwaddr (Packets.ipOutput rt.dev.addr daddr skb))]⟩ := by
  rw [ipOutput, hrt]
  exact dstNeighOutput_known (by rw [daddr_ipOutput _ _ h]; exact harp)

/-- The frame of a buffer whose packet starts behind the Ethernet header. -/
theorem frame_output {skb : SkBuff} {n : ℕ} (hdata : skb.data = 14) (hlen : skb.len.toNat = 20 + n)
    (hsmall : 34 + n < 2 ^ 32) (dmac hwaddr : Vector UInt8 6) :
    frame (netdevTransmit dmac hwaddr skb) =
      slice (splice skb.mem 0 (EthHdr.bytes ⟨dmac, hwaddr, htons 0x0800⟩)) 0 (34 + n) := by
  have hpush : (skb.len + 14).toNat = 34 + n := by
    rw [UInt32.toNat_add, hlen]
    show (20 + n + 14) % 2 ^ 32 = 34 + n
    omega
  show slice (splice skb.mem (skb.data - 14) _) (skb.data - 14) (skb.len + 14).toNat = _
  rw [hdata, hpush]

/-- **The parts of a frame.** The `n` bytes behind the headers of `f` are those of the buffer, and
`W` is the IP header. -/
structure Framed (W : Iphdr) (dmac hwaddr : Vector UInt8 6) (skb : SkBuff) (n : ℕ)
    (f : List UInt8) : Prop where
  length : f.length = 34 + n
  eth : slice f 0 14 = EthHdr.bytes ⟨dmac, hwaddr, htons 0x0800⟩
  hdr : slice f 14 20 = W.bytes
  behind : ∀ j k, 34 ≤ j → j + k ≤ 34 + n → slice f j k = slice skb.mem j k

theorem Framed.ipHdr_eq {W : Iphdr} {dmac hwaddr : Vector UInt8 6} {skb : SkBuff} {n : ℕ}
    {f : List UInt8} (h : Framed W dmac hwaddr skb n f) : ipHdr f = W := by
  rw [ipHdr, h.hdr, Iphdr.read_bytes]

/-- The frame of a message of `n` bytes. -/
theorem framed_ipOutput (dev daddr : UInt32) (dmac hwaddr : Vector UInt8 6) {skb : SkBuff} {n : ℕ}
    (hdata : skb.data = 34) (hlen : skb.len.toNat = n) (hmem : 34 + n ≤ skb.mem.length)
    (hsmall : 34 + n < 2 ^ 32) :
    Framed (wireIp dev daddr skb.protocol.toUInt8 (ipHdr skb.mem).id (skb.len + 20).toUInt16
        (ipCsum dev daddr skb.protocol.toUInt8 (ipHdr skb.mem).id (skb.len + 20).toUInt16))
      dmac hwaddr skb n (frame (netdevTransmit dmac hwaddr (Packets.ipOutput dev daddr skb))) := by
  have hout := ipOutput_eq_id dev daddr skb (by omega)
  have holen := @length_ipOutput dev daddr skb (by omega)
  have hlen32 : (Packets.ipOutput dev daddr skb).len.toNat = 20 + n := by
    rw [hout]
    show (skb.len + 20).toNat = 20 + n
    rw [UInt32.toNat_add, hlen]
    show (n + 20) % 2 ^ 32 = 20 + n
    omega
  have hodata : (Packets.ipOutput dev daddr skb).data = 14 := by
    rw [hout]
    show skb.data - 20 = 14
    rw [hdata]
  have hethlen := EthHdr.length_bytes ⟨dmac, hwaddr, htons 0x0800⟩
  have hframe := frame_output hodata hlen32 hsmall dmac hwaddr
  have hflen : (splice (Packets.ipOutput dev daddr skb).mem 0
      (EthHdr.bytes ⟨dmac, hwaddr, htons 0x0800⟩)).length = _ := length_splice (by omega)
  have hpart : ∀ j k, 14 ≤ j → j + k ≤ 34 + n →
      slice (frame (netdevTransmit dmac hwaddr (Packets.ipOutput dev daddr skb))) j k =
        slice (Packets.ipOutput dev daddr skb).mem j k := fun j k hj hjk => by
    rw [hframe, slice_slice hjk, Nat.zero_add, slice_splice_behind (by omega) (by omega)]
  refine ⟨?_, ?_, ?_, fun j k hj hjk => ?_⟩
  · rw [hframe]
    exact length_slice (by omega)
  · rw [hframe, slice_slice (by omega), Nat.zero_add, slice_splice_eq hethlen (by omega)]
  · rw [hpart 14 20 (Nat.le_refl _) (by omega), hout,
      slice_splice_eq (Iphdr.length_bytes _) (by omega)]
  · rw [hpart j k (by omega) hjk, hout]
    exact slice_splice_behind (by omega) (by rw [Iphdr.length_bytes]; omega)

end ToyIP.Net.Route
