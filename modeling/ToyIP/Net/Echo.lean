import ToyIP.Net.Route

/-! # Network: echo replies

`icmpv4_reply` writes its answer into the buffer of the request: `data` goes to the end of the
message and back to its start, the type and the checksum are written, and `ip_output` and
`netdev_transmit` put their headers over those of the request. `echo_mirrors` says that the frame
that leaves is the request turned round. -/

namespace ToyIP.Net.Echo

open ToyIP.Lib.Bytes ToyIP.Net.Checksum ToyIP.Net.Headers ToyIP.Net.RoundTrip ToyIP.Net.Arp
  ToyIP.Net.Route
open ToyIP.Net.Packets (ipHdr ipInitPkt netdevReceive ipRcv_eq_some icmpLen icmpSend netdevTransmit
  frame Packet ipHdr_ipInitPkt slice_ipInitPkt length_ipInitPkt)

/-- **The reply to the request.** `req` is the frame of the request and `f` that of the reply, with a
message of `n` bytes. -/
structure Mirrors (req : List UInt8) (n : ℕ) (dmac : Vector UInt8 6) (f : List UInt8) : Prop where
  length : f.length = 34 + n
  eth : slice f 0 14 = EthHdr.bytes ⟨dmac, netdev.hwaddr, htons 0x0800⟩
  type : slice f 34 1 = [0]
  code : slice f 35 1 = slice req 35 1
  text : slice f 38 (n - 4) = slice req 38 (n - 4)
  icmpCsum : checksum (slice f 34 n) 0 = 0
  hlen : (ipHdr f).version = 4 ∧ (ipHdr f).ihl = 5
  saddr : htonl (ipHdr f).saddr = netdev.addr
  daddr : (ipHdr f).daddr = (ipHdr req).saddr
  id : (ipHdr f).id = (ipHdr req).id
  len : (ipHdr f).len = (ipHdr req).len
  ttl : (ipHdr f).ttl = 64 ∧ (ipHdr f).proto = 1
  ipCsum : checksum (slice f 14 20) 0 = 0

/-! ### The request -/

/-- A message is handed on with the header in host byte order. -/
theorem icmp_of_netdevReceive {addr : UInt32} {mem m : List UInt8}
    (h : netdevReceive addr mem = some (.icmp m)) : m = ipInitPkt mem := by
  obtain ⟨-, h⟩ := Option.ite_none_right_eq_some.mp h
  obtain ⟨-, ⟨-, hp⟩ | ⟨-, hp⟩ | ⟨-, hp⟩⟩ := ipRcv_eq_some.mp h
  · exact Packet.icmp.inj hp
  · cases hp
  · cases hp

/-! ### The reply -/

/-- The message lies where that of the request lay. -/
theorem data_replySkb (m : List UInt8) : (replySkb { mem := m }).data = 34 := by
  show 0 + (34 + icmpLen m) - icmpLen m = 34
  omega

theorem mem_replySkb (m : List UInt8) : (replySkb { mem := m }).mem = splice m 34 [0] :=
  congrArg (fun i => splice m i [0]) (data_replySkb m)

theorem ipHdr_replySkb {m : List UInt8} (h : 38 ≤ m.length) :
    ipHdr (replySkb { mem := m }).mem = ipHdr m := by
  rw [ipHdr, mem_replySkb, slice_splice_before (by omega) (by omega), ipHdr]

/-- The buffer that `ip_output` gets. -/
theorem icmpFill_replySkb {m : List UInt8} (h : 38 ≤ m.length) : ∃ c,
    icmpFill (replySkb { mem := m }) (icmpLen m) =
      { mem := splice (splice m 34 [0]) 36 (le16 c), data := 34
        len := UInt32.ofNat (icmpLen m), protocol := 1 } := by
  have hlen : (splice m 34 [0]).length = m.length := length_splice (by simp; omega)
  have hsum : (replySkb { mem := m }).len = UInt32.ofNat (icmpLen m) := UInt32.zero_add _
  refine ⟨checksum (slice (splice (splice m 34 [0]) 36 (le16 0)) 34 (icmpLen m)) 0, ?_⟩
  unfold icmpFill
  simp only [data_replySkb, mem_replySkb, hsum]
  rw [splice_splice (by omega) (by simp)]
  rfl

theorem length_icmpFill {m : List UInt8} (h : 38 ≤ m.length) :
    (icmpFill (replySkb { mem := m }) (icmpLen m)).mem.length = m.length := by
  obtain ⟨c, hfill⟩ := icmpFill_replySkb h
  have hlen : (splice m 34 [0]).length = m.length := length_splice (by simp; omega)
  rw [hfill]
  exact (length_splice (by simp; omega)).trans hlen

theorem ipHdr_icmpFill {m : List UInt8} (h : 38 ≤ m.length) :
    ipHdr (icmpFill (replySkb { mem := m }) (icmpLen m)).mem = ipHdr m := by
  obtain ⟨c, hfill⟩ := icmpFill_replySkb h
  have hlen : (splice m 34 [0]).length = m.length := length_splice (by simp; omega)
  rw [hfill]
  show Iphdr.read (slice (splice (splice m 34 [0]) 36 (le16 c)) 14 20) = _
  rw [slice_splice_before (by omega) (by omega), slice_splice_before (by omega) (by omega), ipHdr]

/-- What is written for a request whose next hop is known. -/
theorem icmpv4Reply_known {m : List UInt8} {caches : ℕ → List ArpCacheEntry} {rt : Rtentry}
    {dmac : Vector UInt8 6} (hmem : 38 ≤ m.length)
    (hrt : routeLookup routeInit (ipHdr m).daddr = some rt)
    (harp : arpGetHwaddr (caches 0) (nextHop rt (ipHdr m).saddr) = some dmac) :
    (icmpv4Reply routeInit caches { mem := m }).frames =
      [frame (netdevTransmit dmac netdev.hwaddr
        (Packets.icmpv4Reply netdev.addr { mem := m }))] := by
  have hlen := length_icmpFill hmem
  have hhdr := ipHdr_icmpFill hmem
  obtain rfl : rt = defaultRoute :=
    Option.some.inj (hrt.symm.trans (routeLookup_routeInit (ipHdr m).daddr))
  rw [icmpv4Reply_fill, icmpv4Reply, ipHdr_replySkb hmem]
  have hout := @ipOutput_known routeInit caches defaultRoute (ipHdr m).saddr
    (icmpFill (replySkb { mem := m }) (icmpLen m)) dmac (by omega) (by rw [hhdr]; exact hrt) harp
  exact congrArg Output.frames hout

/-! ### The result -/

/-- The reply as a frame, field by field. -/
theorem mirrors_reply {req m : List UInt8} {n : ℕ} (dmac : Vector UInt8 6) (hm : m = ipInitPkt req)
    (hreq : req.length = buflen) (hihl : (ipHdr req).ihl = 5)
    (hlen : (htons (ipHdr req).len).toNat = 20 + n) (h8 : 8 ≤ n) (hn : n ≤ 1566) :
    Mirrors req n dmac
      (frame (netdevTransmit dmac netdev.hwaddr (Packets.icmpv4Reply netdev.addr { mem := m }))) := by
  have hbuf : buflen = 1600 := rfl
  have hmlen : m.length = 1600 := by
    rw [hm, length_ipInitPkt (by omega), hreq, hbuf]
  have hhdr : ipHdr m = { ipHdr req with
      saddr := htonl (ipHdr req).saddr, daddr := htonl (ipHdr req).daddr
      len := htons (ipHdr req).len, id := htons (ipHdr req).id } := by
    rw [hm, ipHdr_ipInitPkt (by omega)]
  have hicmp : icmpLen m = n := by
    have h5 : (5 : BitVec 4).toNat = 5 := rfl
    rw [icmpLen, hhdr]
    show ((htons (ipHdr req).len).toNat + 65536 - 4 * (ipHdr req).ihl.toNat) % 65536 = n
    rw [hlen, hihl, h5]
    omega
  have hverify := @icmpv4Reply_verifies netdev.addr { mem := m } rfl (by rw [hicmp]; omega)
    (by rw [hicmp, hmlen]; omega)
  obtain ⟨c, hfill⟩ := icmpFill_replySkb (m := m) (by omega)
  have hBlen := length_icmpFill (m := m) (by omega)
  have hid := ipHdr_icmpFill (m := m) (by omega)
  rw [icmpv4Reply_fill, ipHdr_replySkb (by omega), hicmp] at hverify ⊢
  rw [hicmp] at hfill hBlen
  have hnat : (icmpFill (replySkb { mem := m }) n).len.toNat = n := by
    rw [hfill, UInt32.toNat_ofNat']
    exact Nat.mod_eq_of_lt (by omega)
  have hf := @framed_ipOutput netdev.addr (ipHdr m).saddr dmac netdev.hwaddr
    (icmpFill (replySkb { mem := m }) n) n (by rw [hfill]) hnat (by omega) (by omega)
  have hlen16 : ((icmpFill (replySkb { mem := m }) n).len + 20).toUInt16 = htons (ipHdr req).len := by
    rw [← UInt16.toNat_inj, UInt32.toNat_toUInt16, UInt32.toNat_add, hnat, hlen]
    show (n + 20) % 2 ^ 32 % 2 ^ 16 = 20 + n
    omega
  have hproto : (icmpFill (replySkb { mem := m }) n).protocol.toUInt8 = 1 := by
    rw [hfill]
    rfl
  have hread := hf.ipHdr_eq
  rw [hicmp] at hid
  rw [hlen16, hproto, hid] at hread
  have hold : ∀ j k, 34 ≤ j → slice m j k = slice req j k := fun j k hj => by
    rw [hm, slice_ipInitPkt (by omega) hj]
  have htype : (splice m 34 [0]).length = 1600 := by
    rw [length_splice (by simp; omega), hmlen]
  refine ⟨hf.length, hf.eth, ?_, ?_, ?_, ?_, ?_, ?_, ?_, ?_, ?_, ?_, ?_⟩
  · have hself := slice_splice_self m [0] (i := 34) (by simp; omega)
    rw [hf.behind 34 1 (Nat.le_refl _) (by omega), hfill,
      slice_splice_before (by omega) (by omega)]
    exact hself
  · rw [hf.behind 35 1 (by omega) (by omega), hfill, slice_splice_before (by omega) (by omega),
      slice_splice_behind (by omega) (by simp), hold 35 1 (by omega)]
  · rw [hf.behind 38 (n - 4) (by omega) (by omega), hfill,
      slice_splice_behind (by omega) (by simp), slice_splice_behind (by omega) (by simp),
      hold 38 (n - 4) (by omega)]
  · rw [hf.behind 34 n (by omega) (by omega), ← ipOutput_behind netdev.addr (ipHdr m).saddr _
      (by omega)]
    exact hverify
  · rw [hread]
    exact ⟨rfl, rfl⟩
  · rw [hread]
    exact htonl_htonl _
  · rw [hread, hhdr]
    exact htonl_htonl _
  · rw [hread, hhdr]
    exact htons_htons _
  · rw [hread]
    exact htons_htons _
  · rw [hread]
    exact ⟨rfl, rfl⟩
  · rw [hf.hdr]
    exact ipCsum_verifies _ _ _ _ _

/-- **Echo replies mirror the request.** -/
theorem echo_mirrors (buf : RxBuf) (m : List UInt8) (n : ℕ) (caches : ℕ → List ArpCacheEntry)
    (tsRecv : UInt32) (dmac : Vector UInt8 6) (rt : Rtentry)
    (hrcv : netdevReceive netdev.addr buf.mem = some (.icmp m)) (htype : m.getD 34 0 = 8)
    (hihl : (ipHdr buf.mem).ihl = 5) (hlen : (htons (ipHdr buf.mem).len).toNat = 20 + n)
    (h8 : 8 ≤ n) (hn : n ≤ 1566) (hrt : routeLookup routeInit (ipHdr m).daddr = some rt)
    (harp : arpGetHwaddr (caches 0) (nextHop rt (ipHdr m).saddr) = some dmac) :
    ∃ f, icmpv4Incoming routeInit caches tsRecv m = [f] ∧ Mirrors buf.mem n dmac f := by
  have hm := icmp_of_netdevReceive hrcv
  have hbuf : buflen = 1600 := rfl
  have hreq := buf.length_mem
  have hmlen : m.length = 1600 := by
    rw [hm, length_ipInitPkt (by omega), hreq, hbuf]
  refine ⟨_, ?_, mirrors_reply dmac hm hreq hihl hlen h8 hn⟩
  rw [icmpv4Incoming, if_pos htype]
  exact icmpv4Reply_known (by omega) hrt harp

/-- A request with a message of nine bytes. -/
def pingBuf : RxBuf where
  mem := List.replicate 12 0 ++ [0x08, 0x00, 0x45, 0, 0, 29, 0, 7, 0, 0, 64, 1, 0x64, 0xd1, 10, 0, 1, 5,
    10, 0, 1, 4, 8, 0, 0xb6, 0xfc, 0, 1, 0, 2, 0x41] ++ List.replicate 1557 0
  length_mem := by
    rw [List.length_append, List.length_replicate]
    rfl

/-- The cache with the address of the gateway. -/
def pingCache : List ArpCacheEntry := [⟨1, tapaddr, #v[2, 0, 0, 0, 0, 5], arpResolved⟩]

theorem echo_mirrors_ping : ∃ f, icmpv4Incoming routeInit (fun _ => pingCache) 0
    (ipInitPkt pingBuf.mem) = [f] ∧ Mirrors pingBuf.mem 9 #v[2, 0, 0, 0, 0, 5] f :=
  echo_mirrors pingBuf (ipInitPkt pingBuf.mem) 9 (fun _ => pingCache) 0 #v[2, 0, 0, 0, 0, 5]
    defaultRoute (by decide +kernel) (by decide +kernel) (by decide +kernel) (by decide +kernel)
    (by decide) (by decide) (by decide +kernel) (by decide +kernel)

end ToyIP.Net.Echo
