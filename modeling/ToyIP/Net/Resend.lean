import ToyIP.Net.Route

/-! # Network: sending a buffer again

A queued segment is sent from one buffer again and again. A transmission moves `data` to the front
of the buffer in up to three steps, and it can stop after each of them; `skb_reset_header` moves
`data` back before the next one. `resend_exact` says that this always works, and that all the
frames of a buffer are the same but for the numbers of the sock. -/

namespace ToyIP.Net.Resend

open ToyIP.Lib.Bytes ToyIP.Net.Checksum ToyIP.Net.Headers ToyIP.Net.RoundTrip ToyIP.Net.Arp
  ToyIP.Net.Route ToyIP.Tcp.Types ToyIP.Tcp.Output ToyIP.Tcp.Effects
open ToyIP.Net.Packets (ipHdr tcpHdr putTcpHdr netdevTransmit frame tcpFill tcpWriteOptions)

/-- The buffers that `tcp_send`, `tcp_send_syn` and `tcp_queue_fin` put on the write queue. A text of
`tcp_send` has 1460 bytes at most. -/
inductive Queued : SkBuff → Skb → Prop
  | send (payload : List UInt8) (psh : Bool) (size : 40 + payload.length ≤ 65535) :
    Queued (textSkb { ack := true, psh := psh } payload) (dataSkb payload psh)
  | syn (sk : TcpSock) : Queued (synSkb sk) { Tcp.Output.tcpAllocSkb 0 with th := tcpSynHeader sk }
  | fin : Queued (textSkb { fin := true, ack := true } [])
      { Tcp.Output.tcpAllocSkb 0 with th := { fin := true, ack := true } }

/-- A transmission: the sock and the tables as they are then, and the number it is made with. -/
structure Attempt where
  sk : TcpSock
  seq : UInt32
  routes : List Rtentry
  caches : ℕ → List ArpCacheEntry

def Attempt.output (a : Attempt) (b : SkBuff) : Output :=
  Route.tcpTransmitSkb a.routes a.caches a.sk b a.seq

/-- What `route_lookup` finds. -/
def Attempt.route (a : Attempt) (b : SkBuff) : Option Rtentry :=
  routeLookup a.routes (ipHdr (tcpFill a.sk b a.seq).mem).daddr

/-- The transmissions, each with the buffer that it gets. -/
def attempts : SkBuff → List Attempt → List (Attempt × SkBuff)
  | _, [] => []
  | b, a :: as => (a, b) :: attempts (skbResetHeader (a.output b).skb) as

/-- The buffer before a transmission and after every `skb_push`. -/
def Attempt.stages (a : Attempt) (b : SkBuff) : List SkBuff :=
  b :: tcpFill a.sk b a.seq ::
    match a.route b with
    | none => []
    | some rt => [Packets.ipOutput rt.dev.addr a.sk.daddr (tcpFill a.sk b a.seq), (a.output b).skb]

/-- `data` lies between `head` and `end`, with `len` bytes from there on. -/
def InBounds (b : SkBuff) : Prop := b.data + b.len.toNat = b.mem.length

/-- What a transmission gives to `tun_write`, without its ARP requests. -/
def ipFrames (o : Output) : List (List UInt8) :=
  o.frames.filter fun f => of16 (slice f 12 2) = htons 0x0800

/-- **The frame of a segment.** The address of a sock is that of the device. -/
structure Written (rt : Rtentry) (a : Attempt) (skb : Skb) (o : Output) (f : List UInt8) : Prop where
  head : o.skb.data = 0 ∧ f = frame o.skb
  hl : 4 * (tcpHdr f).hl.toNat = 20 + skb.th.opts.length
  length : f.length = 14 + 20 + 4 * (tcpHdr f).hl.toNat + skb.payload.length
  eth : ∃ k dmac, k < 3 ∧ arpGetHwaddr (a.caches k) (nextHop rt a.sk.daddr) = some dmac ∧
    slice f 0 14 = EthHdr.bytes ⟨dmac, rt.dev.hwaddr, htons 0x0800⟩
  addrs : (ipHdr f).saddr = htonl rt.dev.addr ∧ (ipHdr f).daddr = htonl a.sk.daddr
  ip : checksum (slice f 14 20) 0 = 0
  tcp : checksum (slice f 34 (4 * (tcpHdr f).hl.toNat + skb.payload.length))
    (sumEvery16bits (pseudoHead (htonl a.sk.saddr) (htonl a.sk.daddr) 6
      (UInt16.ofNat (4 * (tcpHdr f).hl.toNat + skb.payload.length)))) = 0
  numbers : (tcpHdr f).seq = htonl a.seq ∧ (tcpHdr f).ackSeq = htonl a.sk.rcvNxt
  text : slice f 54 (skb.th.opts.length + skb.payload.length) = skb.th.opts ++ skb.payload

/-- The bytes that can differ: the Ethernet destination, `seq`, `ack_seq`, `win` and `csum`. -/
def Varies (i : ℕ) : Prop := i < 6 ∨ 38 ≤ i ∧ i < 46 ∨ 48 ≤ i ∧ i < 52

/-- A sock at two times. -/
structure SameEnds (sk sk' : TcpSock) : Prop where
  saddr : sk'.saddr = sk.saddr
  daddr : sk'.daddr = sk.daddr
  sport : sk'.sport = sk.sport
  dport : sk'.dport = sk.dport

variable {b : SkBuff} {skb : Skb} {a : Attempt} {rt : Rtentry}

/-! ### The buffer between two transmissions -/

/-- A buffer that is ready to be sent. The identification in its IP header is the zero of
`alloc_skb`. -/
structure Ready (b : SkBuff) (skb : Skb) : Prop where
  holds : Holds b skb
  id : (ipHdr b.mem).id = 0
  size : 40 + skb.th.opts.length + skb.payload.length ≤ 65535

/-- In new memory the IP header is zero. -/
theorem ipHdr_new {n i : ℕ} {xs : List UInt8} (hi : 34 ≤ i) (hn : i ≤ n) :
    ipHdr (splice (List.replicate n 0) i xs) = Iphdr.read (List.replicate 20 0) := by
  rw [ipHdr, slice_splice_before (by simp; omega) (by omega), slice, List.drop_replicate,
    List.take_replicate, Nat.min_eq_left (by omega)]

theorem ipHdr_putTcpHdr {mem : List UInt8} (h : 34 ≤ mem.length) (th : Tcphdr) :
    ipHdr (putTcpHdr mem th) = ipHdr mem := by
  rw [ipHdr, putTcpHdr, slice_splice_before h (by omega), ipHdr]

theorem ipHdr_textSkb (th : TcpHdr) (payload : List UInt8) :
    ipHdr (textSkb th payload).mem = Iphdr.read (List.replicate 20 0) := by
  have hmem : (textSkb th payload).mem = putTcpHdr
      (splice (List.replicate (54 + payload.length) 0) 54 payload) { tcpHdr
        (splice (List.replicate (54 + payload.length) 0) 54 payload) with
        fin := th.fin, syn := th.syn, rst := th.rst, psh := th.psh, ack := th.ack, urg := th.urg
        ece := th.ece, cwr := th.cwr } := by
    simp [textSkb, setFlags, skbPush, Packets.tcpAllocSkb, skbReserve, allocSkb]
  rw [hmem, ipHdr_putTcpHdr (by rw [length_splice (by simp), List.length_replicate]; omega),
    ipHdr_new (by omega) (by omega)]

theorem Queued.ready (h : Queued b skb) : Ready b skb := by
  cases h with
  | send payload psh size =>
    refine ⟨Holds.text_new _ payload rfl rfl (by omega), ?_, ?_⟩
    · rw [ipHdr_textSkb]
      rfl
    · simpa [dataSkb] using size
  | syn sk =>
    refine ⟨Holds.syn_new sk, ?_, ?_⟩
    · rfl
    · show 40 + 4 + 0 ≤ 65535
      omega
  | fin =>
    refine ⟨Holds.text_new _ [] rfl rfl (by decide), ?_, ?_⟩
    · rw [ipHdr_textSkb]
      rfl
    · show 40 + 0 + 0 ≤ 65535
      omega

/-- The length of the segment with its header. -/
def segLen (skb : Skb) : ℕ := 20 + skb.th.opts.length + skb.payload.length

/-- A buffer on its way down still has the segment behind the IP header. -/
structure Carries (sk : TcpSock) (b : SkBuff) (skb : Skb) (seq : UInt32) (b' : SkBuff) : Prop where
  length : b'.mem.length = b.mem.length
  drop : b'.mem.drop 34 = (wireTcp sk skb.th seq (tcpCsum sk skb seq)).bytes ++ b.mem.drop 54
  dlen : b'.dlen = b.dlen
  protocol : b'.protocol = b.protocol
  id : (ipHdr b'.mem).id = 0

section Down

variable (h : Ready b skb) (sk : TcpSock) (seq dev daddr : UInt32) (dmac hwaddr : Vector UInt8 6)
include h

theorem Ready.length_mem : b.mem.length = 34 + segLen skb := by
  have hmlen := h.holds.length
  rw [segLen]
  omega

theorem Ready.toNat_segLen : (UInt32.ofNat (20 + skb.th.opts.length + skb.payload.length)).toNat =
    segLen skb := by
  have hsize := h.size
  rw [segLen, UInt32.toNat_ofNat']
  omega

theorem Ready.carries_fill : Carries sk b skb seq (tcpFill sk b seq) := by
  have hmlen := h.holds.length
  rw [tcpFill_eq h.holds]
  refine ⟨length_splice (by simp; omega), ?_, rfl, rfl, ?_⟩
  · show (splice b.mem 34 _).drop 34 = _
    rw [drop_splice _ _ (by omega), Tcphdr.length_bytes]
  · show (ipHdr (splice b.mem 34 _)).id = 0
    rw [ipHdr, slice_splice_before (by omega) (by omega)]
    exact h.id

variable {sk seq} {b' : SkBuff} (hc : Carries sk b skb seq b')
include hc

theorem Ready.carries_ip : Carries sk b skb seq (Packets.ipOutput dev daddr b') := by
  have hmlen := h.length_mem
  have hlen := hc.length
  rw [segLen] at hmlen
  have hhdr := @ipHdr_ipOutput dev daddr b' (by omega)
  have hmem := @length_ipOutput dev daddr b' (by omega)
  refine ⟨hmem.trans hc.length, ?_, ?_, ?_, ?_⟩
  · rw [ipOutput_eq_id dev daddr b' (by omega)]
    exact (drop_splice_behind (by omega) (by simp)).trans hc.drop
  · rw [ipOutput_eq_id dev daddr b' (by omega)]
    exact hc.dlen
  · rw [ipOutput_eq_id dev daddr b' (by omega)]
    exact hc.protocol
  · rw [hhdr]
    show htons (ipHdr b'.mem).id = 0
    rw [hc.id, htons_zero]

theorem Ready.carries_eth (hdata : b'.data = 14) :
    Carries sk b skb seq (netdevTransmit dmac hwaddr b') := by
  have hmlen := h.length_mem
  have hlen := hc.length
  rw [segLen] at hmlen
  have hmem : (netdevTransmit dmac hwaddr b').mem =
      splice b'.mem 0 (EthHdr.bytes ⟨dmac, hwaddr, htons 0x0800⟩) := by
    show splice b'.mem (b'.data - 14) _ = _
    rw [hdata]
  refine ⟨?_, ?_, hc.dlen, hc.protocol, ?_⟩
  · rw [hmem, length_splice (by simp; omega), hlen]
  · rw [hmem, drop_splice_behind (by omega) (by simp), hc.drop]
  · rw [hmem, ipHdr, slice_splice_behind (by omega) (by simp)]
    exact hc.id

/-- Wherever a transmission stops, the buffer can be sent again. -/
theorem Ready.reset : Ready (skbResetHeader b') (sentSkb sk skb seq) where
  holds := h.holds.sent hc.length hc.drop hc.dlen hc.protocol
  id := hc.id
  size := h.size

end Down

/-! ### One transmission -/

/-- The ethertype of a frame. -/
theorem slice_frame_type (et : UInt16) (dmac hwaddr : Vector UInt8 6) {skb : SkBuff}
    (hdata : skb.data = 14) (hlen : skb.len.toNat + 14 < 4294967296) (hmem : 14 ≤ skb.mem.length) :
    slice (frame (netdevTransmitAs et dmac hwaddr skb)) 12 2 = le16 (htons et) := by
  have heth := EthHdr.length_bytes ⟨dmac, hwaddr, htons et⟩
  have hpush : (skb.len + 14).toNat = skb.len.toNat + 14 := by
    rw [UInt32.toNat_add]
    exact Nat.mod_eq_of_lt hlen
  have hframe : frame (netdevTransmitAs et dmac hwaddr skb) =
      slice (splice skb.mem 0 (EthHdr.bytes ⟨dmac, hwaddr, htons et⟩)) 0 (skb.len.toNat + 14) := by
    show slice (splice skb.mem (skb.data - 14) _) (skb.data - 14) (skb.len + 14).toNat = _
    rw [hdata, hpush]
  have hself : slice (splice skb.mem 0 (EthHdr.bytes ⟨dmac, hwaddr, htons et⟩)) 0 14 =
      EthHdr.bytes ⟨dmac, hwaddr, htons et⟩ := slice_splice_eq heth (by omega)
  have htwo := slice_slice (m := splice skb.mem 0 (EthHdr.bytes ⟨dmac, hwaddr, htons et⟩)) (i := 0)
    (n := 14) (j := 12) (k := 2) (by omega)
  rw [hself, EthHdr.slice_bytes] at htwo
  rw [hframe, slice_slice (by omega), ← htwo]

theorem arpRequest_not_ip (dev : Netdev) (sip dip : UInt32) :
    of16 (slice (frame (arpRequest dev sip dip)) 12 2) ≠ htons 0x0800 := by
  have hmem : ∀ (hdr : ArpHdr) (data : ArpIpv4),
      (putArpData (putArpHdr (List.replicate 42 0) hdr) data).length = 42 := fun hdr data => by
    have hhdrlen : hdr.bytes.length = 8 := rfl
    have hdatalen : data.bytes.length = 20 := by simp [ArpIpv4.bytes]
    have hhdr : (putArpHdr (List.replicate 42 0) hdr).length = 42 := by
      rw [putArpHdr, length_splice (by rw [hhdrlen, List.length_replicate]; omega),
        List.length_replicate]
    rw [putArpData, length_splice (by omega), hhdr]
  have hlen : (28 : UInt32).toNat + 14 < 4294967296 := by decide
  have htype := @slice_frame_type 0x0806 broadcastHw dev.hwaddr
    { mem := putArpData (putArpHdr (List.replicate 42 0)
        ⟨htons arpEthernet, htons arpIpv4, 6, 4, htons arpRequestOp⟩)
        ⟨dev.hwaddr, htonl sip, broadcastHw, htonl dip⟩
      data := 14, len := 28 } rfl hlen (by rw [hmem]; decide)
  have hframe : slice (frame (arpRequest dev sip dip)) 12 2 = le16 (htons 0x0806) := htype
  rw [hframe, of16_le16]
  decide

/-- The tries of `dst_neigh_output`: the first one that finds the next hop sends the buffer. -/
theorem neighTries_cases (dev : Netdev) (saddr daddr : UInt32) (skb : SkBuff) :
    ∀ caches : List (List ArpCacheEntry),
      (neighTries dev saddr daddr skb caches).skb = skb ∧
          ipFrames (neighTries dev saddr daddr skb caches) = [] ∨
        ∃ cache ∈ caches, ∃ dmac, arpGetHwaddr cache daddr = some dmac ∧
          (neighTries dev saddr daddr skb caches).skb = netdevTransmit dmac dev.hwaddr skb ∧
          ipFrames (neighTries dev saddr daddr skb caches) =
            [frame (netdevTransmit dmac dev.hwaddr skb)].filter
              fun f => of16 (slice f 12 2) = htons 0x0800
  | [] => .inl ⟨rfl, rfl⟩
  | cache :: caches => by
    cases hget : arpGetHwaddr cache daddr with
    | some dmac =>
      refine .inr ⟨cache, List.mem_cons_self, dmac, hget, ?_, ?_⟩
      · rw [neighTries, hget]
      · rw [neighTries, hget]
        rfl
    | none =>
      have hsame : neighTries dev saddr daddr skb (cache :: caches) =
          { neighTries dev saddr daddr skb caches with
            frames := frame (arpRequest dev saddr daddr) ::
              (neighTries dev saddr daddr skb caches).frames } := by
        rw [neighTries, hget]
      have hframes : ipFrames (neighTries dev saddr daddr skb (cache :: caches)) =
          ipFrames (neighTries dev saddr daddr skb caches) := by
        rw [hsame]
        exact List.filter_cons_of_neg (by simpa using arpRequest_not_ip dev saddr daddr)
      have hskb : (neighTries dev saddr daddr skb (cache :: caches)).skb =
          (neighTries dev saddr daddr skb caches).skb := by
        rw [hsame]
      rw [hframes, hskb]
      rcases neighTries_cases dev saddr daddr skb caches with hnone | ⟨c, hc, hsome⟩
      · exact .inl hnone
      · exact .inr ⟨c, List.mem_cons_of_mem _ hc, hsome⟩

section Attempt

variable (h : Ready b skb)
include h

/-- `data` and `len` behind the TCP header. -/
theorem Ready.fill_at (a : Attempt) : (tcpFill a.sk b a.seq).data = 34 ∧
    (tcpFill a.sk b a.seq).len.toNat = segLen skb := by
  rw [tcpFill_eq h.holds]
  exact ⟨rfl, h.toNat_segLen⟩

/-- Behind the IP header. -/
theorem Ready.ip_at (a : Attempt) (dev : UInt32) :
    (Packets.ipOutput dev a.sk.daddr (tcpFill a.sk b a.seq)).data = 14 ∧
      (Packets.ipOutput dev a.sk.daddr (tcpFill a.sk b a.seq)).len.toNat = 20 + segLen skb := by
  obtain ⟨hdata, hlen⟩ := h.fill_at a
  have hmlen := h.length_mem
  have hsize := h.size
  have hseg : segLen skb = 20 + skb.th.opts.length + skb.payload.length := rfl
  have hclen := (h.carries_fill a.sk a.seq).length
  rw [ipOutput_eq_id dev a.sk.daddr _ (by omega)]
  refine ⟨?_, ?_⟩
  · show (tcpFill a.sk b a.seq).data - 20 = 14
    rw [hdata]
  · show ((tcpFill a.sk b a.seq).len + 20).toNat = _
    rw [UInt32.toNat_add, hlen]
    show (segLen skb + 20) % 2 ^ 32 = _
    omega

/-- Where a transmission can stop. -/
theorem Ready.output_cases (a : Attempt) :
    a.route b = none ∧ (a.output b).skb = tcpFill a.sk b a.seq ∧ ipFrames (a.output b) = [] ∨
      ∃ rt, a.route b = some rt ∧
        ((a.output b).skb = Packets.ipOutput rt.dev.addr a.sk.daddr (tcpFill a.sk b a.seq) ∧
            ipFrames (a.output b) = [] ∨
          ∃ k dmac, k < 3 ∧ arpGetHwaddr (a.caches k) (nextHop rt a.sk.daddr) = some dmac ∧
            (a.output b).skb = netdevTransmit dmac rt.dev.hwaddr
              (Packets.ipOutput rt.dev.addr a.sk.daddr (tcpFill a.sk b a.seq)) ∧
            ipFrames (a.output b) = [frame (a.output b).skb]) := by
  have hmlen := h.length_mem
  have hsize := h.size
  have hseg : segLen skb = 20 + skb.th.opts.length + skb.payload.length := rfl
  cases hroute : a.route b with
  | none =>
    have hout : a.output b = { skb := tcpFill a.sk b a.seq } := by
      unfold Attempt.route at hroute
      rw [Attempt.output, Route.tcpTransmitSkb, Route.ipOutput, hroute]
    exact .inl ⟨rfl, by rw [hout], by rw [hout]; rfl⟩
  | some rt =>
    refine .inr ⟨rt, rfl, ?_⟩
    obtain ⟨hdata, hlen⟩ := h.ip_at a rt.dev.addr
    have hfill := h.carries_fill a.sk a.seq
    have hip := h.carries_ip rt.dev.addr a.sk.daddr hfill
    have hdaddr := @daddr_ipOutput rt.dev.addr a.sk.daddr (tcpFill a.sk b a.seq)
      (by rw [hfill.length]; omega)
    set out := Packets.ipOutput rt.dev.addr a.sk.daddr (tcpFill a.sk b a.seq) with hset
    have hout : a.output b = neighTries rt.dev (htonl (ipHdr out.mem).saddr)
        (nextHop rt a.sk.daddr) out [a.caches 0, a.caches 1, a.caches 2] := by
      unfold Attempt.route at hroute
      rw [Attempt.output, Route.tcpTransmitSkb, Route.ipOutput, hroute]
      simp only
      rw [dstNeighOutput, ← hset, hdaddr]
    rcases neighTries_cases rt.dev (htonl (ipHdr out.mem).saddr) (nextHop rt a.sk.daddr) out
      [a.caches 0, a.caches 1, a.caches 2] with ⟨hskb, hframes⟩ | ⟨cache, hcache, dmac, hget, hskb, hframes⟩
    · rw [hout]
      exact .inl ⟨hskb, hframes⟩
    · have hk : ∃ k, k < 3 ∧ cache = a.caches k := by
        simp only [List.mem_cons, List.not_mem_nil, or_false] at hcache
        rcases hcache with rfl | rfl | rfl
        · exact ⟨0, by omega, rfl⟩
        · exact ⟨1, by omega, rfl⟩
        · exact ⟨2, by omega, rfl⟩
      obtain ⟨k, hk, rfl⟩ := hk
      have htype : of16 (slice (frame (netdevTransmit dmac rt.dev.hwaddr out)) 12 2) =
          htons 0x0800 := by
        rw [← netdevTransmitAs_ip, slice_frame_type _ _ _ hdata (by omega)
          (by rw [hip.length]; omega), of16_le16]
      rw [hout]
      refine .inr ⟨k, dmac, hk, hget, hskb, ?_⟩
      rw [hframes, hskb]
      exact List.filter_cons_of_pos (by simpa using htype)

/-- The buffer after a transmission still has its segment. -/
theorem Ready.carries_output (a : Attempt) : Carries a.sk b skb a.seq (a.output b).skb := by
  have hfill := h.carries_fill a.sk a.seq
  rcases h.output_cases a with ⟨-, hskb, -⟩ | ⟨rt, -, ⟨hskb, -⟩ | ⟨k, dmac, -, -, hskb, -⟩⟩ <;> rw [hskb]
  · exact hfill
  · exact h.carries_ip _ _ hfill
  · exact h.carries_eth _ _ (h.carries_ip _ _ hfill) (h.ip_at a rt.dev.addr).1

theorem Ready.next (a : Attempt) :
    Ready (skbResetHeader (a.output b).skb) (sentSkb a.sk skb a.seq) := h.reset (h.carries_output a)

/-- No push goes beyond `head`. -/
theorem Ready.stages (a : Attempt) : ∀ s ∈ a.stages b, InBounds s := by
  have hmlen := h.length_mem
  have hsize := h.size
  have hseg : segLen skb = 20 + skb.th.opts.length + skb.payload.length := rfl
  have hfill := h.carries_fill a.sk a.seq
  have hfillat := h.fill_at a
  have hb : InBounds b := by
    have hnat : b.len.toNat = skb.payload.length := by
      rw [h.holds.len, UInt32.toNat_ofNat']
      omega
    rw [InBounds, hnat]
    exact h.holds.data
  have hfillin : InBounds (tcpFill a.sk b a.seq) := by
    rw [InBounds, hfill.length, hfillat.1, hfillat.2, hmlen]
  intro s hs
  rcases h.output_cases a with ⟨hroute, -, -⟩ | ⟨rt, hroute, hcase⟩ <;>
    rw [Attempt.stages, hroute] at hs
  · rcases List.mem_cons.mp hs with rfl | hs
    · exact hb
    · rw [List.mem_singleton.mp hs]
      exact hfillin
  · have hip := h.carries_ip rt.dev.addr a.sk.daddr hfill
    have hipat := h.ip_at a rt.dev.addr
    have hipin : InBounds (Packets.ipOutput rt.dev.addr a.sk.daddr (tcpFill a.sk b a.seq)) := by
      rw [InBounds, hip.length, hipat.1, hipat.2, hmlen]
      omega
    simp only [List.mem_cons, List.not_mem_nil, or_false] at hs
    rcases hs with rfl | rfl | rfl | rfl
    · exact hb
    · exact hfillin
    · exact hipin
    · rcases hcase with ⟨hskb, -⟩ | ⟨k, dmac, -, -, hskb, -⟩ <;> rw [hskb]
      · exact hipin
      · have heth := h.carries_eth dmac rt.dev.hwaddr hip hipat.1
        have hlen : (Packets.ipOutput rt.dev.addr a.sk.daddr (tcpFill a.sk b a.seq)).len.toNat + 14 <
            4294967296 := by omega
        rw [InBounds, heth.length, hmlen]
        show (Packets.ipOutput rt.dev.addr a.sk.daddr (tcpFill a.sk b a.seq)).data - 14 +
          ((Packets.ipOutput rt.dev.addr a.sk.daddr (tcpFill a.sk b a.seq)).len + 14).toNat = _
        rw [UInt32.toNat_add, hipat.1, hipat.2]
        show 0 + (20 + segLen skb + 14) % 2 ^ 32 = _
        omega

/-- The frame that leaves, part by part. -/
theorem Ready.framed {a : Attempt} {f : List UInt8} (hf : f ∈ ipFrames (a.output b)) :
    ∃ rt k dmac, a.route b = some rt ∧ k < 3 ∧
      arpGetHwaddr (a.caches k) (nextHop rt a.sk.daddr) = some dmac ∧
      (a.output b).skb.data = 0 ∧ f = frame (a.output b).skb ∧
      Framed (wireIp rt.dev.addr a.sk.daddr 6 0 (UInt16.ofNat (20 + segLen skb))
          (ipCsum rt.dev.addr a.sk.daddr 6 0 (UInt16.ofNat (20 + segLen skb))))
        dmac rt.dev.hwaddr (tcpFill a.sk b a.seq) (segLen skb) f := by
  have hmlen := h.length_mem
  have hsize := h.size
  have hseg : segLen skb = 20 + skb.th.opts.length + skb.payload.length := rfl
  have hfill := h.carries_fill a.sk a.seq
  obtain ⟨hdata, hlen⟩ := h.fill_at a
  rcases h.output_cases a with ⟨-, -, hnone⟩ | ⟨rt, hroute, ⟨-, hnone⟩ | ⟨k, dmac, hk, hget, hskb, hone⟩⟩
  · rw [hnone] at hf
    cases hf
  · rw [hnone] at hf
    cases hf
  rw [hone] at hf
  have heq := List.mem_singleton.mp hf
  have hframed := @framed_ipOutput rt.dev.addr a.sk.daddr dmac rt.dev.hwaddr (tcpFill a.sk b a.seq)
    (segLen skb) hdata hlen (by rw [hfill.length]; omega) (by omega)
  have hlen16 : ((tcpFill a.sk b a.seq).len + 20).toUInt16 = UInt16.ofNat (20 + segLen skb) := by
    rw [← UInt16.toNat_inj, UInt32.toNat_toUInt16, UInt32.toNat_add, hlen, UInt16.toNat_ofNat']
    show (segLen skb + 20) % 2 ^ 32 % 2 ^ 16 = _
    omega
  have hproto : (tcpFill a.sk b a.seq).protocol.toUInt8 = 6 := by
    rw [hfill.protocol, h.holds.protocol]
    rfl
  rw [hlen16, hproto, hfill.id] at hframed
  refine ⟨rt, k, dmac, hroute, hk, hget, ?_, heq, ?_⟩
  · rw [hskb]
    show (Packets.ipOutput rt.dev.addr a.sk.daddr (tcpFill a.sk b a.seq)).data - 14 = 0
    rw [(h.ip_at a rt.dev.addr).1]
  · rw [heq, hskb]
    exact hframed

end Attempt

/-- The TCP header and the text of a frame. -/
theorem Ready.slices (h : Ready b skb) {a : Attempt} {W : Iphdr} {dmac hwaddr : Vector UInt8 6}
    {f : List UInt8} (hf : Framed W dmac hwaddr (tcpFill a.sk b a.seq) (segLen skb) f) :
    slice f 34 20 = (wireTcp a.sk skb.th a.seq (tcpCsum a.sk skb a.seq)).bytes ∧
      slice f 54 (skb.th.opts.length + skb.payload.length) = skb.th.opts ++ skb.payload := by
  have hseg : segLen skb = 20 + skb.th.opts.length + skb.payload.length := rfl
  have hdrop := (h.carries_fill a.sk a.seq).drop
  have htext : (tcpFill a.sk b a.seq).mem.drop 54 = skb.th.opts ++ skb.payload := by
    rw [← h.holds.text, show 54 = 34 + 20 from rfl, ← List.drop_drop, hdrop, List.drop_append,
      List.drop_of_length_le (by simp)]
    simp
  refine ⟨?_, ?_⟩
  · rw [hf.behind 34 20 (by omega) (by omega), slice, hdrop,
      List.take_append_of_le_length (by simp), List.take_of_length_le (by simp)]
  · rw [hf.behind 54 _ (by omega) (by omega), slice, htext]
    exact List.take_of_length_le (by simp)

theorem Ready.written (h : Ready b skb) {f : List UInt8} (hf : f ∈ ipFrames (a.output b)) :
    ∃ rt, a.route b = some rt ∧ Written rt a skb (a.output b) f := by
  obtain ⟨rt, k, dmac, hroute, hk, hget, hdata, hframe, hframed⟩ := h.framed hf
  obtain ⟨htcp, htext⟩ := h.slices hframed
  have hsize := h.size
  have hmlen := h.length_mem
  have hsmall := h.holds.opts.1
  have hseg : segLen skb = 20 + skb.th.opts.length + skb.payload.length := rfl
  have hhdr : tcpHdr f = wireTcp a.sk skb.th a.seq (tcpCsum a.sk skb a.seq) := by
    rw [tcpHdr, htcp, Tcphdr.read_bytes]
  have hl4 : 4 * (tcpHdr f).hl.toNat = 20 + skb.th.opts.length := by
    have hlen := h.holds.hlen a.sk a.seq
    rw [hhdr]
    show 4 * (BitVec.ofNat 4 (fillHeader a.sk skb.th a.seq).hl.toNat).toNat = _
    rw [BitVec.toNat_ofNat]
    omega
  refine ⟨rt, hroute, ⟨hdata, hframe⟩, hl4, ?_, ⟨k, dmac, hk, hget, hframed.eth⟩, ?_, ?_, ?_, ?_, htext⟩
  · rw [hl4, hframed.length]
    omega
  · rw [hframed.ipHdr_eq]
    exact ⟨rfl, rfl⟩
  · rw [hframed.hdr]
    exact ipCsum_verifies _ _ _ _ _
  · have hverify := h.holds.tcpTransmitSkb_verifies a.sk rt.dev.addr a.seq (by omega)
    rw [Packets.tcpTransmitSkb_fill, ipOutput_behind _ _ _
      (by rw [(h.carries_fill a.sk a.seq).length]; omega)] at hverify
    rw [hl4, hframed.behind 34 _ (by omega) (by omega)]
    exact hverify
  · rw [hhdr]
    exact ⟨rfl, rfl⟩

/-! ### The same bytes -/

/-- What no transmission changes. -/
structure Alike (skb skb' : Skb) : Prop where
  payload : skb'.payload = skb.payload
  opts : skb'.th.opts = skb.th.opts
  fin : skb'.th.fin = skb.th.fin
  syn : skb'.th.syn = skb.th.syn
  rst : skb'.th.rst = skb.th.rst
  psh : skb'.th.psh = skb.th.psh
  ack : skb'.th.ack = skb.th.ack
  urg : skb'.th.urg = skb.th.urg
  ece : skb'.th.ece = skb.th.ece
  cwr : skb'.th.cwr = skb.th.cwr

theorem Alike.symm {skb skb' : Skb} (h : Alike skb skb') : Alike skb' skb :=
  ⟨h.payload.symm, h.opts.symm, h.fin.symm, h.syn.symm, h.rst.symm, h.psh.symm, h.ack.symm,
    h.urg.symm, h.ece.symm, h.cwr.symm⟩

theorem Alike.trans {skb skb' skb'' : Skb} (h : Alike skb skb') (h' : Alike skb' skb'') :
    Alike skb skb'' :=
  ⟨h'.payload.trans h.payload, h'.opts.trans h.opts, h'.fin.trans h.fin, h'.syn.trans h.syn,
    h'.rst.trans h.rst, h'.psh.trans h.psh, h'.ack.trans h.ack, h'.urg.trans h.urg,
    h'.ece.trans h.ece, h'.cwr.trans h.cwr⟩

theorem alike_sentSkb (sk : TcpSock) (skb : Skb) (seq : UInt32) : Alike skb (sentSkb sk skb seq) :=
  ⟨rfl, rfl, rfl, rfl, rfl, rfl, rfl, rfl, rfl, rfl⟩

/-- The two headers of one segment differ in the numbers and in the checksum. -/
theorem wireTcp_same {sk sk' : TcpSock} {skb skb' : Skb} {b b' : SkBuff} (h : Holds b skb)
    (h' : Holds b' skb') (hends : SameEnds sk sk') (halike : Alike skb skb')
    (seq seq' : UInt32) (c c' : UInt16) : wireTcp sk' skb'.th seq' c' =
      { wireTcp sk skb.th seq c with
        seq := htonl seq', ackSeq := htonl sk'.rcvNxt, win := htons sk'.rcvWnd.toUInt16
        csum := c' } := by
  have hhl : (fillHeader sk' skb'.th seq').hl = (fillHeader sk skb.th seq).hl := by
    have hlen := h.hlen sk seq
    have hlen' := h'.hlen sk' seq'
    rw [halike.opts] at hlen'
    exact UInt8.toNat_inj.mp (by omega)
  unfold wireTcp
  rw [hhl, hends.sport, hends.dport, halike.fin, halike.syn, halike.rst, halike.psh, halike.ack,
    halike.urg, halike.ece, halike.cwr]

theorem bytes_same (h : Tcphdr) (s a : UInt32) (w c : UInt16) {i : ℕ} (hi : i < 20)
    (hno : ¬ Varies (34 + i)) :
    ({ h with seq := s, ackSeq := a, win := w, csum := c } : Tcphdr).bytes[i]? = h.bytes[i]? := by
  unfold Varies at hno
  interval_cases i <;> first | rfl | omega

/-- **One byte of two frames.** -/
theorem frames_same {b' : SkBuff} {skb' : Skb} {a' : Attempt} {W : Iphdr} {f f' : List UInt8}
    {dmac dmac' hwaddr : Vector UInt8 6} (h : Ready b skb) (h' : Ready b' skb')
    (hends : SameEnds a.sk a'.sk) (halike : Alike skb skb')
    (hf : Framed W dmac hwaddr (tcpFill a.sk b a.seq) (segLen skb) f)
    (hf' : Framed W dmac' hwaddr (tcpFill a'.sk b' a'.seq) (segLen skb) f')
    {i : ℕ} (hi : ¬ Varies i) : f'[i]? = f[i]? := by
  have hseg : segLen skb' = segLen skb := by
    rw [segLen, segLen, halike.opts, halike.payload]
  have hsegeq : segLen skb = 20 + skb.th.opts.length + skb.payload.length := rfl
  obtain ⟨htcp, htext⟩ := h.slices hf
  obtain ⟨htcp', htext'⟩ := h'.slices (hseg.symm ▸ hf')
  have hat : ∀ j n, j ≤ i → i < j + n → slice f' j n = slice f j n → f'[i]? = f[i]? := by
    intro j n hj hn hslice
    have hget : ∀ m : List UInt8, m[i]? = (slice m j n)[i - j]? := fun m => by
      rw [getElem?_slice (by omega), Nat.add_sub_cancel' hj]
    rw [hget, hget, hslice]
  by_cases h14 : i < 14
  · -- the Ethernet header behind its first field
    have hsix : 6 ≤ i := by
      unfold Varies at hi
      omega
    have hget : ∀ (m : List UInt8) (d : Vector UInt8 6),
        slice m 0 14 = EthHdr.bytes ⟨d, hwaddr, htons 0x0800⟩ →
        m[i]? = (hwaddr.toList ++ le16 (htons 0x0800))[i - 6]? := fun m d hm => by
      have hlen : d.toList.length = 6 := by simp
      have hbytes : EthHdr.bytes ⟨d, hwaddr, htons 0x0800⟩ =
          d.toList ++ (hwaddr.toList ++ le16 (htons 0x0800)) := rfl
      have hget := getElem?_slice (m := m) (i := 0) h14
      rw [Nat.zero_add] at hget
      rw [← hget, hm, hbytes, List.getElem?_append_right (by omega), hlen]
    rw [hget f' dmac' hf'.eth, hget f dmac hf.eth]
  by_cases h34 : i < 34
  · exact hat 14 20 (by omega) (by omega) (hf'.hdr.trans hf.hdr.symm)
  by_cases h54 : i < 54
  · have hget : ∀ m : List UInt8, m[i]? = (slice m 34 20)[i - 34]? := fun m => by
      rw [getElem?_slice (by omega)]
      congr 1
      omega
    rw [hget f', hget f, htcp', htcp,
      wireTcp_same h.holds h'.holds hends halike a.seq a'.seq (tcpCsum a.sk skb a.seq)]
    refine bytes_same _ _ _ _ _ (by omega) ?_
    rwa [show 34 + (i - 34) = i by omega]
  by_cases hend : i < 34 + segLen skb
  · rw [halike.opts, halike.payload] at htext'
    exact hat 54 _ (by omega) (by omega) (htext'.trans htext.symm)
  · rw [List.getElem?_eq_none (by rw [hf'.length]; omega),
      List.getElem?_eq_none (by rw [hf.length]; omega)]

/-! ### All transmissions -/

/-- Every transmission gets a buffer that is ready, with the same text and the same flags. -/
theorem ready_attempts : ∀ (as : List Attempt) (b : SkBuff) (skb : Skb), Ready b skb →
    ∀ p ∈ attempts b as, p.1 ∈ as ∧ ∃ skb', Ready p.2 skb' ∧ Alike skb skb'
  | [], _, _, _, p, hp => by cases hp
  | a :: as, b, skb, h, p, hp => by
    rcases List.mem_cons.mp hp with rfl | hp
    · exact ⟨List.mem_cons_self, skb, h, rfl, rfl, rfl, rfl, rfl, rfl, rfl, rfl, rfl, rfl⟩
    · obtain ⟨hmem, skb', hready, halike⟩ := ready_attempts as _ _ (h.next a) p hp
      exact ⟨List.mem_cons_of_mem _ hmem, skb', hready, (alike_sentSkb a.sk skb a.seq).trans halike⟩

/-- **A queued segment can be sent any number of times.** -/
theorem resend_exact (b : SkBuff) (skb : Skb) (sk : TcpSock) (rt : Rtentry) (as : List Attempt)
    (hq : Queued b skb) (hsk : ∀ a ∈ as, SameEnds sk a.sk)
    (hrt : ∀ p ∈ attempts b as, ∀ rt', p.1.route p.2 = some rt' → rt' = rt) :
    (∀ p ∈ attempts b as, ∀ s ∈ p.1.stages p.2, InBounds s) ∧
    (∀ p ∈ attempts b as, ∀ f ∈ ipFrames (p.1.output p.2),
      Written rt p.1 skb (p.1.output p.2) f) ∧
    ∀ p ∈ attempts b as, ∀ p' ∈ attempts b as, ∀ f ∈ ipFrames (p.1.output p.2),
      ∀ f' ∈ ipFrames (p'.1.output p'.2), ∀ i, ¬ Varies i → f'[i]? = f[i]? := by
  have hready := ready_attempts as b skb hq.ready
  refine ⟨fun p hp => ?_, fun p hp f hf => ?_, fun p hp p' hp' f hf f' hf' i hi => ?_⟩
  · obtain ⟨-, skb', h, -⟩ := hready p hp
    exact h.stages p.1
  · obtain ⟨-, skb', h, halike⟩ := hready p hp
    obtain ⟨rt', hroute, hw⟩ := h.written hf
    obtain rfl := hrt p hp rt' hroute
    refine ⟨hw.head, ?_, ?_, hw.eth, hw.addrs, hw.ip, ?_, hw.numbers, ?_⟩
    · rw [hw.hl, halike.opts]
    · rw [hw.length, halike.payload]
    · rw [← halike.payload]
      exact hw.tcp
    · rw [← halike.payload, ← halike.opts]
      exact hw.text
  · obtain ⟨hmem, skb₁, h, halike⟩ := hready p hp
    obtain ⟨hmem', skb₂, h', halike'⟩ := hready p' hp'
    obtain ⟨rt₁, -, dmac, hroute, -, -, -, -, hframed⟩ := h.framed hf
    obtain ⟨rt₂, -, dmac', hroute', -, -, -, -, hframed'⟩ := h'.framed hf'
    obtain rfl := hrt p hp rt₁ hroute
    obtain rfl := hrt p' hp' rt₂ hroute'
    have hends : SameEnds p.1.sk p'.1.sk := by
      have hs := hsk p.1 hmem
      have hs' := hsk p'.1 hmem'
      exact ⟨hs'.saddr.trans hs.saddr.symm, hs'.daddr.trans hs.daddr.symm,
        hs'.sport.trans hs.sport.symm, hs'.dport.trans hs.dport.symm⟩
    have hboth := halike.symm.trans halike'
    have hseg : segLen skb₂ = segLen skb₁ := by
      rw [segLen, segLen, hboth.opts, hboth.payload]
    rw [hends.daddr, hseg] at hframed'
    exact frames_same h h' hends hboth hframed hframed' hi

/-- A FIN that is sent with ARP unresolved, and again when the gateway has answered. -/
def finAttempts : List Attempt :=
  [⟨{ saddr := netdev.addr, daddr := tapaddr, sport := 40001, dport := 80, rcvNxt := 7 }, 100, routeInit,
      fun _ => []⟩,
    ⟨{ saddr := netdev.addr, daddr := tapaddr, sport := 40001, dport := 80, rcvNxt := 9 }, 100, routeInit,
      fun _ => [⟨1, tapaddr, mac [2, 0, 0, 0, 0, 5], arpResolved⟩]⟩]

theorem resend_exact_fin :
    (∀ p ∈ attempts (textSkb { fin := true, ack := true } []) finAttempts,
      ∀ s ∈ p.1.stages p.2, InBounds s) ∧
    (∀ p ∈ attempts (textSkb { fin := true, ack := true } []) finAttempts,
      ∀ f ∈ ipFrames (p.1.output p.2), Written defaultRoute p.1
        { Tcp.Output.tcpAllocSkb 0 with th := { fin := true, ack := true } } (p.1.output p.2) f) ∧
    ∀ p ∈ attempts (textSkb { fin := true, ack := true } []) finAttempts,
      ∀ p' ∈ attempts (textSkb { fin := true, ack := true } []) finAttempts,
      ∀ f ∈ ipFrames (p.1.output p.2), ∀ f' ∈ ipFrames (p'.1.output p'.2),
      ∀ i, ¬ Varies i → f'[i]? = f[i]? := by
  refine resend_exact _ _ { saddr := netdev.addr, daddr := tapaddr, sport := 40001, dport := 80 }
    defaultRoute finAttempts .fin (fun a ha => ?_) fun p hp rt' hrt => ?_
  · simp only [finAttempts, List.mem_cons, List.not_mem_nil, or_false] at ha
    rcases ha with rfl | rfl <;> exact ⟨rfl, rfl, rfl, rfl⟩
  · obtain ⟨hmem, -⟩ := ready_attempts finAttempts _ _ Queued.fin.ready p hp
    have hroutes : p.1.routes = routeInit := by
      simp only [finAttempts, List.mem_cons, List.not_mem_nil, or_false] at hmem
      rcases hmem with h | h <;> rw [h]
    rw [Attempt.route, hroutes, routeLookup_routeInit] at hrt
    exact (Option.some.inj hrt).symm

end ToyIP.Net.Resend
