import ToyIP.Lib.Run
import ToyIP.Net.ArpReply
import ToyIP.Net.Route

/-! # Network: neighbours

Hosts that run the stack on one Ethernet. Each has its device and its `arp_cache`; `sent` are all
the frames that were given to `tun_write`. The network can lose a frame, deliver it late, twice or
to any host, since `netdev_receive` does not look at the destination. A host sends a packet to the
next hop as one turn of the loop in `dst_neigh_output` does: if the cache knows the next hop, the
packet goes out, and otherwise a request does.

No host is ever told a wrong address (`Sound`), so a packet never goes to another host than its
next hop (`sent_to_next_hop`), and once the request and the reply have arrived both hosts know each
other for good (`resolves`). -/

namespace ToyIP.Net.Neighbours

open ToyIP.Lib.Run ToyIP.Lib.Bytes ToyIP.Net.Checksum ToyIP.Net.Headers ToyIP.Net.Packets
  ToyIP.Net.Arp ToyIP.Net.ArpReply ToyIP.Net.Route

/-! ### The Ethernet -/

/-- `tun_read` of a frame into a new buffer. -/
def tunRead (f : List UInt8) : RxBuf :=
  ⟨(f ++ List.replicate buflen 0).take buflen, by simp⟩

/-- A packet in its buffer, behind room for the Ethernet header. -/
structure OutSkb where
  skb : SkBuff
  room : 14 ≤ skb.data
  fits : skb.data + skb.len.toNat ≤ skb.mem.length
  small : skb.len.toNat + 14 < 2 ^ 32

structure Ether (ι : Type*) where
  cache : ι → List ArpCacheEntry
  sent : List (List UInt8)

inductive Event (ι : Type*)
  | output (i : ι) (hop : UInt32) (pkt : OutSkb)
  | deliver (i : ι) (f : List UInt8)

variable {ι : Type*}

def init : Ether ι := ⟨fun _ => [], []⟩

section

variable [DecidableEq ι] (dev : ι → Netdev)

/-- `arp_rcv` on the host `i`. -/
def hear (s : Ether ι) (i : ι) (buf : RxBuf) : Ether ι :=
  let r := arpRcv (dev i) (s.cache i) buf.mem
  { cache := Function.update s.cache i r.cache, sent := s.sent ++ r.reply.toList }

/-- A try of `dst_neigh_output` on the host `i`, or `netdev_receive` of a frame there. -/
def step (s : Ether ι) : Event ι → Option (Ether ι)
  | .output i hop pkt =>
    let o := neighTries (dev i) (dev i).addr hop pkt.skb [s.cache i]
    some { s with sent := s.sent ++ o.frames }
  | .deliver i f =>
    if f ∈ s.sent then
      if htons (of16 (slice (tunRead f).mem 12 2)) = 0x0806 then some (hear dev s i (tunRead f))
      else some s
    else none

end

/-- The tries of `dst_neigh_output` are such turns, each with the cache at its time. -/
theorem neighTries_cons (dev : Netdev) (saddr daddr : UInt32) (skb : SkBuff)
    (cache : List ArpCacheEntry) (caches : List (List ArpCacheEntry)) :
    (neighTries dev saddr daddr skb (cache :: caches)).frames =
      (neighTries dev saddr daddr skb [cache]).frames ++
        if (arpGetHwaddr cache daddr).isSome then []
        else (neighTries dev saddr daddr skb caches).frames := by
  cases h : arpGetHwaddr cache daddr <;> simp [neighTries, h]

/-! ### ARP frames -/

/-- A frame with the sender `dev`. -/
def arpFrame (dev : Netdev) (op : UInt16) (sizes : UInt8 × UInt8) (dst dmac : Vector UInt8 6)
    (dip : UInt32) : List UInt8 :=
  EthHdr.bytes ⟨dst, dev.hwaddr, htons 0x0806⟩ ++
    (ArpHdr.bytes ⟨htons arpEthernet, htons arpIpv4, sizes.1, sizes.2, htons op⟩ ++
      ArpIpv4.bytes ⟨dev.hwaddr, htonl dev.addr, dmac, htonl dip⟩)

/-- `arp_request` for `ip`. -/
def request (dev : Netdev) (ip : UInt32) : List UInt8 :=
  arpFrame dev arpRequestOp (6, 4) broadcastHw broadcastHw ip

/-- `arp_reply` to a request of `peer`. -/
def reply (dev peer : Netdev) : List UInt8 :=
  arpFrame dev arpReplyOp (6, 4) peer.hwaddr peer.hwaddr peer.addr

/-- The frame of an IP packet. -/
def ipFrame (dev : Netdev) (dmac : Vector UInt8 6) (pkt : OutSkb) : List UInt8 :=
  EthHdr.bytes ⟨dmac, dev.hwaddr, htons 0x0800⟩ ++ frame pkt.skb

theorem frame_arpRequest (dev : Netdev) (ip : UInt32) :
    frame (arpRequest dev dev.addr ip) = request dev ip := by
  set eth : EthHdr := ⟨broadcastHw, dev.hwaddr, htons 0x0806⟩
  set hdr : ArpHdr := ⟨htons arpEthernet, htons arpIpv4, 6, 4, htons arpRequestOp⟩
  set data : ArpIpv4 := ⟨dev.hwaddr, htonl dev.addr, broadcastHw, htonl ip⟩
  have hlen : (List.replicate 42 (0 : UInt8)).length = 42 := by simp
  have hlen' := length_putArpHdr hlen.ge hdr
  have hlen'' : (putArpData (putArpHdr (List.replicate 42 0) hdr) data).length = _ :=
    length_putArpData (by omega) data
  have hframe : frame (arpRequest dev dev.addr ip) =
      slice (splice (putArpData (putArpHdr (List.replicate 42 0) hdr) data) 0 eth.bytes)
        0 (14 + (8 + 20)) := rfl
  rw [hframe, slice_add, slice_add, slice_splice_eq eth.length_bytes (by omega),
    slice_splice_behind (by omega) (by simp), slice_splice_behind (by omega) (by simp)]
  refine congrArg (eth.bytes ++ ·) (congrArg₂ (· ++ ·) ?_ ?_)
  · have hhdr := ArpHdr.length_bytes hdr
    rw [putArpData, slice_splice_before (by omega) (by omega)]
    exact slice_splice_eq hhdr (by omega)
  · exact slice_splice_eq (ArpIpv4.length_bytes data) (by omega)

/-- `netdev_transmit` writes the header in front of the packet. -/
theorem frame_netdevTransmit (dev : Netdev) (dmac : Vector UInt8 6) (pkt : OutSkb) :
    frame (netdevTransmit dmac dev.hwaddr pkt.skb) = ipFrame dev dmac pkt := by
  obtain ⟨skb, hroom, hfits, hsmall⟩ := pkt
  have heth := EthHdr.length_bytes ⟨dmac, dev.hwaddr, htons 0x0800⟩
  have hlen : (skb.len + 14).toNat = 14 + skb.len.toNat := by
    rw [UInt32.toNat_add]
    show (skb.len.toNat + 14) % 2 ^ 32 = _
    omega
  show slice (splice skb.mem (skb.data - 14) _) (skb.data - 14) (skb.len + 14).toNat = _
  rw [hlen, slice_add, slice_splice_eq heth (by omega), slice_splice_behind (by omega) (by omega)]
  show _ = _ ++ slice skb.mem skb.data skb.len.toNat
  congr 3
  omega

theorem length_arpFrame (dev : Netdev) (op : UInt16) (sizes : UInt8 × UInt8)
    (dst dmac : Vector UInt8 6) (dip : UInt32) : (arpFrame dev op sizes dst dmac dip).length = 42 := by
  simp [arpFrame, ArpHdr.length_bytes, ArpIpv4.length_bytes]

/-- The start of a frame is read as it was sent. -/
theorem slice_tunRead {f : List UInt8} {i n : ℕ} (h : i + n ≤ f.length) (h' : i + n ≤ buflen) :
    slice (tunRead f).mem i n = slice f i n := by
  have hsplit : slice (tunRead f).mem i n = slice (f ++ List.replicate buflen 0) i n := by
    show ((List.take buflen _).drop i).take n = _
    rw [List.drop_take, List.take_take, Nat.min_eq_left (by omega)]
    rfl
  rw [hsplit, slice_append h]

/-- A frame that fits the buffer is followed by zeros. -/
theorem mem_tunRead {f : List UInt8} (h : f.length ≤ buflen) :
    (tunRead f).mem = f ++ List.replicate (buflen - f.length) 0 := by
  show List.take buflen (f ++ List.replicate buflen 0) = _
  rw [List.take_append, List.take_of_length_le h, List.take_replicate, Nat.min_eq_left (by omega)]

section Read

variable (dev : Netdev) (op : UInt16) (sizes : UInt8 × UInt8) (dst dmac : Vector UInt8 6)
  (dip : UInt32)

theorem ethertype_arpFrame :
    htons (of16 (slice (tunRead (arpFrame dev op sizes dst dmac dip)).mem 12 2)) = 0x0806 := by
  have hlen := length_arpFrame dev op sizes dst dmac dip
  have hbuf : buflen = 1600 := rfl
  rw [slice_tunRead (by omega) (by omega), arpFrame, slice_append (by simp), EthHdr.slice_bytes,
    of16_le16, htons_htons]

theorem arpHdr_arpFrame : arpHdr (tunRead (arpFrame dev op sizes dst dmac dip)).mem =
    ⟨htons arpEthernet, htons arpIpv4, sizes.1, sizes.2, htons op⟩ := by
  have hlen := length_arpFrame dev op sizes dst dmac dip
  have hbuf : buflen = 1600 := rfl
  rw [arpHdr, slice_tunRead (by omega) (by omega), arpFrame, slice_of_append (by simp),
    EthHdr.length_bytes, slice_prefix (ArpHdr.length_bytes _), ArpHdr.read_bytes]

theorem arpData_arpFrame : arpData (tunRead (arpFrame dev op sizes dst dmac dip)).mem =
    ⟨dev.hwaddr, htonl dev.addr, dmac, htonl dip⟩ := by
  have hlen := length_arpFrame dev op sizes dst dmac dip
  have hbuf : buflen = 1600 := rfl
  have hdata := ArpIpv4.length_bytes ⟨dev.hwaddr, htonl dev.addr, dmac, htonl dip⟩
  rw [arpData, slice_tunRead (by omega) (by omega), arpFrame, slice_of_append (by simp),
    EthHdr.length_bytes, slice_of_append (by simp [ArpHdr.length_bytes]), ArpHdr.length_bytes,
    show 22 - 14 - 8 = 0 from rfl, ← hdata, slice_all, ArpIpv4.read_bytes]

theorem hostHdr_arpFrame : hostHdr (tunRead (arpFrame dev op sizes dst dmac dip)).mem =
    ⟨arpEthernet, arpIpv4, sizes.1, sizes.2, op⟩ := by
  simp only [hostHdr, arpHdr_arpFrame, htons_htons]

theorem translates_arpFrame : Translates (tunRead (arpFrame dev op sizes dst dmac dip)).mem := by
  simp only [Translates, arpHdr_arpFrame, htons_htons, and_self]

theorem sender_arpFrame : sender (tunRead (arpFrame dev op sizes dst dmac dip)).mem =
    ⟨dev.hwaddr, dev.addr, dmac, dip⟩ := by
  simp only [sender, arpData_arpFrame, htonl_htonl]

end Read

/-- The answer to an ARP frame comes from this host, if there is one. -/
theorem reply_arpFrame (dev peer : Netdev) (cache : List ArpCacheEntry) (op : UInt16)
    (sizes : UInt8 × UInt8) (dst dmac : Vector UInt8 6) (dip : UInt32) :
    (arpRcv dev cache (tunRead (arpFrame peer op sizes dst dmac dip)).mem).reply =
      if dip = dev.addr ∧ op = arpRequestOp then
        some (arpFrame dev arpReplyOp sizes peer.hwaddr peer.hwaddr peer.addr)
      else none := by
  have hlen : 42 ≤ (tunRead (arpFrame peer op sizes dst dmac dip)).mem.length := by
    rw [RxBuf.length_mem]
    decide
  set buf := tunRead (arpFrame peer op sizes dst dmac dip)
  have hhost : hostHdr buf.mem = ⟨arpEthernet, arpIpv4, sizes.1, sizes.2, op⟩ :=
    hostHdr_arpFrame peer op sizes dst dmac dip
  have hsender : sender buf.mem = ⟨peer.hwaddr, peer.addr, dmac, dip⟩ :=
    sender_arpFrame peer op sizes dst dmac dip
  have hasks : Asks dev buf.mem ↔ dip = dev.addr ∧ op = arpRequestOp := by
    rw [asks_iff hlen, hhost, hsender]
    simp
  have hlen' := length_putArpHdr hlen (hostHdr buf.mem)
  have hlen'' := length_putArpData (hlen' ▸ hlen) (sender buf.mem)
  rw [reply_arpRcv, frame_arpReply (by omega), arpHdr_putArpData (by omega),
    arpHdr_putArpHdr hlen, arpData_putArpData (by omega), hhost, hsender]
  exact if_congr hasks rfl rfl

/-- An IP frame is not taken for an ARP frame. -/
theorem ethertype_ipFrame (dev : Netdev) (dmac : Vector UInt8 6) (pkt : OutSkb) :
    htons (of16 (slice (tunRead (ipFrame dev dmac pkt)).mem 12 2)) = 0x0800 := by
  have hlen : 14 ≤ (ipFrame dev dmac pkt).length := by simp [ipFrame]
  have hbuf : buflen = 1600 := rfl
  rw [slice_tunRead (by omega) (by omega), ipFrame, slice_append (by simp), EthHdr.slice_bytes,
    of16_le16, htons_htons]

/-! ### What is known is right -/

/-- Every entry of every cache is the address of a host, and so is every sender of an ARP frame and
every destination of an IP frame. -/
structure Sound (dev : ι → Netdev) (s : Ether ι) : Prop where
  wf : ∀ i, Wf (s.cache i)
  cache : ∀ i ip m, arpGetHwaddr (s.cache i) ip = some m →
    ∃ j, (dev j).addr = ip ∧ (dev j).hwaddr = m
  sent : ∀ f ∈ s.sent, (∃ j op sizes dst dmac dip, f = arpFrame (dev j) op sizes dst dmac dip) ∨
    ∃ i j pkt, f = ipFrame (dev i) (dev j).hwaddr pkt

theorem sound_init {dev : ι → Netdev} : Sound dev (init : Ether ι) where
  wf _ := ⟨List.nodup_nil, fun _ he => absurd he List.not_mem_nil⟩
  cache i ip m h := by simp [init, arpGetHwaddr] at h
  sent f hf := absurd hf List.not_mem_nil

/-- No two hosts have the same address. -/
def Distinct (dev : ι → Netdev) : Prop := Function.Injective fun i => (dev i).addr

/-- With distinct addresses a known address is that of its host. -/
theorem Sound.get_of_known {dev : ι → Netdev} {s : Ether ι} {i j : ι} (hs : Sound dev s)
    (hdev : Distinct dev) (h : (arpGetHwaddr (s.cache i) (dev j).addr).isSome) :
    arpGetHwaddr (s.cache i) (dev j).addr = some (dev j).hwaddr := by
  obtain ⟨m, hm⟩ := Option.isSome_iff_exists.mp h
  obtain ⟨k, hk, rfl⟩ := hs.cache i _ m hm
  rw [hm, hdev hk]

section Steps

variable [DecidableEq ι] {dev : ι → Netdev} {s s' : Ether ι}

/-- A turn of the loop. -/
theorem step_output (s : Ether ι) (i : ι) (hop : UInt32) (pkt : OutSkb) :
    step dev s (.output i hop pkt) = some { s with
      sent := s.sent ++ [match arpGetHwaddr (s.cache i) hop with
        | some dmac => ipFrame (dev i) dmac pkt
        | none => request (dev i) hop] } := by
  cases h : arpGetHwaddr (s.cache i) hop <;>
    simp [step, neighTries, h, frame_netdevTransmit, frame_arpRequest]

/-- A frame arrives: it is no ARP frame, or the host hears it. -/
theorem step_deliver {i : ι} {f : List UInt8} (h : step dev s (.deliver i f) = some s') :
    f ∈ s.sent ∧ (htons (of16 (slice (tunRead f).mem 12 2)) ≠ 0x0806 ∧ s' = s ∨
      htons (of16 (slice (tunRead f).mem 12 2)) = 0x0806 ∧ s' = hear dev s i (tunRead f)) := by
  simp only [step, Option.ite_none_right_eq_some] at h
  obtain ⟨hf, h⟩ := h
  refine ⟨hf, ?_⟩
  split_ifs at h with htype
  · exact .inr ⟨htype, (Option.some.inj h).symm⟩
  · exact .inl ⟨htype, (Option.some.inj h).symm⟩

theorem cache_hear (s : Ether ι) (i : ι) (buf : RxBuf) (k : ι) : (hear dev s i buf).cache k =
    if k = i then (arpRcv (dev i) (s.cache i) buf.mem).cache else s.cache k := by
  rw [← Function.update_apply]
  rfl

theorem wf_hear (hs : ∀ k, Wf (s.cache k)) (i : ι) (buf : RxBuf) (k : ι) :
    Wf ((hear dev s i buf).cache k) := by
  rw [cache_hear]
  split_ifs
  · exact wf_arpRcv _ (hs i) buf
  · exact hs k

/-- What a host hears is an entry of its own cache. -/
theorem get_hear (hs : ∀ k, Wf (s.cache k)) (i : ι) (buf : RxBuf) (k : ι) (ip : UInt32) :
    arpGetHwaddr ((hear dev s i buf).cache k) ip =
      if k = i ∧ Accepted (dev i) (s.cache i) ip buf.mem then some (sender buf.mem).smac
      else arpGetHwaddr (s.cache k) ip := by
  rw [cache_hear]
  by_cases hk : k = i
  · subst hk
    rw [if_pos rfl, get_arpRcv _ (hs k)]
    simp
  · rw [if_neg hk, if_neg fun h => hk h.1]

/-- What one step preserves. -/
theorem Sound.step {e : Event ι} (hs : Sound dev s) (h : step dev s e = some s') :
    Sound dev s' := by
  cases e with
  | output i hop pkt =>
    rw [step_output, Option.some.injEq] at h
    subst h
    refine ⟨hs.wf, hs.cache, fun f hf => ?_⟩
    rcases List.mem_append.mp hf with hf | hf
    · exact hs.sent f hf
    · rw [List.mem_singleton] at hf
      cases hget : arpGetHwaddr (s.cache i) hop with
      | none => rw [hget] at hf; exact .inl ⟨i, _, _, _, _, _, hf⟩
      | some m =>
        rw [hget] at hf
        obtain ⟨j, -, rfl⟩ := hs.cache i hop m hget
        exact .inr ⟨i, j, pkt, hf⟩
  | deliver i f =>
    obtain ⟨hf, ⟨-, rfl⟩ | ⟨htype, rfl⟩⟩ := step_deliver h
    · exact hs
    rcases hs.sent f hf with ⟨j, op, sizes, dst, dmac, dip, rfl⟩ | ⟨k, j, pkt, rfl⟩
    · refine ⟨wf_hear hs.wf i _, fun k ip m hget => ?_, fun g hg => ?_⟩
      · rw [get_hear hs.wf, sender_arpFrame] at hget
        split_ifs at hget with hacc
        · -- the entry is of the sender of the frame
          obtain ⟨-, -, hip, -⟩ := hacc
          rw [sender_arpFrame] at hip
          exact ⟨j, hip, Option.some.inj hget⟩
        · exact hs.cache k ip m hget
      · rcases List.mem_append.mp hg with hg | hg
        · exact hs.sent g hg
        · rw [Option.mem_toList, reply_arpFrame] at hg
          split_ifs at hg with hreq
          exact .inl ⟨i, _, _, _, _, _, (Option.some.inj hg).symm⟩
    · rw [ethertype_ipFrame] at htype
      exact absurd htype (by decide)

theorem sound_run {es : List (Event ι)} (h : run (step dev) init es = some s) : Sound dev s :=
  run_inv (C := fun _ _ => True) (fun _ _ _ hs _ h => hs.step h) sound_init
    (Along.of_forall fun _ _ _ => trivial) h

/-- The stack, and the other end of its device. -/
def twoHosts : Bool → Netdev
  | false => netdev
  | true => ⟨tapaddr, #v[2, 0, 0, 0, 0, 1]⟩

/-- A packet without a byte behind its IP header. -/
def emptyPkt : OutSkb :=
  ⟨{ mem := List.replicate 34 0, data := 14, len := 20 }, by decide, by decide, by decide⟩

/-- The stack asks for the gateway. -/
def asking : List (Event Bool) :=
  [.output false tapaddr emptyPkt] ++ [.deliver true (request (twoHosts false) (twoHosts true).addr)]

theorem run_asking : ∃ s, run (step twoHosts) init asking = some s := by
  set f := request (twoHosts false) (twoHosts true).addr
  have hasks : step twoHosts init (.output false tapaddr emptyPkt) = some ⟨fun _ => [], [f]⟩ :=
    step_output ..
  have hhears : step twoHosts ⟨fun _ => [], [f]⟩ (.deliver true f) =
      some (hear twoHosts ⟨fun _ => [], [f]⟩ true (tunRead f)) := by
    rw [step, if_pos (List.mem_cons_self ..)]
    exact if_pos (ethertype_arpFrame ..)
  exact ⟨_, run_cons.mpr ⟨_, hasks, run_cons.mpr ⟨_, hhears, rfl⟩⟩⟩

/-- **No packet goes astray.** In every state that can be reached, every entry of a cache is the
hardware address of the host with that address, and a host that has a packet for a next hop either
sends the packet to the hardware address of a host with the address of the next hop, or does not
know one and asks for it. -/
theorem sent_to_next_hop {es : List (Event ι)} (h : run (step dev) init es = some s) (i : ι) :
    (∀ ip m, arpGetHwaddr (s.cache i) ip = some m → ∃ j, (dev j).addr = ip ∧ (dev j).hwaddr = m) ∧
    ∀ hop pkt, ∃ f, step dev s (.output i hop pkt) = some { s with sent := s.sent ++ [f] } ∧
      (arpGetHwaddr (s.cache i) hop = none ∧ f = request (dev i) hop ∨
        ∃ j, (dev j).addr = hop ∧ f = ipFrame (dev i) (dev j).hwaddr pkt) := by
  refine ⟨(sound_run h).cache i, fun hop pkt => ⟨_, step_output s i hop pkt, ?_⟩⟩
  cases hget : arpGetHwaddr (s.cache i) hop with
  | none => exact .inl ⟨rfl, rfl⟩
  | some m =>
    obtain ⟨j, hj, rfl⟩ := (sound_run h).cache i hop m hget
    exact .inr ⟨j, hj, rfl⟩

theorem sent_to_next_hop_asking : ∃ s, run (step twoHosts) init asking = some s ∧
    (∀ ip m, arpGetHwaddr (s.cache true) ip = some m →
      ∃ j, (twoHosts j).addr = ip ∧ (twoHosts j).hwaddr = m) ∧
    ∀ hop pkt, ∃ f, step twoHosts s (.output true hop pkt) = some { s with sent := s.sent ++ [f] } ∧
      (arpGetHwaddr (s.cache true) hop = none ∧ f = request (twoHosts true) hop ∨
        ∃ j, (twoHosts j).addr = hop ∧ f = ipFrame (twoHosts true) (twoHosts j).hwaddr pkt) := by
  obtain ⟨s, hs⟩ := run_asking
  exact ⟨s, hs, sent_to_next_hop hs true⟩

/-! ### What is asked is answered -/

/-- What a host knows it does not forget. -/
theorem known_step {e : Event ι} {i : ι} {ip : UInt32} (hs : Sound dev s)
    (h : step dev s e = some s') (hget : (arpGetHwaddr (s.cache i) ip).isSome) :
    (arpGetHwaddr (s'.cache i) ip).isSome := by
  cases e with
  | output k hop pkt =>
    rw [step_output, Option.some.injEq] at h
    subst h
    exact hget
  | deliver k f =>
    obtain ⟨-, ⟨-, rfl⟩ | ⟨-, rfl⟩⟩ := step_deliver h
    · exact hget
    · rw [get_hear hs.wf]
      split_ifs
      · rfl
      · exact hget

theorem known_run {es : List (Event ι)} {i : ι} {ip : UInt32} (hs : Sound dev s)
    (h : run (step dev) s es = some s') (hget : (arpGetHwaddr (s.cache i) ip).isSome) :
    (arpGetHwaddr (s'.cache i) ip).isSome :=
  (run_inv (P := fun s => Sound dev s ∧ (arpGetHwaddr (s.cache i) ip).isSome) (C := fun _ _ => True)
    (fun _ _ _ hs _ h => ⟨hs.1.step h, known_step hs.1 h hs.2⟩) ⟨hs, hget⟩
    (Along.of_forall fun _ _ _ => trivial) h).2

/-- A host hears an ARP frame that is for it. -/
theorem step_heard {i j : ι} {op : UInt16} {sizes : UInt8 × UInt8} {dst dmac : Vector UInt8 6}
    (hs : Sound dev s)
    (h : step dev s (.deliver j (arpFrame (dev i) op sizes dst dmac (dev j).addr)) = some s') :
    arpGetHwaddr (s'.cache j) (dev i).addr = some (dev i).hwaddr ∧ (op = arpRequestOp →
      arpFrame (dev j) arpReplyOp sizes (dev i).hwaddr (dev i).hwaddr (dev i).addr ∈ s'.sent) := by
  obtain ⟨-, ⟨hne, -⟩ | ⟨-, rfl⟩⟩ := step_deliver h
  · exact absurd (ethertype_arpFrame ..) hne
  constructor
  · rw [get_hear hs.wf, sender_arpFrame]
    refine if_pos ⟨rfl, translates_arpFrame .., ?_, .inr ?_⟩ <;> rw [sender_arpFrame]
  · rintro rfl
    refine List.mem_append_right _ (Option.mem_toList.mpr ?_)
    rw [reply_arpFrame]
    exact if_pos ⟨rfl, rfl⟩

/-- **A request resolves the next hop.** Once the request of `i` has arrived at the host `j` that it
asks for, `j` knows `i`, and its reply is sent; once that has arrived, `i` knows `j` in every later
state and sends its packets there. -/
theorem resolves (hdev : Distinct dev) {es : List (Event ι)} {i j : ι}
    (h : run (step dev) init (es ++ [.deliver j (request (dev i) (dev j).addr)]) = some s) :
    reply (dev j) (dev i) ∈ s.sent ∧
    (∀ fs s', run (step dev) s fs = some s' →
      arpGetHwaddr (s'.cache j) (dev i).addr = some (dev i).hwaddr) ∧
    ∀ fs gs s', run (step dev) s (fs ++ .deliver i (reply (dev j) (dev i)) :: gs) = some s' →
      arpGetHwaddr (s'.cache i) (dev j).addr = some (dev j).hwaddr ∧
      ∀ pkt, step dev s' (.output i (dev j).addr pkt) =
        some { s' with sent := s'.sent ++ [ipFrame (dev i) (dev j).hwaddr pkt] } := by
  have hs := sound_run h
  obtain ⟨s₀, hrun, hlast⟩ := run_append.mp h
  obtain ⟨s₁, hdeliver, hnil⟩ := run_cons.mp hlast
  obtain rfl := Option.some.inj hnil
  obtain ⟨hknown, hreply⟩ := step_heard (sound_run hrun) hdeliver
  refine ⟨hreply rfl, fun fs s' hfs => ?_, fun fs gs s' hfs => ?_⟩
  · have hs' : Sound dev s' := sound_run (run_append.mpr ⟨_, h, hfs⟩)
    exact hs'.get_of_known hdev (known_run hs hfs (by rw [hknown]; rfl))
  · have hs' : Sound dev s' := sound_run (run_append.mpr ⟨_, h, hfs⟩)
    obtain ⟨u, hu, hcons⟩ := run_append.mp hfs
    obtain ⟨v, hv, hgs⟩ := run_cons.mp hcons
    have hsu : Sound dev u := sound_run (run_append.mpr ⟨_, h, hu⟩)
    have hget : arpGetHwaddr (s'.cache i) (dev j).addr = some (dev j).hwaddr :=
      hs'.get_of_known hdev (known_run (hsu.step hv) hgs (by rw [(step_heard hsu hv).1]; rfl))
    refine ⟨hget, fun pkt => ?_⟩
    rw [step_output, hget]

theorem resolves_asking : ∃ s, run (step twoHosts) init asking = some s ∧
    reply (twoHosts true) (twoHosts false) ∈ s.sent ∧
    (∀ fs s', run (step twoHosts) s fs = some s' →
      arpGetHwaddr (s'.cache true) (twoHosts false).addr = some (twoHosts false).hwaddr) ∧
    ∀ fs gs s', run (step twoHosts) s
        (fs ++ .deliver false (reply (twoHosts true) (twoHosts false)) :: gs) = some s' →
      arpGetHwaddr (s'.cache false) (twoHosts true).addr = some (twoHosts true).hwaddr ∧
      ∀ pkt, step twoHosts s' (.output false (twoHosts true).addr pkt) =
        some { s' with sent := s'.sent ++ [ipFrame (twoHosts false) (twoHosts true).hwaddr pkt] } := by
  have hdistinct : Distinct twoHosts := by
    intro a b hab
    cases a <;> cases b <;> first | rfl | (revert hab; decide)
  obtain ⟨s, hs⟩ := run_asking
  exact ⟨s, hs, resolves hdistinct hs⟩

end Steps

end ToyIP.Net.Neighbours
