import ToyIP.Lib.Simulation
import ToyIP.Net.Neighbours
import ToyIP.Net.Resend
import ToyIP.Stack.TcpSocks
import ToyIP.Tcp.Segmentation

/-! # Network: the endpoints of a connection on an Ethernet

Between the endpoints of `Tcp.Network` segments are delivered. On the Ethernet there are frames: a
segment leaves as `segFrame`, and what a host is given are bytes, which `netdev_receive` has to take
apart before `tcp_in` looks for the sock. `wire_iff` says that the two come to the same. -/

namespace ToyIP.Net.Wire

open ToyIP.Lib.Bytes ToyIP.Lib.Run ToyIP.Lib.Simulation ToyIP.Net.Checksum ToyIP.Net.Headers
  ToyIP.Net.RoundTrip ToyIP.Net.Arp ToyIP.Net.Route ToyIP.Net.Resend ToyIP.Net.Neighbours
  ToyIP.Tcp.Types ToyIP.Tcp.Timer
  ToyIP.Tcp.Output ToyIP.Tcp.Data ToyIP.Tcp.Input ToyIP.Tcp.Sock ToyIP.Tcp.Sides ToyIP.Tcp.Effects
  ToyIP.Tcp.Life ToyIP.Tcp.Network ToyIP.Tcp.Places
open ToyIP.Net.Packets (Endpoints ipHdr tcpHdr ipInitPkt netdevReceive ipRcv ipHdr_ipInitPkt ipRcv_eq_some)
open ToyIP.Stack.TcpSocks (hasTuple hasLocal)

/-! ### The frame of a segment -/

/-- The header of a segment in network byte order. -/
def segTcp (seg : Seg) (csum : UInt16) : Tcphdr where
  sport := htons seg.th.sport
  dport := htons seg.th.dport
  seq := htonl seg.th.seq
  ackSeq := htonl seg.th.ackSeq
  rsvd := 0
  hl := BitVec.ofNat 4 seg.th.hl.toNat
  fin := seg.th.fin
  syn := seg.th.syn
  rst := seg.th.rst
  psh := seg.th.psh
  ack := seg.th.ack
  urg := seg.th.urg
  ece := seg.th.ece
  cwr := seg.th.cwr
  win := htons seg.th.win
  csum := csum
  urp := 0

/-- What follows the fixed header. -/
def segText (seg : Seg) : List UInt8 := seg.th.opts ++ seg.payload

/-- The checksum, with the addresses of the sock. -/
def segCsum (seg : Seg) : UInt16 :=
  tcpUdpChecksum (htonl seg.saddr) (htonl seg.daddr) 6 ((segTcp seg 0).bytes ++ segText seg)
    (UInt16.ofNat (20 + seg.th.opts.length + seg.payload.length))

/-- The IP header, with the address of the device. -/
def segIp (dev : Netdev) (seg : Seg) : Iphdr :=
  let len := UInt16.ofNat (20 + (20 + seg.th.opts.length + seg.payload.length))
  wireIp dev.addr seg.daddr 6 0 len (ipCsum dev.addr seg.daddr 6 0 len)

/-- The frame of a segment. -/
def segFrame (dev : Netdev) (dmac : Vector UInt8 6) (seg : Seg) : List UInt8 :=
  EthHdr.bytes ⟨dmac, dev.hwaddr, htons 0x0800⟩ ++ ((segIp dev seg).bytes ++
    ((segTcp seg (segCsum seg)).bytes ++ segText seg))

/-- The parts of a list. -/
theorem eq_slices {f : List UInt8} {n : ℕ} (h : f.length = 54 + n) :
    f = slice f 0 14 ++ (slice f 14 20 ++ (slice f 34 20 ++ slice f 54 n)) := by
  have hall := slice_all f
  rw [h, show 54 + n = 14 + (20 + (20 + n)) by omega, slice_add, slice_add, slice_add] at hall
  exact hall.symm

/-- **A transmission gives `tun_write` the frame of its segment**, whatever was in the buffer. -/
theorem frame_output {b : SkBuff} {skb : Skb} (h : Ready b skb) {a : Attempt} {f : List UInt8}
    (hf : f ∈ ipFrames (a.output b)) : ∃ rt dmac, a.route b = some rt ∧
      f = segFrame rt.dev dmac (sentSeg a.sk skb a.seq) := by
  obtain ⟨rt, k, dmac, hroute, -, -, -, -, hframed⟩ := h.framed hf
  obtain ⟨htcp, htext⟩ := h.slices hframed
  have hlen : f.length = 54 + (skb.th.opts.length + skb.payload.length) := by
    rw [hframed.length, segLen]
    omega
  refine ⟨rt, dmac, hroute, ?_⟩
  rw [eq_slices hlen, hframed.eth, hframed.hdr, htcp, htext]
  rfl

/-! ### The way back -/

/-- A segment as the code sends them: the header length counts the options, there is text only
without options, and no more of it than `smss`. -/
structure Plain (seg : Seg) : Prop where
  hl : 4 * seg.th.hl.toNat = 20 + seg.th.opts.length
  opts : seg.th.opts.length ≤ 40 ∧ (seg.th.opts = [] ∨ seg.payload = [])
  dlen : seg.dlen = UInt32.ofNat seg.payload.length
  size : seg.payload.length ≤ 1460

section Back

variable {seg : Seg} (dev : Netdev) (dmac : Vector UInt8 6)

theorem length_segFrame (seg : Seg) : (segFrame dev dmac seg).length =
    54 + (seg.th.opts.length + seg.payload.length) := by
  simp only [segFrame, segText, List.length_append, EthHdr.length_bytes, Iphdr.length_bytes,
    Tcphdr.length_bytes]
  omega

theorem Plain.fits (h : Plain seg) : (segFrame dev dmac seg).length ≤ buflen := by
  have hopts := h.opts.1
  have hsize := h.size
  rw [length_segFrame, buflen]
  rcases h.opts.2 with hnil | hnil <;> rw [hnil] at * <;> simp only [List.length_nil] at * <;> omega

/-- The header length in the frame. -/
theorem Plain.hl_segTcp (h : Plain seg) (csum : UInt16) :
    (segTcp seg csum).hl.toNat = seg.th.hl.toNat := by
  have hl := h.hl
  have hopts := h.opts.1
  show (BitVec.ofNat 4 seg.th.hl.toNat).toNat = _
  rw [BitVec.toNat_ofNat]
  omega

/-- `tcp_init_segment` finds the segment. -/
theorem Plain.tcpInitSegment (h : Plain seg) {mem : List UInt8} {id csum csum' : UInt16}
    (hip : ipHdr mem = hostIp dev.addr seg.daddr 6 id
      (UInt16.ofNat (20 + (20 + seg.th.opts.length + seg.payload.length))) csum)
    (htcp : tcpHdr mem = segTcp seg csum')
    (hopts : slice mem 54 seg.th.opts.length = seg.th.opts)
    (htext : slice mem 54 seg.payload.length = seg.payload) :
    Packets.tcpInitSegment mem = { seg with saddr := dev.addr } := by
  have hhl := h.hl_segTcp csum'
  have hl := h.hl
  have hsize := h.size
  have hsmall := h.opts.1
  have hdlen : (ipHdr mem).len.toUInt32 - UInt32.ofNat (4 * (ipHdr mem).ihl.toNat) -
      UInt32.ofNat (4 * (tcpHdr mem).hl.toNat) = seg.dlen := by
    rw [htcp, hip, hhl, hl, h.dlen]
    show (UInt16.ofNat _).toUInt32 - 20 - _ = _
    have hlen : (UInt16.ofNat (20 + (20 + seg.th.opts.length + seg.payload.length))).toUInt32 =
        UInt32.ofNat seg.payload.length + UInt32.ofNat (20 + seg.th.opts.length) + 20 := by
      rw [← UInt32.toNat_inj, UInt16.toNat_toUInt32, UInt16.toNat_ofNat', ← UInt32.ofNat_add,
        UInt32.toNat_add, UInt32.toNat_ofNat']
      show _ = (_ + 20) % 2 ^ 32
      omega
    rw [hlen, UInt32.add_sub_cancel, UInt32.add_sub_cancel]
  have hnat : seg.dlen.toNat = seg.payload.length := by
    rw [h.dlen, UInt32.toNat_ofNat']
    omega
  have hslice : slice mem 54 (4 * (tcpHdr mem).hl.toNat - 20) = seg.th.opts := by
    rw [htcp, hhl, hl, Nat.add_sub_cancel_left, hopts]
  unfold Packets.tcpInitSegment
  simp only [hdlen, hnat, htext, hslice]
  rw [hip, htcp, hhl]
  simp only [segTcp, htons_htons, htonl_htonl, UInt8.ofNat_toNat]
  rfl

/-- The memory that the frame is written from. -/
theorem segFrame_eq (seg : Seg) : segFrame dev dmac seg =
    splice (splice (List.replicate 34 0 ++ ((segTcp seg (segCsum seg)).bytes ++ segText seg)) 14
      (segIp dev seg).bytes) 0 (EthHdr.bytes ⟨dmac, dev.hwaddr, htons 0x0800⟩) := by
  have hzero : (List.replicate 34 (0 : UInt8) ++ ((segTcp seg (segCsum seg)).bytes ++
      segText seg)).take 14 = List.replicate 14 0 := by
    rw [List.take_append_of_le_length (by simp), List.take_replicate]
    rfl
  have htail : (List.replicate 34 (0 : UInt8) ++ ((segTcp seg (segCsum seg)).bytes ++
      segText seg)).drop 34 = (segTcp seg (segCsum seg)).bytes ++ segText seg := by
    rw [List.drop_append_of_le_length (by simp), List.drop_of_length_le (by simp)]
    rfl
  rw [splice, splice, Iphdr.length_bytes, EthHdr.length_bytes, hzero, htail, List.take_zero,
    List.drop_append_of_le_length (by simp), List.drop_of_length_le (by simp)]
  rfl

/-- **What was sent is received**, on the host with its address. -/
theorem Plain.received (h : Plain seg) :
    netdevReceive seg.daddr (tunRead (segFrame dev dmac seg)).mem =
      some (.tcp { seg with saddr := dev.addr }) := by
  set body := (segTcp seg (segCsum seg)).bytes ++ segText seg with hbody
  have hlen : (List.replicate 34 (0 : UInt8) ++ body).length =
      54 + (seg.th.opts.length + seg.payload.length) := by
    simp only [hbody, segText, List.length_append, List.length_replicate, Tcphdr.length_bytes]
    omega
  have hskip : ∀ n, slice (List.replicate 34 (0 : UInt8) ++ body) 54 n = slice (segText seg) 0 n := by
    intro n
    rw [slice_of_append (by simp), List.length_replicate, hbody,
      slice_of_append (by rw [Tcphdr.length_bytes]), Tcphdr.length_bytes]
  obtain ⟨mem, hip, hbehind, hrcv⟩ := netdevReceive_frame (List.replicate 34 0 ++ body) (by omega)
    dmac dev.hwaddr dev.addr seg.daddr 6 0
    (UInt16.ofNat (20 + (20 + seg.th.opts.length + seg.payload.length)))
    (List.replicate (buflen - (segFrame dev dmac seg).length) 0)
  have htcp : tcpHdr mem = segTcp seg (segCsum seg) := by
    rw [tcpHdr, hbehind 34 20 (Nat.le_refl _) (by omega), slice_of_append (by simp),
      List.length_replicate, hbody, slice_prefix (Tcphdr.length_bytes _), Tcphdr.read_bytes]
  have hopts : slice mem 54 seg.th.opts.length = seg.th.opts := by
    rw [hbehind 54 _ (by omega) (by omega), hskip]
    exact slice_prefix rfl
  have htext : slice mem 54 seg.payload.length = seg.payload := by
    rw [hbehind 54 _ (by omega) (by omega), hskip, segText]
    rcases h.opts.2 with hnil | hnil <;> rw [hnil]
    · exact slice_all _
    · rfl
  rw [mem_tunRead (h.fits dev dmac), segFrame_eq]
  rw [segFrame_eq] at hrcv
  exact hrcv.trans (congrArg (fun s => some (Packets.Packet.tcp s))
    (h.tcpInitSegment dev hip htcp hopts htext))

/-- Another host does not take it. -/
theorem not_received {addr : UInt32} (hne : addr ≠ seg.daddr) :
    netdevReceive addr (tunRead (segFrame dev dmac seg)).mem = none := by
  have hbuf : buflen = 1600 := rfl
  have hlen := length_segFrame dev dmac seg
  have hip : ipHdr (tunRead (segFrame dev dmac seg)).mem = segIp dev seg := by
    rw [ipHdr, slice_tunRead (by omega) (by omega), segFrame, slice_of_append (by simp),
      EthHdr.length_bytes, slice_prefix (Iphdr.length_bytes _), Iphdr.read_bytes]
  by_contra hsome
  obtain ⟨p, hp⟩ := Option.ne_none_iff_exists'.mp hsome
  unfold netdevReceive at hp
  obtain ⟨-, hp⟩ := Option.ite_none_right_eq_some.mp hp
  obtain ⟨⟨-, -, -, -, haddr⟩, -⟩ := ipRcv_eq_some.mp hp
  rw [ipHdr_ipInitPkt (by rw [RxBuf.length_mem]; decide), hip] at haddr
  exact hne (haddr.symm.trans (htonl_htonl _))

end Back

/-! ### What a sock sends -/

/-- A buffer that the code has built for one frame. -/
structure Stored (skb : Skb) : Prop where
  built : ∃ b, Ready b skb
  size : skb.payload.length ≤ 1460

/-- A segment of the sock with these addresses and ports. -/
structure Of (e : Endpoints) (seg : Seg) : Prop where
  plain : Plain seg
  saddr : seg.saddr = e.saddr
  daddr : seg.daddr = e.daddr
  sport : seg.th.sport = e.sport
  dport : seg.th.dport = e.dport

def ends (sk : TcpSock) : Endpoints := ⟨sk.saddr, sk.daddr, sk.sport, sk.dport⟩

/-- What the sock has queued and sent. -/
structure Sends (e : Endpoints) (sk : TcpSock) : Prop where
  ends : ends sk = e
  mss : sk.smss = 1460
  queue : ∀ skb ∈ sk.writeQueue, Stored skb
  out : ∀ seg ∈ sk.out, Of e seg

section Socks

variable {e : Endpoints} {sk sk' : TcpSock} {skb : Skb} {seg : Seg}

/-- A new buffer with flags and without text. -/
theorem stored_flags {th : TcpHdr} (hl : th.hl = 0) (opts : th.opts = []) :
    Stored { tcpAllocSkb 0 with th := th } := by
  refine ⟨⟨textSkb th [], Holds.text_new th [] hl opts (by decide), ?_, ?_⟩, Nat.zero_le _⟩
  · rw [ipHdr_textSkb]
    rfl
  · show 40 + th.opts.length + 0 ≤ 65535
    rw [opts]
    decide

theorem stored_dataSkb {chunk : List UInt8} (h : chunk.length ≤ 1460) (psh : Bool) :
    Stored (dataSkb chunk psh) :=
  ⟨⟨_, (Queued.send chunk psh (by omega)).ready⟩, h⟩

theorem stored_syn (sk : TcpSock) : Stored { tcpAllocSkb 0 with th := tcpSynHeader sk } :=
  ⟨⟨_, (Queued.syn sk).ready⟩, Nat.zero_le _⟩

/-- A buffer that was sent can be sent again. -/
theorem Stored.sent (h : Stored skb) (sk : TcpSock) (seq : UInt32) : Stored (sentSkb sk skb seq) := by
  obtain ⟨b, hb⟩ := h.built
  exact ⟨⟨_, hb.reset (hb.carries_fill sk seq)⟩, h.size⟩

theorem Stored.of (h : Stored skb) (sk : TcpSock) (seq : UInt32) :
    Of (Wire.ends sk) (sentSeg sk skb seq) := by
  obtain ⟨b, hb⟩ := h.built
  have hlen := hb.holds.hlen sk seq
  exact ⟨⟨hlen, hb.holds.opts, hb.holds.dlen.2, h.size⟩, rfl, rfl, rfl, rfl⟩

/-- A segment is sent. -/
theorem Sends.emit (h : Sends e sk) (hskb : Stored skb) {seq : UInt32} (hends : Wire.ends sk' = Wire.ends sk)
    (hmss : sk'.smss = sk.smss) (hout : sk'.out = sk.out ++ [sentSeg sk skb seq])
    (hqueue : ∀ x ∈ sk'.writeQueue, Stored x) : Sends e sk' := by
  refine ⟨hends.trans h.ends, hmss.trans h.mss, hqueue, fun s hs => ?_⟩
  rw [hout] at hs
  rcases List.mem_append.mp hs with hs | hs
  · exact h.out s hs
  · exact List.mem_singleton.mp hs ▸ h.ends ▸ hskb.of sk seq

theorem Sends.tcpSendAck (h : Sends e sk) : Sends e (tcpSendAck sk) := by
  unfold Tcp.Output.tcpSendAck
  split_ifs
  · exact h
  · exact h.emit (stored_flags rfl rfl) rfl rfl rfl h.queue

theorem Sends.tcpSendReset (h : Sends e sk) : Sends e (tcpSendReset sk) := by
  have hskb : Stored { tcpAllocSkb 0 with th := { rst := true } } := stored_flags rfl rfl
  exact h.emit hskb rfl rfl rfl h.queue

theorem Sends.tcpSendSynack (h : Sends e sk) : Sends e (tcpSendSynack sk) := by
  unfold Tcp.Output.tcpSendSynack
  split_ifs
  · exact h.emit (stored_flags rfl rfl) rfl rfl rfl h.queue
  · exact h

theorem Sends.tcpQueueTransmitSkb (h : Sends e sk) (hskb : Stored skb) :
    Sends e (tcpQueueTransmitSkb sk skb) := by
  obtain ⟨timers, retransmit, heq⟩ := tcpQueueTransmitSkb_eq sk skb
  rw [heq]
  refine h.emit hskb rfl rfl rfl fun x hx => ?_
  rcases List.mem_append.mp hx with hx | hx
  · exact h.queue x hx
  · exact List.mem_singleton.mp hx ▸ hskb.sent sk sk.sndNxt

/-- The head of the write queue leaves again. -/
theorem Sends.resend (h : Sends e sk) {q : List Skb} (hq : sk.writeQueue = skb :: q) {seq : UInt32}
    (hends : Wire.ends sk' = Wire.ends sk) (hmss : sk'.smss = sk.smss)
    (hout : sk'.out = sk.out ++ [sentSeg sk skb seq])
    (hqueue : sk'.writeQueue = sentSkb sk skb seq :: q) : Sends e sk' := by
  have hskb : Stored skb := h.queue skb (hq ▸ List.mem_cons_self ..)
  refine h.emit hskb hends hmss hout fun x hx => ?_
  rw [hqueue] at hx
  rcases List.mem_cons.mp hx with rfl | hx
  · exact hskb.sent sk seq
  · exact h.queue x (hq ▸ List.mem_cons_of_mem _ hx)

theorem Sends.freed (h : Sends e sk) : Sends e (tcpFreeSock sk) :=
  ⟨h.ends, h.mss, fun _ hx => absurd hx List.not_mem_nil, h.out⟩

/-! ### Segments for it -/

theorem Sends.tcpCleanRetransmissionQueue (h : Sends e sk) (una : UInt32) :
    Sends e (tcpCleanRetransmissionQueue sk una) := by
  obtain ⟨timers, retransmit, heq⟩ := tcpCleanRetransmissionQueue_eq sk una
  rw [heq]
  exact ⟨h.ends, h.mss, fun x hx => h.queue x ((List.dropWhile_suffix _).subset hx), h.out⟩

theorem Sends.tcpAckData (h : Sends e sk) (th : TcpHdr) (skb : Skb) :
    Sends e (tcpAckData sk th skb) := by
  unfold Tcp.Data.tcpAckData
  split_ifs
  · exact Sends.tcpSendAck ⟨h.ends, h.mss, h.queue, h.out⟩
  · exact ⟨h.ends, h.mss, h.queue, h.out⟩

theorem Sends.tcpDataQueue (h : Sends e sk) (th : TcpHdr) (skb : Skb) :
    Sends e (tcpDataQueue sk th skb) := by
  unfold Tcp.Data.tcpDataQueue
  split_ifs
  · exact h
  · have h' : Sends e (tcpStopDelackTimer (tcpConsumeOfoQueue { sk with
        rcvNxt := sk.rcvNxt + skb.dlen
        receiveQueue := sk.receiveQueue ++ [{ skb with refcnt := skb.refcnt + 1 }] })) :=
      ⟨h.ends, h.mss, h.queue, h.out⟩
    exact h'.tcpAckData th skb
  · exact Sends.tcpSendAck ⟨h.ends, h.mss, h.queue, h.out⟩

theorem Sends.afterFin (h : Sends e sk) : Sends e (afterFin sk) := by
  have hfin : Sends e (takeFin sk) := by
    have hack : Sends e (Tcp.Output.tcpSendAck { sk with rcvNxt := sk.rcvNxt + 1, flagFin := true }) :=
      Sends.tcpSendAck ⟨h.ends, h.mss, h.queue, h.out⟩
    exact ⟨hack.ends, hack.mss, hack.queue, hack.out⟩
  unfold Tcp.Sides.afterFin
  split
  any_goals exact hfin
  all_goals exact ⟨hfin.ends, hfin.mss, hfin.queue, hfin.out⟩

theorem sends_segmentRule (e : Endpoints) (seg : Seg) : SegmentRule seg (Sends e) where
  ack _ h := h.tcpSendAck
  reset _ h := h.tcpSendReset
  free _ h _ := Sends.freed ⟨h.ends, h.mss, h.queue, h.out⟩
  accept _ h _ _ _ _ := ⟨h.ends, h.mss, h.queue, h.out⟩
  take sk h _ _ _ := by
    have h' : Sends e { sk with sndUna := seg.th.ackSeq } := ⟨h.ends, h.mss, h.queue, h.out⟩
    exact h'.tcpCleanRetransmissionQueue _
  text _ h _ := by
    have hd := h.tcpDataQueue seg.th (Tcp.Types.tcpInitSegment seg)
    exact ⟨hd.ends, hd.mss, hd.queue, hd.out⟩
  fin _ h _ _ _ _ := h.afterFin

theorem Sends.tcpSynsent (h : Sends e sk) (th : TcpHdr) : Sends e (tcpSynsent sk th) := by
  rcases tcpSynsent_cases sk th with heq | ⟨sk₁, hsk₁, hend⟩
  · rw [heq]
    exact h
  have h₁ : Sends e sk₁ := by
    rcases hsk₁ with rfl | ⟨-, rfl⟩
    · exact ⟨h.ends, h.mss, h.queue, h.out⟩
    · have h' : Sends e { synAnswered sk th with sndUna := th.ackSeq } :=
        ⟨h.ends, h.mss, h.queue, h.out⟩
      exact h'.tcpCleanRetransmissionQueue _
  rcases hend with ⟨-, heq⟩ | ⟨-, heq⟩ <;> rw [heq]
  · have hack : Sends e (Tcp.Output.tcpSendAck { tcpSetState sk₁ .established with sndUna := sk₁.sndNxt }) :=
      Sends.tcpSendAck ⟨h₁.ends, h₁.mss, h₁.queue, h₁.out⟩
    exact ⟨hack.ends, hack.mss, hack.queue, hack.out⟩
  · exact Sends.tcpSendSynack ⟨h₁.ends, h₁.mss, h₁.queue, h₁.out⟩

theorem Sends.tcpProcess (h : Sends e sk) (hrun : tcpProcess sk seg = .ok sk') : Sends e sk' := by
  by_cases hst : sk.state = .synSent
  · rw [tcpProcess_synSent hst] at hrun
    exact Except.ok.inj hrun ▸ h.tcpSynsent seg.th
  · exact (sends_segmentRule e seg).tcpProcess h hst hrun

/-! ### Its calls and timers -/

theorem Sends.tcpWrite (h : Sends e sk) (buf : List UInt8) : Sends e (tcpWrite sk buf).1 := by
  have hloop : ∀ (fuel mss : ℕ) (sk : TcpSock) (buf : List UInt8), mss ≤ 1460 → Sends e sk →
      Sends e (tcpSendLoop sk mss fuel buf) := by
    intro fuel
    induction fuel with
    | zero => exact fun _ _ _ _ h => h
    | succ fuel ih =>
      intro mss sk buf hmss h
      unfold tcpSendLoop
      split_ifs
      · exact h
      · have hlen : (buf.take (min buf.length mss)).length = min buf.length mss := by
          rw [List.length_take]
          omega
        have hle : (buf.take (min buf.length mss)).length ≤ 1460 := by omega
        have hskb := stored_dataSkb hle (buf.length - min buf.length mss = 0)
        rw [dataSkb, hlen] at hskb
        exact ih mss _ _ hmss (h.tcpQueueTransmitSkb hskb)
  have hmss : sk.smss.toNat ≤ 1460 := by
    rw [h.mss]
    decide
  unfold Tcp.Sock.tcpWrite
  split
  · exact hloop _ _ _ _ hmss h
  · exact hloop _ _ _ _ hmss h
  · exact h

theorem Sends.tcpClose (h : Sends e sk) : Sends e (tcpClose sk).1 := by
  have hskb : Stored { tcpAllocSkb 0 with th := { fin := true, ack := true } } :=
    stored_flags rfl rfl
  have hfin := h.tcpQueueTransmitSkb hskb
  unfold Tcp.Sock.tcpClose
  split
  · exact ⟨h.ends, h.mss, h.queue, h.out⟩
  · exact ⟨h.ends, h.mss, h.queue, h.out⟩
  · exact ⟨h.ends, h.mss, h.queue, h.out⟩
  · exact ⟨h.ends, h.mss, h.queue, h.out⟩
  · exact ⟨h.ends, h.mss, h.queue, h.out⟩
  · exact ⟨h.ends, h.mss, h.queue, h.out⟩
  · exact Sends.freed ⟨h.ends, h.mss, h.queue, h.out⟩
  all_goals exact ⟨hfin.ends, hfin.mss, hfin.queue, hfin.out⟩

theorem Sends.tcpConnectRto (h : Sends e sk) : Sends e (tcpConnectRto sk) := by
  obtain ⟨timers, hr⟩ := tcpReleaseRetransmissionTimer_eq sk
  by_cases hst : sk.state = .established
  · rw [tcpConnectRto_established hst, hr]
    exact ⟨h.ends, h.mss, h.queue, h.out⟩
  by_cases hb : sk.backoff > 3
  · rw [tcpConnectRto_free hst hb, hr]
    exact Sends.freed ⟨h.ends, h.mss, h.queue, h.out⟩
  cases hq : sk.writeQueue with
  | nil =>
    rw [tcpConnectRto_nil hst hb hq, hr]
    exact ⟨h.ends, h.mss, h.queue, h.out⟩
  | cons skb q =>
    obtain ⟨timers', retransmit', heq⟩ := tcpConnectRto_resend hst hb hq
    rw [heq]
    exact h.resend hq rfl rfl rfl rfl

theorem Sends.tcpRetransmissionTimeout (h : Sends e sk) : Sends e (tcpRetransmissionTimeout sk) := by
  cases hq : sk.writeQueue with
  | nil =>
    obtain ⟨sleeping, timers, heq⟩ := tcpRetransmissionTimeout_nil hq
    rw [heq]
    exact ⟨h.ends, h.mss, h.queue, h.out⟩
  | cons skb q =>
    obtain ⟨timers, retransmit, heq⟩ := tcpRetransmissionTimeout_cons hq
    rw [heq]
    exact h.resend hq rfl rfl rfl rfl

theorem Sends.fireTimer (h : Sends e sk) {i : ℕ} (hfire : fireTimer sk i = some sk') :
    Sends e sk' := by
  obtain ⟨t, -, -, rfl⟩ := fireTimer_runs hfire
  have hexp : Sends e { sk with
      timers := sk.timers.modify i fun t => { t with cancelled := true } } :=
    ⟨h.ends, h.mss, h.queue, h.out⟩
  cases t.handler with
  | tcpConnectRto => exact hexp.tcpConnectRto
  | tcpRetransmissionTimeout => exact hexp.tcpRetransmissionTimeout
  | tcpSendDelack => exact Sends.tcpSendAck ⟨h.ends, h.mss, h.queue, h.out⟩
  | tcpLinger => exact Sends.freed ⟨h.ends, h.mss, h.queue, h.out⟩

/-- What one step preserves. -/
theorem Sends.endStep {P : Seg → Prop} (h : Sends e sk) (hstep : EndStep P sk sk') : Sends e sk' := by
  cases hstep with
  | write buf => exact h.tcpWrite buf
  | close => exact h.tcpClose
  | timer i hfire => exact h.fireTimer hfire
  | segment seg _ hrun => exact h.tcpProcess hrun
  | reader => exact ⟨h.ends, h.mss, h.queue, h.out⟩

/-- What a step leaves of the list that a sock is on. -/
theorem link_endStep {P : Seg → Prop} (hstep : EndStep P sk sk') (hf' : sk'.freed = false)
    : sk'.link = sk.link := by
  have hstays : ∀ {s : TcpSock}, Left s ∨ Stays sk s → s.freed = false → s.link = sk.link := by
    rintro s (⟨hs, -⟩ | hs) hf
    · rw [hs] at hf
      exact absurd hf (by decide)
    · exact congrArg Place.link hs.place
  cases hstep with
  | write buf => exact congrArg Place.link (stays_tcpWrite sk buf).place
  | close => exact hstays (stays_tcpClose sk) hf'
  | timer i hfire =>
    have h := fireTimer_stays hfire
    split_ifs at h
    · exact h.2
    · exact hstays h hf'
  | segment seg _ hrun => exact hstays (stays_tcpProcess hrun) hf'
  | reader => rfl

end Socks

/-! ### The connection on the wire -/

/-- A sock that listens on one address of its host, as `inet_bind` sets it. -/
def boundSock (addr : UInt32) (sport : UInt16) : TcpSock :=
  { listenSock sport with saddr := addr }

/-- The state after `tcp_begin_connect`, when the listening sock is bound to its address. -/
def wireStart (saddr daddr : UInt32) (sport dport : UInt16) (isn : UInt32) : Link :=
  { start saddr daddr sport dport isn with listener := boundSock daddr dport }

/-- The sock that has sent a frame. -/
inductive Sender
  | client | listener | child
  deriving DecidableEq, Repr

def sentBy (l : Link) : Sender → List Seg
  | .client => l.client.out
  | .listener => l.listener.out
  | .child => match l.child with
    | none => []
    | some c => c.out

/-- A frame on the Ethernet: one of the segments a sock has sent, from the device of its host, and
to any device. -/
def wireFrame (ca sa : Netdev) (l : Link) (x : Sender) (i : ℕ) (dmac : Vector UInt8 6) :
    Option (List UInt8) :=
  (sentBy l x)[i]?.map (segFrame (if x = .client then ca else sa) dmac)

/-- An event at one of the socks, or a frame that arrives at a host. -/
inductive WireEvent
  | own (e : LinkEvent)
  | toClient (x : Sender) (i : ℕ) (dmac : Vector UInt8 6)
  | toServer (x : Sender) (i : ℕ) (dmac : Vector UInt8 6) (isn : UInt32)
  deriving DecidableEq

/-- No segment arrives. -/
def Own : LinkEvent → Bool
  | .toClient _ | .resetToClient _ | .toServer _ _ => false
  | _ => true

/-- The segment that `ip_rcv` hands to `tcp_in`, on the host with this address. -/
def tcpIncoming (addr : UInt32) (f : List UInt8) : Option Seg :=
  match netdevReceive addr (tunRead f).mem with
  | some (.tcp seg) => some seg
  | _ => none

/-- The test of `tcp_lookup_sock`, in the list that the sock is on. -/
def found (sk : TcpSock) (seg : Seg) : Bool :=
  match sk.link with
  | some .establishedOrSynRecvd => hasTuple seg.daddr seg.th.dport seg.saddr seg.th.sport sk
  | some .connectingOrListening => hasLocal seg.daddr seg.th.dport sk
  | none => false

/-- `tcp_in` on the host of the client. -/
def clientIn (l : Link) (seg : Seg) : Option Link :=
  if found l.client seg then onClient l (receive (some seg)) else some l

/-- `tcp_in` on the host of the listening sock. What it does for a new connection after the child
has been freed is not followed. -/
def serverIn (l : Link) (seg : Seg) (isn : UInt32) : Option Link :=
  match l.child with
  | some c => if found c seg then onChild l (receive (some seg)) else none
  | none =>
    if found l.listener seg then
      if isn.toNat + 1 < 4294967296 then
        some { l with
          listener := (tcpHandleListen l.listener seg isn).1
          child := (tcpHandleListen l.listener seg isn).2 }
      else none
    else some l

/-- One event on the wire. A frame that is not for this host or not for one of its socks is
dropped. -/
def wireStep (ca sa : Netdev) (l : Link) : WireEvent → Option Link
  | .own e => if Own e then linkStep l e else none
  | .toClient x i dmac =>
    (wireFrame ca sa l x i dmac).bind fun f => match tcpIncoming ca.addr f with
      | none => some l
      | some seg => clientIn l seg
  | .toServer x i dmac isn =>
    (wireFrame ca sa l x i dmac).bind fun f => match tcpIncoming sa.addr f with
      | none => some l
      | some seg => serverIn l seg isn

/-! ### Which frames are for which host -/

/-- The socks of the two hosts, with their addresses and ports and the lists they are on. -/
structure Hosted (ca sa : UInt32) (sport dport : UInt16) (l : Link) : Prop where
  client : Sends ⟨ca, sa, sport, dport⟩ l.client
  linked : l.client.freed = false → l.client.link = some .connectingOrListening
  child : ∀ c, l.child = some c → Sends ⟨sa, ca, dport, sport⟩ c ∧
    (c.freed = false → c.link = some .establishedOrSynRecvd)
  listener : Sends ⟨sa, 0, dport, 0⟩ l.listener
  listening : l.listener.link = some .connectingOrListening

section Hosts

variable {ca sa : UInt32} {sport dport : UInt16} {l l' : Link}

theorem hosted_start (isn : UInt32) :
    Hosted ca sa sport dport (wireStart ca sa sport dport isn) := by
  refine ⟨?_, fun _ => rfl, fun c hc => absurd hc (by simp [wireStart, start]), ?_, rfl⟩
  · set sk := { connectSock ca sa sport dport with
      isn := isn, sndUna := isn, sndNxt := isn, rcvNxt := 0, rcvWnd := 44477 } with hsk
    have h : Sends ⟨ca, sa, sport, dport⟩ { sk with state := .synSent } :=
      ⟨rfl, rfl, fun _ hx => absurd hx List.not_mem_nil, fun _ hx => absurd hx List.not_mem_nil⟩
    have hsyn := h.tcpQueueTransmitSkb (stored_syn sk)
    exact ⟨hsyn.ends, hsyn.mss, hsyn.queue, hsyn.out⟩
  · exact ⟨rfl, rfl, fun _ hx => absurd hx List.not_mem_nil, fun _ hx => absurd hx List.not_mem_nil⟩

/-- The child answers the host that its SYN came from. -/
theorem sends_tcpHandleListen {sk c : TcpSock} {seg : Seg} {isn : UInt32}
    (h : (tcpHandleListen sk seg isn).2 = some c) :
    Sends ⟨seg.daddr, seg.saddr, seg.th.dport, seg.th.sport⟩ c ∧
      c.link = some .establishedOrSynRecvd := by
  unfold tcpHandleListen at h
  split_ifs at h
  obtain rfl := Option.some.inj h
  have hnew : Sends ⟨seg.daddr, seg.saddr, seg.th.dport, seg.th.sport⟩
      { tcpSetState (tcpListenChildSock sk seg) .synReceived with
        irs := seg.th.seq, isn := isn, sndNxt := isn, rcvNxt := seg.th.seq + 1 } :=
    ⟨rfl, rfl, fun _ hx => absurd hx List.not_mem_nil, fun _ hx => absurd hx List.not_mem_nil⟩
  have hack := hnew.tcpSendSynack
  exact ⟨⟨hack.ends, hack.mss, hack.queue, hack.out⟩, rfl⟩

theorem Hosted.step (h : Hosted ca sa sport dport l) (hstep : LinkStep l l') :
    Hosted ca sa sport dport l' := by
  cases hstep with
  | client hf hend =>
    exact ⟨h.client.endStep hend, fun hf' => (link_endStep hend hf').trans (h.linked hf),
      h.child, h.listener, h.listening⟩
  | child hc hf hend =>
    obtain ⟨hsends, hlink⟩ := h.child _ hc
    refine ⟨h.client, h.linked, fun c' hc' => ?_, h.listener, h.listening⟩
    obtain rfl := Option.some.inj hc'
    exact ⟨hsends.endStep hend, fun hf' => (link_endStep hend hf').trans (hlink hf)⟩
  | @listener hn seg isn hseg hw =>
    have hof := h.client.out seg hseg
    refine ⟨h.client, h.linked, fun c hc => ?_, ?_, ?_⟩
    · obtain ⟨hsends, hlink⟩ := sends_tcpHandleListen hc
      rw [hof.saddr, hof.daddr, hof.sport, hof.dport] at hsends
      exact ⟨hsends, fun _ => hlink⟩
    · rcases tcpHandleListen_cases l.listener seg isn with heq | heq | ⟨-, heq, -⟩ <;>
        simp only [heq]
      · exact h.listener
      · exact h.listener.tcpSendReset
      · exact h.listener
    · rcases tcpHandleListen_cases l.listener seg isn with heq | heq | ⟨-, heq, -⟩ <;>
        simp only [heq]
      · exact h.listening
      · exact h.listening
      · exact h.listening

/-- What a sock of the hosts sends. -/
theorem Hosted.of_sentBy (h : Hosted ca sa sport dport l) {x : Sender} {seg : Seg}
    (hseg : seg ∈ sentBy l x) : Of (match x with
      | .client => ⟨ca, sa, sport, dport⟩
      | .listener => ⟨sa, 0, dport, 0⟩
      | .child => ⟨sa, ca, dport, sport⟩) seg := by
  cases x with
  | client => exact h.client.out seg hseg
  | listener => exact h.listener.out seg hseg
  | child =>
    cases hc : l.child with
    | none =>
      simp only [sentBy, hc] at hseg
      exact absurd hseg List.not_mem_nil
    | some c =>
      simp only [sentBy, hc] at hseg
      exact (h.child c hc).1.out seg hseg

end Hosts

/-! ### Frames against segments -/

section Wire

variable {ca sa : Netdev} {sport dport : UInt16} {l l' : Link}

theorem tcpIncoming_some {seg : Seg} (h : Plain seg) {dev : Netdev} (hdev : dev.addr = seg.saddr)
    (dmac : Vector UInt8 6) : tcpIncoming seg.daddr (segFrame dev dmac seg) = some seg := by
  unfold tcpIncoming
  rw [h.received dev dmac, hdev]

theorem tcpIncoming_none {addr : UInt32} {seg : Seg} (hne : addr ≠ seg.daddr) (dev : Netdev)
    (dmac : Vector UInt8 6) : tcpIncoming addr (segFrame dev dmac seg) = none := by
  unfold tcpIncoming
  rw [not_received dev dmac hne]

/-- Which segments are delivered in the runs to compare with. -/
def Heard : LinkEvent → Prop
  | .resetToClient _ => False
  | _ => True

theorem heard_of_own {e : LinkEvent} (h : Own e = true) : Heard e := by
  cases e <;> trivial

/-- The segments of the child find the client, until it is freed. -/
theorem Hosted.found_client (h : Hosted ca.addr sa.addr sport dport l) {seg : Seg}
    (hseg : Of ⟨sa.addr, ca.addr, dport, sport⟩ seg) (hf : l.client.freed = false) :
    found l.client seg = true := by
  have hends : ends l.client = _ := h.client.ends
  have hsaddr : l.client.saddr = ca.addr := congrArg Endpoints.saddr hends
  have hsport : l.client.sport = sport := congrArg Endpoints.sport hends
  simp only [found, h.linked hf, hasLocal, hseg.daddr, hseg.dport, hsaddr, hsport, beq_self_eq_true,
    Bool.and_self]

/-- The segments of the client find the child, until it is freed. -/
theorem Hosted.found_child (h : Hosted ca.addr sa.addr sport dport l) {c : TcpSock}
    (hc : l.child = some c) {seg : Seg} (hseg : Of ⟨ca.addr, sa.addr, sport, dport⟩ seg)
    (hf : c.freed = false) : found c seg = true := by
  obtain ⟨hsends, hlink⟩ := h.child c hc
  have hsaddr : c.saddr = sa.addr := congrArg Endpoints.saddr hsends.ends
  have hdaddr : c.daddr = ca.addr := congrArg Endpoints.daddr hsends.ends
  have hsport : c.sport = dport := congrArg Endpoints.sport hsends.ends
  have hdport : c.dport = sport := congrArg Endpoints.dport hsends.ends
  simp only [found, hlink hf, hasTuple, hseg.saddr, hseg.daddr, hseg.sport, hseg.dport, hsaddr,
    hdaddr, hsport, hdport, beq_self_eq_true, Bool.and_self]

/-- Before there is a child they find the listening sock. -/
theorem Hosted.found_listener (h : Hosted ca.addr sa.addr sport dport l) {seg : Seg}
    (hseg : Of ⟨ca.addr, sa.addr, sport, dport⟩ seg) : found l.listener seg = true := by
  have hsaddr : l.listener.saddr = sa.addr := congrArg Endpoints.saddr h.listener.ends
  have hsport : l.listener.sport = dport := congrArg Endpoints.sport h.listener.ends
  simp only [found, h.listening, hasLocal, hseg.daddr, hseg.dport, hsaddr, hsport, beq_self_eq_true,
    Bool.and_self]

/-- A frame that arrives delivers a segment of the other side, or nothing. -/
theorem Hosted.delivers (h : Hosted ca.addr sa.addr sport dport l) (hne : ca.addr ≠ sa.addr)
    (hca : ca.addr ≠ 0) (hsa : sa.addr ≠ 0) {e : WireEvent} (hstep : wireStep ca sa l e = some l') :
    l' = l ∨ ∃ d, Heard d ∧ linkStep l d = some l' := by
  cases e with
  | own e =>
    obtain ⟨hown, hstep⟩ := Option.ite_none_right_eq_some.mp hstep
    exact .inr ⟨e, heard_of_own hown, hstep⟩
  | toClient x i dmac =>
    obtain ⟨f, hf, hstep⟩ := Option.bind_eq_some_iff.mp hstep
    obtain ⟨seg, hseg, rfl⟩ := Option.map_eq_some_iff.mp hf
    have hof := h.of_sentBy (List.mem_of_getElem? hseg)
    cases x with
    | client =>
      rw [tcpIncoming_none (hof.daddr ▸ hne)] at hstep
      exact .inl (Option.some.inj hstep).symm
    | listener =>
      rw [tcpIncoming_none (hof.daddr ▸ hca)] at hstep
      exact .inl (Option.some.inj hstep).symm
    | child =>
      rw [if_neg Sender.noConfusion, show ca.addr = seg.daddr from hof.daddr.symm,
        tcpIncoming_some hof.plain hof.saddr.symm] at hstep
      simp only [clientIn] at hstep
      split_ifs at hstep
      · refine .inr ⟨.toClient i, trivial, ?_⟩
        cases hc : l.child with
        | none => simp [sentBy, hc] at hseg
        | some c =>
          have hseg : c.out[i]? = some seg := by simpa only [sentBy, hc] using hseg
          simp only [linkStep, hc, Option.bind_some, hseg]
          exact hstep
      · exact .inl (Option.some.inj hstep).symm
  | toServer x i dmac isn =>
    obtain ⟨f, hf, hstep⟩ := Option.bind_eq_some_iff.mp hstep
    obtain ⟨seg, hseg, rfl⟩ := Option.map_eq_some_iff.mp hf
    have hof := h.of_sentBy (List.mem_of_getElem? hseg)
    cases x with
    | client =>
      rw [if_pos rfl, show sa.addr = seg.daddr from hof.daddr.symm,
        tcpIncoming_some hof.plain hof.saddr.symm] at hstep
      have hseg : l.client.out[i]? = some seg := hseg
      simp only [serverIn] at hstep
      cases hc : l.child with
      | some c =>
        simp only [hc] at hstep
        obtain ⟨-, hstep⟩ := Option.ite_none_right_eq_some.mp hstep
        refine .inr ⟨.toServer i isn, trivial, ?_⟩
        simp only [linkStep, hc, hseg]
        exact hstep
      | none =>
        simp only [hc] at hstep
        split_ifs at hstep with hfound hisn
        · refine .inr ⟨.toServer i isn, trivial, ?_⟩
          simp only [linkStep, hc, hseg, if_pos hisn, Option.map_some]
          exact hstep
        · exact .inl (Option.some.inj hstep).symm
    | listener =>
      rw [tcpIncoming_none (hof.daddr ▸ hsa)] at hstep
      exact .inl (Option.some.inj hstep).symm
    | child =>
      rw [tcpIncoming_none (hof.daddr ▸ hne.symm)] at hstep
      exact .inl (Option.some.inj hstep).symm

/-- Every segment that can be delivered has a frame that delivers it. -/
theorem Hosted.has_frame (h : Hosted ca.addr sa.addr sport dport l) {d : LinkEvent} (hd : Heard d)
    (hstep : linkStep l d = some l') : ∃ e, wireStep ca sa l e = some l' := by
  have hown : ∀ e, Own e = true → linkStep l e = some l' →
      ∃ e, wireStep ca sa l e = some l' :=
    fun e he hs => ⟨.own e, (if_pos he).trans hs⟩
  cases d with
  | toClient i =>
    obtain ⟨hf, sk, hrcv, -⟩ := onClient_some hstep
    obtain ⟨seg, hseg, -⟩ := receive_some hrcv
    have hsent : (sentBy l .child)[i]? = some seg := by
      obtain ⟨c, hc, hout⟩ := Option.bind_eq_some_iff.mp hseg
      simpa only [sentBy, hc] using hout
    have hof : Of ⟨sa.addr, ca.addr, dport, sport⟩ seg := h.of_sentBy (List.mem_of_getElem? hsent)
    refine ⟨.toClient .child i (Vector.replicate 6 0), ?_⟩
    unfold wireStep
    simp only [wireFrame, hsent, Option.map_some, Option.bind_some]
    rw [if_neg Sender.noConfusion, show ca.addr = seg.daddr from hof.daddr.symm, tcpIncoming_some hof.plain hof.saddr.symm]
    simp only [clientIn, h.found_client hof hf, if_true]
    rw [← hseg]
    exact hstep
  | resetToClient i => exact hd.elim
  | toServer i isn =>
    have hwire : ∀ seg, l.client.out[i]? = some seg → Of ⟨ca.addr, sa.addr, sport, dport⟩ seg →
        wireStep ca sa l (.toServer .client i (Vector.replicate 6 0) isn) =
          serverIn l seg isn := by
      intro seg hseg hof
      have hsent : (sentBy l .client)[i]? = some seg := hseg
      unfold wireStep
      simp only [wireFrame, hsent, Option.map_some, Option.bind_some, if_true]
      rw [show sa.addr = seg.daddr from hof.daddr.symm, tcpIncoming_some hof.plain hof.saddr.symm]
    refine ⟨.toServer .client i (Vector.replicate 6 0) isn, ?_⟩
    cases hc : l.child with
    | some c =>
      simp only [linkStep, hc] at hstep
      obtain ⟨c', sk, hc', hf, hrcv, -⟩ := onChild_some hstep
      obtain rfl := Option.some.inj (hc.symm.trans hc')
      obtain ⟨seg, hseg, -⟩ := receive_some hrcv
      have hof := h.client.out seg (List.mem_of_getElem? hseg)
      rw [hwire seg hseg hof]
      simp only [serverIn, hc, h.found_child hc hof hf, if_true]
      rw [← hseg]
      exact hstep
    | none =>
      simp only [linkStep, hc] at hstep
      obtain ⟨hisn, hstep⟩ := Option.ite_none_right_eq_some.mp hstep
      obtain ⟨seg, hseg, rfl⟩ := Option.map_eq_some_iff.mp hstep
      have hof := h.client.out seg (List.mem_of_getElem? hseg)
      rw [hwire seg hseg hof]
      simp only [serverIn, hc, h.found_listener hof, if_true, if_pos hisn]
  | write p buf => exact hown (.write p buf) rfl hstep
  | close p => exact hown (.close p) rfl hstep
  | timer p i => exact hown (.timer p i) rfl hstep
  | read len => exact hown (.read len) rfl hstep
  | round => exact hown .round rfl hstep

/-! ### The listening sock -/

/-- The links differ in their listening socks only. -/
def SameEnds (l l' : Link) : Prop :=
  ∃ sk, l' = { l with listener := sk } ∧ sk.state = l.listener.state

theorem SameEnds.symm (h : SameEnds l l') : SameEnds l' l := by
  obtain ⟨sk, rfl, hst⟩ := h
  exact ⟨l.listener, rfl, hst.symm⟩

/-- What the listening sock does depends on its state only. -/
theorem tcpHandleListen_congr {sk sk' : TcpSock} (hst : sk'.state = sk.state) (seg : Seg)
    (isn : UInt32) : (tcpHandleListen sk' seg isn).2 = (tcpHandleListen sk seg isn).2 ∧
      (tcpHandleListen sk' seg isn).1.state = (tcpHandleListen sk seg isn).1.state := by
  unfold tcpHandleListen tcpListenChildSock
  rw [hst]
  split_ifs <;> exact ⟨rfl, hst⟩

theorem onClient_listener (l : Link) (sk : TcpSock) (f : TcpSock → Option TcpSock) :
    onClient { l with listener := sk } f =
      (onClient l f).map fun l' => { l' with listener := sk } := by
  unfold onClient
  split_ifs
  · rfl
  · rw [Option.map_map]
    rfl

theorem onChild_listener (l : Link) (sk : TcpSock) (f : TcpSock → Option TcpSock) :
    onChild { l with listener := sk } f =
      (onChild l f).map fun l' => { l' with listener := sk } := by
  unfold onChild
  cases l.child with
  | none => rfl
  | some c =>
    simp only
    split_ifs
    · rfl
    · rw [Option.map_map]
      rfl

theorem listener_onClient {f : TcpSock → Option TcpSock} (h : onClient l f = some l') :
    l'.listener = l.listener := by
  obtain ⟨-, sk, -, rfl⟩ := onClient_some h
  rfl

theorem listener_onChild {f : TcpSock → Option TcpSock} (h : onChild l f = some l') :
    l'.listener = l.listener := by
  obtain ⟨c, c', -, -, -, rfl⟩ := onChild_some h
  rfl

/-- The same step is possible on both. -/
theorem SameEnds.step {t : Link} (h : SameEnds l t) {e : LinkEvent} (he : Heard e)
    (hstep : linkStep l e = some l') : ∃ t', linkStep t e = some t' ∧ SameEnds l' t' := by
  obtain ⟨sk, rfl, hst⟩ := h
  have hclient : ∀ {f l₁}, onClient l f = some l₁ →
      onClient { l with listener := sk } f = some { l₁ with listener := sk } ∧
        sk.state = l₁.listener.state := by
    intro f l₁ hf
    rw [onClient_listener, hf, listener_onClient hf]
    exact ⟨rfl, hst⟩
  have hchild : ∀ {f l₁}, onChild l f = some l₁ →
      onChild { l with listener := sk } f = some { l₁ with listener := sk } ∧
        sk.state = l₁.listener.state := by
    intro f l₁ hf
    rw [onChild_listener, hf, listener_onChild hf]
    exact ⟨rfl, hst⟩
  match e with
  | .write .client buf => exact ⟨_, (hclient hstep).1, sk, rfl, (hclient hstep).2⟩
  | .write .child buf =>
    obtain ⟨l₁, hl₁, rfl⟩ := Option.map_eq_some_iff.mp hstep
    exact ⟨_, Option.map_eq_some_iff.mpr ⟨_, (hchild hl₁).1, rfl⟩, sk, rfl, (hchild hl₁).2⟩
  | .close .client => exact ⟨_, (hclient hstep).1, sk, rfl, (hclient hstep).2⟩
  | .close .child => exact ⟨_, (hchild hstep).1, sk, rfl, (hchild hstep).2⟩
  | .timer .client i =>
    have hstep : onClient l (fun sk => fireTimer sk i) = some l' := hstep
    exact ⟨_, (hclient hstep).1, sk, rfl, (hclient hstep).2⟩
  | .timer .child i =>
    have hstep : onChild l (fun sk => fireTimer sk i) = some l' := hstep
    exact ⟨_, (hchild hstep).1, sk, rfl, (hchild hstep).2⟩
  | .toClient i => exact ⟨_, (hclient hstep).1, sk, rfl, (hclient hstep).2⟩
  | .resetToClient i => exact he.elim
  | .toServer i isn =>
    cases hc : l.child with
    | some c =>
      simp only [linkStep, hc] at hstep ⊢
      have hrun := hchild hstep
      simp only [hc] at hrun
      exact ⟨_, hrun.1, sk, rfl, hrun.2⟩
    | none =>
      simp only [linkStep, hc] at hstep ⊢
      obtain ⟨hisn, hstep⟩ := Option.ite_none_right_eq_some.mp hstep
      obtain ⟨seg, hseg, rfl⟩ := Option.map_eq_some_iff.mp hstep
      obtain ⟨heq, hst'⟩ := tcpHandleListen_congr hst seg isn
      refine ⟨_, (if_pos hisn).trans (Option.map_eq_some_iff.mpr ⟨seg, hseg, rfl⟩), _, ?_, hst'⟩
      rw [heq]
  | .read len =>
    cases hr : l.reader with
    | idle =>
      simp only [linkStep, hr] at hstep ⊢
      obtain ⟨l₁, hl₁, rfl⟩ := Option.map_eq_some_iff.mp hstep
      have hrun := hclient hl₁
      simp only [hr] at hrun
      exact ⟨_, Option.map_eq_some_iff.mpr ⟨_, hrun.1, rfl⟩, sk, rfl, hrun.2⟩
    | receiving len rlen =>
      simp only [linkStep, hr] at hstep
      exact absurd hstep (by simp)
  | .round =>
    cases hr : l.reader with
    | idle =>
      simp only [linkStep, hr] at hstep
      exact absurd hstep (by simp)
    | receiving len rlen =>
      simp only [linkStep, hr] at hstep ⊢
      obtain ⟨l₁, hl₁, rfl⟩ := Option.map_eq_some_iff.mp hstep
      have hrun := hclient hl₁
      simp only [hr] at hrun
      exact ⟨_, Option.map_eq_some_iff.mpr ⟨_, hrun.1, rfl⟩, sk, rfl, hrun.2⟩

/-! ### Runs -/

/-- The wire against the link: at every moment they differ in the listening sock only. -/
def Matched (ca sa : Netdev) (sport dport : UInt16) (l t : Link) : Prop :=
  Hosted ca.addr sa.addr sport dport l ∧ SameEnds l t

theorem simulates_link (hne : ca.addr ≠ sa.addr) (hca : ca.addr ≠ 0) (hsa : sa.addr ≠ 0) :
    Simulates (wireStep ca sa) (fun _ => True) linkStep Heard (Matched ca sa sport dport) := by
  refine .of_step fun l t e l' hmatched _ hstep => ?_
  obtain ⟨h, hsame⟩ := hmatched
  rcases h.delivers hne hca hsa hstep with rfl | ⟨d, hd, hlink⟩
  · exact .inl ⟨h, hsame⟩
  · obtain ⟨t', ht', hsame'⟩ := hsame.step hd hlink
    exact .inr ⟨d, t', hd, ht', h.step (linkStep_some hlink), hsame'⟩

theorem simulates_wire : Simulates linkStep Heard (wireStep ca sa) (fun _ => True)
    fun t l => Matched ca sa sport dport l t := by
  refine .of_step fun t l d t' hmatched hd hstep => ?_
  obtain ⟨h, hsame⟩ := hmatched
  obtain ⟨l', hl', hsame'⟩ := hsame.symm.step hd hstep
  obtain ⟨e, he⟩ := h.has_frame hd hl'
  exact .inr ⟨e, l', trivial, he, h.step (linkStep_some hl'), hsame'.symm⟩

theorem matched_start (sport dport : UInt16) (isn : UInt32) :
    Matched ca sa sport dport (wireStart ca.addr sa.addr sport dport isn)
      (start ca.addr sa.addr sport dport isn) :=
  ⟨hosted_start isn, listenSock dport, rfl, rfl⟩

end Wire

/-- **The endpoints cannot tell the Ethernet from the network of segments.** What they can come to
with frames, they can come to with segments, and the other way round; only the resets of the
listening sock, which are sent to address 0, never arrive. -/
theorem same_connections (ca sa : Netdev) (hne : ca.addr ≠ sa.addr) (hca : ca.addr ≠ 0)
    (hsa : sa.addr ≠ 0) (sport dport : UInt16) (isn : UInt32) :
    (∀ es l, run (wireStep ca sa) (wireStart ca.addr sa.addr sport dport isn) es = some l →
      ∃ ds t, (∀ d ∈ ds, Heard d) ∧
        run linkStep (start ca.addr sa.addr sport dport isn) ds = some t ∧ SameEnds l t) ∧
    ∀ ds t, (∀ d ∈ ds, Heard d) →
      run linkStep (start ca.addr sa.addr sport dport isn) ds = some t →
      ∃ es l, run (wireStep ca sa) (wireStart ca.addr sa.addr sport dport isn) es = some l ∧
        SameEnds l t := by
  have hstart : Matched ca sa sport dport _ _ := matched_start sport dport isn
  refine ⟨fun es l hrun => ?_, fun ds t hds hrun => ?_⟩
  · obtain ⟨ds, t, hds, hrun', -, hsame⟩ :=
      (simulates_link hne hca hsa).run hstart (fun _ _ => trivial) hrun
    exact ⟨ds, t, hds, hrun', hsame⟩
  · obtain ⟨es, l, -, hrun', -, hsame⟩ := simulates_wire.run hstart hds hrun
    exact ⟨es, l, hrun', hsame⟩

/-- Three frames establish a connection. -/
theorem same_connections_established : ∃ es l,
    run (wireStep ⟨0x0A000105, Vector.replicate 6 5⟩ ⟨0x0A000104, Vector.replicate 6 4⟩)
        (wireStart 0x0A000105 0x0A000104 40001 80 100) es = some l ∧
      l.client.state = .established ∧ l.child.map TcpSock.state = some .established := by
  have hsome : ((run linkStep (start 0x0A000105 0x0A000104 40001 80 100)
      [.toServer 0 200, .toClient 0, .toServer 1 0]).map fun l =>
        (l.client.state, l.child.map TcpSock.state)) =
      some (.established, some .established) := by decide
  obtain ⟨t, hrun, ht⟩ := Option.map_eq_some_iff.mp hsome
  obtain ⟨hclient, hchild⟩ := Prod.mk.inj ht
  obtain ⟨es, l, hwire, sk, rfl, -⟩ := (same_connections ⟨0x0A000105, Vector.replicate 6 5⟩
    ⟨0x0A000104, Vector.replicate 6 4⟩ (by decide) (by decide) (by decide) 40001 80 100).2
    _ t (by simp [Heard]) hrun
  exact ⟨es, l, hwire, hclient, hchild⟩

end ToyIP.Net.Wire
