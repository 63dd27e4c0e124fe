import ToyIP.Net.Packets

/-! # Network: what is sent is received

The headers that the stack writes, the checksums in them, and the way back: a receiver that gets the
frame recovers the segment or the datagram that was handed down (`packet_round_trip`), and every
checksum verifies over the bytes that leave (`checksums_verify`). -/

namespace ToyIP.Net.RoundTrip

open ToyIP.Lib.Bytes ToyIP.Net.Checksum ToyIP.Net.Headers ToyIP.Net.Packets ToyIP.Tcp.Types
  ToyIP.Tcp.Output ToyIP.Tcp.Effects

/-! ### The IP header -/

/-- The header that `ip_output` writes. -/
def wireIp (dev daddr : UInt32) (proto : UInt8) (id len csum : UInt16) : Iphdr where
  ihl := 5
  version := 4
  tos := 0
  len := htons len
  id := htons id
  flags := 0
  fragOffset := 0
  ttl := 64
  proto := proto
  csum := csum
  saddr := htonl dev
  daddr := htonl daddr

/-- Its checksum. -/
def ipCsum (dev daddr : UInt32) (proto : UInt8) (id len : UInt16) : UInt16 :=
  checksum (wireIp dev daddr proto id len 0).bytes 0

/-- The header as `ip_init_pkt` leaves it. -/
def hostIp (dev daddr : UInt32) (proto : UInt8) (id len csum : UInt16) : Iphdr :=
  { wireIp dev daddr proto id len csum with saddr := dev, daddr := daddr, len := len, id := id }

theorem htons_zero : htons 0 = 0 := by decide

/-- `ip_output` writes one header, with the identification that it finds. -/
theorem ipOutput_eq_id (dev daddr : UInt32) (skb : SkBuff) (h : 34 ≤ skb.mem.length) :
    ipOutput dev daddr skb = { skbPush skb 20 with
      mem := splice skb.mem 14 (wireIp dev daddr skb.protocol.toUInt8 (ipHdr skb.mem).id
        (skb.len + 20).toUInt16 (ipCsum dev daddr skb.protocol.toUInt8 (ipHdr skb.mem).id
          (skb.len + 20).toUInt16)).bytes } := by
  have hwire : ∀ hd : Iphdr, slice (splice skb.mem 14 hd.bytes) 14 20 = hd.bytes :=
    fun hd => slice_splice_eq hd.length_bytes h
  have hagain : ∀ hd hd' : Iphdr, splice (splice skb.mem 14 hd.bytes) 14 hd'.bytes =
      splice skb.mem 14 hd'.bytes := fun hd hd' => splice_splice (by omega) (by simp)
  have hmem : ∀ W : UInt16 → Iphdr,
      splice (splice skb.mem 14 (W 0).bytes) 14
        (W (checksum (slice (splice skb.mem 14 (W 0).bytes) 14 20) 0)).bytes =
      splice skb.mem 14 (W (checksum (W 0).bytes 0)).bytes := fun W => by
    rw [hwire, hagain]
  unfold ipOutput putIpHdr
  simp only [htons_zero]
  exact congrArg (fun mem => { skbPush skb 20 with mem := mem })
    (hmem (wireIp dev daddr skb.protocol.toUInt8 (ipHdr skb.mem).id (skb.len + 20).toUInt16))

theorem ipOutput_eq (dev daddr : UInt32) (skb : SkBuff) (h : 34 ≤ skb.mem.length) : ∃ id,
    ipOutput dev daddr skb = { skbPush skb 20 with
      mem := splice skb.mem 14 (wireIp dev daddr skb.protocol.toUInt8 id (skb.len + 20).toUInt16
        (ipCsum dev daddr skb.protocol.toUInt8 id (skb.len + 20).toUInt16)).bytes } :=
  ⟨_, ipOutput_eq_id dev daddr skb h⟩

/-- The checksum of the header verifies. -/
theorem ipCsum_verifies (dev daddr : UInt32) (proto : UInt8) (id len : UInt16) :
    checksum (wireIp dev daddr proto id len (ipCsum dev daddr proto id len)).bytes 0 = 0 := by
  have h := checksum_verifies (wireIp dev daddr proto id len 0).bytes 10 0 (by simp) rfl (by simp)
    (by decide)
  rwa [Iphdr.splice_csum, Iphdr.splice_csum] at h

/-- The frame of a buffer that `ip_output` has left, on its way through `netdev_receive`. -/
theorem netdevReceive_frame (mem : List UInt8) (hmem : 34 ≤ mem.length) (dstHw hwaddr : Vector UInt8 6)
    (dev daddr : UInt32) (proto : UInt8) (id len : UInt16) (rest : List UInt8) : ∃ mem',
    ipHdr mem' = hostIp dev daddr proto id len (ipCsum dev daddr proto id len) ∧
    (∀ j n, 34 ≤ j → j + n ≤ mem.length → slice mem' j n = slice mem j n) ∧
    netdevReceive daddr (splice (splice mem 14 (wireIp dev daddr proto id len
        (ipCsum dev daddr proto id len)).bytes) 0 (EthHdr.bytes ⟨dstHw, hwaddr, htons 0x0800⟩) ++
        rest) =
      if proto = 1 then some (.icmp mem')
      else if proto = 6 then some (.tcp (tcpInitSegment mem'))
      else if proto = 17 then some (.udp (udpInitSegment mem'))
      else none := by
  set ih := wireIp dev daddr proto id len (ipCsum dev daddr proto id len) with hih
  set eth := EthHdr.bytes ⟨dstHw, hwaddr, htons 0x0800⟩ with heth
  set M := splice (splice mem 14 ih.bytes) 0 eth ++ rest with hM
  have hethlen : eth.length = 14 := EthHdr.length_bytes _
  have hlen₁ : (splice mem 14 ih.bytes).length = mem.length := length_splice (by simp; omega)
  have hlen : (splice (splice mem 14 ih.bytes) 0 eth).length = mem.length := by
    rw [length_splice (by omega), hlen₁]
  -- what lies behind the Ethernet header
  have hbehind : ∀ j n, 14 ≤ j → j + n ≤ mem.length →
      slice M j n = slice (splice mem 14 ih.bytes) j n := fun j n hj hn => by
    rw [hM, slice_append (by omega), slice_splice_behind (by omega) (by omega)]
  have hip : slice M 14 20 = ih.bytes := by
    rw [hbehind 14 20 (Nat.le_refl _) (by omega), slice_splice_eq ih.length_bytes (by omega)]
  have htext : ∀ j n, 34 ≤ j → j + n ≤ mem.length → slice M j n = slice mem j n :=
    fun j n hj hn => by
      rw [hbehind j n (by omega) hn, slice_splice_behind (by omega) (by simp; omega)]
  have htype : of16 (slice M 12 2) = htons 0x0800 := by
    have hself : slice (splice (splice mem 14 ih.bytes) 0 eth) 0 14 = eth :=
      slice_splice_eq hethlen (by omega)
    have hinner := slice_slice (m := splice (splice mem 14 ih.bytes) 0 eth) (i := 0) (n := 14)
      (j := 12) (k := 2) (by omega)
    rw [hself, Nat.zero_add] at hinner
    rw [hM, slice_append (by omega), ← hinner, heth, EthHdr.slice_bytes, of16_le16]
  have hread : ipHdr M = ih := by
    rw [ipHdr, hip, Iphdr.read_bytes]
  have hinit : ipInitPkt M = splice M 14
      (hostIp dev daddr proto id len (ipCsum dev daddr proto id len)).bytes := by
    unfold ipInitPkt putIpHdr
    rw [hread, hih]
    simp only [wireIp, htonl_htonl, htons_htons]
    rfl
  have hMlen : mem.length ≤ M.length := by
    rw [hM, List.length_append]
    omega
  have hhost : ipHdr (ipInitPkt M) =
      hostIp dev daddr proto id len (ipCsum dev daddr proto id len) := by
    rw [hinit]
    exact ipHdr_putIpHdr (by omega) _
  refine ⟨ipInitPkt M, hhost, fun j n hj hn => ?_, ?_⟩
  · rw [hinit, slice_splice_behind (by omega) (by simp; omega), htext j n hj hn]
  · have hcsum : checksum (slice M 14 20) 0 = 0 := by
      rw [hip]
      exact ipCsum_verifies dev daddr proto id len
    unfold netdevReceive ipRcv
    rw [htype, htons_htons, if_pos rfl, hread]
    simp [hhost, hih, wireIp, hostIp, hcsum]

/-- `netdev_transmit` on a buffer that `ip_output` has left. -/
theorem frame_netdevTransmit (skb : SkBuff) (dstHw hwaddr : Vector UInt8 6) (hdata : skb.data = 14)
    (hlen : skb.mem.length = skb.len.toNat + 14) (hfits : skb.len.toNat + 14 < 4294967296) :
    frame (netdevTransmit dstHw hwaddr skb) =
      splice skb.mem 0 (EthHdr.bytes ⟨dstHw, hwaddr, htons 0x0800⟩) := by
  have hpush : (skb.len + 14).toNat = skb.mem.length := by
    rw [UInt32.toNat_add, hlen]
    exact Nat.mod_eq_of_lt hfits
  have hall : (splice skb.mem 0 (EthHdr.bytes ⟨dstHw, hwaddr, htons 0x0800⟩)).length =
      skb.mem.length := length_splice (by simp; omega)
  show slice (splice skb.mem (skb.data - 14) _) (skb.data - 14) (skb.len + 14).toNat = _
  rw [hdata, hpush, Nat.sub_self, slice, List.drop_zero]
  exact List.take_of_length_le (Nat.le_of_eq hall)

/-! ### The TCP header -/

/-- The header that `tcp_transmit_skb` writes. -/
def wireTcp (sk : TcpSock) (th : TcpHdr) (seq : UInt32) (csum : UInt16) : Tcphdr where
  sport := htons sk.sport
  dport := htons sk.dport
  seq := htonl seq
  ackSeq := htonl sk.rcvNxt
  rsvd := 0
  hl := BitVec.ofNat 4 (fillHeader sk th seq).hl.toNat
  fin := th.fin
  syn := th.syn
  rst := th.rst
  psh := th.psh
  ack := th.ack
  urg := th.urg
  ece := th.ece
  cwr := th.cwr
  win := htons sk.rcvWnd.toUInt16
  csum := csum
  urp := 0

/-- Its checksum: the options and the text follow the header. -/
def tcpCsum (sk : TcpSock) (skb : Skb) (seq : UInt32) : UInt16 :=
  tcpUdpChecksum (htonl sk.saddr) (htonl sk.daddr) 6
    ((wireTcp sk skb.th seq 0).bytes ++ (skb.th.opts ++ skb.payload))
    (UInt16.ofNat (20 + skb.th.opts.length + skb.payload.length))

/-- The flags and the header length of a header in memory. -/
structure SameFlags (h : Tcphdr) (th : TcpHdr) : Prop where
  hl : h.hl = BitVec.ofNat 4 th.hl.toNat
  fin : h.fin = th.fin
  syn : h.syn = th.syn
  rst : h.rst = th.rst
  psh : h.psh = th.psh
  ack : h.ack = th.ack
  urg : h.urg = th.urg
  ece : h.ece = th.ece
  cwr : h.cwr = th.cwr

/-- The memory of a buffer holds a segment that is ready to be sent: the options and the text are in
place, and so are the flags and the header length. -/
structure Holds (b : SkBuff) (skb : Skb) : Prop where
  length : b.mem.length = 54 + (skb.th.opts.length + skb.payload.length)
  text : b.mem.drop 54 = skb.th.opts ++ skb.payload
  flags : SameFlags (tcpHdr b.mem) skb.th
  hl : skb.th.hl = 0 ∧ skb.th.opts = [] ∨ 4 * skb.th.hl.toNat = 20 + skb.th.opts.length
  opts : skb.th.opts.length ≤ 40 ∧ (skb.th.opts = [] ∨ skb.payload = [])
  data : b.data + skb.payload.length = b.mem.length
  len : b.len = UInt32.ofNat skb.payload.length
  dlen : b.dlen = UInt32.ofNat skb.payload.length ∧ skb.dlen = UInt32.ofNat skb.payload.length
  protocol : b.protocol = 6
  size : skb.payload.length < 65536

variable {b : SkBuff} {skb : Skb} {sk : TcpSock}

theorem hl_ne_zero {hl : UInt8} {n : ℕ} (h : 4 * hl.toNat = 20 + n) : hl ≠ 0 := by
  intro hzero
  have hnat : (0 : UInt8).toNat = 0 := rfl
  rw [hzero, hnat] at h
  omega

/-- The length of the header that leaves. -/
theorem Holds.hlen (h : Holds b skb) (sk : TcpSock) (seq : UInt32) :
    4 * (fillHeader sk skb.th seq).hl.toNat = 20 + skb.th.opts.length := by
  have hfill : (fillHeader sk skb.th seq).hl = if skb.th.hl = 0 then 5 else skb.th.hl := rfl
  rw [hfill]
  rcases h.hl with ⟨hzero, hopts⟩ | hl
  · rw [if_pos hzero, hopts]
    rfl
  · rw [if_neg (hl_ne_zero hl)]
    exact hl

/-- The header length in memory is the same. -/
theorem Holds.hl_mem (h : Holds b skb) (sk : TcpSock) (seq : UInt32) :
    (if (tcpHdr b.mem).hl = 0 then 5 else (tcpHdr b.mem).hl) =
      BitVec.ofNat 4 (fillHeader sk skb.th seq).hl.toNat := by
  have hfill : (fillHeader sk skb.th seq).hl = if skb.th.hl = 0 then 5 else skb.th.hl := rfl
  have hsmall := h.opts.1
  rw [h.flags.hl, hfill]
  rcases h.hl with ⟨hzero, -⟩ | hl
  · rw [hzero]
    rfl
  · rw [if_neg (hl_ne_zero hl), if_neg]
    intro hzero
    have hnat := congrArg BitVec.toNat hzero
    rw [BitVec.toNat_ofNat] at hnat
    simp at hnat
    omega

theorem toUInt16_ofNat {n : ℕ} : (UInt32.ofNat n).toUInt16 = UInt16.ofNat n := by
  rw [← UInt16.toNat_inj, UInt32.toNat_toUInt16, UInt32.toNat_ofNat', UInt16.toNat_ofNat']
  omega

/-- The TCP header is written in front of the text. -/
theorem tcpFill_eq (h : Holds b skb) (sk : TcpSock) (seq : UInt32) : tcpFill sk b seq = { b with
    mem := splice b.mem 34 (wireTcp sk skb.th seq (tcpCsum sk skb seq)).bytes
    data := 34
    len := UInt32.ofNat (20 + skb.th.opts.length + skb.payload.length) } := by
  have hlen := h.hlen sk seq
  have hmem := h.hl_mem sk seq
  have hsmall := h.opts.1
  have hdata := h.data
  have hmlen := h.length
  have hl4 : 4 * (BitVec.ofNat 4 (fillHeader sk skb.th seq).hl.toNat).toNat =
      20 + skb.th.opts.length := by
    rw [BitVec.toNat_ofNat]
    omega
  have hwire : ∀ c, { tcpHdr b.mem with
      hl := BitVec.ofNat 4 (fillHeader sk skb.th seq).hl.toNat, rsvd := 0
      sport := htons sk.sport, dport := htons sk.dport, seq := htonl seq
      ackSeq := htonl sk.rcvNxt, win := htons sk.rcvWnd.toUInt16, csum := c, urp := 0 } =
      wireTcp sk skb.th seq c := fun c => by
    simp only [wireTcp, h.flags.fin, h.flags.syn, h.flags.rst, h.flags.psh, h.flags.ack,
      h.flags.urg, h.flags.ece, h.flags.cwr]
  have hpush : skbPush b (20 + skb.th.opts.length) = { b with
      data := 34, len := UInt32.ofNat (20 + skb.th.opts.length + skb.payload.length) } := by
    unfold skbPush
    rw [h.len, ← UInt32.ofNat_add]
    congr 1
    · omega
    · congr 1
      omega
  unfold tcpFill putTcpHdr
  simp only [hmem, htons_zero, hl4, hpush, hwire]
  have hdrop := drop_splice b.mem (wireTcp sk skb.th seq 0).bytes (i := 34) (by omega)
  rw [Tcphdr.length_bytes, h.text] at hdrop
  have hcsum : tcpUdpChecksum (htonl sk.saddr) (htonl sk.daddr) 6
      ((wireTcp sk skb.th seq 0).bytes ++ (skb.th.opts ++ skb.payload))
      (UInt16.ofNat (20 + skb.th.opts.length + skb.payload.length)) = tcpCsum sk skb seq := rfl
  rw [hdrop, toUInt16_ofNat, hcsum, splice_splice (by omega) (by simp)]

/-- `tcp_transmit_skb` writes the two headers and leaves the text. -/
theorem tcpTransmitSkb_eq (h : Holds b skb) (sk : TcpSock) (dev seq : UInt32) : ∃ id,
    Packets.tcpTransmitSkb dev sk b seq = { b with
      mem := splice (splice b.mem 34 (wireTcp sk skb.th seq (tcpCsum sk skb seq)).bytes) 14
        (wireIp dev sk.daddr 6 id (UInt16.ofNat (40 + skb.th.opts.length + skb.payload.length))
          (ipCsum dev sk.daddr 6 id
            (UInt16.ofNat (40 + skb.th.opts.length + skb.payload.length)))).bytes
      data := 14
      len := UInt32.ofNat (40 + skb.th.opts.length + skb.payload.length) } := by
  have hmlen := h.length
  have hspl : (splice b.mem 34 (wireTcp sk skb.th seq (tcpCsum sk skb seq)).bytes).length =
      b.mem.length := length_splice (by simp; omega)
  obtain ⟨id, hid⟩ := ipOutput_eq dev sk.daddr { b with
    mem := splice b.mem 34 (wireTcp sk skb.th seq (tcpCsum sk skb seq)).bytes, data := 34
    len := UInt32.ofNat (20 + skb.th.opts.length + skb.payload.length) } (by rw [hspl]; omega)
  refine ⟨id, ?_⟩
  rw [tcpTransmitSkb_fill, tcpFill_eq h]
  refine hid.trans ?_
  have hadd : UInt32.ofNat (20 + skb.th.opts.length + skb.payload.length) + 20 =
      UInt32.ofNat (40 + skb.th.opts.length + skb.payload.length) := by
    rw [show (20 : UInt32) = UInt32.ofNat 20 from rfl, ← UInt32.ofNat_add]
    congr 1
    omega
  have hproto : b.protocol.toUInt8 = 6 := by
    rw [h.protocol]
    rfl
  have hpush' : skbPush { b with
      mem := splice b.mem 34 (wireTcp sk skb.th seq (tcpCsum sk skb seq)).bytes, data := 34
      len := UInt32.ofNat (20 + skb.th.opts.length + skb.payload.length) } 20 = { b with
      mem := splice b.mem 34 (wireTcp sk skb.th seq (tcpCsum sk skb seq)).bytes, data := 14
      len := UInt32.ofNat (40 + skb.th.opts.length + skb.payload.length) } := by
    rw [skbPush]
    congr 1
  simp only [hpush', hadd, toUInt16_ofNat, hproto]

/-! ### Buffers that are sent -/

/-- The flags of a header are set in a buffer. -/
def setFlags (b : SkBuff) (th : TcpHdr) : SkBuff :=
  { b with mem := putTcpHdr b.mem { tcpHdr b.mem with
      fin := th.fin, syn := th.syn, rst := th.rst, psh := th.psh, ack := th.ack, urg := th.urg
      ece := th.ece, cwr := th.cwr } }

/-- A new buffer with a text and the flags of `th`. -/
def textSkb (th : TcpHdr) (payload : List UInt8) : SkBuff :=
  let b := skbPush (Packets.tcpAllocSkb 0 payload.length) payload.length
  setFlags { b with mem := splice b.mem b.data payload } th

/-- The new buffer of `tcp_send_syn`. -/
def synSkb (sk : TcpSock) : SkBuff :=
  setFlags (tcpWriteOptions (Packets.tcpAllocSkb 4 0) sk.rmss 4) { syn := true }

/-- The buffers that `tcp_transmit_skb` is called with: new ones, and those that are sent again
after `skb_reset_header`, framed before or not. -/
inductive Built : SkBuff → Skb → Prop
  | text (th : TcpHdr) (payload : List UInt8) (hl : th.hl = 0) (opts : th.opts = [])
      (size : payload.length < 65536) :
      Built (textSkb th payload) { Tcp.Output.tcpAllocSkb payload.length with th, payload }
  | syn (sk : TcpSock) : Built (synSkb sk) { Tcp.Output.tcpAllocSkb 0 with th := tcpSynHeader sk }
  | again {b : SkBuff} {skb : Skb} (built : Built b skb) (dev : UInt32) (sk : TcpSock)
      (seq : UInt32) :
      Built (skbResetHeader (Packets.tcpTransmitSkb dev sk b seq)) (sentSkb sk skb seq)
  | framed {b : SkBuff} {skb : Skb} (built : Built b skb) (dev : UInt32) (sk : TcpSock)
      (seq : UInt32) (dstHw hwaddr : Vector UInt8 6) :
      Built (skbResetHeader (netdevTransmit dstHw hwaddr (Packets.tcpTransmitSkb dev sk b seq)))
        (sentSkb sk skb seq)

section
variable {mem : List UInt8} (h : 54 ≤ mem.length) (hd : Tcphdr)
include h

theorem tcpHdr_putTcpHdr : tcpHdr (putTcpHdr mem hd) = hd := by
  rw [tcpHdr, putTcpHdr, slice_splice_eq hd.length_bytes (by omega), Tcphdr.read_bytes]

theorem length_putTcpHdr : (putTcpHdr mem hd).length = mem.length :=
  length_splice (by simp; omega)

theorem drop_putTcpHdr : (putTcpHdr mem hd).drop 54 = mem.drop 54 :=
  drop_splice_behind (by omega) (by simp)

end

/-- The header of a new buffer is zero. -/
theorem tcpHdr_alloc (n : ℕ) (xs : List UInt8) :
    tcpHdr (splice (List.replicate (54 + n) 0) 54 xs) = Tcphdr.read (List.replicate 20 0) := by
  rw [tcpHdr, slice_splice_before (by simp) (by omega), slice, List.drop_replicate,
    List.take_replicate, Nat.min_eq_left (by omega)]

theorem Holds.text_new (th : TcpHdr) (payload : List UInt8) (hl : th.hl = 0) (opts : th.opts = [])
    (size : payload.length < 65536) :
    Holds (textSkb th payload) { Tcp.Output.tcpAllocSkb payload.length with th, payload } := by
  have hdata : 54 + 0 + payload.length - payload.length = 54 := by omega
  have hlen : (splice (List.replicate (54 + payload.length) 0) 54 payload).length =
      54 + payload.length := by
    rw [length_splice (by simp), List.length_replicate]
  have hmem : (textSkb th payload).mem =
      putTcpHdr (splice (List.replicate (54 + payload.length) 0) 54 payload)
        { Tcphdr.read (List.replicate 20 0) with
          fin := th.fin, syn := th.syn, rst := th.rst, psh := th.psh, ack := th.ack, urg := th.urg
          ece := th.ece, cwr := th.cwr } := by
    rw [← tcpHdr_alloc payload.length payload]
    simp [textSkb, setFlags, skbPush, Packets.tcpAllocSkb, skbReserve, allocSkb]
  refine ⟨?_, ?_, ?_, .inl ⟨hl, opts⟩, ⟨by simp [opts], .inl opts⟩, ?_, ?_, ⟨rfl, rfl⟩, rfl, size⟩
  · rw [hmem, length_putTcpHdr (by omega), hlen]
    simp [opts]
  · rw [hmem, drop_putTcpHdr (by omega), drop_splice _ _ (by simp)]
    simp [opts]
  · rw [hmem, tcpHdr_putTcpHdr (by omega)]
    refine ⟨?_, rfl, rfl, rfl, rfl, rfl, rfl, rfl, rfl⟩
    rw [hl]
    rfl
  · rw [hmem, length_putTcpHdr (by omega), hlen]
    simp only [textSkb, setFlags, skbPush, Packets.tcpAllocSkb, skbReserve, allocSkb]
    omega
  · show 0 + _ = _
    rw [UInt32.zero_add]

/-- The option in memory. -/
theorem le16_htons (v : UInt16) : le16 (htons v) = [(v >>> 8).toUInt8, v.toUInt8] := by
  have hswap : swapBytes 2 v.toNat < 2 ^ 16 := swapBytes_lt 2 v.toNat
  have hhigh : (v >>> 8).toUInt8 = UInt8.ofNat (v.toNat / 256 % 256) := by
    rw [← UInt8.toNat_inj, UInt16.toNat_toUInt8, UInt16.toNat_shiftRight, Nat.shiftRight_eq_div_pow,
      UInt8.toNat_ofNat']
    show v.toNat / 2 ^ 8 % 2 ^ 8 = _
    omega
  have hlow : v.toUInt8 = UInt8.ofNat (v.toNat % 256) := by
    rw [← UInt8.toNat_inj, UInt16.toNat_toUInt8, UInt8.toNat_ofNat']
    omega
  rw [le16, htons, UInt16.toNat_ofNat', Nat.mod_eq_of_lt hswap, le_swapBytes, hhigh, hlow]
  rfl

theorem Holds.syn_new (sk : TcpSock) :
    Holds (synSkb sk) { Tcp.Output.tcpAllocSkb 0 with th := tcpSynHeader sk } := by
  have hlen : (splice (List.replicate (54 + 4) 0) 54 (2 :: 4 :: le16 (htons sk.rmss))).length =
      58 := by
    rw [length_splice (by simp), List.length_replicate]
  have hopt : (tcpWriteOptions (Packets.tcpAllocSkb 4 0) sk.rmss 4).mem =
      putTcpHdr (splice (List.replicate (54 + 4) 0) 54 (2 :: 4 :: le16 (htons sk.rmss)))
        { Tcphdr.read (List.replicate 20 0) with hl := 6 } := by
    rw [← tcpHdr_alloc 4 (2 :: 4 :: le16 (htons sk.rmss))]
    rfl
  have hmem : (synSkb sk).mem = putTcpHdr (putTcpHdr
      (splice (List.replicate (54 + 4) 0) 54 (2 :: 4 :: le16 (htons sk.rmss)))
        { Tcphdr.read (List.replicate 20 0) with hl := 6 })
        { Tcphdr.read (List.replicate 20 0) with hl := 6, syn := true } := by
    rw [synSkb, setFlags, hopt, tcpHdr_putTcpHdr (by omega)]
    rfl
  have hlen' := @length_putTcpHdr (splice (List.replicate (54 + 4) 0) 54
    (2 :: 4 :: le16 (htons sk.rmss))) (by omega) { Tcphdr.read (List.replicate 20 0) with hl := 6 }
  have hopts : (tcpSynHeader sk).opts.length ≤ 40 := by
    show 4 ≤ 40
    omega
  refine ⟨?_, ?_, ?_, .inr rfl, ⟨hopts, .inr rfl⟩, ?_, rfl, ⟨rfl, rfl⟩, rfl, Nat.zero_lt_succ _⟩
  · rw [hmem, length_putTcpHdr (by omega), hlen', hlen]
    rfl
  · rw [hmem, drop_putTcpHdr (by omega), drop_putTcpHdr (by omega), drop_splice _ _ (by simp),
      le16_htons]
    rfl
  · rw [hmem, tcpHdr_putTcpHdr (by omega)]
    exact ⟨rfl, rfl, rfl, rfl, rfl, rfl, rfl, rfl, rfl⟩
  · rw [hmem, length_putTcpHdr (by omega), hlen', hlen]
    rfl

/-- A buffer that was sent holds its segment still. -/
theorem Holds.sent (h : Holds b skb) {b' : SkBuff} {seq : UInt32} {csum : UInt16}
    (hlen : b'.mem.length = b.mem.length)
    (hdrop : b'.mem.drop 34 = (wireTcp sk skb.th seq csum).bytes ++ b.mem.drop 54)
    (hdlen : b'.dlen = b.dlen) (hproto : b'.protocol = b.protocol) :
    Holds (skbResetHeader b') (sentSkb sk skb seq) := by
  have hhdr : tcpHdr b'.mem = wireTcp sk skb.th seq csum := by
    rw [tcpHdr, slice, hdrop, List.take_append_of_le_length (by simp),
      List.take_of_length_le (by simp), Tcphdr.read_bytes]
  have htext : b'.mem.drop 54 = b.mem.drop 54 := by
    have h54 : b'.mem.drop 54 = (b'.mem.drop 34).drop 20 := by
      rw [List.drop_drop]
    rw [h54, hdrop, List.drop_append, List.drop_of_length_le (by simp)]
    simp
  have hsize := h.size
  have hnat : b'.dlen.toNat = skb.payload.length := by
    rw [hdlen, h.dlen.1, UInt32.toNat_ofNat']
    omega
  have hmlen := h.length
  refine ⟨hlen.trans h.length, htext.trans h.text, ?_, .inr (h.hlen sk seq), h.opts, ?_,
    hdlen.trans h.dlen.1, ⟨hdlen.trans h.dlen.1, h.dlen.2⟩, hproto.trans h.protocol, h.size⟩
  · show SameFlags (tcpHdr b'.mem) (fillHeader sk skb.th seq)
    rw [hhdr]
    exact ⟨rfl, rfl, rfl, rfl, rfl, rfl, rfl, rfl, rfl⟩
  · show b'.mem.length - b'.dlen.toNat + skb.payload.length = b'.mem.length
    omega

/-- What lies behind the IP header of a segment that was sent. -/
theorem Holds.drop_sent (h : Holds b skb) (ih : Iphdr) (th : Tcphdr) :
    (splice (splice b.mem 34 th.bytes) 14 ih.bytes).drop 34 = th.bytes ++ b.mem.drop 54 := by
  have hmlen := h.length
  have hlen : (splice b.mem 34 th.bytes).length = b.mem.length := length_splice (by simp; omega)
  rw [drop_splice_behind (by omega) (by simp), drop_splice _ _ (by omega), Tcphdr.length_bytes]

theorem Holds.length_sent (h : Holds b skb) (ih : Iphdr) (th : Tcphdr) :
    (splice (splice b.mem 34 th.bytes) 14 ih.bytes).length = b.mem.length := by
  have hmlen := h.length
  have hlen : (splice b.mem 34 th.bytes).length = b.mem.length := length_splice (by simp; omega)
  rw [length_splice (by simp; omega), hlen]

theorem Built.holds {b : SkBuff} {skb : Skb} (h : Built b skb) : Holds b skb := by
  induction h with
  | text th payload hl opts size => exact Holds.text_new th payload hl opts size
  | syn sk => exact Holds.syn_new sk
  | again built dev sk seq ih =>
    obtain ⟨id, hsent⟩ := tcpTransmitSkb_eq ih sk dev seq
    rw [hsent]
    exact ih.sent (ih.length_sent _ _) (ih.drop_sent _ _) rfl rfl
  | @framed b skb built dev sk seq dstHw hwaddr ih =>
    obtain ⟨id, hsent⟩ := tcpTransmitSkb_eq ih sk dev seq
    have hmlen := ih.length
    rw [hsent]
    refine @Holds.sent _ _ _ ih _ _ (tcpCsum sk skb seq) ?_ ?_ rfl rfl
    · refine (length_splice ?_).trans (ih.length_sent _ _)
      refine Nat.le_trans ?_ (Nat.le_of_eq (ih.length_sent _ _).symm)
      simp [skbPush]
      omega
    · exact (drop_splice_behind (Nat.zero_le _) (by simp)).trans (ih.drop_sent _ _)

/-! ### TCP: the way back -/

/-- What a receiver recovers of a segment. -/
structure Recovered (dev : UInt32) (sk : TcpSock) (skb : Skb) (seq : UInt32) (seg : Seg) : Prop where
  saddr : seg.saddr = dev
  daddr : seg.daddr = sk.daddr
  sport : seg.th.sport = sk.sport
  dport : seg.th.dport = sk.dport
  seq : seg.th.seq = seq
  ackSeq : seg.th.ackSeq = sk.rcvNxt
  win : seg.th.win.toUInt32 = sk.rcvWnd
  fin : seg.th.fin = skb.th.fin
  syn : seg.th.syn = skb.th.syn
  rst : seg.th.rst = skb.th.rst
  psh : seg.th.psh = skb.th.psh
  ack : seg.th.ack = skb.th.ack
  urg : seg.th.urg = skb.th.urg
  ece : seg.th.ece = skb.th.ece
  cwr : seg.th.cwr = skb.th.cwr
  dlen : seg.dlen.toNat = skb.payload.length
  opts : seg.th.opts = skb.th.opts
  payload : seg.payload = skb.payload

/-- The text is found in memory behind the fixed header. -/
theorem Holds.slice_text (h : Holds b skb) : slice b.mem 54 skb.th.opts.length = skb.th.opts ∧
    slice b.mem 54 skb.payload.length = skb.payload := by
  have hopts := h.opts.2
  rw [slice, slice, h.text]
  refine ⟨List.take_left, ?_⟩
  rcases hopts with hnil | hnil
  · rw [hnil, List.nil_append, List.take_length]
  · rw [hnil]
    rfl

/-- `tcp_init_segment` on the headers that `tcp_transmit_skb` and `ip_output` wrote. -/
theorem tcpInitSegment_recovers (h : Holds b skb) {dev seq : UInt32} {id : UInt16} {mem : List UInt8}
    {c csum : UInt16} (hlen : 40 + skb.th.opts.length + skb.payload.length ≤ 65535)
    (hwin : sk.rcvWnd.toNat < 65536)
    (hip : ipHdr mem = hostIp dev sk.daddr 6 id
      (UInt16.ofNat (40 + skb.th.opts.length + skb.payload.length)) c)
    (htcp : tcpHdr mem = wireTcp sk skb.th seq csum)
    (htext : ∀ n, 54 + n ≤ b.mem.length → slice mem 54 n = slice b.mem 54 n) :
    Recovered dev sk skb seq (tcpInitSegment mem) := by
  have hmlen := h.length
  have hhl := h.hlen sk seq
  have hsmall := h.opts.1
  obtain ⟨hopts, hpayload⟩ := h.slice_text
  have hl4 : 4 * (wireTcp sk skb.th seq csum).hl.toNat = 20 + skb.th.opts.length := by
    show 4 * (BitVec.ofNat 4 (fillHeader sk skb.th seq).hl.toNat).toNat = _
    rw [BitVec.toNat_ofNat]
    omega
  have hdlen : (tcpInitSegment mem).dlen.toNat = skb.payload.length := by
    have hlen16 : (UInt16.ofNat (40 + skb.th.opts.length + skb.payload.length)).toUInt32.toNat =
        40 + skb.th.opts.length + skb.payload.length := by
      rw [UInt16.toNat_toUInt32, UInt16.toNat_ofNat']
      omega
    have hsum : (UInt16.ofNat (40 + skb.th.opts.length + skb.payload.length)).toUInt32 =
        UInt32.ofNat skb.payload.length + UInt32.ofNat (20 + skb.th.opts.length) + 20 := by
      rw [← UInt32.toNat_inj, hlen16, ← UInt32.ofNat_add, UInt32.toNat_add, UInt32.toNat_ofNat']
      show _ = (_ + 20) % 2 ^ 32
      omega
    show (UInt16.toUInt32 (ipHdr mem).len - UInt32.ofNat (4 * (ipHdr mem).ihl.toNat) -
      UInt32.ofNat (4 * (tcpHdr mem).hl.toNat)).toNat = _
    rw [hip, htcp, hl4]
    show (UInt16.toUInt32 (UInt16.ofNat _) - 20 - _).toNat = _
    rw [hsum, UInt32.add_sub_cancel, UInt32.add_sub_cancel, UInt32.toNat_ofNat']
    omega
  have hth : (tcpInitSegment mem).th =
      { sport := sk.sport, dport := sk.dport, seq := seq, ackSeq := sk.rcvNxt
        hl := UInt8.ofNat (wireTcp sk skb.th seq csum).hl.toNat, fin := skb.th.fin
        syn := skb.th.syn, rst := skb.th.rst, psh := skb.th.psh, ack := skb.th.ack
        urg := skb.th.urg, ece := skb.th.ece, cwr := skb.th.cwr, win := sk.rcvWnd.toUInt16
        opts := skb.th.opts } := by
    have hslice : slice mem 54 (4 * (wireTcp sk skb.th seq csum).hl.toNat - 20) =
        skb.th.opts := by
      rw [hl4, Nat.add_sub_cancel_left, htext _ (by omega), hopts]
    unfold Packets.tcpInitSegment
    simp only [htcp, hslice]
    simp only [wireTcp, htons_htons, htonl_htonl]
  have hwin16 : sk.rcvWnd.toUInt16.toUInt32 = sk.rcvWnd := by
    rw [← UInt32.toNat_inj, UInt16.toNat_toUInt32, UInt32.toNat_toUInt16]
    omega
  refine ⟨?_, ?_, ?_, ?_, ?_, ?_, ?_, ?_, ?_, ?_, ?_, ?_, ?_, ?_, ?_, hdlen, ?_, ?_⟩
  · show (ipHdr mem).saddr = dev
    rw [hip]
    rfl
  · show (ipHdr mem).daddr = sk.daddr
    rw [hip]
    rfl
  all_goals first | rw [hth] | skip
  · exact hwin16
  · show slice mem 54 (tcpInitSegment mem).dlen.toNat = skb.payload
    rw [hdlen, htext _ (by omega), hpayload]

theorem tcp_round_trip (built : Built b skb) (dev seq : UInt32) (dstHw hwaddr : Vector UInt8 6)
    (rest : List UInt8) (hlen : 40 + skb.th.opts.length + skb.payload.length ≤ 65535)
    (hwin : sk.rcvWnd.toNat < 65536) : ∃ seg,
    netdevReceive sk.daddr
        (frame (netdevTransmit dstHw hwaddr (Packets.tcpTransmitSkb dev sk b seq)) ++ rest) =
      some (.tcp seg) ∧ Recovered dev sk skb seq seg := by
  have h := built.holds
  have hmlen := h.length
  have hhl := h.hlen sk seq
  have hsmall := h.opts.1
  obtain ⟨id, hsent⟩ := tcpTransmitSkb_eq h sk dev seq
  have htcp : (splice b.mem 34 (wireTcp sk skb.th seq (tcpCsum sk skb seq)).bytes).length =
      b.mem.length := length_splice (by simp; omega)
  have hnat : (UInt32.ofNat (40 + skb.th.opts.length + skb.payload.length)).toNat =
      40 + skb.th.opts.length + skb.payload.length := by
    rw [UInt32.toNat_ofNat']
    omega
  have hframe := frame_netdevTransmit (Packets.tcpTransmitSkb dev sk b seq) dstHw hwaddr
    (by rw [hsent]) (by rw [hsent, hnat]; exact (h.length_sent _ _).trans (by omega))
    (by rw [hsent, hnat]; omega)
  obtain ⟨mem', hip, hbehind, hrcv⟩ := netdevReceive_frame
    (splice b.mem 34 (wireTcp sk skb.th seq (tcpCsum sk skb seq)).bytes) (by omega) dstHw
    hwaddr dev sk.daddr 6 id (UInt16.ofNat (40 + skb.th.opts.length + skb.payload.length)) rest
  refine ⟨tcpInitSegment mem', ?_, tcpInitSegment_recovers h hlen hwin hip
    (show _ = wireTcp sk skb.th seq (tcpCsum sk skb seq) from ?_) fun n hn => ?_⟩
  · rw [hframe, hsent]
    exact hrcv
  · rw [tcpHdr, hbehind 34 20 (Nat.le_refl _) (by omega),
      slice_splice_eq (Tcphdr.length_bytes _) (by omega), Tcphdr.read_bytes]
  · rw [hbehind 54 n (by omega) (by omega), slice_splice_behind (by omega) (by simp)]

/-! ### UDP -/

/-- The header that `udp_send` writes. -/
def wireUdp (sk : Endpoints) (n : ℕ) (csum : UInt16) : Udphdr where
  sport := htons sk.sport
  dport := htons sk.dport
  len := htons (UInt16.ofNat (8 + n))
  csum := csum

/-- Its checksum. -/
def udpCsum (sk : Endpoints) (buf : List UInt8) : UInt16 :=
  tcpUdpChecksum (htonl sk.saddr) (htonl sk.daddr) 17 ((wireUdp sk buf.length 0).bytes ++ buf)
    (UInt16.ofNat (8 + buf.length))

/-- The buffer that `udp_send` hands to `ip_output`. -/
def udpSkb (sk : Endpoints) (buf : List UInt8) : SkBuff where
  mem := splice (splice (List.replicate (42 + buf.length) 0) 42 buf) 34
    (wireUdp sk buf.length (udpCsum sk buf)).bytes
  data := 34
  len := UInt32.ofNat (8 + buf.length)
  dlen := UInt32.ofNat buf.length
  protocol := 17

theorem length_udpText (buf : List UInt8) :
    (splice (List.replicate (42 + buf.length) 0) 42 buf).length = 42 + buf.length := by
  rw [length_splice (by simp), List.length_replicate]

theorem length_udpSkb (sk : Endpoints) (buf : List UInt8) :
    (udpSkb sk buf).mem.length = 42 + buf.length :=
  (length_splice (by rw [length_udpText]; simp)).trans (length_udpText buf)

theorem udpSend_eq (dev : UInt32) (sk : Endpoints) (buf : List UInt8) :
    udpSend dev sk buf = ipOutput dev sk.daddr (udpSkb sk buf) := by
  have hzero : (udpHdr (splice (List.replicate (42 + buf.length) 0) 42 buf)).csum = 0 := by
    rw [udpHdr, slice_splice_before (by simp) (by omega), slice, List.drop_replicate,
      List.take_replicate, Nat.min_eq_left (by omega)]
    rfl
  have halloc : udpAllocSkb buf.length =
      { mem := List.replicate (42 + buf.length) 0, data := 42 + buf.length
        dlen := UInt32.ofNat buf.length, protocol := 17 } := by
    simp [udpAllocSkb, skbReserve, allocSkb]
  have hadd : UInt32.ofNat buf.length + UInt32.ofNat 8 = UInt32.ofNat (8 + buf.length) := by
    rw [← UInt32.ofNat_add, Nat.add_comm]
  have hdrop : (splice (splice (List.replicate (42 + buf.length) 0) 42 buf) 34
      (wireUdp sk buf.length 0).bytes).drop 34 = (wireUdp sk buf.length 0).bytes ++ buf := by
    rw [drop_splice _ _ (by rw [length_udpText]; omega), Udphdr.length_bytes,
      drop_splice _ _ (by simp)]
    simp
  have hagain : ∀ hd hd' : Udphdr,
      splice (splice (splice (List.replicate (42 + buf.length) 0) 42 buf) 34 hd.bytes) 34
        hd'.bytes = splice (splice (List.replicate (42 + buf.length) 0) 42 buf) 34 hd'.bytes :=
    fun hd hd' => splice_splice (by rw [length_udpText]; omega) (by simp)
  have hwire : ∀ c, ({ sport := htons sk.sport, dport := htons sk.dport
                       len := htons (UInt16.ofNat (8 + buf.length)), csum := c } : Udphdr) =
      wireUdp sk buf.length c := fun c => rfl
  unfold udpSend putUdpHdr
  simp only [halloc, skbPush, Nat.add_sub_cancel, UInt32.zero_add, hadd, toUInt16_ofNat, hzero, hwire,
    hdrop, hagain]
  rfl

/-- What a receiver recovers of a datagram. -/
structure RecoveredUdp (dev : UInt32) (sk : Endpoints) (buf : List UInt8) (d : Datagram) : Prop where
  saddr : d.saddr = dev
  daddr : d.daddr = sk.daddr
  sport : d.sport = sk.sport
  dport : d.dport = sk.dport
  dlen : d.dlen.toNat = buf.length
  payload : d.payload = buf

/-- `ip_output` on the buffer of `udp_send`. -/
theorem udpSend_out (dev : UInt32) (sk : Endpoints) (buf : List UInt8) : ∃ id,
    udpSend dev sk buf = { udpSkb sk buf with
      mem := splice (udpSkb sk buf).mem 14 (wireIp dev sk.daddr 17 id
        (UInt16.ofNat (28 + buf.length))
        (ipCsum dev sk.daddr 17 id (UInt16.ofNat (28 + buf.length)))).bytes
      data := 14
      len := UInt32.ofNat (28 + buf.length) } := by
  have hmlen := length_udpSkb sk buf
  obtain ⟨id, hid⟩ := ipOutput_eq dev sk.daddr (udpSkb sk buf) (by omega)
  have hadd : (udpSkb sk buf).len + 20 = UInt32.ofNat (28 + buf.length) := by
    rw [udpSkb, show (20 : UInt32) = UInt32.ofNat 20 from rfl, ← UInt32.ofNat_add]
    congr 1
    omega
  have hproto : (udpSkb sk buf).protocol.toUInt8 = 17 := rfl
  have hpush : skbPush (udpSkb sk buf) 20 =
      { udpSkb sk buf with data := 14, len := UInt32.ofNat (28 + buf.length) } := by
    rw [← hadd]
    rfl
  rw [hadd, hproto, toUInt16_ofNat, hpush] at hid
  exact ⟨id, (udpSend_eq dev sk buf).trans hid⟩

/-- `udp_init_segment` on the headers that `udp_send` and `ip_output` wrote. -/
theorem udpInitSegment_recovers {dev : UInt32} {sk : Endpoints} {buf mem : List UInt8}
    {id c csum : UInt16} (hlen : 28 + buf.length ≤ 65535)
    (hip : ipHdr mem = hostIp dev sk.daddr 17 id (UInt16.ofNat (28 + buf.length)) c)
    (hudp : udpHdr mem = wireUdp sk buf.length csum)
    (htext : slice mem 42 buf.length = buf) :
    RecoveredUdp dev sk buf (udpInitSegment mem) := by
  have hd : udpInitSegment mem = { saddr := dev, daddr := sk.daddr, sport := sk.sport, dport := sk.dport
                                   dlen := (UInt16.ofNat (8 + buf.length)).toUInt32 - 8
                                   payload := slice mem 42
                                    ((UInt16.ofNat (8 + buf.length)).toUInt32 - 8).toNat } := by
    unfold udpInitSegment
    simp only [hip, hudp]
    simp only [hostIp, wireUdp, htons_htons]
  have hdlen : ((UInt16.ofNat (8 + buf.length)).toUInt32 - 8).toNat = buf.length := by
    have hsum : (UInt16.ofNat (8 + buf.length)).toUInt32 = UInt32.ofNat buf.length + 8 := by
      rw [← UInt32.toNat_inj, UInt16.toNat_toUInt32, UInt16.toNat_ofNat', UInt32.toNat_add,
        UInt32.toNat_ofNat']
      show _ = (_ + 8) % 2 ^ 32
      omega
    rw [hsum, UInt32.add_sub_cancel, UInt32.toNat_ofNat']
    omega
  rw [hd]
  exact ⟨rfl, rfl, rfl, rfl, hdlen, (congrArg (slice mem 42) hdlen).trans htext⟩

theorem udp_round_trip (dev : UInt32) (sk : Endpoints) (buf : List UInt8)
    (dstHw hwaddr : Vector UInt8 6) (rest : List UInt8) (hlen : 28 + buf.length ≤ 65535) : ∃ d,
    netdevReceive sk.daddr
        (frame (netdevTransmit dstHw hwaddr (udpSend dev sk buf)) ++ rest) = some (.udp d) ∧
      RecoveredUdp dev sk buf d := by
  have hmlen := length_udpSkb sk buf
  have htlen := length_udpText buf
  obtain ⟨id, hsent⟩ := udpSend_out dev sk buf
  have hout : (udpSend dev sk buf).mem.length = 42 + buf.length := by
    rw [hsent]
    exact (length_splice (by simp; omega)).trans hmlen
  have hnat : (udpSend dev sk buf).len.toNat = 28 + buf.length := by
    rw [hsent, UInt32.toNat_ofNat']
    omega
  have hframe := frame_netdevTransmit (udpSend dev sk buf) dstHw hwaddr (by rw [hsent])
    (by omega) (by omega)
  obtain ⟨mem', hip, hbehind, hrcv⟩ := netdevReceive_frame (udpSkb sk buf).mem (by omega)
    dstHw hwaddr dev sk.daddr 17 id (UInt16.ofNat (28 + buf.length)) rest
  refine ⟨udpInitSegment mem', ?_, udpInitSegment_recovers hlen hip
    (show _ = wireUdp sk buf.length (udpCsum sk buf) from ?_) ?_⟩
  · rw [hframe, hsent]
    exact hrcv
  · rw [udpHdr, hbehind 34 8 (Nat.le_refl _) (by omega), udpSkb,
      slice_splice_eq (Udphdr.length_bytes _) (by simp; omega), Udphdr.read_bytes]
  · rw [hbehind 42 buf.length (by omega) (by omega), udpSkb,
      slice_splice_behind (by omega) (by simp), slice_splice_self _ _ (by simp)]

/-- **Parsing undoes building.** -/
theorem packet_round_trip (dev : UInt32) (dstHw hwaddr : Vector UInt8 6) (rest : List UInt8) :
    (∀ (sk : TcpSock) (b : SkBuff) (skb : Skb) (seq : UInt32), Built b skb →
      sk.rcvWnd.toNat < 65536 → 40 + skb.th.opts.length + skb.payload.length ≤ 65535 → ∃ seg,
      netdevReceive sk.daddr
          (frame (netdevTransmit dstHw hwaddr (Packets.tcpTransmitSkb dev sk b seq)) ++ rest) =
        some (.tcp seg) ∧ Recovered dev sk skb seq seg) ∧
    ∀ (sk : Endpoints) (buf : List UInt8), 28 + buf.length ≤ 65535 → ∃ d,
      netdevReceive sk.daddr
          (frame (netdevTransmit dstHw hwaddr (udpSend dev sk buf)) ++ rest) = some (.udp d) ∧
        RecoveredUdp dev sk buf d :=
  ⟨fun _ _ _ seq built hwin hlen => tcp_round_trip built dev seq dstHw hwaddr rest hlen hwin,
    fun sk buf hlen => udp_round_trip dev sk buf dstHw hwaddr rest hlen⟩

theorem packet_round_trip_text :
    (∃ seg, netdevReceive 0x0a000105
        (frame (netdevTransmit #v[1, 2, 3, 4, 5, 6] #v[7, 8, 9, 10, 11, 12]
          (Packets.tcpTransmitSkb 0x0a000104 { daddr := 0x0a000105, sport := 40001, dport := 80, rcvNxt := 7, rcvWnd := 44477 }
          (textSkb { ack := true, psh := true } [104, 105]) 100)) ++ [0, 0]) = some (.tcp seg) ∧
      Recovered 0x0a000104
        { daddr := 0x0a000105, sport := 40001, dport := 80, rcvNxt := 7, rcvWnd := 44477 }
        { Tcp.Output.tcpAllocSkb 2 with th := { ack := true, psh := true }, payload := [104, 105] }
        100 seg) ∧
    ∃ d, netdevReceive 0x0a000105
        (frame (netdevTransmit #v[1, 2, 3, 4, 5, 6] #v[7, 8, 9, 10, 11, 12]
          (udpSend 0x0a000104 ⟨0x0a000104, 0x0a000105, 40002, 53⟩ [1])) ++ [0, 0]) = some (.udp d) ∧
      RecoveredUdp 0x0a000104 ⟨0x0a000104, 0x0a000105, 40002, 53⟩ [1] d :=
  ⟨(packet_round_trip 0x0a000104 #v[1, 2, 3, 4, 5, 6] #v[7, 8, 9, 10, 11, 12] [0, 0]).1
      { daddr := 0x0a000105, sport := 40001, dport := 80, rcvNxt := 7, rcvWnd := 44477 } _ _ 100
      (.text { ack := true, psh := true } [104, 105] rfl rfl (by decide)) (by decide) (by decide),
    (packet_round_trip 0x0a000104 #v[1, 2, 3, 4, 5, 6] #v[7, 8, 9, 10, 11, 12] [0, 0]).2
      ⟨0x0a000104, 0x0a000105, 40002, 53⟩ [1] (by decide)⟩

/-! ### Checksums -/

/-- Where a checksum starts: at zero, or at the sum over a pseudo header. -/
def StartSum (s : UInt32) : Prop :=
  s = 0 ∨ ∃ saddr daddr proto len, s = sumEvery16bits (pseudoHead saddr daddr proto len)

theorem StartSum.lt {s : UInt32} (h : StartSum s) : s.toNat < 2147483648 := by
  rcases h with rfl | ⟨saddr, daddr, proto, len, rfl⟩
  · decide
  · exact (toNat_sum_pseudoHead saddr daddr proto len).2

theorem ipOutput_verifies (dev daddr : UInt32) (skb : SkBuff) (h : 34 ≤ skb.mem.length) :
    checksum (slice (ipOutput dev daddr skb).mem 14 20) 0 = 0 := by
  obtain ⟨id, hid⟩ := ipOutput_eq dev daddr skb h
  rw [hid, slice_splice_eq (Iphdr.length_bytes _) (by omega)]
  exact ipCsum_verifies _ _ _ _ _

/-- What lies behind the IP header stays as it is. -/
theorem ipOutput_behind (dev daddr : UInt32) (skb : SkBuff) (h : 34 ≤ skb.mem.length) (n : ℕ) :
    slice (ipOutput dev daddr skb).mem 34 n = slice skb.mem 34 n := by
  obtain ⟨id, hid⟩ := ipOutput_eq dev daddr skb h
  rw [hid]
  exact slice_splice_behind (by omega) (by simp)

theorem Holds.tcpTransmitSkb_verifies (h : Holds b skb) (sk : TcpSock) (dev seq : UInt32)
    (hlen : 20 + skb.th.opts.length + skb.payload.length ≤ 65535) :
    checksum (slice (Packets.tcpTransmitSkb dev sk b seq).mem 34
        (20 + skb.th.opts.length + skb.payload.length))
      (sumEvery16bits (pseudoHead (htonl sk.saddr) (htonl sk.daddr) 6
        (UInt16.ofNat (20 + skb.th.opts.length + skb.payload.length)))) = 0 := by
  have hnat : (UInt16.ofNat (20 + skb.th.opts.length + skb.payload.length)).toNat =
      20 + skb.th.opts.length + skb.payload.length := by
    rw [UInt16.toNat_ofNat']
    omega
  have hall : ∀ c, ((wireTcp sk skb.th seq c).bytes ++ (skb.th.opts ++ skb.payload)).length =
      20 + skb.th.opts.length + skb.payload.length := fun c => by
    simp only [List.length_append, Tcphdr.length_bytes]
    omega
  obtain ⟨id, hsent⟩ := tcpTransmitSkb_eq h sk dev seq
  have hslice : slice (Packets.tcpTransmitSkb dev sk b seq).mem 34
      (20 + skb.th.opts.length + skb.payload.length) =
      (wireTcp sk skb.th seq (tcpCsum sk skb seq)).bytes ++ (skb.th.opts ++ skb.payload) := by
    rw [hsent, slice, h.drop_sent, h.text]
    exact List.take_of_length_le (Nat.le_of_eq (hall _))
  have hcsum : tcpCsum sk skb seq = checksum
      ((wireTcp sk skb.th seq 0).bytes ++ (skb.th.opts ++ skb.payload))
      (sumEvery16bits (pseudoHead (htonl sk.saddr) (htonl sk.daddr) 6
        (UInt16.ofNat (20 + skb.th.opts.length + skb.payload.length)))) := by
    rw [tcpCsum, tcpUdpChecksum, hnat, List.take_of_length_le (Nat.le_of_eq (hall _))]
  have hverify := checksum_verifies
    ((wireTcp sk skb.th seq 0).bytes ++ (skb.th.opts ++ skb.payload)) 16
    (sumEvery16bits (pseudoHead (htonl sk.saddr) (htonl sk.daddr) 6
      (UInt16.ofNat (20 + skb.th.opts.length + skb.payload.length))))
    (by rw [hall]; omega) rfl (by rw [hall]; omega) (toNat_sum_pseudoHead _ _ _ _).2
  rw [Tcphdr.splice_csum, Tcphdr.splice_csum] at hverify
  rw [hslice, hcsum]
  exact hverify

theorem udpSend_verifies (dev : UInt32) (sk : Endpoints) (buf : List UInt8)
    (hlen : 8 + buf.length ≤ 65535) :
    checksum (slice (udpSend dev sk buf).mem 34 (8 + buf.length))
      (sumEvery16bits (pseudoHead (htonl sk.saddr) (htonl sk.daddr) 17
        (UInt16.ofNat (8 + buf.length)))) = 0 := by
  have htlen := length_udpText buf
  have hnat : (UInt16.ofNat (8 + buf.length)).toNat = 8 + buf.length := by
    rw [UInt16.toNat_ofNat']
    omega
  have hall : ∀ c, ((wireUdp sk buf.length c).bytes ++ buf).length = 8 + buf.length := fun c => by
    rw [List.length_append, Udphdr.length_bytes]
  have hslice : slice (udpSend dev sk buf).mem 34 (8 + buf.length) =
      (wireUdp sk buf.length (udpCsum sk buf)).bytes ++ buf := by
    rw [udpSend_eq, ipOutput_behind _ _ _ (by rw [length_udpSkb]; omega), slice, udpSkb,
      drop_splice _ _ (by omega), Udphdr.length_bytes, drop_splice _ _ (by simp),
      List.drop_of_length_le (by simp), List.append_nil]
    exact List.take_of_length_le (Nat.le_of_eq (hall _))
  have hcsum : udpCsum sk buf = checksum ((wireUdp sk buf.length 0).bytes ++ buf)
      (sumEvery16bits (pseudoHead (htonl sk.saddr) (htonl sk.daddr) 17
        (UInt16.ofNat (8 + buf.length)))) := by
    rw [udpCsum, tcpUdpChecksum, hnat, List.take_of_length_le (Nat.le_of_eq (hall _))]
  have hverify := checksum_verifies ((wireUdp sk buf.length 0).bytes ++ buf) 6
    (sumEvery16bits (pseudoHead (htonl sk.saddr) (htonl sk.daddr) 17
      (UInt16.ofNat (8 + buf.length))))
    (by rw [hall]; omega) rfl (by rw [hall]; omega) (toNat_sum_pseudoHead _ _ _ _).2
  rw [Udphdr.splice_csum, Udphdr.splice_csum] at hverify
  rw [hslice, hcsum]
  exact hverify

/-- The checksum of an ICMP message of `n` bytes in a buffer whose `data` is behind the IP header.
-/
theorem icmpSend_verifies {dev : UInt32} {skb : SkBuff} {n : ℕ} (hdata : skb.data = 34)
    (hn : 4 ≤ n) (hsmall : n ≤ 65535) (hlen : 34 + n ≤ skb.mem.length) :
    checksum (slice (icmpSend dev skb n).mem 34 n) 0 = 0 := by
  have hwithin : ∀ (m : List UInt8) (c : UInt16), m.length = skb.mem.length →
      slice (splice m 36 (le16 c)) 34 n = splice (slice m 34 n) 2 (le16 c) := fun m c hm =>
    slice_splice_within (i := 34) (k := 2) (by rw [length_le16]; omega) (by omega)
  have hslen : (slice skb.mem 34 n).length = n := length_slice hlen
  have hmlen : ∀ c, (splice skb.mem 36 (le16 c)).length = skb.mem.length := fun c =>
    length_splice (by rw [length_le16]; omega)
  have hverify := checksum_verifies (slice skb.mem 34 n) 2 0 (by omega) rfl (by omega) (by decide)
  have hlast : (splice (splice skb.mem 36 (le16 0)) 36
      (le16 (checksum (slice (splice skb.mem 36 (le16 0)) 34 n) 0))).length = skb.mem.length :=
    (length_splice (by rw [length_le16, hmlen]; omega)).trans (hmlen 0)
  unfold icmpSend
  simp only [hdata]
  rw [ipOutput_behind _ _ _ (by show 34 ≤ List.length _; rw [hlast]; omega)]
  show checksum (slice (splice (splice skb.mem 36 (le16 0)) 36 _) 34 n) 0 = 0
  rw [splice_splice (by omega) (by simp), hwithin _ _ rfl, hwithin _ _ rfl]
  exact hverify

theorem icmpLen_lt (mem : List UInt8) : icmpLen mem ≤ 65535 :=
  Nat.le_of_lt_succ (Nat.mod_lt _ (by decide))

theorem mem_skbPush (skb : SkBuff) (n : ℕ) : (skbPush skb n).mem = skb.mem := rfl

theorem mem_skbReserve (skb : SkBuff) (n : ℕ) : (skbReserve skb n).mem = skb.mem := rfl

/-- The answers to an echo request and to a timestamp request start `n` bytes before the end of the
packet, behind its IP header. -/
theorem icmpSend_verifies_pushed {dev : UInt32} {skb : SkBuff} {n : ℕ} {m : List UInt8}
    (hdata : skb.data = 0) (hn : 4 ≤ n) (hsmall : n ≤ 65535) (hlen : 34 + n ≤ m.length) :
    checksum (slice (icmpSend dev { skbPush (skbReserve skb (34 + n)) n with mem := m } n).mem
      34 n) 0 = 0 := by
  have hat : skb.data + (34 + n) - n = 34 := by omega
  exact icmpSend_verifies hat hn hsmall hlen

theorem icmpv4Reply_verifies (dev : UInt32) {skb : SkBuff} (hdata : skb.data = 0)
    (hn : 4 ≤ icmpLen skb.mem) (hlen : 34 + icmpLen skb.mem ≤ skb.mem.length) :
    checksum (slice (icmpv4Reply dev skb).mem 34 (icmpLen skb.mem)) 0 = 0 := by
  refine icmpSend_verifies_pushed hdata hn (icmpLen_lt skb.mem) ?_
  have hat : (skbPush (skbReserve skb (34 + icmpLen skb.mem)) (icmpLen skb.mem)).data = 34 := by
    simp only [skbPush, skbReserve]
    omega
  rw [hat, mem_skbPush, mem_skbReserve, length_splice (by simp; omega)]
  exact hlen

theorem icmpv4Timestamp_verifies (dev tsRecv : UInt32) {skb : SkBuff} (hdata : skb.data = 0)
    (hn : 4 ≤ icmpLen skb.mem) (hlen : 34 + icmpLen skb.mem ≤ skb.mem.length)
    (hroom : 50 ≤ skb.mem.length) :
    checksum (slice (icmpv4Timestamp dev tsRecv skb).mem 34 (icmpLen skb.mem)) 0 = 0 := by
  have htype : (splice skb.mem 34 [14]).length = skb.mem.length :=
    length_splice (by simp; omega)
  have httime : (splice (splice skb.mem 34 [14]) 46 (le32 (htonl tsRecv))).length = _ :=
    length_splice (by rw [length_le32]; omega)
  have hrtime : (splice (splice (splice skb.mem 34 [14]) 46 (le32 (htonl tsRecv))) 42
      (le32 (htonl tsRecv))).length = _ := length_splice (by rw [length_le32]; omega)
  have hat : (skbPush (skbReserve skb (34 + icmpLen skb.mem)) (icmpLen skb.mem)).data = 34 := by
    simp only [skbPush, skbReserve]
    omega
  refine icmpSend_verifies_pushed hdata hn (icmpLen_lt skb.mem) ?_
  rw [hat, mem_skbPush, mem_skbReserve]
  exact hlen.trans (Nat.le_of_eq (hrtime.trans (httime.trans htype)).symm)

/-- **Every checksum that is written verifies.** -/
theorem checksums_verify :
    (∀ (buf : List UInt8) (k : ℕ) (s : UInt32), buf.length ≤ 65535 → k % 2 = 0 →
      k + 2 ≤ buf.length → StartSum s →
      checksum (splice buf k (le16 (checksum (splice buf k (le16 0)) s))) s = 0) ∧
    (∀ (dev daddr : UInt32) (skb : SkBuff), 34 ≤ skb.mem.length →
      checksum (slice (ipOutput dev daddr skb).mem 14 20) 0 = 0) ∧
    (∀ (dev seq : UInt32) (sk : TcpSock) (b : SkBuff) (skb : Skb), Built b skb →
      20 + skb.th.opts.length + skb.payload.length ≤ 65535 →
      checksum (slice (Packets.tcpTransmitSkb dev sk b seq).mem 34
          (20 + skb.th.opts.length + skb.payload.length))
        (sumEvery16bits (pseudoHead (htonl sk.saddr) (htonl sk.daddr) 6
          (UInt16.ofNat (20 + skb.th.opts.length + skb.payload.length)))) = 0) ∧
    (∀ (dev : UInt32) (sk : Endpoints) (buf : List UInt8), 8 + buf.length ≤ 65535 →
      checksum (slice (udpSend dev sk buf).mem 34 (8 + buf.length))
        (sumEvery16bits (pseudoHead (htonl sk.saddr) (htonl sk.daddr) 17
          (UInt16.ofNat (8 + buf.length)))) = 0) ∧
    ∀ (dev tsRecv : UInt32) (skb : SkBuff), skb.data = 0 → 4 ≤ icmpLen skb.mem →
      34 + icmpLen skb.mem ≤ skb.mem.length →
      checksum (slice (icmpv4Reply dev skb).mem 34 (icmpLen skb.mem)) 0 = 0 ∧
      (50 ≤ skb.mem.length →
        checksum (slice (icmpv4Timestamp dev tsRecv skb).mem 34 (icmpLen skb.mem)) 0 = 0) := by
  refine ⟨fun buf k s hlen hk hle hs => checksum_verifies buf k s hlen hk hle hs.lt,
    fun dev daddr skb h => ipOutput_verifies dev daddr skb h,
    fun dev seq sk b skb built hlen => built.holds.tcpTransmitSkb_verifies sk dev seq hlen,
    fun dev sk buf hlen => udpSend_verifies dev sk buf hlen, fun dev tsRecv skb hdata hn hlen => ?_⟩
  exact ⟨icmpv4Reply_verifies dev hdata hn hlen,
    fun hroom => icmpv4Timestamp_verifies dev tsRecv hdata hn hlen hroom⟩

theorem checksums_verify_echo :
    checksum (splice [0, 0, 0] 0 (le16 (checksum (splice [0, 0, 0] 0 (le16 0)) 0))) 0 = 0 ∧
    checksum (slice (ipOutput 0x0a000104 0x0a000105 { mem := List.replicate 34 0, data := 34 }).mem
      14 20) 0 = 0 ∧
    checksum (slice (icmpv4Reply 0x0a000104
      { mem := putIpHdr (List.replicate 50 0) (hostIp 0x0a000105 0x0a000104 1 0 29 0) }).mem 34
      (icmpLen (putIpHdr (List.replicate 50 0) (hostIp 0x0a000105 0x0a000104 1 0 29 0)))) 0 = 0 :=
  ⟨checksums_verify.1 [0, 0, 0] 0 0 (by decide) rfl (by decide) (.inl rfl),
    checksums_verify.2.1 0x0a000104 0x0a000105 { mem := List.replicate 34 0, data := 34 } (by decide),
    (checksums_verify.2.2.2.2 0x0a000104 0
      { mem := putIpHdr (List.replicate 50 0) (hostIp 0x0a000105 0x0a000104 1 0 29 0) } rfl
      (by decide) (by decide)).1⟩

end ToyIP.Net.RoundTrip
