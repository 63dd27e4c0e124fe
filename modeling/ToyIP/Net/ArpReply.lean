import ToyIP.Net.Arp

/-! # Network: the reply to an ARP request

What is transmitted for a received frame, byte for byte. `arp_rcv` converts the fields of the frame
in its buffer to host byte order; `arp_reply` swaps the addresses there, converts the fields back
and sends the buffer. -/

namespace ToyIP.Net.ArpReply

open ToyIP.Lib.Bytes ToyIP.Net.Checksum ToyIP.Net.Headers ToyIP.Net.Packets ToyIP.Net.Arp

/-- The frame asks for the address of this host, in its bytes: Ethernet, IPv4, the target address,
and a request. -/
def Asks (dev : Netdev) (req : List UInt8) : Prop :=
  slice req 14 2 = be 2 1 ∧ slice req 16 2 = be 2 0x0800 ∧
    slice req 38 4 = be 4 dev.addr.toNat ∧ slice req 20 2 = be 2 1

instance (dev : Netdev) (req : List UInt8) : Decidable (Asks dev req) :=
  inferInstanceAs (Decidable (_ ∧ _ ∧ _ ∧ _))

/-- The reply to the request: to its sender from this host, with its hardware type, protocol type
and sizes, and its sender's addresses as the target. -/
def answer (dev : Netdev) (req : List UInt8) : List UInt8 :=
  slice req 22 6 ++ (dev.hwaddr.toList ++ be 2 0x0806) ++
    (slice req 14 6 ++ be 2 2 ++
      (dev.hwaddr.toList ++ (be 4 dev.addr.toNat ++ (slice req 22 6 ++ slice req 28 4))))

/-! ### Headers and bytes -/

theorem toList_mac {bs : List UInt8} (h : bs.length = 6) : (mac bs).toList = bs := by
  match bs, h with
  | [_, _, _, _, _, _], _ => rfl

theorem mac_toList (v : Vector UInt8 6) : mac v.toList = v :=
  Vector.toList_inj.mp (toList_mac (by simp))

theorem ArpHdr.length_bytes (h : ArpHdr) : h.bytes.length = 8 := rfl

theorem ArpIpv4.length_bytes (d : ArpIpv4) : d.bytes.length = 20 := by simp [ArpIpv4.bytes]

theorem ArpHdr.read_bytes (h : ArpHdr) : ArpHdr.read h.bytes = h := by
  have hread : ArpHdr.read h.bytes =
      { hwtype := of16 (le16 h.hwtype), protype := of16 (le16 h.protype), hwsize := h.hwsize
        prosize := h.prosize, opcode := of16 (le16 h.opcode) } := rfl
  rw [hread, of16_le16, of16_le16, of16_le16]

theorem ArpHdr.bytes_read {bs : List UInt8} (h : bs.length = 8) : (ArpHdr.read bs).bytes = bs := by
  match bs, h with
  | [a, b, c, d, e, f, g, i], _ =>
    show le16 (of16 [a, b]) ++ (le16 (of16 [c, d]) ++ (e :: f :: le16 (of16 [g, i]))) = _
    rw [le16_of16 rfl, le16_of16 rfl, le16_of16 rfl]
    rfl

theorem ArpIpv4.read_bytes (d : ArpIpv4) : ArpIpv4.read d.bytes = d := by
  have hs : d.smac.toList.length = 6 := by simp
  have hd : d.dmac.toList.length = 6 := by simp
  have hsip := length_le32 d.sip
  have hsmac : slice d.bytes 0 6 = d.smac.toList := slice_prefix hs
  have hsip' : slice d.bytes 6 4 = le32 d.sip := by
    rw [ArpIpv4.bytes, slice_of_append (by omega), hs]
    exact slice_prefix hsip
  have hdmac : slice d.bytes 10 6 = d.dmac.toList := by
    rw [ArpIpv4.bytes, slice_of_append (by omega), slice_of_append (by omega), hs, hsip]
    exact slice_prefix hd
  have hdip : slice d.bytes 16 4 = le32 d.dip := by
    rw [ArpIpv4.bytes, slice_of_append (by omega), slice_of_append (by omega),
      slice_of_append (by omega), hs, hsip, hd]
    exact slice_all (le32 d.dip)
  rw [ArpIpv4.read, hsmac, hsip', hdmac, hdip, mac_toList, mac_toList, of32_le32, of32_le32]

section Written

variable {mem : List UInt8} (h : 42 ≤ mem.length)
include h

theorem arpHdr_putArpHdr (hdr : ArpHdr) : arpHdr (putArpHdr mem hdr) = hdr := by
  rw [arpHdr, putArpHdr, slice_splice_eq (ArpHdr.length_bytes hdr) (by omega), ArpHdr.read_bytes]

theorem arpHdr_putArpData (data : ArpIpv4) : arpHdr (putArpData mem data) = arpHdr mem := by
  rw [arpHdr, putArpData, slice_splice_before (by omega) (by omega), arpHdr]

theorem arpData_putArpData (data : ArpIpv4) : arpData (putArpData mem data) = data := by
  rw [arpData, putArpData, slice_splice_eq (ArpIpv4.length_bytes data) (by omega),
    ArpIpv4.read_bytes]

theorem length_putArpHdr (hdr : ArpHdr) : (putArpHdr mem hdr).length = mem.length :=
  length_splice (by rw [ArpHdr.length_bytes]; omega)

theorem length_putArpData (data : ArpIpv4) : (putArpData mem data).length = mem.length :=
  length_splice (by rw [ArpIpv4.length_bytes]; omega)

/-! ### The reply -/

/-- The frame that `arp_reply` sends: the three headers one behind the other. -/
theorem frame_arpReply (dev : Netdev) : frame (arpReply dev { mem := mem }) =
    EthHdr.bytes ⟨(arpData mem).smac, dev.hwaddr, htons 0x0806⟩ ++
      (ArpHdr.bytes { arpHdr mem with
          opcode := htons arpReplyOp, hwtype := htons (arpHdr mem).hwtype
          protype := htons (arpHdr mem).protype } ++
        ArpIpv4.bytes ⟨dev.hwaddr, htonl dev.addr, (arpData mem).smac, htonl (arpData mem).sip⟩) := by
  set eth : EthHdr := ⟨(arpData mem).smac, dev.hwaddr, htons 0x0806⟩ with heth
  set hdr : ArpHdr := { arpHdr mem with
    opcode := htons arpReplyOp, hwtype := htons (arpHdr mem).hwtype
    protype := htons (arpHdr mem).protype } with hhdr
  set data : ArpIpv4 :=
    ⟨dev.hwaddr, htonl dev.addr, (arpData mem).smac, htonl (arpData mem).sip⟩ with hdata
  have hlen := length_putArpHdr h hdr
  have hlen' := length_putArpData (hlen ▸ h) data
  have hframe : frame (arpReply dev { mem := mem }) =
      slice (splice (putArpData (putArpHdr mem hdr) data) 0 eth.bytes) 0 (14 + (8 + 20)) := rfl
  rw [hframe, slice_add, slice_add, slice_splice_eq eth.length_bytes (by omega),
    slice_splice_behind (by omega) (by simp), slice_splice_behind (by omega) (by simp)]
  congr 2
  · rw [putArpData, slice_splice_before (by omega) (by omega)]
    exact slice_splice_eq (ArpHdr.length_bytes hdr) (by omega)
  · exact slice_splice_eq (ArpIpv4.length_bytes data) (by omega)

end Written

/-! ### The request -/

section Request

variable {mem : List UInt8} (h : 42 ≤ mem.length)
include h

/-- The tests of `arp_rcv` are tests of the bytes. -/
theorem asks_iff (dev : Netdev) : Asks dev mem ↔
    (hostHdr mem).hwtype = arpEthernet ∧ (hostHdr mem).protype = arpIpv4 ∧
      (sender mem).dip = dev.addr ∧ (hostHdr mem).opcode = arpRequestOp := by
  have hword : ∀ i n, i + n ≤ mem.length → (slice mem i n).length = n := fun i n => length_slice
  have hhwtype : (hostHdr mem).hwtype = htons (of16 (slice mem 14 2)) :=
    congrArg (fun bs => htons (of16 bs)) (slice_slice (by omega))
  have hprotype : (hostHdr mem).protype = htons (of16 (slice mem 16 2)) :=
    congrArg (fun bs => htons (of16 bs)) (slice_slice (by omega))
  have hopcode : (hostHdr mem).opcode = htons (of16 (slice mem 20 2)) :=
    congrArg (fun bs => htons (of16 bs)) (slice_slice (by omega))
  have hdip : (sender mem).dip = htonl (of32 (slice mem 38 4)) :=
    congrArg (fun bs => htonl (of32 bs)) (slice_slice (by omega))
  rw [hhwtype, hprotype, hopcode, hdip, htons_of16_eq_iff (hword 14 2 (by omega)),
    htons_of16_eq_iff (hword 16 2 (by omega)), htons_of16_eq_iff (hword 20 2 (by omega)),
    htonl_of32_eq_iff (hword 38 4 (by omega))]
  exact Iff.rfl

/-- The first fields of the header in their bytes. -/
theorem slice_types : slice mem 14 6 =
    le16 (arpHdr mem).hwtype ++ (le16 (arpHdr mem).protype ++
      [(arpHdr mem).hwsize, (arpHdr mem).prosize]) := by
  have hinner : slice (slice mem 14 8) 0 6 = slice mem 14 6 := slice_slice (by omega)
  have hbytes : (arpHdr mem).bytes = slice mem 14 8 :=
    ArpHdr.bytes_read (length_slice (by omega))
  rw [← hinner, ← hbytes]
  rfl

/-- The sender's addresses in their bytes. -/
theorem slice_sender : slice mem 22 6 = (arpData mem).smac.toList ∧
    slice mem 28 4 = le32 (arpData mem).sip := by
  have hmac : slice (slice mem 22 20) 0 6 = slice mem 22 6 := slice_slice (by omega)
  have hip : slice (slice mem 22 20) 6 4 = slice mem 28 4 := slice_slice (by omega)
  have hmac' : (arpData mem).smac.toList = slice (slice mem 22 20) 0 6 :=
    toList_mac (by rw [hmac]; exact length_slice (by omega))
  have hip' : le32 (arpData mem).sip = slice (slice mem 22 20) 6 4 :=
    le32_of32 (by rw [hip]; exact length_slice (by omega))
  exact ⟨hmac.symm.trans hmac'.symm, hip.symm.trans hip'.symm⟩

end Request

/-- `arp_rcv` replies to the requests for this host, from the buffer with the fields in host byte
order. -/
theorem reply_arpRcv (dev : Netdev) (cache : List ArpCacheEntry) (buf : RxBuf) :
    (arpRcv dev cache buf.mem).reply = if Asks dev buf.mem then
      some (frame (arpReply dev
        { mem := putArpData (putArpHdr buf.mem (hostHdr buf.mem)) (sender buf.mem) }))
    else none := by
  have hbuf : buflen = 1600 := rfl
  have hlen : 42 ≤ buf.mem.length := by
    rw [buf.length_mem]
    omega
  have hasks := asks_iff hlen dev
  rw [arpRcv_eq]
  by_cases ht : Translates buf.mem
  · rw [if_pos ht]
    by_cases hhost : (sender buf.mem).dip = dev.addr
    · simp only [if_pos hhost]
      by_cases hreq : (hostHdr buf.mem).opcode = arpRequestOp
      · rw [if_pos hreq, if_pos (hasks.mpr ⟨ht.1, ht.2, hhost, hreq⟩)]
      · rw [if_neg hreq, if_neg fun h => hreq (hasks.mp h).2.2.2]
    · simp only [if_neg hhost]
      rw [if_neg fun h => hhost (hasks.mp h).2.2.1]
  · rw [if_neg ht, if_neg fun h => ht ⟨(hasks.mp h).1, (hasks.mp h).2.1⟩]

/-- **ARP requests are answered exactly.** In every state of the cache and for every frame, the
reply is transmitted once if the frame asks for this host, and nothing is transmitted otherwise. -/
theorem requests_answered (dev : Netdev) (s : State) (buf : RxBuf) :
    (step dev s (.rcv buf)).sent =
      s.sent ++ if Asks dev buf.mem then [answer dev buf.mem] else [] := by
  have hbuf : buflen = 1600 := rfl
  have hlen : 42 ≤ buf.mem.length := by
    rw [buf.length_mem]
    omega
  have hsent : (step dev s (.rcv buf)).sent = s.sent ++ (arpRcv dev s.cache buf.mem).reply.toList :=
    rfl
  rw [hsent, reply_arpRcv]
  split_ifs with hasks
  · have hlen' : 42 ≤ (putArpHdr buf.mem (hostHdr buf.mem)).length := by
      rw [length_putArpHdr hlen]
      exact hlen
    have hlen'' : 42 ≤ (putArpData (putArpHdr buf.mem (hostHdr buf.mem)) (sender buf.mem)).length := by
      rw [length_putArpData hlen']
      exact hlen'
    obtain ⟨hmac, hip⟩ := slice_sender hlen
    rw [Option.toList_some, frame_arpReply hlen'', arpHdr_putArpData hlen', arpHdr_putArpHdr hlen,
      arpData_putArpData hlen', answer, slice_types hlen, hmac, hip]
    simp only [EthHdr.bytes, ArpHdr.bytes, ArpIpv4.bytes, hostHdr, sender, htons_htons, htonl_htonl,
      le16_htons, le32_htonl]
    rfl
  · rfl

end ToyIP.Net.ArpReply
