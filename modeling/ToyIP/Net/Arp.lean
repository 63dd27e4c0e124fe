import ToyIP.Net.Packets

/-! # Network: ARP

`arp_rcv` on the memory a frame was read into, with the in-place rewriting of `arp_reply`,
`arp_request`, and the list `arp_cache` with the walks of `update_arp_translation_table`,
`insert_arp_translation_table` and `arp_get_hwaddr`.

The cache is a map: it has at most one entry for an address, and that entry is what the last
accepted frame from the address said (`arp_cache_map`). -/

namespace ToyIP.Net.Arp

open ToyIP.Lib.Bytes ToyIP.Net.Checksum ToyIP.Net.Headers ToyIP.Net.Packets

/-! ### Frames -/

/-- `BUFLEN`. -/
def buflen : ℕ := 1600

/-- The memory of a buffer that `netdev_rx_loop` has read a frame into. Behind the frame it is zero.
-/
structure RxBuf where
  mem : List UInt8
  length_mem : mem.length = buflen
  deriving DecidableEq

/-- `struct arp_hdr`. -/
structure ArpHdr where
  hwtype : UInt16
  protype : UInt16
  hwsize : UInt8
  prosize : UInt8
  opcode : UInt16
  deriving DecidableEq, Repr

/-- `struct arp_ipv4`. -/
structure ArpIpv4 where
  smac : Vector UInt8 6
  sip : UInt32
  dmac : Vector UInt8 6
  dip : UInt32
  deriving DecidableEq

def mac (bs : List UInt8) : Vector UInt8 6 :=
  #v[bs.getD 0 0, bs.getD 1 0, bs.getD 2 0, bs.getD 3 0, bs.getD 4 0, bs.getD 5 0]

def ArpHdr.bytes (h : ArpHdr) : List UInt8 :=
  le16 h.hwtype ++ (le16 h.protype ++ (h.hwsize :: h.prosize :: le16 h.opcode))

def ArpIpv4.bytes (d : ArpIpv4) : List UInt8 :=
  d.smac.toList ++ (le32 d.sip ++ (d.dmac.toList ++ le32 d.dip))

def ArpHdr.read (bs : List UInt8) : ArpHdr where
  hwtype := of16 (slice bs 0 2)
  protype := of16 (slice bs 2 2)
  hwsize := bs.getD 4 0
  prosize := bs.getD 5 0
  opcode := of16 (slice bs 6 2)

def ArpIpv4.read (bs : List UInt8) : ArpIpv4 where
  smac := mac (slice bs 0 6)
  sip := of32 (slice bs 6 4)
  dmac := mac (slice bs 10 6)
  dip := of32 (slice bs 16 4)

/-- `arp_hdr`: the header behind the Ethernet header. -/
def arpHdr (mem : List UInt8) : ArpHdr := ArpHdr.read (slice mem 14 8)

def putArpHdr (mem : List UInt8) (h : ArpHdr) : List UInt8 := splice mem 14 h.bytes

/-- The data behind the ARP header. -/
def arpData (mem : List UInt8) : ArpIpv4 := ArpIpv4.read (slice mem 22 20)

def putArpData (mem : List UInt8) (d : ArpIpv4) : List UInt8 := splice mem 22 d.bytes

def arpEthernet : UInt16 := 1
def arpIpv4 : UInt16 := 0x0800
def arpRequestOp : UInt16 := 1
def arpReplyOp : UInt16 := 2

/-- The device of the stack: `addr` and `hwaddr` of `struct netdev`. -/
structure Netdev where
  addr : UInt32
  hwaddr : Vector UInt8 6
  deriving DecidableEq

/-- `netdev_transmit`, with its `ethertype`. -/
def netdevTransmitAs (ethertype : UInt16) (dstHw hwaddr : Vector UInt8 6) (skb : SkBuff) : SkBuff :=
  let skb := skbPush skb 14
  { skb with mem := splice skb.mem skb.data (EthHdr.bytes ⟨dstHw, hwaddr, htons ethertype⟩) }

theorem netdevTransmitAs_ip (dstHw hwaddr : Vector UInt8 6) (skb : SkBuff) :
    netdevTransmitAs 0x0800 dstHw hwaddr skb = netdevTransmit dstHw hwaddr skb := rfl

/-! ### The cache -/

/-- `ARP_RESOLVED`, the only state an entry is given. -/
def arpResolved : ℕ := 2

/-- `struct arp_cache_entry`. -/
structure ArpCacheEntry where
  hwtype : UInt16
  sip : UInt32
  smac : Vector UInt8 6
  state : ℕ
  deriving DecidableEq

/-- `arp_entry_alloc`. -/
def arpEntryAlloc (hdr : ArpHdr) (data : ArpIpv4) : ArpCacheEntry :=
  ⟨hdr.hwtype, data.sip, data.smac, arpResolved⟩

def insertArpTranslationTable (hdr : ArpHdr) (data : ArpIpv4) (cache : List ArpCacheEntry) :
    List ArpCacheEntry :=
  cache ++ [arpEntryAlloc hdr data]

/-- Whether there was an entry, and the cache. -/
def updateArpTranslationTable (hdr : ArpHdr) (data : ArpIpv4) :
    List ArpCacheEntry → Bool × List ArpCacheEntry
  | [] => (false, [])
  | entry :: rest =>
    if entry.hwtype = hdr.hwtype ∧ entry.sip = data.sip then
      (true, { entry with smac := data.smac } :: rest)
    else
      let r := updateArpTranslationTable hdr data rest
      (r.1, entry :: r.2)

def arpGetHwaddr (cache : List ArpCacheEntry) (sip : UInt32) : Option (Vector UInt8 6) :=
  (cache.find? fun entry => entry.state = arpResolved ∧ entry.sip = sip).map ArpCacheEntry.smac

/-! ### The code -/

/-- `arp_reply`: the request is answered in its own buffer. -/
def arpReply (dev : Netdev) (skb : SkBuff) : SkBuff :=
  let hdr := arpHdr skb.mem
  let skb := skbPush (skbReserve skb 42) 28
  let data := arpData skb.mem
  let data := { data with dmac := data.smac, dip := data.sip, smac := dev.hwaddr, sip := dev.addr }
  let hdr := { hdr with
    opcode := htons arpReplyOp, hwtype := htons hdr.hwtype, protype := htons hdr.protype }
  let data := { data with sip := htonl data.sip, dip := htonl data.dip }
  netdevTransmitAs 0x0806 data.dmac dev.hwaddr
    { skb with mem := putArpData (putArpHdr skb.mem hdr) data }

/-- `broadcast_hw`. -/
def broadcastHw : Vector UInt8 6 := #v[0xff, 0xff, 0xff, 0xff, 0xff, 0xff]

/-- `arp_request`. -/
def arpRequest (dev : Netdev) (sip dip : UInt32) : SkBuff :=
  let skb := skbReserve (allocSkb 42) 42
  let skb := skbPush skb 20
  let data : ArpIpv4 := ⟨dev.hwaddr, sip, broadcastHw, dip⟩
  let skb := skbPush skb 8
  let hdr : ArpHdr := ⟨htons arpEthernet, htons arpIpv4, 6, 4, htons arpRequestOp⟩
  let data := { data with sip := htonl data.sip, dip := htonl data.dip }
  netdevTransmitAs 0x0806 broadcastHw dev.hwaddr
    { skb with mem := putArpData (putArpHdr skb.mem hdr) data }

/-- What `arp_rcv` leaves: the cache, the frame that `arp_reply` sends, and how often it releases
the buffer. -/
structure ArpRcv where
  cache : List ArpCacheEntry
  reply : Option (List UInt8) := none
  frees : ℕ
  deriving DecidableEq

/-- `arp_rcv`. A reply ends it without `free_skb`. -/
def arpRcv (dev : Netdev) (cache : List ArpCacheEntry) (mem : List UInt8) : ArpRcv :=
  let hdr := arpHdr mem
  let hdr := { hdr with
    hwtype := htons hdr.hwtype, protype := htons hdr.protype, opcode := htons hdr.opcode }
  let mem := putArpHdr mem hdr
  if hdr.hwtype ≠ arpEthernet then { cache := cache, frees := 1 }
  else if hdr.protype ≠ arpIpv4 then { cache := cache, frees := 1 }
  else
    let data := arpData mem
    let data := { data with sip := htonl data.sip, dip := htonl data.dip }
    let mem := putArpData mem data
    let merge := updateArpTranslationTable hdr data cache
    -- `netdev_get`
    if data.dip ≠ dev.addr then { cache := merge.2, frees := 1 }
    else
      let cache := if merge.1 then merge.2 else insertArpTranslationTable hdr data merge.2
      if hdr.opcode = arpRequestOp then
        { cache := cache, reply := some (frame (arpReply dev { mem := mem })), frees := 1 }
      else if hdr.opcode = arpReplyOp then { cache := cache, frees := 0 }
      else { cache := cache, frees := 1 }

/-- The cache and what was sent. -/
structure State where
  cache : List ArpCacheEntry := []
  sent : List (List UInt8) := []
  deriving DecidableEq

inductive Event
  | rcv (buf : RxBuf)
  | request (sip dip : UInt32)

def step (dev : Netdev) (s : State) : Event → State
  | .rcv buf =>
    let r := arpRcv dev s.cache buf.mem
    { cache := r.cache, sent := s.sent ++ r.reply.toList }
  | .request sip dip => { s with sent := s.sent ++ [frame (arpRequest dev sip dip)] }

/-- The state after a sequence of events. -/
def after (dev : Netdev) (es : List Event) : State := es.foldl (step dev) {}

/-! ### The map -/

/-- What the data of a frame say, in host byte order. -/
def sender (mem : List UInt8) : ArpIpv4 :=
  { arpData mem with sip := htonl (arpData mem).sip, dip := htonl (arpData mem).dip }

/-- The frame translates IPv4 addresses to Ethernet addresses. -/
def Translates (mem : List UInt8) : Prop :=
  htons (arpHdr mem).hwtype = arpEthernet ∧ htons (arpHdr mem).protype = arpIpv4

instance (mem : List UInt8) : Decidable (Translates mem) := inferInstanceAs (Decidable (_ ∧ _))

/-- The frame is accepted for the address `ip`: it comes from there, and there is an entry already
or the frame is for this host. -/
def Accepted (dev : Netdev) (cache : List ArpCacheEntry) (ip : UInt32) (mem : List UInt8) : Prop :=
  Translates mem ∧ (sender mem).sip = ip ∧
    ((arpGetHwaddr cache ip).isSome ∨ (sender mem).dip = dev.addr)

instance (dev : Netdev) (cache : List ArpCacheEntry) (ip : UInt32) (mem : List UInt8) :
    Decidable (Accepted dev cache ip mem) :=
  inferInstanceAs (Decidable (_ ∧ _ ∧ (_ ∨ _)))

/-- `buf` is the last frame of the sequence that is accepted for `ip`. -/
def LastAccepted (dev : Netdev) (es : List Event) (ip : UInt32) (buf : RxBuf) : Prop :=
  ∃ fs gs, es = fs ++ .rcv buf :: gs ∧ Accepted dev (after dev fs).cache ip buf.mem ∧
    ∀ hs buf' ks, gs = hs ++ .rcv buf' :: ks →
      ¬ Accepted dev (after dev (fs ++ .rcv buf :: hs)).cache ip buf'.mem

/-- No frame of the sequence is accepted for `ip`. -/
def NoneAccepted (dev : Netdev) (es : List Event) (ip : UInt32) : Prop :=
  ∀ fs buf gs, es = fs ++ .rcv buf :: gs → ¬ Accepted dev (after dev fs).cache ip buf.mem

/-- Every address has at most one entry, and every entry is for Ethernet and resolved. -/
structure Wf (cache : List ArpCacheEntry) : Prop where
  nodup : (cache.map ArpCacheEntry.sip).Nodup
  entry : ∀ e ∈ cache, e.hwtype = arpEthernet ∧ e.state = arpResolved

/-! ### Walks over the cache -/

theorem arpGetHwaddr_cons {e : ArpCacheEntry} {cache : List ArpCacheEntry} (h : e.state = arpResolved)
    (ip : UInt32) :
    arpGetHwaddr (e :: cache) ip = if e.sip = ip then some e.smac else arpGetHwaddr cache ip := by
  unfold arpGetHwaddr
  rw [List.find?_cons]
  by_cases hip : e.sip = ip <;> simp [h, hip]

theorem Wf.tail {e : ArpCacheEntry} {cache : List ArpCacheEntry} (h : Wf (e :: cache)) : Wf cache :=
  ⟨(List.nodup_cons.mp h.nodup).2, fun x hx => h.entry x (List.mem_cons_of_mem _ hx)⟩

theorem Wf.head {e : ArpCacheEntry} {cache : List ArpCacheEntry} (h : Wf (e :: cache)) :
    e.sip ∉ cache.map ArpCacheEntry.sip ∧ e.hwtype = arpEthernet ∧ e.state = arpResolved :=
  ⟨(List.nodup_cons.mp h.nodup).1, h.entry e (List.mem_cons_self ..)⟩

section Update

variable {hdr : ArpHdr} (data : ArpIpv4)

theorem map_sip_update (hdr : ArpHdr) (cache : List ArpCacheEntry) :
    (updateArpTranslationTable hdr data cache).2.map ArpCacheEntry.sip =
      cache.map ArpCacheEntry.sip := by
  induction cache with
  | nil => rfl
  | cons e cache ih =>
    rw [updateArpTranslationTable]
    split_ifs
    · rfl
    · rw [List.map_cons, ih, List.map_cons]

theorem wf_update {cache : List ArpCacheEntry} (h : Wf cache) :
    Wf (updateArpTranslationTable hdr data cache).2 := by
  refine ⟨by rw [map_sip_update]; exact h.nodup, ?_⟩
  induction cache with
  | nil => exact h.entry
  | cons e cache ih =>
    intro x hx
    rw [updateArpTranslationTable] at hx
    split_ifs at hx with hsame
    · rcases List.mem_cons.mp hx with rfl | hx
      · exact h.entry e (List.mem_cons_self ..)
      · exact h.tail.entry x hx
    · rcases List.mem_cons.mp hx with rfl | hx
      · exact h.entry x (List.mem_cons_self ..)
      · exact ih h.tail x hx

/-- The walk finds the entry of the sender if there is one, and changes what it says. -/
theorem get_update (hhw : hdr.hwtype = arpEthernet) {cache : List ArpCacheEntry} (h : Wf cache)
    (ip : UInt32) :
    (updateArpTranslationTable hdr data cache).1 = (arpGetHwaddr cache data.sip).isSome ∧
      arpGetHwaddr (updateArpTranslationTable hdr data cache).2 ip =
        if data.sip = ip ∧ (arpGetHwaddr cache ip).isSome then some data.smac
        else arpGetHwaddr cache ip := by
  induction cache with
  | nil => simp [updateArpTranslationTable, arpGetHwaddr]
  | cons e cache ih =>
    obtain ⟨hnot, hwtype, hstate⟩ := h.head
    obtain ⟨hfst, hsnd⟩ := ih h.tail
    unfold updateArpTranslationTable
    rw [arpGetHwaddr_cons hstate, arpGetHwaddr_cons hstate]
    by_cases hsip : e.sip = data.sip
    · rw [if_pos ⟨hwtype.trans hhw.symm, hsip⟩, if_pos hsip]
      have hnew := @arpGetHwaddr_cons { e with smac := data.smac } cache hstate ip
      refine ⟨rfl, hnew.trans ?_⟩
      by_cases hip : e.sip = ip <;> simp [← hsip, hip]
    · rw [if_neg fun hsame => hsip hsame.2, if_neg hsip]
      refine ⟨hfst, (arpGetHwaddr_cons hstate ip).trans ?_⟩
      by_cases hip : e.sip = ip
      · have hne : ¬ data.sip = ip := fun hd => hsip (hip.trans hd.symm)
        simp [hip, hne]
      · rw [if_neg hip, if_neg hip, hsnd]

theorem update_of_not_merge {cache : List ArpCacheEntry}
    (h : (updateArpTranslationTable hdr data cache).1 = false) :
    (updateArpTranslationTable hdr data cache).2 = cache := by
  induction cache with
  | nil => rfl
  | cons e cache ih =>
    unfold updateArpTranslationTable at h ⊢
    split_ifs at h ⊢
    exact congrArg (e :: ·) (ih h)

theorem mem_update {x : ArpCacheEntry} (hx : x.sip ≠ data.sip) (cache : List ArpCacheEntry) :
    x ∈ (updateArpTranslationTable hdr data cache).2 ↔ x ∈ cache := by
  induction cache with
  | nil => rfl
  | cons e cache ih =>
    rw [updateArpTranslationTable]
    split_ifs with hsame
    · have hne : x ≠ e := by rintro rfl; exact hx hsame.2
      have hne' : x ≠ { e with smac := data.smac } := by
        rintro rfl
        exact hx hsame.2
      simp [hne, hne']
    · simp [ih]

end Update

theorem wf_insert {hdr : ArpHdr} (hhw : hdr.hwtype = arpEthernet) {data : ArpIpv4}
    {cache : List ArpCacheEntry} (h : Wf cache) (hnew : arpGetHwaddr cache data.sip = none) :
    Wf (insertArpTranslationTable hdr data cache) := by
  have hnot : data.sip ∉ cache.map ArpCacheEntry.sip := by
    intro hmem
    obtain ⟨e, he, hsip⟩ := List.mem_map.mp hmem
    rw [arpGetHwaddr, Option.map_eq_none_iff, List.find?_eq_none] at hnew
    exact hnew e he (by simp [(h.entry e he).2, hsip])
  refine ⟨?_, fun e he => ?_⟩
  · rw [insertArpTranslationTable, List.map_append, List.map_singleton]
    refine List.nodup_append.mpr ⟨h.nodup, by simp, fun a ha b hb => ?_⟩
    rintro rfl
    have hsip : a = data.sip := List.mem_singleton.mp hb
    exact hnot (hsip ▸ ha)
  · rcases List.mem_append.mp he with he | he
    · exact h.entry e he
    · rw [List.mem_singleton.mp he]
      exact ⟨hhw, rfl⟩

theorem get_insert {hdr : ArpHdr} {data : ArpIpv4} {cache : List ArpCacheEntry}
    (hnew : arpGetHwaddr cache data.sip = none) (ip : UInt32) :
    arpGetHwaddr (insertArpTranslationTable hdr data cache) ip =
      if data.sip = ip then some data.smac else arpGetHwaddr cache ip := by
  have hlast : arpGetHwaddr [arpEntryAlloc hdr data] ip =
      if data.sip = ip then some data.smac else none := arpGetHwaddr_cons rfl ip
  have hsplit : arpGetHwaddr (insertArpTranslationTable hdr data cache) ip =
      (arpGetHwaddr cache ip).or (arpGetHwaddr [arpEntryAlloc hdr data] ip) := by
    unfold arpGetHwaddr insertArpTranslationTable
    rw [List.find?_append, Option.map_or]
  rw [hsplit, hlast]
  split_ifs with hip
  · rw [← hip, hnew, Option.none_or]
  · rw [Option.or_none]

/-! ### A frame -/

/-- The addresses are read behind the header that was rewritten. -/
theorem arpData_putArpHdr (buf : RxBuf) (h : ArpHdr) :
    arpData (putArpHdr buf.mem h) = arpData buf.mem := by
  have hlen := buf.length_mem
  have hbytes : h.bytes.length = 8 := by simp [ArpHdr.bytes]
  have hbuf : buflen = 1600 := rfl
  rw [arpData, putArpHdr, slice_splice_behind (by omega) (by omega), arpData]

/-- The header in host byte order. -/
def hostHdr (mem : List UInt8) : ArpHdr :=
  { arpHdr mem with
    hwtype := htons (arpHdr mem).hwtype, protype := htons (arpHdr mem).protype
    opcode := htons (arpHdr mem).opcode }

/-- `arp_rcv` by its tests: of the two protocols, of the target and of the operation. -/
theorem arpRcv_eq (dev : Netdev) (cache : List ArpCacheEntry) (buf : RxBuf) :
    arpRcv dev cache buf.mem =
      if Translates buf.mem then
        let merge := updateArpTranslationTable (hostHdr buf.mem) (sender buf.mem) cache
        if (sender buf.mem).dip = dev.addr then
          { cache := if merge.1 then merge.2
              else insertArpTranslationTable (hostHdr buf.mem) (sender buf.mem) merge.2
            reply := if (hostHdr buf.mem).opcode = arpRequestOp then some (frame (arpReply dev
                { mem := putArpData (putArpHdr buf.mem (hostHdr buf.mem)) (sender buf.mem) }))
              else none
            frees := if (hostHdr buf.mem).opcode = arpReplyOp then 0 else 1 }
        else { cache := merge.2, frees := 1 }
      else { cache := cache, frees := 1 } := by
  have hops : arpRequestOp ≠ arpReplyOp := by decide
  have hdip : htonl (arpData buf.mem).dip = (sender buf.mem).dip := rfl
  have hop : htons (arpHdr buf.mem).opcode = (hostHdr buf.mem).opcode := rfl
  unfold arpRcv
  simp only [arpData_putArpHdr]
  rw [hdip, hop]
  by_cases hhw : htons (arpHdr buf.mem).hwtype = arpEthernet
  · by_cases hpro : htons (arpHdr buf.mem).protype = arpIpv4
    · have ht : Translates buf.mem := ⟨hhw, hpro⟩
      rw [if_neg (not_not.mpr hhw), if_neg (not_not.mpr hpro), if_pos ht]
      by_cases hhost : (sender buf.mem).dip = dev.addr
      · rw [if_neg (not_not.mpr hhost), if_pos hhost]
        by_cases hreq : (hostHdr buf.mem).opcode = arpRequestOp
        · have hrep : (hostHdr buf.mem).opcode ≠ arpReplyOp := hreq ▸ hops
          rw [if_pos hreq, if_pos hreq, if_neg hrep]
          rfl
        · rw [if_neg hreq, if_neg hreq]
          by_cases hrep : (hostHdr buf.mem).opcode = arpReplyOp
          · rw [if_pos hrep, if_pos hrep]
            rfl
          · rw [if_neg hrep, if_neg hrep]
            rfl
      · rw [if_pos hhost, if_neg hhost]
        rfl
    · rw [if_neg (not_not.mpr hhw), if_pos hpro, if_neg fun h => hpro h.2]
  · rw [if_pos hhw, if_neg fun h => hhw h.1]

/-- What a frame does to the cache, whatever its operation is. -/
theorem arpRcv_cases (dev : Netdev) {cache : List ArpCacheEntry} (h : Wf cache) (buf : RxBuf) :
    ¬ Translates buf.mem ∧ (arpRcv dev cache buf.mem).cache = cache ∨
    Translates buf.mem ∧ arpGetHwaddr cache (sender buf.mem).sip = none ∧
      (sender buf.mem).dip = dev.addr ∧ (arpRcv dev cache buf.mem).cache =
        insertArpTranslationTable (hostHdr buf.mem) (sender buf.mem) cache ∨
    Translates buf.mem ∧ ((sender buf.mem).dip = dev.addr →
        (arpGetHwaddr cache (sender buf.mem).sip).isSome) ∧ (arpRcv dev cache buf.mem).cache =
      (updateArpTranslationTable (hostHdr buf.mem) (sender buf.mem) cache).2 := by
  rw [arpRcv_eq]
  by_cases ht : Translates buf.mem
  · obtain ⟨hmerge, -⟩ := get_update (sender buf.mem) (show (hostHdr buf.mem).hwtype = _ from ht.1) h 0
    rw [if_pos ht]
    by_cases hhost : (sender buf.mem).dip = dev.addr
    · rw [if_pos hhost]
      cases hfound : (updateArpTranslationTable (hostHdr buf.mem) (sender buf.mem) cache).1 with
      | false =>
        have hnone : arpGetHwaddr cache (sender buf.mem).sip = none := by
          simpa using hmerge.symm.trans hfound
        refine .inr (.inl ⟨ht, hnone, hhost, ?_⟩)
        simp only [Bool.false_eq_true, if_false, update_of_not_merge _ hfound]
      | true =>
        refine .inr (.inr ⟨ht, fun _ => hmerge.symm.trans hfound, ?_⟩)
        rw [if_pos rfl]
    · rw [if_neg hhost]
      exact .inr (.inr ⟨ht, fun h => absurd h hhost, rfl⟩)
  · rw [if_neg ht]
    exact .inl ⟨ht, rfl⟩

theorem wf_arpRcv (dev : Netdev) {cache : List ArpCacheEntry} (h : Wf cache) (buf : RxBuf) :
    Wf (arpRcv dev cache buf.mem).cache := by
  rcases arpRcv_cases dev h buf with ⟨-, heq⟩ | ⟨ht, hnone, -, heq⟩ | ⟨ht, -, heq⟩
  · rw [heq]
    exact h
  · rw [heq]
    exact wf_insert ht.1 h hnone
  · rw [heq]
    exact wf_update _ h

/-- **One frame.** The address it is accepted for gets the address of its sender. -/
theorem get_arpRcv (dev : Netdev) {cache : List ArpCacheEntry} (h : Wf cache) (buf : RxBuf)
    (ip : UInt32) :
    arpGetHwaddr (arpRcv dev cache buf.mem).cache ip =
      if Accepted dev cache ip buf.mem then some (sender buf.mem).smac else arpGetHwaddr cache ip := by
  rcases arpRcv_cases dev h buf with ⟨ht, heq⟩ | ⟨ht, hnone, hhost, heq⟩ | ⟨ht, hother, heq⟩
  · rw [heq, if_neg fun hacc => ht hacc.1]
  · rw [heq, get_insert hnone]
    by_cases hip : (sender buf.mem).sip = ip
    · rw [if_pos hip, if_pos ⟨ht, hip, .inr hhost⟩]
    · rw [if_neg hip, if_neg fun hacc => hip hacc.2.1]
  · obtain ⟨-, hget⟩ := get_update (sender buf.mem) (show (hostHdr buf.mem).hwtype = _ from ht.1) h ip
    rw [heq, hget]
    refine if_congr ⟨fun hboth => ⟨ht, hboth.1, .inl hboth.2⟩, ?_⟩ rfl rfl
    rintro ⟨-, rfl, hsome | hhost⟩
    · exact ⟨rfl, hsome⟩
    · exact ⟨rfl, hother hhost⟩

/-- The entries of all other addresses are those from before. -/
theorem mem_arpRcv (dev : Netdev) {cache : List ArpCacheEntry} (h : Wf cache) (buf : RxBuf)
    {x : ArpCacheEntry} (hx : ¬ Accepted dev cache x.sip buf.mem) :
    x ∈ (arpRcv dev cache buf.mem).cache ↔ x ∈ cache := by
  rcases arpRcv_cases dev h buf with ⟨-, heq⟩ | ⟨ht, hnone, hhost, heq⟩ | ⟨ht, -, heq⟩
  · rw [heq]
  · have hne : x ≠ arpEntryAlloc (hostHdr buf.mem) (sender buf.mem) := by
      rintro rfl
      exact hx ⟨ht, rfl, .inr hhost⟩
    simp [heq, insertArpTranslationTable, hne]
  · rw [heq]
    by_cases hsip : x.sip = (sender buf.mem).sip
    · -- without an entry for the address the walk changes nothing
      have hnone : arpGetHwaddr cache (sender buf.mem).sip = none := by
        by_contra hsome
        refine hx ⟨ht, hsip.symm, .inl ?_⟩
        rw [hsip]
        exact Option.isSome_iff_ne_none.mpr hsome
      obtain ⟨hmerge, -⟩ := get_update (sender buf.mem) (show (hostHdr buf.mem).hwtype = _ from ht.1) h 0
      rw [update_of_not_merge _ (by simpa [hnone] using hmerge)]
    · exact mem_update _ hsip cache

/-! ### Sequences of events -/

theorem after_snoc (dev : Netdev) (es : List Event) (e : Event) :
    after dev (es ++ [e]) = step dev (after dev es) e := by
  rw [after, List.foldl_append]
  rfl

theorem wf_after (dev : Netdev) (es : List Event) : Wf (after dev es).cache := by
  induction es using List.reverseRecOn with
  | nil => exact ⟨List.nodup_nil, fun e he => absurd he List.not_mem_nil⟩
  | append_singleton es e ih =>
    rw [after_snoc]
    cases e with
    | rcv buf => exact wf_arpRcv dev ih buf
    | request sip dip => exact ih

section Snoc

variable {dev : Netdev} {es : List Event} {e : Event} {ip : UInt32}

/-- The events of a sequence with one more at its end. -/
theorem snoc_cases {fs gs : List Event} {e' : Event} (h : es ++ [e] = fs ++ e' :: gs) :
    (fs = es ∧ e' = e ∧ gs = []) ∨ ∃ hs, gs = hs ++ [e] ∧ es = fs ++ e' :: hs := by
  rcases List.eq_nil_or_concat gs with rfl | ⟨hs, e'', rfl⟩
  · obtain ⟨rfl, hlast⟩ := List.append_inj' h rfl
    exact .inl ⟨rfl, (List.cons.inj hlast).1.symm, rfl⟩
  · rw [List.concat_eq_append, ← List.cons_append, ← List.append_assoc] at h
    obtain ⟨rfl, hlast⟩ := List.append_inj' h rfl
    obtain rfl := List.singleton_inj.mp hlast
    exact .inr ⟨hs, List.concat_eq_append, rfl⟩

theorem NoneAccepted.snoc (h : NoneAccepted dev es ip)
    (he : ∀ buf, e = .rcv buf → ¬ Accepted dev (after dev es).cache ip buf.mem) :
    NoneAccepted dev (es ++ [e]) ip := by
  intro fs buf gs heq
  rcases snoc_cases heq with ⟨rfl, hlast, -⟩ | ⟨hs, -, hes⟩
  · exact he buf hlast.symm
  · exact h fs buf hs hes

theorem LastAccepted.snoc {buf : RxBuf} (h : LastAccepted dev es ip buf)
    (he : ∀ buf, e = .rcv buf → ¬ Accepted dev (after dev es).cache ip buf.mem) :
    LastAccepted dev (es ++ [e]) ip buf := by
  obtain ⟨fs, gs, rfl, hacc, hlast⟩ := h
  refine ⟨fs, gs ++ [e], by simp, hacc, fun hs buf' ks heq => ?_⟩
  rcases snoc_cases heq with ⟨rfl, hbuf, -⟩ | ⟨ks', -, hgs⟩
  · exact he buf' hbuf.symm
  · exact hlast hs buf' ks' hgs

end Snoc

theorem lastAccepted_snoc {dev : Netdev} {es : List Event} {ip : UInt32} {buf : RxBuf}
    (h : Accepted dev (after dev es).cache ip buf.mem) : LastAccepted dev (es ++ [.rcv buf]) ip buf :=
  ⟨es, [], rfl, h, fun hs buf' ks heq => by simp at heq⟩

/-- What the cache says about an address is what the last accepted frame said. -/
theorem get_after (dev : Netdev) (es : List Event) (ip : UInt32) :
    (∃ buf, LastAccepted dev es ip buf ∧
      arpGetHwaddr (after dev es).cache ip = some (sender buf.mem).smac) ∨
    NoneAccepted dev es ip ∧ arpGetHwaddr (after dev es).cache ip = none := by
  induction es using List.reverseRecOn with
  | nil => exact .inr ⟨fun fs buf gs heq => by simp at heq, rfl⟩
  | append_singleton es e ih =>
    by_cases hacc : ∃ buf, e = .rcv buf ∧ Accepted dev (after dev es).cache ip buf.mem
    · obtain ⟨buf, rfl, hbuf⟩ := hacc
      refine .inl ⟨buf, lastAccepted_snoc hbuf, ?_⟩
      rw [after_snoc]
      exact (get_arpRcv dev (wf_after dev es) buf ip).trans (if_pos hbuf)
    · have he : ∀ buf, e = .rcv buf → ¬ Accepted dev (after dev es).cache ip buf.mem :=
        fun buf hbuf hb => hacc ⟨buf, hbuf, hb⟩
      have hget : arpGetHwaddr (after dev (es ++ [e])).cache ip =
          arpGetHwaddr (after dev es).cache ip := by
        rw [after_snoc]
        cases e with
        | rcv buf => exact (get_arpRcv dev (wf_after dev es) buf ip).trans (if_neg (he buf rfl))
        | request sip dip => rfl
      rw [hget]
      rcases ih with ⟨buf, hlast, hbuf⟩ | ⟨hnone, hno⟩
      · exact .inl ⟨buf, hlast.snoc he, hbuf⟩
      · exact .inr ⟨hnone.snoc he, hno⟩

/-- **The cache is a map.** After any sequence of events every address has at most one entry; the
cache says of it what the last accepted frame said, and nothing if there was none; and the next
event leaves the entries of all addresses alone that it is not an accepted frame for. -/
theorem arp_cache_map (dev : Netdev) (es : List Event) :
    ((after dev es).cache.map ArpCacheEntry.sip).Nodup ∧
    (∀ ip, (∃ buf, LastAccepted dev es ip buf ∧
        arpGetHwaddr (after dev es).cache ip = some (sender buf.mem).smac) ∨
      NoneAccepted dev es ip ∧ arpGetHwaddr (after dev es).cache ip = none) ∧
    ∀ e x, (∀ buf, e = .rcv buf → ¬ Accepted dev (after dev es).cache x.sip buf.mem) →
      (x ∈ (after dev (es ++ [e])).cache ↔ x ∈ (after dev es).cache) := by
  refine ⟨(wf_after dev es).nodup, get_after dev es, fun e x hx => ?_⟩
  rw [after_snoc]
  cases e with
  | rcv buf => exact mem_arpRcv dev (wf_after dev es) buf (hx buf rfl)
  | request sip dip => rfl

end ToyIP.Net.Arp
