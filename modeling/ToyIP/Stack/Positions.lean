import ToyIP.Stack.Bounds

/-! # Where headers and text are read

The lengths come from the headers, the places from the layout of the structs: `iph->data` is 20 bytes
behind the IP header whatever its `ihl` says, and `th->data` 20 bytes behind the TCP header.
`placed_iff` says that the two agree for headers without options only. -/

namespace ToyIP.Stack.Positions

open ToyIP.Lib ToyIP.Lib.Bytes ToyIP.Lib.RefCount ToyIP.Lib.RefCount.Store ToyIP.Net.Checksum
  ToyIP.Net.Headers ToyIP.Tcp.Types ToyIP.Stack.Frames ToyIP.Stack.Bounds
open ToyIP.Tcp.Buffers (Act Heap act insertOrdered cleanWrite)
open ToyIP.Net.Arp (RxBuf buflen)
open ToyIP.Net.Packets (ipHdr tcpHdr udpHdr ipInitPkt Packet)

/-! ### The pointers of the code -/

/-- `iph->data`, `tcp_hdr` and `udp_hdr`: behind a `struct eth_hdr` and a `struct iphdr`. -/
def iphData : ℕ := 14 + 20

/-- `th->data`. -/
def thData : ℕ := iphData + 20

theorem icmpType_at (mem : List UInt8) : icmpType mem = mem.getD iphData 0 := rfl

theorem tcpHdr_at (mem : List UInt8) : tcpHdr mem = Tcphdr.read (slice mem iphData 20) := rfl

theorem udpHdr_at (mem : List UInt8) : udpHdr mem = Udphdr.read (slice mem iphData 8) := rfl

theorem payload_at (mem : List UInt8) : (Net.Packets.tcpInitSegment mem).payload =
    slice mem thData (Net.Packets.tcpInitSegment mem).dlen.toNat := rfl

/-! ### The places in the frame -/

/-- The first byte behind the IP header. -/
def behindIp (mem : List UInt8) : ℕ := 14 + ipHlen mem

/-- The length of the TCP header that is there. -/
def thHlen (mem : List UInt8) : ℕ := 4 * (Tcphdr.read (slice mem (behindIp mem) 20)).hl.toNat

/-- The first byte behind it. -/
def behindTh (mem : List UInt8) : ℕ := behindIp mem + thHlen mem

/-- What is left of the total length. -/
def textLen (mem : List UInt8) : ℕ := ipLen mem - ipHlen mem - thHlen mem

/-- The headers fit into the total length, and the packet into the `n` bytes received. -/
structure Consistent (n : ℕ) (mem : List UInt8) : Prop where
  ip : ipHlen mem ≤ ipLen mem
  frame : 14 + ipLen mem ≤ n
  tcp : (ipHdr mem).proto = 6 → 20 ≤ thHlen mem ∧ ipHlen mem + thHlen mem ≤ ipLen mem

/-- The buffer holds the text of the segment. -/
structure HoldsText (mem : List UInt8) (skb : Skb) : Prop where
  place : thData = behindTh mem
  payload : skb.payload = slice mem (behindTh mem) (textLen mem)
  dlen : skb.dlen.toNat = textLen mem

/-- **The packet is read where its headers say.** The header of ICMP, UDP or TCP is read behind the IP
header, and the buffer of a segment that is on a queue holds the bytes behind the TCP header. -/
structure Placed (b : ℕ) (mem : List UInt8) (p : Packet) (t' : State) : Prop where
  header : iphData = behindIp mem
  text : ∀ seg, p = .tcp seg → Queued b t' →
    ∃ skb n, t'.store.cells b = some (skb, n) ∧ HoldsText mem skb

/-! ### What the buffer of a segment holds -/

variable {b : ℕ} {skb : Skb}

theorem lasts_insertOrdered {c : ℕ} : ∀ {q q' : List ℕ} {s s' : Store Skb}, Lasts b skb s →
    insertOrdered s c q = some (s', q') → Lasts b skb s'
  | [], q', s, s', h, hrun => by
    obtain ⟨s₁, hhold, hrun⟩ := Option.bind_eq_some_iff.mp hrun
    obtain ⟨rfl, -⟩ := Prod.mk.inj (Option.some.inj hrun)
    exact h.hold hhold
  | d :: q, q', s, s', h, hrun => by
    rw [insertOrdered] at hrun
    obtain ⟨x, -, hrun⟩ := Option.bind_eq_some_iff.mp hrun
    obtain ⟨y, -, hrun⟩ := Option.bind_eq_some_iff.mp hrun
    cases hv : Tcp.Data.visit x y <;> rw [hv] at hrun <;> simp only at hrun
    case insert =>
      obtain ⟨s₁, hhold, hrun⟩ := Option.bind_eq_some_iff.mp hrun
      obtain ⟨rfl, -⟩ := Prod.mk.inj (Option.some.inj hrun)
      exact h.hold hhold
    case duplicate =>
      obtain ⟨rfl, -⟩ := Prod.mk.inj (Option.some.inj hrun)
      exact h
    case next =>
      obtain ⟨⟨s₁, q₁⟩, hrest, hrun⟩ := Option.bind_eq_some_iff.mp hrun
      obtain ⟨rfl, -⟩ := Prod.mk.inj (Option.some.inj hrun)
      exact lasts_insertOrdered h hrest

theorem lasts_cleanWrite {una : UInt32} : ∀ {q q' : List ℕ} {s s' : Store Skb}, Lasts b skb s →
    cleanWrite una q s = some (q', s') → Lasts b skb s'
  | [], q', s, s', h, hrun => by
    obtain ⟨-, rfl⟩ := Prod.mk.inj (Option.some.inj hrun)
    exact h
  | c :: q, q', s, s', h, hrun => by
    rw [cleanWrite] at hrun
    obtain ⟨x, -, hrun⟩ := Option.bind_eq_some_iff.mp hrun
    split_ifs at hrun
    · obtain ⟨s₁, hdrop, hrun⟩ := Option.bind_eq_some_iff.mp hrun
      exact lasts_cleanWrite (h.drop hdrop) hrun
    · obtain ⟨-, rfl⟩ := Prod.mk.inj (Option.some.inj hrun)
      exact h

/-- No act writes into a buffer. -/
theorem lasts_act {c : ℕ} {h h' : Heap} {a : Act} (hb : Lasts b skb h.store)
    (hact : act c h a = some h') : Lasts b skb h'.store := by
  cases a with
  | free | zeroWindow =>
    obtain ⟨s, hrelease, hact⟩ := Option.bind_eq_some_iff.mp hact
    obtain rfl := Option.some.inj hact
    exact hb.release hrelease
  | receive rcvNxt =>
    obtain ⟨s, hhold, hact⟩ := Option.bind_eq_some_iff.mp hact
    obtain ⟨q, -, hact⟩ := Option.bind_eq_some_iff.mp hact
    obtain rfl := Option.some.inj hact
    exact hb.hold hhold
  | ofo =>
    obtain ⟨⟨s, ofo⟩, hinsert, hact⟩ := Option.bind_eq_some_iff.mp hact
    obtain rfl := Option.some.inj hact
    exact lasts_insertOrdered hb hinsert
  | clean una =>
    obtain ⟨⟨write, s⟩, hclean, hact⟩ := Option.bind_eq_some_iff.mp hact
    obtain rfl := Option.some.inj hact
    exact lasts_cleanWrite hb hclean
  | freeSock =>
    obtain ⟨s₁, h₁, hact⟩ := Option.bind_eq_some_iff.mp hact
    obtain ⟨s₂, h₂, hact⟩ := Option.bind_eq_some_iff.mp hact
    obtain ⟨s₃, h₃, hact⟩ := Option.bind_eq_some_iff.mp hact
    obtain rfl := Option.some.inj hact
    exact ((hb.dropAll h₁).dropAll h₂).dropAll h₃

theorem lasts_acts {c : ℕ} : ∀ {as : List Act} {h h' : Heap}, Lasts b skb h.store →
    as.foldlM (act c) h = some h' → Lasts b skb h'.store
  | [], _, _, hb, hrun => Option.some.inj hrun ▸ hb
  | a :: as, h, h', hb, hrun => by
    rw [List.foldlM_cons, Option.bind_eq_bind, Option.bind_eq_some_iff] at hrun
    obtain ⟨h₁, hact, hrun⟩ := hrun
    exact lasts_acts (lasts_act hb hact) hrun

theorem lasts_tcpIn {seg : Seg} {isn : UInt32} {t t' : State} (hb : Lasts b skb t.store)
    (hrun : tcpIn b seg isn t = some t') : Lasts b skb t'.store := by
  obtain ⟨found, -, hrun⟩ := Option.bind_eq_some_iff.mp hrun
  split at hrun
  · obtain ⟨sk, -, hrun⟩ := Option.bind_eq_some_iff.mp hrun
    obtain ⟨tcp, -, hrun⟩ := Option.bind_eq_some_iff.mp hrun
    obtain ⟨h, hacts, hrun⟩ := Option.bind_eq_some_iff.mp hrun
    obtain rfl := Option.some.inj hrun
    exact lasts_acts hb hacts
  · obtain ⟨s, hrelease, rfl⟩ := Option.map_eq_some_iff.mp hrun
    exact hb.release hrelease

/-- A buffer on a queue holds what `tcp_init_segment` has put into it. -/
theorem cell_of_queued {mem : List UInt8} {isn : UInt32} {t t' : State} {seg : Seg}
    (hseg : handed mem = some (.tcp seg)) (hrun : netdevReceive b mem isn t = some t')
    (hq : Queued b t') : ∃ n, t'.store.cells b = some (tcpInitSegment seg, n) := by
  rw [netdevReceive_of_handed hseg, ipIn, (ipRcv_of_handed hseg).2] at hrun
  have hset : Lasts b (tcpInitSegment seg) (t.setSkb b (tcpInitSegment seg)).store :=
    .inr ⟨0, cells_set_self _⟩
  refine (lasts_tcpIn hset hrun).resolve_left fun hin => ?_
  exact List.count_eq_zero.mp hq.1 hin

/-! ### The places -/

theorem iphData_eq_iff {mem : List UInt8} : iphData = behindIp mem ↔ (ipHdr mem).ihl = 5 := by
  have hnat : (ipHdr mem).ihl = 5 ↔ (ipHdr mem).ihl.toNat = 5 := BitVec.toNat_inj.symm
  rw [hnat, behindIp, ipHlen, iphData]
  omega

section Plain

variable {mem : List UInt8} (hihl : (ipHdr mem).ihl = 5)
include hihl

theorem behindIp_eq : behindIp mem = 34 := (iphData_eq_iff.mpr hihl).symm

theorem thHlen_eq : thHlen mem = tcpHlen mem := by
  rw [thHlen, behindIp_eq hihl]
  rfl

theorem thData_eq_iff : thData = behindTh mem ↔ (tcpHdr mem).hl = 5 := by
  have hnat : (tcpHdr mem).hl = 5 ↔ (tcpHdr mem).hl.toNat = 5 := BitVec.toNat_inj.symm
  rw [hnat, behindTh, behindIp_eq hihl, thHlen_eq hihl, tcpHlen, thData, iphData]
  omega

/-- The text by the code, of a segment without options. -/
theorem holdsText_tcpInitSegment {n : ℕ} (hmem : 54 ≤ mem.length) (hc : Consistent n mem)
    (hproto : (ipHdr mem).proto = 6) (hhl : (tcpHdr mem).hl = 5) :
    HoldsText mem (tcpInitSegment (Net.Packets.tcpInitSegment (ipInitPkt mem))) := by
  have hplace := (thData_eq_iff hihl).mpr hhl
  have hfits := (hc.tcp hproto).2
  have hlen := ipLen_lt mem
  have hdlen : (Net.Packets.tcpInitSegment (ipInitPkt mem)).dlen.toNat = textLen mem := by
    have hnat := toNat_tcpDlen hmem
    rw [← thHlen_eq hihl] at hnat
    rw [hnat, textLen]
    omega
  refine ⟨hplace, ?_, hdlen⟩
  show (Net.Packets.tcpInitSegment (ipInitPkt mem)).payload = _
  rw [payload_at, hdlen, ← hplace]
  exact Net.Packets.slice_ipInitPkt (by omega) (by decide) _

end Plain

/-! ### The condition -/

/-- **Where packets are read at the right place.** For every packet that `ip_rcv` hands on and whose
lengths are consistent, this is so if and only if the IP header has no options, and the TCP header of
a segment that a sock queues has none either. -/
theorem placed_iff (t : State) (bs : List UInt8) (hbs : bs.length ≤ buflen) (b : ℕ) (isn : UInt32)
    (t' : State) (p : Packet) (hb : Fresh b t) (hp : handed (rxBuf bs hbs).mem = some p)
    (hc : Consistent bs.length (rxBuf bs hbs).mem)
    (hrun : netdevReceive b (rxBuf bs hbs).mem isn t = some t') :
    Placed b (rxBuf bs hbs).mem p t' ↔ (ipHdr (rxBuf bs hbs).mem).ihl = 5 ∧
      ∀ seg, p = .tcp seg → TcpTakes seg t → (tcpHdr (rxBuf bs hbs).mem).hl = 5 := by
  have hbuf : buflen = 1600 := rfl
  have hmem : 54 ≤ (rxBuf bs hbs).mem.length := by
    rw [(rxBuf bs hbs).length_mem]
    omega
  generalize (rxBuf bs hbs).mem = mem at hmem hp hc hrun ⊢
  constructor
  · intro h
    have hihl := iphData_eq_iff.mp h.header
    refine ⟨hihl, ?_⟩
    rintro seg rfl htakes
    obtain ⟨skb, n, -, hholds⟩ := h.text seg rfl ((queued_tcp hb hp hrun).mpr htakes)
    exact (thData_eq_iff hihl).mp hholds.place
  · rintro ⟨hihl, hhl⟩
    refine ⟨iphData_eq_iff.mpr hihl, ?_⟩
    rintro seg rfl hq
    obtain ⟨n, hcell⟩ := cell_of_queued hp hrun hq
    obtain ⟨-, hproto, hseg⟩ := (handed_tcp hmem).mp hp
    have hhl' := hhl seg rfl ((queued_tcp hb hp hrun).mp hq)
    refine ⟨_, n, hcell, ?_⟩
    rw [hseg]
    exact holdsText_tcpInitSegment hihl hmem hc hproto hhl'

/-! ### An echo request with options -/

/-- An ICMP echo request of 8 bytes behind an IP header of 24 bytes. -/
def optionsEcho : List UInt8 :=
  List.replicate 12 0 ++ [0x08, 0x00, 0x46, 0, 0, 32, 0, 0, 0, 0, 64, 1, 0x61, 0xd4, 10, 0, 1, 5,
    10, 0, 1, 4, 1, 1, 1, 0, 8, 0, 0xf7, 0xff, 0, 0, 0, 0]

/-- The memory it is read into. -/
def optionsBuf : RxBuf := rxBuf optionsEcho (by decide)

theorem length_optionsBuf : 54 ≤ optionsBuf.mem.length := by
  rw [optionsBuf.length_mem]
  decide

theorem handed_options : handed optionsBuf.mem = some (.icmp (ipInitPkt optionsBuf.mem)) :=
  (handed_icmp length_optionsBuf).mpr
    ⟨show Passed optionsBuf.mem by decide +kernel, by decide +kernel, rfl⟩

theorem consistent_options : Consistent optionsEcho.length optionsBuf.mem :=
  ⟨by decide +kernel, by decide +kernel, fun h => absurd h (by decide +kernel)⟩

/-- The options are taken for the ICMP header, and the request is not answered. -/
theorem netdevReceive_options : netdevReceive 0 optionsBuf.mem 0 started =
    some { started with store := started.store.kill 0 } := by
  have htype : icmpType (ipInitPkt optionsBuf.mem) = 1 := by decide +kernel
  rw [netdevReceive_of_handed handed_options, ipIn, (ipRcv_of_handed handed_options).2]
  simp only [icmpv4Incoming, htype]
  rfl

theorem placed_iff_options :
    Placed 0 optionsBuf.mem (.icmp (ipInitPkt optionsBuf.mem))
        { started with store := started.store.kill 0 } ↔
      (ipHdr optionsBuf.mem).ihl = 5 ∧ ∀ seg, Packet.icmp (ipInitPkt optionsBuf.mem) = .tcp seg →
        TcpTakes seg started → (tcpHdr optionsBuf.mem).hl = 5 :=
  placed_iff started optionsEcho (by decide) 0 0 _ _ fresh_started handed_options consistent_options
    netdevReceive_options

/-- **The options are read as the ICMP header.** -/
theorem options_misread : ¬ ∀ (t : State) (bs : List UInt8) (hbs : bs.length ≤ buflen) (b : ℕ)
    (isn : UInt32) (t' : State) (p : Packet), Fresh b t → handed (rxBuf bs hbs).mem = some p →
    Consistent bs.length (rxBuf bs hbs).mem → netdevReceive b (rxBuf bs hbs).mem isn t = some t' →
    Placed b (rxBuf bs hbs).mem p t' := by
  intro hall
  have hplaced := hall started optionsEcho (by decide) 0 0 _ _ fresh_started handed_options
    consistent_options netdevReceive_options
  have hihl : (ipHdr optionsBuf.mem).ihl ≠ 5 := by decide +kernel
  exact hihl (iphData_eq_iff.mp hplaced.header)

end ToyIP.Stack.Positions
