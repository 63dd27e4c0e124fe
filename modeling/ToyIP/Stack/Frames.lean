import ToyIP.Net.Arp
import ToyIP.Stack.TcpSocks
import ToyIP.Stack.UdpSocks
import ToyIP.Tcp.Buffers

/-! # Frames that are received

`netdev_receive` and what it calls: `arp_rcv`, `ip_rcv`, `icmpv4_incoming`, `tcp_in` and `udp_in`,
on the whole stack, for a frame in the buffer `b`. What the handlers send is left out.

Each of them has to release the buffer or leave it in a queue. `disposed_iff` says that all do,
except `arp_rcv` for a reply that is addressed to this host. -/

namespace ToyIP.Stack.Frames

open ToyIP.Lib.RefCount ToyIP.Lib.RefCount.Store ToyIP.Lib.Bytes ToyIP.Net.Checksum ToyIP.Net.Headers
  ToyIP.Net.Packets ToyIP.Net.Arp ToyIP.Tcp.Types ToyIP.Tcp.Data ToyIP.Tcp.Input
  ToyIP.Tcp.Buffers
open ToyIP.Stack.TcpSocks (Node stackaddr tcpLookupSock process withParent)

/-- The device, the ARP cache, the tables of socks, the buffers in memory, and the queues of each
sock. -/
structure State where
  dev : Netdev
  cache : List ArpCacheEntry
  tcp : TcpSocks.State
  udp : UdpSocks.State
  store : Store Skb
  tcpQueues : ℕ → Queues ℕ
  udpQueues : ℕ → List ℕ

/-! ### The code -/

def freeSkb (b : ℕ) (s : State) : Option State :=
  (s.store.release b).map fun store => { s with store := store }

/-- The buffer after `tcp_init_segment` or `udp_init_segment`. -/
def State.setSkb (s : State) (b : ℕ) (skb : Skb) : State := { s with store := s.store.set b (skb, 0) }

/-- The buffers and the queues of one TCP sock afterwards. -/
def State.setHeap (s : State) (k : ℕ) (h : Heap) : State :=
  { s with store := h.store, tcpQueues := fun j => if j = k then h.queues else s.tcpQueues j }

/-- `arp_rcv`. For a request `arp_reply` releases the buffer. -/
def arpIn (b : ℕ) (mem : List UInt8) (s : State) : Option State :=
  let r := arpRcv s.dev s.cache mem
  if r.frees = 0 then some { s with cache := r.cache } else freeSkb b { s with cache := r.cache }

/-- The type of an ICMP message, behind an IP header without options. -/
def icmpType (mem : List UInt8) : UInt8 := mem.getD 34 0

/-- `icmpv4_incoming`. `icmpv4_reply` and `icmpv4_timestamp` answer in the buffer and release it. -/
def icmpv4Incoming (b : ℕ) (mem : List UInt8) (s : State) : Option State :=
  if icmpType mem = 8 then freeSkb b s
  else if icmpType mem = 13 then freeSkb b s
  else freeSkb b s

/-- `tcp_in`, with `isn` the result of `tcp_generate_isn`. -/
def tcpIn (b : ℕ) (seg : Seg) (isn : UInt32) (s : State) : Option State := do
  match ← tcpLookupSock seg.saddr seg.th.sport seg.daddr seg.th.dport s.tcp with
  | some (.sock k) => do
    let sk ← s.tcp.socks k
    let tcp ← process k seg isn s.tcp
    let h ← (processActs (withParent s.tcp k sk) seg).foldlM (act b) ⟨s.store, s.tcpQueues k⟩
    some { s.setHeap k h with tcp := tcp }
  | _ => freeSkb b s

/-- `udp_in`. The datagram is queued without a reference. -/
def udpIn (b : ℕ) (d : Datagram) (s : State) : Option State := do
  match ← UdpSocks.udpLookupSock d.dport s.udp with
  | some (.sock k) =>
    some { s with udpQueues := fun j => if j = k then s.udpQueues k ++ [b] else s.udpQueues j }
  | _ => freeSkb b s

def ipIn (b : ℕ) (mem : List UInt8) (isn : UInt32) (s : State) : Option State :=
  match ipRcv stackaddr mem with
  | none => freeSkb b s
  | some (.icmp mem) => icmpv4Incoming b mem s
  | some (.tcp seg) => tcpIn b seg isn (s.setSkb b (tcpInitSegment seg))
  | some (.udp d) => udpIn b d (s.setSkb b { dlen := d.dlen, payload := d.payload })

/-- `hdr->ethertype`. -/
def ethertype (mem : List UInt8) : UInt16 := htons (of16 (slice mem 12 2))

/-- `netdev_receive`. No result: a null pointer is followed, freed memory is read or a loop does not
end. -/
def netdevReceive (b : ℕ) (mem : List UInt8) (isn : UInt32) (s : State) : Option State :=
  if ethertype mem = 0x0806 then arpIn b mem s
  else if ethertype mem = 0x0800 then ipIn b mem isn s
  else freeSkb b s

/-- The stack after it was started. -/
def init : State where
  dev := ⟨stackaddr, #v[0x00, 0x0c, 0x29, 0x6d, 0x50, 0x25]⟩
  cache := []
  tcp := TcpSocks.init
  udp := UdpSocks.init
  store := .empty
  tcpQueues := fun _ => ⟨[], [], []⟩
  udpQueues := fun _ => []

/-! ### The property and its condition -/

/-- The queues that a buffer can be on. -/
inductive Place
  | ofo (k : ℕ)
  | receive (k : ℕ)
  | write (k : ℕ)
  | udp (k : ℕ)
  deriving DecidableEq, Repr

def State.queue (s : State) : Place → List ℕ
  | .ofo k => (s.tcpQueues k).ofo
  | .receive k => (s.tcpQueues k).receive
  | .write k => (s.tcpQueues k).write
  | .udp k => s.udpQueues k

/-- `alloc_skb` has made the buffer: nobody holds it, no queue has it, and it has not been released.
-/
structure Fresh (b : ℕ) (s : State) : Prop where
  cell : ∃ skb, s.store.cells b = some (skb, 0)
  released : s.store.released.count b = 0
  queue : ∀ p, b ∉ s.queue p

def Released (b : ℕ) (s : State) : Prop := s.store.released.count b = 1 ∧ ∀ p, b ∉ s.queue p

/-- The buffer is on exactly one queue, once, and this is not a write queue. -/
def Queued (b : ℕ) (s : State) : Prop :=
  s.store.released.count b = 0 ∧
    ∃ p, (∀ k, p ≠ .write k) ∧ (s.queue p).count b = 1 ∧ ∀ p', p' ≠ p → b ∉ s.queue p'

variable {b : ℕ} {h h' : Heap} {s s' : Store Skb} {skb : Skb} {q q' r r' : List ℕ}

/-- `tcp_data_insert_ordered` links the buffer: the walk does not meet its sequence number before.
-/
def inserts (s : Store Skb) (skb : Skb) : List ℕ → Bool
  | [] => true
  | c :: q => match skbAt s c with
    | none => false
    | some item => match visit skb item with
      | .insert => true
      | .duplicate => false
      | .next => inserts s skb q

/-- All buffers of `s'` are in `s`, with the same contents. -/
def Contents (s s' : Store Skb) : Prop :=
  ∀ c x n, s'.cells c = some (x, n) → ∃ m, s.cells c = some (x, m)

theorem Contents.refl (s : Store Skb) : Contents s s := fun _ _ n h => ⟨n, h⟩

theorem Contents.trans {s₁ : Store Skb} (h₁ : Contents s s₁) (h₂ : Contents s₁ s') : Contents s s' := by
  intro c x n h
  obtain ⟨m, hm⟩ := h₂ c x n h
  exact h₁ c x m hm

theorem contents_drop {c : ℕ} (hdrop : s.drop c = some s') : Contents s s' := by
  obtain ⟨s₁, h₁, h₂⟩ := Option.bind_eq_some_iff.mp hdrop
  obtain ⟨⟨y, k⟩, hy, rfl⟩ := Option.map_eq_some_iff.mp h₁
  obtain ⟨z, -, rfl⟩ := Option.map_eq_some_iff.mp h₂
  intro a x n h
  by_cases hac : a = c
  · subst hac
    split_ifs at h
    · rw [cells_kill_self] at h
      cases h
    · rw [cells_set_self] at h
      obtain ⟨rfl, -⟩ := Prod.mk.inj (Option.some.inj h)
      exact ⟨k, hy⟩
  · split_ifs at h
    · rw [cells_kill_of_ne hac, cells_set_of_ne _ hac] at h
      exact ⟨n, h⟩
    · rw [cells_set_of_ne _ hac] at h
      exact ⟨n, h⟩

/-- The walk is the same on a store that has the same contents. -/
theorem insertOrdered_some {s₀ : Store Skb} (hs : Contents s₀ s) : ∀ {q q' : List ℕ} {s' : Store Skb},
    s.cells b = some (skb, 0) → insertOrdered s b q = some (s', q') →
    (s' = s ∧ q' = q) ∧ inserts s₀ skb q = false ∨
      (∃ q₁ q₂, q = q₁ ++ q₂ ∧ q' = q₁ ++ b :: q₂ ∧ s' = s.set b (skb, 1)) ∧ inserts s₀ skb q = true
  | [], q', s', hb, h => by
    rw [insertOrdered, hold_eq hb] at h
    obtain ⟨rfl, rfl⟩ := Prod.mk.inj (Option.some.inj h)
    exact .inr ⟨⟨[], [], rfl, rfl, rfl⟩, rfl⟩
  | c :: q, q', s', hb, h => by
    rw [insertOrdered, skbAt_eq hb] at h
    simp only [Option.bind_eq_bind, Option.bind_some] at h
    obtain ⟨item, hitem, h⟩ := Option.bind_eq_some_iff.mp h
    obtain ⟨⟨x, n⟩, hx, rfl⟩ := Option.map_eq_some_iff.mp hitem
    obtain ⟨m, hm⟩ := hs c x n hx
    rw [inserts, skbAt_eq hm]
    cases hv : visit { skb with refcnt := 0 } { x with refcnt := n } with
    | insert =>
      simp only [hv, hold_eq hb, Option.bind_some] at h
      obtain ⟨rfl, rfl⟩ := Prod.mk.inj (Option.some.inj h)
      have hv' : visit skb { x with refcnt := m } = .insert := hv
      exact .inr ⟨⟨[c], q, rfl, rfl, rfl⟩, by simp only [hv']⟩
    | duplicate =>
      simp only [hv] at h
      obtain ⟨rfl, rfl⟩ := Prod.mk.inj (Option.some.inj h)
      have hv' : visit skb { x with refcnt := m } = .duplicate := hv
      exact .inl ⟨⟨rfl, rfl⟩, by simp only [hv']⟩
    | next =>
      simp only [hv] at h
      obtain ⟨⟨s₁, q₁⟩, hrest, h⟩ := Option.bind_eq_some_iff.mp h
      obtain ⟨rfl, rfl⟩ := Prod.mk.inj (Option.some.inj h)
      have hv' : visit skb { x with refcnt := m } = .next := hv
      simp only [hv']
      rcases insertOrdered_some hs hb hrest with ⟨⟨rfl, rfl⟩, hin⟩ | ⟨⟨p, r, rfl, rfl, rfl⟩, hin⟩
      · exact .inl ⟨⟨rfl, rfl⟩, hin⟩
      · exact .inr ⟨⟨c :: p, r, rfl, rfl, rfl⟩, hin⟩

theorem consumeOfo_some : ∀ {q r left r' : List ℕ} {rcvNxt : UInt32},
    consumeOfo s rcvNxt q r = some (left, r') → ∃ moved, q = moved ++ left ∧ r' = r ++ moved
  | [], r, left, r', rcvNxt, h => by
    rw [consumeOfo] at h
    obtain ⟨rfl, rfl⟩ := Prod.mk.inj (Option.some.inj h)
    exact ⟨[], rfl, (List.append_nil _).symm⟩
  | c :: q, r, left, r', rcvNxt, h => by
    rw [consumeOfo] at h
    obtain ⟨skb, -, h⟩ := Option.bind_eq_some_iff.mp h
    split_ifs at h
    · obtain ⟨moved, rfl, rfl⟩ := consumeOfo_some h
      exact ⟨c :: moved, rfl, by simp⟩
    · obtain ⟨rfl, rfl⟩ := Prod.mk.inj (Option.some.inj h)
      exact ⟨[], rfl, (List.append_nil _).symm⟩

theorem cleanWrite_some {una : UInt32} : ∀ {q q' : List ℕ} {s s' : Store Skb}, b ∉ q →
    cleanWrite una q s = some (q', s') → Spares b s s' ∧ b ∉ q' ∧ Contents s s'
  | [], q', s, s', hb, h => by
    rw [cleanWrite] at h
    obtain ⟨rfl, rfl⟩ := Prod.mk.inj (Option.some.inj h)
    exact ⟨.refl b s, hb, .refl s⟩
  | c :: q, q', s, s', hb, h => by
    obtain ⟨hne, hq⟩ := not_or.mp (List.mem_cons.not.mp hb)
    rw [cleanWrite] at h
    obtain ⟨skb, -, h⟩ := Option.bind_eq_some_iff.mp h
    split_ifs at h
    · obtain ⟨s₁, hdrop, h⟩ := Option.bind_eq_some_iff.mp h
      obtain ⟨hspares, hq', hcontents⟩ := cleanWrite_some hq h
      exact ⟨(spares_drop hne hdrop).trans hspares, hq', (contents_drop hdrop).trans hcontents⟩
    · obtain ⟨rfl, rfl⟩ := Prod.mk.inj (Option.some.inj h)
      exact ⟨.refl b s, hb, .refl s⟩

theorem freeQueues_some (hb : b ∉ h.queues.all) (hfree : freeQueues h = some h') :
    Spares b h.store h'.store ∧ b ∉ h'.queues.all := by
  have hofo : b ∉ h.queues.ofo := fun hin => hb (List.mem_append_left _ (List.mem_append_left _ hin))
  have hreceive : b ∉ h.queues.receive := fun hin =>
    hb (List.mem_append_left _ (List.mem_append_right _ hin))
  have hwrite : b ∉ h.queues.write := fun hin => hb (List.mem_append_right _ hin)
  obtain ⟨s₁, h₁, hfree⟩ := Option.bind_eq_some_iff.mp hfree
  obtain ⟨s₂, h₂, hfree⟩ := Option.bind_eq_some_iff.mp hfree
  obtain ⟨s₃, h₃, hfree⟩ := Option.bind_eq_some_iff.mp hfree
  obtain rfl := Option.some.inj hfree
  exact ⟨((spares_dropAll hofo h₁).trans (spares_dropAll hreceive h₂)).trans (spares_dropAll hwrite h₃),
    List.not_mem_nil⟩

/-- The buffer of the segment is in no queue of the sock, and has not been released. -/
structure Idle (b : ℕ) (skb : Skb) (h : Heap) : Prop where
  cell : h.store.cells b = some (skb, 0)
  released : h.store.released.count b = 0
  outside : b ∉ h.queues.all

/-- It is in one queue for text, once. -/
structure Taken (b : ℕ) (h : Heap) : Prop where
  released : h.store.released.count b = 0
  text : h.queues.text.count b = 1
  write : b ∉ h.queues.write

structure Gone (b : ℕ) (h : Heap) : Prop where
  released : h.store.released.count b = 1
  outside : b ∉ h.queues.all

/-- The acts link the buffer, where `s` and `ofo` are the buffers and the out-of-order queue before.
-/
def Takes (as : List Act) (s : Store Skb) (skb : Skb) (ofo : List ℕ) : Prop :=
  (∃ rcvNxt, .receive rcvNxt ∈ as) ∨ .ofo ∈ as ∧ inserts s skb ofo = true

theorem not_takes {as : List Act} (hno : ∀ a ∈ as, ¬ Links a) (s : Store Skb) (skb : Skb)
    (ofo : List ℕ) : ¬ Takes as s skb ofo := by
  rintro (⟨rcvNxt, hin⟩ | ⟨hin, -⟩)
  · exact hno _ hin (.inr ⟨rcvNxt, rfl⟩)
  · exact hno _ hin (.inl rfl)

theorem Idle.spares (hb : Idle b skb h) (hspares : Spares b h.store h'.store)
    (hout : b ∉ h'.queues.all) : Idle b skb h' :=
  ⟨hspares.cells.trans hb.cell, hspares.released.trans hb.released, hout⟩

theorem Idle.clean {una : UInt32} (hb : Idle b skb h) (hact : act b h (.clean una) = some h') :
    Idle b skb h' ∧ Contents h.store h'.store ∧ h'.queues.ofo = h.queues.ofo := by
  obtain ⟨⟨write, s⟩, hclean, hact⟩ := Option.bind_eq_some_iff.mp hact
  obtain rfl := Option.some.inj hact
  obtain ⟨htext, hwrite⟩ := not_or.mp (List.mem_append.not.mp hb.outside)
  obtain ⟨hspares, hwrite', hcontents⟩ := cleanWrite_some hwrite hclean
  have hout : b ∉ h.queues.text ++ write := List.mem_append.not.mpr (not_or.mpr ⟨htext, hwrite'⟩)
  exact ⟨hb.spares hspares hout, hcontents, rfl⟩

theorem Idle.freeSock (hb : Idle b skb h) (hact : act b h .freeSock = some h') : Idle b skb h' := by
  obtain ⟨hspares, hout⟩ := freeQueues_some hb.outside hact
  exact hb.spares hspares hout

/-- `free_skb` at the end. -/
theorem Idle.free (hb : Idle b skb h) (hact : act b h .free = some h') : Gone b h' := by
  obtain ⟨s, hrelease, hact⟩ := Option.bind_eq_some_iff.mp hact
  obtain rfl := Option.some.inj hact
  rw [release_eq hb.cell (by omega)] at hrelease
  obtain rfl := Option.some.inj hrelease
  refine ⟨?_, hb.outside⟩
  show (h.store.released ++ [b]).count b = 1
  rw [List.count_append, hb.released, List.count_singleton_self]

theorem Taken.free (hb : Taken b h) (hcell : h.store.cells b = some (skb, 1))
    (hact : act b h .free = some h') : Taken b h' := by
  obtain ⟨s, hrelease, hact⟩ := Option.bind_eq_some_iff.mp hact
  obtain rfl := Option.some.inj hact
  rw [release_held hcell le_rfl] at hrelease
  exact Option.some.inj hrelease ▸ hb

theorem Idle.receive {rcvNxt : UInt32} (hb : Idle b skb h)
    (hact : act b h (.receive rcvNxt) = some h') :
    Taken b h' ∧ h'.store.cells b = some (skb, 1) := by
  obtain ⟨htext, hwrite⟩ := not_or.mp (List.mem_append.not.mp hb.outside)
  have hzero : h.queues.text.count b = 0 := List.count_eq_zero.mpr htext
  obtain ⟨s, hhold, hact⟩ := Option.bind_eq_some_iff.mp hact
  rw [hold_eq hb.cell] at hhold
  obtain rfl := Option.some.inj hhold
  obtain ⟨⟨left, receive⟩, hconsume, hact⟩ := Option.bind_eq_some_iff.mp hact
  obtain rfl := Option.some.inj hact
  obtain ⟨moved, hq, rfl⟩ := consumeOfo_some hconsume
  refine ⟨⟨hb.released, ?_, hwrite⟩, cells_set_self _⟩
  rw [Queues.text, hq] at hzero
  simp only [Queues.text, List.count_append, List.count_singleton_self] at hzero ⊢
  omega

theorem Idle.ofo {s₀ : Store Skb} (hb : Idle b skb h) (hs : Contents s₀ h.store)
    (hact : act b h .ofo = some h') : Idle b skb h' ∧ inserts s₀ skb h.queues.ofo = false ∨
      (Taken b h' ∧ h'.store.cells b = some (skb, 1)) ∧ inserts s₀ skb h.queues.ofo = true := by
  obtain ⟨htext, hwrite⟩ := not_or.mp (List.mem_append.not.mp hb.outside)
  have hzero : h.queues.text.count b = 0 := List.count_eq_zero.mpr htext
  obtain ⟨⟨s, ofo⟩, hinsert, hact⟩ := Option.bind_eq_some_iff.mp hact
  obtain rfl := Option.some.inj hact
  rcases insertOrdered_some hs hb.cell hinsert with ⟨⟨rfl, rfl⟩, hin⟩ | ⟨⟨q₁, q₂, hq, rfl, rfl⟩, hin⟩
  · exact .inl ⟨hb, hin⟩
  · refine .inr ⟨⟨⟨hb.released, ?_, hwrite⟩, cells_set_self _⟩, hin⟩
    rw [Queues.text, hq] at hzero
    simp only [Queues.text, List.count_append, List.count_cons_self] at hzero ⊢
    omega

/-- **`tcp_process` disposes of the buffer.** It queues it if its acts say so and releases it
otherwise. -/
theorem shape_some {as : List Act} (hs : Shape as) (hfree : .freeSock ∈ as → ∀ a ∈ as, ¬ Links a) :
    ∀ {s₀ : Store Skb} {h h' : Heap}, Contents s₀ h.store → Idle b skb h →
    as.foldlM (act b) h = some h' →
    Gone b h' ∧ ¬ Takes as s₀ skb h.queues.ofo ∨ Taken b h' ∧ Takes as s₀ skb h.queues.ofo := by
  induction hs with
  | free =>
    intro s₀ h h' hs hb hrun
    obtain ⟨h₁, hact, hrun⟩ := Option.bind_eq_some_iff.mp hrun
    obtain rfl := Option.some.inj hrun
    exact .inl ⟨hb.free hact, by simp [Takes]⟩
  | text ha =>
    intro s₀ h h' hs hb hrun
    obtain ⟨h₁, hact₁, hrun⟩ := Option.bind_eq_some_iff.mp hrun
    obtain ⟨h₂, hact₂, hrun⟩ := Option.bind_eq_some_iff.mp hrun
    obtain rfl := Option.some.inj hrun
    rcases ha with rfl | ⟨rcvNxt, rfl⟩
    · rcases hb.ofo hs hact₁ with ⟨hidle, hin⟩ | ⟨⟨htaken, hcell⟩, hin⟩
      · exact .inl ⟨hidle.free hact₂, by simp [Takes, hin]⟩
      · exact .inr ⟨htaken.free hcell hact₂, .inr ⟨by simp, hin⟩⟩
    · obtain ⟨htaken, hcell⟩ := hb.receive hact₁
      exact .inr ⟨htaken.free hcell hact₂, .inl ⟨rcvNxt, by simp⟩⟩
  | @leave a as ha hshape ih =>
    intro s₀ h h' hs hb hrun
    rw [List.foldlM_cons, Option.bind_eq_bind, Option.bind_eq_some_iff] at hrun
    obtain ⟨h₁, hact, hrun⟩ := hrun
    have hfree' : .freeSock ∈ as → ∀ a ∈ as, ¬ Links a := fun hin c hc =>
      hfree (List.mem_cons_of_mem _ hin) c (List.mem_cons_of_mem _ hc)
    rcases ha with rfl | ⟨una, rfl⟩
    · have hno := hfree (List.mem_cons_self ..)
      rcases ih hfree' (.refl _) (hb.freeSock hact) hrun with ⟨hgone, -⟩ | ⟨-, htakes⟩
      · exact .inl ⟨hgone, not_takes hno _ _ _⟩
      · exact absurd htakes (not_takes (fun a ha => hno a (List.mem_cons_of_mem _ ha)) _ _ _)
    · obtain ⟨hidle, hcontents, hofo⟩ := hb.clean hact
      have hiff : Takes (.clean una :: as) s₀ skb h.queues.ofo ↔ Takes as s₀ skb h₁.queues.ofo := by
        rw [hofo]
        simp [Takes]
      rw [hiff]
      exact ih hfree' (hs.trans hcontents) hidle hrun

/-! ### The handlers -/

variable {t t' : State} {mem : List UInt8} {seg : Seg} {isn : UInt32} {k : ℕ}

theorem Fresh.setSkb (hb : Fresh b t) (skb : Skb) : Fresh b (t.setSkb b skb) :=
  ⟨⟨skb, cells_set_self _⟩, hb.released, hb.queue⟩

theorem freeSkb_some (hb : Fresh b t) (hfree : freeSkb b t = some t') : Released b t' := by
  obtain ⟨skb, hcell⟩ := hb.cell
  obtain ⟨s, hrelease, rfl⟩ := Option.map_eq_some_iff.mp hfree
  rw [release_eq hcell (by omega)] at hrelease
  obtain rfl := Option.some.inj hrelease
  refine ⟨?_, hb.queue⟩
  show (t.store.released ++ [b]).count b = 1
  rw [List.count_append, hb.released, List.count_singleton_self]

/-- `tcp_process` is on one of its exits. -/
theorem shape_process {s s' : TcpSocks.State} {sk : TcpSock} (hsk : s.socks k = some sk)
    (hrun : process k seg isn s = some s') : Shape (processActs (withParent s k sk) seg) := by
  unfold process at hrun
  rw [hsk] at hrun
  simp only [Option.bind_eq_bind, Option.bind_some] at hrun
  by_cases hlisten : sk.state = .listen
  · have hacts : processActs (withParent s k sk) seg = [.free] := by
      rw [processActs, show (withParent s k sk).state = .listen from hlisten]
    exact hacts ▸ .free
  · rw [if_neg hlisten] at hrun
    refine (shape_processActs _ seg).resolve_right ?_
    rintro ⟨⟨f, hf⟩, -⟩
    rw [hf] at hrun
    split_ifs at hrun

theorem not_mem_setHeap (hb : ∀ p, b ∉ t.queue p) {p : Place} (hofo : p = .ofo k → b ∉ h.queues.ofo)
    (hreceive : p = .receive k → b ∉ h.queues.receive) (hwrite : p = .write k → b ∉ h.queues.write) :
    b ∉ (t.setHeap k h).queue p := by
  cases p with
  | ofo j =>
    by_cases hj : j = k
    · simpa only [State.queue, State.setHeap, if_pos hj] using hofo (hj ▸ rfl)
    · simpa only [State.queue, State.setHeap, if_neg hj] using hb (.ofo j)
  | receive j =>
    by_cases hj : j = k
    · simpa only [State.queue, State.setHeap, if_pos hj] using hreceive (hj ▸ rfl)
    · simpa only [State.queue, State.setHeap, if_neg hj] using hb (.receive j)
  | write j =>
    by_cases hj : j = k
    · simpa only [State.queue, State.setHeap, if_pos hj] using hwrite (hj ▸ rfl)
    · simpa only [State.queue, State.setHeap, if_neg hj] using hb (.write j)
  | udp j => exact hb (.udp j)

/-- The queues of one sock have changed. -/
theorem Gone.setHeap (hend : Gone b h) (hb : ∀ p, b ∉ t.queue p) : Released b (t.setHeap k h) := by
  obtain ⟨htext, hwrite⟩ := not_or.mp (List.mem_append.not.mp hend.outside)
  obtain ⟨hofo, hreceive⟩ := not_or.mp (List.mem_append.not.mp htext)
  exact ⟨hend.released, fun p =>
    not_mem_setHeap hb (fun _ => hofo) (fun _ => hreceive) (fun _ => hwrite)⟩

theorem Taken.setHeap (hend : Taken b h) (hb : ∀ p, b ∉ t.queue p) : Queued b (t.setHeap k h) := by
  have htext := hend.text
  rw [Queues.text, List.count_append] at htext
  by_cases hin : b ∈ h.queues.ofo
  · have hpos : 0 < h.queues.ofo.count b := List.count_pos_iff.mpr hin
    have hreceive : b ∉ h.queues.receive := List.count_eq_zero.mp (by omega)
    refine ⟨hend.released, .ofo k, fun _ h => (by cases h), ?_, fun p hp =>
      not_mem_setHeap hb (fun heq => absurd heq hp) (fun _ => hreceive) (fun _ => hend.write)⟩
    simp only [State.queue, State.setHeap, if_true]
    omega
  · have hzero : h.queues.ofo.count b = 0 := List.count_eq_zero.mpr hin
    refine ⟨hend.released, .receive k, fun _ h => (by cases h), ?_, fun p hp =>
      not_mem_setHeap hb (fun _ => hin) (fun heq => absurd heq hp) (fun _ => hend.write)⟩
    simp only [State.queue, State.setHeap, if_true]
    omega

theorem Fresh.idle (hb : Fresh b t) (hcell : t.store.cells b = some (skb, 0)) (k : ℕ) :
    Idle b skb ⟨t.store, t.tcpQueues k⟩ := by
  refine ⟨hcell, hb.released, fun hin => ?_⟩
  rcases List.mem_append.mp hin with hin | hin
  · rcases List.mem_append.mp hin with hin | hin
    · exact hb.queue (.ofo k) hin
    · exact hb.queue (.receive k) hin
  · exact hb.queue (.write k) hin

/-- `tcp_in` finds a sock for the segment that queues it. -/
def TcpTakes (seg : Seg) (s : State) : Prop :=
  ∃ k sk, tcpLookupSock seg.saddr seg.th.sport seg.daddr seg.th.dport s.tcp = some (some (.sock k)) ∧
    s.tcp.socks k = some sk ∧ Takes (processActs (withParent s.tcp k sk) seg) s.store
      (tcpInitSegment seg) (s.tcpQueues k).ofo

theorem tcpIn_some (hb : Fresh b t) (hcell : t.store.cells b = some (tcpInitSegment seg, 0))
    (hrun : tcpIn b seg isn t = some t') :
    Released b t' ∧ ¬ TcpTakes seg t ∨ Queued b t' ∧ TcpTakes seg t := by
  obtain ⟨found, hfound, hrun⟩ := Option.bind_eq_some_iff.mp hrun
  split at hrun
  · rename_i k
    obtain ⟨sk, hsk, hrun⟩ := Option.bind_eq_some_iff.mp hrun
    obtain ⟨tcp, hprocess, hrun⟩ := Option.bind_eq_some_iff.mp hrun
    obtain ⟨h, hacts, hrun⟩ := Option.bind_eq_some_iff.mp hrun
    obtain rfl := Option.some.inj hrun
    rcases shape_some (shape_process hsk hprocess) freeSock_processActs (.refl _) (hb.idle hcell k)
      hacts with ⟨hgone, hno⟩ | ⟨htaken, htakes⟩
    · refine .inl ⟨hgone.setHeap hb.queue, ?_⟩
      rintro ⟨k', sk', hfound', hsk', htakes⟩
      obtain rfl := Node.sock.inj (Option.some.inj (Option.some.inj (hfound.symm.trans hfound')))
      obtain rfl := Option.some.inj (hsk.symm.trans hsk')
      exact hno htakes
    · exact .inr ⟨htaken.setHeap hb.queue, k, sk, hfound, hsk, htakes⟩
  · rename_i hno
    refine .inl ⟨freeSkb_some hb hrun, ?_⟩
    rintro ⟨k, -, hk, -⟩
    exact hno k (Option.some.inj (hfound.symm.trans hk))

/-- No buffer stops `tcp_in`: where the buffers of the sock are in order, it ends as `tcp_process`
does. -/
theorem tcpIn_runs {w : Queues Skb} {tcp : TcpSocks.State} {sk : TcpSock} (hb : Fresh b t)
    (hcounted : Counted ⟨t.store, t.tcpQueues k⟩) (hshows : Shows ⟨t.store, t.tcpQueues k⟩ w)
    (hcell : t.store.cells b = some (skb, 0)) (hskb : skb.refcnt = 0)
    (hfound : tcpLookupSock seg.saddr seg.th.sport seg.daddr seg.th.dport t.tcp = some (some (.sock k)))
    (hsk : t.tcp.socks k = some sk) (hprocess : process k seg isn t.tcp = some tcp) :
    ∃ t', tcpIn b seg isn t = some t' := by
  have hout : b ∉ (t.tcpQueues k).all := (hb.idle hcell k).outside
  obtain ⟨h, hacts, -⟩ := (shape_process hsk hprocess).run hskb hcounted hshows ⟨hcell, hout⟩
  refine ⟨{ t.setHeap k h with tcp := tcp }, ?_⟩
  rw [tcpIn, hfound]
  simp only [Option.bind_eq_bind, Option.bind_some, hsk, hprocess, hacts]

@[simp] theorem queue_cache (t : State) (cache : List ArpCacheEntry) (p : Place) :
    State.queue { t with cache := cache } p = t.queue p := by
  cases p <;> rfl

theorem Fresh.cache (hb : Fresh b t) (cache : List ArpCacheEntry) : Fresh b { t with cache := cache } :=
  ⟨hb.cell, hb.released, fun p => by
    rw [queue_cache]
    exact hb.queue p⟩

/-- The memory of a buffer with a frame. -/
def rxBuf (bs : List UInt8) (h : bs.length ≤ buflen) : RxBuf :=
  ⟨bs ++ List.replicate (buflen - bs.length) 0, by simp [h]⟩

/-- A started stack with one new buffer. -/
def started : State := { init with store := init.store.alloc {} }

theorem fresh_started : Fresh 0 started :=
  ⟨⟨{}, rfl⟩, rfl, fun p => by cases p <;> exact List.not_mem_nil⟩

end ToyIP.Stack.Frames
