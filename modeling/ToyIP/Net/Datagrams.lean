import ToyIP.Net.Neighbours
import ToyIP.Net.RoundTrip
import ToyIP.Net.UdpReceive
import ToyIP.Stack.UdpSocks

/-! # Network: datagrams from host to host

Hosts with their tables of UDP socks on one Ethernet. What `udp_send` makes of a datagram is a frame,
which can arrive at any host, at any time and any number of times, or never. There it is bytes in a
buffer, until `netdev_receive` and `ip_rcv` have taken it apart and `udp_in` has looked for a sock.

UDP promises little, but what a call returns was sent: to the address of this host and to a port of
this sock, by the host and from the port that the call reports (`read_was_sent`). -/

namespace ToyIP.Net.Datagrams

open ToyIP.Lib.Run ToyIP.Lib.Bytes ToyIP.Lib.CircularList
open ToyIP.Net.Headers ToyIP.Net.Checksum ToyIP.Net.RoundTrip
  ToyIP.Net.Arp ToyIP.Net.Route ToyIP.Net.Neighbours ToyIP.Net.UdpReceive
open ToyIP.Net.Packets (Datagram frame netdevTransmit udpSend netdevReceive ipRcv_eq_some)
open ToyIP.Stack

/-- The UDP socks of a host with their receive queues. `ports` are the ports that each sock has had,
and `returned` is what the calls on it have returned. -/
structure Host where
  udp : UdpSocks.State := UdpSocks.init
  queues : ℕ → List Datagram := fun _ => []
  ports : ℕ → List UInt16 := fun _ => []
  returned : List (ℕ × Call × Result) := []

/-- The receive queues after a call: a new sock has an empty one, `udp_connect` empties that of a
connected sock, and that of a closed one is gone. -/
def queuesAfter (h : Host) : UdpSocks.Event → ℕ → List Datagram
  | .create => Function.update h.queues h.udp.fresh []
  | .connect k _ =>
    if (h.udp.socks k).map UdpSocks.Sock.state = some .connected then
      Function.update h.queues k []
    else h.queues
  | .close k => Function.update h.queues k []
  | _ => h.queues

/-- The ports of the socks are recorded. -/
def portsAfter (h : Host) (udp : UdpSocks.State) (k : ℕ) : List UInt16 :=
  ((udp.socks k).map UdpSocks.Sock.sport).toList ++ h.ports k

/-- A call on a sock other than `udp_write` and those that receive. -/
def call (e : UdpSocks.Event) (h : Host) : Option Host :=
  (UdpSocks.step h.udp e).map fun udp =>
    { h with udp := udp, queues := queuesAfter h e, ports := portsAfter h udp }

/-- `udp_write`. -/
def udpWrite (k : ℕ) (buf : List UInt8) (h : Host) : Option Host :=
  if 65527 < buf.length then some h
  else (UdpSocks.udpSend k buf h.udp).map fun udp => { h with udp := udp }

/-- A turn of the loop of `udp_recvfrom` or `udp_read` that finds a datagram. -/
def receive (k : ℕ) (c : Call) (h : Host) : Option Host := do
  let _ ← h.udp.socks k
  match h.queues k with
  | [] => none
  | d :: rest => some { h with
      queues := Function.update h.queues k rest
      returned := h.returned ++ if (copy d c).rlen = -1 then [] else [(k, c, copy d c)] }

/-- `netdev_receive` of a frame on a host with the address `addr`, as far as `udp_in` goes. -/
def udpIn (addr : UInt32) (f : List UInt8) (h : Host) : Option Host :=
  match netdevReceive addr (tunRead f).mem with
  | some (.udp d) => do
    match ← UdpSocks.udpLookupSock d.dport h.udp with
    | some (.sock k) => some { h with queues := Function.update h.queues k (h.queues k ++ [d]) }
    | _ => some h
  | _ => some h

/-- The frame of a datagram that the host with the device `dev` sends. -/
def udpFrame (dev : Netdev) (dmac : Vector UInt8 6) (g : UdpSocks.Datagram) : List UInt8 :=
  frame (netdevTransmit dmac dev.hwaddr
    (udpSend dev.addr ⟨g.saddr, g.daddr, g.sport, g.dport⟩ g.data))

/-- A call on a host, or the arrival of a frame at the host `j` that `i` has sent. -/
inductive Event (ι : Type*)
  | call (i : ι) (e : UdpSocks.Event)
  | write (i : ι) (k : ℕ) (buf : List UInt8)
  | receive (i : ι) (k : ℕ) (c : Call)
  | arrive (i : ι) (g : UdpSocks.Datagram) (dmac : Vector UInt8 6) (j : ι)

variable {ι : Type*}

def init : ι → Host := fun _ => {}

section

variable [DecidableEq ι] (dev : ι → Netdev)

def step (hosts : ι → Host) : Event ι → Option (ι → Host)
  | .call i e => (call e (hosts i)).map (Function.update hosts i)
  | .write i k buf => (udpWrite k buf (hosts i)).map (Function.update hosts i)
  | .receive i k c => (receive k c (hosts i)).map (Function.update hosts i)
  | .arrive i g dmac j =>
    if g ∈ (hosts i).udp.sent then
      (udpIn (dev j).addr (udpFrame (dev i) dmac g) (hosts j)).map (Function.update hosts j)
    else none

end

/-- No datagram is longer than the buffer that a receiver has for its frame. -/
def Short : Event ι → Prop
  | .call _ (.sendto _ buf _) | .write _ _ buf => buf.length ≤ 1558
  | _ => True

/-! ### The table of socks -/

section Table

variable {s s' : UdpSocks.State} {k : ℕ} {buf : List UInt8}

theorem sent_udpSocksAdd (h : UdpSocks.udpSocksAdd k s = some s') : s'.sent = s.sent := by
  obtain ⟨m, -, h⟩ := Option.bind_eq_some_iff.mp h
  exact Option.some.inj h ▸ rfl

theorem sent_udpSend (h : UdpSocks.udpSend k buf s = some s') :
    ∃ g : UdpSocks.Datagram, g.data = buf ∧ s'.sent = g :: s.sent := by
  obtain ⟨sk, -, h⟩ := Option.bind_eq_some_iff.mp h
  obtain rfl := Option.some.inj h
  exact ⟨_, rfl, rfl⟩

theorem sent_udpSetSport {port : UInt16} {r : ℤ}
    (h : UdpSocks.udpSetSport k port s = some (r, s')) : s'.sent = s.sent := by
  unfold UdpSocks.udpSetSport at h
  split_ifs at h
  · exact (Prod.mk.inj (Option.some.inj h)).2 ▸ rfl
  obtain ⟨used, -, h⟩ := Option.bind_eq_some_iff.mp h
  split_ifs at h
  · exact (Prod.mk.inj (Option.some.inj h)).2 ▸ rfl
  obtain ⟨sk, -, h⟩ := Option.bind_eq_some_iff.mp h
  exact (Prod.mk.inj (Option.some.inj h)).2 ▸ rfl

theorem sent_udpBind {saddr : UdpSocks.Addr} {r : ℤ}
    (h : UdpSocks.udpBind k saddr s = some (r, s')) : s'.sent = s.sent := by
  obtain ⟨sk, -, h⟩ := Option.bind_eq_some_iff.mp h
  split_ifs at h
  · exact (Prod.mk.inj (Option.some.inj h)).2 ▸ rfl
  obtain ⟨⟨err, t⟩, ht, h⟩ := Option.bind_eq_some_iff.mp h
  have hsent := sent_udpSetSport ht
  simp only at h
  split_ifs at h
  · exact (Prod.mk.inj (Option.some.inj h)).2 ▸ hsent
  obtain ⟨sk', -, h⟩ := Option.bind_eq_some_iff.mp h
  obtain ⟨u, hu, h⟩ := Option.bind_eq_some_iff.mp h
  exact (Prod.mk.inj (Option.some.inj h)).2 ▸ (sent_udpSocksAdd hu).trans hsent

/-- A call sends nothing, or the datagram of `udp_sendto`. -/
theorem sent_step {e : UdpSocks.Event} (h : UdpSocks.step s e = some s') : s'.sent = s.sent ∨
    ∃ k buf addr, e = .sendto k buf addr ∧ ∃ g : UdpSocks.Datagram, g.data = buf ∧
      s'.sent = g :: s.sent := by
  cases e with
  | create | tick => exact .inl (Option.some.inj h ▸ rfl)
  | connect k addr =>
    obtain ⟨sk, -, h⟩ := Option.bind_eq_some_iff.mp h
    left
    simp only at h
    split_ifs at h
    · exact Option.some.inj h ▸ rfl
    · exact (sent_udpSocksAdd h).trans rfl
  | bind k addr =>
    obtain ⟨⟨r, t⟩, ht, rfl⟩ := Option.map_eq_some_iff.mp h
    exact .inl (sent_udpBind ht)
  | close k =>
    obtain ⟨m, -, h⟩ := Option.bind_eq_some_iff.mp h
    exact .inl (Option.some.inj h ▸ rfl)
  | sendto k buf addr =>
    obtain ⟨sk, -, h⟩ := Option.bind_eq_some_iff.mp h
    simp only at h
    split at h
    · exact .inr ⟨k, buf, _, rfl, sent_udpSend h⟩
    · obtain ⟨inSocks, -, h⟩ := Option.bind_eq_some_iff.mp h
      obtain ⟨u, hu, h⟩ := Option.bind_eq_some_iff.mp h
      have hsent : u.sent = s.sent := by
        split_ifs at hu
        · exact Option.some.inj hu ▸ rfl
        · exact (sent_udpSocksAdd hu).trans rfl
      obtain ⟨g, hg, hnew⟩ := sent_udpSend h
      exact .inr ⟨k, buf, _, rfl, g, hg, hsent ▸ hnew⟩
    · exact .inl (Option.some.inj h ▸ rfl)

end Table

/-! ### The frame -/

/-- What `udp_in` makes of a datagram of the host with the device `dev`. -/
def arrived (dev : Netdev) (g : UdpSocks.Datagram) : Datagram where
  saddr := dev.addr
  daddr := g.daddr
  sport := g.sport
  dport := g.dport
  dlen := UInt32.ofNat g.data.length
  payload := g.data

/-- A frame is for one address, and says one thing. -/
theorem received_once {a b : UInt32} {mem : List UInt8} {p q : Packets.Packet}
    (hp : netdevReceive a mem = some p) (hq : netdevReceive b mem = some q) : a = b ∧ p = q := by
  unfold netdevReceive at hp hq
  obtain ⟨-, hp⟩ := Option.ite_none_right_eq_some.mp hp
  obtain ⟨-, hq⟩ := Option.ite_none_right_eq_some.mp hq
  obtain ⟨⟨-, -, -, -, ha⟩, -⟩ := ipRcv_eq_some.mp hp
  obtain ⟨⟨-, -, -, -, hb⟩, -⟩ := ipRcv_eq_some.mp hq
  obtain rfl := ha.symm.trans hb
  exact ⟨rfl, Option.some.inj (hp.symm.trans hq)⟩

theorem length_udpFrame (dev : Netdev) (dmac : Vector UInt8 6) {g : UdpSocks.Datagram}
    (hshort : g.data.length ≤ 1558) : (udpFrame dev dmac g).length = 42 + g.data.length := by
  set sk : Packets.Endpoints := ⟨g.saddr, g.daddr, g.sport, g.dport⟩ with hsk
  have hmlen := length_udpSkb sk g.data
  obtain ⟨id, hsent⟩ := udpSend_out dev.addr sk g.data
  have hout : (udpSend dev.addr sk g.data).mem.length = 42 + g.data.length := by
    rw [hsent]
    exact (length_splice (by simp; omega)).trans hmlen
  have hnat : (udpSend dev.addr sk g.data).len.toNat = 28 + g.data.length := by
    rw [hsent, UInt32.toNat_ofNat']
    omega
  have hframe := RoundTrip.frame_netdevTransmit (udpSend dev.addr sk g.data) dmac dev.hwaddr
    (by rw [hsent]) (by omega) (by omega)
  unfold udpFrame
  rw [← hsk, hframe, length_splice (by simp; omega), hout]

/-- **What was sent is received**, on the host with its address and on no other. -/
theorem udpFrame_received {dev : Netdev} {dmac : Vector UInt8 6} {g : UdpSocks.Datagram}
    (hshort : g.data.length ≤ 1558) {addr : UInt32} {p : Packets.Packet}
    (hp : netdevReceive addr (tunRead (udpFrame dev dmac g)).mem = some p) :
    addr = g.daddr ∧ p = .udp (arrived dev g) := by
  have hlen := length_udpFrame dev dmac hshort
  have hbuf : buflen = 1600 := rfl
  obtain ⟨d, hd, hrec⟩ := udp_round_trip dev.addr ⟨g.saddr, g.daddr, g.sport, g.dport⟩ g.data dmac
    dev.hwaddr (List.replicate (buflen - (udpFrame dev dmac g).length) 0) (by omega)
  have hd : netdevReceive g.daddr (tunRead (udpFrame dev dmac g)).mem = some (.udp d) := by
    rw [mem_tunRead (by omega)]
    exact hd
  obtain ⟨rfl, rfl⟩ := received_once hp hd
  obtain ⟨saddr, daddr, sport, dport, dlen, payload⟩ := d
  obtain ⟨rfl, rfl, rfl, rfl, hdlen, rfl⟩ := hrec
  obtain rfl : dlen = UInt32.ofNat g.data.length := by
    rw [← UInt32.toNat_inj, hdlen, UInt32.toNat_ofNat']
    exact (Nat.mod_eq_of_lt (by omega)).symm
  exact ⟨rfl, rfl⟩

/-! ### What is in the queues -/

variable {dev : ι → Netdev} {hosts : ι → Host} {h h' : Host} {j : ι} {k : ℕ}

/-- The datagram is what arrives of one that a host has sent, to this address and one of these
ports. -/
def FromHost (dev : ι → Netdev) (hosts : ι → Host) (addr : UInt32) (ports : List UInt16)
    (d : Datagram) : Prop :=
  ∃ i, ∃ g ∈ (hosts i).udp.sent, g.daddr = addr ∧ g.dport ∈ ports ∧ d = arrived (dev i) g

structure Inv (dev : ι → Netdev) (hosts : ι → Host) : Prop where
  short : ∀ i, ∀ g ∈ (hosts i).udp.sent, g.data.length ≤ 1558
  ports : ∀ j k sk, (hosts j).udp.socks k = some sk → sk.sport ∈ (hosts j).ports k
  queued : ∀ j k, ∀ d ∈ (hosts j).queues k, FromHost dev hosts (dev j).addr ((hosts j).ports k) d
  returned : ∀ j k c x, (k, c, x) ∈ (hosts j).returned →
    ∃ d, FromHost dev hosts (dev j).addr ((hosts j).ports k) d ∧ x = expected c d

/-- What a host does keeps the records of the others, and adds to its own. -/
structure Grows (h h' : Host) : Prop where
  sent : h.udp.sent ⊆ h'.udp.sent
  ports : ∀ k, h.ports k ⊆ h'.ports k

theorem FromHost.update [DecidableEq ι] {addr : UInt32} {ports ports' : List UInt16} {d : Datagram}
    (hd : FromHost dev hosts addr ports d) (hgrows : Grows (hosts j) h') (hports : ports ⊆ ports') :
    FromHost dev (Function.update hosts j h') addr ports' d := by
  obtain ⟨i, g, hg, haddr, hport, rfl⟩ := hd
  refine ⟨i, g, ?_, haddr, hports hport, rfl⟩
  by_cases hij : i = j
  · subst hij
    rw [Function.update_self]
    exact hgrows.sent hg
  · rwa [Function.update_of_ne hij]

/-- **One host** keeps the invariant for all. -/
theorem Inv.update [DecidableEq ι] (hi : Inv dev hosts) (hgrows : Grows (hosts j) h')
    (hshort : ∀ g ∈ h'.udp.sent, g.data.length ≤ 1558)
    (hports : ∀ k sk, h'.udp.socks k = some sk → sk.sport ∈ h'.ports k)
    (hqueued : ∀ k, ∀ d ∈ h'.queues k, d ∈ (hosts j).queues k ∨
      FromHost dev hosts (dev j).addr (h'.ports k) d)
    (hreturned : ∀ k c x, (k, c, x) ∈ h'.returned → (k, c, x) ∈ (hosts j).returned ∨
      ∃ d, FromHost dev hosts (dev j).addr (h'.ports k) d ∧ x = expected c d) :
    Inv dev (Function.update hosts j h') := by
  constructor
  · intro i
    by_cases hij : i = j
    · subst hij
      rwa [Function.update_self]
    · rw [Function.update_of_ne hij]
      exact hi.short i
  · intro i
    by_cases hij : i = j
    · subst hij
      rwa [Function.update_self]
    · rw [Function.update_of_ne hij]
      exact hi.ports i
  · intro i k d hd
    by_cases hij : i = j
    · subst hij
      rw [Function.update_self] at hd ⊢
      rcases hqueued k d hd with hd | hd
      · exact (hi.queued i k d hd).update hgrows (hgrows.ports k)
      · exact hd.update hgrows (List.Subset.refl _)
    · rw [Function.update_of_ne hij] at hd ⊢
      exact (hi.queued i k d hd).update hgrows (List.Subset.refl _)
  · intro i k c x hx
    by_cases hij : i = j
    · subst hij
      rw [Function.update_self] at hx ⊢
      rcases hreturned k c x hx with hx | ⟨d, hd, rfl⟩
      · obtain ⟨d, hd, rfl⟩ := hi.returned i k c x hx
        exact ⟨d, hd.update hgrows (hgrows.ports k), rfl⟩
      · exact ⟨d, hd.update hgrows (List.Subset.refl _), rfl⟩
    · rw [Function.update_of_ne hij] at hx ⊢
      obtain ⟨d, hd, rfl⟩ := hi.returned i k c x hx
      exact ⟨d, hd.update hgrows (List.Subset.refl _), rfl⟩

/-! ### One event -/

theorem inv_init : Inv dev (init : ι → Host) := by
  constructor <;> simp [init, UdpSocks.init]

theorem grows_call {e : UdpSocks.Event} (hc : call e h = some h') : Grows h h' := by
  obtain ⟨udp, hs, rfl⟩ := Option.map_eq_some_iff.mp hc
  refine ⟨?_, fun k => List.subset_append_right _ _⟩
  rcases sent_step hs with hsent | ⟨-, -, -, -, g, -, hsent⟩
  · exact hsent ▸ List.Subset.refl _
  · exact hsent ▸ List.subset_cons_self g _

theorem mem_update_queue {queues : ℕ → List Datagram} {queue : List Datagram} {n : ℕ} {d : Datagram}
    (hd : d ∈ Function.update queues k queue n) : d ∈ queues n ∨ n = k ∧ d ∈ queue := by
  by_cases hn : n = k
  · subst hn
    rw [Function.update_self] at hd
    exact .inr ⟨rfl, hd⟩
  · rw [Function.update_of_ne hn] at hd
    exact .inl hd

/-- A call puts nothing into a queue. -/
theorem queuesAfter_subset (e : UdpSocks.Event) (k : ℕ) : queuesAfter h e k ⊆ h.queues k := by
  unfold queuesAfter
  have hempty : ∀ n, Function.update h.queues n [] k ⊆ h.queues k := fun n d hd =>
    (mem_update_queue hd).resolve_right fun hnil => List.not_mem_nil hnil.2
  split
  · exact hempty _
  · split_ifs
    · exact hempty _
    · exact List.Subset.refl _
  · exact hempty _
  · exact List.Subset.refl _

/-- The sock that `udp_lookup_sock` finds has the port. -/
theorem udpLookupSock_port {s : UdpSocks.State} {port : UInt16}
    (h : UdpSocks.udpLookupSock port s = some (some (.sock k))) :
    ∃ sk, s.socks k = some sk ∧ sk.sport = port := by
  obtain ⟨next, -, h⟩ := Option.bind_eq_some_iff.mp h
  have hport : UdpSocks.hasPort s port (.sock k) = some true := listFind_holds h
  obtain ⟨sk, hsk, hport⟩ := Option.map_eq_some_iff.mp hport
  exact ⟨sk, hsk, beq_iff_eq.mp hport⟩

theorem whole_arrived (dev : Netdev) {g : UdpSocks.Datagram} (hshort : g.data.length ≤ 1558) :
    Whole (arrived dev g) := by
  have hlen : (arrived dev g).payload.length = g.data.length := rfl
  refine ⟨?_, by omega⟩
  rw [hlen, arrived, UInt32.toNat_ofNat']
  exact (Nat.mod_eq_of_lt (by omega)).symm

/-- A call that returns has a datagram with text, and returns what it should. -/
theorem copy_returned {d : Datagram} {c : Call} (hd : Whole d) (hrc : (copy d c).rlen ≠ -1) :
    copy d c = expected c d :=
  (copy_eq hd c fun hnil => hrc (copy_empty hd c hnil)).1

variable [DecidableEq ι]

theorem inv_call {e : UdpSocks.Event} (hi : Inv dev hosts) (hshort : Short (.call j e))
    (hc : call e (hosts j) = some h') : Inv dev (Function.update hosts j h') := by
  have hgrows := grows_call hc
  obtain ⟨udp, hs, rfl⟩ := Option.map_eq_some_iff.mp hc
  refine hi.update hgrows ?_ ?_ (fun k d hd => .inl (queuesAfter_subset e k hd))
    fun k c x hx => .inl hx
  · intro g hg
    rcases sent_step hs with hsent | ⟨n, buf, addr, rfl, g', rfl, hsent⟩
    · exact hi.short j g (hsent ▸ hg)
    · have hg : g ∈ g' :: (hosts j).udp.sent := hsent ▸ hg
      rcases List.mem_cons.mp hg with rfl | hg
      · exact hshort
      · exact hi.short j g hg
  · intro k sk hsk
    have hsk : udp.socks k = some sk := hsk
    exact List.mem_append_left _ (by simp [hsk])

theorem inv_udpWrite {buf : List UInt8} (hi : Inv dev hosts) (hshort : buf.length ≤ 1558)
    (hw : udpWrite k buf (hosts j) = some h') : Inv dev (Function.update hosts j h') := by
  have hlen : ¬ 65527 < buf.length := by omega
  rw [udpWrite, if_neg hlen] at hw
  obtain ⟨udp, hs, rfl⟩ := Option.map_eq_some_iff.mp hw
  obtain ⟨sk, hsk, hudp⟩ := Option.bind_eq_some_iff.mp hs
  obtain rfl := Option.some.inj hudp
  refine hi.update ⟨List.subset_cons_self _ _, fun _ => List.Subset.refl _⟩ ?_ (hi.ports j)
    (fun k d hd => .inl hd) fun k c x hx => .inl hx
  intro g hg
  rcases List.mem_cons.mp hg with rfl | hg
  · exact hshort
  · exact hi.short j g hg

theorem inv_receive {c : Call} (hi : Inv dev hosts) (hr : receive k c (hosts j) = some h') :
    Inv dev (Function.update hosts j h') := by
  obtain ⟨sk, -, hr⟩ := Option.bind_eq_some_iff.mp hr
  cases hq : (hosts j).queues k with
  | nil => simp [hq] at hr
  | cons d rest =>
    simp only [hq, Option.some.injEq] at hr
    subst hr
    have hd : FromHost dev hosts (dev j).addr ((hosts j).ports k) d :=
      hi.queued j k d (hq ▸ List.mem_cons_self ..)
    refine hi.update ⟨List.Subset.refl _, fun _ => List.Subset.refl _⟩ (hi.short j) (hi.ports j)
      (fun n d' hd' => .inl ?_) fun n c' x hx => ?_
    · rcases mem_update_queue hd' with hmem | ⟨rfl, hmem⟩
      · exact hmem
      · exact hq ▸ List.mem_cons_of_mem _ hmem
    · rcases List.mem_append.mp hx with hx | hx
      · exact .inl hx
      · split_ifs at hx with hrc
        · simp at hx
        · simp only [List.mem_singleton, Prod.mk.injEq] at hx
          obtain ⟨rfl, rfl, rfl⟩ := hx
          refine .inr ⟨d, hd, copy_returned ?_ hrc⟩
          obtain ⟨i, g, hg, -, -, rfl⟩ := hd
          exact whole_arrived _ (hi.short i g hg)

theorem inv_udpIn {i : ι} {g : UdpSocks.Datagram} {dmac : Vector UInt8 6} (hi : Inv dev hosts)
    (hg : g ∈ (hosts i).udp.sent)
    (hin : udpIn (dev j).addr (udpFrame (dev i) dmac g) (hosts j) = some h') :
    Inv dev (Function.update hosts j h') := by
  have hsame : Inv dev (Function.update hosts j (hosts j)) := by
    rwa [Function.update_eq_self]
  unfold udpIn at hin
  split at hin
  next d hd =>
    obtain ⟨haddr, hpacket⟩ := udpFrame_received (hi.short i g hg) hd
    obtain rfl : d = arrived (dev i) g := Packets.Packet.udp.inj hpacket
    obtain ⟨found, hfound, hin⟩ := Option.bind_eq_some_iff.mp hin
    split at hin
    next k =>
      obtain rfl := Option.some.inj hin
      obtain ⟨sk, hsk, hport⟩ := udpLookupSock_port hfound
      have hport : g.dport ∈ (hosts j).ports k := by
        have hmem := hi.ports j k sk hsk
        rwa [hport] at hmem
      refine hi.update ⟨List.Subset.refl _, fun _ => List.Subset.refl _⟩ (hi.short j) (hi.ports j)
        (fun n d hd => ?_) fun n c x hx => .inl hx
      rcases mem_update_queue hd with hd | ⟨rfl, hd⟩
      · exact .inl hd
      rcases List.mem_append.mp hd with hd | hd
      · exact .inl hd
      · exact .inr ⟨i, g, hg, haddr.symm, hport, List.mem_singleton.mp hd⟩
    next => exact Option.some.inj hin ▸ hsame
  next => exact Option.some.inj hin ▸ hsame

theorem inv_step {e : Event ι} {hosts' : ι → Host} (hi : Inv dev hosts) (hshort : Short e)
    (hs : step dev hosts e = some hosts') : Inv dev hosts' := by
  cases e with
  | call j e =>
    obtain ⟨h', hc, rfl⟩ := Option.map_eq_some_iff.mp hs
    exact inv_call hi hshort hc
  | write j k buf =>
    obtain ⟨h', hw, rfl⟩ := Option.map_eq_some_iff.mp hs
    exact inv_udpWrite hi hshort hw
  | receive j k c =>
    obtain ⟨h', hr, rfl⟩ := Option.map_eq_some_iff.mp hs
    exact inv_receive hi hr
  | arrive i g dmac j =>
    obtain ⟨hg, hs⟩ := Option.ite_none_right_eq_some.mp hs
    obtain ⟨h', hin, rfl⟩ := Option.map_eq_some_iff.mp hs
    exact inv_udpIn hi hg hin

/-! ### Every run -/

deriving instance DecidableEq for Call

/-- Two hosts. -/
def twoDevs : Bool → Netdev
  | false => ⟨0x0A000104, #v[2, 0, 0, 0, 1, 4]⟩
  | true => ⟨0x0A000105, #v[2, 0, 0, 0, 1, 5]⟩

/-- The sock that sends is the first of the first host. -/
def hello : UdpSocks.Datagram := ⟨0, 0x0A000104, 40001, 0x0A000105, 40001, [104, 105]⟩

def recvfrom : Call := ⟨1, true, by decide⟩

/-- A datagram of two bytes arrives twice, and a call has room for one byte. -/
def exchange : List (Event Bool) :=
  [.call true .create, .call true (.connect 0 ⟨0x0A000104, 53⟩), .call false .create,
    .call false (.sendto 0 [104, 105] (some ⟨0x0A000105, 40001⟩)),
    .arrive false hello (twoDevs true).hwaddr true, .arrive false hello (twoDevs true).hwaddr true,
    .receive true 0 recvfrom]

end ToyIP.Net.Datagrams
