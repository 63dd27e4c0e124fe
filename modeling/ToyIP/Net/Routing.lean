import ToyIP.Net.Route

/-! # Network: the route of a packet

`ip_output` calls `route_lookup` with the destination in the header of the buffer, and writes that
destination later. In a new buffer it reads 0, in one that is sent again the destination in network
byte order, and in the answer to a request the address of this host. `routed_iff` says for which
tables this makes no difference, and for which destinations the table of `route_init` does what its
entries are for: their own addresses match nothing under their netmasks, and `RT_HOST` contains the
bit of `RT_GATEWAY`. -/

namespace ToyIP.Net.Routing

open ToyIP.Lib.Bytes ToyIP.Net.Checksum ToyIP.Net.Headers ToyIP.Net.RoundTrip ToyIP.Net.Arp
  ToyIP.Net.Route
open ToyIP.Net.Packets (ipHdr)

/-! ### The entry found -/

def Matches (rt : Rtentry) (a : UInt32) : Prop := rt.netmask &&& a = rt.dst

instance (rt : Rtentry) (a : UInt32) : Decidable (Matches rt a) := inferInstanceAs (Decidable (_ = _))

/-- The position at which the loop of `route_lookup` ends: the first entry that matches, or the last
one. -/
def stop (a : UInt32) : List Rtentry → ℕ
  | rt :: rt' :: rest => if Matches rt a then 0 else stop a (rt' :: rest) + 1
  | _ => 0

theorem routeLookupFrom_eq (a : UInt32) (rt : Rtentry) (rest : List Rtentry) (prev : Option Rtentry) :
    routeLookupFrom a prev (rt :: rest) = (rt :: rest)[stop a (rt :: rest)]? := by
  induction rest generalizing rt prev with
  | nil => rw [routeLookupFrom, routeLookupFrom, ite_self]; rfl
  | cons rt' rest ih =>
    rw [stop]
    show (if Matches rt a then some rt else routeLookupFrom a (some rt) (rt' :: rest)) = _
    split_ifs with h
    · rfl
    · rw [ih, List.getElem?_cons_succ]

theorem routeLookup_eq (routes : List Rtentry) (a : UInt32) :
    routeLookup routes a = routes[stop a routes]? := by
  cases routes with
  | nil => rfl
  | cons rt rest => exact routeLookupFrom_eq a rt rest none

/-- As far as the loop goes for `a`, less the last entry, `a` and `b` match the same entries. -/
def Alike (a b : UInt32) (routes : List Rtentry) : Prop :=
  ∀ xs rt ys, routes = xs ++ rt :: ys → ys ≠ [] → (∀ r ∈ xs, ¬ Matches r a) →
    (Matches rt a ↔ Matches rt b)

theorem alike_cons {a b : UInt32} {rt rt' : Rtentry} {rest : List Rtentry} :
    Alike a b (rt :: rt' :: rest) ↔
      (Matches rt a ↔ Matches rt b) ∧ (¬ Matches rt a → Alike a b (rt' :: rest)) := by
  constructor
  · intro h
    refine ⟨h [] rt (rt' :: rest) rfl (by simp) (by simp), fun hno xs r ys heq hys hxs => ?_⟩
    refine h (rt :: xs) r ys (by rw [heq]; rfl) hys fun r' hr' => ?_
    rcases List.mem_cons.mp hr' with rfl | hr'
    · exact hno
    · exact hxs r' hr'
  · rintro ⟨hiff, hrest⟩ xs r ys heq hys hxs
    cases xs with
    | nil =>
      obtain ⟨rfl, -⟩ := List.cons.inj heq
      exact hiff
    | cons x xs =>
      obtain ⟨rfl, htail⟩ := List.cons.inj heq
      exact hrest (hxs rt (by simp)) xs r ys htail hys
        fun r' hr' => hxs r' (List.mem_cons_of_mem _ hr')

theorem stop_eq_iff {a b : UInt32} {routes : List Rtentry} :
    stop a routes = stop b routes ↔ Alike a b routes := by
  match routes with
  | [] => exact iff_of_true rfl fun xs rt ys heq => by simp at heq
  | [rt] =>
    refine iff_of_true rfl fun xs r ys heq hys => ?_
    have hlen := congrArg List.length heq
    have hpos := List.length_pos_iff.mpr hys
    simp at hlen
    omega
  | rt :: rt' :: rest =>
    rw [stop, stop, alike_cons]
    by_cases ha : Matches rt a <;> by_cases hb : Matches rt b
    · simp [ha, hb]
    · simp [ha, hb]
    · simp [ha, hb]
    · simp only [ha, hb, if_false, Nat.add_right_cancel_iff, not_false_eq_true, iff_self, true_and,
        true_implies]
      exact stop_eq_iff

/-! ### The property -/

/-- The route that `ip_output` uses is the entry of the destination. -/
def ByDestination (routes : List Rtentry) (daddr : UInt32) (skb : SkBuff) : Prop :=
  stop (ipHdr skb.mem).daddr routes = stop daddr routes

/-- The address that `dst_neigh_output` resolves. -/
def resolved (routes : List Rtentry) (daddr : UInt32) (skb : SkBuff) : Option UInt32 :=
  (routeLookup routes (ipHdr skb.mem).daddr).map fun rt =>
    nextHop rt (htonl (ipHdr (Packets.ipOutput rt.dev.addr daddr skb).mem).daddr)

/-- `127.0.0.0/8`. -/
def OnLoop (daddr : UInt32) : Prop := (0xff000000 : UInt32) &&& daddr = 0x7F000000

/-- `10.0.1.0/24`. -/
def OnLink (daddr : UInt32) : Prop := (0xffffff00 : UInt32) &&& daddr = 0x0A000100

instance (daddr : UInt32) : Decidable (OnLoop daddr) := inferInstanceAs (Decidable (_ = _))

instance (daddr : UInt32) : Decidable (OnLink daddr) := inferInstanceAs (Decidable (_ = _))

/-- **The table of `route_init` does its work** for this destination. -/
structure Routed (daddr : UInt32) (skb : SkBuff) : Prop where
  loopback : OnLoop daddr → routeLookup routeInit (ipHdr skb.mem).daddr = routeInit[0]?
  link : OnLink daddr → resolved routeInit daddr skb = some daddr
  gateway : ¬ OnLoop daddr → ¬ OnLink daddr → resolved routeInit daddr skb = some tapaddr

/-- All packets go to the gateway. -/
theorem resolved_routeInit (daddr : UInt32) (skb : SkBuff) :
    resolved routeInit daddr skb = some tapaddr := by
  rw [resolved, routeLookup_routeInit]
  rfl

theorem routed_iff_far (daddr : UInt32) (skb : SkBuff) :
    Routed daddr skb ↔ ¬ OnLoop daddr ∧ (OnLink daddr → daddr = tapaddr) := by
  have hlast : some defaultRoute ≠ routeInit[0]? := by decide
  constructor
  · intro h
    refine ⟨fun hl => hlast ?_, fun hl => ?_⟩
    · rw [← h.loopback hl, routeLookup_routeInit]
    · have hhop := h.link hl
      rw [resolved_routeInit] at hhop
      exact (Option.some.inj hhop).symm
  · rintro ⟨hloop, hlink⟩
    refine ⟨fun hl => absurd hl hloop, fun hl => ?_, fun _ _ => resolved_routeInit daddr skb⟩
    rw [resolved_routeInit, hlink hl]

/-! ### The address in the header -/

/-- A new buffer is cleared. -/
theorem daddr_udpSkb (sk : Packets.Endpoints) (buf : List UInt8) :
    (ipHdr (udpSkb sk buf).mem).daddr = 0 := by
  rw [ipHdr, udpSkb, slice_splice_before (by rw [length_udpText]; omega) (by omega),
    slice_splice_before (by simp) (by omega), slice, List.drop_replicate, List.take_replicate,
    Nat.min_eq_left (by omega)]
  rfl

/-- A buffer that has been sent has the destination in network byte order. -/
theorem daddr_sent (dev daddr : UInt32) {skb : SkBuff} (h : 34 ≤ skb.mem.length) :
    (ipHdr (Packets.ipOutput dev daddr skb).mem).daddr = htonl daddr := by
  rw [ipHdr_ipOutput dev daddr h]
  rfl

theorem byDestination_udp (routes : List Rtentry) (sk : Packets.Endpoints) (buf : List UInt8) :
    ByDestination routes sk.daddr (udpSkb sk buf) ↔ Alike 0 sk.daddr routes := by
  rw [ByDestination, stop_eq_iff, daddr_udpSkb]

theorem byDestination_again (routes : List Rtentry) (dev daddr : UInt32) {skb : SkBuff}
    (h : 34 ≤ skb.mem.length) :
    ByDestination routes daddr (Packets.ipOutput dev daddr skb) ↔
      Alike (htonl daddr) daddr routes := by
  rw [ByDestination, stop_eq_iff, daddr_sent dev daddr h]

/-! ### The two conditions -/

/-- **When packets are routed by their destination.** For every table and every packet, if the
address in the header of the buffer matches as the destination does; for the table of `route_init`,
if the destination is neither a loopback address nor another host of the link. -/
theorem routed_iff (routes : List Rtentry) (daddr : UInt32) (skb : SkBuff) :
    (ByDestination routes daddr skb ↔ Alike (ipHdr skb.mem).daddr daddr routes) ∧
      (Routed daddr skb ↔ ¬ OnLoop daddr ∧ (OnLink daddr → daddr = tapaddr)) :=
  ⟨stop_eq_iff, routed_iff_far daddr skb⟩

/-- A table with an entry for the link that matches, and the default route. -/
def linkTable : List Rtentry := [⟨0x0A000100, 0, 0xffffff00, rtLoopback, 0, netdev⟩, defaultRoute]

/-- A datagram for the host `10.0.1.9` of the link goes to the gateway, and with a table that has an
entry for the link it goes by the default route. -/
theorem not_routed :
    resolved routeInit 0x0A000109 (udpSkb ⟨0x0A000104, 0x0A000109, 40001, 53⟩ [1]) = some tapaddr ∧
      ¬ Routed 0x0A000109 (udpSkb ⟨0x0A000104, 0x0A000109, 40001, 53⟩ [1]) ∧
      ¬ ByDestination linkTable 0x0A000109 (udpSkb ⟨0x0A000104, 0x0A000109, 40001, 53⟩ [1]) := by
  refine ⟨resolved_routeInit _ _, fun h => ?_, fun h => ?_⟩
  · exact absurd ((routed_iff_far _ _).mp h).2 (by decide)
  · rw [ByDestination, daddr_udpSkb] at h
    exact absurd h (by decide)

end ToyIP.Net.Routing
