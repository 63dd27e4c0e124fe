import ToyIP.Net.RoundTrip
import ToyIP.Stack.UdpSocks

/-! # Network: the lengths of a datagram

The length of the text goes into three fields of 16 bits: the length of the UDP header, that of the
pseudo header and the total length of the IP header. `udp_write` refuses what does not fit the UDP
header, and `udp_sendto` refuses nothing; that the IP header adds 20 bytes more neither of them
asks. `lengthsKept_iff` says up to which length all is well. -/

namespace ToyIP.Net.UdpLengths

open ToyIP.Lib.Bytes ToyIP.Net.Checksum ToyIP.Net.Headers ToyIP.Net.RoundTrip
open ToyIP.Net.Packets (Endpoints ipHdr udpHdr udpSend)
open ToyIP.Stack.UdpSocks (Sock Addr stackaddr)

/-! ### The two ways to send -/

/-- The addresses and ports of the sock. -/
def endpoints (sk : Sock) : Endpoints := ⟨sk.saddr, sk.daddr, sk.sport, sk.dport⟩

/-- `UDP_MAX_BUFSZ`. -/
def udpMaxBufsz : ℕ := 0xffff - 8

/-- `udp_write`, with the address `dev` of the device of the route; no packet for a result of -1. -/
def udpWrite (dev : UInt32) (sk : Sock) (buf : List UInt8) : Option SkBuff :=
  if udpMaxBufsz < buf.length then none else some (udpSend dev (endpoints sk) buf)

/-- `udp_sendto`, with the result `port` of `udp_generate_port`: the sock and the packet; none for a
result of -1. -/
def udpSendto (dev : UInt32) (port : UInt16) (sk : Sock) (buf : List UInt8) (skaddr : Option Addr) :
    Option (Sock × SkBuff) :=
  match sk.state, skaddr with
  | .connected, none => some (sk, udpSend dev (endpoints sk) buf)
  | .unconnected, some addr =>
    let sk := { sk with
      daddr := addr.sinAddr, dport := addr.sinPort, sport := port, saddr := stackaddr }
    some (sk, udpSend dev (endpoints sk) buf)
  | _, _ => none

/-! ### The property -/

/-- `udp_sendto` takes the address for a sock in this state. -/
def Fits (sk : Sock) (skaddr : Option Addr) : Prop :=
  sk.state = .connected ∧ skaddr = none ∨ sk.state = .unconnected ∧ skaddr.isSome = true

/-- The three lengths in a packet with the text `buf` are the real ones. The one of the pseudo header
is in the checksum. -/
structure Lengths (sk : Endpoints) (buf : List UInt8) (out : SkBuff) : Prop where
  udp : (htons (udpHdr out.mem).len).toNat = 8 + buf.length
  pseudo : ∃ len : UInt16, len.toNat = 8 + buf.length ∧ (udpHdr out.mem).csum =
    tcpUdpChecksum (htonl sk.saddr) (htonl sk.daddr) 17
      ({ udpHdr out.mem with csum := 0 }.bytes ++ buf) len
  ip : (htons (ipHdr out.mem).len).toNat = 28 + buf.length

/-- Both take the length or both refuse it, and what they send has the real lengths. -/
structure LengthsKept (dev : UInt32) (port : UInt16) (sk : Sock) (buf : List UInt8)
    (skaddr : Option Addr) : Prop where
  agree : Fits sk skaddr →
    ((udpWrite dev sk buf).isSome ↔ (udpSendto dev port sk buf skaddr).isSome)
  write : ∀ out, udpWrite dev sk buf = some out → Lengths (endpoints sk) buf out
  sendto : ∀ sk' out, udpSendto dev port sk buf skaddr = some (sk', out) →
    Lengths (endpoints sk') buf out

/-! ### The headers -/

theorem udpHdr_udpSend (dev : UInt32) (sk : Endpoints) (buf : List UInt8) :
    udpHdr (udpSend dev sk buf).mem = wireUdp sk buf.length (udpCsum sk buf) := by
  have hmlen := length_udpSkb sk buf
  obtain ⟨id, hout⟩ := udpSend_out dev sk buf
  rw [hout, udpHdr, slice_splice_behind (by omega) (by simp), udpSkb,
    slice_splice_eq (Udphdr.length_bytes _) (by rw [length_udpText]; omega), Udphdr.read_bytes]

theorem len_ipHdr_udpSend (dev : UInt32) (sk : Endpoints) (buf : List UInt8) :
    (ipHdr (udpSend dev sk buf).mem).len = htons (UInt16.ofNat (28 + buf.length)) := by
  have hmlen := length_udpSkb sk buf
  obtain ⟨id, hout⟩ := udpSend_out dev sk buf
  rw [hout, ipHdr, slice_splice_eq (Iphdr.length_bytes _) (by omega), Iphdr.read_bytes]
  rfl

/-- The total length of the IP header is the first to overflow. -/
theorem lengths_udpSend_iff (dev : UInt32) (sk : Endpoints) (buf : List UInt8) :
    Lengths sk buf (udpSend dev sk buf) ↔ buf.length ≤ 65507 := by
  have hip : (htons (ipHdr (udpSend dev sk buf).mem).len).toNat = (28 + buf.length) % 65536 := by
    rw [len_ipHdr_udpSend, htons_htons, UInt16.toNat_ofNat']
  constructor
  · intro h
    have hlen := h.ip
    omega
  · intro hle
    have hudp : (UInt16.ofNat (8 + buf.length)).toNat = 8 + buf.length := by
      rw [UInt16.toNat_ofNat']
      omega
    refine ⟨?_, ⟨UInt16.ofNat (8 + buf.length), hudp, ?_⟩, by omega⟩
    · rw [udpHdr_udpSend, wireUdp, htons_htons, hudp]
    · rw [udpHdr_udpSend]
      rfl

/-! ### The two calls -/

section Calls

variable (dev : UInt32) (port : UInt16) (sk : Sock) (buf : List UInt8) (skaddr : Option Addr)

theorem isSome_udpWrite : (udpWrite dev sk buf).isSome ↔ buf.length ≤ 65527 := by
  rw [udpWrite, udpMaxBufsz]
  split_ifs with h
  · exact iff_of_false (by simp) (by omega)
  · exact iff_of_true rfl (by omega)

/-- The length plays no part. -/
theorem isSome_udpSendto : (udpSendto dev port sk buf skaddr).isSome ↔ Fits sk skaddr := by
  obtain ⟨state, saddr, sport, daddr, dport⟩ := sk
  cases state <;> cases skaddr <;> simp [udpSendto, Fits]

theorem udpSendto_out {sk' : Sock} {out : SkBuff}
    (h : udpSendto dev port sk buf skaddr = some (sk', out)) :
    out = udpSend dev (endpoints sk') buf := by
  unfold udpSendto at h
  split at h
  · obtain ⟨rfl, rfl⟩ := Prod.mk.inj (Option.some.inj h)
    rfl
  · obtain ⟨rfl, rfl⟩ := Prod.mk.inj (Option.some.inj h)
    rfl
  · simp at h

theorem udpWrite_out {out : SkBuff} (h : udpWrite dev sk buf = some out) :
    out = udpSend dev (endpoints sk) buf := by
  unfold udpWrite at h
  split_ifs at h
  exact (Option.some.inj h).symm

/-- A text that is too long for the headers is refused by neither. -/
theorem not_lengthsKept (h : 65507 < buf.length) (hfits : Fits sk skaddr) :
    ¬ LengthsKept dev port sk buf skaddr := by
  intro hk
  obtain ⟨⟨sk', out⟩, hout⟩ :=
    Option.isSome_iff_exists.mp ((isSome_udpSendto dev port sk buf skaddr).mpr hfits)
  have hlen := hk.sendto sk' out hout
  rw [udpSendto_out dev port sk buf skaddr hout, lengths_udpSend_iff] at hlen
  omega

/-- **The lengths are right**, for every sock, every address and every text: up to 65507 bytes,
which is what an IP datagram holds. Beyond that, only where `udp_write` refuses the length and
`udp_sendto` the sock. -/
theorem lengthsKept_iff : LengthsKept dev port sk buf skaddr ↔
    buf.length ≤ 65507 ∨ 65527 < buf.length ∧ ¬ Fits sk skaddr := by
  constructor
  · intro h
    by_cases hle : buf.length ≤ 65507
    · exact .inl hle
    refine .inr ⟨?_, fun hfits => not_lengthsKept dev port sk buf skaddr (by omega) hfits h⟩
    by_contra hacc
    obtain ⟨out, hout⟩ :=
      Option.isSome_iff_exists.mp ((isSome_udpWrite dev sk buf).mpr (by omega))
    have hlen := h.write out hout
    rw [udpWrite_out dev sk buf hout, lengths_udpSend_iff] at hlen
    exact hle hlen
  · rintro (hle | ⟨hlt, hfits⟩)
    · refine ⟨fun hfits => ?_, fun out hout => ?_, fun sk' out hout => ?_⟩
      · exact iff_of_true ((isSome_udpWrite dev sk buf).mpr (by omega))
          ((isSome_udpSendto dev port sk buf skaddr).mpr hfits)
      · rw [udpWrite_out dev sk buf hout]
        exact (lengths_udpSend_iff dev _ buf).mpr hle
      · rw [udpSendto_out dev port sk buf skaddr hout]
        exact (lengths_udpSend_iff dev _ buf).mpr hle
    · refine ⟨fun h => absurd h hfits, fun out hout => ?_, fun sk' out hout => ?_⟩
      · have hacc := (isSome_udpWrite dev sk buf).mp (Option.isSome_of_eq_some hout)
        omega
      · exact absurd ((isSome_udpSendto dev port sk buf skaddr).mp (Option.isSome_of_eq_some hout))
          hfits

end Calls

/-- A text of 65508 bytes goes out with the total length 0. -/
theorem not_lengthsKept_long : ∃ out,
    udpWrite stackaddr ⟨.connected, stackaddr, 40001, 0x0A000105, 53⟩ (List.replicate 65508 0) =
      some out ∧ (ipHdr out.mem).len = 0 ∧
    ¬ LengthsKept stackaddr 0 ⟨.connected, stackaddr, 40001, 0x0A000105, 53⟩
      (List.replicate 65508 0) none := by
  have hlen : (List.replicate 65508 (0 : UInt8)).length = 65508 := List.length_replicate
  refine ⟨_, if_neg (by rw [hlen]; decide), ?_,
    not_lengthsKept _ _ _ _ _ (by omega) (.inl ⟨rfl, rfl⟩)⟩
  rw [len_ipHdr_udpSend, hlen]
  decide

end ToyIP.Net.UdpLengths
