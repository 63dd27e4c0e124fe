import ToyIP.Net.Checksum

/-! # Network: buffers and headers in memory

`struct sk_buff` with its memory, and the packed headers of `ethernet.h`, `ip.h`, `tcp.h` and
`udp.h` as GCC lays them out on a little-endian machine: a bit-field takes the low bits that are
still free. A header is read from its bytes and written back to them as a whole; the two are inverse
to each other. -/

namespace ToyIP.Net.Headers

open ToyIP.Lib.Bytes ToyIP.Net.Checksum

/-! ### Buffers -/

/-- `struct sk_buff`: `mem` lies between `head` and `end`, and `data` is an offset from `head`. -/
structure SkBuff where
  mem : List UInt8
  data : ℕ := 0
  len : UInt32 := 0
  dlen : UInt32 := 0
  protocol : UInt16 := 0
  deriving DecidableEq, Repr

/-- `alloc_skb`. -/
def allocSkb (size : ℕ) : SkBuff := { mem := List.replicate size 0 }

/-- `skb_reserve`. -/
def skbReserve (skb : SkBuff) (len : ℕ) : SkBuff := { skb with data := skb.data + len }

/-- `skb_push`. -/
def skbPush (skb : SkBuff) (len : ℕ) : SkBuff :=
  { skb with data := skb.data - len, len := skb.len + UInt32.ofNat len }

/-- `skb_reset_header`. -/
def skbResetHeader (skb : SkBuff) : SkBuff :=
  { skb with data := skb.mem.length - skb.dlen.toNat, len := skb.dlen }

/-! ### Headers -/

/-- `struct eth_hdr`. -/
structure EthHdr where
  dmac : Vector UInt8 6
  smac : Vector UInt8 6
  ethertype : UInt16
  deriving DecidableEq

/-- `struct iphdr`. -/
structure Iphdr where
  ihl : BitVec 4
  version : BitVec 4
  tos : UInt8
  len : UInt16
  id : UInt16
  flags : BitVec 3
  fragOffset : BitVec 13
  ttl : UInt8
  proto : UInt8
  csum : UInt16
  saddr : UInt32
  daddr : UInt32
  deriving DecidableEq, Repr

/-- `struct tcphdr`. -/
structure Tcphdr where
  sport : UInt16
  dport : UInt16
  seq : UInt32
  ackSeq : UInt32
  rsvd : BitVec 4
  hl : BitVec 4
  fin : Bool
  syn : Bool
  rst : Bool
  psh : Bool
  ack : Bool
  urg : Bool
  ece : Bool
  cwr : Bool
  win : UInt16
  csum : UInt16
  urp : UInt16
  deriving DecidableEq, Repr

/-- `struct udphdr`. -/
structure Udphdr where
  sport : UInt16
  dport : UInt16
  len : UInt16
  csum : UInt16
  deriving DecidableEq, Repr

/-- Two bit-fields of four bits in one byte. -/
def nibbles (lo hi : BitVec 4) : UInt8 := UInt8.ofNat (lo.toNat + 16 * hi.toNat)

def lowNibble (b : UInt8) : BitVec 4 := BitVec.ofNat 4 b.toNat

def highNibble (b : UInt8) : BitVec 4 := BitVec.ofNat 4 (b.toNat / 16)

/-- Eight bit-fields of one bit in one byte. -/
def bits (b₀ b₁ b₂ b₃ b₄ b₅ b₆ b₇ : Bool) : UInt8 :=
  UInt8.ofNat (b₀.toNat + 2 * b₁.toNat + 4 * b₂.toNat + 8 * b₃.toNat + 16 * b₄.toNat +
    32 * b₅.toNat + 64 * b₆.toNat + 128 * b₇.toNat)

/-- One bit-field of one bit. -/
def bit (b : UInt8) (i : ℕ) : Bool := b.toNat.testBit i

def EthHdr.bytes (h : EthHdr) : List UInt8 := h.dmac.toList ++ (h.smac.toList ++ le16 h.ethertype)

def Iphdr.bytes (h : Iphdr) : List UInt8 :=
  nibbles h.ihl h.version :: h.tos :: (le16 h.len ++ (le16 h.id ++
    (le 2 (h.flags.toNat + 8 * h.fragOffset.toNat) ++ (h.ttl :: h.proto :: (le16 h.csum ++
      (le32 h.saddr ++ le32 h.daddr))))))

def Tcphdr.bytes (h : Tcphdr) : List UInt8 :=
  le16 h.sport ++ (le16 h.dport ++ (le32 h.seq ++ (le32 h.ackSeq ++ (nibbles h.rsvd h.hl ::
    bits h.fin h.syn h.rst h.psh h.ack h.urg h.ece h.cwr ::
      (le16 h.win ++ (le16 h.csum ++ le16 h.urp))))))

def Udphdr.bytes (h : Udphdr) : List UInt8 :=
  le16 h.sport ++ (le16 h.dport ++ (le16 h.len ++ le16 h.csum))

/-- A header as it is read from its bytes. -/
def Iphdr.read (bs : List UInt8) : Iphdr where
  ihl := lowNibble (bs.getD 0 0)
  version := highNibble (bs.getD 0 0)
  tos := bs.getD 1 0
  len := of16 (slice bs 2 2)
  id := of16 (slice bs 4 2)
  flags := BitVec.ofNat 3 (ofLe (slice bs 6 2))
  fragOffset := BitVec.ofNat 13 (ofLe (slice bs 6 2) / 8)
  ttl := bs.getD 8 0
  proto := bs.getD 9 0
  csum := of16 (slice bs 10 2)
  saddr := of32 (slice bs 12 4)
  daddr := of32 (slice bs 16 4)

def Tcphdr.read (bs : List UInt8) : Tcphdr where
  sport := of16 (slice bs 0 2)
  dport := of16 (slice bs 2 2)
  seq := of32 (slice bs 4 4)
  ackSeq := of32 (slice bs 8 4)
  rsvd := lowNibble (bs.getD 12 0)
  hl := highNibble (bs.getD 12 0)
  fin := bit (bs.getD 13 0) 0
  syn := bit (bs.getD 13 0) 1
  rst := bit (bs.getD 13 0) 2
  psh := bit (bs.getD 13 0) 3
  ack := bit (bs.getD 13 0) 4
  urg := bit (bs.getD 13 0) 5
  ece := bit (bs.getD 13 0) 6
  cwr := bit (bs.getD 13 0) 7
  win := of16 (slice bs 14 2)
  csum := of16 (slice bs 16 2)
  urp := of16 (slice bs 18 2)

def Udphdr.read (bs : List UInt8) : Udphdr where
  sport := of16 (slice bs 0 2)
  dport := of16 (slice bs 2 2)
  len := of16 (slice bs 4 2)
  csum := of16 (slice bs 6 2)

/-! ### Reading what was written -/

theorem of16_le16 (v : UInt16) : of16 (le16 v) = v := by
  rw [of16, le16, ofLe_le_of_lt v.toNat_lt, UInt16.ofNat_toNat]

theorem of32_le32 (v : UInt32) : of32 (le32 v) = v := by
  rw [of32, le32, ofLe_le_of_lt v.toNat_lt, UInt32.ofNat_toNat]

theorem htons_htons (v : UInt16) : htons (htons v) = v := by
  have hv : v.toNat < 256 ^ 2 := v.toNat_lt
  have hswap : swapBytes 2 v.toNat < 2 ^ 16 := swapBytes_lt 2 v.toNat
  rw [htons, htons, UInt16.toNat_ofNat', Nat.mod_eq_of_lt hswap, swapBytes_swapBytes hv,
    UInt16.ofNat_toNat]

theorem htonl_htonl (v : UInt32) : htonl (htonl v) = v := by
  have hv : v.toNat < 256 ^ 4 := v.toNat_lt
  have hswap : swapBytes 4 v.toNat < 2 ^ 32 := swapBytes_lt 4 v.toNat
  rw [htonl, htonl, UInt32.toNat_ofNat', Nat.mod_eq_of_lt hswap, swapBytes_swapBytes hv,
    UInt32.ofNat_toNat]

theorem le16_of16 {bs : List UInt8} (h : bs.length = 2) : le16 (of16 bs) = bs := by
  have hlt : ofLe bs < 2 ^ 16 := by
    have hbs := ofLe_lt bs
    rw [h] at hbs
    exact hbs
  rw [le16, of16, UInt16.toNat_ofNat', Nat.mod_eq_of_lt hlt, ← h, le_ofLe]

theorem le32_of32 {bs : List UInt8} (h : bs.length = 4) : le32 (of32 bs) = bs := by
  have hlt : ofLe bs < 2 ^ 32 := by
    have hbs := ofLe_lt bs
    rw [h] at hbs
    exact hbs
  rw [le32, of32, UInt32.toNat_ofNat', Nat.mod_eq_of_lt hlt, ← h, le_ofLe]

/-- `htons` puts the bytes in network order. -/
theorem le16_htons (v : UInt16) : le16 (htons v) = be 2 v.toNat := by
  have hswap : swapBytes 2 v.toNat < 2 ^ 16 := swapBytes_lt 2 v.toNat
  rw [le16, htons, UInt16.toNat_ofNat', Nat.mod_eq_of_lt hswap, le_swapBytes]

theorem le32_htonl (v : UInt32) : le32 (htonl v) = be 4 v.toNat := by
  have hswap : swapBytes 4 v.toNat < 2 ^ 32 := swapBytes_lt 4 v.toNat
  rw [le32, htonl, UInt32.toNat_ofNat', Nat.mod_eq_of_lt hswap, le_swapBytes]

/-- A field that was read and converted, by its bytes. -/
theorem htons_of16_eq_iff {bs : List UInt8} (h : bs.length = 2) (v : UInt16) :
    htons (of16 bs) = v ↔ bs = be 2 v.toNat := by
  rw [← le16_htons]
  constructor
  · rintro rfl
    rw [htons_htons, le16_of16 h]
  · rintro rfl
    rw [of16_le16, htons_htons]

theorem htonl_of32_eq_iff {bs : List UInt8} (h : bs.length = 4) (v : UInt32) :
    htonl (of32 bs) = v ↔ bs = be 4 v.toNat := by
  rw [← le32_htonl]
  constructor
  · rintro rfl
    rw [htonl_htonl, le32_of32 h]
  · rintro rfl
    rw [of32_le32, htonl_htonl]

theorem lowNibble_nibbles (lo hi : BitVec 4) : lowNibble (nibbles lo hi) = lo := by
  have hl := lo.isLt
  have hh := hi.isLt
  apply BitVec.eq_of_toNat_eq
  simp only [lowNibble, nibbles, BitVec.toNat_ofNat, UInt8.toNat_ofNat']
  omega

theorem highNibble_nibbles (lo hi : BitVec 4) : highNibble (nibbles lo hi) = hi := by
  have hl := lo.isLt
  have hh := hi.isLt
  apply BitVec.eq_of_toNat_eq
  simp only [highNibble, nibbles, BitVec.toNat_ofNat, UInt8.toNat_ofNat']
  omega

theorem bit_bits : ∀ b₀ b₁ b₂ b₃ b₄ b₅ b₆ b₇ : Bool,
    bit (bits b₀ b₁ b₂ b₃ b₄ b₅ b₆ b₇) 0 = b₀ ∧ bit (bits b₀ b₁ b₂ b₃ b₄ b₅ b₆ b₇) 1 = b₁ ∧
    bit (bits b₀ b₁ b₂ b₃ b₄ b₅ b₆ b₇) 2 = b₂ ∧ bit (bits b₀ b₁ b₂ b₃ b₄ b₅ b₆ b₇) 3 = b₃ ∧
    bit (bits b₀ b₁ b₂ b₃ b₄ b₅ b₆ b₇) 4 = b₄ ∧ bit (bits b₀ b₁ b₂ b₃ b₄ b₅ b₆ b₇) 5 = b₅ ∧
    bit (bits b₀ b₁ b₂ b₃ b₄ b₅ b₆ b₇) 6 = b₆ ∧ bit (bits b₀ b₁ b₂ b₃ b₄ b₅ b₆ b₇) 7 = b₇ := by
  decide

@[simp] theorem length_le16 (v : UInt16) : (le16 v).length = 2 := length_le 2 v.toNat

@[simp] theorem length_le32 (v : UInt32) : (le32 v).length = 4 := length_le 4 v.toNat

@[simp] theorem EthHdr.length_bytes (h : EthHdr) : h.bytes.length = 14 := by simp [EthHdr.bytes]

@[simp] theorem Iphdr.length_bytes (h : Iphdr) : h.bytes.length = 20 := by simp [Iphdr.bytes]

@[simp] theorem Tcphdr.length_bytes (h : Tcphdr) : h.bytes.length = 20 := by simp [Tcphdr.bytes]

@[simp] theorem Udphdr.length_bytes (h : Udphdr) : h.bytes.length = 8 := by simp [Udphdr.bytes]

theorem EthHdr.slice_bytes (h : EthHdr) : slice h.bytes 12 2 = le16 h.ethertype := by
  have hd : h.dmac.toList.length = 6 := by simp
  have hs : h.smac.toList.length = 6 := by simp
  rw [slice, EthHdr.bytes, ← List.append_assoc, List.drop_append,
    List.drop_of_length_le (by rw [List.length_append]; omega), List.nil_append, List.length_append,
    hd, hs]
  exact List.take_of_length_le (by simp)

theorem Iphdr.read_bytes (h : Iphdr) : Iphdr.read h.bytes = h := by
  have hflags := h.flags.isLt
  have hfrag := h.fragOffset.isLt
  have hword : ofLe (le 2 (h.flags.toNat + 8 * h.fragOffset.toNat)) =
      h.flags.toNat + 8 * h.fragOffset.toNat := ofLe_le_of_lt (by omega)
  have hread : Iphdr.read h.bytes =
      { ihl := lowNibble (nibbles h.ihl h.version), version := highNibble (nibbles h.ihl h.version)
        tos := h.tos, len := of16 (le16 h.len), id := of16 (le16 h.id)
        flags := BitVec.ofNat 3 (ofLe (le 2 (h.flags.toNat + 8 * h.fragOffset.toNat)))
        fragOffset := BitVec.ofNat 13 (ofLe (le 2 (h.flags.toNat + 8 * h.fragOffset.toNat)) / 8)
        ttl := h.ttl, proto := h.proto, csum := of16 (le16 h.csum), saddr := of32 (le32 h.saddr)
        daddr := of32 (le32 h.daddr) } := rfl
  have hf : BitVec.ofNat 3 (h.flags.toNat + 8 * h.fragOffset.toNat) = h.flags := by
    apply BitVec.eq_of_toNat_eq
    rw [BitVec.toNat_ofNat]
    omega
  have ho : BitVec.ofNat 13 ((h.flags.toNat + 8 * h.fragOffset.toNat) / 8) = h.fragOffset := by
    apply BitVec.eq_of_toNat_eq
    rw [BitVec.toNat_ofNat]
    omega
  rw [hread, lowNibble_nibbles, highNibble_nibbles, of16_le16, of16_le16, of16_le16, of32_le32,
    of32_le32, hword, hf, ho]

theorem Tcphdr.read_bytes (h : Tcphdr) : Tcphdr.read h.bytes = h := by
  obtain ⟨h₀, h₁, h₂, h₃, h₄, h₅, h₆, h₇⟩ :=
    bit_bits h.fin h.syn h.rst h.psh h.ack h.urg h.ece h.cwr
  have hread : Tcphdr.read h.bytes =
      { sport := of16 (le16 h.sport), dport := of16 (le16 h.dport), seq := of32 (le32 h.seq)
        ackSeq := of32 (le32 h.ackSeq), rsvd := lowNibble (nibbles h.rsvd h.hl)
        hl := highNibble (nibbles h.rsvd h.hl)
        fin := bit (bits h.fin h.syn h.rst h.psh h.ack h.urg h.ece h.cwr) 0
        syn := bit (bits h.fin h.syn h.rst h.psh h.ack h.urg h.ece h.cwr) 1
        rst := bit (bits h.fin h.syn h.rst h.psh h.ack h.urg h.ece h.cwr) 2
        psh := bit (bits h.fin h.syn h.rst h.psh h.ack h.urg h.ece h.cwr) 3
        ack := bit (bits h.fin h.syn h.rst h.psh h.ack h.urg h.ece h.cwr) 4
        urg := bit (bits h.fin h.syn h.rst h.psh h.ack h.urg h.ece h.cwr) 5
        ece := bit (bits h.fin h.syn h.rst h.psh h.ack h.urg h.ece h.cwr) 6
        cwr := bit (bits h.fin h.syn h.rst h.psh h.ack h.urg h.ece h.cwr) 7
        win := of16 (le16 h.win), csum := of16 (le16 h.csum), urp := of16 (le16 h.urp) } := rfl
  rw [hread, lowNibble_nibbles, highNibble_nibbles, h₀, h₁, h₂, h₃, h₄, h₅, h₆, h₇]
  simp only [of16_le16, of32_le32]

theorem Udphdr.read_bytes (h : Udphdr) : Udphdr.read h.bytes = h := by
  have hread : Udphdr.read h.bytes =
      { sport := of16 (le16 h.sport), dport := of16 (le16 h.dport), len := of16 (le16 h.len)
        csum := of16 (le16 h.csum) } := rfl
  rw [hread]
  simp only [of16_le16]

/-! ### The checksum field of a header -/

theorem Iphdr.splice_csum (h : Iphdr) (c : UInt16) :
    splice h.bytes 10 (le16 c) = { h with csum := c }.bytes := rfl

theorem Tcphdr.splice_csum (h : Tcphdr) (c : UInt16) (bs : List UInt8) :
    splice (h.bytes ++ bs) 16 (le16 c) = { h with csum := c }.bytes ++ bs := rfl

theorem Udphdr.splice_csum (h : Udphdr) (c : UInt16) (bs : List UInt8) :
    splice (h.bytes ++ bs) 6 (le16 c) = { h with csum := c }.bytes ++ bs := rfl

end ToyIP.Net.Headers
