import ToyIP.Lib.Bytes
import ToyIP.Lib.OnesComplement

/-! # Network: the checksum

`sum_every_16bits`, `checksum` and `tcp_udp_checksum` of `utils.c` on a little-endian machine. The
code adds words with the low byte first, in a 32-bit sum, and folds once at the end; what it stores
is still the Internet checksum in network order (`internet_checksum`). -/

namespace ToyIP.Net.Checksum

open ToyIP.Lib ToyIP.Lib.Bytes ToyIP.Lib.OnesComplement

/-! ### Words in memory -/

/-- The bytes of a `uint16_t` in memory. -/
def le16 (v : UInt16) : List UInt8 := le 2 v.toNat

/-- The bytes of a `uint32_t` in memory. -/
def le32 (v : UInt32) : List UInt8 := le 4 v.toNat

/-- The `uint16_t` with these bytes in memory. -/
def of16 (bs : List UInt8) : UInt16 := UInt16.ofNat (ofLe bs)

/-- The `uint32_t` with these bytes in memory. -/
def of32 (bs : List UInt8) : UInt32 := UInt32.ofNat (ofLe bs)

/-- `htons` and `ntohs`. -/
def htons (v : UInt16) : UInt16 := UInt16.ofNat (swapBytes 2 v.toNat)

/-- `htonl` and `ntohl`. -/
def htonl (v : UInt32) : UInt32 := UInt32.ofNat (swapBytes 4 v.toNat)

/-! ### The code -/

/-- The loop of `sum_every_16bits`: the words of the buffer are added to `sum`, and a last odd byte
is put into the low byte of a zeroed word. -/
def sumLoop (sum : UInt32) : List UInt8 → UInt32
  | a :: b :: rest => sumLoop (sum + (of16 [a, b]).toUInt32) rest
  | [a] => sum + (of16 [a, 0]).toUInt32
  | [] => sum

/-- `sum_every_16bits`. -/
def sumEvery16bits (buf : List UInt8) : UInt32 := sumLoop 0 buf

/-- One round of the folding loop of `checksum`. -/
def foldRound (sum : UInt32) : UInt32 := (sum &&& (0xFFFF : UInt32)) + (sum >>> 16)

theorem toNat_shift (sum : UInt32) : (sum >>> 16).toNat = sum.toNat / 65536 := by
  rw [UInt32.toNat_shiftRight, Nat.shiftRight_eq_div_pow]
  rfl

theorem toNat_and (sum : UInt32) : (sum &&& (0xFFFF : UInt32)).toNat = sum.toNat % 65536 := by
  rw [UInt32.toNat_and]
  exact Nat.and_two_pow_sub_one_eq_mod sum.toNat 16

theorem toNat_foldRound (sum : UInt32) :
    (foldRound sum).toNat = sum.toNat % 65536 + sum.toNat / 65536 := by
  have hlt := sum.toNat_lt
  rw [foldRound, UInt32.toNat_add, toNat_and, toNat_shift]
  omega

/-- The folding loop of `checksum`, which ends since every round makes `sum` smaller. -/
def foldLoop (sum : UInt32) : UInt32 :=
  if sum >>> 16 = 0 then sum else foldLoop (foldRound sum)
termination_by sum.toNat
decreasing_by
  rename_i hne
  have hlt := sum.toNat_lt
  have hshift : (sum >>> 16).toNat ≠ 0 := fun h => hne (UInt32.toNat_inj.mp h)
  rw [toNat_shift] at hshift
  rw [toNat_foldRound]
  omega

/-- `checksum`. -/
def checksum (buf : List UInt8) (startSum : UInt32) : UInt16 :=
  (~~~ foldLoop (startSum + sumEvery16bits buf)).toUInt16

/-- `struct pseudo_head` in memory. -/
def pseudoHead (saddr daddr : UInt32) (proto : UInt8) (len : UInt16) : List UInt8 :=
  le32 saddr ++ le32 daddr ++ [0, proto] ++ le16 (htons len)

/-- `tcp_udp_checksum`, with the addresses in network order. -/
def tcpUdpChecksum (saddr daddr : UInt32) (proto : UInt8) (data : List UInt8) (len : UInt16) :
    UInt16 :=
  checksum (data.take len.toNat) (sumEvery16bits (pseudoHead saddr daddr proto len))

/-- No addition of `sum_every_16bits` overflows. -/
def SumFits (sum : UInt32) : List UInt8 → Prop
  | a :: b :: rest => sum.toNat + (of16 [a, b]).toNat < 4294967296 ∧
      SumFits (sum + (of16 [a, b]).toUInt32) rest
  | [a] => sum.toNat + (of16 [a, 0]).toNat < 4294967296
  | [] => True

/-- No 32-bit sum of `checksum` overflows, and its folding loop ends within two rounds. -/
structure Exact (buf : List UInt8) (startSum : UInt32) : Prop where
  loop : SumFits 0 buf
  start : startSum.toNat + (sumEvery16bits buf).toNat < 4294967296
  fold : ∀ sum : UInt32, (sum &&& (0xFFFF : UInt32)).toNat + (sum >>> 16).toNat < 4294967296
  ends : foldRound (foldRound (startSum + sumEvery16bits buf)) >>> 16 = 0

/-! ### The sum -/

theorem toNat_of16 (a b : UInt8) : (of16 [a, b]).toNat = a.toNat + 256 * b.toNat := by
  have ha := a.toNat_lt
  have hb := b.toNat_lt
  simp only [of16, ofLe, UInt16.toNat_ofNat']
  omega

theorem sumLoop_eq : ∀ (bs : List UInt8) (sum : UInt32),
    sum.toNat + (leWords bs).sum < 4294967296 →
      (sumLoop sum bs).toNat = sum.toNat + (leWords bs).sum ∧ SumFits sum bs
  | [], sum, _ => ⟨rfl, trivial⟩
  | [a], sum, h => by
    have hw : (of16 [a, 0]).toNat = a.toNat := toNat_of16 a 0
    simp only [leWords, List.sum_cons, List.sum_nil, Nat.add_zero] at h ⊢
    refine ⟨?_, ?_⟩
    · rw [sumLoop, UInt32.toNat_add, UInt16.toNat_toUInt32, hw]
      omega
    · rw [SumFits, hw]
      exact h
  | a :: b :: rest, sum, h => by
    have hw := toNat_of16 a b
    simp only [leWords, List.sum_cons] at h ⊢
    have hsum : (sum + (of16 [a, b]).toUInt32).toNat = sum.toNat + (a.toNat + 256 * b.toNat) := by
      rw [UInt32.toNat_add, UInt16.toNat_toUInt32, hw]
      omega
    obtain ⟨hloop, hfits⟩ := sumLoop_eq rest (sum + (of16 [a, b]).toUInt32) (by rw [hsum]; omega)
    refine ⟨?_, ?_, hfits⟩
    · rw [sumLoop, hloop, hsum]
      omega
    · rw [hw]
      omega

theorem toNat_sumEvery16bits (buf : List UInt8) (h : buf.length ≤ 65535) :
    (sumEvery16bits buf).toNat = (leWords buf).sum ∧ SumFits 0 buf := by
  have hsum := sum_leWords_le buf
  obtain ⟨hloop, hfits⟩ := sumLoop_eq buf 0 (by
    show 0 + _ < _
    omega)
  refine ⟨?_, hfits⟩
  rw [sumEvery16bits, hloop]
  exact Nat.zero_add _

/-- Folding keeps the sum modulo `65535`. -/
theorem toNat_foldLoop (sum : UInt32) : (foldLoop sum).toNat = ones sum.toNat := by
  induction sum using foldLoop.induct with
  | case1 sum h =>
    have hlt : sum.toNat / 65536 = 0 := by
      rw [← toNat_shift, h]
      rfl
    rw [foldLoop, if_pos h, ones_of_lt (by omega)]
  | case2 sum h ih => rw [foldLoop, if_neg h, ih, toNat_foldRound, ones_fold]

theorem toNat_checksum {buf : List UInt8} {startSum : UInt32} (h : buf.length ≤ 65535)
    (hs : startSum.toNat < 2147483648) :
    (checksum buf startSum).toNat = 65535 - ones (startSum.toNat + (leWords buf).sum) := by
  have hwords := sum_leWords_le buf
  have hsum := (toNat_sumEvery16bits buf h).1
  have hadd : (startSum + sumEvery16bits buf).toNat = startSum.toNat + (leWords buf).sum := by
    rw [UInt32.toNat_add, hsum]
    omega
  have hfold := toNat_foldLoop (startSum + sumEvery16bits buf)
  have hle := ones_le (startSum.toNat + (leWords buf).sum)
  rw [hadd] at hfold
  have hsize : UInt32.size = 4294967296 := rfl
  rw [checksum, UInt32.toNat_toUInt16, UInt32.toNat_not, hfold, hsize]
  omega

theorem exact_checksum {buf : List UInt8} {startSum : UInt32} (h : buf.length ≤ 65535)
    (hs : startSum.toNat < 2147483648) : Exact buf startSum := by
  have hwords := sum_leWords_le buf
  obtain ⟨hsum, hfits⟩ := toNat_sumEvery16bits buf h
  refine ⟨hfits, by omega, fun sum => ?_, ?_⟩
  · have hlt := sum.toNat_lt
    rw [toNat_and, toNat_shift]
    omega
  · have hlt := (startSum + sumEvery16bits buf).toNat_lt
    have hone := toNat_foldRound (startSum + sumEvery16bits buf)
    have htwo := toNat_foldRound (foldRound (startSum + sumEvery16bits buf))
    refine UInt32.toNat_inj.mp ?_
    rw [toNat_shift]
    show _ = 0
    omega

/-! ### The stored checksum -/

theorem swapBytes_two {v : ℕ} (h : v < 65536) : swapBytes 2 v = swap v := by
  simp only [swapBytes, be, le, List.reverse_cons, List.reverse_nil, List.nil_append, List.cons_append,
    ofLe, UInt8.toNat_ofNat', swap]
  omega

/-- A word in memory is the number with its bytes swapped, in network order. -/
theorem be_swap {v : ℕ} (h : v < 65536) : be 2 (swap v) = le 2 v := by
  have hle := swap_le (x := v) (by omega)
  rw [← le_swapBytes, swapBytes_two (by omega), swap_swap (by omega)]

theorem le16_checksum {buf : List UInt8} {startSum : UInt32} {c : ℕ} (h : buf.length ≤ 65535)
    (hs : startSum.toNat < 2147483648)
    (hc : c = swap (65535 - ones (startSum.toNat + (leWords buf).sum))) :
    le16 (checksum buf startSum) = be 2 c := by
  rw [hc, be_swap (by omega), le16, toNat_checksum h hs]

/-- The sum over the pseudo header is small. -/
theorem toNat_sum_pseudoHead (saddr daddr : UInt32) (proto : UInt8) (len : UInt16) :
    (sumEvery16bits (pseudoHead saddr daddr proto len)).toNat =
      (leWords (pseudoHead saddr daddr proto len)).sum ∧
    (sumEvery16bits (pseudoHead saddr daddr proto len)).toNat < 2147483648 := by
  have hlen : (pseudoHead saddr daddr proto len).length = 12 := by simp [pseudoHead, le32, le16]
  have hwords := sum_leWords_le (pseudoHead saddr daddr proto len)
  have hsum := (toNat_sumEvery16bits (pseudoHead saddr daddr proto len) (by omega)).1
  rw [hlen] at hwords
  exact ⟨hsum, by omega⟩

/-- **The checksum is the Internet checksum.** -/
theorem internet_checksum (buf : List UInt8) (h : buf.length ≤ 65535) :
    (le16 (checksum buf 0) = be 2 (internetChecksum buf) ∧ Exact buf 0) ∧
    ∀ (saddr daddr : UInt32) (proto : UInt8),
      le16 (tcpUdpChecksum saddr daddr proto buf (UInt16.ofNat buf.length)) =
        be 2 (internetChecksum
          (le32 saddr ++ le32 daddr ++ [0, proto] ++ be 2 buf.length ++ buf)) ∧
      Exact (pseudoHead saddr daddr proto (UInt16.ofNat buf.length)) 0 ∧
      Exact buf (sumEvery16bits (pseudoHead saddr daddr proto (UInt16.ofNat buf.length))) := by
  refine ⟨⟨?_, exact_checksum h (by decide)⟩, fun saddr daddr proto => ?_⟩
  · refine le16_checksum h (by decide) ?_
    rw [internetChecksum_eq]
    simp
  · have hlen : (UInt16.ofNat buf.length).toNat = buf.length := by
      rw [UInt16.toNat_ofNat']
      omega
    have hswap : swapBytes 2 buf.length < 2 ^ 16 := swapBytes_lt 2 buf.length
    have hhead : pseudoHead saddr daddr proto (UInt16.ofNat buf.length) =
        le32 saddr ++ le32 daddr ++ [0, proto] ++ be 2 buf.length := by
      rw [pseudoHead, le16, htons, hlen, UInt16.toNat_ofNat', Nat.mod_eq_of_lt hswap, le_swapBytes]
    have heven : (pseudoHead saddr daddr proto (UInt16.ofNat buf.length)).length % 2 = 0 := by
      simp [pseudoHead, le32, le16]
    obtain ⟨hsum, hsmall⟩ := toNat_sum_pseudoHead saddr daddr proto (UInt16.ofNat buf.length)
    refine ⟨?_, exact_checksum (by simp [pseudoHead, le32, le16]) (by decide),
      exact_checksum h hsmall⟩
    rw [tcpUdpChecksum, hlen, List.take_length, ← hhead]
    refine le16_checksum h hsmall ?_
    rw [internetChecksum_eq, leWords_append heven, List.sum_append, hsum]

theorem internet_checksum_odd :
    (le16 (checksum [1, 2, 3] 0) = be 2 (internetChecksum [1, 2, 3]) ∧ Exact [1, 2, 3] 0) ∧
    ∀ (saddr daddr : UInt32) (proto : UInt8),
      le16 (tcpUdpChecksum saddr daddr proto [1, 2, 3] 3) =
        be 2 (internetChecksum (le32 saddr ++ le32 daddr ++ [0, proto] ++ be 2 3 ++ [1, 2, 3])) ∧
      Exact (pseudoHead saddr daddr proto 3) 0 ∧
      Exact [1, 2, 3] (sumEvery16bits (pseudoHead saddr daddr proto 3)) :=
  internet_checksum [1, 2, 3] (by decide)

/-! ### Verification -/

/-- The sum of a buffer with a word written at an even place. -/
theorem sum_splice_word {buf : List UInt8} {k : ℕ} (hk : k % 2 = 0) (hle : k + 2 ≤ buf.length)
    (v : UInt16) : (leWords (splice buf k (le16 v))).sum =
      (leWords (buf.take k)).sum + v.toNat + (leWords (buf.drop (k + 2))).sum := by
  have htake : (buf.take k).length % 2 = 0 := by
    rw [List.length_take]
    omega
  have hlen : (le16 v).length = 2 := length_le 2 v.toNat
  have hv := v.toNat_lt
  have hword : (leWords (le16 v)).sum = v.toNat := by
    simp only [le16, le, leWords, List.sum_cons, List.sum_nil, UInt8.toNat_ofNat']
    omega
  rw [splice, leWords_append htake, leWords_append (by omega), List.sum_append, List.sum_append,
    hword, hlen]
  omega

/-- **A checksum that was computed over its zeroed field verifies.** -/
theorem checksum_verifies (buf : List UInt8) (k : ℕ) (startSum : UInt32)
    (hlen : buf.length ≤ 65535) (hk : k % 2 = 0) (hle : k + 2 ≤ buf.length)
    (hs : startSum.toNat < 2147483648) :
    checksum (splice buf k (le16 (checksum (splice buf k (le16 0)) startSum))) startSum = 0 := by
  have hlen' : ∀ v, (splice buf k (le16 v)).length ≤ 65535 := fun v => by
    rw [length_splice (by simpa [le16] using hle)]
    exact hlen
  have hzero := toNat_checksum (hlen' 0) hs
  rw [sum_splice_word hk hle] at hzero
  rw [← UInt16.toNat_inj, toNat_checksum (hlen' _) hs, sum_splice_word hk hle, hzero]
  have hones := ones_add_complement
    (startSum.toNat + ((leWords (buf.take k)).sum + 0 + (leWords (buf.drop (k + 2))).sum))
  have hsum : ∀ a b c t : ℕ, t + (a + c + b) = t + (a + 0 + b) + c := fun a b c t => by omega
  rw [hsum]
  show 65535 - ones _ = 0
  rw [show (0 : UInt16).toNat = 0 from rfl, hones]

end ToyIP.Net.Checksum
