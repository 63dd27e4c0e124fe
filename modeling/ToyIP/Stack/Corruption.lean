import ToyIP.Stack.Bounds

/-! # Damaged headers

`ip_rcv` sums the words of the IP header and drops the frame if the sum is not `0xFFFF`. A change of
one word changes the sum by less than `0xFFFF`, so it is not seen only if it is none modulo
`0xFFFF`: `0x0000` in place of `0xFFFF`, or the other way round. `damage_dropped` says that every
other change of one word is seen, as long as the length of the header stays. -/

namespace ToyIP.Stack.Corruption

open ToyIP.Lib.Bytes ToyIP.Lib.OnesComplement ToyIP.Net.Checksum ToyIP.Net.Headers ToyIP.Stack.Frames
  ToyIP.Stack.Bounds
open ToyIP.Net.Arp (RxBuf buflen)
open ToyIP.Net.Packets (ipHdr ipRcv ipRcv_eq_some Packet putIpHdr)
open ToyIP.Stack.TcpSocks (stackaddr)

/-! ### The changes -/

/-- The word `k` of the IP header. -/
def word (mem : List UInt8) (k : ℕ) : UInt16 := of16 (slice mem (14 + 2 * k) 2)

/-- The word `k` of the IP header is changed and nothing else. The header length stays, and `0x0000`
and `0xFFFF` do not take each other's place. -/
structure Damaged (mem mem' : List UInt8) (k : ℕ) : Prop where
  word_lt : 2 * k < ipHlen mem
  length : mem'.length = mem.length
  rest : ∀ i, i ≠ 14 + 2 * k → i ≠ 14 + 2 * k + 1 → mem'[i]? = mem[i]?
  changed : word mem' k ≠ word mem k
  ihl : (ipHdr mem').ihl = (ipHdr mem).ihl
  rises : ¬ (word mem k = 0x0000 ∧ word mem' k = 0xFFFF)
  falls : ¬ (word mem k = 0xFFFF ∧ word mem' k = 0x0000)

/-- The bit `j` of the byte at `i` is the other one. -/
def flipBit (mem : List UInt8) (i j : ℕ) : List UInt8 :=
  mem.set i (mem.getD i 0 ^^^ UInt8.ofNat (2 ^ j))

/-! ### The sum -/

/-- Two words that complete a sum are equal or the two zeros. -/
theorem words_of_ones {a b x y : ℕ} (hx : x ≤ 65535) (hy : y ≤ 65535)
    (h : ones (a + x + b) = 65535) (h' : ones (a + y + b) = 65535) :
    x = y ∨ x = 0 ∧ y = 65535 ∨ x = 65535 ∧ y = 0 := by
  have hmod := ones_mod (a + x + b)
  have hmod' := ones_mod (a + y + b)
  omega

theorem le16_of16 {bs : List UInt8} (h : bs.length = 2) : le16 (of16 bs) = bs := by
  have hlt : ofLe bs < 2 ^ 16 := by
    have hlt := ofLe_lt bs
    rwa [h] at hlt
  have hle := le_ofLe bs
  rw [h] at hle
  rw [le16, of16, UInt16.toNat_ofNat', Nat.mod_eq_of_lt hlt, hle]

/-- **A change of one word is seen.** -/
theorem checksum_detects {buf : List UInt8} {k : ℕ} {v w : UInt16} (hlen : buf.length ≤ 65535)
    (hk : k % 2 = 0) (hle : k + 2 ≤ buf.length) (h : checksum (splice buf k (le16 v)) 0 = 0)
    (h' : checksum (splice buf k (le16 w)) 0 = 0) :
    v = w ∨ v = 0 ∧ w = 0xFFFF ∨ v = 0xFFFF ∧ w = 0 := by
  have hlen' : ∀ u, (splice buf k (le16 u)).length ≤ 65535 := fun u => by
    rw [length_splice (by simpa using hle)]
    exact hlen
  have hsum : ∀ u : UInt16, checksum (splice buf k (le16 u)) 0 = 0 →
      ones ((leWords (buf.take k)).sum + u.toNat + (leWords (buf.drop (k + 2))).sum) = 65535 := by
    intro u hu
    have hnat := @toNat_checksum _ 0 (hlen' u) (by decide)
    have hones := ones_le ((leWords (buf.take k)).sum + u.toNat + (leWords (buf.drop (k + 2))).sum)
    rw [hu, sum_splice_word hk hle, show (0 : UInt32).toNat = 0 from rfl, Nat.zero_add] at hnat
    rw [show (0 : UInt16).toNat = 0 from rfl] at hnat
    omega
  have hv := v.toNat_lt
  have hw := w.toNat_lt
  rcases words_of_ones (by omega) (by omega) (hsum v h) (hsum w h') with heq | ⟨hz, ho⟩ | ⟨ho, hz⟩
  · exact .inl (UInt16.toNat_inj.mp heq)
  · exact .inr (.inl ⟨UInt16.toNat_inj.mp hz, UInt16.toNat_inj.mp ho⟩)
  · exact .inr (.inr ⟨UInt16.toNat_inj.mp ho, UInt16.toNat_inj.mp hz⟩)

/-! ### One word -/

theorem slice_word {mem : List UInt8} {k : ℕ} (h : 14 + 2 * k + 2 ≤ mem.length) :
    slice mem (14 + 2 * k) 2 = le16 (word mem k) := (le16_of16 (length_slice h)).symm

/-- Two memories that differ in two bytes. -/
theorem eq_splice {mem mem' : List UInt8} {i : ℕ} (hi : i + 2 ≤ mem.length)
    (hlen : mem'.length = mem.length) (h : ∀ j, j ≠ i → j ≠ i + 1 → mem'[j]? = mem[j]?) :
    mem' = splice mem i (slice mem' i 2) := by
  have htake : mem'.take i = mem.take i := by
    refine List.ext_getElem? fun j => ?_
    rw [List.getElem?_take, List.getElem?_take]
    split_ifs with hj
    · exact h j (by omega) (by omega)
    · rfl
  have hdrop : mem'.drop (i + 2) = mem.drop (i + 2) := by
    refine List.ext_getElem? fun j => ?_
    rw [List.getElem?_drop, List.getElem?_drop]
    exact h _ (by omega) (by omega)
  have htwo : (slice mem' i 2).length = 2 := length_slice (by omega)
  have hback : mem'.drop i = slice mem' i 2 ++ mem'.drop (i + 2) := by
    rw [slice, ← List.drop_drop, List.take_append_drop]
  rw [splice, htwo, ← htake, ← hdrop, ← hback, List.take_append_drop]

theorem slice_eq_splice {mem : List UInt8} {k n : ℕ} (hk : 2 * k + 2 ≤ n)
    (hn : 14 + n ≤ mem.length) (v : UInt16) :
    slice (splice mem (14 + 2 * k) (le16 v)) 14 n = splice (slice mem 14 n) (2 * k) (le16 v) :=
  slice_splice_within (by simpa using hk) hn

/-- A packet is handed on only if the sum of its header is right. -/
theorem checksum_of_ipRcv {addr : UInt32} {mem : List UInt8} {p : Packet}
    (h : ipRcv addr mem = some p) : checksum (slice mem 14 (ipHlen mem)) 0 = 0 :=
  (ipRcv_eq_some.mp h).1.2.2.2.1

theorem ipRcv_eq_none {addr : UInt32} {mem : List UInt8}
    (h : checksum (slice mem 14 (ipHlen mem)) 0 ≠ 0) : ipRcv addr mem = none :=
  Option.eq_none_iff_forall_ne_some.mpr fun _ hp => h (checksum_of_ipRcv hp)

theorem Damaged.le {mem mem' : List UInt8} {k : ℕ} (hd : Damaged mem mem' k) :
    2 * k + 2 ≤ ipHlen mem := by
  have hlt := hd.word_lt
  unfold ipHlen at hlt ⊢
  omega

section Damaged

variable {mem mem' : List UInt8} {k : ℕ} (hd : Damaged mem mem' k) (hlen : 74 ≤ mem.length)
include hd hlen

theorem Damaged.eq : mem' = splice mem (14 + 2 * k) (le16 (word mem' k)) := by
  have hle := hd.le
  have hmax := ipHlen_le mem
  have hword : slice mem' (14 + 2 * k) 2 = le16 (word mem' k) :=
    slice_word (by rw [hd.length]; omega)
  rw [← hword]
  exact eq_splice (by omega) hd.length hd.rest

/-- The checksums of the two headers do not both verify. -/
theorem Damaged.checksum_ne (h : checksum (slice mem 14 (ipHlen mem)) 0 = 0) :
    checksum (slice mem' 14 (ipHlen mem')) 0 ≠ 0 := by
  have hle := hd.le
  have hmax := ipHlen_le mem
  have hhlen : ipHlen mem' = ipHlen mem := by
    unfold ipHlen
    rw [hd.ihl]
  have hold : slice mem 14 (ipHlen mem) =
      splice (slice mem 14 (ipHlen mem)) (2 * k) (le16 (word mem k)) := by
    have heq := @eq_splice mem mem (14 + 2 * k) (by omega) rfl fun _ _ _ => rfl
    rw [slice_word (by omega)] at heq
    rw [← slice_eq_splice hle (by omega), ← heq]
  have hnew : slice mem' 14 (ipHlen mem') =
      splice (slice mem 14 (ipHlen mem)) (2 * k) (le16 (word mem' k)) := by
    rw [← slice_eq_splice hle (by omega), ← hd.eq hlen, hhlen]
  have hslen : (slice mem 14 (ipHlen mem)).length = ipHlen mem := length_slice (by omega)
  rw [hold] at h
  intro h'
  rw [hnew] at h'
  rcases checksum_detects (by omega) (by omega) (by omega) h h' with heq | hup | hdown
  · exact hd.changed heq.symm
  · exact hd.rises hup
  · exact hd.falls hdown

end Damaged

/-! ### One bit -/

theorem flip_ne (b : UInt8) {j : ℕ} (hj : j < 8) : b ^^^ UInt8.ofNat (2 ^ j) ≠ b := by
  intro h
  have hzero : UInt8.ofNat (2 ^ j) = 0 := by
    have hcancel := congrArg (b ^^^ ·) h
    simpa [← UInt8.xor_assoc] using hcancel
  have hnat := congrArg UInt8.toNat hzero
  rw [UInt8.toNat_ofNat'] at hnat
  interval_cases j <;> simp at hnat

/-- A bit of the upper half. -/
theorem lowNibble_flip (b : UInt8) {j : ℕ} (h : 4 ≤ j) :
    lowNibble (b ^^^ UInt8.ofNat (2 ^ j)) = lowNibble b := by
  obtain ⟨n, rfl⟩ := Nat.exists_eq_add_of_le h
  have hmod : 2 ^ (4 + n) % 2 ^ 8 % 2 ^ 4 = 0 := by
    rw [Nat.mod_mod_of_dvd _ (by decide), Nat.pow_add, Nat.mul_mod_right]
  apply BitVec.eq_of_toNat_eq
  rw [lowNibble, lowNibble, BitVec.toNat_ofNat, BitVec.toNat_ofNat, UInt8.toNat_xor,
    UInt8.toNat_ofNat', Nat.xor_mod_two_pow, hmod, Nat.xor_zero]

theorem getD_slice {m : List UInt8} {i n j : ℕ} (h : j < n) :
    (slice m i n).getD j 0 = m.getD (i + j) 0 := by
  rw [List.getD_eq_getElem?_getD, List.getD_eq_getElem?_getD, getElem?_slice h]

theorem toNat_word {mem : List UInt8} {k : ℕ} (h : 14 + 2 * k + 2 ≤ mem.length) :
    (word mem k).toNat =
      (mem.getD (14 + 2 * k) 0).toNat + 256 * (mem.getD (14 + 2 * k + 1) 0).toNat := by
  have hlen : (slice mem (14 + 2 * k) 2).length = 2 := length_slice h
  obtain ⟨a, b, hab⟩ := List.length_eq_two.mp hlen
  have ha := getD_slice (m := mem) (i := 14 + 2 * k) (show 0 < 2 by decide)
  have hb := getD_slice (m := mem) (i := 14 + 2 * k) (show 1 < 2 by decide)
  rw [hab] at ha hb
  rw [word, hab, toNat_of16, ← hb]
  exact congrArg (fun b : UInt8 => b.toNat + _) ha

theorem ihl_eq (mem : List UInt8) : (ipHdr mem).ihl = lowNibble (mem.getD 14 0) :=
  congrArg lowNibble (getD_slice (m := mem) (i := 14) (show 0 < 20 by decide))

theorem getD_flipBit {mem : List UInt8} {i j n : ℕ} (hi : i < mem.length) :
    (flipBit mem i j).getD n 0 =
      if n = i then mem.getD i 0 ^^^ UInt8.ofNat (2 ^ j) else mem.getD n 0 := by
  rw [flipBit, List.getD_eq_getElem?_getD, List.getElem?_set]
  split_ifs with h h' h'
  · rfl
  · exact absurd h.symm h'
  · exact absurd h'.symm h
  · rw [List.getD_eq_getElem?_getD]

/-- **A single bit outside `ihl`.** -/
theorem damaged_flipBit {mem : List UInt8} {i j : ℕ} (hlen : 74 ≤ mem.length) (hi : i < ipHlen mem)
    (hj : j < 8) (hihl : i = 0 → 4 ≤ j) : Damaged mem (flipBit mem (14 + i) j) (i / 2) := by
  have hmax := ipHlen_le mem
  have hflip : ∀ n, (flipBit mem (14 + i) j).getD n 0 =
      if n = 14 + i then mem.getD (14 + i) 0 ^^^ UInt8.ofNat (2 ^ j) else mem.getD n 0 :=
    fun n => getD_flipBit (by omega)
  have hflen : (flipBit mem (14 + i) j).length = mem.length := List.length_set
  have hold := @toNat_word mem (i / 2) (by omega)
  have hnew := @toNat_word (flipBit mem (14 + i) j) (i / 2) (by omega)
  have hne : (mem.getD (14 + i) 0 ^^^ UInt8.ofNat (2 ^ j)).toNat ≠ (mem.getD (14 + i) 0).toNat :=
    fun h => flip_ne _ hj (UInt8.toNat_inj.mp h)
  -- the other byte of the word stays, and this one changes
  have hbytes : ∃ a a' b : ℕ, a ≠ a' ∧ a < 256 ∧ a' < 256 ∧ b < 256 ∧
      ((word mem (i / 2)).toNat = a + 256 * b ∧
          (word (flipBit mem (14 + i) j) (i / 2)).toNat = a' + 256 * b ∨
        (word mem (i / 2)).toNat = b + 256 * a ∧
          (word (flipBit mem (14 + i) j) (i / 2)).toNat = b + 256 * a') := by
    refine ⟨(mem.getD (14 + i) 0).toNat, (mem.getD (14 + i) 0 ^^^ UInt8.ofNat (2 ^ j)).toNat, ?_⟩
    rcases Nat.mod_two_eq_zero_or_one i with heven | hodd
    · have hat : 14 + 2 * (i / 2) = 14 + i := by omega
      rw [hat, hflip, hflip, if_pos rfl, if_neg (by omega)] at hnew
      rw [hat] at hold
      exact ⟨(mem.getD (14 + i + 1) 0).toNat, hne.symm, UInt8.toNat_lt _, UInt8.toNat_lt _,
        UInt8.toNat_lt _, .inl ⟨hold, hnew⟩⟩
    · have hat : 14 + 2 * (i / 2) + 1 = 14 + i := by omega
      rw [hat, hflip, hflip, if_pos rfl, if_neg (by omega)] at hnew
      rw [hat] at hold
      exact ⟨(mem.getD (14 + 2 * (i / 2)) 0).toNat, hne.symm, UInt8.toNat_lt _, UInt8.toNat_lt _,
        UInt8.toNat_lt _, .inr ⟨hold, hnew⟩⟩
  obtain ⟨a, a', b, hab, ha, ha', hb, hcase⟩ := hbytes
  have hnat : ∀ {u v : UInt16}, u = v → u.toNat = v.toNat := fun h => congrArg UInt16.toNat h
  refine ⟨by omega, hflen, fun n hn hn' => ?_, fun h => ?_, ?_, fun h => ?_, fun h => ?_⟩
  · exact List.getElem?_set_ne (by omega)
  · have := hnat h
    omega
  · rw [ihl_eq, ihl_eq, hflip]
    split_ifs with h14
    · have hzero : i = 0 := by omega
      subst hzero
      exact lowNibble_flip _ (hihl rfl)
    · rfl
  · have hzero : _ = 0 := hnat h.1
    have hones : _ = 65535 := hnat h.2
    omega
  · have hones : _ = 65535 := hnat h.1
    have hzero : _ = 0 := hnat h.2
    omega

/-! ### The result -/

/-- **A damaged header is noticed.** -/
theorem damage_dropped (addr : UInt32) (buf : RxBuf) (p : Packet) (h : ipRcv addr buf.mem = some p) :
    (∀ (buf' : RxBuf) (k : ℕ), Damaged buf.mem buf'.mem k → ipRcv addr buf'.mem = none ∧
      (addr = stackaddr → ∀ b isn s, ipIn b buf'.mem isn s = freeSkb b s)) ∧
    ∀ i j, i < ipHlen buf.mem → j < 8 → (i = 0 → 4 ≤ j) →
      ipRcv addr (flipBit buf.mem (14 + i) j) = none := by
  have hlen : 74 ≤ buf.mem.length := by
    rw [buf.length_mem]
    decide
  have hnone : ∀ mem' k, Damaged buf.mem mem' k → ipRcv addr mem' = none := fun mem' k hd =>
    ipRcv_eq_none (hd.checksum_ne hlen (checksum_of_ipRcv h))
  refine ⟨fun buf' k hd => ⟨hnone _ k hd, ?_⟩, fun i j hi hj hihl => ?_⟩
  · rintro rfl b isn s
    rw [ipIn, hnone _ k hd]
  · exact hnone _ _ (damaged_flipBit hlen hi hj hihl)

/-- An echo request with one bit of its time to live flipped. -/
theorem damage_dropped_echo : ipRcv stackaddr (flipBit shortBuf.mem 22 0) = none := by
  have hmem : 54 ≤ shortBuf.mem.length := by
    rw [shortBuf.length_mem]
    decide
  have hhanded := (handed_icmp hmem).mpr
    ⟨show Passed shortBuf.mem by decide +kernel, by decide +kernel, rfl⟩
  exact (damage_dropped stackaddr shortBuf _ (ipRcv_of_handed hhanded).2).2 8 0 (by decide +kernel)
    (by decide) (by decide)

end ToyIP.Stack.Corruption
