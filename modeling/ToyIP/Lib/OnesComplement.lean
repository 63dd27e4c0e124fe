import Mathlib.Tactic

/-! # One's complement sums of 16-bit words

Words are added with end-around carry. Modulo `65535` this is addition, and of the two values with
residue `0` the sum takes `0` for no word but zeros only, so a sum is `ones` of the plain sum
(`eacSum_eq`). To swap the bytes of a word is to multiply it by `256` modulo `65535`, so it does not
matter whether words are swapped before or after they are added (`eacSum_map_swap`). -/

namespace ToyIP.Lib.OnesComplement

/-- Addition with end-around carry. -/
def eac (x y : ℕ) : ℕ := (x + y) % 65536 + (x + y) / 65536

/-- The sum of a list of words. -/
def eacSum (ws : List ℕ) : ℕ := ws.foldl eac 0

/-- The representative modulo `65535` between `1` and `65535`, and `0` for `0`. -/
def ones (s : ℕ) : ℕ := if s = 0 then 0 else (s - 1) % 65535 + 1

/-- The two bytes of a word change places. -/
def swap (x : ℕ) : ℕ := x % 256 * 256 + x / 256

theorem ones_le (s : ℕ) : ones s ≤ 65535 := by
  unfold ones
  split_ifs <;> omega

theorem ones_eq_zero_iff (s : ℕ) : ones s = 0 ↔ s = 0 := by
  unfold ones
  split_ifs with h <;> simp [h]

theorem ones_mod (s : ℕ) : ones s % 65535 = s % 65535 := by
  unfold ones
  split_ifs <;> omega

/-- A word with the residue of `s` that is zero exactly if `s` is. -/
theorem eq_ones {a s : ℕ} (hle : a ≤ 65535) (hzero : a = 0 ↔ s = 0)
    (hmod : a % 65535 = s % 65535) : a = ones s := by
  have hle' := ones_le s
  have hzero' := ones_eq_zero_iff s
  have hmod' := ones_mod s
  omega

theorem ones_of_lt {s : ℕ} (h : s < 65536) : ones s = s :=
  (eq_ones (by omega) Iff.rfl rfl).symm

/-- One round of folding keeps the value of a sum. -/
theorem ones_fold (s : ℕ) : ones (s % 65536 + s / 65536) = ones s := by
  refine eq_ones (ones_le _) ?_ ?_
  · rw [ones_eq_zero_iff]
    omega
  · rw [ones_mod]
    omega

theorem eac_eq {x y : ℕ} (hx : x ≤ 65535) (hy : y ≤ 65535) : eac x y = ones (x + y) := by
  unfold eac
  exact eq_ones (by omega) (by omega) (by omega)

theorem ones_add (a b : ℕ) : ones (ones a + b) = ones (a + b) := by
  have hzero := ones_eq_zero_iff a
  have hmod := ones_mod a
  refine eq_ones (ones_le _) ?_ ?_
  · rw [ones_eq_zero_iff]
    omega
  · rw [ones_mod]
    omega

theorem eacSum_eq {ws : List ℕ} (h : ∀ w ∈ ws, w ≤ 65535) : eacSum ws = ones ws.sum := by
  have hfold : ∀ (ws : List ℕ) (a : ℕ), (∀ w ∈ ws, w ≤ 65535) →
      ws.foldl eac (ones a) = ones (a + ws.sum) := by
    intro ws
    induction ws with
    | nil =>
      intro a _
      simp
    | cons w ws ih =>
      intro a hws
      have hw := hws w (List.mem_cons_self ..)
      rw [List.foldl_cons, eac_eq (ones_le a) hw, ones_add, ih _ fun x hx =>
        hws x (List.mem_cons_of_mem _ hx), List.sum_cons, Nat.add_assoc]
  have h0 := hfold ws 0 h
  rwa [Nat.zero_add] at h0

/-! ### Byte order -/

theorem swap_le {x : ℕ} (h : x ≤ 65535) : swap x ≤ 65535 := by
  unfold swap
  omega

theorem swap_eq_zero_iff (x : ℕ) : swap x = 0 ↔ x = 0 := by
  unfold swap
  omega

theorem swap_swap {x : ℕ} (h : x ≤ 65535) : swap (swap x) = x := by
  unfold swap
  omega

/-- To swap is to multiply by `256`. -/
theorem swap_mod {x : ℕ} : swap x % 65535 = 256 * x % 65535 := by
  unfold swap
  omega

theorem swap_complement {x : ℕ} (h : x ≤ 65535) : swap (65535 - x) = 65535 - swap x := by
  unfold swap
  omega

theorem sum_map_swap (ws : List ℕ) : (ws.map swap).sum % 65535 = 256 * ws.sum % 65535 ∧
    ((ws.map swap).sum = 0 ↔ ws.sum = 0) := by
  induction ws with
  | nil => simp
  | cons w ws ih =>
    obtain ⟨hmod, hzero⟩ := ih
    have hw := swap_mod (x := w)
    have hw' := swap_eq_zero_iff w
    rw [List.map_cons, List.sum_cons, List.sum_cons]
    constructor
    · omega
    · omega

/-- **The sum of the swapped words is the swapped sum.** -/
theorem eacSum_map_swap {ws : List ℕ} (h : ∀ w ∈ ws, w ≤ 65535) :
    eacSum (ws.map swap) = swap (eacSum ws) := by
  obtain ⟨hmod, hzero⟩ := sum_map_swap ws
  have hws : ∀ w ∈ ws.map swap, w ≤ 65535 := by
    intro w hw
    obtain ⟨x, hx, rfl⟩ := List.mem_map.mp hw
    exact swap_le (h x hx)
  rw [eacSum_eq hws, eacSum_eq h]
  refine (eq_ones (swap_le (ones_le _)) ?_ ?_).symm
  · rw [swap_eq_zero_iff, ones_eq_zero_iff, hzero]
  · have hones := ones_mod ws.sum
    rw [swap_mod, hmod]
    omega

/-- A sum with the complement of its value added has no zero bit. -/
theorem ones_add_complement (t : ℕ) : ones (t + (65535 - ones t)) = 65535 := by
  have hle := ones_le t
  have hmod := ones_mod t
  have hzero := ones_eq_zero_iff t
  refine (eq_ones (Nat.le_refl _) ?_ ?_).symm
  · omega
  · omega

/-! ### Bytes as words -/

/-- The words of a byte string with the high byte first; an odd last byte is padded with a zero on
the right. -/
def beWords : List UInt8 → List ℕ
  | a :: b :: rest => (256 * a.toNat + b.toNat) :: beWords rest
  | [a] => [256 * a.toNat]
  | [] => []

/-- The same with the low byte first. -/
def leWords : List UInt8 → List ℕ
  | a :: b :: rest => (a.toNat + 256 * b.toNat) :: leWords rest
  | [a] => [a.toNat]
  | [] => []

/-- The Internet checksum of a byte string. -/
def internetChecksum (bs : List UInt8) : ℕ := 65535 - eacSum (beWords bs)

theorem beWords_eq : ∀ bs : List UInt8, beWords bs = (leWords bs).map swap
  | [] => rfl
  | [a] => by
    have ha := a.toNat_lt
    have hw : 256 * a.toNat = swap a.toNat := by
      unfold swap
      omega
    rw [beWords, leWords, List.map_singleton, hw]
  | a :: b :: rest => by
    have ha := a.toNat_lt
    have hb := b.toNat_lt
    have hw : 256 * a.toNat + b.toNat = swap (a.toNat + 256 * b.toNat) := by
      unfold swap
      omega
    rw [beWords, leWords, List.map_cons, beWords_eq rest, hw]

theorem leWords_le : ∀ (bs : List UInt8), ∀ w ∈ leWords bs, w ≤ 65535
  | [], w, h => absurd h (List.not_mem_nil)
  | [a], w, h => by
    have ha := a.toNat_lt
    rw [leWords, List.mem_singleton] at h
    omega
  | a :: b :: rest, w, h => by
    have ha := a.toNat_lt
    have hb := b.toNat_lt
    rcases List.mem_cons.mp h with h | h
    · omega
    · exact leWords_le rest w h

theorem length_leWords : ∀ bs : List UInt8, (leWords bs).length = (bs.length + 1) / 2
  | [] => rfl
  | [a] => by simp [leWords]
  | a :: b :: rest => by
    rw [leWords, List.length_cons, length_leWords rest, List.length_cons, List.length_cons]
    omega

theorem leWords_append {as bs : List UInt8} (h : as.length % 2 = 0) :
    leWords (as ++ bs) = leWords as ++ leWords bs := by
  induction as using leWords.induct with
  | case1 a b rest ih =>
    rw [List.cons_append, List.cons_append, leWords, leWords, List.cons_append, ih]
    rw [List.length_cons, List.length_cons] at h
    omega
  | case2 a => simp at h
  | case3 => rfl

/-- A sum of words of a byte string is far from `2^32`. -/
theorem sum_leWords_le (bs : List UInt8) : (leWords bs).sum ≤ (bs.length + 1) / 2 * 65535 := by
  have h := List.sum_le_card_nsmul (leWords bs) 65535 (leWords_le bs)
  rwa [length_leWords, smul_eq_mul] at h

/-- The checksum in the other byte order. -/
theorem internetChecksum_eq (bs : List UInt8) :
    internetChecksum bs = swap (65535 - ones (leWords bs).sum) := by
  rw [internetChecksum, beWords_eq, eacSum_map_swap (leWords_le bs), eacSum_eq (leWords_le bs),
    swap_complement (ones_le _)]

end ToyIP.Lib.OnesComplement
