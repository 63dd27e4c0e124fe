import Mathlib.Tactic

/-! # Words and structures as bytes

`le n v` are the `n` bytes of the number `v` with the lowest byte first, and `ofLe` reads them back;
`be` and `ofBe` are the same with the highest byte first. A machine word lies in memory by `le`, so
the value whose bytes are `be n v` is `v` with its bytes in the opposite order (`swapBytes`).

`slice m i n` are `n` bytes of a memory from `i` on, and `splice m i xs` writes `xs` there. -/

namespace ToyIP.Lib.Bytes

/-- The bytes of `v`, the lowest first. -/
def le : ℕ → ℕ → List UInt8
  | 0, _ => []
  | n + 1, v => UInt8.ofNat (v % 256) :: le n (v / 256)

/-- The number with these bytes, the lowest first. -/
def ofLe : List UInt8 → ℕ
  | [] => 0
  | b :: bs => b.toNat + 256 * ofLe bs

/-- The bytes of `v`, the highest first. -/
def be (n v : ℕ) : List UInt8 := (le n v).reverse

/-- The number with these bytes, the highest first. -/
def ofBe (bs : List UInt8) : ℕ := ofLe bs.reverse

/-- The number with the bytes of `v` in the opposite order. -/
def swapBytes (n v : ℕ) : ℕ := ofLe (be n v)

@[simp] theorem length_le (n v : ℕ) : (le n v).length = n := by
  induction n generalizing v with
  | zero => rfl
  | succ n ih => rw [le, List.length_cons, ih]

@[simp] theorem length_be (n v : ℕ) : (be n v).length = n := by
  rw [be, List.length_reverse, length_le]

theorem ofLe_lt (bs : List UInt8) : ofLe bs < 256 ^ bs.length := by
  induction bs with
  | nil => simp [ofLe]
  | cons b bs ih =>
    have hb := b.toNat_lt
    rw [ofLe, List.length_cons, Nat.pow_succ]
    omega

theorem ofLe_le (n v : ℕ) : ofLe (le n v) = v % 256 ^ n := by
  induction n generalizing v with
  | zero => simp [le, ofLe, Nat.mod_one]
  | succ n ih =>
    have hmod := Nat.mod_mul (a := 256) (b := 256 ^ n) (x := v)
    rw [le, ofLe, ih, Nat.pow_succ, Nat.mul_comm (256 ^ n), hmod]
    simp

theorem ofLe_le_of_lt {n v : ℕ} (h : v < 256 ^ n) : ofLe (le n v) = v := by
  rw [ofLe_le, Nat.mod_eq_of_lt h]

theorem le_ofLe (bs : List UInt8) : le bs.length (ofLe bs) = bs := by
  induction bs with
  | nil => rfl
  | cons b bs ih =>
    have hb := b.toNat_lt
    have hmod : (b.toNat + 256 * ofLe bs) % 256 = b.toNat := by omega
    have hdiv : (b.toNat + 256 * ofLe bs) / 256 = ofLe bs := by omega
    rw [List.length_cons, ofLe, le, hmod, hdiv, ih, UInt8.ofNat_toNat]

theorem swapBytes_lt (n v : ℕ) : swapBytes n v < 256 ^ n := by
  have h := ofLe_lt (be n v)
  rwa [length_be] at h

/-- In memory the flipped number has the highest byte of `v` first. -/
theorem le_swapBytes (n v : ℕ) : le n (swapBytes n v) = be n v := by
  have h := le_ofLe (be n v)
  rwa [length_be] at h

theorem swapBytes_swapBytes {n v : ℕ} (h : v < 256 ^ n) : swapBytes n (swapBytes n v) = v := by
  show ofLe (be n (swapBytes n v)) = v
  rw [be, le_swapBytes, be, List.reverse_reverse, ofLe_le_of_lt h]

/-! ### Slices of a memory -/

variable {α : Type*}

/-- The `n` elements from `i` on. -/
def slice (m : List α) (i n : ℕ) : List α := (m.drop i).take n

/-- `xs` is written from `i` on. -/
def splice (m : List α) (i : ℕ) (xs : List α) : List α := m.take i ++ (xs ++ m.drop (i + xs.length))

theorem length_slice {m : List α} {i n : ℕ} (h : i + n ≤ m.length) : (slice m i n).length = n := by
  rw [slice, List.length_take, List.length_drop]
  omega

theorem length_splice {m xs : List α} {i : ℕ} (h : i + xs.length ≤ m.length) :
    (splice m i xs).length = m.length := by
  rw [splice, List.length_append, List.length_append, List.length_take, List.length_drop]
  omega

theorem slice_splice_self (m xs : List α) {i : ℕ} (h : i + xs.length ≤ m.length) :
    slice (splice m i xs) i xs.length = xs := by
  have hi : (m.take i).length = i := by
    rw [List.length_take]
    omega
  rw [slice, splice, List.drop_append_of_le_length (by omega), List.drop_of_length_le (by omega),
    List.nil_append, List.take_left]

/-- The written part, by its length. -/
theorem slice_splice_eq {m xs : List α} {i n : ℕ} (hn : xs.length = n) (h : i + n ≤ m.length) :
    slice (splice m i xs) i n = xs := by
  subst hn
  exact slice_splice_self m xs h

/-- What lies before the part that is written. -/
theorem slice_splice_before {m xs : List α} {i j n : ℕ} (hi : i ≤ m.length) (h : j + n ≤ i) :
    slice (splice m i xs) j n = slice m j n := by
  have hlen : (m.take i).length = i := by
    rw [List.length_take]
    omega
  rw [slice, slice, splice, List.drop_append_of_le_length (by omega),
    List.take_append_of_le_length (by rw [List.length_drop]; omega), List.drop_take, List.take_take]
  congr 1
  omega

/-- What lies behind the part that is written. -/
theorem drop_splice_behind {m xs : List α} {i j : ℕ} (hi : i ≤ m.length) (h : i + xs.length ≤ j) :
    (splice m i xs).drop j = m.drop j := by
  have hlen : (m.take i).length = i := by
    rw [List.length_take]
    omega
  obtain ⟨k, rfl⟩ := Nat.exists_eq_add_of_le h
  rw [splice, ← List.append_assoc, List.drop_append,
    List.drop_of_length_le (by rw [List.length_append]; omega), List.nil_append, List.length_append,
    hlen, List.drop_drop]
  congr 1
  omega

theorem slice_splice_behind {m xs : List α} {i j n : ℕ} (hi : i ≤ m.length)
    (h : i + xs.length ≤ j) : slice (splice m i xs) j n = slice m j n := by
  rw [slice, slice, drop_splice_behind hi h]

/-- A part of the memory that the written part lies in. -/
theorem slice_splice_within {m xs : List α} {i k n : ℕ} (hk : k + xs.length ≤ n)
    (hn : i + n ≤ m.length) : slice (splice m (i + k) xs) i n = splice (slice m i n) k xs := by
  have hlen : (m.take (i + k)).length = i + k := by
    rw [List.length_take]
    omega
  have hfront : (m.take (i + k)).drop i = (m.drop i).take k := by
    rw [List.drop_take, Nat.add_sub_cancel_left]
  have hfrontlen : ((m.drop i).take k).length = k := by
    rw [List.length_take, List.length_drop]
    omega
  have hback : m.drop (i + k + xs.length) = (m.drop i).drop (k + xs.length) := by
    rw [List.drop_drop, Nat.add_assoc]
  have htake : ((m.drop i).take k).take n = (m.drop i).take k := by
    rw [List.take_take, Nat.min_eq_right (by omega)]
  have hxs : xs.take (n - k) = xs := List.take_of_length_le (by omega)
  unfold slice splice
  rw [List.drop_append_of_le_length (by omega), hfront, List.take_append, hfrontlen, htake,
    List.take_append, hxs, List.take_take, Nat.min_eq_left (by omega), List.drop_take, hback,
    Nat.sub_sub]

/-- What was written, and what lies behind it. -/
theorem drop_splice (m xs : List α) {i : ℕ} (h : i ≤ m.length) :
    (splice m i xs).drop i = xs ++ m.drop (i + xs.length) := by
  have hi : (m.take i).length = i := by
    rw [List.length_take]
    omega
  rw [splice, List.drop_append_of_le_length (by omega), List.drop_of_length_le (by omega),
    List.nil_append]

theorem splice_splice {m xs ys : List α} {i : ℕ} (hi : i ≤ m.length) (h : ys.length = xs.length) :
    splice (splice m i xs) i ys = splice m i ys := by
  have hlen : (m.take i).length = i := by
    rw [List.length_take]
    omega
  unfold splice
  rw [List.take_append_of_le_length (by omega), List.take_take, Nat.min_self,
    ← List.append_assoc (m.take i) xs, List.drop_append,
    List.drop_of_length_le (by rw [List.length_append]; omega), List.nil_append, List.length_append,
    hlen, List.drop_drop, h]
  congr 3
  omega

theorem slice_append {m : List α} {i n : ℕ} (h : i + n ≤ m.length) (xs : List α) :
    slice (m ++ xs) i n = slice m i n := by
  rw [slice, slice, List.drop_append_of_le_length (by omega),
    List.take_append_of_le_length (by rw [List.length_drop]; omega)]

/-- A slice is two slices. -/
theorem slice_add (m : List α) (i n k : ℕ) :
    slice m i (n + k) = slice m i n ++ slice m (i + n) k := by
  rw [slice, slice, slice, List.take_add, List.drop_drop]

theorem slice_of_append {a b : List α} {i n : ℕ} (h : a.length ≤ i) :
    slice (a ++ b) i n = slice b (i - a.length) n := by
  rw [slice, slice, List.drop_append, List.drop_eq_nil_of_le h, List.nil_append]

theorem slice_prefix {a b : List α} {n : ℕ} (h : a.length = n) :
    slice (a ++ b) 0 n = a := by
  rw [slice, List.drop_zero, ← h, List.take_left]

theorem slice_all (a : List α) : slice a 0 a.length = a := by
  rw [slice, List.drop_zero, List.take_length]

theorem slice_slice {m : List α} {i n j k : ℕ} (h : j + k ≤ n) :
    slice (slice m i n) j k = slice m (i + j) k := by
  rw [slice, slice, slice, List.drop_take, List.drop_drop, List.take_take]
  congr 1
  omega

theorem getElem?_slice {m : List α} {i n j : ℕ} (h : j < n) : (slice m i n)[j]? = m[i + j]? := by
  rw [slice, List.getElem?_take_of_lt h, List.getElem?_drop]

end ToyIP.Lib.Bytes
