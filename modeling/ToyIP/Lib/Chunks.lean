import Mathlib.Tactic

/-! # Lists in chunks

`chunks n xs` cuts a list into chunks of `n` elements; the last one can be shorter. `placed` gives
every chunk its place, the number of elements before it, and tells whether it is the last. -/

namespace ToyIP.Lib.Chunks

variable {α β : Type*}

def chunks (n : ℕ) (xs : List α) : List (List α) :=
  if xs = [] ∨ n = 0 then [] else xs.take n :: chunks n (xs.drop n)
termination_by xs.length
decreasing_by
  rename_i h
  rw [not_or] at h
  have hpos := List.length_pos_iff.mpr h.1
  rw [List.length_drop]
  omega

theorem chunks_nil (n : ℕ) : chunks n ([] : List α) = [] := by
  rw [chunks, if_pos (.inl rfl)]

theorem chunks_cons {n : ℕ} (hn : 0 < n) {xs : List α} (h : xs ≠ []) :
    chunks n xs = xs.take n :: chunks n (xs.drop n) := by
  rw [chunks, if_neg (not_or.mpr ⟨h, by omega⟩)]

/-- Induction along the chunks. -/
theorem chunks_ind {n : ℕ} (hn : 0 < n) {P : List α → Prop} (nil : P [])
    (cons : ∀ xs, xs ≠ [] → P (xs.drop n) → P xs) (xs : List α) : P xs := by
  induction hlen : xs.length using Nat.strong_induction_on generalizing xs with
  | _ k ih =>
    by_cases h : xs = []
    · exact h ▸ nil
    · have hpos := List.length_pos_iff.mpr h
      exact cons xs h (ih _ (by rw [List.length_drop]; omega) _ rfl)

theorem chunks_eq_nil {n : ℕ} (hn : 0 < n) {xs : List α} : chunks n xs = [] ↔ xs = [] := by
  constructor
  · intro h
    by_contra hne
    rw [chunks_cons hn hne] at h
    cases h
  · rintro rfl
    exact chunks_nil n

theorem flatten_chunks {n : ℕ} (hn : 0 < n) (xs : List α) : (chunks n xs).flatten = xs := by
  induction xs using chunks_ind hn with
  | nil => rw [chunks_nil, List.flatten_nil]
  | cons xs h ih => rw [chunks_cons hn h, List.flatten_cons, ih, List.take_append_drop]

theorem length_chunks {n : ℕ} (hn : 0 < n) (xs : List α) :
    (chunks n xs).length = (xs.length + n - 1) / n := by
  induction xs using chunks_ind hn with
  | nil =>
    rw [chunks_nil, List.length_nil, List.length_nil, Nat.zero_add, Nat.div_eq_of_lt (by omega)]
  | cons xs h ih =>
    have hpos := List.length_pos_iff.mpr h
    rw [chunks_cons hn h, List.length_cons, ih, List.length_drop]
    rcases Nat.le_total n xs.length with hle | hle
    · rw [← Nat.add_div_right _ hn]
      congr 1
      omega
    · rw [Nat.sub_eq_zero_of_le hle, Nat.zero_add, Nat.div_eq_of_lt (by omega),
        show xs.length + n - 1 = xs.length - 1 + n by omega, Nat.add_div_right _ hn,
        Nat.div_eq_of_lt (by omega)]

theorem length_of_mem_chunks {n : ℕ} (hn : 0 < n) {xs c : List α} (hc : c ∈ chunks n xs) :
    1 ≤ c.length ∧ c.length ≤ n := by
  induction xs using chunks_ind hn with
  | nil =>
    rw [chunks_nil] at hc
    cases hc
  | cons xs h ih =>
    have hpos := List.length_pos_iff.mpr h
    rw [chunks_cons hn h] at hc
    rcases List.mem_cons.mp hc with rfl | hc
    · rw [List.length_take]
      omega
    · exact ih hc

/-- Every chunk with its place, `k` being that of the first. -/
def placed (f : ℕ → List α → Bool → β) : ℕ → List (List α) → List β
  | _, [] => []
  | k, c :: cs => f k c cs.isEmpty :: placed f (k + c.length) cs

theorem getElem?_placed (f : ℕ → List α → Bool → β) : ∀ (k : ℕ) (cs : List (List α)) (i : ℕ),
    (placed f k cs)[i]? =
      cs[i]?.map fun c => f (k + (cs.take i).flatten.length) c (decide (i + 1 = cs.length))
  | _, [], _ => rfl
  | k, c :: cs, 0 => by
    cases cs <;> rfl
  | k, c :: cs, i + 1 => by
    have ih := getElem?_placed f (k + c.length) cs i
    rw [placed, List.getElem?_cons_succ, List.getElem?_cons_succ, ih, List.take_succ_cons,
      List.flatten_cons, List.length_append, Nat.add_assoc]
    simp

theorem length_placed (f : ℕ → List α → Bool → β) : ∀ (k : ℕ) (cs : List (List α)),
    (placed f k cs).length = cs.length
  | _, [] => rfl
  | k, c :: cs => by rw [placed, List.length_cons, length_placed, List.length_cons]

end ToyIP.Lib.Chunks
