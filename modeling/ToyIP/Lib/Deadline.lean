import Mathlib.Data.List.Basic
import Mathlib.Data.Nat.Notation

/-! # Deadlines under a clock that waits

Cells are added to a list, each with a deadline `delay` ahead of the clock, and stay in it; a live
cell can be put out at any time and never comes back. The clock waits: it goes on only when no live
cell has a deadline behind it. Then a live cell is at most one tick past its deadline (`OnTime`). -/

namespace ToyIP.Lib.Deadline

variable {α : Type*} {live : α → Prop} {delay : α → ℕ} {cells cells' cells'' : List α}
  {deadlines : List ℕ} {now : ℕ}

/-- Cells have been added and put out. -/
structure Grows (live : α → Prop) (delay : α → ℕ) (cells cells' : List α) : Prop where
  length : cells.length ≤ cells'.length
  old : ∀ (i : ℕ) c', i < cells.length → cells'[i]? = some c' → live c' →
    ∃ c, cells[i]? = some c ∧ live c ∧ delay c' = delay c

/-- The deadlines of the cells at the time `now`. -/
structure OnTime (live : α → Prop) (delay : α → ℕ) (cells : List α) (deadlines : List ℕ)
    (now : ℕ) : Prop where
  length : deadlines.length = cells.length
  soon : ∀ (i : ℕ) c d, cells[i]? = some c → deadlines[i]? = some d → live c → d ≤ now + delay c
  late : ∀ (i : ℕ) c d, cells[i]? = some c → deadlines[i]? = some d → live c → now ≤ d + 1

/-! ### What happens to the cells -/

theorem Grows.refl (cells : List α) : Grows live delay cells cells :=
  ⟨Nat.le_refl _, fun _ c' _ hc hl => ⟨c', hc, hl, rfl⟩⟩

theorem Grows.trans (h : Grows live delay cells cells') (h' : Grows live delay cells' cells'') :
    Grows live delay cells cells'' := by
  refine ⟨Nat.le_trans h.length h'.length, fun i c'' hi hc hl => ?_⟩
  obtain ⟨c', hc', hl', hd'⟩ := h'.old i c'' (Nat.lt_of_lt_of_le hi h.length) hc hl
  obtain ⟨c, hc, hl, hd⟩ := h.old i c' hi hc' hl'
  exact ⟨c, hc, hl, hd'.trans hd⟩

/-- Something happens to one cell. -/
theorem grows_modify {f : α → α} (hf : ∀ c, live (f c) → live c ∧ delay (f c) = delay c)
    (cells : List α) (j : ℕ) : Grows live delay cells (cells.modify j f) := by
  refine ⟨Nat.le_of_eq (List.length_modify ..).symm, fun i c' _ hc' hl => ?_⟩
  rw [List.getElem?_modify] at hc'
  obtain ⟨c, hc, rfl⟩ := Option.map_eq_some_iff.mp hc'
  split_ifs at hl ⊢
  · exact ⟨c, hc, (hf c hl).1, (hf c hl).2⟩
  · exact ⟨c, hc, hl, rfl⟩

theorem grows_append (cells new : List α) : Grows live delay cells (cells ++ new) := by
  refine ⟨by simp, fun i c' hi hc hl => ⟨c', ?_, hl, rfl⟩⟩
  rwa [List.getElem?_append_left hi] at hc

/-! ### The clock -/

theorem onTime_nil (now : ℕ) : OnTime live delay [] [] now := ⟨rfl, by simp, by simp⟩

/-- New cells get deadlines. -/
theorem OnTime.grows (h : OnTime live delay cells deadlines now)
    (hg : Grows live delay cells cells') : OnTime live delay cells'
      (deadlines ++ (cells'.drop deadlines.length).map fun c => now + delay c) now := by
  have hlen := h.length
  have hle := hg.length
  have hnew : ∀ (i : ℕ) c d, ¬ i < cells.length → cells'[i]? = some c →
      (deadlines ++ (cells'.drop deadlines.length).map fun c => now + delay c)[i]? = some d →
        d = now + delay c := by
    intro i c d hi hc hd
    rw [List.getElem?_append_right (by omega), List.getElem?_map, List.getElem?_drop,
      show deadlines.length + (i - deadlines.length) = i by omega, hc] at hd
    exact (Option.some.inj hd).symm
  have hold : ∀ (i : ℕ) d, i < cells.length →
      (deadlines ++ (cells'.drop deadlines.length).map fun c => now + delay c)[i]? = some d →
        deadlines[i]? = some d := by
    intro i d hi hd
    rwa [List.getElem?_append_left (by omega)] at hd
  refine ⟨by simp; omega, fun i c d hc hd hl => ?_, fun i c d hc hd hl => ?_⟩
  · by_cases hi : i < cells.length
    · obtain ⟨c₀, hc₀, hl₀, hdelay⟩ := hg.old i c hi hc hl
      have := h.soon i c₀ d hc₀ (hold i d hi hd) hl₀
      omega
    · exact Nat.le_of_eq (hnew i c d hi hc hd)
  · by_cases hi : i < cells.length
    · obtain ⟨c₀, hc₀, hl₀, -⟩ := hg.old i c hi hc hl
      exact h.late i c₀ d hc₀ (hold i d hi hd) hl₀
    · have := hnew i c d hi hc hd
      omega

/-- The clock goes on. -/
theorem OnTime.tick (h : OnTime live delay cells deadlines now)
    (hdue : ∀ (i : ℕ) c d, cells[i]? = some c → deadlines[i]? = some d → live c → now ≤ d) :
    OnTime live delay cells deadlines (now + 1) := by
  refine ⟨h.length, fun i c d hc hd hl => ?_, fun i c d hc hd hl => ?_⟩
  · have := h.soon i c d hc hd hl
    omega
  · have := hdue i c d hc hd hl
    omega

/-- **A cell does not outlive its deadline by more than a tick.** -/
theorem OnTime.over (h : OnTime live delay cells deadlines now) {i d : ℕ} {c : α}
    (hd : deadlines[i]? = some d) (hlate : d + 1 < now) (hc : cells[i]? = some c) : ¬ live c :=
  fun hl => absurd (h.late i c d hc hd hl) (by omega)

end ToyIP.Lib.Deadline
