import Mathlib.Data.List.Basic
import Mathlib.Data.Nat.Notation

/-! # A pointer to the one live cell of a list

Cells are added at the end of a list and never taken out; a cell is live or not. `Owns live cells p`
says that the pointer `p` names the live cell, and that there is none if `p` is empty. The lemmas
say what the pointer has to become when a cell is added, when the live cell dies, and when something
else happens to a cell that is not live. -/

namespace ToyIP.Lib.Owner

variable {α : Type*} {live : α → Prop} {cells : List α} {p : Option ℕ} {i : ℕ} {t : α}

/-- The pointer names the one live cell. -/
def Owns (live : α → Prop) (cells : List α) (p : Option ℕ) : Prop :=
  ∀ i, p = some i ↔ ∃ t, cells[i]? = some t ∧ live t

theorem owns_nil : Owns live [] none := fun i => by simp

theorem Owns.get (h : Owns live cells (some i)) : ∃ t, cells[i]? = some t ∧ live t :=
  (h i).mp rfl

theorem Owns.not_live (h : Owns live cells none) (hi : cells[i]? = some t) : ¬ live t := fun ht => by
  have := (h i).mpr ⟨t, hi, ht⟩
  simp at this

/-- Without a live cell the pointer is empty. -/
theorem getElem?_append_singleton (cells : List α) (t : α) (j : ℕ) :
    (cells ++ [t])[j]? = if j = cells.length then some t else cells[j]? := by
  rcases Nat.lt_trichotomy j cells.length with hj | hj | hj
  · rw [List.getElem?_append_left hj, if_neg (by omega)]
  · rw [if_pos hj, hj, List.getElem?_append_right (by omega)]
    simp
  · rw [List.getElem?_append_right (by omega), if_neg (by omega),
      List.getElem?_eq_none (by simp; omega), List.getElem?_eq_none (by omega)]

/-- A new live cell is the one the pointer names. -/
theorem Owns.append_live (h : Owns live cells none) (ht : live t) :
    Owns live (cells ++ [t]) (some cells.length) := fun j => by
  rw [getElem?_append_singleton]
  split_ifs with hj
  · exact iff_of_true (by rw [hj]) ⟨t, rfl, ht⟩
  · refine iff_of_false (fun he => hj (Option.some.inj he).symm) ?_
    rintro ⟨u, hu, hlive⟩
    exact h.not_live hu hlive

/-- A new cell that is not live changes nothing. -/
theorem Owns.append_dead (h : Owns live cells p) (ht : ¬ live t) : Owns live (cells ++ [t]) p :=
  fun j => by
  rw [getElem?_append_singleton, h j]
  split_ifs with hj
  · refine iff_of_false ?_ ?_
    · rintro ⟨u, hu, -⟩
      rw [List.getElem?_eq_none (by omega)] at hu
      simp at hu
    · rintro ⟨u, hu, hlive⟩
      exact ht (Option.some.inj hu ▸ hlive)
  · exact Iff.rfl

/-- When a cell dies, and the pointer named it, the pointer has to be emptied. -/
theorem Owns.kill {f : α → α} (h : Owns live cells p) (hf : ∀ t, ¬ live (f t)) (i : ℕ) :
    Owns live (cells.modify i f) (if p = some i then none else p) := fun j => by
  by_cases hij : i = j
  · subst hij
    refine iff_of_false (fun hp => ?_) ?_
    · split_ifs at hp with hpi
      exact hpi hp
    · rintro ⟨u, hu, hlive⟩
      rw [List.getElem?_modify_eq] at hu
      obtain ⟨t, -, rfl⟩ := Option.map_eq_some_iff.mp hu
      exact hf t hlive
  · rw [List.getElem?_modify_ne f cells hij, ← h j]
    split_ifs with hpi
    · exact iff_of_false (by simp) fun hp => hij (Option.some.inj (hpi.symm.trans hp))
    · exact Iff.rfl

end ToyIP.Lib.Owner
