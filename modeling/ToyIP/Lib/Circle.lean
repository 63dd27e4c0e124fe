import ToyIP.Lib.Word32

/-! # Windows on the circle of 32-bit words

Words as places on a circle. `Within a b x` says that `x` lies on the way from `a` to `b`; it does
not change when all three are moved. A comparison by `<` and `≤` cuts the circle open before `0`, so
it agrees with the circle for a window that is not cut (`between_iff`), and it stays the same under
a move if and only if the two words are carried over the cut together or not at all (`SameSide`). -/

namespace ToyIP.Lib.Circle

/-- `x` lies on the way from `a` to `b`. -/
def Within (a b x : UInt32) : Prop := x - a ≤ b - a

instance (a b x : UInt32) : Decidable (Within a b x) := inferInstanceAs (Decidable (_ ≤ _))

/-- A move by `c` carries `a` and `b` over the cut together or not at all. -/
def SameSide (c a b : UInt32) : Prop :=
  a = b ∨ (a.toNat + c.toNat < 4294967296 ↔ b.toNat + c.toNat < 4294967296)

instance (c a b : UInt32) : Decidable (SameSide c a b) := inferInstanceAs (Decidable (_ ∨ _))

theorem add_eq_add_iff (c a b : UInt32) : a + c = b + c ↔ a = b := by
  constructor
  · intro h
    rw [← UInt32.add_sub_cancel (a := a) (b := c), h, UInt32.add_sub_cancel]
  · rintro rfl; rfl

theorem add_sub_add (c a b : UInt32) : a + c - (b + c) = a - b := by grind

/-- `≤` under a move. -/
theorem le_add_iff (c a b : UInt32) : (a + c ≤ b + c ↔ a ≤ b) ↔ SameSide c a b := by
  have ha := a.toNat_lt
  have hb := b.toNat_lt
  have hc := c.toNat_lt
  unfold SameSide
  simp only [Word32.le_iff, Word32.eq_iff_toNat, Word32.toNat_add]
  omega

/-- `<` under a move. -/
theorem lt_add_iff (c a b : UInt32) : (a + c < b + c ↔ a < b) ↔ SameSide c a b := by
  have ha := a.toNat_lt
  have hb := b.toNat_lt
  have hc := c.toNat_lt
  unfold SameSide
  simp only [Word32.lt_iff, Word32.eq_iff_toNat, Word32.toNat_add]
  omega

theorem within_add (c a b x : UInt32) : Within (a + c) (b + c) (x + c) ↔ Within a b x := by
  unfold Within
  rw [add_sub_add, add_sub_add]

/-- Two comparisons are a window that is not cut. -/
theorem between_iff (a b x : UInt32) : a ≤ x ∧ x ≤ b ↔ Within a b x ∧ a ≤ b := by
  have ha := a.toNat_lt
  have hb := b.toNat_lt
  have hx := x.toNat_lt
  unfold Within
  simp only [Word32.le_iff, Word32.toNat_sub]
  omega

/-- Seen from an origin that is not on the way from `a` to `b`, what lies on the way has an offset
between theirs. -/
theorem offset_within {i a b x : UInt32} (h : a - i ≤ b - i) (hx : Within a b x) :
    a - i ≤ x - i ∧ x - i ≤ b - i := by
  have ha := a.toNat_lt
  have hb := b.toNat_lt
  have hx' := x.toNat_lt
  have hi := i.toNat_lt
  unfold Within at hx
  simp only [Word32.le_iff, Word32.toNat_sub] at h hx ⊢
  omega

/-- The same by comparisons. -/
theorem offset_between {i a b x : UInt32} (h : a - i ≤ b - i) (ha : a ≤ x) (hb : x ≤ b) :
    a - i ≤ x - i ∧ x - i ≤ b - i :=
  offset_within h ((between_iff a b x).mp ⟨ha, hb⟩).1

/-- Two comparisons with a window of length `w`. -/
theorem not_outside_iff (a w x : UInt32) :
    ¬ (x < a ∨ x > a + w) ↔ x - a ≤ w ∧ a.toNat + w.toNat < 4294967296 := by
  have ha := a.toNat_lt
  have hw := w.toNat_lt
  have hx := x.toNat_lt
  simp only [gt_iff_lt, Word32.lt_iff, Word32.le_iff, Word32.toNat_add, Word32.toNat_sub]
  omega

end ToyIP.Lib.Circle
