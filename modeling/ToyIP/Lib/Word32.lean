import Mathlib.Tactic

/-! # 32-bit words as numbers

Comparisons and sums of `UInt32` values read as natural numbers, for sums that do not wrap and for
differences modulo `2^32`. -/

namespace ToyIP.Lib.Word32

theorem toNat_add (a b : UInt32) : (a + b).toNat = (a.toNat + b.toNat) % 4294967296 := by
  simp [UInt32.toNat_add]

theorem toNat_sub (a b : UInt32) :
    (a - b).toNat = (a.toNat + (4294967296 - b.toNat)) % 4294967296 := by
  rw [UInt32.toNat_sub, Nat.add_comm]

/-- A sum that does not wrap. -/
theorem toNat_add_of_lt {a b : UInt32} (h : a.toNat + b.toNat < 4294967296) :
    (a + b).toNat = a.toNat + b.toNat := by
  rw [toNat_add, Nat.mod_eq_of_lt h]

/-- A difference that does not wrap. -/
theorem toNat_sub_of_le {a b : UInt32} (h : b.toNat ≤ a.toNat) :
    (a - b).toNat = a.toNat - b.toNat := by
  have := a.toNat_lt
  rw [toNat_sub]
  omega

theorem toNat_ofNat {n : ℕ} (h : n < 4294967296) : (UInt32.ofNat n).toNat = n := by
  simp [Nat.mod_eq_of_lt h]

theorem eq_iff_toNat {a b : UInt32} : a = b ↔ a.toNat = b.toNat := UInt32.toNat_inj.symm

theorem lt_iff {a b : UInt32} : a < b ↔ a.toNat < b.toNat := UInt32.lt_iff_toNat_lt

theorem le_iff {a b : UInt32} : a ≤ b ↔ a.toNat ≤ b.toNat := UInt32.le_iff_toNat_le

theorem pos_iff {a : UInt32} : 0 < a ↔ 0 < a.toNat := by rw [lt_iff]; rfl

/-- A number below `2 ^ 31` is not negative as an `int`. -/
theorem toInt_toInt32 {a : UInt32} (h : a.toNat < 2147483648) : a.toInt32.toInt = a.toNat := by
  show a.toBitVec.toInt = a.toNat
  rw [BitVec.toInt_eq_toNat_of_lt]
  · rfl
  · have heq : a.toBitVec.toNat = a.toNat := rfl
    omega

end ToyIP.Lib.Word32
