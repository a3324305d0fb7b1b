import Mathlib.Data.List.Basic
import Mathlib.Tactic.IntervalCases
set_option autoImplicit false

namespace Ascii

theorem toNat_toLower (c : Char) :
    c.toLower.toNat = if 65 ≤ c.toNat ∧ c.toNat ≤ 90 then c.toNat + 32 else c.toNat := by
  have hupper : (c.val ≥ 'A'.val ∧ c.val ≤ 'Z'.val) ↔ 65 ≤ c.toNat ∧ c.toNat ≤ 90 := by
    simp only [ge_iff_le,UInt32.le_iff_toNat_le,Char.reduceVal,UInt32.reduceToNat,Char.toNat]
  unfold Char.toLower
  by_cases h : c.val ≥ 'A'.val ∧ c.val ≤ 'Z'.val
  · rw [dif_pos h,if_pos (hupper.mp h)]
    have hz := (hupper.mp h).2
    simp only [Char.toNat] at hz ⊢
    simp only [Char.reduceVal,UInt32.toNat_add,UInt32.reduceSub,UInt32.reduceToNat]
    omega
  · rw [dif_neg h,if_neg (fun hn => h (hupper.mpr hn))]

theorem toLower_of_not_upper {c : Char} (h : c.toNat < 65 ∨ 90 < c.toNat) : c.toLower = c := by
  apply Char.toNat_inj.mp
  rw [toNat_toLower,if_neg (by omega)]

theorem toUpper_of_not_lower {c : Char} (h : c.toNat < 97 ∨ 122 < c.toNat) : c.toUpper = c := by
  unfold Char.toUpper
  rw [dif_neg]
  intro hlower
  simp only [UInt32.le_iff_toNat_le,Char.reduceVal,UInt32.reduceToNat] at hlower
  simp only [Char.toNat] at h
  omega

theorem isDigit_iff (c : Char) : c.isDigit = true ↔ 48 ≤ c.toNat ∧ c.toNat ≤ 57 := by
  simp only [Char.isDigit,Bool.and_eq_true,decide_eq_true_eq,ge_iff_le,UInt32.le_iff_toNat_le]
  rfl

theorem toNat_digitChar {d : Nat} (h : d < 16) :
    (Nat.digitChar d).toNat = if d < 10 then 48 + d else 87 + d := by
  interval_cases d <;> rfl

end Ascii
