import VigorTls.Record.Cbc
import Mathlib.Algebra.Ring.Nat

/-!
# Masks

What the operations of `crypto/constant_time_locl.h` compute.
-/

namespace VigorTls.Record

open UInt32 BitVec

def mask (c : Prop) [Decidable c] : UInt32 := if c then 0xffffffff else 0

def mask8 (c : Prop) [Decidable c] : UInt8 := if c then 0xff else 0

theorem mask_congr {c d : Prop} [Decidable c] [Decidable d] (h : c ↔ d) : mask c = mask d :=
  if_congr h rfl rfl

variable (c : Prop) (a b : UInt32)

theorem not_mask [Decidable c] : ~~~mask c = mask (¬ c) := by
  by_cases h : c
  · simp only [mask, if_pos h, if_neg (not_not.mpr h)]
    rfl
  · simp only [mask, if_neg h, if_pos h]
    rfl

theorem mask_and [Decidable c] : mask c &&& a = if c then a else 0 := by
  by_cases h : c
  · rw [mask, if_pos h, if_pos h]
    exact neg_one_and
  · rw [mask, if_neg h, if_neg h]
    exact UInt32.zero_and

theorem constantTimeMsb_eq : constantTimeMsb a = mask (a.toBitVec.msb = true) := by
  have hshift : (a >>> 31).toNat = a.toNat / 2 ^ 31 := by
    simp [Nat.shiftRight_eq_div_pow]
  have hlt := a.toNat_lt
  have hmsb : a.toBitVec.msb = decide (2 ^ 31 ≤ a.toNat) := msb_eq_decide a.toBitVec
  rw [constantTimeMsb, mask, hmsb]
  by_cases h : 2 ^ 31 ≤ a.toNat
  · have hone : a >>> 31 = 1 := by
      rw [← UInt32.toNat_inj, hshift]
      show a.toNat / 2 ^ 31 = 1
      omega
    rw [hone, if_pos (decide_eq_true h)]
    rfl
  · have hzero : a >>> 31 = 0 := by
      rw [← UInt32.toNat_inj, hshift]
      show a.toNat / 2 ^ 31 = 0
      omega
    rw [hzero, if_neg (by simpa using h)]
    rfl

/-- The sign of the difference, corrected where the signs of the two differ. -/
theorem constantTimeLt_eq : constantTimeLt a b = mask (a < b) := by
  have ha := msb_eq_decide a.toBitVec
  have hb := msb_eq_decide b.toBitVec
  have hd := msb_eq_decide (a - b).toBitVec
  have hsub : (a - b).toNat = (2 ^ 32 - b.toNat + a.toNat) % 2 ^ 32 := UInt32.toNat_sub a b
  have hla := a.toNat_lt
  rw [constantTimeLt, constantTimeMsb_eq]
  refine mask_congr ?_
  rw [lt_iff_toNat_lt]
  simp only [UInt32.toBitVec_xor, UInt32.toBitVec_or, msb_xor, msb_or, ha, hb, hd, toNat_toBitVec]
  -- The top bits of the two and of their difference decide.
  by_cases h1 : 2147483648 ≤ a.toNat <;> by_cases h2 : 2147483648 ≤ b.toNat <;>
    simp [h2] <;> omega

theorem constantTimeGe_eq : constantTimeGe a b = mask (b ≤ a) := by
  rw [constantTimeGe, constantTimeLt_eq, not_mask]
  exact mask_congr UInt32.not_lt

theorem constantTimeIsZero_eq : constantTimeIsZero a = mask (a = 0) := by
  have ha := msb_eq_decide a.toBitVec
  have hd := msb_eq_decide (a - 1).toBitVec
  have hsub : (a - 1).toNat = (2 ^ 32 - 1 + a.toNat) % 2 ^ 32 := UInt32.toNat_sub a 1
  rw [constantTimeIsZero, constantTimeMsb_eq]
  refine mask_congr ?_
  rw [← UInt32.toNat_inj]
  simp only [UInt32.toBitVec_and, UInt32.toBitVec_not, msb_and, msb_not, ha, hd, toNat_toBitVec]
  by_cases h : 2 ^ 31 ≤ a.toNat <;> simp <;> omega

theorem constantTimeEq_eq : constantTimeEq a b = mask (a = b) := by
  rw [constantTimeEq, constantTimeIsZero_eq]
  exact mask_congr UInt32.xor_eq_zero_iff

theorem toUInt8_mask [Decidable c] : (mask c).toUInt8 = mask8 c := by
  unfold mask mask8
  split_ifs <;> rfl

theorem constantTimeGe8_eq : constantTimeGe8 a b = mask8 (b ≤ a) := by
  rw [constantTimeGe8, constantTimeGe_eq, toUInt8_mask]

theorem constantTimeSelect_eq [Decidable c] :
    constantTimeSelect (mask c) a b = if c then a else b := by
  rw [constantTimeSelect, not_mask, mask_and, mask_and]
  by_cases h : c
  · rw [if_pos h, if_pos h, if_neg (not_not.mpr h), UInt32.or_zero]
  · rw [if_neg h, if_neg h, if_pos h, UInt32.zero_or]

theorem not_mask8 [Decidable c] : ~~~mask8 c = mask8 (¬ c) := by
  by_cases h : c
  · simp only [mask8, if_pos h, if_neg (not_not.mpr h)]
    rfl
  · simp only [mask8, if_neg h, if_pos h]
    rfl

theorem and_mask8 (a : UInt8) (c : Prop) [Decidable c] : a &&& mask8 c = if c then a else 0 := by
  unfold mask8
  split_ifs
  · exact UInt8.and_neg_one
  · exact UInt8.and_zero

theorem mask8_and_mask8 (d : Prop) [Decidable c] [Decidable d] :
    mask8 c &&& mask8 d = mask8 (c ∧ d) := by
  rw [and_mask8]
  split_ifs with h
  · exact if_congr (and_iff_left h).symm rfl rfl
  · exact (if_neg fun hcd => h hcd.2).symm

theorem mask8_or_mask8 (d : Prop) [Decidable c] [Decidable d] :
    mask8 c ||| mask8 d = mask8 (c ∨ d) := by
  by_cases hc : c <;> by_cases hd : d <;> simp [mask8, hc, hd]

theorem mask8_eq_ff_iff [Decidable c] : mask8 c = 0xff ↔ c := by
  by_cases h : c
  · exact iff_of_true (if_pos h) h
  · rw [mask8, if_neg h]
    exact iff_of_false (by decide) h

variable {i j : ℕ}

theorem ge8_ofNat (hi : i < 2 ^ 32) (hj : j < 2 ^ 32) :
    constantTimeGe8 (.ofNat i) (.ofNat j) = mask8 (j ≤ i) := by
  rw [constantTimeGe8_eq]
  refine if_congr ?_ rfl rfl
  rw [le_iff_toNat_le, toNat_ofNat_of_lt' hj, toNat_ofNat_of_lt' hi]

end VigorTls.Record
