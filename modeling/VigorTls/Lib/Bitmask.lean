import Mathlib.Data.List.Basic
import Mathlib.Tactic.Linarith

/-!
# Bit masks in bytes

A set of numbers as the bits of a list of bytes, the number `i` in bit `i % 8` of byte `i / 8`.
-/

namespace VigorTls.Lib

open List

/-- A list of bytes read as a set of numbers. -/
abbrev Bitmask := List (BitVec 8)

namespace Bitmask

def bit (mask : Bitmask) (i : ℕ) : Bool := (mask.getD (i / 8) 0).getLsbD (i % 8)

/-- Add the bits of `v` to byte `k`. -/
def orAt (mask : Bitmask) (k : ℕ) (v : BitVec 8) : Bitmask := mask.modify k (· ||| v)

def fillAt (mask : Bitmask) (k : ℕ) : Bitmask := mask.set k 0xff

variable (mask : Bitmask) (k i : ℕ) (v : BitVec 8)

@[simp]
theorem length_orAt : (orAt mask k v).length = mask.length := length_modify ..

@[simp]
theorem length_fillAt : (fillAt mask k).length = mask.length := length_set ..

/-- Setting bits of one byte leaves the other bits as they were. -/
theorem bit_orAt (hk : k < mask.length) :
    (orAt mask k v).bit i = (mask.bit i || (decide (i / 8 = k) && v.getLsbD (i % 8))) := by
  unfold bit orAt
  rcases eq_or_ne k (i / 8) with rfl | hne
  · simp [getElem?_eq_getElem hk]
  · simp [hne, hne.symm]

theorem bit_fillAt (hk : k < mask.length) :
    (fillAt mask k).bit i = (mask.bit i || decide (i / 8 = k)) := by
  have hlt : i % 8 < 8 := Nat.mod_lt _ (by decide)
  unfold bit fillAt
  simp only [getD_eq_getElem?_getD]
  rcases eq_or_ne k (i / 8) with rfl | hne
  · rw [getElem?_set_self hk]
    have hff : ∀ j < 8, (0xff : BitVec 8).getLsbD j = true := by decide
    simp [show (255#8).getLsbD (i % 8) = true from hff _ hlt]
  · rw [getElem?_set_ne hne]
    simp [hne.symm]

theorem bit_foldl_orAt : ∀ (l : List ℕ) (mask : Bitmask), (∀ j ∈ l, j / 8 < mask.length) →
    (l.foldl (fun mask j => orAt mask (j / 8) ((1 : BitVec 8) <<< (j % 8))) mask).bit i
        = (mask.bit i || decide (i ∈ l)) ∧
      (l.foldl (fun mask j => orAt mask (j / 8) ((1 : BitVec 8) <<< (j % 8))) mask).length =
        mask.length
  | [], mask, _ => by simp
  | j :: l, mask, h => by
    have hj : j / 8 < mask.length := h j (by simp)
    obtain ⟨hbit, hlen⟩ := bit_foldl_orAt l (orAt mask (j / 8) ((1 : BitVec 8) <<< (j % 8)))
      fun j' hj' => by rw [length_orAt]; exact h j' (by simp [hj'])
    rw [foldl_cons]
    refine ⟨?_, hlen.trans (length_orAt ..)⟩
    -- The one bit of the shifted byte is the number itself.
    have hone : (decide (i / 8 = j / 8) && ((1 : BitVec 8) <<< (j % 8)).getLsbD (i % 8))
        = decide (i = j) := by
      have hshift : ∀ a < 8, ∀ b < 8, ((1 : BitVec 8) <<< a).getLsbD b = decide (b = a) := by decide
      rw [hshift _ (Nat.mod_lt _ (by decide)) _ (Nat.mod_lt _ (by decide)), ← Bool.decide_and]
      exact decide_eq_decide.mpr (by omega)
    rw [hbit, bit_orAt _ _ _ _ hj, hone, Bool.or_assoc, ← Bool.decide_or]
    simp

theorem bit_foldl_fillAt : ∀ (l : List ℕ) (mask : Bitmask), (∀ k ∈ l, k < mask.length) →
    (l.foldl fillAt mask).bit i = (mask.bit i || decide (i / 8 ∈ l)) ∧
      (l.foldl fillAt mask).length = mask.length
  | [], mask, _ => by simp
  | k :: l, mask, h => by
    obtain ⟨hbit, hlen⟩ := bit_foldl_fillAt l (fillAt mask k)
      fun k' hk' => by rw [length_fillAt]; exact h k' (by simp [hk'])
    rw [foldl_cons]
    refine ⟨?_, hlen.trans (length_fillAt ..)⟩
    rw [hbit, bit_fillAt _ _ _ (h k (by simp)), Bool.or_assoc, ← Bool.decide_or]
    simp

theorem getD_eq_iff (b : BitVec 8) :
    mask.getD k 0 = b ↔ ∀ j < 8, mask.bit (8 * k + j) = b.getLsbD j := by
  have hat : ∀ j < 8, mask.bit (8 * k + j) = (mask.getD k 0).getLsbD j := by
    intro j hj
    unfold bit
    rw [show (8 * k + j) / 8 = k by omega, show (8 * k + j) % 8 = j by omega]
  constructor
  · intro h j hj
    rw [hat j hj, h]
  · intro h
    exact BitVec.eq_of_getLsbD_eq fun j hj => (hat j hj).symm.trans (h j hj)

end Bitmask

end VigorTls.Lib
