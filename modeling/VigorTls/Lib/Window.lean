import Mathlib.Data.Set.Insert

/-!
# Sliding windows

A window of width `w` under a number `top` remembers which of the numbers `top - w + 1, …, top`
belong to a set: bit `i` of the mask stands for `top - i`.
-/

namespace VigorTls.Lib

open BitVec

/-- Bit `i` of `map` says whether `top - i` belongs to `S`; there is no such number past zero. -/
def Tracks {w : ℕ} (map : BitVec w) (top : ℕ) (S : Set ℕ) : Prop :=
  ∀ i < w, map.getLsbD i = true ↔ i ≤ top ∧ top - i ∈ S

theorem tracks_zero {w : ℕ} (top : ℕ) : Tracks (0#w) top ∅ := by
  intro i _
  simp

namespace Tracks

variable {w top : ℕ} {map : BitVec w} {S : Set ℕ}

/-- Moving the window up to `top + k` by less than its width: the old bits shift, and the new top
is marked. -/
theorem advance (h : Tracks map top S) (hS : ∀ n ∈ S, n ≤ top) {k : ℕ} (hk : 0 < k) :
    Tracks (map <<< k ||| 1#w) (top + k) (insert (top + k) S) := by
  intro i hi
  rw [getLsbD_or, getLsbD_shiftLeft, getLsbD_one]
  rcases Nat.lt_or_ge i k with hik | hki
  · -- The bits below `k` are new: only bit 0 is set, and no member of `S` lies above `top`.
    have hnot : top + k - i ∉ S := fun hm => by have := hS _ hm; omega
    have hw : 0 < w := by omega
    simp only [Set.mem_insert_iff, hnot, hik, hw, decide_true, Bool.not_true, Bool.and_false,
      Bool.false_and, Bool.false_or, Bool.true_and, decide_eq_true_eq, or_false]
    omega
  have hold := h (i - k) (by omega)
  have hne : top + k - i ≠ top + k := by omega
  have hi0 : i ≠ 0 := by omega
  simp only [Set.mem_insert_iff, hne, hi, hi0, Nat.not_lt.mpr hki, decide_true, decide_false,
    Bool.not_false, Bool.true_and, Bool.and_false, Bool.or_false, false_or, hold]
  rw [show top + k - i = top - (i - k) by omega]
  constructor
  · rintro ⟨h1, h2⟩
    exact ⟨by omega, h2⟩
  · rintro ⟨h1, h2⟩
    exact ⟨by omega, h2⟩

/-- Moving the window by its width or more: nothing of the old mask is left. -/
theorem restart (hS : ∀ n ∈ S, n ≤ top) {k : ℕ} (hk : w ≤ k) :
    Tracks (1#w) (top + k) (insert (top + k) S) := by
  intro i hi
  have hnot : top + k - i ∉ S := fun hm => by have := hS _ hm; omega
  have hw : 0 < w := by omega
  simp only [getLsbD_one, hw, decide_true, Bool.true_and, decide_eq_true_eq,
    Set.mem_insert_iff, hnot, or_false]
  omega

theorem mark (h : Tracks map top S) {i : ℕ} (hi : i ≤ top) :
    Tracks (map ||| 1#w <<< i) top (insert (top - i) S) := by
  intro j hj
  rw [getLsbD_or, getLsbD_shiftLeft, getLsbD_one, Bool.or_eq_true, h j hj]
  have hw : 0 < w := by omega
  simp only [hj, decide_true, Bool.true_and, Bool.and_eq_true,
    Bool.not_eq_true', decide_eq_false_iff_not, decide_eq_true_eq]
  constructor
  · rintro (⟨h1, h2⟩ | ⟨h1, h2⟩)
    · exact ⟨h1, Or.inr h2⟩
    · exact ⟨by omega, Or.inl (by omega)⟩
  · rintro ⟨h1, h2 | h2⟩
    · exact Or.inr ⟨by omega, by omega⟩
    · exact Or.inl ⟨h1, h2⟩

end Tracks

end VigorTls.Lib
