import Mathlib.Algebra.Ring.Nat
import Mathlib.Data.List.Basic

/-!
# Comparison functions

A function that compares two values by the sign of a number, as in C: `TotalOrder`, with different
values that may compare equal, and lists in order (`Ascending`). `Narrowed` is the invariant of a
binary search: what is before the lower bound is too small, and what is from the upper bound on is
too large.
-/

namespace VigorTls.Lib

variable {β : Type} {cmp : β → β → ℤ}

structure TotalOrder (cmp : β → β → ℤ) : Prop where
  flip : ∀ x y, cmp x y ≤ 0 ↔ 0 ≤ cmp y x
  trans : ∀ x y z, cmp x y ≤ 0 → cmp y z ≤ 0 → cmp x z ≤ 0

def Ascending (cmp : β → β → ℤ) (l : List β) : Prop := l.Pairwise fun x y => cmp x y ≤ 0

namespace TotalOrder

variable (h : TotalOrder cmp) {x y z : β}

include h

theorem self (x : β) : cmp x x = 0 := by
  have hflip := h.flip x x
  omega

theorem lt_of_lt_of_le (hxy : cmp x y < 0) (hyz : cmp y z ≤ 0) : cmp x z < 0 := by
  by_contra hge
  have hzx : cmp z x ≤ 0 := (h.flip z x).mpr (by omega)
  have hyx := (h.flip y x).mp (h.trans y z x hyz hzx)
  omega

theorem lt_of_gt_of_le (hxz : 0 < cmp x z) (hyz : cmp y z ≤ 0) : 0 < cmp x y := by
  by_contra hle
  have hxz' := h.trans x y z (by omega) hyz
  omega

end TotalOrder

theorem Ascending.get_le {l : List β} (h : Ascending cmp l) {i j : ℕ} {x y : β} (hij : i < j)
    (hx : l[i]? = some x) (hy : l[j]? = some y) : cmp x y ≤ 0 := by
  obtain ⟨hi, rfl⟩ := List.getElem?_eq_some_iff.mp hx
  obtain ⟨hj, rfl⟩ := List.getElem?_eq_some_iff.mp hy
  exact List.pairwise_iff_getElem.mp h i j hi hj hij

/-- A value lies between the neighbours of a place in a list. -/
def Between (cmp : β → β → ℤ) (l : List β) (i : ℕ) (x : β) : Prop :=
  (0 < i → ∀ y ∈ l[i - 1]?, cmp y x ≤ 0) ∧ ∀ y ∈ l[i + 1]?, cmp x y ≤ 0

instance (cmp : β → β → ℤ) (l : List β) (i : ℕ) (x : β) : Decidable (Between cmp l i x) :=
  inferInstanceAs (Decidable ((_ → _) ∧ _))

/-- An assignment keeps a list in order if and only if the new value lies between its neighbours. -/
theorem Ascending.set_iff {l : List β} (hcmp : TotalOrder cmp) (h : Ascending cmp l) {i : ℕ} {x : β}
    (hi : i < l.length) : Ascending cmp (l.set i x) ↔ Between cmp l i x := by
  constructor
  · intro hset
    have hx : (l.set i x)[i]? = some x := List.getElem?_set_self hi
    refine ⟨fun hpos y hy => hset.get_le (Nat.sub_one_lt_of_lt hpos) ?_ hx,
      fun y hy => hset.get_le (Nat.lt_succ_self i) hx ?_⟩
    · rwa [List.getElem?_set_ne (by omega)]
    · rwa [List.getElem?_set_ne (by omega)]
  rintro ⟨hbefore, hafter⟩
  refine List.pairwise_iff_getElem.mpr fun a b ha hb hab => ?_
  rw [List.length_set] at ha hb
  have hle := List.pairwise_iff_getElem.mp h
  rw [List.getElem_set, List.getElem_set]
  split_ifs with hai hbi hbi
  · omega
  · -- from the new value to its neighbour, and on
    subst hai
    have hnext := hafter l[i + 1] (List.getElem?_eq_getElem (by omega))
    rcases Nat.lt_or_eq_of_le (show i + 1 ≤ b from hab) with hlt | rfl
    · exact hcmp.trans _ _ _ hnext (hle (i + 1) b (by omega) hb hlt)
    · exact hnext
  · subst hbi
    have hprev := hbefore (by omega) l[i - 1] (List.getElem?_eq_getElem (by omega))
    rcases Nat.lt_or_eq_of_le (show a ≤ i - 1 by omega) with hlt | rfl
    · exact hcmp.trans _ _ _ (hle a (i - 1) ha (by omega) hlt) hprev
    · exact hprev
  · exact hle a b ha hb hab

/-- The bounds of a binary search. -/
structure Narrowed (cmp : β → β → ℤ) (key : β) (base : List β) (l h : ℕ) : Prop where
  h_le : h ≤ base.length
  below : ∀ i < l, ∀ x ∈ base[i]?, 0 < cmp key x
  above : ∀ i ≥ h, ∀ x ∈ base[i]?, cmp key x < 0

namespace Narrowed

variable {key : β} {base : List β} {l h i : ℕ} {x : β}

theorem start (cmp : β → β → ℤ) (key : β) (base : List β) :
    Narrowed cmp key base 0 base.length where
  h_le := Nat.le_refl _
  below i hi := absurd hi (Nat.not_lt_zero i)
  above i hi x hx := by
    rw [List.getElem?_eq_none hi] at hx
    cases hx

/-- The element is too large, and so are those after it. -/
theorem upper (hn : Narrowed cmp key base l h) (hcmp : TotalOrder cmp) (hbase : Ascending cmp base)
    (hx : base[i]? = some x) (hlt : cmp key x < 0) : Narrowed cmp key base l i where
  h_le := Nat.le_of_lt (List.getElem?_eq_some_iff.mp hx).1
  below := hn.below
  above j hj y hy := by
    rcases Nat.lt_or_eq_of_le hj with hij | rfl
    · exact hcmp.lt_of_lt_of_le hlt (hbase.get_le hij hx hy)
    · rw [hx] at hy
      cases hy
      exact hlt

/-- The element is too small, and so are those before it. -/
theorem lower (hn : Narrowed cmp key base l h) (hcmp : TotalOrder cmp) (hbase : Ascending cmp base)
    (hx : base[i]? = some x) (hgt : 0 < cmp key x) : Narrowed cmp key base (i + 1) h where
  h_le := hn.h_le
  below j hj y hy := by
    rcases Nat.lt_succ_iff_lt_or_eq.mp hj with hij | rfl
    · exact hcmp.lt_of_gt_of_le hgt (hbase.get_le hij hy hx)
    · rw [hx] at hy
      cases hy
      exact hgt
  above := hn.above

theorem ne_of_le (hn : Narrowed cmp key base l h) (hle : h ≤ l) : ∀ x ∈ base, cmp key x ≠ 0 := by
  intro x hx heq
  obtain ⟨i, hi⟩ := List.mem_iff_getElem?.mp hx
  rcases Nat.lt_or_ge i l with hil | hli
  · have hlt := hn.below i hil x hi
    omega
  · have hgt := hn.above i (Nat.le_trans hle hli) x hi
    omega

end Narrowed

/-- The first element that compares equal to a key. -/
structure FirstEqual (cmp : β → β → ℤ) (key : β) (base : List β) (i : ℕ) : Prop where
  equal : ∃ x ∈ base[i]?, cmp key x = 0
  first : ∀ j < i, ∀ y ∈ base[j]?, cmp key y ≠ 0

end VigorTls.Lib
