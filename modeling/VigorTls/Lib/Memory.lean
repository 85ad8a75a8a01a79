import Mathlib.Data.List.Basic

/-!
# Memory

A block of memory is a function from places to values. `slice` reads a range of it, `store` writes
one, and `memmove` copies a range within the block.
-/

namespace VigorTls.Lib

open List

variable {α : Type}

/-- The `n` values from `off` on. -/
def slice (mem : ℕ → α) (off n : ℕ) : List α := (range n).map fun i => mem (off + i)

/-- The memory after `bytes` were written from `off` on. -/
def store (mem : ℕ → α) (off : ℕ) (bytes : List α) : ℕ → α := fun i =>
  if off ≤ i then (bytes[i - off]?).getD (mem i) else mem i

def memmove (mem : ℕ → α) (dst src n : ℕ) : ℕ → α := store mem dst (slice mem src n)

variable (mem : ℕ → α) (off : ℕ)

@[simp] theorem slice_zero : slice mem off 0 = [] := rfl

@[simp] theorem length_slice (n : ℕ) : (slice mem off n).length = n := by
  simp [slice]

theorem getElem?_slice (n i : ℕ) :
    (slice mem off n)[i]? = if i < n then some (mem (off + i)) else none := by
  unfold slice
  split
  · next h => simp [h]
  · next h => simpa using h

theorem slice_add (m n : ℕ) : slice mem off (m + n) = slice mem off m ++ slice mem (off + m) n := by
  simp only [slice, range_add, map_append, map_map]
  congr 1
  exact map_congr_left fun i _ => by simp [Nat.add_assoc]

theorem take_slice {m n : ℕ} (h : m ≤ n) : (slice mem off n).take m = slice mem off m := by
  obtain ⟨k, rfl⟩ := Nat.exists_eq_add_of_le h
  rw [slice_add, take_left' (length_slice ..)]

theorem drop_slice {m n : ℕ} (h : m ≤ n) :
    (slice mem off n).drop m = slice mem (off + m) (n - m) := by
  obtain ⟨k, rfl⟩ := Nat.exists_eq_add_of_le h
  rw [slice_add, drop_left' (length_slice ..), Nat.add_sub_cancel_left]

theorem slice_eq_append {mem : ℕ → α} {off n : ℕ} {xs ys : List α}
    (h : slice mem off n = xs ++ ys) :
    slice mem off xs.length = xs ∧ slice mem (off + xs.length) ys.length = ys := by
  have hn : n = xs.length + ys.length := by
    rw [← length_append, ← h, length_slice]
  rw [hn, slice_add] at h
  exact append_inj h (length_slice ..)

theorem slice_store_self (bytes : List α) :
    slice (store mem off bytes) off bytes.length = bytes := by
  refine ext_getElem? fun i => ?_
  rw [getElem?_slice]
  split
  · next h => simp [store, getElem?_eq_getElem h]
  · next h => exact (getElem?_eq_none (Nat.le_of_not_lt h)).symm

theorem slice_store_of_disjoint (bytes : List α) {o n : ℕ}
    (h : o + n ≤ off ∨ off + bytes.length ≤ o) :
    slice (store mem off bytes) o n = slice mem o n := by
  refine map_congr_left fun i hi => ?_
  have hi := mem_range.mp hi
  unfold store
  split
  · rw [getElem?_eq_none (by omega)]
    rfl
  · rfl

/-- A write in one piece is the same as in two, whichever goes first. -/
theorem store_append (xs ys : List α) :
    store mem off (xs ++ ys) = store (store mem (off + xs.length) ys) off xs := by
  funext i
  simp only [store]
  by_cases h : off ≤ i
  · rw [if_pos h, if_pos h]
    by_cases hx : i - off < xs.length
    · rw [getElem?_append_left hx, getElem?_eq_getElem hx]
      rfl
    · have hnone : xs[i - off]? = none := getElem?_eq_none (by omega)
      rw [getElem?_append_right (by omega), hnone, if_pos (by omega), Nat.sub_add_eq]
      rfl
  · rw [if_neg h, if_neg h, if_neg (by omega)]

theorem store_store_of_le {off off' : ℕ} {xs ys : List α} (h : off + xs.length ≤ off') :
    store (store mem off xs) off' ys = store (store mem off' ys) off xs := by
  funext i
  simp only [store]
  by_cases hi : off' ≤ i
  · have hnone : xs[i - off]? = none := getElem?_eq_none (by omega)
    rw [if_pos hi, if_pos (by omega), if_pos (by omega), if_pos hi, hnone]
    rfl
  · rw [if_neg hi, if_neg hi]

theorem slice_congr {mem mem' : ℕ → α} {off n : ℕ}
    (h : ∀ i, off ≤ i → i < off + n → mem i = mem' i) :
    slice mem off n = slice mem' off n :=
  map_congr_left fun i hi =>
    h (off + i) (by omega) (by have := mem_range.mp hi; omega)

theorem slice_memmove (dst src n : ℕ) : slice (memmove mem dst src n) dst n = slice mem src n := by
  have h := slice_store_self mem dst (slice mem src n)
  rwa [length_slice] at h

end VigorTls.Lib
