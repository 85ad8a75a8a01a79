import Mathlib.Data.List.Perm.Basic
import Mathlib.Logic.Function.Basic
import Mathlib.Data.Nat.Notation
import Mathlib.Tactic.Linarith

/-!
# Linear hashing

A table of buckets that grows and shrinks by one bucket at a time. Of `pmax` buckets the first `p`
have been split, each into itself and one at `pmax` further on; `address` is the bucket of a hash
value, and `Placed` says that every element is in its bucket. Splitting the next bucket, merging the
last one back and starting again with twice the buckets keep that and the elements.
-/

namespace VigorTls.Lib

open List Function Nat

/-- The bucket of a hash value, when the first `p` of `pmax` buckets have been split. -/
def address (p pmax h : ℕ) : ℕ := if h % pmax < p then h % (2 * pmax) else h % pmax

section

theorem mod_two_mul (pmax h : ℕ) :
    h % (2 * pmax) = h % pmax ∨ h % (2 * pmax) = h % pmax + pmax := by
  rw [Nat.mul_comm, mod_mul]
  rcases mod_two_eq_zero_or_one (h / pmax) with hbit | hbit <;> rw [hbit] <;> simp

variable {p pmax : ℕ} (h : ℕ)

theorem address_lt (hp : p < pmax) : address p pmax h < pmax + p := by
  have hmod : h % pmax < pmax := mod_lt h (zero_lt_of_lt hp)
  rw [address]
  split
  · rcases mod_two_mul pmax h with hh | hh <;> omega
  · omega

/-- The next split moves what belongs to the new bucket, and nothing else. -/
theorem address_split (hp : p < pmax) : address (p + 1) pmax h =
    if address p pmax h = p ∧ h % (2 * pmax) ≠ p then p + pmax else address p pmax h := by
  have hmod' := mod_two_mul pmax h
  unfold address
  split_ifs <;> omega

/-- Once all are split there are twice as many, of which none is. -/
theorem address_full : address pmax pmax h = address 0 (2 * pmax) h := by
  rcases Nat.eq_zero_or_pos pmax with rfl | hpos
  · rfl
  · rw [address, if_pos (mod_lt h hpos), address, if_neg (Nat.not_lt_zero _)]

end

/-! ## Elements -/

section

variable {β : Type}

/-- The elements of the first `n` buckets, from the last bucket down. -/
def contents (b : ℕ → List β) : ℕ → List β
  | 0 => []
  | n + 1 => b n ++ contents b n

variable {b : ℕ → List β} {n i : ℕ} {l : List β} {x : β}

theorem mem_contents : x ∈ contents b n ↔ ∃ i < n, x ∈ b i := by
  induction n with
  | zero => simp [contents]
  | succ n ih =>
    rw [contents, mem_append, ih]
    constructor
    · rintro (hx | ⟨i, hi, hx⟩)
      · exact ⟨n, lt_succ_self n, hx⟩
      · exact ⟨i, lt_succ_of_lt hi, hx⟩
    · rintro ⟨i, hi, hx⟩
      rcases Nat.lt_succ_iff_lt_or_eq.mp hi with hi | rfl
      · exact .inr ⟨i, hi, hx⟩
      · exact .inl hx

theorem contents_congr {b' : ℕ → List β} (h : ∀ i < n, b' i = b i) :
    contents b' n = contents b n := by
  induction n with
  | zero => rfl
  | succ n ih =>
    rw [contents, contents, h n (lt_succ_self n), ih fun i hi => h i (lt_succ_of_lt hi)]

theorem contents_of_le {k : ℕ} (hk : k ≤ n) (hb : ∀ i, k ≤ i → b i = []) :
    contents b n = contents b k := by
  induction n, hk using le_induction with
  | base => rfl
  | succ n hn ih => rw [contents, hb n hn, nil_append, ih]

theorem sublist_contents (hi : i < n) : (b i).Sublist (contents b n) := by
  induction n with
  | zero => exact absurd hi (Nat.not_lt_zero i)
  | succ n ih =>
    rcases Nat.lt_succ_iff_lt_or_eq.mp hi with hi | rfl
    · exact (ih hi).trans (sublist_append_right ..)
    · exact sublist_append_left ..

theorem contents_update_perm (hi : i < n) :
    (contents (Function.update b i l) n ++ b i).Perm (l ++ contents b n) := by
  induction n with
  | zero => exact absurd hi (Nat.not_lt_zero i)
  | succ n ih =>
    rw [contents, contents]
    rcases Nat.lt_succ_iff_lt_or_eq.mp hi with hi | rfl
    · rw [update_of_ne (Nat.ne_of_gt hi), append_assoc]
      refine ((ih hi).append_left (b n)).trans ?_
      rw [← append_assoc, ← append_assoc]
      exact perm_append_comm.append_right _
    · rw [update_self, append_assoc,
        contents_congr fun j hj => update_of_ne (Nat.ne_of_lt hj) ..]
      exact perm_append_comm.append_left l

theorem contents_insert_perm {before rest : List β} (hi : i < n) (hb : b i = before ++ rest)
    (x : β) :
    (contents (Function.update b i (before ++ x :: rest)) n).Perm (x :: contents b n) := by
  have hperm := contents_update_perm (b := b) (l := before ++ x :: rest) hi
  refine (perm_append_right_iff (b i)).mp (hperm.trans ?_)
  rw [hb]
  exact (perm_middle.append_right _).trans (perm_append_comm.cons x)

/-- Every element is in its bucket, and there is none elsewhere. -/
structure Placed (addr : β → ℕ) (b : ℕ → List β) (n : ℕ) : Prop where
  inside : ∀ i, i < n → ∀ x ∈ b i, addr x = i
  outside : ∀ i, n ≤ i → b i = []

variable {addr : β → ℕ}

theorem Placed.mem_bucket (h : Placed addr b n) (hx : x ∈ b i) : addr x = i := by
  rcases Nat.lt_or_ge i n with hi | hi
  · exact h.inside i hi x hx
  · rw [h.outside i hi] at hx
    cases hx

theorem Placed.mem_contents_iff (h : Placed addr b n) : x ∈ contents b n ↔ x ∈ b (addr x) := by
  rw [mem_contents]
  constructor
  · rintro ⟨i, -, hx⟩
    rw [h.mem_bucket hx]
    exact hx
  · intro hx
    refine ⟨addr x, Nat.lt_of_not_le fun hle => ?_, hx⟩
    rw [h.outside _ hle] at hx
    cases hx

theorem Placed.exists_mem_iff (h : Placed addr b n) : x ∈ contents b n ↔ ∃ i, x ∈ b i := by
  rw [h.mem_contents_iff]
  exact ⟨fun hx => ⟨_, hx⟩, fun ⟨i, hx⟩ => h.mem_bucket hx ▸ hx⟩

/-- A bucket is given other elements that belong to it. -/
theorem Placed.update (h : Placed addr b n) (hi : i < n) (hl : ∀ x ∈ l, addr x = i) :
    Placed addr (Function.update b i l) n where
  inside j hj x hx := by
    by_cases hji : j = i
    · subst hji
      rw [update_self] at hx
      exact hl x hx
    · rw [update_of_ne hji] at hx
      exact h.inside j hj x hx
  outside j hj := by
    rw [update_of_ne (Nat.ne_of_gt (Nat.lt_of_lt_of_le hi hj))]
    exact h.outside j hj

end

section

variable {β : Type} {hash : β → ℕ} {b : ℕ → List β} {p pmax : ℕ}

/-- The elements that stay in bucket `p` when it is split, and those that go to the new one. -/
def staying (hash : β → ℕ) (p pmax : ℕ) (l : List β) : List β :=
  l.filter fun x => hash x % (2 * pmax) = p

def moving (hash : β → ℕ) (p pmax : ℕ) (l : List β) : List β :=
  l.filter fun x => ¬ hash x % (2 * pmax) = p

/-- Splitting bucket `p`, where `l` holds the elements that move, in any order. -/
theorem Placed.split (h : Placed (fun x => address p pmax (hash x)) b (pmax + p)) (hp : p < pmax)
    {l : List β} (hl : l.Perm (moving hash p pmax (b p))) :
    Placed (fun x => address (p + 1) pmax (hash x))
      (Function.update (Function.update b p (staying hash p pmax (b p))) (p + pmax) l)
      (pmax + (p + 1)) where
  inside i hi x hx := by
    by_cases hip : i = p + pmax
    · subst hip
      rw [update_self, hl.mem_iff, moving, mem_filter] at hx
      rw [address_split _ hp, if_pos ⟨h.mem_bucket hx.1, of_decide_eq_true hx.2⟩]
    rw [update_of_ne hip] at hx
    by_cases hip' : i = p
    · subst hip'
      rw [update_self, staying, mem_filter] at hx
      rw [address_split _ hp, if_neg fun hne => hne.2 (of_decide_eq_true hx.2)]
      exact h.mem_bucket hx.1
    · rw [update_of_ne hip'] at hx
      have hx' := h.mem_bucket hx
      rw [address_split _ hp, if_neg fun hne => hip' (hx'.symm.trans hne.1)]
      exact hx'
  outside i hi := by
    rw [update_of_ne (by omega), update_of_ne (by omega)]
    exact h.outside i (by omega)

theorem contents_split (hp : p < pmax) {l : List β} (hl : l.Perm (moving hash p pmax (b p))) :
    (contents (Function.update (Function.update b p (staying hash p pmax (b p))) (p + pmax) l)
      (pmax + (p + 1))).Perm (contents b (pmax + p)) := by
  rw [← Nat.add_assoc, contents, Nat.add_comm p pmax, update_self,
    contents_congr fun i hi => update_of_ne (Nat.ne_of_lt hi) ..]
  have hstay := contents_update_perm (b := b) (l := staying hash p pmax (b p))
    (show p < pmax + p by omega)
  have hboth : (staying hash p pmax (b p) ++ l).Perm (b p) :=
    (hl.append_left _).trans (by simpa [staying, moving] using filter_append_perm _ (b p))
  refine (perm_append_right_iff (b p)).mp ?_
  calc (l ++ contents (Function.update b p (staying hash p pmax (b p))) (pmax + p)) ++ b p
      = l ++ (contents (Function.update b p (staying hash p pmax (b p))) (pmax + p) ++ b p) :=
        append_assoc ..
    Perm _ (l ++ (staying hash p pmax (b p) ++ contents b (pmax + p))) := hstay.append_left l
    _ = (l ++ staying hash p pmax (b p)) ++ contents b (pmax + p) := (append_assoc ..).symm
    Perm _ (b p ++ contents b (pmax + p)) :=
      (perm_append_comm.trans hboth).append_right _
    Perm _ (contents b (pmax + p) ++ b p) := perm_append_comm

/-- Merging the last bucket back into the one it was split from. -/
theorem Placed.merge (h : Placed (fun x => address (p + 1) pmax (hash x)) b (pmax + (p + 1)))
    (hp : p < pmax) :
    Placed (fun x => address p pmax (hash x))
      (Function.update (Function.update b (p + pmax) []) p (b p ++ b (p + pmax))) (pmax + p) where
  inside i hi x hx := by
    -- An element that did not move has the bucket that it had before the split.
    have hback : ∀ j, x ∈ b j → j ≠ p + pmax → address p pmax (hash x) = j := by
      intro j hj hne
      have haddr := h.mem_bucket hj
      rw [address_split _ hp] at haddr
      split at haddr
      · exact absurd haddr.symm hne
      · exact haddr
    by_cases hip : i = p
    · subst hip
      rw [update_self, mem_append] at hx
      rcases hx with hx | hx
      · exact hback i hx (by omega)
      have haddr := h.mem_bucket hx
      rw [address_split _ hp] at haddr
      split at haddr
      · next hmoved => exact hmoved.1
      · exact absurd haddr (Nat.ne_of_lt (Nat.add_comm i pmax ▸ address_lt _ hp))
    · rw [update_of_ne hip, update_of_ne (by omega)] at hx
      exact hback i hx (by omega)
  outside i hi := by
    rw [update_of_ne (by omega)]
    by_cases hip : i = p + pmax
    · rw [hip, update_self]
    · rw [update_of_ne hip]
      exact h.outside i (by omega)

theorem contents_merge (hp : p < pmax) :
    (contents (Function.update (Function.update b (p + pmax) []) p (b p ++ b (p + pmax)))
      (pmax + p)).Perm (contents b (pmax + (p + 1))) := by
  have hlast : contents (Function.update (Function.update b (p + pmax) []) p
      (b p ++ b (p + pmax))) (pmax + p) =
      contents (Function.update b p (b p ++ b (p + pmax))) (pmax + p) := by
    refine contents_congr fun i hi => ?_
    by_cases hip : i = p
    · rw [hip, update_self, update_self]
    · rw [update_of_ne hip, update_of_ne hip, update_of_ne (by omega)]
  have hperm := contents_update_perm (b := b) (l := b p ++ b (p + pmax))
    (show p < pmax + p by omega)
  rw [hlast, ← Nat.add_assoc, Nat.add_comm pmax p]
  refine (perm_append_right_iff (b p)).mp ((Nat.add_comm pmax p ▸ hperm).trans ?_)
  rw [append_assoc]
  exact perm_append_comm

end

end VigorTls.Lib
