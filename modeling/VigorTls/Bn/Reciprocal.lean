import Mathlib.Data.Nat.Size
import Mathlib.Tactic.Ring
import Mathlib.Tactic.Linarith
import VigorTls.Lib.Run

/-!
# Division by a reciprocal

`BN_div_recp` of `crypto/bn/bn_recp.c` on integers. The quotient is estimated with the reciprocal of
the divisor, and counted up in a loop that gives up after three rounds. The estimate is at most
three too small (`estimate`), so that the division is exact (`div_recp_exact`).
-/

namespace VigorTls.Bn

open Lib Nat Int

structure RecpCtx where
  N : ℤ
  Nr : ℤ
  num_bits : ℕ
  shift : ℤ

def bnNumBits (a : ℤ) : ℕ := a.natAbs.size

/-- `BN_div`, as what it computes. -/
def bnDiv (num divisor : ℤ) : Option (ℤ × ℤ) :=
  if divisor = 0 then none else some (num.tdiv divisor, num.tmod divisor)

/-- `BN_rshift`, which shifts the absolute value. -/
def bnRshift (a : ℤ) (n : ℕ) : ℤ := a.tdiv (2 ^ n)

def bnRecpCtxSet (d : ℤ) : RecpCtx := ⟨d, 0, bnNumBits d, 0⟩

/-- `BN_reciprocal`, without the length that it returns. -/
def bnReciprocal (m : ℤ) (len : ℕ) : Option ℤ := (bnDiv (2 ^ len) m).map Prod.fst

/-- The loop of `BN_div_recp` on absolute values, with `n` rounds to go; `none` is
`BN_R_BAD_RECIPROCAL`. -/
def correct (N : ℕ) : ℕ → ℕ → ℕ → Option (ℕ × ℕ)
  | 0, d, r => if r < N then some (d, r) else none
  | n + 1, d, r => if r < N then some (d, r) else correct N n (d + 1) (r - N)

/-- `BN_div_recp` from the point where the reciprocal is there for `i` bits. -/
def divWith (recp : RecpCtx) (m : ℤ) (i : ℕ) : Option (ℤ × ℤ) :=
  let a := bnRshift m recp.num_bits
  let d := (bnRshift (a * recp.Nr) (i - recp.num_bits)).natAbs
  let b := (recp.N * d).natAbs
  -- `BN_usub` fails on a difference below zero.
  if m.natAbs < b then none
  else
    (correct recp.N.natAbs 3 d (m.natAbs - b)).map fun (d, r) =>
      (if m < 0 ↔ recp.N < 0 then d else -d, if m < 0 then -r else r)

/-- `BN_div_recp`: the context that it leaves, with the quotient and the remainder. -/
def bnDivRecp (recp : RecpCtx) (m : ℤ) : RecpCtx × Option (ℤ × ℤ) :=
  if m.natAbs < recp.N.natAbs then (recp, some (0, m))
  else
    let i := max (bnNumBits m) (2 * recp.num_bits)
    if i = recp.shift then (recp, divWith recp m i)
    else
      match bnReciprocal recp.N i with
      | none => ({ recp with shift := -1 }, none)
      | some Nr =>
        let recp := { recp with Nr := Nr, shift := i }
        (recp, divWith recp m i)

/-- The estimate leaves off the lower part of `x`, of the size of `n`, and multiplies with the
rounded reciprocal. -/
theorem estimate {b R n x : ℕ} (hn : n ≤ b) (hb : b ≤ 2 * n) (hpos : 0 < n) (hx : x < b * R) :
    n * (x / b * (b * R / n) / R) ≤ x ∧ x < n * (x / b * (b * R / n) / R) + 4 * n := by
  have hR : 0 < R := by
    rcases Nat.eq_zero_or_pos R with rfl | h
    · omega
    · exact h
  have hxb := div_add_mod x b
  have hxb' := mod_lt x (hpos.trans_le hn)
  have hmu := div_add_mod (b * R) n
  have hmu' := mod_lt (b * R) hpos
  generalize x / b = q at *
  generalize b * R / n = mu at *
  have hd := div_add_mod (q * mu) R
  have hd' := mod_lt (q * mu) hR
  generalize q * mu / R = d at *
  have hq : q < R := Nat.lt_of_mul_lt_mul_left (a := b) (by omega)
  constructor
  · refine Nat.le_of_mul_le_mul_left (?_ : R * (n * d) ≤ R * x) hR
    calc R * (n * d) = n * (R * d) := by ring
      _ ≤ n * (q * mu) := Nat.mul_le_mul_left n (by omega)
      _ = q * (n * mu) := by ring
      _ ≤ q * (b * R) := Nat.mul_le_mul_left q (by omega)
      _ = R * (b * q) := by ring
      _ ≤ R * x := Nat.mul_le_mul_left R (by omega)
  have h : R * (b * q) < R * (n * d + 2 * n) := by
    calc R * (b * q) = q * (b * R) := by ring
      _ ≤ q * (n * mu + n) := Nat.mul_le_mul_left q (by omega)
      _ = n * (q * mu + q) := by ring
      _ < n * (R * d + R + R) := Nat.mul_lt_mul_of_pos_left (by omega) hpos
      _ = R * (n * d + 2 * n) := by ring
  have := Nat.lt_of_mul_lt_mul_left h
  omega

theorem correct_eq {N : ℕ} (hN : 0 < N) {n : ℕ} : ∀ {d r : ℕ}, r < (n + 1) * N →
    correct N n d r = some (d + r / N, r % N) := by
  induction n with
  | zero =>
    intro d r h
    have hr : r < N := by omega
    rw [correct, if_pos hr, div_eq_of_lt hr, mod_eq_of_lt hr, Nat.add_zero]
  | succ n ih =>
    intro d r h
    rw [correct]
    split_ifs with hr
    · rw [div_eq_of_lt hr, mod_eq_of_lt hr, Nat.add_zero]
    · rw [succ_mul] at h
      rw [ih (by omega), mod_eq_sub_mod (Nat.le_of_not_lt hr),
        div_eq_sub_div hN (Nat.le_of_not_lt hr), Nat.add_right_comm, Nat.add_assoc]

theorem signed_div (m N : ℤ) :
    (if m < 0 ↔ N < 0 then ((m.natAbs / N.natAbs : ℕ) : ℤ) else -(m.natAbs / N.natAbs : ℕ)) =
        m.tdiv N ∧
      (if m < 0 then -((m.natAbs % N.natAbs : ℕ) : ℤ) else (m.natAbs % N.natAbs : ℕ)) =
        m.tmod N := by
  have hneg := negSucc_lt_zero
  have hpos (a : ℕ) : ¬ ofNat a < 0 := Int.not_lt.mpr (natCast_nonneg a)
  rcases m with a | a <;> rcases N with b | b
  · exact ⟨if_pos (iff_of_false (hpos a) (hpos b)), if_neg (hpos a)⟩
  · exact ⟨if_neg (by simp [hneg]), if_neg (hpos a)⟩
  · exact ⟨if_neg (by simp [hneg]), if_pos (hneg a)⟩
  · exact ⟨if_pos (by simp [hneg]), if_pos (hneg a)⟩

/-- With the reciprocal of the divisor for `i` bits, enough for `m`, the division is exact. -/
theorem divWith_eq {recp : RecpCtx} {m : ℤ} {i : ℕ} (hN : recp.N ≠ 0)
    (hbits : recp.num_bits = bnNumBits recp.N) (hNr : recp.Nr = (2 ^ i : ℤ).tdiv recp.N)
    (hi : 2 * recp.num_bits ≤ i) (hm : bnNumBits m ≤ i) :
    divWith recp m i = bnDiv m recp.N := by
  have hpos := natAbs_pos.mpr hN
  have hlt : recp.N.natAbs < 2 ^ recp.num_bits := hbits ▸ lt_size_self _
  have hle : 2 ^ recp.num_bits ≤ 2 * recp.N.natAbs := by
    have hsize : 0 < recp.N.natAbs.size := Nat.size_pos.mpr hpos
    have := lt_size.mp (Nat.sub_one_lt hsize.ne')
    rw [hbits, bnNumBits, ← sub_one_add_one hsize.ne', pow_succ]
    omega
  have hsplit : 2 ^ recp.num_bits * 2 ^ (i - recp.num_bits) = 2 ^ i := by
    rw [← pow_add, Nat.add_sub_cancel' (by omega)]
  have hx : m.natAbs < 2 ^ recp.num_bits * 2 ^ (i - recp.num_bits) := by
    rw [hsplit]
    exact (lt_size_self _).trans_le (Nat.pow_le_pow_right two_pos hm)
  obtain ⟨h1, h2⟩ := estimate hlt.le hle hpos hx
  have hd : (bnRshift (bnRshift m recp.num_bits * recp.Nr) (i - recp.num_bits)).natAbs =
      m.natAbs / 2 ^ recp.num_bits *
        (2 ^ recp.num_bits * 2 ^ (i - recp.num_bits) / recp.N.natAbs) /
          2 ^ (i - recp.num_bits) := by
    simp only [bnRshift, hNr, hsplit, natAbs_tdiv, natAbs_mul, natAbs_pow]
    rfl
  simp only [divWith, hd, natAbs_mul, natAbs_natCast]
  generalize m.natAbs / 2 ^ recp.num_bits * _ / _ = d at *
  rw [if_neg (by omega), correct_eq hpos (by omega), bnDiv, if_neg hN, sub_mul_div,
    sub_mul_mod h1, ← (signed_div m recp.N).1, ← (signed_div m recp.N).2,
    Nat.add_sub_cancel' ((Nat.le_div_iff_mul_le hpos).mpr (by rwa [Nat.mul_comm]))]
  rfl

/-- What the uses of a context keep of it. -/
structure RecpCtx.Kept (N : ℤ) (recp : RecpCtx) : Prop where
  divisor : recp.N = N
  bits : recp.num_bits = bnNumBits N
  reciprocal : ∀ i : ℕ, 0 < i → recp.shift = i → recp.Nr = (2 ^ i : ℤ).tdiv N

theorem bnDivRecp_kept {N : ℤ} {recp : RecpCtx} (hN : N ≠ 0) (h : recp.Kept N) (m : ℤ) :
    (bnDivRecp recp m).1.Kept N ∧ (bnDivRecp recp m).2 = bnDiv m N := by
  obtain ⟨rfl, hbits, hNr⟩ := h
  have hpos : 0 < recp.num_bits := hbits ▸ Nat.size_pos.mpr (natAbs_pos.mpr hN)
  unfold bnDivRecp
  split_ifs with hlt
  · refine ⟨⟨rfl, hbits, hNr⟩, ?_⟩
    rw [bnDiv, if_neg hN, ← (signed_div m recp.N).1, ← (signed_div m recp.N).2,
      div_eq_of_lt hlt, mod_eq_of_lt hlt]
    refine congrArg some (Prod.ext (ite_self _).symm ?_)
    split_ifs <;> omega
  extract_lets i
  have hi : 2 * recp.num_bits ≤ i := le_max_right ..
  split_ifs with hshift
  · exact ⟨⟨rfl, hbits, hNr⟩,
      divWith_eq hN hbits (hNr i (by omega) hshift.symm) hi (le_max_left ..)⟩
  · rw [bnReciprocal, bnDiv, if_neg hN]
    refine ⟨⟨rfl, hbits, fun j _ hj => ?_⟩, divWith_eq hN hbits rfl hi (le_max_left ..)⟩
    rw [← natCast_inj.mp hj]
    rfl

/-- A division is exact, and so does not fail, whatever the context of a divisor was used for
before. -/
theorem div_recp_exact (N : ℤ) (hN : N ≠ 0) (earlier : List ℤ) (m : ℤ) :
    (bnDivRecp (run (fun recp m => (bnDivRecp recp m).1) (bnRecpCtxSet N) earlier) m).2 =
      bnDiv m N := by
  have hset : (bnRecpCtxSet N).Kept N :=
    ⟨rfl, rfl, fun i hi h => absurd (natCast_inj.mp h) hi.ne⟩
  have hstep (recp : RecpCtx) (m : ℤ) (h : recp.Kept N) := (bnDivRecp_kept hN h m).1
  exact (bnDivRecp_kept hN (run_invariant_all hstep earlier _ hset) m).2

/-- 1000 is divided by 7 in a context that has served for numbers of other sizes. -/
theorem div_recp_exact_reused :
    (bnDivRecp (run (fun recp m => (bnDivRecp recp m).1) (bnRecpCtxSet 7) [10 ^ 9, 8]) 1000).2 =
      some (142, 6) :=
  div_recp_exact 7 (by decide) [10 ^ 9, 8] 1000

end VigorTls.Bn
