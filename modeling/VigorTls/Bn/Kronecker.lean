import Mathlib.NumberTheory.LegendreSymbol.JacobiSymbol
import Mathlib.NumberTheory.Padics.PadicVal.Basic

/-!
# The Kronecker symbol

`BN_kronecker` of `crypto/bn/bn_kron.c` on integers. A round of its loop takes the factors of two
out of `A` and turns the symbol round by quadratic reciprocity. The product of `ret` and the Jacobi
symbol stays the same (`kroneckerLoop_eq`), also in the first round, in which `A` may be negative.
-/

namespace VigorTls.Bn

open scoped NumberTheorySymbols

/-- Where the loop `while (!BN_is_bit_set(a, i)) i++` ends. -/
def lowestBit (a : ℕ) (h : a ≠ 0) : ℕ := Nat.find (Nat.exists_testBit_of_ne_zero h)

/-- `tab[BN_lsw(n) & 7]`. -/
def tab (n : ℤ) : ℤ := [0, 1, 0, -1, 0, -1, 0, 1].getD (n.natAbs % 8) 0

theorem lowestBit_spec {a : ℤ} (h : a.natAbs ≠ 0) :
    a = 2 ^ lowestBit a.natAbs h * a.tdiv (2 ^ lowestBit a.natAbs h) ∧
      (a.tdiv (2 ^ lowestBit a.natAbs h)).natAbs % 2 = 1 := by
  have hbit : a.natAbs.testBit (lowestBit a.natAbs h) :=
    Nat.find_spec (Nat.exists_testBit_of_ne_zero h)
  have hlow : ∀ j < lowestBit a.natAbs h, ¬ a.natAbs.testBit j := fun j => Nat.find_min _
  generalize lowestBit a.natAbs h = i at *
  have hdvd : 2 ^ i ∣ a.natAbs := by
    refine Nat.dvd_of_mod_eq_zero (Nat.eq_of_testBit_eq fun j => ?_)
    rw [Nat.testBit_mod_two_pow, Nat.zero_testBit]
    by_cases hj : j < i
    · simp [hlow j hj]
    · simp [hj]
  refine ⟨(Int.mul_tdiv_cancel' (Int.natCast_dvd.mpr (by simpa using hdvd))).symm, ?_⟩
  rw [Nat.testBit_eq_decide_div_mod_eq, decide_eq_true_eq] at hbit
  rw [Int.natAbs_tdiv, Int.natAbs_pow]
  exact hbit

def kroneckerLoop (A : ℤ) (B : ℕ) (ret : ℤ) : ℤ :=
  if h : A = 0 then if B = 1 then ret else 0
  else
    let i := lowestBit A.natAbs (Int.natAbs_ne_zero.mpr h)
    let A' := A.tdiv (2 ^ i)
    let ret := if i % 2 = 1 then ret * tab B else ret
    let low := A'.natAbs.testBit 1
    let ret := if (if A' < 0 then !low else low) && B.testBit 1 then -ret else ret
    kroneckerLoop (B % A') A'.natAbs ret
termination_by A.natAbs
decreasing_by
  -- The remainder is below the odd part.
  have hodd : A'.natAbs % 2 = 1 := (lowestBit_spec (Int.natAbs_ne_zero.mpr h)).2
  have hle : A'.natAbs ≤ A.natAbs := Int.natAbs_tdiv_le_natAbs ..
  have := Int.emod_lt (B : ℤ) (b := A') (by omega)
  have := Int.emod_nonneg (B : ℤ) (b := A') (by omega)
  show (B % A').natAbs < A.natAbs
  omega

def bnKronecker (a b : ℤ) : ℤ :=
  if h : b = 0 then if a.natAbs = 1 then 1 else 0
  else if a % 2 = 0 ∧ b % 2 = 0 then 0
  else
    let i := lowestBit b.natAbs (Int.natAbs_ne_zero.mpr h)
    let B := b.tdiv (2 ^ i)
    let ret := if i % 2 = 1 then tab a else 1
    kroneckerLoop a B.natAbs (if B < 0 ∧ a < 0 then -ret else ret)

/-- The Kronecker symbol: the Jacobi symbol for odd positive `b`, `ZMod.χ₈ a` for 2 and the sign of
`a` for -1, multiplicative in `b`; for 0 whether `a` is a unit. -/
def kronecker (a b : ℤ) : ℤ :=
  if b = 0 then if a.natAbs = 1 then 1 else 0
  else
    let e := padicValNat 2 b.natAbs
    (if b < 0 ∧ a < 0 then -1 else 1) * ZMod.χ₈ a ^ e * J(a | b.natAbs / 2 ^ e)

theorem chi_pow {n : ℤ} (hn : n % 2 = 1) (i : ℕ) :
    ZMod.χ₈ n ^ i = if i % 2 = 1 then tab n else 1 := by
  have htab : tab n = ZMod.χ₈ n := by
    rw [tab, ZMod.χ₈_int_eq_if_mod_eight]
    have := Nat.mod_lt n.natAbs (show 8 > 0 by decide)
    interval_cases hn : n.natAbs % 8 <;> simp <;> omega
  have hchi : ZMod.χ₈ n = 1 ∨ ZMod.χ₈ n = -1 := by
    rw [ZMod.χ₈_int_eq_if_mod_eight, if_neg (by omega)]
    exact ite_eq_or_eq ..
  rw [htab]
  rcases hchi with h | h <;> rw [h]
  · rw [one_pow, ite_self]
  · split_ifs with hi
    · exact (Nat.odd_iff.mpr hi).neg_one_pow
    · exact (Nat.not_odd_iff_even.mp (mt Nat.odd_iff.mp hi)).neg_one_pow

theorem jacobi_swap {a : ℤ} {b : ℕ} (ha : a.natAbs % 2 = 1) (hb : b % 2 = 1) :
    J(a | b) =
      (if (if a < 0 then !a.natAbs.testBit 1 else a.natAbs.testBit 1) && b.testBit 1 then -1
      else 1) * J(b % a | a.natAbs) := by
  have htest {n : ℕ} (hn : n % 2 = 1) : n.testBit 1 = decide (n % 4 = 3) := by
    rw [Nat.testBit_eq_decide_div_mod_eq]
    exact decide_eq_decide.mpr (by omega)
  have hmod : J(b % a | a.natAbs) = J(b | a.natAbs) := by
    rw [jacobiSym.mod_left b, ← Int.emod_abs b a, Int.abs_eq_natAbs]
  rw [hmod, htest ha, htest hb]
  obtain ⟨n, rfl | rfl⟩ := a.eq_nat_or_neg
  · rw [Int.natAbs_natCast] at *
    rw [← jacobiSym.quadratic_reciprocity_if ha hb, if_neg (Int.natCast_nonneg n).not_gt]
    by_cases hn : n % 4 = 3 <;> by_cases hb' : b % 4 = 3 <;> simp [hn, hb']
  rw [Int.natAbs_neg, Int.natAbs_natCast] at *
  rw [jacobiSym.neg _ (Nat.odd_iff.mpr hb), ← jacobiSym.quadratic_reciprocity_if ha hb,
    ZMod.χ₄_nat_eq_if_mod_four, if_neg (by omega : ¬ b % 2 = 0), if_pos (by omega : -(n : ℤ) < 0)]
  by_cases hn : n % 4 = 3 <;> by_cases hb' : b % 4 = 3 <;>
    simp [hn, hb', (by omega : b % 4 = 1 ↔ b % 4 ≠ 3)]

theorem kroneckerLoop_eq (A : ℤ) (B : ℕ) (ret : ℤ) (hB : B % 2 = 1) :
    kroneckerLoop A B ret = ret * J(A | B) := by
  fun_induction kroneckerLoop A B ret with
  | case1 => rw [jacobiSym.one_right, mul_one]
  | case2 B ret hone => rw [jacobiSym.zero_left (by omega), mul_zero]
  | case3 A B ret h i A' ret1 low ret2 ih =>
    obtain ⟨hA, hodd⟩ := lowestBit_spec (Int.natAbs_ne_zero.mpr h)
    have htwo : J(A | B) = (if i % 2 = 1 then tab B else 1) * J(A' | B) := by
      rw [← chi_pow (by omega), Int.cast_natCast, ← jacobiSym.at_two (Nat.odd_iff.mpr hB),
        ← jacobiSym.pow_left, ← jacobiSym.mul_left, ← hA]
    rw [ih hodd, htwo, jacobi_swap hodd hB]
    simp only [ret2, ret1]
    split_ifs <;> ring

/-- For an odd number it is the Jacobi symbol. -/
theorem bnKronecker_of_odd (a : ℤ) {m : ℕ} (hm : m % 2 = 1) : bnKronecker a m = J(a | m) := by
  have hbit (h) : lowestBit m h = 0 := (Nat.find_eq_zero _).mpr (by simp [hm])
  have hloop := kroneckerLoop_eq a m 1 hm
  rw [bnKronecker, dif_neg (by omega), if_neg (by omega)]
  simpa [hbit, (Int.natCast_nonneg m).not_gt] using hloop

/-- `BN_kronecker` is the Kronecker symbol, for all numbers. -/
theorem kronecker_exact (a b : ℤ) : bnKronecker a b = kronecker a b := by
  unfold bnKronecker kronecker
  split
  · rfl
  next h =>
  obtain ⟨hb, hodd⟩ := lowestBit_spec (Int.natAbs_ne_zero.mpr h)
  generalize lowestBit b.natAbs (Int.natAbs_ne_zero.mpr h) = i at *
  dsimp only
  generalize b.tdiv (2 ^ i) = B at *
  have hpow : (0 : ℤ) < 2 ^ i := by positivity
  have hsign : b < 0 ↔ B < 0 := by simp [hb, Int.mul_neg_iff, hpow, hpow.not_gt]
  have habs : b.natAbs = 2 ^ i * B.natAbs := by rw [hb, Int.natAbs_mul, Int.natAbs_pow]; rfl
  have he : padicValNat 2 b.natAbs = i := by
    rw [habs, padicValNat.mul (by positivity) (by omega), padicValNat.prime_pow,
      padicValNat.eq_zero_of_not_dvd (by omega), add_zero]
  rw [he, habs, Nat.mul_div_cancel_left _ (by positivity)]
  split
  · next heven =>
    have hi : i ≠ 0 := by
      rintro rfl
      omega
    rw [ZMod.χ₈_int_eq_if_mod_eight, if_pos heven.1, zero_pow hi, mul_zero, zero_mul]
  next hone =>
  have hchi : ZMod.χ₈ a ^ i = if i % 2 = 1 then tab a else 1 := by
    rcases Nat.eq_zero_or_pos i with rfl | hi
    · rw [pow_zero, if_neg (by decide)]
    · have hdvd : 2 ∣ b := hb ▸ (dvd_pow_self 2 hi.ne').mul_right B
      exact chi_pow (by omega) i
  rw [kroneckerLoop_eq _ _ _ hodd, hchi]
  simp only [hsign]
  split_ifs <;> ring

end VigorTls.Bn
