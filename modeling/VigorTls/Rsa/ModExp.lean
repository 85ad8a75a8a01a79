import Mathlib.FieldTheory.Finite.Basic

/-!
# The private operation of RSA

`RSA_eay_mod_exp` of `crypto/rsa/rsa_eay.c`, on numbers. The power is put together from those modulo
the two primes, and is taken anew if it does not give back the input. What passes that check is
right, whatever the key has for `dmp1`, `dmq1` and `iqmp` (`mod_exp_exact`).
-/

namespace VigorTls

open Int

/-- The fields of `RSA` that are read; `e` and `n` may be null. -/
structure Rsa where
  n : Option ℕ
  e : Option ℕ
  d : ℕ
  p : ℕ
  q : ℕ
  dmp1 : ℕ
  dmq1 : ℕ
  iqmp : ℕ

def bnModExp (a : ℤ) (p m : ℕ) : ℤ := a ^ p % m

def addNegative (a : ℤ) (m : ℕ) : ℤ := if a < 0 then a + m else a

/-- `RSA_eay_mod_exp` up to the check. `BN_mod` keeps the sign. -/
def crt (rsa : Rsa) (I : ℤ) : ℤ :=
  let m1 := bnModExp (I.tmod rsa.q) rsa.dmq1 rsa.q
  let r0 := addNegative (bnModExp (I.tmod rsa.p) rsa.dmp1 rsa.p - m1) rsa.p
  let r0 := addNegative ((r0 * rsa.iqmp).tmod rsa.p) rsa.p
  r0 * rsa.q + m1

def rsaEayModExp (rsa : Rsa) (I : ℤ) : ℤ :=
  let r0 := crt rsa I
  match rsa.e, rsa.n with
  | some e, some n =>
    if addNegative ((bnModExp r0 e n - I).tmod n) n = 0 then r0 else bnModExp I rsa.d n
  | _, _ => r0

/-- A key, apart from `dmp1`, `dmq1` and `iqmp`. -/
structure Rsa.Key (rsa : Rsa) (e : ℕ) : Prop where
  p_prime : rsa.p.Prime
  q_prime : rsa.q.Prime
  p_odd : 2 < rsa.p
  q_odd : 2 < rsa.q
  ne : rsa.p ≠ rsa.q
  n_eq : rsa.n = some (rsa.p * rsa.q)
  e_eq : rsa.e = some e
  inverse_p : e * rsa.d ≡ 1 [MOD rsa.p - 1]
  inverse_q : e * rsa.d ≡ 1 [MOD rsa.q - 1]

/-- `dmp1`, `dmq1` and `iqmp` are what they should be. -/
structure Rsa.CrtKey (rsa : Rsa) : Prop where
  dmp1 : rsa.dmp1 ≡ rsa.d [MOD rsa.p - 1]
  dmq1 : rsa.dmq1 ≡ rsa.d [MOD rsa.q - 1]
  iqmp : rsa.iqmp * rsa.q ≡ 1 [MOD rsa.p]

section

variable {m : ℕ}

theorem cast_bnModExp (a : ℤ) (p : ℕ) : (bnModExp a p m : ZMod m) = a ^ p := by
  simp [bnModExp]

theorem cast_addNegative (a : ℤ) : (addNegative a m : ZMod m) = a := by
  unfold addNegative
  split_ifs <;> simp

theorem cast_tmod (a : ℤ) : (a.tmod m : ZMod m) = a := by
  rw [tmod_def]
  simp

theorem addNegative_tmod_range (a : ℤ) (hm : 0 < m) :
    0 ≤ addNegative (a.tmod m) m ∧ addNegative (a.tmod m) m < m := by
  have h1 := tmod_lt_of_pos a (natCast_pos.mpr hm)
  have h2 := lt_tmod_of_pos a (natCast_pos.mpr hm)
  unfold addNegative
  split_ifs <;> omega

theorem pow_eq_pow_of_modEq {p a b e : ℕ} (hp : p.Prime) (h2 : 2 < p) (hb : e * b ≡ 1 [MOD p - 1])
    (h : a ≡ b [MOD p - 1]) (x : ZMod p) : x ^ a = x ^ b := by
  have := Fact.mk hp
  have hne {c : ℕ} (h : c ≡ b [MOD p - 1]) : c ≠ 0 := by
    rintro rfl
    have h0 := (h.mul_left e).trans hb
    rw [mul_zero] at h0
    have := Nat.le_of_dvd one_pos ((Nat.modEq_zero_iff_dvd).mp h0.symm)
    omega
  by_cases hx : x = 0
  · rw [hx, zero_pow (hne h), zero_pow (hne rfl)]
  · rw [← pow_mod_orderOf x a, h.of_dvd (ZMod.orderOf_dvd_card_sub_one hx), pow_mod_orderOf]

end

section

variable {rsa : Rsa} {e : ℕ} (hkey : rsa.Key e)
include hkey

theorem crt_range (I : ℤ) : 0 ≤ crt rsa I ∧ crt rsa I < rsa.p * rsa.q := by
  have hq : (0 : ℤ) < rsa.q := natCast_pos.mpr hkey.q_prime.pos
  have h1 := emod_nonneg (I.tmod rsa.q ^ rsa.dmq1) hq.ne'
  have h2 := emod_lt_of_pos (I.tmod rsa.q ^ rsa.dmq1) hq
  unfold crt
  dsimp only [bnModExp]
  generalize I.tmod rsa.q ^ rsa.dmq1 % (rsa.q : ℤ) = m1 at *
  generalize addNegative (_ - m1) rsa.p = r0
  have h3 := addNegative_tmod_range (r0 * rsa.iqmp) hkey.p_prime.pos
  generalize addNegative ((r0 * rsa.iqmp).tmod rsa.p) rsa.p = r at *
  have h4 := mul_le_mul_of_nonneg_right (add_one_le_of_lt h3.2) hq.le
  have h5 := mul_nonneg h3.1 hq.le
  rw [add_mul, one_mul] at h4
  omega

theorem eq_of_cast {r : ℤ} {a : ℕ} (hr : 0 ≤ r ∧ r < rsa.p * rsa.q) (hp : (r : ZMod rsa.p) = a)
    (hq : (r : ZMod rsa.q) = a) : r = (a % (rsa.p * rsa.q) : ℕ) := by
  have hcop : (rsa.p : ℤ).natAbs.Coprime (rsa.q : ℤ).natAbs :=
    (Nat.coprime_primes hkey.p_prime hkey.q_prime).mpr hkey.ne
  have hp := (ZMod.intCast_eq_intCast_iff r a rsa.p).mp (by simpa using hp)
  have hq := (ZMod.intCast_eq_intCast_iff r a rsa.q).mp (by simpa using hq)
  have h := (modEq_and_modEq_iff_modEq_mul hcop).mp ⟨hp, hq⟩
  rw [← emod_eq_of_lt hr.1 hr.2, h, natCast_emod, Nat.cast_mul]

theorem crt_exact (hcrt : rsa.CrtKey) (I : ℕ) : crt rsa I = (I ^ rsa.d % (rsa.p * rsa.q) : ℕ) := by
  have hiqmp : (rsa.iqmp * rsa.q : ZMod rsa.p) = 1 := by
    exact_mod_cast (ZMod.natCast_eq_natCast_iff _ _ _).mpr hcrt.iqmp
  refine eq_of_cast hkey (crt_range hkey I) ?_ ?_
  · simp only [crt, cast_add, cast_mul, cast_addNegative, cast_tmod, cast_sub,
      cast_bnModExp, cast_natCast, mul_assoc, hiqmp, mul_one, sub_add_cancel, Nat.cast_pow]
    exact pow_eq_pow_of_modEq hkey.p_prime hkey.p_odd hkey.inverse_p hcrt.dmp1 _
  · simp only [crt, cast_add, cast_mul, cast_natCast, ZMod.natCast_self, mul_zero,
      zero_add, cast_bnModExp, cast_tmod, Nat.cast_pow]
    exact pow_eq_pow_of_modEq hkey.q_prime hkey.q_odd hkey.inverse_q hcrt.dmq1 _

end

/-- `RSA_eay_mod_exp` is exact for every key, and without the check for one with right parts. -/
theorem mod_exp_exact (rsa : Rsa) (e : ℕ) (hkey : rsa.Key e) (I : ℕ) :
    rsaEayModExp rsa I = (I ^ rsa.d % (rsa.p * rsa.q) : ℕ) ∧
      (rsa.CrtKey → crt rsa I = (I ^ rsa.d % (rsa.p * rsa.q) : ℕ)) := by
  refine ⟨?_, fun hcrt => crt_exact hkey hcrt I⟩
  simp only [rsaEayModExp, hkey.e_eq, hkey.n_eq]
  split_ifs with hv
  · -- The result, raised to the power `e`, is the input.
    have hcheck {m : ℕ} (hm : m ∣ rsa.p * rsa.q) : ((crt rsa I : ZMod m) ^ e) = I := by
      have h := congrArg (Int.cast : ℤ → ZMod (rsa.p * rsa.q)) hv
      rw [cast_addNegative, cast_tmod, cast_sub, cast_bnModExp, cast_zero, sub_eq_zero] at h
      have h := congrArg (ZMod.castHom hm (ZMod m)) h
      rwa [map_pow, map_intCast, map_intCast, cast_natCast] at h
    have hroot {m : ℕ} (hm : m ∣ rsa.p * rsa.q) (hprime : m.Prime) (h2 : 2 < m)
        (hinv : e * rsa.d ≡ 1 [MOD m - 1]) : (crt rsa I : ZMod m) = (I ^ rsa.d : ℕ) := by
      rw [Nat.cast_pow, ← hcheck hm, ← pow_mul]
      exact (pow_one _).symm.trans (pow_eq_pow_of_modEq hprime h2 (by rwa [one_mul]) hinv.symm _)
    exact eq_of_cast hkey (crt_range hkey I)
      (hroot (dvd_mul_right _ _) hkey.p_prime hkey.p_odd hkey.inverse_p)
      (hroot (dvd_mul_left _ _) hkey.q_prime hkey.q_odd hkey.inverse_q)
  · simp [bnModExp]

/-- With `iqmp` and `dmp1` wrong, 2 to the power 3 modulo 15: the result of the Chinese remainder
theorem is 13, and it is computed again. -/
theorem mod_exp_faulty : crt ⟨some 15, some 3, 3, 3, 5, 0, 3, 2⟩ 2 = 13 ∧
    rsaEayModExp ⟨some 15, some 3, 3, 3, 5, 0, 3, 2⟩ 2 = 8 :=
  ⟨by decide, (mod_exp_exact ⟨some 15, some 3, 3, 3, 5, 0, 3, 2⟩ 3
    ⟨by decide, by decide, by decide, by decide, by decide, rfl, rfl, by decide, by decide⟩ 2).1⟩

end VigorTls
