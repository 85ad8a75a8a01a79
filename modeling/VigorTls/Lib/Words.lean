import Mathlib.Data.Nat.Bitwise
import VigorTls.Lib.Bytes

/-!
# Words and little-endian bytes

Words of `w` bits are natural numbers below `2 ^ w`. `leNat` is the value of bytes in little-endian
order and `leBytes` goes the other way. `ctCarry` computes the carry of an addition from the sum, in
the same time for all values.
-/

namespace VigorTls.Lib

open Nat List

/-- The value of a byte string in little-endian order. -/
def leNat : Bytes → ℕ
  | [] => 0
  | b :: bs => b.toNat + 256 * leNat bs

/-- The lowest `n` bytes of a number, the lowest first. -/
def leBytes : ℕ → ℕ → Bytes
  | 0, _ => []
  | n + 1, v => UInt8.ofNat v :: leBytes n (v / 256)

theorem leNat_lt : ∀ bs : Bytes, leNat bs < 256 ^ bs.length
  | [] => by simp [leNat]
  | b :: bs => by
    have ih := leNat_lt bs
    have hb := b.toNat_lt
    rw [leNat, length_cons]
    omega

theorem leNat_append : ∀ xs ys : Bytes,
    leNat (xs ++ ys) = leNat xs + 256 ^ xs.length * leNat ys
  | [], ys => by simp [leNat]
  | x :: xs, ys => by
    rw [cons_append, leNat, leNat, leNat_append xs ys, length_cons]
    ring

theorem leNat_replicate_zero (n : ℕ) : leNat (List.replicate n 0) = 0 := by
  induction n with
  | zero => rfl
  | succ n ih => rw [replicate_succ, leNat, ih]; rfl

theorem leBytes_append (n k v : ℕ) :
    leBytes n v ++ leBytes k (v / 256 ^ n) = leBytes (n + k) v := by
  induction n generalizing v with
  | zero => simp [leBytes]
  | succ n ih =>
    rw [leBytes, cons_append, pow_succ', ← Nat.div_div_eq_div_mul, ih, succ_add, leBytes]

theorem leBytes_mod (n v : ℕ) : leBytes n (v % 256 ^ n) = leBytes n v := by
  induction n generalizing v with
  | zero => rfl
  | succ n ih =>
    rw [leBytes, pow_succ', mod_mul_right_div_self, ih]
    congr 1
    rw [← UInt8.toNat_inj]
    exact mod_mod_of_dvd v (Dvd.intro _ rfl)

theorem or_shiftLeft {a i : ℕ} (h : a < 2 ^ i) (b : ℕ) : a ||| b <<< i = a + 2 ^ i * b := by
  rw [Nat.or_comm, ← shiftLeft_add_eq_or_of_lt h, shiftLeft_eq]
  ring

variable {x w : ℕ}

/-- All bits but the lowest `k`. -/
theorem and_high {k : ℕ} (hk : k ≤ w) (hx : x < 2 ^ w) :
    x &&& (2 ^ w - 2 ^ k) = 2 ^ k * (x / 2 ^ k) := by
  have hmask : 2 ^ w - 2 ^ k = 2 ^ k * (2 ^ (w - k) - 1) := by
    rw [Nat.mul_sub, ← pow_add, Nat.add_sub_cancel' hk, mul_one]
  apply eq_of_testBit_eq
  intro i
  rw [testBit_and, hmask, testBit_two_pow_mul, testBit_two_pow_mul, testBit_div_two_pow]
  by_cases hki : k ≤ i
  · rw [Nat.sub_add_cancel hki]
    by_cases hi : i < w
    · simp [hki]
      omega
    · have hzero : x.testBit i = false := testBit_lt_two_pow
        (lt_of_lt_of_le hx (Nat.pow_le_pow_right (by decide) (by omega)))
      simp [hzero]
  · simp [hki]

theorem and_words {a c k : ℕ} (ha : a < 2 ^ k) (hc : c < 2 ^ k) (b d : ℕ) :
    (a + 2 ^ k * b) &&& (c + 2 ^ k * d) = (a &&& c) + 2 ^ k * (b &&& d) := by
  have hac : a &&& c < 2 ^ k := and_lt_two_pow a hc
  apply eq_of_testBit_eq
  intro i
  rw [testBit_and, Nat.add_comm a, Nat.add_comm c, Nat.add_comm (a &&& c),
    testBit_two_pow_mul_add _ ha, testBit_two_pow_mul_add _ hc,
    testBit_two_pow_mul_add _ hac]
  split <;> rw [testBit_and]

theorem and_ones (hx : x < 2 ^ w) : x &&& (2 ^ w - 1) = x := by
  rw [and_two_pow_sub_one_eq_mod, Nat.mod_eq_of_lt hx]

/-- `CONSTANT_TIME_CARRY` on words of `w` bits. -/
def ctCarry (w a b : ℕ) : ℕ := (a ^^^ ((a ^^^ b) ||| ((a + 2 ^ w - b) % 2 ^ w ^^^ b))) >>> (w - 1)

theorem shiftRight_top (hx : x < 2 ^ (w + 1)) : x >>> w = if x.testBit w then 1 else 0 := by
  have hlt : x / 2 ^ w < 2 := Nat.div_lt_of_lt_mul (by rwa [pow_succ] at hx)
  rw [shiftRight_eq_div_pow, testBit_eq_decide_div_mod_eq]
  rcases le_one_iff_eq_zero_or_eq_one.mp (Nat.lt_succ_iff.mp hlt) with h | h <;> rw [h] <;> rfl

theorem testBit_top (hx : x < 2 ^ (w + 1)) : x.testBit w = decide (2 ^ w ≤ x) := by
  have hlt : x / 2 ^ w < 2 := Nat.div_lt_of_lt_mul (by rwa [pow_succ] at hx)
  have hle := Nat.le_div_iff_mul_le (x := 1) (y := x) (Nat.two_pow_pos w)
  rw [one_mul] at hle
  rw [testBit_eq_decide_div_mod_eq, Nat.mod_eq_of_lt hlt]
  exact decide_eq_decide.mpr ⟨fun h => hle.mp h.ge, fun h => by have := hle.mpr h; omega⟩

theorem ctCarry_eq {a b : ℕ} (ha : a < 2 ^ (w + 1)) (hb : b < 2 ^ (w + 1)) :
    ctCarry (w + 1) a b = if a < b then 1 else 0 := by
  have hd : (a + 2 ^ (w + 1) - b) % 2 ^ (w + 1) < 2 ^ (w + 1) := mod_lt _ (Nat.two_pow_pos _)
  have hdiff : (a + 2 ^ (w + 1) - b) % 2 ^ (w + 1) =
      if a < b then a + 2 ^ (w + 1) - b else a - b := by
    split
    · exact Nat.mod_eq_of_lt (by omega)
    · rw [show a + 2 ^ (w + 1) - b = a - b + 2 ^ (w + 1) by omega, add_mod_right,
        Nat.mod_eq_of_lt (by omega)]
  have hx : a ^^^ ((a ^^^ b) ||| ((a + 2 ^ (w + 1) - b) % 2 ^ (w + 1) ^^^ b)) < 2 ^ (w + 1) :=
    xor_lt_two_pow ha (or_lt_two_pow (xor_lt_two_pow ha hb) (xor_lt_two_pow hd hb))
  rw [ctCarry, Nat.add_sub_cancel, shiftRight_top hx, testBit_xor, testBit_or,
    testBit_xor, testBit_xor, testBit_top ha, testBit_top hb, testBit_top hd, hdiff]
  -- Words in different halves are compared by their highest bits, others by their difference.
  by_cases hlt : a < b
  · rw [if_pos hlt, if_pos hlt]
    by_cases ha' : 2 ^ w ≤ a
    · have hb' : 2 ^ w ≤ b := by omega
      have hd' : 2 ^ w ≤ a + 2 ^ (w + 1) - b := by omega
      simp [hb', hd']
    · by_cases hb' : 2 ^ w ≤ b
      · simp [ha', hb']
      · have hd' : 2 ^ w ≤ a + 2 ^ (w + 1) - b := by omega
        simp [ha', hd']
  · rw [if_neg hlt, if_neg hlt]
    by_cases ha' : 2 ^ w ≤ a
    · by_cases hb' : 2 ^ w ≤ b
      · have hd' : ¬ 2 ^ w ≤ a - b := by omega
        simp [ha', hd']
      · simp [ha', hb']
    · have hb' : ¬ 2 ^ w ≤ b := by omega
      have hd' : ¬ 2 ^ w ≤ a - b := by omega
      simp [hb', hd']

theorem ctCarry_add {c : ℕ} (hx : x < 2 ^ (w + 1)) (hc : c < 2 ^ (w + 1)) :
    ctCarry (w + 1) ((x + c) % 2 ^ (w + 1)) c = (x + c) / 2 ^ (w + 1) := by
  rw [ctCarry_eq (mod_lt _ (Nat.two_pow_pos _)) hc]
  rcases Nat.lt_or_ge (x + c) (2 ^ (w + 1)) with hlt | hge
  · rw [Nat.mod_eq_of_lt hlt, if_neg (by omega), div_eq_of_lt hlt]
  · have hmod : (x + c) % 2 ^ (w + 1) = x + c - 2 ^ (w + 1) := by
      rw [mod_eq_sub_mod hge, Nat.mod_eq_of_lt (by omega)]
    rw [if_pos (by omega)]
    exact (Nat.div_eq_of_lt_le (by omega) (by omega)).symm

end VigorTls.Lib
