import Mathlib.Data.Nat.Log
import Mathlib.Data.Nat.Size
import VigorTls.Lib.Bytes

/-!
# DER lengths and integers

The length of an element's contents in the distinguished encoding, and the contents of an integer:
its bytes with room for a sign bit, as few as it takes.
-/

namespace VigorTls.Lib

def octets (n : ℕ) : ℕ := Nat.log 256 n + 1

theorem lt_pow_octets (n : ℕ) : n < 256 ^ octets n := Nat.lt_pow_succ_log_self (by decide) n

/-- The length bytes of `n` bytes of contents. -/
def derLength (n : ℕ) : Bytes :=
  if n < 128 then [UInt8.ofNat n] else UInt8.ofNat (128 + octets n) :: beBytes (octets n) n

theorem derLength_short {n : ℕ} (h : n < 128) : derLength n = [UInt8.ofNat n] := if_pos h

theorem derLength_long {n : ℕ} (h : 128 ≤ n) :
    derLength n = UInt8.ofNat (128 + octets n) :: beBytes (octets n) n := if_neg (by omega)

theorem length_derLength_pos (n : ℕ) : 0 < (derLength n).length := by
  unfold derLength
  split <;> simp

theorem derLength_eq {n k : ℕ} (h128 : 128 ≤ n) (hlo : 256 ^ k ≤ n) (hhi : n < 256 ^ (k + 1)) :
    derLength n = UInt8.ofNat (128 + (k + 1)) :: beBytes (k + 1) n := by
  rw [derLength_long h128, octets, (Nat.log_eq_iff (.inr ⟨by decide, by omega⟩)).mpr ⟨hlo, hhi⟩]

/-- The contents of a non-negative integer: as few bytes as leave the top bit clear. -/
def integerBytes (v : ℕ) : Bytes := beBytes (v.size / 8 + 1) v

/-- The number of bytes is found between two powers of two. -/
theorem size_div_eight {v n : ℕ} (hlo : n = 0 ∨ 2 ^ (8 * n - 1) ≤ v) (hhi : v < 2 ^ (8 * n + 7)) :
    v.size / 8 = n := by
  have hle := Nat.size_le.mpr hhi
  have hge : 8 * n ≤ v.size := by
    rcases hlo with rfl | hlo
    · omega
    · have := Nat.lt_size.mpr hlo
      omega
  omega

theorem beNat_integerBytes (v : ℕ) : beNat (integerBytes v) = v := by
  have hlt : v < 2 ^ (8 * (v.size / 8 + 1)) := Nat.size_le.mp (by omega)
  rw [pow_mul] at hlt
  exact beNat_beBytes_of_lt hlt

/-- The bytes of a number from the highest on. -/
theorem beBytes_succ (v : ℕ) : ∀ n : ℕ, beBytes (n + 1) v = UInt8.ofNat (v / 256 ^ n) :: beBytes n v
  | 0 => by simp [beBytes]
  | n + 1 => by
    rw [beBytes, beBytes_succ (v / 256) n, Nat.div_div_eq_div_mul, ← pow_succ', List.cons_append,
      beBytes]

theorem integerBytes_eq {v n : ℕ} (hlo : 256 ^ n ≤ v) (hhi : v < 256 ^ (n + 1)) :
    integerBytes v = (if v / 256 ^ n < 128 then [] else [0]) ++ beBytes (n + 1) v := by
  have hpos : 0 < 256 ^ n := by positivity
  by_cases htop : v / 256 ^ n < 128
  · have hsize : v.size / 8 = n := by
      refine size_div_eight ?_ ?_
      · rcases Nat.eq_zero_or_pos n with hn | hn
        · exact .inl hn
        · refine .inr (le_trans (Nat.pow_le_pow_right (by decide) (Nat.sub_le ..)) ?_)
          rwa [pow_mul]
      · rw [pow_add, pow_mul, Nat.mul_comm]
        exact (Nat.div_lt_iff_lt_mul hpos).mp htop
    rw [if_pos htop, integerBytes, hsize, List.nil_append]
  · have hsize : v.size / 8 = n + 1 := by
      refine size_div_eight (.inr ?_) ?_
      · rw [show 8 * (n + 1) - 1 = 8 * n + 7 by omega, pow_add, pow_mul, Nat.mul_comm]
        exact (Nat.le_div_iff_mul_le hpos).mp (Nat.le_of_not_lt htop)
      · refine hhi.trans_le ?_
        rw [show 256 = 2 ^ 8 from rfl, ← pow_mul]
        exact Nat.pow_le_pow_right (by decide) (by omega)
    rw [if_neg htop, integerBytes, hsize, beBytes_succ, Nat.div_eq_of_lt hhi]
    rfl

end VigorTls.Lib
