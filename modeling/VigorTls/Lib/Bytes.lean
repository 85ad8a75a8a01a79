import Mathlib.Data.List.Basic
import Mathlib.Tactic.Ring
import Mathlib.Tactic.Linarith

/-!
# Byte strings as numbers

The big-endian value of a byte string, with what a comparison from the first byte on needs.
-/

namespace VigorTls

/-- A byte string. -/
abbrev Bytes := List UInt8

namespace Lib

/-- The value of a byte string in big-endian order. -/
def beNat : Bytes → ℕ
  | [] => 0
  | b :: bs => b.toNat * 256 ^ bs.length + beNat bs

@[simp] theorem beNat_nil : beNat [] = 0 := rfl

theorem beNat_cons (b : UInt8) (bs : Bytes) :
    beNat (b :: bs) = b.toNat * 256 ^ bs.length + beNat bs := rfl

theorem beNat_lt : ∀ bs : Bytes, beNat bs < 256 ^ bs.length
  | [] => by simp
  | b :: bs => by
    have ih := beNat_lt bs
    have hb : b.toNat ≤ 255 := by have := b.toNat_lt; omega
    rw [beNat_cons, List.length_cons, pow_succ]
    nlinarith

theorem beNat_append : ∀ xs ys : Bytes,
    beNat (xs ++ ys) = beNat xs * 256 ^ ys.length + beNat ys
  | [], ys => by simp
  | x :: xs, ys => by
    rw [List.cons_append, beNat_cons, beNat_cons, beNat_append xs ys, List.length_append]
    ring

/-- A byte string of the largest value is all `0xff`. -/
theorem beNat_add_one_eq_pow_iff : ∀ bs : Bytes,
    beNat bs + 1 = 256 ^ bs.length ↔ ∀ b ∈ bs, b = 0xff
  | [] => by simp
  | b :: bs => by
    have ih := beNat_add_one_eq_pow_iff bs
    have hlt := beNat_lt bs
    have hb : b.toNat ≤ 255 := by have := b.toNat_lt; omega
    have hff : b = 0xff ↔ b.toNat = 255 := by
      rw [← UInt8.toNat_inj]; rfl
    simp only [List.mem_cons, forall_eq_or_imp, beNat_cons, List.length_cons, pow_succ, hff, ← ih]
    constructor
    · intro h
      have h255 : b.toNat = 255 := by
        by_contra hne
        have : b.toNat ≤ 254 := by omega
        nlinarith
      rw [h255] at h
      exact ⟨h255, by omega⟩
    · rintro ⟨h255, hbs⟩
      rw [h255]
      omega

theorem beNat_eq_zero_iff : ∀ bs : Bytes, beNat bs = 0 ↔ ∀ b ∈ bs, b = 0
  | [] => by simp
  | b :: bs => by
    have hb : b = 0 ↔ b.toNat = 0 := by
      rw [← UInt8.toNat_inj]; rfl
    simp [beNat_cons, beNat_eq_zero_iff bs, hb]

theorem beNat_inj : ∀ {xs ys : Bytes}, xs.length = ys.length → beNat xs = beNat ys → xs = ys
  | [], [], _, _ => rfl
  | x :: xs, y :: ys, hl, h => by
    have hl' : xs.length = ys.length := by simpa using hl
    have hx := beNat_lt xs
    have hy := beNat_lt ys
    rw [beNat_cons, beNat_cons, hl'] at h
    rw [hl'] at hx
    have hxy : x.toNat = y.toNat := by
      rcases lt_trichotomy x.toNat y.toNat with hlt | heq | hgt
      · have : x.toNat + 1 ≤ y.toNat := hlt
        nlinarith
      · exact heq
      · have : y.toNat + 1 ≤ x.toNat := hgt
        nlinarith
    rw [UInt8.toNat_inj.mp hxy, beNat_inj hl' (by rw [hxy] at h; omega)]

/-- The last `n` bytes of a number, the highest first. -/
def beBytes : ℕ → ℕ → Bytes
  | 0, _ => []
  | n + 1, v => beBytes n (v / 256) ++ [UInt8.ofNat v]

@[simp] theorem length_beBytes : ∀ n v : ℕ, (beBytes n v).length = n
  | 0, _ => rfl
  | n + 1, v => by simp [beBytes, length_beBytes n]

theorem beNat_beBytes : ∀ n v : ℕ, beNat (beBytes n v) = v % 256 ^ n
  | 0, v => by simp [beBytes, Nat.mod_one]
  | n + 1, v => by
    rw [beBytes, beNat_append, beNat_beBytes n, pow_succ', Nat.mod_mul]
    simp [beNat_cons]
    ring

/-- The bytes of a number that fits give the number back. -/
theorem beNat_beBytes_of_lt {n v : ℕ} (h : v < 256 ^ n) : beNat (beBytes n v) = v := by
  rw [beNat_beBytes, Nat.mod_eq_of_lt h]

theorem beBytes_beNat (bs : Bytes) : beBytes bs.length (beNat bs) = bs :=
  beNat_inj (length_beBytes ..) (beNat_beBytes_of_lt (beNat_lt bs))

/-- The C library's `memcmp`: the order of the first bytes that differ. -/
def memcmp : Bytes → Bytes → Ordering
  | x :: xs, y :: ys => if x < y then .lt else if y < x then .gt else memcmp xs ys
  | _, _ => .eq

theorem memcmp_eq_compare : ∀ {xs ys : Bytes}, xs.length = ys.length →
    memcmp xs ys = compare (beNat xs) (beNat ys)
  | [], [], _ => rfl
  | x :: xs, y :: ys, hl => by
    have hl' : xs.length = ys.length := by simpa using hl
    have hx := beNat_lt xs
    have hy := beNat_lt ys
    have ih := memcmp_eq_compare hl'
    rw [hl'] at hx
    simp only [memcmp, beNat_cons, hl', UInt8.lt_iff_toNat_lt]
    rcases lt_trichotomy x.toNat y.toNat with hlt | heq | hgt
    · rw [if_pos hlt, eq_comm, Nat.compare_eq_lt]
      nlinarith
    · rw [if_neg (by omega), if_neg (by omega), ih, heq]
      rcases lt_trichotomy (beNat xs) (beNat ys) with h | h | h
      · rw [Nat.compare_eq_lt.mpr h, Nat.compare_eq_lt.mpr (by omega)]
      · rw [Nat.compare_eq_eq.mpr h, Nat.compare_eq_eq.mpr (by omega)]
      · rw [Nat.compare_eq_gt.mpr h, Nat.compare_eq_gt.mpr (by omega)]
    · rw [if_neg (by omega), if_pos hgt, eq_comm, Nat.compare_eq_gt]
      nlinarith

/-- The three bytes of a number, the highest first. -/
def l2n3 (n : ℕ) : Bytes :=
  [UInt8.ofNat (n / 65536), UInt8.ofNat (n / 256), UInt8.ofNat n]

/-- The two bytes of a number, the higher first. -/
def s2n (n : ℕ) : Bytes := [UInt8.ofNat (n / 256), UInt8.ofNat n]

end Lib

end VigorTls
