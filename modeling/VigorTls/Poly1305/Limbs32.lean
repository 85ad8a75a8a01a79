import VigorTls.Poly1305.Spec

/-!
# Poly1305 with limbs of 32 bits

The functions of `crypto/poly1305/poly1305.c` for compilers without 128-bit integers. An accumulator
has four words and a few bits in a fifth; the steps are those for 64 bits, and the last carry of
`fold` is lost in the same way (`Acc.Overflows`).
-/

namespace VigorTls.Poly1305.Limbs32

open Lib Nat

structure Acc where
  h0 : ℕ
  h1 : ℕ
  h2 : ℕ
  h3 : ℕ
  h4 : ℕ

structure Multiplier where
  r0 : ℕ
  r1 : ℕ
  r2 : ℕ
  r3 : ℕ

structure State where
  h : Acc
  r : Multiplier

def init (key : Bytes) : State where
  h := ⟨0, 0, 0, 0, 0⟩
  r :=
    { r0 := u8ToU32 key &&& 0x0fffffff
      r1 := u8ToU32 (key.drop 4) &&& 0x0ffffffc
      r2 := u8ToU32 (key.drop 8) &&& 0x0ffffffc
      r3 := u8ToU32 (key.drop 12) &&& 0x0ffffffc }

/-- `h += m[i]`. -/
def Acc.addBlock (h : Acc) (inp : Bytes) (padbit : ℕ) : Acc :=
  let d0 := u64 (h.h0 + u8ToU32 inp)
  let d1 := u64 (h.h1 + d0 >>> 32 + u8ToU32 (inp.drop 4))
  let d2 := u64 (h.h2 + d1 >>> 32 + u8ToU32 (inp.drop 8))
  let d3 := u64 (h.h3 + d2 >>> 32 + u8ToU32 (inp.drop 12))
  ⟨u32 d0, u32 d1, u32 d2, u32 d3, u32 (h.h4 + u32 (u32 (d3 >>> 32) + padbit))⟩

/-- `h *= r`, up to the step marked a). -/
def Acc.mulR (h : Acc) (r : Multiplier) : Acc :=
  let s1 := u32 (r.r1 + r.r1 >>> 2)
  let s2 := u32 (r.r2 + r.r2 >>> 2)
  let s3 := u32 (r.r3 + r.r3 >>> 2)
  let d0 := u64 (u64 (h.h0 * r.r0) + u64 (h.h1 * s3) + u64 (h.h2 * s2) + u64 (h.h3 * s1))
  let d1 := u64 (u64 (h.h0 * r.r1) + u64 (h.h1 * r.r0) + u64 (h.h2 * s3) + u64 (h.h3 * s2) +
    u32 (h.h4 * s1))
  let d2 := u64 (u64 (h.h0 * r.r2) + u64 (h.h1 * r.r1) + u64 (h.h2 * r.r0) + u64 (h.h3 * s3) +
    u32 (h.h4 * s2))
  let d3 := u64 (u64 (h.h0 * r.r3) + u64 (h.h1 * r.r2) + u64 (h.h2 * r.r1) + u64 (h.h3 * r.r0) +
    u32 (h.h4 * s3))
  let d1 := u64 (d1 + d0 >>> 32)
  let d2 := u64 (d2 + d1 >>> 32)
  let d3 := u64 (d3 + d2 >>> 32)
  ⟨u32 d0, u32 d1, u32 d2, u32 d3, u32 (u32 (h.h4 * r.r0) + u32 (d3 >>> 32))⟩

/-- The step marked b). -/
def Acc.fold (h : Acc) : Acc :=
  let c := u32 (h.h4 >>> 2 + (h.h4 &&& (2 ^ 32 - 4)))
  let h0 := u32 (h.h0 + c)
  let c := ctCarry 32 h0 c
  let h1 := u32 (h.h1 + c)
  let c := ctCarry 32 h1 c
  let h2 := u32 (h.h2 + c)
  let c := ctCarry 32 h2 c
  ⟨h0, h1, h2, u32 (h.h3 + c), h.h4 &&& 3⟩

/-- A round of the loop of `poly1305_blocks`. -/
def block (st : State) (inp : Bytes) (padbit : ℕ) : State :=
  { st with h := ((st.h.addBlock inp padbit).mulR st.r).fold }

/-- The first part of `poly1305_emit`: the accumulator without the modulus, if that is in it. -/
def Acc.reduce (h : Acc) : Acc :=
  let t := u64 (h.h0 + 5)
  let g0 := u32 t
  let t := u64 (h.h1 + t >>> 32)
  let g1 := u32 t
  let t := u64 (h.h2 + t >>> 32)
  let g2 := u32 t
  let t := u64 (h.h3 + t >>> 32)
  let g3 := u32 t
  let g4 := u32 (h.h4 + u32 (t >>> 32))
  -- all ones if there was a carry into the bit 130
  let mask := u32 (2 ^ 32 - g4 >>> 2)
  let g0 := g0 &&& mask
  let g1 := g1 &&& mask
  let g2 := g2 &&& mask
  let g3 := g3 &&& mask
  let mask := mask ^^^ (2 ^ 32 - 1)
  { h with
    h0 := (h.h0 &&& mask) ||| g0
    h1 := (h.h1 &&& mask) ||| g1
    h2 := (h.h2 &&& mask) ||| g2
    h3 := (h.h3 &&& mask) ||| g3 }

def emit (st : State) (nonce : List ℕ) : Bytes :=
  let h := st.h.reduce
  let t := u64 (h.h0 + nonce.getD 0 0)
  let h0 := u32 t
  let t := u64 (h.h1 + t >>> 32 + nonce.getD 1 0)
  let h1 := u32 t
  let t := u64 (h.h2 + t >>> 32 + nonce.getD 2 0)
  let h2 := u32 t
  let t := u64 (h.h3 + t >>> 32 + nonce.getD 3 0)
  let h3 := u32 t
  u32To8 h0 ++ u32To8 h1 ++ u32To8 h2 ++ u32To8 h3

def limbs : Limbs State := ⟨init, block, emit⟩

/-! ## Accumulators -/

variable {inp : Bytes}

namespace Acc

def value (h : Acc) : ℕ :=
  h.h0 + 2 ^ 32 * h.h1 + 2 ^ 64 * h.h2 + 2 ^ 96 * h.h3 + 2 ^ 128 * h.h4

/-- The words of an accumulator, with what the fifth may be. -/
structure Below (h : Acc) (n : ℕ) : Prop where
  h0_lt : h.h0 < 2 ^ 32
  h1_lt : h.h1 < 2 ^ 32
  h2_lt : h.h2 < 2 ^ 32
  h3_lt : h.h3 < 2 ^ 32
  h4_lt : h.h4 < n

/-- The carry out of the first four words in the step marked b). -/
def Overflows (h : Acc) : Prop :=
  2 ^ 128 ≤ h.h0 + 2 ^ 32 * h.h1 + 2 ^ 64 * h.h2 + 2 ^ 96 * h.h3 + 5 * (h.h4 / 4)

variable {h : Acc}

theorem addBlock_value (hh : h.Below 4) {padbit : ℕ} (hinp : 16 ≤ inp.length) (hpad : padbit ≤ 1) :
    (h.addBlock inp padbit).value = h.value + (leNat (inp.take 16) + 2 ^ 128 * padbit) ∧
      (h.addBlock inp padbit).Below 6 := by
  obtain ⟨h0_lt, h1_lt, h2_lt, h3_lt, h4_lt⟩ := hh
  have hm0 := u8ToU32_lt inp
  have hm1 := u8ToU32_lt (inp.drop 4)
  have hm2 := u8ToU32_lt (inp.drop 8)
  have hm3 := u8ToU32_lt (inp.drop 12)
  rw [leNat_take_words32 hinp]
  simp only [addBlock, value, u32, u64]
  refine ⟨by omega, mod_lt _ (by decide), mod_lt _ (by decide), mod_lt _ (by decide),
    mod_lt _ (by decide), ?_⟩
  dsimp only
  omega

theorem product_mod {a b : ℕ} (ha : a < 2 ^ 32) (hb : b < 2 ^ 29) : a * b % 2 ^ 64 = a * b :=
  mod_eq_of_lt ((Nat.mul_lt_mul'' ha hb).trans (by decide))

theorem product_mod_top {a b : ℕ} (ha : a < 6) (hb : b < 2 ^ 29) : a * b % 2 ^ 32 = a * b :=
  mod_eq_of_lt ((Nat.mul_lt_mul'' ha hb).trans (by decide))

theorem chain {d0 d1 d2 d3 e1 e2 e3 : ℕ} (h1 : e1 = d1 + d0 / 2 ^ 32) (h2 : e2 = d2 + e1 / 2 ^ 32)
    (h3 : e3 = d3 + e2 / 2 ^ 32) :
    d0 % 2 ^ 32 + 2 ^ 32 * (e1 % 2 ^ 32) + 2 ^ 64 * (e2 % 2 ^ 32) + 2 ^ 96 * (e3 % 2 ^ 32) +
        2 ^ 128 * (e3 / 2 ^ 32) = d0 + 2 ^ 32 * d1 + 2 ^ 64 * d2 + 2 ^ 96 * d3 := by
  omega

theorem Below.products_lt {top : ℕ} (hh : h.Below top) {a b c d n : ℕ} (ha : a < n) (hb : b < n)
    (hc : c < n) (hd : d < n) : h.h0 * a + h.h1 * b + h.h2 * c + h.h3 * d < 4 * (2 ^ 32 * n) := by
  have p0 := Nat.mul_lt_mul'' hh.h0_lt ha
  have p1 := Nat.mul_lt_mul'' hh.h1_lt hb
  have p2 := Nat.mul_lt_mul'' hh.h2_lt hc
  have p3 := Nat.mul_lt_mul'' hh.h3_lt hd
  omega

theorem carried {d0 d1 d2 d3 d4 : ℕ} (h0 : d0 < 2 ^ 63) (h1 : d1 < 2 ^ 63 + 2 ^ 32)
    (h2 : d2 < 2 ^ 63 + 2 ^ 32) (h3 : d3 < 2 ^ 62 + 2 ^ 32) (h4 : d4 < 6 * 2 ^ 28) :
    let e1 := (d1 % 2 ^ 64 + d0 % 2 ^ 64 / 2 ^ 32) % 2 ^ 64
    let e2 := (d2 % 2 ^ 64 + e1 / 2 ^ 32) % 2 ^ 64
    let e3 := (d3 % 2 ^ 64 + e2 / 2 ^ 32) % 2 ^ 64
    let h : Acc := ⟨d0 % 2 ^ 64 % 2 ^ 32, e1 % 2 ^ 32, e2 % 2 ^ 32, e3 % 2 ^ 32,
      (d4 + e3 / 2 ^ 32 % 2 ^ 32) % 2 ^ 32⟩
    h.value = d0 + 2 ^ 32 * d1 + 2 ^ 64 * d2 + 2 ^ 96 * d3 + 2 ^ 128 * d4 ∧
      h.Below (3 * 2 ^ 30) := by
  intro e1 e2 e3 h
  have he1 : e1 = d1 + d0 / 2 ^ 32 := by omega
  have he2 : e2 = d2 + e1 / 2 ^ 32 := by omega
  have he3 : e3 = d3 + e2 / 2 ^ 32 := by omega
  have hd4 : (d4 + e3 / 2 ^ 32 % 2 ^ 32) % 2 ^ 32 = d4 + e3 / 2 ^ 32 := by omega
  refine ⟨?_, mod_lt _ (by decide), mod_lt _ (by decide), mod_lt _ (by decide),
    mod_lt _ (by decide), ?_⟩
  · have hchain := chain he1 he2 he3
    simp only [value, h]
    omega
  · exact hd4.trans_lt (by omega)

theorem mulR_products (hh : h.Below 6) {r0 k1 k2 k3 : ℕ} (hr0 : r0 < 2 ^ 28) (hk1 : k1 < 2 ^ 26)
    (hk2 : k2 < 2 ^ 26) (hk3 : k3 < 2 ^ 26) :
    (h.mulR ⟨r0, 4 * k1, 4 * k2, 4 * k3⟩).value =
        (h.h0 * r0 + h.h1 * (5 * k3) + h.h2 * (5 * k2) + h.h3 * (5 * k1)) +
        2 ^ 32 * (h.h0 * (4 * k1) + h.h1 * r0 + h.h2 * (5 * k3) + h.h3 * (5 * k2) +
          h.h4 * (5 * k1)) +
        2 ^ 64 * (h.h0 * (4 * k2) + h.h1 * (4 * k1) + h.h2 * r0 + h.h3 * (5 * k3) +
          h.h4 * (5 * k2)) +
        2 ^ 96 * (h.h0 * (4 * k3) + h.h1 * (4 * k2) + h.h2 * (4 * k1) + h.h3 * r0 +
          h.h4 * (5 * k3)) +
        2 ^ 128 * (h.h4 * r0) ∧
      (h.mulR ⟨r0, 4 * k1, 4 * k2, 4 * k3⟩).Below (3 * 2 ^ 30) := by
  obtain ⟨h0_lt, h1_lt, h2_lt, h3_lt, h4_lt⟩ := id hh
  have hs1 : (4 * k1 + 4 * k1 / 2 ^ 2) % 2 ^ 32 = 5 * k1 := by omega
  have hs2 : (4 * k2 + 4 * k2 / 2 ^ 2) % 2 ^ 32 = 5 * k2 := by omega
  have hs3 : (4 * k3 + 4 * k3 / 2 ^ 2) % 2 ^ 32 = 5 * k3 := by omega
  have hr0' : r0 < 2 ^ 29 := by omega
  have hr1 : 4 * k1 < 2 ^ 29 := by omega
  have hr2 : 4 * k2 < 2 ^ 29 := by omega
  have hr3 : 4 * k3 < 2 ^ 29 := by omega
  have ht1 : 5 * k1 < 2 ^ 29 := by omega
  have ht2 : 5 * k2 < 2 ^ 29 := by omega
  have ht3 : 5 * k3 < 2 ^ 29 := by omega
  simp only [mulR, shiftRight_eq_div_pow, hs1, hs2, hs3]
  simp (disch := assumption) only [product_mod, product_mod_top]
  have htop {k : ℕ} (hk : 5 * k < 2 ^ 29) : h.h4 * (5 * k) < 2 ^ 32 :=
    (Nat.mul_lt_mul'' h4_lt hk).trans (by decide)
  -- The last sum has no product with a limb of `r` that was multiplied by five fourths, but one.
  refine carried (hh.products_lt hr0' ht3 ht2 ht1)
    (Nat.add_lt_add (hh.products_lt hr1 hr0' ht3 ht2) (htop ht1))
    (Nat.add_lt_add (hh.products_lt hr2 hr1 hr0' ht3) (htop ht2))
    (Nat.add_lt_add (hh.products_lt (n := 2 ^ 28) ?_ ?_ ?_ hr0) (htop ht3))
    (Nat.mul_lt_mul'' h4_lt hr0)
  all_goals omega

theorem mulR_value (hh : h.Below 6) {r0 k1 k2 k3 : ℕ} (hr0 : r0 < 2 ^ 28) (hk1 : k1 < 2 ^ 26)
    (hk2 : k2 < 2 ^ 26) (hk3 : k3 < 2 ^ 26) :
    (h.mulR ⟨r0, 4 * k1, 4 * k2, 4 * k3⟩).value ≡
        h.value * (r0 + 2 ^ 32 * (4 * k1) + 2 ^ 64 * (4 * k2) + 2 ^ 96 * (4 * k3)) [MOD modulus] ∧
      (h.mulR ⟨r0, 4 * k1, 4 * k2, 4 * k3⟩).Below (3 * 2 ^ 30) := by
  obtain ⟨hvalue, hbelow⟩ := mulR_products hh hr0 hk1 hk2 hk3
  refine ⟨?_, hbelow⟩
  have hfull : h.value * (r0 + 2 ^ 32 * (4 * k1) + 2 ^ 64 * (4 * k2) + 2 ^ 96 * (4 * k3)) =
      (h.mulR ⟨r0, 4 * k1, 4 * k2, 4 * k3⟩).value + modulus *
        ((h.h1 * k3 + h.h2 * k2 + h.h3 * k1) + 2 ^ 32 * (h.h2 * k3 + h.h3 * k2 + h.h4 * k1) +
          2 ^ 64 * (h.h3 * k3 + h.h4 * k2) + 2 ^ 96 * (h.h4 * k3)) := by
    rw [hvalue, value]
    ring
  rw [hfull]
  exact (add_mul_mod_self_left ..).symm

theorem fold_value (hh : h.Below (3 * 2 ^ 30)) :
    h.fold.value + modulus * (h.h4 / 4) + (if 2 ^ 128 ≤ h.h0 + 2 ^ 32 * h.h1 + 2 ^ 64 * h.h2 +
      2 ^ 96 * h.h3 + 5 * (h.h4 / 4) then 2 ^ 128 else 0) = h.value ∧ h.fold.Below 4 := by
  obtain ⟨h0_lt, h1_lt, h2_lt, h3_lt, h4_lt⟩ := hh
  have hmask : h.h4 &&& (2 ^ 32 - 4) = 4 * (h.h4 / 4) :=
    and_high (k := 2) (w := 32) (by decide) (by omega)
  have hlow : h.h4 &&& 3 = h.h4 % 4 := and_two_pow_sub_one_eq_mod h.h4 2
  have hc : (h.h4 / 2 ^ 2 + 4 * (h.h4 / 4)) % 2 ^ 32 = 5 * (h.h4 / 4) := by omega
  have hc1 := ctCarry_add (w := 31) h0_lt (show 5 * (h.h4 / 4) < 2 ^ 32 by omega)
  obtain ⟨c1, hc1'⟩ : ∃ c1, c1 = (h.h0 + 5 * (h.h4 / 4)) / 2 ^ 32 := ⟨_, rfl⟩
  have hc2 := ctCarry_add (w := 31) h1_lt (show c1 < 2 ^ 32 by omega)
  obtain ⟨c2, hc2'⟩ : ∃ c2, c2 = (h.h1 + c1) / 2 ^ 32 := ⟨_, rfl⟩
  have hc3 := ctCarry_add (w := 31) h2_lt (show c2 < 2 ^ 32 by omega)
  rw [← hc1'] at hc1
  rw [← hc2'] at hc2
  simp only [fold, value, u32, shiftRight_eq_div_pow, hmask, hlow, hc, hc1, hc2, hc3]
  refine ⟨?_, mod_lt _ (by decide), mod_lt _ (by decide), mod_lt _ (by decide),
    mod_lt _ (by decide), mod_lt _ (by decide)⟩
  simp only [modulus]
  split <;> omega

theorem reduce_eq (hh : h.Below 4) :
    h.reduce.h0 + 2 ^ 32 * h.reduce.h1 + 2 ^ 64 * h.reduce.h2 + 2 ^ 96 * h.reduce.h3 =
        h.value % modulus % 2 ^ 128 ∧
      h.reduce.Below 4 := by
  obtain ⟨h0_lt, h1_lt, h2_lt, h3_lt, h4_lt⟩ := hh
  simp only [reduce, value, u32, u64, shiftRight_eq_div_pow]
  obtain ⟨t1, ht1⟩ : ∃ t1, t1 = (h.h1 + (h.h0 + 5) % 2 ^ 64 / 2 ^ 32) % 2 ^ 64 := ⟨_, rfl⟩
  obtain ⟨t2, ht2⟩ : ∃ t2, t2 = (h.h2 + t1 / 2 ^ 32) % 2 ^ 64 := ⟨_, rfl⟩
  obtain ⟨t3, ht3⟩ : ∃ t3, t3 = (h.h3 + t2 / 2 ^ 32) % 2 ^ 64 := ⟨_, rfl⟩
  obtain ⟨g4, hg4⟩ : ∃ g4, g4 = (h.h4 + t3 / 2 ^ 32 % 2 ^ 32) % 2 ^ 32 := ⟨_, rfl⟩
  rw [← ht1, ← ht2, ← ht3, ← hg4]
  have hsum : (h.h0 + 5) % 2 ^ 64 % 2 ^ 32 + 2 ^ 32 * (t1 % 2 ^ 32) + 2 ^ 64 * (t2 % 2 ^ 32) +
      2 ^ 96 * (t3 % 2 ^ 32) + 2 ^ 128 * g4 =
      h.h0 + 2 ^ 32 * h.h1 + 2 ^ 64 * h.h2 + 2 ^ 96 * h.h3 + 2 ^ 128 * h.h4 + 5 := by
    omega
  have hg0_lt : (h.h0 + 5) % 2 ^ 64 % 2 ^ 32 < 2 ^ 32 := mod_lt _ (by decide)
  have hg1_lt : t1 % 2 ^ 32 < 2 ^ 32 := mod_lt _ (by decide)
  have hg2_lt : t2 % 2 ^ 32 < 2 ^ 32 := mod_lt _ (by decide)
  have hg3_lt : t3 % 2 ^ 32 < 2 ^ 32 := mod_lt _ (by decide)
  clear ht1 ht2 ht3 hg4
  rw [mod_modulus (by omega)]
  by_cases hcarry : 2 ^ 130 ≤ h.h0 + 2 ^ 32 * h.h1 + 2 ^ 64 * h.h2 + 2 ^ 96 * h.h3 +
    2 ^ 128 * h.h4 + 5
  · have hone : g4 / 2 ^ 2 = 1 := by omega
    have hmask : (2 ^ 32 - 1) % 2 ^ 32 = 2 ^ 32 - 1 := rfl
    rw [if_pos hcarry, hone, hmask, Nat.xor_self]
    simp only [and_zero, zero_or, and_ones hg0_lt, and_ones hg1_lt, and_ones hg2_lt,
      and_ones hg3_lt]
    exact ⟨by omega, hg0_lt, hg1_lt, hg2_lt, hg3_lt, h4_lt⟩
  · have hzero : g4 / 2 ^ 2 = 0 := by omega
    have hmask : (2 ^ 32 - 0) % 2 ^ 32 = 0 := rfl
    rw [if_neg hcarry, hzero, hmask, Nat.zero_xor]
    simp only [and_zero, or_zero, and_ones h0_lt, and_ones h1_lt, and_ones h2_lt, and_ones h3_lt]
    exact ⟨by omega, h0_lt, h1_lt, h2_lt, h3_lt, h4_lt⟩

end Acc

def Multiplier.value (r : Multiplier) : ℕ :=
  r.r0 + 2 ^ 32 * r.r1 + 2 ^ 64 * r.r2 + 2 ^ 96 * r.r3

namespace State

/-- The words of a state in their ranges. The words of `r` but the first are multiples of four. -/
structure Bounded (st : State) : Prop where
  h : st.h.Below 4
  r0_lt : st.r.r0 < 2 ^ 28
  r1 : ∃ k < 2 ^ 26, st.r.r1 = 4 * k
  r2 : ∃ k < 2 ^ 26, st.r.r2 = 4 * k
  r3 : ∃ k < 2 ^ 26, st.r.r3 = 4 * k

/-- The carry of a block is lost. -/
def Overflows (st : State) (inp : Bytes) (padbit : ℕ) : Prop :=
  ((st.h.addBlock inp padbit).mulR st.r).Overflows

end State

theorem masked (x : ℕ) : ∃ k < 2 ^ 26, x &&& 0x0ffffffc = 4 * k := by
  have hle : x &&& 0x0ffffffc ≤ 0x0ffffffc := and_le_right
  have hmod : (x &&& 0x0ffffffc) % 2 ^ 2 = 0 := by
    rw [and_mod_two_pow]
    exact and_zero _
  exact ⟨(x &&& 0x0ffffffc) / 4, by omega, by omega⟩

theorem init_bounded (key : Bytes) : (init key).Bounded where
  h := ⟨Nat.two_pow_pos 32, Nat.two_pow_pos 32, Nat.two_pow_pos 32, Nat.two_pow_pos 32,
    zero_lt_succ 3⟩
  r0_lt := lt_of_le_of_lt and_le_right (by decide)
  r1 := masked _
  r2 := masked _
  r3 := masked _

theorem init_r {key : Bytes} (hkey : 16 ≤ key.length) :
    (init key).r.value = clamp (leNat (key.take 16)) := by
  have h0 := u8ToU32_lt key
  have h1 := u8ToU32_lt (key.drop 4)
  have h2 := u8ToU32_lt (key.drop 8)
  rw [clamp, leNat_take_words32 hkey, show 0x0ffffffc0ffffffc0ffffffc0fffffff =
    0x0ffffffc0ffffffc0fffffff + 2 ^ 96 * 0x0ffffffc from rfl,
    and_words (by omega) (by decide), show 0x0ffffffc0ffffffc0fffffff =
    0x0ffffffc0fffffff + 2 ^ 64 * 0x0ffffffc from rfl,
    and_words (by omega) (by decide), show 0x0ffffffc0fffffff =
    0x0fffffff + 2 ^ 32 * 0x0ffffffc from rfl, and_words h0 (by decide)]
  rfl

/-- A block is added and multiplied in modulo the prime, but for the lost carry. -/
theorem block_spec {st : State} (hst : st.Bounded) {padbit : ℕ} (hinp : 16 ≤ inp.length)
    (hpad : padbit ≤ 1) :
    (block st inp padbit).Bounded ∧
      ((block st inp padbit).h.value ≡
        (st.h.value + (leNat (inp.take 16) + 2 ^ 128 * padbit)) * st.r.value [MOD modulus] ↔
        ¬ st.Overflows inp padbit) := by
  obtain ⟨k1, hk1, hr1⟩ := hst.r1
  obtain ⟨k2, hk2, hr2⟩ := hst.r2
  obtain ⟨k3, hk3, hr3⟩ := hst.r3
  obtain ⟨hadd, hadd_below⟩ := Acc.addBlock_value hst.h hinp hpad
  obtain ⟨hmul, hmul_below⟩ := Acc.mulR_value hadd_below hst.r0_lt hk1 hk2 hk3
  obtain ⟨hfold, hfold_below⟩ := Acc.fold_value hmul_below
  rw [← hr1, ← hr2, ← hr3] at hmul hmul_below hfold hfold_below
  rw [hadd] at hmul
  have hiff := fold_modEq_iff hfold hmul
  exact ⟨⟨hfold_below, hst.r0_lt, hst.r1, hst.r2, hst.r3⟩, hiff⟩

theorem emit_eq {st : State} (hst : st.Bounded) {n0 n1 n2 n3 : ℕ} (h0 : n0 < 2 ^ 32)
    (h1 : n1 < 2 ^ 32) (h2 : n2 < 2 ^ 32) (h3 : n3 < 2 ^ 32) :
    emit st [n0, n1, n2, n3] = leBytes 16
      (st.h.value % modulus + (n0 + 2 ^ 32 * n1 + 2 ^ 64 * n2 + 2 ^ 96 * n3)) := by
  obtain ⟨hreduce, hlt0, hlt1, hlt2, hlt3, -⟩ := Acc.reduce_eq hst.h
  generalize st.h.value % modulus = v at *
  obtain ⟨t, ht⟩ : ∃ t, t = v + (n0 + 2 ^ 32 * n1 + 2 ^ 64 * n2 + 2 ^ 96 * n3) := ⟨_, rfl⟩
  rw [← ht, ← leBytes_append 12 4 t, ← leBytes_append 8 4 t, ← leBytes_append 4 4 t, ← leBytes_mod 4
    t, ← leBytes_mod 4 (t / 256 ^ 4), ← leBytes_mod 4 (t / 256 ^ 8), ← leBytes_mod 4 (t / 256 ^ 12),
    show 256 ^ 12 = 2 ^ 96 from rfl, show 256 ^ 8 = 2 ^ 64 from rfl, show 256 ^ 4 = 2 ^ 32 from rfl]
  simp only [emit, u32To8_eq, u64, shiftRight_eq_div_pow, List.getD_cons_zero, List.getD_cons_succ]
  generalize st.h.reduce = g at *
  obtain ⟨e1, he1⟩ : ∃ e1, e1 = g.h1 + n1 + (g.h0 + n0) / 2 ^ 32 := ⟨_, rfl⟩
  obtain ⟨e2, he2⟩ : ∃ e2, e2 = g.h2 + n2 + e1 / 2 ^ 32 := ⟨_, rfl⟩
  obtain ⟨e3, he3⟩ : ∃ e3, e3 = g.h3 + n3 + e2 / 2 ^ 32 := ⟨_, rfl⟩
  have hmod0 : (g.h0 + n0) % 2 ^ 64 = g.h0 + n0 := mod_eq_of_lt (by omega)
  have hmod1 : (g.h1 + (g.h0 + n0) / 2 ^ 32 + n1) % 2 ^ 64 = e1 := by omega
  have hmod2 : (g.h2 + e1 / 2 ^ 32 + n2) % 2 ^ 64 = e2 := by omega
  have hmod3 : (g.h3 + e2 / 2 ^ 32 + n3) % 2 ^ 64 = e3 := by omega
  rw [hmod0, hmod1, hmod2, hmod3]
  -- The words that are written, and what is above them.
  have hchain := Acc.chain he1 he2 he3
  have hwords : t = (g.h0 + n0) % 2 ^ 32 + 2 ^ 32 * (e1 % 2 ^ 32) + 2 ^ 64 * (e2 % 2 ^ 32) +
      2 ^ 96 * (e3 % 2 ^ 32) + 2 ^ 128 * (e3 / 2 ^ 32 + v / 2 ^ 128) := by
    omega
  have hw0 : t % 2 ^ 32 = (g.h0 + n0) % 2 ^ 32 := by omega
  have hw1 : t / 2 ^ 32 % 2 ^ 32 = e1 % 2 ^ 32 := by omega
  have hw2 : t / 2 ^ 64 % 2 ^ 32 = e2 % 2 ^ 32 := by omega
  have hw3 : t / 2 ^ 96 % 2 ^ 32 = e3 % 2 ^ 32 := by omega
  rw [hw0, hw1, hw2, hw3]

def contract : limbs.Contract where
  value st := st.h.value
  r st := st.r.value
  Bounded := State.Bounded
  Overflows := State.Overflows
  init_bounded key _ := init_bounded key
  init_value _ := rfl
  init_r _ hkey := init_r hkey
  block_bounded _ _ _ hst hinp hpad := (block_spec hst hinp hpad).1
  block_r _ _ _ := rfl
  block_value _ _ _ hst hinp hpad := (block_spec hst hinp hpad).2
  emit_eq _ _ _ _ _ hst h0 h1 h2 h3 := emit_eq hst h0 h1 h2 h3

end VigorTls.Poly1305.Limbs32
