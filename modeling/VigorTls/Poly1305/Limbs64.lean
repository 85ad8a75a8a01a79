import VigorTls.Poly1305.Spec

/-!
# Poly1305 with limbs of 64 bits

The functions of `crypto/poly1305/poly1305.c` for compilers with 128-bit integers. An accumulator
has two words and a few bits in a third. A block is added (`addBlock`), multiplied by `r` with the
part above `2 ^ 130` folded in by limbs (`mulR`), and what is above `2 ^ 130` then is folded in once
more (`fold`). The comment at the last step says that it does not overflow. It does when the first
two words are nearly all ones (`Acc.Overflows`).
-/

namespace VigorTls.Poly1305.Limbs64

open Lib Nat

structure Acc where
  h0 : ℕ
  h1 : ℕ
  h2 : ℕ

structure State where
  h : Acc
  r0 : ℕ
  r1 : ℕ

def init (key : Bytes) : State where
  h := ⟨0, 0, 0⟩
  r0 := u8ToU64 key &&& 0x0ffffffc0fffffff
  r1 := u8ToU64 (key.drop 8) &&& 0x0ffffffc0ffffffc

/-- `h += m[i]`. -/
def Acc.addBlock (h : Acc) (inp : Bytes) (padbit : ℕ) : Acc :=
  let d0 := u128 (h.h0 + u8ToU64 inp)
  let d1 := u128 (h.h1 + d0 >>> 64 + u8ToU64 (inp.drop 8))
  ⟨u64 d0, u64 d1, u64 (h.h2 + u64 (u64 (d1 >>> 64) + padbit))⟩

/-- `h *= r`, up to the step marked a). -/
def Acc.mulR (h : Acc) (r0 r1 : ℕ) : Acc :=
  let s1 := u64 (r1 + r1 >>> 2)
  let d0 := u128 (u128 (h.h0 * r0) + u128 (h.h1 * s1))
  let d1 := u128 (u128 (h.h0 * r1) + u128 (h.h1 * r0) + u64 (h.h2 * s1))
  let d1 := u128 (d1 + d0 >>> 64)
  ⟨u64 d0, u64 d1, u64 (u64 (h.h2 * r0) + u64 (d1 >>> 64))⟩

/-- The step marked b). -/
def Acc.fold (h : Acc) : Acc :=
  let c := u64 (h.h2 >>> 2 + (h.h2 &&& (2 ^ 64 - 4)))
  let h0 := u64 (h.h0 + c)
  ⟨h0, u64 (h.h1 + ctCarry 64 h0 c), h.h2 &&& 3⟩

variable (st : State)

/-- A round of the loop of `poly1305_blocks`. -/
def block (inp : Bytes) (padbit : ℕ) : State :=
  { st with h := ((st.h.addBlock inp padbit).mulR st.r0 st.r1).fold }

/-- The first part of `poly1305_emit`: the accumulator without the modulus, if that is in it. -/
def Acc.reduce (h : Acc) : ℕ × ℕ :=
  let t := u128 (h.h0 + 5)
  let g0 := u64 t
  let t := u128 (h.h1 + t >>> 64)
  let g1 := u64 t
  let g2 := u64 (h.h2 + u64 (t >>> 64))
  -- all ones if there was a carry into the bit 130
  let mask := u64 (2 ^ 64 - g2 >>> 2)
  let g0 := g0 &&& mask
  let g1 := g1 &&& mask
  let mask := mask ^^^ (2 ^ 64 - 1)
  ((h.h0 &&& mask) ||| g0, (h.h1 &&& mask) ||| g1)

def emit (nonce : List ℕ) : Bytes :=
  let h := st.h.reduce
  let t := u128 (h.1 + nonce.getD 0 0 + u64 (nonce.getD 1 0 <<< 32))
  let h0 := u64 t
  let t := u128 (h.2 + nonce.getD 2 0 + u64 (nonce.getD 3 0 <<< 32) + t >>> 64)
  let h1 := u64 t
  u64To8 h0 ++ u64To8 h1

def limbs : Limbs State := ⟨init, block, emit⟩

variable {inp : Bytes}

namespace Acc

def value (h : Acc) : ℕ := h.h0 + 2 ^ 64 * h.h1 + 2 ^ 128 * h.h2

/-- The words of an accumulator, with what the third may be. -/
structure Below (h : Acc) (n : ℕ) : Prop where
  h0_lt : h.h0 < 2 ^ 64
  h1_lt : h.h1 < 2 ^ 64
  h2_lt : h.h2 < n

/-- The carry out of the first two words in the step marked b). -/
def Overflows (h : Acc) : Prop := 2 ^ 128 ≤ h.h0 + 2 ^ 64 * h.h1 + 5 * (h.h2 / 4)

variable {h : Acc}

theorem addBlock_value (hh : h.Below 4) {padbit : ℕ} (hinp : 16 ≤ inp.length) (hpad : padbit ≤ 1) :
    (h.addBlock inp padbit).value = h.value + (leNat (inp.take 16) + 2 ^ 128 * padbit) ∧
      (h.addBlock inp padbit).Below 6 := by
  obtain ⟨h0_lt, h1_lt, h2_lt⟩ := hh
  have hm0 := u8ToU64_lt inp
  have hm1 := u8ToU64_lt (inp.drop 8)
  rw [leNat_take_words64 hinp]
  simp only [addBlock, value, u64, u128]
  refine ⟨by omega, mod_lt _ (by decide), mod_lt _ (by decide), ?_⟩
  dsimp only
  omega

theorem mulR_products (hh : h.Below 6) {r0 k : ℕ} (hr0 : r0 < 2 ^ 60) (hk : k < 2 ^ 58) :
    (h.mulR r0 (4 * k)).value = h.h0 * r0 + h.h1 * (5 * k) +
        2 ^ 64 * (h.h0 * (4 * k) + h.h1 * r0 + h.h2 * (5 * k)) + 2 ^ 128 * (h.h2 * r0) ∧
      (h.mulR r0 (4 * k)).Below (2 ^ 63) := by
  obtain ⟨h0_lt, h1_lt, h2_lt⟩ := hh
  have hs1 : (4 * k + 4 * k / 4) % 2 ^ 64 = 5 * k := by omega
  have h00 : h.h0 * r0 < 2 ^ 64 * 2 ^ 60 := Nat.mul_lt_mul'' h0_lt hr0
  have h01 : h.h0 * (4 * k) < 2 ^ 64 * 2 ^ 60 := Nat.mul_lt_mul'' h0_lt (by omega)
  have h10 : h.h1 * r0 < 2 ^ 64 * 2 ^ 60 := Nat.mul_lt_mul'' h1_lt hr0
  have h1s : h.h1 * (5 * k) < 2 ^ 64 * (5 * 2 ^ 58) := Nat.mul_lt_mul'' h1_lt (by omega)
  have h2s : h.h2 * (5 * k) < 6 * (5 * 2 ^ 58) := Nat.mul_lt_mul'' h2_lt (by omega)
  have h20 : h.h2 * r0 < 6 * 2 ^ 60 := Nat.mul_lt_mul'' h2_lt hr0
  simp only [mulR, value, u64, u128, shiftRight_eq_div_pow, hs1]
  refine ⟨by omega, mod_lt _ (by decide), mod_lt _ (by decide), ?_⟩
  dsimp only
  omega

theorem mulR_value (hh : h.Below 6) {r0 k : ℕ} (hr0 : r0 < 2 ^ 60) (hk : k < 2 ^ 58) :
    (h.mulR r0 (4 * k)).value ≡ h.value * (r0 + 2 ^ 64 * (4 * k)) [MOD modulus] ∧
      (h.mulR r0 (4 * k)).Below (2 ^ 63) := by
  obtain ⟨hvalue, hbelow⟩ := mulR_products hh hr0 hk
  refine ⟨?_, hbelow⟩
  have hfull : h.value * (r0 + 2 ^ 64 * (4 * k)) =
      (h.mulR r0 (4 * k)).value + modulus * (h.h1 * k + 2 ^ 64 * (h.h2 * k)) := by
    rw [hvalue, value]
    ring
  rw [hfull]
  exact (add_mul_mod_self_left ..).symm

theorem fold_value (hh : h.Below (2 ^ 63)) :
    h.fold.value + modulus * (h.h2 / 4) + (if 2 ^ 128 ≤ h.h0 + 2 ^ 64 * h.h1 + 5 * (h.h2 / 4)
      then 2 ^ 128 else 0) = h.value ∧ h.fold.Below 4 := by
  obtain ⟨h0_lt, h1_lt, h2_lt⟩ := hh
  have hmask : h.h2 &&& (2 ^ 64 - 4) = 4 * (h.h2 / 4) :=
    and_high (k := 2) (w := 64) (by decide) (by omega)
  have hlow : h.h2 &&& 3 = h.h2 % 4 := and_two_pow_sub_one_eq_mod h.h2 2
  have hc : (h.h2 / 2 ^ 2 + 4 * (h.h2 / 4)) % 2 ^ 64 = 5 * (h.h2 / 4) := by omega
  simp only [fold, value, u64, shiftRight_eq_div_pow, hmask, hlow]
  rw [ctCarry_add (w := 63) h0_lt (by omega)]
  refine ⟨?_, mod_lt _ (by decide), mod_lt _ (by decide), mod_lt _ (by decide)⟩
  simp only [modulus]
  split <;> omega

theorem reduce_eq (hh : h.Below 4) :
    h.reduce.1 < 2 ^ 64 ∧ h.reduce.2 < 2 ^ 64 ∧
      h.reduce.1 + 2 ^ 64 * h.reduce.2 = h.value % modulus % 2 ^ 128 := by
  obtain ⟨h0_lt, h1_lt, h2_lt⟩ := hh
  simp only [reduce, value, u64, shiftRight_eq_div_pow]
  obtain ⟨g0, hg0⟩ : ∃ g0, g0 = (h.h0 + 5) % 2 ^ 128 % 2 ^ 64 := ⟨_, rfl⟩
  obtain ⟨g1, hg1⟩ : ∃ g1, g1 = (h.h1 + (h.h0 + 5) % 2 ^ 128 / 2 ^ 64) % 2 ^ 128 % 2 ^ 64 :=
    ⟨_, rfl⟩
  obtain ⟨g2, hg2⟩ : ∃ g2, g2 = (h.h2 + (h.h1 + (h.h0 + 5) % 2 ^ 128 / 2 ^ 64) % 2 ^ 128 / 2 ^ 64 %
    2 ^ 64) % 2 ^ 64 := ⟨_, rfl⟩
  rw [← hg0, ← hg1, ← hg2]
  have hg0_lt : g0 < 2 ^ 64 := by omega
  have hg1_lt : g1 < 2 ^ 64 := by omega
  have hvalue := mod_modulus (show h.h0 + 2 ^ 64 * h.h1 + 2 ^ 128 * h.h2 < 2 ^ 130 by omega)
  by_cases hcarry : 2 ^ 130 ≤ h.h0 + 2 ^ 64 * h.h1 + 2 ^ 128 * h.h2 + 5
  · have hone : g2 / 2 ^ 2 = 1 := by omega
    have hmask : (2 ^ 64 - 1) % 2 ^ 64 = 2 ^ 64 - 1 := rfl
    rw [hvalue, if_pos hcarry, hone, hmask, Nat.xor_self, and_zero, and_zero, zero_or,
      zero_or, and_ones hg0_lt, and_ones hg1_lt]
    omega
  · have hzero : g2 / 2 ^ 2 = 0 := by omega
    have hmask : (2 ^ 64 - 0) % 2 ^ 64 = 0 := rfl
    rw [hvalue, if_neg hcarry, hzero, hmask, Nat.zero_xor, and_zero, and_zero, or_zero,
      or_zero, and_ones h0_lt, and_ones h1_lt]
    omega

end Acc

namespace State

def r : ℕ := st.r0 + 2 ^ 64 * st.r1

/-- The words of a state in their ranges. The second word of `r` is a multiple of four. -/
structure Bounded : Prop where
  h : st.h.Below 4
  r0_lt : st.r0 < 2 ^ 60
  r1 : ∃ k < 2 ^ 58, st.r1 = 4 * k

/-- The carry of a block is lost. -/
def Overflows (inp : Bytes) (padbit : ℕ) : Prop :=
  ((st.h.addBlock inp padbit).mulR st.r0 st.r1).Overflows

end State

theorem init_bounded (key : Bytes) : (init key).Bounded where
  h := ⟨Nat.two_pow_pos 64, Nat.two_pow_pos 64, zero_lt_succ 3⟩
  r0_lt := lt_of_le_of_lt and_le_right (by decide)
  r1 := by
    have hle : u8ToU64 (key.drop 8) &&& 0x0ffffffc0ffffffc ≤ 0x0ffffffc0ffffffc := and_le_right
    have hmod : (u8ToU64 (key.drop 8) &&& 0x0ffffffc0ffffffc) % 2 ^ 2 = 0 := by
      rw [and_mod_two_pow]
      exact and_zero _
    refine ⟨(u8ToU64 (key.drop 8) &&& 0x0ffffffc0ffffffc) / 4, by omega, ?_⟩
    change u8ToU64 (key.drop 8) &&& 0x0ffffffc0ffffffc = _
    omega

theorem init_r {key : Bytes} (hkey : 16 ≤ key.length) :
    (init key).r = clamp (leNat (key.take 16)) := by
  rw [leNat_take_words64 hkey]
  exact (and_words (k := 64) (u8ToU64_lt key) (by decide) _ 0x0ffffffc0ffffffc).symm

/-- A block is added and multiplied in modulo the prime, but for the lost carry. -/
theorem block_spec {st : State} (hst : st.Bounded) {padbit : ℕ} (hinp : 16 ≤ inp.length)
    (hpad : padbit ≤ 1) :
    (block st inp padbit).Bounded ∧
      ((block st inp padbit).h.value ≡
        (st.h.value + (leNat (inp.take 16) + 2 ^ 128 * padbit)) * st.r [MOD modulus] ↔
        ¬ st.Overflows inp padbit) := by
  obtain ⟨k, hk, hr1⟩ := hst.r1
  obtain ⟨hadd, hadd_below⟩ := Acc.addBlock_value hst.h hinp hpad
  obtain ⟨hmul, hmul_below⟩ := Acc.mulR_value hadd_below hst.r0_lt hk
  obtain ⟨hfold, hfold_below⟩ := Acc.fold_value hmul_below
  rw [← hr1] at hmul hmul_below hfold hfold_below
  rw [hadd] at hmul
  have hiff := fold_modEq_iff hfold hmul
  exact ⟨⟨hfold_below, hst.r0_lt, hst.r1⟩, hiff⟩

theorem emit_eq {st : State} (hst : st.Bounded) {n0 n1 n2 n3 : ℕ} (h1 : n1 < 2 ^ 32) :
    emit st [n0, n1, n2, n3] = leBytes 16
      (st.h.value % modulus + (n0 + 2 ^ 32 * n1 + 2 ^ 64 * n2 + 2 ^ 96 * n3)) := by
  obtain ⟨hlt1, hlt2, hreduce⟩ := Acc.reduce_eq hst.h
  generalize st.h.value % modulus = v at *
  obtain ⟨N, hN⟩ : ∃ N, N = n0 + 2 ^ 32 * n1 + 2 ^ 64 * n2 + 2 ^ 96 * n3 := ⟨_, rfl⟩
  rw [← hN, ← leBytes_append 8 8, ← leBytes_mod 8 (v + N), ← leBytes_mod 8 ((v + N) / 256 ^ 8)]
  simp only [emit, u64To8_eq, u64, u128, shiftLeft_eq, List.getD_cons_zero, List.getD_cons_succ]
  congr 2
  · omega
  · omega

def contract : limbs.Contract where
  value st := st.h.value
  r := State.r
  Bounded := State.Bounded
  Overflows := State.Overflows
  init_bounded key _ := init_bounded key
  init_value _ := rfl
  init_r _ hkey := init_r hkey
  block_bounded _ _ _ hst hinp hpad := (block_spec hst hinp hpad).1
  block_r _ _ _ := rfl
  block_value _ _ _ hst hinp hpad := (block_spec hst hinp hpad).2
  emit_eq _ _ _ _ _ hst _ h1 _ _ := emit_eq hst h1

end VigorTls.Poly1305.Limbs64
