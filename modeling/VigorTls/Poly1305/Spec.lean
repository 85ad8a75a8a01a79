import VigorTls.Lib.Words
import Mathlib.Data.Nat.ModEq

/-!
# Poly1305

A polynomial in the clamped first half `r` of the key, whose coefficients are the blocks of the
message, modulo `2 ^ 130 - 5`, and then the second half added modulo `2 ^ 128`.

`Limbs` is what the rest of `crypto/poly1305/poly1305.c` takes of an implementation with limbs of a
certain size, and `Limbs.Contract` what it has to do: keep an accumulator that is only partially
reduced (`value`), but for a block that `Overflows`.
-/

namespace VigorTls.Poly1305

open Lib List Nat UInt8

abbrev modulus : ℕ := 2 ^ 130 - 5

/-- `r` from the first half of the key. -/
def clamp (x : ℕ) : ℕ := x &&& 0x0ffffffc0ffffffc0ffffffc0fffffff

/-- A block of the message with a bit put past its last byte. -/
def blockValue (b : Bytes) : ℕ := leNat (b ++ [1])

/-- The first `n` blocks of a message. -/
def cut : ℕ → Bytes → List Bytes
  | 0, _ => []
  | n + 1, msg => msg.take 16 :: cut n (msg.drop 16)

variable (msg : Bytes)

def fullBlocks : List Bytes := cut (msg.length / 16) msg

def remainder : Bytes := msg.drop (16 * (msg.length / 16))

/-- All blocks of a message, the last of which may be shorter. -/
def blocks : List Bytes :=
  fullBlocks msg ++ if remainder msg = [] then [] else [remainder msg]

/-- `c₁ * r ^ q + … + c_q * r`. -/
def polynomial (r : ℕ) : List ℕ → ℕ
  | [] => 0
  | c :: cs => c * r ^ (cs.length + 1) + polynomial r cs

/-- The number that is authenticated with. -/
def tag (key msg : Bytes) : ℕ :=
  (polynomial (clamp (leNat (key.take 16))) ((blocks msg).map blockValue) % modulus +
    leNat ((key.drop 16).take 16)) % 2 ^ 128

theorem polynomial_append (r c : ℕ) (cs : List ℕ) :
    polynomial r (cs ++ [c]) = (polynomial r cs + c) * r := by
  induction cs with
  | nil => simp [polynomial]
  | cons x cs ih =>
    rw [cons_append, polynomial, ih, polynomial, length_append, length_singleton]
    ring

/-- The last reduction: 5 is added to see whether `2 ^ 130` is reached. -/
theorem mod_modulus {v : ℕ} (hv : v < 2 ^ 130) :
    v % modulus = if 2 ^ 130 ≤ v + 5 then v + 5 - 2 ^ 130 else v := by
  simp only [modulus]
  split
  · rw [mod_eq_sub_mod (by omega)]
    omega
  · exact mod_eq_of_lt (by omega)

theorem fold_modEq_iff {folded h target q : ℕ} {P : Prop} [Decidable P]
    (hfold : folded + modulus * q + (if P then 2 ^ 128 else 0) = h)
    (h_eq : h ≡ target [MOD modulus]) : folded ≡ target [MOD modulus] ↔ ¬ P := by
  subst hfold
  split at h_eq
  · next hlost =>
    refine ⟨fun heq => ?_, fun hnot => absurd hlost hnot⟩
    -- otherwise `2 ^ 128` would be a multiple of the modulus
    have hmul : folded + modulus * q + 2 ^ 128 ≡ folded + 0 [MOD modulus] := h_eq.trans heq.symm
    rw [Nat.add_assoc] at hmul
    have hzero : modulus * q + 2 ^ 128 ≡ 0 [MOD modulus] := ModEq.add_left_cancel' folded hmul
    rw [ModEq, mul_add_mod] at hzero
    exact absurd hzero (by decide)
  · next hnot =>
    exact ⟨fun _ => hnot, fun _ => (add_mul_mod_self_left ..).symm.trans h_eq⟩

/-- The functions of an implementation. A block comes with its `padbit`. -/
structure Limbs (S : Type) where
  init : Bytes → S
  block : S → Bytes → ℕ → S
  emit : S → List ℕ → Bytes

structure Limbs.Contract {S : Type} (L : Limbs S) where
  value : S → ℕ
  r : S → ℕ
  Bounded : S → Prop
  /-- The last carry of a block is lost. -/
  Overflows : S → Bytes → ℕ → Prop
  init_bounded : ∀ key, 16 ≤ key.length → Bounded (L.init key)
  init_value : ∀ key, value (L.init key) = 0
  init_r : ∀ key, 16 ≤ key.length → r (L.init key) = clamp (leNat (key.take 16))
  block_bounded : ∀ st inp padbit, Bounded st → 16 ≤ inp.length → padbit ≤ 1 →
    Bounded (L.block st inp padbit)
  block_r : ∀ st inp padbit, r (L.block st inp padbit) = r st
  block_value : ∀ st inp padbit, Bounded st → 16 ≤ inp.length → padbit ≤ 1 →
    (value (L.block st inp padbit) ≡ (value st + (leNat (inp.take 16) + 2 ^ 128 * padbit)) * r st
      [MOD modulus] ↔ ¬ Overflows st inp padbit)
  emit_eq : ∀ st n0 n1 n2 n3, Bounded st → n0 < 2 ^ 32 → n1 < 2 ^ 32 → n2 < 2 ^ 32 →
    n3 < 2 ^ 32 → L.emit st [n0, n1, n2, n3] = leBytes 16
      (value st % modulus + (n0 + 2 ^ 32 * n1 + 2 ^ 64 * n2 + 2 ^ 96 * n3))

/-! ## Words -/

/-- A value as an unsigned number of 32, 64 or 128 bits. -/
abbrev u32 (x : ℕ) : ℕ := x % 2 ^ 32

@[inherit_doc u32] abbrev u64 (x : ℕ) : ℕ := x % 2 ^ 64

@[inherit_doc u32] abbrev u128 (x : ℕ) : ℕ := x % 2 ^ 128

def byteAt (p : Bytes) (i : ℕ) : ℕ := (p.getD i 0).toNat

def u8ToU32 (p : Bytes) : ℕ :=
  (byteAt p 0 &&& 0xff) ||| (byteAt p 1 &&& 0xff) <<< 8 ||| (byteAt p 2 &&& 0xff) <<< 16 |||
    (byteAt p 3 &&& 0xff) <<< 24

def u8ToU64 (p : Bytes) : ℕ :=
  (byteAt p 0 &&& 0xff) ||| (byteAt p 1 &&& 0xff) <<< 8 ||| (byteAt p 2 &&& 0xff) <<< 16 |||
    (byteAt p 3 &&& 0xff) <<< 24 ||| (byteAt p 4 &&& 0xff) <<< 32 |||
    (byteAt p 5 &&& 0xff) <<< 40 ||| (byteAt p 6 &&& 0xff) <<< 48 ||| (byteAt p 7 &&& 0xff) <<< 56

def u32To8 (v : ℕ) : Bytes :=
  [0, 8, 16, 24].map fun i => ofNat ((v >>> i) &&& 0xff)

def u64To8 (v : ℕ) : Bytes :=
  [0, 8, 16, 24, 32, 40, 48, 56].map fun i => ofNat ((v >>> i) &&& 0xff)

variable (p : Bytes)

theorem byteAt_and (i : ℕ) : byteAt p i &&& 0xff = byteAt p i :=
  and_ones (w := 8) (p.getD i 0).toNat_lt

theorem leNat_take_succ (n : ℕ) :
    leNat (p.take (n + 1)) = leNat (p.take n) + 256 ^ n * byteAt p n := by
  induction n generalizing p with
  | zero => cases p <;> simp [leNat, byteAt]
  | succ n ih =>
    cases p with
    | nil => simp [byteAt]
    | cons b p =>
      rw [take_succ_cons, take_succ_cons, leNat, leNat, ih p]
      have hbyte : byteAt (b :: p) (n + 1) = byteAt p n := by simp [byteAt]
      rw [hbyte]
      ring

theorem leNat_take_lt (n : ℕ) : leNat (p.take n) < 256 ^ n := by
  have hlt := leNat_lt (p.take n)
  have hle : 256 ^ (p.take n).length ≤ 256 ^ n :=
    Nat.pow_le_pow_right (by decide) (length_take_le n p)
  omega

theorem leNat_take_or (n : ℕ) :
    leNat (p.take n) ||| (byteAt p n &&& 0xff) <<< (8 * n) = leNat (p.take (n + 1)) := by
  have hpow : 256 ^ n = 2 ^ (8 * n) := by rw [Nat.pow_mul]
  rw [byteAt_and, or_shiftLeft (hpow ▸ leNat_take_lt p n), leNat_take_succ, hpow]

theorem u8ToU32_eq : u8ToU32 p = leNat (p.take 4) := by
  have h0 : byteAt p 0 &&& 0xff = leNat (p.take 1) := by
    rw [byteAt_and, leNat_take_succ]
    simp [leNat]
  rw [u8ToU32, h0, leNat_take_or p 1, leNat_take_or p 2, leNat_take_or p 3]

theorem u8ToU64_eq : u8ToU64 p = leNat (p.take 8) := by
  have h0 : byteAt p 0 &&& 0xff = leNat (p.take 1) := by
    rw [byteAt_and, leNat_take_succ]
    simp [leNat]
  rw [u8ToU64, h0, leNat_take_or p 1, leNat_take_or p 2, leNat_take_or p 3, leNat_take_or p 4,
    leNat_take_or p 5, leNat_take_or p 6, leNat_take_or p 7]

theorem byte_eq (v i : ℕ) : ofNat ((v >>> (8 * i)) &&& 0xff) = ofNat (v / 256 ^ i) := by
  rw [← UInt8.toNat_inj, toNat_ofNat', toNat_ofNat', shiftRight_eq_div_pow,
    show 0xff = 2 ^ 8 - 1 from rfl, and_two_pow_sub_one_eq_mod, mod_mod, Nat.pow_mul]

theorem u32To8_eq (v : ℕ) : u32To8 v = leBytes 4 v := by
  change [ofNat ((v >>> (8 * 0)) &&& 0xff), ofNat ((v >>> (8 * 1)) &&& 0xff),
    ofNat ((v >>> (8 * 2)) &&& 0xff), ofNat ((v >>> (8 * 3)) &&& 0xff)] = _
  simp only [byte_eq, leBytes, Nat.div_div_eq_div_mul]
  norm_num

theorem u64To8_eq (v : ℕ) : u64To8 v = leBytes 8 v := by
  change [ofNat ((v >>> (8 * 0)) &&& 0xff), ofNat ((v >>> (8 * 1)) &&& 0xff),
    ofNat ((v >>> (8 * 2)) &&& 0xff), ofNat ((v >>> (8 * 3)) &&& 0xff),
    ofNat ((v >>> (8 * 4)) &&& 0xff), ofNat ((v >>> (8 * 5)) &&& 0xff),
    ofNat ((v >>> (8 * 6)) &&& 0xff), ofNat ((v >>> (8 * 7)) &&& 0xff)] = _
  simp only [byte_eq, leBytes, Nat.div_div_eq_div_mul]
  norm_num

theorem leNat_take_add {p : Bytes} {n : ℕ} (k : ℕ) (h : n ≤ p.length) :
    leNat (p.take (n + k)) = leNat (p.take n) + 256 ^ n * leNat ((p.drop n).take k) := by
  rw [take_add, leNat_append, length_take, Nat.min_eq_left h]

theorem leNat_take_words64 {p : Bytes} (h : 16 ≤ p.length) :
    leNat (p.take 16) = u8ToU64 p + 2 ^ 64 * u8ToU64 (p.drop 8) := by
  rw [leNat_take_add 8 (show 8 ≤ p.length by omega), u8ToU64_eq, u8ToU64_eq]
  norm_num

theorem leNat_take_words32 {p : Bytes} (h : 16 ≤ p.length) :
    leNat (p.take 16) = u8ToU32 p + 2 ^ 32 * u8ToU32 (p.drop 4) + 2 ^ 64 * u8ToU32 (p.drop 8) +
      2 ^ 96 * u8ToU32 (p.drop 12) := by
  rw [leNat_take_add 4 (show 12 ≤ p.length by omega), leNat_take_add 4 (show 8 ≤ p.length by omega),
    leNat_take_add 4 (show 4 ≤ p.length by omega), u8ToU32_eq, u8ToU32_eq, u8ToU32_eq, u8ToU32_eq]
  norm_num

theorem u8ToU32_lt : u8ToU32 p < 2 ^ 32 := by
  rw [u8ToU32_eq]
  exact leNat_take_lt p 4

theorem u8ToU64_lt : u8ToU64 p < 2 ^ 64 := by
  rw [u8ToU64_eq]
  exact leNat_take_lt p 8

end VigorTls.Poly1305
