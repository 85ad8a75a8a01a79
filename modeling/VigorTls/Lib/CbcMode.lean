import VigorTls.Lib.Bytes

/-!
# Cipher block chaining

A block cipher as an arbitrary pair of inverse functions on blocks, and the mode that chains it over
whole blocks. Both sides go on with the last encrypted block (`cbcIv`).
-/

namespace VigorTls.Lib

open List

def xorBytes (xs ys : Bytes) : Bytes := zipWith (· ^^^ ·) xs ys

/-- A block cipher: for each key a function on blocks with an inverse. -/
structure BlockCipher where
  block_size : ℕ
  encrypt : Bytes → Bytes → Bytes
  decrypt : Bytes → Bytes → Bytes
  block_pos : 0 < block_size
  length_encrypt : ∀ key b, b.length = block_size → (encrypt key b).length = block_size
  decrypt_encrypt : ∀ key b, b.length = block_size → decrypt key (encrypt key b) = b

namespace BlockCipher

variable (B : BlockCipher) (key : Bytes)

/-- The encryption of the first `n` blocks of the input. -/
def cbcEncrypt (iv : Bytes) : ℕ → Bytes → Bytes
  | 0, _ => []
  | n + 1, input =>
    let c := B.encrypt key (xorBytes iv (input.take B.block_size))
    c ++ cbcEncrypt c n (input.drop B.block_size)

def cbcDecrypt (iv : Bytes) : ℕ → Bytes → Bytes
  | 0, _ => []
  | n + 1, input =>
    let c := input.take B.block_size
    xorBytes iv (B.decrypt key c) ++ cbcDecrypt c n (input.drop B.block_size)

/-- The block that is combined with what comes after an encrypted string. -/
def cbcIv (iv out : Bytes) : Bytes :=
  if out = [] then iv else out.drop (out.length - B.block_size)

variable {B key} {iv : Bytes}

theorem length_xorBytes {xs ys : Bytes} (h : xs.length = ys.length) :
    (xorBytes xs ys).length = ys.length := by
  rw [xorBytes, length_zipWith, h, Nat.min_self]

theorem xorBytes_xorBytes {xs ys : Bytes} (h : xs.length = ys.length) :
    xorBytes xs (xorBytes xs ys) = ys := by
  refine ext_getElem ?_ fun i hi hi' => ?_
  · rw [length_xorBytes (by rw [length_xorBytes h, h]), length_xorBytes h]
  · simp only [xorBytes, getElem_zipWith]
    rw [← UInt8.xor_assoc, UInt8.xor_self, UInt8.zero_xor]

theorem length_cbcEncrypt (hiv : iv.length = B.block_size) (n : ℕ) {input : Bytes}
    (hinput : input.length = n * B.block_size) :
    (B.cbcEncrypt key iv n input).length = n * B.block_size := by
  induction n generalizing iv input with
  | zero => simp [cbcEncrypt]
  | succ n ih =>
    rw [Nat.succ_mul] at hinput
    have htake : (input.take B.block_size).length = B.block_size := by
      rw [length_take]
      omega
    have hblock := B.length_encrypt key (xorBytes iv (input.take B.block_size))
      ((length_xorBytes (hiv.trans htake.symm)).trans htake)
    rw [cbcEncrypt, length_append, hblock, ih hblock (by rw [length_drop]; omega), Nat.succ_mul]
    exact Nat.add_comm ..

/-- What is decrypted with the same first block is what was encrypted. -/
theorem cbcDecrypt_cbcEncrypt (hiv : iv.length = B.block_size) (n : ℕ) {input : Bytes}
    (hinput : input.length = n * B.block_size) :
    B.cbcDecrypt key iv n (B.cbcEncrypt key iv n input) = input := by
  induction n generalizing iv input with
  | zero =>
    rw [Nat.zero_mul] at hinput
    rw [length_eq_zero_iff.mp hinput]
    rfl
  | succ n ih =>
    rw [Nat.succ_mul] at hinput
    have htake : (input.take B.block_size).length = B.block_size := by
      rw [length_take]
      omega
    have hsame : iv.length = (input.take B.block_size).length := hiv.trans htake.symm
    have hxor : (xorBytes iv (input.take B.block_size)).length = B.block_size :=
      (length_xorBytes hsame).trans htake
    have hblock := B.length_encrypt key _ hxor
    rw [cbcEncrypt, cbcDecrypt, take_left' hblock, drop_left' hblock,
      B.decrypt_encrypt key _ hxor, xorBytes_xorBytes hsame,
      ih hblock (by rw [length_drop]; omega), take_append_drop]

theorem length_cbcIv (hiv : iv.length = B.block_size) {out : Bytes} {n : ℕ}
    (hout : out.length = n * B.block_size) : (B.cbcIv iv out).length = B.block_size := by
  rw [cbcIv]
  by_cases h : out = []
  · rw [if_pos h]
    exact hiv
  have hpos := length_pos_iff.mpr h
  have hn : n ≠ 0 := by
    rintro rfl
    omega
  have hle := Nat.le_mul_of_pos_left B.block_size (Nat.pos_of_ne_zero hn)
  rw [if_neg h, length_drop]
  omega

end BlockCipher

end VigorTls.Lib
