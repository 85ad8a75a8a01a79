import Mathlib.Data.List.GetD
import VigorTls.Lib.Bytes
import VigorTls.Lib.Memory

/-!
# Iterated hash functions

A hash function that pads its input to whole blocks, ends it with its length and folds a compression
function over the blocks, and HMAC on top of it. The input is read from a memory, block by block
(`absorb`), so that a computation that makes up its blocks otherwise is compared byte by byte.
-/

namespace VigorTls.Lib

open List Nat

structure IteratedHash where
  State : Type
  init : State
  /-- The compression of one block. -/
  transform : State → Bytes → State
  /-- The state as bytes; the hash is the first `md_size` of them. -/
  final_raw : State → Bytes
  md_size : ℕ
  block_size : ℕ
  /-- The bytes of the length at the end. -/
  length_size : ℕ
  big_endian : Bool
  length_lt : length_size < block_size
  md_size_le : ∀ s, md_size ≤ (final_raw s).length

namespace IteratedHash

variable (H : IteratedHash)

theorem block_pos : 0 < H.block_size := Nat.lt_of_le_of_lt (Nat.zero_le _) H.length_lt

/-- The state after the first `n` blocks of a memory. -/
def absorb (s : H.State) (mem : ℕ → UInt8) : ℕ → H.State
  | 0 => s
  | n + 1 => H.transform (absorb s mem n) (slice mem (n * H.block_size) H.block_size)

/-- How many blocks a message of `n` bytes is padded to. -/
def blockCount (n : ℕ) : ℕ := (n + H.length_size) / H.block_size + 1

/-- The length in bits, as it is written. -/
def lengthBytes (bits : ℕ) : Bytes :=
  if H.big_endian then beBytes H.length_size bits else (beBytes H.length_size bits).reverse

/-- What follows a message of `n` bytes: a byte that marks its end, zeros, and the length. -/
def ending (n bits : ℕ) : Bytes :=
  [0x80] ++ replicate (H.blockCount n * H.block_size - n - 1 - H.length_size) 0 ++
    H.lengthBytes bits

/-- The bytes of a list, and zeros behind them. -/
def bytesOf (xs : Bytes) : ℕ → UInt8 := fun i => xs.getD i 0

variable (msg : Bytes)

def hash : Bytes :=
  (H.final_raw (H.absorb H.init (bytesOf (msg ++ H.ending msg.length (8 * msg.length)))
    (H.blockCount msg.length))).take H.md_size

/-- The key of HMAC as one block; a key that is longer is hashed first. -/
def keyBlock (key : Bytes) : Bytes :=
  let key := if key.length > H.block_size then H.hash key else key
  key ++ replicate (H.block_size - key.length) 0

def hmac (key msg : Bytes) : Bytes :=
  H.hash ((H.keyBlock key).map (· ^^^ 0x5c) ++ H.hash ((H.keyBlock key).map (· ^^^ 0x36) ++ msg))

variable {H}

@[simp] theorem length_hash : (H.hash msg).length = H.md_size := by
  rw [hash, length_take]
  exact Nat.min_eq_left (H.md_size_le _)

theorem slice_bytesOf {xs : Bytes} {off n : ℕ} (h : off + n ≤ xs.length) :
    slice (bytesOf xs) off n = (xs.drop off).take n := by
  refine ext_getElem (by simp; omega) fun i hi hi' => ?_
  have hlt : off + i < xs.length := by
    rw [length_slice] at hi
    omega
  simp [slice, bytesOf, getElem?_eq_getElem hlt]

theorem absorb_succ (s : H.State) (mem : ℕ → UInt8) (n : ℕ) :
    H.absorb s mem (n + 1) =
      H.absorb (H.transform s (slice mem 0 H.block_size)) (fun i => mem (H.block_size + i)) n := by
  induction n with
  | zero => simp [absorb]
  | succ n ih =>
    rw [absorb]
    congr 1
    refine map_congr_left fun i _ => ?_
    congr 1
    rw [succ_mul]
    omega

theorem blockCount_add (n : ℕ) : H.blockCount (H.block_size + n) = H.blockCount n + 1 := by
  rw [blockCount, blockCount, Nat.add_assoc, Nat.add_comm H.block_size, add_div_right _ H.block_pos]

theorem ending_add (n bits : ℕ) : H.ending (H.block_size + n) bits = H.ending n bits := by
  have h : H.blockCount (H.block_size + n) * H.block_size - (H.block_size + n) =
      H.blockCount n * H.block_size - n := by
    rw [blockCount_add, succ_mul, Nat.add_comm, Nat.add_sub_add_left]
  rw [ending, ending, h]

theorem blockCount_mul_lt (n : ℕ) : n + H.length_size < H.blockCount n * H.block_size := by
  rw [blockCount, succ_mul]
  exact lt_div_mul_add H.block_pos

/-- The padded input, byte by byte. -/
theorem bytesOf_ending (bits k : ℕ) :
    bytesOf (msg ++ H.ending msg.length bits) k =
      if k < msg.length then msg.getD k 0
      else if k = msg.length then 0x80
      else if k < H.blockCount msg.length * H.block_size - H.length_size then 0
      else (H.lengthBytes bits).getD
        (k - (H.blockCount msg.length * H.block_size - H.length_size)) 0 := by
  have hlt := H.blockCount_mul_lt msg.length
  rw [bytesOf, ending]
  generalize H.blockCount msg.length * H.block_size = N at hlt ⊢
  by_cases hmsg : k < msg.length
  · rw [if_pos hmsg, getD_append _ _ _ _ hmsg]
  rw [if_neg hmsg, getD_append_right _ _ _ _ (Nat.not_lt.mp hmsg)]
  by_cases hend : k = msg.length
  · rw [if_pos hend, hend, Nat.sub_self]
    rfl
  rw [if_neg hend]
  by_cases hzero : k < N - H.length_size
  · have hin : k - msg.length < ([0x80] ++ replicate (N - msg.length - 1 - H.length_size)
        (0 : UInt8)).length := by
      simp
      omega
    rw [if_pos hzero, getD_append _ _ _ _ hin, getD_append_right _ _ _ _ (by simp; omega)]
    simp
  have hout : ([0x80] ++ replicate (N - msg.length - 1 - H.length_size)
      (0 : UInt8)).length = N - H.length_size - msg.length := by
    simp
    omega
  rw [if_neg hzero, getD_append_right _ _ _ _ (by rw [hout]; omega)]
  congr 1
  omega

theorem hash_block_append {block : Bytes} (hblock : block.length = H.block_size) (msg : Bytes) :
    H.hash (block ++ msg) =
      (H.final_raw (H.absorb (H.transform H.init block)
        (bytesOf (msg ++ H.ending msg.length (8 * (H.block_size + msg.length))))
        (H.blockCount msg.length))).take H.md_size := by
  rw [hash, length_append, hblock, blockCount_add, ending_add, absorb_succ, append_assoc]
  have hfirst : slice (bytesOf (block ++ (msg ++ H.ending msg.length
      (8 * (H.block_size + msg.length))))) 0 H.block_size = block := by
    rw [slice_bytesOf (by simp [hblock]), drop_zero, ← hblock, take_left']
    rfl
  have hrest : (fun i => bytesOf (block ++ (msg ++ H.ending msg.length
      (8 * (H.block_size + msg.length)))) (H.block_size + i)) =
      bytesOf (msg ++ H.ending msg.length (8 * (H.block_size + msg.length))) := by
    funext i
    rw [bytesOf, bytesOf, ← hblock, getD_append_right _ _ _ _ (Nat.le_add_right ..),
      Nat.add_sub_cancel_left]
  rw [hfirst, hrest]

end IteratedHash

end VigorTls.Lib
