import VigorTls.Lib.IteratedHash
import VigorTls.Record.ConstantTime

/-!
# The MAC of a CBC record

`ssl3_cbc_digest_record` of `ssl/s3_cbc.c`: HMAC over a header and the data of a record, where the
end of the data is secret. The blocks in front of any possible end are hashed as they are
(`startingBlocks`); in the seven that may hold the end each byte is chosen with masks
(`variantByte`), and the digest after each block is taken under a mask. By `Fitting.digest_eq` the
result is HMAC of the header and the data, wherever the data ends.
-/

namespace VigorTls.Record

open Lib IteratedHash List Nat UInt32

/-- The digests that `ssl3_cbc_record_digest_supported` accepts. -/
inductive CbcDigest where
  | md5 | sha1 | sha224 | sha256 | sha384 | sha512

namespace CbcDigest

def md_size : CbcDigest → ℕ
  | md5 => 16
  | sha1 => 20
  | sha224 => 224 / 8
  | sha256 => 32
  | sha384 => 384 / 8
  | sha512 => 64

def md_block_size : CbcDigest → ℕ
  | sha384 | sha512 => 128
  | _ => 64

def md_length_size : CbcDigest → ℕ
  | sha384 | sha512 => 16
  | _ => 8

def length_is_big_endian : CbcDigest → Bool
  | md5 => false
  | _ => true

end CbcDigest

/-- The functions of a digest: `md_transform` and `md_final_raw` on a state, which may be any. -/
structure Compression (d : CbcDigest) where
  State : Type
  init : State
  md_transform : State → Bytes → State
  md_final_raw : State → Bytes
  length_final_raw : ∀ s, d.md_size ≤ (md_final_raw s).length

abbrev Compression.hash {d : CbcDigest} (C : Compression d) : IteratedHash where
  State := C.State
  init := C.init
  transform := C.md_transform
  final_raw := C.md_final_raw
  md_size := d.md_size
  block_size := d.md_block_size
  length_size := d.md_length_size
  big_endian := d.length_is_big_endian
  length_lt := by cases d <;> decide
  md_size_le := C.length_final_raw

def constantTimeEq8 (a b : UInt32) : UInt8 := (constantTimeEq a b).toUInt8

def constantTimeSelect8 (mask a b : UInt8) : UInt8 :=
  (constantTimeSelect mask.toUInt32 a.toUInt32 b.toUInt32).toUInt8

section

variable (d : CbcDigest) (header data : Bytes)
  (data_plus_mac_size data_plus_mac_plus_padding_size : ℕ)

/-- The blocks that no padding can change; the last six can. -/
def numStartingBlocks : ℕ :=
  let variance_blocks := 6
  let len := data_plus_mac_plus_padding_size + 13
  let max_mac_bytes := len - d.md_size - 1
  let num_blocks :=
    (max_mac_bytes + 1 + d.md_length_size + d.md_block_size - 1) / d.md_block_size
  if num_blocks > variance_blocks then num_blocks - variance_blocks else 0

/-- `mac_end_offset`: the end of what is authenticated, in the header and the data. -/
def macEndOffset : ℕ := data_plus_mac_size + 13 - d.md_size

/-- `length_bytes`: the length in bits, with the block of the key. -/
def lengthBytes : Bytes :=
  let bits := 8 * macEndOffset d data_plus_mac_size + 8 * d.md_block_size
  let bytes : Bytes :=
    [.ofNat (bits >>> 24), .ofNat (bits >>> 16), .ofNat (bits >>> 8), .ofNat bits]
  if d.length_is_big_endian then replicate (d.md_length_size - 4) 0 ++ bytes
  else replicate (d.md_length_size - 8) 0 ++ bytes.reverse ++ replicate 4 0

/-- A byte that may be in the last two blocks: at `k` in header and data, `j` in block `i`. -/
def variantByte (i k j : ℕ) : UInt8 :=
  let mac_end_offset := macEndOffset d data_plus_mac_size
  let c := mac_end_offset % d.md_block_size
  let index_a := mac_end_offset / d.md_block_size
  let index_b := (mac_end_offset + d.md_length_size) / d.md_block_size
  let is_block_a := constantTimeEq8 (.ofNat i) (.ofNat index_a)
  let is_block_b := constantTimeEq8 (.ofNat i) (.ofNat index_b)
  let b :=
    if k < 13 then header.getD k 0
    else if k < data_plus_mac_plus_padding_size + 13 then data.getD (k - 13) 0
    else 0
  let is_past_c := is_block_a &&& constantTimeGe8 (.ofNat j) (.ofNat c)
  let is_past_cp1 := is_block_a &&& constantTimeGe8 (.ofNat j) (.ofNat (c + 1))
  -- The byte that marks the end of the data, and zeros after it.
  let b := constantTimeSelect8 is_past_c 0x80 b
  let b := b &&& ~~~is_past_cp1
  -- A block of its own for the length has zeros before it.
  let b := b &&& (~~~is_block_b ||| is_block_a)
  if j ≥ d.md_block_size - d.md_length_size then
    constantTimeSelect8 is_block_b
      ((lengthBytes d data_plus_mac_size).getD (j - (d.md_block_size - d.md_length_size)) 0) b
  else b

variable {d} (C : Compression d)

/-- The blocks that no padding can change. -/
def startingBlocks (state : C.State) : C.State :=
  let md_block_size := d.md_block_size
  let k := md_block_size * numStartingBlocks d data_plus_mac_plus_padding_size
  if k > 0 then
    let first_block := header ++ data.take (md_block_size - 13)
    (range' 1 (k / md_block_size - 1)).foldl
      (fun state i => C.md_transform state (slice (bytesOf data) (md_block_size * i - 13)
        md_block_size))
      (C.md_transform state first_block)
  else state

/-- One turn of the loop over the other blocks, with `md_state`, `k` and `mac_out`. -/
def variantStep (s : C.State × ℕ × Bytes) (i : ℕ) : C.State × ℕ × Bytes :=
  let (state, k, mac_out) := s
  let index_b := (macEndOffset d data_plus_mac_size + d.md_length_size) / d.md_block_size
  let is_block_b := constantTimeEq8 (.ofNat i) (.ofNat index_b)
  let block := (range d.md_block_size).map fun j =>
    variantByte d header data data_plus_mac_size data_plus_mac_plus_padding_size i (k + j) j
  let state := C.md_transform state block
  (state, k + d.md_block_size,
    zipWith (fun m b => m ||| (b &&& is_block_b)) mac_out (C.md_final_raw state))

/-- `ssl3_cbc_digest_record`, with `none` for a failed assertion. The sizes are below 2^20 then. -/
def ssl3CbcDigestRecord (mac_secret : Bytes) : Option Bytes :=
  if data_plus_mac_plus_padding_size ≥ 1024 * 1024 ∨ mac_secret.length > 128 then none else
  let num_starting_blocks := numStartingBlocks d data_plus_mac_plus_padding_size
  let hmac_pad := (mac_secret.take d.md_block_size ++
    replicate (d.md_block_size - mac_secret.length) 0).map (· ^^^ 0x36)
  let state := startingBlocks header data data_plus_mac_plus_padding_size C
    (C.md_transform C.init hmac_pad)
  let (_, _, mac_out) := (range' num_starting_blocks (6 + 1)).foldl
    (variantStep header data data_plus_mac_size data_plus_mac_plus_padding_size C)
    (state, d.md_block_size * num_starting_blocks, replicate d.md_size 0)
  some (C.hash.hash (hmac_pad.map (· ^^^ 0x6a) ++ mac_out))

end

/-! ## The blocks -/

namespace CbcDigest

theorem sizes (d : CbcDigest) : d.md_size ≤ 64 ∧
    (d.md_block_size = 64 ∧ d.md_length_size = 8 ∨
      d.md_block_size = 128 ∧ d.md_length_size = 16) := by
  cases d <;> decide

end CbcDigest

variable {i j : ℕ}

theorem constantTimeEq8_ofNat (hi : i < 2 ^ 32) (hj : j < 2 ^ 32) :
    constantTimeEq8 (.ofNat i) (.ofNat j) = mask8 (i = j) := by
  rw [constantTimeEq8, constantTimeEq_eq, toUInt8_mask]
  refine if_congr ?_ rfl rfl
  rw [← UInt32.toNat_inj, UInt32.toNat_ofNat_of_lt' hi, UInt32.toNat_ofNat_of_lt' hj]

theorem constantTimeSelect8_mask8 (c : Prop) [Decidable c] (a b : UInt8) :
    constantTimeSelect8 (mask8 c) a b = if c then a else b := by
  rw [constantTimeSelect8, constantTimeSelect]
  simp only [toUInt8_or, toUInt8_and, toUInt8_not, UInt8.toUInt8_toUInt32]
  rw [not_mask8, UInt8.and_comm, and_mask8, UInt8.and_comm, and_mask8]
  by_cases h : c
  · rw [if_pos h, if_pos h, if_neg (not_not.mpr h), UInt8.or_zero]
  · rw [if_neg h, if_neg h, if_pos h, UInt8.zero_or]

theorem beBytes_four (m : ℕ) {v : ℕ} (hv : v < 2 ^ 32) :
    beBytes (m + 4) v = replicate m 0 ++
      [.ofNat (v >>> 24), .ofNat (v >>> 16), .ofNat (v >>> 8), .ofNat v] := by
  have hzero : ∀ m, beBytes m 0 = replicate m 0 := fun m => by
    induction m with
    | zero => rfl
    | succ m ih =>
      rw [beBytes, ih, replicate_succ']
      rfl
  have hdiv : v / (256 * 256 * 256 * 256) = 0 := by omega
  simp only [beBytes, append_assoc, cons_append, nil_append,
    shiftRight_eq_div_pow, Nat.div_div_eq_div_mul]
  rw [hdiv, hzero]

section

variable {d : CbcDigest} {header data : Bytes} {size total : ℕ} {C : Compression d}

theorem lengthBytes_eq (hsize : size < 2 ^ 20) :
    lengthBytes d size = C.hash.lengthBytes (8 * (d.md_block_size + macEndOffset d size)) := by
  have hbits : 8 * macEndOffset d size + 8 * d.md_block_size =
      8 * (d.md_block_size + macEndOffset d size) := by omega
  have hlt : 8 * (d.md_block_size + macEndOffset d size) < 2 ^ 32 := by
    rw [macEndOffset]
    obtain ⟨-, ⟨h, -⟩ | ⟨h, -⟩⟩ := d.sizes <;> omega
  rw [lengthBytes, IteratedHash.lengthBytes]
  simp only [hbits]
  cases d <;>
    simp only [CbcDigest.md_length_size] <;>
    rw [beBytes_four _ hlt] <;> rfl

/-- The same byte without masks; the data ends in block `a` after `c` bytes, `b` is the last. -/
def plainByte (L : Bytes) (bs ls a b c i j : ℕ) (byte : UInt8) : UInt8 :=
  if i = b ∧ bs - ls ≤ j then L.getD (j - (bs - ls)) 0
  else if i = b ∧ i ≠ a then 0
  else if i = a ∧ c < j then 0
  else if i = a ∧ j = c then 0x80
  else byte

theorem variantByte_eq_plainByte {k : ℕ} (hi : i < 2 ^ 32) (hj : j < 2 ^ 31)
    (hn : macEndOffset d size + d.md_length_size < 2 ^ 31) :
    variantByte d header data size total i k j =
      plainByte (lengthBytes d size) d.md_block_size d.md_length_size
        (macEndOffset d size / d.md_block_size)
        ((macEndOffset d size + d.md_length_size) / d.md_block_size)
        (macEndOffset d size % d.md_block_size) i j
        (if k < 13 then header.getD k 0
          else if k < total + 13 then data.getD (k - 13) 0 else 0) := by
  have ha := Nat.div_le_self (macEndOffset d size) d.md_block_size
  have hb := Nat.div_le_self (macEndOffset d size + d.md_length_size) d.md_block_size
  have hc := mod_le (macEndOffset d size) d.md_block_size
  rw [variantByte]
  simp only [constantTimeEq8_ofNat hi (show _ < 2 ^ 32 from Nat.lt_of_le_of_lt ha (by omega)),
    constantTimeEq8_ofNat hi (show _ < 2 ^ 32 from Nat.lt_of_le_of_lt hb (by omega)),
    ge8_ofNat (show j < 2 ^ 32 by omega) (show _ < 2 ^ 32 from Nat.lt_of_le_of_lt hc (by omega)),
    ge8_ofNat (show j < 2 ^ 32 by omega) (show _ + 1 < 2 ^ 32 from
      Nat.lt_of_le_of_lt (succ_le_succ hc) (by omega)), mask8_and_mask8]
  simp only [not_mask8, mask8_or_mask8, constantTimeSelect8_mask8, and_mask8]
  generalize (if k < 13 then header.getD k 0 else _) = byte
  rw [plainByte]
  split_ifs <;> first | rfl | omega

theorem place_lt_iff {bs i j a c : ℕ} (hj : j < bs) (hc : c < bs) :
    bs * i + j < bs * a + c ↔ i < a ∨ i = a ∧ j < c := by
  obtain h | rfl | h := Nat.lt_trichotomy i a
  · have := Nat.mul_le_mul_left bs (succ_le_of_lt h)
    rw [mul_succ] at this
    omega
  · omega
  · have := Nat.mul_le_mul_left bs (succ_le_of_lt h)
    rw [mul_succ] at this
    omega

theorem plainByte_eq {L : Bytes} {bs ls n : ℕ} {byte msg : UInt8} (hls : 0 < ls)
    (hbs : ls < bs) (hj : j < bs) (hi : i ≤ (n + ls) / bs) (hbyte : bs * i + j < n → byte = msg) :
    plainByte L bs ls (n / bs) ((n + ls) / bs) (n % bs) i j byte =
      if bs * i + j < n then msg
      else if bs * i + j = n then 0x80
      else if bs * i + j < ((n + ls) / bs + 1) * bs - ls then 0
      else L.getD (bs * i + j - (((n + ls) / bs + 1) * bs - ls)) 0 := by
  have hpos : 0 < bs := Nat.lt_trans hls hbs
  have hdiv := div_add_mod n bs
  have hmod := mod_lt n hpos
  have hab : n / bs ≤ (n + ls) / bs := Nat.div_le_div_right (Nat.le_add_right n ls)
  have hba : (n + ls) / bs ≤ n / bs + 1 := by
    rw [← add_div_right n hpos]
    exact Nat.div_le_div_right (by omega)
  have hlast := lt_mul_div_succ (n + ls) hpos
  have hN : ((n + ls) / bs + 1) * bs - ls = bs * ((n + ls) / bs) + (bs - ls) := by
    rw [succ_mul, Nat.mul_comm]
    omega
  have hlt := @place_lt_iff bs i j (n / bs) (n % bs) hj hmod
  have hgt := @place_lt_iff bs (n / bs) (n % bs) i j hmod hj
  have hfield := @place_lt_iff bs i j ((n + ls) / bs) (bs - ls) hj (by omega)
  rw [mul_succ] at hlast
  rw [hN, plainByte]
  generalize n / bs = a at *
  generalize (n + ls) / bs = b at *
  by_cases hk : bs * i + j < n
  · -- A byte of the message.
    rw [if_pos hk, ← hbyte hk, if_neg (by omega), if_neg (by omega), if_neg (by omega),
      if_neg (by omega)]
  rw [if_neg hk]
  by_cases hend : bs * i + j = n
  · rw [if_pos hend, if_neg (by omega), if_neg (by omega), if_neg (by omega), if_pos (by omega)]
  rw [if_neg hend]
  by_cases hzero : bs * i + j < bs * b + (bs - ls)
  · rw [if_pos hzero, if_neg (by omega)]
    by_cases hb : i = b ∧ i ≠ a
    · rw [if_pos hb]
    · rw [if_neg hb, if_pos (by omega)]
  · obtain ⟨rfl, hfrom⟩ : i = b ∧ bs - ls ≤ j := by omega
    rw [if_neg hzero, if_pos ⟨rfl, hfrom⟩, Nat.add_sub_add_left]

/-- What is authenticated: the header and the data up to the MAC. -/
def authenticated (d : CbcDigest) (header data : Bytes) (data_plus_mac_size : ℕ) : Bytes :=
  header ++ data.take (data_plus_mac_size - d.md_size)

/-- The sizes of a call: the data and the MAC are inside, with at most 256 bytes of padding behind.
-/
structure Fitting (d : CbcDigest) (header data : Bytes)
    (data_plus_mac_size data_plus_mac_plus_padding_size : ℕ) : Prop where
  header : header.length = 13
  mac : d.md_size ≤ data_plus_mac_size
  le : data_plus_mac_size ≤ data_plus_mac_plus_padding_size
  padding : data_plus_mac_plus_padding_size ≤ data_plus_mac_size + 256
  data : data_plus_mac_plus_padding_size ≤ data.length
  size : data_plus_mac_plus_padding_size < 2 ^ 20

variable (hfit : Fitting d header data size total)

include hfit

theorem Fitting.length_authenticated :
    (authenticated d header data size).length = macEndOffset d size := by
  obtain ⟨hheader, hmac, hle, -, hdata, -⟩ := hfit
  rw [authenticated, length_append, length_take, macEndOffset]
  omega

theorem Fitting.padded_lt : macEndOffset d size + d.md_length_size < 2 ^ 21 := by
  rw [macEndOffset]
  have := d.sizes
  have := hfit.size
  have := hfit.le
  omega

theorem Fitting.getD_authenticated {k : ℕ} (hk : k < macEndOffset d size) :
    (authenticated d header data size).getD k 0 =
      if k < 13 then header.getD k 0 else data.getD (k - 13) 0 := by
  obtain ⟨hheader, hmac, hle, -, hdata, -⟩ := hfit
  rw [macEndOffset] at hk
  rw [authenticated]
  split_ifs with h
  · rw [getD_append _ _ _ _ (by omega)]
  rw [getD_append_right _ _ _ _ (by omega), hheader]
  have htake : k - 13 < (data.take (size - d.md_size)).length := by
    rw [length_take]
    omega
  rw [getD_eq_getElem _ _ htake, getElem_take,
    getD_eq_getElem _ _ (by rw [length_take] at htake; omega)]

theorem Fitting.variantByte_eq (hj : j < d.md_block_size)
    (hi : i ≤ (macEndOffset d size + d.md_length_size) / d.md_block_size) :
    variantByte d header data size total i (d.md_block_size * i + j) j =
      bytesOf (authenticated d header data size ++
        C.hash.ending (macEndOffset d size) (8 * (d.md_block_size + macEndOffset d size)))
        (d.md_block_size * i + j) := by
  have hlt := hfit.padded_lt
  have hdiv := Nat.div_le_self (macEndOffset d size + d.md_length_size) d.md_block_size
  have hbytes := bytesOf_ending (H := C.hash) (authenticated d header data size)
    (8 * (d.md_block_size + macEndOffset d size)) (d.md_block_size * i + j)
  rw [hfit.length_authenticated, ← lengthBytes_eq (Nat.lt_of_le_of_lt hfit.le hfit.size)] at hbytes
  have hsizes := d.sizes
  rw [variantByte_eq_plainByte (by omega) (by omega) (by omega), hbytes]
  refine plainByte_eq (by omega) (by omega) hj hi fun hk => ?_
  rw [hfit.getD_authenticated hk]
  rw [macEndOffset] at hk
  exact if_congr Iff.rfl rfl (if_pos (by have := hfit.le; omega))

/-- The padded message behind the block of the key. -/
def tail (C : Compression d) (header data : Bytes) (data_plus_mac_size : ℕ) : ℕ → UInt8 :=
  bytesOf (authenticated d header data data_plus_mac_size ++
    C.hash.ending (macEndOffset d data_plus_mac_size)
      (8 * (d.md_block_size + macEndOffset d data_plus_mac_size)))

theorem Fitting.tail_of_lt {k : ℕ} (hk : k < macEndOffset d size) :
    tail C header data size k = if k < 13 then header.getD k 0 else data.getD (k - 13) 0 := by
  rw [← hfit.getD_authenticated hk]
  exact getD_append _ _ _ _ (by rwa [hfit.length_authenticated])

theorem Fitting.starting :
    d.md_block_size * numStartingBlocks d total ≤ macEndOffset d size ∧
    numStartingBlocks d total ≤ (macEndOffset d size + d.md_length_size) / d.md_block_size ∧
    (macEndOffset d size + d.md_length_size) / d.md_block_size < numStartingBlocks d total + 7 := by
  obtain ⟨-, hmac, hle, hpad, -, -⟩ := hfit
  rw [numStartingBlocks, macEndOffset]
  obtain ⟨hmd, ⟨hb, hl⟩ | ⟨hb, hl⟩⟩ := d.sizes <;> simp only [hb] <;>
    refine ⟨?_, ?_, ?_⟩ <;> split <;> omega

theorem Fitting.first_block (hn : d.md_block_size ≤ macEndOffset d size) :
    header ++ data.take (d.md_block_size - 13) =
      slice (tail C header data size) 0 d.md_block_size := by
  have hsizes := d.sizes
  have hheader := hfit.header
  have hlen : (header ++ data.take (d.md_block_size - 13)).length = d.md_block_size := by
    rw [macEndOffset] at hn
    rw [length_append, length_take]
    have := hfit.data
    have := hfit.le
    omega
  refine ext_getElem (by rw [hlen, length_slice]) fun k hk hk' => ?_
  have htail := @Fitting.tail_of_lt _ _ _ _ _ C hfit k (by omega)
  simp only [slice, getElem_map, getElem_range, Nat.zero_add, htail]
  by_cases h : k < 13
  · rw [if_pos h, getElem_append_left (by omega), getD_eq_getElem]
  have hin : k - 13 < data.length := by
    rw [length_append, length_take] at hk
    omega
  rw [if_neg h, getElem_append_right (by omega), getElem_take, getD_eq_getElem _ _ hin]
  simp [hheader]

theorem Fitting.later_block (hi : 0 < i) (hn : d.md_block_size * (i + 1) ≤ macEndOffset d size) :
    slice (bytesOf data) (d.md_block_size * i - 13) d.md_block_size =
      slice (tail C header data size) (i * d.md_block_size) d.md_block_size := by
  have hsizes := d.sizes
  have hmul : d.md_block_size * 1 ≤ d.md_block_size * i := Nat.mul_le_mul_left _ hi
  rw [mul_succ] at hn
  rw [Nat.mul_comm i]
  refine map_congr_left fun t ht => ?_
  have ht := mem_range.mp ht
  rw [hfit.tail_of_lt (by omega), if_neg (by omega)]
  congr 1
  omega

theorem Fitting.startingBlocks_eq (state : C.State) :
    startingBlocks header data total C state =
      C.hash.absorb state (tail C header data size) (numStartingBlocks d total) := by
  have hend := hfit.starting.1
  have hpos : 0 < d.md_block_size := by
    have := d.sizes
    omega
  rw [startingBlocks]
  generalize numStartingBlocks d total = ns at hend ⊢
  cases ns with
  | zero => rfl
  | succ m =>
    simp only [Nat.mul_div_cancel_left _ hpos, Nat.add_sub_cancel]
    rw [if_pos (Nat.mul_pos hpos (succ_pos m))]
    induction m with
    | zero =>
      rw [Nat.mul_one] at hend
      rw [hfit.first_block hend (C := C)]
      simp [absorb]
    | succ m ih =>
      have hprev : d.md_block_size * (m + 1) ≤ d.md_block_size * (m + 1 + 1) :=
        Nat.mul_le_mul_left _ (le_succ _)
      rw [range'_1_concat, foldl_append, ih (Nat.le_trans hprev hend), foldl_cons, Nat.add_comm 1 m,
        hfit.later_block (succ_pos m) hend (C := C)]
      rfl

omit hfit in
theorem zipWith_or_zero (m : Bytes) {raw : Bytes} (h : m.length ≤ raw.length) :
    zipWith (fun m b => m ||| (b &&& 0)) m raw = m := by
  refine ext_getElem (by simpa using h) fun i hi hi' => ?_
  simp

omit hfit in
theorem zipWith_zero_or (n : ℕ) (raw : Bytes) :
    zipWith (fun m b => m ||| (b &&& 0xff)) (replicate n 0) raw = raw.take n := by
  refine ext_getElem (by simp) fun i hi hi' => ?_
  simp only [getElem_zipWith, getElem_replicate, getElem_take, UInt8.zero_or]
  exact UInt8.and_neg_one

/-- After `m` turns: up to the last block the state is that of the message, and there it is copied
to `mac_out`. -/
structure Turned (C : Compression d) (header data : Bytes)
    (data_plus_mac_size num_starting_blocks : ℕ) (s : C.State) (m : ℕ)
    (t : C.State × ℕ × Bytes) : Prop where
  k : t.2.1 = d.md_block_size * (num_starting_blocks + m)
  state : num_starting_blocks + m ≤
      (macEndOffset d data_plus_mac_size + d.md_length_size) / d.md_block_size + 1 →
    t.1 = C.hash.absorb s (tail C header data data_plus_mac_size) (num_starting_blocks + m)
  mac_out : t.2.2 =
    if (macEndOffset d data_plus_mac_size + d.md_length_size) / d.md_block_size <
        num_starting_blocks + m then
      (C.md_final_raw (C.hash.absorb s (tail C header data data_plus_mac_size)
        ((macEndOffset d data_plus_mac_size + d.md_length_size) / d.md_block_size + 1))).take
          d.md_size
    else replicate d.md_size 0

theorem Fitting.turn {s : C.State} {ns m : ℕ} {t : C.State × ℕ × Bytes}
    (hns : ns + m < 2 ^ 31) (h : Turned C header data size ns s m t) :
    Turned C header data size ns s (m + 1)
      (variantStep header data size total C t (ns + m)) := by
  obtain ⟨state, k, mac_out⟩ := t
  obtain ⟨rfl, hstate, rfl⟩ := h
  have hlt := hfit.padded_lt
  have hdiv := Nat.div_le_self (macEndOffset d size + d.md_length_size) d.md_block_size
  -- Up to the last block the state goes on with the message.
  have hnext : ns + m ≤ (macEndOffset d size + d.md_length_size) / d.md_block_size →
      C.md_transform state ((range d.md_block_size).map fun j =>
        variantByte d header data size total (ns + m) (d.md_block_size * (ns + m) + j) j) =
      C.hash.absorb s (tail C header data size) (ns + m + 1) := fun hi => by
    rw [map_congr_left fun j hj => hfit.variantByte_eq (C := C) (mem_range.mp hj) hi,
      Nat.mul_comm d.md_block_size, show state = _ from hstate (le_succ_of_le hi)]
    rfl
  simp only [variantStep]
  rw [constantTimeEq8_ofNat (by omega) (by omega)]
  generalize C.md_transform state _ = state' at hnext ⊢
  have hraw := C.length_final_raw state'
  refine ⟨?_, fun hle => ?_, ?_⟩
  · rw [← Nat.add_assoc, mul_succ]
  · exact hnext (by omega)
  generalize (macEndOffset d size + d.md_length_size) / d.md_block_size = b at *
  obtain hlt | rfl | hgt := Nat.lt_trichotomy (ns + m) b
  · rw [mask8, if_neg (Nat.ne_of_lt hlt), if_neg (by omega), if_neg (by omega)]
    exact zipWith_or_zero _ (length_replicate ▸ hraw)
  · rw [mask8, if_pos rfl, if_neg (Nat.lt_irrefl _), if_pos (by omega), ← hnext (Nat.le_refl _)]
    exact zipWith_zero_or ..
  · rw [mask8, if_neg (Nat.ne_of_gt hgt), if_pos hgt, if_pos (by omega)]
    refine zipWith_or_zero _ (Nat.le_trans ?_ hraw)
    rw [length_take]
    exact Nat.min_le_left ..

theorem Fitting.turns (s : C.State) {ns : ℕ} (m : ℕ) (hns : ns + m < 2 ^ 31)
    (hle : ns ≤ (macEndOffset d size + d.md_length_size) / d.md_block_size) :
    Turned C header data size ns s m ((range' ns m).foldl
      (variantStep header data size total C) (C.hash.absorb s (tail C header data size) ns,
        d.md_block_size * ns, replicate d.md_size 0)) := by
  induction m with
  | zero => exact ⟨rfl, fun _ => rfl, (if_neg (Nat.not_lt.mpr hle)).symm⟩
  | succ m ih =>
    rw [range'_1_concat, foldl_append]
    exact hfit.turn (by omega) (ih (by omega))

/-- `ssl3_cbc_digest_record` is HMAC, for a secret that is not longer than a block. -/
theorem Fitting.digest_eq {mac_secret : Bytes} (hsecret : mac_secret.length ≤ d.md_block_size) :
    ssl3CbcDigestRecord header data size total C mac_secret =
      some (C.hash.hmac mac_secret (authenticated d header data size)) := by
  have hsize := hfit.size
  have hblock : d.md_block_size ≤ 128 := by
    have := d.sizes
    omega
  obtain ⟨-, hle, hlast⟩ := hfit.starting
  have hlt := hfit.padded_lt
  have hdiv := Nat.div_le_self (macEndOffset d size + d.md_length_size) d.md_block_size
  -- The key is one block.
  have hkey : mac_secret.take d.md_block_size ++
      replicate (d.md_block_size - mac_secret.length) 0 = C.hash.keyBlock mac_secret := by
    have hshort : ¬ mac_secret.length > d.md_block_size := by omega
    rw [keyBlock, if_neg hshort, take_of_length_le (by omega)]
  have hlen : ((C.hash.keyBlock mac_secret).map (· ^^^ 0x36)).length = d.md_block_size := by
    rw [length_map, ← hkey, length_append, length_take, length_replicate]
    omega
  have hopad : ((C.hash.keyBlock mac_secret).map (· ^^^ 0x36)).map (· ^^^ 0x6a) =
      (C.hash.keyBlock mac_secret).map (· ^^^ 0x5c) := by
    rw [map_map]
    exact map_congr_left fun b _ => UInt8.xor_assoc b 0x36 0x6a
  have hturns := hfit.turns (C.md_transform C.init ((C.hash.keyBlock mac_secret).map (· ^^^ 0x36)))
    (6 + 1) (by omega) hle
  have hinner := hturns.mac_out
  rw [if_pos hlast] at hinner
  have hhash := hash_block_append (H := C.hash) hlen (authenticated d header data size)
  rw [hfit.length_authenticated] at hhash
  rw [ssl3CbcDigestRecord, if_neg (by omega), hmac, hhash]
  simp only [hkey, hopad, hfit.startingBlocks_eq]
  rw [hinner]
  rfl

end

section

variable {d : CbcDigest} {header data : Bytes}
  {data_plus_mac_size data_plus_mac_plus_padding_size : ℕ}
  (hfit : Fitting d header data data_plus_mac_size data_plus_mac_plus_padding_size)

include hfit

/-- The record is authenticated with HMAC under a secret not longer than a block. A longer one is
cut and not hashed, and more than 128 bytes fail an assertion. -/
theorem digest_record_is_hmac (C : Compression d) (mac_secret : Bytes) :
    ssl3CbcDigestRecord header data data_plus_mac_size data_plus_mac_plus_padding_size C
        mac_secret =
      if mac_secret.length ≤ 128 then
        some (C.hash.hmac (mac_secret.take d.md_block_size)
          (header ++ data.take (data_plus_mac_size - d.md_size)))
      else none := by
  by_cases h : mac_secret.length ≤ 128
  · have hcut := hfit.digest_eq (C := C) (length_take_le d.md_block_size mac_secret)
    have hzeros : d.md_block_size - (mac_secret.take d.md_block_size).length =
        d.md_block_size - mac_secret.length := by
      rw [length_take]
      omega
    have hlen := length_take_le' d.md_block_size mac_secret
    -- Nothing else of the secret is looked at.
    rw [if_pos h, ← authenticated, ← hcut, ssl3CbcDigestRecord, ssl3CbcDigestRecord,
      take_take, Nat.min_self, hzeros]
    exact if_congr (by omega) rfl rfl
  · rw [if_neg h, ssl3CbcDigestRecord, if_pos (.inr (by omega))]

end

/-- A compression that only takes the first byte of a block. -/
def firstByte : Compression .md5 where
  State := UInt8
  init := 1
  md_transform s block := 3 * s + block.headD 0
  md_final_raw s := replicate 16 s
  length_final_raw _ := Nat.le_of_eq (length_replicate ..).symm

/-- A record of two bytes, a MAC and one byte of padding. -/
theorem digest_record_is_hmac_two :
    let data : Bytes := [1, 2] ++ replicate 16 0 ++ [0]
    Fitting .md5 (replicate 13 0) data 18 19 ∧
      ssl3CbcDigestRecord (replicate 13 0) data 18 19 firstByte [5] =
        some (firstByte.hash.hmac [5] (replicate 13 0 ++ [1, 2])) :=
  have hfit : Fitting .md5 (replicate 13 0) ([1, 2] ++ replicate 16 0 ++ [0]) 18 19 :=
    ⟨by decide, by decide, by decide, by decide, by decide, by decide⟩
  ⟨hfit, digest_record_is_hmac hfit firstByte [5]⟩

/-- A secret of 65 bytes gives another digest than HMAC, which hashes it first. -/
theorem digest_record_long_secret :
    let data : Bytes := [1, 2] ++ replicate 16 0 ++ [0]
    ssl3CbcDigestRecord (replicate 13 0) data 18 19 firstByte (replicate 65 1) ≠
      some (firstByte.hash.hmac (replicate 65 1) (replicate 13 0 ++ [1, 2])) := by
  decide +kernel

end VigorTls.Record
