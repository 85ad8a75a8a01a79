import Mathlib.Data.List.ReduceOption
import Mathlib.Data.Fin.VecNotation
import Mathlib.Data.List.FinRange
import VigorTls.Lib.Bytes

/-!
# The TLS pseudorandom function

`tls1_P_hash` and `tls1_PRF`, over any HMAC for each digest. The result is `P_hash` of the whole
secret for one digest, and for MD5 and SHA-1 the exclusive or of `P_hash` over the two halves of the
secret, which share a byte if its length is odd (`tls1PRF_spec`).
-/

namespace VigorTls.Record

open List

/-- An `EVP_MD` as far as HMAC goes. -/
structure PrfMd where
  size : ℕ
  hmac : Bytes → Bytes → Bytes
  size_pos : 0 < size
  length_hmac : ∀ key msg, (hmac key msg).length = size

def sslHandshakeDigestFlag : Fin 6 → ℕ := ![0x10, 0x20, 0x40, 0, 0x80, 0x100]

/-- The test `(m << TLS1_PRF_DGST_SHIFT) & digest_mask`. -/
def inMask (digest_mask : ℕ) (idx : Fin 6) : Bool :=
  (sslHandshakeDigestFlag idx <<< 10) &&& digest_mask != 0

inductive PrfError
  | sslHandshakeFailure
  | unsupportedDigestType

section

variable (methods : Fin 6 → Option PrfMd) (digest_mask : ℕ) (md : PrfMd) (sec : Bytes)
  (seeds : List (Option Bytes))

/-- The `EVP_DigestSignUpdate` calls for the seeds; one that is `NULL` is skipped. -/
def updateSeeds (ctx : Bytes) : Bytes :=
  seeds.foldl (fun ctx seed => match seed with
    | some bytes => ctx ++ bytes
    | none => ctx) ctx

def tls1PHashLoop (A1 : Bytes) (olen : ℕ) : Bytes :=
  if md.size < olen then
    md.hmac sec (updateSeeds seeds A1) ++ tls1PHashLoop (md.hmac sec A1) (olen - md.size)
  else (md.hmac sec (updateSeeds seeds A1)).take olen
termination_by olen
decreasing_by
  have := md.size_pos
  omega

def tls1PHash (olen : ℕ) : Bytes :=
  tls1PHashLoop md sec seeds (md.hmac sec (updateSeeds seeds [])) olen

/-- The second loop of `tls1_PRF`; `n` bytes of the secret go to each digest. -/
def prfLoop (len n olen : ℕ) : List (Fin 6) → Bytes → Bytes → Except PrfError Bytes
  | [], _, out1 => .ok out1
  | idx :: rest, S1, out1 =>
    if inMask digest_mask idx then
      match methods idx with
      | none => .error .unsupportedDigestType
      | some md => prfLoop len n olen rest (S1.drop len)
          (zipWith (· ^^^ ·) out1 (tls1PHash md (S1.take n) seeds olen))
    else prfLoop len n olen rest S1 out1

/-- `tls1_PRF`, where `methods` is `ssl_digest_methods`. -/
def tls1PRF (olen : ℕ) : Except PrfError Bytes :=
  let count := (finRange 6).countP (inMask digest_mask)
  if count = 0 then .error .sslHandshakeFailure
  else
    let len := sec.length / count
    let slen := if count = 1 then 0 else sec.length
    prfLoop methods digest_mask seeds len (len + slen % 2) olen (finRange 6) sec
      (replicate olen 0)

/-- `A(i)`: the seed, and HMAC of the one before. -/
def chain (seed : Bytes) : ℕ → Bytes
  | 0 => seed
  | i + 1 => md.hmac sec (chain seed i)

/-- `P_hash`: HMAC of `A(1) + seed`, of `A(2) + seed` and so on, cut to `olen` bytes. -/
def pHash (seed : Bytes) (olen : ℕ) : Bytes :=
  ((range olen).flatMap fun i => md.hmac sec (chain md sec seed (i + 1) ++ seed)).take olen

theorem updateSeeds_eq : ∀ (seeds : List (Option Bytes)) (ctx : Bytes),
    updateSeeds seeds ctx = ctx ++ seeds.reduceOption.flatten
  | [], ctx => by simp [updateSeeds]
  | none :: seeds, ctx => updateSeeds_eq seeds ctx
  | some bytes :: seeds, ctx => by
    rw [reduceOption_cons_of_some, flatten_cons, ← append_assoc]
    exact updateSeeds_eq seeds (ctx ++ bytes)

theorem tls1PHashLoop_eq {seed : Bytes} (hseed : seeds.reduceOption.flatten = seed) :
    ∀ (n k olen : ℕ), olen ≤ n * md.size →
      tls1PHashLoop md sec seeds (chain md sec seed (k + 1)) olen = ((range n).flatMap
        fun i => md.hmac sec (chain md sec seed (k + i + 1) ++ seed)).take olen
  | 0, k, olen, h => by
    obtain rfl : olen = 0 := by omega
    rw [tls1PHashLoop]
    simp
  | n + 1, k, olen, h => by
    rw [tls1PHashLoop, updateSeeds_eq, hseed, range_succ_eq_map, flatMap_cons,
      flatMap_map, take_append, md.length_hmac]
    split_ifs with hlong
    · rw [take_of_length_le (by rw [md.length_hmac]; omega)]
      have ih := tls1PHashLoop_eq hseed n (k + 1) (olen - md.size)
        (by rw [Nat.succ_mul] at h; omega)
      simp only [Nat.add_right_comm k 1] at ih
      exact congrArg _ ih
    · rw [Nat.sub_eq_zero_of_le (not_lt.mp hlong), take_zero, append_nil]

theorem tls1PHash_eq (olen : ℕ) :
    tls1PHash md sec seeds olen = pHash md sec seeds.reduceOption.flatten olen := by
  have h := tls1PHashLoop_eq md sec seeds rfl olen 0 olen (Nat.le_mul_of_pos_right _ md.size_pos)
  simp only [Nat.zero_add] at h
  rw [tls1PHash, updateSeeds_eq]
  exact h

theorem zipWith_xor_zero : ∀ l : Bytes, zipWith (· ^^^ ·) (replicate l.length 0) l = l
  | [] => rfl
  | b :: l => by simp [replicate_succ, zipWith_xor_zero l]

theorem zipWith_xor_pHash (seed : Bytes) (olen : ℕ) :
    zipWith (· ^^^ ·) (replicate olen 0) (pHash md sec seed olen) =
      pHash md sec seed olen := by
  have hlen : (pHash md sec seed olen).length = olen := by
    simp [pHash, md.length_hmac, Nat.le_mul_of_pos_right _ md.size_pos]
  have h := zipWith_xor_zero (pHash md sec seed olen)
  rwa [hlen] at h

theorem prfLoop_filter (len n olen : ℕ) : ∀ (l : List (Fin 6)) (S1 out1 : Bytes),
    prfLoop methods digest_mask seeds len n olen l S1 out1 =
      prfLoop methods digest_mask seeds len n olen (l.filter (inMask digest_mask)) S1 out1
  | [], _, _ => rfl
  | idx :: l, S1, out1 => by
    by_cases h : inMask digest_mask idx = true
    · rw [filter_cons_of_pos h, prfLoop, prfLoop, if_pos h, if_pos h]
      cases methods idx with
      | none => rfl
      | some md => exact prfLoop_filter len n olen l _ _
    · rw [filter_cons_of_neg h, prfLoop, if_neg h]
      exact prfLoop_filter len n olen l S1 out1

/-- With one digest the result is `P_hash` of the secret, with MD5 and SHA-1 the exclusive or of
`P_MD5` of its first half, rounded up, and `P_SHA-1` of the last. -/
theorem tls1PRF_spec (olen : ℕ) :
    (∀ idx md, (∀ i, inMask digest_mask i = true ↔ i = idx) → methods idx = some md →
      tls1PRF methods digest_mask sec seeds olen =
        .ok (pHash md sec seeds.reduceOption.flatten olen)) ∧
    ∀ md5 sha1, (∀ i, inMask digest_mask i = true ↔ i = 0 ∨ i = 1) → methods 0 = some md5 →
      methods 1 = some sha1 →
      tls1PRF methods digest_mask sec seeds olen = .ok (zipWith (· ^^^ ·)
        (pHash md5 (sec.take ((sec.length + 1) / 2)) seeds.reduceOption.flatten olen)
        (pHash sha1 (sec.drop (sec.length - (sec.length + 1) / 2))
          seeds.reduceOption.flatten olen)) := by
  unfold tls1PRF
  simp only [countP_eq_length_filter]
  refine ⟨fun idx md hmask hmd => ?_, fun md5 sha1 hmask hmd5 hsha1 => ?_⟩
  · have hfilter : (finRange 6).filter (inMask digest_mask) = [idx] := by
      rw [filter_congr (q := fun i => decide (i = idx)) fun i _ => by simp [← hmask i]]
      clear hmask hmd
      decide +revert
    rw [prfLoop_filter, hfilter]
    simp [prfLoop, (hmask idx).mpr rfl, hmd, tls1PHash_eq, zipWith_xor_pHash]
  have hfilter : (finRange 6).filter (inMask digest_mask) = [0, 1] := by
    rw [filter_congr (q := fun i => decide (i = 0 ∨ i = 1)) fun i _ => by simp [← hmask i]]
    decide
  have hhalf : sec.length / 2 + sec.length % 2 = (sec.length + 1) / 2 := by omega
  have hrest : sec.length - (sec.length + 1) / 2 = sec.length / 2 := by omega
  have hlast : (sec.drop (sec.length / 2)).take ((sec.length + 1) / 2) =
      sec.drop (sec.length / 2) := take_of_length_le (by rw [length_drop]; omega)
  rw [prfLoop_filter, hfilter, hrest]
  simp [prfLoop, (hmask 0).mpr (.inl rfl), (hmask 1).mpr (.inr rfl), hmd5, hsha1, hhalf, hlast,
    tls1PHash_eq, zipWith_xor_pHash]

end

/-- A digest of one byte, the exclusive or of what it is given. -/
def xorMd : PrfMd :=
  ⟨1, fun key msg => [(key ++ msg).foldr (· ^^^ ·) 0], Nat.one_pos, fun _ _ => rfl⟩

/-- The mask of `TLS1_PRF`, for MD5 and SHA-1, and a secret of three bytes. -/
theorem tls1PRF_spec_halves : tls1PRF (fun _ => some xorMd) 0xc000 [1, 2, 3] [some [4], none] 3 =
    .ok (zipWith (· ^^^ ·) (pHash xorMd [1, 2] [4] 3) (pHash xorMd [2, 3] [4] 3)) :=
  (tls1PRF_spec (fun _ => some xorMd) 0xc000 [1, 2, 3] [some [4], none] 3).2 xorMd xorMd
    (by decide) rfl rfl

end VigorTls.Record
