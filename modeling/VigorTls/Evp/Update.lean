import VigorTls.Lib.Bytes

/-!
# The length of a cipher update

`EVP_EncryptUpdate` and `EVP_DecryptUpdate` of `crypto/evp/evp_enc.c`. What does not fill a block
stays in `buf`; the decryption also holds back the last block, which may be padding. `*outl` is the
number of bytes delivered, and no byte is lost or comes twice, exactly if that number fits an `int`
(`update_lengths_iff`).
-/

namespace VigorTls.Evp

open List

/-- A cipher with its `do_cipher`, which may fail; `EVP_CipherInit_ex` asserts its block size. -/
structure Cipher (σ : Type) where
  block_size : ℕ
  do_cipher : σ → Bytes → Option (σ × Bytes)
  size : block_size = 1 ∨ block_size = 8 ∨ block_size = 16
  length : ∀ {d xs d' ys}, do_cipher d xs = some (d', ys) → ys.length = xs.length

/-- `EVP_CIPHER_CTX`: `buf` as far as `buf_len`, and `final` if `final_used` is set. -/
structure CipherCtx (σ : Type) where
  cipher_data : σ
  buf : Bytes
  final : Option Bytes
  no_padding : Bool

inductive Update (σ : Type) where
  | overflow
  | failed (ctx : CipherCtx σ)
  /-- It returns 1, with `*outl` and the bytes that are delivered. -/
  | done (ctx : CipherCtx σ) (outl : ℤ) (out : Bytes)

variable {σ : Type}

def Update.ctx : Update σ → Option (CipherCtx σ)
  | .overflow => none
  | .failed ctx => some ctx
  | .done ctx _ _ => some ctx

variable (c : Cipher σ) (ctx : CipherCtx σ) (inp : Bytes)

/-- `EVP_EncryptUpdate` from `i = inl & (bl - 1)` on. -/
def encryptBlocks (outl : ℤ) (out inp : Bytes) : Update σ :=
  let i := inp.length &&& (c.block_size - 1)
  let inl := inp.length - i
  if 0 < inl then
    match c.do_cipher ctx.cipher_data (inp.take inl) with
    | none => .failed ctx
    | some (d, ys) =>
      if outl + inl ≤ 0x7fffffff then
        .done { ctx with cipher_data := d, buf := inp.drop inl } (outl + inl) (out ++ ys)
      else .overflow
  else .done { ctx with buf := inp.drop inl } outl out

def evpEncryptUpdate : Update σ :=
  let bl := c.block_size
  let i := ctx.buf.length
  if inp = [] then .done ctx 0 []
  else if i = 0 ∧ inp.length &&& (bl - 1) = 0 then
    match c.do_cipher ctx.cipher_data inp with
    | none => .failed ctx
    | some (d, ys) => .done { ctx with cipher_data := d } inp.length ys
  else if i ≠ 0 then
    if bl - i > inp.length then .done { ctx with buf := ctx.buf ++ inp } 0 []
    else
      let j := bl - i
      match c.do_cipher ctx.cipher_data (ctx.buf ++ inp.take j) with
      | none => .failed ctx
      | some (d, ys) => encryptBlocks c { ctx with cipher_data := d } bl ys (inp.drop j)
  else encryptBlocks c ctx 0 [] inp

/-- An `unsigned int` assigned to an `int`. -/
def toInt (n : ℤ) : ℤ := (n + 0x80000000) % 0x100000000 - 0x80000000

/-- `EVP_DecryptUpdate` after `EVP_EncryptUpdate`; `*outl` is computed as an `unsigned int`. -/
def holdBack (ctx' : CipherCtx σ) (outl : ℤ) (out : Bytes) : Update σ :=
  let b := c.block_size
  let held := 1 < b ∧ ctx'.buf = []
  let outl := if held then toInt (outl - b) else outl
  .done { ctx' with final := if held then some ((out.drop outl.toNat).take b) else none }
    (if ctx.final.isSome then toInt (outl + b) else outl)
    (ctx.final.getD [] ++ out.take outl.toNat)

def evpDecryptUpdate : Update σ :=
  if inp = [] then .done ctx 0 []
  else if ctx.no_padding then evpEncryptUpdate c ctx inp
  else
    match evpEncryptUpdate c ctx inp with
    | .done ctx' outl out => holdBack c ctx ctx' outl out
    | r => r

inductive Reachable (c : Cipher σ) : CipherCtx σ → Prop
  | init (d : σ) (no_padding : Bool) : Reachable c ⟨d, [], none, no_padding⟩
  /-- `EVP_CIPHER_CTX_set_padding`, and what changes the cipher's own state. -/
  | set {ctx : CipherCtx σ} (d : σ) (no_padding : Bool) (h : Reachable c ctx) :
    Reachable c { ctx with cipher_data := d, no_padding := no_padding }
  | encrypt {ctx ctx' : CipherCtx σ} (inp : Bytes) (h : Reachable c ctx)
    (hinl : inp.length < 2 ^ 31) (hctx : (evpEncryptUpdate c ctx inp).ctx = some ctx') :
    Reachable c ctx'
  | decrypt {ctx ctx' : CipherCtx σ} (inp : Bytes) (h : Reachable c ctx)
    (hinl : inp.length < 2 ^ 31) (hctx : (evpDecryptUpdate c ctx inp).ctx = some ctx') :
    Reachable c ctx'

/-! ## What is delivered -/

/-- The bytes that were taken and not delivered yet. -/
def CipherCtx.pending : ℕ := ctx.buf.length + (ctx.final.getD []).length

/-- `*outl` is the number of bytes delivered. -/
def Update.Exact : Update σ → Prop
  | .overflow => False
  | .failed _ => True
  | .done _ outl out => outl = out.length

/-- No byte is lost or comes twice. -/
def Update.Conserves : Update σ → Prop
  | .done ctx' _ out => ctx.pending + inp.length = out.length + ctx'.pending
  | _ => True

/-- The bytes in the buffer and those given. -/
abbrev total : ℕ := ctx.buf.length + inp.length

/-- The bytes of their whole blocks. -/
abbrev whole : ℕ := c.block_size * (total ctx inp / c.block_size)

/-- The whole blocks fit into an `int`, and so do they with a block that was held back, unless the
last of them is held back in its place. -/
def DecryptFits : Prop :=
  whole c ctx inp < 2 ^ 31 ∧ (ctx.no_padding = false → ctx.final.isSome →
    total ctx inp % c.block_size ≠ 0 → whole c ctx inp + c.block_size < 2 ^ 31)

structure CipherCtx.Ok : Prop where
  buf : ctx.buf.length < c.block_size
  final : ∀ xs ∈ ctx.final, xs.length = c.block_size ∧ 1 < c.block_size

variable {c ctx inp}

theorem Cipher.block_size_le (c : Cipher σ) : c.block_size ≤ 16 := by
  rcases c.size with h | h | h <;> omega

theorem land_mask (n : ℕ) : n &&& (c.block_size - 1) = n % c.block_size := by
  rcases c.size with h | h | h <;> rw [h]
  · exact Nat.and_two_pow_sub_one_eq_mod n 0
  · exact Nat.and_two_pow_sub_one_eq_mod n 3
  · exact Nat.and_two_pow_sub_one_eq_mod n 4

/-- What `EVP_EncryptUpdate` makes of `m` bytes in whole blocks and `r` bytes behind them. -/
def Update.Meets (c : Cipher σ) (ctx : CipherCtx σ) (r m : ℕ) : Update σ → Prop
  | .overflow => 2 ^ 31 ≤ m
  | .failed ctx' =>
    (∃ d xs, c.do_cipher d xs = none) ∧ ctx'.buf = ctx.buf ∧ ctx'.final = ctx.final
  | .done ctx' outl out => outl = m ∧ out.length = m ∧ m < 2 ^ 31 ∧
    ctx'.buf.length = r ∧ ctx'.final = ctx.final

theorem encryptBlocks_meets (ctx : CipherCtx σ) (inp : Bytes) {k : ℕ} {out : Bytes}
    (hout : out.length = k) (hk : k < 2 ^ 31) :
    (encryptBlocks c ctx k out inp).Meets c ctx (inp.length % c.block_size)
      (k + c.block_size * (inp.length / c.block_size)) := by
  have hdiv := Nat.div_add_mod inp.length c.block_size
  unfold encryptBlocks
  dsimp only
  rw [land_mask]
  generalize c.block_size * (inp.length / c.block_size) = m at hdiv ⊢
  rw [show inp.length - inp.length % c.block_size = m by omega]
  by_cases hm : 0 < m
  · rw [if_pos hm]
    cases hdo : c.do_cipher ctx.cipher_data (inp.take m) with
    | none => exact ⟨⟨_, _, hdo⟩, rfl, rfl⟩
    | some r =>
      have hys := c.length hdo
      rw [length_take] at hys
      dsimp only
      split_ifs with hfit
      · refine ⟨by omega, ?_, by omega, ?_, rfl⟩
        · rw [length_append]
          omega
        · rw [length_drop]
          omega
      · show 2 ^ 31 ≤ k + m
        omega
  · rw [if_neg hm]
    refine ⟨by simp; omega, by omega, by omega, ?_, rfl⟩
    rw [length_drop]
    omega

theorem encryptUpdate_meets (hbuf : ctx.buf.length < c.block_size) (hinl : inp.length < 2 ^ 31) :
    (evpEncryptUpdate c ctx inp).Meets c ctx (total ctx inp % c.block_size) (whole c ctx inp) := by
  have hsize := c.block_size_le
  have hpos : 0 < c.block_size := by omega
  unfold evpEncryptUpdate whole total
  dsimp only
  rw [land_mask]
  split_ifs with hnil hfast hne hshort
  · rw [hnil, length_nil, Nat.add_zero, Nat.div_eq_of_lt hbuf, Nat.mod_eq_of_lt hbuf]
    exact ⟨rfl, rfl, by omega, rfl, rfl⟩
  · rw [hfast.1, Nat.zero_add, Nat.mul_div_cancel' (Nat.dvd_of_mod_eq_zero hfast.2), hfast.2]
    cases hdo : c.do_cipher ctx.cipher_data inp with
    | none => exact ⟨⟨_, _, hdo⟩, rfl, rfl⟩
    | some r => exact ⟨rfl, c.length hdo, hinl, hfast.1, rfl⟩
  · rw [Nat.div_eq_of_lt (by omega), Nat.mod_eq_of_lt (by omega)]
    exact ⟨rfl, rfl, by omega, length_append, rfl⟩
  · cases hdo : c.do_cipher ctx.cipher_data
      (ctx.buf ++ inp.take (c.block_size - ctx.buf.length)) with
    | none => exact ⟨⟨_, _, hdo⟩, rfl, rfl⟩
    | some r =>
      have hys : r.2.length = c.block_size := by
        rw [c.length hdo, length_append, length_take]
        omega
      have h := encryptBlocks_meets (c := c) { ctx with cipher_data := r.1 }
        (inp.drop (c.block_size - ctx.buf.length)) hys (by omega)
      have hlen : ctx.buf.length + inp.length =
          inp.length - (c.block_size - ctx.buf.length) + c.block_size := by omega
      rw [length_drop] at h
      rw [hlen, Nat.add_div_right _ hpos, Nat.add_mod_right, Nat.mul_succ, Nat.add_comm (_ * _)]
      exact h
  · have h := encryptBlocks_meets (c := c) ctx inp length_nil (by omega)
    have hzero : ctx.buf.length = 0 := not_not.mp hne
    rw [Nat.zero_add] at h
    rw [hzero, Nat.zero_add]
    exact h

/-- A call is exact if its count fits, and only then unless it fails. -/
structure Update.Ends (c : Cipher σ) (ctx : CipherCtx σ) (inp : Bytes) (fits : Prop)
    (r : Update σ) : Prop where
  exact_of_fits : fits → r.Exact
  fits_of_exact : (∀ d xs, c.do_cipher d xs ≠ none) → r.Exact → fits
  conserves : r.Conserves ctx inp
  ok : ∀ ctx' ∈ r.ctx, ctx'.Ok c

theorem evpEncryptUpdate_ends (h : ctx.Ok c) (hinl : inp.length < 2 ^ 31) :
    (evpEncryptUpdate c ctx inp).Ends c ctx inp (whole c ctx inp < 2 ^ 31) := by
  have hdiv := Nat.div_add_mod (total ctx inp) c.block_size
  have hpos := Nat.zero_lt_of_lt h.buf
  have hmeets := encryptUpdate_meets h.buf hinl
  generalize evpEncryptUpdate c ctx inp = r at hmeets ⊢
  cases r with
  | overflow =>
    exact ⟨fun hfit => Nat.not_lt.mpr hmeets hfit, fun _ => False.elim, trivial, by rintro _ ⟨⟩⟩
  | failed ctx' =>
    obtain ⟨⟨d, xs, hdo⟩, hbuf, hfinal⟩ := hmeets
    refine ⟨fun _ => trivial, fun htotal => absurd hdo (htotal d xs), trivial, ?_⟩
    rintro _ ⟨⟩
    exact ⟨hbuf ▸ h.buf, hfinal ▸ h.final⟩
  | done ctx' outl out =>
    obtain ⟨houtl, hout, hfit, hbuf, hfinal⟩ := hmeets
    refine ⟨fun _ => houtl.trans (by rw [hout]), fun _ _ => hfit, ?_, ?_⟩
    · simp only [Update.Conserves, CipherCtx.pending, whole, total] at hdiv hout hbuf ⊢
      rw [hfinal]
      omega
    · rintro _ ⟨⟩
      exact ⟨hbuf ▸ Nat.mod_lt _ hpos, hfinal ▸ h.final⟩

theorem toInt_eq {n : ℤ} (h : 0 ≤ n) (hn : n < 0x100000000) : toInt n = n ↔ n ≤ 0x7fffffff := by
  unfold toInt
  omega

theorem holdBack_ends {ctx' : CipherCtx σ} {outl : ℤ} {out : Bytes} (h : ctx.Ok c)
    (hpad : ctx.no_padding = false) (hne : inp ≠ [])
    (hmeets : (Update.done ctx' outl out).Meets c ctx (total ctx inp % c.block_size)
      (whole c ctx inp)) :
    (holdBack c ctx ctx' outl out).Ends c ctx inp (DecryptFits c ctx inp) := by
  have hdiv := Nat.div_add_mod (total ctx inp) c.block_size
  have hsize := c.block_size_le
  have hlt := Nat.mod_lt (total ctx inp) (Nat.zero_lt_of_lt h.buf)
  have hinp := length_pos_of_ne_nil hne
  obtain ⟨rfl, hout, hfit, hbuf, -⟩ := hmeets
  -- `o` bytes are delivered of the new ones, and the rest is held back.
  have hgo {o : ℕ} {final : Option Bytes} (ho : o + (final.getD []).length = whole c ctx inp)
      (hfinal : ∀ xs ∈ final, xs.length = c.block_size ∧ 1 < c.block_size)
      (hfits : 1 < c.block_size → (o + c.block_size < 2 ^ 31 ↔
        (total ctx inp % c.block_size ≠ 0 → whole c ctx inp + c.block_size < 2 ^ 31))) :
      Update.Ends c ctx inp (DecryptFits c ctx inp) (.done { ctx' with final := final }
        (if ctx.final.isSome then toInt (o + c.block_size) else o)
        (ctx.final.getD [] ++ out.take o)) := by
    have hok : CipherCtx.Ok c { ctx' with final := final } := ⟨by rw [hbuf]; exact hlt, hfinal⟩
    have hpending : ctx.buf.length + inp.length =
        o + (total ctx inp % c.block_size + (final.getD []).length) := by
      unfold whole total at *
      omega
    have hlen : (out.take o).length = o := by rw [length_take]; omega
    refine ⟨Iff.mpr ?iff, fun _ => Iff.mp ?iff, ?conserves, by rintro _ ⟨⟩; exact hok⟩
    case conserves =>
      simp only [Update.Conserves, CipherCtx.pending, hbuf, length_append, hlen]
      omega
    simp only [DecryptFits, Update.Exact, hpad, length_append, hlen]
    cases hused : ctx.final with
    | none =>
      simp
      omega
    | some xs =>
      obtain ⟨hxs, hb⟩ := h.final xs hused
      have hint := toInt_eq (n := o + c.block_size) (by omega) (by omega)
      simp only [Option.isSome_some, Option.getD_some, if_true, hxs, forall_const]
      rw [← hfits hb, and_iff_right hfit, Nat.add_comm, Nat.cast_add, hint]
      omega
  unfold holdBack
  dsimp only
  by_cases hheld : 1 < c.block_size ∧ ctx'.buf = []
  · have hzero : total ctx inp % c.block_size = 0 := by rw [← hbuf, hheld.2]; rfl
    have hle : c.block_size ≤ whole c ctx inp :=
      Nat.le_of_dvd (by unfold whole total at *; omega) (Nat.dvd_mul_right ..)
    rw [if_pos hheld, if_pos hheld, (toInt_eq (by omega) (by omega)).mpr (by omega),
      show (whole c ctx inp : ℤ) - c.block_size = (whole c ctx inp - c.block_size : ℕ) by omega]
    refine hgo ?_ ?_ fun _ => ?_
    · simp [hout]
      omega
    · rintro _ ⟨⟩
      refine ⟨?_, hheld.1⟩
      simp [hout]
      omega
    · omega
  · rw [if_neg hheld, if_neg hheld]
    refine hgo rfl (by rintro _ ⟨⟩) fun hb => ?_
    have hne : ctx'.buf ≠ [] := fun hnil => hheld ⟨hb, hnil⟩
    have := length_pos_of_ne_nil hne
    omega

theorem evpDecryptUpdate_ends (h : ctx.Ok c) (hinl : inp.length < 2 ^ 31) :
    (evpDecryptUpdate c ctx inp).Ends c ctx inp (DecryptFits c ctx inp) := by
  have hends := evpEncryptUpdate_ends h hinl
  have hmeets := encryptUpdate_meets h.buf hinl
  have hdiv := Nat.div_add_mod (total ctx inp) c.block_size
  have hsize := c.block_size_le
  have hbuf := h.buf
  unfold evpDecryptUpdate DecryptFits
  split_ifs with hnil hpad
  · subst hnil
    have hzero : whole c ctx [] = 0 := by
      rw [whole, total, length_nil, Nat.add_zero, Nat.div_eq_of_lt h.buf, Nat.mul_zero]
    rw [hzero]
    refine ⟨fun _ => rfl, fun _ _ => ⟨by omega, fun _ _ _ => by omega⟩, Nat.add_comm .., ?_⟩
    rintro _ ⟨⟩
    exact h
  · rw [hpad]
    exact ⟨fun hfit => hends.exact_of_fits hfit.1,
      fun htotal he => ⟨hends.fits_of_exact htotal he, by rintro ⟨⟩⟩, hends.conserves, hends.ok⟩
  · generalize evpEncryptUpdate c ctx inp = r at hends hmeets ⊢
    cases r with
    | overflow =>
      exact ⟨fun hfit => hends.exact_of_fits hfit.1, fun _ => False.elim, trivial, hends.ok⟩
    | failed ctx' =>
      obtain ⟨⟨d, xs, hdo⟩, -, -⟩ := hmeets
      exact ⟨fun _ => trivial, fun htotal => absurd hdo (htotal d xs), trivial, hends.ok⟩
    | done ctx' outl out =>
      exact holdBack_ends h (eq_false_of_ne_true hpad) hnil hmeets

theorem Reachable.ok (h : Reachable c ctx) : ctx.Ok c := by
  induction h with
  | init =>
    refine ⟨?_, by rintro _ ⟨⟩⟩
    rcases c.size with h | h | h <;> simp [h]
  | set _ _ _ ih => exact ⟨ih.buf, ih.final⟩
  | encrypt inp _ hinl hctx ih => exact (evpEncryptUpdate_ends ih hinl).ok _ hctx
  | decrypt inp _ hinl hctx ih => exact (evpDecryptUpdate_ends ih hinl).ok _ hctx

/-- `*outl` is exact and does not overflow if the count fits, and otherwise it is not, unless
`do_cipher` fails; no byte is lost in either case. -/
theorem update_lengths_iff (h : Reachable c ctx) (hinl : inp.length < 2 ^ 31) :
    ((whole c ctx inp < 2 ^ 31 → (evpEncryptUpdate c ctx inp).Exact) ∧
      (DecryptFits c ctx inp → (evpDecryptUpdate c ctx inp).Exact)) ∧
    ((∀ d xs, c.do_cipher d xs ≠ none) →
      ((evpEncryptUpdate c ctx inp).Exact ↔ whole c ctx inp < 2 ^ 31) ∧
      ((evpDecryptUpdate c ctx inp).Exact ↔ DecryptFits c ctx inp)) ∧
    (evpEncryptUpdate c ctx inp).Conserves ctx inp ∧
      (evpDecryptUpdate c ctx inp).Conserves ctx inp := by
  have hencrypt := evpEncryptUpdate_ends h.ok hinl
  have hdecrypt := evpDecryptUpdate_ends h.ok hinl
  refine ⟨⟨hencrypt.exact_of_fits, hdecrypt.exact_of_fits⟩, fun htotal => ?_,
    hencrypt.conserves, hdecrypt.conserves⟩
  exact ⟨⟨hencrypt.fits_of_exact htotal, hencrypt.exact_of_fits⟩,
    ⟨hdecrypt.fits_of_exact htotal, hdecrypt.exact_of_fits⟩⟩

/-- A cipher with blocks of 16 bytes that changes nothing. -/
def plain : Cipher Unit where
  block_size := 16
  do_cipher _ xs := some ((), xs)
  size := .inr (.inr rfl)
  length h := by cases h; rfl

def fifteen : CipherCtx Unit := ⟨(), replicate 15 0, none, false⟩

theorem fifteen_reachable : Reachable plain fifteen :=
  .encrypt (replicate 15 0) (.init () false) (by decide) rfl

theorem update_lengths_one : (evpDecryptUpdate plain fifteen [0]).Exact :=
  (update_lengths_iff fifteen_reachable (by decide)).1.2
    ⟨by decide, fun _ h => absurd h (by decide)⟩

theorem fifteen_overflows (h : inp.length = 0x7fffffff) :
    evpEncryptUpdate plain fifteen inp = .overflow := by
  have hmeets := encryptUpdate_meets fifteen_reachable.ok.buf (show inp.length < 2 ^ 31 by omega)
  have hwhole : whole plain fifteen inp = 2 ^ 31 := by
    simp [whole, total, plain, fifteen, h]
  rw [hwhole] at hmeets
  generalize evpEncryptUpdate plain fifteen inp = r at hmeets ⊢
  cases r with
  | overflow => rfl
  | failed ctx =>
    obtain ⟨⟨d, xs, hdo⟩, -⟩ := hmeets
    cases hdo
  | done ctx outl out => exact absurd hmeets.2.2.1 (Nat.lt_irrefl _)

/-- 15 bytes are held, and `INT_MAX` more come. -/
theorem update_length_overflows : Reachable plain fifteen ∧
    evpEncryptUpdate plain fifteen (replicate 0x7fffffff 0) = .overflow :=
  ⟨fifteen_reachable, fifteen_overflows length_replicate⟩

end VigorTls.Evp
