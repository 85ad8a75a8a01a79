import Mathlib.Data.List.GetD
import Mathlib.Data.Nat.ModEq
import VigorTls.Record.ConstantTime

/-!
# Padding and MAC without branches

* `tls1CbcRemovePadding_eq`: the padding is taken off when `PaddingAccepted` holds, and the record
  is refused otherwise. The loop stops after 255 bytes, so for padding of 256 bytes the first of
  them can be anything.
* `ssl3CbcCopyMac_eq`: what is copied are the bytes in front of the end of the data. The scan writes
  the MAC rotated (`Scanned`), by the offset that `reduceOffset_eq` says is a remainder.
-/

namespace VigorTls.Record

open List Nat UInt32 UInt8

/-! ## Padding -/

theorem and_ff_eq_ff_iff (g : UInt32) : g &&& 0xff = 0xff ↔ g.toUInt8 = 0xff := by
  have h : (g &&& 0xff).toNat = g.toNat % 2 ^ 8 := by
    exact and_two_pow_sub_one_eq_mod g.toNat 8
  have h' : g.toUInt8.toNat = g.toNat % 2 ^ 8 := toNat_toUInt8 g
  rw [← UInt32.toNat_inj, ← UInt8.toNat_inj, h]
  rfl

theorem foldl_good (m : ℕ → UInt32) (is : List ℕ) (g : UInt32) :
    (is.foldl (fun g i => g &&& ~~~ m i) g).toUInt8 = 0xff ↔
      g.toUInt8 = 0xff ∧ ∀ i ∈ is, (m i).toUInt8 = 0 := by
  induction is generalizing g with
  | nil => simp
  | cons i is ih =>
    have hstep : (g &&& ~~~ m i).toUInt8 = 0xff ↔ g.toUInt8 = 0xff ∧ (m i).toUInt8 = 0 := by
      rw [toUInt8_and, toUInt8_not]
      refine UInt8.and_eq_neg_one_iff.trans (and_congr_right fun _ => ?_)
      exact UInt8.not_eq_comm
    rw [foldl_cons, ih, hstep, and_assoc, forall_mem_cons]

variable (data : Bytes)

/-- The overhead and the padding are inside, and those of the last 255 bytes that are padding have
its value. -/
def PaddingAccepted (length mac_size : ℕ) : Prop :=
  1 + mac_size + (data.getD (length - 1) 0).toNat ≤ length ∧
    ∀ i < min 255 (length - 1), i ≤ (data.getD (length - 1) 0).toNat →
      data.getD (length - 1 - i) 0 = data.getD (length - 1) 0

instance (length mac_size : ℕ) :
    Decidable (PaddingAccepted data length mac_size) :=
  inferInstanceAs (Decidable (_ ∧ _))

def Rec.skipIv (r : Rec) (explicit_iv : Bool) (block_size : ℕ) : Rec :=
  if explicit_iv then
    { r with data := r.data.drop block_size, length := r.length - block_size }
  else r

theorem toNat_overhead {mac_size : ℕ} (hmac : 1 + mac_size + 255 < 2 ^ 32) (b : UInt8) :
    (UInt32.ofNat (1 + mac_size) + b.toUInt32).toNat = 1 + mac_size + b.toNat := by
  have hb := b.toNat_lt
  rw [UInt32.toNat_add, toNat_toUInt32, UInt32.toNat_ofNat_of_lt' (by
    show 1 + mac_size < 2 ^ 32
    omega)]
  omega

theorem good_eq {data : Bytes} {length mac_size : ℕ} (hlen : length < 2 ^ 32)
    (hmac : 1 + mac_size + 255 < 2 ^ 32) :
    constantTimeEq 0xff
      ((range (if 255 > length - 1 then length - 1 else 255)).foldl (fun good i =>
        let mask := constantTimeGe8 (data.getD (length - 1) 0).toUInt32 (.ofNat i)
        let b := data.getD (length - 1 - i) 0
        good &&& ~~~(mask.toUInt32 &&& ((data.getD (length - 1) 0).toUInt32 ^^^ b.toUInt32)))
        (constantTimeGe (.ofNat length)
          (.ofNat (1 + mac_size) + (data.getD (length - 1) 0).toUInt32)) &&& 0xff) =
      mask (PaddingAccepted data length mac_size) := by
  have hto_check : (if 255 > length - 1 then length - 1 else 255) = min 255 (length - 1) := by
    split <;> omega
  rw [constantTimeEq_eq, hto_check]
  refine mask_congr (eq_comm.trans ((and_ff_eq_ff_iff _).trans ?_))
  refine (foldl_good _ _ _).trans (and_congr ?_ ?_)
  · -- The overhead and the padding are inside.
    rw [constantTimeGe_eq, toUInt8_mask, mask8_eq_ff_iff, UInt32.le_iff_toNat_le,
      toNat_overhead hmac, UInt32.toNat_ofNat_of_lt' hlen]
  -- And the bytes have the right value.
  refine forall_congr' fun i => ?_
  rw [mem_range]
  refine imp_congr_right fun hi => ?_
  have hge : constantTimeGe8 (data.getD (length - 1) 0).toUInt32 (.ofNat i) =
      mask8 (i ≤ (data.getD (length - 1) 0).toNat) := by
    rw [constantTimeGe8_eq]
    refine if_congr ?_ rfl rfl
    rw [UInt32.le_iff_toNat_le, toNat_toUInt32,
      UInt32.toNat_ofNat_of_lt' (show i < 2 ^ 32 by omega)]
  simp only [hge, toUInt8_and, toUInt8_xor, toUInt8_toUInt32]
  rw [UInt8.and_comm, and_mask8]
  split_ifs with h
  · rw [UInt8.xor_eq_zero_iff]
    exact ⟨fun heq _ => heq.symm, fun heq => (heq h).symm⟩
  · exact iff_of_true rfl fun h' => absurd h' h

theorem constantTimeSelectInt_mask (c : Prop) [Decidable c] :
    constantTimeSelectInt (mask c) 1 (-1) = if c then 1 else -1 := by
  rw [constantTimeSelectInt, constantTimeSelect_eq]
  split_ifs with h <;> rfl

theorem tls1CbcRemovePadding_eq {explicit_iv : Bool} {r : Rec} {block_size mac_size : ℕ}
    (hlen : r.length + 255 < 2 ^ 32)
    (hover : 1 + mac_size + (if explicit_iv then block_size else 0) ≤ r.length) :
    tls1CbcRemovePadding explicit_iv false r block_size mac_size =
      let r := r.skipIv explicit_iv block_size
      let padding_length := (r.data.getD (r.length - 1) 0).toNat
      if PaddingAccepted r.data r.length mac_size then
        (1, { r with type := r.type ||| (padding_length + 1) <<< 8,
                     length := r.length - (padding_length + 1) })
      else (-1, r) := by
  have hlong : ¬ (if explicit_iv then 1 + mac_size + block_size else 1 + mac_size) > r.length := by
    cases explicit_iv <;> simpa using hover
  have hlen' : (r.skipIv explicit_iv block_size).length < 2 ^ 32 := by
    cases explicit_iv
    · exact Nat.lt_of_le_of_lt (Nat.le_add_right ..) hlen
    · exact Nat.lt_of_le_of_lt ((sub_le ..).trans (Nat.le_add_right ..)) hlen
  have hmac : 1 + mac_size + 255 < 2 ^ 32 := by omega
  rw [tls1CbcRemovePadding]
  simp only [if_neg hlong]
  rw [← Rec.skipIv]
  generalize r.skipIv explicit_iv block_size = r at hlen' ⊢
  have hb := (r.data.getD (r.length - 1) 0).toNat_lt
  have hgood := @good_eq r.data r.length mac_size hlen' hmac
  rw [if_neg Bool.false_ne_true, hgood, constantTimeSelectInt_mask, mask_and]
  by_cases h : PaddingAccepted r.data r.length mac_size
  · have hpad : ((r.data.getD (r.length - 1) 0).toUInt32 + 1).toNat =
        (r.data.getD (r.length - 1) 0).toNat + 1 := by
      rw [UInt32.toNat_add, toNat_toUInt32]
      show (_ + 1) % 2 ^ 32 = _
      omega
    simp only [if_pos h, hpad]
  · have htype : r.type ||| UInt32.toNat 0 <<< 8 = r.type := or_zero r.type
    simp only [if_neg h, htype]
    rfl

/-- Padding that is right in all of its bytes. -/
def PaddingValid (length mac_size : ℕ) : Prop :=
  1 + mac_size + (data.getD (length - 1) 0).toNat ≤ length ∧
    ∀ i < (data.getD (length - 1) 0).toNat + 1,
      data.getD (length - 1 - i) 0 = data.getD (length - 1) 0

instance (length mac_size : ℕ) :
    Decidable (PaddingValid data length mac_size) :=
  inferInstanceAs (Decidable (_ ∧ _))

theorem paddingValid_iff {data : Bytes} {length mac_size : ℕ} :
    PaddingValid data length mac_size ↔ PaddingAccepted data length mac_size ∧
      data.getD (length - 1 - (data.getD (length - 1) 0).toNat) 0 = data.getD (length - 1) 0 := by
  have hb := (data.getD (length - 1) 0).toNat_lt
  constructor
  · rintro ⟨hfits, hbytes⟩
    exact ⟨⟨hfits, fun i _ hi => hbytes i (lt_succ_of_le hi)⟩, hbytes _ (lt_succ_self _)⟩
  rintro ⟨⟨hfits, hbytes⟩, hfirst⟩
  refine ⟨hfits, fun i hi => ?_⟩
  by_cases hseen : i < min 255 (length - 1)
  · exact hbytes i hseen (le_of_lt_succ hi)
  · obtain rfl : i = (data.getD (length - 1) 0).toNat := by omega
    exact hfirst

/-- `tls1_cbc_remove_padding` says of a record what `PaddingValid` says, and shortens it by the
padding then, exactly when the first byte of padding that it accepts is right too. -/
theorem remove_padding_iff {explicit_iv : Bool} {r : Rec} {block_size mac_size : ℕ}
    (hlen : r.length + 255 < 2 ^ 32)
    (hover : 1 + mac_size + (if explicit_iv then block_size else 0) ≤ r.length) :
    let out := tls1CbcRemovePadding explicit_iv false r block_size mac_size
    let r := r.skipIv explicit_iv block_size
    let padding_length := (r.data.getD (r.length - 1) 0).toNat
    ((out.1 = 1 ↔ PaddingValid r.data r.length mac_size) ∧
        out.2.length = r.length -
          if PaddingValid r.data r.length mac_size then padding_length + 1 else 0) ↔
      (PaddingAccepted r.data r.length mac_size →
        r.data.getD (r.length - 1 - padding_length) 0 = r.data.getD (r.length - 1) 0) := by
  have heq := tls1CbcRemovePadding_eq hlen hover
  rw [heq]
  generalize r.skipIv explicit_iv block_size = r
  have hvalid := @paddingValid_iff r.data r.length mac_size
  by_cases h : PaddingAccepted r.data r.length mac_size
  · simp only [if_pos h, true_iff]
    by_cases hfirst : r.data.getD (r.length - 1 - (r.data.getD (r.length - 1) 0).toNat) 0 =
        r.data.getD (r.length - 1) 0
    · have hvalid := hvalid.mpr ⟨h, hfirst⟩
      rw [if_pos hvalid]
      exact iff_of_true ⟨hvalid, rfl⟩ fun _ => hfirst
    · exact iff_of_false (fun hout => hfirst (hvalid.mp hout.1).2) fun hall => hfirst (hall h)
  · have hinvalid : ¬ PaddingValid r.data r.length mac_size := fun h' => h (hvalid.mp h').1
    simp only [if_neg h, if_neg hinvalid]
    exact iff_of_true ⟨iff_of_false (by decide) hinvalid, rfl⟩ fun h' => absurd h' h

/-- An IV, a byte of data, a MAC of two bytes, and padding that has three bytes. -/
theorem remove_padding_iff_three :
    let r : Rec := ⟨23, [1, 1, 7, 8, 8, 2, 2, 2], 8⟩
    ((tls1CbcRemovePadding true false r 2 2).1 = 1 ↔ PaddingValid [7, 8, 8, 2, 2, 2] 6 2) ∧
      (tls1CbcRemovePadding true false r 2 2).2.length = 3 :=
  (@remove_padding_iff true ⟨23, [1, 1, 7, 8, 8, 2, 2, 2], 8⟩ 2 2 (by decide) (by decide)).mpr
    fun _ => by decide

/-- Padding of 256 bytes is accepted although its first byte is wrong. -/
theorem remove_padding_misses_first :
    let r : Rec := ⟨23, replicate 21 0 ++ replicate 255 255, 276⟩
    (tls1CbcRemovePadding false false r 16 20).1 = 1 ∧ ¬ PaddingValid r.data r.length 20 := by
  decide +kernel

/-! ## The MAC -/

/-- The sizes that `ssl3_cbc_copy_mac` has a reduction for. -/
def MacSize (md_size : ℕ) : Prop := md_size ∈ [16, 20, 32, 48]

instance (md_size : ℕ) : Decidable (MacSize md_size) :=
  inferInstanceAs (Decidable (md_size ∈ [16, 20, 32, 48]))

variable {md_size : ℕ}

theorem MacSize.cases (h : MacSize md_size) :
    md_size = 16 ∨ md_size = 20 ∨ md_size = 32 ∨ md_size = 48 := by
  simpa [MacSize] using h

theorem reduceOffset_eq (h : MacSize md_size) {x : ℕ} (hx : x < 257) :
    reduceOffset md_size (.ofNat x) = some (.ofNat (x % md_size)) := by
  have h16 : ∀ x < 257, reduceOffset 16 (.ofNat x) = some (.ofNat (x % 16)) := by decide +kernel
  have h20 : ∀ x < 257, reduceOffset 20 (.ofNat x) = some (.ofNat (x % 20)) := by decide +kernel
  have h32 : ∀ x < 257, reduceOffset 32 (.ofNat x) = some (.ofNat (x % 32)) := by decide +kernel
  have h48 : ∀ x < 257, reduceOffset 48 (.ofNat x) = some (.ofNat (x % 48)) := by decide +kernel
  obtain rfl | rfl | rfl | rfl := h.cases
  · exact h16 x hx
  · exact h20 x hx
  · exact h32 x hx
  · exact h48 x hx

theorem next_index {j : ℕ} (hj : j < md_size) (hmd : md_size ≤ 64) :
    (UInt32.ofNat (j + 1) &&& constantTimeLt (.ofNat (j + 1)) (.ofNat md_size)).toNat =
      (j + 1) % md_size := by
  have hlt : UInt32.ofNat (j + 1) < UInt32.ofNat md_size ↔ j + 1 < md_size := by
    rw [UInt32.lt_iff_toNat_lt, UInt32.toNat_ofNat_of_lt' (show j + 1 < 2 ^ 32 by omega),
      UInt32.toNat_ofNat_of_lt' (show md_size < 2 ^ 32 by omega)]
  rw [constantTimeLt_eq, UInt32.and_comm, mask_and]
  by_cases h : j + 1 < md_size
  · rw [if_pos (hlt.mpr h), UInt32.toNat_ofNat_of_lt' (show j + 1 < 2 ^ 32 by omega),
      mod_eq_of_lt h]
  · obtain rfl : md_size = j + 1 := by omega
    rw [if_neg (fun h' => h (hlt.mp h')), mod_self]
    rfl

/-- What the scan has collected after `n` bytes: those of the MAC, each at its offset from
`scan_start` modulo the size. -/
structure Scanned (md_size scan_start off n : ℕ) (s : Bytes × ℕ) :
    Prop where
  length : s.1.length = md_size
  index : s.2 = n % md_size
  bytes : ∀ t < md_size, s.1.getD ((off + t) % md_size) 0 =
    if off + t < n then data.getD (scan_start + off + t) 0 else 0

def scanStep (md_size : ℕ) (mac_start mac_end : UInt32) (s : Bytes × ℕ) (i : ℕ) : Bytes × ℕ :=
  let mac_started := constantTimeGe8 (.ofNat i) mac_start
  let mac_ended := constantTimeGe8 (.ofNat i) mac_end
  let b := data.getD i 0
  let mac := s.1.modify s.2 fun m => m ||| (b &&& mac_started &&& ~~~mac_ended)
  let j := s.2 + 1
  (mac, (UInt32.ofNat j &&& constantTimeLt (.ofNat j) (.ofNat md_size)).toNat)

theorem getD_modify {α : Type} (xs : List α) (f : α → α) {j p : ℕ} (d : α) (hp : p < xs.length) :
    (xs.modify j f).getD p d = if p = j then f (xs.getD p d) else xs.getD p d := by
  rw [getD_eq_getElem _ _ (by rwa [length_modify]), getElem_modify, getD_eq_getElem _ _ hp]
  exact if_congr eq_comm rfl rfl

theorem Scanned.step {data : Bytes} {scan_start off n : ℕ} {s : Bytes × ℕ}
    (hmd : 0 < md_size) (hmd' : md_size ≤ 64) (hn : scan_start + n < 2 ^ 32)
    (hoff : scan_start + off + md_size < 2 ^ 32) (h : Scanned data md_size scan_start off n s) :
    Scanned data md_size scan_start off (n + 1)
      (scanStep data md_size (.ofNat (scan_start + off)) (.ofNat (scan_start + off + md_size)) s
        (scan_start + n)) := by
  have hindex : s.2 < md_size := by
    rw [h.index]
    exact mod_lt _ hmd
  -- The byte counts if it belongs to the MAC.
  have hbyte : data.getD (scan_start + n) 0 &&&
        constantTimeGe8 (.ofNat (scan_start + n)) (.ofNat (scan_start + off)) &&&
        ~~~constantTimeGe8 (.ofNat (scan_start + n)) (.ofNat (scan_start + off + md_size)) =
      if off ≤ n ∧ n < off + md_size then data.getD (scan_start + n) 0 else 0 := by
    rw [ge8_ofNat hn (by omega), ge8_ofNat hn hoff, not_mask8, UInt8.and_assoc, mask8_and_mask8,
      and_mask8]
    exact if_congr (by omega) rfl rfl
  refine ⟨?_, ?_, fun t ht => ?_⟩
  · simp only [scanStep, length_modify]
    exact h.length
  · simp only [scanStep]
    rw [next_index hindex hmd', h.index, mod_add_mod]
  have hp : (off + t) % md_size < s.1.length := by
    rw [h.length]
    exact mod_lt _ hmd
  simp only [scanStep, hbyte]
  rw [getD_modify _ _ _ hp, h.bytes t ht, h.index]
  by_cases hsame : (off + t) % md_size = n % md_size
  · rw [if_pos hsame]
    by_cases hwindow : off ≤ n ∧ n < off + md_size
    · -- The offsets of the MAC are different modulo its size.
      obtain ⟨t', rfl⟩ := Nat.exists_eq_add_of_le hwindow.1
      have heq : t = t' := by
        have hmod : t % md_size = t' % md_size := ModEq.add_left_cancel' off hsame
        rwa [mod_eq_of_lt ht, mod_eq_of_lt (by omega)] at hmod
      rw [if_neg (by omega), if_pos hwindow, if_pos (by omega), UInt8.zero_or, heq, Nat.add_assoc]
    · rw [if_neg hwindow, UInt8.or_zero]
      exact if_congr (by omega) rfl rfl
  · have hne : off + t ≠ n := fun heq => hsame (heq ▸ rfl)
    rw [if_neg hsame]
    exact if_congr (by omega) rfl rfl

theorem Scanned.run {data : Bytes} {md_size scan_start off : ℕ} (hmd : 0 < md_size)
    (hmd' : md_size ≤ 64) (hoff : scan_start + off + md_size < 2 ^ 32) (n : ℕ)
    (hn : scan_start + n < 2 ^ 32) :
    Scanned data md_size scan_start off n ((range' scan_start n).foldl
      (scanStep data md_size (.ofNat (scan_start + off)) (.ofNat (scan_start + off + md_size)))
      (replicate md_size 0, 0)) := by
  induction n with
  | zero =>
    refine ⟨length_replicate .., (zero_mod _).symm, fun t _ => ?_⟩
    simp
  | succ n ih =>
    rw [range'_1_concat, foldl_append]
    exact (ih (by omega)).step hmd hmd' (by omega) hoff

theorem foldl_rotate (mac : Bytes) (hmd : 0 < md_size) (hmd' : md_size ≤ 64) (off n : ℕ) :
    (range n).foldl (fun (s : Bytes × UInt32) _ =>
      let out := s.1 ++ [mac.getD s.2.toNat 0]
      let rotate_offset := s.2 + 1
      (out, rotate_offset &&& constantTimeLt rotate_offset (.ofNat md_size)))
      ([], .ofNat (off % md_size)) =
    ((range n).map fun t => mac.getD ((off + t) % md_size) 0,
      .ofNat ((off + n) % md_size)) := by
  induction n with
  | zero => rfl
  | succ n ih =>
    have hlt := mod_lt (off + n) hmd
    have hnat : (UInt32.ofNat ((off + n) % md_size)).toNat = (off + n) % md_size :=
      UInt32.toNat_ofNat_of_lt' (show _ < 2 ^ 32 by omega)
    have hnext : UInt32.ofNat ((off + n) % md_size) + 1 &&&
        constantTimeLt (UInt32.ofNat ((off + n) % md_size) + 1) (.ofNat md_size) =
        .ofNat ((off + (n + 1)) % md_size) := by
      have hsucc : UInt32.ofNat ((off + n) % md_size) + 1 = .ofNat ((off + n) % md_size + 1) :=
        (UInt32.ofNat_add ..).symm
      rw [hsucc, ← UInt32.toNat_inj, next_index hlt hmd', mod_add_mod,
        UInt32.toNat_ofNat_of_lt' (show _ < 2 ^ 32 by
          have := mod_lt (off + (n + 1)) hmd
          omega)]
      rfl
    rw [range_succ, foldl_append, ih]
    simp only [foldl_cons, foldl_nil, hnat, hnext, map_append, map_cons, map_nil]

theorem ssl3CbcCopyMac_eq {r : Rec} {orig_len : ℕ} (hmd : MacSize md_size)
    (hmac : md_size ≤ r.length) (hle : r.length ≤ orig_len) (hpad : orig_len ≤ r.length + 256)
    (hlen : orig_len < 2 ^ 32) :
    ssl3CbcCopyMac r md_size orig_len =
      some ((range md_size).map fun t => r.data.getD (r.length - md_size + t) 0) := by
  have hpos : 0 < md_size ∧ md_size ≤ 64 := by
    obtain rfl | rfl | rfl | rfl := hmd.cases <;> omega
  obtain ⟨scan_start, hscan⟩ : ∃ scan_start, scan_start =
      if orig_len > md_size + 255 + 1 then orig_len - (md_size + 255 + 1) else 0 := ⟨_, rfl⟩
  -- The MAC starts at most 256 bytes after the scan.
  have hbounds : scan_start ≤ r.length - md_size ∧ r.length - md_size < scan_start + 257 ∧
      scan_start ≤ orig_len := by
    rw [hscan]
    split <;> omega
  obtain ⟨off, hoff⟩ := Nat.exists_eq_add_of_le hbounds.1
  have hstart : UInt32.ofNat r.length - UInt32.ofNat md_size = .ofNat (scan_start + off) := by
    rw [← UInt32.ofNat_sub hmac, hoff]
  have hend : UInt32.ofNat r.length = .ofNat (scan_start + off + md_size) := by
    rw [← hoff, Nat.sub_add_cancel hmac]
  have hrotate : UInt32.ofNat (scan_start + off) - UInt32.ofNat scan_start = .ofNat off := by
    rw [← UInt32.ofNat_sub (Nat.le_add_right ..), Nat.add_sub_cancel_left]
  have hrun := @Scanned.run r.data md_size scan_start off hpos.1 hpos.2 (by omega)
    (orig_len - scan_start) (by omega)
  rw [ssl3CbcCopyMac]
  simp only [← hscan, hstart, hrotate, reduceOffset_eq hmd (show off < 257 by omega)]
  simp only [hend]
  rw [if_neg (by omega)]
  refine congrArg some ?_
  refine (congrArg Prod.fst (foldl_rotate _ hpos.1 hpos.2 off md_size)).trans ?_
  refine map_congr_left fun t ht => ?_
  have ht := mem_range.mp ht
  rw [hoff]
  refine (hrun.bytes t ht).trans (if_pos (by omega))

/-- The MAC that is copied is that in front of the end of the data, wherever the end is. -/
theorem copy_mac_extracts {r : Rec} {md_size orig_len : ℕ} (hmd : MacSize md_size)
    (hmac : md_size ≤ r.length) (hle : r.length ≤ orig_len) (hpad : orig_len ≤ r.length + 256)
    (hlen : orig_len < 2 ^ 32) (hdata : orig_len ≤ r.data.length) :
    ssl3CbcCopyMac r md_size orig_len =
      some ((r.data.drop (r.length - md_size)).take md_size) := by
  rw [ssl3CbcCopyMac_eq hmd hmac hle hpad hlen]
  refine congrArg some (ext_getElem (by simp; omega) fun t ht _ => ?_)
  have hlt : r.length - md_size + t < r.data.length := by
    rw [length_map, length_range] at ht
    omega
  rw [getElem_map, getElem_range, getElem_take, getElem_drop, getD_eq_getElem _ _ hlt]

/-- The MAC of 16 bytes behind one byte of data, in front of one byte of padding. -/
theorem copy_mac_extracts_md5 :
    let r : Rec := ⟨23, 5 :: replicate 16 9 ++ [0], 17⟩
    MacSize 16 ∧ ssl3CbcCopyMac r 16 18 = some (replicate 16 9) :=
  ⟨by decide, copy_mac_extracts (r := ⟨23, 5 :: replicate 16 9 ++ [0], 17⟩) (by decide)
    (by decide) (by decide) (by decide) (by decide) (by decide)⟩

end VigorTls.Record
