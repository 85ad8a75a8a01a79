import VigorTls.Lib.Run
import VigorTls.Lib.Window
import VigorTls.Pqueue

/-!
# The DTLS anti-replay window

`dtls1_record_replay_check` and `dtls1_record_bitmap_update` of `ssl/d1_pkt.c`, with `satsub64be`,
which computes the difference of two numbers cut off at ±128. The window refines `Lib.Tracks`: bit
`i` of `map` is set exactly when the record `max_seq_num - i` was marked. `replay_window` is the
guarantee over whole histories.
-/

namespace VigorTls.Dtls

open Lib List Prod

/-- The loop of `satsub64be` over the first seven bytes: `error r` is an early `return r`, `ok ret`
the bias left in `ret`. -/
def satsubScan : List (UInt8 × UInt8) → Except ℤ ℤ
  | [] => .ok 0
  | (a, b) :: rest =>
    if b < a then
      -- `v1` is larger; only a carry through all the bytes up to index 6 is small enough.
      if a.toNat ≠ b.toNat + 1 then .error 128
      else if rest.all fun p => p.1 == 0x00 && p.2 == 0xff then .ok 256
      else .error 128
    else if a < b then
      if b.toNat ≠ a.toNat + 1 then .error (-128)
      else if rest.all fun p => p.2 == 0x00 && p.1 == 0xff then .ok (-256)
      else .error (-128)
    else satsubScan rest

/-- The two final comparisons of `satsub64be`. -/
def saturate (ret : ℤ) : ℤ :=
  if 128 < ret then 128 else if ret < -128 then -128 else ret

/-- An eight-byte number read as a `long`. -/
def longOf (v : Seq64) : ℤ := (BitVec.ofNat 64 v.val).toInt

variable (wide : Bool)

/-- `satsub64be`. With `wide` the words are subtracted as they are, on a big-endian machine with
64-bit `long` and aligned operands; else the bytes are scanned. -/
def satsub64be (v1 v2 : Seq64) : ℤ :=
  if wide then saturate (longOf v1 - longOf v2)
  else
    match satsubScan ((v1.toList.zip v2.toList).take 7) with
    | .error r => r
    | .ok ret => saturate (ret + ((v1[7].toNat : ℤ) - v2[7].toNat))

/-- What the scan finds, in terms of the difference `d` of the two scanned prefixes. -/
def scanOf (d : ℤ) : Except ℤ ℤ :=
  if 2 ≤ d then .error 128 else if d ≤ -2 then .error (-128) else .ok (256 * d)

theorem all_carry_iff (l : List (UInt8 × UInt8)) :
    (l.all fun p => p.1 == 0x00 && p.2 == 0xff) = true ↔
      beNat (l.map fst) = 0 ∧ beNat (l.map snd) + 1 = 256 ^ l.length := by
  have hlen : l.length = (l.map snd).length := by simp
  rw [hlen, beNat_add_one_eq_pow_iff, beNat_eq_zero_iff]
  simp only [all_eq_true, Bool.and_eq_true, beq_iff_eq, mem_map]
  constructor
  · intro h
    constructor
    · rintro _ ⟨p, hp, rfl⟩
      exact (h p hp).1
    · rintro _ ⟨p, hp, rfl⟩
      exact (h p hp).2
  · rintro ⟨h1, h2⟩ p hp
    exact ⟨h1 _ ⟨p, hp, rfl⟩, h2 _ ⟨p, hp, rfl⟩⟩

theorem all_borrow_iff (l : List (UInt8 × UInt8)) :
    (l.all fun p => p.2 == 0x00 && p.1 == 0xff) = true ↔
      beNat (l.map snd) = 0 ∧ beNat (l.map fst) + 1 = 256 ^ l.length := by
  have h := all_carry_iff (l.map Prod.swap)
  simpa [Function.comp_def] using h

theorem satsubScan_eq : ∀ l : List (UInt8 × UInt8),
    satsubScan l = scanOf (beNat (l.map fst) - beNat (l.map snd))
  | [] => by simp [satsubScan, scanOf]
  | (a, b) :: rest => by
    have ih := satsubScan_eq rest
    have h1 := beNat_lt (rest.map fst)
    have h2 := beNat_lt (rest.map snd)
    have hc := all_carry_iff rest
    have hb := all_borrow_iff rest
    simp only [length_map] at h1 h2
    simp only [satsubScan, map_cons, beNat_cons, length_map, UInt8.lt_iff_toNat_lt]
    generalize beNat (rest.map fst) = A at *
    generalize beNat (rest.map snd) = B at *
    generalize 256 ^ rest.length = P at *
    push_cast
    rcases lt_trichotomy a.toNat b.toNat with hab | hab | hab
    · -- `v2` is larger at this byte.
      rw [if_neg (by omega), if_pos hab]
      by_cases hstep : b.toNat = a.toNat + 1
      · rw [if_neg (by simp [hstep]), hstep]
        have hd : (a.toNat * P + A : ℤ) - ((a.toNat + 1 : ℕ) * P + B) = A - B - P := by
          push_cast; ring
        rw [hd]
        by_cases hall : B = 0 ∧ A + 1 = P
        · rw [if_pos (hb.mpr hall)]
          obtain ⟨hB, hA⟩ := hall
          have : (A : ℤ) - B - P = -1 := by omega
          rw [this]
          rfl
        · rw [if_neg (fun h => hall (hb.mp h)), scanOf, if_neg (by omega), if_pos (by omega)]
      · rw [if_pos hstep, scanOf]
        have : (a.toNat : ℤ) * P + 2 * P ≤ b.toNat * P := by
          have h : a.toNat + 2 ≤ b.toNat := by omega
          calc (a.toNat : ℤ) * P + 2 * P = (a.toNat + 2 : ℕ) * P := by push_cast; ring
            _ ≤ b.toNat * P := by exact_mod_cast Nat.mul_le_mul_right P h
        rw [if_neg (by omega), if_pos (by omega)]
    · rw [if_neg (by omega), if_neg (by omega), ih, hab]
      ring_nf
    · -- `v1` is larger at this byte.
      rw [if_pos hab]
      by_cases hstep : a.toNat = b.toNat + 1
      · rw [if_neg (by simp [hstep]), hstep]
        have hd : ((b.toNat + 1 : ℕ) * P + A : ℤ) - (b.toNat * P + B) = A - B + P := by
          push_cast; ring
        rw [hd]
        by_cases hall : A = 0 ∧ B + 1 = P
        · rw [if_pos (hc.mpr hall)]
          obtain ⟨hA, hB⟩ := hall
          have : (A : ℤ) - B + P = 1 := by omega
          rw [this]
          rfl
        · rw [if_neg (fun h => hall (hc.mp h)), scanOf, if_pos (by omega)]
      · rw [if_pos hstep, scanOf]
        have : (b.toNat : ℤ) * P + 2 * P ≤ a.toNat * P := by
          have h : b.toNat + 2 ≤ a.toNat := by omega
          calc (b.toNat : ℤ) * P + 2 * P = (b.toNat + 2 : ℕ) * P := by push_cast; ring
            _ ≤ a.toNat * P := by exact_mod_cast Nat.mul_le_mul_right P h
        rw [if_pos (by omega)]

theorem val_eq_prefix (v : Seq64) : v.val = beNat (v.toList.take 7) * 256 + v[7].toNat := by
  have hlen : v.toList.length = 8 := by simp
  have hdrop : v.toList.drop 7 = [v[7]] := by
    rw [drop_eq_getElem_cons (by omega)]
    simp
  conv_lhs => rw [Seq64.val, ← take_append_drop 7 v.toList, beNat_append, hdrop]
  simp [beNat_cons]

/-- Scanning the bytes computes the difference of the two numbers, cut off at ±128. -/
theorem satsub64be_bytes (v1 v2 : Seq64) :
    satsub64be false v1 v2 = saturate ((v1.val : ℤ) - v2.val) := by
  have hl : v1.toList.length = v2.toList.length := by simp
  have hfst : ((v1.toList.zip v2.toList).take 7).map fst = v1.toList.take 7 := by
    rw [map_take, map_fst_zip (by omega)]
  have hsnd : ((v1.toList.zip v2.toList).take 7).map snd = v2.toList.take 7 := by
    rw [map_take, map_snd_zip (by omega)]
  have hb1 := v1[7].toNat_lt
  have hb2 := v2[7].toNat_lt
  rw [satsub64be, satsubScan_eq, hfst, hsnd, val_eq_prefix v1, val_eq_prefix v2]
  generalize beNat (v1.toList.take 7) = A
  generalize beNat (v2.toList.take 7) = B
  generalize v1[7].toNat = a at *
  generalize v2[7].toNat = b at *
  push_cast
  have hval : (256 : ℤ) * (A - B) + (a - b) = A * 256 + a - (B * 256 + b) := by ring
  unfold scanOf
  by_cases hhi : (2 : ℤ) ≤ A - B
  · rw [if_pos hhi]
    unfold saturate
    rw [if_pos (by omega)]
  by_cases hlo : (A : ℤ) - B ≤ -2
  · rw [if_neg hhi, if_pos hlo]
    unfold saturate
    rw [if_neg (by omega), if_pos (by omega)]
  · rw [if_neg hhi, if_neg hlo, ← hval]

/-- The sequence number of a record: 48 bits, after two zero bytes for the epoch, which are never
written. -/
structure RecordSeq where
  bytes : Seq64
  /-- The two bytes of the epoch are zero. -/
  top : bytes[0] = 0 ∧ bytes[1] = 0
deriving DecidableEq

def RecordSeq.val (n : RecordSeq) : ℕ := n.bytes.val

theorem RecordSeq.val_lt (n : RecordSeq) : n.val < 2 ^ 48 := by
  obtain ⟨v, h0, h1⟩ := n
  have hlen : v.toList.length = 8 := by simp
  have hcons : v.toList = v[0] :: v[1] :: v.toList.drop 2 := by
    conv_lhs => rw [← drop_zero (l := v.toList), drop_eq_getElem_cons (by omega),
      drop_eq_getElem_cons (by omega)]
    simp
  have hlt := beNat_lt (v.toList.drop 2)
  show beNat v.toList < 2 ^ 48
  rw [hcons, h0, h1, beNat_cons, beNat_cons]
  simpa using hlt

theorem RecordSeq.val_injective {m n : RecordSeq} (h : m.val = n.val) : m = n := by
  obtain ⟨v, hv⟩ := m
  obtain ⟨u, hu⟩ := n
  have hl : v.toList = u.toList := beNat_inj (by simp) h
  simpa using Vector.toList_inj.mp hl

variable (wide : Bool)

theorem satsub64be_eq (m n : RecordSeq) :
    satsub64be wide m.bytes n.bytes = saturate ((m.val : ℤ) - n.val) := by
  cases wide with
  | false => exact satsub64be_bytes m.bytes n.bytes
  | true =>
    have hlong : ∀ k : RecordSeq, longOf k.bytes = k.val := by
      intro k
      have hk := k.val_lt
      have htoNat : (BitVec.ofNat 64 k.bytes.val).toNat = k.val := by
        exact Nat.mod_eq_of_lt (lt_trans hk (by norm_num))
      rw [longOf, BitVec.toInt_eq_toNat_of_lt (by omega), htoNat]
    rw [satsub64be, if_pos rfl, hlong, hlong]

/-- `DTLS1_BITMAP`, where `unsigned long` has 64 bits. -/
structure Dtls1Bitmap where
  /-- Bit `i` stands for the record `max_seq_num - i`. -/
  map : BitVec 64
  /-- The largest record number seen so far. -/
  max_seq_num : RecordSeq

def Dtls1Bitmap.zero : Dtls1Bitmap := ⟨0, ⟨Vector.replicate 8 0, by decide⟩⟩

/-- `dtls1_record_replay_check`. The caller copies a number that passes to `rrec.seq_num`. -/
def dtls1RecordReplayCheck (seq : RecordSeq) (bitmap : Dtls1Bitmap) : Bool :=
  let cmp := satsub64be wide seq.bytes bitmap.max_seq_num.bytes
  if 0 < cmp then true
  else
    let shift := (-cmp).toNat
    if 64 ≤ shift then false
    else if bitmap.map &&& (1#64 <<< shift) ≠ 0 then false
    else true

/-- `dtls1_record_bitmap_update` on the number in `read_sequence`. -/
def dtls1RecordBitmapUpdate (seq : RecordSeq) (bitmap : Dtls1Bitmap) : Dtls1Bitmap :=
  let cmp := satsub64be wide seq.bytes bitmap.max_seq_num.bytes
  if 0 < cmp then
    let shift := cmp.toNat
    ⟨if shift < 64 then bitmap.map <<< shift ||| 1 else 1, seq⟩
  else
    let shift := (-cmp).toNat
    if shift < 64 then { bitmap with map := bitmap.map ||| 1#64 <<< shift } else bitmap

/-- All of `S` are at most `max_seq_num`, and `map` tracks them below it. -/
structure Dtls1Bitmap.Holds (bitmap : Dtls1Bitmap) (S : Set ℕ) : Prop where
  le_max : ∀ n ∈ S, n ≤ bitmap.max_seq_num.val
  tracks : Tracks bitmap.map bitmap.max_seq_num.val S

theorem and_shift_ne_zero_iff (map : BitVec 64) {i : ℕ} (hi : i < 64) :
    map &&& (1#64 <<< i) ≠ 0 ↔ map.getLsbD i = true := by
  rw [← BitVec.twoPow_eq, BitVec.and_twoPow]
  split_ifs with h
  · simp only [h, iff_true]
    intro h0
    have := congrArg (fun v => v.getLsbD i) h0
    simp [hi] at this
  · simp [h]

theorem replayCheck_iff {bitmap : Dtls1Bitmap} {S : Set ℕ} (h : bitmap.Holds S) (n : RecordSeq) :
    dtls1RecordReplayCheck wide n bitmap = true ↔
      n.val ∉ S ∧ bitmap.max_seq_num.val < n.val + 64 := by
  unfold dtls1RecordReplayCheck
  rw [satsub64be_eq]
  have hS : n.val ∈ S → n.val ≤ bitmap.max_seq_num.val := h.le_max n.val
  have ht := h.tracks
  generalize bitmap.max_seq_num.val = top at *
  generalize n.val = k at *
  by_cases hgt : top < k
  · have : 0 < saturate (k - top) := by unfold saturate; split_ifs <;> omega
    rw [if_pos this]
    simp only [true_iff]
    exact ⟨fun hk => by have := hS hk; omega, by omega⟩
  have hle : k ≤ top := by omega
  rw [if_neg (by unfold saturate; split_ifs <;> omega)]
  by_cases hwin : top - k < 64
  · have hshift : (-saturate (k - top)).toNat = top - k := by
      unfold saturate; split_ifs <;> omega
    have hbit := ht (top - k) hwin
    rw [show top - (top - k) = k by omega] at hbit
    rw [hshift, if_neg (by omega)]
    simp only [and_shift_ne_zero_iff _ hwin]
    by_cases hk : k ∈ S
    · simp [hbit.mpr ⟨by omega, hk⟩, hk]
    · have hb : ¬ bitmap.map.getLsbD (top - k) = true := fun hb => hk (hbit.mp hb).2
      simp only [if_neg hb, hk, not_false_iff, true_and, true_iff]
      omega
  · have hshift : 64 ≤ (-saturate (k - top)).toNat := by
      unfold saturate; split_ifs <;> omega
    rw [if_pos hshift]
    simp only [Bool.false_eq_true, false_iff, not_and]
    omega

theorem bitmapUpdate_holds {bitmap : Dtls1Bitmap} {S : Set ℕ} (h : bitmap.Holds S) (n : RecordSeq) :
    (dtls1RecordBitmapUpdate wide n bitmap).Holds (insert n.val S) := by
  unfold dtls1RecordBitmapUpdate
  rw [satsub64be_eq]
  obtain ⟨hle, ht⟩ := h
  dsimp only
  by_cases hgt : bitmap.max_seq_num.val < n.val
  · -- A new largest number: the window moves up.
    obtain ⟨k, hk⟩ : ∃ k, n.val = bitmap.max_seq_num.val + k := ⟨_, (Nat.add_sub_of_le hgt.le).symm⟩
    have hk0 : 0 < k := by omega
    rw [if_pos (by unfold saturate; split_ifs <;> omega)]
    constructor
    · intro m hm
      rcases Set.mem_insert_iff.mp hm with rfl | hm
      · exact le_rfl
      · exact (hle m hm).trans hgt.le
    rw [hk]
    by_cases hsmall : k < 64
    · have hshift : (saturate ((bitmap.max_seq_num.val + k : ℕ) - bitmap.max_seq_num.val)).toNat
          = k := by
        unfold saturate; split_ifs <;> omega
      rw [hshift, if_pos hsmall]
      exact ht.advance hle hk0
    · rw [if_neg (by unfold saturate; split_ifs <;> omega)]
      exact Tracks.restart hle (by omega)
  rw [if_neg (by unfold saturate; split_ifs <;> omega)]
  have hle' : n.val ≤ bitmap.max_seq_num.val := by omega
  have hins : ∀ m ∈ insert n.val S, m ≤ bitmap.max_seq_num.val := by
    intro m hm
    rcases Set.mem_insert_iff.mp hm with rfl | hm
    · exact hle'
    · exact hle m hm
  by_cases hwin : bitmap.max_seq_num.val - n.val < 64
  · have hshift : (-saturate (n.val - bitmap.max_seq_num.val)).toNat
        = bitmap.max_seq_num.val - n.val := by
      unfold saturate; split_ifs <;> omega
    rw [hshift, if_pos hwin]
    refine ⟨hins, ?_⟩
    have := ht.mark (i := bitmap.max_seq_num.val - n.val) (by omega)
    rwa [show bitmap.max_seq_num.val - (bitmap.max_seq_num.val - n.val) = n.val by omega] at this
  -- Below the window: no bit stands for the record.
  rw [if_neg (by unfold saturate; split_ifs <;> omega)]
  refine ⟨hins, fun i hi => ?_⟩
  rw [ht i hi]
  constructor
  · rintro ⟨h1, h2⟩
    exact ⟨h1, Or.inr h2⟩
  · rintro ⟨h1, h2 | h2⟩
    · omega
    · exact ⟨h1, h2⟩

/-- A record that arrives: its number, and whether it authenticates. -/
structure Arrival where
  seq : RecordSeq
  /-- Whether the record authenticates, once it has passed the check. -/
  authentic : Bool

/-- The window together with the records marked so far. -/
structure ReplayState where
  bitmap : Dtls1Bitmap
  /-- The records that `dtls1_record_bitmap_update` was run on, the last one first. -/
  updated : List RecordSeq

/-- The check, and the update if the record passes and authenticates. -/
def replayStep (st : ReplayState) (a : Arrival) : ReplayState :=
  if dtls1RecordReplayCheck wide a.seq st.bitmap && a.authentic then
    ⟨dtls1RecordBitmapUpdate wide a.seq st.bitmap, a.seq :: st.updated⟩
  else st

variable (arrivals : List Arrival)

/-- The receiver on a sequence of records, from the all-zero bitmap. -/
def replayRun : ReplayState := run (replayStep wide) ⟨.zero, []⟩ arrivals

/-- The window holds exactly the records that were marked. -/
def ReplayState.Inv (st : ReplayState) : Prop :=
  st.bitmap.Holds {k | ∃ n ∈ st.updated, n.val = k}

theorem replayStep_inv (st : ReplayState) (a : Arrival) (h : st.Inv) :
    (replayStep wide st a).Inv := by
  unfold replayStep
  split_ifs
  · have := bitmapUpdate_holds wide h a.seq
    unfold ReplayState.Inv
    convert this using 1
    ext k
    simp [eq_comm]
  · exact h

theorem replayRun_inv : (replayRun wide arrivals).Inv := by
  refine run_invariant_all (replayStep_inv wide) arrivals _ ⟨by simp, ?_⟩
  have hempty : {k | ∃ n ∈ ([] : List RecordSeq), n.val = k} = ∅ := by simp
  rw [hempty]
  exact tracks_zero _

/-- The anti-replay guarantee over any history: a record that was marked never passes again, and one
that was not passes as long as it is above `max_seq_num - 64`. -/
theorem replay_window (n : RecordSeq) :
    (n ∈ (replayRun wide arrivals).updated →
      dtls1RecordReplayCheck wide n (replayRun wide arrivals).bitmap = false) ∧
    (n ∉ (replayRun wide arrivals).updated →
      (n.val : ℤ) > (replayRun wide arrivals).bitmap.max_seq_num.val - 64 →
      dtls1RecordReplayCheck wide n (replayRun wide arrivals).bitmap = true) := by
  have hiff := replayCheck_iff wide (replayRun_inv wide arrivals) n
  generalize replayRun wide arrivals = st at *
  have hmem : n.val ∈ {k | ∃ m ∈ st.updated, m.val = k} ↔ n ∈ st.updated := by
    constructor
    · rintro ⟨m, hm, hmn⟩
      rwa [← RecordSeq.val_injective hmn]
    · intro hn
      exact ⟨n, hn, rfl⟩
  rw [hmem] at hiff
  constructor
  · intro hn
    rw [Bool.eq_false_iff]
    intro hpass
    exact (hiff.mp hpass).1 hn
  · intro hn hwin
    exact hiff.mpr ⟨hn, by omega⟩

end VigorTls.Dtls
