import VigorTls.Lib.Memory
import VigorTls.Bytestring.Cbs

/-!
# Building byte strings

`crypto/bytestring/cbb.c`: a `CBB` appends to a buffer that it shares with its children. A child is
written behind a prefix that is filled in when the parent is next used; for an ASN.1 element it may
then turn out too short, and the contents are moved along. `flushed` says on byte strings what that
comes to, and `cbbFlush_spec` that the code does it.
-/

namespace VigorTls.Bytestring

open Lib List Option UInt8 Nat

/-- What the allocator gives for a size: nothing, or a block with whatever bytes. In building one
string no size is asked for twice. -/
abbrev Heap := ℕ → Option (ℕ → UInt8)

/-- `cbb_buffer_st`. -/
structure Base where
  buf : ℕ → UInt8
  len : ℕ
  cap : ℕ
  can_resize : Bool
  fits : len ≤ cap
  bounded : len < 2 ^ 64

def Base.written (b : Base) : Bytes := slice b.buf 0 b.len

/-- The capacity that `cbb_buffer_add` asks for. -/
def newcap (cap newlen : ℕ) : ℕ :=
  if cap * 2 % 2 ^ 64 < cap ∨ cap * 2 % 2 ^ 64 < newlen then newlen else cap * 2 % 2 ^ 64

theorem le_newcap (cap newlen : ℕ) : newlen ≤ newcap cap newlen := by
  unfold newcap
  split <;> omega

variable (heap : Heap)

/-- `cbb_buffer_add`: room for `len` more bytes, at the old `base->len`. -/
def cbbBufferAdd (base : Base) (len : ℕ) : Option Base :=
  -- `newlen < base->len`: the sum wrapped.
  if hlen : 2 ^ 64 ≤ base.len + len then none
  else if h : base.len + len ≤ base.cap then
    some { base with len := base.len + len, fits := h, bounded := Nat.lt_of_not_le hlen }
  else if base.can_resize then
    (heap (newcap base.cap (base.len + len))).map fun newbuf =>
      { base with
        buf := fun i => if i < base.cap then base.buf i else newbuf i
        len := base.len + len
        cap := newcap base.cap (base.len + len)
        fits := le_newcap ..
        bounded := Nat.lt_of_not_le hlen }
  else none

/-- Bytes put into the buffer, with nothing added to it. -/
def Base.put (b : Base) (off : ℕ) (bytes : Bytes) : Base :=
  { b with buf := store b.buf off bytes }

/-- The loop that writes a number from its last byte on, and what is left of it. -/
def putNumber (buf : ℕ → UInt8) (off : ℕ) : ℕ → ℕ → (ℕ → UInt8) × ℕ
  | 0, v => (buf, v)
  | i + 1, v => putNumber (store buf (off + i) [ofNat v]) off i (v >>> 8)

def cbbBufferAddU (base : Base) (v len_len : ℕ) : Option Base :=
  if len_len = 0 then some base
  else (cbbBufferAdd heap base len_len).map fun base' =>
    { base' with buf := (putNumber base'.buf base.len len_len v).1 }

/-! ## Builders -/

/-- What a `CBB` with a child keeps of it. -/
structure Pending where
  offset : ℕ
  pending_len_len : ℕ
  pending_is_asn1 : Bool
  one : pending_is_asn1 = true → pending_len_len = 1

/-- A `CBB` with its chain of children: that at depth `d` is `d` steps along `child`, and all but
the last have a prefix pending. -/
structure Cbb where
  base : Base
  pending : List Pending

def cbbInit (initial_capacity : ℕ) : Option Cbb :=
  (heap initial_capacity).map fun buf =>
    ⟨⟨buf, 0, initial_capacity, true, Nat.zero_le _, Nat.two_pow_pos 64⟩, []⟩

/-- How many bytes the length takes, and the first of them. -/
def asn1LenLen (len : ℕ) : Option (ℕ × UInt8) :=
  if len > 0xfffffffe then none
  else if len > 0xffffff then some (5, 0x80 ||| 4)
  else if len > 0xffff then some (4, 0x80 ||| 3)
  else if len > 0xff then some (3, 0x80 ||| 2)
  else if len > 0x7f then some (2, 0x80 ||| 1)
  else some (1, ofNat len)

/-- The length bytes of `CBB_flush`: `none` when the length does not fit them. -/
def putLength (base : Base) (offset pending_len_len len : ℕ) : Option Base :=
  let (buf, len) := putNumber base.buf offset pending_len_len len
  if len ≠ 0 then none else some { base with buf := buf }

/-- The contents moved along when their length takes more than one byte. -/
def moveContents (base : Base) (child_start len len_len : ℕ) : Option Base :=
  if len_len ≠ 1 then
    (cbbBufferAdd heap base (len_len - 1)).map fun base =>
      { base with buf := memmove base.buf (child_start + (len_len - 1)) child_start len }
  else some base

/-- `CBB_flush` past the recursion: the pending prefix is written. -/
def writePrefix (p : Pending) (base : Base) : Option Base :=
  let child_start := p.offset + p.pending_len_len
  if 2 ^ 64 ≤ child_start ∨ base.len < child_start then none
  else
    let len := base.len - child_start
    if p.pending_is_asn1 then do
      let (len_len, initial_length_byte) ← asn1LenLen len
      let base ← moveContents heap base child_start len len_len
      putLength (base.put p.offset [initial_length_byte]) (p.offset + 1) (len_len - 1)
        (if len_len = 1 then 0 else len)
    else putLength base p.offset p.pending_len_len len

/-- `CBB_flush` on a `CBB` with the given chain of pending prefixes. -/
def cbbFlushFrom (heap : Heap) : List Pending → Base → Option Base
  | [], base => some base
  | p :: ps, base => (cbbFlushFrom heap ps base).bind (writePrefix heap p)

variable (d : ℕ)

/-- `CBB_flush` on the `CBB` at depth `d`. One that is no longer a child has no base. -/
def cbbFlush (cbb : Cbb) : Option Cbb :=
  if cbb.pending.length < d then none
  else (cbbFlushFrom heap (cbb.pending.drop d) cbb.base).map fun base =>
    ⟨base, cbb.pending.take d⟩

def cbbFinish (cbb : Cbb) : Option Bytes :=
  (cbbFlush heap 0 cbb).map fun cbb => cbb.base.written

/-- `cbb_add_length_prefixed`: the child is at depth `d + 1`. -/
def cbbAddLengthPrefixed (cbb : Cbb) (len_len : ℕ) : Option Cbb := do
  let cbb ← cbbFlush heap d cbb
  let base ← cbbBufferAdd heap cbb.base len_len
  some ⟨base.put cbb.base.len (replicate len_len 0),
    cbb.pending ++ [⟨cbb.base.len, len_len, false, nofun⟩]⟩

def cbbAddU8LengthPrefixed (cbb : Cbb) : Option Cbb :=
  cbbAddLengthPrefixed heap d cbb 1

def cbbAddU16LengthPrefixed (cbb : Cbb) : Option Cbb :=
  cbbAddLengthPrefixed heap d cbb 2

def cbbAddU24LengthPrefixed (cbb : Cbb) : Option Cbb :=
  cbbAddLengthPrefixed heap d cbb 3

def cbbAddBytes (cbb : Cbb) (data : Bytes) : Option Cbb := do
  let cbb ← cbbFlush heap d cbb
  let base ← cbbBufferAdd heap cbb.base data.length
  some { cbb with base := base.put cbb.base.len data }

/-- `CBB_add_u8`, `CBB_add_u16` and `CBB_add_u24`, by the number of bytes. -/
def cbbAddU (cbb : Cbb) (value len : ℕ) : Option Cbb := do
  let cbb ← cbbFlush heap d cbb
  let base ← cbbBufferAddU heap cbb.base value len
  some { cbb with base := base }

def cbbAddU8 (cbb : Cbb) (value : UInt8) : Option Cbb :=
  cbbAddU heap d cbb value.toNat 1

def cbbAddU16 (cbb : Cbb) (value : UInt16) : Option Cbb :=
  cbbAddU heap d cbb value.toNat 2

def cbbAddU24 (cbb : Cbb) (value : UInt32) : Option Cbb :=
  cbbAddU heap d cbb value.toNat 3

/-- `CBB_add_asn1`: the child is at depth `d + 1`. -/
def cbbAddAsn1 (cbb : Cbb) (tag : UInt8) : Option Cbb :=
  if tag &&& 0x1f = 0x1f then none
  else do
    let cbb ← cbbFlush heap d cbb
    let cbb ← cbbAddU8 heap d cbb tag
    let offset := cbb.base.len
    let cbb ← cbbAddU8 heap d cbb 0
    some { cbb with pending := cbb.pending ++ [⟨offset, 1, true, fun _ => rfl⟩] }

/-- The loop of `CBB_add_asn1_uint64` with `n` bytes to go: no leading zeros, but one before a first
byte with the top bit set. -/
def uint64Bytes (heap : Heap) (d value : ℕ) : ℕ → Bool → Cbb → Option (Bool × Cbb)
  | 0, started, child => some (started, child)
  | n + 1, started, child =>
    let byte := ofNat (value >>> (8 * n))
    if started = false ∧ byte = 0 then uint64Bytes heap d value n false child
    else if started = false ∧ byte &&& 0x80 ≠ 0 then do
      let child ← cbbAddU8 heap d child 0
      let child ← cbbAddU8 heap d child byte
      uint64Bytes heap d value n true child
    else do
      let child ← cbbAddU8 heap d child byte
      uint64Bytes heap d value n true child

/-- The zero of `CBB_add_asn1_uint64` when nothing was written. -/
def uint64Zero (started : Bool) (child : Cbb) : Option Cbb :=
  if started then some child else cbbAddU8 heap d child 0

def cbbAddAsn1Uint64 (cbb : Cbb) (value : UInt64) : Option Cbb := do
  let child ← cbbAddAsn1 heap d cbb cbsAsn1Integer
  let (started, child) ← uint64Bytes heap (d + 1) value.toNat 8 false child
  let child ← uint64Zero heap (d + 1) started child
  cbbFlush heap d child

theorem length_written (b : Base) : b.written.length = b.len := length_slice ..

variable {base base' : Base} {n : ℕ}
variable {heap : Heap}

theorem cbbBufferAdd_spec (h : cbbBufferAdd heap base n = some base') :
    base'.len = base.len + n ∧ base.len + n < 2 ^ 64 ∧
      slice base'.buf 0 base.len = base.written := by
  unfold cbbBufferAdd at h
  split_ifs at h with hwrap hcap hresize
  · cases h
    exact ⟨rfl, by omega, rfl⟩
  · obtain ⟨newbuf, -, rfl⟩ := map_eq_some_iff.mp h
    refine ⟨rfl, by omega, slice_congr fun i _ hi => ?_⟩
    have hfits := base.fits
    exact if_pos (by omega)

variable {bytes data : Bytes} {len : ℕ} {p : Pending}

theorem written_put {b : Base} {off : ℕ} (h : off + bytes.length ≤ b.len) :
    (b.put off bytes).written
      = b.written.take off ++ bytes ++ b.written.drop (off + bytes.length) := by
  obtain ⟨n, hn⟩ := Nat.exists_eq_add_of_le h
  have hput : (b.put off bytes).written
      = slice (store b.buf off bytes) 0 (off + bytes.length + n) := by
    rw [← hn]
    rfl
  rw [hput, Base.written, hn, take_slice _ _ (by omega), drop_slice _ _ (by omega), slice_add,
    slice_add, slice_store_of_disjoint _ _ _ (.inl (by omega)), Nat.zero_add, Nat.zero_add,
    slice_store_self, slice_store_of_disjoint _ _ _ (.inr le_rfl), Nat.add_sub_cancel_left]

theorem written_put_added (h : cbbBufferAdd heap base data.length = some base') :
    (base'.put base.len data).written = base.written ++ data := by
  obtain ⟨hlen, -, hkept⟩ := cbbBufferAdd_spec h
  have htake : base'.written.take base.len = base.written := by
    rw [Base.written, take_slice _ _ (by omega), hkept]
  rw [written_put (by omega), htake, drop_eq_nil_of_le (by rw [length_written]; omega), append_nil]

theorem putNumber_eq (buf : ℕ → UInt8) (off : ℕ) : ∀ n v : ℕ,
    putNumber buf off n v = (store buf off (beBytes n v), v / 256 ^ n)
  | 0, v => by
    have hnil : store buf off [] = buf := by
      funext i
      simp [store]
    simp [putNumber, beBytes, hnil]
  | n + 1, v => by
    have hshift : v >>> 8 = v / 256 := shiftRight_eq_div_pow v 8
    rw [putNumber, putNumber_eq _ off n, beBytes, store_append, length_beBytes, hshift,
      Nat.div_div_eq_div_mul, pow_succ']

/-- The length bytes of a child behind `n` bytes of length. -/
def lengthPrefix (n len : ℕ) : Option Bytes :=
  if len < 256 ^ n then some (beBytes n len) else none

/-- The length bytes of an ASN.1 element. Four bytes of ones are not used. -/
def asn1Length (len : ℕ) : Option Bytes :=
  if len > 0xfffffffe then none else some (derLength len)

/-- The length bytes that belong to a pending prefix. -/
def Pending.lengthBytes (p : Pending) (len : ℕ) : Option Bytes :=
  if p.pending_is_asn1 then asn1Length len else lengthPrefix p.pending_len_len len

def Pending.fill (p : Pending) (bytes : Bytes) : Option Bytes :=
  if bytes.length < p.offset + p.pending_len_len then none
  else (p.lengthBytes (bytes.length - (p.offset + p.pending_len_len))).map fun l =>
    bytes.take p.offset ++ l ++ bytes.drop (p.offset + p.pending_len_len)

/-- The bytes with all prefixes of a chain filled in, the innermost first. -/
def flushed : List Pending → Bytes → Option Bytes
  | [], bytes => some bytes
  | p :: ps, bytes => (flushed ps bytes).bind p.fill

theorem putLength_eq (base : Base) (offset n len : ℕ) :
    putLength base offset n len
      = if len < 256 ^ n then some (base.put offset (beBytes n len)) else none := by
  have hpos : 0 < 256 ^ n := by positivity
  simp only [putLength, putNumber_eq]
  by_cases h : len < 256 ^ n
  · rw [if_pos h, if_neg (by simp [div_eq_of_lt h])]
    rfl
  · rw [if_neg h, if_pos (Nat.div_pos (by omega) hpos).ne']

theorem asn1LenLen_eq_some {k : ℕ} {b : UInt8} (h : asn1LenLen len = some (k, b)) :
    asn1Length len = some (b :: beBytes (k - 1) (if k = 1 then 0 else len)) ∧ 1 ≤ k ∧
      (if k = 1 then 0 else len) < 256 ^ (k - 1) := by
  unfold asn1LenLen at h
  unfold asn1Length
  split_ifs at h with h1 h2 h3 h4 h5
  all_goals cases h; rw [if_neg h1]
  · exact ⟨congrArg some (derLength_eq (k := 3) (by omega) (by omega) (by omega)), by omega,
      by simp; omega⟩
  · exact ⟨congrArg some (derLength_eq (k := 2) (by omega) (by omega) (by omega)), by omega,
      by simp; omega⟩
  · exact ⟨congrArg some (derLength_eq (k := 1) (by omega) (by omega) (by omega)), by omega,
      by simp; omega⟩
  · exact ⟨congrArg some (derLength_eq (k := 0) (by omega) (by omega) (by omega)), by omega,
      by simp; omega⟩
  · exact ⟨congrArg some (derLength_short (by omega)), le_rfl, by simp⟩

theorem put_put (base : Base) (off : ℕ) (xs ys : Bytes) :
    (base.put off xs).put (off + xs.length) ys = base.put off (xs ++ ys) := by
  simp only [Base.put, store_append, store_store_of_le _ (Nat.le_refl (off + xs.length))]

theorem written_moved {offset extra : ℕ} {l : Bytes}
    (hadd : cbbBufferAdd heap base extra = some base') (hlen : offset + 1 ≤ base.len)
    (hl : l.length = 1 + extra) :
    ({ base' with
        buf := memmove base'.buf (offset + 1 + extra) (offset + 1) (base.len - (offset + 1)) :
          Base }.put offset l).written
      = base.written.take offset ++ l ++ base.written.drop (offset + 1) := by
  obtain ⟨hlen', -, hkept⟩ := cbbBufferAdd_spec hadd
  rw [written_put (by simp only; omega), Base.written, ← hkept,
    take_slice _ _ (by simp only; omega), take_slice _ _ (by omega),
    drop_slice _ _ (by simp only; omega), drop_slice _ _ (by omega)]
  congr 1
  · rw [memmove, slice_store_of_disjoint _ _ _ (.inl (by omega))]
  · have hrest : base'.len - (offset + l.length) = base.len - (offset + 1) := by omega
    rw [hrest, show 0 + (offset + l.length) = offset + 1 + extra by omega, slice_memmove,
      Nat.zero_add]

theorem writePrefix_spec (h : writePrefix heap p base = some base') :
    p.fill base.written = some base'.written := by
  obtain ⟨offset, n, is_asn1, hone⟩ := p
  simp only [writePrefix] at h
  split at h
  · cases h
  simp only [Pending.fill, Pending.lengthBytes, length_written]
  rw [if_neg (by omega)]
  cases is_asn1 with
  | false =>
    rw [if_neg nofun, putLength_eq] at h
    rw [lengthPrefix]
    split_ifs at h with hfit
    · cases h
      rw [if_pos hfit, written_put (by rw [length_beBytes]; omega), length_beBytes]
      rfl
  | true =>
    cases hone rfl
    obtain ⟨⟨k, b⟩, hk, h⟩ := bind_eq_some_iff.mp h
    obtain ⟨moved, hmoved, h⟩ := bind_eq_some_iff.mp h
    obtain ⟨hder, hk1, hfit⟩ := asn1LenLen_eq_some hk
    rw [putLength_eq, if_pos hfit] at h
    cases h
    rw [if_pos rfl, hder]
    have hput := put_put moved offset [b] (beBytes (k - 1) (if k = 1 then 0 else
      base.len - (offset + 1)))
    rw [length_singleton] at hput
    rw [hput]
    by_cases hshort : k = 1
    · subst hshort
      cases hmoved
      rw [written_put (by simp; omega)]
      rfl
    · rw [moveContents, if_pos hshort] at hmoved
      obtain ⟨added, hadd, rfl⟩ := map_eq_some_iff.mp hmoved
      rw [written_moved hadd (by omega) (by simp; omega)]
      rfl

theorem cbbFlushFrom_spec : ∀ {ps : List Pending} {base base' : Base},
    cbbFlushFrom heap ps base = some base' → flushed ps base.written = some base'.written
  | [], base, base', h => by
    cases h
    rfl
  | p :: ps, base, base', h => by
    obtain ⟨base1, h1, h⟩ := bind_eq_some_iff.mp h
    rw [flushed, cbbFlushFrom_spec h1]
    exact writePrefix_spec h

/-! ## What the operations append -/

/-- The bytes that the `CBB` at depth `d` is flushed to. -/
def Cbb.value (cbb : Cbb) : Option Bytes :=
  flushed (cbb.pending.drop d) cbb.base.written

/-- Work on the `CBB` at depth `d` and its children appended `bytes`, or a length that does not fit.
-/
structure Cbb.Appends (cbb cbb' : Cbb) (bytes : Option Bytes) : Prop where
  depth : d ≤ cbb.pending.length
  depth' : d ≤ cbb'.pending.length
  kept : cbb'.pending.take d = cbb.pending.take d
  value : cbb'.value d = (cbb.value d).bind fun before => bytes.map (before ++ ·)

/-- A child: whatever is appended to it is appended there wrapped. -/
structure Cbb.Opens (cbb opened : Cbb) (wrap : Bytes → Option Bytes) :
    Prop where
  depth : opened.pending.length = d + 1
  close : ∀ {cbb' : Cbb} {contents : Option Bytes},
    Cbb.Appends (d + 1) opened cbb' contents → Cbb.Appends d cbb cbb' (contents.bind wrap)

/-- A child of `c` bytes behind `n` bytes of length. -/
def prefixedBytes (n : ℕ) (c : Bytes) : Option Bytes :=
  (lengthPrefix n c.length).map (· ++ c)

def asn1Bytes (tag : UInt8) (c : Bytes) : Option Bytes :=
  if tag &&& 0x1f = 0x1f ∨ 0xfffffffe < c.length then none else some (element tag c)

variable {tag : UInt8}

theorem asn1Bytes_eq (htag : tag &&& 0x1f ≠ 0x1f) (c : Bytes) :
    asn1Bytes tag c = (asn1Length c.length).map ([tag] ++ · ++ c) := by
  unfold asn1Bytes asn1Length
  by_cases hlen : 0xfffffffe < c.length
  · rw [if_pos (.inr hlen), if_pos hlen, map_none]
  · rw [if_neg (not_or.mpr ⟨htag, hlen⟩), if_neg hlen]
    rfl

variable {before : Bytes} {cbb opened : Cbb}

namespace Cbb.Appends

variable {d : ℕ} {a b c : Cbb}

theorem refl (h : d ≤ a.pending.length) : Appends d a a (some []) := by
  refine ⟨h, h, rfl, ?_⟩
  cases a.value d <;> simp

theorem trans {xs ys : Option Bytes} (hab : Appends d a b xs) (hbc : Appends d b c ys) :
    Appends d a c (xs.bind fun x => ys.map (x ++ ·)) := by
  refine ⟨hab.depth, hbc.depth', hbc.kept.trans hab.kept, ?_⟩
  rw [hbc.value, hab.value]
  cases a.value d <;> cases xs <;> cases ys <;> simp

theorem value_some {x : Bytes} (h : Appends d a b (some x))
    (hvalue : a.value d = some before) : b.value d = some (before ++ x) := by
  rw [h.value, hvalue]
  rfl

end Cbb.Appends

/-- It has no child, and what it was flushed to is written. -/
structure Cbb.Flushed (cbb cbb' : Cbb) : Prop where
  depth : d ≤ cbb.pending.length
  pending : cbb'.pending = cbb.pending.take d
  value : cbb.value d = some cbb'.base.written

theorem cbbFlush_spec {d : ℕ} {cbb' : Cbb} (h : cbbFlush heap d cbb = some cbb') :
    Cbb.Flushed d cbb cbb' := by
  unfold cbbFlush at h
  split_ifs at h with hd
  obtain ⟨base, hbase, rfl⟩ := map_eq_some_iff.mp h
  exact ⟨by omega, rfl, cbbFlushFrom_spec hbase⟩

namespace Cbb.Flushed

variable {d : ℕ} {cbb cbb' : Cbb}

theorem length_pending (h : Flushed d cbb cbb') : cbb'.pending.length = d := by
  have hd := h.depth
  rw [h.pending, length_take]
  omega

theorem appends (h : Flushed d cbb cbb') (hbase : base.written = cbb'.base.written ++ bytes) :
    Appends d cbb { cbb' with base := base } (some bytes) := by
  have hlen := h.length_pending
  refine ⟨h.depth, hlen.ge, ?_, ?_⟩
  · rw [h.pending, take_take, min_self]
  · rw [h.value, Cbb.value, drop_eq_nil_of_le hlen.le, hbase]
    rfl

theorem appends_child (h : Flushed d cbb cbb') {cbb'' : Cbb} {lead : Bytes}
    {contents : Option Bytes} (hpending : opened.pending = cbb'.pending ++ [p])
    (hbase : opened.base.written = cbb'.base.written ++ lead ++ replicate p.pending_len_len 0)
    (hoffset : p.offset = cbb'.base.len + lead.length)
    (hchild : Appends (d + 1) opened cbb'' contents) :
    Appends d cbb cbb'' (contents.bind fun c => (p.lengthBytes c.length).map (lead ++ · ++ c)) := by
  have hlen := h.length_pending
  -- The prefix of the child is the first that is pending at depth `d`.
  have hkept : cbb''.pending.take (d + 1) = cbb'.pending ++ [p] := by
    rw [hchild.kept, hpending, take_of_length_le (by simp [hlen])]
  have hdrop : cbb''.pending.drop d = p :: cbb''.pending.drop (d + 1) := by
    conv_lhs => rw [← take_append_drop (d + 1) cbb''.pending, hkept]
    rw [append_assoc, drop_left' hlen]
    rfl
  have hopened : opened.value (d + 1)
      = some (cbb'.base.written ++ lead ++ replicate p.pending_len_len 0) := by
    rw [Cbb.value, hpending, drop_eq_nil_of_le (by simp [hlen]), flushed, hbase]
  have hvalue := hchild.value
  rw [hopened, Cbb.value] at hvalue
  refine ⟨h.depth, by have := hchild.depth'; omega, ?_, ?_⟩
  · have htake := congrArg (List.take d) hkept
    rw [take_take, take_left' hlen, h.pending] at htake
    rwa [min_eq_left (le_succ d)] at htake
  rw [h.value, Cbb.value, hdrop, flushed, hvalue]
  cases contents with
  | none => rfl
  | some c =>
    have hstart : p.offset = (cbb'.base.written ++ lead).length := by
      rw [length_append, length_written, hoffset]
    have hroom : p.offset + p.pending_len_len
        = (cbb'.base.written ++ lead ++ replicate p.pending_len_len 0).length := by
      rw [length_append, length_replicate, hstart]
    simp only [map_some, bind_some, Pending.fill]
    rw [if_neg (by rw [length_append]; omega)]
    have hlenc : (cbb'.base.written ++ lead ++ replicate p.pending_len_len 0 ++ c).length
        - (p.offset + p.pending_len_len) = c.length := by
      rw [length_append]
      omega
    rw [hlenc, drop_left' hroom.symm, append_assoc, take_left' hstart.symm]
    cases p.lengthBytes c.length <;> simp

end Cbb.Flushed

section

variable {d value : ℕ} {cbb cbb' : Cbb}

theorem cbbAddBytes_spec (h : cbbAddBytes heap d cbb data = some cbb') :
    Cbb.Appends d cbb cbb' (some data) := by
  obtain ⟨cbb1, hflush, h⟩ := bind_eq_some_iff.mp h
  obtain ⟨base, hadd, h⟩ := bind_eq_some_iff.mp h
  cases h
  exact (cbbFlush_spec hflush).appends (written_put_added hadd)

theorem cbbBufferAddU_spec {v : ℕ} (h : cbbBufferAddU heap base v n = some base') :
    base'.written = base.written ++ beBytes n v := by
  unfold cbbBufferAddU at h
  split_ifs at h with hn
  · cases h
    simp [hn, beBytes]
  obtain ⟨base1, hadd, rfl⟩ := map_eq_some_iff.mp h
  rw [putNumber_eq]
  have hadd' : cbbBufferAdd heap base (beBytes n v).length = some base1 := by
    rw [length_beBytes, hadd]
  exact written_put_added hadd'

theorem cbbAddU_spec {v : ℕ} (h : cbbAddU heap d cbb v n = some cbb') :
    Cbb.Appends d cbb cbb' (some (beBytes n v)) := by
  obtain ⟨cbb1, hflush, h⟩ := bind_eq_some_iff.mp h
  obtain ⟨base, hadd, h⟩ := bind_eq_some_iff.mp h
  cases h
  exact (cbbFlush_spec hflush).appends (cbbBufferAddU_spec hadd)

theorem cbbFlush_self (hlen : cbb.pending.length = d) : cbbFlush heap d cbb = some cbb := by
  rw [cbbFlush, if_neg (by omega), drop_eq_nil_of_le hlen.le, take_of_length_le hlen.le]
  rfl

theorem cbbAddU_self {v : ℕ} (hlen : cbb.pending.length = d)
    (h : cbbAddU heap d cbb v n = some cbb') :
    cbb'.pending = cbb.pending ∧ cbb'.base.written = cbb.base.written ++ beBytes n v := by
  rw [cbbAddU, cbbFlush_self hlen, bind_eq_bind, bind_some] at h
  obtain ⟨base, hadd, h⟩ := bind_eq_some_iff.mp h
  cases h
  exact ⟨rfl, cbbBufferAddU_spec hadd⟩

theorem cbbAddLengthPrefixed_spec (h : cbbAddLengthPrefixed heap d cbb n = some opened) :
    Cbb.Opens d cbb opened (prefixedBytes n) := by
  obtain ⟨cbb1, hflush, h⟩ := bind_eq_some_iff.mp h
  obtain ⟨base, hadd, h⟩ := bind_eq_some_iff.mp h
  cases h
  have hflushed := cbbFlush_spec hflush
  have hadd' : cbbBufferAdd heap cbb1.base (replicate n (0 : UInt8)).length = some base := by
    rw [length_replicate, hadd]
  refine ⟨by simp [hflushed.length_pending], fun hchild => ?_⟩
  have hwritten : (base.put cbb1.base.len (replicate n 0)).written
      = cbb1.base.written ++ [] ++ replicate n 0 := by
    rw [append_nil]
    exact written_put_added hadd'
  exact hflushed.appends_child rfl hwritten rfl hchild

theorem cbbAddAsn1_spec (h : cbbAddAsn1 heap d cbb tag = some opened) :
    Cbb.Opens d cbb opened (asn1Bytes tag) := by
  unfold cbbAddAsn1 at h
  split_ifs at h with htag
  obtain ⟨cbb1, hflush, h⟩ := bind_eq_some_iff.mp h
  obtain ⟨cbb2, htagged, h⟩ := bind_eq_some_iff.mp h
  obtain ⟨cbb3, hzero, h⟩ := bind_eq_some_iff.mp h
  cases h
  have hflushed := cbbFlush_spec hflush
  have hlen := hflushed.length_pending
  obtain ⟨hpending2, hwritten2⟩ := cbbAddU_self hlen htagged
  obtain ⟨hpending3, hwritten3⟩ := cbbAddU_self (by rw [hpending2, hlen]) hzero
  have htagBytes : beBytes 1 tag.toNat = [tag] := by
    simp [beBytes]
  rw [htagBytes] at hwritten2
  have hoffset : cbb2.base.len = cbb1.base.len + 1 := by
    rw [← length_written, hwritten2, length_append, length_written, length_singleton]
  refine ⟨by simp [hpending3, hpending2, hlen], fun hchild => ?_⟩
  rw [show asn1Bytes tag = fun c => (asn1Length c.length).map ([tag] ++ · ++ c) from
    funext fun c => asn1Bytes_eq htag c]
  have hwritten : cbb3.base.written = cbb1.base.written ++ [tag] ++ replicate 1 0 := by
    rw [hwritten3, hwritten2]
    rfl
  exact hflushed.appends_child (by rw [hpending3, hpending2]) hwritten hoffset hchild

theorem cbbAddU8_spec {value : UInt8} (h : cbbAddU8 heap d cbb value = some cbb') :
    Cbb.Appends d cbb cbb' (some [value]) := by
  have happends := cbbAddU_spec h
  have hvalue : beBytes 1 value.toNat = [value] := by simp [beBytes]
  rwa [hvalue] at happends

theorem Cbb.Appends.flush {a b c : Cbb} {bytes : Option Bytes} (h : Cbb.Appends d a b bytes)
    (hflush : cbbFlush heap d b = some c) : ∃ x, bytes = some x ∧ Cbb.Appends d a c (some x) := by
  have hflushed := cbbFlush_spec hflush
  have hvalue := h.value
  rw [hflushed.value] at hvalue
  obtain ⟨before, hbefore, hvalue⟩ := bind_eq_some_iff.mp hvalue.symm
  obtain ⟨x, rfl, hwritten⟩ := map_eq_some_iff.mp hvalue
  have hself := hflushed.appends (show c.base.written = c.base.written ++ [] by simp)
  have hboth := h.trans hself
  rw [bind_some, map_some, append_nil] at hboth
  exact ⟨x, rfl, hboth⟩

theorem asn1Bytes_eq_some {c : Bytes} (h : asn1Bytes tag c = some bytes) :
    bytes = element tag c ∧ tag &&& 0x1f ≠ 0x1f ∧ c.length ≤ 0xfffffffe := by
  unfold asn1Bytes at h
  split at h
  · cases h
  · next hgood =>
    cases h
    push Not at hgood
    exact ⟨rfl, hgood⟩

theorem toNat_shiftRight (hv : value < 256 ^ (n + 1)) :
    value >>> (8 * n) = value / 256 ^ n ∧
      (ofNat (value >>> (8 * n))).toNat = value / 256 ^ n := by
  have hbyte : value >>> (8 * n) = value / 256 ^ n := by
    rw [shiftRight_eq_div_pow, pow_mul]
    rfl
  have hlt : value / 256 ^ n < 256 := by
    exact Nat.div_lt_of_lt_mul hv
  exact ⟨hbyte, by rw [hbyte, toNat_ofNat', mod_eq_of_lt hlt]⟩

theorem lt_of_shiftRight_eq_zero (hv : value < 256 ^ (n + 1))
    (h : ofNat (value >>> (8 * n)) = 0) : value < 256 ^ n := by
  have hpos : 0 < 256 ^ n := by positivity
  have hzero := (toNat_shiftRight hv).2
  rw [h] at hzero
  exact (div_eq_zero_iff_lt hpos).mp hzero.symm

theorem le_of_shiftRight_ne_zero (h : ofNat (value >>> (8 * n)) ≠ 0) : 256 ^ n ≤ value := by
  by_contra hlt
  have hzero : value >>> (8 * n) = 0 := by
    rw [shiftRight_eq_div_pow, pow_mul]
    exact div_eq_of_lt (Nat.lt_of_not_le hlt)
  exact h (hzero ▸ rfl)

theorem uint64Bytes_started : ∀ {n : ℕ} {child : Cbb},
    uint64Bytes heap d value n true child =
      ((beBytes n value).foldlM (cbbAddU8 heap d) child).map (true, ·)
  | 0, child => rfl
  | n + 1, child => by
    rw [uint64Bytes, beBytes_succ, shiftRight_eq_div_pow, pow_mul]
    simp only [Bool.true_eq_false, false_and, if_false, foldlM_cons, bind_eq_bind, map_bind]
    exact congrArg _ (funext fun child => uint64Bytes_started)

theorem uint64Bytes_zero : ∀ {n : ℕ} {child : Cbb}, value < 256 ^ n →
    ((uint64Bytes heap d value n false child).bind fun r => uint64Zero heap d r.1 r.2) =
      (integerBytes value).foldlM (cbbAddU8 heap d) child
  | 0, child, hv => by
    obtain rfl : value = 0 := lt_one_iff.mp hv
    exact (bind_fun_some _).symm
  | n + 1, child, hv => by
    obtain ⟨hbyte, htoNat⟩ := toNat_shiftRight hv
    simp only [uint64Bytes, true_and]
    by_cases hzero : ofNat (value >>> (8 * n)) = 0
    · -- A leading zero.
      rw [if_pos hzero]
      exact uint64Bytes_zero (lt_of_shiftRight_eq_zero hv hzero)
    have hrest : ∀ child : Cbb, ((uint64Bytes heap d value n true child).bind fun r =>
        uint64Zero heap d r.1 r.2) = (beBytes n value).foldlM (cbbAddU8 heap d) child := by
      intro child
      rw [uint64Bytes_started, bind_map]
      exact bind_fun_some _
    rw [if_neg hzero, integerBytes_eq (le_of_shiftRight_ne_zero hzero) hv, ← htoNat, beBytes_succ,
      ← hbyte]
    by_cases htop : ofNat (value >>> (8 * n)) &&& 0x80 = 0
    · rw [if_neg (not_not.mpr htop), if_pos ((and_80_eq_zero _).mp htop)]
      simp [bind_assoc, hrest]
    · rw [if_pos htop, if_neg (mt (and_80_eq_zero _).mpr htop)]
      simp [bind_assoc, hrest]

theorem addBytes_spec : ∀ {bytes : Bytes} {child child' : Cbb}, d ≤ child.pending.length →
    bytes.foldlM (cbbAddU8 heap d) child = some child' →
    Cbb.Appends d child child' (some bytes)
  | [], child, child', hd, h => by
    cases h
    exact .refl hd
  | b :: bytes, child, child', hd, h => by
    obtain ⟨child1, hadd, h⟩ := bind_eq_some_iff.mp h
    have happends := cbbAddU8_spec hadd
    exact happends.trans (addBytes_spec happends.depth' h)

theorem cbbAddAsn1Uint64_eq (cbb : Cbb) (value : UInt64) :
    cbbAddAsn1Uint64 heap d cbb value = (cbbAddAsn1 heap d cbb cbsAsn1Integer).bind fun child =>
      ((integerBytes value.toNat).foldlM (cbbAddU8 heap (d + 1)) child).bind (cbbFlush heap d) := by
  have hv : value.toNat < 256 ^ 8 := value.toNat_lt
  simp only [cbbAddAsn1Uint64, ← uint64Bytes_zero hv, bind_eq_bind, bind_assoc]

theorem cbbAddAsn1Uint64_spec {value : UInt64} (h : cbbAddAsn1Uint64 heap d cbb value = some cbb') :
    Cbb.Appends d cbb cbb' (some (element cbsAsn1Integer (integerBytes value.toNat))) := by
  rw [cbbAddAsn1Uint64_eq] at h
  obtain ⟨child, hopen, h⟩ := bind_eq_some_iff.mp h
  obtain ⟨child1, hbytes, hflush⟩ := bind_eq_some_iff.mp h
  have hcontents := addBytes_spec (cbbAddAsn1_spec hopen).depth.ge hbytes
  obtain ⟨x, hx, happends⟩ := ((cbbAddAsn1_spec hopen).close hcontents).flush hflush
  obtain ⟨rfl, -⟩ := asn1Bytes_eq_some hx
  exact happends

end

/-!
## With enough memory

Where the allocator gives what it is asked for, an operation on a growable `CBB` fails only on a
length that does not fit, or a string that would not fit the address space.
-/

def Heap.Ample (heap : Heap) : Prop := ∀ n, ∃ buf, heap n = some buf

def zeroHeap : Heap := fun _ => some fun _ => 0

theorem zeroHeap_ample : zeroHeap.Ample := fun _ => ⟨_, rfl⟩

/-- At depth `d` there is room for `n` more bytes. -/
structure Cbb.Room (cbb : Cbb) (d n : ℕ) : Prop where
  can_resize : cbb.base.can_resize = true
  depth : d ≤ cbb.pending.length
  value : ∃ before, cbb.value d = some before ∧ before.length + n < 2 ^ 64

theorem Cbb.Room.mono {d n k : ℕ} (h : cbb.Room d n) (hk : k ≤ n) : cbb.Room d k := by
  obtain ⟨before, hvalue, hlen⟩ := h.value
  exact ⟨h.can_resize, h.depth, before, hvalue, by omega⟩

/-- A growable `CBB` at depth `d` without a child, and room for `n` more bytes. -/
structure Cbb.Flat (cbb : Cbb) (d n : ℕ) : Prop where
  can_resize : cbb.base.can_resize = true
  depth : cbb.pending.length = d
  len : cbb.base.len + n < 2 ^ 64

section

variable (hheap : heap.Ample)

include hheap

theorem cbbBufferAdd_ample (hresize : base.can_resize = true) (hlen : base.len + n < 2 ^ 64) :
    ∃ base', cbbBufferAdd heap base n = some base' ∧ base'.can_resize = true := by
  unfold cbbBufferAdd
  rw [dif_neg (by omega)]
  by_cases hcap : base.len + n ≤ base.cap
  · rw [dif_pos hcap]
    exact ⟨_, rfl, hresize⟩
  · obtain ⟨buf, hbuf⟩ := hheap (newcap base.cap (base.len + n))
    rw [dif_neg hcap, if_pos hresize, hbuf]
    exact ⟨_, rfl, hresize⟩

omit hheap in
theorem exists_asn1LenLen {l : Bytes} (h : asn1Length len = some l) :
    ∃ k b, asn1LenLen len = some (k, b) ∧ l.length = k := by
  obtain ⟨⟨k, b⟩, hk⟩ : ∃ kb, asn1LenLen len = some kb := by
    unfold asn1Length at h
    unfold asn1LenLen
    split_ifs at h ⊢
    all_goals exact ⟨_, rfl⟩
  obtain ⟨hder, hk1, -⟩ := asn1LenLen_eq_some hk
  rw [hder] at h
  cases h
  exact ⟨k, b, hk, by rw [length_cons, length_beBytes]; omega⟩

variable {filled : Bytes}

omit hheap in
theorem Pending.fill_eq_some (h : p.fill bytes = some filled) :
    p.offset + p.pending_len_len ≤ bytes.length ∧ ∃ l,
      p.lengthBytes (bytes.length - (p.offset + p.pending_len_len)) = some l ∧
      p.pending_len_len ≤ l.length ∧
      filled.length + p.pending_len_len = bytes.length + l.length := by
  unfold Pending.fill at h
  split_ifs at h with hlen
  obtain ⟨l, hl, rfl⟩ := map_eq_some_iff.mp h
  refine ⟨by omega, l, hl, ?_, by simp; omega⟩
  unfold Pending.lengthBytes at hl
  split_ifs at hl with hasn1
  · obtain ⟨k, b, hk, hkl⟩ := exists_asn1LenLen hl
    obtain ⟨-, hk1, -⟩ := asn1LenLen_eq_some hk
    rw [p.one hasn1]
    omega
  · rw [lengthPrefix] at hl
    split_ifs at hl
    cases hl
    rw [length_beBytes]

theorem writePrefix_ample (hresize : base.can_resize = true) (h : p.fill base.written = some filled)
    (hlen : filled.length < 2 ^ 64) :
    ∃ base', writePrefix heap p base = some base' ∧ base'.can_resize = true := by
  obtain ⟨hstart, l, hl, hlle, hfilled⟩ := p.fill_eq_some h
  rw [length_written] at hstart hl hfilled
  simp only [writePrefix]
  rw [if_neg (by omega)]
  unfold Pending.lengthBytes at hl
  by_cases hasn1 : p.pending_is_asn1 = true
  · rw [if_pos hasn1] at hl ⊢
    have hone := p.one hasn1
    obtain ⟨k, b, hk, hkl⟩ := exists_asn1LenLen hl
    obtain ⟨-, hk1, hfit⟩ := asn1LenLen_eq_some hk
    obtain ⟨moved, hmoved, hresize'⟩ : ∃ moved, moveContents heap base
        (p.offset + p.pending_len_len) (base.len - (p.offset + p.pending_len_len)) k = some moved ∧
        moved.can_resize = true := by
      unfold moveContents
      split_ifs with hshort
      · obtain ⟨added, hadd, hresize'⟩ := cbbBufferAdd_ample hheap hresize (n := k - 1) (by omega)
        rw [hadd]
        exact ⟨_, rfl, hresize'⟩
      · exact ⟨base, rfl, hresize⟩
    rw [hk, bind_eq_bind, bind_some]
    rw [hmoved, bind_eq_bind, bind_some, putLength_eq, if_pos hfit]
    exact ⟨_, rfl, hresize'⟩
  · rw [if_neg hasn1, lengthPrefix] at hl
    rw [if_neg hasn1, putLength_eq]
    split at hl
    · next hfit =>
      rw [if_pos hfit]
      exact ⟨_, rfl, hresize⟩
    · cases hl

theorem cbbFlushFrom_ample : ∀ {ps : List Pending} {base : Base} {bytes : Bytes},
    base.can_resize = true → flushed ps base.written = some bytes → bytes.length < 2 ^ 64 →
    ∃ base', cbbFlushFrom heap ps base = some base' ∧ base'.can_resize = true
  | [], base, bytes, hresize, _, _ => ⟨base, rfl, hresize⟩
  | p :: ps, base, bytes, hresize, h, hlen => by
    obtain ⟨inner, hinner, hfill⟩ := bind_eq_some_iff.mp h
    obtain ⟨-, l, -, hl, hfilled⟩ := p.fill_eq_some hfill
    obtain ⟨base1, hbase1, hresize1⟩ := cbbFlushFrom_ample hresize hinner (by omega)
    have hwritten := cbbFlushFrom_spec hbase1
    rw [hinner, some_inj] at hwritten
    subst hwritten
    obtain ⟨base2, hbase2, hresize2⟩ := writePrefix_ample hheap hresize1 hfill hlen
    exact ⟨base2, by rw [cbbFlushFrom, hbase1, bind_some, hbase2], hresize2⟩

variable {d k : ℕ} {cbb : Cbb}

omit hheap in
theorem value_self (hlen : cbb.pending.length = d) : cbb.value d = some cbb.base.written := by
  rw [Cbb.value, drop_eq_nil_of_le hlen.le]
  rfl

omit hheap in
theorem Cbb.Flat.room (h : cbb.Flat d n) : cbb.Room d n :=
  ⟨h.can_resize, h.depth.ge, _, value_self h.depth, by
    rw [length_written]
    exact h.len⟩

omit hheap in
/-- What is appended is taken from the room. -/
theorem Cbb.Appends.room {cbb' : Cbb} (h : Cbb.Appends d cbb cbb' (some bytes))
    (hroom : cbb.Room d (bytes.length + n)) (hresize : cbb'.base.can_resize = true) :
    cbb'.Room d n := by
  obtain ⟨before, hvalue, hlen⟩ := hroom.value
  refine ⟨hresize, h.depth', _, h.value_some hvalue, ?_⟩
  rw [length_append]
  omega

theorem cbbFlush_ample (h : cbb.Room d n) :
    ∃ cbb', cbbFlush heap d cbb = some cbb' ∧ cbb'.Flat d n := by
  obtain ⟨before, hvalue, hlen⟩ := h.value
  obtain ⟨base, hbase, hresize⟩ := cbbFlushFrom_ample hheap h.can_resize hvalue (by omega)
  have hwritten := cbbFlushFrom_spec hbase
  rw [show flushed (cbb.pending.drop d) cbb.base.written = some before from hvalue,
    some_inj] at hwritten
  have hflush : cbbFlush heap d cbb = some ⟨base, cbb.pending.take d⟩ := by
    rw [cbbFlush, if_neg (not_lt.mpr h.depth), hbase, map_some]
  refine ⟨_, hflush, hresize, (cbbFlush_spec hflush).length_pending, ?_⟩
  rwa [hwritten, length_written] at hlen

theorem cbbAddBytes_ample (h : cbb.Room d (data.length + n)) :
    ∃ cbb', cbbAddBytes heap d cbb data = some cbb' ∧ cbb'.Flat d n := by
  obtain ⟨cbb1, hflush, hflat⟩ := cbbFlush_ample hheap h
  have hlen := hflat.len
  obtain ⟨base, hadd, hresize⟩ :=
    cbbBufferAdd_ample hheap hflat.can_resize (n := data.length) (by omega)
  refine ⟨{ cbb1 with base := base.put cbb1.base.len data }, ?_, hresize, hflat.depth, ?_⟩
  · simp only [cbbAddBytes, hflush, bind_eq_bind, bind_some, hadd]
  · rwa [← Nat.add_assoc, ← (cbbBufferAdd_spec hadd).1] at hlen

theorem cbbAddLengthPrefixed_ample (h : cbb.Room d (k + n)) :
    ∃ opened, cbbAddLengthPrefixed heap d cbb k = some opened ∧ opened.Flat (d + 1) n := by
  obtain ⟨cbb1, hflush, hflat⟩ := cbbFlush_ample hheap h
  have hlen := hflat.len
  obtain ⟨base, hadd, hresize⟩ := cbbBufferAdd_ample hheap hflat.can_resize (n := k) (by omega)
  refine ⟨⟨base.put cbb1.base.len (replicate k 0),
    cbb1.pending ++ [⟨cbb1.base.len, k, false, nofun⟩]⟩, ?_, hresize, ?_, ?_⟩
  · simp only [cbbAddLengthPrefixed, hflush, bind_eq_bind, bind_some, hadd]
  · rw [length_append, hflat.depth, length_singleton]
  · rwa [← Nat.add_assoc, ← (cbbBufferAdd_spec hadd).1] at hlen

theorem cbbAddU_ample {v : ℕ} (h : cbb.Room d (k + n)) :
    ∃ cbb', cbbAddU heap d cbb v k = some cbb' ∧ cbb'.Flat d n := by
  obtain ⟨cbb1, hflush, hflat⟩ := cbbFlush_ample hheap h
  have hlen := hflat.len
  obtain ⟨base, hadd, hresize⟩ : ∃ base, cbbBufferAddU heap cbb1.base v k = some base ∧
      base.can_resize = true := by
    unfold cbbBufferAddU
    split
    · exact ⟨_, rfl, hflat.can_resize⟩
    · obtain ⟨base, hadd, hresize⟩ := cbbBufferAdd_ample hheap hflat.can_resize (n := k) (by omega)
      rw [hadd]
      exact ⟨_, rfl, hresize⟩
  refine ⟨{ cbb1 with base := base }, ?_, hresize, hflat.depth, ?_⟩
  · simp only [cbbAddU, hflush, bind_eq_bind, bind_some, hadd]
  · rw [← length_written, cbbBufferAddU_spec hadd, length_append, length_written, length_beBytes]
    omega

theorem cbbAddU8_ample (value : UInt8) (h : cbb.Room d (1 + n)) :
    ∃ cbb', cbbAddU8 heap d cbb value = some cbb' ∧ cbb'.Flat d n :=
  cbbAddU_ample hheap h

theorem cbbAddAsn1_ample (htag : tag &&& 0x1f ≠ 0x1f) (h : cbb.Room d (1 + (1 + n))) :
    ∃ opened, cbbAddAsn1 heap d cbb tag = some opened ∧ opened.Flat (d + 1) n := by
  obtain ⟨cbb1, hflush, hflat1⟩ := cbbFlush_ample hheap h
  obtain ⟨cbb2, htagged, hflat2⟩ := cbbAddU8_ample hheap tag hflat1.room
  obtain ⟨cbb3, hzero, hflat3⟩ := cbbAddU8_ample hheap 0 hflat2.room
  refine ⟨{ cbb3 with pending := cbb3.pending ++ [⟨cbb2.base.len, 1, true, fun _ => rfl⟩] }, ?_,
    hflat3.can_resize, by rw [length_append, hflat3.depth, length_singleton], hflat3.len⟩
  simp only [cbbAddAsn1, if_neg htag, hflush, bind_eq_bind, bind_some, htagged, hzero]

theorem flush_element {out out1 : Cbb} {c : Bytes} (hopen : cbbAddAsn1 heap d out tag = some opened)
    (hcontents : Cbb.Appends (d + 1) opened out1 (some c)) (hresize : out1.base.can_resize = true)
    (htag : tag &&& 0x1f ≠ 0x1f) (hc : c.length ≤ 0xfffffffe)
    (hroom : out.Room d ((element tag c).length + n)) :
    ∃ out2, cbbFlush heap d out1 = some out2 ∧ out2.Flat d n ∧
      Cbb.Appends d out out2 (some (element tag c)) := by
  have hbytes : (some c).bind (asn1Bytes tag) = some (element tag c) :=
    if_neg (not_or.mpr ⟨htag, by omega⟩)
  have happends := (cbbAddAsn1_spec hopen).close hcontents
  rw [hbytes] at happends
  obtain ⟨out2, hflush, hflat⟩ := cbbFlush_ample hheap (happends.room hroom hresize)
  obtain ⟨x, hx, happends2⟩ := happends.flush hflush
  cases hx
  exact ⟨out2, hflush, hflat, happends2⟩

theorem addBytes_ample : ∀ (bytes : Bytes) {child : Cbb}, child.Flat d (bytes.length + n) →
    ∃ child', bytes.foldlM (cbbAddU8 heap d) child = some child' ∧ child'.Flat d n
  | [], child, h => ⟨child, rfl, by rwa [length_nil, Nat.zero_add] at h⟩
  | b :: bytes, child, h => by
    rw [length_cons, Nat.add_comm _ 1, Nat.add_assoc] at h
    obtain ⟨child1, hadd, hflat⟩ := cbbAddU8_ample hheap b h.room
    obtain ⟨child2, hrest, hflat2⟩ := addBytes_ample bytes hflat
    refine ⟨child2, ?_, hflat2⟩
    rw [foldlM_cons, hadd]
    exact hrest

theorem cbbAddAsn1Uint64_ample {value : UInt64}
    (h : cbb.Room d (element cbsAsn1Integer (integerBytes value.toNat)).length) :
    ∃ cbb', cbbAddAsn1Uint64 heap d cbb value = some cbb' ∧ cbb'.base.can_resize = true := by
  have hle := length_element cbsAsn1Integer (integerBytes value.toNat)
  have h9 := length_integerBytes_le value.toNat_lt
  obtain ⟨child, hopen, hflat⟩ := cbbAddAsn1_ample hheap
    (show cbsAsn1Integer &&& 0x1f ≠ 0x1f by decide)
    (h.mono (show 1 + (1 + ((integerBytes value.toNat).length + 0)) ≤ _ by omega))
  obtain ⟨child1, hbytes, hflat1⟩ := addBytes_ample hheap _ hflat
  obtain ⟨cbb', hflush, hflat', -⟩ := flush_element hheap (n := 0) hopen
    (addBytes_spec hflat.depth.ge hbytes) hflat1.can_resize (by decide) (by omega) h
  refine ⟨cbb', ?_, hflat'.can_resize⟩
  rw [cbbAddAsn1Uint64_eq, hopen, bind_some, hbytes, bind_some, hflush]

end

end VigorTls.Bytestring
