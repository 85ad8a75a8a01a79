import VigorTls.Bytestring.Cbb

/-!
# Builders and readers

A `Forest` is a sequence of `CBB` operations in which children carry sequences of their own. `run`
carries it out on a buffer and `serialize` says which bytes it stands for (`run_writes`). Reading
the bytes by the `shape` of the forest gives the forest back (`parse_serialize`).
-/

namespace VigorTls.Bytestring

open Lib Option List

inductive Width where
  | u8
  | u16
  | u24

def Width.lenLen : Width → ℕ
  | .u8 => 1
  | .u16 => 2
  | .u24 => 3

/-- A sequence of operations on one `CBB`. -/
inductive Forest where
  | done
  | u8 (value : UInt8) (rest : Forest)
  | u16 (value : UInt16) (rest : Forest)
  | u24 (value : BitVec 24) (rest : Forest)
  | bytes (data : Bytes) (rest : Forest)
  | asn1Uint64 (value : UInt64) (rest : Forest)
  | lengthPrefixed (w : Width) (child rest : Forest)
  | asn1 (tag : UInt8) (child rest : Forest)

def cbbAddPrefixed (heap : Heap) (d : ℕ) (cbb : Cbb) : Width → Option Cbb
  | .u8 => cbbAddU8LengthPrefixed heap d cbb
  | .u16 => cbbAddU16LengthPrefixed heap d cbb
  | .u24 => cbbAddU24LengthPrefixed heap d cbb

/-- The operations carried out on the `CBB` at depth `d`, up to the first that fails. -/
def run (heap : Heap) (d : ℕ) : Forest → Cbb → Option Cbb
  | .done, cbb => some cbb
  | .u8 value rest, cbb => (cbbAddU8 heap d cbb value).bind (run heap d rest)
  | .u16 value rest, cbb => (cbbAddU16 heap d cbb value).bind (run heap d rest)
  | .u24 value rest, cbb =>
    (cbbAddU24 heap d cbb (UInt32.ofNat value.toNat)).bind (run heap d rest)
  | .bytes data rest, cbb => (cbbAddBytes heap d cbb data).bind (run heap d rest)
  | .asn1Uint64 value rest, cbb => (cbbAddAsn1Uint64 heap d cbb value).bind (run heap d rest)
  | .lengthPrefixed w child rest, cbb =>
    ((cbbAddPrefixed heap d cbb w).bind (run heap (d + 1) child)).bind (run heap d rest)
  | .asn1 tag child rest, cbb =>
    ((cbbAddAsn1 heap d cbb tag).bind (run heap (d + 1) child)).bind (run heap d rest)

/-- A string built with a `CBB` from start to finish. -/
def build (heap : Heap) (initial_capacity : ℕ) (ops : Forest) : Option Bytes :=
  ((cbbInit heap initial_capacity).bind (run heap 0 ops)).bind (cbbFinish heap)

/-- The bytes that a forest stands for, unless the length of a child does not fit. -/
def Forest.serialize : Forest → Option Bytes
  | .done => some []
  | .u8 value rest => rest.serialize.map (value :: ·)
  | .u16 value rest => rest.serialize.map (beBytes 2 value.toNat ++ ·)
  | .u24 value rest => rest.serialize.map (beBytes 3 value.toNat ++ ·)
  | .bytes data rest => rest.serialize.map (data ++ ·)
  | .asn1Uint64 value rest =>
    rest.serialize.map (element cbsAsn1Integer (integerBytes value.toNat) ++ ·)
  | .lengthPrefixed w child rest =>
    (child.serialize.bind (prefixedBytes w.lenLen)).bind fun c => rest.serialize.map (c ++ ·)
  | .asn1 tag child rest =>
    (child.serialize.bind (asn1Bytes tag)).bind fun c => rest.serialize.map (c ++ ·)

def Forest.Overlong : Forest → Prop
  | .done => False
  | .u8 _ rest | .u16 _ rest | .u24 _ rest | .bytes _ rest | .asn1Uint64 _ rest => rest.Overlong
  | .lengthPrefixed w child rest =>
    (∃ c, child.serialize = some c ∧ 256 ^ w.lenLen ≤ c.length) ∨ child.Overlong ∨ rest.Overlong
  | .asn1 _ child rest =>
    (∃ c, child.serialize = some c ∧ 0xfffffffe < c.length) ∨ child.Overlong ∨ rest.Overlong

theorem Forest.Overlong.serialize_eq_none : ∀ {ops : Forest}, ops.Overlong → ops.serialize = none
  | .u8 _ rest, h | .u16 _ rest, h | .u24 _ rest, h | .bytes _ rest, h | .asn1Uint64 _ rest, h => by
    rw [serialize, @serialize_eq_none rest h, map_none]
  | .lengthPrefixed w child rest, h => by
    rw [serialize]
    rcases h with ⟨c, hc, hlen⟩ | hchild | hrest
    · rw [hc, bind_some, prefixedBytes, lengthPrefix, if_neg (by omega)]
      rfl
    · rw [serialize_eq_none hchild]
      rfl
    · simp [serialize_eq_none hrest]
  | .asn1 tag child rest, h => by
    rw [serialize]
    rcases h with ⟨c, hc, hlen⟩ | hchild | hrest
    · rw [hc, bind_some, asn1Bytes, if_pos (.inr hlen)]
      rfl
    · rw [serialize_eq_none hchild]
      rfl
    · simp [serialize_eq_none hrest]

/-! ## Running a forest -/

variable {c bytes : Bytes}

theorem length_prefixedBytes {n : ℕ} (h : prefixedBytes n c = some bytes) :
    bytes.length = n + c.length := by
  unfold prefixedBytes lengthPrefix at h
  split at h
  · cases h
    simp
  · cases h

theorem length_asn1Bytes {tag : UInt8} (h : asn1Bytes tag c = some bytes) :
    tag &&& 0x1f ≠ 0x1f ∧ 2 + c.length ≤ bytes.length := by
  unfold asn1Bytes at h
  split at h
  · cases h
  next hgood =>
  cases h
  have hpos := length_derLength_pos c.length
  refine ⟨fun htag => hgood (.inl htag), ?_⟩
  simp [element, header]
  omega

theorem cbbAddPrefixed_eq (heap : Heap) (d : ℕ) (cbb : Cbb) (w : Width) :
    cbbAddPrefixed heap d cbb w = cbbAddLengthPrefixed heap d cbb w.lenLen := by
  cases w <;> rfl

/-- An operation that appends `x`. With enough memory it succeeds, unless `x` is none. -/
structure Writes (heap : Heap) (d : ℕ) (op : Cbb → Option Cbb) (x : Option Bytes) :
    Prop where
  appends : ∀ {cbb cbb'}, d ≤ cbb.pending.length → op cbb = some cbb' → Cbb.Appends d cbb cbb' x
  ample : heap.Ample → ∀ {bytes cbb}, x = some bytes → cbb.Room d bytes.length →
    ∃ cbb', op cbb = some cbb' ∧ cbb'.base.can_resize = true

section Writes

variable {heap : Heap} {d : ℕ} {f g : Cbb → Option Cbb} {x y : Option Bytes}

theorem Writes.done : Writes heap d some (some []) :=
  ⟨fun hd h => Option.some.inj h ▸ .refl hd, fun _ _ cbb _ hroom => ⟨cbb, rfl, hroom.can_resize⟩⟩

theorem Writes.bind (hf : Writes heap d f x) (hg : Writes heap d g y) :
    Writes heap d (fun cbb => (f cbb).bind g) (x.bind fun a => y.map (a ++ ·)) where
  appends hd h := by
    obtain ⟨cbb1, hf', hg'⟩ := bind_eq_some_iff.mp h
    have happends := hf.appends hd hf'
    exact happends.trans (hg.appends happends.depth' hg')
  ample hheap bytes cbb hbytes hroom := by
    obtain ⟨a, rfl, hbytes⟩ := bind_eq_some_iff.mp hbytes
    obtain ⟨tail, htail, rfl⟩ := map_eq_some_iff.mp hbytes
    rw [length_append] at hroom
    obtain ⟨cbb1, hf', hresize⟩ := hf.ample hheap rfl (hroom.mono (Nat.le_add_right ..))
    rw [hf']
    exact hg.ample hheap htail ((hf.appends hroom.depth hf').room hroom hresize)

theorem Writes.addU (v n : ℕ) :
    Writes heap d (cbbAddU heap d · v n) (some (beBytes n v)) where
  appends _ h := cbbAddU_spec h
  ample hheap _ cbb hbytes hroom := by
    cases hbytes
    rw [length_beBytes] at hroom
    obtain ⟨cbb1, hadd, hflat⟩ := cbbAddU_ample hheap (v := v) (n := 0) hroom
    exact ⟨cbb1, hadd, hflat.can_resize⟩

theorem Writes.child {wrap : Bytes → Option Bytes}
    (hspec : ∀ {cbb opened}, f cbb = some opened → Cbb.Opens d cbb opened wrap)
    (hample : heap.Ample → ∀ {c bytes cbb}, wrap c = some bytes → cbb.Room d bytes.length →
      ∃ opened, f cbb = some opened ∧ opened.Flat (d + 1) c.length)
    (hg : Writes heap (d + 1) g x) : Writes heap d (fun cbb => (f cbb).bind g) (x.bind wrap) where
  appends hd h := by
    obtain ⟨opened, hf', hg'⟩ := bind_eq_some_iff.mp h
    have hopens := hspec hf'
    exact hopens.close (hg.appends hopens.depth.ge hg')
  ample hheap bytes cbb hbytes hroom := by
    obtain ⟨c, rfl, hwrap⟩ := bind_eq_some_iff.mp hbytes
    obtain ⟨opened, hf', hflat⟩ := hample hheap hwrap hroom
    rw [hf']
    exact hg.ample hheap rfl hflat.room

end Writes

theorem run_writes {heap : Heap} : ∀ (ops : Forest) (d : ℕ),
    Writes heap d (run heap d ops) ops.serialize
  | .done, d => .done
  | .u8 value rest, d => by
    have hadd := (Writes.addU value.toNat 1).bind (@run_writes heap rest d)
    have hvalue : beBytes 1 value.toNat = [value] := by simp [beBytes]
    rw [hvalue] at hadd
    exact hadd
  | .u16 value rest, d => (Writes.addU value.toNat 2).bind (run_writes rest d)
  | .u24 value rest, d => by
    have hadd := (Writes.addU (UInt32.ofNat value.toNat).toNat 3).bind (@run_writes heap rest d)
    have hvalue : (UInt32.ofNat value.toNat).toNat = value.toNat := by
      rw [UInt32.toNat_ofNat']
      omega
    rw [congrArg (beBytes 3) hvalue] at hadd
    exact hadd
  | .bytes data rest, d => by
    refine .bind (x := some data) ⟨fun _ h => cbbAddBytes_spec h, ?_⟩ (run_writes rest d)
    rintro hheap _ cbb ⟨⟩ hroom
    obtain ⟨cbb', hadd, hflat⟩ := cbbAddBytes_ample hheap (n := 0) hroom
    exact ⟨cbb', hadd, hflat.can_resize⟩
  | .asn1Uint64 value rest, d => by
    refine .bind (x := some _) ⟨fun _ h => cbbAddAsn1Uint64_spec h, ?_⟩ (run_writes rest d)
    rintro hheap _ cbb ⟨⟩ hroom
    exact cbbAddAsn1Uint64_ample hheap hroom
  | .lengthPrefixed w child rest, d => by
    refine .bind (.child (fun h => ?_) (fun hheap c bytes cbb hwrap hroom => ?_)
      (run_writes child (d + 1))) (run_writes rest d)
    · rw [cbbAddPrefixed_eq] at h
      exact cbbAddLengthPrefixed_spec h
    · rw [length_prefixedBytes hwrap] at hroom
      rw [cbbAddPrefixed_eq]
      exact cbbAddLengthPrefixed_ample hheap hroom
  | .asn1 tag child rest, d => by
    refine .bind (.child cbbAddAsn1_spec (fun hheap c bytes cbb hwrap hroom => ?_)
      (run_writes child (d + 1))) (run_writes rest d)
    obtain ⟨htag, hlen⟩ := length_asn1Bytes hwrap
    exact cbbAddAsn1_ample hheap htag (hroom.mono (by omega))

variable {out : Bytes}

theorem build_serialize {heap : Heap} {cap : ℕ} {ops : Forest} (h : build heap cap ops = some out) :
    ops.serialize = some out := by
  obtain ⟨cbb1, hrun, hfinish⟩ := bind_eq_some_iff.mp h
  obtain ⟨cbb0, hinit, hrun⟩ := bind_eq_some_iff.mp hrun
  obtain ⟨buf, -, rfl⟩ := map_eq_some_iff.mp hinit
  obtain ⟨cbb2, hflush, rfl⟩ := map_eq_some_iff.mp hfinish
  have hvalue := ((run_writes ops 0).appends (Nat.zero_le _) hrun).value
  rw [(cbbFlush_spec hflush).value] at hvalue
  have hempty :
      Cbb.value 0 ⟨⟨buf, 0, cap, true, Nat.zero_le cap, Nat.two_pow_pos 64⟩, []⟩ = some [] := rfl
  rw [hempty] at hvalue
  simpa using hvalue.symm

theorem build_ample {heap : Heap} (hheap : heap.Ample) (cap : ℕ) {ops : Forest}
    (hout : ops.serialize = some out) (hlen : out.length < 2 ^ 64) :
    build heap cap ops = some out := by
  obtain ⟨buf, hbuf⟩ := hheap cap
  let cbb0 : Cbb := ⟨⟨buf, 0, cap, true, Nat.zero_le cap, Nat.two_pow_pos 64⟩, []⟩
  have hempty : cbb0.value 0 = some [] := rfl
  have hroom : cbb0.Room 0 out.length := ⟨rfl, Nat.zero_le _, [], hempty, by simpa using hlen⟩
  obtain ⟨cbb, hrun, hresize⟩ := (run_writes ops 0).ample hheap hout hroom
  have happends := (run_writes ops 0).appends (Nat.zero_le _) hrun
  rw [hout] at happends
  obtain ⟨cbb', hflush, -⟩ := cbbFlush_ample hheap (happends.room (n := 0) hroom hresize)
  have hbuild : build heap cap ops = some cbb'.base.written := by
    rw [build, cbbInit, hbuf, map_some, bind_some, hrun, bind_some, cbbFinish, hflush]
    rfl
  rw [hbuild, ← build_serialize hbuild, hout]

/-- A forest without its values: which getters to call, and for how many bytes. -/
inductive Shape where
  | done
  | u8 (rest : Shape)
  | u16 (rest : Shape)
  | u24 (rest : Shape)
  | bytes (len : ℕ) (rest : Shape)
  | asn1Uint64 (rest : Shape)
  | lengthPrefixed (w : Width) (child rest : Shape)
  | asn1 (tag : UInt8) (child rest : Shape)

/-- The getters that match a forest. -/
def Forest.shape : Forest → Shape
  | .done => .done
  | .u8 _ rest => .u8 rest.shape
  | .u16 _ rest => .u16 rest.shape
  | .u24 _ rest => .u24 rest.shape
  | .bytes data rest => .bytes data.length rest.shape
  | .asn1Uint64 _ rest => .asn1Uint64 rest.shape
  | .lengthPrefixed w child rest => .lengthPrefixed w child.shape rest.shape
  | .asn1 tag child rest => .asn1 tag child.shape rest.shape

def cbsGetPrefixed (cbs : Cbs) : Width → Option (Cbs × Cbs)
  | .u8 => cbsGetU8LengthPrefixed cbs
  | .u16 => cbsGetU16LengthPrefixed cbs
  | .u24 => cbsGetU24LengthPrefixed cbs

/-- The getters one after the other. The contents of a child are read to their end. -/
def parse : Shape → Cbs → Option (Forest × Cbs)
  | .done, cbs => some (.done, cbs)
  | .u8 rest, cbs => do
    let (value, cbs) ← cbsGetU8 cbs
    let (ops, cbs) ← parse rest cbs
    some (.u8 value ops, cbs)
  | .u16 rest, cbs => do
    let (value, cbs) ← cbsGetU16 cbs
    let (ops, cbs) ← parse rest cbs
    some (.u16 value ops, cbs)
  | .u24 rest, cbs => do
    let (value, cbs) ← cbsGetU24 cbs
    let (ops, cbs) ← parse rest cbs
    some (.u24 (BitVec.ofNat 24 value) ops, cbs)
  | .bytes len rest, cbs => do
    let (data, cbs) ← cbsGetBytes cbs len
    let (ops, cbs) ← parse rest cbs
    some (.bytes data ops, cbs)
  | .asn1Uint64 rest, cbs => do
    let (value, cbs) ← cbsGetAsn1Uint64 cbs
    let (ops, cbs) ← parse rest cbs
    some (.asn1Uint64 (UInt64.ofNat value) ops, cbs)
  | .lengthPrefixed w child rest, cbs => do
    let (contents, cbs) ← cbsGetPrefixed cbs w
    let (inner, left) ← parse child contents
    if left ≠ [] then none
    else
      let (ops, cbs) ← parse rest cbs
      some (.lengthPrefixed w inner ops, cbs)
  | .asn1 tag child rest, cbs => do
    let (contents, cbs) ← cbsGetAsn1 cbs tag
    let (inner, left) ← parse child contents
    if left ≠ [] then none
    else
      let (ops, cbs) ← parse rest cbs
      some (.asn1 tag inner ops, cbs)

theorem cbsGetPrefixed_eq (cbs : Cbs) (w : Width) :
    cbsGetPrefixed cbs w = cbsGetLengthPrefixed cbs w.lenLen := by
  cases w <;> rfl

theorem cbsGetU_beBytes {n v : ℕ} (hn : n ≤ 4) (hv : v < 256 ^ n) (rest : Cbs) :
    cbsGetU (beBytes n v ++ rest) n = some (v, rest) := by
  have hlen : (beBytes n v).length ≤ 4 := by rwa [length_beBytes]
  have h := cbsGetU_append hlen rest
  rwa [length_beBytes, beNat_beBytes_of_lt hv] at h

theorem cbsGetLengthPrefixed_prefixed {n : ℕ} (hn : n ≤ 4) (h : prefixedBytes n c = some bytes)
    (rest : Cbs) : cbsGetLengthPrefixed (bytes ++ rest) n = some (c, rest) := by
  unfold prefixedBytes lengthPrefix at h
  split at h
  · next hlen =>
    cases h
    rw [cbsGetLengthPrefixed, append_assoc, cbsGetU_beBytes hn hlen]
    exact cbsGet_append c rest
  · cases h

theorem cbsGetAsn1_asn1Bytes {tag : UInt8} (h : asn1Bytes tag c = some bytes) (rest : Cbs) :
    cbsGetAsn1 (bytes ++ rest) tag = some (c, rest) := by
  unfold asn1Bytes at h
  split at h
  · cases h
  · next hgood =>
    cases h
    push Not at hgood
    exact cbsGetAsn1_eq_some_iff.mpr ⟨hgood.1, by omega, rfl⟩

theorem parse_serialize : ∀ {ops : Forest} {bytes : Bytes}, ops.serialize = some bytes →
    ∀ rest, parse ops.shape (bytes ++ rest) = some (ops, rest)
  | .done, bytes, h, cbs => by
    cases h
    rfl
  | .u8 value rest, bytes, h, cbs => by
    obtain ⟨tail, htail, rfl⟩ := map_eq_some_iff.mp h
    simp [Forest.shape, parse, parse_serialize htail]
  | .u16 value rest, bytes, h, cbs => by
    obtain ⟨tail, htail, rfl⟩ := map_eq_some_iff.mp h
    have hget := cbsGetU_beBytes (n := 2) (by omega) value.toNat_lt (tail ++ cbs)
    simp [Forest.shape, parse, cbsGetU16, hget, parse_serialize htail]
  | .u24 value rest, bytes, h, cbs => by
    obtain ⟨tail, htail, rfl⟩ := map_eq_some_iff.mp h
    have hget := cbsGetU_beBytes (n := 3) (by omega) value.isLt (tail ++ cbs)
    simp [Forest.shape, parse, cbsGetU24, hget, parse_serialize htail]
  | .bytes data rest, bytes, h, cbs => by
    obtain ⟨tail, htail, rfl⟩ := map_eq_some_iff.mp h
    have hget : cbsGetBytes (data ++ (tail ++ cbs)) data.length = some (data, tail ++ cbs) :=
      cbsGet_append data (tail ++ cbs)
    simp [Forest.shape, parse, hget, parse_serialize htail]
  | .asn1Uint64 value rest, bytes, h, cbs => by
    obtain ⟨tail, htail, rfl⟩ := map_eq_some_iff.mp h
    have hget := cbsGetAsn1Uint64_element value.toNat_lt (tail ++ cbs)
    simp [Forest.shape, parse, hget, parse_serialize htail]
  | .lengthPrefixed w child rest, bytes, h, cbs => by
    obtain ⟨wrapped, hwrapped, h⟩ := bind_eq_some_iff.mp h
    obtain ⟨c, hc, hwrap⟩ := bind_eq_some_iff.mp hwrapped
    obtain ⟨tail, htail, rfl⟩ := map_eq_some_iff.mp h
    have hw : w.lenLen ≤ 4 := by cases w <;> decide
    have hget := cbsGetLengthPrefixed_prefixed hw hwrap (tail ++ cbs)
    have hchild := parse_serialize hc []
    rw [append_nil] at hchild
    simp [Forest.shape, parse, cbsGetPrefixed_eq, hget, hchild, parse_serialize htail]
  | .asn1 tag child rest, bytes, h, cbs => by
    obtain ⟨wrapped, hwrapped, h⟩ := bind_eq_some_iff.mp h
    obtain ⟨c, hc, hwrap⟩ := bind_eq_some_iff.mp hwrapped
    obtain ⟨tail, htail, rfl⟩ := map_eq_some_iff.mp h
    have hget := cbsGetAsn1_asn1Bytes hwrap (tail ++ cbs)
    have hchild := parse_serialize hc []
    rw [append_nil] at hchild
    simp [Forest.shape, parse, hget, hchild, parse_serialize htail]

/-- A string that `CBB_finish` gives is the serialisation of its operations and is read back to
them; one in which a child does not fit its prefix is never finished; with enough memory there are
no others. -/
theorem built_reads_back (heap : Heap) (cap : ℕ) (ops : Forest) :
    (∀ out, build heap cap ops = some out →
      ops.serialize = some out ∧ parse ops.shape out = some (ops, [])) ∧
    (ops.Overlong → build heap cap ops = none) ∧
    (heap.Ample → ∀ out, ops.serialize = some out → out.length < 2 ^ 64 →
      build heap cap ops = some out) := by
  refine ⟨fun out h => ?_, fun hover => ?_,
    fun hheap out hout hlen => build_ample hheap cap hout hlen⟩
  · have hserialize := build_serialize h
    have hparse := parse_serialize hserialize []
    rw [append_nil] at hparse
    exact ⟨hserialize, hparse⟩
  rw [eq_none_iff_forall_ne_some]
  intro out h
  have hserialize := build_serialize h
  rw [hover.serialize_eq_none] at hserialize
  cases hserialize

-- The two prefixes are pending at once when the bytes are added.
example : build (fun _ => some fun _ => 0xaa) 0
    (.asn1 0x30 (.u8 1 (.lengthPrefixed .u16 (.bytes [7, 8] .done) .done)) .done)
      = some [0x30, 5, 1, 0, 2, 7, 8] := by decide

end VigorTls.Bytestring
