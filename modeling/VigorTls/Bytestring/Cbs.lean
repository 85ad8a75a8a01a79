import Mathlib.Data.Nat.Bitwise
import VigorTls.Lib.Der

/-!
# Reading byte strings

`crypto/bytestring/cbs.c`: a `CBS` is a range of bytes, and each getter takes a value off its front.
-/

namespace VigorTls.Bytestring

open Lib List Option Nat UInt8

/-- A `CBS`: the bytes that are left. -/
abbrev Cbs := Bytes

/-! ## Numbers and bytes -/

variable (cbs : Cbs) (tag_value : UInt8)

def cbsGet (n : ℕ) : Option (Bytes × Cbs) :=
  if cbs.length < n then none else some (cbs.take n, cbs.drop n)

def cbsSkip (len : ℕ) : Option Cbs := (cbsGet cbs len).map Prod.snd

/-- One turn of the loop of `cbs_get_u`, on a `uint32_t`. -/
def shiftIn (result : ℕ) (b : UInt8) : ℕ := (result <<< 8) % 2 ^ 32 ||| b.toNat

def cbsGetU (len : ℕ) : Option (ℕ × Cbs) :=
  (cbsGet cbs len).map fun (data, cbs) => (data.foldl shiftIn 0, cbs)

def cbsGetU8 : Option (UInt8 × Cbs) :=
  (cbsGet cbs 1).map fun (v, cbs) => (v.headD 0, cbs)

def cbsGetU16 : Option (UInt16 × Cbs) :=
  (cbsGetU cbs 2).map fun (v, cbs) => (UInt16.ofNat v, cbs)

def cbsGetU24 : Option (ℕ × Cbs) := cbsGetU cbs 3

def cbsGetBytes (len : ℕ) : Option (Cbs × Cbs) := cbsGet cbs len

def cbsGetLengthPrefixed (len_len : ℕ) : Option (Cbs × Cbs) := do
  let (len, cbs) ← cbsGetU cbs len_len
  cbsGetBytes cbs len

def cbsGetU8LengthPrefixed : Option (Cbs × Cbs) := cbsGetLengthPrefixed cbs 1

def cbsGetU16LengthPrefixed : Option (Cbs × Cbs) := cbsGetLengthPrefixed cbs 2

def cbsGetU24LengthPrefixed : Option (Cbs × Cbs) := cbsGetLengthPrefixed cbs 3

/-! ## ASN.1 elements -/

abbrev cbsAsn1Constructed : UInt8 := 0x20

/-- What `CBS_get_any_asn1_element` returns. -/
structure Element where
  contents : Cbs
  tag : UInt8
  header_len : ℕ
deriving DecidableEq

/-- `CBS_get_any_asn1_element`; with a `size_t` of 64 bits the last sum does not wrap. -/
def cbsGetAnyAsn1Element : Option (Element × Cbs) := do
  let (tag, header) ← cbsGetU8 cbs
  let (length_byte, header) ← cbsGetU8 header
  if tag &&& 0x1f = 0x1f then none
  else if length_byte &&& 0x80 = 0 then
    let (out, cbs) ← cbsGetBytes cbs (length_byte.toNat + 2)
    some (⟨out, tag, 2⟩, cbs)
  else
    let num_bytes := (length_byte &&& 0x7f).toNat
    if tag &&& cbsAsn1Constructed ≠ 0 ∧ num_bytes = 0 then
      let (out, cbs) ← cbsGetBytes cbs 2
      some (⟨out, tag, 2⟩, cbs)
    else if num_bytes = 0 ∨ 4 < num_bytes then none
    else
      let (len32, _) ← cbsGetU header num_bytes
      if len32 < 128 then none
      else if len32 >>> ((num_bytes - 1) * 8) = 0 then none
      else
        let (out, cbs) ← cbsGetBytes cbs (len32 + (2 + num_bytes))
        some (⟨out, tag, 2 + num_bytes⟩, cbs)

/-- An element of only its header, which ends in `0x80`. -/
def Element.isIndefinite (e : Element) : Prop :=
  e.contents.length = e.header_len ∧ 0 < e.header_len ∧ e.contents[e.header_len - 1]? = some 0x80

instance (e : Element) : Decidable e.isIndefinite := by unfold Element.isIndefinite; infer_instance

def cbsGetAsn1With (skip_header : Bool) : Option (Cbs × Cbs) := do
  let (e, cbs) ← cbsGetAnyAsn1Element cbs
  if e.tag ≠ tag_value ∨ e.isIndefinite then none
  else if skip_header then
    let out ← cbsSkip e.contents e.header_len
    some (out, cbs)
  else some (e.contents, cbs)

def cbsGetAsn1 : Option (Cbs × Cbs) :=
  cbsGetAsn1With cbs tag_value true

def cbsPeekAsn1Tag : Bool := cbs.head? = some tag_value

abbrev cbsAsn1Integer : UInt8 := 0x02

abbrev cbsAsn1Octetstring : UInt8 := 0x04

/-- The loop of `CBS_get_asn1_uint64`, on a `uint64_t`. -/
def uint64Loop : Bytes → ℕ → Option ℕ
  | [], out => some out
  | b :: data, out =>
    if out >>> 56 ≠ 0 then none else uint64Loop data ((out <<< 8) % 2 ^ 64 ||| b.toNat)

/-- `CBS_get_asn1_uint64`: neither negative nor longer than it need be. -/
def cbsGetAsn1Uint64 : Option (ℕ × Cbs) := do
  let (bytes, cbs) ← cbsGetAsn1 cbs cbsAsn1Integer
  match bytes with
  | [] => none
  | b :: data =>
    if b &&& 0x80 ≠ 0 then none
    else if b = 0 ∧ data ≠ [] ∧ data.headD 0 &&& 0x80 = 0 then none
    else
      let out ← uint64Loop bytes 0
      some (out, cbs)

variable (tag : UInt8)

/-- `CBS_get_optional_asn1`: the contents when the tag is there. -/
def cbsGetOptionalAsn1 : Option (Option Cbs × Cbs) :=
  if cbsPeekAsn1Tag cbs tag then (cbsGetAsn1 cbs tag).map fun (out, cbs) => (some out, cbs)
  else some (none, cbs)

def cbsGetOptionalAsn1OctetString : Option (Option Cbs × Cbs) := do
  let (child, cbs) ← cbsGetOptionalAsn1 cbs tag
  match child with
  | none => some (none, cbs)
  | some child =>
    let (out, child) ← cbsGetAsn1 child cbsAsn1Octetstring
    if child ≠ [] then none else some (some out, cbs)

def cbsGetOptionalAsn1Uint64 (default_value : ℕ) : Option (ℕ × Cbs) := do
  let (child, cbs) ← cbsGetOptionalAsn1 cbs tag
  match child with
  | none => some (default_value, cbs)
  | some child =>
    let (out, child) ← cbsGetAsn1Uint64 child
    if child ≠ [] then none else some (out, cbs)

theorem cbsGet_append (data rest : Bytes) :
    cbsGet (data ++ rest) data.length = some (data, rest) := by
  simp [cbsGet]

variable {rest cbs : Cbs} {n : ℕ}

theorem cbsGet_eq_some_iff {data : Cbs} :
    cbsGet cbs n = some (data, rest) ↔ cbs = data ++ rest ∧ data.length = n := by
  constructor
  · intro h
    unfold cbsGet at h
    split at h
    · cases h
    · cases h
      exact ⟨(take_append_drop n cbs).symm, by simp; omega⟩
  · rintro ⟨rfl, rfl⟩
    exact cbsGet_append data rest

theorem shiftIn_eq {result : ℕ} (h : result < 2 ^ 24) (b : UInt8) :
    shiftIn result b = result * 256 + b.toNat := by
  have hb : b.toNat < 2 ^ 8 := b.toNat_lt
  rw [shiftIn, shiftLeft_eq, mod_eq_of_lt (by omega), Nat.mul_comm, ← two_pow_add_eq_or_of_lt hb]

theorem foldl_shiftIn : ∀ (data : Bytes) {result : ℕ},
    result * 256 ^ data.length + beNat data < 2 ^ 32 →
    data.foldl shiftIn result = result * 256 ^ data.length + beNat data
  | [], result, _ => by simp
  | b :: data, result, h => by
    rw [length_cons, beNat_cons, pow_succ'] at h
    have hpos : 0 < 256 ^ data.length := by positivity
    have hresult : result < 2 ^ 24 := by nlinarith
    rw [foldl_cons, shiftIn_eq hresult, foldl_shiftIn data (by nlinarith), length_cons, beNat_cons]
    ring

variable {data : Bytes} {v : ℕ}

theorem foldl_shiftIn_zero (h : data.length ≤ 4) : data.foldl shiftIn 0 = beNat data := by
  have hlt : beNat data < 2 ^ 32 :=
    (beNat_lt data).trans_le (Nat.pow_le_pow_right (by decide) h)
  rw [foldl_shiftIn data (by omega)]
  omega

theorem cbsGetU_append (h : data.length ≤ 4) (rest : Cbs) :
    cbsGetU (data ++ rest) data.length = some (beNat data, rest) := by
  rw [cbsGetU, cbsGet_append, map_some, ← foldl_shiftIn_zero h]

theorem cbsGetU_eq_some_iff (hn : n ≤ 4) :
    cbsGetU cbs n = some (v, rest) ↔
      ∃ data, cbs = data ++ rest ∧ data.length = n ∧ v = beNat data := by
  constructor
  · intro h
    obtain ⟨⟨data, rest'⟩, hget, heq⟩ := map_eq_some_iff.mp h
    cases heq
    obtain ⟨rfl, rfl⟩ := cbsGet_eq_some_iff.mp hget
    exact ⟨data, rfl, rfl, foldl_shiftIn_zero hn⟩
  · rintro ⟨data, rfl, rfl, rfl⟩
    exact cbsGetU_append hn rest

@[simp] theorem cbsGetU8_nil : cbsGetU8 [] = none := rfl

@[simp] theorem cbsGetU8_cons (v : UInt8) (rest : Cbs) : cbsGetU8 (v :: rest) = some (v, rest) := by
  simp [cbsGetU8, cbsGet]

/-! ## Elements -/

theorem and_80_eq_zero (b : UInt8) : b &&& 0x80 = 0 ↔ b.toNat < 128 := by
  have hb : b.toNat < 2 ^ 8 := b.toNat_lt
  rw [← UInt8.toNat_inj]
  change b.toNat &&& 2 ^ 7 = 0 ↔ _
  rw [Nat.and_comm, two_pow_and, testBit_eq_decide_div_mod_eq]
  by_cases h : b.toNat < 128
  · simp [h, div_eq_of_lt h]
  · have hdiv : b.toNat / 128 = 1 := by omega
    simp [h, hdiv]

theorem toNat_and_7f (b : UInt8) : (b &&& 0x7f).toNat = b.toNat % 128 := by
  exact and_two_pow_sub_one_eq_mod b.toNat 7

/-- The header of an element with `n` bytes of contents. -/
def header (n : ℕ) : Bytes := tag :: derLength n

/-- The bytes of an element with a definite length. -/
def element (contents : Bytes) : Bytes :=
  header tag contents.length ++ contents

/-- An element of definite length as the getter returns it. -/
def Element.definite (contents : Bytes) : Element :=
  ⟨element tag contents, tag, (header tag contents.length).length⟩

/-- An element of indefinite length as the getter returns it. -/
def Element.indefinite : Element := ⟨[tag, 0x80], tag, 2⟩

@[simp] theorem Element.tag_definite (c : Bytes) :
    (Element.definite tag c).tag = tag := rfl

@[simp] theorem Element.tag_indefinite : (Element.indefinite tag).tag = tag := rfl

theorem length_header_short (h : n < 128) : (header tag n).length = 2 := by
  simp [header, derLength_short h]

theorem length_header_long (h : 128 ≤ n) : (header tag n).length = 2 + octets n := by
  simp [header, derLength_long h]
  omega

theorem length_element (c : Bytes) : c.length + 2 ≤ (element tag c).length := by
  have hpos := length_derLength_pos c.length
  simp [element, header]
  omega

theorem not_isIndefinite_definite (c : Bytes) : ¬ (Element.definite tag c).isIndefinite := by
  rintro ⟨hlen, -, hlast⟩
  have hc : c = [] := by
    simpa [Element.definite, element] using hlen
  subst hc
  simp [Element.definite, element, header, derLength_short] at hlast

theorem isIndefinite_indefinite : (Element.indefinite tag).isIndefinite :=
  ⟨rfl, succ_pos 1, rfl⟩

theorem cbsGetAnyAsn1Element_definite {tag : UInt8} (htag : tag &&& 0x1f ≠ 0x1f) {c : Bytes}
    (hc : c.length < 2 ^ 32) (rest : Cbs) :
    cbsGetAnyAsn1Element (element tag c ++ rest) = some (.definite tag c, rest) := by
  have hbytes {n : ℕ} (hn : n = c.length + (header tag c.length).length) :
      cbsGetBytes (element tag c ++ rest) n = some (element tag c, rest) :=
    cbsGet_eq_some_iff.mpr ⟨rfl, by simp [element]; omega⟩
  rcases Nat.lt_or_ge c.length 128 with hshort | hlong
  · have hlb : (ofNat c.length).toNat = c.length := by
      rw [toNat_ofNat']
      omega
    have hshape : element tag c ++ rest = tag :: ofNat c.length :: (c ++ rest) := by
      simp [element, header, derLength_short hshort]
    have hget := hbytes (n := c.length + 2) (by rw [length_header_short tag hshort])
    rw [hshape] at hget
    simp only [cbsGetAnyAsn1Element, hshape, cbsGetU8_cons, bind_eq_bind, bind_some,
      if_neg htag, if_pos ((and_80_eq_zero _).mpr (hlb ▸ hshort)), hlb, hget, Element.definite,
      length_header_short tag hshort]
  -- The long form: `octets` length bytes, at most four of them.
  have hk : octets c.length ≤ 4 := Nat.log_lt_of_lt_pow' (by decide) (by omega)
  have hk1 : 1 ≤ octets c.length := succ_pos _
  have hlb : (ofNat (128 + octets c.length)).toNat = 128 + octets c.length := by
    rw [toNat_ofNat']
    omega
  have hnum : (ofNat (128 + octets c.length) &&& 0x7f).toNat = octets c.length := by
    rw [toNat_and_7f]
    omega
  have hshape : element tag c ++ rest = tag :: ofNat (128 + octets c.length)
      :: (beBytes (octets c.length) c.length ++ (c ++ rest)) := by
    simp [element, header, derLength_long hlong]
  have hlen : cbsGetU (beBytes (octets c.length) c.length ++ (c ++ rest)) (octets c.length)
      = some (c.length, c ++ rest) := by
    have hlen4 : (beBytes (octets c.length) c.length).length ≤ 4 := by simpa using hk
    have h := cbsGetU_append hlen4 (c ++ rest)
    rwa [length_beBytes, beNat_beBytes_of_lt (lt_pow_octets _)] at h
  have htop : c.length >>> ((octets c.length - 1) * 8) ≠ 0 := by
    rw [shiftRight_eq_div_pow, Nat.mul_comm, Nat.pow_mul]
    have hle := pow_log_le_self 256 (x := c.length) (by omega)
    exact (Nat.div_pos hle (by positivity)).ne'
  have hget := hbytes (n := c.length + (2 + octets c.length))
    (by rw [length_header_long tag hlong])
  rw [hshape] at hget
  simp only [cbsGetAnyAsn1Element, hshape, cbsGetU8_cons, bind_eq_bind, bind_some,
    if_neg htag, and_80_eq_zero, hnum, hlen]
  rw [if_neg (by omega), if_neg (by omega), if_neg (by omega), if_neg (by omega), if_neg htop,
    hget]
  simp [Element.definite, length_header_long tag hlong]

variable {tag length_byte : UInt8} {body out : Cbs}

theorem cbsGetAnyAsn1Element_indefinite (htag : tag &&& 0x1f ≠ 0x1f)
    (hcons : tag &&& cbsAsn1Constructed ≠ 0) (rest : Cbs) :
    cbsGetAnyAsn1Element (tag :: 0x80 :: rest) = some (.indefinite tag, rest) := by
  have hget : cbsGetBytes (tag :: 0x80 :: rest) 2 = some ([tag, 0x80], rest) :=
    cbsGet_append [tag, 0x80] rest
  simp [cbsGetAnyAsn1Element, htag, hcons, hget, Element.indefinite]

theorem derLength_beNat (h128 : 128 ≤ beNat data)
    (htop : beNat data >>> ((data.length - 1) * 8) ≠ 0) :
    derLength (beNat data) = ofNat (128 + data.length) :: data := by
  match data with
  | [] => simp at h128
  | b :: bs =>
    rw [shiftRight_eq_div_pow, Nat.mul_comm, Nat.pow_mul] at htop
    have hlo : 256 ^ bs.length ≤ beNat (b :: bs) := by
      by_contra hlt
      exact htop (div_eq_of_lt (by simpa using hlt))
    rw [derLength_eq h128 hlo (beNat_lt (b :: bs))]
    exact congrArg _ (beBytes_beNat (b :: bs))

theorem cbsGet_cons_cons {x y : UInt8} (h : cbsGet (x :: y :: body) (n + 2) = some (out, rest)) :
    ∃ c, out = x :: y :: c ∧ body = c ++ rest ∧ c.length = n := by
  obtain ⟨hout, hlen⟩ := cbsGet_eq_some_iff.mp h
  match out, hlen with
  | x' :: y' :: c, hlen =>
    obtain ⟨rfl, rfl, rfl⟩ := hout
    exact ⟨c, rfl, rfl, by simpa using hlen⟩

theorem definite_of_long {data : Cbs} (hlb : length_byte.toNat = 128 + data.length)
    (hdata : data.length ≤ 4) (h128 : 128 ≤ beNat data)
    (htop : beNat data >>> ((data.length - 1) * 8) ≠ 0)
    (hget : cbsGetBytes (tag :: length_byte :: (data ++ body)) (beNat data + (2 + data.length)) =
      some (out, rest)) :
    ∃ c, c.length < 2 ^ 32 ∧ (⟨out, tag, 2 + data.length⟩ : Element) = .definite tag c ∧
      tag :: length_byte :: (data ++ body) = element tag c ++ rest := by
  rw [show beNat data + (2 + data.length) = beNat data + data.length + 2 by omega] at hget
  obtain ⟨dc, rfl, hdc, hdclen⟩ := cbsGet_cons_cons hget
  -- The range goes past the length bytes, so that it is those and then the contents.
  have happ : data ++ body = dc.take data.length ++ (dc.drop data.length ++ rest) := by
    rw [hdc, ← append_assoc, take_append_drop]
  obtain ⟨hd, hc⟩ := append_inj happ (by rw [length_take]; omega)
  obtain ⟨c, rfl⟩ : ∃ c, dc = data ++ c :=
    ⟨dc.drop data.length, by conv_lhs => rw [← take_append_drop data.length dc, ← hd]⟩
  have hclen : c.length = beNat data := by
    rw [length_append] at hdclen
    omega
  have hlb' : ofNat (128 + data.length) = length_byte := by
    rw [← hlb, UInt8.ofNat_toNat]
  have hder : derLength c.length = length_byte :: data := by
    rw [hclen, derLength_beNat h128 htop, hlb']
  have hlt : beNat data < 2 ^ 32 :=
    (beNat_lt data).trans_le (Nat.pow_le_pow_right (n := 256) (by decide) hdata)
  refine ⟨c, hclen ▸ hlt, ?_, ?_⟩
  · simp [Element.definite, element, header, hder]
    omega
  · simpa [element, header, hder] using hdc

/-- A definite length in its shortest form, or the indefinite form with a constructed tag. -/
theorem cbsGetAnyAsn1Element_eq_some_iff {e : Element} :
    cbsGetAnyAsn1Element cbs = some (e, rest) ↔ e.tag &&& 0x1f ≠ 0x1f ∧
      ((∃ c, c.length < 2 ^ 32 ∧ e = .definite e.tag c ∧ cbs = element e.tag c ++ rest) ∨
        (e.tag &&& cbsAsn1Constructed ≠ 0 ∧ e = .indefinite e.tag ∧
          cbs = e.tag :: 0x80 :: rest)) := by
  constructor
  · intro h
    match cbs with
    | [] => simp [cbsGetAnyAsn1Element] at h
    | [tag] => simp [cbsGetAnyAsn1Element] at h
    | tag :: length_byte :: body =>
      simp only [cbsGetAnyAsn1Element, cbsGetU8_cons, bind_eq_bind, bind_some,
        and_80_eq_zero, toNat_and_7f] at h
      have hlb : length_byte.toNat < 256 := length_byte.toNat_lt
      split_ifs at h with htag hshort hindef hnum
      · obtain ⟨⟨out, cbs'⟩, hget, heq⟩ := bind_eq_some_iff.mp h
        cases heq
        obtain ⟨c, rfl, rfl, hc⟩ := cbsGet_cons_cons hget
        have hder : derLength c.length = [length_byte] := by
          rw [derLength_short (by omega), hc, UInt8.ofNat_toNat]
        exact ⟨htag, .inl ⟨c, by omega, by simp [Element.definite, element, header, hder],
          by simp [element, header, hder]⟩⟩
      · obtain ⟨⟨out, cbs'⟩, hget, heq⟩ := bind_eq_some_iff.mp h
        cases heq
        obtain ⟨c, rfl, rfl, hc⟩ := cbsGet_cons_cons (n := 0) hget
        cases eq_nil_of_length_eq_zero hc
        have h80 : length_byte = 0x80 := by
          rw [← UInt8.toNat_inj]
          change length_byte.toNat = 128
          omega
        exact ⟨htag, .inr ⟨hindef.1, by rw [h80]; rfl, by rw [h80]; rfl⟩⟩
      obtain ⟨⟨len32, body'⟩, hlen, h⟩ := bind_eq_some_iff.mp h
      obtain ⟨data, rfl, hdata, rfl⟩ := (cbsGetU_eq_some_iff (by omega)).mp hlen
      rw [← hdata] at h
      split_ifs at h with h128 htop
      obtain ⟨⟨out, cbs'⟩, hget, heq⟩ := bind_eq_some_iff.mp h
      cases heq
      exact ⟨htag, .inl (definite_of_long (by omega) (by omega) (by omega) htop hget)⟩
  · rintro ⟨htag, ⟨c, hc, he, rfl⟩ | ⟨hcons, he, rfl⟩⟩
    · rw [cbsGetAnyAsn1Element_definite htag hc, ← he]
    · rw [cbsGetAnyAsn1Element_indefinite htag hcons, ← he]

theorem cbsGetAnyAsn1Element_cases {e : Element} (h : cbsGetAnyAsn1Element cbs = some (e, rest)) :
    ∃ tag : UInt8, tag &&& 0x1f ≠ 0x1f ∧
      ((∃ c, c.length < 2 ^ 32 ∧ e = .definite tag c ∧ cbs = element tag c ++ rest) ∨
        (tag &&& cbsAsn1Constructed ≠ 0 ∧ e = .indefinite tag ∧ cbs = tag :: 0x80 :: rest)) :=
  ⟨e.tag, cbsGetAnyAsn1Element_eq_some_iff.mp h⟩

theorem cbsGetAsn1_eq_some_iff {c : Cbs} :
    cbsGetAsn1 cbs tag = some (c, rest) ↔
      tag &&& 0x1f ≠ 0x1f ∧ c.length < 2 ^ 32 ∧ cbs = element tag c ++ rest := by
  have hskip tag c : cbsSkip (element tag c) (header tag c.length).length = some c := by
    rw [cbsSkip, element, cbsGet_append]
    rfl
  constructor
  · intro h
    obtain ⟨⟨e, cbs'⟩, hget, h⟩ := bind_eq_some_iff.mp h
    dsimp only at h
    by_cases hbad : e.tag ≠ tag ∨ e.isIndefinite
    · rw [if_pos hbad] at h
      cases h
    rw [if_neg hbad] at h
    obtain ⟨out, hout, heq⟩ := bind_eq_some_iff.mp h
    cases heq
    push Not at hbad
    obtain ⟨rfl, hdef⟩ := hbad
    obtain ⟨htag, ⟨c', hc', he, rfl⟩ | ⟨-, he, -⟩⟩ := cbsGetAnyAsn1Element_eq_some_iff.mp hget
    · rw [he] at hout
      cases (hskip e.tag c').symm.trans hout
      exact ⟨htag, hc', rfl⟩
    · rw [he] at hdef
      exact absurd (isIndefinite_indefinite e.tag) hdef
  · rintro ⟨htag, hc, rfl⟩
    have hgood :
        ¬ ((Element.definite tag c).tag ≠ tag ∨ (Element.definite tag c).isIndefinite) := by
      rintro (h | h)
      · exact h rfl
      · exact not_isIndefinite_definite tag c h
    simp only [cbsGetAsn1, cbsGetAsn1With, cbsGetAnyAsn1Element_definite htag hc,
      bind_eq_bind, bind_some, if_neg hgood]
    rw [Element.definite, hskip]
    rfl

theorem cbsGetAsn1_element (htag : tag &&& 0x1f ≠ 0x1f) {c : Bytes} (hc : c.length < 2 ^ 32)
    (rest : Cbs) : cbsGetAsn1 (element tag c ++ rest) tag = some (c, rest) :=
  cbsGetAsn1_eq_some_iff.mpr ⟨htag, hc, rfl⟩

theorem uint64Loop_eq : ∀ {data : Bytes} {out : ℕ},
    out * 256 ^ data.length + beNat data < 2 ^ 64 →
    uint64Loop data out = some (out * 256 ^ data.length + beNat data)
  | [], out, _ => by simp [uint64Loop]
  | b :: data, out, h => by
    rw [length_cons, beNat_cons, pow_succ'] at h
    have hpos : 0 < 256 ^ data.length := by positivity
    have hout : out < 2 ^ 56 := by nlinarith
    have hb : b.toNat < 2 ^ 8 := b.toNat_lt
    have hshift : (out <<< 8) % 2 ^ 64 ||| b.toNat = out * 256 + b.toNat := by
      rw [shiftLeft_eq, mod_eq_of_lt (by omega), Nat.mul_comm, ← two_pow_add_eq_or_of_lt hb]
    have hzero : out >>> 56 = 0 := by
      rw [shiftRight_eq_div_pow, div_eq_of_lt hout]
    rw [uint64Loop, if_neg (not_not.mpr hzero), hshift, uint64Loop_eq (by nlinarith),
      length_cons, beNat_cons]
    ring_nf

theorem length_integerBytes_le (hv : v < 2 ^ 64) : (integerBytes v).length ≤ 9 := by
  have hsize := size_le.mpr hv
  rw [integerBytes, length_beBytes]
  omega

theorem integerBytes_positive {b : UInt8} (h : integerBytes v = b :: data) : b &&& 0x80 = 0 := by
  rw [integerBytes, beBytes_succ, List.cons.injEq] at h
  have hlt : v < 2 ^ (8 * (v.size / 8)) * 2 ^ 7 := by
    rw [← pow_add]
    exact size_le.mp (by omega)
  rw [pow_mul] at hlt
  have hdiv : v / 256 ^ (v.size / 8) < 128 := Nat.div_lt_of_lt_mul hlt
  rw [and_80_eq_zero, ← h.1]
  exact (mod_le ..).trans_lt hdiv

theorem integerBytes_minimal {b : UInt8} (h : integerBytes v = b :: data) :
    ¬ (b = 0 ∧ data ≠ [] ∧ data.headD 0 &&& 0x80 = 0) := by
  rw [integerBytes, beBytes_succ] at h
  obtain ⟨rfl, rfl⟩ := h
  rintro ⟨hzero, hne, htop⟩
  generalize hk : v.size / 8 = k at hzero hne htop
  cases k with
  | zero => exact hne rfl
  | succ k =>
    have hge : 2 ^ (8 * k) * 2 ^ 7 ≤ v := by
      rw [← pow_add]
      exact lt_size.mp (by omega)
    rw [pow_mul] at hge
    have hpos : 0 < (2 ^ 8) ^ k := by positivity
    have hlt : v < 256 ^ (k + 1) * 2 ^ 7 := by
      rw [show 256 = 2 ^ 8 from rfl, ← pow_mul, ← pow_add]
      exact size_le.mp (by omega)
    have hq : v / 256 ^ (k + 1) = 0 := by
      have hsmall : v / 256 ^ (k + 1) < 128 := Nat.div_lt_of_lt_mul hlt
      have hmod := congrArg UInt8.toNat hzero
      rwa [toNat_ofNat', mod_eq_of_lt (hsmall.trans (by decide))] at hmod
    have hlo : 128 ≤ v / 256 ^ k := (Nat.le_div_iff_mul_le hpos).mpr (by linarith)
    have hhi : v / 256 ^ k < 256 := by
      have hv : v < 256 ^ (k + 1) := (div_eq_zero_iff_lt (by positivity)).mp hq
      exact Nat.div_lt_of_lt_mul hv
    rw [beBytes_succ, headD_cons, and_80_eq_zero, toNat_ofNat'] at htop
    omega

theorem cbsGetAsn1Uint64_element (hv : v < 2 ^ 64) (rest : Cbs) :
    cbsGetAsn1Uint64 (element cbsAsn1Integer (integerBytes v) ++ rest) = some (v, rest) := by
  have hlen := length_integerBytes_le hv
  have hloop : uint64Loop (integerBytes v) 0 = some v := by
    rw [uint64Loop_eq (by rw [beNat_integerBytes]; omega), beNat_integerBytes]
    simp
  obtain ⟨b, data, hbytes⟩ : ∃ b data, integerBytes v = b :: data :=
    ⟨_, _, beBytes_succ v _⟩
  rw [hbytes] at hloop
  rw [cbsGetAsn1Uint64, cbsGetAsn1_element (by decide) (by omega), hbytes]
  simp only [bind_eq_bind, bind_some]
  rw [if_neg (not_not.mpr (integerBytes_positive hbytes)), if_neg (integerBytes_minimal hbytes),
    hloop]
  rfl

end VigorTls.Bytestring
