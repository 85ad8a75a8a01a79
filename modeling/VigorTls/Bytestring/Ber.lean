import VigorTls.Bytestring.RoundTrip

/-!
# Indefinite lengths

`crypto/bytestring/ber.c`: a scan for elements of indefinite length (`cbs_find_indefinite`) and
their conversion to the definite form (`cbs_convert_indefinite`). What the bytes mean is a sequence
of elements, `Ber`, and `Ber.definite` is the conversion on it: by `convert_sound` the input is the
encoding of a sequence, and the output that of the definite form.
-/

namespace VigorTls.Bytestring

open Lib List Option

/-! ## The code -/

abbrev kMaxDepth : ℕ := 2048

/-- `cbs_find_indefinite` from the test of its loop on, with what `*indefinite_found` holds there.
The length of the input bounds the calls (`cbsFindIndefinite_fuel`). -/
def cbsFindIndefiniteLoop : ℕ → Cbs → ℕ → Bool → Option Bool
  | 0, _, _, _ => none
  | fuel + 1, cbs, depth, _indefinite_found =>
    if kMaxDepth < depth then none
    else if cbs = [] then some false
    else do
      let (e, cbs) ← cbsGetAnyAsn1Element cbs
      if e.isIndefinite then some true
      else if e.tag &&& cbsAsn1Constructed ≠ 0 then
        let contents ← cbsSkip e.contents e.header_len
        let indefinite_found ← cbsFindIndefiniteLoop fuel contents (depth + 1) false
        cbsFindIndefiniteLoop fuel cbs depth indefinite_found
      else cbsFindIndefiniteLoop fuel cbs depth false

def cbsFindIndefinite (cbs : Cbs) (depth : ℕ) : Option Bool :=
  cbsFindIndefiniteLoop (cbs.length + 1) cbs depth false

def isPrimitiveType (tag : UInt8) : Bool :=
  tag &&& 0xc0 = 0 && tag &&& 0x1f ≠ 0x30 &&& 0x1f && tag &&& 0x1f ≠ 0x31 &&& 0x1f

def isEoc (e : Element) : Bool := e.header_len = 2 && e.contents = [0, 0]

/-- `squash_child_headers`: the contents are chunks of a string. For a context-specific tag the
element that follows decides. -/
def squashChildHeaders (tag : UInt8) (cbs : Cbs) : Option Bool :=
  if tag &&& 0xc0 = 0x80 ∧ tag &&& cbsAsn1Constructed ≠ 0 then
    (cbsGetAnyAsn1Element cbs).map fun inner =>
      isPrimitiveType tag ||
        inner.1.contents.length > inner.1.header_len && isPrimitiveType inner.1.tag
  else some (isPrimitiveType tag)

/-- `out_contents`: the output itself, or a child of it with a header. -/
def openContents (heap : Heap) (d : ℕ) (out : Cbb) (squash_header : Bool) (tag : UInt8) :
    Option Cbb :=
  if squash_header then some out else cbbAddAsn1 heap d out tag

def contentsDepth (d : ℕ) (squash_header : Bool) : ℕ := if squash_header then d else d + 1

/-- The output flushed when the contents had a header. -/
def closeContents (heap : Heap) (d : ℕ) (out : Cbb) (squash_header : Bool) : Option Cbb :=
  if squash_header then some out else cbbFlush heap d out

/-- `cbs_convert_indefinite`, with the input that is left. The output is the `CBB` at depth `d`. The
length of the input is enough fuel (`cbsConvertIndefinite_fuel`). -/
def cbsConvertIndefinite (heap : Heap) :
    ℕ → Cbs → ℕ → Cbb → Bool → Bool → ℕ → Option (Cbs × Cbb)
  | 0, _, _, _, _, _, _ => none
  | fuel + 1, cbs, d, out, squash_header, looking_for_eoc, depth =>
    if kMaxDepth < depth then none
    else if cbs = [] then if looking_for_eoc then none else some ([], out)
    else do
      let (e, cbs) ← cbsGetAnyAsn1Element cbs
      if isEoc e then
        if looking_for_eoc then some (cbs, out) else none
      else if e.isIndefinite then
        let squash_child_headers ← squashChildHeaders e.tag cbs
        let out_tag := if squash_child_headers then e.tag &&& ~~~cbsAsn1Constructed else e.tag
        let out ← openContents heap d out squash_header out_tag
        let (cbs, out) ← cbsConvertIndefinite heap fuel cbs (contentsDepth d squash_header) out
          squash_child_headers true (depth + 1)
        let out ← closeContents heap d out squash_header
        cbsConvertIndefinite heap fuel cbs d out squash_header looking_for_eoc depth
      else if e.tag &&& cbsAsn1Constructed ≠ 0 then
        let out ← openContents heap d out squash_header e.tag
        let contents ← cbsSkip e.contents e.header_len
        let (_, out) ← cbsConvertIndefinite heap fuel contents (contentsDepth d squash_header) out
          false false (depth + 1)
        let out ← closeContents heap d out squash_header
        cbsConvertIndefinite heap fuel cbs d out squash_header looking_for_eoc depth
      else
        let out ← openContents heap d out squash_header e.tag
        let contents ← cbsSkip e.contents e.header_len
        let out ← cbbAddBytes heap (contentsDepth d squash_header) out contents
        let out ← closeContents heap d out squash_header
        cbsConvertIndefinite heap fuel cbs d out squash_header looking_for_eoc depth

/-- A conversion as `CBS_asn1_indefinite_to_definite` makes it. -/
def converted (heap : Heap) (cbs : Cbs) : Option Bytes := do
  let cbb ← cbbInit heap cbs.length
  let (_, cbb) ← cbsConvertIndefinite heap (cbs.length + 1) cbs 0 cbb false false 0
  cbbFinish heap cbb

/-- `CBS_asn1_indefinite_to_definite`: `some none` stands for `NULL`. -/
def cbsAsn1IndefiniteToDefinite (heap : Heap) (cbs : Cbs) : Option (Option Bytes) := do
  let conversion_needed ← cbsFindIndefinite cbs 0
  if conversion_needed then (converted heap cbs).map some else some none

/-- A sequence of elements, primitive with their contents, or constructed, of definite or indefinite
length. -/
inductive Ber where
  | nil
  | primitive (tag : UInt8) (contents : Bytes) (rest : Ber)
  | constructed (tag : UInt8) (children rest : Ber)
  | indefinite (tag : UInt8) (children rest : Ber)

namespace Ber

def encode : Ber → Bytes
  | nil => []
  | primitive tag contents rest => element tag contents ++ rest.encode
  | constructed tag children rest => element tag children.encode ++ rest.encode
  | indefinite tag children rest => tag :: 0x80 :: (children.encode ++ 0 :: 0 :: rest.encode)

/-- The first element is of a primitive type and not empty. -/
def startsWithString : Ber → Bool
  | nil => false
  | primitive tag contents _ => contents ≠ [] && isPrimitiveType tag
  | constructed tag children _ => children.encode ≠ [] && isPrimitiveType tag
  | indefinite .. => false

/-- An element of indefinite length is a string in chunks. -/
def isString (tag : UInt8) (children : Ber) : Bool :=
  isPrimitiveType tag || tag &&& 0xc0 = 0x80 && children.startsWithString

mutual

/-- The definite form: a string in chunks becomes one primitive element. -/
def definite : Ber → Ber
  | nil => nil
  | primitive tag contents rest => primitive tag contents rest.definite
  | constructed tag children rest => constructed tag children.definite rest.definite
  | indefinite tag children rest =>
    if isString tag children then
      primitive (tag &&& ~~~cbsAsn1Constructed) children.chunks rest.definite
    else constructed tag children.definite rest.definite

/-- The contents of the elements, in their definite form and without the headers. -/
def chunks : Ber → Bytes
  | nil => []
  | primitive _ contents rest => contents ++ rest.chunks
  | constructed _ children rest => children.definite.encode ++ rest.chunks
  | indefinite tag children rest =>
    (if isString tag children then children.chunks else children.definite.encode) ++ rest.chunks

end

/-- An empty element with tag zero would end the contents. -/
def Accepted : Ber → Prop
  | nil => True
  | primitive tag contents rest =>
    tag &&& 0x1f ≠ 0x1f ∧ tag &&& cbsAsn1Constructed = 0 ∧ contents.length < 2 ^ 32 ∧
      ¬ (tag = 0 ∧ contents = []) ∧ rest.Accepted
  | constructed tag children rest =>
    tag &&& 0x1f ≠ 0x1f ∧ tag &&& cbsAsn1Constructed ≠ 0 ∧ children.encode.length < 2 ^ 32 ∧
      children.Accepted ∧ rest.Accepted
  | indefinite tag children rest =>
    tag &&& 0x1f ≠ 0x1f ∧ tag &&& cbsAsn1Constructed ≠ 0 ∧ children.Accepted ∧ rest.Accepted

/-- All lengths are definite, and elements are nested below `depth` no deeper than allowed. -/
def Written : ℕ → Ber → Prop
  | _, nil => True
  | depth, primitive tag contents rest =>
    tag &&& 0x1f ≠ 0x1f ∧ tag &&& cbsAsn1Constructed = 0 ∧ contents.length ≤ 0xfffffffe ∧
      rest.Written depth
  | depth, constructed tag children rest =>
    tag &&& 0x1f ≠ 0x1f ∧ tag &&& cbsAsn1Constructed ≠ 0 ∧ children.encode.length ≤ 0xfffffffe ∧
      depth < kMaxDepth ∧ children.Written (depth + 1) ∧ rest.Written depth
  | _, indefinite .. => False

end Ber

/-! ## What the converter writes -/

variable {tag : UInt8}
variable {squash : Bool}

section

variable {heap : Heap} {d : ℕ}

theorem openContents_depth {out opened : Cbb} (hd : d ≤ out.pending.length)
    (h : openContents heap d out squash tag = some opened) :
    contentsDepth d squash ≤ opened.pending.length := by
  cases squash with
  | true =>
    cases h
    exact hd
  | false => exact (cbbAddAsn1_spec h).depth.ge

theorem contents_appends {out opened out₁ out₂ : Cbb} {c : Bytes}
    (hopen : openContents heap d out squash tag = some opened)
    (hc : Cbb.Appends (contentsDepth d squash) opened out₁ (some c))
    (hclose : closeContents heap d out₁ squash = some out₂) :
    Cbb.Appends d out out₂ (some (if squash then c else element tag c)) ∧
      (squash = false → tag &&& 0x1f ≠ 0x1f ∧ c.length ≤ 0xfffffffe) := by
  cases squash with
  | true =>
    cases hopen
    cases hclose
    exact ⟨hc, nofun⟩
  | false =>
    obtain ⟨bytes, hbytes, happends⟩ := ((cbbAddAsn1_spec hopen).close hc).flush hclose
    obtain ⟨rfl, hgood⟩ := asn1Bytes_eq_some hbytes
    exact ⟨happends, fun _ => hgood⟩

end

theorem definite_isString (tag : UInt8) (c : Bytes) :
    let r := Element.definite tag c
    (decide (r.contents.length > r.header_len) &&
      isPrimitiveType r.tag) = (decide (c ≠ []) && isPrimitiveType tag) := by
  simp [Element.definite, element, length_pos_iff]

theorem squashChildHeaders_encode {children : Ber} (h : children.Accepted)
    (htag : tag &&& cbsAsn1Constructed ≠ 0) (rest : Cbs) :
    squashChildHeaders tag (children.encode ++ 0 :: 0 :: rest)
      = some (Ber.isString tag children) := by
  unfold squashChildHeaders Ber.isString
  by_cases hctx : tag &&& 0xc0 = 0x80
  · rw [if_pos ⟨hctx, htag⟩, hctx, decide_eq_true rfl]
    cases children with
    | nil =>
      have heoc : cbsGetAnyAsn1Element (0 :: 0 :: rest) = some (.definite 0 [], rest) :=
        @cbsGetAnyAsn1Element_definite 0 (by decide) [] (by decide) rest
      rw [Ber.encode, nil_append, heoc, map_some]
      rfl
    | primitive t _ r | constructed t _ r =>
      obtain ⟨ht, -, hc, -, -⟩ := h
      rw [Ber.encode, append_assoc, cbsGetAnyAsn1Element_definite ht hc, map_some,
        definite_isString]
      rfl
    | indefinite t ch r =>
      obtain ⟨ht, hcons, -, -⟩ := h
      rw [Ber.encode, cons_append, cons_append, cbsGetAnyAsn1Element_indefinite ht hcons]
      rfl
  · rw [if_neg fun hboth => hctx hboth.1, decide_eq_false hctx, Bool.false_and, Bool.or_false]

/-- What the converter appends for a sequence. -/
def Ber.output (ts : Ber) (squash : Bool) : Bytes :=
  if squash then ts.chunks else ts.definite.encode

/-- What a successful call did: its input begins with a sequence of elements, followed by its end or
by an end-of-contents element. -/
structure Converts (cbs : Cbs) (d : ℕ) (out : Cbb) (squash eoc : Bool) (depth : ℕ) (cbs' : Cbs)
    (out' : Cbb) (ts : Ber) : Prop where
  accepted : ts.Accepted
  input : cbs = ts.encode ++ (if eoc then 0 :: 0 :: cbs' else [])
  left : eoc = false → cbs' = []
  appends : Cbb.Appends d out out' (some (ts.output squash))
  level : depth ≤ kMaxDepth
  written : squash = false → ts.definite.Written depth

namespace Converts

variable {heap : Heap} {d : ℕ} {out opened out₁ out₂ out' : Cbb} {eoc : Bool} {depth : ℕ}
  {c cbs cbs' : Cbs} {tc ts : Ber}

theorem primitive (htag : tag &&& 0x1f ≠ 0x1f) (hprim : tag &&& cbsAsn1Constructed = 0)
    (hc : c.length < 2 ^ 32) (heoc : ¬ (tag = 0 ∧ c = []))
    (hopen : openContents heap d out squash tag = some opened)
    (hadd : cbbAddBytes heap (contentsDepth d squash) opened c = some out₁)
    (hclose : closeContents heap d out₁ squash = some out₂)
    (h : Converts cbs d out₂ squash eoc depth cbs' out' ts) :
    Converts (element tag c ++ cbs) d out squash eoc depth cbs' out' (.primitive tag c ts) := by
  obtain ⟨happends, hgood⟩ := contents_appends hopen (cbbAddBytes_spec hadd) hclose
  refine ⟨⟨htag, hprim, hc, heoc, h.accepted⟩, ?_, h.left, ?_, h.level, fun hs => ?_⟩
  · rw [h.input, Ber.encode, append_assoc]
  · convert happends.trans h.appends using 2
    cases squash <;> simp [Ber.output, Ber.definite, Ber.chunks, Ber.encode]
  · rw [Ber.definite]
    exact ⟨htag, hprim, (hgood hs).2, h.written hs⟩

theorem constructed (htag : tag &&& 0x1f ≠ 0x1f) (hcons : tag &&& cbsAsn1Constructed ≠ 0)
    (hc : c.length < 2 ^ 32) (hopen : openContents heap d out squash tag = some opened) {left : Cbs}
    (hchild : Converts c (contentsDepth d squash) opened false false (depth + 1) left out₁ tc)
    (hclose : closeContents heap d out₁ squash = some out₂)
    (h : Converts cbs d out₂ squash eoc depth cbs' out' ts) :
    Converts (element tag c ++ cbs) d out squash eoc depth cbs' out' (.constructed tag tc ts) := by
  obtain ⟨happends, hgood⟩ := contents_appends hopen hchild.appends hclose
  obtain rfl : c = tc.encode := by simpa using hchild.input
  refine ⟨⟨htag, hcons, hc, hchild.accepted, h.accepted⟩, ?_, h.left, ?_, h.level, fun hs => ?_⟩
  · rw [h.input, Ber.encode, append_assoc]
  · convert happends.trans h.appends using 2
    cases squash <;> simp [Ber.output, Ber.definite, Ber.chunks, Ber.encode]
  · rw [Ber.definite]
    exact ⟨htag, hcons, (hgood hs).2, hchild.level, hchild.written rfl, h.written hs⟩

theorem indefinite (htag : tag &&& 0x1f ≠ 0x1f) (hcons : tag &&& cbsAsn1Constructed ≠ 0)
    (hopen : openContents heap d out squash
      (if Ber.isString tag tc then tag &&& ~~~cbsAsn1Constructed else tag) = some opened)
    (hchild : Converts c (contentsDepth d squash) opened (Ber.isString tag tc) true
      (depth + 1) cbs out₁ tc)
    (hclose : closeContents heap d out₁ squash = some out₂)
    (h : Converts cbs d out₂ squash eoc depth cbs' out' ts) :
    Converts (tag :: 0x80 :: c) d out squash eoc depth cbs' out' (.indefinite tag tc ts) := by
  obtain ⟨happends, hgood⟩ := contents_appends hopen hchild.appends hclose
  refine ⟨⟨htag, hcons, hchild.accepted, h.accepted⟩, ?_, h.left, ?_, h.level, fun hs => ?_⟩
  · rw [hchild.input, if_pos rfl, h.input, Ber.encode]
    simp
  · convert happends.trans h.appends using 2
    cases squash <;> cases hstring : Ber.isString tag tc <;>
      simp [Ber.output, Ber.definite, Ber.chunks, Ber.encode, hstring]
  obtain ⟨htag', hlen⟩ := hgood hs
  rw [Ber.definite]
  cases hstring : Ber.isString tag tc with
  | true =>
    rw [hstring] at htag' hlen
    refine ⟨htag', ?_, hlen, h.written hs⟩
    have hbit : ~~~cbsAsn1Constructed &&& cbsAsn1Constructed = 0 := by decide
    rw [UInt8.and_assoc, hbit, UInt8.and_zero]
  | false =>
    rw [hstring] at hlen
    exact ⟨htag, hcons, hlen, hchild.level, hchild.written hstring, h.written hs⟩

end Converts

theorem isEoc_definite (tag : UInt8) (c : Bytes) :
    isEoc (.definite tag c) = true ↔ tag = 0 ∧ c = [] := by
  constructor
  · intro h
    have hcontents : element tag c = [0, 0] := by
      exact of_decide_eq_true (Bool.and_eq_true_iff.mp h).2
    have hlen := congrArg List.length hcontents
    have hpos := length_derLength_pos c.length
    have hc : c = [] := by
      simp [element, header] at hlen
      exact eq_nil_of_length_eq_zero (by omega)
    subst hc
    exact ⟨(List.cons.inj hcontents).1, rfl⟩
  · rintro ⟨rfl, rfl⟩
    decide

theorem isEoc_indefinite (tag : UInt8) : isEoc (.indefinite tag) = false := by
  simp [isEoc, Element.indefinite]

theorem cbsSkip_definite (tag : UInt8) (c : Bytes) :
    cbsSkip (Element.definite tag c).contents (Element.definite tag c).header_len = some c := by
  rw [cbsSkip, Element.definite, element, cbsGet_append]
  rfl

theorem convert_sound {heap : Heap} : ∀ (fuel : ℕ) {cbs : Cbs} {d : ℕ} {out : Cbb}
    {squash eoc : Bool} {depth : ℕ} {cbs' : Cbs} {out' : Cbb}, d ≤ out.pending.length →
    cbsConvertIndefinite heap fuel cbs d out squash eoc depth = some (cbs', out') →
    ∃ ts, Converts cbs d out squash eoc depth cbs' out' ts
  | 0, _, _, _, _, _, _, _, _, _, h => by cases h
  | fuel + 1, cbs, d, out, squash, eoc, depth, cbs', out', hd, h => by
    unfold cbsConvertIndefinite at h
    by_cases hdepth : kMaxDepth < depth
    · rw [if_pos hdepth] at h
      cases h
    rw [if_neg hdepth] at h
    by_cases hnil : cbs = []
    · rw [if_pos hnil] at h
      cases eoc with
      | true => cases h
      | false =>
        cases h
        refine ⟨.nil, trivial, hnil, fun _ => rfl, ?_, by omega, fun _ => trivial⟩
        cases squash <;> exact .refl hd
    rw [if_neg hnil] at h
    obtain ⟨⟨e, cbs1⟩, hget, hstep⟩ := bind_eq_some_iff.mp h
    clear h
    dsimp only at hstep
    rename' hstep => h
    obtain ⟨tag, htag, ⟨c, hc, rfl, rfl⟩ | ⟨hcons, rfl, rfl⟩⟩ := cbsGetAnyAsn1Element_cases hget
    · by_cases heoc : isEoc (.definite tag c) = true
      · rw [if_pos heoc] at h
        obtain ⟨rfl, rfl⟩ := (isEoc_definite tag c).mp heoc
        cases eoc with
        | false => cases h
        | true =>
          cases h
          refine ⟨.nil, trivial, rfl, nofun, ?_, by omega, fun _ => trivial⟩
          cases squash <;> exact .refl hd
      rw [if_neg heoc, if_neg (not_isIndefinite_definite tag c), Element.tag_definite] at h
      by_cases hcons : tag &&& cbsAsn1Constructed = 0
      · rw [if_neg (not_not.mpr hcons)] at h
        obtain ⟨opened, hopen, h⟩ := bind_eq_some_iff.mp h
        obtain ⟨contents, hskip, h⟩ := bind_eq_some_iff.mp h
        cases (cbsSkip_definite tag c).symm.trans hskip
        obtain ⟨out₁, hadd, h⟩ := bind_eq_some_iff.mp h
        obtain ⟨out₂, hclose, h⟩ := bind_eq_some_iff.mp h
        have hd2 := (contents_appends hopen (cbbAddBytes_spec hadd) hclose).1.depth'
        obtain ⟨ts, hts⟩ := convert_sound fuel hd2 h
        exact ⟨_, .primitive htag hcons hc (fun hz => heoc ((isEoc_definite tag c).mpr hz))
          hopen hadd hclose hts⟩
      · rw [if_pos hcons] at h
        obtain ⟨opened, hopen, h⟩ := bind_eq_some_iff.mp h
        obtain ⟨contents, hskip, h⟩ := bind_eq_some_iff.mp h
        cases (cbsSkip_definite tag c).symm.trans hskip
        obtain ⟨⟨left, out₁⟩, hconvert, h⟩ := bind_eq_some_iff.mp h
        obtain ⟨out₂, hclose, h⟩ := bind_eq_some_iff.mp h
        obtain ⟨tc, htc⟩ := convert_sound fuel (openContents_depth hd hopen) hconvert
        have hd2 := (contents_appends hopen htc.appends hclose).1.depth'
        obtain ⟨ts, hts⟩ := convert_sound fuel hd2 h
        exact ⟨_, .constructed htag hcons hc hopen htc hclose hts⟩
    · rw [isEoc_indefinite,
        Element.tag_indefinite] at h
      obtain ⟨string, hstring, h1⟩ := bind_eq_some_iff.mp h
      obtain ⟨opened, hopen, h2⟩ := bind_eq_some_iff.mp h1
      obtain ⟨⟨cbs2, out₁⟩, hconvert, h3⟩ := bind_eq_some_iff.mp h2
      obtain ⟨out₂, hclose, hrest⟩ := bind_eq_some_iff.mp h3
      obtain ⟨tc, htc⟩ := convert_sound fuel (openContents_depth hd hopen) hconvert
      -- The children are known now, and with them what the flag was read off.
      have hinput := htc.input
      rw [if_pos rfl] at hinput
      rw [hinput, squashChildHeaders_encode htc.accepted hcons] at hstring
      cases hstring
      have hd2 := (contents_appends hopen htc.appends hclose).1.depth'
      obtain ⟨ts, hts⟩ := convert_sound fuel hd2 hrest
      exact ⟨_, .indefinite htag hcons hopen htc hclose hts⟩

theorem Converts.length_le {cbs : Cbs} {d : ℕ} {out : Cbb} {eoc : Bool} {depth : ℕ} {cbs' : Cbs}
    {out' : Cbb} {ts : Ber} (h : Converts cbs d out squash eoc depth cbs' out' ts) :
    cbs'.length ≤ cbs.length := by
  cases eoc with
  | true =>
    have hinput := congrArg List.length h.input
    rw [if_pos rfl, length_append, length_cons, length_cons] at hinput
    omega
  | false =>
    rw [h.left rfl]
    exact Nat.zero_le _

theorem length_of_get {cbs rest : Cbs} {e : Element}
    (hget : cbsGetAnyAsn1Element cbs = some (e, rest)) :
    rest.length + 2 ≤ cbs.length ∧
      ∀ c, cbsSkip e.contents e.header_len = some c → c.length + 2 ≤ cbs.length := by
  obtain ⟨tag, htag, ⟨c, hc, rfl, rfl⟩ | ⟨hcons, rfl, rfl⟩⟩ := cbsGetAnyAsn1Element_cases hget
  · have hle := length_element tag c
    rw [length_append]
    refine ⟨by omega, fun c' hc' => ?_⟩
    cases (cbsSkip_definite tag c).symm.trans hc'
    omega
  · refine ⟨by simp, fun c' hc' => ?_⟩
    cases hc'
    simp [Element.indefinite]

/-- The length of the input is enough fuel: more changes nothing. -/
theorem cbsConvertIndefinite_fuel (heap : Heap) : ∀ (fuel : ℕ) {cbs : Cbs} {d : ℕ} {out : Cbb}
    {squash eoc : Bool} {depth : ℕ}, d ≤ out.pending.length → cbs.length < fuel →
    cbsConvertIndefinite heap (fuel + 1) cbs d out squash eoc depth
      = cbsConvertIndefinite heap fuel cbs d out squash eoc depth
  | 0, _, _, _, _, _, _, _, h => absurd h (Nat.not_lt_zero _)
  | fuel + 1, cbs, d, out, squash, eoc, depth, hd, hfuel => by
    refine if_congr Iff.rfl rfl (if_congr Iff.rfl rfl (Option.bind_congr ?_))
    rintro ⟨e, cbs1⟩ hget
    refine if_congr Iff.rfl rfl ?_
    obtain ⟨hlt1, hltc⟩ := length_of_get hget
    refine if_congr Iff.rfl ?_ (if_congr Iff.rfl ?_ ?_)
    · refine Option.bind_congr fun string _ => Option.bind_congr fun opened hopen => ?_
      rw [cbsConvertIndefinite_fuel heap fuel (openContents_depth hd hopen) (by omega)]
      refine Option.bind_congr fun p hconvert => Option.bind_congr fun out₂ hclose => ?_
      obtain ⟨tc, htc⟩ := convert_sound fuel (openContents_depth hd hopen) hconvert
      have hle := htc.length_le
      exact cbsConvertIndefinite_fuel heap fuel
        (contents_appends hopen htc.appends hclose).1.depth' (by omega)
    · refine Option.bind_congr fun opened hopen => Option.bind_congr fun c hc => ?_
      have hlec := hltc c hc
      rw [cbsConvertIndefinite_fuel heap fuel (openContents_depth hd hopen) (by omega)]
      refine Option.bind_congr fun p hconvert => Option.bind_congr fun out₂ hclose => ?_
      obtain ⟨tc, htc⟩ := convert_sound fuel (openContents_depth hd hopen) hconvert
      exact cbsConvertIndefinite_fuel heap fuel
        (contents_appends hopen htc.appends hclose).1.depth' (by omega)
    · refine Option.bind_congr fun opened hopen => Option.bind_congr fun c hc =>
        Option.bind_congr fun out₁ hadd => Option.bind_congr fun out₂ hclose => ?_
      exact cbsConvertIndefinite_fuel heap fuel
        (contents_appends hopen (cbbAddBytes_spec hadd) hclose).1.depth' (by omega)

end VigorTls.Bytestring
