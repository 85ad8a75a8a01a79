import VigorTls.Bytestring.Ber

/-!
# Scanning and converting

The flag of the scan of `crypto/bytestring/ber.c` is passed down into the contents of an element and
then overwritten, so that what is nested in an element of definite length is missed, and nothing
else (`find_nested`). The converter converts its output to itself (`convert_written`), but for an
empty string in chunks with the reserved tag zero, which comes out as an end of contents.
-/

namespace VigorTls.Bytestring

open Lib List Option

/-- Some element, at whatever depth, has an indefinite length. -/
inductive HasIndefinite : Cbs → Prop
  | here {cbs rest : Cbs} {e : Element} (get : cbsGetAnyAsn1Element cbs = some (e, rest))
    (indefinite : e.isIndefinite) : HasIndefinite cbs
  | inside {cbs rest c : Cbs} {e : Element} (get : cbsGetAnyAsn1Element cbs = some (e, rest))
    (definite : ¬ e.isIndefinite) (constructed : e.tag &&& cbsAsn1Constructed ≠ 0)
    (contents : cbsSkip e.contents e.header_len = some c) (has : HasIndefinite c) :
    HasIndefinite cbs
  | later {cbs rest : Cbs} {e : Element} (get : cbsGetAnyAsn1Element cbs = some (e, rest))
    (definite : ¬ e.isIndefinite) (has : HasIndefinite rest) : HasIndefinite cbs

/-- And it is inside an element of definite length. -/
inductive NestedIndefinite : Cbs → Prop
  | inside {cbs rest c : Cbs} {e : Element} (get : cbsGetAnyAsn1Element cbs = some (e, rest))
    (definite : ¬ e.isIndefinite) (constructed : e.tag &&& cbsAsn1Constructed ≠ 0)
    (contents : cbsSkip e.contents e.header_len = some c) (has : HasIndefinite c) :
    NestedIndefinite cbs
  | later {cbs rest : Cbs} {e : Element} (get : cbsGetAnyAsn1Element cbs = some (e, rest))
    (definite : ¬ e.isIndefinite) (nested : NestedIndefinite rest) : NestedIndefinite cbs

variable {cbs : Cbs}

theorem NestedIndefinite.hasIndefinite (h : NestedIndefinite cbs) : HasIndefinite cbs := by
  induction h with
  | inside get definite constructed contents has =>
    exact .inside get definite constructed contents has
  | later get definite _ ih => exact .later get definite ih

theorem find_step {fuel : ℕ} {rest : Cbs} {depth : ℕ} {flag : Bool} {e : Element}
    (h : cbsFindIndefiniteLoop (fuel + 1) cbs depth flag = some false)
    (hget : cbsGetAnyAsn1Element cbs = some (e, rest)) :
    ¬ e.isIndefinite ∧ ∃ flag', cbsFindIndefiniteLoop fuel rest depth flag' = some false := by
  have hnil : cbs ≠ [] := by
    rintro rfl
    cases hget
  unfold cbsFindIndefiniteLoop at h
  rw [hget, bind_eq_bind, bind_some] at h
  dsimp only at h
  split_ifs at h with hdepth hindef hcons
  · cases h
  · refine ⟨hindef, ?_⟩
    obtain ⟨c, -, h⟩ := bind_eq_some_iff.mp h
    obtain ⟨found, -, h⟩ := bind_eq_some_iff.mp h
    exact ⟨found, h⟩
  · exact ⟨hindef, false, h⟩

theorem find_nested : ∀ (fuel : ℕ) {cbs : Cbs} {depth : ℕ} {flag : Bool},
    cbsFindIndefiniteLoop fuel cbs depth flag = some false → HasIndefinite cbs →
    NestedIndefinite cbs
  | 0, _, _, _, h, _ => by cases h
  | fuel + 1, cbs, depth, flag, h, hhas => by
    cases hhas with
    | here hget hindef => exact absurd hindef (find_step h hget).1
    | inside hget hdef hcons hc hhas => exact .inside hget hdef hcons hc hhas
    | later hget hdef hhas =>
      obtain ⟨-, flag', h'⟩ := find_step h hget
      exact .later hget hdef (find_nested fuel h' hhas)

theorem cbsFindIndefinite_fuel : ∀ (fuel : ℕ) {cbs : Cbs} {depth : ℕ} {flag : Bool},
    cbs.length < fuel →
    cbsFindIndefiniteLoop (fuel + 1) cbs depth flag = cbsFindIndefiniteLoop fuel cbs depth flag
  | 0, _, _, _, h => absurd h (Nat.not_lt_zero _)
  | fuel + 1, cbs, depth, flag, hfuel => by
    refine if_congr Iff.rfl rfl (if_congr Iff.rfl rfl (Option.bind_congr ?_))
    rintro ⟨e, rest⟩ hget
    obtain ⟨hlt, hltc⟩ := length_of_get hget
    refine if_congr Iff.rfl rfl (if_congr Iff.rfl (Option.bind_congr fun c hc => ?_) ?_)
    · have hlec := hltc c hc
      rw [cbsFindIndefinite_fuel fuel (by omega)]
      exact Option.bind_congr fun found _ => cbsFindIndefinite_fuel fuel (by omega)
    · exact cbsFindIndefinite_fuel fuel (by omega)

/-! ## Sequences of definite length -/

variable {tag : UInt8}

namespace Ber

/-- No element is an end of contents. -/
def Clear : Ber → Prop
  | nil => True
  | primitive tag contents rest => ¬ (tag = 0 ∧ contents = []) ∧ rest.Clear
  | constructed _ children rest => children.Clear ∧ rest.Clear
  | indefinite _ children rest => children.Clear ∧ rest.Clear

theorem Accepted.clear : ∀ {ts : Ber}, ts.Accepted → ts.Clear
  | nil, _ => trivial
  | primitive .., h => ⟨h.2.2.2.1, h.2.2.2.2.clear⟩
  | constructed .., h => ⟨h.2.2.2.1.clear, h.2.2.2.2.clear⟩
  | indefinite .., h => ⟨h.2.2.1.clear, h.2.2.2.clear⟩

theorem Written.definite_eq : ∀ {depth : ℕ} {ts : Ber}, ts.Written depth → ts.definite = ts
  | _, nil, _ => rfl
  | _, primitive .., h => by rw [definite, h.2.2.2.definite_eq]
  | _, constructed .., h => by
    rw [definite, h.2.2.2.2.1.definite_eq, h.2.2.2.2.2.definite_eq]

theorem get_primitive {c : Bytes} {rest : Ber} (htag : tag &&& 0x1f ≠ 0x1f)
    (hc : c.length < 2 ^ 32) :
    cbsGetAnyAsn1Element (primitive tag c rest).encode = some (.definite tag c, rest.encode) :=
  cbsGetAnyAsn1Element_definite htag hc rest.encode

theorem get_constructed {children rest : Ber} (htag : tag &&& 0x1f ≠ 0x1f)
    (hc : children.encode.length < 2 ^ 32) :
    cbsGetAnyAsn1Element (constructed tag children rest).encode
      = some (.definite tag children.encode, rest.encode) :=
  cbsGetAnyAsn1Element_definite htag hc rest.encode

theorem definite_eq_of_not_hasIndefinite : ∀ {ts : Ber}, ts.Accepted → ¬ HasIndefinite ts.encode →
    ts.definite = ts
  | nil, _, _ => rfl
  | primitive tag c rest, ⟨htag, _, hc, _, hrest⟩, h => by
    have hget := @get_primitive tag c rest htag hc
    rw [definite, definite_eq_of_not_hasIndefinite hrest
      fun hhas => h (.later hget (not_isIndefinite_definite tag c) hhas)]
  | constructed tag children rest, ⟨htag, hcons, hc, hchildren, hrest⟩, h => by
    have hget := @get_constructed tag children rest htag hc
    have hdef := not_isIndefinite_definite tag children.encode
    rw [definite, definite_eq_of_not_hasIndefinite hchildren
        fun hhas => h (.inside hget hdef hcons (cbsSkip_definite ..) hhas),
      definite_eq_of_not_hasIndefinite hrest fun hhas => h (.later hget hdef hhas)]
  | indefinite tag children rest, ⟨htag, hcons, _, _⟩, h =>
    absurd (.here (cbsGetAnyAsn1Element_indefinite htag hcons _) (isIndefinite_indefinite tag)) h

theorem Written.not_hasIndefinite : ∀ {depth : ℕ} {ts : Ber}, ts.Written depth →
    ¬ HasIndefinite ts.encode
  | _, nil, _, h => by
    cases h with
    | here hget _ => cases hget
    | inside hget _ _ _ _ => cases hget
    | later hget _ _ => cases hget
  | depth, primitive tag c rest, ⟨htag, hprim, hc, hrest⟩, h => by
    have hget := @get_primitive tag c rest htag (by omega)
    cases h with
    | here hget' hindef =>
      cases hget.symm.trans hget'
      exact not_isIndefinite_definite tag c hindef
    | inside hget' _ hcons _ _ =>
      cases hget.symm.trans hget'
      exact hcons hprim
    | later hget' _ hhas =>
      cases hget.symm.trans hget'
      exact hrest.not_hasIndefinite hhas
  | depth, constructed tag children rest, ⟨htag, hcons, hc, _, hchildren, hrest⟩, h => by
    have hget := @get_constructed tag children rest htag (by omega)
    cases h with
    | here hget' hindef =>
      cases hget.symm.trans hget'
      exact not_isIndefinite_definite tag _ hindef
    | inside hget' _ _ hskip hhas =>
      cases hget.symm.trans hget'
      cases (cbsSkip_definite tag children.encode).symm.trans hskip
      exact hchildren.not_hasIndefinite hhas
    | later hget' _ hhas =>
      cases hget.symm.trans hget'
      exact hrest.not_hasIndefinite hhas

theorem Written.find : ∀ {ts : Ber} {depth fuel : ℕ} {flag : Bool}, ts.Written depth →
    depth ≤ kMaxDepth → ts.encode.length < fuel →
    cbsFindIndefiniteLoop fuel ts.encode depth flag = some false
  | _, _, 0, _, _, _, hfuel => absurd hfuel (Nat.not_lt_zero _)
  | nil, depth, fuel + 1, flag, _, hdepth, _ => by
    rw [encode, cbsFindIndefiniteLoop, if_neg (by omega), if_pos rfl]
  | primitive tag c rest, depth, fuel + 1, flag, ⟨htag, hprim, hc, hrest⟩, hdepth, hfuel => by
    have hlen := length_element tag c
    rw [encode, length_append] at hfuel
    have hne : (primitive tag c rest).encode ≠ [] := List.cons_ne_nil _ _
    rw [cbsFindIndefiniteLoop, if_neg (by omega), get_primitive htag (by omega),
      bind_eq_bind, bind_some]
    dsimp only
    rw [if_neg (not_isIndefinite_definite tag c), Element.tag_definite, if_neg (not_not.mpr hprim)]
    exact hrest.find hdepth (by omega)
  | constructed tag children rest, depth, fuel + 1, flag,
      ⟨htag, hcons, hc, hlevel, hchildren, hrest⟩, hdepth, hfuel => by
    have hlen := length_element tag children.encode
    rw [encode, length_append] at hfuel
    have hne : (constructed tag children rest).encode ≠ [] := List.cons_ne_nil _ _
    rw [cbsFindIndefiniteLoop, if_neg (by omega), get_constructed htag (by omega),
      bind_eq_bind, bind_some]
    dsimp only
    rw [if_neg (not_isIndefinite_definite tag _), Element.tag_definite, if_pos hcons,
      cbsSkip_definite, bind_eq_bind, bind_some, hchildren.find hlevel (by omega)]
    exact hrest.find hdepth (by omega)

theorem definite_inj {tag' : UInt8} {c c' : Bytes}
    (h : Element.definite tag c = Element.definite tag' c') : tag = tag' ∧ c = c' := by
  have hskip := cbsSkip_definite tag c
  rw [h, cbsSkip_definite, some_inj] at hskip
  exact ⟨congrArg Element.tag h, hskip.symm⟩

theorem definite_ne_indefinite (tag tag' : UInt8) (c : Bytes) :
    Element.definite tag c ≠ Element.indefinite tag' := fun h =>
  not_isIndefinite_definite tag c (h ▸ isIndefinite_indefinite tag')

theorem get_inj {rest rest' : Cbs} {e e' : Element} (h : cbsGetAnyAsn1Element cbs = some (e, rest))
    (h' : cbsGetAnyAsn1Element cbs = some (e', rest')) : e = e' ∧ rest = rest' :=
  Prod.mk.inj (some_inj.mp (h.symm.trans h'))

theorem Written.eq_of_encode_eq : ∀ {depth : ℕ} {ts ts' : Ber}, ts.Written depth → ts'.Accepted →
    ts.encode = ts'.encode → ts = ts'
  | _, nil, ts', _, _, h => by
    cases ts' with
    | nil => rfl
    | primitive => cases h
    | constructed => cases h
    | indefinite => cases h
  | depth, primitive tag c rest, ts', ⟨htag, hprim, hc, hrest⟩, h', h => by
    -- What is read at the front decides how the other tree begins.
    have hget := @get_primitive tag c rest htag (by omega)
    rw [h] at hget
    cases ts' with
    | nil => cases h
    | primitive tag' c' rest' =>
      obtain ⟨htag', -, hc', -, hrest'⟩ := h'
      obtain ⟨he, hr⟩ := get_inj hget (get_primitive htag' hc')
      obtain ⟨rfl, rfl⟩ := definite_inj he
      rw [hrest.eq_of_encode_eq hrest' hr]
    | constructed tag' children' rest' =>
      obtain ⟨htag', hcons', hc', -, -⟩ := h'
      obtain ⟨he, -⟩ := get_inj hget (get_constructed htag' hc')
      obtain ⟨rfl, -⟩ := definite_inj he
      exact absurd hprim hcons'
    | indefinite tag' children' rest' =>
      have hget' := cbsGetAnyAsn1Element_indefinite h'.1 h'.2.1
        (children'.encode ++ 0 :: 0 :: rest'.encode)
      exact absurd (get_inj hget hget').1 (definite_ne_indefinite tag tag' c)
  | depth, constructed tag children rest, ts', ⟨htag, hcons, hc, _, hchildren, hrest⟩, h', h => by
    have hget := @get_constructed tag children rest htag (by omega)
    rw [h] at hget
    cases ts' with
    | nil => cases h
    | primitive tag' c' rest' =>
      obtain ⟨htag', hprim', hc', -, -⟩ := h'
      obtain ⟨he, -⟩ := get_inj hget (get_primitive htag' hc')
      obtain ⟨rfl, -⟩ := definite_inj he
      exact absurd hprim' hcons
    | constructed tag' children' rest' =>
      obtain ⟨htag', -, hc', hchildren', hrest'⟩ := h'
      obtain ⟨he, hr⟩ := get_inj hget (get_constructed htag' hc')
      obtain ⟨rfl, hchild⟩ := definite_inj he
      rw [hchildren.eq_of_encode_eq hchildren' hchild, hrest.eq_of_encode_eq hrest' hr]
    | indefinite tag' children' rest' =>
      have hget' := cbsGetAnyAsn1Element_indefinite h'.1 h'.2.1
        (children'.encode ++ 0 :: 0 :: rest'.encode)
      exact absurd (get_inj hget hget').1 (definite_ne_indefinite tag tag' children.encode)

end Ber

variable {heap : Heap}

theorem convert_element {fuel d depth : ℕ} {out : Cbb} {c : Bytes} (hdepth : depth ≤ kMaxDepth)
    (htag : tag &&& 0x1f ≠ 0x1f) (hc : c.length < 2 ^ 32) (heoc : ¬ (tag = 0 ∧ c = [])) :
    cbsConvertIndefinite heap (fuel + 1) (element tag c ++ cbs) d out false false depth
      = (cbbAddAsn1 heap d out tag).bind fun opened =>
          (if tag &&& cbsAsn1Constructed ≠ 0 then
            (cbsConvertIndefinite heap fuel c (d + 1) opened false false (depth + 1)).map Prod.snd
          else cbbAddBytes heap (d + 1) opened c).bind fun out1 =>
            (cbbFlush heap d out1).bind fun out2 =>
              cbsConvertIndefinite heap fuel cbs d out2 false false depth := by
  have hne : element tag c ++ cbs ≠ [] := nofun
  have heoc' : ¬ isEoc (.definite tag c) = true := fun h => heoc ((isEoc_definite tag c).mp h)
  rw [cbsConvertIndefinite, if_neg (by omega), cbsGetAnyAsn1Element_definite htag hc,
    bind_eq_bind, bind_some]
  dsimp only
  rw [if_neg heoc', if_neg (not_isIndefinite_definite tag c), Element.tag_definite]
  by_cases hcons : tag &&& cbsAsn1Constructed ≠ 0
  · rw [if_pos hcons]
    refine Option.bind_congr fun opened _ => ?_
    rw [cbsSkip_definite, bind_eq_bind, if_pos hcons, bind_map]
    rfl
  · rw [if_neg hcons]
    refine Option.bind_congr fun opened _ => ?_
    rw [cbsSkip_definite, bind_eq_bind, if_neg hcons]
    rfl

theorem convert_written (hheap : heap.Ample) : ∀ {ts : Ber} {fuel d depth : ℕ}
    {out : Cbb}, ts.Written depth → ts.Clear → depth ≤ kMaxDepth →
    ts.encode.length < fuel → out.Room d ts.encode.length →
    ∃ out', cbsConvertIndefinite heap fuel ts.encode d out false false depth = some ([], out') ∧
      out'.base.can_resize = true ∧ Cbb.Appends d out out' (some ts.encode)
  | _, 0, _, _, _, _, _, _, hfuel, _ => absurd hfuel (Nat.not_lt_zero _)
  | .nil, fuel + 1, d, depth, out, _, _, hdepth, _, hroom => by
    refine ⟨out, ?_, hroom.can_resize, .refl hroom.depth⟩
    rw [Ber.encode, cbsConvertIndefinite, if_neg (by omega), if_pos rfl, if_neg (by decide)]
  | .primitive tag c rest, fuel + 1, d, depth, out, ⟨htag, hprim, hc, hrest⟩,
      ⟨heoc, hclear⟩, hdepth, hfuel, hroom => by
    have hle := length_element tag c
    rw [Ber.encode, length_append] at hfuel hroom
    obtain ⟨opened, hopen, hflat⟩ := cbbAddAsn1_ample hheap htag
      (hroom.mono (show 1 + (1 + (c.length + 0)) ≤ _ by omega))
    obtain ⟨out1, hadd, hflat1⟩ := cbbAddBytes_ample hheap hflat.room
    obtain ⟨out2, hflush, hflat2, happends⟩ := flush_element hheap hopen (cbbAddBytes_spec hadd)
      hflat1.can_resize htag hc hroom
    obtain ⟨out3, hrun, hresize, happends'⟩ := convert_written hheap hrest hclear hdepth
      (show rest.encode.length < fuel by omega) hflat2.room
    refine ⟨out3, ?_, hresize, happends.trans happends'⟩
    rw [Ber.encode, convert_element hdepth htag (by omega) heoc, hopen, bind_some,
      if_neg (not_not.mpr hprim), hadd, bind_some, hflush, bind_some, hrun]
  | .constructed tag children rest, fuel + 1, d, depth, out,
      ⟨htag, hcons, hc, hlevel, hchildren, hrest⟩, ⟨hclearc, hclear⟩, hdepth, hfuel, hroom => by
    have hle := length_element tag children.encode
    rw [Ber.encode, length_append] at hfuel hroom
    have heoc : ¬ (tag = 0 ∧ children.encode = []) := by
      rintro ⟨rfl, -⟩
      exact hcons rfl
    obtain ⟨opened, hopen, hflat⟩ := cbbAddAsn1_ample hheap htag
      (hroom.mono (show 1 + (1 + children.encode.length) ≤ _ by omega))
    obtain ⟨out1, hconvert, hresize1, hcontents⟩ := convert_written hheap hchildren hclearc hlevel
      (show children.encode.length < fuel by omega) hflat.room
    obtain ⟨out2, hflush, hflat2, happends⟩ := flush_element hheap hopen hcontents hresize1 htag
      hc hroom
    obtain ⟨out3, hrun, hresize, happends'⟩ := convert_written hheap hrest hclear hdepth
      (show rest.encode.length < fuel by omega) hflat2.room
    refine ⟨out3, ?_, hresize, happends.trans happends'⟩
    rw [Ber.encode, convert_element hdepth htag (by omega) heoc, hopen, bind_some,
      if_pos hcons, hconvert, map_some, bind_some, hflush, bind_some, hrun]

theorem converted_sound {out : Bytes} (h : converted heap cbs = some out) :
    ∃ ts : Ber, ts.Accepted ∧ cbs = ts.encode ∧ out = ts.definite.encode ∧
      ts.definite.Written 0 ∧ out.length < 2 ^ 64 := by
  obtain ⟨cbb, hinit, h⟩ := bind_eq_some_iff.mp h
  obtain ⟨⟨left, cbb1⟩, hconvert, hfinish⟩ := bind_eq_some_iff.mp h
  obtain ⟨buf, -, rfl⟩ := map_eq_some_iff.mp hinit
  obtain ⟨cbb2, hflush, rfl⟩ := map_eq_some_iff.mp hfinish
  obtain ⟨ts, hts⟩ := convert_sound _ (Nat.zero_le _) hconvert
  have hvalue := (hts.appends).value_some (show _ = some [] from rfl)
  rw [(cbbFlush_spec hflush).value, some_inj] at hvalue
  refine ⟨ts, hts.accepted, ?_, hvalue, hts.written rfl, ?_⟩
  · simpa using hts.input
  · rw [length_written]
    exact cbb2.base.bounded

theorem converted_written (hheap : heap.Ample) {ts : Ber} (hts : ts.Written 0) (hclear : ts.Clear)
    (hlen : ts.encode.length < 2 ^ 64) : converted heap ts.encode = some ts.encode := by
  obtain ⟨buf, hbuf⟩ := hheap ts.encode.length
  let out0 : Cbb := ⟨⟨buf, 0, ts.encode.length, true, Nat.zero_le _, Nat.two_pow_pos 64⟩, []⟩
  have hempty : out0.value 0 = some [] := rfl
  have hroom : out0.Room 0 ts.encode.length := ⟨rfl, Nat.zero_le _, [], hempty, by simpa using hlen⟩
  obtain ⟨out, hconvert, hresize, happends⟩ := convert_written hheap hts hclear (Nat.zero_le _)
    (Nat.lt_succ_self _) hroom
  have hvalue := happends.value_some hempty
  obtain ⟨out', hflush, -⟩ := cbbFlush_ample hheap (happends.room (n := 0) hroom hresize)
  have hwritten := (cbbFlush_spec hflush).value
  rw [hvalue, nil_append] at hwritten
  have hfinish : cbbFinish heap out = some ts.encode := by
    rw [cbbFinish, hflush, map_some, ← hwritten]
  rw [converted, cbbInit, hbuf, map_some, bind_eq_bind, bind_some, hconvert]
  exact hfinish

namespace Ber

/-- An empty string in chunks with the reserved tag zero, other than inside another string. -/
def Reserved : Ber → Prop
  | nil => False
  | primitive _ _ rest => rest.Reserved
  | constructed _ children rest => children.Reserved ∨ rest.Reserved
  | indefinite tag children rest =>
    (if isString tag children then tag = cbsAsn1Constructed ∧ children.chunks = []
      else children.Reserved) ∨ rest.Reserved

theorem and_not_constructed_eq_zero (h : tag &&& cbsAsn1Constructed ≠ 0) :
    tag &&& ~~~cbsAsn1Constructed = 0 ↔ tag = cbsAsn1Constructed := by
  have hall : ∀ n : Fin 256, UInt8.ofNat n.val &&& cbsAsn1Constructed ≠ 0 →
      (UInt8.ofNat n.val &&& ~~~cbsAsn1Constructed = 0 ↔
        UInt8.ofNat n.val = cbsAsn1Constructed) := by decide +kernel
  have htag := hall ⟨tag.toNat, tag.toNat_lt⟩
  rw [UInt8.ofNat_toNat] at htag
  exact htag h

theorem clear_definite_iff : ∀ {ts : Ber}, ts.Accepted → (ts.definite.Clear ↔ ¬ ts.Reserved)
  | nil, _ => by simp [definite, Clear, Reserved]
  | primitive tag c rest, ⟨_, _, _, heoc, hrest⟩ => by
    rw [definite, Clear, clear_definite_iff hrest]
    exact and_iff_right heoc
  | constructed tag children rest, ⟨_, _, _, hchildren, hrest⟩ => by
    rw [definite, Clear, Reserved, clear_definite_iff hchildren, clear_definite_iff hrest, not_or]
  | indefinite tag children rest, ⟨_, hcons, hchildren, hrest⟩ => by
    rw [definite, Reserved, not_or, ← clear_definite_iff hrest]
    split_ifs with hstring
    · rw [Clear, and_not_constructed_eq_zero hcons]
    · rw [Clear, clear_definite_iff hchildren]

end Ber

/-- What a conversion gives is the input in its definite form: every length is definite and minimal,
and a scan finds nothing. A second one gives the same bytes, and succeeds with enough memory unless
the input has an empty string in chunks with the tag zero. -/
theorem converted_definite {heap : Heap} {cbs : Cbs} {out : Bytes}
    (h : converted heap cbs = some out) :
    ∃ ts : Ber, ts.Accepted ∧ cbs = ts.encode ∧ out = ts.definite.encode ∧
      ts.definite.Written 0 ∧ cbsFindIndefinite out 0 = some false ∧ ¬ HasIndefinite out ∧
      (∀ heap' out', converted heap' out = some out' → out' = out) ∧
      ((∀ heap' : Heap, heap'.Ample → converted heap' out = some out) ↔ ¬ ts.Reserved) := by
  obtain ⟨ts, haccepted, hcbs, rfl, hwritten, hlen⟩ := converted_sound h
  refine ⟨ts, haccepted, hcbs, rfl, hwritten, hwritten.find (Nat.zero_le _) (Nat.lt_succ_self _),
    hwritten.not_hasIndefinite, fun heap' out' h' => ?_, ?_⟩
  · obtain ⟨ts', haccepted', hcbs', rfl, -, -⟩ := converted_sound h'
    cases hwritten.eq_of_encode_eq haccepted' hcbs'
    rw [hwritten.definite_eq]
  rw [← Ber.clear_definite_iff haccepted]
  constructor
  · intro hagain
    obtain ⟨ts', haccepted', hcbs', -, -, -⟩ := converted_sound (hagain zeroHeap zeroHeap_ample)
    rw [hwritten.eq_of_encode_eq haccepted' hcbs']
    exact haccepted'.clear
  · exact fun hclear heap' hheap' => converted_written hheap' hwritten hclear hlen

/-- An octet string in one chunk. -/
theorem converted_definite_chunk :
    converted zeroHeap [0x24, 0x80, 0x04, 0x01, 0x61, 0x00, 0x00] = some [0x04, 0x01, 0x61] ∧
    ∃ ts : Ber, ts.Accepted ∧ [0x24, 0x80, 0x04, 0x01, 0x61, 0x00, 0x00] = ts.encode ∧
      [0x04, 0x01, 0x61] = ts.definite.encode ∧ ts.definite.Written 0 ∧
      cbsFindIndefinite [0x04, 0x01, 0x61] 0 = some false ∧ ¬ HasIndefinite [0x04, 0x01, 0x61] ∧
      (∀ heap' out', converted heap' [0x04, 0x01, 0x61] = some out' → out' = [0x04, 0x01, 0x61]) ∧
      ((∀ heap' : Heap, heap'.Ample →
        converted heap' [0x04, 0x01, 0x61] = some [0x04, 0x01, 0x61]) ↔ ¬ ts.Reserved) := by
  have h : converted zeroHeap [0x24, 0x80, 0x04, 0x01, 0x61, 0x00, 0x00]
      = some [0x04, 0x01, 0x61] := by decide +kernel
  exact ⟨h, converted_definite h⟩

/-- The constructed form of tag zero, with no chunks, comes out as an end of contents, which is not
converted again. -/
theorem converted_end_of_contents :
    converted zeroHeap [0x20, 0x80, 0x00, 0x00] = some [0x00, 0x00] ∧
      converted zeroHeap [0x00, 0x00] = none := by
  decide +kernel

/-- After a scan that reports nothing there is no indefinite length at any depth, and a conversion
would change nothing, exactly when none is nested in an element of definite length. -/
theorem scanned_iff {cbs : Cbs} (h : cbsFindIndefinite cbs 0 = some false) :
    (∀ heap, cbsAsn1IndefiniteToDefinite heap cbs = some none) ∧
    ((¬ HasIndefinite cbs ∧ ∀ heap out, converted heap cbs = some out → out = cbs) ↔
      ¬ NestedIndefinite cbs) ∧
    (NestedIndefinite cbs → ∀ heap out, converted heap cbs = some out → out ≠ cbs) := by
  refine ⟨fun heap => ?_, ⟨fun hgood hnested => hgood.1 hnested.hasIndefinite, fun hflat => ?_⟩,
    fun hnested heap out hout => ?_⟩
  · rw [cbsAsn1IndefiniteToDefinite, h]
    rfl
  · have hnone : ¬ HasIndefinite cbs := fun hhas => hflat (find_nested _ h hhas)
    refine ⟨hnone, fun heap out hout => ?_⟩
    obtain ⟨ts, haccepted, rfl, rfl, -, -⟩ := converted_sound hout
    rw [Ber.definite_eq_of_not_hasIndefinite haccepted hnone]
  · rintro rfl
    obtain ⟨ts, -, -, rfl, hwritten, -⟩ := converted_sound hout
    exact hwritten.not_hasIndefinite hnested.hasIndefinite

/-- A sequence of indefinite length in one of definite length. -/
theorem scanned_iff_nested :
    let cbs := [0x30, 0x04, 0x30, 0x80, 0x00, 0x00]
    cbsFindIndefinite cbs 0 = some false ∧ NestedIndefinite cbs ∧
      (∀ heap, cbsAsn1IndefiniteToDefinite heap cbs = some none) ∧
      ∀ heap out, converted heap cbs = some out → out ≠ cbs := by
  intro cbs
  have hscan : cbsFindIndefinite cbs 0 = some false := by decide +kernel
  have hinner : cbsGetAnyAsn1Element [0x30, 0x80, 0x00, 0x00]
      = some (⟨[0x30, 0x80], 0x30, 2⟩, [0x00, 0x00]) := by decide
  have hnested : NestedIndefinite cbs :=
    .inside (show cbsGetAnyAsn1Element cbs = some (⟨cbs, 0x30, 2⟩, []) by decide) (by decide)
      (by decide) (show _ = some [0x30, 0x80, 0x00, 0x00] by decide) (.here hinner (by decide))
  obtain ⟨hkept, -, hchanged⟩ := scanned_iff hscan
  exact ⟨hscan, hnested, hkept, hchanged hnested⟩

/-- It is not found, and so it stays. -/
theorem scan_misses_nested :
    let cbs := [0x30, 0x04, 0x30, 0x80, 0x00, 0x00]
    cbsFindIndefinite cbs 0 = some false ∧ HasIndefinite cbs ∧
      cbsAsn1IndefiniteToDefinite zeroHeap cbs = some none ∧
      converted zeroHeap cbs = some [0x30, 0x02, 0x30, 0x00] := by
  intro cbs
  refine ⟨by decide +kernel, ?_, by decide +kernel, by decide +kernel⟩
  have houter : cbsGetAnyAsn1Element cbs = some (⟨cbs, 0x30, 2⟩, []) := by decide
  have hinner : cbsGetAnyAsn1Element [0x30, 0x80, 0x00, 0x00]
      = some (⟨[0x30, 0x80], 0x30, 2⟩, [0x00, 0x00]) := by decide
  exact .inside houter (by decide) (by decide) (show _ = some [0x30, 0x80, 0x00, 0x00] by decide)
    (.here hinner (by decide))

end VigorTls.Bytestring
