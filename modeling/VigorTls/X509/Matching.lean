import Mathlib.Data.List.TakeWhile
import VigorTls.X509.Certificate

/-!
# Matching addresses and hosts

`nc_email` and `nc_uri` of `crypto/x509v3/v3_ncons.c`, on strings with a zero byte behind them. The
functions of C stop at the first zero byte, which may be before the end (`email_matches_iff`). The
end of the host in a URI is looked for at a ':' first and only then at a '/', so that a ':' behind
the host moves it (`uri_host_iff`).
-/

namespace VigorTls.X509

open List

/-- The characters '.', '/', ':' and '@'. -/
abbrev dot : UInt8 := 0x2e

@[inherit_doc dot] abbrev slash : UInt8 := 0x2f

@[inherit_doc dot] abbrev colon : UInt8 := 0x3a

@[inherit_doc dot] abbrev atSign : UInt8 := 0x40

def toLower (b : UInt8) : UInt8 := if 0x41 ≤ b ∧ b ≤ 0x5a then b + 0x20 else b

/-- What `strcasecmp` compares. -/
def fold (s : Bytes) : Bytes := s.map toLower

/-- A string up to a zero byte. -/
def cstr (s : Bytes) : Bytes := s.takeWhile (· ≠ 0)

/-- `strchr`, with what is before the character and what is after it. -/
def strchr (c : UInt8) : Bytes → Option (Bytes × Bytes)
  | [] => none
  | b :: s =>
    if b = c then some ([], s)
    else if b = 0 then none
    else (strchr c s).map fun (p, q) => (b :: p, q)

def ncEmail (eml base : Bytes) : Code :=
  match strchr atSign eml, strchr atSign base with
  | none, _ => .unsupportedNameSyntax
  | some (_, host), none =>
    if base.getD 0 0 = dot then
      if base.length < eml.length ∧
          fold (cstr base) = fold (cstr (eml.drop (eml.length - base.length))) then .ok
      else .permittedViolation
    else if fold (cstr base) = fold (cstr host) then .ok
    else .permittedViolation
  | some (loc, host), some (baseloc, basehost) =>
    if baseloc ≠ [] ∧ (baseloc.length ≠ loc.length ∨
        cstr (base.take loc.length) ≠ cstr (eml.take loc.length)) then .permittedViolation
    else if fold (cstr basehost) = fold (cstr host) then .ok
    else .permittedViolation

/-- The `hostlen` bytes from `hostptr` on that `nc_uri` takes for the host. -/
def hostPart (hostptr : Bytes) : Bytes :=
  match strchr colon hostptr <|> strchr slash hostptr with
  | some (host, _) => host
  | none => cstr hostptr

def ncUri (uri base : Bytes) : Code :=
  match strchr colon uri with
  | none => .unsupportedNameSyntax
  | some (_, p) =>
    let host := hostPart (p.drop 2)
    if p.getD 0 0 ≠ slash ∨ p.getD 1 0 ≠ slash then .unsupportedNameSyntax
    else if host = [] then .unsupportedNameSyntax
    else if base.getD 0 0 = dot then
      if base.length < host.length ∧
          fold (cstr (host.drop (host.length - base.length))) = fold (cstr base) then .ok
      else .permittedViolation
    else if base.length ≠ host.length ∨ fold (cstr host) ≠ fold (cstr base) then
      .permittedViolation
    else .ok

/-! ## Strings -/

section

variable {b c : UInt8} {s p q base : Bytes}

theorem toLower_eq_iff (hc : c ≤ 0x40 := by decide) : toLower b = c ↔ b = c := by
  unfold toLower
  split_ifs with h
  · have h1 := UInt8.le_iff_toNat_le.mp h.1
    have h2 := UInt8.le_iff_toNat_le.mp h.2
    have h3 := UInt8.le_iff_toNat_le.mp hc
    rw [← UInt8.toNat_inj, ← UInt8.toNat_inj, UInt8.toNat_add]
    simp at h1 h2 h3 ⊢
    omega
  · rfl

theorem mem_fold (hc : c ≤ 0x40 := by decide) : c ∈ fold s ↔ c ∈ s := by
  simp [fold, toLower_eq_iff hc]

theorem length_eq_of_fold (h : fold s = fold p) : s.length = p.length := by
  simpa [fold] using congrArg length h

theorem takeWhile_ne (h : c ∉ s) : s.takeWhile (· ≠ c) = s :=
  takeWhile_eq_self_iff.mpr fun _ hb => decide_eq_true (ne_of_mem_of_not_mem hb h)

theorem takeWhile_ne_append (h : c ∉ p) : (p ++ c :: q).takeWhile (· ≠ c) = p := by
  rw [takeWhile_append_of_pos (takeWhile_eq_self_iff.mp (takeWhile_ne h)),
    takeWhile_cons_of_neg (by simp), append_nil]

theorem cstr_eq (h : 0 ∉ s) : cstr s = s := takeWhile_ne h

theorem cstr_isPrefix (s : Bytes) : cstr s <+: s := takeWhile_prefix _

theorem strchr_append (hc : c ∉ p) (h0 : 0 ∉ p) : strchr c (p ++ c :: q) = some (p, q) := by
  induction p with
  | nil => simp [strchr]
  | cons b p ih =>
    simp only [mem_cons, not_or] at hc h0
    simp [strchr, Ne.symm hc.1, Ne.symm h0.1, ih hc.2 h0.2]

theorem strchr_eq_none (hc0 : c ≠ 0) (hc : c ∉ cstr s) : strchr c s = none := by
  induction s with
  | nil => rfl
  | cons b s ih =>
    by_cases hb : b = 0
    · simp [strchr, hb, hc0.symm]
    · rw [cstr, takeWhile_cons_of_pos (by simpa), mem_cons, not_or] at hc
      simp [strchr, hb, Ne.symm hc.1, ih hc.2]

theorem getD_eq_dot : base.getD 0 0 = dot ↔ base.head? = some dot := by
  cases base with
  | nil => decide
  | cons => simp

theorem fold_cstr (h0 : 0 ∉ s) (hlen : s.length = base.length) :
    fold (cstr s) = fold (cstr base) ↔ fold base = fold s := by
  rw [cstr_eq h0]
  constructor
  · intro h
    rw [h, (cstr_isPrefix base).eq_of_length ((length_eq_of_fold h).symm.trans hlen)]
  · intro h
    rw [← h, cstr_eq]
    rwa [← mem_fold, h, mem_fold]

theorem suffix_append_cons (hc : c ∉ s) : s <:+ p ++ c :: q ↔ s <:+ q := by
  refine ⟨?_, fun h => h.trans ⟨p ++ [c], by simp⟩⟩
  rintro ⟨t, ht⟩
  rcases append_eq_append_iff.mp ht with ⟨u, -, rfl⟩ | ⟨u, -, hu⟩
  · exact absurd (mem_append_right _ mem_cons_self) hc
  · cases u with
    | nil => exact absurd (nil_append s ▸ hu ▸ mem_cons_self) hc
    | cons d u => exact ⟨u, (cons.inj hu).2.symm⟩

theorem ite_eq_ok {P : Prop} [Decidable P] :
    (if P then Code.ok else .permittedViolation) = .ok ↔ P := by
  split_ifs <;> simp_all

end

/-- A constraint without '@' is the host or, with a '.' in front, a suffix of it; one with '@' has
the host and no local part or that of the address. -/
def EmailMatches (loc host base : Bytes) : Prop :=
  atSign ∉ base ∧ (base.head? = some dot ∧ fold base <:+ fold host ∨ fold base = fold host) ∨
    ∃ l h, base = l ++ atSign :: h ∧ (l = [] ∨ l = loc) ∧ fold h = fold host

section Email

variable {loc host base : Bytes} (hloc : atSign ∉ loc)
include hloc

theorem ncEmail_eq_ok (h0 : 0 ∉ loc ++ atSign :: host) (hbase : 0 ∉ base) :
    ncEmail (loc ++ atSign :: host) base = .ok ↔ EmailMatches loc host base := by
  have h0' := h0
  simp only [mem_append, mem_cons, not_or] at h0'
  by_cases hb : atSign ∈ base
  · -- A mailbox, or `@` and a host.
    obtain ⟨l, h, rfl, hl⟩ := eq_append_cons_of_mem hb
    simp only [mem_append, mem_cons, not_or] at hbase
    have hcond : (l ≠ [] ∧ (l.length ≠ loc.length ∨
        cstr ((l ++ atSign :: h).take loc.length) ≠ loc)) ↔ ¬ (l = [] ∨ l = loc) := by
      rw [not_or]
      refine and_congr_right fun _ => ?_
      by_cases hlen : l.length = loc.length
      · rw [take_left' hlen, cstr_eq hbase.1]
        simp [hlen]
      · simpa [hlen] using fun h => hlen (congrArg length h)
    rw [ncEmail, strchr_append hloc h0'.1, strchr_append hl hbase.1, EmailMatches,
      or_iff_right fun h => h.1 hb]
    simp only [cstr_eq hbase.2.2, cstr_eq h0'.2.2, take_left, cstr_eq h0'.1, hcond, ite_not]
    constructor
    · intro hok
      split_ifs at hok with hl' hh
      exact ⟨l, h, rfl, hl', hh⟩
    rintro ⟨l', h', heq, hl', hh⟩
    have hl'' : atSign ∉ l' := by
      rcases hl' with rfl | rfl
      · exact not_mem_nil
      · exact hloc
    obtain rfl : l = l' := by rw [← takeWhile_ne_append hl, heq, takeWhile_ne_append hl'']
    obtain rfl : h = h' := by simpa using heq
    simp [hl', hh]
  · -- A host, or with a dot in front all hosts of a domain.
    rw [ncEmail, strchr_append hloc h0'.1,
      strchr_eq_none (by decide) (mt ((cstr_isPrefix base).subset ·) hb), EmailMatches,
      or_iff_left (by rintro ⟨l, h, rfl, -⟩; simp at hb), and_iff_right hb]
    simp only [getD_eq_dot, cstr_eq hbase, cstr_eq h0'.2.2]
    by_cases hdot : base.head? = some dot
    · have hs : fold base <:+ fold (loc ++ atSign :: host) ↔ fold base <:+ fold host := by
        rw [fold, fold, map_append, map_cons]
        exact suffix_append_cons (mt (mem_fold).mp hb)
      rw [if_pos hdot, ite_eq_ok, cstr_eq fun h => h0 (mem_of_mem_drop h), and_iff_right hdot,
        or_iff_left_of_imp (· ▸ suffix_rfl), ← hs, suffix_iff_eq_drop]
      constructor
      · exact fun h => by simpa [fold, map_drop] using h.2
      intro h
      have hlen := (hs.mp (suffix_iff_eq_drop.mpr h)).length_le
      refine ⟨?_, by simpa [fold, map_drop] using h⟩
      simp [fold] at hlen ⊢
      omega
    · rw [if_neg hdot, ite_eq_ok, or_iff_right fun h => hdot h.1]

theorem ncEmail_ne_ok (h0 : 0 ∈ loc) : ncEmail (loc ++ atSign :: host) base ≠ .ok := by
  obtain ⟨x, y, rfl, hx⟩ := eq_append_cons_of_mem h0
  rw [ncEmail, strchr_eq_none (by decide)]
  · exact nofun
  · rw [append_assoc, cons_append, cstr, takeWhile_ne_append hx]
    exact fun h => hloc (mem_append_left _ h)

theorem ncEmail_short (h0 : 0 ∉ loc) (hhost : 0 ∈ host) : ∃ base, 0 ∉ base ∧
    ncEmail (loc ++ atSign :: host) base = .ok ∧ ¬ EmailMatches loc host base := by
  have hc : 0 ∉ cstr host := fun h => by simpa using mem_takeWhile_imp h
  refine ⟨atSign :: cstr host, by simpa [atSign] using hc, ?_, ?_⟩
  · rw [ncEmail, strchr_append hloc h0]
    simp [strchr, cstr_eq hc]
  rintro (⟨h, -⟩ | ⟨l, t, hl, -, ht⟩)
  · exact h mem_cons_self
  have hl := congrArg length hl
  have ht := length_eq_of_fold ht
  have hle := (cstr_isPrefix host).length_le
  have hne : (cstr host).length ≠ host.length := fun hlen =>
    hc (by rwa [(cstr_isPrefix host).eq_of_length hlen])
  simp at hl
  omega

end Email

/-- `nc_email` compares whole strings exactly if there is no zero byte in the address, or one in its
local part and one behind every '.' of its host, so that no constraint matches. -/
theorem email_matches_iff (loc host : Bytes) (hloc : atSign ∉ loc) (hhost : atSign ∉ host) :
    (∀ base, 0 ∉ base →
        (ncEmail (loc ++ atSign :: host) base = .ok ↔ EmailMatches loc host base)) ↔
      0 ∉ loc ∧ 0 ∉ host ∨ 0 ∈ loc ∧ 0 ∈ host ∧ ∀ s, dot :: s <:+ host → 0 ∈ s := by
  by_cases h0 : 0 ∈ loc
  · simp only [ncEmail_ne_ok hloc h0, h0, false_iff, not_true, false_and, false_or, true_and]
    constructor
    · intro hall
      have hall {base : Bytes} (h : EmailMatches loc host base) : 0 ∈ base :=
        not_not.mp fun h0 => hall base h0 h
      refine ⟨?_, fun s hs => ?_⟩
      · simpa [atSign] using hall (.inr ⟨[], host, rfl, .inl rfl, rfl⟩)
      · have h : atSign ∉ dot :: s := fun h => hhost (hs.subset h)
        simpa [dot] using hall (.inl ⟨h, .inl ⟨rfl, hs.map toLower⟩⟩)
    rintro ⟨hz, hdots⟩ base hbase
    have hfold {s : Bytes} (h : fold s = fold host) : 0 ∈ s := by
      rwa [← mem_fold, h, mem_fold]
    rintro (⟨-, ⟨hb, hs⟩ | h⟩ | ⟨l, h, rfl, -, h⟩)
    · obtain ⟨b, rfl⟩ := head?_eq_some_iff.mp hb
      obtain ⟨u, hu, hub⟩ := suffix_map_iff.mp hs
      obtain ⟨c, u, rfl⟩ := exists_cons_of_ne_nil (fun h => by simp [h, fold] at hub : u ≠ [])
      obtain rfl : c = dot := (toLower_eq_iff).mp (cons.inj hub).1.symm
      have hz : 0 ∈ fold (dot :: u) := (mem_fold).mpr (mem_cons_of_mem _ (hdots u hu))
      exact hbase ((mem_fold).mp (hub ▸ hz))
    · exact hbase (hfold h)
    · exact hbase (mem_append_right _ (mem_cons_of_mem _ (hfold h)))
  · simp only [h0, false_and, or_false, not_false_iff, true_and]
    constructor
    · intro hall hz
      obtain ⟨base, hbase, hok, hno⟩ := ncEmail_short hloc h0 hz
      exact hno ((hall base hbase).mp hok)
    · exact fun hz base => ncEmail_eq_ok hloc (by simp [h0, hz, atSign])

/-- The constraint "b" matches "a@b" with a zero byte and "c" behind it. -/
theorem email_cut : ncEmail [0x61, atSign, 0x62, 0, 0x63] [0x62] = .ok ∧
    ¬ EmailMatches [0x61] [0x62, 0, 0x63] [0x62] := by
  refine ⟨by decide, ?_⟩
  rintro (⟨-, ⟨h, -⟩ | h⟩ | ⟨l, h, hb, -⟩)
  · exact absurd h (by decide)
  · exact absurd h (by decide)
  · have hmem : atSign ∈ [0x62] := hb ▸ mem_append_right _ mem_cons_self
    exact absurd hmem (by decide)

theorem email_plain :
    ncEmail [0x61, atSign, 0x62] [0x42] = .ok ↔ EmailMatches [0x61] [0x62] [0x42] :=
  (email_matches_iff [0x61] [0x62] (by decide) (by decide)).mpr (.inl (by decide)) [0x42]
    (by decide)

/-- A constraint with a '.' in front is a proper suffix of the host, and any other is the host. -/
def HostMatches (host base : Bytes) : Prop :=
  base.head? = some dot ∧ base.length < host.length ∧ fold base <:+ fold host ∨
    base.head? ≠ some dot ∧ fold base = fold host

instance (host base : Bytes) : Decidable (HostMatches host base) :=
  inferInstanceAs (Decidable (_ ∨ _))

/-- What `nc_uri` should decide for a host. -/
def matchHost (host base : Bytes) : Code :=
  if host = [] then .unsupportedNameSyntax
  else if HostMatches host base then .ok
  else .permittedViolation

section Uri

variable {scheme rest base l h t : Bytes}

theorem hostPart_eq (h0 : 0 ∉ rest) :
    hostPart rest = rest.takeWhile (· ≠ if colon ∈ rest then colon else slash) := by
  have hnone {c : UInt8} (hc0 : c ≠ 0) (hc : c ∉ rest) : strchr c rest = none :=
    strchr_eq_none hc0 (mt ((cstr_isPrefix rest).subset ·) hc)
  by_cases hc : colon ∈ rest
  · obtain ⟨p, q, rfl, hp⟩ := eq_append_cons_of_mem hc
    rw [hostPart, strchr_append hp fun h => h0 (mem_append_left _ h), if_pos hc,
      takeWhile_ne_append hp]
    rfl
  rw [hostPart, hnone (by decide) hc, if_neg hc]
  by_cases hs : slash ∈ rest
  · obtain ⟨p, q, rfl, hp⟩ := eq_append_cons_of_mem hs
    rw [strchr_append hp fun h => h0 (mem_append_left _ h), takeWhile_ne_append hp]
    rfl
  · rw [hnone (by decide) hs, takeWhile_ne hs]
    exact cstr_eq h0

theorem ncUri_eq (hscheme : colon ∉ scheme ∧ 0 ∉ scheme) (h0 : 0 ∉ rest) :
    ncUri (scheme ++ colon :: slash :: slash :: rest) base = matchHost (hostPart rest) base := by
  have h0 : 0 ∉ hostPart rest := by
    rw [hostPart_eq h0]
    exact fun h => h0 (( takeWhile_prefix _).subset h)
  rw [ncUri, strchr_append hscheme.1 hscheme.2]
  simp only [getD_cons_zero, getD_cons_succ, drop_succ_cons, drop_zero, getD_eq_dot, matchHost]
  generalize hostPart rest = host at *
  rw [if_neg (by simp)]
  refine if_congr Iff.rfl rfl ?_
  by_cases hdot : base.head? = some dot
  · simp only [hdot, if_true, HostMatches, true_and, ne_eq, not_true, false_and, or_false]
    refine if_congr (and_congr_right fun hlen => ?_) rfl rfl
    rw [fold_cstr (fun h => h0 (mem_of_mem_drop h)) (by rw [length_drop]; omega),
      suffix_iff_eq_drop]
    simp [fold, map_drop]
  · simp only [hdot, if_false, ne_eq, ← not_and_or, ite_not, HostMatches, false_and, false_or,
      not_false_iff, true_and]
    refine if_congr ⟨fun h => (fold_cstr h0 h.1.symm).mp h.2, fun h => ?_⟩ rfl rfl
    have hlen := length_eq_of_fold h
    exact ⟨hlen, (fold_cstr h0 hlen.symm).mpr h⟩

theorem HostMatches.dot_cons (h : HostMatches (dot :: l) base) :
    fold base <:+ fold l ∧ dot ∈ l := by
  rcases h with ⟨hb, hlen, hs⟩ | ⟨hb, h⟩
  · obtain ⟨b, rfl⟩ := head?_eq_some_iff.mp hb
    have hs := (suffix_cons_iff.mp hs).resolve_left fun h => hlen.ne (length_eq_of_fold h)
    exact ⟨hs, (mem_fold).mp (hs.subset ((mem_fold).mpr mem_cons_self))⟩
  · cases base with
    | nil => exact nomatch h
    | cons b base => exact absurd (congrArg some ((toLower_eq_iff).mp (cons.inj h).1)) hb

theorem matchHost_eq_ok : matchHost h base = .ok ↔ h ≠ [] ∧ HostMatches h base := by
  rw [matchHost]
  split_ifs <;> simp_all

theorem matchHost_longer (hh : slash ∉ h) :
    (∀ base, matchHost (h ++ slash :: t) base = matchHost h base) ↔
      ∃ l, h ++ slash :: t = dot :: l ∧ dot ∉ l := by
  constructor
  · intro hall
    have hmatches {base : Bytes} (hbase : HostMatches (h ++ slash :: t) base) :
        h ≠ [] ∧ HostMatches h base :=
      matchHost_eq_ok.mp ((hall base).symm.trans (matchHost_eq_ok.mpr ⟨by simp, hbase⟩))
    cases h with
    | nil => exact absurd rfl (hmatches (.inr ⟨by simp [slash, dot], rfl⟩)).1
    | cons c h =>
      by_cases hc : c = dot
      · subst hc
        refine ⟨h ++ slash :: t, rfl, fun hdot => ?_⟩
        -- The constraint from the next '.' on reaches behind the '/'.
        obtain ⟨x, y, hxy, hx⟩ := eq_append_cons_of_mem hdot
        have hlen := congrArg length hxy
        have hs : dot :: y <:+ dot :: h ++ slash :: t := ⟨dot :: x, by simp [hxy]⟩
        have hy := (hmatches (.inl ⟨rfl, by simp at hlen ⊢; omega, hs.map toLower⟩)).2.dot_cons
        rcases append_eq_append_iff.mp hxy with ⟨u, rfl, -⟩ | ⟨u, -, hu⟩
        · exact hx (mem_append_left _ hy.2)
        · have hslash : slash ∈ dot :: y := hu ▸ mem_append_right _ mem_cons_self
          exact hh (mem_cons_of_mem _ ((mem_fold).mp (hy.1.subset ((mem_fold).mpr hslash))))
      · rcases (hmatches (.inr ⟨by simpa, rfl⟩)).2 with ⟨_, hlen, _⟩ | ⟨_, h⟩
        · rw [length_append] at hlen
          omega
        · simpa using length_eq_of_fold h
  · rintro ⟨l, hl, hdot⟩ base
    cases h with
    | nil => exact absurd (cons.inj hl).1 (by decide)
    | cons c h =>
      obtain ⟨rfl, hl'⟩ := cons.inj hl
      have hdot : dot ∉ h ++ slash :: t := fun h => hdot (hl' ▸ h)
      rw [matchHost, if_neg (by simp), if_neg fun h => hdot h.dot_cons.2, matchHost,
        if_neg (by simp), if_neg fun h => hdot (mem_append_left _ h.dot_cons.2)]

end Uri

/-- `nc_uri` decides on the host of a URI exactly if no '/' comes before the first ':' behind "://",
or if what is before that ':' starts with a '.' and has no other, so that nothing matches it. -/
theorem uri_host_iff (scheme rest : Bytes) (hscheme : colon ∉ scheme ∧ 0 ∉ scheme)
    (hrest : 0 ∉ rest) :
    (∀ base, ncUri (scheme ++ colon :: slash :: slash :: rest) base =
        matchHost ((rest.takeWhile (· ≠ colon)).takeWhile (· ≠ slash)) base) ↔
      (colon ∈ rest → slash ∈ rest.takeWhile (· ≠ colon) →
        ∃ l, rest.takeWhile (· ≠ colon) = dot :: l ∧ dot ∉ l) := by
  simp only [ncUri_eq hscheme hrest, hostPart_eq hrest]
  by_cases hc : colon ∈ rest
  · rw [if_pos hc]
    by_cases hs : slash ∈ rest.takeWhile (· ≠ colon)
    · simp only [hc, hs, true_imp_iff]
      obtain ⟨h, t, hp, hh⟩ := eq_append_cons_of_mem hs
      rw [hp, takeWhile_ne_append hh, matchHost_longer hh]
    · exact iff_of_true (fun base => by rw [takeWhile_ne hs]) fun _ h => absurd h hs
  · exact iff_of_true (fun base => by rw [if_neg hc, takeWhile_ne hc]) fun h => absurd h hc

/-- The constraint "b" does not match "a://b/c:d". -/
theorem uri_host_moved :
    ncUri [0x61, colon, slash, slash, 0x62, slash, 0x63, colon, 0x64] [0x62] ≠
      matchHost [0x62] [0x62] := by
  decide

theorem uri_host_port :
    ncUri [0x61, colon, slash, slash, 0x62, colon, 0x31, slash] [0x42] = matchHost [0x62] [0x42] :=
  (uri_host_iff [0x61] [0x62, colon, 0x31, slash] (by decide) (by decide)).mpr
    (fun _ h => absurd h (by decide)) [0x42]

end VigorTls.X509
