import VigorTls.X509.Context

/-!
# Name constraints

`nc_match` and `NAME_CONSTRAINTS_check` of `crypto/x509v3/v3_ncons.c`, and `check_name_constraints`
over a chain. What a name has to do under constraints is `Obeyed`, and over a chain `ChainObeys`,
for the names of every certificate that is the first or not self-issued.
-/

namespace VigorTls.X509

open List

/-- `V_ASN1_IA5STRING` and `NID_pkcs9_emailAddress`. -/
abbrev vAsn1Ia5string : ℕ := 22

@[inherit_doc vAsn1Ia5string] abbrev nidPkcs9EmailAddress : ℕ := 48

section Match

variable (nc_match_single : GeneralName → GeneralName → Code)

/-- The loop of `nc_match` over permitted subtrees, with its `match`. -/
def ncPermitted (gen : GeneralName) : ℕ → List GeneralSubtree → Except Code ℕ
  | found, [] => .ok found
  | found, sub :: subs =>
    if gen.type ≠ sub.base.type then ncPermitted gen found subs
    else if sub.minimum.isSome ∨ sub.maximum.isSome then .error .subtreeMinmax
    else if found = 2 then ncPermitted gen found subs
    else if nc_match_single gen sub.base = .ok then ncPermitted gen 2 subs
    else if nc_match_single gen sub.base ≠ .permittedViolation then
      .error (nc_match_single gen sub.base)
    else ncPermitted gen 1 subs

/-- The loop over excluded subtrees. -/
def ncExcluded (gen : GeneralName) : List GeneralSubtree → Code
  | [] => .ok
  | sub :: subs =>
    if gen.type ≠ sub.base.type then ncExcluded gen subs
    else if sub.minimum.isSome ∨ sub.maximum.isSome then .subtreeMinmax
    else if nc_match_single gen sub.base = .ok then .excludedViolation
    else if nc_match_single gen sub.base ≠ .permittedViolation then nc_match_single gen sub.base
    else ncExcluded gen subs

def ncMatch (gen : GeneralName) (nc : NameConstraints) : Code :=
  match ncPermitted nc_match_single gen 0 nc.permittedSubtrees with
  | .error r => r
  | .ok found =>
    if found = 1 then .permittedViolation
    else ncExcluded nc_match_single gen nc.excludedSubtrees

/-- The loop over the e-mail addresses in a subject. -/
def checkEmails (nc : NameConstraints) : List NameEntry → Code
  | [] => .ok
  | ne :: rest =>
    if ne.type ≠ vAsn1Ia5string then .unsupportedNameSyntax
    else
      let r := ncMatch nc_match_single (.contents .email ne.data) nc
      if r ≠ .ok then r else checkEmails nc rest

/-- The loop over alternative names. -/
def checkAltnames (nc : NameConstraints) : List GeneralName → Code
  | [] => .ok
  | gen :: rest =>
    let r := ncMatch nc_match_single gen nc
    if r ≠ .ok then r else checkAltnames nc rest

/-- Those that `X509_NAME_get_index_by_NID` finds. -/
def emailEntries (nm : Name) : List NameEntry := nm.entries.filter (·.nid = nidPkcs9EmailAddress)

def nameConstraintsCheck (x : Certificate) (nc : NameConstraints) : Code :=
  let r :=
    if x.subject.entries ≠ [] then
      let r := ncMatch nc_match_single (.directoryName x.subject) nc
      if r ≠ .ok then r else checkEmails nc_match_single nc (emailEntries x.subject)
    else .ok
  if r ≠ .ok then r else checkAltnames nc_match_single nc x.altname

end Match

section Chain

variable {X K : Type} (o : Objects X K) (cb : VerifyCb X)

/-- The inner loop of `check_name_constraints`, for `x` at `i`. -/
def checkAgainst (i : ℕ) (x : X) : Complaint X → List X → Except (Complaint X) (Complaint X)
  | e, [] => .ok e
  | e, issuer :: issuers =>
    match (o.info issuer).nc with
    | none => checkAgainst i x e issuers
    | some nc => do
      let rv := nameConstraintsCheck o.nc_match_single (o.info x) nc
      let e ← reportIf (rv ≠ .ok) cb e rv i x
      checkAgainst i x e issuers

/-- The outer loop, for the certificates below `n`. -/
def checkNameConstraintsFrom (chain : List X) :
    ℕ → Complaint X → Except (Complaint X) (Complaint X)
  | 0, e => .ok e
  | i + 1, e =>
    match chain[i]? with
    | none => checkNameConstraintsFrom chain i e
    | some x =>
      if i ≠ 0 ∧ (x509v3CacheExtensions (o.info x)).si then checkNameConstraintsFrom chain i e
      else do
        let e ← checkAgainst o cb i x e (chain.drop (i + 1)).reverse
        checkNameConstraintsFrom chain i e

def checkNameConstraints (chain : List X) (e : Complaint X) : Except (Complaint X) (Complaint X) :=
  checkNameConstraintsFrom o cb chain chain.length e

end Chain

/-! ## Names under constraints -/

/-- A name keeps to constraints. -/
structure Obeyed (nc_match_single : GeneralName → GeneralName → Code) (nc : NameConstraints)
    (gen : GeneralName) : Prop where
  permitted : (∃ sub ∈ nc.permittedSubtrees, sub.base.type = gen.type) →
    ∃ sub ∈ nc.permittedSubtrees, sub.base.type = gen.type ∧ nc_match_single gen sub.base = .ok
  excluded : ∀ sub ∈ nc.excludedSubtrees, sub.base.type = gen.type →
    nc_match_single gen sub.base ≠ .ok
  whole : ∀ sub ∈ nc.permittedSubtrees ++ nc.excludedSubtrees, sub.base.type = gen.type →
    sub.minimum = none ∧ sub.maximum = none

/-- Every single match of a name has an answer. -/
def Answered (nc_match_single : GeneralName → GeneralName → Code) (nc : NameConstraints)
    (gen : GeneralName) : Prop :=
  ∀ sub ∈ nc.permittedSubtrees ++ nc.excludedSubtrees, sub.base.type = gen.type →
    nc_match_single gen sub.base = .ok ∨ nc_match_single gen sub.base = .permittedViolation

section Obeyed

variable {nc_match_single : GeneralName → GeneralName → Code} {gen : GeneralName}

/-- What the loop over permitted subtrees says of them when it gets to their end. -/
structure PermittedTo (nc_match_single : GeneralName → GeneralName → Code) (gen : GeneralName)
    (found : ℕ) (subs : List GeneralSubtree) (found' : ℕ) : Prop where
  whole : ∀ sub ∈ subs, sub.base.type = gen.type → sub.minimum = none ∧ sub.maximum = none
  le : found' ≤ 2
  none_of_type : (¬ ∃ sub ∈ subs, sub.base.type = gen.type) → found' = found
  of_type : (∃ sub ∈ subs, sub.base.type = gen.type) → 1 ≤ found'
  matched : found' = 2 ↔ found = 2 ∨
    ∃ sub ∈ subs, sub.base.type = gen.type ∧ nc_match_single gen sub.base = .ok

variable {found : ℕ}
variable {subs : List GeneralSubtree} {found' : ℕ} {sub : GeneralSubtree} {nc : NameConstraints}

theorem PermittedTo.cons_other (h : PermittedTo nc_match_single gen found subs found')
    (hsub : sub.base.type ≠ gen.type) :
    PermittedTo nc_match_single gen found (sub :: subs) found' := by
  obtain ⟨whole, le, none_of_type, of_type, matched⟩ := h
  refine ⟨?_, le, ?_, ?_, ?_⟩
  · intro s hs htype
    rcases mem_cons.mp hs with rfl | hs
    · exact absurd htype hsub
    · exact whole s hs htype
  · intro hnone
    exact none_of_type fun ⟨s, hs, htype⟩ => hnone ⟨s, mem_cons_of_mem _ hs, htype⟩
  · rintro ⟨s, hs, htype⟩
    rcases mem_cons.mp hs with rfl | hs
    · exact absurd htype hsub
    · exact of_type ⟨s, hs, htype⟩
  · rw [matched, exists_mem_cons_iff]
    simp [hsub]

theorem PermittedTo.cons_of_type {found1 : ℕ}
    (h : PermittedTo nc_match_single gen found1 subs found') (hsub : sub.base.type = gen.type)
    (hwhole : sub.minimum = none ∧ sub.maximum = none) (hle : 1 ≤ found1)
    (hfound : found1 = 2 ↔ found = 2 ∨ nc_match_single gen sub.base = .ok) :
    PermittedTo nc_match_single gen found (sub :: subs) found' := by
  obtain ⟨whole, le, none_of_type, of_type, matched⟩ := h
  refine ⟨?_, le, ?_, ?_, ?_⟩
  · intro s hs htype
    rcases mem_cons.mp hs with rfl | hs
    · exact hwhole
    · exact whole s hs htype
  · exact fun hnone => absurd ⟨sub, mem_cons_self, hsub⟩ hnone
  · intro _
    by_cases hsome : ∃ s ∈ subs, s.base.type = gen.type
    · exact of_type hsome
    · rw [none_of_type hsome]
      exact hle
  · rw [matched, exists_mem_cons_iff, hfound, or_assoc]
    simp [hsub]

theorem whole_iff :
    ¬ (sub.minimum.isSome ∨ sub.maximum.isSome) ↔ sub.minimum = none ∧ sub.maximum = none := by
  rw [not_or, Option.not_isSome_iff_eq_none, Option.not_isSome_iff_eq_none]

theorem ncPermitted_ok (hfound : found ≤ 2)
    (h : ncPermitted nc_match_single gen found subs = .ok found') :
    PermittedTo nc_match_single gen found subs found' := by
  fun_induction ncPermitted nc_match_single gen found subs with
  | case1 found =>
    cases h
    exact ⟨by simp, hfound, fun _ => rfl, by simp, by simp⟩
  | case2 found sub subs htype ih => exact (ih hfound h).cons_other (Ne.symm htype)
  | case3 found sub subs htype hminmax => exact nomatch h
  | case4 sub subs htype hminmax ih =>
    exact (ih hfound h).cons_of_type (not_not.mp htype).symm (whole_iff.mp hminmax) (by decide)
      (by simp)
  | case5 found sub subs htype hminmax hnot hok ih =>
    exact (ih le_rfl h).cons_of_type (not_not.mp htype).symm (whole_iff.mp hminmax) (by decide)
      (by simp [hok])
  | case6 found sub subs htype hminmax hnot hok herr => exact nomatch h
  | case7 found sub subs htype hminmax hnot hok herr ih =>
    exact (ih (by decide) h).cons_of_type (not_not.mp htype).symm (whole_iff.mp hminmax) le_rfl
      (by simp [hok, hnot])

theorem ncPermitted_total
    (h : ∀ sub ∈ subs, sub.base.type = gen.type → (sub.minimum = none ∧ sub.maximum = none) ∧
      (nc_match_single gen sub.base = .ok ∨ nc_match_single gen sub.base = .permittedViolation)) :
    ∃ found', ncPermitted nc_match_single gen found subs = .ok found' := by
  fun_induction ncPermitted nc_match_single gen found subs with
  | case1 found => exact ⟨found, rfl⟩
  | case3 found sub subs htype hminmax =>
    exact absurd hminmax (whole_iff.mpr (h sub mem_cons_self (not_not.mp htype).symm).1)
  | case6 found sub subs htype hminmax hnot hok herr =>
    exact absurd (h sub mem_cons_self (not_not.mp htype).symm).2 (not_or.mpr ⟨hok, herr⟩)
  -- The subtree is passed over, and the rest is looked at.
  | case2 _ _ _ _ ih | case4 _ _ _ _ ih | case5 _ _ _ _ _ _ _ ih | case7 _ _ _ _ _ _ _ _ ih =>
    exact ih fun s hs => h s (mem_cons_of_mem _ hs)

theorem ncPermitted_error {r : Code} (h : ncPermitted nc_match_single gen found subs = .error r) :
    r ≠ .ok := by
  fun_induction ncPermitted nc_match_single gen found subs with
  | case1 found => exact nomatch h
  | case2 found sub subs htype ih => exact ih h
  | case3 found sub subs htype hminmax =>
    obtain rfl := Except.error.inj h
    decide
  | case4 sub subs htype hminmax ih => exact ih h
  | case5 found sub subs htype hminmax hnot hok ih => exact ih h
  | case6 found sub subs htype hminmax hnot hok herr =>
    obtain rfl := Except.error.inj h
    exact hok
  | case7 found sub subs htype hminmax hnot hok herr ih => exact ih h

theorem ncExcluded_ok (h : ncExcluded nc_match_single gen subs = .ok) :
    ∀ sub ∈ subs, sub.base.type = gen.type →
      (sub.minimum = none ∧ sub.maximum = none) ∧ nc_match_single gen sub.base ≠ .ok := by
  fun_induction ncExcluded nc_match_single gen subs with
  | case1 => exact fun sub hsub => absurd hsub not_mem_nil
  | case2 sub subs htype ih =>
    intro s hs hs_type
    rcases mem_cons.mp hs with rfl | hs
    · exact absurd hs_type.symm htype
    · exact ih h s hs hs_type
  | case3 sub subs htype hminmax => exact nomatch h
  | case4 sub subs htype hminmax hok => exact nomatch h
  | case5 sub subs htype hminmax hok herr => exact absurd h hok
  | case6 sub subs htype hminmax hok herr ih =>
    intro s hs hs_type
    rcases mem_cons.mp hs with rfl | hs
    · exact ⟨whole_iff.mp hminmax, hok⟩
    · exact ih h s hs hs_type

theorem ncExcluded_of
    (h : ∀ sub ∈ subs, sub.base.type = gen.type → (sub.minimum = none ∧ sub.maximum = none) ∧
      nc_match_single gen sub.base = .permittedViolation) :
    ncExcluded nc_match_single gen subs = .ok := by
  induction subs with
  | nil => rfl
  | cons sub subs ih =>
    have hrest := ih fun s hs => h s (mem_cons_of_mem _ hs)
    rw [ncExcluded]
    split
    · exact hrest
    · next htype =>
      obtain ⟨hwhole, hmatch⟩ := h sub mem_cons_self (not_not.mp htype).symm
      rw [if_neg (whole_iff.mpr hwhole), hmatch, if_neg (by decide), if_neg (by decide), hrest]

theorem obeyed_of_ncMatch (h : ncMatch nc_match_single gen nc = .ok) :
    Obeyed nc_match_single nc gen := by
  rw [ncMatch] at h
  split at h
  · next r hr => exact absurd h (ncPermitted_error hr)
  next found hfound =>
  have hperm := ncPermitted_ok (by decide) hfound
  split at h
  · exact nomatch h
  next hne =>
  have hexcl := ncExcluded_ok h
  refine ⟨fun hsome => ?_, fun sub hsub htype => (hexcl sub hsub htype).2, ?_⟩
  · have hge := hperm.of_type hsome
    have hle := hperm.le
    exact (hperm.matched.mp (by omega)).resolve_left (by decide)
  · intro sub hsub htype
    rcases mem_append.mp hsub with hsub | hsub
    · exact hperm.whole sub hsub htype
    · exact (hexcl sub hsub htype).1

theorem ncMatch_of_obeyed (h : Obeyed nc_match_single nc gen)
    (hanswered : Answered nc_match_single nc gen) : ncMatch nc_match_single gen nc = .ok := by
  obtain ⟨found, hfound⟩ : ∃ found, ncPermitted nc_match_single gen 0 nc.permittedSubtrees =
      .ok found := by
    refine ncPermitted_total fun sub hsub htype => ?_
    exact ⟨h.whole sub (mem_append_left _ hsub) htype, hanswered sub (mem_append_left _ hsub) htype⟩
  have hperm := ncPermitted_ok (by decide) hfound
  have hne : found ≠ 1 := by
    by_cases hsome : ∃ sub ∈ nc.permittedSubtrees, sub.base.type = gen.type
    · have htwo := hperm.matched.mpr (.inr (h.permitted hsome))
      omega
    · have hzero := hperm.none_of_type hsome
      omega
  rw [ncMatch, hfound]
  dsimp only
  rw [if_neg hne]
  refine ncExcluded_of fun sub hsub htype => ?_
  have hmem : sub ∈ nc.permittedSubtrees ++ nc.excludedSubtrees := mem_append_right _ hsub
  exact ⟨h.whole sub hmem htype,
    (hanswered sub hmem htype).resolve_left (h.excluded sub hsub htype)⟩

end Obeyed

/-! ## Certificates and chains -/

/-- The names of a certificate that constraints are for. -/
def names (x : Certificate) : List GeneralName :=
  (if x.subject.entries ≠ [] then
    .directoryName x.subject :: (emailEntries x.subject).map (.contents .email ·.data) else []) ++
    x.altname

/-- The e-mail addresses in a subject are of the type that constraints can be applied to. -/
def EmailsIa5 (x : Certificate) : Prop := ∀ ne ∈ emailEntries x.subject, ne.type = vAsn1Ia5string

section Certificate

variable {nc_match_single : GeneralName → GeneralName → Code} {nc : NameConstraints}

theorem checkEmails_eq_ok {entries : List NameEntry} :
    checkEmails nc_match_single nc entries = .ok ↔
      ∀ ne ∈ entries, ne.type = vAsn1Ia5string ∧
        ncMatch nc_match_single (.contents .email ne.data) nc = .ok := by
  induction entries with
  | nil => simp [checkEmails]
  | cons ne rest ih =>
    rw [checkEmails, forall_mem_cons, ← ih]
    split
    · next htype => exact ⟨fun h => (nomatch h), fun h => absurd h.1.1 htype⟩
    next htype =>
    dsimp only
    split
    · next hmatch => exact ⟨fun h => absurd h hmatch, fun h => absurd h.1.2 hmatch⟩
    · next hmatch =>
      exact ⟨fun h => ⟨⟨not_not.mp htype, not_not.mp hmatch⟩, h⟩, fun h => h.2⟩

theorem checkAltnames_eq_ok {gens : List GeneralName} :
    checkAltnames nc_match_single nc gens = .ok ↔
      ∀ gen ∈ gens, ncMatch nc_match_single gen nc = .ok := by
  induction gens with
  | nil => simp [checkAltnames]
  | cons gen rest ih =>
    rw [checkAltnames, forall_mem_cons, ← ih]
    split
    · next hmatch => exact ⟨fun h => absurd h hmatch, fun h => absurd h.1 hmatch⟩
    · next hmatch => exact ⟨fun h => ⟨not_not.mp hmatch, h⟩, fun h => h.2⟩

theorem ite_code_eq_ok {r r' : Code} : (if r ≠ .ok then r else r') = .ok ↔ r = .ok ∧ r' = .ok := by
  split
  · next h => exact ⟨fun h' => absurd h' h, fun h' => absurd h'.1 h⟩
  · next h => exact ⟨fun h' => ⟨not_not.mp h, h'⟩, fun h' => h'.2⟩

theorem nameConstraintsCheck_eq_ok {x : Certificate} :
    nameConstraintsCheck nc_match_single x nc = .ok ↔
      EmailsIa5 x ∧ ∀ gen ∈ names x, ncMatch nc_match_single gen nc = .ok := by
  rw [nameConstraintsCheck, ite_code_eq_ok, checkAltnames_eq_ok, names, forall_mem_append,
    ← and_assoc]
  refine and_congr_left fun _ => ?_
  by_cases hne : x.subject.entries ≠ []
  · rw [if_pos hne, if_pos hne, ite_code_eq_ok, checkEmails_eq_ok, forall_mem_cons,
      forall_mem_map, forall₂_and]
    exact and_left_comm
  have hnil : emailEntries x.subject = [] := by
    rw [emailEntries, not_not.mp hne]
    rfl
  rw [if_neg hne, if_neg hne, EmailsIa5, hnil]
  simp

end Certificate

section Chain

variable {X K : Type} {o : Objects X K} {cb : VerifyCb X}

/-- The first certificate, or one that is not self-issued. -/
def Constrained (o : Objects X K) (i : ℕ) (x : X) : Prop :=
  i = 0 ∨ ¬ (x509v3CacheExtensions (o.info x)).si

/-- `NAME_CONSTRAINTS_check` finds nothing in a chain up to `n`. -/
def ChainChecked (o : Objects X K) (chain : List X) (n : ℕ) : Prop :=
  ∀ i x, i < n → chain[i]? = some x → Constrained o i x → ∀ y ∈ chain.drop (i + 1), ∀ nc,
    (o.info y).nc = some nc → nameConstraintsCheck o.nc_match_single (o.info x) nc = .ok

variable {e e' : Complaint X} {issuers : List X}

theorem checkAgainst_of {i : ℕ} {x : X}
    (h : ∀ y ∈ issuers, ∀ nc, (o.info y).nc = some nc →
      nameConstraintsCheck o.nc_match_single (o.info x) nc = .ok) :
    checkAgainst o cb i x e issuers = .ok e := by
  induction issuers with
  | nil => rfl
  | cons issuer issuers ih =>
    have hrest := ih fun y hy => h y (mem_cons_of_mem _ hy)
    rw [checkAgainst]
    split
    · exact hrest
    · next nc hnc =>
      have hok := h issuer mem_cons_self nc hnc
      exact bind_eq_ok.mpr ⟨e, if_neg (not_not.mpr hok), hrest⟩

theorem checkAgainst_ok (hcb : Transparent cb) {i : ℕ} {x : X}
    (h : checkAgainst o cb i x e issuers = .ok e') :
    e' = e ∧ ∀ y ∈ issuers, ∀ nc, (o.info y).nc = some nc →
      nameConstraintsCheck o.nc_match_single (o.info x) nc = .ok := by
  induction issuers generalizing e with
  | nil => exact ⟨(Except.ok.inj h).symm, fun y hy => absurd hy not_mem_nil⟩
  | cons issuer issuers ih =>
    rw [checkAgainst] at h
    rw [forall_mem_cons]
    split at h
    · next hnc =>
      obtain ⟨he, hrest⟩ := ih h
      exact ⟨he, fun nc hsome => absurd (hnc.symm.trans hsome) (by simp), hrest⟩
    next nc hnc =>
    obtain ⟨e1, hfirst, hnext⟩ := bind_eq_ok.mp h
    obtain ⟨hok, rfl⟩ := (reportIf_eq_ok hcb).mp hfirst
    obtain ⟨he, hrest⟩ := ih hnext
    refine ⟨he, fun nc' hsome => ?_, hrest⟩
    rw [hnc] at hsome
    rw [← Option.some.inj hsome]
    exact not_not.mp hok

variable {chain : List X}

theorem ChainChecked.succ {n : ℕ} (h : ChainChecked o chain n)
    (hn : ∀ x, chain[n]? = some x → Constrained o n x → ∀ y ∈ chain.drop (n + 1), ∀ nc,
      (o.info y).nc = some nc → nameConstraintsCheck o.nc_match_single (o.info x) nc = .ok) :
    ChainChecked o chain (n + 1) := by
  intro i x hi hx
  rcases Nat.lt_succ_iff_lt_or_eq.mp hi with hi | rfl
  · exact h i x hi hx
  · exact hn x hx

theorem checkNameConstraintsFrom_of {n : ℕ} (h : ChainChecked o chain n) :
    checkNameConstraintsFrom o cb chain n e = .ok e := by
  induction n with
  | zero => rfl
  | succ n ih =>
    have hrest := ih fun i x hi => h i x (Nat.lt_succ_of_lt hi)
    rw [checkNameConstraintsFrom]
    split
    · exact hrest
    next x hx =>
    split
    · exact hrest
    next hself =>
    have hcons : Constrained o n x := by
      by_contra hnot
      exact hself (not_or.mp hnot |>.imp_right not_not.mp)
    refine bind_eq_ok.mpr ⟨e, checkAgainst_of fun y hy => ?_, hrest⟩
    exact h n x n.lt_succ_self hx hcons y (mem_reverse.mp hy)

theorem checkNameConstraintsFrom_ok (hcb : Transparent cb) {n : ℕ}
    (h : checkNameConstraintsFrom o cb chain n e = .ok e') : e' = e ∧ ChainChecked o chain n := by
  induction n generalizing e with
  | zero => exact ⟨(Except.ok.inj h).symm, fun i x hi => absurd hi (Nat.not_lt_zero i)⟩
  | succ n ih =>
    rw [checkNameConstraintsFrom] at h
    split at h
    · next hnone =>
      obtain ⟨he, hrest⟩ := ih h
      exact ⟨he, hrest.succ fun x hx => absurd (hnone.symm.trans hx) (by simp)⟩
    next x hx =>
    split at h
    · next hself =>
      obtain ⟨he, hrest⟩ := ih h
      refine ⟨he, hrest.succ fun x' hx' hcons => ?_⟩
      obtain rfl := Option.some.inj (hx.symm.trans hx')
      exact absurd hself (not_and.mpr fun hne => hcons.resolve_left hne)
    obtain ⟨e1, hfirst, hnext⟩ := bind_eq_ok.mp h
    obtain ⟨rfl, hnow⟩ := checkAgainst_ok hcb hfirst
    obtain ⟨he, hrest⟩ := ih hnext
    refine ⟨he, hrest.succ fun x' hx' _ y hy => ?_⟩
    obtain rfl := Option.some.inj (hx.symm.trans hx')
    exact hnow y (mem_reverse.mpr hy)

/-- Names keep to the constraints of all certificates above in a chain. -/
def ChainObeys (o : Objects X K) (chain : List X) : Prop :=
  ∀ i j x y, i < j → chain[i]? = some x → chain[j]? = some y → Constrained o i x → ∀ nc,
    (o.info y).nc = some nc → ∀ gen ∈ names (o.info x), Obeyed o.nc_match_single nc gen

/-- These names can be decided on. -/
def ChainAnswered (o : Objects X K) (chain : List X) : Prop :=
  ∀ i j x y, i < j → chain[i]? = some x → chain[j]? = some y → Constrained o i x → ∀ nc,
    (o.info y).nc = some nc →
    EmailsIa5 (o.info x) ∧ ∀ gen ∈ names (o.info x), Answered o.nc_match_single nc gen

/-- A chain that passes the check obeys its constraints. -/
theorem chainObeys_of_ok (hcb : Transparent cb) (h : checkNameConstraints o cb chain e = .ok e') :
    e' = e ∧ ChainObeys o chain := by
  obtain ⟨he, hchecked⟩ := checkNameConstraintsFrom_ok hcb h
  refine ⟨he, fun i j x y hij hx hy hcons nc hnc gen hgen => ?_⟩
  obtain ⟨hi, -⟩ := List.getElem?_eq_some_iff.mp hx
  have hmem : y ∈ chain.drop (i + 1) := by
    refine mem_of_getElem? (i := j - (i + 1)) ?_
    rw [getElem?_drop, Nat.add_sub_cancel' hij, hy]
  have hok := hchecked i x hi hx hcons y hmem nc hnc
  exact obeyed_of_ncMatch ((nameConstraintsCheck_eq_ok.mp hok).2 gen hgen)

theorem checkNameConstraints_of_obeys (hobeys : ChainObeys o chain)
    (hanswered : ChainAnswered o chain) (e : Complaint X) :
    checkNameConstraints o cb chain e = .ok e := by
  refine checkNameConstraintsFrom_of fun i x _ hx hcons y hy nc hnc => ?_
  obtain ⟨j, hj⟩ := mem_iff_getElem?.mp hy
  rw [getElem?_drop] at hj
  obtain ⟨hemails, hanswer⟩ := hanswered i _ x y (by omega) hx hj hcons nc hnc
  refine nameConstraintsCheck_eq_ok.mpr ⟨hemails, fun gen hgen => ?_⟩
  exact ncMatch_of_obeyed (hobeys i _ x y (by omega) hx hj hcons nc hnc gen hgen) (hanswer gen hgen)

end Chain

end VigorTls.X509
