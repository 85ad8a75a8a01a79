import VigorTls.X509.Verify

/-!
# Runs of verification

What a result of 1 of `X509_verify_cert` means, with a callback that does not interfere: for the
signatures after any runs on the same objects (`chain_signatures`), path lengths (`path_lengths`),
where the certificates come from (`chain_apart`) and names (`name_constraints`).

A certificate is marked when its signature has been checked with some key, and then never checked
with that of another issuer (`reused_certificate`). The path length of a self-issued certificate, or
above a self-issued first one, may be exceeded (`path_length_exceeded`).
-/

namespace VigorTls.X509

open Lib List Sum

variable {X K : Type} [DecidableEq X]

/-! ## Signatures -/

variable (o : Objects X K)

/-- The flags after runs with any contexts. -/
def marksAfter (history : List (StoreCtx X)) : Marks X :=
  run (fun marks ctx => (x509VerifyCert o ctx marks).1) (fun _ => false) history

omit [DecidableEq X] in
/-- The signatures of a chain verify. -/
def Signed (chain : List X) : Prop :=
  ∀ i x y, chain[i]? = some x → chain[i + 1]? = some y → Verifies o x y

omit [DecidableEq X] in
/-- Those do of certificates that are marked, or are in the chain once more. -/
def PassedOverSigned (marks : Marks X) (chain : List X) : Prop :=
  ∀ i x y, chain[i]? = some x → chain[i + 1]? = some y →
    (marks x ∨ x ∈ chain.drop (i + 1)) → Verifies o x y

variable (o : Objects X K)

/-- **Signatures.** After any runs on the same objects, the signatures of an accepted chain verify
exactly if those do that are passed over. -/
theorem chain_signatures (history : List (StoreCtx X)) (ctx : StoreCtx X) (hcb : Transparent ctx.cb)
    (hok : (x509VerifyCert o ctx (marksAfter o history)).2.ok = some 1) :
    Signed o (x509VerifyCert o ctx (marksAfter o history)).2.chain ↔
      PassedOverSigned o (marksBefore o ctx (marksAfter o history))
        (x509VerifyCert o ctx (marksAfter o history)).2.chain := by
  obtain ⟨cert, s, -, haccepted⟩ := x509VerifyCert_accepted hcb hok
  rw [haccepted.chain_eq]
  constructor
  · exact fun h i x y hx hy _ => h i x y hx hy
  intro h i x y hx hy
  rcases haccepted.checked i x y hx hy with hmark | hmem | hverify
  · exact h i x y hx hy (.inl hmark)
  · exact h i x y hx hy (.inr hmem)
  · exact hverify

/-! Certificates by number, with keys of the same numbers. -/

/-- A name with one attribute. -/
def shortName (n : UInt8) : Name := ⟨[⟨13, 19, [n]⟩], [n]⟩

/-- A certificate with nothing but names. -/
def named (subject issuer : UInt8) : Certificate where
  version := 2
  serial := 1
  subject := shortName subject
  issuer := shortName issuer
  extensions := []
  basic_constraints := none
  proxy_cert_info := none
  key_usage := none
  netscape_cert_type := none
  skid := none
  akid := none
  altname := []
  nc := none
  aux := none

/-- Objects with the given contents, signed as `signed` says. -/
def objects (info : ℕ → Certificate) (signed : ℕ → ℕ → Bool) : Objects ℕ ℕ where
  info := info
  pubkey := some
  verify := signed
  same x y := x = y
  check_purpose _ _ _ := 1
  nc_match_single _ _ := .permittedViolation

/-- The verification of certificate 0, with a store of issuers. -/
def verification (untrusted : List ℕ) (issuer : ℕ → Option ℕ) : StoreCtx ℕ where
  cert := some 0
  untrusted := some untrusted
  chain := none
  parent := false
  flags := {}
  depth := 5
  purpose := 0
  trust := 0
  cb ok _ := ok
  get_issuer _ x := match issuer x with
    | some y => .found y
    | none => .notFound
  lookup_certs _ := none
  not_before _ := -1
  not_after _ := 1
  hosts := none
  email := none
  ip := none
  check_revocation _ e := ([], .ok e)
  check_suiteb _ := (.ok, 0)
  check_policy _ e := .ok e

theorem verification_transparent {untrusted : List ℕ} {issuer : ℕ → Option ℕ} :
    Transparent (verification untrusted issuer).cb := fun _ _ => rfl

/-- Certificate 0, and two that could have issued it, with keys of their own. -/
def twoIssuers : Objects ℕ ℕ :=
  objects (fun x => if x = 0 then named 1 2 else named 2 2) fun x key => x = key ∨ (x = 0 ∧ key = 1)

/-- Certificate 0 is signed with the key of 1, and its signature is passed over in a second run. -/
theorem chain_signatures_again :
    Signed twoIssuers (x509VerifyCert twoIssuers (verification [] fun _ => some 1)
      (marksAfter twoIssuers [verification [] fun _ => some 1])).2.chain := by
  refine (chain_signatures twoIssuers [_] _ verification_transparent (by decide +kernel)).mpr ?_
  intro i x y hx hy _
  have hchain : (x509VerifyCert twoIssuers (verification [] fun _ => some 1)
    (marksAfter twoIssuers [verification [] fun _ => some 1])).2.chain = [0, 1] := by decide +kernel
  rw [hchain] at hx hy
  rcases i with _ | i
  · cases hx
    cases hy
    exact ⟨1, rfl, by decide⟩
  · simp at hy

/-- After a run with 1 in the store, a run with 2 in it accepts 2 as the issuer. -/
theorem reused_certificate :
    let r := x509VerifyCert twoIssuers (verification [] fun _ => some 2)
      (marksAfter twoIssuers [verification [] fun _ => some 1])
    r.2.ok = some 1 ∧ r.2.chain = [0, 2] ∧ ¬ Signed twoIssuers r.2.chain := by
  intro r
  have hchain : r.2.chain = [0, 2] := by decide +kernel
  refine ⟨by decide +kernel, hchain, fun hsigned => ?_⟩
  obtain ⟨pkey, hpkey, hverify⟩ := hsigned 0 0 2 rfl rfl
  cases hpkey
  exact absurd hverify (by decide)

/-- **Path lengths.** In an accepted chain without proxy certificates they are kept exactly if those
are that are not looked at. -/
theorem path_lengths (ctx : StoreCtx X) (marks : Marks X)
    (hcb : Transparent ctx.cb) (hok : (x509VerifyCert o ctx marks).2.ok = some 1)
    (hproxy : ∀ x ∈ (x509VerifyCert o ctx marks).2.chain, ¬ isProxy o x) :
    PathLengthsKept o (x509VerifyCert o ctx marks).2.chain
        (x509VerifyCert o ctx marks).2.last_untrusted ↔
      SelfIssuedKept o (x509VerifyCert o ctx marks).2.chain
        (x509VerifyCert o ctx marks).2.last_untrusted := by
  obtain ⟨cert, s, -, haccepted⟩ := x509VerifyCert_accepted hcb hok
  rw [haccepted.chain_eq] at hproxy ⊢
  rw [haccepted.last_untrusted_eq]
  exact pathLengthsKept_iff hproxy haccepted.passed

/-- The same with basic constraints, and identifiers of keys. -/
def authority (subject issuer : UInt8) (pathlen : Option ℤ) (skid : UInt8) (keyid : Option UInt8) :
    Certificate :=
  { named subject issuer with
    basic_constraints := some ⟨true, pathlen⟩
    skid := some [skid]
    akid := keyid.map fun keyid => ⟨some [keyid], none, none⟩ }

/-- The third certificate has no room below for certificates that issue others. -/
def constrained : Objects ℕ ℕ :=
  objects (fun x => match x with
    | 0 => named 1 2
    | 1 => authority 2 3 none 1 none
    | 2 => authority 3 4 (some 1) 2 none
    | _ => authority 4 4 none 3 none) fun _ _ => true

/-- The third certificate is self-issued, and nothing is allowed below it. -/
def selfIssuedAuthority : Objects ℕ ℕ :=
  objects (fun x => match x with
    | 0 => named 1 2
    | 1 => authority 2 3 none 1 none
    | 2 => authority 3 3 (some 0) 2 (some 3)
    | _ => authority 3 3 none 3 none) fun _ _ => true

/-- The same with the first certificate self-issued. -/
def selfIssuedLeaf : Objects ℕ ℕ :=
  objects (fun x => match x with
    | 0 => { authority 2 2 none 0 (some 1) with basic_constraints := none }
    | 1 => authority 2 3 none 1 none
    | 2 => authority 3 4 (some 0) 2 none
    | _ => authority 4 4 none 3 none) fun _ _ => true

/-- The third certificate from the untrusted list, the fourth from the store. -/
def fourCertificates : StoreCtx ℕ := verification [1, 2] fun x => if x = 2 then some 3 else none

/-- A path length that is kept. -/
theorem path_lengths_one :
    let t := (x509VerifyCert constrained fourCertificates fun _ => false).2
    PathLengthsKept constrained t.chain t.last_untrusted := by
  intro t
  refine (path_lengths constrained fourCertificates _ verification_transparent (by decide +kernel)
    (by decide +kernel)).mpr ?_
  have hlast : (x509VerifyCert constrained fourCertificates fun _ => false).2.last_untrusted =
      3 := by decide +kernel
  refine ⟨fun i x hi hlt hx hsi => ?_, fun leaf hleaf hsi => ?_⟩
  · -- neither of the two is self-issued
    obtain rfl | rfl : i = 1 ∨ i = 2 := by omega
    · cases hx
      exact absurd hsi (by decide)
    · cases hx
      exact absurd hsi (by decide)
  · cases hleaf
    exact absurd hsi (by decide)

/-- In a chain of four certificates that is accepted the third, with a path length of 0, has one
below it that issues another. -/
theorem path_length_exceeded :
    (let r := (x509VerifyCert selfIssuedAuthority fourCertificates fun _ => false).2
     r.ok = some 1 ∧ ¬ PathLengthsKept selfIssuedAuthority r.chain r.last_untrusted) ∧
    (let r := (x509VerifyCert selfIssuedLeaf fourCertificates fun _ => false).2
     r.ok = some 1 ∧ ¬ PathLengthsKept selfIssuedLeaf r.chain r.last_untrusted) := by
  refine ⟨⟨by decide +kernel, fun h => ?_⟩, by decide +kernel, fun h => ?_⟩
  · exact absurd (h 2 2 (by decide) (by decide +kernel) (by decide +kernel) (by decide))
      (by decide +kernel)
  · exact absurd (h 2 2 (by decide) (by decide +kernel) (by decide +kernel) (by decide))
      (by decide +kernel)

omit [DecidableEq X] in
/-- The variables of a search in a state. -/
def SearchState.vars : SearchState X → Option (Search X)
  | .busy _ s => some s
  | .found _ s => some s
  | .stopped _ s => some s
  | .crashed => none

omit [DecidableEq X] in
theorem Good.apart {o : Objects X K} {ctx : StoreCtx X} {cert : X} {st : SearchState X}
    (h : Good o ctx cert st) : ∃ s, st.vars = some s ∧ Apart ctx cert s := by
  match st with
  | .busy phase s => exact ⟨s, rfl, Kept.apart h⟩
  | .found trust s => exact ⟨s, rfl, h.1⟩
  | .stopped ok s => exact ⟨s, rfl, h.1⟩

theorem prepare_isSome {o : Objects X K} {ctx : StoreCtx X} (hwhole : ¬ ctx.flags.partial_chain)
    {r : Result X} (h : prepare o ctx = .inl r) : r.ok.isSome := by
  rw [prepare] at h
  split at h
  · rw [← inl.inj h]
    rfl
  next cert hcert =>
  have hended := search_ended o ctx cert
  have hgood : Good o ctx cert (search o ctx cert) := iterate_good o ctx cert hwhole _
  split at h
  · rw [← inl.inj h]
    rfl
  split at h
  · rw [← inl.inj h]
    rfl
  · split at h
    · rw [← inl.inj h]
      rfl
    · split at h
      · rw [← inl.inj h]
        rfl
      · cases h
  -- the search is over, and not with a null pointer
  next hstopped hfound =>
  cases hsearch : search o ctx cert with
  | busy phase s =>
    rw [hsearch] at hended
    exact hended.elim
  | found trust s => exact absurd hsearch (hfound trust s)
  | stopped ok s => exact absurd hsearch (hstopped ok s)
  | crashed =>
    rw [hsearch] at hgood
    exact hgood.elim

theorem x509VerifyCert_isSome {o : Objects X K} {ctx : StoreCtx X}
    (hwhole : ¬ ctx.flags.partial_chain) (marks : Marks X) :
    (x509VerifyCert o ctx marks).2.ok.isSome := by
  rw [x509VerifyCert]
  split
  · next r hprepare => exact prepare_isSome hwhole hprepare
  dsimp only
  split
  · rfl
  rw [finish]
  split
  · rfl
  split
  · rfl
  · split
    · split <;> rfl
    · rfl

/-- What holds of a result of 1. -/
structure TrustedChain (ctx : StoreCtx X) (r : Result X) : Prop where
  anchored : ∃ i c, r.last_untrusted ≤ i ∧ r.chain[i]? = some c ∧
    x509CheckTrust (o.info c) ctx.trust = .trusted
  ca : ∀ i c, 1 ≤ i → i < r.last_untrusted → r.chain[i]? = some c → x509CheckCa (o.info c) ≠ 0

/-- **Trusted and untrusted certificates.** Without partial chains and proxy certificates the search
ends with the chain apart; the result is 1 only if a certificate from the store is trusted, with CAs
up to there. -/
theorem chain_apart (ctx : StoreCtx X) (cert : X) (hcert : ctx.cert = some cert)
    (hcb : Transparent ctx.cb) (hwhole : ¬ ctx.flags.partial_chain)
    (hproxy : ¬ ctx.flags.allow_proxy_certs) :
    (∃ n, ((step o ctx)^[n] (searchStart ctx cert)).Ended) ∧
      (∀ n, ∃ s, ((step o ctx)^[n] (searchStart ctx cert)).vars = some s ∧ Apart ctx cert s) ∧
      ∀ marks, (x509VerifyCert o ctx marks).2.ok.isSome ∧
        ((x509VerifyCert o ctx marks).2.ok = some 1 →
          TrustedChain o ctx (x509VerifyCert o ctx marks).2) := by
  refine ⟨⟨_, search_ended o ctx cert⟩, fun n => (iterate_good o ctx cert hwhole n).apart,
    fun marks => ⟨x509VerifyCert_isSome hwhole marks, fun hok => ?_⟩⟩
  obtain ⟨cert', s, hcert', haccepted⟩ := x509VerifyCert_accepted hcb hok
  obtain rfl := Option.some.inj (hcert.symm.trans hcert')
  have hgood := iterate_good o ctx cert hwhole (measure ctx (searchStart ctx cert))
  rw [show (step o ctx)^[_] _ = _ from haccepted.found] at hgood
  refine ⟨?_, fun i c hi hlt hc => ?_⟩
  · rw [haccepted.chain_eq, haccepted.last_untrusted_eq]
    exact hgood.2 rfl
  · rw [haccepted.chain_eq] at hc
    rw [haccepted.last_untrusted_eq] at hlt
    exact ca_of_passed hproxy haccepted.passed hi hlt hc

/-- The chain of four certificates. -/
theorem chain_apart_four :
    TrustedChain constrained fourCertificates
      (x509VerifyCert constrained fourCertificates fun _ => false).2 :=
  ((chain_apart constrained fourCertificates 0 rfl verification_transparent (by decide)
    (by decide)).2.2 fun _ => false).2 (by decide +kernel)

/-- **Name constraints.** In an accepted chain all names keep to the constraints above them. And
nothing is complained of if they do, and can be decided on. -/
theorem name_constraints :
    (∀ ctx marks, Transparent ctx.cb → (x509VerifyCert o ctx marks).2.ok = some 1 →
      ChainObeys o (x509VerifyCert o ctx marks).2.chain) ∧
    ∀ cb chain e, ChainObeys o chain → ChainAnswered o chain →
      checkNameConstraints o cb chain e = .ok e := by
  refine ⟨fun ctx marks hcb hok => ?_, fun cb chain e hobeys hanswered => ?_⟩
  · obtain ⟨cert, s, -, haccepted⟩ := x509VerifyCert_accepted hcb hok
    rw [haccepted.chain_eq]
    exact haccepted.obeys
  · exact checkNameConstraints_of_obeys hobeys hanswered e

/-- Two certificates, of which the second allows for the names of the first only. -/
def oneName : Objects ℕ ℕ where
  info x := if x = 0 then named 1 2 else
    { named 2 2 with nc := some ⟨[⟨.directoryName (shortName 1), none, none⟩], []⟩ }
  pubkey := some
  verify _ _ := true
  same x y := x = y
  check_purpose _ _ _ := 1
  nc_match_single gen base := if gen = base then .ok else .permittedViolation

/-- They are accepted, with the name that is allowed for. -/
theorem name_constraints_one :
    ChainObeys oneName (x509VerifyCert oneName (verification [] fun _ => some 1)
      fun _ => false).2.chain :=
  (name_constraints oneName).1 (verification [] fun _ => some 1) (fun _ => false)
    verification_transparent (by decide +kernel)

end VigorTls.X509
