import VigorTls.X509.Certificate

/-!
# Verification contexts

`X509_STORE_CTX` and what the functions of `crypto/x509/x509_vfy.c` share. A function that may have
asked the callback has its result in `Except`: the fields that the callback looks at, when it goes
on or when it gives up. A store is known by what `get_issuer` answers, anew at every call.
-/

namespace VigorTls.X509

/-- Certificate objects, and what `X509_verify`, `X509_cmp`, `X509_check_purpose` and
`nc_match_single` do with them. -/
structure Objects (X K : Type) where
  info : X → Certificate
  pubkey : X → Option K
  verify : X → K → Bool
  /-- `X509_cmp` finds no difference. -/
  same : X → X → Bool
  check_purpose : X → ℤ → Bool → ℤ
  nc_match_single : GeneralName → GeneralName → Code

/-- The bits of `param->flags`. -/
structure Flags where
  cb_issuer_check : Bool := false
  ignore_critical : Bool := false
  x509_strict : Bool := false
  allow_proxy_certs : Bool := false
  policy_check : Bool := false
  check_ss_signature : Bool := false
  trusted_first : Bool := false
  partial_chain : Bool := false
  no_alt_chains : Bool := false

/-- What the callback finds in the context. -/
structure Complaint (X : Type) where
  error : Code
  error_depth : ℕ
  current_cert : Option X
  current_issuer : Option X

abbrev VerifyCb (X : Type) := Bool → Complaint X → Bool

/-- The result of `get_issuer`. -/
inductive Issuer (X : Type)
  | found (x : X)
  | notFound
  | failed

/-- What `internal_verify` finds in its context. -/
structure Walk (X : Type) where
  chain : List X
  flags : Flags
  cb : VerifyCb X
  not_before : X → ℤ
  not_after : X → ℤ
  e : Complaint X

/-- `X509_STORE_CTX` before verification. -/
structure StoreCtx (X : Type) where
  cert : Option X
  untrusted : Option (List X)
  chain : Option (List X)
  /-- This is for the path of a CRL. -/
  parent : Bool
  flags : Flags
  depth : ℤ
  purpose : ℤ
  trust : ℤ
  cb : VerifyCb X
  get_issuer : ℕ → X → Issuer X
  /-- `lookup_certs`, for the subject of a certificate. -/
  lookup_certs : X → Option (List X)
  /-- `X509_cmp_time` of the dates with the time of verification. -/
  not_before : X → ℤ
  not_after : X → ℤ
  /-- What the certificate is to be for, by the result of the check. -/
  hosts : Option ℤ
  email : Option ℤ
  ip : Option ℤ
  /-- `check_revocation`, with the calls of `internal_verify` for the paths of CRLs. -/
  check_revocation : List X → Complaint X → List (Walk X) × Except (Complaint X) (Complaint X)
  check_suiteb : List X → Code × ℕ
  check_policy : List X → Complaint X → Except (Complaint X) (Complaint X)

variable {X K : Type}

abbrev x509PurposeCrlSign : ℤ := 6

variable (cb : VerifyCb X)

/-- The callback returns what it is given. -/
def Transparent : Prop := ∀ ok e, cb ok e = ok

/-- `cb(0, ctx)`. -/
def complain (e : Complaint X) : Except (Complaint X) (Complaint X) :=
  if cb false e then .ok e else .error e

/-- A complaint about the certificate `x` at depth `i`. -/
def report (e : Complaint X) (code : Code) (i : ℕ) (x : X) : Except (Complaint X) (Complaint X) :=
  complain cb { e with error := code, error_depth := i, current_cert := some x }

/-- The same if something is wrong. -/
def reportIf (bad : Prop) [Decidable bad] (cb : VerifyCb X) (e : Complaint X)
    (code : Code) (i : ℕ) (x : X) : Except (Complaint X) (Complaint X) :=
  if bad then report cb e code i x else .ok e

theorem bind_eq_ok {ε α β : Type} {m : Except ε α} {f : α → Except ε β} {b : β} :
    m >>= f = .ok b ↔ ∃ a, m = .ok a ∧ f a = .ok b := by
  cases m with
  | error err => exact ⟨fun h => (nomatch h), fun ⟨_, h, _⟩ => (nomatch h)⟩
  | ok a => exact ⟨fun h => ⟨a, rfl, h⟩, fun ⟨_, h, hf⟩ => Except.ok.inj h ▸ hf⟩

section Callback

variable {cb : VerifyCb X} {e e' : Complaint X}

theorem complain_of_transparent (hcb : Transparent cb) : complain cb e = .error e := by
  rw [complain, hcb, if_neg Bool.false_ne_true]

theorem reportIf_eq_ok (hcb : Transparent cb) {bad : Prop} [Decidable bad] {code : Code} {i : ℕ}
    {x : X} : reportIf bad cb e code i x = .ok e' ↔ ¬ bad ∧ e' = e := by
  rw [reportIf]
  split
  · next hbad =>
    rw [report, complain_of_transparent hcb]
    exact ⟨nofun, fun h => absurd hbad h.1⟩
  · next hbad => exact ⟨fun h => ⟨hbad, (Except.ok.inj h).symm⟩, fun h => by rw [h.2]⟩

end Callback

def certSelfSigned (o : Objects X K) (x : X) : Bool := (x509v3CacheExtensions (o.info x)).ss

def checkIssued (o : Objects X K) (flags : Flags) (cb : VerifyCb X) (e : Complaint X)
    (x issuer : X) : Bool × Complaint X :=
  let ret := x509CheckIssued (o.info issuer) (o.info x)
  if ret = .ok then (true, e)
  else if ! flags.cb_issuer_check then (false, e)
  else
    let e := { e with error := ret, current_cert := some x, current_issuer := some issuer }
    (cb false e, e)

variable (cb : VerifyCb X)

/-- What `x509_check_cert_time` does with a date that is wrong. -/
def timeError (quiet : Bool) (e : Complaint X) (code : Code)
    (x : X) : Except (Complaint X) (Complaint X) :=
  if quiet then .error e else complain cb { e with error := code, current_cert := some x }

def x509CheckCertTime (not_before not_after : X → ℤ)
    (e : Complaint X) (x : X) (quiet : Bool) : Except (Complaint X) (Complaint X) := do
  let i := not_before x
  let e ← if i = 0 then timeError cb quiet e .errorInCertNotBeforeField x else pure e
  let e ← if i > 0 then timeError cb quiet e .certNotYetValid x else pure e
  let i := not_after x
  let e ← if i = 0 then timeError cb quiet e .errorInCertNotAfterField x else pure e
  if i < 0 then timeError cb quiet e .certHasExpired x else pure e

/-- `find_issuer`, with its `rv`. -/
def findIssuer (o : Objects X K) (ctx : StoreCtx X) (x : X) :
    Complaint X → Option X → List X → Option X × Complaint X
  | e, rv, [] => (rv, e)
  | e, rv, issuer :: sk =>
    match checkIssued o ctx.flags ctx.cb e x issuer with
    | (false, e) => findIssuer o ctx x e rv sk
    | (true, e) =>
      if (x509CheckCertTime ctx.cb ctx.not_before ctx.not_after e issuer true).isOk then
        (some issuer, e)
      else findIssuer o ctx x e (some issuer) sk

/-- The issuer found is one of the list. -/
theorem findIssuer_mem {o : Objects X K} {ctx : StoreCtx X} {x y : X} {e : Complaint X}
    {rv : Option X} {sk : List X} (h : (findIssuer o ctx x e rv sk).1 = some y) :
    rv = some y ∨ y ∈ sk := by
  induction sk generalizing e rv with
  | nil => exact .inl h
  | cons issuer sk ih =>
    rw [findIssuer] at h
    split at h
    · exact (ih h).imp_right (List.mem_cons_of_mem _)
    split at h
    · exact .inr (Option.some.inj h ▸ List.mem_cons_self)
    · rcases ih h with hrv | hmem
      · exact .inr (Option.some.inj hrv ▸ List.mem_cons_self)
      · exact .inr (List.mem_cons_of_mem _ hmem)

end VigorTls.X509
