import Mathlib.Data.Nat.Bitwise
import VigorTls.Lib.Bytes

/-!
# Certificates

What verification reads of a certificate: the decoded fields and extensions, and what
`x509v3CacheExtensions` caches of them. Over these, `X509_check_ca`, `X509_check_issued` and
`X509_check_trust` of `crypto/x509v3/v3_purp.c` and `crypto/x509/x509_trs.c`.
-/

namespace VigorTls.X509

/-- The results of verification, the `X509_V_…` codes. -/
inductive Code
  | ok
  | unableToGetIssuerCert
  | unableToDecodeIssuerPublicKey
  | certSignatureFailure
  | certNotYetValid
  | certHasExpired
  | errorInCertNotBeforeField
  | errorInCertNotAfterField
  | outOfMem
  | depthZeroSelfSignedCert
  | selfSignedCertInChain
  | unableToGetIssuerCertLocally
  | unableToVerifyLeafSignature
  | invalidCa
  | pathLengthExceeded
  | invalidPurpose
  | certRejected
  | subjectIssuerMismatch
  | akidSkidMismatch
  | akidIssuerSerialMismatch
  | keyusageNoCertsign
  | unhandledCriticalExtension
  | invalidNonCa
  | proxyPathLengthExceeded
  | keyusageNoDigitalSignature
  | proxyCertificatesNotAllowed
  | permittedViolation
  | excludedViolation
  | subtreeMinmax
  | unsupportedConstraintType
  | unsupportedConstraintSyntax
  | unsupportedNameSyntax
  | hostnameMismatch
  | emailMismatch
  | ipAddressMismatch
  | other (code : ℕ)
  deriving DecidableEq, Repr

/-- An attribute of a name, with the type of its string. -/
structure NameEntry where
  nid : ℕ
  type : ℕ
  data : Bytes
  deriving DecidableEq

/-- `X509_NAME`. Names are compared by their canonical encoding. -/
structure Name where
  entries : List NameEntry
  canon_enc : Bytes
  deriving DecidableEq

/-- The types of a `GENERAL_NAME`. -/
inductive GenType
  | othername | email | dns | x400 | dirname | ediparty | uri | ipadd | rid
  deriving DecidableEq

/-- `GENERAL_NAME`. What is not a name is given by its contents. -/
inductive GeneralName
  | directoryName (name : Name)
  | contents (type : GenType) (data : Bytes)
  deriving DecidableEq

def GeneralName.type : GeneralName → GenType
  | directoryName _ => .dirname
  | contents type _ => type

/-- `X509_NAME_cmp` finds no difference. -/
def x509NameEq (a b : Name) : Bool := a.canon_enc = b.canon_enc

structure GeneralSubtree where
  base : GeneralName
  minimum : Option ℤ
  maximum : Option ℤ

structure NameConstraints where
  permittedSubtrees : List GeneralSubtree
  excludedSubtrees : List GeneralSubtree

structure BasicConstraints where
  ca : Bool
  pathlen : Option ℤ

structure AuthorityKeyid where
  keyid : Option Bytes
  issuer : Option (List GeneralName)
  serial : Option ℤ

/-- `X509_CERT_AUX`, with objects by their NIDs. -/
structure CertAux where
  trust : Option (List ℤ)
  reject : Option (List ℤ)

/-- An extension, as to whether it may be passed over. -/
structure Extension where
  critical : Bool
  supported : Bool

/-- The contents of an `X509`. Extensions that are missing or do not decode are `none`. -/
structure Certificate where
  version : ℤ
  serial : ℤ
  subject : Name
  issuer : Name
  extensions : List Extension
  basic_constraints : Option BasicConstraints
  /-- The proxy certificate information, with its path length. -/
  proxy_cert_info : Option (Option ℤ)
  key_usage : Option Bytes
  netscape_cert_type : Option Bytes
  skid : Option Bytes
  akid : Option AuthorityKeyid
  altname : List GeneralName
  nc : Option NameConstraints
  aux : Option CertAux

def asn1IntegerGet (a : ℤ) : ℤ := if -2 ^ 63 ≤ a ∧ a < 2 ^ 63 then a else -1

/-! ## Cached extensions -/

abbrev kuDigitalSignature : ℕ := 0x0080
abbrev kuKeyCertSign : ℕ := 0x0004
abbrev nsAnyCa : ℕ := 0x07

/-- What `x509v3_cache_extensions` keeps, with a field for each bit of `ex_flags`. -/
structure Cached where
  v1 : Bool
  bcons : Bool
  ca : Bool
  ex_pathlen : ℤ
  proxy : Bool
  ex_pcpathlen : ℤ
  kusage : Bool
  ex_kusage : ℕ
  nscert : Bool
  ex_nscert : ℕ
  si : Bool
  ss : Bool
  critical : Bool

def byteAt (s : Bytes) (i : ℕ) : ℕ := (s.getD i 0).toNat

/-- The bits of a `KeyUsage`. -/
def usageBits (usage : Bytes) : ℕ := byteAt usage 0 ||| byteAt usage 1 <<< 8

def kuReject (usage : Option Bytes) (bit : ℕ) : Bool :=
  usage.any fun usage => usageBits usage &&& bit = 0

/-- The name that a key identifier looks at. -/
def firstDirname : List GeneralName → Option Name
  | [] => none
  | .directoryName nm :: _ => some nm
  | .contents _ _ :: gens => firstDirname gens

def x509CheckAkid (issuer : Certificate) : Option AuthorityKeyid → Code
  | none => .ok
  | some akid =>
    if akid.keyid.any (fun keyid => issuer.skid.any (keyid ≠ ·)) then .akidSkidMismatch
    else if akid.serial.any (issuer.serial ≠ ·) then .akidIssuerSerialMismatch
    else if (akid.issuer.bind firstDirname).any (! x509NameEq · issuer.issuer) then
      .akidIssuerSerialMismatch
    else .ok

/-- The part of `x509v3_cache_extensions` on basic constraints. -/
def cachedPathlen : Option BasicConstraints → ℤ
  | none => -1
  | some bs =>
    match bs.pathlen with
    | none => -1
    | some pathlen => if pathlen < 0 ∨ ¬ bs.ca then 0 else asn1IntegerGet pathlen

variable (x : Certificate)

def x509v3CacheExtensions : Cached :=
  let si := x509NameEq x.subject x.issuer
  { v1 := x.version = 0
    bcons := x.basic_constraints.isSome
    ca := x.basic_constraints.any (·.ca)
    ex_pathlen := cachedPathlen x.basic_constraints
    proxy := x.proxy_cert_info.isSome
    ex_pcpathlen := (x.proxy_cert_info.join.map asn1IntegerGet).getD (-1)
    kusage := x.key_usage.isSome
    ex_kusage := (x.key_usage.map usageBits).getD 0
    nscert := x.netscape_cert_type.isSome
    ex_nscert := (x.netscape_cert_type.map (byteAt · 0)).getD 0
    si := si
    ss := si ∧ x509CheckAkid x x.akid = .ok ∧ ¬ kuReject x.key_usage kuKeyCertSign
    critical := x.extensions.any fun ex => ex.critical ∧ ¬ ex.supported }

/-- The cached path length is -1 or fits a `long`. -/
theorem x509v3CacheExtensions_pathlen :
    -1 ≤ (x509v3CacheExtensions x).ex_pathlen ∧ (x509v3CacheExtensions x).ex_pathlen < 2 ^ 63 := by
  show -1 ≤ cachedPathlen _ ∧ cachedPathlen _ < _
  unfold cachedPathlen asn1IntegerGet
  split
  · decide
  · split
    · decide
    · split_ifs <;> omega

/-! ## Checks of a certificate -/

/-- `X509_check_ca`: not a CA, or why it is taken for one. -/
def x509CheckCa : ℕ :=
  let c := x509v3CacheExtensions x
  if kuReject x.key_usage kuKeyCertSign then 0
  else if c.bcons then if c.ca then 1 else 0
  else if c.v1 ∧ c.ss then 3
  else if c.kusage then 4
  else if c.nscert ∧ c.ex_nscert &&& nsAnyCa ≠ 0 then 5
  else 0

def x509CheckIssued (issuer subject : Certificate) : Code :=
  if ! x509NameEq issuer.subject subject.issuer then .subjectIssuerMismatch
  else if x509CheckAkid issuer subject.akid ≠ .ok then x509CheckAkid issuer subject.akid
  else if (x509v3CacheExtensions subject).proxy then
    if kuReject issuer.key_usage kuDigitalSignature then .keyusageNoDigitalSignature else .ok
  else if kuReject issuer.key_usage kuKeyCertSign then .keyusageNoCertsign
  else .ok

/-- `X509_TRUST_TRUSTED`, `X509_TRUST_REJECTED` and `X509_TRUST_UNTRUSTED`. -/
inductive Trust
  | trusted | rejected | untrusted
  deriving DecidableEq

abbrev nidServerAuth : ℤ := 129
abbrev nidClientAuth : ℤ := 130
abbrev nidCodeSign : ℤ := 131
abbrev nidEmailProtect : ℤ := 132
abbrev nidTimeStamp : ℤ := 133
abbrev nidAdOcsp : ℤ := 178
abbrev nidOcspSign : ℤ := 180
abbrev nidAnyExtendedKeyUsage : ℤ := 910

def objTrust (id : ℤ) (x : Certificate) : Trust :=
  match x.aux with
  | none => .untrusted
  | some ax =>
    if ax.reject.any (id ∈ ·) then .rejected
    else if ax.trust.any (id ∈ ·) then .trusted
    else .untrusted

def trustCompat : Trust :=
  if (x509v3CacheExtensions x).ss then .trusted else .untrusted

def trust1Oidany (arg1 : ℤ) (x : Certificate) : Trust :=
  if x.aux.any fun ax => ax.trust.isSome ∨ ax.reject.isSome then objTrust arg1 x else trustCompat x

def trust1Oid (arg1 : ℤ) (x : Certificate) : Trust :=
  if x.aux.isSome then objTrust arg1 x else .untrusted

/-- `X509_check_trust`, with the default `obj_trust` for any other identifier. -/
def x509CheckTrust (id : ℤ) : Trust :=
  if id = -1 then .trusted
  else if id = 0 then
    if objTrust nidAnyExtendedKeyUsage x ≠ .untrusted then objTrust nidAnyExtendedKeyUsage x
    else trustCompat x
  else if id = 1 then trustCompat x
  else if id = 2 then trust1Oidany nidClientAuth x
  else if id = 3 then trust1Oidany nidServerAuth x
  else if id = 4 then trust1Oidany nidEmailProtect x
  else if id = 5 then trust1Oidany nidCodeSign x
  else if id = 6 then trust1Oid nidOcspSign x
  else if id = 7 then trust1Oid nidAdOcsp x
  else if id = 8 then trust1Oidany nidTimeStamp x
  else objTrust id x

end VigorTls.X509
