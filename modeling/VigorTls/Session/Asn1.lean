import VigorTls.Bytestring.RoundTrip

/-!
# Sessions as bytes

`i2d_SSL_SESSION` and `d2i_SSL_SESSION` of `ssl/ssl_asn1.c`: a sequence of fields, most under a tag
of their own and left out when they have the default value. `Decoded` is what an encoding says and
`Decoded.install` what the reader makes of it in a session that may hold something already.
-/

namespace VigorTls.Session

open Lib Bytestring Int64

/-! ## Sessions -/

/-- A string of C: bytes up to the first zero. -/
abbrev CString := { bytes : Bytes // 0 ∉ bytes }

/-- `i2d_X509` and `d2i_X509`, which are taken to be inverse to each other. -/
structure X509Codec (X : Type) where
  i2d : X → Bytes
  d2i : Bytes → Option X
  round_trip : ∀ x, d2i (i2d x) = some x

/-- `SSL_SESSION`, the members that are serialised. A cipher is known by its `id`. -/
structure SslSession (X : Type) where
  ssl_version : Int32
  master_key_length : Int32
  master_key : ℕ → UInt8
  session_id_length : ℕ
  session_id : ℕ → UInt8
  sid_ctx_length : ℕ
  sid_ctx : ℕ → UInt8
  peer : Option X
  verify_result : Int64
  timeout : Int64
  time : Int64
  cipher : Option ℕ
  cipher_id : ℕ
  tlsext_hostname : Option CString
  tlsext_tick : Option (ℕ → UInt8)
  tlsext_ticklen : ℕ
  tlsext_tick_lifetime_hint : Int64

variable {X : Type}
variable (codec : X509Codec X) (session : Cbs) (tag : UInt8) (s : SslSession X) (now : Int64)

/-- `SSL_SESSION_new` at a given time. -/
def sslSessionNew : SslSession X where
  ssl_version := 0
  master_key_length := 0
  master_key := fun _ => 0
  session_id_length := 0
  session_id := fun _ => 0
  sid_ctx_length := 0
  sid_ctx := fun _ => 0
  peer := none
  verify_result := 1
  timeout := 60 * 5 + 4
  time := now
  cipher := none
  cipher_id := 0
  tlsext_hostname := none
  tlsext_tick := none
  tlsext_ticklen := 0
  tlsext_tick_lifetime_hint := 0

abbrev cbsAsn1Sequence : UInt8 := 0x30

/-- `SSLASN1_TAG`: constructed and context-specific. -/
abbrev sslasn1Tag (n : UInt8) : UInt8 := 0x20 ||| 0x80 ||| n

abbrev sslasn1TimeTag : UInt8 := sslasn1Tag 1
abbrev sslasn1TimeoutTag : UInt8 := sslasn1Tag 2
abbrev sslasn1PeerCertTag : UInt8 := sslasn1Tag 3
abbrev sslasn1SessionIdCtxTag : UInt8 := sslasn1Tag 4
abbrev sslasn1VerifyResultTag : UInt8 := sslasn1Tag 5
abbrev sslasn1HostnameTag : UInt8 := sslasn1Tag 6
abbrev sslasn1LifetimeTag : UInt8 := sslasn1Tag 9
abbrev sslasn1TicketTag : UInt8 := sslasn1Tag 10

abbrev sslSessionAsn1Version : ℕ := 1

abbrev ssl3CkId : ℕ := 0x03000000

abbrev intMax : ℕ := 2 ^ 31 - 1

/-- `LONG_MAX`, and `time_max ()`: both have 64 bits. -/
abbrev longMax : ℕ := 2 ^ 63 - 1

/-- An `int` as a `uint64_t` or a `size_t`. -/
def ofInt (n : Int32) : UInt64 := n.toInt64.toUInt64

/-! ## Writing -/

/-- The 16 bits of the cipher suite. -/
def SslSession.cid : UInt16 :=
  match s.cipher with
  | some id => UInt16.ofNat (id &&& 0xffff)
  | none => UInt16.ofNat (s.cipher_id &&& 0xffff)

def octetString (bytes : Bytes) (rest : Forest) : Forest :=
  .asn1 cbsAsn1Octetstring (.bytes bytes .done) rest

/-- A number under a tag of its own, unless it is left out. -/
def optionalUint64 (present : Bool) (value : UInt64) (rest : Forest) : Forest :=
  if present then .asn1 tag (.asn1Uint64 value .done) rest else rest

/-- An octet string under a tag of its own, unless there is none. -/
def optionalOctets (bytes : Option Bytes) (rest : Forest) : Forest :=
  match bytes with
  | some bytes => .asn1 tag (octetString bytes .done) rest
  | none => rest

def timeOps : Forest → Forest :=
  optionalUint64 sslasn1TimeTag (s.time ≠ 0) s.time.toUInt64

def timeoutOps : Forest → Forest :=
  optionalUint64 sslasn1TimeoutTag (s.timeout ≠ 0) s.timeout.toUInt64

def peerOps : Forest → Forest :=
  optionalOctets sslasn1PeerCertTag (s.peer.map codec.i2d)

/-- Session ID context [4], which is always written. -/
def sidCtxOps : Forest → Forest :=
  optionalOctets sslasn1SessionIdCtxTag (some (slice s.sid_ctx 0 s.sid_ctx_length))

/-- Verify result [5]; `X509_V_OK` is zero. -/
def verifyResultOps : Forest → Forest :=
  optionalUint64 sslasn1VerifyResultTag (s.verify_result ≠ 0) s.verify_result.toUInt64

def hostnameOps : Forest → Forest :=
  optionalOctets sslasn1HostnameTag (s.tlsext_hostname.map Subtype.val)

/-- Ticket lifetime hint [9]. -/
def lifetimeOps : Forest → Forest :=
  optionalUint64 sslasn1LifetimeTag (s.tlsext_tick_lifetime_hint > 0)
    s.tlsext_tick_lifetime_hint.toUInt64

def ticketOps : Forest → Forest :=
  optionalOctets sslasn1TicketTag (s.tlsext_tick.map fun tick => slice tick 0 s.tlsext_ticklen)

/-- The calls of `i2d_SSL_SESSION`, in their order. -/
def sessionFields : Forest :=
  .asn1Uint64 (UInt64.ofNat sslSessionAsn1Version) <|
  .asn1Uint64 (ofInt s.ssl_version) <|
  .asn1 cbsAsn1Octetstring (.u16 s.cid .done) <|
  octetString (slice s.session_id 0 s.session_id_length) <|
  octetString (slice s.master_key 0 (ofInt s.master_key_length).toNat) <|
  timeOps s <| timeoutOps s <| peerOps codec s <| sidCtxOps s <| verifyResultOps s <|
  hostnameOps s <| lifetimeOps s <| ticketOps s .done

def sessionOps : Forest :=
  .asn1 cbsAsn1Sequence (sessionFields codec s) .done

/-- The fields that make `i2d_SSL_SESSION` give up between those calls. -/
def SslSession.unwritable : Bool :=
  s.ssl_version < 0 || s.time < 0 || s.timeout < 0 || s.peer.any (fun x => codec.i2d x = []) ||
    s.verify_result < 0

/-- `i2d_SSL_SESSION`: the bytes, or the return value without any. -/
def i2dSslSession (heap : Heap) (s : SslSession X) : Except ℤ Bytes :=
  if s.cipher = none ∧ s.cipher_id = 0 then .error 0
  else if s.unwritable codec then .error (-1)
  else
    match build heap 0 (sessionOps codec s) with
    | none => .error (-1)
    | some data => if data.length > intMax then .error (-1) else .ok data

/-! ## Reading -/

def readAsn1Version : Option Cbs := do
  let (version, session) ← cbsGetAsn1Uint64 session
  if version ≠ sslSessionAsn1Version then none else some session

def readVersion : Option (ℕ × Cbs) := do
  let (tls_version, session) ← cbsGetAsn1Uint64 session
  if tls_version > intMax then none else some (tls_version, session)

def readCipher : Option (UInt16 × Cbs) := do
  let (cipher_suite, session) ← cbsGetAsn1 session cbsAsn1Octetstring
  let (cipher_value, cipher_suite) ← cbsGetU16 cipher_suite
  if cipher_suite ≠ [] then none else some (cipher_value, session)

/-- An octet string that `CBS_write_bytes` takes into an array of `dest_len` bytes. -/
def readOctets (dest_len : ℕ) : Option (Bytes × Cbs) := do
  let (bytes, session) ← cbsGetAsn1 session cbsAsn1Octetstring
  if dest_len < bytes.length then none else some (bytes, session)

/-- An optional number that is not above `LONG_MAX`, zero when it is not there. -/
def readUint64 : Option (ℕ × Cbs) := do
  let (value, session) ← cbsGetOptionalAsn1Uint64 session tag 0
  if value > longMax then none else some (value, session)

def readPeer : Option (Option X × Cbs) := do
  let (peer_cert, session) ← cbsGetOptionalAsn1OctetString session sslasn1PeerCertTag
  match peer_cert with
  | none => some (none, session)
  | some peer_cert =>
    if peer_cert.length > longMax then none
    else
      let x ← codec.d2i peer_cert
      some (some x, session)

/-- Session ID context [4], for an array of `dest_len` bytes. -/
def readSidCtx (dest_len : ℕ) : Option (Option Bytes × Cbs) := do
  let (sid_ctx, session) ← cbsGetOptionalAsn1OctetString session sslasn1SessionIdCtxTag
  match sid_ctx with
  | none => some (none, session)
  | some sid_ctx => if dest_len < sid_ctx.length then none else some (some sid_ctx, session)

def readHostname : Option (Option CString × Cbs) := do
  let (hostname, session) ← cbsGetOptionalAsn1OctetString session sslasn1HostnameTag
  match hostname with
  | none => some (none, session)
  | some hostname => if h : 0 ∈ hostname then none else some (some ⟨hostname, h⟩, session)

def readTicket : Option (Option Bytes × Cbs) :=
  cbsGetOptionalAsn1OctetString session sslasn1TicketTag

/-- `CBS_stow`, which leaves no block for an empty range. -/
def cbsStow (cbs : Cbs) : Option (ℕ → UInt8) :=
  if cbs = [] then none else some (store (fun _ => 0) 0 cbs)

structure Decoded (X : Type) where
  tls_version : ℕ
  cipher_value : UInt16
  session_id : Bytes
  master_key : Bytes
  stime : ℕ
  timeout : ℕ
  peer : Option X
  sid_ctx : Option Bytes
  verify_result : ℕ
  hostname : Option CString
  lifetime : ℕ
  ticket : Option Bytes
deriving DecidableEq

/-- What `d2i_SSL_SESSION` reads, and the bytes that follow. What is left in the sequence is not
looked at. -/
def decode (pp : Cbs) : Option (Decoded X × Cbs) := do
  let (session, cbs) ← cbsGetAsn1 pp cbsAsn1Sequence
  let session ← readAsn1Version session
  let (tls_version, session) ← readVersion session
  let (cipher_value, session) ← readCipher session
  let (session_id, session) ← readOctets session 32
  let (master_key, session) ← readOctets session 48
  let (stime, session) ← readUint64 session sslasn1TimeTag
  let (timeout, session) ← readUint64 session sslasn1TimeoutTag
  let (peer, session) ← readPeer codec session
  let (sid_ctx, session) ← readSidCtx session 32
  let (verify_result, session) ← readUint64 session sslasn1VerifyResultTag
  let (hostname, session) ← readHostname session
  let (lifetime, session) ← readUint64 session sslasn1LifetimeTag
  let (ticket, _) ← readTicket session
  some (⟨tls_version, cipher_value, session_id, master_key, stime, timeout, peer, sid_ctx,
    verify_result, hostname, lifetime, ticket⟩, cbs)

/-- Its assignments, each default first. The source makes them between the reads. -/
def Decoded.install (r : Decoded X) (now : Int64) (s : SslSession X) : SslSession X where
  ssl_version := Int32.ofNat r.tls_version
  cipher := none
  cipher_id := ssl3CkId ||| r.cipher_value.toNat
  session_id := store s.session_id 0 r.session_id
  session_id_length := r.session_id.length
  master_key := store s.master_key 0 r.master_key
  master_key_length := Int32.ofNat r.master_key.length
  time := if r.stime ≠ 0 then ofNat r.stime else now
  timeout := if r.timeout ≠ 0 then ofNat r.timeout else 3
  peer := r.peer
  sid_ctx := store s.sid_ctx 0 (r.sid_ctx.getD [])
  sid_ctx_length := (r.sid_ctx.getD []).length
  verify_result := ofNat r.verify_result
  tlsext_hostname := r.hostname
  -- The length of the ticket is still that of the session before.
  tlsext_tick_lifetime_hint :=
    if r.lifetime > 0 then ofNat r.lifetime
    else if s.tlsext_ticklen > 0 ∧ r.session_id.length > 0 then -1 else 0
  tlsext_tick := r.ticket.bind cbsStow
  tlsext_ticklen := (r.ticket.map List.length).getD s.tlsext_ticklen

/-- `d2i_SSL_SESSION` at a given time, into `a` or a new session. -/
def d2iSslSession (a : Option (SslSession X)) (pp : Cbs) : Option (SslSession X × Cbs) :=
  (decode codec pp).map fun (r, cbs) => (r.install now (a.getD (sslSessionNew now)), cbs)

/-- The serialised fields of a session. -/
structure Fields (X : Type) where
  ssl_version : Int32
  cipher_value : UInt16
  session_id : Bytes
  master_key : Bytes
  time : Int64
  timeout : Int64
  peer : Option X
  sid_ctx : Bytes
  verify_result : Int64
  tlsext_hostname : Option Bytes
  tlsext_tick_lifetime_hint : Int64
  tlsext_tick : Option Bytes

def SslSession.fields : Fields X where
  ssl_version := s.ssl_version
  cipher_value := s.cid
  session_id := slice s.session_id 0 s.session_id_length
  master_key := slice s.master_key 0 (ofInt s.master_key_length).toNat
  time := s.time
  timeout := s.timeout
  peer := s.peer
  sid_ctx := slice s.sid_ctx 0 s.sid_ctx_length
  verify_result := s.verify_result
  tlsext_hostname := s.tlsext_hostname.map Subtype.val
  tlsext_tick_lifetime_hint := s.tlsext_tick_lifetime_hint
  tlsext_tick := s.tlsext_tick.map fun tick => slice tick 0 s.tlsext_ticklen

variable {t : Int64}

theorem toNat_toUInt64 (h : 0 ≤ t) : (t.toUInt64.toNat : ℤ) = t.toInt := by
  have hle : 0 ≤ t.toInt := le_iff_toInt_le.mp h
  have hcond := BitVec.toInt_eq_toNat_cond t.toBitVec
  rw [toNat_toBitVec, toInt_toBitVec] at hcond
  have hlt := t.toUInt64.toNat_lt
  split at hcond <;> omega

theorem toNat_toUInt64_le (h : 0 ≤ t) : t.toUInt64.toNat ≤ longMax := by
  have hnat := toNat_toUInt64 h
  have hlt := t.toInt_lt
  rw [longMax]
  omega

theorem ofNat_toUInt64 (h : 0 ≤ t) : ofNat t.toUInt64.toNat = t := by
  have hnat := toNat_toUInt64 h
  have hlt := t.toInt_lt
  rw [← toInt_inj, toInt_ofNat_of_lt (by omega), hnat]

theorem toNat_ofInt {n : Int32} (h : 0 ≤ n) : ((ofInt n).toNat : ℤ) = n.toInt := by
  have hle : 0 ≤ n.toInt := Int32.le_iff_toInt_le.mp h
  have hpos : 0 ≤ n.toInt64 := by
    rw [le_iff_toInt_le, Int32.toInt_toInt64]
    exact hle
  rw [ofInt, toNat_toUInt64 hpos, Int32.toInt_toInt64]

theorem ofNat_ofInt {n : Int32} (h : 0 ≤ n) : Int32.ofNat (ofInt n).toNat = n := by
  have hnat := toNat_ofInt h
  have hlt := n.toInt_lt
  rw [← Int32.toInt_inj, Int32.toInt_ofNat_of_lt (by omega), hnat]

theorem ofInt_ofNat {n : ℕ} (hn : n < 2 ^ 31) : (ofInt (Int32.ofNat n)).toNat = n := by
  have hint := Int32.toInt_ofNat_of_lt hn
  have hpos : 0 ≤ Int32.ofNat n := by
    rw [Int32.le_iff_toInt_le, hint]
    exact Int.natCast_nonneg n
  have hnat := toNat_ofInt hpos
  omega

theorem cid_install (r : Decoded X) (now : Int64) (s : SslSession X) :
    (r.install now s).cid = r.cipher_value := by
  have hv : r.cipher_value.toNat < 2 ^ 16 := r.cipher_value.toNat_lt
  have hmask : (ssl3CkId ||| r.cipher_value.toNat) &&& 0xffff = r.cipher_value.toNat := by
    rw [show 0xffff = 2 ^ 16 - 1 from rfl, Nat.and_two_pow_sub_one_eq_mod,
      Nat.or_mod_two_pow, Nat.mod_eq_of_lt hv, show ssl3CkId % 2 ^ 16 = 0 from rfl, Nat.zero_or]
  change UInt16.ofNat ((ssl3CkId ||| r.cipher_value.toNat) &&& 0xffff) = _
  rw [hmask, UInt16.ofNat_toNat]

/-- What is installed is written again with the fields that were read. -/
theorem fields_install {r : Decoded X} (hkey : r.master_key.length ≤ 48) (now : Int64)
    (s : SslSession X) :
    (r.install now s).fields =
      { ssl_version := Int32.ofNat r.tls_version
        cipher_value := r.cipher_value
        session_id := r.session_id
        master_key := r.master_key
        time := if r.stime ≠ 0 then ofNat r.stime else now
        timeout := if r.timeout ≠ 0 then ofNat r.timeout else 3
        peer := r.peer
        sid_ctx := r.sid_ctx.getD []
        verify_result := ofNat r.verify_result
        tlsext_hostname := r.hostname.map Subtype.val
        tlsext_tick_lifetime_hint :=
          if r.lifetime > 0 then ofNat r.lifetime
          else if s.tlsext_ticklen > 0 ∧ r.session_id.length > 0 then -1 else 0
        tlsext_tick := r.ticket.filter (· ≠ []) } := by
  have hkeylen := ofInt_ofNat (n := r.master_key.length) (by omega)
  have htick : (r.install now s).fields.tlsext_tick = r.ticket.filter (· ≠ []) := by
    cases hticket : r.ticket with
    | none => simp [SslSession.fields, Decoded.install, hticket]
    | some t =>
      by_cases ht : t = []
      · simp [SslSession.fields, Decoded.install, hticket, cbsStow, ht, Option.filter]
      · simp [SslSession.fields, Decoded.install, hticket, cbsStow, ht, slice_store_self,
          Option.filter]
  simp only [SslSession.fields] at htick ⊢
  rw [htick, cid_install]
  simp only [Decoded.install, slice_store_self, hkeylen]

end VigorTls.Session
