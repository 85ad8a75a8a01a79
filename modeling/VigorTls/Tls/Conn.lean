import VigorTls.Tls.GetMessage

/-!
# The connection

The fields of `SSL` and `SSL3_STATE` that `ssl3_read_bytes`, `ssl3_connect` and `ssl3_accept` work
on, and the transcript functions of `ssl/t1_enc.c`. Keys, digests and signatures are not computed: a
digest is the bytes that went into it. `Ghost` holds what no function reads and the theorems are
about.
-/

namespace VigorTls.Tls

open Lib

/-- The values of `s->state`. The two states of a message, `A` and `B`, are one here, told apart by
`MessageState.part`. -/
inductive HsState where
  /-- `SSL_ST_BEFORE`, with `SSL_ST_CONNECT` or `SSL_ST_ACCEPT`. -/
  | before
  /-- `SSL_ST_CONNECT` or `SSL_ST_ACCEPT`. -/
  | start
  | renegotiate
  | ok
  | err
  -- The states of `ssl3_connect`.
  | cwClntHello
  | crSrvrHello
  | crCert
  | crCertStatus
  | crKeyExch
  | crCertReq
  | crSrvrDone
  | cwCert
  | cwKeyExch
  | cwCertVrfy
  | cwChange
  | cwNextProto
  | cwFinished
  | cwFlush
  | crSessionTicket
  | crFinished
  -- The states of `ssl3_accept`.
  | swHelloReq
  | swHelloReqC
  | srClntHello
  | swSrvrHello
  | swCert
  | swCertStatus
  | swKeyExch
  | swCertReq
  | swSrvrDone
  | srCert
  | srKeyExch
  | srCertVrfy
  | srNextProto
  | srFinished
  | swSessionTicket
  | swChange
  | swFinished
  | swFlush
deriving DecidableEq

/-- `SSL_in_init`. -/
def HsState.inInit : HsState → Bool
  | .ok => false
  | .err => false
  | _ => true

/-- Where the connection stands between the steps that it takes. -/
inductive Pc where
  /-- Outside of the handshake function. -/
  | out
  /-- Before the next turn of its loop. -/
  | loop
  /-- In a call of `ssl3_read_bytes` for handshake data that has processed `rrcount` records. -/
  | reading (rrcount : ℕ)
deriving DecidableEq

/-- What the handshake messages go into. -/
structure Transcript where
  handshake_buffer : Option Bytes
  /-- The bytes that all the digests have been given. -/
  handshake_dgst : Option Bytes
  keep_handshake : Bool

variable (t : Transcript)

def tls1InitFinishedMac : Transcript :=
  { t with handshake_buffer := some [], handshake_dgst := none }

/-- `tls1_finish_mac`: into the buffer, or into the digests once there are any. -/
def tls1FinishMac (buf : Bytes) (t : Transcript) : Transcript :=
  if t.handshake_buffer.isSome && !t.keep_handshake then
    { t with handshake_buffer := t.handshake_buffer.map (· ++ buf) }
  else { t with handshake_dgst := t.handshake_dgst.map (· ++ buf) }

/-- `tls1_digest_cached_records`: start the digests with the buffer, which must not be empty. -/
def tls1DigestCachedRecords : Bool × Transcript :=
  let hdata := t.handshake_buffer.getD []
  if hdata = [] then (false, { t with handshake_dgst := none })
  else
    (true, { t with
      handshake_dgst := some hdata
      handshake_buffer := if t.keep_handshake then t.handshake_buffer else none })

/-- The digests are started, unless they have been. -/
def digestCached : Bool × Transcript :=
  if t.handshake_buffer.isSome then tls1DigestCachedRecords t else (true, t)

/-- What `tls1_final_finish_mac` does to the transcript. -/
def tls1FinalFinishMac : Bool × Transcript := digestCached t

/-! ## The connection -/

abbrev X509 := Bytes

/-- Whether `cipher` is set, and `peer`. No session is one without both. -/
structure Session where
  cipher : Bool := false
  peer : Option X509 := none
deriving DecidableEq

/-- What is asked of an `SSL_CIPHER`. -/
structure Cipher where
  /-- `SSL_aNULL`: nobody is authenticated. -/
  aNULL : Bool := false
  ephemeral : Bool := false
  /-- The suite is one of an `EVP_AEAD`, whose context is `aead_read_ctx`. -/
  aead : Bool := false
deriving DecidableEq

/-- The bits of `s->verify_mode`. -/
structure VerifyMode where
  peer : Bool := false
  fail_if_no_peer_cert : Bool := false
  client_once : Bool := false
deriving DecidableEq

/-- `s->s3->rrec`: an opened record, as far as it has not been read. -/
structure Rrec where
  type : ℕ
  /-- The `length` bytes at `data + off`. -/
  data : Bytes
  off : ℕ

/-- A signature that was found to be good. -/
structure Verified where
  /-- Whose public key it was checked with. -/
  peer : X509
  /-- The two bytes of the signature algorithm, from TLS 1.2 on. -/
  sigalg : Option Bytes
  data : Bytes
  signature : Bytes
deriving DecidableEq

inductive Event where
  /-- `ssl3_read_bytes` has accepted a ChangeCipherSpec record in `state`, after `seen` others in
  the same handshake. -/
  | changeCipherSpec (state : HsState) (seen : ℕ)
  /-- `ssl3_get_finished` has accepted a message, whose bytes were opened under `epochs`; the
  handshake's ChangeCipherSpec had installed the read state `installed`. -/
  | finished (message : Bytes) (epochs : List ℕ) (installed : Option ℕ)
  /-- `ssl3_accept` has completed a handshake in `SSL_ST_OK`. -/
  | accepted (hit : Bool) (session : Session) (verify_mode : VerifyMode) (cert_request : Bool)
      (verified : Option Verified) (log : List Bytes)
deriving DecidableEq

/-- What the proofs follow, and no function reads. -/
structure Ghost where
  /-- How many read states have been installed. -/
  epoch : ℕ := 0
  /-- The read state that the ChangeCipherSpec of this handshake has installed. -/
  installed : Option ℕ := none
  /-- How many ChangeCipherSpec records this handshake has accepted. -/
  seen : ℕ := 0
  /-- The read state under which `rrec` was opened. -/
  rrec_epoch : ℕ := 0
  /-- The same for the bytes of `handshake_fragment`, and of `init_buf`. -/
  fragment_epochs : List ℕ := []
  buf_epochs : List ℕ := []
  /-- The messages that were sent and received since the transcript was started. -/
  log : List Bytes := []
  /-- The signature of this handshake's CertificateVerify message. -/
  verified : Option Verified := none
  events : List Event := []

structure Conn where
  server : Bool
  pc : Pc := .out
  state : HsState := .before
  in_handshake : ℕ := 0
  /-- `init_buf`, `init_num` and the fields of the message in `tmp`, for a message that is read or
  written. -/
  m : MessageState := .init
  renegotiate : ℕ := 0
  hit : Bool := false
  first_packet : Bool := false
  /-- `SSL_RECEIVED_SHUTDOWN` and `SSL_SENT_SHUTDOWN` in `s->shutdown`. -/
  received_shutdown : Bool := false
  sent_shutdown : Bool := false
  verify_mode : VerifyMode := {}
  session : Session := {}
  enc_read_ctx : Bool := false
  tlsext_ticket_expected : Bool := false
  tlsext_status_expected : Bool := false
  /-- `SSL3_FLAGS_CCS_OK` in `s->s3->flags`. -/
  ccs_ok : Bool := false
  /-- `TLS1_FLAGS_SKIP_CERT_VERIFY` in `s->s3->flags`. -/
  skip_cert_verify : Bool := false
  change_cipher_spec : Bool := false
  rrec : Rrec := ⟨0, [], 0⟩
  handshake_fragment : Bytes := []
  alert_fragment : Bytes := []
  /-- `s->s3->renegotiate` -/
  renegotiate_pending : Bool := false
  total_renegotiations : ℕ := 0
  in_read_app_data : Bool := false
  send_connection_binding : Bool := false
  next_proto_neg_seen : Bool := false
  transcript : Transcript := ⟨none, none, false⟩
  new_cipher : Option Cipher := none
  next_state : HsState := .before
  cert_req : ℕ := 0
  cert_request : Bool := false
  /-- The bytes whose digests are in `cert_verify_md`. -/
  cert_verify_md : Bytes := []
  finish_md_len : Bool := false
  ghost : Ghost := {}

/-- What stays the same during a connection, and the functions of `libcrypto` that are called. -/
structure Config where
  /-- The version is TLS 1.2: `SSL_USE_SIGALGS`. -/
  tls12 : Bool
  max_cert_list : ℕ
  /-- `d2i_X509` succeeds, and consumes everything. -/
  d2iX509 : Bytes → Bool
  /-- `EVP_PKT_SIGN` in `X509_certificate_type`. -/
  canSign : X509 → Bool
  /-- The key is one of the GOST types. -/
  isGost : X509 → Bool
  /-- The key is of one of the types that `ssl3_get_cert_verify` knows. -/
  isKnown : X509 → Bool
  pkeySize : X509 → ℕ
  checkPeerSigalg : Bytes → X509 → Bool
  /-- Check a signature with the key of a certificate: the signature algorithm, the bytes that are
  digested, the signature. -/
  verify : X509 → Option Bytes → Bytes → Bytes → Bool

/-- What the parts that are not modelled decide: the contents of messages, callbacks, and whether
writing would block. -/
structure Oracle where
  /-- The checks of the step pass. -/
  ok : Bool := true
  /-- The checks before those pass, where the source changes something in between. -/
  early : Bool := true
  /-- A failure sets `SSL_ST_ERR`. -/
  err : Bool := true
  /-- `ssl3_write_bytes` writes everything, or `BIO_flush` succeeds. -/
  wrote : Bool := true
  /-- The body of the message that is built. -/
  body : Bytes := []
  late : Bool := true
  /-- The session that a server finds for a ClientHello. -/
  resume : Option Session := none
  /-- A ServerHello has the session ID that was offered. -/
  sameId : Bool := false
  /-- `tls_session_secret_cb` provides the secret. -/
  secret : Bool := false
  newSession : Bool := false
  cipher : Cipher := {}
  ticket : Bool := false
  status : Bool := false
  nextProto : Bool := false
  connectionBinding : Bool := false
  /-- The ClientHello lacks the cookie that `SSL_OP_COOKIE_EXCHANGE` asks for. -/
  noCookie : Bool := false
  /-- What `cert_cb` returns, if there is one. -/
  certCb : ℤ := 1
  /-- The callbacks change `s->verify_mode`. -/
  verifyMode : Option VerifyMode := none
  /-- What `ssl3_get_client_kex_...` returns. -/
  kex : ℤ := 1
  /-- `TLS1_FLAGS_SKIP_CERT_VERIFY` is set. -/
  skipCertVerify : Bool := false
  /-- The value of `cert_req` after the client certificate has been looked for. -/
  certReq : ℕ := 1
deriving DecidableEq

namespace Conn

variable (s : Conn)

/-- Return from the handshake function. -/
def leave : Conn := { s with pc := .out, in_handshake := s.in_handshake - 1 }

/-- `s->state = SSL_ST_ERR; goto end;` -/
def fail : Conn := leave { s with state := .err }

/-- Return with `SSL_ST_ERR`, without `s->in_handshake--`. -/
def failAt : Conn := { s with state := .err, pc := .out }

/-- A case of the loop ends in another state. -/
def become (state : HsState) : Conn :=
  { s with state := state, m := { s.m with part := .header }, pc := .loop }

/-- The same, with `s->init_num = 0`. -/
def go (state : HsState) : Conn := become { s with m := { s.m with init_num := 0 } } state

def emit (event : Event) : Conn :=
  { s with ghost := { s.ghost with events := s.ghost.events ++ [event] } }

/-- The part of the first case of both loops that they share. -/
def begin : Conn :=
  { s with
    m := { s.m with init_num := 0 }
    ccs_ok := false
    change_cipher_spec := false
    ghost := { s.ghost with installed := none, seen := 0, verified := none } }

def initFinishedMac : Conn :=
  { s with
    transcript := tls1InitFinishedMac s.transcript
    ghost := { s.ghost with log := [] } }

/-- `tls1_finish_mac` on a whole message. -/
def finishMac (message : Bytes) : Conn :=
  { s with
    transcript := tls1FinishMac message s.transcript
    ghost := { s.ghost with log := s.ghost.log ++ [message] } }

/-- Bytes are taken from the storage for fragments. -/
def dropFragment (n : ℕ) : Conn :=
  { s with
    handshake_fragment := s.handshake_fragment.drop n
    ghost := { s.ghost with fragment_epochs := s.ghost.fragment_epochs.drop n } }

/-- What `SSL_clear` keeps. -/
def cleared : Conn :=
  { server := s.server
    pc := s.pc
    state := .before
    in_handshake := s.in_handshake
    m := { MessageState.init with part := s.m.part, init_num := s.m.init_num }
    verify_mode := s.verify_mode
    session := s.session
    tlsext_ticket_expected := s.tlsext_ticket_expected
    tlsext_status_expected := s.tlsext_status_expected
    ghost := { s.ghost with fragment_epochs := [], buf_epochs := [] } }

end Conn

/-- `SSL_clear`. It gives up when a renegotiation is going on. -/
def sslClear (s : Conn) : Conn :=
  let session := if !s.sent_shutdown && !s.state.inInit then {} else s.session
  let s := { s with
    session := session, hit := false, received_shutdown := false, sent_shutdown := false }
  if s.renegotiate ≠ 0 then s else s.cleared

/-- What such a function returns: a positive value, or another one. -/
inductive Returned where
  | good (s : Conn)
  | bad (s : Conn)

/-- `s->state = SSL_ST_ERR; return -1;` -/
def Conn.error (s : Conn) : Returned := .bad { s with state := .err }

/-- `if (ret <= 0) goto end;` -/
def Returned.andThen (r : Returned) (f : Conn → Conn) : Conn :=
  match r with
  | .good s => f s
  | .bad s => s.leave

/-- A message of the handshake protocol. -/
def handshakeMessage (type : UInt8) (body : Bytes) : Bytes :=
  type :: l2n3 body.length ++ body

/-- In state `A` the message is put into `init_buf`, and the state becomes `B`. -/
def Conn.place (s : Conn) (message : Bytes) : Conn :=
  { s with
    m := { s.m with part := .body, init_buf := message, init_num := message.length }
    ghost := { s.ghost with buf_epochs := List.replicate message.length s.ghost.epoch } }

variable (o : Oracle)

/-- `ssl3_do_write` for a handshake message: `ssl3_write_bytes` writes all of it or none. -/
def ssl3DoWrite (s : Conn) : Returned :=
  if o.wrote then .good (s.finishMac (s.m.init_buf.take s.m.init_num)) else .bad s

/-- `ssl3_send_...`: build the message unless that was done before, and write it. -/
def sendMessage (type : UInt8) (s : Conn) : Returned :=
  match s.m.part with
  | .header =>
    if o.ok then ssl3DoWrite o (s.place (handshakeMessage type o.body))
    else if o.err then s.error
    else .bad s
  | .body => ssl3DoWrite o s

/-- `ssl3_send_change_cipher_spec`: the record is not part of the handshake. -/
def ssl3SendChangeCipherSpec (s : Conn) : Returned :=
  let s := match s.m.part with
    | .header => s.place [ssl3MtCcs]
    | .body => s
  if o.wrote then .good s else .bad s

def ssl3SendFinished (s : Conn) : Returned :=
  match s.m.part with
  | .header =>
    let (done, t) := tls1FinalFinishMac s.transcript
    let s := { s with transcript := t }
    if done then
      ssl3DoWrite o
        ({ s with finish_md_len := true }.place (handshakeMessage ssl3MtFinished o.body))
    else .bad s
  | .body => ssl3DoWrite o s

/-- `ssl3_take_mac`, if the message is a Finished message. -/
def ssl3TakeMac (s : Conn) : Conn :=
  if s.m.init_buf.head? = some ssl3MtFinished ∧ s.new_cipher ≠ none then
    { s with transcript := (tls1FinalFinishMac s.transcript).2 }
  else s

/-- Go on with `ssl3_get_message`, and with `got` when the message is there. -/
def Conn.progress (s : Conn) (got : Conn → Conn) : Progress → Conn
  | .want _ m => { s with m := m, pc := .reading 0 }
  | .got m => got ((ssl3TakeMac { s with m := m }).finishMac m.hashed)
  | .reused m => got { s with m := m }
  | .alert _ m => Conn.leave { s with m := m }

/-- `ssl3_get_finished`, from the message on. -/
def ssl3GetFinished (s : Conn) : Returned :=
  if !s.change_cipher_spec then .bad s
  else
    let s := { s with change_cipher_spec := false }
    -- The length and the value of the digest.
    if !o.ok then .bad s
    else
      .good (s.emit (.finished (s.m.init_buf.take (s.m.init_num + 4))
        (s.ghost.buf_epochs.take (s.m.init_num + 4)) s.ghost.installed))

end VigorTls.Tls
