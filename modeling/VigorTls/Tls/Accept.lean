import VigorTls.Tls.ReadBytes

/-!
# The server

`ssl3_accept` of `ssl/s3_srvr.c`: one turn of its loop (`acceptTurn`), and its rest once the message
that it reads is there (`acceptGot`). Certificate, ClientKeyExchange and CertificateVerify are read
as the source reads them.
-/

namespace VigorTls.Tls

open Lib

variable (cfg : Config) (o : Oracle) (s : Conn)

def clientHelloLate : Returned :=
  let (digested, t) :=
    if !cfg.tls12 || !s.verify_mode.peer then tls1DigestCachedRecords s.transcript
    else (true, s.transcript)
  let s := { s with transcript := t }
  if digested && o.late then .good s else s.error

/-- `ssl3_get_client_hello` from `retry_cert:` on, for a new session. -/
def clientHelloRetryCert : Returned :=
  if o.certCb = 0 then s.error
  else if o.certCb < 0 then .bad s
  else
    -- `ssl3_choose_cipher`
    if !o.ok then s.error else clientHelloLate cfg o { s with new_cipher := some o.cipher }

def ssl3GetClientHello : Returned :=
  let s := { s with first_packet := false }
  if !o.early then s.error
  else if o.noCookie then .good s
  else
    let s := { s with hit := o.resume.isSome, session := o.resume.getD {} }
    if !o.ok then s.error
    else
      let s := { s with
        verify_mode := o.verifyMode.getD s.verify_mode
        tlsext_ticket_expected := o.ticket
        next_proto_neg_seen := o.nextProto
        send_connection_binding := o.connectionBinding }
      let s :=
        if !s.hit && o.secret then
          { s with hit := true, session := { s.session with cipher := true } }
        else s
      if s.hit then clientHelloLate cfg o { s with new_cipher := some o.cipher }
      else clientHelloRetryCert cfg o s

/-- `CBS_get_u24_length_prefixed`: the bytes, and what follows them. -/
def getU24LengthPrefixed : Bytes → Option (Bytes × Bytes)
  | b0 :: b1 :: b2 :: rest =>
    let n := beNat [b0, b1, b2]
    if n ≤ rest.length then some (rest.take n, rest.drop n) else none
  | _ => none

/-- The loop of `ssl3_get_client_certificate`. A round takes three bytes, so a round for each byte
is enough. -/
def parseCerts (cfg : Config) : ℕ → Bytes → Option (List X509)
  | _, [] => some []
  | 0, _ => none
  | fuel + 1, client_certs =>
    match getU24LengthPrefixed client_certs with
    | none => none
    | some (cert, rest) =>
      if cfg.d2iX509 cert then (parseCerts cfg fuel rest).map (cert :: ·) else none

def clientCerts (msg : Bytes) : Option (List X509) :=
  match getU24LengthPrefixed msg with
  | some (client_certs, []) => parseCerts cfg client_certs.length client_certs
  | _ => none

/-- A certificate is asked for, and required. -/
def VerifyMode.required (v : VerifyMode) : Bool := v.peer && v.fail_if_no_peer_cert

/-- `ssl3_get_client_certificate`, from the message on. -/
def ssl3GetClientCertificate : Returned :=
  if s.m.message_type = ssl3MtClientKeyExchange then
    if s.verify_mode.required then s.error
    else if s.cert_request then s.error
    else .good { s with m := { s.m with reuse_message := true } }
  else if s.m.message_type ≠ ssl3MtCertificate then s.error
  else
    match clientCerts cfg s.m.msg with
    | none => s.error
    | some [] =>
      if s.verify_mode.required then s.error
      else
        let (digested, t) := digestCached s.transcript
        let s := { s with transcript := t }
        if digested then .good { s with session := { s.session with peer := none } } else s.error
    | some (x :: _) =>
      -- `ssl_verify_cert_chain`
      if o.ok then .good { s with session := { s.session with peer := some x } } else s.error

/-- `ssl3_get_client_key_exchange`, from the message on: the result is `1` or an error. -/
def ssl3GetClientKeyExchange : Returned :=
  if o.kex ≠ 1 then s.error else .good s

/-- The signature, with the signature algorithm before it in TLS 1.2. A GOST signature may stand
alone. -/
def certVerifySignature (x : X509) (msg : Bytes) : Option (Option Bytes × Bytes) :=
  if msg.length = 64 ∧ cfg.isGost x then
    if 64 ≤ cfg.pkeySize x then some (none, msg) else none
  else
    let sigalg := if cfg.tls12 then some (msg.take 2) else none
    if cfg.tls12 ∧ (msg.length < 2 ∨ !cfg.checkPeerSigalg (msg.take 2) x) then none
    else
      match if cfg.tls12 then msg.drop 2 else msg with
      | b0 :: b1 :: p =>
        let i := beNat [b0, b1]
        if p.length < i ∨ cfg.pkeySize x < i ∨ cfg.pkeySize x < p.length ∨ p = [] then none
        else some (sigalg, p.take i)
      | _ => none

/-- What a signature is checked over: in TLS 1.2 the buffer, before that the digests taken at
ClientKeyExchange. -/
def certVerifyData (x : X509) (sigalg : Option Bytes) (sig : Bytes) : Option Bytes :=
  if cfg.tls12 then
    -- Without an algorithm there is no digest to use.
    if sigalg.isNone then none
    else match s.transcript.handshake_buffer with
      | some (b :: bs) => some (b :: bs)
      | _ => none
  else if !cfg.isKnown x ∨ cfg.isGost x ∧ sig.length ≠ 64 then none
  else some s.cert_verify_md

/-- The checks of `ssl3_get_cert_verify`, with the key of the peer's certificate. -/
def checkCertVerify (x : X509) : Option Verified := do
  guard (cfg.canSign x)
  let (sigalg, sig) ← certVerifySignature cfg x s.m.msg
  let data ← certVerifyData cfg s x sigalg sig
  guard (cfg.verify x sigalg data sig)
  return ⟨x, sigalg, data, sig⟩

/-- The end of `ssl3_get_cert_verify`: the buffer is no longer needed. -/
def freeHandshakeBuffer : Conn :=
  if s.transcript.handshake_buffer.isSome then
    { s with transcript :=
      { s.transcript with handshake_buffer := none, keep_handshake := false } }
  else s

/-- `ssl3_get_cert_verify`, from the message on. -/
def ssl3GetCertVerify : Returned :=
  match s.session.peer.bind (checkCertVerify cfg s) with
  | some v => .good (freeHandshakeBuffer { s with ghost := { s.ghost with verified := some v } })
  | none => (freeHandshakeBuffer s).error

def getU8LengthPrefixed : Bytes → Option (Bytes × Bytes)
  | b :: rest => if b.toNat ≤ rest.length then some (rest.take b.toNat, rest.drop b.toNat) else none
  | [] => none

/-- `ssl3_get_next_proto`, from the message on. -/
def ssl3GetNextProto : Returned :=
  if !s.change_cipher_spec then s.error
  else if s.m.init_num < 2 then s.error
  else
    match (getU8LengthPrefixed s.m.msg).bind fun p => getU8LengthPrefixed p.2 with
    | some (_, []) => .good s
    | _ => s.error

/-- The type and the largest length of the message that is read in a state. -/
def acceptCall : HsState → Option UInt8 × ℕ
  | .srClntHello => (some ssl3MtClientHello, ssl3RtMaxPlainLength)
  | .srKeyExch => (some ssl3MtClientKeyExchange, 2048)
  | .srCertVrfy => (some ssl3MtCertificateVerify, ssl3RtMaxPlainLength)
  | .srNextProto => (some ssl3MtNextProto, 514)
  | .srFinished => (some ssl3MtFinished, 64)
  -- Certificate, or ClientKeyExchange in its place.
  | _ => (none, cfg.max_cert_list)

/-- The turn of a ClientHello after `ssl3_get_client_hello`. -/
def afterClientHello : Conn := { s with renegotiate := 2 }.go .swSrvrHello

/-- The state that follows on the client's authentication. -/
def afterCertVerify : Conn :=
  s.go (if s.next_proto_neg_seen then .srNextProto else .srFinished)

/-- The turn of a ClientKeyExchange after the message. The branch for `ret == 2` is dead. -/
def afterKeyExchange : Conn :=
  let s := s.go .srCertVrfy
  if cfg.tls12 then
    if s.session.peer.isNone then s
    else if s.transcript.handshake_buffer.isNone then s.failAt
    else
      let (digested, t) :=
        tls1DigestCachedRecords { s.transcript with keep_handshake := true }
      let s := { s with transcript := t }
      if digested then s else s.failAt
  else
    let (digested, t) := digestCached s.transcript
    let s := { s with transcript := t }
    if digested then { s with cert_verify_md := s.transcript.handshake_dgst.getD [] } else s.failAt

/-- The rest of a turn, after `ssl3_get_message`. -/
def acceptGot : Conn :=
  match s.state with
  | .srClntHello => (ssl3GetClientHello cfg o s).andThen afterClientHello
  | .srCert => (ssl3GetClientCertificate cfg o s).andThen fun s => s.go .srKeyExch
  | .srKeyExch => (ssl3GetClientKeyExchange o s).andThen (afterKeyExchange cfg)
  | .srCertVrfy => (ssl3GetCertVerify cfg s).andThen afterCertVerify
  | .srNextProto => (ssl3GetNextProto s).andThen fun s => s.go .srFinished
  | .srFinished => (ssl3GetFinished o s).andThen fun s =>
    if s.hit then s.go .ok
    else s.go (if s.tlsext_ticket_expected then .swSessionTicket else .swChange)
  | _ => s.leave

def acceptGet : Conn :=
  let (mt, max) := acceptCall cfg s.state
  s.progress (acceptGot cfg o) (ssl3GetMessage s.server mt max s.m)

/-- The condition for not asking for a certificate. -/
def noCertRequest : Bool :=
  !s.verify_mode.peer || s.finish_md_len && s.verify_mode.client_once ||
    s.new_cipher.any (·.aNULL) && !s.verify_mode.fail_if_no_peer_cert

/-- The turn of a CertificateRequest. -/
def certRequestTurn : Conn :=
  if noCertRequest s then
    let s := { s with cert_request := false }.become .swSrvrDone
    let (digested, t) := digestCached s.transcript
    let s := { s with transcript := t }
    if digested then s else s.failAt
  else
    (sendMessage o ssl3MtCertificateRequest { s with cert_request := true }).andThen fun s =>
      s.go .swSrvrDone

/-- The turn of the server's ChangeCipherSpec. -/
def serverChangeTurn : Conn :=
  let s := { s with session := { s.session with cipher := true } }
  -- `setup_key_block`
  if !o.early then s.fail
  else (ssl3SendChangeCipherSpec o s).andThen fun s =>
    -- `change_cipher_state`
    if o.late then s.go .swFinished else s.fail

/-- The state that follows on the server's Finished message. -/
def afterServerFinished : Conn :=
  if s.hit then
    { s with next_state := if s.next_proto_neg_seen then .srNextProto else .srFinished }.go .swFlush
  else { s with next_state := .ok }.go .swFlush

/-- The end of a handshake. -/
def acceptDone : Conn :=
  let s := { s with m := { s.m with init_num := 0 } }
  -- Not if only a HelloRequest was sent.
  if s.renegotiate = 2 then
    { s with renegotiate := 0 }.emit (.accepted s.hit s.session s.verify_mode s.cert_request
      s.ghost.verified s.ghost.log) |>.leave
  else s.leave

/-- A turn of the loop of `ssl3_accept`. -/
def acceptTurn : Conn :=
  match s.state with
  | .renegotiate =>
    let s := { s with renegotiate := 1 }.begin
    if s.send_connection_binding then s.become .swHelloReq else s.fail
  | .before | .start => s.begin.initFinishedMac.become .srClntHello
  | .swHelloReq =>
    let s := { s with received_shutdown := false, sent_shutdown := false }
    (sendMessage o ssl3MtHelloRequest s).andThen fun s =>
      ({ s with next_state := .swHelloReqC }.go .swFlush).initFinishedMac
  | .swHelloReqC => s.become .ok
  | .srClntHello =>
    let s := { s with received_shutdown := false, sent_shutdown := false }
    if s.m.part = .body && !s.first_packet then
      (clientHelloRetryCert cfg o s).andThen afterClientHello
    else acceptGet cfg o { s with first_packet := true }
  | .swSrvrHello =>
    -- The extensions of the message settle what comes later.
    let s :=
      if s.m.part = .header then
        { s with
          next_proto_neg_seen := s.next_proto_neg_seen && o.nextProto
          tlsext_status_expected := o.status }
      else s
    (sendMessage o ssl3MtServerHello s).andThen fun s =>
      if s.hit then s.go (if s.tlsext_ticket_expected then .swSessionTicket else .swChange)
      else s.go .swCert
  | .swCert =>
    -- There is no certificate for an anonymous cipher.
    if s.new_cipher.any (·.aNULL) then s.go .swKeyExch
    else (sendMessage o ssl3MtCertificate s).andThen fun s =>
      s.go (if s.tlsext_status_expected then .swCertStatus else .swKeyExch)
  | .swKeyExch =>
    if s.new_cipher.any (·.ephemeral) then
      (sendMessage o ssl3MtServerKeyExchange s).andThen fun s => s.go .swCertReq
    else s.go .swCertReq
  | .swCertReq => certRequestTurn o s
  | .swSrvrDone => (sendMessage o ssl3MtServerDone s).andThen fun s =>
    { s with next_state := .srCert }.go .swFlush
  | .swFlush => if o.wrote then s.become s.next_state else s.leave
  | .srCert => if s.cert_request then acceptGet cfg o s else s.go .srKeyExch
  | .srKeyExch => acceptGet cfg o s
  | .srCertVrfy =>
    if s.session.peer.isNone then afterCertVerify (freeHandshakeBuffer s) else acceptGet cfg o s
  | .srNextProto =>
    let s := if !s.change_cipher_spec then { s with ccs_ok := true } else s
    if !s.next_proto_neg_seen then s.fail else acceptGet cfg o s
  | .srFinished =>
    acceptGet cfg o (if !s.change_cipher_spec then { s with ccs_ok := true } else s)
  | .swSessionTicket => (sendMessage o ssl3MtNewsessionTicket s).andThen fun s => s.go .swChange
  | .swCertStatus => (sendMessage o ssl3MtCertificateStatus s).andThen fun s => s.go .swKeyExch
  | .swChange => serverChangeTurn o s
  | .swFinished => (ssl3SendFinished o s).andThen afterServerFinished
  | .ok => acceptDone s
  | _ => s.leave

end VigorTls.Tls
