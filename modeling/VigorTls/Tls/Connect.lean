import VigorTls.Tls.ReadBytes

/-!
# The client

`ssl3_connect` of `ssl/s3_clnt.c`: one turn of its loop (`connectTurn`), and its rest once the
message that it reads is there (`connectGot`). What it makes of the contents of a message, and the
messages sent, are up to the `Oracle`.
-/

namespace VigorTls.Tls

variable (cfg : Config) (o : Oracle) (s : Conn)

/-- The part of `ssl3_get_server_hello` that finds out whether the session is resumed. -/
def serverHelloSession : Conn :=
  let s := { s with hit := false }
  let s :=
    if o.secret then
      { s with session := { s.session with cipher := true }, hit := true, ccs_ok := true }
    else s
  let s := if !s.hit && o.sameId then { s with hit := true } else s
  if !s.hit && o.newSession then { s with session := {} } else s

/-- The part of `ssl3_get_server_hello` from the cipher on. -/
def serverHelloCipher : Returned :=
  if !o.ok then s.error
  else
    let s := { s with new_cipher := some o.cipher }
    let (digested, t) :=
      if cfg.tls12 then (true, s.transcript) else tls1DigestCachedRecords s.transcript
    let s := { s with transcript := t }
    if !digested || !o.late then s.error
    else
      .good { s with
        tlsext_ticket_expected := s.tlsext_ticket_expected || o.ticket
        tlsext_status_expected := s.tlsext_status_expected || o.status
        next_proto_neg_seen := o.nextProto
        send_connection_binding := o.connectionBinding }

def ssl3GetServerHello : Returned :=
  if s.m.message_type ≠ ssl3MtServerHello || !o.early then s.error
  else serverHelloCipher cfg o (serverHelloSession o s)

def ssl3GetServerCertificate : Returned :=
  if s.m.message_type = ssl3MtServerKeyExchange then
    .good { s with m := { s.m with reuse_message := true } }
  else if s.m.message_type ≠ ssl3MtCertificate || !o.ok then s.error
  else .good { s with session := { s.session with peer := some o.body } }

def ssl3GetCertStatus : Returned :=
  let s :=
    if s.m.message_type ≠ ssl3MtCertificateStatus then
      { s with m := { s.m with reuse_message := true } }
    else s
  if o.ok then .good s else s.error

def ssl3GetServerKeyExchange : Returned :=
  if s.m.message_type ≠ ssl3MtServerKeyExchange then
    if s.new_cipher.any (·.ephemeral) then s.error
    else .good { s with m := { s.m with reuse_message := true } }
  else if o.ok then .good s
  else s.error

def ssl3GetCertificateRequest : Returned :=
  let s := { s with cert_req := 0 }
  if s.m.message_type = ssl3MtServerDone then
    let s := { s with m := { s.m with reuse_message := true } }
    if s.transcript.handshake_buffer.isSome then
      let (digested, t) := tls1DigestCachedRecords s.transcript
      let s := { s with transcript := t }
      if digested then .good s else s.error
    else .good s
  else if s.m.message_type ≠ ssl3MtCertificateRequest || s.new_cipher.any (·.aNULL) || !o.ok then
    s.error
  else .good { s with cert_req := 1 }

def ssl3GetServerDone : Returned := if 0 < s.m.init_num then s.error else .good s

def ssl3GetNewSessionTicket : Returned := if o.ok then .good s else s.error

def ssl3ClientHello : Returned :=
  let s := if s.m.part = .header && o.newSession then { s with session := {} } else s
  sendMessage o ssl3MtClientHello s

/-- `ssl3_send_client_certificate`. The callbacks come before the message. -/
def ssl3SendClientCertificate : Returned :=
  if s.m.part = .header then
    if o.certCb < 0 then .bad s
    else sendMessage o ssl3MtCertificate { s with cert_req := o.certReq }
  else sendMessage o ssl3MtCertificate s

def ssl3SendClientKeyExchange : Returned :=
  sendMessage o ssl3MtClientKeyExchange
    (if s.m.part = .header && o.skipCertVerify then { s with skip_cert_verify := true } else s)

/-- `ssl3_send_client_verify`. In TLS 1.2 the buffer is signed, and then digested. -/
def ssl3SendClientVerify : Returned :=
  if s.m.part = .header && cfg.tls12 then
    let (digested, t) := tls1DigestCachedRecords s.transcript
    let s := { s with transcript := t }
    if digested then sendMessage o ssl3MtCertificateVerify s else s.error
  else sendMessage o ssl3MtCertificateVerify s

/-- The type and the largest length of the message that is read in a state. -/
def connectCall : HsState → Option UInt8 × ℕ
  | .crSrvrHello => (none, 20000)
  | .crCertStatus => (none, 16384)
  | .crSrvrDone => (some ssl3MtServerDone, 30)
  | .crSessionTicket => (some ssl3MtNewsessionTicket, 16384)
  | .crFinished => (some ssl3MtFinished, 64)
  -- Certificate, ServerKeyExchange and CertificateRequest.
  | _ => (none, cfg.max_cert_list)

/-- The rest of a turn, after `ssl3_get_message`. -/
def connectGot : Conn :=
  match s.state with
  | .crSrvrHello => (ssl3GetServerHello cfg o s).andThen fun s =>
    if s.hit then s.go (if s.tlsext_ticket_expected then .crSessionTicket else .crFinished)
    else s.go .crCert
  | .crCert => (ssl3GetServerCertificate o s).andThen fun s =>
    s.go (if s.tlsext_status_expected then .crCertStatus else .crKeyExch)
  | .crCertStatus => (ssl3GetCertStatus o s).andThen fun s => s.go .crKeyExch
  | .crKeyExch => (ssl3GetServerKeyExchange o s).andThen fun s =>
    -- `ssl3_check_cert_and_algorithm`
    if o.late then s.go .crCertReq else s.fail
  | .crCertReq => (ssl3GetCertificateRequest o s).andThen fun s => s.go .crSrvrDone
  | .crSrvrDone => (ssl3GetServerDone s).andThen fun s =>
    s.go (if s.cert_req ≠ 0 then .cwCert else .cwKeyExch)
  | .crSessionTicket => (ssl3GetNewSessionTicket o s).andThen fun s => s.go .crFinished
  | .crFinished => (ssl3GetFinished o s).andThen fun s => s.go (if s.hit then .cwChange else .ok)
  | _ => s.leave

def connectGet : Conn :=
  let (mt, max) := connectCall cfg s.state
  s.progress (connectGot cfg o) (ssl3GetMessage s.server mt max s.m)

def connectStart : Conn := (s.begin.initFinishedMac).go .cwClntHello

/-- The state that follows on the client's ChangeCipherSpec. -/
def afterClientChange : Conn :=
  let s := s.go (if s.next_proto_neg_seen then .cwNextProto else .cwFinished)
  let s := { s with session := { s.session with cipher := true } }
  -- `setup_key_block` and `change_cipher_state`
  if o.late then s else s.fail

/-- The state that follows on the client's Finished message. -/
def afterClientFinished : Conn :=
  let s := { s with ccs_ok := true }
  if s.hit then { s with next_state := .ok }.go .cwFlush
  else if s.tlsext_ticket_expected then { s with next_state := .crSessionTicket }.go .cwFlush
  else { s with next_state := .crFinished }.go .cwFlush

/-- A turn of the loop of `ssl3_connect`. -/
def connectTurn : Conn :=
  match s.state with
  | .renegotiate => connectStart { s with renegotiate := 1 }
  | .before | .start => connectStart s
  | .cwClntHello =>
    let s := { s with received_shutdown := false, sent_shutdown := false }
    (ssl3ClientHello o s).andThen fun s => s.go .crSrvrHello
  | .crCert =>
    -- There is no certificate for an anonymous cipher.
    if s.new_cipher.any (·.aNULL) then s.go .crKeyExch else connectGet cfg o s
  | .crSrvrHello | .crCertStatus | .crKeyExch | .crCertReq | .crSrvrDone | .crSessionTicket =>
    connectGet cfg o s
  | .cwCert => (ssl3SendClientCertificate o s).andThen fun s => s.go .cwKeyExch
  | .cwKeyExch => (ssl3SendClientKeyExchange o s).andThen fun s =>
    s.go (if s.cert_req = 1 && !s.skip_cert_verify then .cwCertVrfy else .cwChange)
  | .cwCertVrfy => (ssl3SendClientVerify cfg o s).andThen fun s => s.go .cwChange
  | .cwChange => (ssl3SendChangeCipherSpec o s).andThen (afterClientChange o)
  | .cwNextProto => (sendMessage o ssl3MtNextProto s).andThen fun s => s.become .cwFinished
  | .cwFinished => (ssl3SendFinished o s).andThen afterClientFinished
  | .crFinished => connectGet cfg o { s with ccs_ok := true }
  | .cwFlush => if o.wrote then s.become s.next_state else s.leave
  | .ok => Conn.leave { s with m := { s.m with init_num := 0 }, renegotiate := 0 }
  | _ => s.leave

end VigorTls.Tls
