import VigorTls.Tls.Conn

/-!
# Reading bytes from records

`ssl3_read_bytes` of `ssl/s3_pkt.c`, taken apart at its label `start:`. A pass looks at one record
(`openRecord`) and returns, calls the handshake function, or goes back to `start:`. No empty record
is ever left behind, so a record is there exactly when `rrec.data` is not empty.
-/

namespace VigorTls.Tls

/-- What a pass finds around it. -/
structure ReadEnv where
  /-- Nothing is left in the read and the write buffer. -/
  idle : Bool := true
  /-- There are keys, and `ssl3_do_change_cipher_spec` installs them. -/
  installs : Bool := true
  /-- How many bytes `ssl3_read` takes of application data that a handshake comes across. -/
  appBytes : ℕ := 0
deriving DecidableEq

inductive Pass where
  | again (s : Conn)
  /-- Some bytes are returned, with the read states that they were opened under. -/
  | bytes (bytes : Bytes) (epochs : List ℕ) (s : Conn)
  /-- A value that is not positive is returned. -/
  | ret (s : Conn)
  /-- A fatal alert is sent, and `-1` is returned. -/
  | alert (al : ℕ) (s : Conn)
  | handshake (s : Conn)

variable (cfg : Config) (env : ReadEnv) (s : Conn)

def openRecord (type : ℕ) (data : Bytes) : Conn :=
  { s with rrec := ⟨type, data, 0⟩, ghost := { s.ghost with rrec_epoch := s.ghost.epoch } }

def takeBytes (n : ℕ) : Conn :=
  let data := s.rrec.data.drop n
  { s with rrec := { s.rrec with data := data, off := if data = [] then 0 else s.rrec.off + n } }

def dropRecord : Conn := { s with rrec := { s.rrec with data := [] } }

/-- Bytes of another type than the one asked for go into the storage for fragments. -/
def storeFragment : Conn :=
  if s.rrec.type = ssl3RtHandshake then
    let n := min (4 - s.handshake_fragment.length) s.rrec.data.length
    { s with
      handshake_fragment := s.handshake_fragment ++ s.rrec.data.take n
      rrec := { s.rrec with data := s.rrec.data.drop n, off := s.rrec.off + n }
      ghost := { s.ghost with
        fragment_epochs := s.ghost.fragment_epochs ++ List.replicate n s.ghost.rrec_epoch } }
  else if s.rrec.type = ssl3RtAlert then
    let n := min (2 - s.alert_fragment.length) s.rrec.data.length
    { s with
      alert_fragment := s.alert_fragment ++ s.rrec.data.take n
      rrec := { s.rrec with data := s.rrec.data.drop n, off := s.rrec.off + n } }
  else s

/-- Whether the storage for the type of the record is not full. -/
def fragmentShort : Bool :=
  s.rrec.type == ssl3RtHandshake && s.handshake_fragment.length < 4 ||
    s.rrec.type == ssl3RtAlert && s.alert_fragment.length < 2

def clearFragment : Conn :=
  { s with handshake_fragment := [], ghost := { s.ghost with fragment_epochs := [] } }

def ssl3RenegotiateCheck (idle : Bool) (s : Conn) : Bool × Conn :=
  if s.renegotiate_pending && idle && !s.state.inInit then
    (true, { s with
      state := .renegotiate
      renegotiate_pending := false
      total_renegotiations := s.total_renegotiations + 1 })
  else (false, s)

/-- `ssl3_do_change_cipher_spec`: install the read state, and take the digest of the messages. -/
def ssl3DoChangeCipherSpec : Bool × Conn :=
  if !env.installs then (false, s)
  else
    let epoch := s.ghost.epoch + 1
    let mac := tls1FinalFinishMac s.transcript
    (mac.1, { s with
      session := { s.session with cipher := true }
      enc_read_ctx := s.new_cipher.any (!·.aead) || s.enc_read_ctx
      transcript := mac.2
      ghost := { s.ghost with epoch := epoch, installed := some epoch } })

/-- A Hello Request that is not read by a handshake. -/
def helloRequest : Pass :=
  let fragment := s.handshake_fragment
  let s := clearFragment s
  if fragment.drop 1 ≠ [0, 0, 0] then .alert sslAdDecodeError s
  else if s.state = .ok && !s.renegotiate_pending then
    let (start, s) := ssl3RenegotiateCheck env.idle { s with renegotiate_pending := true }
    if start then .handshake s else .again s
  else .again s

def alertReceived : Pass :=
  let level := (s.alert_fragment.getD 0 0).toNat
  let descr := (s.alert_fragment.getD 1 0).toNat
  let s := { s with alert_fragment := [] }
  if level = ssl3AlWarning then
    if descr = sslAdCloseNotify then .ret { s with received_shutdown := true }
    else if descr = sslAdNoRenegotiation then .alert sslAdHandshakeFailure s
    else .again s
  else if level = ssl3AlFatal then .ret { s with received_shutdown := true }
  else .alert sslAdIllegalParameter s

def acceptChangeCipherSpec : Bool × Conn :=
  let s := (dropRecord s).emit (.changeCipherSpec s.state s.ghost.seen)
  ssl3DoChangeCipherSpec env
    { s with
      ccs_ok := false
      change_cipher_spec := true
      ghost := { s.ghost with seen := s.ghost.seen + 1 } }

def changeCipherSpec : Pass :=
  if s.rrec.data ≠ [ssl3MtCcs] ∨ s.rrec.off ≠ 0 then .alert sslAdIllegalParameter s
  else if s.new_cipher = none then .alert sslAdUnexpectedMessage s
  else if !s.ccs_ok then .alert sslAdUnexpectedMessage s
  else
    let (done, s) := acceptChangeCipherSpec env s
    if done then .again s else .ret s

/-- The switch at the end. During the first messages of a renegotiation that `ssl3_read` has come
across, it is given application data. -/
def unexpectedRecord : Pass :=
  if s.rrec.type = ssl3RtApplicationData then
    if s.in_read_app_data && s.total_renegotiations ≠ 0 &&
        (s.state = .crSrvrHello && s.m.part = .header || s.state = .cwClntHello ||
          s.state = .srClntHello || s.state = .swHelloReq && s.m.part = .header) then
      .ret (takeBytes s env.appBytes)
    else .alert sslAdUnexpectedMessage s
  else if s.rrec.type ∈ [ssl3RtChangeCipherSpec, ssl3RtAlert, ssl3RtHandshake] then
    .alert sslAdUnexpectedMessage s
  else if !cfg.tls12 then .again (dropRecord s)
  else .alert sslAdUnexpectedMessage s

/-- The condition of the branch for a Hello Request. -/
def helloRequestStored : Bool :=
  !s.server && 4 ≤ s.handshake_fragment.length &&
    s.handshake_fragment.head? = some ssl3MtHelloRequest && s.session.cipher

/-- The condition of the branch for a ClientHello that is refused. -/
def clientHelloRefused : Bool :=
  s.server && s.state = .ok && !s.send_connection_binding && 4 ≤ s.handshake_fragment.length &&
    s.handshake_fragment.head? = some ssl3MtClientHello && s.session.cipher

/-- The part of a pass after the storage for fragments. -/
def dispatchRecord : Pass :=
  if helloRequestStored s then helloRequest env s
  -- A warning is sent. The fragment stays where it is.
  else if clientHelloRefused s then .again (dropRecord s)
  else if 2 ≤ s.alert_fragment.length then alertReceived s
  else if s.sent_shutdown then .ret (dropRecord s)
  else if s.rrec.type = ssl3RtChangeCipherSpec then changeCipherSpec env s
  else if 4 ≤ s.handshake_fragment.length && s.in_handshake = 0 then
    .handshake (if s.state = .ok then { s with state := .start, renegotiate := 1 } else s)
  else unexpectedRecord cfg env s

/-- A pass of `ssl3_read_bytes(s, type, buf, len, peek)` over a record. -/
def readPass (type len : ℕ) (peek : Bool) (s : Conn) : Pass :=
  if s.change_cipher_spec && s.rrec.type ≠ ssl3RtHandshake then .alert sslAdUnexpectedMessage s
  else if s.received_shutdown then .ret (dropRecord s)
  else if type = s.rrec.type then
    if s.state.inInit && type = ssl3RtApplicationData && !s.enc_read_ctx then
      .alert sslAdUnexpectedMessage s
    else if len = 0 then .ret s
    else
      let n := min len s.rrec.data.length
      .bytes (s.rrec.data.take n) (List.replicate n s.ghost.rrec_epoch)
        (if peek then s else takeBytes s n)
  else
    let s := storeFragment s
    if fragmentShort s then .again s else dispatchRecord cfg env s

end VigorTls.Tls
