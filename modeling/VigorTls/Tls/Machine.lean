import VigorTls.Tls.Connect
import VigorTls.Tls.Accept
import VigorTls.Lib.Run

/-!
# A connection and its peer

The application calls the handshake function, reads, renegotiates or shuts down; the handshake
function takes a turn of its loop, or `ssl3_read_bytes` looks at the next record. A run is any
sequence of such steps, with any records and any blocking. An impossible step changes nothing.
-/

namespace VigorTls.Tls

open Lib

/-- What `ssl3_get_record` returns: a record that is not empty, or a value that is not positive. -/
abbrev Answer := Option (ℕ × UInt8 × Bytes)

inductive Label where
  /-- The handshake function is called, from `ssl3_read` or not. -/
  | enter (inRead : Bool)
  | turn (o : Oracle)
  /-- A pass of its call of `ssl3_read_bytes`. -/
  | record (answer : Answer) (env : ReadEnv) (o : Oracle)
  /-- A pass of a call for application data, or of the call for no data in `ssl3_shutdown`. -/
  | app (data : Bool) (len : ℕ) (peek : Bool) (answer : Answer) (env : ReadEnv)
  | renegotiate
  /-- `ssl3_renegotiate_check`, in `ssl3_read`, `ssl3_write` or `SSL_do_handshake`. -/
  | check (idle : Bool)
  /-- `SSL_shutdown`, with `quiet_shutdown` or not. -/
  | shutdown (quiet : Bool)
  /-- `SSL_set_verify`, between handshakes. -/
  | setVerify (mode : VerifyMode)
deriving DecidableEq

variable (cfg : Config) (o : Oracle) (answer : Answer) (s : Conn)

/-- The next record, unless there is still one. -/
def fetchRecord (answer : Answer) : Option Conn :=
  if s.rrec.data ≠ [] then some s
  else answer.map fun (type, b, bs) => openRecord s type (b :: bs)

/-- How many bytes of the message are missing. -/
def MessageState.missing (m : MessageState) : ℕ :=
  match m.part with
  | .header => 4 - m.init_num
  | .body => m.message_size - m.init_num

/-- `s->handshake_func` up to its loop. -/
def enterHandshake : Conn :=
  let s := { s with in_handshake := s.in_handshake + 1 }
  let s := if !s.state.inInit || s.state = .before then sslClear s else s
  { s with pc := .loop }

def handshakeTurn : Conn :=
  if s.server then acceptTurn cfg o s else connectTurn cfg o s

def handshakeGot : Conn :=
  if s.server then acceptGot cfg o s else connectGot cfg o s

def handshakeCall : Option UInt8 × ℕ :=
  if s.server then acceptCall cfg s.state else connectCall cfg s.state

/-- The bytes that `ssl3_read_bytes` has returned are put in place. -/
def Conn.feed (bytes : Bytes) (epochs : List ℕ) : Conn :=
  { s with
    m := messageFeed bytes s.m
    ghost := { s.ghost with buf_epochs := s.ghost.buf_epochs.take s.m.offset ++ epochs } }

/-- `ssl3_read_bytes` has returned bytes of a message. -/
def feedMessage (bytes : Bytes) (epochs : List ℕ) (s : Conn) : Conn :=
  let (mt, max) := handshakeCall cfg s
  let s := s.feed bytes epochs
  s.progress (handshakeGot cfg o) (messageResume s.server mt max s.m)

/-- A pass of `ssl3_read_bytes` for `len` bytes of handshake data: stored fragments come first. -/
def handshakeRead (env : ReadEnv) (len : ℕ) (s : Conn) : Pass :=
  if s.handshake_fragment ≠ [] then
    .bytes (s.handshake_fragment.take len) (s.ghost.fragment_epochs.take len)
      (s.dropFragment len)
  else
    match fetchRecord s answer with
    | none => .ret s
    | some s => readPass cfg env ssl3RtHandshake len false s

/-- A pass for the message that the handshake waits for; one call processes at most three records.
-/
def handshakePass (env : ReadEnv) (o : Oracle) (rrcount : ℕ) (s : Conn) : Conn :=
  match handshakeRead cfg answer env s.m.missing s with
  | .bytes bytes epochs s => feedMessage cfg o bytes epochs s
  | .again s => if rrcount + 1 < 3 then { s with pc := .reading (rrcount + 1) } else s.leave
  | .ret s => s.leave
  | .alert _ s => s.leave
  -- Not from within a handshake.
  | .handshake s => s.leave

/-- A pass of `ssl3_read_bytes` for the application. -/
def appPass (data : Bool) (len : ℕ) (peek : Bool) (answer : Answer) (env : ReadEnv) (s : Conn) :
    Conn :=
  match fetchRecord s answer with
  | none => s
  | some s =>
    match readPass cfg env (if data then ssl3RtApplicationData else 0) len peek s with
    | .bytes _ _ s | .again s | .ret s | .alert _ s => s
    | .handshake s => enterHandshake s

def step (label : Label) : Conn :=
  match label, s.pc with
  | .enter inRead, .out => enterHandshake { s with in_read_app_data := inRead }
  | .turn o, .loop => handshakeTurn cfg o s
  | .record answer env o, .reading rrcount => handshakePass cfg answer env o rrcount s
  | .app data len peek answer env, .out =>
    -- In a handshake that is going on, the handshake function is called instead.
    if s.in_handshake = 0 && s.state.inInit then s
    else appPass cfg data len peek answer env { s with in_read_app_data := data }
  | .renegotiate, .out =>
    { s with
      renegotiate := if s.renegotiate = 0 then 1 else s.renegotiate
      renegotiate_pending := true }
  | .check idle, .out => (ssl3RenegotiateCheck idle s).2
  | .shutdown quiet, .out =>
    if s.state.inInit then s
    else { s with sent_shutdown := true, received_shutdown := s.received_shutdown || quiet }
  | .setVerify mode, .out =>
    if s.state.inInit && s.state ≠ .before then s else { s with verify_mode := mode }
  | _, _ => s

/-- TLS 1.2 with checks that all succeed. -/
def Config.permissive : Config where
  tls12 := true
  max_cert_list := 102400
  d2iX509 _ := true
  canSign _ := true
  isGost _ := false
  isKnown _ := true
  pkeySize _ := 256
  checkPeerSigalg _ _ := true
  verify _ _ _ _ := true

/-- A record of `type` that begins with `b`. -/
def Label.receive (type : ℕ) (b : UInt8) (bs : Bytes) (o : Oracle := {}) : Label :=
  .record (some (type, b, bs)) {} o

def Conn.init (server : Bool) (mode : VerifyMode) : Conn :=
  { server := server, verify_mode := mode }

end VigorTls.Tls
