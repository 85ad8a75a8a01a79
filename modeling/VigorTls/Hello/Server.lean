import Mathlib.Data.Int.Notation
import VigorTls.Constants
import VigorTls.Lib.Probe

/-!
# A server that reads a ClientHello

The fields that `ssl3_get_client_hello` and the functions under it read and write, what they ask of
the context, and the readers for the body of the message. A pointer into the body is an index, and
`n` is its length. The callbacks of the application change nothing else.
-/

namespace VigorTls.Hello

open Lib List

/-- `SSL_SESSION`, as far as a server looks at it. -/
structure Session where
  ssl_version : ℕ
  session_id : Bytes
  sid_ctx : Bytes
  /-- The id of `session->cipher`. -/
  cipher : Option ℕ
  cipher_id : ℕ
  time : Int64
  timeout : Int64
  tlsext_hostname : Option Bytes
  tlsext_ecpointformatlist : Option Bytes
  tlsext_ellipticcurvelist : Option (List ℕ)
deriving DecidableEq

inductive Origin where
  | ticket
  | cache
  | callback

/-- A field of `DTLS1_COOKIE_LENGTH` bytes. -/
structure CookieField where
  bytes : Bytes
  size : bytes.length = dtls1CookieLength

def CookieField.zero : CookieField := ⟨List.replicate dtls1CookieLength 0, length_replicate⟩

def CookieField.store (field : CookieField) (bs : Bytes) : CookieField :=
  ⟨(bs ++ field.bytes.drop bs.length).take dtls1CookieLength, by
    simp only [length_take, length_append, length_drop, field.size]
    omega⟩

structure Server where
  version : ℕ
  method_version : ℕ
  client_version : ℕ := 0
  session : Option Session := none
  /-- Where the last lookup found the session. No function reads it. -/
  origin : Option Origin := none
  ciphers : List ℕ := []
  sid_ctx : Bytes := []
  hit : Bool := false
  new_session : Bool := false
  renegotiate : Bool := false
  /-- `s->enc_write_ctx` or `s->write_hash` is set. -/
  protected_write : Bool := false
  client_random : Bytes := []
  new_cipher : Option ℕ := none
  cookie : CookieField := .zero
  rcvd_cookie : CookieField := .zero
  cookie_len : ℕ := dtls1CookieLength
  tlsext_ticket_expected : Bool := false
  servername_done : Bool := false
  tlsext_status_type : Option ℕ := none
  next_proto_neg_seen : Bool := false
  send_connection_binding : Bool := false
  previous_client_finished : Bytes := []
  finish_md_len : ℕ := 0
  alpn_proposed : Option Bytes := none
  peer_sigalgs : Option Bytes := none
  srtp_profile : Option ℕ := none
  ciphers_raw : Bytes := []
  /-- The custom extensions that have been received. -/
  custom_received : List ℕ := []

def Server.isDtls (s : Server) : Bool :=
  s.method_version = dtls1Version || s.method_version = dtls12Version ||
    s.method_version = dtlsAnyVersion

def Server.useSigalgs (s : Server) : Bool :=
  s.method_version = tls12Version || s.method_version = dtls12Version ||
    s.method_version = dtlsAnyVersion

/-- The cipher and the HMAC context of a ticket, once they have their keys. -/
structure TicketCtx where
  hmac_size : ℤ
  iv_length : ℕ
  hmac : Bytes → Bytes
  decrypt : Bytes → Option Bytes

/-- What `tls_decrypt_ticket` uses of the context. -/
structure TicketKeys where
  /-- `tlsext_ticket_key_cb`, called with the name of the key and the IV. -/
  tlsext_ticket_key_cb : Option (Bytes → Bytes → ℤ × TicketCtx) := none
  tlsext_tick_key_name : Bytes
  /-- The contexts with the keys of the server, for an IV. -/
  init : Bytes → TicketCtx
  d2iSession : Bytes → Option Session

/-- What the servername callback answers; `noack` without one. -/
inductive ServernameAnswer where
  | ok
  | warning
  | fatal (al : ℕ)
  | noack

/-- What is asked of the context and of the application. -/
structure HelloConfig where
  cookie_exchange : Bool := false
  no_ticket : Bool := false
  /-- `SSL_OP_NO_SESSION_RESUMPTION_ON_RENEGOTIATION`. -/
  no_resumption_on_renegotiation : Bool := false
  no_dtlsv1_2 : Bool := false
  no_dtlsv1 : Bool := false
  suiteb : Bool := false
  verify_peer : Bool := false
  app_verify_cookie_cb : Option (Bytes → Bool) := none
  sessions : List Session := []
  no_internal_lookup : Bool := false
  get_session_cb : Option (Bytes → Option Session) := none
  /-- The id for a new session; none if the callback fails, or if its id is refused. -/
  generate_session_id : Server → Option Bytes := fun _ => none
  session_timeout : Int64 := 7200
  /-- `SSL_get_default_timeout`. -/
  get_timeout : Int64 := 7200
  tlsext_hostname : Option Bytes := none
  now : Int64 := 0
  keys : TicketKeys
  /-- `tls_session_secret_cb`: it provides the secret, and it may prefer a cipher. -/
  tls_session_secret_cb : Option (Bool × Option ℕ) := none
  tls_session_ticket_ext_cb : Option (Bytes → Bool) := none
  /-- `ssl3_get_cipher_by_id` finds a cipher. -/
  known_cipher : ℕ → Bool := fun _ => true
  check_proto_version : ℕ → Bool := fun _ => true
  /-- `s->ctx->tlsext_status_cb` is set. -/
  tlsext_status_cb : Bool := false
  /-- `d2i_OCSP_RESPID` and `d2i_X509_EXTENSIONS`: the bytes that they take. -/
  d2iOcspRespid : Bytes → Option ℕ := fun _ => none
  d2iX509Extensions : Bytes → Option ℕ := fun _ => none
  srtp_profiles : List ℕ := []
  /-- The custom extensions; the callback answers with an alert, or with none. -/
  custom : List (ℕ × Option (Bytes → Option ℕ)) := []
  tlsext_servername_callback : ServernameAnswer := .noack
  /-- `ssl_fill_hello_random` succeeds. -/
  hello_random : Bool := true
  /-- `tls1_set_server_sigalgs` succeeds. -/
  set_server_sigalgs : Bool := true
  /-- The answer of `cert_cb`; 1 without one. -/
  cert_cb : ℤ := 1
  choose_cipher : List ℕ → Option ℕ := head?
  /-- `tls1_digest_cached_records` succeeds, where it is called. -/
  digest_cached_records : Bool := true
  /-- `ssl_check_clienthello_tlsext_late` succeeds. -/
  check_late : Bool := true

inductive Fail where
  | alert (al : ℕ)
  | err
deriving DecidableEq

abbrev HelloM := Parser Server Fail

def n2s (p : ℕ) : Probe ℕ := do
  let b0 ← Probe.byte p
  let b1 ← Probe.byte (p + 1)
  return b0.toNat * 256 + b1.toNat

/-- `CBS`: where the bytes start, and how many there are. -/
structure Cbs where
  data : ℕ
  len : ℕ

def Cbs.get (cbs : Cbs) (n : ℕ) : Option (Cbs × Cbs) :=
  if cbs.len < n then none else some (⟨cbs.data, n⟩, ⟨cbs.data + n, cbs.len - n⟩)

def Cbs.getU8 (cbs : Cbs) : Probe (Option (ℕ × Cbs)) :=
  match cbs.get 1 with
  | none => pure none
  | some (v, cbs) => do
    let b ← Probe.byte v.data
    return some (b.toNat, cbs)

def Cbs.getU16 (cbs : Cbs) : Probe (Option (ℕ × Cbs)) :=
  match cbs.get 2 with
  | none => pure none
  | some (v, cbs) => do
    let x ← n2s v.data
    return some (x, cbs)

/-- `cbs_get_length_prefixed`, with the reader for the length. -/
def Cbs.lengthPrefixed (getLen : Cbs → Probe (Option (ℕ × Cbs))) (cbs : Cbs) :
    Probe (Option (Cbs × Cbs)) := do
  match ← getLen cbs with
  | none => return none
  | some (len, cbs) => return cbs.get len

def Cbs.getU8LengthPrefixed : Cbs → Probe (Option (Cbs × Cbs)) := Cbs.lengthPrefixed Cbs.getU8

def Cbs.getU16LengthPrefixed : Cbs → Probe (Option (Cbs × Cbs)) := Cbs.lengthPrefixed Cbs.getU16

end VigorTls.Hello
