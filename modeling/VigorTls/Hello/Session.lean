import VigorTls.Hello.Server

/-!
# Looking for a session

`tls1_process_ticket` and `tls_decrypt_ticket` of `ssl/t1_lib.c`, `ssl_get_prev_session` and
`ssl_get_new_session` of `ssl/ssl_sess.c`. A session comes from a ticket, the internal cache or the
application. What a lookup does to the cache is left out.
-/

namespace VigorTls.Hello

open Lib Parser

/-- The first part of `tls_decrypt_ticket`: the contexts for the name and the IV. Without a callback
the IV is read once the name matches. -/
def ticketContexts (keys : TicketKeys) (etick : ℕ) : Probe (ℤ × TicketCtx) := do
  let name ← Probe.bytes etick 16
  match keys.tlsext_ticket_key_cb with
  | some cb => do
    let iv ← Probe.bytes (etick + 16) 16
    return cb name iv
  | none =>
    if name ≠ keys.tlsext_tick_key_name then return (0, keys.init [])
    else do
      let iv ← Probe.bytes (etick + 16) 16
      return (1, keys.init iv)

/-- `tls_decrypt_ticket`: its return value and the session, of any type of sessions. -/
def decryptTicketWith {S : Type} (keys : TicketKeys) (d2i : Bytes → Option S)
    (setSessionId : S → Bytes → S) (etick eticklen : ℕ) (sess_id : Probe Bytes) :
    Probe (ℤ × Option S) := do
  let (rv, ctx) ← ticketContexts keys etick
  if rv < 0 then return (-1, none)
  else if rv = 0 then return (2, none)
  else if ctx.hmac_size < 0 then return (-1, none)
  else if eticklen ≤ 16 + ctx.iv_length + ctx.hmac_size.toNat then return (2, none)
  else do
    let mlen := ctx.hmac_size.toNat
    let eticklen := eticklen - mlen
    let signed ← Probe.bytes etick eticklen
    let tick_hmac ← Probe.bytes (etick + eticklen) mlen
    if ctx.hmac signed ≠ tick_hmac then return (2, none)
    else do
      let p := etick + 16 + ctx.iv_length
      let input ← Probe.bytes p (eticklen - (16 + ctx.iv_length))
      match (ctx.decrypt input).bind d2i with
      | none => return (2, none)
      | some sess => do
        let session_id ← sess_id
        return (if rv = 2 then 4 else 3, some (setSessionId sess session_id))

def tlsDecryptTicket (keys : TicketKeys) (etick eticklen sess_id sesslen : ℕ) :
    Probe (ℤ × Option Session) :=
  decryptTicketWith keys keys.d2iSession
    (fun sess session_id => { sess with session_id := session_id }) etick eticklen
    (Probe.bytes sess_id sesslen)

/-- What a walk over the extensions finds. -/
inductive TicketWalk where
  | bad
  | absent
  /-- The data of the first session_ticket extension. -/
  | found (ext_data : Cbs)

/-- The loop of `tls1_process_ticket`. Each extension takes four bytes at least. -/
def ticketLoop : ℕ → Cbs → Probe TicketWalk
  | 0, extensions => return if extensions.len = 0 then .absent else .bad
  | fuel + 1, extensions =>
    if extensions.len > 0 then do
      match ← extensions.getU16 with
      | none => return .bad
      | some (ext_type, extensions) =>
        match ← extensions.getU16LengthPrefixed with
        | none => return .bad
        | some (ext_data, extensions) =>
          if ext_type = tlsextTypeSessionTicket then return .found ext_data
          else ticketLoop fuel extensions
    else return .absent

/-- `tls1_process_ticket` skips the cookie of DTLS; the result is what follows it. -/
def skipCookie (dtls : Bool) (cbs : Cbs) : Probe (Option Cbs) :=
  if dtls then do
    let cookie ← cbs.getU8LengthPrefixed
    return cookie.map (·.2)
  else return some cbs

/-- `tls1_process_ticket` up to the ticket. -/
def findTicket (dtls : Bool) (session session_len limit : ℕ) : Probe TicketWalk := do
  if limit < session then return .bad
  else
    match (Cbs.mk session (limit - session)).get session_len with
    | none => return .bad
    | some (_, cbs) =>
      match ← skipCookie dtls cbs with
      | none => return .bad
      | some cbs =>
        match ← cbs.getU16LengthPrefixed with
        | none => return .bad
        | some (_, cbs) =>
          match ← cbs.getU8LengthPrefixed with
          | none => return .bad
          | some (_, cbs) =>
            match ← cbs.getU16LengthPrefixed with
            | none => return .bad
            | some (extensions, _) => ticketLoop extensions.len extensions

variable (cfg : HelloConfig)

/-- `tls1_process_ticket` from the ticket on. -/
def useTicket (session session_len : ℕ) :
    TicketWalk → HelloM (ℤ × Option Session)
  | .bad => return (-1, none)
  | .absent => return (0, none)
  | .found ext_data =>
    if ext_data.len = 0 then do
      modify fun s => { s with tlsext_ticket_expected := true }
      return (1, none)
    else if cfg.tls_session_secret_cb.isSome then return (2, none)
    else do
      let (r, ret) ← tlsDecryptTicket cfg.keys ext_data.data ext_data.len session session_len
      if r = 2 then do
        modify fun s => { s with tlsext_ticket_expected := true }
        return (2, none)
      else if r = 3 then return (3, ret)
      else if r = 4 then do
        modify fun s => { s with tlsext_ticket_expected := true }
        return (3, ret)
      else return (-1, none)

/-- `tls1_process_ticket`: its return value and the session. -/
def tls1ProcessTicket (session session_len limit : ℕ) : HelloM (ℤ × Option Session) := do
  modify fun s => { s with tlsext_ticket_expected := false }
  if cfg.no_ticket then return (0, none)
  else do
    let s ← get
    let walk ← findTicket s.isDtls session session_len limit
    useTicket cfg session session_len walk

/-- `lh_SSL_SESSION_retrieve`: a session that `ssl_session_cmp` finds equal. -/
def retrieve (sessions : List Session) (ssl_version : ℕ) (session_id : Bytes) : Option Session :=
  sessions.find? fun sess => sess.ssl_version = ssl_version && sess.session_id = session_id

/-- The second part of `ssl_get_prev_session`: the internal cache, then the callback. -/
def lookup (version : ℕ) (id : Bytes) : Option (Session × Origin) :=
  match if cfg.no_internal_lookup then none else retrieve cfg.sessions version id with
  | some ret => some (ret, .cache)
  | none =>
    match cfg.get_session_cb with
    | none => none
    | some cb => (cb id).map (·, .callback)

/-- The session that has been found: from the ticket, or by its ID. -/
def findSession (s : Server) (try_session_cache : Bool) (ticket : Option Session)
    (session_id len : ℕ) : Probe (Option (Session × Origin)) :=
  if try_session_cache then do
    let id ← Probe.bytes session_id len
    return lookup cfg s.version id
  else return ticket.map (·, .ticket)

inductive Verdict where
  | fatal
  | refused
  | accepted (ret : Session)
deriving DecidableEq

/-- The last part of `ssl_get_prev_session`: what a session that has been found must meet. Its age
is a number of 64 bits. -/
def vetSession (s : Server) (ret : Session) : Verdict :=
  if ret.sid_ctx ≠ s.sid_ctx then .refused
  else if cfg.verify_peer && s.sid_ctx = [] then .fatal
  else
    match ret.cipher <|> (if cfg.known_cipher ret.cipher_id then some ret.cipher_id else none) with
    | none => .refused
    | some cipher =>
      if ret.timeout < cfg.now - ret.time then .refused
      else .accepted { ret with cipher := some cipher }

/-- `ssl_get_prev_session`: its return value. -/
def sslGetPrevSession (session_id len limit : ℕ) : HelloM ℤ := do
  if session_id + len > limit then return -1
  else do
    let (r, ticket) ← tls1ProcessTicket cfg session_id len limit
    if r = -1 then return -1
    else do
      let try_session_cache := len ≠ 0 && (r = 0 || r = 1)
      let s ← get
      match ← findSession cfg s try_session_cache ticket session_id len with
      | none => return 0
      | some (ret, origin) =>
        match vetSession cfg s ret with
        | .accepted ret => do
          modify fun s => { s with session := some ret, origin := some origin }
          return 1
        | verdict => do
          -- A session from a ticket is replaced by one with a new ticket.
          modify fun s =>
            { s with tlsext_ticket_expected := s.tlsext_ticket_expected || !try_session_cache }
          return if verdict = .fatal then -1 else 0

/-- `ssl_get_new_session` for a server. -/
def sslGetNewSession : HelloM Unit := do
  let s ← get
  modify fun s => { s with session := none, origin := none }
  let supported := [tls1Version, tls11Version, tls12Version, dtls1Version, dtls12Version]
  if s.version ∉ supported then fail .err
  else
    match if s.tlsext_ticket_expected then some [] else cfg.generate_session_id s with
    | none => fail .err
    | some session_id =>
      let ss : Session :=
        { ssl_version := s.version, session_id := session_id, sid_ctx := s.sid_ctx, cipher := none,
          cipher_id := 0, time := cfg.now,
          timeout := if cfg.session_timeout = 0 then cfg.get_timeout else cfg.session_timeout,
          tlsext_hostname := cfg.tlsext_hostname, tlsext_ecpointformatlist := none,
          tlsext_ellipticcurvelist := none }
      modify fun s => { s with session := some ss, ciphers := [] }

end VigorTls.Hello
