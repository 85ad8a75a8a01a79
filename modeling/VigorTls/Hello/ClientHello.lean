import VigorTls.Hello.Extensions

/-!
# Reading a ClientHello

`ssl3_get_client_hello` of `ssl/s3_srvr.c`, cut into its steps, and `ssl_bytes_to_cipher_list` of
`ssl/ssl_lib.c`. `again` stands for the test at its start, which leads to `retry_cert`. The return
values -1 and 0 are failures here.
-/

namespace VigorTls.Hello

open Lib Parser Probe

def truncated {α : Type} : HelloM α := fail (.alert sslAdDecodeError)

def wrongVersion (s : Server) (client_version : ℕ) : Bool :=
  s.isDtls && client_version > s.version && s.method_version ≠ dtlsAnyVersion ||
    !s.isDtls && client_version < s.version

/-- The version of the client, and its check. -/
def helloVersion (n : ℕ) : HelloM Unit := do
  if 2 > n then truncated
  else do
    let client_version ← n2s 0
    let s ← get
    modify fun s => { s with client_version := client_version }
    if wrongVersion s client_version then do
      modify fun s => { s with
        version :=
          if client_version / 256 = ssl3VersionMajor && !s.protected_write then client_version
          else s.version }
      fail (.alert sslAdProtocolVersion)

variable (cfg : HelloConfig) (ciphers : List ℕ)

/-- The look at the length of the cookie: the ClientHello has none. -/
def peekCookie : Probe Bool :=
  if cfg.cookie_exchange then do
    let session_length ← byte (2 + ssl3RandomSize)
    let cookie_length ← byte (2 + ssl3RandomSize + session_length.toNat + 1)
    return cookie_length = 0
  else return false

/-- The session of the ClientHello: one that is resumed, or a new one. -/
def resume (n p j : ℕ) : HelloM Unit := do
  let s ← get
  if s.new_session && cfg.no_resumption_on_renegotiation then sslGetNewSession cfg
  else do
    let i ← sslGetPrevSession cfg p j n
    let s ← get
    if i = 1 && s.session.map (·.ssl_version) = some s.version then
      modify fun s => { s with hit := true }
    else if i = -1 then fail .err
    else sslGetNewSession cfg

/-- The random and the session; the result is where the session ID ends. -/
def helloSession (n : ℕ) : HelloM ℕ := do
  if 2 + ssl3RandomSize + 1 > n then truncated
  else do
    let client_random ← bytes 2 ssl3RandomSize
    modify fun s => { s with client_random := client_random }
    let j ← byte (2 + ssl3RandomSize)
    if 2 + ssl3RandomSize + 1 + j.toNat > n then truncated
    else if j.toNat > sslMaxSslSessionIdLength then fail (.alert sslAdDecodeError)
    else do
      modify fun s => { s with hit := false }
      resume cfg n (2 + ssl3RandomSize + 1) j.toNat
      return 2 + ssl3RandomSize + 1 + j.toNat

/-- The check of a cookie in `rcvd_cookie`: the callback, or `memcmp`. -/
def verifyCookie (s : Server) (cookie_len : ℕ) : Bool :=
  match cfg.app_verify_cookie_cb with
  | some cb => cb (s.rcvd_cookie.bytes.take cookie_len)
  | none => s.rcvd_cookie.bytes.take s.cookie_len = s.cookie.bytes.take s.cookie_len

/-- A version is chosen, for the session too. -/
def setVersion (version : ℕ) : HelloM Unit :=
  modify fun s => { s with
    version := version, method_version := version,
    session := s.session.map fun ss => { ss with ssl_version := version } }

/-- No version is possible. -/
def refuseVersion : HelloM Unit := do
  modify fun s => { s with version := s.client_version }
  fail (.alert sslAdProtocolVersion)

def chooseVersion : HelloM Unit := do
  let s ← get
  if s.method_version ≠ dtlsAnyVersion then return ()
  else if s.client_version ≤ dtls12Version && !cfg.no_dtlsv1_2 then setVersion dtls12Version
  else if cfg.suiteb then refuseVersion
  else if s.client_version ≤ dtls1Version && !cfg.no_dtlsv1 then setVersion dtls1Version
  else refuseVersion

/-- The cookie of DTLS: whether it is valid, and where it ends. -/
def helloCookie (n p : ℕ) : HelloM (Bool × ℕ) := do
  if p + 1 > n then truncated
  else do
    let cookie_len ← byte p
    if cookie_len.toNat > dtls1CookieLength then fail (.alert sslAdDecodeError)
    else if p + 1 + cookie_len.toNat > n then truncated
    else if cfg.cookie_exchange && cookie_len.toNat > 0 then do
      let cookie ← bytes (p + 1) cookie_len.toNat
      modify fun s => { s with rcvd_cookie := s.rcvd_cookie.store cookie }
      let s ← get
      if !verifyCookie cfg s cookie_len.toNat then fail (.alert sslAdHandshakeFailure)
      else return (true, p + 1 + cookie_len.toNat)
    else return (false, p + 1 + cookie_len.toNat)

def helloDtls (n p : ℕ) : HelloM (Bool × ℕ) := do
  let s ← get
  if s.isDtls then do
    let (cookie_valid, p) ← helloCookie cfg n p
    chooseVersion cfg
    return (cookie_valid, p)
  else return (false, p)

/-- The loop of `ssl_bytes_to_cipher_list`. -/
def cipherLoop (cfg : HelloConfig) : ℕ → Cbs → HelloM (List ℕ)
  | 0, _ => return []
  | fuel + 1, cipher_suites =>
    if cipher_suites.len > 0 then do
      match ← cipher_suites.getU16 with
      | none => fail .err
      | some (cipher_value, cipher_suites) => do
        let cipher_id := ssl3CkId + cipher_value
        let s ← get
        if cipher_id = ssl3CkScsv then
          if s.renegotiate then fail (.alert sslAdHandshakeFailure)
          else do
            modify fun s => { s with send_connection_binding := true }
            cipherLoop cfg fuel cipher_suites
        else if cipher_id = ssl3CkFallbackScsv then
          if !cfg.check_proto_version s.version then fail (.alert sslAdInappropriateFallback)
          else cipherLoop cfg fuel cipher_suites
        else do
          let sk ← cipherLoop cfg fuel cipher_suites
          return if cfg.known_cipher cipher_id then cipher_id :: sk else sk
    else return []

def sslBytesToCipherList (p num : ℕ) : HelloM (List ℕ) := do
  modify fun s => { s with send_connection_binding := false }
  if num < 2 || num > 0x10000 - 2 then fail .err
  else do
    let ciphers_raw ← bytes p num
    modify fun s => { s with ciphers_raw := ciphers_raw }
    cipherLoop cfg num ⟨p, num⟩

/-- The ciphers; a session that is resumed has one of them. -/
def helloCiphers (n p : ℕ) : HelloM (List ℕ × ℕ) := do
  if p + 2 > n then truncated
  else do
    let i ← n2s p
    if i = 0 then fail (.alert sslAdIllegalParameter)
    else if p + 2 + i > n then truncated
    else do
      let ciphers ← sslBytesToCipherList cfg (p + 2) i
      let s ← get
      if s.hit && !ciphers.any fun c => s.session.bind (·.cipher) = some c then
        fail (.alert sslAdIllegalParameter)
      else return (ciphers, p + 2 + i)

/-- The compression methods, and where they end. -/
def helloCompression (n p : ℕ) : HelloM ℕ := do
  if p + 1 > n then truncated
  else do
    let i ← byte p
    if p + 1 + i.toNat > n then truncated
    else do
      let methods ← bytes (p + 1) i.toNat
      if 0 ∉ methods then fail (.alert sslAdDecodeError)
      else return p + 1 + i.toNat

/-- The secret from the callback, for a session that is not resumed. -/
def sessionSecret : HelloM Unit := do
  let s ← get
  if s.hit then return ()
  else
    match cfg.tls_session_secret_cb with
    | some (true, pref_cipher) => do
      modify fun s => { s with hit := true, ciphers := ciphers }
      match pref_cipher <|> cfg.choose_cipher ciphers with
      | none => fail (.alert sslAdHandshakeFailure)
      | some cipher => modifySession fun ss => { ss with cipher := some cipher }
    | _ => return ()

/-- `retry_cert`; the result is false if the callback asks for a retry. -/
def retryCert : HelloM Bool := do
  if cfg.cert_cb = 0 then fail (.alert sslAdInternalError)
  else if cfg.cert_cb < 0 then return false
  else do
    let s ← get
    match cfg.choose_cipher s.ciphers with
    | none => fail (.alert sslAdHandshakeFailure)
    | some c => do
      modify fun s => { s with new_cipher := some c }
      return true

def helloCipher : HelloM Bool := do
  let s ← get
  if !s.hit then do
    modify fun s => { s with ciphers := ciphers }
    if !cfg.set_server_sigalgs then fail .err
    else retryCert cfg
  else do
    modify fun s => { s with new_cipher := s.session.bind (·.cipher) }
    return true

/-- What comes after the choice of the cipher. -/
def helloLate (cookie_valid chosen : Bool) : HelloM ℤ := do
  if !chosen then return -1
  else do
    let s ← get
    if (!s.useSigalgs || !cfg.verify_peer) && !cfg.digest_cached_records then
      fail (.alert sslAdInternalError)
    else if !cfg.check_late then fail .err
    else return if cookie_valid then 2 else 1

def helloTail (n p : ℕ) (ciphers : List ℕ) (cookie_valid : Bool) : HelloM ℤ := do
  sslParseClienthelloTlsext cfg p n
  if !cfg.hello_random then fail .err
  else do
    sessionSecret cfg ciphers
    let chosen ← helloCipher cfg ciphers
    helloLate cfg cookie_valid chosen

def helloRest (n p : ℕ) : HelloM ℤ := do
  let (cookie_valid, p) ← helloDtls cfg n p
  let (ciphers, p) ← helloCiphers cfg n p
  let p ← helloCompression n p
  helloTail cfg n p ciphers cookie_valid

def helloBody (n : ℕ) : HelloM ℤ := do
  let p ← helloSession cfg n
  helloRest cfg n p

/-- `ssl3_get_client_hello` on a message of `n` bytes. -/
def ssl3GetClientHello (again : Bool) (n : ℕ) : HelloM ℤ :=
  if again then do
    let chosen ← retryCert cfg
    helloLate cfg false chosen
  else do
    helloVersion n
    let bare ← peekCookie cfg
    if bare then return 1
    else helloBody cfg n

/-- A message in a buffer that holds `fill` after it. -/
def bufferOf (body : Bytes) (fill : UInt8) : ℕ → UInt8 := fun i => body.getD i fill

def sampleKeys : TicketKeys where
  tlsext_tick_key_name := List.replicate 16 7
  init _ := ⟨32, 16, fun _ => [], fun _ => none⟩
  d2iSession _ := none

/-- A ClientHello for TLS 1.2 with one cipher. -/
def sampleHello (session_id extensions : Bytes) : Bytes :=
  [3, 3] ++ List.replicate 32 1 ++ [UInt8.ofNat session_id.length] ++ session_id ++
    [0, 2, 0, 47] ++ [1, 0] ++ extensions

def sampleServer : Server := { version := tls12Version, method_version := tls12Version }

def sampleSession (session_id : Bytes) (cipher : ℕ) : Session where
  ssl_version := tls12Version
  session_id := session_id
  sid_ctx := []
  cipher := some cipher
  cipher_id := cipher
  time := 0
  timeout := 300
  tlsext_hostname := none
  tlsext_ecpointformatlist := none
  tlsext_ellipticcurvelist := none

end VigorTls.Hello
