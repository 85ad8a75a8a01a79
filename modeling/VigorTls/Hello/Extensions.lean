import VigorTls.Hello.Session

/-!
# The extensions of a ClientHello

`ssl_parse_clienthello_tlsext` of `ssl/t1_lib.c` with the functions under it. What is only stored
for callbacks (the responder IDs and the extensions of a status request) is left out.
-/

namespace VigorTls.Hello

open Lib Parser Probe

/-- `goto err` in `ssl_scan_clienthello_tlsext`. -/
def decodeError {α : Type} : HelloM α := fail (.alert sslAdDecodeError)

def modifySession (g : Session → Session) : HelloM Unit :=
  modify fun s => { s with session := s.session.map g }

/-- `case TLSEXT_NAMETYPE_host_name`. -/
def scanHostName (sdata len : ℕ) : HelloM Unit := do
  let s ← get
  let hostname := s.session.bind (·.tlsext_hostname)
  if !s.hit then
    if hostname.isSome then decodeError
    else if len > tlsextMaxlenHostName then fail (.alert sslAdUnrecognizedName)
    else do
      let name ← bytes sdata len
      if 0 ∈ name then fail (.alert sslAdUnrecognizedName)
      else do
        modifySession fun ss => { ss with tlsext_hostname := some name }
        modify fun s => { s with servername_done := true }
  else if hostname.map List.length = some len then do
    let name ← bytes sdata len
    modify fun s => { s with servername_done := hostname = some name }
  else modify fun s => { s with servername_done := false }

/-- A name, unless one has been seen. -/
def scanName (servname_type : UInt8) (sdata len : ℕ) : HelloM Unit := do
  let s ← get
  if !s.servername_done && servname_type = 0 then scanHostName sdata len

/-- The loop over the names. The source does not move `sdata` past a name. -/
def serverNameLoop : ℕ → ℕ → ℕ → HelloM ℕ
  | 0, _, dsize => return dsize
  | fuel + 1, sdata, dsize =>
    if dsize > 3 then do
      let servname_type ← byte sdata
      let len ← n2s (sdata + 1)
      if len > dsize - 3 then decodeError
      else do
        scanName servname_type (sdata + 3) len
        serverNameLoop fuel (sdata + 3) (dsize - 3 - len)
    else return dsize

def scanServerName (data size : ℕ) : HelloM Unit := do
  if size < 2 then decodeError
  else do
    let dsize ← n2s data
    if dsize > size - 2 then decodeError
    else do
      let dsize ← serverNameLoop dsize (data + 2) dsize
      if dsize ≠ 0 then decodeError

def scanEcPointFormats (data size : ℕ) : HelloM Unit := do
  if size < 1 then decodeError
  else do
    let formats_len ← byte data
    if formats_len.toNat ≠ size - 1 then decodeError
    else do
      let s ← get
      if !s.hit then do
        let formats ← bytes (data + 1) formats_len.toNat
        modifySession fun ss => { ss with tlsext_ecpointformatlist := some formats }

def readCurves (sdata : ℕ) : ℕ → Probe (List ℕ)
  | 0 => return []
  | count + 1 => do
    let curve ← n2s sdata
    let curves ← readCurves (sdata + 2) count
    return curve :: curves

def scanEllipticCurves (data size : ℕ) : HelloM Unit := do
  if size < 2 then decodeError
  else do
    let curves_len ← n2s data
    if curves_len ≠ size - 2 || curves_len % 2 ≠ 0 then decodeError
    else do
      let s ← get
      if !s.hit then
        if (s.session.bind (·.tlsext_ellipticcurvelist)).isSome then decodeError
        else do
          let curves ← readCurves (data + 2) (curves_len / 2)
          modifySession fun ss => { ss with tlsext_ellipticcurvelist := some curves }

def tls1SaveSigalgs (data dsize : ℕ) : HelloM Unit := do
  let s ← get
  if s.useSigalgs then do
    let sigalgs ← bytes data dsize
    modify fun s => { s with peer_sigalgs := some sigalgs }

def scanSignatureAlgorithms (data size : ℕ) : HelloM Unit := do
  let s ← get
  if s.peer_sigalgs.isSome || size < 2 then decodeError
  else do
    let dsize ← n2s data
    if dsize ≠ size - 2 || dsize % 2 = 1 || dsize = 0 then decodeError
    else tls1SaveSigalgs (data + 2) dsize

/-- The loop over the responder IDs; the result is where the rest starts, and its size. -/
def responderIds (cfg : HelloConfig) : ℕ → ℕ → ℕ → ℕ → HelloM (ℕ × ℕ)
  | 0, data, _, size => return (data, size)
  | fuel + 1, data, dsize, size =>
    if dsize > 0 then
      if dsize < 4 then decodeError
      else do
        let idsize ← n2s data
        if dsize < 2 + idsize then decodeError
        else do
          let id ← bytes (data + 2) idsize
          if cfg.d2iOcspRespid id ≠ some idsize then decodeError
          else
            responderIds cfg fuel (data + 2 + idsize) (dsize - (2 + idsize)) (size - (2 + idsize))
    else return (data, size)

variable (cfg : HelloConfig)

def scanStatusRequest (data size : ℕ) : HelloM Unit := do
  if size < 5 then decodeError
  else do
    let status_type ← byte data
    if status_type = 1 then do
      modify fun s => { s with tlsext_status_type := some 1 }
      let dsize ← n2s (data + 1)
      if dsize > size - 3 then decodeError
      else do
        let (data, size) ← responderIds cfg dsize (data + 3) dsize (size - 3)
        if size < 2 then decodeError
        else do
          let dsize ← n2s data
          if dsize ≠ size - 2 then decodeError
          else if dsize > 0 then do
            let exts ← bytes (data + 2) dsize
            if cfg.d2iX509Extensions exts ≠ some dsize then decodeError
    else modify fun s => { s with tlsext_status_type := none }

def sslParseClienthelloRenegotiateExt (d len : ℕ) : HelloM Unit := do
  match ← (Cbs.mk d len).getU8LengthPrefixed with
  | none => fail (.alert sslAdIllegalParameter)
  | some (reneg, cbs) =>
    if cbs.len ≠ 0 then fail (.alert sslAdIllegalParameter)
    else do
      let s ← get
      if reneg.len ≠ s.previous_client_finished.length then fail (.alert sslAdHandshakeFailure)
      else do
        let verify_data ← bytes reneg.data reneg.len
        if verify_data ≠ s.previous_client_finished then fail (.alert sslAdHandshakeFailure)
        else modify fun s => { s with send_connection_binding := true }

/-- The loop over the names of the protocols. -/
def protoNames : ℕ → Cbs → HelloM Unit
  | 0, _ => return ()
  | fuel + 1, proto_name_list =>
    if proto_name_list.len > 0 then do
      match ← proto_name_list.getU8LengthPrefixed with
      | none => decodeError
      | some (proto_name, proto_name_list) =>
        if proto_name.len = 0 then decodeError else protoNames fuel proto_name_list
    else return ()

def tls1AlpnHandleClientHello (data data_len : ℕ) : HelloM Unit := do
  if data_len < 2 then decodeError
  else
    match ← (Cbs.mk data data_len).getU16LengthPrefixed with
    | none => decodeError
    | some (alpn, cbs) =>
      if alpn.len < 2 || cbs.len ≠ 0 then decodeError
      else do
        protoNames alpn.len alpn
        let proposed ← bytes alpn.data alpn.len
        modify fun s => { s with alpn_proposed := some proposed }

/-- The loop over the profiles of the client. -/
def srtpProfiles : ℕ → Cbs → HelloM (List ℕ)
  | 0, _ => return []
  | fuel + 1, ciphers =>
    if ciphers.len > 0 then do
      match ← ciphers.getU16 with
      | none => decodeError
      | some (id, ciphers) => do
        let clnt ← srtpProfiles fuel ciphers
        return id :: clnt
    else return []

/-- `ssl_parse_clienthello_use_srtp_ext`. The server's profiles are known, so an unknown one matches
none. -/
def sslParseClienthelloUseSrtpExt (d len : ℕ) : HelloM Unit := do
  match ← (Cbs.mk d len).getU16LengthPrefixed with
  | none => decodeError
  | some (ciphers, cbs) =>
    if ciphers.len % 2 ≠ 0 then decodeError
    else do
      let clnt ← srtpProfiles ciphers.len ciphers
      match ← cbs.getU8LengthPrefixed with
      | none => decodeError
      | some (_, cbs) =>
        if cbs.len ≠ 0 then decodeError
        else
          match cfg.srtp_profiles.find? (· ∈ clnt) with
          | none => return ()
          | some profile => modify fun s => { s with srtp_profile := some profile }

/-- The branches of `ssl_scan_clienthello_tlsext`, in their order. -/
def scanExtension (type data size : ℕ) : HelloM Unit := do
  let s ← get
  if type = tlsextTypeServerName then scanServerName data size
  else if type = tlsextTypeEcPointFormats then scanEcPointFormats data size
  else if type = tlsextTypeEllipticCurves then scanEllipticCurves data size
  else if type = tlsextTypeSessionTicket then
    match cfg.tls_session_ticket_ext_cb with
    | none => return ()
    | some cb => do
      let ticket ← bytes data size
      if !cb ticket then fail (.alert sslAdInternalError)
  else if type = tlsextTypeRenegotiate then sslParseClienthelloRenegotiateExt data size
  else if type = tlsextTypeSignatureAlgorithms then scanSignatureAlgorithms data size
  else if type = tlsextTypeStatusRequest && cfg.tlsext_status_cb then
    scanStatusRequest cfg data size
  else if type = tlsextTypeNextProtoNeg && s.finish_md_len = 0 then
    modify fun s => { s with next_proto_neg_seen := true }
  else if type = tlsextTypeAlpn && s.finish_md_len = 0 then tls1AlpnHandleClientHello data size
  else if type = tlsextTypeUseSrtp then sslParseClienthelloUseSrtpExt cfg data size

/-- The loop of `ssl_scan_clienthello_tlsext`: where it ends, and `renegotiate_seen`. -/
def scanLoop (cfg : HelloConfig) (limit : ℕ) : ℕ → ℕ → Bool → HelloM (ℕ × Bool)
  | 0, data, renegotiate_seen => return (data, renegotiate_seen)
  | fuel + 1, data, renegotiate_seen =>
    if data + 4 ≤ limit then do
      let type ← n2s data
      let size ← n2s (data + 2)
      if data + 4 + size > limit then decodeError
      else do
        scanExtension cfg type (data + 4) size
        scanLoop cfg limit fuel (data + 4 + size)
          (renegotiate_seen || type = tlsextTypeRenegotiate)
    else return (data, renegotiate_seen)

def riCheck (renegotiate_seen : Bool) : HelloM Unit := do
  let s ← get
  if !renegotiate_seen && s.renegotiate then fail (.alert sslAdHandshakeFailure)

def sslScanClienthelloTlsext (data limit : ℕ) : HelloM Unit := do
  modify fun s => { s with
    servername_done := false, tlsext_status_type := none, next_proto_neg_seen := false,
    tlsext_ticket_expected := false, alpn_proposed := none }
  if data = limit then riCheck false
  else if data + 2 > limit then decodeError
  else do
    let len ← n2s data
    if data + 2 + len ≠ limit then decodeError
    else do
      let (data, renegotiate_seen) ← scanLoop cfg limit limit (data + 2) false
      if data ≠ limit then decodeError
      else riCheck renegotiate_seen

def sslCheckClienthelloTlsextEarly : HelloM Unit :=
  match cfg.tlsext_servername_callback with
  | .fatal al => fail (.alert al)
  | .noack => modify fun s => { s with servername_done := false }
  | .ok | .warning => return ()

def customExtParse (ext_type ext_data ext_size : ℕ) : HelloM Unit := do
  match cfg.custom.find? (·.1 = ext_type) with
  | none => return ()
  | some (_, parse_cb) => do
    let s ← get
    if ext_type ∈ s.custom_received then fail (.alert sslAdDecodeError)
    else do
      modify fun s => { s with custom_received := ext_type :: s.custom_received }
      match parse_cb with
      | none => return ()
      | some cb => do
        let ext ← bytes ext_data ext_size
        match cb ext with
        | none => return ()
        | some al => fail (.alert al)

/-- The loop of `ssl_scan_clienthello_custom_tlsext`. -/
def customLoop (cfg : HelloConfig) (limit : ℕ) : ℕ → ℕ → HelloM Unit
  | 0, _ => return ()
  | fuel + 1, data =>
    if data + 4 ≤ limit then do
      let type ← n2s data
      let size ← n2s (data + 2)
      if data + 4 + size > limit then return ()
      else do
        customExtParse cfg type (data + 4) size
        customLoop cfg limit fuel (data + 4 + size)
    else return ()

def sslScanClienthelloCustomTlsext (data limit : ℕ) : HelloM Unit := do
  let s ← get
  if s.hit || cfg.custom.isEmpty then return ()
  else if data + 2 ≥ limit then return ()
  else do
    let len ← n2s data
    if data + 2 + len > limit then return ()
    else customLoop cfg limit limit (data + 2)

def sslParseClienthelloTlsext (p limit : ℕ) : HelloM Unit := do
  sslScanClienthelloTlsext cfg p limit
  sslCheckClienthelloTlsextEarly cfg
  modify fun s => { s with custom_received := [] }
  sslScanClienthelloCustomTlsext cfg p limit

end VigorTls.Hello
