import VigorTls.Constants
import VigorTls.Record.Cbc

/-!
# Protecting and opening records

`tls1_enc` and `tls1_mac` of `ssl/t1_enc.c`, with the parts of `do_ssl3_write` and `ssl3_get_record`
that call them, for TLS. The fields for the two directions are two copies of one structure,
`Direction`. The primitives are parameters. An `EVP_AEAD` and an `EVP_CIPHER` context are told apart
by which of the pointers are null; nothing says that only one is set.
-/

namespace VigorTls.Record

/-! ## Algorithms and contexts -/

structure EvpAead where
  nid : ℕ
  key_length : ℕ
  nonce_length : ℕ
  max_overhead : ℕ

inductive CipherMode where
  | stream | cbc | gcm
deriving DecidableEq

structure EvpCipher where
  nid : ℕ
  mode : CipherMode
  key_length : ℕ
  iv_length : ℕ
  block_size : ℕ
  aead : Bool

structure EvpMd where
  nid : ℕ
  md_size : ℕ
  /-- `ssl3_cbc_record_digest_supported`. -/
  cbc_supported : Bool

structure AeadCtx where
  aead : EvpAead
  key : Bytes
  fixed_nonce : Bytes
  variable_nonce_len : ℕ
  variable_nonce_in_record : Bool
  xor_fixed_nonce : Bool
  tag_len : ℕ

structure CipherCtx where
  cipher : EvpCipher
  key : Bytes
  iv : Bytes
  encrypt : Bool
  /-- The key of `EVP_CTRL_AEAD_SET_MAC_KEY`. -/
  mac_key : Option Bytes
  /-- What the context has been given since. -/
  used : List Bytes

structure MdCtx where
  /-- The digest, the type of the key and the key; a new context has none. -/
  digest : Option (EvpMd × ℕ × Bytes)
  /-- What the context has been given since. -/
  used : List Bytes

def MdCtx.md (ctx : MdCtx) : Option EvpMd := ctx.digest.map Prod.fst

/-- The primitives of `crypto/evp`. -/
structure Evp where
  /-- `EVP_AEAD_CTX_seal`: key, nonce, input, additional data. -/
  aeadSeal : EvpAead → Bytes → Bytes → Bytes → Bytes → Option Bytes
  /-- `EVP_AEAD_CTX_open`. -/
  aeadOpen : EvpAead → Bytes → Bytes → Bytes → Bytes → Option Bytes
  cipher : CipherCtx → Bytes → Option Bytes
  /-- `EVP_CTRL_AEAD_TLS1_AAD`: the bytes that the cipher adds. -/
  aad : CipherCtx → Bytes → ℕ
  digestSign : MdCtx → Bytes → Bytes
  /-- `ssl3_cbc_digest_record`: header, data, the two sizes, secret. -/
  cbcDigestRecord : EvpMd → Bytes → Bytes → ℕ → ℕ → Bytes → Bytes

/-- The fields of the connection for one direction. -/
structure Direction where
  /-- `s->aead_read_ctx`, `s->aead_write_ctx`. -/
  aead_ctx : Option AeadCtx := none
  /-- `s->enc_read_ctx`, `s->enc_write_ctx`. -/
  enc_ctx : Option CipherCtx := none
  /-- `s->read_hash`, `s->write_hash`. -/
  hash : Option MdCtx := none
  /-- `SSL_MAC_FLAG_READ_MAC_STREAM`, `SSL_MAC_FLAG_WRITE_MAC_STREAM`. -/
  mac_stream : Bool := false
  /-- `s->s3->read_mac_secret`, `s->s3->write_mac_secret`. -/
  mac_secret : Bytes := []
  /-- `s->s3->read_sequence`, `s->s3->write_sequence`. -/
  sequence : UInt64 := 0

/-- `EVP_MD_CTX_md` of the direction's hash. -/
def Direction.md (d : Direction) : Option EvpMd := d.hash.bind MdCtx.md

/-- What does not change over the connection. -/
structure RecordConfig where
  server : Bool
  version : ℕ
  explicit_iv : Bool
  /-- No `SSL_OP_DONT_INSERT_EMPTY_FRAGMENTS`, and a version up to TLS 1.0. -/
  empty_fragments : Bool
  /-- The room that `SSL_OP_MICROSOFT_BIG_SSLV3_BUFFER` gives. -/
  extra : ℕ

def seqBytes (seq : UInt64) : Bytes :=
  [(seq >>> 56).toUInt8, (seq >>> 48).toUInt8, (seq >>> 40).toUInt8, (seq >>> 32).toUInt8,
    (seq >>> 24).toUInt8, (seq >>> 16).toUInt8, (seq >>> 8).toUInt8, seq.toUInt8]

/-- The thirteen bytes that are authenticated with a record of `len` bytes. -/
def recordHeader (version : ℕ) (seq : UInt64) (type len : ℕ) : Bytes :=
  seqBytes seq ++
    [.ofNat type, .ofNat (version / 256), .ofNat version, .ofNat (len / 256), .ofNat len]

section

variable (evp : Evp) (cfg : RecordConfig)

variable (aead : AeadCtx) (ds : CipherCtx)

/-- The length of the variable part of the nonce that is sent with a record. -/
def AeadCtx.eivlen : ℕ :=
  if aead.variable_nonce_in_record then aead.variable_nonce_len else 0

/-- The checks on the lengths of the nonce. -/
def AeadCtx.nonceFits : Bool :=
  aead.variable_nonce_len ≤ 8 &&
    if aead.xor_fixed_nonce then
      aead.fixed_nonce.length ≤ 16 && aead.variable_nonce_len ≤ aead.fixed_nonce.length
    else aead.fixed_nonce.length + aead.variable_nonce_len ≤ 16

def AeadCtx.nonce (seq : UInt64) (explicit : Bytes) : Bytes :=
  if aead.xor_fixed_nonce then
    let pad_len := aead.fixed_nonce.length - aead.variable_nonce_len
    List.zipWith (· ^^^ ·) (List.replicate pad_len 0 ++ (seqBytes seq).take aead.variable_nonce_len)
      aead.fixed_nonce
  else
    let counter := if aead.variable_nonce_in_record then explicit else seqBytes seq
    aead.fixed_nonce ++ counter.take aead.variable_nonce_len

/-- `tls1_enc` with an `EVP_AEAD` context, sending. -/
def aeadSend (seq : UInt64) (type : ℕ) (input : Bytes) : Option Bytes :=
  let eivlen := aead.eivlen
  -- A shorter input would make the length wrap around.
  if !aead.nonceFits || input.length < eivlen then none
  else
    let ad := recordHeader cfg.version seq type (input.length - eivlen)
    (evp.aeadSeal aead.aead aead.key (aead.nonce seq (seqBytes seq)) (input.drop eivlen) ad).map
      ((seqBytes seq).take eivlen ++ ·)

/-- `tls1_enc` with an `EVP_AEAD` context, receiving. -/
def aeadReceive (seq : UInt64) (r : Rec) : ℤ × Rec :=
  if !aead.nonceFits then (-1, r)
  else if r.length < aead.variable_nonce_len then (0, r)
  else
    let input := r.data.take r.length
    let nonce := aead.nonce seq input
    let input := if aead.variable_nonce_in_record then input.drop aead.variable_nonce_len else input
    if input.length < aead.tag_len then (0, r)
    else
      let ad := recordHeader cfg.version seq r.type (input.length - aead.tag_len)
      match evp.aeadOpen aead.aead aead.key nonce input ad with
      | none => (-1, r)
      | some out => (1, { r with data := out, length := out.length })

/-- `tls1_enc` with an `EVP_CIPHER` context, sending. -/
def cipherSend (seq : UInt64) (type : ℕ) (input : Bytes) : Option Bytes × CipherCtx × UInt64 :=
  if ds.cipher.aead then
    let buf := recordHeader cfg.version seq type input.length
    let pad := evp.aad ds buf
    let ds := { ds with used := ds.used ++ [buf] }
    if pad = 0 then (none, ds, seq + 1)
    else
      -- The cipher writes the bytes that are added.
      let input := input ++ List.replicate pad 0
      (evp.cipher ds input, { ds with used := ds.used ++ [input] }, seq + 1)
  else
    let bs := ds.cipher.block_size
    let i := bs - input.length % bs
    let input := if bs ≠ 1 then input ++ List.replicate i (.ofNat (i - 1)) else input
    (evp.cipher ds input, { ds with used := ds.used ++ [input] }, seq)

/-- `tls1_enc` with an `EVP_CIPHER` context, receiving; `mac_size` is that of `s->read_hash`. -/
def cipherReceive (mac_size : ℕ) (seq : UInt64) (r : Rec) : (ℤ × Rec) × CipherCtx × UInt64 :=
  let buf := recordHeader cfg.version seq r.type r.length
  let pad := if ds.cipher.aead then evp.aad ds buf else 0
  let ds := if ds.cipher.aead then { ds with used := ds.used ++ [buf] } else ds
  let seq := if ds.cipher.aead then seq + 1 else seq
  if ds.cipher.aead && pad = 0 then ((-1, r), ds, seq)
  else if r.length = 0 || r.length % ds.cipher.block_size ≠ 0 then ((0, r), ds, seq)
  else
    let input := r.data.take r.length
    let after := { ds with used := ds.used ++ [input] }
    match evp.cipher ds input with
    | none => ((-1, r), after, seq)
    | some out =>
      let r := { r with data := out }
      let r :=
        if ds.cipher.mode = .gcm then
          { r with data := r.data.drop evpGcmTlsExplicitIvLen,
                   length := r.length - evpGcmTlsExplicitIvLen }
        else r
      let (ret, r) :=
        if ds.cipher.block_size ≠ 1 then
          tls1CbcRemovePadding cfg.explicit_iv ds.cipher.aead r ds.cipher.block_size mac_size
        else (1, r)
      ((ret, { r with length := r.length - pad }), after, seq)

/-- The length of the explicit IV that `tls1_enc` makes. -/
def CipherCtx.ivlen : ℕ :=
  if cfg.explicit_iv && ds.cipher.mode = .cbc then ds.cipher.iv_length else 0

variable (session : Bool)

/-- `tls1_enc(s, 1)`, with the bytes of `RAND_bytes` for an explicit IV. -/
def tls1EncSend (rand : ℕ → UInt8) (type : ℕ) (d : Direction)
    (input : Bytes) : Option Bytes × Direction :=
  match d.aead_ctx with
  | some aead =>
    (aeadSend evp cfg aead d.sequence type input, { d with sequence := d.sequence + 1 })
  | none =>
    match d.enc_ctx with
    | none => (some input, d)
    | some ds =>
      let ivlen := ds.ivlen cfg
      let input := if ivlen > 1 then (List.range ivlen).map rand ++ input.drop ivlen else input
      if session then
        let (out, ds, seq) := cipherSend evp cfg ds d.sequence type input
        (out, { d with enc_ctx := some ds, sequence := seq })
      else (some input, d)

/-- `tls1_enc(s, 0)`. -/
def tls1EncReceive (d : Direction) (r : Rec) : (ℤ × Rec) × Direction :=
  match d.aead_ctx with
  | some aead => (aeadReceive evp cfg aead d.sequence r, { d with sequence := d.sequence + 1 })
  | none =>
    match session, d.enc_ctx with
    | true, some ds =>
      let mac_size := (d.md.map EvpMd.md_size).getD 0
      let (result, ds, seq) := cipherReceive evp cfg ds mac_size d.sequence r
      (result, { d with enc_ctx := some ds, sequence := seq })
    | _, _ => ((1, r), d)

/-- `EVP_MD_CTX_copy` and the digest, or the digest in place for a stream MAC. -/
def digestWith (stream : Bool) (ctx : MdCtx) (input : Bytes) : Bytes × MdCtx :=
  (evp.digestSign ctx input, if stream then { ctx with used := ctx.used ++ [input] } else ctx)

/-- `tls1_mac(s, md, 1)`. -/
def tls1MacSend (stream : Bool) (hash : MdCtx) (seq : UInt64) (type : ℕ) (input : Bytes) :
    Bytes × MdCtx :=
  digestWith evp stream hash (recordHeader cfg.version seq type input.length ++ input)

/-- `tls1_mac(s, md, 0)`, with `EVP_CIPHER_CTX_mode(s->enc_read_ctx)` and the MAC secret. -/
def tls1MacReceive (mode : CipherMode) (stream : Bool) (secret : Bytes) (hash : MdCtx)
    (md : EvpMd) (seq : UInt64) (r : Rec) : Bytes × MdCtx × Rec :=
  let orig_len := r.length + md.md_size + r.type / 256
  let r := { r with type := r.type % 256 }
  let header := recordHeader cfg.version seq r.type r.length
  if mode = .cbc && md.cbc_supported then
    (evp.cbcDigestRecord md header r.data (r.length + md.md_size) orig_len secret, hash, r)
  else
    let (mac, hash) := digestWith evp stream hash (header ++ r.data.take r.length)
    (mac, hash, r)

/-- The length of the explicit IV in `do_ssl3_write`, with an `EVP_CIPHER` context. -/
def CipherCtx.eivlen : ℕ :=
  match ds.cipher.mode with
  | .cbc => if ds.cipher.iv_length ≤ 1 then 0 else ds.cipher.iv_length
  | .gcm => evpGcmTlsExplicitIvLen
  | .stream => 0

/-- The length of the explicit IV in `do_ssl3_write`. -/
def Direction.eivlen (d : Direction) : ℕ :=
  match cfg.explicit_iv, d.enc_ctx, d.aead_ctx with
  | true, some ds, _ => ds.eivlen
  | _, _, some aead => aead.eivlen
  | _, _, none => 0

/-- The bytes in the write buffer where the explicit IV goes, and those of `RAND_bytes`. -/
structure WriteEnv where
  buf : ℕ → UInt8
  rand : ℕ → UInt8

/-- The MAC of a record that is written, if `mac_size` is not zero. -/
def writeMac (type : ℕ) (d : Direction) (payload : Bytes) : Bytes × Direction :=
  match session, d.enc_ctx, d.hash, d.md with
  | true, some _, some hash, some md =>
    if md.md_size ≠ 0 then
      let (mac, hash) := tls1MacSend evp cfg d.mac_stream hash d.sequence type payload
      (mac, { d with hash := some hash, sequence := d.sequence + 1 })
    else ([], d)
  | _, _, _, _ => ([], d)

/-- The fragment of one record: room for the explicit IV, payload and MAC, and `tls1_enc`. -/
def writeFragment (env : WriteEnv) (type : ℕ) (d : Direction)
    (payload : Bytes) : Option Bytes × Direction :=
  let room := (List.range (d.eivlen cfg)).map env.buf
  let (mac, d) := writeMac evp cfg session type d payload
  tls1EncSend evp cfg session env.rand type d (room ++ payload ++ mac)

/-- What becomes of a record that has come in. -/
inductive Opened where
  | record (type : ℕ) (data : Bytes)
  | alert (al : ℕ)
  | abort
deriving DecidableEq

/-- The end of `ssl3_get_record`, with the verdict `enc_err < 0` on padding and MAC. -/
def finishRecord (bad : Bool) (r : Rec) : Opened :=
  if bad then .alert sslAdBadRecordMac
  else if r.length > ssl3RtMaxPlainLength + cfg.extra then .alert sslAdRecordOverflow
  else .record r.type (r.data.take r.length)

/-- The check of the MAC in `ssl3_get_record`; the sequence number goes up when it is computed. -/
def checkMac (enc_err : ℤ) (mode : CipherMode) (stream : Bool) (secret : Bytes) (hash : MdCtx)
    (md : EvpMd) (seq : UInt64) (r : Rec) : Opened × MdCtx × UInt64 :=
  let mac_size := md.md_size
  let orig_len := r.length + r.type / 256
  if orig_len < mac_size || (mode = .cbc && orig_len < mac_size + 1) then
    (.alert sslAdDecodeError, hash, seq)
  else
    let mac :=
      if mode = .cbc then ssl3CbcCopyMac r mac_size orig_len
      else some ((r.data.drop (r.length - mac_size)).take mac_size)
    match mac with
    | none => (.abort, hash, seq)
    | some mac =>
      let r := { r with length := r.length - mac_size }
      let (computed, hash, r) := tls1MacReceive evp cfg mode stream secret hash md seq r
      let bad := enc_err < 0 || computed.take mac_size ≠ mac ||
        r.length > ssl3RtMaxCompressedLength + cfg.extra + mac_size
      (finishRecord cfg bad r, hash, seq + 1)

/-- `ssl3_get_record` from `rr->input` on. -/
def openFragment (d : Direction) (type : ℕ) (body : Bytes) : Opened × Direction :=
  let ((enc_err, r), d) := tls1EncReceive evp cfg session d ⟨type, body, body.length⟩
  if enc_err = 0 then (.alert sslAdDecryptionFailed, d)
  else
    match session, d.enc_ctx, d.hash, d.md with
    | true, some ds, some hash, some md =>
      let (opened, hash, seq) :=
        checkMac evp cfg enc_err ds.cipher.mode d.mac_stream d.mac_secret hash md d.sequence r
      (opened, { d with hash := some hash, sequence := seq })
    | _, _, _, _ => (finishRecord cfg (enc_err < 0) r, d)

end

end VigorTls.Record
