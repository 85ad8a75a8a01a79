import VigorTls.Lib.Run
import VigorTls.Record.Enc

/-!
# Changing the cipher state

`tls1_setup_key_block` and `tls1_change_cipher_state` of `ssl/t1_enc.c`, `ssl_clear_cipher_ctx`, and
`do_ssl3_write` and `ssl3_get_record` as far as they use the contexts. The steps are those of the
handshakes, and the records written and read in between, in any order.
`tls1_change_cipher_state_aead` leaves `enc_*_ctx` and `*_hash` as they are,
`tls1_change_cipher_state_cipher` leaves `aead_*_ctx`.
-/

namespace VigorTls.Record

open Lib

/-! ## Suites and keys -/

/-- What is asked about an `SSL_CIPHER`. -/
structure SslCipher where
  id : ℕ
  aead : Bool
  variable_nonce_in_record : Bool
  fixed_nonce_len : ℕ
  chacha20poly1305 : Bool
  stream_mac : Bool
  /-- `algorithm_enc` is `SSL_eNULL` or `SSL_RC4`. -/
  no_empty_fragments : Bool
  /-- What `ssl_cipher_get_evp_aead` finds. -/
  evp_aead : Option EvpAead
  /-- What `ssl_cipher_get_evp` finds: cipher, digest, the type of the MAC key and its size. -/
  evp : Option (EvpCipher × Option EvpMd × ℕ × ℕ)

/-- What the keys are derived from: the master key and the two random values. -/
abbrev Secrets := Bytes

/-- The PRF for the keys of a suite: an endless string of bytes. -/
abbrev KeyStream := SslCipher → Secrets → ℕ → UInt8

structure Tmp where
  new_cipher : Option SslCipher := none
  new_aead : Option EvpAead := none
  new_sym_enc : Option EvpCipher := none
  new_hash : Option EvpMd := none
  new_mac_pkey_type : ℕ := 0
  new_mac_secret_size : ℕ := 0
  /-- The bytes at `key_block`, `key_block_length` of them. -/
  key_block : Bytes := []

/-- The fields of the connection that the record layer works on. -/
structure RecordLayer where
  session : Bool := false
  cipher : Option SslCipher := none
  secrets : Secrets := []
  tmp : Tmp := {}
  read : Direction := {}
  write : Direction := {}
  need_empty_fragments : Bool := false
  empty_fragment_done : Bool := false

section

variable (evp : Evp) (prf : KeyStream) (cfg : RecordConfig)

/-- The length of the IV that comes from the key block. -/
def EvpCipher.blockIvLen (cipher : EvpCipher) : ℕ :=
  if cipher.mode = .gcm then evpGcmTlsFixedIvLen else cipher.iv_length

variable (c : SslCipher) (s : RecordLayer)

/-- The first part of `tls1_setup_key_block`. -/
def setupAlgorithms (tmp : Tmp) : Option (Tmp × ℕ × ℕ) :=
  if c.aead then
    c.evp_aead.map fun aead =>
      ({ tmp with new_aead := some aead, new_sym_enc := none, new_hash := none,
                  new_mac_pkey_type := 0, new_mac_secret_size := 0 },
        aead.key_length, c.fixed_nonce_len)
  else
    c.evp.map fun (cipher, mac, mac_type, mac_secret_size) =>
      ({ tmp with new_aead := none, new_sym_enc := some cipher, new_hash := mac,
                  new_mac_pkey_type := mac_type, new_mac_secret_size := mac_secret_size },
        cipher.key_length, cipher.blockIvLen)

def tls1SetupKeyBlock : Option RecordLayer :=
  if s.tmp.key_block ≠ [] then some s
  else do
    let c ← s.cipher
    let (tmp, key_len, iv_len) ← setupAlgorithms c s.tmp
    let key_block_len := (tmp.new_mac_secret_size + key_len + iv_len) * 2
    return { s with
      tmp := { tmp with key_block := (List.range key_block_len).map (prf c s.secrets) },
      need_empty_fragments :=
        if cfg.empty_fragments then !c.no_empty_fragments else s.need_empty_fragments }

def tls1ChangeCipherStateAead (aead : EvpAead) (key iv : Bytes) (d : Direction) :
    Option Direction :=
  let aead_ctx : AeadCtx :=
    { aead := aead, key := key, fixed_nonce := iv, variable_nonce_len := 8,
      variable_nonce_in_record := c.variable_nonce_in_record,
      xor_fixed_nonce := c.chacha20poly1305, tag_len := aead.max_overhead }
  if 12 < iv.length then none
  else if aead_ctx.xor_fixed_nonce then
    if iv.length ≠ aead.nonce_length ∨ 8 > aead.nonce_length then none
    else some { d with aead_ctx := some aead_ctx }
  else if 8 + iv.length ≠ aead.nonce_length then none
  else some { d with aead_ctx := some aead_ctx }

def tls1ChangeCipherStateCipher (is_read : Bool) (c : SslCipher) (cipher : EvpCipher)
    (mac : Option EvpMd) (mac_type : ℕ) (mac_secret key iv : Bytes) (d : Direction) :
    Direction :=
  let mac_stream := c.stream_mac
  let cipher_ctx : CipherCtx :=
    { cipher := cipher, key := key, iv := iv, encrypt := !is_read, mac_key := none, used := [] }
  let mac_ctx : MdCtx := { digest := none, used := [] }
  if !cipher.aead then
    let mac_ctx := { mac_ctx with digest := mac.map (·, mac_type, mac_secret) }
    { d with mac_stream := mac_stream, enc_ctx := some cipher_ctx, hash := some mac_ctx }
  else
    -- For composite ciphers such as RC4-HMAC-MD5.
    let cipher_ctx :=
      if mac_secret ≠ [] then { cipher_ctx with mac_key := some mac_secret } else cipher_ctx
    { d with mac_stream := mac_stream, enc_ctx := some cipher_ctx, hash := some mac_ctx }

/-- The key block, cut up: MAC secret, key and IV. -/
def partitionKeyBlock (use_client_keys : Bool) (mac_secret_size key_len iv_len : ℕ)
    (key_block : Bytes) : Bytes × Bytes × Bytes :=
  let client_write_mac_secret := key_block.take mac_secret_size
  let key_block := key_block.drop mac_secret_size
  let server_write_mac_secret := key_block.take mac_secret_size
  let key_block := key_block.drop mac_secret_size
  let client_write_key := key_block.take key_len
  let key_block := key_block.drop key_len
  let server_write_key := key_block.take key_len
  let key_block := key_block.drop key_len
  let client_write_iv := key_block.take iv_len
  let key_block := key_block.drop iv_len
  let server_write_iv := key_block.take iv_len
  if use_client_keys then (client_write_mac_secret, client_write_key, client_write_iv)
  else (server_write_mac_secret, server_write_key, server_write_iv)

/-- `tls1_change_cipher_state`, on the fields of its direction. -/
def tls1ChangeCipherState (is_read : Bool) (tmp : Tmp) (d : Direction) : Option Direction :=
  let use_client_keys := cfg.server = is_read
  let d := { d with sequence := 0 }
  match tmp.new_cipher, tmp.new_aead, tmp.new_sym_enc with
  | some c, some aead, _ =>
    let key_len := aead.key_length
    let iv_len := c.fixed_nonce_len
    let (mac_secret, key, iv) :=
      partitionKeyBlock use_client_keys tmp.new_mac_secret_size key_len iv_len tmp.key_block
    if 2 * (tmp.new_mac_secret_size + key_len + iv_len) ≠ tmp.key_block.length then none
    else tls1ChangeCipherStateAead c aead key iv { d with mac_secret := mac_secret }
  | some c, none, some cipher =>
    let key_len := cipher.key_length
    let iv_len := cipher.blockIvLen
    let (mac_secret, key, iv) :=
      partitionKeyBlock use_client_keys tmp.new_mac_secret_size key_len iv_len tmp.key_block
    if 2 * (tmp.new_mac_secret_size + key_len + iv_len) ≠ tmp.key_block.length then none
    else some (tls1ChangeCipherStateCipher is_read c cipher tmp.new_hash tmp.new_mac_pkey_type
      mac_secret key iv { d with mac_secret := mac_secret })
  | _, _, _ => none

/-- The session takes the new cipher, the key block is set up, and the state of the direction is
changed. -/
def changeCipherSpec (is_read : Bool) (s : RecordLayer) : Option RecordLayer := do
  let s ← tls1SetupKeyBlock prf cfg { s with cipher := s.tmp.new_cipher }
  let d ← tls1ChangeCipherState cfg is_read s.tmp (if is_read then s.read else s.write)
  return if is_read then { s with read := d } else { s with write := d }

/-- `do_ssl3_write`: the fragments written, or `none`. The empty one counters the known IV of a CBC
suite. -/
def doSsl3Write (first env : WriteEnv) (type : ℕ) (payload : Bytes) (s : RecordLayer) :
    Option (List Bytes) × RecordLayer :=
  if payload = [] then (some [], s)
  else if s.write.enc_ctx.isSome && !s.empty_fragment_done then
    if s.need_empty_fragments && type = ssl3RtApplicationData then
      let (fragment, write) := writeFragment evp cfg s.session first type s.write []
      let s := { s with write := write }
      match fragment with
      | none => (none, s)
      | some fragment =>
        if fragment.length > ssl3RtSendMaxEncryptedOverhead then (none, s)
        else
          let s := { s with empty_fragment_done := true }
          let (out, write) := writeFragment evp cfg s.session env type s.write payload
          (out.map ([fragment, ·]), { s with write := write })
    else
      let s := { s with empty_fragment_done := true }
      let (out, write) := writeFragment evp cfg s.session env type s.write payload
      (out.map ([·]), { s with write := write })
  else
    let (out, write) := writeFragment evp cfg s.session env type s.write payload
    (out.map ([·]), { s with write := write })

/-- `ssl_clear_cipher_ctx` and `ssl_clear_hash_ctx`, for one direction. -/
def Direction.clear (d : Direction) : Direction :=
  { d with aead_ctx := none, enc_ctx := none, hash := none }

inductive Action where
  /-- A handshake settles on a cipher and the secrets. -/
  | negotiate (cipher : SslCipher) (secrets : Secrets)
  /-- A ChangeCipherSpec message is sent or has come in. -/
  | changeCipherSpec (is_read : Bool)
  /-- The handshake is over: `ssl3_cleanup_key_block`. -/
  | finish
  | write (first env : WriteEnv) (type : ℕ) (payload : Bytes)
  /-- The end of `ssl3_write_bytes`. -/
  | written
  | receive (type : ℕ) (body : Bytes)
  | clear

inductive Seen where
  | written (fragments : Option (List Bytes))
  | opened (opened : Opened)
deriving DecidableEq

/-- A step of a connection. A change that fails ends it. -/
def act : Action → RecordLayer
  | .negotiate cipher secrets =>
    { s with session := true, secrets := secrets, tmp := { s.tmp with new_cipher := some cipher } }
  | .changeCipherSpec is_read => (changeCipherSpec prf cfg is_read s).getD s
  | .finish => { s with tmp := { s.tmp with key_block := [] } }
  | .write first env type payload => (doSsl3Write evp cfg first env type payload s).2
  | .written => { s with empty_fragment_done := false }
  | .receive type body => { s with read := (openFragment evp cfg s.session s.read type body).2 }
  | .clear =>
    -- `ssl3_clear` sets the rest to zero.
    { s with read := { s.read.clear with mac_secret := [], sequence := 0 },
             write := { s.write.clear with mac_secret := [], sequence := 0 },
             tmp := {}, need_empty_fragments := false, empty_fragment_done := false }

def seen : Action → List Seen
  | .write first env type payload => [.written (doSsl3Write evp cfg first env type payload s).1]
  | .receive type body => [.opened (openFragment evp cfg s.session s.read type body).1]
  | _ => []

end

end VigorTls.Record
