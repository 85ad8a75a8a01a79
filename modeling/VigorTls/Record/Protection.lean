import VigorTls.Record.CipherState

/-!
# The suite that protects a record

The records of a direction are protected by the suite installed last: `Protection` is that suite
with its keys. As long as a suite is installed over one of its own kind (`SameKind`), the record
layer behaves in this way over any sequence of handshakes (`records_newest_suite`). An `EVP_AEAD`
suite over an `EVP_CIPHER` suite, or the other way round, leaves contexts in use.
-/

namespace VigorTls.Record

open Lib Option Prod

/-! ## One suite for a direction -/

/-- What protects the records of a direction. -/
inductive Protection where
  | null
  | aead (ctx : AeadCtx)
  | cipher (ctx : CipherCtx) (mac : MdCtx) (stream : Bool) (secret : Bytes)

/-- `EVP_CIPHER` suites are protected against a known IV. -/
def Protection.isCipher : Protection → Bool
  | .cipher .. => true
  | _ => false

/-- A direction: the suite, and the sequence number of the next record. -/
structure Guarded where
  protection : Protection := .null
  sequence : UInt64 := 0

section

variable (evp : Evp) (prf : KeyStream) (cfg : RecordConfig)

/-- The bytes of the key expansion from an offset on. -/
def expansion (c : SslCipher) (secrets : Secrets) (offset len : ℕ) : Bytes :=
  (List.range len).map fun i => prf c secrets (offset + i)

/-- The MAC secret, key and IV of a side, cut from the expansion, in which the client's come first
of each. -/
def suiteKeys (c : SslCipher) (secrets : Secrets) (client : Bool) (mac key iv : ℕ) :
    Bytes × Bytes × Bytes :=
  (expansion prf c secrets (if client then 0 else mac) mac,
    expansion prf c secrets (2 * mac + if client then 0 else key) key,
    expansion prf c secrets (2 * mac + 2 * key + if client then 0 else iv) iv)

/-- A suite with its keys, for the records that the client or the server writes. -/
def SslCipher.protection (c : SslCipher) (secrets : Secrets) (client is_read : Bool) :
    Option Protection :=
  if c.aead then
    c.evp_aead.map fun aead =>
      let (_, key, iv) := suiteKeys prf c secrets client 0 aead.key_length c.fixed_nonce_len
      .aead { aead := aead, key := key, fixed_nonce := iv, variable_nonce_len := 8,
              variable_nonce_in_record := c.variable_nonce_in_record,
              xor_fixed_nonce := c.chacha20poly1305, tag_len := aead.max_overhead }
  else
    c.evp.map fun (cipher, mac, mac_type, mac_size) =>
      let (mac_secret, key, iv) :=
        suiteKeys prf c secrets client mac_size cipher.key_length cipher.blockIvLen
      .cipher
        { cipher := cipher, key := key, iv := iv, encrypt := !is_read, used := [],
          mac_key := if cipher.aead && mac_secret ≠ [] then some mac_secret else none }
        { digest := if cipher.aead then none else mac.map (·, mac_type, mac_secret), used := [] }
        c.stream_mac mac_secret

/-- The bytes in front of the payload of a record. -/
def explicitIv (env : WriteEnv) (ds : CipherCtx) : Bytes :=
  if cfg.explicit_iv then
    match ds.cipher.mode with
    | .cbc => if ds.cipher.iv_length ≤ 1 then [] else (List.range ds.cipher.iv_length).map env.rand
    | .gcm => (List.range evpGcmTlsExplicitIvLen).map env.buf
    | .stream => []
  else []

/-- The MAC of a payload, and the sequence number after it. -/
def suiteMac (mac : MdCtx) (stream : Bool) (seq : UInt64) (type : ℕ) (payload : Bytes) :
    Bytes × MdCtx × UInt64 :=
  match mac.md with
  | some md =>
    if md.md_size ≠ 0 then
      let (m, mac) := tls1MacSend evp cfg stream mac seq type payload
      (m, mac, seq + 1)
    else ([], mac, seq)
  | none => ([], mac, seq)

/-- The fragment of a record that is written. -/
def Guarded.fragment (env : WriteEnv) (type : ℕ) (g : Guarded) (payload : Bytes) :
    Option Bytes × Guarded :=
  match g.protection with
  | .null => (some payload, g)
  | .aead ctx =>
    (aeadSend evp cfg ctx g.sequence type ((List.range ctx.eivlen).map env.buf ++ payload),
      { g with sequence := g.sequence + 1 })
  | .cipher ds mac stream secret =>
    let (m, mac, seq) := suiteMac evp cfg mac stream g.sequence type payload
    let (out, ds, seq) := cipherSend evp cfg ds seq type (explicitIv cfg env ds ++ payload ++ m)
    (out, ⟨.cipher ds mac stream secret, seq⟩)

def Guarded.opened (type : ℕ) (g : Guarded) (body : Bytes) : Opened × Guarded :=
  let r : Rec := ⟨type, body, body.length⟩
  match g.protection with
  | .null => (finishRecord cfg false r, g)
  | .aead ctx =>
    let (enc_err, r) := aeadReceive evp cfg ctx g.sequence r
    (if enc_err = 0 then .alert sslAdDecryptionFailed else finishRecord cfg (enc_err < 0) r,
      { g with sequence := g.sequence + 1 })
  | .cipher ds mac stream secret =>
    let mac_size := (mac.md.map EvpMd.md_size).getD 0
    let ((enc_err, r), ds, seq) := cipherReceive evp cfg ds mac_size g.sequence r
    if enc_err = 0 then (.alert sslAdDecryptionFailed, ⟨.cipher ds mac stream secret, seq⟩)
    else
      match mac.md with
      | some md =>
        let (o, mac, seq) :=
          checkMac evp cfg enc_err ds.cipher.mode stream secret mac md seq r
        (o, ⟨.cipher ds mac stream secret, seq⟩)
      | none => (finishRecord cfg (enc_err < 0) r, ⟨.cipher ds mac stream secret, seq⟩)

structure Guard where
  /-- The suite and the secrets that the last handshake has settled on. -/
  negotiated : Option (SslCipher × Secrets) := none
  read : Guarded := {}
  write : Guarded := {}
  need_empty_fragments : Bool := false
  empty_fragment_done : Bool := false

/-- A direction takes the negotiated suite. -/
def Guard.install (is_read : Bool) (a : Guard) : Guard :=
  match a.negotiated with
  | none => a
  | some (c, secrets) =>
    match c.protection prf secrets (cfg.server = is_read) is_read with
    | none => a
    | some p =>
      let a := { a with need_empty_fragments :=
        if cfg.empty_fragments then !c.no_empty_fragments else a.need_empty_fragments }
      if is_read then { a with read := ⟨p, 0⟩ } else { a with write := ⟨p, 0⟩ }

/-- The fragments for a payload. -/
def Guard.writes (first env : WriteEnv) (type : ℕ) (payload : Bytes) (a : Guard) :
    Option (List Bytes) × Guard :=
  if payload = [] then (some [], a)
  else if a.write.protection.isCipher && !a.empty_fragment_done then
    if a.need_empty_fragments && type = ssl3RtApplicationData then
      let (fragment, write) := a.write.fragment evp cfg first type []
      let a := { a with write := write }
      match fragment with
      | none => (none, a)
      | some fragment =>
        if fragment.length > ssl3RtSendMaxEncryptedOverhead then (none, a)
        else
          let a := { a with empty_fragment_done := true }
          let (out, write) := a.write.fragment evp cfg env type payload
          (out.map ([fragment, ·]), { a with write := write })
    else
      let a := { a with empty_fragment_done := true }
      let (out, write) := a.write.fragment evp cfg env type payload
      (out.map ([·]), { a with write := write })
  else
    let (out, write) := a.write.fragment evp cfg env type payload
    (out.map ([·]), { a with write := write })

def Guard.act (a : Guard) : Action → Guard
  | .negotiate cipher secrets => { a with negotiated := some (cipher, secrets) }
  | .changeCipherSpec is_read => a.install prf cfg is_read
  | .finish => a
  | .write first env type payload => (a.writes evp cfg first env type payload).2
  | .written => { a with empty_fragment_done := false }
  | .receive type body => { a with read := (a.read.opened evp cfg type body).2 }
  | .clear => {}

def Guard.seen (a : Guard) : Action → List Seen
  | .write first env type payload => [.written (a.writes evp cfg first env type payload).1]
  | .receive type body => [.opened (a.read.opened evp cfg type body).1]
  | _ => []

end

variable {evp : Evp} {prf : KeyStream} {cfg : RecordConfig}
  {d d' : Direction} {g : Guarded} {session : Bool}

/-- The contexts of a direction are those of one suite. -/
def Direction.Holds (d : Direction) : Protection → Prop
  | .null => d.aead_ctx = none ∧ d.enc_ctx = none ∧ d.hash = none
  | .aead ctx => d.aead_ctx = some ctx ∧ d.enc_ctx = none ∧ d.hash = none
  | .cipher ds mac stream secret => d.aead_ctx = none ∧ d.enc_ctx = some ds ∧ d.hash = some mac ∧
      d.mac_stream = stream ∧ d.mac_secret = secret

/-- The fields of a direction stand for a suite and a sequence number. -/
structure Represents (session : Bool) (d : Direction) (g : Guarded) : Prop where
  holds : d.Holds g.protection
  sequence : d.sequence = g.sequence
  session : g.protection ≠ .null → session = true

theorem Represents.null (h : d.Holds .null) (hseq : d.sequence = 0) : Represents session d {} :=
  ⟨h, hseq, absurd rfl⟩

theorem explicitIv_eq (cfg : RecordConfig) (env : WriteEnv) (ds : CipherCtx) (rest : Bytes) :
    (let input := (List.range (if cfg.explicit_iv then ds.eivlen else 0)).map env.buf ++ rest
      if ds.ivlen cfg > 1 then (List.range (ds.ivlen cfg)).map env.rand ++ input.drop (ds.ivlen cfg)
      else input) = explicitIv cfg env ds ++ rest := by
  unfold explicitIv CipherCtx.eivlen CipherCtx.ivlen
  cases cfg.explicit_iv <;> cases ds.cipher.mode <;> dsimp only
  · simp
  · simp
  · simp
  · simp
  · by_cases hiv : ds.cipher.iv_length ≤ 1
    · simp [hiv, Nat.not_lt.mpr hiv]
    · simp [hiv]
  · simp

section

variable {aead : Option AeadCtx} {ds : CipherCtx} {mac : MdCtx} {stream : Bool}
  {secret : Bytes} {seq : UInt64}

theorem eivlen_of_no_cipher :
    Direction.eivlen cfg ⟨aead, none, none, stream, secret, seq⟩ =
      (aead.map AeadCtx.eivlen).getD 0 := by
  unfold Direction.eivlen
  cases cfg.explicit_iv <;> cases aead <;> rfl

theorem eivlen_of_cipher : Direction.eivlen cfg ⟨none, some ds, some mac, stream, secret, seq⟩ =
    if cfg.explicit_iv then ds.eivlen else 0 := by
  unfold Direction.eivlen
  cases cfg.explicit_iv <;> rfl

theorem writeMac_of_no_cipher (type : ℕ) (payload : Bytes) :
    writeMac evp cfg session type ⟨aead, none, none, stream, secret, seq⟩ payload =
      ([], ⟨aead, none, none, stream, secret, seq⟩) := by
  cases session <;> rfl

theorem writeMac_of_cipher (type : ℕ) (payload : Bytes) :
    let r := suiteMac evp cfg mac stream seq type payload
    writeMac evp cfg true type ⟨none, some ds, some mac, stream, secret, seq⟩ payload =
      (r.1, ⟨none, some ds, some r.2.1, stream, secret, r.2.2⟩) := by
  have hmd : Direction.md ⟨none, some ds, some mac, stream, secret, seq⟩ = mac.md := rfl
  unfold writeMac suiteMac
  rw [hmd]
  cases mac.md with
  | none => rfl
  | some md =>
    dsimp only
    split_ifs <;> rfl

end

theorem writeFragment_represents (evp : Evp) (cfg : RecordConfig) (h : Represents session d g)
    (env : WriteEnv) (type : ℕ) (payload : Bytes) :
    let r := writeFragment evp cfg session env type d payload
    r.1 = (g.fragment evp cfg env type payload).1 ∧
      Represents session r.2 (g.fragment evp cfg env type payload).2 := by
  obtain ⟨p, seq⟩ := g
  obtain ⟨aead, enc, hash, mac_stream, mac_secret, sequence⟩ := d
  obtain ⟨hholds, hseq, hsession⟩ := h
  obtain rfl : sequence = seq := hseq
  unfold writeFragment
  cases p with
  | null =>
    obtain ⟨rfl, rfl, rfl⟩ : aead = none ∧ enc = none ∧ hash = none := hholds
    rw [eivlen_of_no_cipher, writeMac_of_no_cipher]
    exact ⟨by simp [tls1EncSend, Guarded.fragment], ⟨rfl, rfl, rfl⟩, rfl, hsession⟩
  | aead ctx =>
    obtain ⟨rfl, rfl, rfl⟩ : aead = some ctx ∧ enc = none ∧ hash = none := hholds
    rw [eivlen_of_no_cipher, writeMac_of_no_cipher]
    exact ⟨by simp [tls1EncSend, Guarded.fragment], ⟨rfl, rfl, rfl⟩, rfl, hsession⟩
  | cipher ds mac stream secret =>
    obtain ⟨rfl, rfl, rfl, rfl, rfl⟩ : aead = none ∧ enc = some ds ∧ hash = some mac ∧
      mac_stream = stream ∧ mac_secret = secret := hholds
    obtain rfl := hsession (nomatch ·)
    rw [eivlen_of_cipher, writeMac_of_cipher]
    have hiv := explicitIv_eq cfg env ds
    simp only [tls1EncSend, Guarded.fragment, List.append_assoc, hiv, if_true]
    exact ⟨trivial, ⟨rfl, rfl, rfl, rfl, rfl⟩, rfl, fun _ => rfl⟩

theorem openFragment_represents (evp : Evp) (cfg : RecordConfig) (h : Represents session d g)
    (type : ℕ) (body : Bytes) :
    let t := openFragment evp cfg session d type body
    t.1 = (g.opened evp cfg type body).1 ∧
      Represents session t.2 (g.opened evp cfg type body).2 := by
  obtain ⟨p, seq⟩ := g
  obtain ⟨aead, enc, hash, mac_stream, mac_secret, sequence⟩ := d
  obtain ⟨hholds, hseq, hsession⟩ := h
  obtain rfl : sequence = seq := hseq
  unfold openFragment
  cases p with
  | null =>
    obtain ⟨rfl, rfl, rfl⟩ : aead = none ∧ enc = none ∧ hash = none := hholds
    cases session <;> exact ⟨rfl, ⟨rfl, rfl, rfl⟩, rfl, hsession⟩
  | aead ctx =>
    obtain ⟨rfl, rfl, rfl⟩ : aead = some ctx ∧ enc = none ∧ hash = none := hholds
    obtain rfl := hsession (nomatch ·)
    have hreceive r :
        tls1EncReceive evp cfg true ⟨some ctx, none, none, mac_stream, mac_secret, sequence⟩ r =
          (aeadReceive evp cfg ctx sequence r,
            ⟨some ctx, none, none, mac_stream, mac_secret, sequence + 1⟩) := rfl
    rw [hreceive]
    unfold Guarded.opened
    dsimp only
    split_ifs with herr <;> exact ⟨rfl, ⟨rfl, rfl, rfl⟩, rfl, hsession⟩
  | cipher ds mac stream secret =>
    obtain ⟨rfl, rfl, rfl, rfl, rfl⟩ : aead = none ∧ enc = some ds ∧ hash = some mac ∧
      mac_stream = stream ∧ mac_secret = secret := hholds
    obtain rfl := hsession (nomatch ·)
    have hmd ds seq :
        Direction.md ⟨none, some ds, some mac, mac_stream, mac_secret, seq⟩ = mac.md := rfl
    simp only [tls1EncReceive, Guarded.opened, hmd]
    split_ifs
    · exact ⟨rfl, ⟨rfl, rfl, rfl, rfl, rfl⟩, rfl, fun _ => rfl⟩
    · cases mac.md <;> exact ⟨rfl, ⟨rfl, rfl, rfl, rfl, rfl⟩, rfl, fun _ => rfl⟩

variable {s s' : RecordLayer} {a : Guard} {c : SslCipher} {secrets : Secrets} {tmp : Tmp}
  {is_read : Bool}

theorem partitionKeyBlock_eq (client : Bool) (mac key iv : ℕ) :
    partitionKeyBlock client mac key iv
        ((List.range ((mac + key + iv) * 2)).map (prf c secrets)) =
      suiteKeys prf c secrets client mac key iv := by
  have hcut (i offset len) (hi : i = offset) (h : offset + len ≤ (mac + key + iv) * 2) :
      (((List.range ((mac + key + iv) * 2)).map (prf c secrets)).drop i).take len =
        expansion prf c secrets offset len := by
    subst hi
    apply List.ext_getElem
    · simp [expansion]
      omega
    · simp [expansion]
  unfold partitionKeyBlock suiteKeys
  simp only [List.drop_drop]
  cases client
  · refine Prod.ext (hcut _ mac mac rfl ?_) (Prod.ext (hcut _ (2 * mac + key) key ?_ ?_)
      (hcut _ (2 * mac + 2 * key + iv) iv ?_ ?_)) <;> omega
  · refine Prod.ext (hcut 0 0 mac rfl ?_) (Prod.ext (hcut _ (2 * mac + 0) key ?_ ?_)
      (hcut _ (2 * mac + 2 * key + 0) iv ?_ ?_)) <;> omega

/-- What `tls1_setup_key_block` leaves for a suite and its secrets. -/
structure Pending (prf : KeyStream) (c : SslCipher) (secrets : Secrets) (tmp : Tmp) :
    Prop where
  new_cipher : tmp.new_cipher = some c
  algorithms : ∃ key_len iv_len, setupAlgorithms c tmp = some (tmp, key_len, iv_len) ∧
    tmp.key_block = (List.range ((tmp.new_mac_secret_size + key_len + iv_len) * 2)).map
      (prf c secrets)

/-- A suite is installed over one of its own kind. -/
def SameKind (d : Direction) (c : SslCipher) : Prop :=
  if c.aead then d.enc_ctx = none else d.aead_ctx = none

theorem Direction.Holds.hash_none {p : Protection} (h : d.Holds p) (henc : d.enc_ctx = none) :
    d.hash = none := by
  cases p with
  | null => exact h.2.2
  | aead => exact h.2.2
  | cipher => exact absurd (henc.symm.trans h.2.1) (nomatch ·)

theorem Pending.aead (h : Pending prf c secrets tmp) (hc : c.aead = true) :
    ∃ aead, c.evp_aead = some aead ∧ tmp.new_aead = some aead ∧ tmp.new_mac_secret_size = 0 ∧
      tmp.key_block =
        (List.range ((0 + aead.key_length + c.fixed_nonce_len) * 2)).map (prf c secrets) := by
  obtain ⟨-, key_len, iv_len, halg, hblock⟩ := h
  rw [setupAlgorithms, if_pos hc] at halg
  obtain ⟨aead, hevp, hpair⟩ := map_eq_some_iff.mp halg
  obtain ⟨htmp, hlens⟩ := mk.inj hpair
  cases hlens
  have hsize : tmp.new_mac_secret_size = 0 := by rw [← htmp]
  exact ⟨aead, hevp, by rw [← htmp], hsize, hsize ▸ hblock⟩

theorem Pending.cipher (h : Pending prf c secrets tmp) (hc : c.aead = false) :
    ∃ cipher, c.evp = some (cipher, tmp.new_hash, tmp.new_mac_pkey_type, tmp.new_mac_secret_size) ∧
      tmp.new_aead = none ∧ tmp.new_sym_enc = some cipher ∧
      tmp.key_block = (List.range
        ((tmp.new_mac_secret_size + cipher.key_length + cipher.blockIvLen) * 2)).map
          (prf c secrets) := by
  obtain ⟨-, key_len, iv_len, halg, hblock⟩ := h
  rw [setupAlgorithms, if_neg (Bool.eq_false_iff.mp hc)] at halg
  obtain ⟨⟨cipher, mac, mac_type, mac_size⟩, hevp, hpair⟩ := map_eq_some_iff.mp halg
  obtain ⟨htmp, hlens⟩ := mk.inj hpair
  cases hlens
  have hhash : tmp.new_hash = mac := by rw [← htmp]
  have htype : tmp.new_mac_pkey_type = mac_type := by rw [← htmp]
  have hsize : tmp.new_mac_secret_size = mac_size := by rw [← htmp]
  exact ⟨cipher, by rw [hhash, htype, hsize, hevp], by rw [← htmp], by rw [← htmp], hblock⟩

theorem tls1ChangeCipherStateCipher_holds (hd : d.aead_ctx = none) (cipher : EvpCipher)
    (mac : Option EvpMd) (mac_type : ℕ) (key iv : Bytes) :
    (tls1ChangeCipherStateCipher is_read c cipher mac mac_type d.mac_secret key iv d).Holds
        (.cipher
          { cipher := cipher, key := key, iv := iv, encrypt := !is_read, used := [],
            mac_key := if cipher.aead && d.mac_secret ≠ [] then some d.mac_secret else none }
          { digest := if cipher.aead then none else mac.map (·, mac_type, d.mac_secret),
            used := [] }
          c.stream_mac d.mac_secret) := by
  unfold tls1ChangeCipherStateCipher
  cases hflag : cipher.aead with
  | true => by_cases hsecret : d.mac_secret = [] <;> simp [Direction.Holds, hd, hsecret]
  | false => simp [Direction.Holds, hd]

theorem tls1ChangeCipherState_holds {p : Protection} (hp : Pending prf c secrets tmp)
    (hd : d.Holds p) (hkind : SameKind d c)
    (h : tls1ChangeCipherState cfg is_read tmp d = some d') :
    ∃ q, c.protection prf secrets (cfg.server = is_read) is_read = some q ∧ d'.Holds q ∧
      d'.sequence = 0 := by
  unfold tls1ChangeCipherState at h
  unfold SslCipher.protection
  unfold SameKind at hkind
  rw [hp.new_cipher] at h
  cases hc : c.aead with
  | true =>
    obtain ⟨aead, hevp, hnew, hsize, hblock⟩ := hp.aead hc
    rw [if_pos hc] at hkind
    rw [hnew, hsize, hblock] at h
    dsimp only at h
    rw [partitionKeyBlock_eq] at h
    rw [hevp]
    refine ⟨_, rfl, ?_⟩
    unfold tls1ChangeCipherStateAead at h
    dsimp only at h
    split_ifs at h <;> cases h <;> exact ⟨⟨rfl, hkind, hd.hash_none hkind⟩, rfl⟩
  | false =>
    obtain ⟨cipher, hevp, haead, hsym, hblock⟩ := hp.cipher hc
    rw [if_neg (Bool.eq_false_iff.mp hc)] at hkind
    rw [haead, hsym, hblock] at h
    dsimp only at h
    rw [partitionKeyBlock_eq] at h
    split_ifs at h with hlen
    cases h
    rw [hevp]
    refine ⟨_, rfl, ?_, ?_⟩
    · exact tls1ChangeCipherStateCipher_holds (d := { d with sequence := 0, mac_secret := _ }) hkind
        cipher tmp.new_hash tmp.new_mac_pkey_type _ _
    · unfold tls1ChangeCipherStateCipher
      cases cipher.aead <;> rfl

theorem setupAlgorithms_again {tmp' : Tmp} {key_len iv_len : ℕ} (block : Bytes)
    (h : setupAlgorithms c tmp = some (tmp', key_len, iv_len)) :
    tmp'.new_cipher = tmp.new_cipher ∧
      setupAlgorithms c { tmp' with key_block := block } =
        some ({ tmp' with key_block := block }, key_len, iv_len) := by
  unfold setupAlgorithms at h ⊢
  split_ifs at h ⊢ with hc
  · obtain ⟨aead, hevp, hpair⟩ := map_eq_some_iff.mp h
    obtain ⟨rfl, hlens⟩ := mk.inj hpair
    cases hlens
    exact ⟨rfl, by rw [hevp]; rfl⟩
  · obtain ⟨⟨cipher, mac, mac_type, mac_size⟩, hevp, hpair⟩ := map_eq_some_iff.mp h
    obtain ⟨rfl, hlens⟩ := mk.inj hpair
    cases hlens
    exact ⟨rfl, by rw [hevp]; rfl⟩

theorem tls1SetupKeyBlock_pending (hnew : s.cipher = s.tmp.new_cipher)
    (hpending : s.tmp.key_block ≠ [] → ∃ c, Pending prf c s.secrets s.tmp ∧
      (cfg.empty_fragments = true → s.need_empty_fragments = !c.no_empty_fragments))
    (h : tls1SetupKeyBlock prf cfg s = some s') :
    ∃ c, s.tmp.new_cipher = some c ∧ Pending prf c s.secrets s'.tmp ∧ s' = { s with
      tmp := s'.tmp,
      need_empty_fragments :=
        if cfg.empty_fragments then !c.no_empty_fragments else s.need_empty_fragments } := by
  unfold tls1SetupKeyBlock at h
  by_cases hblock : s.tmp.key_block = []
  · rw [if_neg (not_not.mpr hblock)] at h
    obtain ⟨c, hc, h⟩ := bind_eq_some_iff.mp h
    obtain ⟨⟨tmp, key_len, iv_len⟩, halg, h⟩ := bind_eq_some_iff.mp h
    cases h
    obtain ⟨hcipher, hagain⟩ := setupAlgorithms_again
      ((List.range ((tmp.new_mac_secret_size + key_len + iv_len) * 2)).map (prf c s.secrets)) halg
    have hc := hnew.symm.trans hc
    exact ⟨c, hc, ⟨hcipher.trans hc, key_len, iv_len, hagain, rfl⟩, rfl⟩
  · rw [if_pos hblock] at h
    cases h
    obtain ⟨c, hp, hneed⟩ := hpending hblock
    refine ⟨c, hp.new_cipher, hp, ?_⟩
    split_ifs with hempty
    · rw [← hneed hempty]
    · rfl

/-- The fields of the record layer stand for a connection that has one suite for each direction. -/
structure Simulates (prf : KeyStream) (cfg : RecordConfig) (s : RecordLayer)
    (a : Guard) : Prop where
  read : Represents s.session s.read a.read
  write : Represents s.session s.write a.write
  need : s.need_empty_fragments = a.need_empty_fragments
  done : s.empty_fragment_done = a.empty_fragment_done
  cipher : s.tmp.new_cipher = a.negotiated.map fst
  secrets : ∀ n ∈ a.negotiated, s.secrets = n.2 ∧ s.session = true
  pending : s.tmp.key_block ≠ [] → ∃ c, Pending prf c s.secrets s.tmp ∧
    (cfg.empty_fragments = true → s.need_empty_fragments = !c.no_empty_fragments)

/-- A handshake begins when the keys of the last have been cleaned up, and each change of the cipher
state succeeds. -/
def Succeeds (prf : KeyStream) (cfg : RecordConfig) (s : RecordLayer) :
    Action → Prop
  | .negotiate .. => s.tmp.key_block = []
  | .changeCipherSpec is_read => (changeCipherSpec prf cfg is_read s).isSome
  | _ => True

def InstallsSameKind (s : RecordLayer) : Action → Prop
  | .changeCipherSpec is_read =>
    ∀ c ∈ s.tmp.new_cipher, SameKind (if is_read then s.read else s.write) c
  | _ => True

instance : ∀ action, Decidable (Succeeds prf cfg s action)
  | .negotiate .. => inferInstanceAs (Decidable (s.tmp.key_block = []))
  | .changeCipherSpec is_read =>
    inferInstanceAs (Decidable ((changeCipherSpec prf cfg is_read s).isSome = true))
  | .finish | .write .. | .written | .receive .. | .clear => .isTrue trivial

instance : Decidable (SameKind d c) := by
  unfold SameKind
  infer_instance

instance : ∀ action, Decidable (InstallsSameKind s action)
  | .changeCipherSpec is_read => inferInstanceAs
      (Decidable (∀ c ∈ s.tmp.new_cipher, SameKind (if is_read then s.read else s.write) c))
  | .negotiate .. | .finish | .write .. | .written | .receive .. | .clear => .isTrue trivial

theorem changeCipherSpec_simulates (h : Simulates prf cfg s a)
    (hsome : (changeCipherSpec prf cfg is_read s).isSome)
    (hkind : ∀ c ∈ s.tmp.new_cipher, SameKind (if is_read then s.read else s.write) c) :
    Simulates prf cfg ((changeCipherSpec prf cfg is_read s).getD s)
      (a.install prf cfg is_read) := by
  obtain ⟨s', hs'⟩ := isSome_iff_exists.mp hsome
  rw [hs']
  obtain ⟨s1, hsetup, h1⟩ := bind_eq_some_iff.mp hs'
  obtain ⟨d, hd, h1⟩ := bind_eq_some_iff.mp h1
  cases h1
  obtain ⟨c, hc, hp, heq⟩ :=
    tls1SetupKeyBlock_pending (s := { s with cipher := s.tmp.new_cipher }) rfl h.pending hsetup
  -- The suite whose keys are set up is the one that has been negotiated.
  obtain ⟨⟨c', secrets⟩, hneg, rfl⟩ := map_eq_some_iff.mp (h.cipher.symm.trans hc)
  obtain ⟨hsecrets, hsession⟩ := h.secrets _ hneg
  have hread : s1.read = s.read := by rw [heq]
  have hwrite : s1.write = s.write := by rw [heq]
  obtain ⟨p, hholds⟩ : ∃ p, (if is_read then s1.read else s1.write).Holds p := by
    cases is_read
    · exact ⟨_, hwrite ▸ h.write.holds⟩
    · exact ⟨_, hread ▸ h.read.holds⟩
  have hkind : SameKind (if is_read then s1.read else s1.write) c' := by
    rw [hread, hwrite]
    exact hkind _ hc
  obtain ⟨q, hq, hdq, hseq⟩ := tls1ChangeCipherState_holds hp hholds hkind hd
  have hnew : Represents s.session d ⟨q, 0⟩ := ⟨hdq, hseq, fun _ => hsession⟩
  have hinstall : a.install prf cfg is_read = (let a := { a with need_empty_fragments :=
        if cfg.empty_fragments then !c'.no_empty_fragments else a.need_empty_fragments }
      if is_read then { a with read := ⟨q, 0⟩ } else { a with write := ⟨q, 0⟩ }) := by
    unfold Guard.install
    rw [hneg]
    dsimp only at hsecrets hq ⊢
    rw [← hsecrets, hq]
  have hsimulates {r w : Direction} {gr gw : Guarded} (hr : Represents s.session r gr)
      (hw : Represents s.session w gw) :
      Simulates prf cfg { s1 with read := r, write := w } { a with
        read := gr, write := gw,
        need_empty_fragments :=
          if cfg.empty_fragments then !c'.no_empty_fragments else a.need_empty_fragments } := by
    refine ⟨?_, ?_, ?_, ?_, ?_, ?_, fun _ => ⟨c', ?_, fun hempty => ?_⟩⟩
    · exact (show s1.session = s.session by rw [heq]) ▸ hr
    · exact (show s1.session = s.session by rw [heq]) ▸ hw
    · rw [heq, ← h.need]
    · rw [heq]
      exact h.done
    · rw [hneg]
      exact hp.new_cipher
    · rw [heq]
      exact h.secrets
    · rw [heq]
      exact hp
    · rw [heq]
      exact if_pos hempty
  rw [hinstall]
  cases is_read
  · exact hsimulates (hread ▸ h.read) hnew
  · exact hsimulates hnew (hwrite ▸ h.write)

theorem doSsl3Write_simulates (evp : Evp) (h : Simulates prf cfg s a) (first env : WriteEnv)
    (type : ℕ) (payload : Bytes) :
    let r := doSsl3Write evp cfg first env type payload s
    r.1 =
        (a.writes evp cfg first env type payload).1 ∧
      Simulates prf cfg r.2
        (a.writes evp cfg first env type payload).2 := by
  have hcipher : s.write.enc_ctx.isSome = a.write.protection.isCipher := by
    have hholds := h.write.holds
    cases hp : a.write.protection <;> rw [hp] at hholds <;> simp [hholds.2.1, Protection.isCipher]
  have hwith {w : Direction} {gw : Guarded} done hw :
      Simulates prf cfg { s with write := w, empty_fragment_done := done }
        { a with write := gw, empty_fragment_done := done } :=
    ⟨h.read, hw, h.need, rfl, h.cipher, h.secrets, h.pending⟩
  obtain ⟨hout, hrep⟩ := writeFragment_represents evp cfg h.write env type payload
  have hdone : (s.write.enc_ctx.isSome && !s.empty_fragment_done) =
      (a.write.protection.isCipher && !a.empty_fragment_done) := by rw [hcipher, h.done]
  have hneeds : (s.need_empty_fragments && type = ssl3RtApplicationData) =
      (a.need_empty_fragments && type = ssl3RtApplicationData) := by rw [h.need]
  unfold doSsl3Write Guard.writes
  rw [hdone, hneeds]
  split_ifs
  · exact ⟨rfl, h⟩
  · -- Two fragments; the second one is written with what the first one leaves.
    obtain ⟨hout1, hrep1⟩ := writeFragment_represents evp cfg h.write first type []
    obtain ⟨hout2, hrep2⟩ := writeFragment_represents evp cfg hrep1 env type payload
    dsimp only
    rw [hout1]
    cases (a.write.fragment evp cfg first type []).1 with
    | none => exact ⟨rfl, h.done ▸ hwith _ hrep1⟩
    | some fragment =>
      dsimp only
      split_ifs
      · exact ⟨rfl, h.done ▸ hwith _ hrep1⟩
      · exact ⟨congrArg (Option.map ([fragment, ·])) hout2, hwith true hrep2⟩
  · exact ⟨congrArg (Option.map ([·])) hout, hwith true hrep⟩
  · exact ⟨congrArg (Option.map ([·])) hout, h.done ▸ hwith _ hrep⟩

theorem act_simulates (action : Action) (h : Simulates prf cfg s a)
    (hcond : Succeeds prf cfg s action ∧ InstallsSameKind s action) :
    Simulates prf cfg (act evp prf cfg s action) (a.act evp prf cfg action) ∧
      seen evp cfg s action = a.seen evp cfg action := by
  cases action with
  | negotiate cipher secrets =>
    refine ⟨⟨⟨h.read.holds, h.read.sequence, fun _ => rfl⟩,
      ⟨h.write.holds, h.write.sequence, fun _ => rfl⟩, h.need, h.done, rfl, ?_, ?_⟩, rfl⟩
    · rintro n hn
      cases hn
      exact ⟨rfl, rfl⟩
    · exact fun hblock => absurd hcond.1 hblock
  | changeCipherSpec is_read => exact ⟨changeCipherSpec_simulates h hcond.1 hcond.2, rfl⟩
  | finish =>
    exact ⟨⟨h.read, h.write, h.need, h.done, h.cipher, h.secrets, absurd rfl⟩, rfl⟩
  | write first env type payload =>
    obtain ⟨hout, hsim⟩ := doSsl3Write_simulates evp h first env type payload
    exact ⟨hsim, congrArg (fun out => [Seen.written out]) hout⟩
  | written => exact ⟨⟨h.read, h.write, h.need, rfl, h.cipher, h.secrets, h.pending⟩, rfl⟩
  | receive type body =>
    obtain ⟨hout, hrep⟩ := openFragment_represents evp cfg h.read type body
    exact ⟨⟨hrep, h.write, h.need, h.done, h.cipher, h.secrets, h.pending⟩,
      congrArg (fun out => [Seen.opened out]) hout⟩
  | clear =>
    exact ⟨⟨.null ⟨rfl, rfl, rfl⟩ rfl, .null ⟨rfl, rfl, rfl⟩ rfl, rfl, rfl, rfl,
      fun _ h => (nomatch h), absurd rfl⟩, rfl⟩

/-- Over every sequence of successful handshakes in which a suite is only installed over one of its
own kind, records are protected and opened with the suite installed last for their direction alone.
-/
theorem records_newest_suite (evp : Evp) (prf : KeyStream)
    (cfg : RecordConfig) (actions : List Action)
    (h : Along (act evp prf cfg)
      (fun s action => Succeeds prf cfg s action ∧ InstallsSameKind s action) {} actions) :
    trace (act evp prf cfg) (seen evp cfg) {} actions =
      trace (Guard.act evp prf cfg) (Guard.seen evp cfg) {} actions := by
  have hstart : Simulates prf cfg {} {} :=
    ⟨.null ⟨rfl, rfl, rfl⟩ rfl, .null ⟨rfl, rfl, rfl⟩ rfl, rfl, rfl, rfl, fun _ h => (nomatch h),
      absurd rfl⟩
  exact (run_simulation (fun s a action hsim hcond => act_simulates action hsim hcond)
    actions {} {} hstart h).2

/-- Primitives that show which context they are called with. -/
def Evp.show : Evp where
  aeadSeal aead key _ input _ := some (.ofNat aead.nid :: key ++ input)
  aeadOpen _ _ _ input _ := some input
  cipher ctx input := some (.ofNat ctx.cipher.nid :: ctx.key ++ input)
  aad _ _ := 0
  digestSign ctx _ := (ctx.digest.map fun (_, _, key) => key).getD []
  cbcDigestRecord _ _ _ _ _ secret := secret

def showKeys (c : SslCipher) (_ : Secrets) (i : ℕ) : UInt8 := .ofNat (c.id + i)

def tls12Client : RecordConfig :=
  { server := false, version := 0x0303, explicit_iv := true, empty_fragments := false, extra := 0 }

/-- An `EVP_AEAD` suite, with short keys. -/
def aeadSuite (id : ℕ) : SslCipher :=
  { id := id, aead := true, variable_nonce_in_record := true, fixed_nonce_len := 4,
    chacha20poly1305 := false, stream_mac := false, no_empty_fragments := false,
    evp_aead := some ⟨0xae, 2, 12, 16⟩, evp := none }

/-- An `EVP_CIPHER` suite in CBC mode, with short keys. -/
def cbcSuite (id : ℕ) : SslCipher :=
  { id := id, aead := false, variable_nonce_in_record := false, fixed_nonce_len := 0,
    chacha20poly1305 := false, stream_mac := false, no_empty_fragments := false, evp_aead := none,
    evp := some (⟨0xcb, .cbc, 2, 16, 16, false⟩, some ⟨64, 2, true⟩, 855, 2) }

/-- Two handshakes, and a record that is written after them. -/
def renegotiation (first second : SslCipher) : List Action :=
  [.negotiate first [], .changeCipherSpec false, .changeCipherSpec true, .finish,
    .negotiate second [], .changeCipherSpec false, .changeCipherSpec true, .finish,
    .write ⟨fun _ => 0, fun _ => 0⟩ ⟨fun _ => 0, fun _ => 0⟩ 23 [7]]

/-- Between suites of one kind, the record has the MAC and the cipher of the second one. -/
theorem records_newest_suite_cbc :
    trace (act .show showKeys tls12Client) (seen .show tls12Client) {}
        (renegotiation (cbcSuite 32) (cbcSuite 64)) =
      trace (Guard.act .show showKeys tls12Client) (Guard.seen .show tls12Client) {}
        (renegotiation (cbcSuite 32) (cbcSuite 64)) :=
  records_newest_suite .show showKeys tls12Client _ (by decide +kernel)

/-- After an `EVP_AEAD` suite, a record of an `EVP_CIPHER` suite is sealed with the key of the first
suite; after an `EVP_CIPHER` suite, one of an `EVP_AEAD` suite carries a MAC of the first suite. -/
theorem records_newest_suite_mixed :
    let succeeds := Along (act .show showKeys tls12Client) (Succeeds showKeys tls12Client) {}
    let records := trace (act .show showKeys tls12Client) (seen .show tls12Client) {}
    let newest := trace (Guard.act .show showKeys tls12Client) (Guard.seen .show tls12Client) {}
    let toCbc := renegotiation (aeadSuite 32) (cbcSuite 64)
    let toAead := renegotiation (cbcSuite 32) (aeadSuite 64)
    succeeds toCbc ∧
      records toCbc = [.written (some [[0, 0, 0, 0, 0, 0, 0, 1, 0xae, 32, 33,
        0, 0, 0, 0, 0, 0, 0, 0, 7, 64, 65]])] ∧
      newest toCbc = [.written (some [[0xcb, 68, 69, 0, 0, 0, 0, 0, 0, 0, 0, 0, 0, 0, 0, 0, 0,
        0, 0, 7, 64, 65, 12, 12, 12, 12, 12, 12, 12, 12, 12, 12, 12, 12, 12]])] ∧
    succeeds toAead ∧
      records toAead = [.written (some [[0, 0, 0, 0, 0, 0, 0, 1, 0xae, 64, 65,
        0, 0, 0, 0, 0, 0, 0, 0, 7, 32, 33]])] ∧
      newest toAead = [.written (some [[0, 0, 0, 0, 0, 0, 0, 0, 0xae, 64, 65, 7]])] := by
  decide +kernel

end VigorTls.Record
