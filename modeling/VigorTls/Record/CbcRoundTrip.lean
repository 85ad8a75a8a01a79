import VigorTls.Lib.CbcMode
import VigorTls.Record.CbcSpec
import VigorTls.Record.DigestRecord
import VigorTls.Record.Protection

/-!
# Records under a CBC suite come back

What one side writes under a CBC suite the other side reads, for every block cipher and every
compression function of the digest: `tls1_enc` undoes its encryption (`cipherReceive_eq`), and
`ssl3_get_record` finds the MAC where it is (`checkMac_eq`). The two sides stay in step
(`InSync.record`, `InSync.transmit`), and are so after any handshakes that ended in one suite with
one set of secrets (`connections_transmit`).
-/

namespace VigorTls.Record

open Lib IteratedHash BlockCipher List UInt8 Nat Option

section

variable (B : BlockCipher) {d : CbcDigest} (C : Compression d)

/-- The block that the next one is combined with. -/
def CipherCtx.chainIv (ds : CipherCtx) : Bytes :=
  ds.used.foldl (fun iv input => B.cbcIv iv
    (if ds.encrypt then B.cbcEncrypt ds.key iv (input.length / B.block_size) input else input))
    ds.iv

/-- The primitives with a block cipher in CBC mode, HMAC, and `ssl3_cbc_digest_record`. -/
def Evp.withCbc (evp : Evp) : Evp :=
  { evp with
    cipher := fun ds input =>
      let n := input.length / B.block_size
      some (if ds.encrypt then B.cbcEncrypt ds.key (ds.chainIv B) n input
        else B.cbcDecrypt ds.key (ds.chainIv B) n input)
    digestSign := fun ctx input =>
      match ctx.digest with
      | some (_, _, key) => C.hash.hmac key input
      | none => []
    cbcDigestRecord :=
      fun _ header data data_plus_mac_size data_plus_mac_plus_padding_size secret =>
        (ssl3CbcDigestRecord header data data_plus_mac_size data_plus_mac_plus_padding_size C
          secret).getD [] }

end

/-- The contexts of the two sides: one cipher, one key, and the same block to go on with. -/
structure CipherPair (B : BlockCipher) (dw dr : CipherCtx) : Prop where
  cipher : dw.cipher = dr.cipher
  mode : dr.cipher.mode = .cbc
  aead : dr.cipher.aead = false
  block_size : dr.cipher.block_size = B.block_size
  iv_length : dr.cipher.iv_length = B.block_size
  key : dw.key = dr.key
  encrypt : dw.encrypt = true
  decrypt : dr.encrypt = false
  iv : dw.chainIv B = dr.chainIv B
  length_iv : (dr.chainIv B).length = B.block_size

structure MacPair (d : CbcDigest) (secret : Bytes) (md : EvpMd) (hw hr : MdCtx) : Prop where
  write : ∃ mac_type, hw.digest = some (md, mac_type, secret)
  read : ∃ mac_type, hr.digest = some (md, mac_type, secret)
  md_size : md.md_size = d.md_size
  cbc_supported : md.cbc_supported = true
  secret : secret.length ≤ 64

/-- The two sides of a direction under a CBC suite. -/
def InSync (B : BlockCipher) (d : CbcDigest) (gw gr : Guarded) : Prop :=
  ∃ dw dr hw hr md secret secret' seq, gw = ⟨.cipher dw hw false secret', seq⟩ ∧
    gr = ⟨.cipher dr hr false secret, seq⟩ ∧ CipherPair B dw dr ∧ MacPair d secret md hw hr

section

variable {B : BlockCipher} {d : CbcDigest} {C : Compression d} {evp : Evp} {cfg : RecordConfig}
  {dw dr : CipherCtx} {hw hr : MdCtx} {md : EvpMd} {secret : Bytes}

def recordMac (C : Compression d) (cfg : RecordConfig) (secret : Bytes) (seq : UInt64)
    (type : ℕ) (payload : Bytes) : Bytes :=
  C.hash.hmac secret (recordHeader cfg.version seq type payload.length ++ payload)

theorem suiteMac_eq (hm : MacPair d secret md hw hr) (hpos : 0 < d.md_size) (seq : UInt64)
    (type : ℕ) (payload : Bytes) :
    suiteMac (evp.withCbc B C) cfg hw false seq type payload =
      (recordMac C cfg secret seq type payload, hw, seq + 1) := by
  obtain ⟨mac_type, hdigest⟩ := hm.write
  have hmd : hw.md = some md := by rw [MdCtx.md, hdigest]; rfl
  have hsize : md.md_size ≠ 0 := by rw [hm.md_size]; omega
  simp only [suiteMac, hmd, if_pos hsize, tls1MacSend, digestWith, Evp.withCbc, hdigest]
  rfl

/-- What is encrypted: the explicit IV, the payload, the MAC and the padding. -/
def paddedRecord (bs : ℕ) (input : Bytes) : Bytes :=
  input ++ replicate (bs - input.length % bs) (.ofNat (bs - input.length % bs - 1))

theorem length_paddedRecord {bs : ℕ} (hbs : 0 < bs) (input : Bytes) :
    (paddedRecord bs input).length = (input.length / bs + 1) * bs := by
  have hdiv := div_add_mod input.length bs
  have hmod := mod_lt input.length hbs
  rw [paddedRecord, length_append, length_replicate, succ_mul, Nat.mul_comm]
  omega

section

variable (hc : CipherPair B dw dr)

include hc

theorem cipherSend_eq (hbs : B.block_size ≠ 1) (seq : UInt64) (type : ℕ) (input : Bytes) :
    cipherSend (evp.withCbc B C) cfg dw seq type input =
      (some (B.cbcEncrypt dr.key (dr.chainIv B) (input.length / B.block_size + 1)
          (paddedRecord B.block_size input)),
        { dw with used := dw.used ++ [paddedRecord B.block_size input] }, seq) := by
  have haead : ¬ dw.cipher.aead = true := by rw [hc.cipher, hc.aead]; exact Bool.false_ne_true
  have hsize : dw.cipher.block_size = B.block_size := by rw [hc.cipher, hc.block_size]
  have hn : (paddedRecord B.block_size input).length / B.block_size =
      input.length / B.block_size + 1 := by
    rw [length_paddedRecord B.block_pos, Nat.mul_div_cancel _ B.block_pos]
  rw [cipherSend, if_neg haead]
  simp only [hsize, if_pos hbs]
  rw [← paddedRecord]
  simp only [Evp.withCbc, hn, hc.encrypt, if_true, hc.key, hc.iv]

omit hc in
theorem getD_padding {rest : Bytes} {i t : ℕ} (ht : t < i) :
    (rest ++ replicate i (ofNat (i - 1))).getD (rest.length + i - 1 - t) 0 =
      ofNat (i - 1) := by
  rw [getD_append_right _ _ _ _ (by omega), getD_eq_getElem _ _ (by
    rw [length_replicate]
    omega), getElem_replicate]

omit hc in
theorem paddingAccepted_replicate {rest : Bytes} {i mac_size : ℕ} (hi : 0 < i) (hi' : i ≤ 256)
    (hmac : mac_size ≤ rest.length) :
    PaddingAccepted (rest ++ replicate i (.ofNat (i - 1))) (rest.length + i) mac_size := by
  have hlast := @getD_padding rest i 0 hi
  have hnat : (ofNat (i - 1)).toNat = i - 1 :=
    toNat_ofNat_of_lt' (show i - 1 < 2 ^ 8 by omega)
  rw [Nat.sub_zero] at hlast
  rw [PaddingAccepted, hlast]
  exact ⟨by omega, fun t _ ht => getD_padding (by omega)⟩

theorem cipherReceive_eq (hbs : B.block_size ≠ 1)
    (hbs' : B.block_size ≤ 256) {mac_size : ℕ} (seq : UInt64) (type : ℕ) {iv rest : Bytes}
    (hiv : iv.length = if cfg.explicit_iv then B.block_size else 0) (hrest : mac_size ≤ rest.length)
    (hlen : rest.length < 2 ^ 30) : let i := B.block_size - (iv ++ rest).length % B.block_size
    let body := B.cbcEncrypt dr.key (dr.chainIv B) ((iv ++ rest).length / B.block_size + 1)
      (paddedRecord B.block_size (iv ++ rest))
    cipherReceive (evp.withCbc B C) cfg dr mac_size seq ⟨type, body, body.length⟩ =
      ((1, ⟨type ||| i <<< 8, rest ++ replicate i (.ofNat (i - 1)), rest.length⟩),
        { dr with used := dr.used ++ [body] }, seq) := by
  intro i body
  have hmod := mod_lt (iv ++ rest).length B.block_pos
  have hbody : body.length = ((iv ++ rest).length / B.block_size + 1) * B.block_size :=
    length_cbcEncrypt hc.length_iv _ (length_paddedRecord B.block_pos _)
  have hn : body.length / B.block_size = (iv ++ rest).length / B.block_size + 1 := by
    rw [hbody, Nat.mul_div_cancel _ B.block_pos]
  have hplain : B.cbcDecrypt dr.key (dr.chainIv B) (body.length / B.block_size) body =
      paddedRecord B.block_size (iv ++ rest) := by
    rw [hn]
    exact cbcDecrypt_cbcEncrypt hc.length_iv _ (length_paddedRecord B.block_pos _)
  have hpadded : paddedRecord B.block_size (iv ++ rest) =
      iv ++ (rest ++ replicate i (.ofNat (i - 1))) := by
    rw [paddedRecord, append_assoc]
  have hwhole : ¬ (body.length = 0 || body.length % B.block_size ≠ 0) = true := by
    rw [hbody]
    simp
    omega
  have hsum : body.length = iv.length + (rest.length + i) := by
    rw [hbody, ← length_paddedRecord B.block_pos, hpadded]
    simp
  have hi : 0 < i ∧ i ≤ 256 := by omega
  -- The explicit IV is skipped, and the padding is the one that was added.
  have hskip : (⟨type, iv ++ (rest ++ replicate i (.ofNat (i - 1))), body.length⟩ : Rec).skipIv
      cfg.explicit_iv B.block_size =
      ⟨type, rest ++ replicate i (.ofNat (i - 1)), rest.length + i⟩ := by
    rw [Rec.skipIv, hsum]
    cases hexp : cfg.explicit_iv with
    | false =>
      rw [hexp] at hiv
      rw [length_eq_zero_iff.mp hiv]
      simp
    | true =>
      rw [hexp, if_pos rfl] at hiv
      rw [← hiv]
      simp
  have hnat : (ofNat (i - 1)).toNat = i - 1 :=
    toNat_ofNat_of_lt' (show i - 1 < 2 ^ 8 by omega)
  have hlast := @getD_padding rest i 0 hi.1
  have hshort : body.length + 255 < 2 ^ 32 := by
    rw [hsum, hiv]
    split_ifs <;> omega
  have hover : 1 + mac_size + (if cfg.explicit_iv then B.block_size else 0) ≤ body.length := by
    omega
  have hremove := @tls1CbcRemovePadding_eq cfg.explicit_iv
    ⟨type, iv ++ (rest ++ replicate i (.ofNat (i - 1))), body.length⟩ B.block_size mac_size
    hshort hover
  simp only [hskip] at hremove
  rw [Nat.sub_zero] at hlast
  have hpad : i - 1 + 1 = i := by omega
  rw [if_pos (paddingAccepted_replicate hi.1 hi.2 hrest), hlast, hnat, hpad,
    Nat.add_sub_cancel] at hremove
  have hgcm : ¬ dr.cipher.mode = .gcm := by rw [hc.mode]; decide
  simp only [cipherReceive, hc.aead, Bool.false_eq_true, if_false, Bool.false_and, hc.block_size,
    if_neg hwhole, Evp.withCbc, take_length, hc.decrypt, hplain, hpadded, if_neg hgcm,
    if_pos hbs, hremove, Nat.sub_zero]

omit hc in
theorem length_recordMac (seq : UInt64) (type : ℕ) (payload : Bytes) :
    (recordMac C cfg secret seq type payload).length = d.md_size := length_hash _

omit hc in
theorem checkMac_eq (hm : MacPair d secret md hw hr) (hsize : MacSize d.md_size) (seq : UInt64)
    {i type : ℕ} (hi : 0 < i) (hi' : i ≤ 256) (htype : type < 256) {payload padding : Bytes}
    (hlen : payload.length ≤ 2 ^ 14) (hpadding : padding.length = i) :
    let mac := recordMac C cfg secret seq type payload
    checkMac (evp.withCbc B C) cfg 1 .cbc false secret hr md seq
        ⟨type ||| i <<< 8, payload ++ mac ++ padding, (payload ++ mac).length⟩ =
      (.record type payload, hr, seq + 1) := by
  intro mac
  have hmac : mac.length = d.md_size := length_recordMac seq type payload
  have hpos : 0 < d.md_size ∧ d.md_size ≤ 48 := by
    obtain h | h | h | h := hsize.cases <;> omega
  have hor : type ||| i <<< 8 = 2 ^ 8 * i + type := by
    rw [Nat.or_comm, shiftLeft_eq, Nat.mul_comm]
    exact (two_pow_add_eq_or_of_lt htype i).symm
  have hdiv : (type ||| i <<< 8) / 256 = i := by omega
  have hmod : (type ||| i <<< 8) % 256 = type := by omega
  have hwhole : (payload ++ mac).length = payload.length + d.md_size := by
    rw [length_append, hmac]
  -- The bytes that `ssl3_cbc_copy_mac` finds.
  have hcopy : ssl3CbcCopyMac ⟨type ||| i <<< 8, payload ++ mac ++ padding, (payload ++ mac).length⟩
      d.md_size ((payload ++ mac).length + i) = some mac := by
    rw [ssl3CbcCopyMac_eq hsize (by dsimp only; omega) (by dsimp only; omega)
      (by dsimp only; omega) (by omega)]
    congr 1
    apply ext_getElem
    · simp [hmac]
    intro t ht ht'
    have hoff : (payload ++ mac).length - d.md_size = payload.length := by omega
    rw [getElem_map, getElem_range, hoff, append_assoc,
      getD_append_right _ _ _ _ (by omega), Nat.add_sub_cancel_left,
      getD_append _ _ _ _ ht', getD_eq_getElem _ _ ht']
  -- The MAC of the plain bytes is the one of `ssl3_cbc_digest_record`.
  have hfit : Fitting d (recordHeader cfg.version seq type payload.length)
      (payload ++ mac ++ padding) (payload.length + d.md_size) (payload.length + d.md_size + i) :=
    { header := rfl
      mac := by omega
      le := by omega
      padding := by omega
      data := by rw [length_append, hwhole, hpadding]
      size := by omega }
  have hblock : 64 ≤ d.md_block_size := by
    have := d.sizes
    omega
  have hdigest := hfit.digest_eq (C := C) (hm.secret.trans hblock)
  have hplain : (payload ++ mac ++ padding).take payload.length = payload := by
    rw [append_assoc, take_left]
  rw [authenticated, Nat.add_sub_cancel, hplain] at hdigest
  have hshort : ¬ ((payload ++ mac).length + i < d.md_size ||
      (true && (payload ++ mac).length + i < d.md_size + 1)) = true := by
    simp
    omega
  have hfits : ¬ payload.length > ssl3RtMaxCompressedLength + cfg.extra + d.md_size := by
    unfold ssl3RtMaxCompressedLength ssl3RtMaxPlainLength
    omega
  have hfits' : ¬ payload.length > ssl3RtMaxPlainLength + cfg.extra := by
    unfold ssl3RtMaxPlainLength
    omega
  have hwhole' : (payload ++ mac).length - d.md_size = payload.length := by omega
  have hsame : List.take d.md_size (C.hash.hmac secret
      (recordHeader cfg.version seq type payload.length ++ payload)) = mac :=
    take_of_length_le hmac.le
  simp only [checkMac, hdiv, hm.md_size, decide_true, if_neg hshort, if_true, hcopy, hwhole',
    tls1MacReceive, hmod, hm.cbc_supported, Bool.and_true, Evp.withCbc, hdigest, getD_some]
  have hgood : (decide ((1 : ℤ) < 0) || decide (List.take d.md_size
      (C.hash.hmac secret (recordHeader cfg.version seq type payload.length ++ payload)) ≠ mac) ||
      decide (payload.length > ssl3RtMaxCompressedLength + cfg.extra + d.md_size)) = false := by
    rw [decide_eq_false hfits, decide_eq_false (not_not.mpr hsame)]
    rfl
  rw [hgood, finishRecord, if_neg Bool.false_ne_true, if_neg hfits', hplain]

theorem length_explicitIv (hbs : B.block_size ≠ 1) (env : WriteEnv) :
    (explicitIv cfg env dw).length = if cfg.explicit_iv then B.block_size else 0 := by
  have hlt : ¬ dw.cipher.iv_length ≤ 1 := by
    have := B.block_pos
    rw [hc.cipher, hc.iv_length]
    omega
  have hmode : dw.cipher.mode = .cbc := by rw [hc.cipher, hc.mode]
  unfold explicitIv
  cases cfg.explicit_iv with
  | false => rfl
  | true =>
    simp only [if_true, hmode, if_neg hlt, length_map, length_range]
    rw [hc.cipher, hc.iv_length]

omit hc in
theorem CipherCtx.chainIv_used (ds : CipherCtx) (input : Bytes) :
    CipherCtx.chainIv B { ds with used := ds.used ++ [input] } = B.cbcIv (ds.chainIv B)
      (if ds.encrypt then B.cbcEncrypt ds.key (ds.chainIv B) (input.length / B.block_size) input
        else input) := by
  unfold CipherCtx.chainIv
  rw [foldl_append]
  rfl

theorem CipherPair.sent {n : ℕ} {input : Bytes}
    (hinput : input.length = n * B.block_size) : CipherPair B { dw with used := dw.used ++ [input] }
      { dr with used := dr.used ++ [B.cbcEncrypt dr.key (dr.chainIv B) n input] } := by
  have hn : input.length / B.block_size = n := by rw [hinput, Nat.mul_div_cancel _ B.block_pos]
  have hw : CipherCtx.chainIv B { dw with used := dw.used ++ [input] } =
      B.cbcIv (dr.chainIv B) (B.cbcEncrypt dr.key (dr.chainIv B) n input) := by
    rw [CipherCtx.chainIv_used, if_pos hc.encrypt, hn, hc.iv, hc.key]
  have hr : CipherCtx.chainIv B
      { dr with used := dr.used ++ [B.cbcEncrypt dr.key (dr.chainIv B) n input] } =
      B.cbcIv (dr.chainIv B) (B.cbcEncrypt dr.key (dr.chainIv B) n input) := by
    rw [CipherCtx.chainIv_used, if_neg (by rw [hc.decrypt]; exact Bool.false_ne_true)]
  exact { hc with
    iv := by rw [hw, hr]
    length_iv := by
      rw [hr]
      exact length_cbcIv hc.length_iv (length_cbcEncrypt hc.length_iv _ hinput) }

theorem fragment_eq (hm : MacPair d secret md hw hr)
    (hone : B.block_size ≠ 1) (hpos : 0 < d.md_size) (secret' : Bytes) (seq : UInt64)
    (env : WriteEnv) (type : ℕ) (payload : Bytes) :
    let input := explicitIv cfg env dw ++ (payload ++ recordMac C cfg secret seq type payload)
    Guarded.fragment (evp.withCbc B C) cfg env type ⟨.cipher dw hw false secret', seq⟩ payload =
      (some (B.cbcEncrypt dr.key (dr.chainIv B) (input.length / B.block_size + 1)
          (paddedRecord B.block_size input)),
        ⟨.cipher { dw with used := dw.used ++ [paddedRecord B.block_size input] } hw false secret',
          seq + 1⟩) := by
  simp only [Guarded.fragment, suiteMac_eq hm hpos, append_assoc]
  rw [cipherSend_eq hc hone]

theorem opened_eq (hm : MacPair d secret md hw hr)
    (hbs : B.block_size = 8 ∨ B.block_size = 16) (hsize : MacSize d.md_size) (seq : UInt64)
    {type : ℕ} (htype : type < 256) {iv payload : Bytes}
    (hiv : iv.length = if cfg.explicit_iv then B.block_size else 0)
    (hlen : payload.length ≤ 2 ^ 14) :
    let input := iv ++ (payload ++ recordMac C cfg secret seq type payload)
    let body := B.cbcEncrypt dr.key (dr.chainIv B) (input.length / B.block_size + 1)
      (paddedRecord B.block_size input)
    Guarded.opened (evp.withCbc B C) cfg type ⟨.cipher dr hr false secret, seq⟩ body =
      (.record type payload,
        ⟨.cipher { dr with used := dr.used ++ [body] } hr false secret, seq + 1⟩) := by
  intro input body
  have hpos : 0 < d.md_size ∧ d.md_size ≤ 48 := by
    obtain h | h | h | h := hsize.cases <;> omega
  have hmac := @length_recordMac d C cfg secret seq type payload
  have hmod := mod_lt input.length B.block_pos
  have hreceive := @cipherReceive_eq B d C evp cfg dw dr hc (by omega) (by omega) d.md_size
    seq type iv (payload ++ recordMac C cfg secret seq type payload) hiv
    (by rw [length_append]; omega) (by rw [length_append]; omega)
  have hcheck := @checkMac_eq B d C evp cfg hw hr md secret hm hsize seq _ type
    (Nat.sub_pos_of_lt hmod) (by omega) htype payload
    (replicate _ (.ofNat (B.block_size - input.length % B.block_size - 1))) hlen
    length_replicate
  obtain ⟨mac_type, hdigest⟩ := hm.read
  have hmd : hr.md = some md := by rw [MdCtx.md, hdigest]; rfl
  simp only [Guarded.opened, hmd, map_some, getD_some, hm.md_size, body, input,
    hreceive, hc.mode, hcheck, one_ne_zero, if_false]

end

theorem InSync.record {gw gr : Guarded} (h : InSync B d gw gr)
    (hbs : B.block_size = 8 ∨ B.block_size = 16) (hsize : MacSize d.md_size) (env : WriteEnv)
    {type : ℕ} (htype : type < 256) {payload : Bytes} (hlen : payload.length ≤ 2 ^ 14) :
    let r := gw.fragment (evp.withCbc B C) cfg env type payload
    ∃ body, r.1 = some body ∧
      (gr.opened (evp.withCbc B C) cfg type body).1 = .record type payload ∧
      InSync B d r.2
        (gr.opened (evp.withCbc B C) cfg type body).2 := by
  obtain ⟨dw, dr, hw, hr, md, secret, secret', seq, rfl, rfl, hc, hm⟩ := h
  have hone : B.block_size ≠ 1 := by omega
  have hpos : 0 < d.md_size := by
    obtain h | h | h | h := hsize.cases <;> omega
  have hsent := @fragment_eq B d C evp cfg dw dr hw hr md secret hc hm hone hpos secret' seq env
  have hopened := @opened_eq B d C evp cfg dw dr hw hr md secret hc hm hbs hsize seq type htype
    (explicitIv cfg env dw) payload (length_explicitIv hc hone env) hlen
  refine ⟨_, by rw [hsent], by rw [hopened], ?_⟩
  rw [hsent, hopened]
  exact ⟨_, _, hw, hr, md, secret, secret', seq + 1, rfl, rfl,
    hc.sent (length_paddedRecord B.block_pos _), hm⟩

end

/-- The suites in question: a cipher in CBC mode, and HMAC with one of the digests. -/
structure SslCipher.IsCbc (B : BlockCipher) (d : CbcDigest) (c : SslCipher) : Prop where
  aead : c.aead = false
  stream_mac : c.stream_mac = false
  evp : ∃ cipher md mac_type, c.evp = some (cipher, some md, mac_type, d.md_size) ∧
    cipher.mode = .cbc ∧ cipher.aead = false ∧ cipher.block_size = B.block_size ∧
    cipher.iv_length = B.block_size ∧ md.md_size = d.md_size ∧ md.cbc_supported = true

variable {B : BlockCipher} {d : CbcDigest}

/-- The two sides of a direction after the change of cipher state. -/
theorem SslCipher.IsCbc.inSync {c : SslCipher} (h : c.IsCbc B d)
    (prf : KeyStream) (secrets : Secrets) (client : Bool) :
    ∃ pw pr, c.protection prf secrets client false = some pw ∧
      c.protection prf secrets client true = some pr ∧ InSync B d ⟨pw, 0⟩ ⟨pr, 0⟩ := by
  obtain ⟨cipher, md, mac_type, hevp, hmode, haead, hblock, hiv, hmd, hsupported⟩ := h.evp
  simp only [SslCipher.protection, h.aead, Bool.false_eq_true, hevp, map_some, haead, h.stream_mac]
  refine ⟨_, _, rfl, rfl, _, _, _, _, md, _, _, 0, rfl, rfl, ?_, ?_⟩
  · exact
      { cipher := rfl, mode := hmode, aead := haead, block_size := hblock, iv_length := hiv,
        key := rfl, encrypt := rfl, decrypt := rfl, iv := rfl
        length_iv := by
          simp [CipherCtx.chainIv, suiteKeys, expansion, EvpCipher.blockIvLen, hmode, hiv] }
  exact
    { write := ⟨mac_type, rfl⟩, read := ⟨mac_type, rfl⟩, md_size := hmd
      cbc_supported := hsupported
      secret := by
        have := d.sizes
        simp [suiteKeys, expansion]
        omega }

/-! ## Any number of records -/

/-- A record that one side is to write. -/
structure Sent where
  env : WriteEnv
  type : ℕ
  payload : Bytes

/-- One side writes the records, and the other opens what comes. -/
def transmit (evp : Evp) (cfg : RecordConfig) (w r : Direction) : List Sent → List Opened
  | [] => []
  | sent :: rest =>
    let (body, w) := writeFragment evp cfg true sent.env sent.type w sent.payload
    match body with
    | none => []
    | some body =>
      let (opened, r) := openFragment evp cfg true r sent.type body
      opened :: transmit evp cfg w r rest

variable {records : List Sent}

theorem InSync.transmit (C : Compression d) (evp : Evp) (cfg : RecordConfig)
    (hbs : B.block_size = 8 ∨ B.block_size = 16) (hsize : MacSize d.md_size)
    (hfit : ∀ x ∈ records, x.type < 256 ∧ x.payload.length ≤ 2 ^ 14) {w r : Direction}
    {gw gr : Guarded} (hw : Represents true w gw) (hr : Represents true r gr)
    (h : InSync B d gw gr) :
    Record.transmit (evp.withCbc B C) cfg w r records =
      records.map fun x => .record x.type x.payload := by
  induction records generalizing w r gw gr with
  | nil => rfl
  | cons x rest ih =>
    obtain ⟨⟨htype, hlen⟩, hrest⟩ := forall_mem_cons.mp hfit
    obtain ⟨body, hbody, hopened, hnext⟩ :=
      @InSync.record B d C evp cfg gw gr h hbs hsize x.env x.type htype x.payload hlen
    obtain ⟨hwrite, hw'⟩ := writeFragment_represents (evp.withCbc B C) cfg hw x.env x.type x.payload
    obtain ⟨hread, hr'⟩ := openFragment_represents (evp.withCbc B C) cfg hr x.type body
    rw [hbody] at hwrite
    rw [hopened] at hread
    simp only [Record.transmit, hwrite, hread, map_cons]
    rw [ih hrest hw' hr' hnext]

/-- Under a CBC suite, whatever one side writes the other reads: any records, from any sequence
number on, with any secrets. -/
theorem cbc_round_trip {B : BlockCipher} (hbs : B.block_size = 8 ∨ B.block_size = 16)
    {d : CbcDigest} (hsize : MacSize d.md_size) (C : Compression d) (evp : Evp) (cfg : RecordConfig)
    {dw dr : CipherCtx} (hc : CipherPair B dw dr) {hw hr : MdCtx} {md : EvpMd}
    {secret : Bytes} (hm : MacPair d secret md hw hr) (secret' : Bytes) (seq : UInt64)
    {records : List Sent} (hfit : ∀ x ∈ records, x.type < 256 ∧ x.payload.length ≤ 2 ^ 14) :
    transmit (evp.withCbc B C) cfg ⟨none, some dw, some hw, false, secret', seq⟩
        ⟨none, some dr, some hr, false, secret, seq⟩ records =
      records.map fun x => .record x.type x.payload := by
  have hwrite : Represents true ⟨none, some dw, some hw, false, secret', seq⟩
      ⟨.cipher dw hw false secret', seq⟩ := ⟨⟨rfl, rfl, rfl, rfl, rfl⟩, rfl, fun _ => rfl⟩
  have hread : Represents true ⟨none, some dr, some hr, false, secret, seq⟩
      ⟨.cipher dr hr false secret, seq⟩ := ⟨⟨rfl, rfl, rfl, rfl, rfl⟩, rfl, fun _ => rfl⟩
  have hsync : InSync B d ⟨.cipher dw hw false secret', seq⟩ ⟨.cipher dr hr false secret, seq⟩ :=
    ⟨dw, dr, hw, hr, md, secret, secret', seq, rfl, rfl, hc, hm⟩
  exact hsync.transmit C evp cfg hbs hsize hfit hwrite hread

/-- A block cipher that reverses its blocks. -/
def reversingCipher : BlockCipher where
  block_size := 16
  encrypt := fun _ b => b.reverse
  decrypt := fun _ b => b.reverse
  block_pos := by decide
  length_encrypt := fun _ b h => by rw [length_reverse, h]
  decrypt_encrypt := fun _ b _ => reverse_reverse b

/-- A compression function that adds up bytes. -/
def summingCompression : Compression .sha1 where
  State := UInt8
  init := 0
  md_transform := fun s block => block.foldl (· + ·) s
  md_final_raw := fun s => replicate 20 s
  length_final_raw := fun _ => length_replicate.ge

def sampleCipherCtx (encrypt : Bool) : CipherCtx :=
  { cipher := ⟨419, .cbc, 16, 16, 16, false⟩, key := [], iv := replicate 16 7,
    encrypt := encrypt, mac_key := none, used := [] }

def sampleMdCtx : MdCtx := ⟨some (⟨64, 20, true⟩, 855, [1, 2]), []⟩

/-- The primitives that a CBC suite does not use. -/
def noEvp : Evp :=
  ⟨fun _ _ _ _ _ => none, fun _ _ _ _ _ => none, fun _ _ => none, fun _ _ => 0, fun _ _ => [],
    fun _ _ _ _ _ _ => []⟩

/-- Application data, and a record without any. -/
def sampleRecords : List Sent :=
  [⟨⟨fun _ => 0, fun _ => 9⟩, 23, [104, 105]⟩, ⟨⟨fun _ => 0, fun _ => 9⟩, 21, []⟩]

theorem cbc_round_trip_sample :
    transmit (noEvp.withCbc reversingCipher summingCompression) ⟨true, 0x302, true, false, 0⟩
        ⟨none, some (sampleCipherCtx true), some sampleMdCtx, false, [], 5⟩
        ⟨none, some (sampleCipherCtx false), some sampleMdCtx, false, [1, 2], 5⟩ sampleRecords =
      [.record 23 [104, 105], .record 21 []] := by
  have hc : CipherPair reversingCipher (sampleCipherCtx true) (sampleCipherCtx false) :=
    ⟨rfl, rfl, rfl, rfl, rfl, rfl, rfl, rfl, rfl, rfl⟩
  have hm : MacPair .sha1 [1, 2] ⟨64, 20, true⟩ sampleMdCtx sampleMdCtx :=
    ⟨⟨855, rfl⟩, ⟨855, rfl⟩, rfl, rfl, by decide⟩
  have hfit : ∀ x ∈ sampleRecords, x.type < 256 ∧ x.payload.length ≤ 2 ^ 14 := by
    simp [sampleRecords]
  exact cbc_round_trip (.inr rfl) (by decide) summingCompression noEvp _ hc hm [] 5 hfit

/-! ## Two connections -/

/-- What holds of a connection along its handshakes. -/
abbrev Orderly (evp : Evp) (prf : KeyStream) (cfg : RecordConfig) (actions : List Action) : Prop :=
  Along (act evp prf cfg)
    (fun s action => Succeeds prf cfg s action ∧ InstallsSameKind s action) {} actions

/-- A direction that has just taken the negotiated suite, after any handshakes before. -/
theorem Orderly.installed {evp : Evp} {prf : KeyStream}
    {cfg : RecordConfig} {actions : List Action} {c : SslCipher} {secrets : Secrets}
    {is_read : Bool}
    (h : Orderly evp prf cfg (actions ++ [.negotiate c secrets, .changeCipherSpec is_read]))
    {p : Protection} (hp : c.protection prf secrets (cfg.server = is_read) is_read = some p) :
    let s := run (act evp prf cfg) {} (actions ++ [.negotiate c secrets, .changeCipherSpec is_read])
    Represents true (if is_read then s.read else s.write) ⟨p, 0⟩ := by
  intro s
  have hstart : Simulates prf cfg {} {} :=
    ⟨.null ⟨rfl, rfl, rfl⟩ rfl, .null ⟨rfl, rfl, rfl⟩ rfl, rfl, rfl, rfl, by rintro _ ⟨⟩,
      absurd rfl⟩
  have hsim := (run_simulation (fun s a action hsim hcond => act_simulates action hsim hcond)
    _ {} {} hstart h).1
  rw [run_append (Guard.act evp prf cfg)] at hsim
  generalize run (Guard.act evp prf cfg) {} actions = a at hsim
  simp only [run_cons, run_nil, Guard.act, Guard.install, hp] at hsim
  cases is_read with
  | false =>
    have hwrite := hsim.write
    rwa [(hsim.secrets _ rfl).2] at hwrite
  | true =>
    have hread := hsim.read
    rwa [(hsim.secrets _ rfl).2] at hread

/-- Two connections that have gone through any successful handshakes, the last of them with each
other and with a CBC suite: whatever records the one writes from its ChangeCipherSpec on, the other
reads, with the keys that each has cut from its own key block. -/
theorem connections_transmit {c : SslCipher} (hc : c.IsCbc B d)
    (hbs : B.block_size = 8 ∨ B.block_size = 16) (hsize : MacSize d.md_size) (C : Compression d)
    (evp : Evp) (prf : KeyStream) (cfg : RecordConfig) (secrets : Secrets)
    (client : Bool) (before before' : List Action)
    (hw : Orderly (evp.withCbc B C) prf { cfg with server := !client }
      (before ++ [.negotiate c secrets, .changeCipherSpec false]))
    (hr : Orderly (evp.withCbc B C) prf { cfg with server := client }
      (before' ++ [.negotiate c secrets, .changeCipherSpec true]))
    (hfit : ∀ x ∈ records, x.type < 256 ∧ x.payload.length ≤ 2 ^ 14) :
    transmit (evp.withCbc B C) cfg
        (run (act (evp.withCbc B C) prf { cfg with server := !client }) {}
          (before ++ [.negotiate c secrets, .changeCipherSpec false])).write
        (run (act (evp.withCbc B C) prf { cfg with server := client }) {}
          (before' ++ [.negotiate c secrets, .changeCipherSpec true])).read records =
      records.map fun x => .record x.type x.payload := by
  obtain ⟨pw, pr, hpw, hpr, hsync⟩ := hc.inSync prf secrets client
  refine hsync.transmit C evp cfg hbs hsize hfit (hw.installed ?_) (hr.installed ?_)
  · cases client <;> exact hpw
  · cases client <;> exact hpr

/-- Both sides renegotiate a suite like the ones above. -/
theorem connections_transmit_renegotiated :
    let c : SslCipher := { cbcSuite 64 with
      evp := some (⟨419, .cbc, 16, 16, 16, false⟩, some ⟨64, 20, true⟩, 855, 20) }
    let evp := noEvp.withCbc reversingCipher summingCompression
    let first (is_read : Bool) : List Action :=
      [.negotiate (cbcSuite 32) [], .changeCipherSpec is_read, .finish]
    transmit evp tls12Client
        (run (act evp showKeys { tls12Client with server := false }) {}
          (first false ++ [.negotiate c [7], .changeCipherSpec false])).write
        (run (act evp showKeys { tls12Client with server := true }) {}
          (first true ++ [.negotiate c [7], .changeCipherSpec true])).read sampleRecords =
      [.record 23 [104, 105], .record 21 []] := by
  intro c evp first
  have hc : c.IsCbc reversingCipher .sha1 :=
    ⟨rfl, rfl, _, _, _, rfl, rfl, rfl, rfl, rfl, rfl, rfl⟩
  exact connections_transmit hc (.inr rfl) (by decide) summingCompression noEvp showKeys tls12Client
    [7] true (first false) (first true) (by decide +kernel) (by decide +kernel)
    (by simp [sampleRecords])

end VigorTls.Record
