import VigorTls.Hello.ClientHello

/-!
# The parsers of a ClientHello stay inside

One lemma for each function of the extensions, of the ciphers and of the rest of the message: it
reads only below the end of the message, and keeps what `kept` says of the connection.
-/

namespace VigorTls.Hello

open Lib Parser

variable {n : ℕ} {s s' : Server} {buf : ℕ → UInt8}

/-- What a connection holds that no part of a ClientHello changes. -/
def held (s : Server) : CookieField × ℕ × Bytes := (s.cookie, s.cookie_len, s.sid_ctx)

/-- What the functions after the session keep: whether it is resumed, the version, and the session.
-/
def kept (s : Server) : Bool × ℕ × ℕ × Option Origin × Option Session × CookieField × ℕ × Bytes :=
  (s.hit, s.version, s.method_version, s.origin, if s.hit then s.session else none, held s)

theorem hit_of_kept (h : kept s' = kept s) : s'.hit = s.hit :=
  congrArg Prod.fst h

theorem held_of_kept (h : kept s' = kept s) : held s' = held s :=
  congrArg (·.2.2.2.2.2) h

theorem isDtls_of_kept (h : kept s' = kept s) : s'.isDtls = s.isDtls := by
  simp only [kept, Prod.mk.injEq] at h
  simp only [Server.isDtls, h.2.2.1]

/-- The functions that keep this much and read only what is below `n`. -/
abbrev SafeHello {α : Type} (n : ℕ) (s : Server) (x : HelloM α) (Q : α → Prop) : Prop :=
  Safe n kept s x Q

/-- The same, whatever the result is. -/
abbrev Quiet {α : Type} (n : ℕ) (s : Server) (x : HelloM α) : Prop := SafeHello n s x fun _ => True

theorem modifySession_safe {g : Session → Session} (hhit : s.hit = false) :
    Quiet n s (modifySession g) :=
  .modify (by simp [kept, held, hhit]) trivial

variable {p : ℕ}

theorem n2s_stays (hp : p + 2 ≤ n) : (n2s p).Stays n fun _ => True :=
  .bind (.byte (by omega) fun _ => trivial) fun _ _ =>
    .bind (.byte (by omega) fun _ => trivial) fun _ _ => .pure trivial

/-- The bytes of a `CBS` are below `n`. -/
def Cbs.Within (n : ℕ) (cbs : Cbs) : Prop := cbs.data + cbs.len ≤ n

variable {cbs : Cbs} {len sdata : ℕ}

theorem Cbs.get_eq_some {v rest : Cbs} : cbs.get len = some (v, rest) ↔
    len ≤ cbs.len ∧ v = ⟨cbs.data, len⟩ ∧ rest = ⟨cbs.data + len, cbs.len - len⟩ := by
  simp only [Cbs.get]
  split_ifs with h
  · simp [Nat.not_le.mpr h]
  · simp [Nat.not_lt.mp h, eq_comm]

/-- What a reader for a number leaves is inside. -/
def RestWithin {α : Type} (n : ℕ) (r : Option (α × Cbs)) : Prop :=
  ∀ v rest, r = some (v, rest) → rest.Within n

/-- What a reader takes and what it leaves is inside. -/
def BothWithin (n : ℕ) (r : Option (Cbs × Cbs)) : Prop :=
  ∀ v rest, r = some (v, rest) → v.Within n ∧ rest.Within n

theorem Cbs.get_within (h : cbs.Within n) (len : ℕ) : BothWithin n (cbs.get len) := by
  intro v rest hget
  obtain ⟨hlen, rfl, rfl⟩ := Cbs.get_eq_some.mp hget
  simp only [Within] at h ⊢
  omega

theorem Cbs.getU8_stays (h : cbs.Within n) : cbs.getU8.Stays n (RestWithin n) := by
  unfold Cbs.getU8
  cases hget : cbs.get 1 with
  | none => exact .pure nofun
  | some r =>
    obtain ⟨v, rest⟩ := r
    obtain ⟨hlen, rfl, rfl⟩ := Cbs.get_eq_some.mp hget
    simp only [Within] at h
    refine .bind (.byte (by simp only; omega) fun _ => trivial) fun b _ => .pure ?_
    rintro _ _ ⟨⟩
    simp only [Within]
    omega

theorem Cbs.getU16_stays (h : cbs.Within n) : cbs.getU16.Stays n (RestWithin n) := by
  unfold Cbs.getU16
  cases hget : cbs.get 2 with
  | none => exact .pure nofun
  | some r =>
    obtain ⟨v, rest⟩ := r
    obtain ⟨hlen, rfl, rfl⟩ := Cbs.get_eq_some.mp hget
    simp only [Within] at h
    refine .bind (n2s_stays (by simp only; omega)) fun b _ => .pure ?_
    rintro _ _ ⟨⟩
    simp only [Within]
    omega

theorem Cbs.lengthPrefixed_stays {getLen : Cbs → Probe (Option (ℕ × Cbs))}
    (h : (getLen cbs).Stays n (RestWithin n)) :
    (cbs.lengthPrefixed getLen).Stays n (BothWithin n) := by
  refine .bind h fun r hr => ?_
  cases r with
  | none => exact .pure nofun
  | some r => exact .pure (Cbs.get_within (hr r.1 r.2 rfl) r.1)

theorem Cbs.getU8LengthPrefixed_stays (h : cbs.Within n) :
    cbs.getU8LengthPrefixed.Stays n (BothWithin n) := lengthPrefixed_stays (getU8_stays h)

theorem Cbs.getU16LengthPrefixed_stays (h : cbs.Within n) :
    cbs.getU16LengthPrefixed.Stays n (BothWithin n) := lengthPrefixed_stays (getU16_stays h)

theorem helloVersion_safe : Safe n (fun _ => ()) s (helloVersion n) fun _ => True := by
  refine .guard fun _ => .bind (.lift (n2s_stays (by omega))) fun _ _ _ _ => ?_
  refine .get (.modify_bind rfl (.ite (fun _ => ?_) fun _ => .pure trivial))
  exact .modify_bind rfl .fail

theorem helloVersion_ok {u : Unit} : (helloVersion n s).run buf = (.ok u, s') ↔
    2 ≤ n ∧ wrongVersion s ((n2s 0).run buf) = false ∧
      s' = { s with client_version := (n2s 0).run buf } := by
  unfold helloVersion
  split_ifs with hn
  · exact ⟨fun h => absurd h run_fail_ok, fun h => absurd h.1 (by omega)⟩
  rw [run_lift_bind, run_get_bind, run_modify_bind]
  split_ifs with hv
  · rw [run_modify_bind]
    exact ⟨fun h => absurd h run_fail_ok, fun h => absurd (hv.symm.trans h.2.1) nofun⟩
  · rw [run_pure_ok]
    exact ⟨fun h => ⟨Nat.not_lt.mp hn, by simpa using hv, h.2.symm⟩, fun h => ⟨rfl, h.2.2.symm⟩⟩

/-! ## The extensions -/

theorem byte_safe (hp : p < n) : Quiet n s (liftM (Probe.byte p)) :=
  .lift (.byte hp fun _ => trivial)

theorem bytes_safe (hp : p + len ≤ n) : Quiet n s (liftM (Probe.bytes p len)) :=
  .lift (.bytes hp fun _ => trivial)

theorem n2s_safe (hp : p + 2 ≤ n) : Quiet n s (liftM (n2s p)) :=
  .lift (n2s_stays hp)

theorem scanHostName_safe (h : sdata + len ≤ n) : Quiet n s (scanHostName sdata len) := by
  refine .get (.ite (fun hhit => ?_) fun _ => ?_)
  · have hhit : s.hit = false := by simpa using hhit
    refine .guard fun _ => .guard fun _ => ?_
    refine .bind (bytes_safe h) fun name s' hs' _ => .guard fun _ => ?_
    exact .bind (modifySession_safe ((hit_of_kept hs').trans hhit)) fun _ _ _ _ =>
      .modify rfl trivial
  · exact .ite (fun _ => .bind (bytes_safe h) fun _ _ _ _ => .modify rfl trivial) fun _ =>
      .modify rfl trivial

variable {cfg : HelloConfig} {fuel dsize : ℕ}

theorem serverNameLoop_safe (h : sdata + dsize ≤ n) :
    Quiet n s (serverNameLoop fuel sdata dsize) := by
  induction fuel generalizing s sdata dsize with
  | zero => exact .pure trivial
  | succ fuel ih =>
    refine .ite (fun hd => ?_) fun _ => .pure trivial
    refine .bind (byte_safe (by omega)) fun _ _ _ _ => ?_
    refine .bind (n2s_safe (by omega)) fun len _ _ _ => .guard fun _ => ?_
    refine .bind (Q := fun _ => True) ?_ fun _ _ _ _ => ih (by omega)
    exact .get (.ite (fun _ => scanHostName_safe (by omega)) fun _ => .pure trivial)

variable {data size : ℕ}

section

variable (h : data + size ≤ n)

include h

theorem scanServerName_safe : Quiet n s (scanServerName data size) := by
  refine .guard fun _ => ?_
  refine .bind (n2s_safe (by omega)) fun dsize _ _ _ => .guard fun _ => ?_
  exact .bind (serverNameLoop_safe (by omega)) fun _ _ _ _ =>
    .guard fun _ => .pure trivial

theorem scanEcPointFormats_safe : Quiet n s (scanEcPointFormats data size) := by
  refine .guard fun _ => ?_
  refine .bind (byte_safe (by omega)) fun formats_len s' _ _ => .guard fun hlen => ?_
  refine .get (.ite (fun hhit => ?_) fun _ => .pure trivial)
  have hhit : s'.hit = false := by simpa using hhit
  exact .bind (bytes_safe (by omega)) fun _ _ hs _ =>
    modifySession_safe ((hit_of_kept hs).trans hhit)

omit h in
theorem readCurves_stays {count : ℕ} (h : sdata + 2 * count ≤ n) :
    (readCurves sdata count).Stays n fun _ => True := by
  induction count generalizing sdata with
  | zero => exact .pure trivial
  | succ count ih =>
    exact .bind (n2s_stays (by omega)) fun _ _ => .bind (ih (by omega)) fun _ _ => .pure trivial

theorem scanEllipticCurves_safe : Quiet n s (scanEllipticCurves data size) := by
  refine .guard fun _ => ?_
  refine .bind (n2s_safe (by omega)) fun curves_len s' _ _ => .guard fun hlen => ?_
  have hlen : curves_len = size - 2 := by
    simp only [Bool.or_eq_true, decide_eq_true_eq] at hlen
    omega
  refine .get (.ite (fun hhit => ?_) fun _ => .pure trivial)
  have hhit : s'.hit = false := by simpa using hhit
  refine .guard fun _ => ?_
  exact .bind (.lift (readCurves_stays (by omega))) fun _ _ hs _ =>
    modifySession_safe ((hit_of_kept hs).trans hhit)

omit h in
theorem tls1SaveSigalgs_safe (h : data + dsize ≤ n) : Quiet n s (tls1SaveSigalgs data dsize) :=
  .get (.ite (fun _ => .bind (bytes_safe h) fun _ _ _ _ => .modify rfl trivial) fun _ =>
    .pure trivial)

theorem scanSignatureAlgorithms_safe : Quiet n s (scanSignatureAlgorithms data size) := by
  refine .get (.guard fun hsize => ?_)
  have hsize : 2 ≤ size := by simpa using hsize.imp_symm fun h => by simp; omega
  refine .bind (n2s_safe (by omega)) fun dsize _ _ _ => .guard fun hd => ?_
  have hd : dsize = size - 2 := by
    simp only [Bool.or_eq_true, decide_eq_true_eq] at hd
    omega
  exact tls1SaveSigalgs_safe (by omega)

theorem responderIds_safe (hd : dsize ≤ size) :
    SafeHello n s (responderIds cfg fuel data dsize size) fun r => r.1 + r.2 ≤ n := by
  induction fuel generalizing s data dsize size with
  | zero => exact .pure h
  | succ fuel ih =>
    refine .ite (fun hpos => .guard fun h4 => ?_) fun _ => .pure h
    refine .bind (n2s_safe (by omega)) fun idsize _ _ _ => .guard fun hid => ?_
    refine .bind (bytes_safe (by omega)) fun _ _ _ _ => .guard fun _ => ?_
    exact ih (by omega) (by omega)

theorem scanStatusRequest_safe : Quiet n s (scanStatusRequest cfg data size) := by
  refine .guard fun _ => ?_
  refine .bind (byte_safe (by omega)) fun _ _ _ _ => .ite (fun _ => ?_) fun _ =>
    .modify rfl trivial
  refine .modify_bind rfl ?_
  refine .bind (n2s_safe (by omega)) fun dsize _ _ _ => .guard fun hd => ?_
  refine .bind (responderIds_safe (by omega) (by omega)) fun r _ _ hr => ?_
  refine .guard fun _ => ?_
  refine .bind (n2s_safe (by omega)) fun dsize _ _ _ => .guard fun hd => ?_
  refine .ite (fun _ => ?_) fun _ => .pure trivial
  exact .bind (bytes_safe (by omega)) fun _ _ _ _ => .guard fun _ => .pure trivial

end

theorem renegotiateExt_safe {d : ℕ} (h : d + len ≤ n) :
    Quiet n s (sslParseClienthelloRenegotiateExt d len) := by
  refine .bind (.lift (Cbs.getU8LengthPrefixed_stays h)) fun r _ _ hr => ?_
  rcases r with _ | ⟨reneg, cbs⟩
  · exact .fail
  refine .guard fun _ => .get (.guard fun _ => ?_)
  exact .bind (bytes_safe (hr _ _ rfl).1) fun _ _ _ _ => .guard fun _ =>
    .modify rfl trivial

theorem protoNames_safe (h : cbs.Within n) : Quiet n s (protoNames fuel cbs) := by
  induction fuel generalizing s cbs with
  | zero => exact .pure trivial
  | succ fuel ih =>
    refine .ite (fun _ => ?_) fun _ => .pure trivial
    refine .bind (.lift (Cbs.getU8LengthPrefixed_stays h)) fun r _ _ hr => ?_
    rcases r with _ | ⟨proto_name, rest⟩
    · exact .fail
    · exact .guard fun _ => ih (hr _ _ rfl).2

theorem alpn_safe {data_len : ℕ} (h : data + data_len ≤ n) :
    Quiet n s (tls1AlpnHandleClientHello data data_len) := by
  refine .guard fun _ => ?_
  refine .bind (.lift (Cbs.getU16LengthPrefixed_stays h)) fun r _ _ hr => ?_
  rcases r with _ | ⟨alpn, cbs⟩
  · exact .fail
  have halpn : alpn.Within n := (hr _ _ rfl).1
  refine .guard fun _ => .bind (protoNames_safe halpn) fun _ _ _ _ => ?_
  exact .bind (bytes_safe halpn) fun _ _ _ _ => .modify rfl trivial

theorem srtpProfiles_safe (h : cbs.Within n) : Quiet n s (srtpProfiles fuel cbs) := by
  induction fuel generalizing s cbs with
  | zero => exact .pure trivial
  | succ fuel ih =>
    refine .ite (fun _ => ?_) fun _ => .pure trivial
    refine .bind (.lift (Cbs.getU16_stays h)) fun r _ _ hr => ?_
    rcases r with _ | ⟨id, rest⟩
    · exact .fail
    · exact .bind (ih (hr _ _ rfl)) fun _ _ _ _ => .pure trivial

theorem useSrtpExt_safe {d : ℕ} (h : d + len ≤ n) :
    Quiet n s (sslParseClienthelloUseSrtpExt cfg d len) := by
  refine .bind (.lift (Cbs.getU16LengthPrefixed_stays h)) fun r _ _ hr => ?_
  rcases r with _ | ⟨ciphers, cbs⟩
  · exact .fail
  obtain ⟨hciphers, hcbs⟩ := hr _ _ rfl
  refine .guard fun _ => .bind (srtpProfiles_safe hciphers) fun clnt _ _ _ => ?_
  refine .bind (.lift (Cbs.getU8LengthPrefixed_stays hcbs)) fun r _ _ _ => ?_
  rcases r with _ | ⟨mki, cbs⟩
  · exact .fail
  refine .guard fun _ => ?_
  cases cfg.srtp_profiles.find? (· ∈ clnt) with
  | none => exact .pure trivial
  | some profile => exact .modify rfl trivial

theorem scanExtension_safe {type : ℕ} (h : data + size ≤ n) :
    Quiet n s (scanExtension cfg type data size) := by
  refine .get (.ite (fun _ => scanServerName_safe h) fun _ => ?_)
  refine .ite (fun _ => scanEcPointFormats_safe h) fun _ => ?_
  refine .ite (fun _ => scanEllipticCurves_safe h) fun _ => ?_
  refine .ite (fun _ => ?_) fun _ => ?_
  · cases cfg.tls_session_ticket_ext_cb with
    | none => exact .pure trivial
    | some cb =>
      exact .bind (bytes_safe h) fun _ _ _ _ => .guard fun _ => .pure trivial
  refine .ite (fun _ => renegotiateExt_safe h) fun _ => ?_
  refine .ite (fun _ => scanSignatureAlgorithms_safe h) fun _ => ?_
  refine .ite (fun _ => scanStatusRequest_safe h) fun _ => ?_
  refine .ite (fun _ => .modify rfl trivial) fun _ => ?_
  exact .ite (fun _ => alpn_safe h) fun _ => .ite (fun _ => useSrtpExt_safe h) fun _ =>
    .pure trivial

theorem scanLoop_safe {seen : Bool} : Quiet n s (scanLoop cfg n fuel data seen) := by
  induction fuel generalizing s data seen with
  | zero => exact .pure trivial
  | succ fuel ih =>
    refine .ite (fun _ => ?_) fun _ => .pure trivial
    refine .bind (n2s_safe (by omega)) fun type _ _ _ => ?_
    refine .bind (n2s_safe (by omega)) fun size _ _ _ => .guard fun _ => ?_
    exact .bind (scanExtension_safe (by omega)) fun _ _ _ _ => ih

theorem riCheck_safe {seen : Bool} : Quiet n s (riCheck seen) :=
  .get (.guard fun _ => .pure trivial)

theorem scan_safe : Quiet n s (sslScanClienthelloTlsext cfg data n) := by
  refine .ite (fun _ => riCheck_safe) fun _ => .guard fun _ => ?_
  refine .bind (n2s_safe (by omega)) fun len _ _ _ => .guard fun _ => ?_
  exact .bind scanLoop_safe fun _ _ _ _ => .guard fun _ => riCheck_safe

theorem early_safe : Quiet n s (sslCheckClienthelloTlsextEarly cfg) := by
  unfold sslCheckClienthelloTlsextEarly
  cases cfg.tlsext_servername_callback with
  | fatal al => exact .fail
  | noack => exact .modify rfl trivial
  | ok => exact .pure trivial
  | warning => exact .pure trivial

theorem customExtParse_safe {type : ℕ} (h : data + size ≤ n) :
    Quiet n s (customExtParse cfg type data size) := by
  unfold customExtParse
  cases cfg.custom.find? (·.1 = type) with
  | none => exact .pure trivial
  | some meth =>
    refine .get (.guard fun _ => ?_)
    refine .modify_bind rfl ?_
    rcases meth.2 with _ | cb
    · exact .pure trivial
    · refine .bind (bytes_safe h) fun ext _ _ _ => ?_
      cases cb ext with
      | none => exact .pure trivial
      | some al => exact .fail

theorem customLoop_safe : Quiet n s (customLoop cfg n fuel data) := by
  induction fuel generalizing s data with
  | zero => exact .pure trivial
  | succ fuel ih =>
    refine .ite (fun _ => ?_) fun _ => .pure trivial
    refine .bind (n2s_safe (by omega)) fun type _ _ _ => ?_
    refine .bind (n2s_safe (by omega)) fun size _ _ _ => .ite (fun _ => .pure trivial) fun _ => ?_
    exact .bind (customExtParse_safe (by omega)) fun _ _ _ _ => ih

theorem customScan_safe : Quiet n s (sslScanClienthelloCustomTlsext cfg data n) := by
  refine .get (.ite (fun _ => .pure trivial) fun _ => .ite (fun _ => .pure trivial) fun _ => ?_)
  exact .bind (n2s_safe (by omega)) fun _ _ _ _ => .ite (fun _ => .pure trivial) fun _ =>
    customLoop_safe

theorem parseTlsext_safe : Quiet n s (sslParseClienthelloTlsext cfg p n) :=
  .bind scan_safe fun _ _ _ _ => .bind early_safe fun _ _ _ _ =>
    .modify_bind rfl customScan_safe

theorem cipherLoop_safe (h : cbs.Within n) : Quiet n s (cipherLoop cfg fuel cbs) := by
  induction fuel generalizing s cbs with
  | zero => exact .pure trivial
  | succ fuel ih =>
    refine .ite (fun _ => ?_) fun _ => .pure trivial
    refine .bind (.lift (Cbs.getU16_stays h)) fun r _ _ hr => ?_
    rcases r with _ | ⟨cipher_value, rest⟩
    · exact .fail
    have hrest : rest.Within n := hr _ _ rfl
    refine .get (.ite (fun _ => .guard fun _ => ?_) fun _ => ?_)
    · exact .modify_bind rfl (ih hrest)
    · exact .ite (fun _ => .guard fun _ => ih hrest) fun _ =>
        .bind (ih hrest) fun _ _ _ _ => .pure trivial

theorem cipherList_safe {num : ℕ} (h : p + num ≤ n) : Quiet n s (sslBytesToCipherList cfg p num) :=
  .modify_bind rfl (.guard fun _ =>
    .bind (bytes_safe h) fun _ _ _ _ => .modify_bind rfl (cipherLoop_safe h))

theorem helloCiphers_safe : Quiet n s (helloCiphers cfg n p) := by
  refine .guard fun _ => ?_
  refine .bind (n2s_safe (by omega)) fun i _ _ _ => .guard fun _ => ?_
  refine .guard fun _ => .bind (cipherList_safe (by omega)) fun _ _ _ _ => ?_
  exact .get (.guard fun _ => .pure trivial)

theorem helloCompression_safe : Quiet n s (helloCompression n p) := by
  refine .guard fun _ => ?_
  refine .bind (byte_safe (by omega)) fun i _ _ _ => .guard fun _ => ?_
  exact .bind (bytes_safe (by omega)) fun _ _ _ _ => .guard fun _ => .pure trivial

theorem helloCookie_safe : Quiet n s (helloCookie cfg n p) := by
  refine .guard fun _ => ?_
  refine .bind (byte_safe (by omega)) fun cookie_len _ _ _ => .guard fun _ => ?_
  refine .guard fun _ => .ite (fun _ => ?_) fun _ => .pure trivial
  refine .bind (bytes_safe (by omega)) fun _ _ _ _ => ?_
  exact .modify_bind rfl (.get (.guard fun _ => .pure trivial))

theorem retryCert_safe : Quiet n s (retryCert cfg) := by
  refine .guard fun _ => .ite (fun _ => .pure trivial) fun _ => .get ?_
  cases cfg.choose_cipher s.ciphers with
  | none => exact .fail
  | some c => exact .modify_bind rfl (.pure trivial)

variable {ciphers : List ℕ}

theorem helloCipher_safe : Quiet n s (helloCipher cfg ciphers) :=
  .get (.ite
    (fun _ => .modify_bind rfl (.guard fun _ => retryCert_safe))
    fun _ => .modify_bind rfl (.pure trivial))

variable {cookie_valid : Bool}

theorem helloLate_safe {chosen : Bool} : Quiet n s (helloLate cfg cookie_valid chosen) :=
  .ite (fun _ => .pure trivial) fun _ =>
    .get (.guard fun _ => .guard fun _ => .pure trivial)

theorem safe_held {α : Type} {x : HelloM α} {Q : α → Prop} (h : SafeHello n s x Q) :
    Safe n held s x Q := h.weaken fun _ _ => held_of_kept

theorem chooseVersion_safe : Safe n held s (chooseVersion cfg) fun _ => True := by
  refine .get (.ite (fun _ => .pure trivial) fun _ => ?_)
  refine .ite (fun _ => .modify rfl trivial) fun _ => ?_
  refine .ite (fun _ => .modify_bind rfl .fail) fun _ => ?_
  exact .ite (fun _ => .modify rfl trivial) fun _ => .modify_bind rfl .fail

theorem helloDtls_safe : Safe n held s (helloDtls cfg n p) fun _ => True := by
  refine .get (.ite (fun _ => .bind (safe_held helloCookie_safe) fun _ _ _ _ => ?_) fun _ =>
    .pure trivial)
  exact .bind chooseVersion_safe fun _ _ _ _ => .pure trivial

theorem sessionSecret_safe : Safe n held s (sessionSecret cfg ciphers) fun _ => True := by
  refine .get (.ite (fun _ => .pure trivial) fun _ => ?_)
  rcases cfg.tls_session_secret_cb with _ | ⟨_ | _, pref_cipher⟩
  · exact .pure trivial
  · exact .pure trivial
  refine .modify_bind rfl ?_
  cases pref_cipher <|> cfg.choose_cipher ciphers with
  | none => exact .fail
  | some cipher => exact .modify rfl trivial

theorem helloTail_safe : Safe n held s (helloTail cfg n p ciphers cookie_valid) fun _ => True := by
  refine .bind (safe_held parseTlsext_safe) fun _ _ _ _ => .guard fun _ => ?_
  refine .bind sessionSecret_safe fun _ _ _ _ => ?_
  exact .bind (safe_held helloCipher_safe) fun _ _ _ _ => safe_held helloLate_safe

/-- All that follows the version reads below the end of the message. -/
theorem helloRest_safe : Safe n held s (helloRest cfg n p) fun _ => True := by
  refine .bind helloDtls_safe fun _ _ _ _ => .bind (safe_held helloCiphers_safe) fun _ _ _ _ => ?_
  exact .bind (safe_held helloCompression_safe) fun _ _ _ _ => helloTail_safe

end VigorTls.Hello
