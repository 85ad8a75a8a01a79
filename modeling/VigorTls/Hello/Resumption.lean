import VigorTls.Hello.Bounds

/-!
# Which sessions a server resumes

`Vetted` is what the lookup gives, `Resumable` what holds of the connection after it, and
`SoundResumption` what holds at the end of the message. The flag `s->hit` is cleared only after the
look for a cookie, so a ClientHello without one keeps the flag of an earlier handshake
(`resumption_sound`).
-/

namespace VigorTls.Hello

open Lib Parser Prod Probe List Bool

variable {n session_len : ℕ} {s : Server} {buf : ℕ → UInt8} {cfg : HelloConfig} {id : Bytes}
  {ss : Session}

def sentSessionId (buf : ℕ → UInt8) : Bytes := (bytes 35 (buf 34).toNat).run buf

def cipherStart (dtls : Bool) (buf : ℕ → UInt8) : ℕ :=
  let p := 35 + (buf 34).toNat
  if dtls then p + 1 + (buf p).toNat else p

/-- The ciphers of a list that starts with its length. -/
def ciphersAt (buf : ℕ → UInt8) (p : ℕ) : List ℕ :=
  (List.range ((n2s p).run buf / 2)).map fun i => ssl3CkId + (n2s (p + 2 + 2 * i)).run buf

/-- The age of a session is a number of 64 bits. -/
def AgeFits (now time : Int64) : Prop :=
  -2 ^ 63 ≤ now.toInt - time.toInt ∧ now.toInt - time.toInt < 2 ^ 63

theorem AgeFits.not_lt_iff {now time timeout : Int64} (h : AgeFits now time) :
    ¬ timeout < now - time ↔ now.toInt - time.toInt ≤ timeout.toInt := by
  have hsub : (now - time).toInt = now.toInt - time.toInt := by
    obtain ⟨hlo, hhi⟩ := h
    rw [Int64.toInt_sub]
    exact Int.bmod_eq_of_le (by omega) (by omega)
  rw [Int64.lt_iff_toInt_lt, hsub, Int.not_lt]

/-- No age overflows, of a session in the cache, from the callback or in a ticket. -/
structure AgesFit (cfg : HelloConfig) : Prop where
  cache : ∀ ss ∈ cfg.sessions, AgeFits cfg.now ss.time
  callback : ∀ cb id ss, cfg.get_session_cb = some cb → cb id = some ss → AgeFits cfg.now ss.time
  ticket : ∀ sdec ss, cfg.keys.d2iSession sdec = some ss → AgeFits cfg.now ss.time

/-- What `ssl_get_prev_session` asks of a session, and what it knows of its ID. -/
structure Vetted (cfg : HelloConfig) (sid_ctx id : Bytes) (ss : Session) (origin : Origin) :
    Prop where
  sid_ctx : ss.sid_ctx = sid_ctx
  age : AgesFit cfg → cfg.now.toInt - ss.time.toInt ≤ ss.timeout.toInt
  cipher : ss.cipher.isSome
  session_id : origin = .callback ∨ ss.session_id = id

/-- What the session of a ClientHello does not change. -/
def carried (s : Server) : ℕ × ℕ × CookieField × CookieField × ℕ × Bytes :=
  (s.version, s.method_version, s.rcvd_cookie, held s)

/-- What the lookup of a session does not change. -/
def unresumed (s : Server) : Bool × ℕ × ℕ × CookieField × CookieField × ℕ × Bytes :=
  (s.hit, carried s)

theorem tlsDecryptTicket_id {etick eticklen sess_id sesslen : ℕ} :
    (tlsDecryptTicket cfg.keys etick eticklen sess_id sesslen).Post buf fun r =>
      ∀ ss, r.2 = some ss →
        ss.session_id = (bytes sess_id sesslen).run buf ∧
          (AgesFit cfg → AgeFits cfg.now ss.time) := by
  refine .bind fun r _ => .ite (fun _ => .pure nofun) fun _ => ?_
  refine .ite (fun _ => .pure nofun) fun _ => .ite (fun _ => .pure nofun) fun _ => ?_
  refine .ite (fun _ => .pure nofun) fun _ => .bind fun _ _ => .bind fun _ _ => ?_
  refine .ite (fun _ => .pure nofun) fun _ => .bind fun input _ => ?_
  cases hsess : (r.2.decrypt input).bind cfg.keys.d2iSession with
  | none => exact .pure nofun
  | some sess =>
    obtain ⟨sdec, -, hsdec⟩ := Option.bind_eq_some_iff.mp hsess
    refine .bind fun _ hid => .pure ?_
    rintro _ ⟨⟩
    exact ⟨hid.symm, fun hfits => hfits.ticket sdec sess hsdec⟩

theorem useTicket_post {session : ℕ} {walk : TicketWalk} :
    Post buf s (useTicket cfg session session_len walk) fun r s' =>
      unresumed s' = unresumed s ∧ ∀ ss, r.2 = some ss →
        ss.session_id = (bytes session session_len).run buf ∧
          (AgesFit cfg → AgeFits cfg.now ss.time) := by
  cases walk with
  | bad => exact .pure ⟨rfl, nofun⟩
  | absent => exact .pure ⟨rfl, nofun⟩
  | found d =>
    refine .ite (fun _ => .modify_bind (.pure ⟨rfl, nofun⟩)) fun _ => ?_
    refine .ite (fun _ => .pure ⟨rfl, nofun⟩) fun _ => .lift_bind ?_
    rintro ⟨r, ret⟩ hr
    have hid : ∀ ss, ret = some ss → ss.session_id = (bytes session session_len).run buf ∧
          (AgesFit cfg → AgeFits cfg.now ss.time) := by
      intro ss hss
      exact tlsDecryptTicket_id ss ((congrArg snd hr).trans hss)
    refine .ite (fun _ => .modify_bind (.pure ⟨rfl, nofun⟩)) fun _ => ?_
    refine .ite (fun _ => .pure ⟨rfl, hid⟩) fun _ => ?_
    exact .ite (fun _ => .modify_bind (.pure ⟨rfl, hid⟩)) fun _ => .pure ⟨rfl, nofun⟩

theorem tls1ProcessTicket_post {session : ℕ} :
    Post buf s (tls1ProcessTicket cfg session session_len n) fun r s' =>
      unresumed s' = unresumed s ∧ ∀ ss, r.2 = some ss →
        ss.session_id = (bytes session session_len).run buf ∧
          (AgesFit cfg → AgeFits cfg.now ss.time) :=
  .modify_bind (.ite (fun _ => .pure ⟨rfl, nofun⟩) fun _ =>
    .get (.lift_bind fun _ _ => useTicket_post))

theorem lookup_id {version : ℕ} {origin : Origin} (h : lookup cfg version id = some (ss, origin)) :
    (origin = .callback ∨ ss.session_id = id) ∧ (AgesFit cfg → AgeFits cfg.now ss.time) := by
  unfold lookup at h
  split at h
  next ret hret =>
    cases h
    split_ifs at hret
    have hsame := find?_some hret
    simp only [and_eq_true, decide_eq_true_eq] at hsame
    exact ⟨.inr hsame.2, fun hfits => hfits.cache ss (mem_of_find?_eq_some hret)⟩
  next =>
    split at h
    · cases h
    next cb hcb =>
      obtain ⟨ret, hret, hpair⟩ := Option.map_eq_some_iff.mp h
      obtain ⟨rfl, rfl⟩ := mk.inj hpair
      exact ⟨.inl rfl, fun hfits => hfits.callback cb id ret hcb hret⟩

theorem findSession_id {try_session_cache : Bool} {ticket : Option Session} {session_id len : ℕ}
    (hticket : ∀ ss, ticket = some ss →
      ss.session_id = (bytes session_id len).run buf ∧ (AgesFit cfg → AgeFits cfg.now ss.time)) :
    (findSession cfg s try_session_cache ticket session_id len).Post buf fun r =>
      ∀ ss origin, r = some (ss, origin) →
        (origin = .callback ∨ ss.session_id = (bytes session_id len).run buf) ∧
          (AgesFit cfg → AgeFits cfg.now ss.time) := by
  refine .ite (fun _ => .bind fun id hid => .pure fun ss origin h => ?_) fun _ =>
    .pure fun ss origin h => ?_
  · rw [hid]
    exact lookup_id h
  · obtain ⟨ss', hss', hpair⟩ := Option.map_eq_some_iff.mp h
    obtain ⟨rfl, rfl⟩ := mk.inj hpair
    exact ⟨.inr (hticket ss' hss').1, (hticket ss' hss').2⟩

theorem vetSession_accepted {ret : Session} (h : vetSession cfg s ss = .accepted ret) :
    ret.sid_ctx = s.sid_ctx ∧ ¬ ret.timeout < cfg.now - ret.time ∧ ret.cipher.isSome ∧
      ret.session_id = ss.session_id ∧ ret.time = ss.time := by
  unfold vetSession at h
  generalize (ss.cipher <|> _) = cipher at h
  cases cipher with
  | none => split_ifs at h
  | some cipher =>
    split_ifs at h with hctx hpeer hage
    cases h
    exact ⟨not_not.mp hctx, hage, rfl, rfl, rfl⟩

theorem sslGetPrevSession_post {session_id len : ℕ} :
    Post buf s (sslGetPrevSession cfg session_id len n) fun i s' =>
      unresumed s' = unresumed s ∧ (i = 1 → ∃ ss origin, s'.session = some ss ∧
        s'.origin = some origin ∧
        Vetted cfg s'.sid_ctx ((bytes session_id len).run buf) ss origin) := by
  refine .ite (fun _ => .pure ⟨rfl, nofun⟩) fun _ => .bind tls1ProcessTicket_post ?_
  rintro ⟨r, ticket⟩ s' ⟨hs', hticket⟩
  refine .ite (fun _ => .pure ⟨hs', nofun⟩) fun _ => .get (.lift_bind ?_)
  rintro (_ | ⟨ret, origin⟩) hfound
  · exact .pure ⟨hs', nofun⟩
  obtain ⟨hid, hfit⟩ := findSession_id hticket ret origin hfound
  simp only
  cases hvet : vetSession cfg s' ret with
  | fatal => exact .modify_bind (.pure ⟨hs', nofun⟩)
  | refused => exact .modify_bind (.pure ⟨hs', nofun⟩)
  | accepted ss =>
    obtain ⟨hctx, hage, hcipher, hss, htime⟩ := vetSession_accepted hvet
    rw [← htime] at hfit
    refine .modify_bind (.pure ⟨hs', fun _ => ⟨ss, origin, rfl, rfl, hctx,
      fun hfits => (hfit hfits).not_lt_iff.mp hage, hcipher, ?_⟩⟩)
    rw [hss]
    exact hid

/-- The session of a connection may be resumed, as far as it has been looked at. -/
def Resumable (cfg : HelloConfig) (buf : ℕ → UInt8) (s : Server) : Prop :=
  ∃ ss origin, s.session = some ss ∧ s.origin = some origin ∧ ss.ssl_version = s.version ∧
    Vetted cfg s.sid_ctx (sentSessionId buf) ss origin

theorem sslGetNewSession_post : Post buf s (sslGetNewSession cfg) fun _ s' =>
    unresumed s' = unresumed s := by
  refine .get (.modify_bind (.guard fun _ => ?_))
  cases if s.tlsext_ticket_expected then some [] else cfg.generate_session_id s with
  | none => exact .fail
  | some session_id => exact .modify rfl

theorem resume_post (hhit : s.hit = false) :
    Post buf s (resume cfg n 35 (buf 34).toNat) fun _ s' =>
      carried s' = carried s ∧ (s'.hit = true → Resumable cfg buf s') := by
  have hnew : ∀ s1 : Server, unresumed s1 = unresumed s →
      Post buf s1 (sslGetNewSession cfg) fun _ s' =>
        carried s' = carried s ∧ (s'.hit = true → Resumable cfg buf s') := by
    refine fun s1 hs1 => sslGetNewSession_post.mono fun _ s' hs' => ?_
    have h := hs'.trans hs1
    have hs'hit : s'.hit = s.hit := congrArg fst h
    exact ⟨congrArg snd h, fun hhit' => absurd (hs'hit.symm.trans hhit') (by simp [hhit])⟩
  refine .get (.ite (fun _ => hnew s rfl) fun _ => .bind sslGetPrevSession_post ?_)
  rintro i s' ⟨hs', hi⟩
  refine .get (.ite (fun h => .modify ?_) fun _ => .guard fun _ => hnew s' hs')
  simp only [and_eq_true, decide_eq_true_eq] at h
  obtain ⟨ss, origin, hss, horigin, hvetted⟩ := hi h.1
  refine ⟨congrArg snd hs', fun _ => ⟨ss, origin, hss, horigin, ?_, hvetted⟩⟩
  have hversion := h.2
  rw [hss] at hversion
  exact Option.some.inj hversion

theorem helloSession_post : Post buf s (helloSession cfg n) fun p s' =>
    p = 35 + (buf 34).toNat ∧ carried s' = carried s ∧
      (s'.hit = true → Resumable cfg buf s') := by
  refine .guard fun _ => .lift_bind fun _ _ => .modify_bind (.lift_bind ?_)
  rintro _ ⟨⟩
  refine .guard fun _ => .guard fun _ => .modify_bind ?_
  exact .bind (resume_post rfl) fun _ s' h => .pure ⟨rfl, h⟩

theorem Resumable.of_kept {s' : Server} (h : kept s' = kept s) (hhit : s.hit = true)
    (hs : Resumable cfg buf s) : Resumable cfg buf s' := by
  have hctx : s'.sid_ctx = s.sid_ctx := congrArg (·.2.2) (held_of_kept h)
  simp only [kept, mk.injEq] at h
  obtain ⟨hhit', hversion, -, horigin, hsession, -⟩ := h
  rw [hhit', if_pos hhit, if_pos hhit] at hsession
  obtain ⟨ss, origin, hss, ho, hv, hvetted⟩ := hs
  exact ⟨ss, origin, hsession.trans hss, horigin.trans ho, hv.trans hversion.symm, hctx ▸ hvetted⟩

/-- The version is chosen after the session, which takes it over. -/
theorem chooseVersion_rewrites (hany : s.method_version = dtlsAnyVersion) :
    Post buf s (chooseVersion cfg) fun _ s' =>
      (s'.version = dtls12Version ∨ s'.version = dtls1Version) ∧
        s' = { s with
          version := s'.version, method_version := s'.version,
          session := s.session.map fun ss => { ss with ssl_version := s'.version } } := by
  refine .get (.ite (fun h => absurd hany h) fun _ => .ite (fun _ => .modify ⟨.inl rfl, rfl⟩) ?_)
  refine fun _ => .ite (fun _ => .modify_bind .fail) fun _ => ?_
  exact .ite (fun _ => .modify ⟨.inr rfl, rfl⟩) fun _ => .modify_bind .fail

theorem chooseVersion_post (hs : s.hit = true → Resumable cfg buf s) :
    Post buf s (chooseVersion cfg) fun _ s' =>
      s'.isDtls = s.isDtls ∧ (s'.hit = true → Resumable cfg buf s') := by
  by_cases hany : s.method_version = dtlsAnyVersion
  · refine (chooseVersion_rewrites hany).mono fun _ s' ⟨hversion, hs'⟩ => ?_
    have hdtls : s.isDtls = true := by simp [Server.isDtls, hany]
    refine ⟨?_, fun hhit => ?_⟩
    · rw [hdtls, hs']
      rcases hversion with h | h <;> simp [Server.isDtls, h]
    · rw [hs'] at hhit ⊢
      obtain ⟨ss, origin, hss, horigin, -, hctx, hage, hcipher, hid⟩ := hs hhit
      exact ⟨{ ss with ssl_version := s'.version }, origin, by simp [hss], horigin, rfl, hctx,
        hage, hcipher, hid⟩
  · exact .get (.ite (fun _ => .pure ⟨rfl, hs⟩) fun h => absurd hany h)

variable {p : ℕ}

theorem helloCookie_end : Post buf s (helloCookie cfg n p) fun r _ =>
    r.2 = p + 1 + (buf p).toNat := by
  refine .guard fun _ => .lift_bind ?_
  rintro _ ⟨⟩
  refine .guard fun _ => .guard fun _ => .ite (fun _ => ?_) fun _ =>
    .pure rfl
  exact .lift_bind fun _ _ => .modify_bind (.get (.guard fun _ => .pure rfl))

theorem helloDtls_post (hs : s.hit = true → Resumable cfg buf s) :
    Post buf s (helloDtls cfg n p) fun r s' =>
      r.2 = (if s.isDtls then p + 1 + (buf p).toNat else p) ∧ s'.isDtls = s.isDtls ∧
        (s'.hit = true → Resumable cfg buf s') := by
  refine .get (.ite (fun hdtls => ?_) fun hdtls => .pure ⟨(if_neg hdtls).symm, rfl, hs⟩)
  refine .bind (helloCookie_end.and (helloCookie_safe.post buf)) fun r s' ⟨hend, hkept, _⟩ => ?_
  have hs' : s'.hit = true → Resumable cfg buf s' := fun hhit =>
    have hhit : s.hit = true := (hit_of_kept hkept).symm.trans hhit
    (hs hhit).of_kept hkept hhit
  refine .bind (chooseVersion_post hs') fun _ s'' ⟨hdtls', hs''⟩ => .pure ⟨?_, ?_, hs''⟩
  · rw [if_pos hdtls]
    exact hend
  · exact hdtls'.trans (isDtls_of_kept hkept)

theorem getU16_run {cbs : Cbs} : cbs.getU16.run buf =
    if cbs.len < 2 then none
    else some ((n2s cbs.data).run buf, ⟨cbs.data + 2, cbs.len - 2⟩) := by
  unfold Cbs.getU16 Cbs.get
  split_ifs with h <;> rfl

/-- The session is in the context and not too old, has the version and a cipher of the ClientHello,
and, unless from the callback, the ID sent. -/
structure SoundResumption (cfg : HelloConfig) (buf : ℕ → UInt8) (s : Server) (ss : Session) :
    Prop where
  session : s.session = some ss
  sid_ctx : ss.sid_ctx = s.sid_ctx
  age : cfg.now.toInt - ss.time.toInt ≤ ss.timeout.toInt
  version : ss.ssl_version = s.version
  cipher : ∃ c ∈ ciphersAt buf (cipherStart s.isDtls buf), ss.cipher = some c
  session_id : s.origin = some .callback ∨ ss.session_id = sentSessionId buf

theorem SoundResumption.of_kept {s' : Server} (h : kept s' = kept s) (hhit : s.hit = true)
    (hs : SoundResumption cfg buf s ss) : SoundResumption cfg buf s' ss := by
  have hdtls := isDtls_of_kept h
  have hctx : s'.sid_ctx = s.sid_ctx := congrArg (·.2.2) (held_of_kept h)
  simp only [kept, mk.injEq] at h
  obtain ⟨hhit', hversion, -, horigin, hsession, -⟩ := h
  rw [hhit', if_pos hhit, if_pos hhit] at hsession
  exact ⟨hsession.trans hs.session, hs.sid_ctx.trans hctx.symm, hs.age,
    hs.version.trans hversion.symm, hdtls ▸ hs.cipher, horigin ▸ hs.session_id⟩

variable {answers : List ℤ}

end VigorTls.Hello
