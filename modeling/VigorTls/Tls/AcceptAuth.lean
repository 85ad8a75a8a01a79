import VigorTls.Tls.Collected

/-!
# The turns of a server keep what is collected

One lemma for each function that client authentication rests on.
-/

namespace VigorTls.Tls

open Lib Option HsState List

variable {cfg : Config} {s s' s₁ : Conn} {x : HsState}

/-! ## What the server does with a message -/

theorem freeHandshakeBuffer_eq (hkeep : s.transcript.keep_handshake = true →
    s.transcript.handshake_buffer.isSome = true) :
    ∃ t : Transcript, t.keep_handshake = false ∧
      freeHandshakeBuffer s = { s with transcript := t } := by
  unfold freeHandshakeBuffer
  split_ifs with hbuf
  · exact ⟨_, rfl, rfl⟩
  · exact ⟨s.transcript, Bool.eq_false_of_not_eq_true fun h => hbuf (hkeep h), rfl⟩

section

variable (o : Oracle) (hb : s.Ordinary cfg)

include hb

theorem clientHelloLate_auth (hearly : s.collected.Early) :
    Auth cfg ((clientHelloLate cfg o s).andThen afterClientHello) := by
  have hgo {t : Transcript} h : Auth cfg (afterClientHello { s with transcript := t }) :=
    auth_go ⟨hb, h.keep, h, hearly.starts⟩ rfl
  have herr {t : Transcript} h :
      Auth cfg (({ s with transcript := t }).error.andThen afterClientHello) :=
    auth_err hb rfl h
  have hkeep := hearly.recorded.keep
  unfold clientHelloLate
  by_cases hd : (!cfg.tls12 || !s.verify_mode.peer) = true
  · simp only [if_pos hd]
    split_ifs with hgood
    · exact hgo (hearly.recorded.digest ((Bool.and_eq_true _ _).mp hgood).1).1
    · exact herr ((digest_keep_handshake _).trans hkeep)
  · simp only [if_neg hd]
    split_ifs
    · exact hgo hearly.recorded
    · exact herr hkeep

theorem clientHelloRetryCert_auth (hst : s.state = .srClntHello) (hearly : s.collected.Early)
    (htyped : Typed (some ssl3MtClientHello) s.m) :
    Auth cfg ((clientHelloRetryCert cfg o s).andThen afterClientHello) := by
  have hkeep := hearly.recorded.keep
  unfold clientHelloRetryCert
  split_ifs
  · exact auth_err hb rfl hkeep
  · -- The callback is called again in the next turn.
    refine auth_leave hb (hst ▸ rfl) (keeps_nothing hkeep) (fun _ => ?_) ?_
      (fun _ _ _ => hearly.starts) fun h => by cases hst.symm.trans h
    · rw [hst]
      exact htyped
    · rw [hst]
      exact ⟨hearly.recorded, .inr hearly.starts⟩
  · exact auth_err hb rfl hkeep
  · exact clientHelloLate_auth o hb ⟨hearly.recorded, hearly.starts⟩

theorem clientHello_auth (hst : s.state = .srClntHello) (hearly : s.collected.Early)
    (htyped : Typed (some ssl3MtClientHello) s.m) :
    Auth cfg ((ssl3GetClientHello cfg o s).andThen afterClientHello) := by
  have hkeep := hearly.recorded.keep
  unfold ssl3GetClientHello
  dsimp only
  split_ifs
  · exact auth_err hb rfl hkeep
  · exact auth_go ⟨hb, hkeep, hearly.recorded, hearly.starts⟩ rfl
  · exact auth_err hb rfl hkeep
  · exact clientHelloLate_auth o hb ⟨hearly.recorded, hearly.starts⟩
  · exact clientHelloRetryCert_auth o hb hst ⟨hearly.recorded, hearly.starts⟩ htyped
  · exact clientHelloLate_auth o hb ⟨hearly.recorded, hearly.starts⟩
  · exact clientHelloRetryCert_auth o hb hst ⟨hearly.recorded, hearly.starts⟩ htyped

theorem clientCertificate_auth (hearly : s.collected.Early) (hrequest : s.cert_request = true) :
    Auth cfg ((ssl3GetClientCertificate cfg o s).andThen fun s => s.go .srKeyExch) := by
  have hkeep := hearly.recorded.keep
  have herr {t : Transcript} h :
      Auth cfg (({ s with transcript := t }).error.andThen fun s => s.go .srKeyExch) :=
    auth_err hb rfl h
  unfold ssl3GetClientCertificate
  by_cases hkex : s.m.message_type = ssl3MtClientKeyExchange
  · rw [if_pos hkex, if_pos hrequest, ite_self]
    exact herr hkeep
  by_cases hcert : s.m.message_type ≠ ssl3MtCertificate
  · rw [if_neg hkex, if_pos hcert]
    exact herr hkeep
  rw [if_neg hkex, if_neg hcert]
  cases clientCerts cfg s.m.msg with
  | none => exact herr hkeep
  | some certs =>
    cases certs with
    | nil =>
      by_cases hrequired : s.verify_mode.required = true
      · rw [if_pos hrequired]
        exact herr hkeep
      rw [if_neg hrequired]
      have hgo {t : Transcript} h : Auth cfg
          ({ s with transcript := t, session := { s.session with peer := none } }.go .srKeyExch) :=
        auth_go ⟨hb, h.keep, ⟨h, hearly.starts⟩, (absurd · hrequired)⟩ rfl
      have hrec : Recorded s.transcript s.ghost.log := hearly.recorded
      obtain ⟨hd, hrec, -⟩ := hrec.cached hearly.starts.flatten_ne
      dsimp only
      rw [if_pos hd]
      exact hgo hrec
    | cons x xs =>
      dsimp only
      split_ifs
      · exact auth_go ⟨hb, hkeep, ⟨hearly.recorded, hearly.starts⟩, fun _ _ => nofun⟩ rfl
      · exact herr hkeep

theorem afterKeyExchange_auth (hearly : s.collected.Early) (hspan : Span s.ghost.log s.ghost.log)
    (hpresented : s.collected.Presented) : Auth cfg (afterKeyExchange cfg s) := by
  have hrec : Recorded s.transcript s.ghost.log := hearly.recorded
  have hfail {t : Transcript} h : Auth cfg ({ s.go .srCertVrfy with transcript := t }).failAt :=
    auth_err hb rfl h
  have hgo t md (hkeep : t.keep_handshake = true → t.handshake_buffer.isSome = true)
      (hsignable : ({ s with transcript := t, cert_verify_md := md }).collected.Signable cfg) :
      Auth cfg ({ s with transcript := t, cert_verify_md := md }.go .srCertVrfy) :=
    auth_enter hb (fun hk => ⟨rfl, hkeep hk⟩) ⟨rfl, fun _ => rfl⟩ rfl ⟨hsignable, hpresented⟩
  unfold afterKeyExchange
  generalize hs1 : s.go .srCertVrfy = s₁
  have ht : s₁.transcript = s.transcript := by rw [← hs1]; rfl
  have hp : s₁.session.peer = s.session.peer := by rw [← hs1]; rfl
  dsimp only
  by_cases htls : cfg.tls12 = true
  · rw [if_pos htls, hp, ht]
    cases hpeer : s.session.peer with
    | none =>
      rw [← hs1]
      refine auth_go ⟨hb, hrec.keep, fun x hx => ?_, hpresented⟩ rfl
      cases hpeer.symm.trans hx
    | some x =>
      cases hbuf : s.transcript.handshake_buffer with
      | none =>
        rw [← hs1]
        exact hfail hrec.keep
      | some b =>
        rcases digest_cases ⟨some b, s.transcript.handshake_dgst, true⟩ with ⟨hdata, -⟩ | ⟨-, heq⟩
        · exact absurd ((hrec.buffer b hbuf).symm.trans hdata) hearly.starts.flatten_ne
        rw [heq, ← hs1]
        refine hgo ⟨some b, some b, true⟩ s.cert_verify_md (fun _ => rfl) fun y _ =>
          ⟨s.ghost.log, hspan, ?_⟩
        rw [if_pos htls, hrec.buffer b hbuf]
        exact ⟨rfl, rfl⟩
  · rw [if_neg htls, ht]
    obtain ⟨hd, h, hbuf⟩ := hrec.cached hearly.starts.flatten_ne
    rw [if_pos hd, ← hs1]
    refine hgo (digestCached s.transcript).2 _ (fun hk => by cases h.keep.symm.trans hk)
      fun y _ => ⟨s.ghost.log, hspan, ?_⟩
    rw [if_neg htls, h.dgst hbuf]
    rfl

theorem afterCertVerify_auth (hkeep : s.transcript.keep_handshake = false)
    (hlate : s.collected.Late cfg) : Auth cfg (afterCertVerify s) := by
  unfold afterCertVerify
  split_ifs <;> exact auth_go ⟨hb, hkeep, hlate⟩ rfl

theorem certVerify_auth (hkeep : s.transcript.keep_handshake = true →
    s.transcript.handshake_buffer.isSome = true) (hsignable : s.collected.Signable cfg)
    (hpresented : s.collected.Presented) :
    Auth cfg ((ssl3GetCertVerify cfg s).andThen afterCertVerify) := by
  unfold ssl3GetCertVerify
  cases hv : s.session.peer.bind (checkCertVerify cfg s) with
  | none =>
    obtain ⟨t, ht, heq⟩ := freeHandshakeBuffer_eq hkeep
    rw [heq]
    exact auth_err hb rfl ht
  | some v =>
    obtain ⟨t, ht, heq⟩ := freeHandshakeBuffer_eq
      (s := { s with ghost := { s.ghost with verified := some v } }) hkeep
    dsimp only
    rw [heq]
    refine afterCertVerify_auth hb ht fun _ => ⟨fun x hx => ?_, hpresented⟩
    obtain ⟨y, hy, hcheck⟩ := bind_eq_some_iff.mp hv
    obtain rfl : y = x := Option.some.inj (hy.symm.trans hx)
    obtain ⟨_, -, hcheck⟩ := bind_eq_some_iff.mp hcheck
    obtain ⟨⟨sigalg, sig⟩, -, hcheck⟩ := bind_eq_some_iff.mp hcheck
    obtain ⟨data, hdata, hcheck⟩ := bind_eq_some_iff.mp hcheck
    obtain ⟨_, hverify, hcheck⟩ := bind_eq_some_iff.mp hcheck
    cases hcheck
    obtain ⟨ms, hspan, hms⟩ := hsignable y hy
    refine ⟨_, ms, rfl, rfl, by simpa using hverify, hspan, ?_⟩
    -- The signature is checked over the messages that were kept.
    unfold certVerifyData at hdata
    split_ifs at hdata hms
    · split at hdata
      · next b bs hbuf =>
        rw [← Option.some.inj hdata]
        exact Option.some.inj (hbuf.symm.trans hms.1)
      · exact nomatch hdata
    · exact (Option.some.inj hdata).symm.trans hms

theorem finished_auth (hst : s.state = .srFinished) (hkeep : s.transcript.keep_handshake = false)
    (htyped : Typed (acceptCall cfg s.state).1 s.m) (hlate : s.collected.Late cfg) :
    Auth cfg ((ssl3GetFinished o s).andThen fun s =>
      if s.hit then s.go .ok
      else s.go (if s.tlsext_ticket_expected then .swSessionTicket else .swChange)) := by
  have hleave change : Auth cfg (Conn.leave { s with change_cipher_spec := change }) := by
    refine auth_leave hb (by change s.state.flushes = false; rw [hst]; rfl)
      (keeps_nothing hkeep) (fun _ => htyped) ?_ (fun h => by cases hst.symm.trans h)
      fun h => by cases hst.symm.trans h
    rw [hst]
    exact hlate
  unfold ssl3GetFinished
  split_ifs with hchange hok
  · exact hleave s.change_cipher_spec
  · exact hleave false
  rw [Returned.andThen]
  generalize hevent : Event.finished _ _ _ = event
  have hgo {st : HsState} (hflush : st.flushes = false) (hev : s.collected.Evidence cfg st) :
      Auth cfg (({ s with change_cipher_spec := false }.emit event).go st) := by
    refine auth_go ⟨⟨hb.1, hb.2, ?_⟩, hkeep, hev⟩ hflush
    rw [← hevent]
    exact forall_mem_append.mpr ⟨hb.events, forall_mem_singleton.mpr trivial⟩
  split_ifs
  · exact hgo rfl fun _ => hlate
  · exact hgo rfl hlate
  · exact hgo rfl hlate

end

/-- What has been collected when the message of a state has been read. -/
def Collected.Heard (cfg : Config) (c : Collected) : HsState → Prop
  | .srClntHello => c.Early
  | .srCert => c.Early ∧ c.cert_request = true
  | .srKeyExch => c.Early ∧ c.Presented ∧ Span c.log c.log
  | x => c.Evidence cfg x

theorem Collected.Heard.evidence {c : Collected} (h : c.Heard cfg x) : c.Evidence cfg x := by
  cases x <;> first
    | exact h
    | exact h.1
    | exact ⟨h.1, h.2.1⟩
    | exact ⟨h.recorded, .inr h.starts⟩

theorem acceptGot_auth (o : Oracle) (hb : s.Ordinary cfg) (hreads : s.state.reads = true)
    (hkeep : s.KeepsBuffer) (htyped : Typed (acceptCall cfg s.state).1 s.m)
    (hheard : s.collected.Heard cfg s.state) : Auth cfg (acceptGot cfg o s) := by
  have hfree {x : HsState} (hst : s.state = x) (hx : x ≠ .srCertVrfy) :
      s.transcript.keep_handshake = false :=
    Bool.eq_false_of_not_eq_true fun h => hx (hst.symm.trans (hkeep h).1)
  unfold acceptGot
  split
  next srClntHello =>
    rw [srClntHello] at hheard htyped
    exact clientHello_auth o hb srClntHello hheard htyped
  next srCert =>
    rw [srCert] at hheard
    exact clientCertificate_auth o hb hheard.1 hheard.2
  next srKeyExch =>
    rw [srKeyExch] at hheard
    unfold ssl3GetClientKeyExchange
    split_ifs
    · exact auth_err hb rfl (hfree srKeyExch nofun)
    · exact afterKeyExchange_auth hb hheard.1 hheard.2.2 hheard.2.1
  next srCertVrfy =>
    rw [srCertVrfy] at hheard
    exact certVerify_auth hb (fun h => (hkeep h).2) hheard.1 hheard.2
  next srNextProto =>
    rw [srNextProto] at hheard
    have herr : Auth cfg (s.error.andThen fun s => s.go .srFinished) :=
      auth_err hb rfl (hfree srNextProto nofun)
    unfold ssl3GetNextProto
    split_ifs
    · exact herr
    · exact herr
    · split
      · exact auth_go ⟨hb, hfree srNextProto nofun, hheard⟩ rfl
      · exact herr
  next srFinished =>
    rw [srFinished] at hheard
    exact finished_auth o hb srFinished (hfree srFinished nofun) htyped hheard
  next h1 _ _ _ _ _ =>
    exact auth_leave hb (reads_spec hreads).1 hkeep (fun _ => htyped) hheard.evidence
      (absurd · h1) fun h => nomatch h ▸ hreads

/-- Where `ssl3_get_message` gets with a message of the type asked for. -/
def Progress.Meets (mt : Option UInt8) : Progress → Prop
  | .want _ m => Typed mt m ∧ m.reuse_message = false
  | .got m => Typed mt m ∧ m.reuse_message = false ∧ m.Complete
  | .reused _ => False
  | .alert _ m => Typed mt m ∧ m.reuse_message = false

theorem messageResume_meets {mt : Option UInt8} {m : MessageState} (max : ℕ) (htyped : Typed mt m)
    (hr : m.reuse_message = false) : (messageResume true mt max m).Meets mt := by
  have h := messageResume_typed true max htyped
  have hcases := messageResume_cases true mt max m
  rw [hr] at hcases
  cases hp : messageResume true mt max m with
  | want len m' =>
    rw [hp] at h hcases
    exact ⟨h, hcases.2.1⟩
  | got m' =>
    rw [hp] at h hcases
    exact ⟨h, hcases.2.1, hcases.1⟩
  | reused m' =>
    rw [hp] at h
    exact h
  | alert al m' =>
    rw [hp] at h hcases
    exact ⟨h, hcases.1⟩

theorem Logged.got (m : MessageState) (hm : m.reuse_message = s.m.reuse_message) :
    Logged s ((ssl3TakeMac { s with m := m }).finishMac m.hashed) := by
  have hplace : Logged s { s with m := m } := .of_eq rfl rfl hm rfl rfl
  refine (hplace.trans ?_).trans (.finishMac _ _)
  unfold ssl3TakeMac
  split_ifs
  · exact .final _
  · exact .refl _

theorem got_log (s : Conn) (m : MessageState) :
    ((ssl3TakeMac { s with m := m }).finishMac m.hashed).ghost.log = s.ghost.log ++ [m.hashed] := by
  unfold ssl3TakeMac
  split_ifs <;> rfl

theorem Auth.heard {m : MessageState} (ha : Auth cfg s) (hreads : s.state.reads = true)
    (hrequest : s.state = .srCert → s.cert_request = true)
    (htyped : Typed (acceptCall cfg s.state).1 m) (hm : m.Complete) (hlogged : Logged s s')
    (hlog : s'.ghost.log = s.ghost.log ++ [m.hashed]) : s'.collected.Heard cfg s.state := by
  have hev := ha.evidence_at rfl (reads_spec hreads).1
  have hlog : s'.collected.log = s.ghost.log ++ [m.hashed] := hlog
  have hevidence hne := hlogged.evidence hne hev
  cases hst : s.state with
  | srClntHello =>
    rw [hst] at hev htyped
    refine ⟨hlogged.recorded hev.1, ?_⟩
    rw [hlog]
    exact .of_nil hev.2 (htyped.hashed hm)
  | srCert =>
    rw [hst] at hevidence
    refine ⟨hevidence nofun, ?_⟩
    rw [hlogged.collected]
    exact hrequest hst
  | srKeyExch =>
    rw [hst] at hevidence hev htyped
    obtain ⟨hearly, hpresented⟩ := hevidence nofun
    refine ⟨hearly, hpresented, ?_⟩
    rw [hlog]
    exact hev.1.starts.span (htyped.hashed hm)
  | _ =>
    rw [hst] at hevidence
    exact hevidence nofun

theorem progress_auth (o : Oracle) {p : Progress} {got : Conn → Conn}
    (hgot : ∀ s, s.server = true → got s = acceptGot cfg o s) (ha : Auth cfg s)
    (hreads : s.state.reads = true) (hpacket : s.state = .srClntHello → s.first_packet = true)
    (hrequest : s.state = .srCert → s.cert_request = true)
    (hp : p.Meets (acceptCall cfg s.state).1) :
    Auth cfg (s.progress got p) := by
  have hev := ha.evidence_at rfl (reads_spec hreads).1
  have hok : s.state ≠ .ok := fun h => nomatch h ▸ hreads
  have hretry : s.state = .srClntHello → s.first_packet = false → Starts s.ghost.log :=
    fun h hf => nomatch (hpacket h).symm.trans hf
  cases p with
  | want len m =>
    exact ⟨⟨ha.ordinary.server, hp.2, ha.ordinary.events⟩, ha.keep, fun _ => hp.1, ha.evidence,
      fun h _ => hretry h,
      fun _ _ => ⟨hpacket, hrequest⟩, fun h => absurd h hok⟩
  | got m =>
    obtain ⟨htyped, hr, hm⟩ := hp
    have hlogged : Logged s _ := .got m (hr.trans ha.ordinary.reuse.symm)
    have hlog := got_log s m
    have hm' := (finishMac_takeMac s m m.hashed).2.1
    dsimp only [Conn.progress]
    generalize (ssl3TakeMac { s with m := m }).finishMac m.hashed = s₁ at hlogged hlog hm'
    have hb := hlogged.ordinary ha.ordinary
    rw [hgot s₁ hb.server]
    refine acceptGot_auth o hb (by rw [hlogged.state]; exact hreads) (fun h => ?_)
      (by rw [hlogged.state, hm']; exact htyped) ?_
    · have hk := hlogged.keep.symm.trans h
      rw [hlogged.state, hlogged.kept hk]
      exact ha.keep hk
    · rw [hlogged.state]
      exact ha.heard hreads hrequest htyped hm hlogged hlog
  | reused m => exact hp.elim
  | alert al m =>
    exact auth_leave ⟨ha.ordinary.server, hp.2, ha.ordinary.events⟩ (reads_spec hreads).1 ha.keep
      (fun _ => hp.1) hev (fun h _ => hretry h) (absurd · hok)

theorem acceptGet_auth (o : Oracle) (ha : Auth cfg s) (hreads : s.state.reads = true)
    (hpacket : s.state = .srClntHello → s.first_packet = true)
    (hrequest : s.state = .srCert → s.cert_request = true) : Auth cfg (acceptGet cfg o s) := by
  refine progress_auth o (fun _ _ => rfl) ha hreads hpacket hrequest ?_
  unfold ssl3GetMessage
  rw [ha.ordinary.reuse, ha.ordinary.server]
  exact messageResume_meets _ (ha.typed hreads) ha.ordinary.reuse

theorem Auth.leave (ha : Auth cfg s) (hok : s.state = .ok → s.renegotiate ≠ 2) : Auth cfg s.leave :=
  ⟨ha.ordinary, ha.keep, ha.typed, ha.evidence, ha.retry, fun _ h => (nomatch h),
    fun h h2 => absurd h2 (hok h)⟩

theorem begin_auth (hb : s.Ordinary cfg) (hkeep : s.transcript.keep_handshake = false) :
    Auth cfg (s.begin.initFinishedMac.become .srClntHello) :=
  Ready.auth ⟨hb, hkeep, .start hkeep, .inl rfl⟩ ⟨rfl, fun _ => rfl⟩ rfl

section

variable (o : Oracle) (ha : Auth cfg s)

include ha

theorem helloRequest_auth (hst : s.state = .swHelloReq) :
    Auth cfg ((sendMessage o ssl3MtHelloRequest
      { s with received_shutdown := false, sent_shutdown := false }).andThen fun s =>
        ({ s with next_state := .swHelloReqC }.go .swFlush).initFinishedMac) := by
  have hr := ha.ready hst rfl nofun
  refine Wrote.auth (sendMessage_wrote o _ _) hst rfl ⟨hr.ordinary, hr.keep, hr.evidence⟩
    fun s' hr' => ?_
  exact Ready.auth ⟨hr'.ordinary, hr'.keep, hr'.evidence⟩ ⟨rfl, nofun⟩ rfl

theorem clientHelloTurn_auth (hst : s.state = .srClntHello) :
    Auth cfg (if s.m.part = .body && !s.first_packet then
      (clientHelloRetryCert cfg o s).andThen afterClientHello
      else acceptGet cfg o { s with first_packet := true }) := by
  have hev := ha.evidence_at hst rfl
  split_ifs with hretry
  · obtain ⟨hpart, hpacket⟩ : s.m.part = .body ∧ s.first_packet = false := by simpa using hretry
    have htyped := ha.typed (hst ▸ rfl)
    rw [hst] at htyped
    exact clientHelloRetryCert_auth o ha.ordinary hst ⟨hev.1, ha.retry hst hpart hpacket⟩ htyped
  · refine acceptGet_auth o ?_ (by change s.state.reads = true; rw [hst]; rfl) (fun _ => rfl)
      fun h => nomatch hst.symm.trans h
    exact ⟨ha.ordinary, ha.keep, ha.typed, ha.evidence, fun _ _ => nofun,
      fun _ _ => ⟨fun _ => rfl, fun h => (nomatch hst.symm.trans h)⟩, ha.done⟩

theorem certRequestTurn_auth (hst : s.state = .swCertReq) : Auth cfg (certRequestTurn o s) := by
  have hearly : s.collected.Early := ha.evidence_at hst rfl
  have hrec : Recorded s.transcript s.ghost.log := hearly.recorded
  unfold certRequestTurn
  split_ifs with hno
  · generalize hs1 : { s with cert_request := false }.become .swSrvrDone = s₁
    have ht : s₁.transcript = s.transcript := by rw [← hs1]; rfl
    dsimp only
    rw [ht]
    obtain ⟨hd, h, -⟩ := hrec.cached hearly.starts.flatten_ne
    rw [if_pos hd, ← hs1]
    exact Ready.auth ⟨ha.ordinary, h.keep, h, hearly.starts⟩ ⟨rfl, nofun⟩ rfl
  · exact Wrote.auth (sendMessage_wrote o _ _) hst rfl
      ⟨ha.ordinary, hrec.keep, hearly.recorded, hearly.starts⟩
      fun s' hr => hr.go id rfl

theorem serverChangeTurn_auth (hst : s.state = .swChange) : Auth cfg (serverChangeTurn o s) := by
  have hr : Ready cfg { s with session := { s.session with cipher := true } } .swChange :=
    ⟨ha.ordinary, ha.keep_at hst nofun, ha.evidence_at hst rfl⟩
  have hwrote :=
    ssl3SendChangeCipherSpec_wrote o { s with session := { s.session with cipher := true } }
  unfold serverChangeTurn
  split_ifs
  · exact auth_err hr.ordinary rfl hr.keep
  · exact hwrote.auth hst rfl hr fun s' hr' => hr'.go id rfl
  · exact hwrote.auth hst rfl hr fun s' hr' => auth_err hr'.ordinary rfl hr'.keep

theorem serverFinished_auth (hst : s.state = .swFinished) :
    Auth cfg ((ssl3SendFinished o s).andThen afterServerFinished) := by
  refine (ssl3SendFinished_wrote o s).auth hst rfl (ha.ready hst rfl nofun) fun s' hr => ?_
  unfold afterServerFinished
  split_ifs
  · exact hr.flush id
  · exact hr.flush id
  · exact hr.flush fun h _ => h

theorem acceptDone_auth (hst : s.state = .ok) : Auth cfg (acceptDone s) := by
  have hr := ha.ready hst rfl (by decide)
  have hleave {s₁ : Conn} (hst₁ : s₁.state = .ok) (hr₁ : Ready cfg s₁ .ok)
      (h2 : s₁.renegotiate ≠ 2) : Auth cfg s₁.leave := by
    refine auth_leave hr₁.ordinary (hst₁ ▸ rfl) (keeps_nothing hr₁.keep)
      (fun h => by cases hst₁ ▸ h)
      (hst₁ ▸ hr₁.evidence) (fun h => by cases hst₁.symm.trans h) fun _ => h2
  unfold acceptDone
  dsimp only
  split_ifs with h2
  · refine hleave hst ⟨⟨hr.ordinary.server, hr.ordinary.reuse, ?_⟩, hr.keep, nofun⟩ nofun
    exact forall_mem_append.mpr ⟨hr.ordinary.events, forall_mem_singleton.mpr (hr.evidence h2)⟩
  · exact hleave hst ⟨hr.ordinary, hr.keep, hr.evidence⟩ h2

/-- A turn of a server keeps what it has collected. -/
theorem acceptTurn_auth (hs : Settled s) : Auth cfg (acceptTurn cfg o s) := by
  have hb := ha.ordinary
  have hget hreads hpacket hrequest : Auth cfg (acceptGet cfg o s) :=
    acceptGet_auth o ha hreads (absurd · hpacket) hrequest
  have hsend {x : HsState} {type : UInt8} {f : Conn → Conn} (hst : s.state = x)
      (hwrites : x.writes = true) (hf : ∀ s', Ready cfg s' x → Auth cfg (f s')) :
      Auth cfg ((sendMessage o type s).andThen f) := by
    refine (sendMessage_wrote o type s).auth hst hwrites
      (ha.ready hst (plain_of_writes hwrites).2 ?_) hf
    rintro rfl
    cases hwrites
  have hwaiting flag (hst : s.state = .srNextProto ∨ s.state = .srFinished) :
      Auth cfg (acceptGet cfg o { s with ccs_ok := flag }) := by
    have hne {y : HsState} (hy : y ≠ .srNextProto ∧ y ≠ .srFinished) : s.state ≠ y := by
      rintro rfl
      exact hst.elim hy.1 hy.2
    exact acceptGet_auth o ⟨hb, ha.keep, ha.typed, ha.evidence, ha.retry, ha.reading, ha.done⟩
      (by rcases hst with h | h <;> exact h ▸ rfl) (absurd · (hne ⟨(by decide), (by decide)⟩))
      (absurd · (hne ⟨(by decide), (by decide)⟩))
  unfold acceptTurn
  split
  next renegotiate =>
    have hkeep := ha.keep_at renegotiate (by decide)
    dsimp only
    split_ifs
    · exact Ready.auth ⟨hb, hkeep, nofun⟩ ⟨rfl, nofun⟩ rfl
    · exact auth_err hb rfl hkeep
  next before => exact begin_auth hb (ha.keep_at before (by decide))
  next start => exact begin_auth hb (ha.keep_at start (by decide))
  next swHelloReq => exact helloRequest_auth o ha swHelloReq
  next swHelloReqC =>
    have hno : s.renegotiate ≠ 2 := ha.evidence_at swHelloReqC rfl
    exact Ready.auth ⟨hb, ha.keep_at swHelloReqC (by decide), (absurd · hno)⟩ ⟨rfl, nofun⟩ rfl
  next srClntHello =>
    exact clientHelloTurn_auth
      (s := { s with received_shutdown := false, sent_shutdown := false }) o
      ⟨hb, ha.keep, ha.typed, ha.evidence, ha.retry, ha.reading, ha.done⟩ srClntHello
  next swSrvrHello =>
    have hwrote {s₁ : Conn} (hst1 : s₁.state = .swSrvrHello) (hr : Ready cfg s₁ .swSrvrHello) :
        Auth cfg ((sendMessage o ssl3MtServerHello s₁).andThen fun s =>
          if s.hit then s.go (if s.tlsext_ticket_expected then .swSessionTicket else .swChange)
          else s.go .swCert) := by
      refine (sendMessage_wrote o _ s₁).auth hst1 rfl hr fun s' hr' => ?_
      -- A resumed session asks for no certificate.
      have hlate (hhit : s'.hit = true) : s'.collected.Late cfg :=
        fun h => by cases hhit.symm.trans h
      split_ifs with hhit
      · exact hr'.go (fun _ => hlate hhit) rfl
      · exact hr'.go (fun _ => hlate hhit) rfl
      · exact hr'.go id rfl
    have hr := ha.ready swSrvrHello rfl (by decide)
    split_ifs
    · exact hwrote swSrvrHello ⟨hb, hr.keep, hr.evidence.recorded, hr.evidence.starts⟩
    · exact hwrote swSrvrHello hr
  next swCert =>
    have hr := ha.ready swCert rfl (by decide)
    split_ifs
    · exact hr.go id rfl
    · refine hsend swCert rfl fun s' hr => ?_
      split_ifs <;> exact hr.go id rfl
  next swKeyExch =>
    have hr := ha.ready swKeyExch rfl (by decide)
    split_ifs
    · exact hsend swKeyExch rfl fun s' hr => hr.go id rfl
    · exact hr.go id rfl
  next swCertReq => exact certRequestTurn_auth o ha swCertReq
  next swSrvrDone =>
    exact hsend swSrvrDone rfl fun s' hr => hr.flush id
  next swFlush =>
    split_ifs
    · -- The evidence is that of the state behind the flush.
      have hnum : s.m.init_num = 0 := hs.flush (swFlush ▸ rfl)
      have htarget : s.control.target = s.next_state := by
        simp [Control.target, Conn.control, swFlush, flushes]
      have htarget' : (s.become s.next_state).control.target = s.next_state := ite_self _
      refine Ready.auth ⟨hb, ha.keep_at swFlush (by decide), ?_⟩ ⟨rfl, fun _ => hnum⟩ rfl
      rw [htarget', ← htarget]
      exact ha.evidence
    · exact ha.leave fun h => by cases swFlush.symm.trans h
  next srCert =>
    split_ifs with hrequest
    · exact hget (srCert ▸ rfl) (srCert ▸ (by decide)) fun _ => hrequest
    · have hr := ha.ready srCert rfl (by decide)
      exact hr.go (fun h => ⟨h, fun _ h => absurd h hrequest⟩) rfl
  next srKeyExch =>
    exact hget (srKeyExch ▸ rfl) (srKeyExch ▸ (by decide)) fun h => by cases srKeyExch.symm.trans h
  next srCertVrfy =>
    split_ifs with hpeer
    · -- Without a certificate there is nothing to be signed.
      obtain ⟨t, ht, heq⟩ := freeHandshakeBuffer_eq fun h => (ha.keep h).2
      rw [heq]
      obtain ⟨-, hpresented⟩ := ha.evidence_at srCertVrfy rfl
      refine afterCertVerify_auth hb ht fun _ => ⟨fun x hx => ?_, hpresented⟩
      rw [show s.session.peer = some x from hx] at hpeer
      cases hpeer
    · exact hget (srCertVrfy ▸ rfl)
        (srCertVrfy ▸ (by decide)) fun h => by cases srCertVrfy.symm.trans h
  next srNextProto =>
    have hwait flag : Auth cfg (let s := { s with ccs_ok := flag }
        if !s.next_proto_neg_seen then s.fail else acceptGet cfg o s) := by
      dsimp only
      split_ifs
      · exact auth_err hb rfl (ha.keep_at srNextProto (by decide))
      · exact hwaiting flag (.inl srNextProto)
    split_ifs with hchange
    · exact hwait true
    · exact hwait s.ccs_ok
  next srFinished =>
    split_ifs
    · exact hwaiting true (.inr srFinished)
    · exact hwaiting s.ccs_ok (.inr srFinished)
  next swSessionTicket =>
    exact hsend swSessionTicket rfl fun s' hr => hr.go id rfl
  next swCertStatus =>
    exact hsend swCertStatus rfl fun s' hr => hr.go id rfl
  next swChange => exact serverChangeTurn_auth o ha swChange
  next swFinished => exact serverFinished_auth o ha swFinished
  next ok => exact acceptDone_auth ha ok
  next => exact ha.leave fun h => by simp_all

end

end VigorTls.Tls
