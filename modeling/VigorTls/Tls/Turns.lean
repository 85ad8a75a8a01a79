import VigorTls.Tls.Moves

/-!
# Every turn is a move

The cases of `ssl3_connect` and `ssl3_accept`, gone through once.
-/

namespace VigorTls.Tls

open Control

section

variable {whole : Bool} (cfg : Config) (o : Oracle) {s : Conn}

theorem serverHelloSession_control (s : Conn) : (serverHelloSession o s).control =
    { s.control with hit := o.secret || o.sameId, ccs_ok := s.ccs_ok || o.secret } := by
  unfold serverHelloSession
  cases o.secret <;> cases o.sameId <;> cases o.newSession <;> simp [Conn.control, Conn.input]

theorem ssl3GetServerHello_cases (s : Conn) :
    match ssl3GetServerHello cfg o s with
    | .good s' => s'.control = { s.control with
        hit := o.secret || o.sameId, ticket := s.tlsext_ticket_expected || o.ticket
        ccs_ok := s.ccs_ok || o.secret }
    | .bad s' => s'.state = .err ∧ s'.input = s.input ∧ s'.ghost.events = s.ghost.events := by
  have hsession := serverHelloSession_control o s
  unfold ssl3GetServerHello serverHelloCipher
  generalize serverHelloSession o s = s1 at hsession
  have hinput : s1.input = s.input := congrArg input hsession
  have hevents : s1.ghost.events = s.ghost.events := congrArg events hsession
  have hticket : s1.tlsext_ticket_expected = s.tlsext_ticket_expected :=
    congrArg ticket hsession
  dsimp only
  split_ifs
  all_goals first
    | exact ⟨rfl, rfl, rfl⟩
    | exact ⟨rfl, hinput, hevents⟩
    | exact hticket ▸ congrArg ({ · with ticket := s1.tlsext_ticket_expected || o.ticket }) hsession

theorem serverHello_moved (hr : s.m.reuse_message = false) (hst : s.state = .crSrvrHello) :
    Moved whole o s ((ssl3GetServerHello cfg o s).andThen fun s =>
      if s.hit then s.go (if s.tlsext_ticket_expected then .crSessionTicket else .crFinished)
      else s.go .crCert) := by
  have hcases := ssl3GetServerHello_cases cfg o s
  revert hcases
  cases ssl3GetServerHello cfg o s with
  | good s' =>
    intro hc
    have hhit : s'.hit = (o.secret || o.sameId) := congrArg hit hc
    have hticket : s'.tlsext_ticket_expected = (s.tlsext_ticket_expected || o.ticket) :=
      congrArg ticket hc
    have hearly : s.control.phase = .early := by
      simp [phase, target, Conn.control, hst, HsState.phase, HsState.flushes]
    have hsteady : s.state.steady = true := by rw [hst]; rfl
    rw [Returned.andThen]
    cases hsecret : o.secret with
    | true =>
      rw [hsecret, Bool.true_or] at hhit
      rw [if_pos hhit]
      have hreuse : s'.m.reuse_message = false := (congrArg reuse hc).trans hr
      have hc' : s'.control = { s.control with
          hit := true, ticket := s'.tlsext_ticket_expected, reuse := false, ccs_ok := true } := by
        rw [hc, hsecret, hticket, Bool.or_true, ← hr]
        rfl
      refine ⟨.secret _ _ hst hsecret hticket (by rw [Conn.go_control, hc']) rfl rfl,
        settled_of rfl ?_ (fun hf => ?_) fun h => by cases hreuse.symm.trans h⟩
      · split_ifs <;> rfl
      · split_ifs at hf <;> cases hf
    | false =>
      have hc' : s'.control = { s.control with
          hit := s'.hit, ticket := s'.tlsext_ticket_expected, reuse := false } := by
        rw [hc, hhit, hticket, hsecret, Bool.or_false, ← hr]
        rfl
      have hgo {st : HsState} (hflush : st.flushes = false) (hphase : st.phase s'.hit ≠ .late)
          (hfull : st.full = true → s'.hit = false) : Moved whole o s (s'.go st) := by
        refine next_moved st s'.hit s'.tlsext_ticket_expected false hsteady
          (by rw [Conn.go_control, hc']) hflush ?_ hfull (by rintro ⟨⟩)
          (fun _ => rfl) rfl
        rw [hearly]
        exact decide_eq_true hphase
      split_ifs with h1 h2
      · exact hgo rfl (by rintro ⟨⟩) (by rintro ⟨⟩)
      · exact hgo rfl (by rintro ⟨⟩) (by rintro ⟨⟩)
      · exact hgo rfl (by rintro ⟨⟩) fun _ => by simpa using h1
  | bad s' => exact fun h => err_moved h.1 rfl h.2.1 h.2.2

variable (hs : Settled s)

include hs

theorem connectGot_moved (hm : s.m.Complete) (hr : s.m.reuse_message = false) :
    Moved whole o s (connectGot cfg o s) := by
  have hset : s.state = .crCert ∨ s.state = .crCertStatus ∨ s.state = .crKeyExch ∨
      s.state = .crCertReq → s.state.setsAside = true := by
    rintro (h | h | h | h) <;> rw [h] <;> rfl
  unfold connectGot
  split
  next crSrvrHello => exact serverHello_moved cfg o hr crSrvrHello
  next crCert =>
    refine (ssl3GetServerCertificate_kept (hset (by simp [crCert])) o).got_go hs hr crCert
      fun _ => ?_
    split_ifs <;> decide
  next crCertStatus =>
    exact (ssl3GetCertStatus_kept (hset (by simp [crCertStatus])) o).got_go hs hr crCertStatus
      fun _ => by decide
  next crKeyExch =>
    refine (ssl3GetServerKeyExchange_kept (hset (by simp [crKeyExch])) o).got hs hr crKeyExch
      ⟨rfl, rfl⟩
      fun s' reuse hc _ => ?_
    split_ifs
    · exact hs.go crKeyExch hc (by cases s.hit <;> rfl) fun _ => rfl
    · exact fail_moved (congrArg input hc) (congrArg events hc)
  next crCertReq =>
    exact (ssl3GetCertificateRequest_kept (hset (by simp [crCertReq])) o).got_go hs hr crCertReq
      fun _ => by decide
  next crSrvrDone =>
    refine (ssl3GetServerDone_kept s).got_go hs hr crSrvrDone fun _ => ?_
    split_ifs <;> decide
  next crSessionTicket =>
    exact (ssl3GetNewSessionTicket_kept o s).got_go hs hr crSessionTicket fun _ => by decide
  next crFinished =>
    refine finished_moved hm hr (crFinished ▸ rfl) fun s' hhit => ⟨_, rfl, ?_⟩
    rw [hhit]
    cases s.hit <;> simp [HsState.phase, HsState.flushes, HsState.full]
  next => exact hs.leave

theorem connectGet_moved {s0 : Conn} {flag : Bool} (hreads : s.state.reads = true)
    (henabled : Enabled whole s.control flag) (hc : s0.control = { s.control with ccs_ok := flag })
    (hm : s0.m = s.m) (hepochs : s0.ghost.buf_epochs = s.ghost.buf_epochs) :
    Moved whole o s (connectGet cfg o s0) := by
  refine progress_moved hs hreads henabled hc hepochs ?_ fun s1 hs1 _ hm1 hr1 =>
    connectGot_moved cfg o hs1 hm1 hr1
  rw [← hm]
  exact ssl3GetMessage_cases _ _ _ _

theorem clientChange_moved (hst : s.state = .cwChange) :
    Moved whole o s ((ssl3SendChangeCipherSpec o s).andThen (afterClientChange o)) := by
  refine (ssl3SendChangeCipherSpec_kept o rfl).sent hs hst rfl fun s' reuse hc hb => ?_
  have hnext {st : HsState} (hst' : st = .cwNextProto ∨ st = .cwFinished) :
      Moved whole o s ({ s' with session := { s'.session with cipher := true } }.go st) := by
    refine hs.go hst hc ?_ fun h => nomatch hb h
    rcases hst' with rfl | rfl <;> cases s.hit <;> rfl
  have hfail (s1 : Conn) (hinput : s1.input = s'.input) hghost : Moved whole o s s1.fail :=
    fail_moved (hinput.trans (congrArg input hc))
      ((congrArg Ghost.events hghost).trans (congrArg events hc))
  dsimp only [afterClientChange]
  split_ifs
  · exact hnext (.inl rfl)
  · exact hnext (.inr rfl)
  · exact hfail { s'.go .cwNextProto with session := _ } rfl rfl
  · exact hfail { s'.go .cwFinished with session := _ } rfl rfl

theorem clientFinished_moved (hst : s.state = .cwFinished) :
    Moved whole o s ((ssl3SendFinished o s).andThen afterClientFinished) := by
  refine (ssl3SendFinished_kept o s).sent hs hst rfl fun s' reuse hc hb => ?_
  obtain rfl : reuse = false := by simpa [HsState.aside] using hb
  have hflush {n : HsState} (hn : n = if s'.hit then .ok
      else if s'.tlsext_ticket_expected then .crSessionTicket else .crFinished) :
      Moved whole o s ({ s' with ccs_ok := true, next_state := n }.go .cwFlush) := by
    have hc' : ({ s' with ccs_ok := true, next_state := n }.go .cwFlush).control = { s.control with
          pc := .loop, state := .cwFlush, next_state := n, reuse := false, ccs_ok := true } :=
      congrArg (fun c : Control =>
        { c with pc := .loop, state := .cwFlush, next_state := n, ccs_ok := true }) hc
    have hhit : s'.hit = s.hit := congrArg hit hc
    have hticket : s'.tlsext_ticket_expected = s.tlsext_ticket_expected := congrArg ticket hc
    rw [hhit, hticket] at hn
    refine ⟨.flush n hst hc' hn, fun hf => ?_, fun hr => ?_, fun _ => rfl⟩
    · rw [hc'] at hf
      subst hn
      revert hf
      split_ifs <;> exact nofun
    · exact nomatch (congrArg reuse hc').symm.trans hr
  dsimp only [afterClientFinished]
  split_ifs with h1 h2
  · exact hflush (by rw [if_pos h1])
  · exact hflush (by rw [if_neg h1, if_pos h2])
  · exact hflush (by rw [if_neg h1, if_neg h2])

theorem connectTurn_moved : Moved true o s (connectTurn cfg o s) := by
  have hget hreads : Moved true o s (connectGet cfg o s) :=
    connectGet_moved cfg o hs hreads (.inl rfl) rfl rfl rfl
  unfold connectTurn
  split
  next renegotiate => exact begin_moved (.inr (.inr renegotiate)) rfl (.inl rfl) rfl
  next before => exact begin_moved (.inl before) rfl (.inl rfl) rfl
  next start => exact begin_moved (.inr (.inl start)) rfl (.inl rfl) rfl
  next cwClntHello =>
    exact Kept.sent_go (s := s) (ssl3ClientHello_kept o rfl) hs cwClntHello
      fun _ => by decide
  next crCert =>
    split_ifs
    · exact hs.go crCert rfl (by cases s.hit <;> rfl) fun _ => rfl
    · exact hget (crCert ▸ rfl)
  next crSrvrHello => exact hget (crSrvrHello ▸ rfl)
  next crCertStatus => exact hget (crCertStatus ▸ rfl)
  next crKeyExch => exact hget (crKeyExch ▸ rfl)
  next crCertReq => exact hget (crCertReq ▸ rfl)
  next crSrvrDone => exact hget (crSrvrDone ▸ rfl)
  next crSessionTicket => exact hget (crSessionTicket ▸ rfl)
  next cwCert =>
    exact (ssl3SendClientCertificate_kept o s).sent_go hs cwCert fun _ => by decide
  next cwKeyExch =>
    refine (ssl3SendClientKeyExchange_kept o s).sent_go hs cwKeyExch fun _ => ?_
    split_ifs <;> decide
  next cwCertVrfy =>
    exact (ssl3SendClientVerify_kept cfg o s).sent_go hs cwCertVrfy fun _ => by decide
  next cwChange => exact clientChange_moved o hs cwChange
  next cwNextProto =>
    refine (sendMessage_kept o _ rfl).sent hs cwNextProto rfl fun s' reuse hc hb => ?_
    refine next_moved .cwFinished s.hit s.tlsext_ticket_expected reuse (cwNextProto ▸ rfl)
      (by rw [Conn.become_control, hc]; rfl) rfl ?_ (by rintro ⟨⟩) (fun h => by cases hb h)
        (by rintro ⟨⟩) rfl
    simp only [phase, Conn.control, cwNextProto]
    cases s.hit <;> rfl
  next cwFinished => exact clientFinished_moved o hs cwFinished
  next crFinished =>
    exact connectGet_moved cfg o hs (crFinished ▸ rfl)
      (.inr ⟨rfl, rfl, .inl crFinished⟩) rfl rfl rfl
  next cwFlush =>
    split_ifs
    · exact hs.flushed (cwFlush ▸ rfl)
    · exact hs.leave
  next ok =>
    refine ⟨.done [] ok (by simp [Conn.leave, Conn.control, Conn.input]) (by simp),
      settled_of ok rfl (by rintro ⟨⟩) fun _ => ⟨rfl, (by rintro ⟨⟩)⟩⟩
  next => exact hs.leave

end

section

variable {whole : Bool} (cfg : Config) (o : Oracle) {s : Conn}

/-- It settles whether a session is resumed and a ticket expected, also when it returns early. -/
inductive HelloRead (c : Control) : Returned → Prop
  | good {s' : Conn} (hit ticket : Bool)
    (hc : s'.control = { c with hit := hit, ticket := ticket }) :
      HelloRead c (.good s')
  | bad {s' : Conn} (hit ticket : Bool)
    (hc : s'.control = { c with hit := hit, ticket := ticket }) :
      HelloRead c (.bad s')
  | err {s' : Conn} (hstate : s'.state = .err) (hinput : s'.input = c.input)
      (hevents : s'.ghost.events = c.events) : HelloRead c (.bad s')

theorem Kept.helloRead {c : Control} {r : Returned} {hit ticket : Bool}
    (h : Kept { c with hit := hit, ticket := ticket } r) (hset : c.state.setsAside = false) :
    HelloRead c r := by
  cases h with
  | good h => exact .good hit ticket h
  | aside h hstate => cases hset.symm.trans hstate
  | bad h => exact .bad hit ticket h
  | err reuse h =>
    exact .err (congrArg state h) (congrArg input h) (congrArg events h)

theorem ssl3GetClientHello_read (hst : s.state = .srClntHello) :
    HelloRead s.control (ssl3GetClientHello cfg o s) := by
  have hset : s.control.state.setsAside = false := by
    rw [show s.control.state = _ from hst]
    rfl
  unfold ssl3GetClientHello
  dsimp only
  split_ifs
  · exact .err rfl rfl rfl
  · exact .good s.hit s.tlsext_ticket_expected rfl
  · exact .err rfl rfl rfl
  · exact Kept.helloRead (clientHelloLate_kept cfg o rfl) hset
  · exact Kept.helloRead (clientHelloRetryCert_kept cfg o rfl) hset
  · exact Kept.helloRead (clientHelloLate_kept cfg o rfl) hset
  · exact Kept.helloRead (clientHelloRetryCert_kept cfg o rfl) hset

theorem HelloRead.moved {r : Returned} (h : HelloRead s.control r) (hr : s.m.reuse_message = false)
    (hst : s.state = .srClntHello) : Moved whole o s (r.andThen afterClientHello) := by
  have hearly : s.control.phase = .early := by
    simp [phase, target, Conn.control, hst, HsState.phase, HsState.flushes]
  cases h with
  | @good s' hit ticket hc =>
    refine next_moved .swSrvrHello hit ticket false
      (hst ▸ rfl) ?_ rfl (hearly ▸ rfl) (by rintro ⟨⟩) (by decide) (by rintro ⟨⟩) rfl
    rw [← hr]
    exact congrArg (fun c : Control => { c with pc := .loop, state := .swSrvrHello }) hc
  | @bad s' hit ticket hc =>
    have hc' : s'.leave.control = { s.control with
        pc := .out, hit := hit, ticket := ticket, reuse := false, ccs_ok := s.ccs_ok } := by
      rw [← hr]
      exact congrArg (fun c : Control => { c with pc := .out }) hc
    refine ⟨.retry hit ticket s.ccs_ok (.inl rfl) hst hc', settled_of
      ((congrArg state hc').trans hst) rfl (by rintro ⟨⟩) fun h => ?_⟩
    cases (congrArg reuse hc').symm.trans h
  | err hstate hinput hevents => exact err_moved hstate rfl hinput hevents

variable (hs : Settled s)

include hs

theorem afterKeyExchange_moved {s' : Conn} (hst : s.state = .srKeyExch)
    (hc : s'.control = { s.control with reuse := false }) :
    Moved whole o s (afterKeyExchange cfg s') := by
  have hgo {s1 : Conn} (hc1 : s1.control = (s'.go .srCertVrfy).control)
      (hm1 : s1.m = (s'.go .srCertVrfy).m) : Moved whole o s s1 := by
    have hnext : s1.control =
        { s.control with pc := .loop, state := .srCertVrfy, reuse := false } := by
      rw [hc1, Conn.go_control, hc]
    exact hs.next hst hnext (by cases s.hit <;> rfl) (by decide) (by rintro ⟨⟩)
      (congrArg MessageState.part hm1)
  have hfail {s1 : Conn} (hinput : s1.input = s'.input) hghost : Moved whole o s s1.failAt :=
    err_moved rfl rfl (hinput.trans (congrArg input hc))
      ((congrArg Ghost.events hghost).trans (congrArg events hc))
  unfold afterKeyExchange
  dsimp only
  split_ifs <;> first | exact hgo rfl rfl | exact hfail rfl rfl

theorem acceptGot_moved (hm : s.m.Complete) (hr : s.m.reuse_message = false) :
    Moved whole o s (acceptGot cfg o s) := by
  unfold acceptGot
  split
  next srClntHello => exact (ssl3GetClientHello_read cfg o srClntHello).moved o hr srClntHello
  next srCert =>
    exact (ssl3GetClientCertificate_kept (srCert ▸ rfl) cfg o).got_go hs hr srCert
      fun _ => by decide
  next srKeyExch =>
    refine (ssl3GetClientKeyExchange_kept o s).got hs hr srKeyExch ⟨rfl, rfl⟩
      fun s' reuse hc hb => ?_
    obtain rfl : reuse = false := by simpa [HsState.setsAside] using hb
    exact afterKeyExchange_moved cfg o hs srKeyExch hc
  next srCertVrfy =>
    refine (ssl3GetCertVerify_kept cfg s).got_go hs hr srCertVrfy fun _ => ?_
    split_ifs <;> decide
  next srNextProto =>
    exact (ssl3GetNextProto_kept s).got_go hs hr srNextProto fun _ => by decide
  next srFinished =>
    refine finished_moved hm hr (srFinished ▸ rfl) fun s' hhit => ?_
    rw [hhit]
    split_ifs with h1 h2
    · exact ⟨_, rfl, rfl, rfl, .inr rfl⟩
    · exact ⟨_, rfl, rfl, rfl, .inl (by simp [HsState.phase, h1])⟩
    · exact ⟨_, rfl, rfl, rfl, .inl (by simp [HsState.phase, h1])⟩
  next => exact hs.leave

theorem acceptGet_moved {s0 : Conn} {flag : Bool} (hreads : s.state.reads = true)
    (henabled : Enabled whole s.control flag) (hc : s0.control = { s.control with ccs_ok := flag })
    (hm : s0.m = s.m) (hepochs : s0.ghost.buf_epochs = s.ghost.buf_epochs) :
    Moved whole o s (acceptGet cfg o s0) := by
  refine progress_moved hs hreads henabled hc hepochs ?_ fun s1 hs1 _ hm1 hr1 =>
    acceptGot_moved cfg o hs1 hm1 hr1
  rw [← hm]
  exact ssl3GetMessage_cases _ _ _ _

theorem acceptGet_waiting (hst : s.state = .srNextProto ∨ s.state = .srFinished) :
    Moved true o s
      (acceptGet cfg o (if !s.change_cipher_spec then { s with ccs_ok := true } else s)) := by
  have hreads : s.state.reads = true := by rcases hst with h | h <;> rw [h] <;> rfl
  split_ifs with hchange
  · have hchange : s.change_cipher_spec = false := by simpa using hchange
    exact acceptGet_moved cfg o hs hreads (.inr ⟨rfl, rfl, .inr ⟨hst, hchange⟩⟩) rfl rfl rfl
  · exact acceptGet_moved cfg o hs hreads (.inl rfl) rfl rfl rfl

theorem serverFinished_moved (hst : s.state = .swFinished) :
    Moved whole o s ((ssl3SendFinished o s).andThen afterServerFinished) := by
  refine (ssl3SendFinished_kept o s).sent hs hst rfl fun s' reuse hc hb => ?_
  have hhit : s'.hit = s.hit := congrArg hit hc
  unfold afterServerFinished
  split_ifs with h1
  · exact hs.toFlush hst hc (by rw [← hhit, h1]; rfl) fun h => nomatch hb h
  · exact hs.toFlush hst hc (by rw [← hhit, h1]; rfl) fun h => nomatch hb h
  · exact hs.toFlush hst hc (by rw [← hhit, Bool.eq_false_of_not_eq_true h1]; rfl)
      fun h => nomatch hb h

theorem acceptTurn_moved : Moved true o s (acceptTurn cfg o s) := by
  have hget hreads : Moved true o s (acceptGet cfg o s) :=
    acceptGet_moved cfg o hs hreads (.inl rfl) rfl rfl rfl
  unfold acceptTurn
  split
  next renegotiate =>
    dsimp only
    split_ifs
    · exact begin_moved (.inr (.inr renegotiate)) rfl (.inr (.inr rfl)) rfl
    · exact fail_moved rfl rfl
  next before => exact begin_moved (.inl before) rfl (.inr (.inl rfl)) rfl
  next start => exact begin_moved (.inr (.inl start)) rfl (.inr (.inl rfl)) rfl
  next swHelloReq =>
    refine Kept.sent (s := s) (sendMessage_kept o _ rfl) hs swHelloReq rfl fun s' reuse hc _ => ?_
    have hmac : s'.initFinishedMac.control = { s.control with reuse := reuse } := hc
    exact hs.toFlush swHelloReq hmac (by cases s.hit <;> rfl) fun _ => rfl
  next swHelloReqC =>
    exact hs.next swHelloReqC rfl (by cases s.hit <;> rfl) (fun _ => rfl) (by rintro ⟨⟩) rfl
  next srClntHello =>
    dsimp only
    split_ifs with hretry
    · -- The message has been read in a turn before.
      have hpart : s.m.part ≠ .header := by simp at hretry; simp [hretry]
      have hr : s.m.reuse_message = false :=
        Bool.eq_false_of_not_eq_true fun hr => hpart ((hs.aside hr).2 srClntHello)
      have hset : s.control.state.setsAside = false := by
        rw [show s.control.state = _ from srClntHello]
        rfl
      have hkept : Kept { s.control with hit := s.hit, ticket := s.tlsext_ticket_expected }
          (clientHelloRetryCert cfg o
            { s with received_shutdown := false, sent_shutdown := false }) :=
        clientHelloRetryCert_kept cfg o rfl
      exact (hkept.helloRead hset).moved o hr srClntHello
    · exact acceptGet_moved cfg o hs (srClntHello ▸ rfl) (.inl rfl) rfl rfl rfl
  next swSrvrHello =>
    refine Kept.sent (s := s) (sendMessage_kept o _ (by split_ifs <;> rfl)) hs swSrvrHello rfl
      fun s' reuse hc hb => ?_
    have hhit : s'.hit = s.hit := congrArg hit hc
    split_ifs with h1
    · exact hs.go swSrvrHello hc (by rw [← hhit, h1]; rfl) fun h => by cases hb h
    · exact hs.go swSrvrHello hc (by rw [← hhit, h1]; rfl) fun h => by cases hb h
    · exact hs.go swSrvrHello hc (by rw [← hhit, Bool.eq_false_of_not_eq_true h1]; rfl)
        fun h => by cases hb h
  next swCert =>
    split_ifs
    · exact hs.go swCert rfl (by cases s.hit <;> rfl)
        fun h => by cases (hs.reuse_of_aside swCert rfl).symm.trans h
    · refine (sendMessage_kept o _ rfl).sent_go hs swCert fun _ => ?_
      split_ifs <;> decide
  next swKeyExch =>
    split_ifs
    · exact (sendMessage_kept o _ rfl).sent_go hs swKeyExch fun _ => by decide
    · exact hs.go swKeyExch rfl (by cases s.hit <;> rfl)
        fun h => by cases (hs.reuse_of_aside swKeyExch rfl).symm.trans h
  next swCertReq =>
    have hr := hs.reuse_of_aside swCertReq rfl
    have hleads : HsState.leads s.hit .swCertReq .swSrvrDone = true := by cases s.hit <;> rfl
    dsimp only [certRequestTurn]
    split_ifs
    all_goals first
      | exact hs.next swCertReq rfl hleads (fun h => by cases hr.symm.trans h) (by rintro ⟨⟩) rfl
      | exact err_moved rfl rfl rfl rfl
      | exact Kept.sent_go (s := s) (sendMessage_kept o _ rfl) hs swCertReq
          fun _ => by decide
  next swSrvrDone =>
    exact (sendMessage_kept o _ rfl).sent hs swSrvrDone rfl fun s' reuse hc hb =>
      hs.toFlush swSrvrDone hc (by cases s.hit <;> rfl) fun h => by cases hb h
  next swFlush =>
    split_ifs
    · exact hs.flushed (swFlush ▸ rfl)
    · exact hs.leave
  next srCert =>
    split_ifs
    · exact hget (srCert ▸ rfl)
    · exact hs.go srCert rfl (by cases s.hit <;> rfl) fun _ => rfl
  next srKeyExch => exact hget (srKeyExch ▸ rfl)
  next srCertVrfy =>
    split_ifs
    · refine hs.go srCertVrfy (freeHandshakeBuffer_control s) ?_
        fun h => by cases (hs.reuse_of_aside srCertVrfy rfl).symm.trans h
      split_ifs <;> cases s.hit <;> rfl
    · exact hget (srCertVrfy ▸ rfl)
  next srNextProto =>
    dsimp only
    split_ifs with hchange
    · exact fail_moved rfl rfl
    · simpa only [if_pos hchange] using acceptGet_waiting cfg o hs (.inl srNextProto)
    · exact fail_moved rfl rfl
    · simpa only [if_neg hchange] using acceptGet_waiting cfg o hs (.inl srNextProto)
  next srFinished => exact acceptGet_waiting cfg o hs (.inr srFinished)
  next swSessionTicket =>
    exact (sendMessage_kept o _ rfl).sent_go hs swSessionTicket fun _ => by decide
  next swCertStatus =>
    exact (sendMessage_kept o _ rfl).sent_go hs swCertStatus fun _ => by decide
  next swChange =>
    unfold serverChangeTurn
    split_ifs
    · exact fail_moved rfl rfl
    · exact Kept.sent_go (s := s) (ssl3SendChangeCipherSpec_kept o rfl) hs swChange
        fun _ => by decide
    · exact Kept.sent (s := s) (ssl3SendChangeCipherSpec_kept o rfl) hs swChange rfl
        fun s' reuse hc _ =>
        fail_moved (congrArg input hc) (congrArg events hc)
  next swFinished => exact serverFinished_moved o hs swFinished
  next ok =>
    have hok {s' : Conn} (hstate : s'.state = .ok) : Settled s' :=
      settled_of hstate rfl (by rintro ⟨⟩) fun _ => ⟨rfl, (by rintro ⟨⟩)⟩
    dsimp only [acceptDone]
    split_ifs
    · exact ⟨.done [_] ok rfl fun e he => ⟨_, _, _, _, _, _, List.mem_singleton.mp he⟩, hok ok⟩
    · exact ⟨.done [] ok (by simp [Conn.leave, Conn.control, Conn.input]) (by simp), hok ok⟩
  next => exact hs.leave

end

section

variable {whole : Bool} (cfg : Config) (o : Oracle) {s : Conn}

/-- From a settled state, a turn of either side is a move. -/
theorem turn_moved (hs : Settled s) : Moved true o s (handshakeTurn cfg o s) := by
  unfold handshakeTurn
  split_ifs
  · exact acceptTurn_moved cfg o hs
  · exact connectTurn_moved cfg o hs

theorem feed_moved (bytes : Bytes) (epochs : List ℕ) (hs : Settled s)
    (hreads : s.state.reads = true) (hr : s.m.reuse_message = false) :
    Moved false o (s.feed bytes epochs) (feedMessage cfg o bytes epochs s) := by
  have hflush := (HsState.reads_spec hreads).1
  have hs' : Settled (s.feed bytes epochs) := by
    refine settled_of rfl hflush (fun hf => ?_) fun h => by cases hr.symm.trans h
    exact hs.full (by rwa [target_eq hflush])
  refine progress_moved hs' hreads (.inl rfl) rfl rfl ?_ fun s1 hs1 _ hm1 hr1 => ?_
  · have hcases := ssl3GetMessage_cases s.server (handshakeCall cfg s).1 (handshakeCall cfg s).2
      (messageFeed bytes s.m)
    rwa [ssl3GetMessage, if_neg (show ¬(messageFeed bytes s.m).reuse_message = true by
      rw [show (messageFeed bytes s.m).reuse_message = false from hr]; decide)] at hcases
  · unfold handshakeGot
    split_ifs
    · exact acceptGot_moved cfg o hs1 hm1 hr1
    · exact connectGot_moved cfg o hs1 hm1 hr1

end

end VigorTls.Tls
