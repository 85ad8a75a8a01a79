import VigorTls.Tls.Control

/-!
# What a turn can do

The handshake functions have some sixty cases; for the state and the flags a few kinds of moves are
enough (`Move`). With each comes what holds between two turns (`Settled`).
-/

namespace VigorTls.Tls

open Bool Control

/-! ## Phases -/

/-- How far a handshake is with the peer's ChangeCipherSpec and Finished. -/
inductive Phase where
  /-- No handshake is going on, or it only has to say so. -/
  | idle
  /-- They are not expected yet. -/
  | early
  /-- They are the next thing to come, after NextProtocol at most. -/
  | waiting
  /-- The Finished message has been accepted. -/
  | late
deriving DecidableEq

/-- How the phase can change, other than by accepting a Finished message. -/
def Phase.next : Phase → Phase → Bool
  | .early, p => p ≠ .late
  | .waiting, p => p = .waiting
  | .late, p => p = .late || p = .idle
  | .idle, p => p = .idle

theorem Phase.next_self (p : Phase) : p.next p = true := by cases p <;> rfl

namespace HsState

def reads : HsState → Bool
  | crSrvrHello | crCert | crCertStatus | crKeyExch | crCertReq | crSrvrDone | crSessionTicket =>
    true
  | crFinished | srClntHello | srCert | srKeyExch | srCertVrfy | srNextProto | srFinished => true
  | _ => false

def finishes : HsState → Bool
  | crFinished | srFinished => true
  | _ => false

/-- The states of full handshakes only. -/
def full : HsState → Bool
  | crCert | crCertStatus | crKeyExch | crCertReq | crSrvrDone | cwCert | cwKeyExch | cwCertVrfy =>
    true
  | swCert | swCertStatus | swKeyExch | swCertReq | swSrvrDone | srCert | srKeyExch | srCertVrfy =>
    true
  | _ => false

/-- The states in which a message may still be set aside. -/
def aside : HsState → Bool
  | before | start | renegotiate | ok | err | cwClntHello | crSrvrHello => true
  | swHelloReq | swHelloReqC | srClntHello => true
  | crCertStatus | crKeyExch | crCertReq | crSrvrDone | srKeyExch => true
  | _ => false

/-- The states that a failed handshake is left in. -/
def dead : HsState → Bool
  | err | renegotiate => true
  | _ => false

def underway : HsState → Bool
  | before | start | renegotiate | ok | err => false
  | _ => true

/-- Those of them in which no Finished message is read. -/
def steady (x : HsState) : Bool := x.underway && !x.finishes

def flushes : HsState → Bool
  | cwFlush | swFlush => true
  | _ => false

/-- The phase of a state. The client's last messages come before the server's Finished in a full
handshake, and after it in a resumed one. -/
def phase (hit : Bool) : HsState → Phase
  | before | start | renegotiate | ok | err | swHelloReqC => .idle
  | crFinished | srNextProto | srFinished => .waiting
  | cwChange | cwNextProto | cwFinished => if hit then .late else .early
  | swSessionTicket | swChange | swFinished => if hit then .early else .late
  | _ => .early

/-- A state that a turn can lead to, other than by a new handshake or a Finished message. -/
def leads (hit : Bool) (x st : HsState) : Bool :=
  x.steady && !x.flushes && !st.flushes &&
    (x.full && hit || (x.phase hit).next (st.phase hit) && !(st.full && hit))

/-- The same for a state that reads a message, which it may set aside. -/
def leadsFrom (hit : Bool) (x st : HsState) : Bool :=
  leads hit x st && (!x.setsAside || st.aside) && x ≠ srClntHello

/-- The same for a state that does not. -/
def leadsOver (hit : Bool) (x st : HsState) : Bool :=
  leads hit x st && (!x.aside || st.aside) && !x.setsAside && x ≠ srClntHello

variable {hit : Bool} {x : HsState}

theorem leadsFrom_spec (h : leadsFrom hit x st = true) :
    leads hit x st = true ∧ (x.setsAside = true → st.aside = true) := by
  simp only [leadsFrom, and_eq_true, or_eq_true, not_eq_true'] at h
  exact ⟨h.1.1, fun hset => h.1.2.resolve_left fun h => by cases h.symm.trans hset⟩

theorem leadsOver_spec (h : leadsOver hit x st = true) :
    leads hit x st = true ∧ (x.aside = true → st.aside = true) := by
  simp only [leadsOver, and_eq_true, or_eq_true, not_eq_true'] at h
  exact ⟨h.1.1.1, fun hset => h.1.1.2.resolve_left fun h => by cases h.symm.trans hset⟩

theorem plain_of_leads (h : leads hit x st = true) : x.finishes = false ∧ x.flushes = false := by
  simp only [leads, steady, and_eq_true, not_eq_true'] at h
  exact ⟨h.1.1.1.2, h.1.1.2⟩

theorem steady_of_flushes (h : x.flushes = true) : x.steady = true := by
  cases x <;> first | rfl | nomatch h

theorem plain_of_leadsOver (h : leadsOver hit x st = true) :
    (x.finishes || x.flushes || x.setsAside || x = srClntHello) = false := by
  obtain ⟨hfin, hflush⟩ := plain_of_leads (leadsOver_spec h).1
  simp only [leadsOver, and_eq_true, not_eq_true', decide_eq_true_eq] at h
  simp [hfin, hflush, h.1.2, h.2]

theorem finishes_spec (h : x.finishes = true) :
    x.flushes = false ∧ x.aside = false ∧ x.dead = false ∧ x.full = false ∧ x.underway = true := by
  cases x <;> first | exact ⟨rfl, rfl, rfl, rfl, rfl⟩ | nomatch h

theorem reads_spec (h : x.reads = true) :
    x.flushes = false ∧ x.underway = true ∧ x.dead = false := by
  cases x <;> first | exact ⟨rfl, rfl, rfl⟩ | nomatch h

theorem steady_spec (h : x.steady = true) :
    x.underway = true ∧ x.finishes = false ∧ x.dead = false := by
  cases x <;> first | exact ⟨rfl, rfl, rfl⟩ | nomatch h

theorem underway_of_inInit (h : x.inInit = false) : x.underway = false := by
  cases x <;> first | rfl | nomatch h

end HsState

/-- The state, or the one after flushing. -/
def Control.target (c : Control) : HsState := if c.state.flushes then c.next_state else c.state

theorem Control.target_eq {c : Control} (h : c.state.flushes = false) : c.target = c.state := by
  simp [target, h]

def Control.phase (c : Control) : Phase := c.target.phase c.hit

variable {x : HsState}

theorem Conn.phase_eq {s : Conn} (hst : s.state = x) (h : x.flushes = false) :
    s.control.phase = x.phase s.hit := by
  subst hst
  rw [phase, target_eq h]
  rfl

/-- What holds between two turns. -/
structure Settled (s : Conn) : Prop where
  full : s.control.target.full = true → s.hit = false
  aside : s.m.reuse_message = true →
    s.control.target.aside = true ∧ (s.state = .srClntHello → s.m.part = .header)
  flush : s.state.flushes = true → s.m.init_num = 0

/-- The same bytes of a message are there, or fewer. -/
structure Trimmed (s s' : Conn) : Prop where
  trims : s.m.Trims s'.m
  epochs : s'.ghost.buf_epochs = s.ghost.buf_epochs

theorem Trimmed.refl (s : Conn) : Trimmed s s := ⟨.refl s.m, rfl⟩

theorem Trimmed.trans {s s' s'' : Conn} (h : Trimmed s s') (h' : Trimmed s' s'') : Trimmed s s'' :=
  ⟨⟨h'.trims.buf.trans h.trims.buf, h'.trims.offset.trans h.trims.offset,
    fun hc => h'.trims.complete (h.trims.complete hc)⟩, h'.epochs.trans h.epochs⟩

/-- The value of `SSL3_FLAGS_CCS_OK` after a turn: the states that wait for the ChangeCipherSpec set
it. -/
def Enabled (whole : Bool) (c : Control) (flag : Bool) : Prop :=
  flag = c.ccs_ok ∨ whole = true ∧ flag = true ∧ (c.state = .crFinished ∨
    (c.state = .srNextProto ∨ c.state = .srFinished) ∧ c.change = false)

/-- The ways in which a turn, or the rest of one, can end. -/
inductive Move (whole : Bool) (o : Oracle) (s s' : Conn) : Prop
  | leave (flag reuse : Bool) (henabled : Enabled whole s.control flag)
      (hc : s'.control = { s.control with pc := .out, ccs_ok := flag, reuse := reuse })
      (htrim : s.state.finishes = true → Trimmed s s')
  /-- It returns from the middle of `ssl3_get_client_hello`. -/
  | retry (hit ticket flag : Bool) (henabled : Enabled whole s.control flag)
      (hhello : s.state = .srClntHello)
      (hc : s'.control = { s.control with
        pc := .out, hit := hit, ticket := ticket, reuse := false, ccs_ok := flag })
  | done (events : List Event) (hok : s.state = .ok)
      (hc : s'.control = { s.control with pc := .out, events := s.ghost.events ++ events })
      (hevents : ∀ e ∈ events, ∃ hit session mode request verified log,
        e = .accepted hit session mode request verified log)
  | err (hstate : s'.state = .err) (hpc : s'.pc = .out) (hinput : s'.input = s.input)
      (hevents : s'.ghost.events = s.ghost.events)
  | want (flag : Bool) (henabled : Enabled whole s.control flag) (hreads : s.state.reads = true)
      (hc : s'.control = { s.control with pc := .reading 0, ccs_ok := flag, reuse := false })
      (hm : ¬s'.m.Complete) (htrim : s.state.finishes = true → Trimmed s s')
  | refused (flag : Bool) (henabled : Enabled whole s.control flag)
      (hfinishes : s.state.finishes = true)
      (hc : s'.control = { s.control with
        pc := .out, ccs_ok := flag, reuse := false, change := false })
      (hm : s'.m.Complete) (htrim : Trimmed s s')
  | begin (state : HsState)
      (hstart : s.state = .before ∨ s.state = .start ∨ s.state = .renegotiate)
      (hc : s'.control = { s.control with
        pc := .loop, state := state, ccs_ok := false, change := false,
        seen := 0, installed := none })
      (hstate : state = .cwClntHello ∨ state = .srClntHello ∨ state = .swHelloReq)
  | next (state next_state : HsState) (hit ticket reuse flag : Bool)
      (henabled : Enabled whole s.control flag) (hsteady : s.state.steady = true)
      (hc : s'.control = { s.control with
        pc := .loop, state := state, next_state := next_state, hit := hit, ticket := ticket
        reuse := reuse, ccs_ok := flag })
      (hphase : s.control.phase.next s'.control.phase = true)
      (hentry : state.finishes = true → s'.m.offset = 0)
  /-- A ServerHello is the answer to a session of `tls_session_secret_cb`. -/
  | secret (state : HsState) (ticket : Bool) (hhello : s.state = .crSrvrHello)
      (hsecret : o.secret = true) (hticket : ticket = (s.tlsext_ticket_expected || o.ticket))
      (hc : s'.control = { s.control with
        pc := .loop, state := state, hit := true, ticket := ticket, reuse := false,
        ccs_ok := true })
      (hstate : state = if ticket then .crSessionTicket else .crFinished)
      (hentry : s'.m.offset = 0)
  /-- The Finished message of a client is written. -/
  | flush (next_state : HsState) (hfinished : s.state = .cwFinished)
      (hc : s'.control = { s.control with
        pc := .loop, state := .cwFlush, next_state := next_state, reuse := false, ccs_ok := true })
      (hnext : next_state = if s.hit then .ok
        else if s.tlsext_ticket_expected then .crSessionTicket else .crFinished)
  | finish (state : HsState) (flag : Bool) (s₁ : Conn) (henabled : Enabled whole s.control flag)
      (hfinishes : s.state.finishes = true) (hchange : s.change_cipher_spec = true)
      (hm : s₁.m.Complete) (htrim : Trimmed s s₁)
      (hc : s'.control = { s.control with
        pc := .loop, state := state, ccs_ok := flag, reuse := false, change := false
        events := s.ghost.events ++ [.finished (s₁.m.init_buf.take (s₁.m.init_num + 4))
          (s₁.ghost.buf_epochs.take (s₁.m.init_num + 4)) s.ghost.installed] })
      (hphase : s'.control.phase = .late ∨ s'.control.phase = .idle)

/-- A move that keeps what holds between two turns. -/
def Moved (whole : Bool) (o : Oracle) (s s' : Conn) : Prop := Move whole o s s' ∧ Settled s'

section

variable {whole : Bool} {o : Oracle} {s s₁ s' : Conn}

theorem Settled.reuse_of_aside (h : Settled s) (hx : s.state = x)
    (haside : (x.aside || x.flushes) = false) : s.m.reuse_message = false := by
  subst hx
  obtain ⟨hx, hflush⟩ := or_eq_false_iff.mp haside
  cases hr : s.m.reuse_message with
  | false => rfl
  | true =>
    have haside := (h.aside hr).1
    rw [target_eq hflush] at haside
    cases hx.symm.trans haside

theorem Settled.reuse_of_finishes (h : Settled s) (hfin : s.state.finishes = true) :
    s.m.reuse_message = false :=
  h.reuse_of_aside rfl
    (by simp [(HsState.finishes_spec hfin).2.1, (HsState.finishes_spec hfin).1])

theorem Move.of_got {flag : Bool} (hreads : s.state.reads = true)
    (henabled : Enabled whole s.control flag)
    (hc1 : s₁.control = { s.control with ccs_ok := flag, reuse := false })
    (htrim1 : s.state.finishes = true → Trimmed s s₁) (h : Move false o s₁ s') :
    Move whole o s s' := by
  have hstate : s₁.state = s.state := congrArg state hc1
  have hevents : s₁.ghost.events = s.ghost.events := congrArg events hc1
  have hflag {f : Bool} (hf : Enabled false s₁.control f) : Enabled whole s.control f := by
    rw [hc1] at hf
    rcases hf with hf | hf
    · rwa [hf]
    · cases hf.1
  cases h with
  | leave flag' reuse he hc htrim =>
    exact .leave flag' reuse (hflag he) (by rw [hc, hc1])
      fun hf => (htrim1 hf).trans (htrim (hstate ▸ hf))
  | err hst hpc hinput hev =>
    exact .err hst hpc (hinput.trans (congrArg input hc1)) (hev.trans hevents)
  | want flag' he hr hc hm htrim =>
    exact .want flag' (hflag he) hreads (by rw [hc, hc1]) hm
      fun hf => (htrim1 hf).trans (htrim (hstate ▸ hf))
  | refused flag' he hf hc hm htrim =>
    have hf := hstate ▸ hf
    exact .refused flag' (hflag he) hf (by rw [hc, hc1]) hm ((htrim1 hf).trans htrim)
  | next state ns hit ticket reuse flag' he hsteady hc hphase hentry =>
    refine .next state ns hit ticket reuse flag' (hflag he) (hstate ▸ hsteady) (by rw [hc, hc1]) ?_
      hentry
    rw [hc1] at hphase
    exact hphase
  | retry hit ticket flag' he hh hc =>
    exact .retry hit ticket flag' (hflag he) (hstate ▸ hh) (by rw [hc, hc1])
  | secret state ticket hh hsecret hticket hc hst hentry =>
    have h1 : s₁.tlsext_ticket_expected = s.tlsext_ticket_expected := congrArg Control.ticket hc1
    exact .secret state ticket (hstate ▸ hh) hsecret (h1 ▸ hticket) (by rw [hc, hc1]) hst hentry
  | finish state flag' s2 he hf hchange hm htrim hc hphase =>
    have hf := hstate ▸ hf
    refine .finish state flag' s2 (hflag he) hf ((congrArg change hc1).symm.trans hchange) hm
      ((htrim1 hf).trans htrim) ?_ hphase
    rw [hc, hc1, hevents, show s₁.ghost.installed = s.ghost.installed from congrArg installed hc1]
  -- No message is read in the states of the other moves.
  | done events hok => cases (hstate.symm.trans hok) ▸ hreads
  | begin state hst =>
    rw [hstate] at hst
    rcases hst with h | h | h <;> cases h ▸ hreads
  | flush ns hf => cases (hstate.symm.trans hf) ▸ hreads

/-! ## The moves of the cases -/

variable {st : HsState} {reuse : Bool}

theorem settled_of (hstate : s'.state = st) (hflush : st.flushes = false)
    (hfull : st.full = true → s'.hit = false)
    (haside : s'.m.reuse_message = true → st.aside = true ∧
      (st = .srClntHello → s'.m.part = .header)) :
    Settled s' := by
  subst hstate
  have htarget : s'.control.target = s'.state := target_eq hflush
  refine ⟨fun hf => hfull (htarget ▸ hf), fun hr => ?_, fun hf => by cases hflush.symm.trans hf⟩
  rw [htarget]
  exact haside hr

theorem settled_err (h : s'.state = .err) : Settled s' :=
  settled_of h rfl nofun fun _ => ⟨rfl, nofun⟩

theorem err_moved (hstate : s'.state = .err) (hpc : s'.pc = .out) (hinput : s'.input = s.input)
    (hevents : s'.ghost.events = s.ghost.events) : Moved whole o s s' :=
  ⟨.err hstate hpc hinput hevents, settled_err hstate⟩

theorem fail_moved (hinput : s'.input = s.input) (hevents : s'.ghost.events = s.ghost.events) :
    Moved whole o s s'.fail := err_moved rfl rfl hinput hevents

theorem leave_moved (hs : Settled s) (hc : s'.control = s.control)
    (hhello : s.m.reuse_message = true → s.state = .srClntHello → s'.m.part = .header)
    (hflush : s.state.flushes = true → s'.m.init_num = 0)
    (htrim : s.state.finishes = true → Trimmed s s') : Moved whole o s s'.leave := by
  have hstate : s'.state = s.state := congrArg state hc
  have hreuse : s'.m.reuse_message = s.m.reuse_message := congrArg reuse hc
  have htarget : s'.leave.control.target = s.control.target :=
    Eq.trans (b := s'.control.target) rfl (congrArg target hc)
  refine ⟨.leave s.ccs_ok s.m.reuse_message (.inl rfl) (congrArg ({ · with pc := .out }) hc)
    fun hf => ?_, fun hf => ?_, fun hr => ⟨?_, fun hst => ?_⟩, fun hf => hflush (hstate ▸ hf)⟩
  · exact ⟨(htrim hf).trims, (htrim hf).epochs⟩
  · exact (congrArg hit hc).trans (hs.full (htarget ▸ hf))
  · exact htarget ▸ (hs.aside (hreuse ▸ hr)).1
  · exact hhello (hreuse ▸ hr) (hstate ▸ hst)

theorem Settled.leave (hs : Settled s) : Moved whole o s s.leave :=
  leave_moved hs rfl (fun hr => (hs.aside hr).2) hs.flush fun _ => Trimmed.refl s

theorem next_moved (st : HsState) (hit ticket reuse : Bool) (hsteady : s.state.steady = true)
    (hc : s'.control =
      { s.control with pc := .loop, state := st, hit := hit, ticket := ticket, reuse := reuse })
    (hflush : st.flushes = false) (hphase : s.control.phase.next (st.phase hit) = true)
    (hfull : st.full = true → hit = false) (haside : reuse = true → st.aside = true)
    (hentry : st.finishes = true → s'.m.offset = 0) (hpart : s'.m.part = .header) :
    Moved whole o s s' := by
  have hstate : s'.state = st := congrArg state hc
  have htarget : s'.control.target = st :=
    (target_eq (hc ▸ hflush)).trans hstate
  have hhit : s'.hit = hit := congrArg Control.hit hc
  refine ⟨.next st s.next_state hit ticket reuse s.ccs_ok (.inl rfl) hsteady hc ?_ hentry,
    settled_of hstate hflush (fun hf => hhit.trans (hfull hf)) fun hr => ⟨?_, fun _ => hpart⟩⟩
  · rw [phase.eq_1 s'.control, htarget, show s'.control.hit = hit from hhit]
    exact hphase
  · exact haside ((congrArg Control.reuse hc).symm.trans hr)

theorem Settled.leads (hs : Settled s) (hx : s.state = x)
    (hleads : HsState.leads s.hit x st = true) :
    s.state.steady = true ∧ st.flushes = false ∧ s.control.phase.next (st.phase s.hit) = true ∧
      (st.full = true → s.hit = false) := by
  subst hx
  simp only [HsState.leads, and_eq_true, or_eq_true, not_eq_true', and_eq_false_iff] at hleads
  obtain ⟨⟨⟨hsteady, hflushes⟩, hflush⟩, hleads⟩ := hleads
  have htarget : s.control.target = s.state := target_eq hflushes
  rcases hleads with ⟨hfull, hhit⟩ | ⟨hphase, hfull⟩
  · cases (hs.full (htarget ▸ hfull)).symm.trans hhit
  · refine ⟨hsteady, hflush, ?_, fun hf => ?_⟩
    · rw [phase, htarget]
      exact hphase
    · exact hfull.resolve_left fun h => by cases h.symm.trans hf

theorem Settled.next (hs : Settled s) (hx : s.state = x)
    (hc : s'.control = { s.control with pc := .loop, state := st, reuse := reuse })
    (hleads : HsState.leads s.hit x st = true) (haside : reuse = true → st.aside = true)
    (hentry : st.finishes = true → s'.m.offset = 0) (hpart : s'.m.part = .header) :
    Moved whole o s s' :=
  have ⟨hsteady, hflush, hphase, hfull⟩ := hs.leads hx hleads
  next_moved st s.hit s.tlsext_ticket_expected reuse hsteady hc hflush hphase hfull haside
    hentry hpart

theorem Settled.go (hs : Settled s) (hx : s.state = x)
    (hc : s'.control = { s.control with reuse := reuse }) (hleads : HsState.leads s.hit x st = true)
    (haside : reuse = true → st.aside = true) : Moved whole o s (s'.go st) :=
  hs.next hx (by rw [Conn.go_control, hc]) hleads haside (fun _ => rfl) rfl

variable {r : Returned} {f : Conn → Conn} {target : Conn → HsState}

section

variable (h : Kept s.control r) (hs : Settled s)

include h hs

theorem Kept.moved (hfin : s.state.finishes = false)
    (hflush : s.state.flushes = false) (hhello : s.m.reuse_message = true → s.state ≠ .srClntHello)
    (hgood : ∀ s' reuse, s'.control = { s.control with reuse := reuse } →
      (reuse = true → s.m.reuse_message = true ∨ s.state.setsAside = true) →
      Moved whole o s (f s')) :
    Moved whole o s (r.andThen f) := by
  cases h with
  | good h => exact hgood _ _ h .inl
  | aside h hstate => exact hgood _ _ h fun _ => .inr hstate
  | bad h =>
    refine leave_moved hs h (fun hr hst => absurd hst (hhello hr)) (fun hf => ?_) fun hf => ?_
    · cases hflush.symm.trans hf
    · cases hfin.symm.trans hf
  | err reuse h =>
    exact err_moved (congrArg state h) rfl (congrArg input h) (congrArg events h)

theorem Kept.got (hr : s.m.reuse_message = false)
    (hx : s.state = x) (hplain : x.finishes = false ∧ x.flushes = false)
    (hgood : ∀ s' reuse, s'.control = { s.control with reuse := reuse } →
      (reuse = true → x.setsAside = true) → Moved whole o s (f s')) :
    Moved whole o s (r.andThen f) := by
  subst hx
  refine h.moved hs hplain.1 hplain.2 (fun h => by cases hr.symm.trans h)
    fun s' reuse hc hb => hgood s' reuse hc fun hreuse => ?_
  rcases hb hreuse with hb | hb
  · cases hr.symm.trans hb
  · exact hb

theorem Kept.got_go (hr : s.m.reuse_message = false) (hx : s.state = x)
    (hleads : ∀ s' hit, HsState.leadsFrom hit x (target s') = true) :
    Moved whole o s (r.andThen fun s => s.go (target s)) := by
  have hplain := HsState.plain_of_leads (HsState.leadsFrom_spec (hleads s s.hit)).1
  refine h.got hs hr hx hplain fun s' reuse hc hb => ?_
  obtain ⟨hl, haside⟩ := HsState.leadsFrom_spec (hleads s' s.hit)
  exact hs.go hx hc hl fun hreuse => haside (hb hreuse)

theorem Kept.sent (hx : s.state = x)
    (hplain : (x.finishes || x.flushes || x.setsAside || x = .srClntHello) = false)
    (hgood : ∀ s' reuse, s'.control = { s.control with reuse := reuse } →
      (reuse = true → x.aside = true) → Moved whole o s (f s')) :
    Moved whole o s (r.andThen f) := by
  subst hx
  simp only [or_eq_false_iff, decide_eq_false_iff_not] at hplain
  obtain ⟨⟨⟨hfin, hflush⟩, hset⟩, hhello⟩ := hplain
  refine h.moved hs hfin hflush (fun _ => hhello)
    fun s' reuse hc hb => hgood s' reuse hc fun hreuse => ?_
  rcases hb hreuse with hb | hb
  · have htarget : s.control.target = s.state := target_eq hflush
    exact htarget ▸ (hs.aside hb).1
  · cases hset.symm.trans hb

theorem Kept.sent_go (hx : s.state = x)
    (hleads : ∀ s' hit, HsState.leadsOver hit x (target s') = true) :
    Moved whole o s (r.andThen fun s => s.go (target s)) := by
  refine h.sent hs hx (HsState.plain_of_leadsOver (hleads s s.hit)) fun s' reuse hc hb => ?_
  obtain ⟨hl, haside⟩ := HsState.leadsOver_spec (hleads s' s.hit)
  exact hs.go hx hc hl fun hreuse => haside (hb hreuse)

end

theorem finished_moved (hm : s.m.Complete) (hr : s.m.reuse_message = false)
    (hfin : s.state.finishes = true)
    (hf : ∀ s', s'.hit = s.hit → ∃ st : HsState, f s' = s'.go st ∧ st.flushes = false ∧
      st.full = false ∧ (st.phase s.hit = .late ∨ st.phase s.hit = .idle)) :
    Moved whole o s ((ssl3GetFinished o s).andThen f) := by
  have hrefuse {s' : Conn} (hc : s'.control = { s.control with change := false }) (hm' : s'.m = s.m)
      (hepochs : s'.ghost.buf_epochs = s.ghost.buf_epochs) : Moved whole o s s'.leave := by
    have hstate : s'.state = s.state := congrArg state hc
    have htrim : Trimmed s s'.leave := ⟨hm' ▸ .refl s.m, hepochs⟩
    have hc' : s'.leave.control = { s.control with
        pc := .out, ccs_ok := s.ccs_ok, reuse := false, change := false } := by
      refine Eq.trans (b := { s'.control with pc := .out }) rfl ?_
      rw [hc, ← hr]
      rfl
    refine ⟨.refused s.ccs_ok (.inl rfl) hfin hc' (htrim.trims.complete hm) htrim, settled_of
      hstate (HsState.finishes_spec hfin).1 (fun hf => ?_) fun hreuse => ?_⟩
    · cases (HsState.finishes_spec hfin).2.2.2.1.symm.trans hf
    · cases (congrArg reuse hc').symm.trans hreuse
  cases hchange : s.change_cipher_spec with
  | false =>
    have hgot : ssl3GetFinished o s = .bad s := by simp [ssl3GetFinished, hchange]
    rw [hgot]
    exact hrefuse (by simp [Conn.control, hchange]) rfl rfl
  | true =>
    cases hok : o.ok with
    | false =>
      have hgot : ssl3GetFinished o s = .bad { s with change_cipher_spec := false } := by
        simp [ssl3GetFinished, hchange, hok]
      rw [hgot]
      exact hrefuse rfl rfl rfl
    | true =>
      let s2 := { s with change_cipher_spec := false }.emit
        (.finished (s.m.init_buf.take (s.m.init_num + 4))
          (s.ghost.buf_epochs.take (s.m.init_num + 4)) s.ghost.installed)
      have hgot : ssl3GetFinished o s = .good s2 := by simp [ssl3GetFinished, hchange, hok, s2]
      rw [hgot, Returned.andThen]
      obtain ⟨st, hst, hflush, hfull, hphase⟩ := hf s2 rfl
      rw [hst]
      refine ⟨.finish st s.ccs_ok s (.inl rfl) hfin hchange hm (Trimmed.refl s) ?_ ?_,
        settled_of rfl hflush (fun hf => by cases hfull.symm.trans hf) fun hreuse => ?_⟩
      · simp [s2, Conn.go, Conn.become, Conn.emit, Conn.control, Conn.input, hr]
      · rw [phase, target_eq hflush]
        exact hphase
      · cases hr.symm.trans hreuse

/-- Waiting, failing or going on is a move. -/
theorem progress_moved {s0 : Conn} {flag : Bool} {p : Progress} {got : Conn → Conn} (hs : Settled s)
    (hreads : s.state.reads = true) (henabled : Enabled whole s.control flag)
    (hc : s0.control = { s.control with ccs_ok := flag })
    (hepochs : s0.ghost.buf_epochs = s.ghost.buf_epochs)
    (hp : match p with
      | .want _ m' => ¬m'.Complete ∧ m'.reuse_message = false ∧ s.m.Trims m'
      | .got m' => m'.Complete ∧ m'.reuse_message = false ∧ s.m.Trims m'
      | .reused m' => m'.Complete ∧ m'.reuse_message = false ∧ s.m.reuse_message = true
      | .alert _ m' => m'.reuse_message = false ∧ s.m.Trims m')
    (hgot : ∀ s₁, Settled s₁ → s₁.state = s.state → s₁.m.Complete → s₁.m.reuse_message = false →
      Moved false o s₁ (got s₁)) :
    Moved whole o s (s0.progress got p) := by
  have hflush := (HsState.reads_spec hreads).1
  -- The connection with another message.
  have hsettled {s₁ : Conn} (hstate : s₁.state = s.state) (hhit : s₁.hit = s.hit)
      (hr : s₁.m.reuse_message = false) : Settled s₁ := by
    refine settled_of hstate hflush (fun hf => ?_) fun h => by cases hr.symm.trans h
    exact hhit.trans (hs.full (by rwa [target_eq hflush]))
  have hmessage (s₁ : Conn) (h1 : s₁.control = { s0.control with reuse := s₁.m.reuse_message })
      (hr : s₁.m.reuse_message = false) :
      s₁.control = { s.control with ccs_ok := flag, reuse := false } := by
    rw [h1, hc, hr]
  have hread s₁ (h1 : s₁.control = { s0.control with reuse := s₁.m.reuse_message })
      (hr : s₁.m.reuse_message = false) (hm : s₁.m.Complete)
      (htrim : s.state.finishes = true → Trimmed s s₁) : Moved whole o s (got s₁) := by
    have h1 := hmessage s₁ h1 hr
    have hstate : s₁.state = s.state := congrArg state h1
    have hmoved := hgot s₁ (hsettled hstate (congrArg hit h1) hr) hstate hm hr
    exact ⟨hmoved.1.of_got hreads henabled h1 htrim, hmoved.2⟩
  cases p with
  | want len m' =>
    obtain ⟨hm, hr, htrim⟩ := hp
    refine ⟨.want flag henabled hreads ?_ hm fun _ => ⟨htrim, hepochs⟩, ?_⟩
    · exact congrArg ({ · with pc := .reading 0 }) (hmessage { s0 with m := m' } rfl hr)
    · exact hsettled (congrArg state hc) (congrArg hit hc) hr
  | got m' =>
    obtain ⟨hm, hr, htrim⟩ := hp
    have htaken := finishMac_takeMac s0 m' m'.hashed
    rw [Conn.progress]
    generalize (ssl3TakeMac { s0 with m := m' }).finishMac m'.hashed = s₁ at htaken ⊢
    obtain ⟨hc1, rfl, hepochs1⟩ := htaken
    exact hread s₁ hc1 hr hm fun _ => ⟨htrim, hepochs1.trans hepochs⟩
  | reused m' =>
    obtain ⟨hm, hr, hreuse⟩ := hp
    refine hread { s0 with m := m' } rfl hr hm fun hfin => ?_
    cases (hs.reuse_of_finishes hfin).symm.trans hreuse
  | alert al m' =>
    obtain ⟨hr, htrim⟩ := hp
    refine ⟨.leave flag false henabled ?_ fun _ => ⟨htrim, hepochs⟩, ?_⟩
    · exact congrArg ({ · with pc := .out }) (hmessage { s0 with m := m' } rfl hr)
    · exact hsettled (congrArg state hc) (congrArg hit hc) hr

theorem begin_moved (hstart : s.state = .before ∨ s.state = .start ∨ s.state = .renegotiate)
    (hc : s'.control = { s.control with
      pc := .loop, state := st, ccs_ok := false, change := false, seen := 0, installed := none })
    (hst : st = .cwClntHello ∨ st = .srClntHello ∨ st = .swHelloReq) (hpart : s'.m.part = .header) :
    Moved whole o s s' := by
  refine ⟨.begin st hstart hc hst, settled_of (congrArg state hc) ?_ ?_ fun _ => ⟨?_, ?_⟩⟩
  · rcases hst with rfl | rfl | rfl <;> rfl
  · rcases hst with rfl | rfl | rfl <;> exact nofun
  · rcases hst with rfl | rfl | rfl <;> rfl
  · exact fun _ => hpart

theorem Settled.flushed (hs : Settled s) (hflush : s.state.flushes = true) :
    Moved whole o s (s.become s.next_state) := by
  have htarget : s.control.target = s.next_state := if_pos hflush
  have htarget' : (s.become s.next_state).control.target = s.next_state := ite_self _
  have hnum : (s.become s.next_state).m.init_num = 0 := hs.flush hflush
  refine ⟨.next s.next_state s.next_state s.hit s.tlsext_ticket_expected s.m.reuse_message s.ccs_ok
    (.inl rfl) ?_ rfl ?_ fun _ => hnum, fun hf => ?_, fun hr => ⟨?_, fun _ => rfl⟩, fun _ => hnum⟩
  · exact HsState.steady_of_flushes hflush
  · rw [phase, phase, htarget, htarget']
    exact Phase.next_self _
  · exact hs.full (htarget.trans htarget'.symm ▸ hf)
  · rw [htarget', ← htarget]
    exact (hs.aside hr).1

theorem toFlush_moved {n : HsState} (hsteady : s.state.steady = true)
    (hc : s'.control = { s.control with pc := .loop, state := st, next_state := n, reuse := reuse })
    (hst : st.flushes = true) (hphase : s.control.phase.next (n.phase s.hit) = true)
    (hfull : n.full = true → s.hit = false) (haside : reuse = true → n.aside = true)
    (hnum : s'.m.init_num = 0) : Moved whole o s s' := by
  have hstate : s'.state = st := congrArg state hc
  have hhit : s'.hit = s.hit := congrArg hit hc
  have htarget : s'.control.target = n := by
    rw [hc]
    exact if_pos hst
  refine ⟨.next st n s.hit s.tlsext_ticket_expected reuse s.ccs_ok (.inl rfl) hsteady hc ?_
      fun hf => ?_,
    fun hf => ?_, fun hr => ⟨?_, fun h => ?_⟩, fun _ => hnum⟩
  · rw [phase.eq_1 s'.control, htarget, show s'.control.hit = s.hit from hhit]
    exact hphase
  · exact nomatch hst.symm.trans (HsState.finishes_spec hf).1
  · exact hhit.trans (hfull (htarget ▸ hf))
  · exact htarget ▸ haside ((congrArg Control.reuse hc).symm.trans hr)
  · rw [← hstate, h] at hst
    exact nomatch hst

theorem Settled.toFlush {n : HsState} (hs : Settled s) (hx : s.state = x)
    (hc : s'.control = { s.control with reuse := reuse }) (hleads : HsState.leads s.hit x n = true)
    (haside : reuse = true → n.aside = true) :
    Moved whole o s ({ s' with next_state := n }.go .swFlush) := by
  obtain ⟨hsteady, -, hphase, hfull⟩ := hs.leads hx hleads
  exact toFlush_moved hsteady (congrArg (fun c : Control => { c with
    pc := .loop, state := .swFlush, next_state := n }) hc) rfl hphase hfull haside rfl

end

end VigorTls.Tls
