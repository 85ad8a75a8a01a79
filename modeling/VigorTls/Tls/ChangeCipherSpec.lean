import VigorTls.Tls.Steps

/-!
# When a ChangeCipherSpec is accepted

`ssl3_read_bytes` accepts the record while `SSL3_FLAGS_CCS_OK` is set, that is when the peer's
Finished message is the next to come. The server sets the flag only as long as the record has not
come; the client does not look, and sets it in more states, so that a ChangeCipherSpec can be
accepted after the handshake. `Disciplined` relates the two flags to the phase of the handshake; it
is kept by every step that meets `CcsCondition`.
-/

namespace VigorTls.Tls

open Lib Bool Conn HsState List

/-- It is accepted while the peer's Finished, or NextProtocol before it, is waited for, as the first
one of the handshake. -/
def Event.Expected : Event → Prop
  | .changeCipherSpec state seen =>
    (state = .crFinished ∨ state = .srNextProto ∨ state = .srFinished) ∧ seen = 0
  | _ => True

/-- What the flags have to do with the phase. `complete` says whether the message is complete. -/
structure Disciplined (c : Control) (complete : Prop) : Prop where
  ccs : c.ccs_ok = true → c.phase = .waiting ∨ c.state.dead = true
  change : c.change = true → c.phase = .waiting ∨ c.state.dead = true
  once : c.ccs_ok = true → c.change = false ∨ c.state.dead = true
  /-- After a ChangeCipherSpec the Finished message comes, and it is not asked for twice. -/
  seen : 0 < c.seen → c.change = true ∨ c.phase = .late ∨ c.phase = .idle ∨
    complete ∧ c.state.finishes = true
  events : ∀ e ∈ c.events, e.Expected

namespace Disciplined

variable {c : Control} {complete stores : Prop} {whole : Bool} {o : Oracle} {s s' : Conn}
  {x : HsState}

theorem early (h : Disciplined s.control complete) (hst : s.state = x)
    (hx : (x.dead || x.finishes || x.flushes) = false) (hphase : x.phase s.hit = .early) :
    s.ccs_ok = false ∧ s.change_cipher_spec = false ∧ s.ghost.seen = 0 := by
  subst hst
  simp only [or_eq_false_iff] at hx
  obtain ⟨⟨hdead, hfin⟩, hflush⟩ := hx
  have hphase : s.control.phase = .early := (phase_eq rfl hflush).trans hphase
  have hno : ¬(s.control.phase = .waiting ∨ s.state.dead = true) := by simp [hphase, hdead]
  have hchange : s.change_cipher_spec = false :=
    eq_false_of_not_eq_true fun hc => hno (h.change hc)
  refine ⟨eq_false_of_not_eq_true fun hc => hno (h.ccs hc), hchange, ?_⟩
  by_contra hseen
  rcases h.seen (Nat.pos_of_ne_zero hseen) with h | h | h | h
  · cases hchange.symm.trans h
  · cases hphase.symm.trans h
  · cases hphase.symm.trans h
  · cases hfin.symm.trans h.2

theorem fresh (hccs : c.ccs_ok = false) (hchange : c.change = false) (hseen : c.seen = 0)
    (hevents : ∀ e ∈ c.events, e.Expected) : Disciplined c complete where
  ccs h := by cases hccs.symm.trans h
  change h := by cases hchange.symm.trans h
  once h := by cases hccs.symm.trans h
  seen h := absurd hseen (Nat.ne_of_gt h)
  events := hevents

theorem waiting (hphase : c.phase = .waiting) (hchange : c.change = false) (hseen : c.seen = 0)
    (hevents : ∀ e ∈ c.events, e.Expected) : Disciplined c complete where
  ccs _ := .inl hphase
  change _ := .inl hphase
  once _ := .inl hchange
  seen h := absurd hseen (Nat.ne_of_gt h)
  events := hevents

section

variable (h : Disciplined s.control s.m.Complete)

include h

/-- A move keeps the discipline, unless the client sets the flag too early, too late or twice. -/
theorem move (hmove : Move whole o s s')
    (hturn : whole = true → s.state = .crFinished → s.change_cipher_spec = false)
    (hfinished : s.state = .cwFinished → s.hit = false ∧ s.tlsext_ticket_expected = false)
    (hsecret : s.state = .crSrvrHello → o.secret = true → s.tlsext_ticket_expected = false ∧
      o.ticket = false) :
    Disciplined s'.control s'.m.Complete := by
  -- A move keeps the flag, or sets it where the peer's Finished is waited for.
  have hflag {flag : Bool} (he : Enabled whole s.control flag) (hf : flag = true) :
      s.ccs_ok = true ∨ s.control.phase = .waiting ∧ s.change_cipher_spec = false := by
    rcases he with he | ⟨hw, -, he | ⟨he, hchange⟩⟩
    · exact .inl (he.symm.trans hf)
    · exact .inr ⟨phase_eq he rfl, hturn hw he⟩
    · exact .inr ⟨by rcases he with he | he <;> exact phase_eq he rfl, hchange⟩
  have hccs {flag : Bool} (he : Enabled whole s.control flag) (hf : flag = true) :
      s.control.phase = .waiting ∨ s.state.dead = true := by
    rcases hflag he hf with hf | hf
    · exact h.ccs hf
    · exact .inl hf.1
  have honce {flag : Bool} (he : Enabled whole s.control flag) (hf : flag = true) :
      s.change_cipher_spec = false ∨ s.state.dead = true := by
    rcases hflag he hf with hf | hf
    · exact h.once hf
    · exact .inl hf.2
  cases hmove with
  | leave flag reuse he hc htrim =>
    rw [hc]
    refine ⟨hccs he, h.change, honce he, fun hseen => ?_, h.events⟩
    exact (h.seen hseen).imp_right (.imp_right (.imp_right fun hs =>
      ⟨(htrim hs.2).trims.complete hs.1, hs.2⟩))
  | retry hit ticket flag he hst hc =>
    have hearly := h.early hst rfl rfl
    obtain rfl : flag = s.ccs_ok := he.resolve_right fun he => by
      rcases he.2.2 with he | ⟨he | he, -⟩ <;> cases hst.symm.trans he
    rw [hc]
    exact fresh hearly.1 hearly.2.1 hearly.2.2 h.events
  | done events hok hc hevents =>
    rw [hc]
    refine ⟨h.ccs, h.change, h.once, fun _ => .inr (.inr (.inl (phase_eq hok rfl))), fun e he => ?_⟩
    rcases mem_append.mp he with he | he
    · exact h.events e he
    · obtain ⟨_, _, _, _, _, _, rfl⟩ := hevents e he
      trivial
  | err hstate hpc hinput hevents =>
    have hdead : s'.control.state.dead = true := by
      rw [show s'.control.state = _ from hstate]
      rfl
    refine ⟨fun _ => .inr hdead, fun _ => .inr hdead, fun _ => .inr hdead,
      fun _ => .inr (.inr (.inl (phase_eq hstate rfl))), ?_⟩
    rw [show s'.control.events = _ from hevents]
    exact h.events
  | want flag he hreads hc hm htrim =>
    rw [hc]
    refine ⟨hccs he, h.change, honce he, fun hseen => ?_, h.events⟩
    -- The message that is waited for is not complete, so none was before.
    exact (h.seen hseen).imp_right (.imp_right (.imp_right fun hs =>
      absurd ((htrim hs.2).trims.complete hs.1) hm))
  | refused flag he hf hc hm htrim =>
    rw [hc]
    exact ⟨hccs he, (by rintro ⟨⟩), fun _ => .inl rfl, fun _ => .inr (.inr (.inr ⟨hm, hf⟩)),
      h.events⟩
  | begin state hstart hc hstate =>
    rw [hc]
    exact fresh rfl rfl rfl h.events
  | next state next_state hit ticket reuse flag he hsteady hc hphase hentry =>
    obtain ⟨-, hfin, hdead⟩ := steady_spec hsteady
    -- The phase does not fall back, and the flags that allow it only `waiting` stay with it.
    have hwait (hw : s.control.phase = .waiting ∨ s.state.dead = true) :
        s'.control.phase = .waiting := by
      have hw := hw.resolve_right (by simp [hdead])
      rw [hw] at hphase
      exact of_decide_eq_true hphase
    have hchange : s'.control.change = s.change_cipher_spec := by rw [hc]; rfl
    have hccs' : s'.control.ccs_ok = flag := by rw [hc]
    refine ⟨fun hf => .inl (hwait (hccs he (hccs'.symm.trans hf))),
      fun hf => .inl (hwait (h.change (hchange.symm.trans hf))), fun hf => .inl ?_,
        fun hseen => ?_, ?_⟩
    · exact hchange.trans ((honce he (hccs'.symm.trans hf)).resolve_right (by simp [hdead]))
    · have hseen : 0 < s.ghost.seen := by rw [hc] at hseen; exact hseen
      rcases h.seen hseen with hs | hs | hs | hs
      · exact .inl (hchange.trans hs)
      · rw [hs] at hphase
        rcases (or_eq_true _ _).mp hphase with hp | hp
        · exact .inr (.inl (of_decide_eq_true hp))
        · exact .inr (.inr (.inl (of_decide_eq_true hp)))
      · rw [hs] at hphase
        exact .inr (.inr (.inl (of_decide_eq_true hphase)))
      · cases hfin.symm.trans hs.2
    · rw [hc]
      exact h.events
  | secret state ticket hst hsec hticket hc hstate hentry =>
    have hearly := h.early hst rfl rfl
    obtain ⟨ht, ho⟩ := hsecret hst hsec
    obtain rfl : ticket = false := by simp [hticket, ht, ho]
    obtain rfl : state = .crFinished := hstate
    rw [hc]
    exact waiting rfl hearly.2.1 hearly.2.2 h.events
  | flush next_state hst hc hnext =>
    obtain ⟨hhit, hticket⟩ := hfinished hst
    have hearly := h.early hst rfl (hhit ▸ rfl)
    obtain rfl : next_state = .crFinished := by simpa [hhit, hticket] using hnext
    rw [hc]
    exact waiting rfl hearly.2.1 hearly.2.2 h.events
  | finish state flag s1 he hf hchange hm htrim hc hphase =>
    have hdead : s.state.dead = false := (finishes_spec hf).2.2.1
    -- The record has come, so the flag is not set again.
    have hflag : flag = false := by
      refine eq_false_of_not_eq_true fun hflag => ?_
      rcases honce he hflag with h | h
      · cases h.symm.trans hchange
      · cases hdead.symm.trans h
    refine ⟨fun h => ?_, fun h => ?_, fun h => ?_, fun _ => .inr (by tauto), ?_⟩
    · rw [hc] at h
      cases hflag.symm.trans h
    · rw [hc] at h
      cases h
    · rw [hc] at h
      cases hflag.symm.trans h
    · rw [hc]
      exact forall_mem_append.mpr ⟨h.events, forall_mem_singleton.mpr trivial⟩

omit h in
theorem idle (hst : s.state = x) (hx : (x.flushes || x.dead) = false)
    (hphase : x.phase s.hit = .idle) (h : Disciplined s.control complete) :
    s.ccs_ok = false ∧ s.change_cipher_spec = false := by
  subst hst
  obtain ⟨hflush, hdead⟩ := or_eq_false_iff.mp hx
  have hphase : s.control.phase = .idle := (phase_eq rfl hflush).trans hphase
  have hno : ¬(s.control.phase = .waiting ∨ s.state.dead = true) := by simp [hphase, hdead]
  exact ⟨eq_false_of_not_eq_true fun hc => hno (h.ccs hc),
    eq_false_of_not_eq_true fun hc => hno (h.change hc)⟩

omit h in
theorem of_dead (hst : s.state = x) (hx : x.dead = true)
    (hevents : ∀ e ∈ s.ghost.events, e.Expected) : Disciplined s.control complete := by
  have hdead : s.control.state.dead = true := by rw [show s.control.state = x from hst, hx]
  have hidle : s.control.phase = .idle := by
    cases x <;> first | exact phase_eq hst rfl | exact nomatch hx
  exact ⟨fun _ => .inr hdead, fun _ => .inr hdead, fun _ => .inr hdead,
    fun _ => .inr (.inr (.inl hidle)), hevents⟩

omit h in
theorem of_idle (hst : s.state = x) (hflush : x.flushes = false) (hphase : x.phase s.hit = .idle)
    (hccs : s.ccs_ok = false) (hchange : s.change_cipher_spec = false)
    (hevents : ∀ e ∈ s.ghost.events, e.Expected) : Disciplined s.control complete where
  ccs h := by cases hccs.symm.trans h
  change h := by cases hchange.symm.trans h
  once h := by cases hccs.symm.trans h
  seen _ := .inr (.inr (.inl ((phase_eq hst hflush).trans hphase)))
  events := hevents

theorem frame (hf : Frame stores s s') : Disciplined s'.control s'.m.Complete := by
  rw [hf.eq]
  exact ⟨h.ccs, h.change, h.once, h.seen, h.events⟩

theorem clear
    (hstate : s.state.inInit = false ∨ s.state = .before) :
    Disciplined (sslClear s).control (sslClear s).m.Complete := by
  obtain ⟨session, -, hclear | hclear⟩ := sslClear_cases s
  · rw [hclear]
    cases hst : s.state with
    | err => exact of_dead rfl rfl h.events
    | ok | before =>
      obtain ⟨hccs, hchange⟩ := h.idle hst rfl rfl
      exact of_idle rfl rfl rfl hccs hchange h.events
    | _ => rcases hstate with hstate | hstate <;> exact nomatch hst ▸ hstate
  · rw [hclear]
    exact of_idle rfl rfl rfl rfl rfl h.events

theorem drift (hd : Drift stores s s') : Disciplined s'.control s'.m.Complete := by
  induction hd with
  | frame hf => exact h.frame hf
  | restart state renegotiate total pending hpc hstate =>
    rcases hstate with ⟨rfl, -⟩ | ⟨rfl, hok⟩
    · exact of_dead rfl rfl h.events
    · obtain ⟨hccs, hchange⟩ := h.idle hok rfl rfl
      exact of_idle rfl rfl rfl hccs hchange h.events
  | pending hpc => exact h
  | mode mode hpc _ => exact h
  | clear hpc hstate => exact h.clear hstate
  | trans _ _ ih ih' => exact ih' (ih h)

end

theorem changed {env : ReadEnv} {pc : Pc} {k n : ℕ} (h : Disciplined s.control s.m.Complete)
    (hs : Sound s) (hpc : s.pc = .reading k) (hok : s.ccs_ok = true)
    (hchange : s.change_cipher_spec = false) :
    Disciplined ({ (acceptChangeCipherSpec env s).2 with pc := pc, in_handshake := n }).control
      (acceptChangeCipherSpec env s).2.m.Complete := by
  obtain ⟨hreads, hm, -⟩ := hs.waits k hpc
  have hwait : s.control.phase = .waiting :=
    (h.ccs hok).resolve_right fun hdead => by cases hdead.symm.trans (reads_spec hreads).2.2
  have hstate : s.state = .crFinished ∨ s.state = .srNextProto ∨ s.state = .srFinished := by
    rw [phase_eq rfl (reads_spec hreads).1] at hwait
    revert hreads hwait
    cases s.state <;> simp [reads, phase]
  have hseen : s.ghost.seen = 0 := by
    by_contra hseen
    rcases h.seen (Nat.pos_of_ne_zero hseen) with hs | hs | hs | hs
    · cases hchange.symm.trans hs
    · cases hwait.symm.trans hs
    · cases hwait.symm.trans hs
    · exact hm hs.1
  rw [acceptChangeCipherSpec_eq]
  refine ⟨(by rintro ⟨⟩), fun _ => .inl hwait, (by rintro ⟨⟩), fun _ => .inl rfl, ?_⟩
  exact forall_mem_append.mpr ⟨h.events, forall_mem_singleton.mpr ⟨hstate, hseen⟩⟩

end Disciplined

/-- `tls_session_secret_cb` provides the secret only when no ticket follows the ServerHello. -/
def SecretCondition (s : Conn) (o : Oracle) : Prop :=
  s.state = .crSrvrHello → o.secret = true → s.tlsext_ticket_expected = false ∧ o.ticket = false

/-- The client expects no ticket when it writes its Finished in a full handshake; it waits for the
server's Finished before the ChangeCipherSpec and not again after it; a secret is provided only when
no ticket follows; and no application data is read while the flag is left from a failed handshake.
-/
def CcsCondition (s : Conn) (label : Label) : Prop :=
  match label, s.pc with
  | .turn o, .loop =>
    (s.state = .cwFinished → s.hit = false ∧ s.tlsext_ticket_expected = false) ∧
      (s.state = .crFinished → s.change_cipher_spec = false) ∧ SecretCondition s o
  | .record _ _ o, .reading _ => SecretCondition s o
  | .app .., .out => s.ccs_ok = true → s.in_handshake = 0 ∧ s.state ≠ .err
  | _, _ => True

instance (s : Conn) (o : Oracle) : Decidable (SecretCondition s o) :=
  inferInstanceAs (Decidable (_ → _ → _))

instance (s : Conn) (label : Label) : Decidable (CcsCondition s label) := by
  unfold CcsCondition
  generalize s.pc = pc
  rcases label <;> rcases pc <;> infer_instance

/-- The invariant of a run. -/
structure Orderly (s : Conn) : Prop where
  sound : Sound s
  disciplined : Disciplined s.control s.m.Complete

theorem step_orderly (cfg : Config) (s : Conn) (label : Label) (h : Orderly s)
    (hcond : CcsCondition s label) : Orderly (step cfg s label) := by
  refine ⟨step_sound cfg label h.sound, ?_⟩
  have hfeed {s1 : Conn} {o : Oracle} {k : ℕ} bytes epochs (hs1 : Sound s1)
      (hd1 : Disciplined s1.control s1.m.Complete) (hpc : s1.pc = .reading k)
      (hsecret : SecretCondition s1 o) :
      Disciplined (feedMessage cfg o bytes epochs s1).control
        (feedMessage cfg o bytes epochs s1).m.Complete := by
    obtain ⟨hreads, hm, -⟩ := hs1.waits k hpc
    have hfed : Disciplined (s1.feed bytes epochs).control (s1.feed bytes epochs).m.Complete := by
      refine ⟨hd1.ccs, hd1.change, hd1.once, fun hseen => ?_, hd1.events⟩
      -- The message was not complete before.
      exact (hd1.seen hseen).imp_right (.imp_right (.imp_right fun hs => absurd hs.1 hm))
    refine hfed.move (hs1.feed_moved hpc cfg o bytes epochs).1 (by rintro ⟨⟩)
      (fun hst => ?_) hsecret
    cases (show s1.state = _ from hst) ▸ hreads
  have hstep := step_stepped cfg s label
  generalize step cfg s label = s' at hstep
  cases hstep with
  | turn o hpc =>
    simp only [CcsCondition, hpc] at hcond
    obtain ⟨hfinished, hturn, hsecret⟩ := hcond
    exact h.disciplined.move (turn_moved cfg o h.sound.settled).1 (fun _ => hturn) hfinished hsecret
  | fragment answer env o k n hpc hfragment =>
    simp only [CcsCondition, hpc] at hcond
    obtain ⟨hccs, hchange, honce, hseen, hevents⟩ := h.disciplined
    exact hfeed _ _ (h.sound.dropFragment n) ⟨hccs, hchange, honce, hseen, hevents⟩ hpc hcond
  | bytes answer env o k n e data s1 hpc hf hpc1 hfragment hdata he =>
    simp only [CcsCondition, hpc] at hcond
    refine hfeed _ _ (hf.sound h.sound) (h.disciplined.frame hf) (hpc1.trans hpc) ?_
    rw [hf.eq]
    exact hcond
  | changed answer env o k s0 pc n hpc hfetch hfragment htype hok hchange hpc' =>
    have hf : Frame False s s0 := .fetch hfetch
    have heq := (fetchRecord_some hfetch).1
    exact (h.disciplined.frame hf).changed (hf.sound h.sound) (by rw [heq]; exact hpc)
      (heq ▸ hok) (heq ▸ hchange)
  | changedApp data len peek answer env s0 hpc hcall hf hpc0 hok =>
    simp only [CcsCondition, hpc] at hcond
    obtain ⟨hin, herr⟩ := hcond hok
    have hinit := hcall.resolve_right (not_not.mpr hin)
    cases hst : s.state with
    | ok => cases (h.disciplined.idle hst rfl rfl).1.symm.trans hok
    | err => exact absurd hst herr
    | _ => cases hst ▸ hinit
  | drift _ _ hd _ _ => exact h.disciplined.drift hd

/-- In a run whose steps all meet the condition, a ChangeCipherSpec is accepted only while the
peer's Finished message, or NextProtocol before it, is waited for, once in a handshake. -/
theorem changeCipherSpec_accepted (cfg : Config) (server : Bool) (mode : VerifyMode)
    (labels : List Label) (h : Along (step cfg) CcsCondition (init server mode) labels)
    (state : HsState) (seen : ℕ) (he : .changeCipherSpec state seen ∈
      (run (step cfg) (init server mode) labels).ghost.events) :
    (state = .crFinished ∨ state = .srNextProto ∨ state = .srFinished) ∧ seen = 0 ∧
      state ≠ .ok := by
  have horderly := run_invariant (step_orderly cfg) labels _
    ⟨init_sound server mode, .fresh rfl rfl rfl nofun⟩ h
  obtain ⟨hstate, hseen⟩ := horderly.disciplined.events _ he
  refine ⟨hstate, hseen, ?_⟩
  rcases hstate with rfl | rfl | rfl <;> exact nofun

/-- A full handshake of a client, with every message in one record. -/
def fullRun : List Label :=
  [.enter false, .turn {}, .turn {}, .turn {}, .receive 22 2 [0, 0, 0],
    .turn {}, .receive 22 11 [0, 0, 0], .turn {}, .receive 22 12 [0, 0, 0],
    .turn {}, .receive 22 14 [0, 0, 0], .turn {}, .turn {}, .turn {}, .turn {}, .turn {}, .turn {},
    .receive 20 1 [], .receive 22 20 [0, 0, 0], .turn {}]

/-- It accepts one ChangeCipherSpec. -/
theorem changeCipherSpec_accepted_full :
    .changeCipherSpec .crFinished 0 ∈
      (run (step .permissive) (init false {}) fullRun).ghost.events ∧
    (crFinished = .crFinished ∨ crFinished = .srNextProto ∨
      crFinished = .srFinished) ∧ 0 = 0 ∧ crFinished ≠ .ok :=
  ⟨by decide +kernel, changeCipherSpec_accepted .permissive false {} fullRun (by decide +kernel)
    .crFinished 0 (by decide +kernel)⟩

/-- A resumed handshake, and a ChangeCipherSpec after it. -/
def resumedRun : List Label :=
  [.enter false, .turn {}, .turn {}, .turn {}, .receive 22 2 [0, 0, 0] { sameId := true },
    .turn {}, .receive 20 1 [], .receive 22 20 [0, 0, 0], .turn {}, .turn {}, .turn {}, .turn {},
    .app true 5 false (some (20, 1, [])) {}]

/-- The client has set the flag again, and accepts a second ChangeCipherSpec in `SSL_ST_OK`. -/
theorem changeCipherSpec_accepted_ok : .changeCipherSpec .ok 1 ∈
    (run (step .permissive) (init false {}) resumedRun).ghost.events := by
  decide +kernel

end VigorTls.Tls
