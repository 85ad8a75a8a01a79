import VigorTls.Tls.ChangeCipherSpec

/-!
# The bytes of a Finished message

`ssl3_get_finished` checks that a ChangeCipherSpec has come before the message is complete, but not
that the message began after it: it can begin under the old read state and end under the new one.
`Fresh` says that after a ChangeCipherSpec nothing is left that was opened before it; it is kept by
every step that meets `FinishedCondition`.
-/

namespace VigorTls.Tls

open Lib List HsState Control

/-- The bytes were all opened under the read state that the ChangeCipherSpec installed, or a later
one. -/
def Event.Whole : Event → Prop
  | .finished message epochs installed => 4 ≤ message.length ∧ epochs.length = message.length ∧
      ∃ e, installed = some e ∧ ∀ x ∈ epochs, e ≤ x
  | _ => True

/-- The bytes that the message has so far were opened under the read state `e` or a later one. -/
structure Conn.Since (s : Conn) (e : ℕ) : Prop where
  buf : s.m.offset ≤ s.m.init_buf.length
  epochs : s.m.offset ≤ s.ghost.buf_epochs.length
  since : ∀ x ∈ s.ghost.buf_epochs.take s.m.offset, e ≤ x

/-- A ChangeCipherSpec has installed the read state `e`, and nothing from before is left. -/
structure Conn.Renewed (s : Conn) (e : ℕ) : Prop where
  installed : s.ghost.installed = some e
  epoch : e ≤ s.ghost.epoch
  rrec : s.rrec.data ≠ [] → e ≤ s.ghost.rrec_epoch
  fragment : s.handshake_fragment = []
  message : s.state.finishes = true → s.Since e

/-- What `change_cipher_spec` says in a handshake, and the messages accepted so far. -/
structure Fresh (s : Conn) : Prop where
  change : s.state.underway = true → s.change_cipher_spec = true → ∃ e, s.Renewed e
  events : ∀ ev ∈ s.ghost.events, ev.Whole

variable {stores : Prop} {whole : Bool} {o : Oracle} {s s' : Conn} {e : ℕ}

namespace Conn

theorem Since.of_offset (h : s.m.offset = 0) : s.Since e := by
  refine ⟨h ▸ Nat.zero_le _, h ▸ Nat.zero_le _, fun x hx => ?_⟩
  rw [h] at hx
  exact nomatch hx

theorem Since.trimmed (h : s.Since e) (ht : Trimmed s s') : s'.Since e := by
  obtain ⟨⟨hbuf, hoffset, -⟩, hepochs⟩ := ht
  refine ⟨hbuf ▸ hoffset.trans h.buf, hepochs ▸ hoffset.trans h.epochs, fun x hx => ?_⟩
  rw [hepochs] at hx
  exact h.since x ((take_prefix_take_left hoffset).subset hx)

theorem feed_offset (s : Conn) (bytes : Bytes) (epochs : List ℕ) :
    (s.feed bytes epochs).m.offset = s.m.offset + bytes.length := by
  cases hp : s.m.part <;> simp [feed, messageFeed, MessageState.offset, hp, Nat.add_assoc]

theorem Since.lengths (h : s.Since e) : (s.m.init_buf.take s.m.offset).length = s.m.offset ∧
    (s.ghost.buf_epochs.take s.m.offset).length = s.m.offset :=
  ⟨length_take_of_le h.buf, length_take_of_le h.epochs⟩

theorem Since.feed (h : s.Since e) (bytes : Bytes) {x : ℕ} (hx : e ≤ x) :
    (s.feed bytes (replicate bytes.length x)).Since e := by
  obtain ⟨hbuf, hepochs⟩ := h.lengths
  refine ⟨?_, ?_, fun y hy => ?_⟩
  · rw [feed_offset]
    simp [Conn.feed, messageFeed, hbuf]
  · rw [feed_offset]
    simp [Conn.feed, hepochs]
  · rcases mem_append.mp (mem_of_mem_take hy) with hy | hy
    · exact h.since y hy
    · rw [eq_of_mem_replicate hy]
      exact hx

theorem Renewed.congr (h : s.Renewed e) (hi : s'.ghost.installed = s.ghost.installed)
    (hinput : s'.input = s.input) (hm : s'.state.finishes = true → s'.Since e) : s'.Renewed e := by
  have hepoch : s'.ghost.epoch = s.ghost.epoch := congrArg Input.epoch hinput
  have hrrec : s'.rrec = s.rrec := congrArg Input.rrec hinput
  have hrepoch : s'.ghost.rrec_epoch = s.ghost.rrec_epoch := congrArg Input.rrec_epoch hinput
  have hfragment : s'.handshake_fragment = s.handshake_fragment := congrArg Input.fragment hinput
  exact ⟨hi.trans h.installed, hepoch ▸ h.epoch, hrrec ▸ hrepoch ▸ h.rrec,
    hfragment.trans h.fragment, hm⟩

end Conn

namespace Fresh

theorem of_change (h : s.change_cipher_spec = false) (he : ∀ ev ∈ s.ghost.events, ev.Whole) :
    Fresh s := ⟨fun _ hc => (by cases h.symm.trans hc), he⟩

theorem of_rest (h : s.state.underway = false) (he : ∀ ev ∈ s.ghost.events, ev.Whole) :
    Fresh s := ⟨fun hu => (by cases h.symm.trans hu), he⟩

theorem move (h : Fresh s) (hmove : Move whole o s s') : Fresh s' := by
  have hevents (hev : s'.ghost.events = s.ghost.events) : ∀ ev ∈ s'.ghost.events, ev.Whole :=
    hev ▸ h.events
  -- The state after a move that keeps `change_cipher_spec`.
  have hkeep {c : Control} (hc : s'.control = c) (hchange : c.change = s.control.change)
      (hi : c.installed = s.control.installed) (hinput : c.input = s.control.input)
      (hev : c.events = s.control.events)
      (hu : c.state.underway = true → s.state.underway = true)
      (hm : c.state.finishes = true → s'.m.offset = 0 ∨ s.state.finishes = true ∧ Trimmed s s') :
      Fresh s' := by
    subst hc
    refine ⟨fun hunder hch => ?_, hevents hev⟩
    obtain ⟨e, he⟩ := h.change (hu hunder) (hchange.symm.trans hch)
    refine ⟨e, he.congr hi hinput fun hf => ?_⟩
    rcases hm hf with hm | ⟨hf, ht⟩
    · exact .of_offset hm
    · exact (he.message hf).trimmed ht
  cases hmove with
  | leave flag reuse he hc htrim =>
    exact hkeep hc rfl rfl rfl rfl id fun hf => .inr ⟨hf, htrim hf⟩
  | retry hit ticket flag he hst hc =>
    exact hkeep hc rfl rfl rfl rfl id fun hf => nomatch (congrArg finishes hst).symm.trans hf
  | done events hok hc hnew =>
    have hstate : s'.state = .ok := (congrArg Control.state hc).trans hok
    have hev : s'.ghost.events = _ := congrArg Control.events hc
    refine of_rest (hstate ▸ rfl) fun ev hmem => ?_
    rw [hev] at hmem
    rcases mem_append.mp hmem with hmem | hmem
    · exact h.events ev hmem
    · obtain ⟨_, _, _, _, _, _, rfl⟩ := hnew ev hmem
      trivial
  | err hstate hpc hinput hev => exact of_rest (hstate ▸ rfl) (hevents hev)
  | want flag he hreads hc hm htrim =>
    exact hkeep hc rfl rfl rfl rfl id fun hf => .inr ⟨hf, htrim hf⟩
  | refused flag he hf hc hm htrim | begin state hstart hc hstate =>
    exact of_change (congrArg Control.change hc) (hevents (congrArg Control.events hc))
  | next state next_state hit ticket reuse flag he hsteady hc hphase hentry =>
    exact hkeep hc rfl rfl rfl rfl (fun _ => (HsState.steady_spec hsteady).1) fun hf =>
      .inl (hentry hf)
  | secret state ticket hst hsec hticket hc hstate hentry =>
    exact hkeep hc rfl rfl rfl rfl (fun _ => by rw [hst]; rfl) fun _ => .inl hentry
  | flush next_state hst hc hnext =>
    exact hkeep hc rfl rfl rfl rfl (fun _ => by rw [hst]; rfl) nofun
  | finish state flag s1 he hf hchange hm htrim hc hphase =>
    have hev : s'.ghost.events = _ := congrArg Control.events hc
    obtain ⟨e, he⟩ := h.change (HsState.finishes_spec hf).2.2.2.2 hchange
    refine of_change (congrArg Control.change hc) fun ev hmem => ?_
    rw [hev] at hmem
    rcases mem_append.mp hmem with hmem | hmem
    · exact h.events ev hmem
    rw [mem_singleton.mp hmem]
    have hsince := (he.message hf).trimmed htrim
    have hoffset : s1.m.offset = s1.m.init_num + 4 := by
      simp [MessageState.offset, hm.1, Nat.add_comm]
    rw [← hoffset]
    obtain ⟨hbuf, hepochs⟩ := hsince.lengths
    exact ⟨by omega, hepochs.trans hbuf.symm, e, he.installed, hsince.since⟩

theorem frame (h : Fresh s) (hf : Frame False s s') : Fresh s' := by
  have hstate : s'.state = s.state := by rw [hf.eq]
  have hchange : s'.change_cipher_spec = s.change_cipher_spec := by rw [hf.eq]
  have hm : s'.m = s.m := by rw [hf.eq]
  have hepochs : s'.ghost.buf_epochs = s.ghost.buf_epochs := by rw [hf.eq]
  have hevents : s'.ghost.events = s.ghost.events := by rw [hf.eq]
  refine ⟨fun hu hc => ?_, hevents ▸ h.events⟩
  obtain ⟨e, hi, hepoch, hrrec, hfragment, hmessage⟩ :=
    h.change (hstate ▸ hu) (hchange.symm.trans hc)
  refine ⟨e, by rw [hf.eq]; exact hi, by rw [hf.eq]; exact hepoch, fun hd => ?_, ?_, fun hfin => ?_⟩
  · rcases hf.data hd with ⟨hd, he⟩ | he
    · exact he ▸ hrrec hd
    · exact he ▸ hepoch
  · rcases hf.fragment with hf | hf | hf
    · exact hf.trans hfragment
    · exact hf
    · exact hf.elim
  · exact (hmessage (hstate ▸ hfin)).trimmed ⟨hm ▸ .refl s.m, hepochs⟩

theorem clear (h : Fresh s) (hstate : s.state.inInit = false ∨ s.state = .before) :
    Fresh (sslClear s) := by
  have hrest : s.state.underway = false := by
    rcases hstate with hstate | hstate
    · exact underway_of_inInit hstate
    · rw [hstate]
      rfl
  obtain ⟨session, -, hclear | hclear⟩ := sslClear_cases s
  · rw [hclear]
    exact of_rest hrest h.events
  · rw [hclear]
    exact of_rest rfl h.events

theorem restart {state : HsState} {renegotiate total : ℕ} {pending : Bool} (h : Fresh s)
    (hstate : state = .renegotiate ∨ state = .start) : Fresh { s with
      state := state, renegotiate := renegotiate, renegotiate_pending := pending
      total_renegotiations := total } := by
  rcases hstate with rfl | rfl <;> exact of_rest rfl h.events

theorem congr (h : Fresh s) (hc : s'.control = s.control) (hm : s'.m = s.m)
    (hepochs : s'.ghost.buf_epochs = s.ghost.buf_epochs) : Fresh s' := by
  have hstate : s'.state = s.state := congrArg Control.state hc
  have hchange : s'.change_cipher_spec = s.change_cipher_spec := congrArg Control.change hc
  have hevents : s'.ghost.events = s.ghost.events := congrArg Control.events hc
  refine ⟨fun hu hc' => ?_, hevents ▸ h.events⟩
  obtain ⟨e, he⟩ := h.change (hstate ▸ hu) (hchange.symm.trans hc')
  exact ⟨e, he.congr (congrArg installed hc) (congrArg input hc) fun hf =>
    (he.message (hstate ▸ hf)).trimmed ⟨hm ▸ .refl s.m, hepochs⟩⟩

theorem drift (h : Fresh s) (hd : Drift False s s') : Fresh s' := by
  induction hd with
  | frame hf => exact h.frame hf
  | restart state renegotiate total pending hpc hstate =>
    exact h.restart (hstate.imp And.left And.left)
  | pending hpc => exact h.congr rfl rfl rfl
  | mode mode hpc hstate => exact h.congr rfl rfl rfl
  | clear hpc hstate => exact h.clear hstate
  | trans _ _ ih ih' => exact ih' (ih h)

theorem drift_rest (hd : Drift stores s s')
    (h : s.state.underway = false ∧ ∀ ev ∈ s.ghost.events, ev.Whole) :
    s'.state.underway = false ∧ ∀ ev ∈ s'.ghost.events, ev.Whole := by
  induction hd with
  | frame hf =>
    rw [hf.eq]
    exact h
  | restart state renegotiate total pending hpc hstate =>
    rcases hstate with ⟨rfl, -⟩ | ⟨rfl, -⟩ <;> exact ⟨rfl, h.2⟩
  | pending hpc => exact h
  | mode mode hpc hstate => exact h
  | @clear s hpc hstate =>
    obtain ⟨session, -, hclear | hclear⟩ := sslClear_cases s <;> rw [hclear]
    · exact h
    · exact ⟨rfl, h.2⟩
  | trans _ _ ih ih' => exact ih' (ih h)

theorem feed {k : ℕ} (hs : Sound s) (hpc : s.pc = .reading k) {bytes : Bytes} {epochs : List ℕ}
    (h : Fresh (s.feed bytes epochs)) (cfg : Config) (o : Oracle) :
    Fresh (feedMessage cfg o bytes epochs s) := h.move (hs.feed_moved hpc cfg o bytes epochs).1

theorem changed {env : ReadEnv} {pc : Pc} {n : ℕ} (h : Fresh s)
    (hfragment : s.handshake_fragment = [])
    (hinstalls : env.installs = true) (hoffset : s.state.finishes = true → s.m.offset = 0) :
    Fresh { (acceptChangeCipherSpec env s).2 with pc := pc, in_handshake := n } := by
  rw [acceptChangeCipherSpec_eq, hinstalls]
  refine ⟨fun _ _ => ⟨s.ghost.epoch + 1, rfl, le_rfl, fun hd => absurd rfl hd, hfragment, fun hf =>
    .of_offset (hoffset hf)⟩, ?_⟩
  exact forall_mem_append.mpr ⟨h.events, forall_mem_singleton.mpr trivial⟩

end Fresh

/-- An accepted ChangeCipherSpec comes before the first byte of the Finished message, and the new
read state is installed; and no application data is read in a handshake. -/
def FinishedCondition (s : Conn) (label : Label) : Prop :=
  match label, s.pc with
  | .record answer env _, .reading _ =>
    ∀ s₀ ∈ fetchRecord s answer, s₀.rrec.type = ssl3RtChangeCipherSpec → s.ccs_ok = true →
      env.installs = true ∧ (s.state.finishes = true → s.m.offset = 0)
  | .app .., .out => s.state.inInit = true → s.in_handshake = 0
  | _, _ => True

instance (s : Conn) (label : Label) : Decidable (FinishedCondition s label) := by
  unfold FinishedCondition
  generalize s.pc = pc
  rcases label <;> rcases pc <;> infer_instance

theorem inInit_of_call (hcond : s.state.inInit = true → s.in_handshake = 0)
    (hcall : s.state.inInit = false ∨ s.in_handshake ≠ 0) : s.state.inInit = false := by
  rcases hcall with h | h
  · exact h
  · exact Bool.eq_false_of_not_eq_true fun hb => h (hcond hb)

theorem step_fresh (cfg : Config) (s : Conn) (label : Label) (h : Sound s ∧ Fresh s)
    (hcond : FinishedCondition s label) : Sound (step cfg s label) ∧ Fresh (step cfg s label) := by
  obtain ⟨hs, h⟩ := h
  refine ⟨step_sound cfg label hs, ?_⟩
  have hstep := step_stepped cfg s label
  generalize step cfg s label = s' at hstep
  cases hstep with
  | turn o hpc => exact h.move (turn_moved cfg o hs.settled).1
  | fragment answer env o k n hpc hfragment =>
    -- With something in the storage, no ChangeCipherSpec has come.
    have hchange : s.change_cipher_spec = false := by
      refine Bool.eq_false_of_not_eq_true fun hc => ?_
      obtain ⟨e, he⟩ := h.change (reads_spec (hs.waits k hpc).1).2.1 hc
      exact hfragment he.fragment
    exact Fresh.feed (hs.dropFragment n) hpc (.of_change hchange h.events) cfg o
  | bytes answer env o k n x data s1 hpc hf hpc1 hfragment hdata hx =>
    obtain rfl := hdata
    refine Fresh.feed (hf.sound hs) (hpc1.trans hpc) ⟨fun hu hc => ?_, (h.frame hf).events⟩ cfg o
    obtain ⟨e, he⟩ := (h.frame hf).change hu hc
    refine ⟨e, he.congr rfl rfl fun hm => (he.message hm).feed data ?_⟩
    obtain ⟨e', he'⟩ := h.change (reads_spec (hs.waits k hpc).1).2.1 (by rw [hf.eq] at hc; exact hc)
    have hinstalled : s1.ghost.installed = s.ghost.installed := by rw [hf.eq]
    obtain rfl : e' = e :=
      Option.some.inj (he'.installed.symm.trans (hinstalled.symm.trans he.installed))
    rcases hx with ⟨hd, rfl⟩ | rfl
    · exact he'.rrec hd
    · exact he'.epoch
  | changed answer env o k s0 pc n hpc hfetch hfragment htype hok hchange hpc' =>
    simp only [FinishedCondition, hpc] at hcond
    have heq := (fetchRecord_some hfetch).1
    obtain ⟨hinstalls, hoffset⟩ := hcond s0 hfetch htype hok
    exact (h.frame (.fetch hfetch)).changed (heq ▸ hfragment) hinstalls (heq ▸ hoffset)
  | changedApp data len peek answer env s0 hpc hcall hf hpc0 hok =>
    simp only [FinishedCondition, hpc] at hcond
    have hinit := inInit_of_call hcond hcall
    have hstate : s0.state = s.state := by rw [hf.eq]
    rw [acceptChangeCipherSpec_eq]
    refine .of_rest (underway_of_inInit (hstate ▸ hinit)) ?_
    exact forall_mem_append.mpr ⟨(h.frame hf).events, forall_mem_singleton.mpr trivial⟩
  | drift _ stores hd hstores _ =>
    by_cases hst : stores
    · obtain ⟨hpc, hcall, data, len, peek, answer, env, rfl⟩ := hstores hst
      simp only [FinishedCondition, hpc] at hcond
      have hrest := underway_of_inInit (inInit_of_call hcond hcall)
      obtain ⟨hrest, hevents⟩ := Fresh.drift_rest hd ⟨hrest, h.events⟩
      exact .of_rest hrest hevents
    · exact h.drift (hd.mono hst)

/-- In a run whose steps all meet the condition, every byte of an accepted Finished message was
opened under the read state that the ChangeCipherSpec of the handshake installed, or a later one. -/
theorem finished_since_changeCipherSpec (cfg : Config) (server : Bool) (mode : VerifyMode)
    (labels : List Label) (h : Along (step cfg) FinishedCondition (Conn.init server mode) labels)
    (message : Bytes) (epochs : List ℕ) (installed : Option ℕ)
    (he : .finished message epochs installed ∈
      (run (step cfg) (Conn.init server mode) labels).ghost.events) :
    4 ≤ message.length ∧ epochs.length = message.length ∧
      ∃ e, installed = some e ∧ ∀ x ∈ epochs, e ≤ x :=
  have hinit : Fresh (Conn.init server mode) := .of_rest rfl nofun
  (run_invariant (step_fresh cfg) labels _ ⟨init_sound server mode, hinit⟩ h).2.events _ he

/-- A full handshake of a client. -/
theorem finished_since_changeCipherSpec_full :
    .finished [20, 0, 0, 0] [1, 1, 1, 1] (some 1) ∈
      (run (step .permissive) (Conn.init false {}) fullRun).ghost.events ∧
    4 ≤ [20, 0, 0, 0].length ∧ [1, 1, 1, 1].length = [20, 0, 0, 0].length ∧
      ∃ e, some 1 = some e ∧ ∀ x ∈ [1, 1, 1, 1], e ≤ x :=
  ⟨by decide +kernel, finished_since_changeCipherSpec .permissive false {} fullRun
    (by decide +kernel)
    [20, 0, 0, 0] [1, 1, 1, 1] (some 1) (by decide +kernel)⟩

/-- The ChangeCipherSpec comes after two bytes of the Finished message. -/
def splitRun : List Label :=
  fullRun.take 17 ++ [.receive 22 20 [0], .receive 20 1 [], .receive 22 0 [0], .turn {}]

/-- The first two bytes of the Finished message that the client accepts are from before. -/
theorem finished_since_changeCipherSpec_split : .finished [20, 0, 0, 0] [0, 0, 1, 1] (some 1) ∈
    (run (step .permissive) (Conn.init false {}) splitRun).ghost.events := by
  decide +kernel

end VigorTls.Tls
