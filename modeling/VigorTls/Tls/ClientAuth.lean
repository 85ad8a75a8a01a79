import VigorTls.Tls.AcceptAuth

/-!
# Client authentication

A full handshake of the server that ends in `SSL_ST_OK` with a certificate of the client has
verified a signature with its key over the messages up to ClientKeyExchange, in every run.
-/

namespace VigorTls.Tls

open Lib

variable {cfg : Config} {s s' : Conn} {x : HsState}

theorem Auth.feed (ha : Auth cfg s) (bytes : Bytes) (epochs : List ℕ) :
    Auth cfg (s.feed bytes epochs) :=
  ⟨ha.ordinary, ha.keep, fun h => (ha.typed h).feed bytes, ha.evidence, ha.retry, ha.reading,
    ha.done⟩

theorem feedMessage_auth (o : Oracle) {k : ℕ} (ha : Auth cfg s) (hs : Sound s)
    (hpc : s.pc = .reading k)
    (bytes : Bytes) (epochs : List ℕ) : Auth cfg (feedMessage cfg o bytes epochs s) := by
  obtain ⟨hreads, -, -⟩ := hs.waits k hpc
  obtain ⟨hpacket, hrequest⟩ := ha.reading k hpc
  have hfed := ha.feed bytes epochs
  have hcall : handshakeCall cfg s = acceptCall cfg s.state := if_pos ha.ordinary.server
  unfold feedMessage
  rw [hcall]
  refine progress_auth o (fun _ h => if_pos h) hfed hreads hpacket hrequest ?_
  rw [show (s.feed bytes epochs).server = true from ha.ordinary.server]
  exact messageResume_meets _ (hfed.typed hreads) ha.ordinary.reuse

theorem Auth.frame {stores : Prop} (ha : Auth cfg s) (hf : Frame stores s s')
    (hok : s.state = .ok → s.renegotiate ≠ 2) : Auth cfg s' := by
  obtain ⟨heq, hpc, -, -⟩ := hf
  have hreading : ∀ k, s'.pc = .reading k →
      (s.state = .srClntHello → s.first_packet = true) ∧
        (s.state = .srCert → s.cert_request = true) := by
    intro k hk
    obtain ⟨j, hj⟩ := hpc k hk
    exact ha.reading j hj
  rw [heq]
  exact ⟨ha.ordinary, ha.keep, ha.typed, ha.evidence, ha.retry, hreading,
    fun h h2 => absurd h2 (hok h)⟩

theorem auth_idle (hb : s.Ordinary cfg) (hkeep : s.transcript.keep_handshake = false)
    (hrest : s.state.underway = false) (hok : s.state = .ok → s.renegotiate ≠ 2) : Auth cfg s := by
  have hne {y : HsState} (hy : y.underway = true) : s.state ≠ y := by
    rintro rfl
    cases hrest.symm.trans hy
  refine ⟨hb, fun h => (by cases hkeep.symm.trans h), fun h => ?_, ?_, fun h => absurd h (hne rfl),
    fun _ _ => ⟨fun h => absurd h (hne rfl), fun h => absurd h (hne rfl)⟩,
    fun h h2 => absurd h2 (hok h)⟩
  · cases hrest.symm.trans (HsState.reads_spec h).2.1
  unfold Control.target
  change s.collected.Evidence cfg (if s.state.flushes then s.next_state else s.state)
  cases hst : s.state <;> first
    | exact trivial
    | exact fun h2 => absurd h2 (hok hst)
    | exact absurd hst (hne rfl)

theorem Collected.Evidence.pending {c : Collected} {r : ℕ} (h : c.Evidence cfg x)
    (hr : r = 2 → c.renegotiate = 2) : Evidence cfg { c with renegotiate := r } x := by
  cases x <;> first
    | exact h
    | exact ⟨h.1, h.2⟩
    | exact ⟨⟨h.1.1, h.1.2⟩, h.2⟩
    | exact fun h2 => h (hr h2)

theorem Auth.rest (ha : Auth cfg s) (hrest : s.state.underway = false) :
    s.transcript.keep_handshake = false :=
  ha.keep_at rfl fun h => nomatch h ▸ hrest

theorem Auth.drift {stores : Prop} (hd : Drift stores s s')
    (h : Auth cfg s ∧ (s.state = .ok → s.renegotiate ≠ 2)) :
    Auth cfg s' ∧ (s'.state = .ok → s'.renegotiate ≠ 2) := by
  have hrest {s : Conn} (hstate : s.state.inInit = false ∨ s.state = .before) :
      s.state.underway = false := by
    rcases hstate with h | h
    · exact HsState.underway_of_inInit h
    · exact h ▸ rfl
  induction hd with
  | frame hf =>
    refine ⟨h.1.frame hf h.2, ?_⟩
    rw [hf.eq]
    exact h.2
  | @restart s state renegotiate total pending hpc hstate =>
    have hkeep := h.1.rest (s := s) (by
      rcases hstate with ⟨-, hst⟩ | ⟨-, hst⟩
      · exact hrest (.inl hst)
      · exact hrest (.inl (hst ▸ rfl)))
    rcases hstate with ⟨rfl, -⟩ | ⟨rfl, -⟩ <;>
      exact ⟨auth_idle h.1.ordinary hkeep rfl nofun, nofun⟩
  | @pending s hpc =>
    obtain ⟨ha, hok⟩ := h
    have hr : (if s.renegotiate = 0 then 1 else s.renegotiate) = 2 → s.renegotiate = 2 := by
      split_ifs <;> simp
    exact ⟨⟨ha.ordinary, ha.keep, ha.typed, ha.evidence.pending hr, ha.retry, ha.reading,
      fun hst h2 => absurd (hr h2) (hok hst)⟩, fun hst h2 => hok hst (hr h2)⟩
  | @mode s mode hpc hstate =>
    exact ⟨auth_idle h.1.ordinary (h.1.rest (hrest hstate)) (hrest hstate) h.2, h.2⟩
  | @clear s hpc hstate =>
    obtain ⟨session, -, hclear | hclear⟩ := sslClear_cases s <;> rw [hclear]
    · exact ⟨auth_idle h.1.ordinary (h.1.rest (hrest hstate)) (hrest hstate) h.2, h.2⟩
    · exact ⟨auth_idle ⟨h.1.ordinary.server, rfl, h.1.ordinary.events⟩ rfl rfl nofun, nofun⟩
  | trans _ _ ih ih' => exact ih' (ih h)

theorem Auth.changed {env : ReadEnv} {pc : Pc} {n : ℕ} (ha : Auth cfg s)
    (hreading : ∀ k, pc = .reading k →
      (s.state = .srClntHello → s.first_packet = true) ∧
        (s.state = .srCert → s.cert_request = true))
    (hok : s.state = .ok → s.renegotiate ≠ 2) :
    Auth cfg { (acceptChangeCipherSpec env s).2 with pc := pc, in_handshake := n } := by
  have hlogged : Logged s { s with
      transcript :=
        if env.installs then (tls1FinalFinishMac s.transcript).2 else s.transcript } := by
    cases env.installs
    · exact .refl s
    · exact .final s
  have hev : ({ s with
      transcript := if env.installs then (tls1FinalFinishMac s.transcript).2 else s.transcript
      }).collected.Evidence cfg s.control.target := by
    by_cases hx : s.control.target = .srClntHello
    · have hhello := ha.evidence
      rw [hx] at hhello ⊢
      exact ⟨hlogged.recorded hhello.1, hhello.2⟩
    · exact hlogged.evidence hx ha.evidence
  rw [acceptChangeCipherSpec_eq]
  refine ⟨⟨ha.ordinary.server, ha.ordinary.reuse, ?_⟩, fun h => ?_, ha.typed, hev, ha.retry,
    hreading,
    fun h h2 => absurd h2 (hok h)⟩
  · exact List.forall_mem_append.mpr ⟨ha.ordinary.events, List.forall_mem_singleton.mpr trivial⟩
  · have hk : s.transcript.keep_handshake = true := hlogged.keep.symm.trans h
    obtain ⟨hst, hbuf⟩ := ha.keep hk
    exact ⟨hst, (congrArg Option.isSome (hlogged.kept hk)).trans hbuf⟩

theorem step_auth (cfg : Config) (s : Conn) (label : Label) (h : Sound s ∧ Auth cfg s) :
    Sound (step cfg s label) ∧ Auth cfg (step cfg s label) := by
  obtain ⟨hs, ha⟩ := h
  refine ⟨step_sound cfg label hs, ?_⟩
  have hstep := step_stepped cfg s label
  generalize step cfg s label = s' at hstep
  cases hstep with
  | turn o hpc =>
    unfold handshakeTurn
    rw [if_pos ha.ordinary.server]
    exact acceptTurn_auth o ha hs.settled
  | fragment answer env o k n hpc hfragment =>
    refine feedMessage_auth o ?_ (hs.dropFragment n) hpc _ _
    exact ⟨ha.ordinary, ha.keep, ha.typed, ha.evidence, ha.retry, ha.reading, ha.done⟩
  | bytes answer env o k n x data s1 hpc hf hpc1 hfragment hdata hx =>
    refine feedMessage_auth o (ha.frame hf fun hok => ?_) (hf.sound hs) (hpc1.trans hpc) _ _
    exact nomatch hok ▸ (hs.waits k hpc).1
  | changed answer env o k s0 pc n hpc hfetch hfragment htype hok hchange hpc' =>
    have hne : s.state ≠ .ok := fun h => nomatch h ▸ (hs.waits k hpc).1
    have hf : Frame False s s0 := .fetch hfetch
    have hstate : s0.state = s.state := by rw [hf.eq]
    have hpc0 : s0.pc = s.pc := by rw [(fetchRecord_some hfetch).1]
    have ha0 := ha.frame hf (absurd · hne)
    exact ha0.changed (fun _ _ => ha0.reading k (hpc0.trans hpc)) fun h =>
      absurd (hstate.symm.trans h) hne
  | changedApp data len peek answer env s0 hpc hcall hf hpc0 hok =>
    have hno h h2 : False := nomatch hpc.symm.trans (ha.done h h2)
    have hstate : s0.state = s.state := by rw [hf.eq]
    have hrenegotiate : s0.renegotiate = s.renegotiate := by rw [hf.eq]
    have ha0 : Auth cfg { (acceptChangeCipherSpec env s0).2 with
        pc := s0.pc, in_handshake := s0.in_handshake } :=
      (ha.frame hf hno).changed (fun _ h => nomatch hpc0.symm.trans h) fun h h2 =>
        hno (hstate.symm.trans h) (hrenegotiate.symm.trans h2)
    rw [acceptChangeCipherSpec_eq] at ha0 ⊢
    exact ha0
  | drift _ stores hd hstores hloop =>
    by_cases hpc : s.pc = .loop
    · rw [hloop hpc]
      exact ha
    · exact (Auth.drift hd ⟨ha, fun hok h2 => hpc (ha.done hok h2)⟩).1

/-- When a handshake that is not resumed reaches `SSL_ST_OK` with a certificate of the client, a
signature over the messages up to ClientKeyExchange has been verified with its key; and when a
certificate is required and was asked for, there is one. -/
theorem accept_client_authenticated (cfg : Config) (mode : VerifyMode) (labels : List Label)
    (session : Session) (verify_mode : VerifyMode) (cert_request : Bool)
    (verified : Option Verified)
    (log : List Bytes) (he : .accepted false session verify_mode cert_request verified log ∈
      (run (step cfg) (Conn.init true mode) labels).ghost.events) :
    (∀ x, session.peer = some x → Signed cfg x verified log) ∧
      (verify_mode.required = true → cert_request = true → session.peer ≠ none) :=
  (run_invariant_all (step_auth cfg) labels _ ⟨init_sound true mode,
    auth_idle ⟨rfl, rfl, nofun⟩ rfl rfl nofun⟩).2.ordinary.events _ he rfl

/-- A full handshake of a server, with a certificate of the client. -/
def clientCertRun : List Label :=
  [.enter false, .turn {}, .turn {},
    .receive 22 1 [0, 0, 0] { verifyMode := some { peer := true, fail_if_no_peer_cert := true } },
    .turn {}, .turn {}, .turn {}, .turn {}, .turn {}, .turn {},
    .turn {}, .receive 22 11 [0, 0, 7, 0, 0, 4, 0, 0, 1, 9], .record none {} {},
    .turn {}, .receive 22 16 [0, 0, 0],
    .turn {}, .receive 22 15 [0, 0, 6, 4, 1, 0, 2, 5, 5], .record none {} {},
    .turn {}, .receive 20 1 [], .receive 22 20 [0, 0, 0], .turn {}, .turn {}, .turn {}, .turn {}]

/-- Its messages up to ClientKeyExchange. -/
def clientCertMessages : List Bytes :=
  [[1, 0, 0, 0], [2, 0, 0, 0], [11, 0, 0, 0], [13, 0, 0, 0], [14, 0, 0, 0],
    [11, 0, 0, 7, 0, 0, 4, 0, 0, 1, 9], [16, 0, 0, 0]]

/-- It is accepted with the signature in its CertificateVerify message. -/
theorem accept_client_authenticated_cert :
    .accepted false ⟨true, some [9]⟩ ⟨true, true, false⟩ true
      (some ⟨[9], some [4, 1], clientCertMessages.flatten, [5, 5]⟩) (clientCertMessages ++
        [[15, 0, 0, 6, 4, 1, 0, 2, 5, 5], [20, 0, 0, 0], [20, 0, 0, 0]]) ∈
      (run (step .permissive) (Conn.init true {}) clientCertRun).ghost.events ∧
    (∀ x, some [9] = some x → Signed .permissive x
      (some ⟨[9], some [4, 1], clientCertMessages.flatten, [5, 5]⟩) (clientCertMessages ++
        [[15, 0, 0, 6, 4, 1, 0, 2, 5, 5], [20, 0, 0, 0], [20, 0, 0, 0]])) ∧
    ((VerifyMode.mk true true false).required = true → true = true →
      some ([9] : X509) ≠ none) :=
  have he := by decide +kernel
  ⟨he, accept_client_authenticated .permissive {} clientCertRun ⟨true, some [9]⟩ ⟨true, true, false⟩
    true _ _ he⟩

end VigorTls.Tls
