import VigorTls.Tls.Control

/-!
# What a pass over a record can do

Most passes of `ssl3_read_bytes` only touch the record and the storage for fragments (`ReadsTo`);
others accept a ChangeCipherSpec or call the handshake function (`Passed`).
-/

namespace VigorTls.Tls

/-- A pass has changed the record, the storage for fragments, and the two flags that alerts and
Hello Requests set. -/
structure ReadsTo (type : ℕ) (s s' : Conn) : Prop where
  frame : s' = { s with
    rrec := s'.rrec
    handshake_fragment := s'.handshake_fragment
    alert_fragment := s'.alert_fragment
    received_shutdown := s'.received_shutdown
    renegotiate_pending := s'.renegotiate_pending
    ghost := { s.ghost with fragment_epochs := s'.ghost.fragment_epochs } }
  type_eq : s'.rrec.type = s.rrec.type
  data : s'.rrec.data ≠ [] → s.rrec.data ≠ []
  /-- Only handshake data that is not what was asked for goes into the storage for it. -/
  fragment : s'.handshake_fragment = s.handshake_fragment ∨ s'.handshake_fragment = [] ∨
    type ≠ s.rrec.type ∧ s.rrec.type = ssl3RtHandshake

inductive Passed (env : ReadEnv) (type : ℕ) (s : Conn) : Pass → Prop
  | again {s' : Conn} (h : ReadsTo type s s') : Passed env type s (.again s')
  | ret {s' : Conn} (h : ReadsTo type s s') : Passed env type s (.ret s')
  | alert {s' : Conn} (al : ℕ) (h : ReadsTo type s s') : Passed env type s (.alert al s')
  | bytes {s' : Conn} (n : ℕ) (hn : n ≤ s.rrec.data.length) (htype : type = s.rrec.type)
      (h : ReadsTo type s s') (hfragment : s'.handshake_fragment = s.handshake_fragment) :
      Passed env type s (.bytes (s.rrec.data.take n) (List.replicate n s.ghost.rrec_epoch) s')
  | changed (p : Pass) (htype : s.rrec.type = ssl3RtChangeCipherSpec) (hok : s.ccs_ok = true)
      (hchange : s.change_cipher_spec = false)
      (hp : p = .again (acceptChangeCipherSpec env s).2 ∨
        p = .ret (acceptChangeCipherSpec env s).2) :
      Passed env type s p
  | handshake {s' : Conn} (h : ReadsTo type s s')
      (hfragment : s.handshake_fragment ≠ [] ∨ type ≠ s.rrec.type ∧ s.rrec.type = ssl3RtHandshake) :
      Passed env type s (.handshake s')
  | restart {s₁ : Conn} (state : HsState) (renegotiate total : ℕ) (pending : Bool)
      (h : ReadsTo type s s₁) (hok : s.state = .ok) (hstate : state = .renegotiate ∨ state = .start)
      (hfragment : s.handshake_fragment ≠ [] ∨ type ≠ s.rrec.type ∧ s.rrec.type = ssl3RtHandshake) :
      Passed env type s (.handshake { s₁ with
        state := state, renegotiate := renegotiate, renegotiate_pending := pending
        total_renegotiations := total })

variable {type : ℕ} {s s' s'' : Conn}

theorem ReadsTo.refl (type : ℕ) (s : Conn) : ReadsTo type s s := ⟨rfl, rfl, id, .inl rfl⟩

theorem ReadsTo.dropRecord (type : ℕ) (s : Conn) : ReadsTo type s (dropRecord s) :=
  ⟨rfl, rfl, fun h => absurd rfl h, .inl rfl⟩

theorem ReadsTo.trans (h : ReadsTo type s s') (h' : ReadsTo type s' s'') : ReadsTo type s s'' := by
  refine ⟨?_, h'.type_eq.trans h.type_eq, fun hd => h.data (h'.data hd), ?_⟩
  · have hframe := h'.frame
    rw [h.frame] at hframe
    exact hframe
  rcases h'.fragment with hf | hf | hf
  · rw [hf]
    exact h.fragment
  · exact .inr (.inl hf)
  · exact .inr (.inr (h.type_eq ▸ hf))

theorem ReadsTo.storeFragment (htype : type ≠ s.rrec.type) : ReadsTo type s (storeFragment s) := by
  have hdrop n : s.rrec.data.drop n ≠ [] → s.rrec.data ≠ [] := fun h hnil => h (by simp [hnil])
  unfold Tls.storeFragment
  split_ifs with hhs
  · exact ⟨rfl, rfl, hdrop _, .inr (.inr ⟨htype, hhs⟩)⟩
  · exact ⟨rfl, rfl, hdrop _, .inl rfl⟩
  · exact .refl type s

theorem ssl3RenegotiateCheck_start {idle : Bool} (h : (ssl3RenegotiateCheck idle s).1 = true) :
    s.state.inInit = false ∧ (ssl3RenegotiateCheck idle s).2 = { s with
      state := .renegotiate
      renegotiate_pending := false
      total_renegotiations := s.total_renegotiations + 1 } := by
  unfold ssl3RenegotiateCheck at h ⊢
  split_ifs with hcheck
  · simp only [Bool.and_eq_true, Bool.not_eq_true'] at hcheck
    exact ⟨hcheck.2, rfl⟩
  · rw [if_neg hcheck] at h
    exact nomatch h

theorem ssl3RenegotiateCheck_not {idle : Bool} (h : ¬(ssl3RenegotiateCheck idle s).1 = true) :
    (ssl3RenegotiateCheck idle s).2 = s := by
  unfold ssl3RenegotiateCheck at h ⊢
  split_ifs with hcheck
  · rw [if_pos hcheck] at h
    exact absurd rfl h
  · rfl

section

variable (cfg : Config) (env : ReadEnv) {s₁ : Conn} (h : ReadsTo type s s₁)

include h

theorem helloRequest_passed (hfragment : s.handshake_fragment ≠ [] ∨
    type ≠ s.rrec.type ∧ s.rrec.type = ssl3RtHandshake) :
    Passed env type s (helloRequest env s₁) := by
  have hclear : ReadsTo type s (clearFragment s₁) := h.trans ⟨rfl, rfl, id, .inr (.inl rfl)⟩
  have hpending : ReadsTo type s { clearFragment s₁ with renegotiate_pending := true } :=
    hclear.trans ⟨rfl, rfl, id, .inl rfl⟩
  have hstate : s₁.state = s.state := by rw [h.frame]
  unfold helloRequest
  dsimp only
  split_ifs with hlen hok hstart
  · exact .alert _ hclear
  · rw [(ssl3RenegotiateCheck_start hstart).2]
    simp only [Bool.and_eq_true, decide_eq_true_eq] at hok
    exact .restart .renegotiate s₁.renegotiate (s₁.total_renegotiations + 1) false hpending
      (hstate.symm.trans hok.1) (.inl rfl) hfragment
  · rw [ssl3RenegotiateCheck_not hstart]
    exact .again hpending
  · exact .again hclear

theorem alertReceived_passed : Passed env type s (alertReceived s₁) := by
  have hplain shutdown :
      ReadsTo type s { s₁ with alert_fragment := [], received_shutdown := shutdown } :=
    h.trans ⟨rfl, rfl, id, .inl rfl⟩
  unfold alertReceived
  dsimp only
  split_ifs
  · exact .ret (hplain true)
  · exact .alert _ (hplain s₁.received_shutdown)
  · exact .again (hplain s₁.received_shutdown)
  · exact .ret (hplain true)
  · exact .alert _ (hplain s₁.received_shutdown)

theorem takeBytes_readsTo (n : ℕ) : ReadsTo type s (takeBytes s₁ n) := by
  refine h.trans ⟨rfl, rfl, fun hd hnil => hd ?_, .inl rfl⟩
  simp [takeBytes, hnil]

theorem unexpectedRecord_passed : Passed env type s (unexpectedRecord cfg env s₁) := by
  unfold unexpectedRecord
  split_ifs
  · exact .ret (takeBytes_readsTo h _)
  · exact .alert _ h
  · exact .alert _ h
  · exact .again (h.trans (.dropRecord type s₁))
  · exact .alert _ h

end

theorem changeCipherSpec_passed (env : ReadEnv) (htype : s.rrec.type = ssl3RtChangeCipherSpec)
    (hchange : s.change_cipher_spec = false) : Passed env type s (changeCipherSpec env s) := by
  unfold changeCipherSpec
  dsimp only
  split_ifs with _ _ hok
  · exact .alert _ (.refl type s)
  · exact .alert _ (.refl type s)
  · exact .alert _ (.refl type s)
  · exact .changed _ htype (by simpa using hok) hchange (.inl rfl)
  · exact .changed _ htype (by simpa using hok) hchange (.inr rfl)

theorem dispatchRecord_passed (cfg : Config) (env : ReadEnv) (htype : type ≠ s.rrec.type)
    (hchange : s.change_cipher_spec = false ∨ s.rrec.type = ssl3RtHandshake) :
    Passed env type s (dispatchRecord cfg env (storeFragment s)) := by
  have h := ReadsTo.storeFragment htype
  have hlong (hl : 4 ≤ (storeFragment s).handshake_fragment.length) : s.handshake_fragment ≠ [] ∨
      type ≠ s.rrec.type ∧ s.rrec.type = ssl3RtHandshake := by
    rcases h.fragment with hf | hf | hf
    · refine .inl fun hnil => ?_
      rw [hf, hnil] at hl
      exact absurd hl (by decide)
    · rw [hf] at hl
      exact absurd hl (by decide)
    · exact .inr hf
  have hstate : (storeFragment s).state = s.state := by rw [h.frame]
  unfold dispatchRecord
  split_ifs with hreq hhello halert hshut hccs hhs
  · simp only [helloRequestStored, Bool.and_eq_true, decide_eq_true_eq] at hreq
    exact helloRequest_passed env h (hlong hreq.1.1.2)
  · exact .again (h.trans (.dropRecord type _))
  · exact alertReceived_passed env h
  · exact .ret (h.trans (.dropRecord type _))
  · have hccs : s.rrec.type = ssl3RtChangeCipherSpec := h.type_eq.symm.trans hccs
    have hstore : storeFragment s = s := by simp [storeFragment, hccs]
    rw [hstore]
    exact changeCipherSpec_passed env hccs (hchange.resolve_right (by simp [hccs]))
  · simp only [Bool.and_eq_true, decide_eq_true_eq] at hhs
    exact .restart .start 1 (storeFragment s).total_renegotiations
      (storeFragment s).renegotiate_pending h (hstate.symm.trans ‹_›) (.inr rfl) (hlong hhs.1)
  · simp only [Bool.and_eq_true, decide_eq_true_eq] at hhs
    exact .handshake h (hlong hhs.1)
  · exact unexpectedRecord_passed cfg env h

theorem readPass_passed (cfg : Config) (env : ReadEnv) (type len : ℕ) (peek : Bool) (s : Conn) :
    Passed env type s (readPass cfg env type len peek s) := by
  have h := ReadsTo.refl type s
  unfold readPass
  dsimp only
  split_ifs with hchange hshut htype hinit hlen hshort
  · exact .alert _ h
  · exact .ret (.dropRecord type s)
  · exact .alert _ h
  · exact .ret h
  · exact .bytes _ (min_le_right _ _) htype h rfl
  · exact .bytes _ (min_le_right _ _) htype (takeBytes_readsTo h _) rfl
  · exact .again (.storeFragment htype)
  · refine dispatchRecord_passed cfg env htype ?_
    simp only [Bool.and_eq_true, decide_eq_true_eq, not_and, not_not] at hchange
    cases hc : s.change_cipher_spec with
    | false => exact .inl rfl
    | true => exact .inr (hchange hc)

theorem fetchRecord_some {answer : Answer} {s0 : Conn} (h : fetchRecord s answer = some s0) :
    s0 = { s with rrec := s0.rrec, ghost := { s.ghost with rrec_epoch := s0.ghost.rrec_epoch } } ∧
      s0.rrec.data ≠ [] ∧ (s.rrec.data ≠ [] ∧ s0 = s ∨ s0.ghost.rrec_epoch = s.ghost.epoch) := by
  unfold fetchRecord at h
  split_ifs at h with hdata
  · cases h
    exact ⟨rfl, hdata, .inl ⟨hdata, rfl⟩⟩
  · obtain ⟨⟨type, b, bs⟩, -, rfl⟩ := Option.map_eq_some_iff.mp h
    exact ⟨rfl, List.cons_ne_nil _ _, .inr rfl⟩

inductive HandshakePassed (cfg : Config) (answer : Answer) (env : ReadEnv) (o : Oracle) (s : Conn) :
    Conn → Prop
  | blocked : HandshakePassed cfg answer env o s s.leave
  /-- Bytes come from the storage for fragments. -/
  | fragment (n : ℕ) (hfragment : s.handshake_fragment ≠ []) : HandshakePassed cfg answer env o s
      (feedMessage cfg o (s.handshake_fragment.take n) (s.ghost.fragment_epochs.take n)
        (s.dropFragment n))
  | bytes (s₀ s₁ : Conn) (n : ℕ) (hfetch : fetchRecord s answer = some s₀)
      (hfragment : s.handshake_fragment = []) (hn : n ≤ s₀.rrec.data.length)
      (h : ReadsTo ssl3RtHandshake s₀ s₁) (hfragment₁ : s₁.handshake_fragment = []) :
      HandshakePassed cfg answer env o s (feedMessage cfg o (s₀.rrec.data.take n)
        (List.replicate n s₀.ghost.rrec_epoch) s₁)
  | stays (s₀ s₁ : Conn) (pc : Pc) (in_handshake : ℕ) (hfetch : fetchRecord s answer = some s₀)
      (hfragment : s.handshake_fragment = []) (h : ReadsTo ssl3RtHandshake s₀ s₁)
      (hfragment₁ : s₁.handshake_fragment = []) (hpc : pc = .out ∨ ∃ k, pc = .reading k) :
      HandshakePassed cfg answer env o s { s₁ with pc := pc, in_handshake := in_handshake }
  | changed (s₀ : Conn) (pc : Pc) (in_handshake : ℕ) (hfetch : fetchRecord s answer = some s₀)
      (hfragment : s.handshake_fragment = []) (htype : s₀.rrec.type = ssl3RtChangeCipherSpec)
      (hok : s₀.ccs_ok = true) (hchange : s₀.change_cipher_spec = false)
      (hpc : pc = .out ∨ ∃ k, pc = .reading k) : HandshakePassed cfg answer env o s
        { (acceptChangeCipherSpec env s₀).2 with pc := pc, in_handshake := in_handshake }

/-- Every pass of a handshake read is one of these. -/
theorem handshakePass_passed (cfg : Config) (answer : Answer) (env : ReadEnv) (o : Oracle)
    (rrcount : ℕ) (s : Conn) :
    HandshakePassed cfg answer env o s (handshakePass cfg answer env o rrcount s) := by
  unfold handshakePass handshakeRead
  by_cases hfragment : s.handshake_fragment ≠ []
  · rw [if_pos hfragment]
    exact .fragment _ hfragment
  rw [if_neg hfragment]
  have hfragment : s.handshake_fragment = [] := not_not.mp hfragment
  cases hfetch : fetchRecord s answer with
  | none => exact .blocked
  | some s0 =>
    have hpassed := readPass_passed cfg env ssl3RtHandshake s.m.missing false s0
    have hfragment0 : s0.handshake_fragment = [] := by
      rw [(fetchRecord_some hfetch).1]
      exact hfragment
    have hnil {s₁ : Conn} (h : ReadsTo ssl3RtHandshake s0 s₁) : s₁.handshake_fragment = [] := by
      rcases h.fragment with hf | hf | hf
      · exact hf.trans hfragment0
      · exact hf
      · exact absurd hf.2.symm hf.1
    -- The handshake function is called for handshake data only, which would have been read.
    have hshort : ¬(s0.handshake_fragment ≠ [] ∨
        ssl3RtHandshake ≠ s0.rrec.type ∧ s0.rrec.type = ssl3RtHandshake) := by
      rintro (hlong | hlong)
      · exact hlong hfragment0
      · exact hlong.1 hlong.2.symm
    dsimp only
    generalize readPass cfg env ssl3RtHandshake s.m.missing false s0 = p at hpassed
    cases hpassed with
    | @again s₁ h =>
      split_ifs
      · exact .stays s0 s₁ (.reading (rrcount + 1)) s₁.in_handshake hfetch hfragment h (hnil h)
          (.inr ⟨_, rfl⟩)
      · exact .stays s0 s₁ .out _ hfetch hfragment h (hnil h) (.inl rfl)
    | ret h | alert al h => exact .stays s0 _ .out _ hfetch hfragment h (hnil h) (.inl rfl)
    | bytes n hn htype h _ => exact .bytes s0 _ n hfetch hfragment hn h (hnil h)
    | changed p htype hok hchange hp =>
      rcases hp with rfl | rfl
      · dsimp only
        split_ifs
        · exact .changed s0 (.reading (rrcount + 1)) _ hfetch hfragment htype hok hchange
            (.inr ⟨_, rfl⟩)
        · exact .changed s0 .out _ hfetch hfragment htype hok hchange (.inl rfl)
      · exact .changed s0 .out _ hfetch hfragment htype hok hchange (.inl rfl)
    | handshake h hlong => exact absurd hlong hshort
    | restart _ _ _ _ h _ _ hlong => exact absurd hlong hshort

end VigorTls.Tls
