import VigorTls.Tls.Turns
import VigorTls.Tls.Passes

/-!
# The steps of a connection

A step is a turn, a message that the handshake goes on with, an accepted ChangeCipherSpec, or
something that leaves the handshake alone (`Drift`). What holds between two turns holds after every
step (`Sound`).
-/

namespace VigorTls.Tls

open Lib Control

/-- Only what has been read changes. `stores` says whether handshake data may be stored for a
handshake to come. -/
structure Frame (stores : Prop) (s s' : Conn) : Prop where
  eq : s' = { s with
    pc := s'.pc
    in_handshake := s'.in_handshake
    rrec := s'.rrec
    handshake_fragment := s'.handshake_fragment
    alert_fragment := s'.alert_fragment
    received_shutdown := s'.received_shutdown
    sent_shutdown := s'.sent_shutdown
    renegotiate_pending := s'.renegotiate_pending
    in_read_app_data := s'.in_read_app_data
    ghost := { s.ghost with
      rrec_epoch := s'.ghost.rrec_epoch
      fragment_epochs := s'.ghost.fragment_epochs } }
  /-- A call of `ssl3_read_bytes` goes on, or ends. -/
  pc : ∀ k, s'.pc = .reading k → ∃ j, s.pc = .reading j
  /-- A record is opened under the current read state. -/
  data : s'.rrec.data ≠ [] → s.rrec.data ≠ [] ∧ s'.ghost.rrec_epoch = s.ghost.rrec_epoch ∨
    s'.ghost.rrec_epoch = s.ghost.epoch
  fragment : s'.handshake_fragment = s.handshake_fragment ∨ s'.handshake_fragment = [] ∨ stores

/-- What happens outside of turns. -/
inductive Drift (stores : Prop) : Conn → Conn → Prop
  | frame {s s' : Conn} (h : Frame stores s s') : Drift stores s s'
  | restart {s : Conn} (state : HsState) (renegotiate total : ℕ) (pending : Bool)
      (hpc : s.pc = .out)
      (hstate : state = .renegotiate ∧ s.state.inInit = false ∨ state = .start ∧ s.state = .ok) :
      Drift stores s { s with
        state := state, renegotiate := renegotiate, renegotiate_pending := pending
        total_renegotiations := total }
  | pending {s : Conn} (hpc : s.pc = .out) : Drift stores s { s with
      renegotiate := if s.renegotiate = 0 then 1 else s.renegotiate
      renegotiate_pending := true }
  | mode {s : Conn} (mode : VerifyMode) (hpc : s.pc = .out)
      (hstate : s.state.inInit = false ∨ s.state = .before) :
      Drift stores s { s with verify_mode := mode }
  | clear {s : Conn} (hpc : s.pc = .out) (hstate : s.state.inInit = false ∨ s.state = .before) :
      Drift stores s (sslClear s)
  | trans {s s' s'' : Conn} (h : Drift stores s s') (h' : Drift stores s' s'') : Drift stores s s''

theorem Frame.refl (stores : Prop) (s : Conn) : Frame stores s s :=
  ⟨rfl, fun k h => ⟨k, h⟩, fun h => .inl ⟨h, rfl⟩, .inl rfl⟩

theorem Drift.refl (stores : Prop) (s : Conn) : Drift stores s s := .frame (.refl stores s)

variable {stores : Prop} {s s' s'' s₀ s₁ : Conn}

theorem Frame.trans (h : Frame stores s s') (h' : Frame stores s' s'') : Frame stores s s'' := by
  have hepoch : s'.ghost.epoch = s.ghost.epoch := by rw [h.eq]
  refine ⟨?_, fun k hk => ?_, fun hd => ?_, ?_⟩
  · have heq := h'.eq
    rw [h.eq] at heq
    exact heq
  · obtain ⟨j, hj⟩ := h'.pc k hk
    exact h.pc j hj
  · rcases h'.data hd with ⟨hd', he⟩ | he
    · rw [he]
      exact h.data hd'
    · exact .inr (he.trans hepoch)
  · rcases h'.fragment with hf | hf
    · rw [hf]
      exact h.fragment
    · exact .inr hf

theorem Frame.mono {stores' : Prop} (h : Frame stores s s') (himp : stores → stores') :
    Frame stores' s s' := ⟨h.eq, h.pc, h.data, h.fragment.imp_right (.imp_right himp)⟩

theorem Drift.mono {stores' : Prop} (h : Drift stores s s') (himp : stores → stores') :
    Drift stores' s s' := by
  induction h with
  | frame h => exact .frame (h.mono himp)
  | restart state renegotiate total pending hpc hstate =>
    exact .restart state renegotiate total pending hpc hstate
  | pending hpc => exact .pending hpc
  | mode mode hpc hstate => exact .mode mode hpc hstate
  | clear hpc hstate => exact .clear hpc hstate
  | trans _ _ ih ih' => exact ih.trans ih'

theorem Frame.fetch {answer : Answer} (h : fetchRecord s answer = some s₀) : Frame stores s s₀ := by
  obtain ⟨heq, -, hrrec⟩ := fetchRecord_some h
  refine ⟨by rw [heq], fun k hk => ⟨k, ?_⟩, fun _ => ?_, .inl (by rw [heq])⟩
  · rw [heq] at hk
    exact hk
  · rcases hrrec with ⟨hdata, rfl⟩ | he
    · exact .inl ⟨hdata, rfl⟩
    · exact .inr he

theorem ReadsTo.toFrame {type : ℕ} (h : ReadsTo type s s')
    (hfragment : s'.handshake_fragment = [] ∨ stores) : Frame stores s s' := by
  refine ⟨by rw [h.frame], fun k hk => ⟨k, ?_⟩, fun hd => .inl ⟨h.data hd, by rw [h.frame]⟩,
    .inr hfragment⟩
  rw [h.frame] at hk
  exact hk

/-- What a step does, label by label. -/
inductive Stepped (cfg : Config) (s : Conn) : Label → Conn → Prop
  | turn (o : Oracle) (hpc : s.pc = .loop) : Stepped cfg s (.turn o) (handshakeTurn cfg o s)
  /-- Bytes of a message come from the storage for fragments. -/
  | fragment (answer : Answer) (env : ReadEnv) (o : Oracle) (k n : ℕ) (hpc : s.pc = .reading k)
      (hfragment : s.handshake_fragment ≠ []) : Stepped cfg s (.record answer env o)
        (feedMessage cfg o (s.handshake_fragment.take n) (s.ghost.fragment_epochs.take n)
          (s.dropFragment n))
  /-- Bytes of a message come from a record. -/
  | bytes (answer : Answer) (env : ReadEnv) (o : Oracle) (k n e : ℕ) (data : Bytes) (s₁ : Conn)
      (hpc : s.pc = .reading k) (h : Frame False s s₁) (hpc₁ : s₁.pc = s.pc)
      (hfragment : s₁.handshake_fragment = []) (hdata : data.length = n)
      (he : s.rrec.data ≠ [] ∧ e = s.ghost.rrec_epoch ∨ e = s.ghost.epoch) :
      Stepped cfg s (.record answer env o) (feedMessage cfg o data (List.replicate n e) s₁)
  /-- A handshake accepts a ChangeCipherSpec record. -/
  | changed (answer : Answer) (env : ReadEnv) (o : Oracle) (k : ℕ) (s₀ : Conn) (pc : Pc)
      (in_handshake : ℕ) (hpc : s.pc = .reading k) (hfetch : fetchRecord s answer = some s₀)
      (hfragment : s.handshake_fragment = []) (htype : s₀.rrec.type = ssl3RtChangeCipherSpec)
      (hok : s.ccs_ok = true) (hchange : s.change_cipher_spec = false)
      (hpc' : pc = .out ∨ ∃ k, pc = .reading k) : Stepped cfg s (.record answer env o)
        { (acceptChangeCipherSpec env s₀).2 with pc := pc, in_handshake := in_handshake }
  /-- A call for application data accepts a ChangeCipherSpec record. -/
  | changedApp (data : Bool) (len : ℕ) (peek : Bool) (answer : Answer) (env : ReadEnv) (s₀ : Conn)
      (hpc : s.pc = .out) (hcall : s.state.inInit = false ∨ s.in_handshake ≠ 0)
      (h : Frame False s s₀)
      (hpc₀ : s₀.pc = .out) (hok : s.ccs_ok = true) :
      Stepped cfg s (.app data len peek answer env) (acceptChangeCipherSpec env s₀).2
  | drift (label : Label) (stores : Prop) {s' : Conn} (h : Drift stores s s')
      (hstores : stores → s.pc = .out ∧ (s.state.inInit = false ∨ s.in_handshake ≠ 0) ∧
        ∃ data len peek answer env, label = .app data len peek answer env)
      (hloop : s.pc = .loop → s' = s) : Stepped cfg s label s'

theorem enterHandshake_drift (hpc : s.pc = .out) : Drift stores s (enterHandshake s) := by
  have hin : Frame stores s { s with in_handshake := s.in_handshake + 1 } :=
    ⟨rfl, fun k hk => ⟨k, hk⟩, fun hd => .inl ⟨hd, rfl⟩, .inl rfl⟩
  have hloop {s : Conn} : Frame stores s { s with pc := .loop } :=
    ⟨rfl, nofun, fun hd => .inl ⟨hd, rfl⟩, .inl rfl⟩
  unfold enterHandshake
  dsimp only
  split_ifs with hclear
  · refine (Drift.frame hin).trans (.trans (.clear hpc ?_) (.frame hloop))
    simpa using hclear
  · exact (Drift.frame hin).trans (.frame hloop)

variable (cfg : Config) (env : ReadEnv)

theorem handshakePass_stepped (answer : Answer) (env : ReadEnv) (o : Oracle) {k : ℕ}
    (hpc : s.pc = .reading k) :
    Stepped cfg s (.record answer env o) (handshakePass cfg answer env o k s) := by
  have hpassed := handshakePass_passed cfg answer env o k s
  generalize handshakePass cfg answer env o k s = s' at hpassed
  have hread {s₀ s₁ : Conn} (hfetch : fetchRecord s answer = some s₀)
      (h : ReadsTo ssl3RtHandshake s₀ s₁) hfragment :
      Frame False s s₁ :=
    (Frame.fetch hfetch).trans (h.toFrame (.inl hfragment))
  have hpc1 {s₀ s₁ : Conn} (hfetch : fetchRecord s answer = some s₀)
      (h : ReadsTo ssl3RtHandshake s₀ s₁) : s₁.pc = s.pc := by
    rw [h.frame, (fetchRecord_some hfetch).1]
  cases hpassed with
  | blocked =>
    exact .drift _ False (.frame ⟨rfl, nofun, fun hd => .inl ⟨hd, rfl⟩, .inl rfl⟩) nofun
      fun h => nomatch hpc.symm.trans h
  | fragment n hfragment => exact .fragment answer env o k n hpc hfragment
  | bytes s₀ s₁ n hfetch hfragment hn h hfragment1 =>
    refine .bytes answer env o k n s₀.ghost.rrec_epoch _ s₁ hpc (hread hfetch h hfragment1)
      (hpc1 hfetch h) hfragment1 (List.length_take_of_le hn) ?_
    rcases (fetchRecord_some hfetch).2.2 with ⟨hdata, rfl⟩ | he
    · exact .inl ⟨hdata, rfl⟩
    · exact .inr he
  | stays s₀ s₁ pc in_handshake hfetch hfragment h hfragment1 hpc' =>
    have hframe := hread hfetch h hfragment1
    exact .drift _ False (.frame ⟨by rw [hframe.eq], fun _ _ => ⟨k, hpc⟩, hframe.data,
      hframe.fragment⟩) nofun fun h => nomatch hpc.symm.trans h
  | changed s₀ pc in_handshake hfetch hfragment htype hok hchange hpc' =>
    have heq := (fetchRecord_some hfetch).1
    exact .changed answer env o k s₀ pc in_handshake hpc hfetch hfragment htype
      (by rw [heq] at hok; exact hok) (by rw [heq] at hchange; exact hchange) hpc'

theorem appPass_stepped (data : Bool) (len : ℕ) (peek : Bool) (answer : Answer) (env : ReadEnv)
    (hpc : s.pc = .out) (hcall : s.state.inInit = false ∨ s.in_handshake ≠ 0) :
    Stepped cfg s (.app data len peek answer env)
      (appPass cfg data len peek answer env { s with in_read_app_data := data }) := by
  have hcaller {stores : Prop} : Frame stores s { s with in_read_app_data := data } :=
    ⟨rfl, fun k hk => ⟨k, hk⟩, fun hd => .inl ⟨hd, rfl⟩, .inl rfl⟩
  have hdrift {s' : Conn} h : Stepped cfg s (.app data len peek answer env) s' :=
    .drift _ True h (fun _ => ⟨hpc, hcall, data, len, peek, answer, env, rfl⟩)
      fun h => nomatch hpc.symm.trans h
  unfold appPass
  cases hfetch : fetchRecord { s with in_read_app_data := data } answer with
  | none => exact hdrift (.frame hcaller)
  | some s₀ =>
    have heq := (fetchRecord_some hfetch).1
    have hpc0 : s₀.pc = .out := by rw [heq]; exact hpc
    have hread {type : ℕ} {s₁ : Conn} (h : ReadsTo type s₀ s₁) : Frame True s s₁ :=
      (hcaller.trans (.fetch hfetch)).trans (h.toFrame (.inr trivial))
    have hpc1 {type : ℕ} {s₁ : Conn} (h : ReadsTo type s₀ s₁) : s₁.pc = .out := by
      rw [h.frame]
      exact hpc0
    dsimp only
    have hpassed := readPass_passed cfg env (if data then ssl3RtApplicationData else 0) len peek s₀
    generalize readPass cfg env (if data then ssl3RtApplicationData else 0) len peek s₀ = p
      at hpassed
    cases hpassed with
    | again h | ret h | alert al h | bytes n hn htype h _ => exact hdrift (.frame (hread h))
    | changed p htype hok hchange hp =>
      have hok : s.ccs_ok = true := by rw [heq] at hok; exact hok
      rcases hp with rfl | rfl <;>
        exact .changedApp data len peek answer env s₀ hpc hcall
          (hcaller.trans (.fetch hfetch)) hpc0 hok
    | handshake h _ => exact hdrift ((Drift.frame (hread h)).trans (enterHandshake_drift (hpc1 h)))
    | @restart s₁ state renegotiate total pending h hok hstate _ =>
      have hok1 : s₁.state = .ok := by rw [h.frame]; exact hok
      have hout : s₁.pc = .out := hpc1 h
      refine hdrift ((Drift.frame (hread h)).trans (.trans
        (.restart state renegotiate total pending hout ?_) (enterHandshake_drift hout)))
      rcases hstate with rfl | rfl
      · exact .inl ⟨rfl, by rw [hok1]; rfl⟩
      · exact .inr ⟨rfl, hok1⟩

/-- Every label makes one of these steps. -/
theorem step_stepped (s : Conn) (label : Label) : Stepped cfg s label (step cfg s label) := by
  have hframe {s' : Conn} (h : s' = { s with
      received_shutdown := s'.received_shutdown
      sent_shutdown := s'.sent_shutdown
      in_read_app_data := s'.in_read_app_data }) : Frame False s s' :=
    ⟨by rw [h], fun k hk => ⟨k, by rw [h] at hk; exact hk⟩,
      fun hd => .inl ⟨by rw [h] at hd; exact hd, by rw [h]⟩, .inl (by rw [h])⟩
  have hdrift {s' : Conn} (hpc : s.pc = .out) h : Stepped cfg s label s' :=
    .drift _ False h nofun fun h => nomatch hpc.symm.trans h
  have hstay : Stepped cfg s label s := .drift _ False (.refl _ s) nofun fun _ => rfl
  unfold step
  split
  case h_1 inRead hpc =>
    exact hdrift hpc ((Drift.frame (hframe rfl)).trans (enterHandshake_drift hpc))
  case h_2 o hpc => exact .turn o hpc
  case h_3 answer env o k hpc => exact handshakePass_stepped cfg answer env o hpc
  case h_4 data len peek answer env hpc =>
    split_ifs with hinit
    · exact hstay
    · refine appPass_stepped cfg data len peek answer env hpc ?_
      by_cases hin : s.in_handshake = 0
      · exact .inl (by simpa [hin] using hinit)
      · exact .inr hin
  case h_5 hpc => exact hdrift hpc (.pending hpc)
  case h_6 idle hpc =>
    by_cases hstart : (ssl3RenegotiateCheck idle s).1 = true
    · obtain ⟨hinit, heq⟩ := ssl3RenegotiateCheck_start hstart
      rw [heq]
      exact hdrift hpc (.restart .renegotiate s.renegotiate _ false hpc (.inl ⟨rfl, hinit⟩))
    · rw [ssl3RenegotiateCheck_not hstart]
      exact hstay
  case h_7 quiet hpc =>
    split_ifs
    · exact hstay
    · exact hdrift hpc (.frame (hframe rfl))
  case h_8 mode hpc =>
    split_ifs with hinit
    · exact hstay
    refine hdrift hpc (.mode mode hpc ?_)
    simp only [Bool.and_eq_true, decide_eq_true_eq, not_and, not_not] at hinit
    cases h : s.state.inInit with
    | false => exact .inl rfl
    | true => exact .inr (hinit h)
  case h_9 => exact hstay

/-! ## What holds after every step -/

/-- A call of `ssl3_read_bytes` for handshake data is about a message that is not complete. -/
def Conn.Waits (s : Conn) : Prop :=
  ∀ k, s.pc = .reading k → s.state.reads = true ∧ ¬s.m.Complete ∧ s.m.reuse_message = false

theorem Move.waits {whole : Bool} {o : Oracle} (h : Move whole o s s') : s'.Waits := by
  -- The other moves do not end in a call.
  have hno {pc : Pc} (hc : s'.pc = pc) (hpc : ∀ k, pc ≠ .reading k) : s'.Waits :=
    fun k hk => absurd (hc.symm.trans hk) (hpc k)
  cases h with
  | want flag he hreads hc hm htrim =>
    intro k _
    refine ⟨?_, hm, congrArg reuse hc⟩
    rw [show s'.state = s.state from congrArg state hc]
    exact hreads
  | err _ hpc _ _ => exact hno hpc nofun
  | _ =>
    have hc := ‹s'.control = _›
    exact hno (congrArg pc hc) nofun

/-- What holds between two steps. -/
structure Sound (s : Conn) : Prop where
  settled : Settled s
  waits : s.Waits

theorem Settled.congr (h : Settled s) (htarget : s'.control.target = s.control.target)
    (hstate : s'.state = s.state) (hhit : s'.hit = s.hit) (hm : s'.m = s.m) : Settled s' := by
  refine ⟨fun hf => ?_, fun hr => ?_, fun hf => ?_⟩
  · rw [hhit]
    exact h.full (htarget ▸ hf)
  · rw [htarget, hstate, hm]
    exact h.aside (hm ▸ hr)
  · rw [hm]
    exact h.flush (hstate ▸ hf)

theorem Frame.sound (h : Frame stores s s') (hs : Sound s) : Sound s' := by
  have hm : s'.m = s.m := by rw [h.eq]
  have hstate : s'.state = s.state := by rw [h.eq]
  refine ⟨hs.settled.congr (by rw [h.eq]; rfl) hstate (by rw [h.eq]) hm, fun k hk => ?_⟩
  obtain ⟨j, hj⟩ := h.pc k hk
  rw [hm, hstate]
  exact hs.waits j hj

theorem settled_idle (h : s.state.inInit = false ∨ s.state = .before ∨ s.state = .start ∨
    s.state = .renegotiate) : Settled s := by
  have hof {x : HsState} hx hflush (hfull : x.full = false) haside hne : Settled s :=
    settled_of hx hflush (fun hf => by cases hfull.symm.trans hf) fun _ =>
      ⟨haside, fun h => absurd h hne⟩
  rcases h with h | h | h | h
  · cases hx : s.state with
    | ok => exact hof hx rfl rfl rfl (by decide)
    | err => exact hof hx rfl rfl rfl (by decide)
    | _ => cases hx ▸ h
  · exact hof h rfl rfl rfl (by decide)
  · exact hof h rfl rfl rfl (by decide)
  · exact hof h rfl rfl rfl (by decide)

theorem sslClear_cases (s : Conn) : ∃ session : Session,
    (session = s.session ∨ session = {}) ∧
    (sslClear s = { s with
      session := session, hit := false, received_shutdown := false, sent_shutdown := false } ∨
    sslClear s = { s.cleared with session := session }) := by
  unfold sslClear
  dsimp only
  split_ifs
  · exact ⟨{}, .inr rfl, .inl rfl⟩
  · exact ⟨s.session, .inl rfl, .inl rfl⟩
  · exact ⟨{}, .inr rfl, .inr rfl⟩
  · exact ⟨s.session, .inl rfl, .inr rfl⟩

theorem Conn.Waits.of_out (h : s.pc = .out) : s.Waits := fun _ hk => nomatch h.symm.trans hk

theorem Drift.sound (h : Drift stores s s') (hs : Sound s) : Sound s' := by
  induction h with
  | frame h => exact h.sound hs
  | restart state renegotiate total pending hpc hstate =>
    refine ⟨settled_idle ?_, .of_out hpc⟩
    rcases hstate with ⟨rfl, -⟩ | ⟨rfl, -⟩
    · exact .inr (.inr (.inr rfl))
    · exact .inr (.inr (.inl rfl))
  | pending hpc | mode mode hpc _ => exact ⟨hs.settled.congr rfl rfl rfl rfl, hs.waits⟩
  | @clear s hpc hstate =>
    obtain ⟨session, -, hclear | hclear⟩ := sslClear_cases s
    · rw [hclear]
      exact ⟨settled_idle (hstate.imp_right .inl), .of_out hpc⟩
    · rw [hclear]
      exact ⟨settled_idle (.inr (.inl rfl)), .of_out hpc⟩
  | trans _ _ ih ih' => exact ih' (ih hs)

theorem acceptChangeCipherSpec_eq (s : Conn) :
    (acceptChangeCipherSpec env s).2 = { s with
      rrec := { s.rrec with data := [] }
      ccs_ok := false
      change_cipher_spec := true
      session := { s.session with cipher := env.installs || s.session.cipher }
      enc_read_ctx := env.installs && s.new_cipher.any (!·.aead) || s.enc_read_ctx
      transcript := if env.installs then (tls1FinalFinishMac s.transcript).2 else s.transcript
      ghost := { s.ghost with
        seen := s.ghost.seen + 1
        epoch := if env.installs then s.ghost.epoch + 1 else s.ghost.epoch
        installed := if env.installs then some (s.ghost.epoch + 1) else s.ghost.installed
        events := s.ghost.events ++ [.changeCipherSpec s.state s.ghost.seen] } } := by
  unfold acceptChangeCipherSpec ssl3DoChangeCipherSpec dropRecord Conn.emit
  cases env.installs <;> rfl

theorem accepted_sound {env : ReadEnv} {pc : Pc} {n : ℕ} (hs : Sound s) {k : ℕ}
    (hpc : pc = .out ∨ s.pc = .reading k) :
    Sound { (acceptChangeCipherSpec env s).2 with pc := pc, in_handshake := n } := by
  rw [acceptChangeCipherSpec_eq]
  refine ⟨hs.settled.congr rfl rfl rfl rfl, fun j hj => ?_⟩
  rcases hpc with rfl | hpc
  · exact nomatch hj
  · exact hs.waits k hpc

theorem Sound.feed_moved {k : ℕ} (hs : Sound s) (hpc : s.pc = .reading k) (cfg : Config)
    (o : Oracle) (bytes : Bytes) (epochs : List ℕ) :
    Moved false o (s.feed bytes epochs) (feedMessage cfg o bytes epochs s) := by
  obtain ⟨hreads, -, hr⟩ := hs.waits k hpc
  exact Tls.feed_moved cfg o bytes epochs hs.settled hreads hr

theorem Sound.dropFragment (hs : Sound s) (n : ℕ) : Sound (s.dropFragment n) :=
  ⟨hs.settled.congr rfl rfl rfl rfl, hs.waits⟩

theorem step_sound (label : Label) (hs : Sound s) : Sound (step cfg s label) := by
  have hstep := step_stepped cfg s label
  generalize step cfg s label = s' at hstep
  cases hstep with
  | turn o hpc =>
    have hmoved := turn_moved cfg o hs.settled
    exact ⟨hmoved.2, hmoved.1.waits⟩
  | fragment answer env o k n hpc hfragment =>
    have hmoved := (hs.dropFragment n).feed_moved hpc cfg o (s.handshake_fragment.take n)
      (s.ghost.fragment_epochs.take n)
    exact ⟨hmoved.2, hmoved.1.waits⟩
  | bytes answer env o k n e data s₁ hpc h hpc1 hfragment hdata he =>
    have hmoved := (h.sound hs).feed_moved (hpc1.trans hpc) cfg o data (List.replicate n e)
    exact ⟨hmoved.2, hmoved.1.waits⟩
  | changed answer env o k s₀ pc n hpc hfetch hfragment htype hok hchange hpc' =>
    have hf : Frame False s s₀ := .fetch hfetch
    have hs0 := hf.sound hs
    have hpc0 : s₀.pc = .reading k := by rw [(fetchRecord_some hfetch).1]; exact hpc
    exact accepted_sound hs0 (.inr hpc0)
  | changedApp data len peek answer env s₀ hpc hcall h hpc0 hok =>
    have hsound : Sound { (acceptChangeCipherSpec env s₀).2 with
        pc := .out, in_handshake := s₀.in_handshake } :=
      accepted_sound (h.sound hs) (k := 0) (.inl rfl)
    rw [acceptChangeCipherSpec_eq] at hsound ⊢
    rw [← hpc0] at hsound
    exact hsound
  | drift _ _ h _ _ => exact h.sound hs

theorem init_sound (server : Bool) (mode : VerifyMode) : Sound (Conn.init server mode) :=
  ⟨settled_idle (.inr (.inl rfl)), .of_out rfl⟩

end VigorTls.Tls
