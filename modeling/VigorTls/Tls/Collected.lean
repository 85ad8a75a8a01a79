import VigorTls.Tls.Recorded

/-!
# What a server collects about its client

`Evidence` says what has been collected in each state; `Auth` is the invariant of a server. The
lemmas here are about the ways in which a state is left.
-/

namespace VigorTls.Tls

open Lib

/-! ## What is collected -/

/-- A signature checked with the key of `x`, over the messages from ClientHello to
ClientKeyExchange. -/
def Signed (cfg : Config) (x : X509) (verified : Option Verified) (log : List Bytes) : Prop :=
  ∃ v ms, verified = some v ∧ v.peer = x ∧ cfg.verify x v.sigalg v.data v.signature = true ∧
    Span log ms ∧ v.data = ms.flatten

/-- A handshake that is not resumed authenticates the client. -/
def Event.Vouched (cfg : Config) : Event → Prop
  | .accepted hit session verify_mode cert_request verified log => hit = false →
    (∀ x, session.peer = some x → Signed cfg x verified log) ∧
      (verify_mode.required = true → cert_request = true → session.peer ≠ none)
  | _ => True

/-- The fields of a connection that client authentication is about. -/
structure Collected where
  hit : Bool
  renegotiate : ℕ
  peer : Option X509
  verify_mode : VerifyMode
  cert_request : Bool
  cert_verify_md : Bytes
  transcript : Transcript
  log : List Bytes
  verified : Option Verified

def Conn.collected (s : Conn) : Collected where
  hit := s.hit
  renegotiate := s.renegotiate
  peer := s.session.peer
  verify_mode := s.verify_mode
  cert_request := s.cert_request
  cert_verify_md := s.cert_verify_md
  transcript := s.transcript
  log := s.ghost.log
  verified := s.ghost.verified

namespace Collected

variable (cfg : Config) (c : Collected)

/-- All messages are there, and the first is a ClientHello. -/
structure Early : Prop where
  recorded : Recorded c.transcript c.log
  starts : Starts c.log

/-- A certificate that is required has been presented. -/
def Presented : Prop := c.verify_mode.required = true → c.cert_request = true → c.peer ≠ none

/-- What a signature is checked over is there. -/
def Signable : Prop :=
  ∀ x, c.peer = some x → ∃ ms, Span c.log ms ∧
    if cfg.tls12 then c.transcript.handshake_buffer = some ms.flatten ∧
      c.transcript.keep_handshake = true
    else c.cert_verify_md = ms.flatten

/-- The client is authenticated, unless the session is resumed. -/
def Late : Prop :=
  c.hit = false → (∀ x, c.peer = some x → Signed cfg x c.verified c.log) ∧ c.Presented

def Evidence : HsState → Prop
  | .srClntHello => Recorded c.transcript c.log ∧ (c.log = [] ∨ Starts c.log)
  | .swSrvrHello | .swCert | .swCertStatus | .swKeyExch | .swCertReq | .swSrvrDone | .srCert =>
    c.Early
  | .srKeyExch => c.Early ∧ c.Presented
  | .srCertVrfy => c.Signable cfg ∧ c.Presented
  | .srNextProto | .srFinished | .swSessionTicket | .swChange | .swFinished => c.Late cfg
  | .ok => c.renegotiate = 2 → c.Late cfg
  | .swHelloReq | .swHelloReqC => c.renegotiate ≠ 2
  | _ => True

end Collected

/-- What does not depend on the state: a server does not set messages aside. -/
structure Ordinary (cfg : Config) (server reuse : Bool) (events : List Event) : Prop where
  server : server = true
  reuse : reuse = false
  events : ∀ e ∈ events, e.Vouched cfg

abbrev Conn.Ordinary (cfg : Config) (s : Conn) : Prop :=
  Tls.Ordinary cfg s.server s.m.reuse_message s.ghost.events

/-- The buffer is kept only for CertificateVerify. -/
def Conn.KeepsBuffer (s : Conn) : Prop :=
  s.transcript.keep_handshake = true →
    s.state = .srCertVrfy ∧ s.transcript.handshake_buffer.isSome = true

structure Auth (cfg : Config) (s : Conn) : Prop where
  ordinary : s.Ordinary cfg
  keep : s.KeepsBuffer
  typed : s.state.reads = true → Typed (acceptCall cfg s.state).1 s.m
  evidence : s.collected.Evidence cfg s.control.target
  /-- A ClientHello that has been read is not read again. -/
  retry : s.state = .srClntHello → s.m.part = .body → s.first_packet = false → Starts s.ghost.log
  reading : ∀ k, s.pc = .reading k →
    (s.state = .srClntHello → s.first_packet = true) ∧ (s.state = .srCert → s.cert_request = true)
  /-- `SSL_ST_OK` is left with `renegotiate` cleared. -/
  done : s.state = .ok → s.renegotiate = 2 → s.pc = .loop

variable {cfg : Config} {s s' s₁ : Conn} {x : HsState}

/-- What a server knows that can enter `x`. -/
structure Ready (cfg : Config) (s : Conn) (x : HsState) : Prop where
  ordinary : s.Ordinary cfg
  keep : s.transcript.keep_handshake = false
  evidence : s.collected.Evidence cfg x

theorem keeps_nothing (h : s.transcript.keep_handshake = false) : s.KeepsBuffer :=
  fun hk => by cases h.symm.trans hk

theorem Auth.evidence_at (h : Auth cfg s) (hx : s.state = x) (hflush : x.flushes = false) :
    s.collected.Evidence cfg x := by
  have hstate : s.control.state = x := hx
  have hev := h.evidence
  rwa [Control.target_eq (hstate ▸ hflush), hstate] at hev

theorem Auth.keep_at (h : Auth cfg s) (hx : s.state = x) (hne : x ≠ .srCertVrfy) :
    s.transcript.keep_handshake = false :=
  Bool.eq_false_of_not_eq_true fun hk => hne (hx.symm.trans (h.keep hk).1)

theorem Auth.ready (h : Auth cfg s) (hx : s.state = x) (hflush : x.flushes = false)
    (hne : x ≠ .srCertVrfy) : Ready cfg s x :=
  ⟨h.ordinary, h.keep_at hx hne, h.evidence_at hx hflush⟩

theorem auth_err (hb : s'.Ordinary cfg) (hstate : s'.state = .err)
    (hkeep : s'.transcript.keep_handshake = false) : Auth cfg s' where
  ordinary := hb
  keep := keeps_nothing hkeep
  typed h := by cases hstate ▸ h
  evidence := by
    simp only [Conn.control, hstate]
    trivial
  retry h := by cases hstate.symm.trans h
  reading _ _ := ⟨fun h => (by cases hstate.symm.trans h), fun h => (by cases hstate.symm.trans h)⟩
  done h := by cases hstate.symm.trans h

theorem auth_enter (hb : s'.Ordinary cfg) (hkeep : s'.KeepsBuffer)
    (hm : s'.m.part = .header ∧ (s'.state.reads = true → s'.m.init_num = 0)) (hpc : s'.pc = .loop)
    (hev : s'.collected.Evidence cfg s'.control.target) : Auth cfg s' where
  ordinary := hb
  keep := hkeep
  typed h := ⟨fun _ => hm.2 h ▸ Nat.zero_le _, fun h => nomatch hm.1.symm.trans h⟩
  evidence := hev
  retry _ h := nomatch hm.1.symm.trans h
  reading _ h := nomatch hpc.symm.trans h
  done _ _ := hpc

theorem Ready.auth (h : Ready cfg s' s'.control.target)
    (hm : s'.m.part = .header ∧ (s'.state.reads = true → s'.m.init_num = 0))
    (hpc : s'.pc = .loop) : Auth cfg s' :=
  auth_enter h.ordinary (keeps_nothing h.keep) hm hpc h.evidence

theorem auth_go (h : Ready cfg s x) (hflush : x.flushes = false) : Auth cfg (s.go x) := by
  refine Ready.auth ⟨h.ordinary, h.keep, ?_⟩ ⟨rfl, fun _ => rfl⟩ rfl
  rw [Control.target_eq hflush]
  exact h.evidence

section

variable (h : Ready cfg s x) {y : HsState}
  (hev : s.collected.Evidence cfg x → s.collected.Evidence cfg y)

include h hev

theorem Ready.go (hflush : y.flushes = false) : Auth cfg (s.go y) :=
  auth_go ⟨h.ordinary, h.keep, hev h.evidence⟩ hflush

theorem Ready.flush : Auth cfg ({ s with next_state := y }.go .swFlush) :=
  Ready.auth ⟨h.ordinary, h.keep, hev h.evidence⟩ ⟨rfl, nofun⟩ rfl

end

/-! ## Messages that are added to the log -/

/-- Messages are added to the log, and to the transcript. -/
structure Logged (s s' : Conn) : Prop where
  server : s'.server = s.server
  state : s'.state = s.state
  reuse : s'.m.reuse_message = s.m.reuse_message
  events : s'.ghost.events = s.ghost.events
  collected : s'.collected = { s.collected with transcript := s'.transcript, log := s'.ghost.log }
  keep : s'.transcript.keep_handshake = s.transcript.keep_handshake
  kept : s.transcript.keep_handshake = true →
    s'.transcript.handshake_buffer = s.transcript.handshake_buffer
  log : s.ghost.log <+: s'.ghost.log
  recorded : Recorded s.transcript s.ghost.log → Recorded s'.transcript s'.ghost.log

theorem Logged.trans (h : Logged s s') (h' : Logged s' s₁) : Logged s s₁ where
  server := h'.server.trans h.server
  state := h'.state.trans h.state
  reuse := h'.reuse.trans h.reuse
  events := h'.events.trans h.events
  collected := by
    have hc := h'.collected
    rw [h.collected] at hc
    exact hc
  keep := h'.keep.trans h.keep
  kept hk := (h'.kept (h.keep.trans hk)).trans (h.kept hk)
  log := h.log.trans h'.log
  recorded hr := h'.recorded (h.recorded hr)

theorem Logged.finishMac (s : Conn) (message : Bytes) : Logged s (s.finishMac message) where
  server := rfl
  state := rfl
  reuse := rfl
  events := rfl
  collected := rfl
  keep := finishMac_keep_handshake _ _
  kept h := by simp [Conn.finishMac, tls1FinishMac, h]
  log := List.prefix_append _ _
  recorded h := h.finishMac message

theorem Logged.final (s : Conn) :
    Logged s { s with transcript := (tls1FinalFinishMac s.transcript).2 } where
  server := rfl
  state := rfl
  reuse := rfl
  events := rfl
  collected := rfl
  keep := final_keep_handshake _
  kept h := by
    dsimp only [tls1FinalFinishMac, digestCached, tls1DigestCachedRecords]
    split_ifs <;> rfl
  log := List.prefix_rfl
  recorded h := h.final

theorem Logged.of_eq (hserver : s'.server = s.server) (hstate : s'.state = s.state)
    (hreuse : s'.m.reuse_message = s.m.reuse_message) (hevents : s'.ghost.events = s.ghost.events)
    (hc : s'.collected = s.collected) : Logged s s' := by
  have ht : s'.transcript = s.transcript := congrArg Collected.transcript hc
  have hlog : s'.ghost.log = s.ghost.log := congrArg Collected.log hc
  refine ⟨hserver, hstate, hreuse, hevents, ?_, by rw [ht], fun _ => by rw [ht],
    hlog ▸ List.prefix_rfl,
    fun h => by rw [ht, hlog]; exact h⟩
  rw [hc, ht, hlog]
  rfl

section

variable (h : Logged s s')

include h

theorem Logged.ordinary (hb : s.Ordinary cfg) : s'.Ordinary cfg :=
  ⟨h.server.trans hb.server, h.reuse.trans hb.reuse, h.events ▸ hb.events⟩

theorem Logged.early (he : s.collected.Early) : s'.collected.Early :=
  ⟨h.recorded he.recorded, he.starts.mono h.log⟩

theorem Logged.presented (hp : s.collected.Presented) : s'.collected.Presented := by
  rw [h.collected]
  exact hp

theorem Logged.late (hl : s.collected.Late cfg) : s'.collected.Late cfg := by
  rw [h.collected]
  intro hhit
  obtain ⟨hsigned, hpresented⟩ := hl hhit
  refine ⟨fun x hx => ?_, hpresented⟩
  obtain ⟨v, ms, hv, hpeer, hverify, hspan, hdata⟩ := hsigned x hx
  exact ⟨v, ms, hv, hpeer, hverify, hspan.mono h.log, hdata⟩

theorem Logged.signable (hs : s.collected.Signable cfg) : s'.collected.Signable cfg := by
  rw [h.collected]
  intro x hx
  obtain ⟨ms, hspan, hdata⟩ := hs x hx
  refine ⟨ms, hspan.mono h.log, ?_⟩
  split_ifs at hdata ⊢
  · exact ⟨(h.kept hdata.2).trans hdata.1, h.keep.trans hdata.2⟩
  · exact hdata

end

/-- What a function that writes a message returns. -/
inductive Wrote (s : Conn) : Returned → Prop
  | good {s' : Conn} (h : Logged s s') : Wrote s (.good s')
  | bad {s' : Conn} (h : Logged s s') : Wrote s (.bad s')
  | err {s' : Conn} (h : Logged s s') : Wrote s s'.error

variable (o : Oracle)

theorem ssl3DoWrite_wrote (h : Logged s s') : Wrote s (ssl3DoWrite o s') := by
  unfold ssl3DoWrite
  split_ifs
  · exact .good (h.trans (.finishMac s' _))
  · exact .bad h

theorem Logged.place (s : Conn) (message : Bytes) : Logged s (s.place message) :=
  .of_eq rfl rfl rfl rfl rfl

theorem Logged.refl (s : Conn) : Logged s s := .of_eq rfl rfl rfl rfl rfl

theorem sendMessage_wrote (type : UInt8) (s : Conn) : Wrote s (sendMessage o type s) := by
  unfold sendMessage
  split
  · split_ifs
    · exact ssl3DoWrite_wrote o (.place s _)
    · exact .err (.refl s)
    · exact .bad (.refl s)
  · exact ssl3DoWrite_wrote o (.refl s)

theorem ssl3SendChangeCipherSpec_wrote (s : Conn) : Wrote s (ssl3SendChangeCipherSpec o s) := by
  unfold ssl3SendChangeCipherSpec
  cases s.m.part <;> dsimp only <;> split_ifs <;>
    first | exact .good (.of_eq rfl rfl rfl rfl rfl) | exact .bad (.of_eq rfl rfl rfl rfl rfl)

theorem ssl3SendFinished_wrote (s : Conn) : Wrote s (ssl3SendFinished o s) := by
  unfold ssl3SendFinished
  split
  · dsimp only
    split_ifs
    · exact ssl3DoWrite_wrote o ((Logged.final s).trans (.of_eq rfl rfl rfl rfl rfl))
    · exact .bad (.final s)
  · exact ssl3DoWrite_wrote o (.refl s)

theorem Logged.evidence (h : Logged s s') (hx : x ≠ .srClntHello)
    (hev : s.collected.Evidence cfg x) : s'.collected.Evidence cfg x := by
  have hrenegotiate : s'.collected.renegotiate = s.collected.renegotiate := by rw [h.collected]
  cases x <;> first
    | exact absurd rfl hx
    | exact trivial
    | exact h.early hev
    | exact ⟨h.early hev.1, h.presented hev.2⟩
    | exact ⟨h.signable hev.1, h.presented hev.2⟩
    | exact h.late hev
    | exact fun h2 => h.late (hev (hrenegotiate.symm.trans h2))
    | exact fun h2 => hev (hrenegotiate.symm.trans h2)

def HsState.writes : HsState → Bool
  | swHelloReq | swSrvrHello | swCert | swCertStatus | swKeyExch | swCertReq | swSrvrDone
  | swSessionTicket | swChange | swFinished => true
  | _ => false

theorem HsState.plain_of_writes (h : x.writes = true) : x.reads = false ∧ x.flushes = false := by
  cases x <;> first | exact ⟨rfl, rfl⟩ | nomatch h

theorem Logged.ready (h : Logged s s') (hx : x ≠ .srClntHello) (hr : Ready cfg s x) :
    Ready cfg s' x :=
  ⟨h.ordinary hr.ordinary, h.keep.trans hr.keep, h.evidence hx hr.evidence⟩

theorem auth_leave (hb : s.Ordinary cfg) (hflush : s.state.flushes = false) (hkeep : s.KeepsBuffer)
    (htyped : s.state.reads = true → Typed (acceptCall cfg s.state).1 s.m)
    (hev : s.collected.Evidence cfg s.state)
    (hretry : s.state = .srClntHello → s.m.part = .body → s.first_packet = false →
      Starts s.ghost.log)
    (hok : s.state = .ok → s.renegotiate ≠ 2) : Auth cfg s.leave where
  ordinary := hb
  keep := hkeep
  typed := htyped
  evidence := by
    rw [Control.target_eq (show s.leave.control.state.flushes = false from hflush)]
    exact hev
  retry := hretry
  reading _ h := nomatch h
  done h h2 := absurd h2 (hok h)

theorem Ready.blocked (h : Ready cfg s x) (hx : s.state = x) (hwrites : x.writes = true) :
    Auth cfg s.leave := by
  subst hx
  have hne {y : HsState} (hy : y.writes = false) : s.state ≠ y := by
    rintro rfl
    cases hwrites.symm.trans hy
  obtain ⟨hreads, hflush⟩ := HsState.plain_of_writes hwrites
  exact auth_leave h.ordinary hflush (keeps_nothing h.keep) (fun h => by cases hreads.symm.trans h)
    h.evidence (absurd · (hne rfl)) (absurd · (hne rfl))

/-- A message written in a state, and the states that follow it. -/
theorem Wrote.auth {r : Returned} {f : Conn → Conn} (h : Wrote s r) (hx : s.state = x)
    (hwrites : x.writes = true) (hr : Ready cfg s x)
    (hf : ∀ s', Ready cfg s' x → Auth cfg (f s')) : Auth cfg (r.andThen f) := by
  have hne : x ≠ .srClntHello := by
    rintro rfl
    exact nomatch hwrites
  cases h with
  | good h => exact hf _ (h.ready hne hr)
  | bad h => exact (h.ready hne hr).blocked (h.state.trans hx) hwrites
  | err h => exact auth_err (h.ordinary hr.ordinary) rfl (h.keep.trans hr.keep)

end VigorTls.Tls
