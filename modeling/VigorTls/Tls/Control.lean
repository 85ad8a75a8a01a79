import VigorTls.Tls.Machine

/-!
# The state and the flags

ChangeCipherSpec and Finished concern a few fields of the connection (`Conn.control`), which most of
the functions that a case of the loop calls leave alone (`Kept`).
-/

namespace VigorTls.Tls

def MessageState.Complete (m : MessageState) : Prop := m.part = .body ∧ m.message_size ≤ m.init_num

instance (m : MessageState) : Decidable m.Complete := inferInstanceAs (Decidable (_ ∧ _))

/-- The bytes that a message has so far stay in place, and none are added. -/
structure MessageState.Trims (m m' : MessageState) : Prop where
  buf : m'.init_buf = m.init_buf
  offset : m'.offset ≤ m.offset
  complete : m.Complete → m'.Complete

theorem MessageState.Trims.refl (m : MessageState) : m.Trims m := ⟨rfl, le_rfl, id⟩

theorem MessageState.not_complete_header {m : MessageState} (h : m.part = .header) : ¬m.Complete :=
  fun hc => nomatch h.symm.trans hc.1

theorem messageResume_cases (server : Bool) (mt : Option UInt8) (max : ℕ) (m : MessageState) :
    match messageResume server mt max m with
    | .want _ m' => ¬m'.Complete ∧ m'.reuse_message = m.reuse_message ∧ m.Trims m'
    | .got m' => m'.Complete ∧ m'.reuse_message = m.reuse_message ∧ m.Trims m'
    | .reused _ => False
    | .alert _ m' => m'.reuse_message = m.reuse_message ∧ m.Trims m' := by
  unfold messageResume
  cases hp : m.part with
  | header =>
    have hm : ¬m.Complete := m.not_complete_header hp
    have hoffset : m.offset = m.init_num := by simp [MessageState.offset, hp]
    simp only [messageHeader, messageBody]
    split_ifs with hshort _ _ _ hlt
    · exact ⟨hm, rfl, .refl m⟩
    · exact ⟨MessageState.not_complete_header hp, rfl, rfl, by simp [MessageState.offset, hp],
        fun hc => absurd hc hm⟩
    · exact ⟨rfl, .refl m⟩
    · exact ⟨rfl, rfl, le_rfl, fun hc => absurd hc hm⟩
    -- The body begins where the header has ended.
    · exact ⟨fun hc => absurd hc.2 (Nat.not_le.mpr hlt), rfl, rfl,
        hoffset ▸ Nat.le_of_not_lt hshort, fun hc => absurd hc hm⟩
    · exact ⟨⟨rfl, Nat.le_of_not_lt hlt⟩, rfl, rfl,
        hoffset ▸ Nat.le_of_not_lt hshort, fun hc => absurd hc hm⟩
  | body =>
    simp only [messageBody]
    split_ifs with hlt
    · exact ⟨fun hc => absurd hc.2 (Nat.not_le.mpr hlt), rfl, .refl m⟩
    · exact ⟨⟨hp, Nat.le_of_not_lt hlt⟩, rfl, .refl m⟩

/-- Too little, an alert, or a message. -/
theorem ssl3GetMessage_cases (server : Bool) (mt : Option UInt8) (max : ℕ) (m : MessageState) :
    match ssl3GetMessage server mt max m with
    | .want _ m' => ¬m'.Complete ∧ m'.reuse_message = false ∧ m.Trims m'
    | .got m' => m'.Complete ∧ m'.reuse_message = false ∧ m.Trims m'
    | .reused m' => m'.Complete ∧ m'.reuse_message = false ∧ m.reuse_message = true
    | .alert _ m' => m'.reuse_message = false ∧ m.Trims m' := by
  unfold ssl3GetMessage
  cases hre : m.reuse_message with
  | true =>
    simp only [if_true]
    split_ifs
    · exact ⟨rfl, rfl, le_rfl, id⟩
    · exact ⟨⟨rfl, le_rfl⟩, rfl, trivial⟩
  | false =>
    simp only [Bool.false_eq_true, if_false]
    have h := messageResume_cases server mt max m
    rw [hre] at h
    split at h
    · exact h
    · exact h
    · exact h.elim
    · exact h

/-! ## The fields that a move is about -/

/-- What has been read and not been used yet, which no turn changes. -/
structure Input where
  rrec : Rrec
  fragment : Bytes
  alert_fragment : Bytes
  epoch : ℕ
  rrec_epoch : ℕ
  fragment_epochs : List ℕ

/-- The state of the handshake functions, and the flags. -/
structure Control where
  pc : Pc
  state : HsState
  hit : Bool
  next_state : HsState
  ticket : Bool
  reuse : Bool
  ccs_ok : Bool
  change : Bool
  seen : ℕ
  installed : Option ℕ
  events : List Event
  input : Input

namespace Conn

variable (s : Conn)

def input : Input where
  rrec := s.rrec
  fragment := s.handshake_fragment
  alert_fragment := s.alert_fragment
  epoch := s.ghost.epoch
  rrec_epoch := s.ghost.rrec_epoch
  fragment_epochs := s.ghost.fragment_epochs

def control : Control where
  pc := s.pc
  state := s.state
  hit := s.hit
  next_state := s.next_state
  ticket := s.tlsext_ticket_expected
  reuse := s.m.reuse_message
  ccs_ok := s.ccs_ok
  change := s.change_cipher_spec
  seen := s.ghost.seen
  installed := s.ghost.installed
  events := s.ghost.events
  input := s.input

variable (state : HsState)

theorem go_control : (s.go state).control = { s.control with pc := .loop, state := state } := rfl

theorem become_control :
    (s.become state).control = { s.control with pc := .loop, state := state } := rfl

end Conn

/-- The states that may set a message aside for the next state. -/
def HsState.setsAside : HsState → Bool
  | crCert | crCertStatus | crKeyExch | crCertReq | srCert => true
  | _ => false

/-- A function that changes none of these, but may set the message aside, and may set `SSL_ST_ERR`
when it fails. -/
inductive Kept (c : Control) : Returned → Prop
  | good {s : Conn} (h : s.control = c) : Kept c (.good s)
  | aside {s : Conn} (h : s.control = { c with reuse := true })
    (hstate : c.state.setsAside = true) :
      Kept c (.good s)
  | bad {s : Conn} (h : s.control = c) : Kept c (.bad s)
  | err {s : Conn} (reuse : Bool) (h : s.control = { c with state := .err, reuse := reuse }) :
      Kept c (.bad s)

variable {c : Control}
variable {s : Conn}

theorem error_kept (h : s.control = c) : Kept c s.error :=
  .err c.reuse (by rw [← h]; rfl)

theorem finishMac_takeMac (s : Conn) (m : MessageState) (hashed : Bytes) :
    ((ssl3TakeMac { s with m := m }).finishMac hashed).control =
        { s.control with reuse := m.reuse_message } ∧
      ((ssl3TakeMac { s with m := m }).finishMac hashed).m = m ∧
      ((ssl3TakeMac { s with m := m }).finishMac hashed).ghost.buf_epochs = s.ghost.buf_epochs := by
  unfold ssl3TakeMac
  split_ifs <;> exact ⟨rfl, rfl, rfl⟩

variable (cfg : Config) (o : Oracle)

theorem ssl3DoWrite_kept (h : s.control = c) : Kept c (ssl3DoWrite o s) := by
  unfold ssl3DoWrite
  split_ifs
  · exact .good h
  · exact .bad h

theorem sendMessage_kept (type : UInt8) (h : s.control = c) : Kept c (sendMessage o type s) := by
  unfold sendMessage
  split
  · split_ifs
    · exact ssl3DoWrite_kept o h
    · exact error_kept h
    · exact .bad h
  · exact ssl3DoWrite_kept o h

theorem ssl3SendChangeCipherSpec_kept (h : s.control = c) :
    Kept c (ssl3SendChangeCipherSpec o s) := by
  unfold ssl3SendChangeCipherSpec
  cases s.m.part <;> dsimp only <;> split_ifs <;> first | exact .good h | exact .bad h

theorem ssl3SendFinished_kept (s : Conn) : Kept s.control (ssl3SendFinished o s) := by
  unfold ssl3SendFinished
  split
  · dsimp only
    split_ifs
    · exact ssl3DoWrite_kept o rfl
    · exact .bad rfl
  · exact ssl3DoWrite_kept o rfl

theorem ssl3ClientHello_kept (h : s.control = c) : Kept c (ssl3ClientHello o s) := by
  unfold ssl3ClientHello
  split_ifs <;> exact sendMessage_kept o _ h

theorem ssl3SendClientCertificate_kept (s : Conn) :
    Kept s.control (ssl3SendClientCertificate o s) := by
  unfold ssl3SendClientCertificate
  split_ifs
  · exact .bad rfl
  · exact sendMessage_kept o _ rfl
  · exact sendMessage_kept o _ rfl

theorem ssl3SendClientKeyExchange_kept (s : Conn) :
    Kept s.control (ssl3SendClientKeyExchange o s) := by
  unfold ssl3SendClientKeyExchange
  split_ifs <;> exact sendMessage_kept o _ rfl

theorem ssl3SendClientVerify_kept (s : Conn) : Kept s.control (ssl3SendClientVerify cfg o s) := by
  unfold ssl3SendClientVerify
  dsimp only
  split_ifs
  · exact sendMessage_kept o _ rfl
  · exact error_kept rfl
  · exact sendMessage_kept o _ rfl

section

variable (hset : s.state.setsAside = true)

include hset

variable (o : Oracle)

theorem ssl3GetServerCertificate_kept : Kept s.control (ssl3GetServerCertificate o s) := by
  unfold ssl3GetServerCertificate
  split_ifs
  · exact .aside rfl hset
  · exact error_kept rfl
  · exact .good rfl

theorem ssl3GetCertStatus_kept : Kept s.control (ssl3GetCertStatus o s) := by
  unfold ssl3GetCertStatus
  dsimp only
  split_ifs
  · exact .aside rfl hset
  · exact .good rfl
  · exact .err true rfl
  · exact error_kept rfl

theorem ssl3GetServerKeyExchange_kept : Kept s.control (ssl3GetServerKeyExchange o s) := by
  unfold ssl3GetServerKeyExchange
  split_ifs
  · exact error_kept rfl
  · exact .aside rfl hset
  · exact .good rfl
  · exact error_kept rfl

theorem ssl3GetCertificateRequest_kept : Kept s.control (ssl3GetCertificateRequest o s) := by
  unfold ssl3GetCertificateRequest
  dsimp only
  split_ifs
  · exact .aside rfl hset
  · exact .err true rfl
  · exact .aside rfl hset
  · exact error_kept rfl
  · exact .good rfl

theorem ssl3GetClientCertificate_kept (cfg : Config) (o : Oracle) :
    Kept s.control (ssl3GetClientCertificate cfg o s) := by
  unfold ssl3GetClientCertificate
  cases clientCerts cfg s.m.msg with
  | none =>
    split_ifs <;> first | exact error_kept rfl | exact .aside rfl hset
  | some certs =>
    cases certs <;> dsimp only <;> split_ifs <;>
      first | exact .good rfl | exact error_kept rfl | exact .aside rfl hset

end

theorem ssl3GetServerDone_kept (s : Conn) : Kept s.control (ssl3GetServerDone s) := by
  unfold ssl3GetServerDone
  split_ifs
  · exact error_kept rfl
  · exact .good rfl

theorem ssl3GetNewSessionTicket_kept (s : Conn) : Kept s.control (ssl3GetNewSessionTicket o s) := by
  unfold ssl3GetNewSessionTicket
  split_ifs
  · exact .good rfl
  · exact error_kept rfl

theorem clientHelloLate_kept (h : s.control = c) : Kept c (clientHelloLate cfg o s) := by
  unfold clientHelloLate
  dsimp only
  split_ifs <;> first | exact .good h | exact error_kept h

theorem clientHelloRetryCert_kept (h : s.control = c) : Kept c (clientHelloRetryCert cfg o s) := by
  unfold clientHelloRetryCert
  split_ifs
  · exact error_kept h
  · exact .bad h
  · exact error_kept h
  · exact clientHelloLate_kept cfg o h

theorem ssl3GetClientKeyExchange_kept (s : Conn) :
    Kept s.control (ssl3GetClientKeyExchange o s) := by
  unfold ssl3GetClientKeyExchange
  split_ifs
  · exact error_kept rfl
  · exact .good rfl

@[simp] theorem freeHandshakeBuffer_control (s : Conn) :
    (freeHandshakeBuffer s).control = s.control := by
  unfold freeHandshakeBuffer
  split_ifs <;> rfl

theorem ssl3GetCertVerify_kept (s : Conn) : Kept s.control (ssl3GetCertVerify cfg s) := by
  unfold ssl3GetCertVerify
  split
  · exact .good (freeHandshakeBuffer_control _)
  · exact error_kept (freeHandshakeBuffer_control s)

theorem ssl3GetNextProto_kept (s : Conn) : Kept s.control (ssl3GetNextProto s) := by
  unfold ssl3GetNextProto
  split_ifs
  · exact error_kept rfl
  · exact error_kept rfl
  · split
    · exact .good rfl
    · exact error_kept rfl

end VigorTls.Tls
