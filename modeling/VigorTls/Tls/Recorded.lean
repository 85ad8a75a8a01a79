import VigorTls.Tls.Steps

/-!
# The messages in the transcript

The server keeps the messages in `handshake_buffer` or feeds them to the digests: `Recorded` says
that it has all of them, `Typed` that a message has the type that was asked for.
-/

namespace VigorTls.Tls

open Lib Option List

/-- The buffer has all messages, or the digests have been given all of them. -/
structure Recorded (t : Transcript) (log : List Bytes) : Prop where
  keep : t.keep_handshake = false
  buffer : ∀ b ∈ t.handshake_buffer, b = log.flatten
  dgst : t.handshake_buffer = none → t.handshake_dgst = some log.flatten

theorem digest_cases (t : Transcript) :
    t.handshake_buffer.getD [] = [] ∧
      tls1DigestCachedRecords t = (false, { t with handshake_dgst := none }) ∨
    t.handshake_buffer.getD [] ≠ [] ∧ tls1DigestCachedRecords t = (true, { t with
      handshake_dgst := some (t.handshake_buffer.getD [])
      handshake_buffer := if t.keep_handshake then t.handshake_buffer else none }) := by
  by_cases h : t.handshake_buffer.getD [] = []
  · exact .inl ⟨h, if_pos h⟩
  · exact .inr ⟨h, if_neg h⟩

namespace Recorded

variable {t : Transcript}

theorem start (h : t.keep_handshake = false) : Recorded (tls1InitFinishedMac t) [] :=
  ⟨h, fun _ hb => (mem_some.mp hb).symm, nofun⟩

theorem finishMac (h : Recorded t log) (message : Bytes) :
    Recorded (tls1FinishMac message t) (log ++ [message]) := by
  have hflatten : (log ++ [message]).flatten = log.flatten ++ message := by simp
  unfold tls1FinishMac
  cases hbuf : t.handshake_buffer with
  | none =>
    refine ⟨h.keep, nofun, fun _ => ?_⟩
    simp [h.dgst hbuf]
  | some b =>
    simp only [h.keep, isSome_some, Bool.not_false, Bool.and_self]
    refine ⟨rfl, fun b' hb' => ?_, nofun⟩
    rw [← mem_some.mp hb', hflatten, h.buffer b hbuf]

theorem digest (h : Recorded t log) (hd : (tls1DigestCachedRecords t).1 = true) :
    let r := tls1DigestCachedRecords t
    Recorded r.2 log ∧
      r.2.handshake_buffer = none := by
  rcases digest_cases t with ⟨-, heq⟩ | ⟨hdata, heq⟩
  · exact nomatch (congrArg Prod.fst heq).symm.trans hd
  cases hbuf : t.handshake_buffer with
  | none => exact absurd (hbuf ▸ rfl) hdata
  | some b =>
    rw [heq, h.keep, hbuf, h.buffer b hbuf]
    exact ⟨⟨rfl, nofun, fun _ => rfl⟩, rfl⟩

/-- With messages in the buffer the digests can be started. -/
theorem cached (h : Recorded t log) (hlog : log.flatten ≠ []) :
    let r := digestCached t
    r.1 = true ∧ Recorded r.2 log ∧ r.2.handshake_buffer = none := by
  unfold digestCached
  cases hbuf : t.handshake_buffer with
  | none => exact ⟨rfl, h, hbuf⟩
  | some b =>
    have hd : (tls1DigestCachedRecords t).1 = true := by
      rcases digest_cases t with ⟨hdata, -⟩ | ⟨-, heq⟩
      · rw [hbuf] at hdata
        exact absurd ((h.buffer b hbuf).symm.trans hdata) hlog
      · rw [heq]
    exact ⟨hd, h.digest hd⟩

theorem final (h : Recorded t log) : Recorded (tls1FinalFinishMac t).2 log := by
  unfold tls1FinalFinishMac digestCached
  split_ifs with hbuf
  · rcases digest_cases t with ⟨-, heq⟩ | ⟨-, heq⟩
    · rw [heq]
      exact ⟨h.keep, h.buffer, fun hn => nomatch hn ▸ hbuf⟩
    · exact (h.digest (congrArg Prod.fst heq)).1
  · exact h

end Recorded

@[simp] theorem final_keep_handshake (t : Transcript) :
    (tls1FinalFinishMac t).2.keep_handshake = t.keep_handshake := by
  unfold tls1FinalFinishMac digestCached tls1DigestCachedRecords
  dsimp only
  split_ifs <;> rfl

@[simp] theorem digest_keep_handshake (t : Transcript) :
    (tls1DigestCachedRecords t).2.keep_handshake = t.keep_handshake := by
  unfold tls1DigestCachedRecords
  dsimp only
  split_ifs <;> rfl

@[simp] theorem finishMac_keep_handshake (t : Transcript) (message : Bytes) :
    (tls1FinishMac message t).keep_handshake = t.keep_handshake := by
  unfold tls1FinishMac
  split_ifs <;> rfl

/-- The first message is a ClientHello. -/
def Starts (log : List Bytes) : Prop := log.head?.bind head? = some ssl3MtClientHello

variable {log log' : List Bytes} {message : Bytes}

theorem Starts.mono (h : Starts log) (hlog : log <+: log') : Starts log' := by
  obtain ⟨ms, rfl⟩ := hlog
  cases log with
  | nil => exact nomatch h
  | cons m log => exact h

theorem Starts.of_nil (h : log = [] ∨ Starts log) (hm : message.head? = some ssl3MtClientHello) :
    Starts (log ++ [message]) := by
  rcases h with rfl | h
  · exact hm
  · exact h.mono (prefix_append _ _)

theorem Starts.flatten_ne (h : Starts log) : log.flatten ≠ [] := by
  cases log with
  | nil => exact nomatch h
  | cons m ms =>
    cases m with
    | nil => exact nomatch h
    | cons b bs => simp

/-- The messages from ClientHello up to and including ClientKeyExchange. -/
structure Span (log ms : List Bytes) : Prop where
  initial : ms <+: log
  first : Starts ms
  last : ms.getLast?.bind head? = some ssl3MtClientKeyExchange

theorem Span.mono {ms : List Bytes} (h : Span log ms) (hlog : log <+: log') :
    Span log' ms := ⟨h.initial.trans hlog, h.first, h.last⟩

theorem Starts.span (h : Starts log) (hm : message.head? = some ssl3MtClientKeyExchange) :
    Span (log ++ [message]) (log ++ [message]) :=
  ⟨prefix_rfl, h.mono (prefix_append _ _), by simp [hm]⟩

/-- The part of a message that is there, when `mt` was asked for. -/
structure Typed (mt : Option UInt8) (m : MessageState) : Prop where
  header : m.part = .header → m.init_num ≤ m.init_buf.length
  body : m.part = .body → m.init_buf.head? = some m.message_type ∧
    unexpected mt m.message_type = false

variable {mt : Option UInt8} {m : MessageState}

theorem Typed.feed (h : Typed mt m) (bytes : Bytes) : Typed mt (messageFeed bytes m) := by
  refine ⟨fun hp => ?_, fun hp => ?_⟩
  · have hp : m.part = .header := hp
    have := h.header hp
    simp [messageFeed, MessageState.offset, hp, this]
  have hp : m.part = .body := hp
  obtain ⟨hhead, hmt⟩ := h.body hp
  refine ⟨?_, hmt⟩
  cases hbuf : m.init_buf with
  | nil => cases hbuf ▸ hhead
  | cons b bs =>
    simpa [messageFeed, MessageState.offset, hp, hbuf, Nat.add_comm 4] using hhead

theorem messageResume_typed (server : Bool) (max : ℕ) (h : Typed mt m) :
    match messageResume server mt max m with
    | .want _ m' => Typed mt m'
    | .got m' => Typed mt m'
    | .reused _ => False
    | .alert _ m' => Typed mt m' := by
  unfold messageResume
  cases hp : m.part with
  | body =>
    simp only [messageBody]
    split_ifs <;> exact h
  | header =>
    have hlen := h.header hp
    have hhead (hn : ¬m.init_num < 4) : m.init_buf.head? = some (m.init_buf.getD 0 0) := by
      cases hbuf : m.init_buf with
      | nil => simp [hbuf] at hlen; omega
      | cons b bs => rfl
    simp only [messageHeader, messageBody]
    split_ifs with hn _ hmt
    · exact h
    · exact ⟨fun _ => Nat.zero_le _, fun hb => by cases hp.symm.trans hb⟩
    · exact h
    · exact ⟨h.header, fun hb => by cases hp.symm.trans hb⟩
    · exact ⟨(by rintro ⟨⟩), fun _ => ⟨hhead hn, by simpa using hmt⟩⟩
    · exact ⟨(by rintro ⟨⟩), fun _ => ⟨hhead hn, by simpa using hmt⟩⟩

theorem Typed.hashed {t : UInt8} (h : Typed (some t) m) (hm : m.Complete) :
    m.hashed.head? = some t := by
  obtain ⟨hhead, hmt⟩ := h.body hm.1
  have ht : m.message_type = t := by
    simp only [unexpected, any_some, decide_not, Bool.not_eq_false', decide_eq_true_eq] at hmt
    exact hmt.symm
  cases hbuf : m.init_buf with
  | nil => exact nomatch hbuf ▸ hhead
  | cons b bs =>
    simpa [MessageState.hashed, hbuf, ht] using hhead

end VigorTls.Tls
