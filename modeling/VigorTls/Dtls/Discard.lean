import VigorTls.Dtls.Progress

/-!
# Records with a refused header

`dtls1_get_record` refuses a header of the wrong version or with too long a body; its comments say
that the record is silently discarded. What it does is `goto again`, with `rstate` at the body, so
that the next pass takes the refused record's body for that of an accepted one.

By `refused_discarded` the record is discarded all the same in every run in which each refusal is
harmless (`Harmless`): the next pass ends at a header. After another one the next pass takes the
record (`refused_taken`) or is still at its body (`refused_stuck`).
-/

namespace VigorTls.Dtls

open List

/-- The record came from a header that passed the checks. -/
def Vetted (r : Ssl3Record) : Prop := r.vetted = true

theorem vetted_stable : Stable Vetted := ⟨rfl, fun _ _ _ _ _ h => h⟩

/-- The body that follows is a ClientHello that is listened for. -/
def helloFollows (s : DtlsConn) : Bool :=
  s.listen && s.rrec.type == ssl3RtHandshake && s.rd.rbuf.left.head? == some ssl3MtClientHello

/-- It is not in a handshake or is listening, or the queue is full or has this number. -/
def CannotBuffer (s : DtlsConn) (seq : RecordSeq) : Prop :=
  ((s.in_init || s.in_handshake != 0) && !s.listen) = false ∨
    100 ≤ pqueueSize s.unprocessed_rcds.q ∨
    pqueueInsert s.unprocessed_rcds.q ⟨seq.bytes, ⟨s.rd, s.rrec⟩⟩ = none

variable (env : RecordEnv)

/-- The connection would drop the record: no window takes it, or it is a replay, or an early one
that cannot be buffered. -/
def Dropped (s : DtlsConn) : Prop :=
  match dtls1GetBitmap s s.rrec with
  | none => True
  | some ref =>
    (helloFollows s = false ∧
      dtls1RecordReplayCheck env.wide s.read_sequence (s.bitmapAt ref) = false) ∨
    ref = .next ∧ CannotBuffer s s.read_sequence

/-- Early records of this epoch wait, and the datagram is at its end: the next pass turns to them.
-/
def Due (s : DtlsConn) : Prop :=
  s.unprocessed_rcds.q ≠ [] ∧ s.unprocessed_rcds.epoch = s.r_epoch ∧ s.rd.rbuf.left = []

/-- A refusal after which the record is discarded: its body is empty, or is all there and would be
dropped anyway. -/
def Harmless (s : DtlsConn) : Prop :=
  (s.rrec.length = 0 ∨ s.rrec.length ≤ s.rd.rbuf.left.length ∧ Dropped env s) ∧ ¬ Due s

theorem pqueueInsert_eq_none {α : Type} (priority : Seq64) (a b : α) : ∀ q : Pqueue α,
    pqueueInsert q ⟨priority, a⟩ = none → pqueueInsert q ⟨priority, b⟩ = none
  | [], h => by simp [pqueueInsert] at h
  | next :: rest, h => by
    simp only [pqueueInsert] at h ⊢
    split at h
    · cases h
    · rfl
    · rw [Option.map_eq_none_iff] at h ⊢
      exact pqueueInsert_eq_none priority a b rest h

variable {s : DtlsConn} (answer : BioResult)

theorem acceptRecord_next (s : DtlsConn) (reads : ℕ) (ev : List RecordEvent)
    (hlen : s.rrec.length ≠ 0) :
    (CannotBuffer s s.rrec.seq_num → (acceptRecord env .next s reads ev).events = ev) ∧
      (¬ CannotBuffer s s.rrec.seq_num →
        .buffered s.rrec ∈ (acceptRecord env .next s reads ev).events) := by
  unfold acceptRecord CannotBuffer
  rw [if_neg hlen]
  cases hcan : (s.in_init || s.in_handshake != 0) && !s.listen with
  | false => exact ⟨fun _ => rfl, fun hnot => absurd (.inl rfl) hnot⟩
  | true =>
    by_cases hfull : 100 ≤ pqueueSize s.unprocessed_rcds.q
    · have hb : dtls1BufferRecord s .unprocessed s.rrec.seq_num = (0, s, []) := if_pos hfull
      rw [hb]
      exact ⟨fun _ => append_nil ev, fun hnot => absurd (.inr (.inl hfull)) hnot⟩
    have hb : dtls1BufferRecord s .unprocessed s.rrec.seq_num = _ := if_neg hfull
    rw [hb]
    dsimp only [DtlsConn.queue]
    cases hq : pqueueInsert s.unprocessed_rcds.q ⟨s.rrec.seq_num.bytes, ⟨s.rd, s.rrec⟩⟩ with
    | none => exact ⟨fun _ => append_nil ev, fun hnot => absurd (.inr (.inr rfl)) hnot⟩
    | some q =>
      refine ⟨fun h => ?_, fun _ => ?_⟩
      · rcases h with h | h | h
        · cases h
        · exact absurd h hfull
        · cases h
      · exact mem_append_right _ (mem_singleton_self _)

theorem numberRecord_rrec (s : DtlsConn) :
    (numberRecord s).rrec.length = s.rrec.length ∧
      (numberRecord s).rrec.vetted = s.rrec.vetted := by
  unfold numberRecord
  split <;> exact ⟨rfl, rfl⟩

theorem cannotBuffer_numberRecord {s1 : DtlsConn} (hseq : s1.read_sequence = s.read_sequence)
    (hun : s1.unprocessed_rcds = s.unprocessed_rcds)
    (hctl : s1.in_init = s.in_init ∧ s1.in_handshake = s.in_handshake ∧ s1.listen = s.listen) :
    CannotBuffer (numberRecord s1) (numberRecord s1).rrec.seq_num ↔
      CannotBuffer s s.read_sequence := by
  obtain ⟨hi, hh, hl⟩ := hctl
  cases hlisten : s.listen with
  | true =>
    -- Nothing is buffered while listening.
    have h1 : CannotBuffer (numberRecord s1) (numberRecord s1).rrec.seq_num := by
      left
      unfold numberRecord
      split <;> simp [hl, hlisten]
    exact ⟨fun _ => .inl (by simp [hlisten]), fun _ => h1⟩
  | false =>
    have hnum : numberRecord s1 =
        { s1 with rrec := { s1.rrec with seq_num := s1.read_sequence } } := by
      unfold numberRecord
      rw [if_neg (by simp [listeningHello, hl, hlisten])]
    rw [hnum]
    simp only [hi, hh, hl, hun, hseq]
    exact or_congr_right (or_congr_right
      ⟨pqueueInsert_eq_none _ _ _ _, pqueueInsert_eq_none _ _ _ _⟩)

/-- A header is in `packet`, its whole body follows, and it is not empty. -/
structure BodyFollows (s : DtlsConn) : Prop where
  packet_length : s.rd.packet_length = dtls1RtHeaderLength
  packet : s.rd.packet.length = dtls1RtHeaderLength
  pos : 0 < s.rrec.length
  le : s.rrec.length ≤ s.rd.rbuf.left.length

theorem readBody_follows (reads : ℕ) (ev : List RecordEvent) (h : BodyFollows s) :
    let t := readBody env answer s reads ev
    (Dropped env s → t.events = ev) ∧
      (¬ Dropped env s → ∃ r : Ssl3Record, r.vetted = s.rrec.vetted ∧
        (.handed r ∈ t.events ∨
          .buffered r ∈ t.events)) := by
  have hlen : s.rd.packet_length - dtls1RtHeaderLength < s.rrec.length := by
    rw [h.packet_length]
    exact h.pos
  obtain ⟨rd, -, hpl, hpacket, hbody⟩ := readBody_cases env answer s reads ev hlen
  have hne : s.rd.rbuf.left ≠ [] := length_pos_iff.mp (lt_of_lt_of_le h.pos h.le)
  rw [hbody, if_neg (by have := h.le; omega)]
  -- The check for a ClientHello sees the first byte of the body.
  have hhello : listeningHello { s with rstate := .header, rd := rd } = helloFollows s := by
    have hbyte : rd.packet[dtls1RtHeaderLength]? = s.rd.rbuf.left.head? := by
      rw [hpacket hne, h.packet_length, take_of_length_le h.packet.le,
        getElem?_append_right h.packet.le, h.packet, Nat.sub_self, min_eq_left h.le,
        getElem?_take_of_lt h.pos, head?_eq_getElem?]
    have hlt : dtls1RtHeaderLength < rd.packet_length := by
      rw [hpl, h.packet_length, min_eq_left h.le]
      exact Nat.lt_add_of_pos_right h.pos
    simp only [listeningHello, helloFollows, hbyte, hlt, decide_true, Bool.and_true]
  unfold examineRecord
  dsimp only
  generalize hs1 : ({ s with rstate := .header, rd := rd } : DtlsConn) = s1 at hhello ⊢
  -- Everything that the record is judged by is as before the body was read.
  have hbm : dtls1GetBitmap s1 s.rrec = dtls1GetBitmap s s.rrec := by rw [← hs1]; rfl
  have hrr : s1.rrec = s.rrec := by rw [← hs1]
  have hseq : s1.read_sequence = s.read_sequence := by rw [← hs1]
  have hat : ∀ ref, s1.bitmapAt ref = s.bitmapAt ref := fun ref => by rw [← hs1]; cases ref <;> rfl
  have hun : s1.unprocessed_rcds = s.unprocessed_rcds := by rw [← hs1]
  have hctl : s1.in_init = s.in_init ∧ s1.in_handshake = s.in_handshake ∧ s1.listen = s.listen := by
    rw [← hs1]
    exact ⟨rfl, rfl, rfl⟩
  rw [hbm]
  unfold Dropped
  cases dtls1GetBitmap s s.rrec with
  | none => exact ⟨fun _ => rfl, fun hnot => absurd trivial hnot⟩
  | some ref =>
    dsimp only
    have hrep : replayed env ref s1 = (!helloFollows s &&
        !dtls1RecordReplayCheck env.wide s.read_sequence (s.bitmapAt ref)) := by
      rw [replayed, hhello, hseq, hat]
    cases hr : replayed env ref s1 with
    | true =>
      have hboth : helloFollows s = false ∧
          dtls1RecordReplayCheck env.wide s.read_sequence (s.bitmapAt ref) = false := by
        rw [hr] at hrep
        simpa using hrep.symm
      exact ⟨fun _ => rfl, fun hnot => absurd (.inl hboth) hnot⟩
    | false =>
      have hnboth : ¬ (helloFollows s = false ∧
          dtls1RecordReplayCheck env.wide s.read_sequence (s.bitmapAt ref) = false) := by
        rintro ⟨h1, h2⟩
        rw [hr, h1, h2] at hrep
        cases hrep
      generalize hs2 : numberRecord s1 = s2
      have hlen2 : s2.rrec.length ≠ 0 := by
        rw [← hs2, (numberRecord_rrec s1).1, hrr]
        exact h.pos.ne'
      have hv2 : s2.rrec.vetted = s.rrec.vetted := by
        rw [← hs2, (numberRecord_rrec s1).2, hrr]
      cases ref with
      | current =>
        refine ⟨fun hd => ?_, fun _ => ⟨s2.rrec, hv2, .inl ?_⟩⟩
        · rcases hd with hd | ⟨hd, -⟩
          · exact absurd hd hnboth
          · cases hd
        · rw [acceptRecord, if_neg hlen2]
          obtain ⟨alerts, h | ⟨data, h⟩⟩ := dtls1ProcessRecord_cases env s2 .current <;> simp [h]
      | next =>
        have hsame : CannotBuffer s2 s2.rrec.seq_num ↔ CannotBuffer s s.read_sequence := by
          rw [← hs2]
          exact cannotBuffer_numberRecord hseq hun hctl
        obtain ⟨hcannot, hcan⟩ := acceptRecord_next env s2 reads ev hlen2
        refine ⟨fun hd => ?_, fun hnot => ⟨s2.rrec, hv2, .inr (hcan fun hc => ?_)⟩⟩
        · rcases hd with hd | ⟨-, hd⟩
          · exact absurd hd hnboth
          · exact hcannot (hsame.mpr hd)
        · exact hnot (.inr ⟨rfl, hsame.mp hc⟩)

/-- The queues follow the epoch. -/
def Synced (s : DtlsConn) : Prop :=
  s.processed_rcds.epoch = s.r_epoch ∧ s.unprocessed_rcds.epoch = (s.r_epoch + 1) % 2 ^ 16

theorem Synced.syncEpochs_eq (h : Synced s) : syncEpochs s = s := by
  obtain ⟨hp, hu⟩ := h
  unfold syncEpochs
  rw [← hu]
  nth_rewrite 2 [← hp]
  rfl

/-- A refused header, right after the pass that read it. -/
structure JustRefused (s : DtlsConn) : Prop where
  vetted : s.rrec.vetted = false
  rstate : s.rstate = .body
  /-- Only the header is in `packet`. -/
  packet_length : s.rd.packet_length = dtls1RtHeaderLength
  packet : s.rd.packet.length = dtls1RtHeaderLength
  /-- No processed record is waiting. -/
  processed : s.processed_rcds.q = []
  /-- Looking at the early records again changes nothing. -/
  synced : s.unprocessed_rcds.q = [] → Synced s

/-- A refused record whose body is still to come, in a call at `again`. -/
structure Pending (σ : Sys) : Prop where
  inCall : σ.inCall = true
  refused : JustRefused σ.conn
  harmless : Harmless env σ.conn

/-- No refused record is in a queue, and one about to be taken for an accepted one is harmless. -/
structure Sys.Clean (σ : Sys) : Prop where
  unprocessed : QueueAll Vetted σ.conn.unprocessed_rcds.q
  processed : QueueAll Vetted σ.conn.processed_rcds.q
  pending : σ.conn.rrec.vetted = false → σ.conn.rstate = .body →
    dtls1RtHeaderLength ≤ σ.conn.rd.packet_length → Pending env σ

theorem processBuffered_clean (hu : QueueAll Vetted s.unprocessed_rcds.q)
    (hp : QueueAll Vetted s.processed_rcds.q) :
    let r := dtls1ProcessBufferedRecords env s
    (∀ e ∈ r.2.2, e.Early Vetted) ∧
      QueueAll Vetted r.2.1.unprocessed_rcds.q ∧
      QueueAll Vetted r.2.1.processed_rcds.q ∧
      (r.1 = true →
        r.2.1.unprocessed_rcds.q = [] →
        Synced r.2.1) ∧
      (Vetted r.2.1.rrec ∨
        (r = (true, s, []) ∨
          s.unprocessed_rcds.q = [] ∧ r = (true, syncEpochs s, []))) := by
  obtain ⟨hq, h⟩ | ⟨hq, -, h⟩ | ⟨hq, -, -, ok, s', ev, hrun, h⟩ := processBuffered_inv env s
  · rw [h]
    exact ⟨by simp, hu, hp, fun _ _ => ⟨rfl, rfl⟩, .inr (.inr ⟨hq, rfl⟩)⟩
  · rw [h]
    exact ⟨by simp, hu, hp, fun _ hnil => absurd hnil hq, .inr (.inl rfl)⟩
  have hsat := processPending_sat vetted_stable env s.unprocessed_rcds.q.length s hu hp
    fun hor => absurd hor (by simp [hq])
  rw [hrun] at hsat
  obtain ⟨hev, hu', hp', hr', -⟩ := hsat
  rw [h]
  cases ok with
  | false => exact ⟨hev, hu', hp', nofun, .inl hr'⟩
  | true => exact ⟨hev, hu', hp', fun _ _ => ⟨rfl, rfl⟩, .inl hr'⟩

variable {ev : List RecordEvent}

theorem readBody_vetted (reads : ℕ) (hev : ∀ e ∈ ev, e.Sat Vetted)
    (hu : QueueAll Vetted s.unprocessed_rcds.q) (hr : Vetted s.rrec) :
    let p := readBody env answer s reads ev
    (∀ e ∈ p.events, e.Sat Vetted) ∧
      QueueAll Vetted p.conn.unprocessed_rcds.q ∧
      p.conn.processed_rcds = s.processed_rcds ∧
      Vetted p.conn.rrec := by
  obtain ⟨rd, -, -, ⟨-, h⟩ | h⟩ := readBody_inv env answer s reads ev
  · rw [h]
    exact ⟨hev, hu, rfl, hr⟩
  have hex := examineRecord_examines env { s with rd := rd } reads ev
  rw [h]
  refine ⟨fun e he => ?_, fun item hi => ?_, hex.processed, ?_⟩
  · rcases hex.events e he with he | ⟨r, hrv, rfl | rfl | rfl⟩ | ⟨desc, rfl⟩
    · exact hev e he
    · exact hrv.trans hr
    · exact hrv.trans hr
    · exact hrv.trans hr
    · trivial
  · rcases hex.unprocessed item hi with hi | ⟨hi, -⟩
    · exact hu item hi
    · exact hi.trans hr
  · rcases hex.vetted with hv | hv
    · exact hv.trans hr
    · exact hv

/-- A header fails the checks. -/
def Refuses (events : List RecordEvent) : Prop :=
  ∃ length left, .examined false length left ∈ events

/-- The event is a header that fails the checks. -/
def RecordEvent.isRefusal : RecordEvent → Bool
  | .examined false _ _ => true
  | _ => false

theorem refuses_iff (events : List RecordEvent) :
    (∃ e ∈ events, e.isRefusal = true) ↔ Refuses events := by
  constructor
  · rintro ⟨e, he, href⟩
    cases e with
    | examined vetted length left =>
      cases vetted with
      | false => exact ⟨length, left, he⟩
      | true => cases href
    | _ => cases href
  · rintro ⟨length, left, he⟩
    exact ⟨_, he, rfl⟩

instance (events : List RecordEvent) : Decidable (Refuses events) :=
  decidable_of_iff _ (refuses_iff events)

/-- The body of a harmless refusal is read without an effect, and the next pass is at a header. -/
theorem readBody_pending (hu : QueueAll Vetted s.unprocessed_rcds.q) (h : Pending env ⟨s, true⟩) :
    let p := readBody env answer s 0 []
    p.events = [] ∧ p.conn.rstate = .header ∧ Sys.Clean env ⟨p.conn, p.out.isNone⟩ := by
  -- A record that is examined without anything happening leaves the queues alone.
  have hex : ∀ {t : DtlsConn} {p : Pass}, QueueAll Vetted t.unprocessed_rcds.q →
      t.processed_rcds.q = [] → p.events = [] → Examines t 0 [] p →
      p.events = [] ∧ p.conn.rstate = .header ∧ Sys.Clean env ⟨p.conn, p.out.isNone⟩ := by
    intro t p htu htp hnil hp
    refine ⟨hnil, hp.rstate, fun item hi => ?_, ?_, fun _ hbody _ => ?_⟩
    · rcases hp.unprocessed item hi with hi | ⟨-, hi⟩
      · exact htu item hi
      · rw [hnil] at hi
        cases hi
    · rw [hp.processed, htp]
      exact nofun
    · rw [hp.rstate] at hbody
      cases hbody
  have hq := h.refused.processed
  have h13 := h.refused.packet_length
  dsimp only at hq h13
  rcases Nat.eq_zero_or_pos s.rrec.length with hzero | hpos
  · -- The header announces an empty body.
    have hbody : readBody env answer s 0 [] = examineRecord env s 0 [] := if_neg (by omega)
    have hz : (numberRecord { s with rstate := .header }).rrec.length = 0 :=
      (numberRecord_rrec _).1.trans hzero
    have hnil : (examineRecord env s 0 []).events = [] := by
      unfold examineRecord
      dsimp only
      split
      · rfl
      · split
        · rfl
        · unfold acceptRecord
          rw [if_pos hz]
    rw [hbody]
    exact hex hu hq hnil (examineRecord_examines env s 0 [])
  · -- The whole body is there, and the record is dropped.
    obtain ⟨hle, hdrop⟩ := h.harmless.1.resolve_left hpos.ne'
    have hnil := (readBody_follows env answer 0 [] ⟨h13, h.refused.packet, hpos, hle⟩).1 hdrop
    obtain ⟨rd, -, -, -, hbody⟩ := readBody_cases env answer s 0 [] (by omega)
    rw [hbody, if_neg (not_lt.mpr hle)] at hnil ⊢
    exact hex (t := { s with rd := rd }) hu hq hnil (examineRecord_examines env _ 0 [])

/-- When no early record is due, a pass at the body is about the record that is being read. -/
theorem pass_body (h : JustRefused s) (hdue : ¬ Due s) :
    dtls1GetRecordPass env answer s = readBody env answer s 0 [] := by
  have hbuf : dtls1ProcessBufferedRecords env s = (true, s, []) := by
    obtain ⟨hun, hrun⟩ | ⟨-, -, hrun⟩ | ⟨hun, hepoch, hnil, -⟩ := processBuffered_inv env s
    · rw [hrun, (h.synced hun).syncEpochs_eq]
    · exact hrun
    · exact absurd ⟨hun, hepoch, hnil⟩ hdue
  cases pass_on env answer hbuf with
  | returned hq => exact nomatch h.processed.symm.trans hq
  | header _ hhdr => exact absurd hhdr (by simp [h.rstate, h.packet_length])
  | body _ _ _ hpass => exact hpass

theorem readBody_examined (s : DtlsConn) (reads : ℕ) {v : Bool} {length left : ℕ}
    (h : .examined v length left ∈ (readBody env answer s reads ev).events) :
    .examined v length left ∈ ev := by
  obtain ⟨rd, -, -, ⟨-, hbody⟩ | hbody⟩ := readBody_inv env answer s reads ev
  · rwa [hbody] at h
  rw [hbody] at h
  rcases (examineRecord_examines env _ reads ev).events _ h with he | ⟨r, -, he | he | he⟩ | ⟨_, he⟩
  · exact he
  · cases he
  · cases he
  · cases he
  · cases he

theorem readHeader_clean (hev : ∀ e ∈ ev, e.Sat Vetted) (hu : QueueAll Vetted s.unprocessed_rcds.q)
    (hq : s.processed_rcds.q = []) (hsync : s.unprocessed_rcds.q = [] → Synced s) :
    let p := readHeader env answer s 0 ev
    (∀ e ∈ p.events, e.Sat Vetted) ∧
      (Refuses p.events → Refuses ev ∨ JustRefused p.conn) ∧
      ((Refuses p.events → Harmless env p.conn) → Sys.Clean env ⟨p.conn, p.out.isNone⟩) := by
  have hp : QueueAll Vetted s.processed_rcds.q := by
    rw [hq]
    exact nofun
  obtain ⟨rd, reads, -, ⟨hlt, out, -, h⟩ | ⟨hpl, hpacket, hdr, ⟨hpass, h⟩ | ⟨hpass, h⟩⟩⟩ :=
    readHeader_inv env answer s ev
  · rw [h]
    exact ⟨hev, .inl, fun _ => ⟨hu, hp, fun _ _ h13 => absurd h13 (not_le.mpr hlt)⟩⟩
  · have hev1 : ∀ e ∈ ev ++ [.examined true hdr.length rd.rbuf.left.length], e.Sat Vetted :=
      forall_mem_append.mpr ⟨hev, forall_mem_singleton.mpr trivial⟩
    obtain ⟨hev', hu', hp', hr'⟩ := readBody_vetted env answer
      (s := noteHeader { s with rd := rd } hdr) reads hev1 hu hpass
    rw [h]
    refine ⟨hev', fun href => ?_, fun _ => ⟨hu', ?_, fun hv => nomatch hr'.symm.trans hv⟩⟩
    · -- An accepted header is not a refusal, and its body examines no other.
      obtain ⟨length, left, href⟩ := href
      rcases mem_append.mp (readBody_examined env answer _ reads href) with he | he
      · exact .inl ⟨length, left, he⟩
      · cases mem_singleton.mp he
    · rw [hp']
      exact hp
  · have hrefused : JustRefused (readHeader env answer s 0 ev).conn := by
      rw [h]
      exact ⟨hpass, rfl, hpl, hpacket, hq, hsync⟩
    rw [h] at hrefused ⊢
    exact ⟨forall_mem_append.mpr ⟨hev, forall_mem_singleton.mpr trivial⟩, fun _ => .inr hrefused,
      fun hharm => ⟨hu, hp, fun _ _ _ => ⟨rfl, hrefused,
        hharm ⟨_, _, mem_append_right _ (mem_singleton_self _)⟩⟩⟩⟩

variable {σ : Sys}

/-- A pass takes no refused record, is at the body of one that it refuses, and leaves a connection
clean if it refuses none that is not harmless. -/
theorem pass_clean (hσ : σ.Clean env) :
    let p := dtls1GetRecordPass env answer σ.conn
    (∀ e ∈ p.events, e.Sat Vetted) ∧ (Refuses p.events → JustRefused p.conn) ∧
      ((Refuses p.events → Harmless env p.conn) → (σ.step env (.pass answer)).1.Clean env) := by
  obtain ⟨s, inCall⟩ := σ
  obtain ⟨hu, hp, hpend⟩ := hσ
  unfold Sys.step
  dsimp only
  by_cases hwait : s.rrec.vetted = false ∧ s.rstate = .body ∧
      dtls1RtHeaderLength ≤ s.rd.packet_length
  · -- The body of a refused record is to come.
    obtain ⟨hv, hbody, h13⟩ := hwait
    have hpending := hpend hv hbody h13
    obtain rfl : inCall = true := hpending.inCall
    rw [pass_body env answer hpending.refused hpending.harmless.2]
    obtain ⟨hnone, -, hclean⟩ := readBody_pending env answer hu hpending
    rw [hnone]
    refine ⟨fun _ he => absurd he not_mem_nil, fun href => ?_, fun _ => hclean⟩
    obtain ⟨_, _, he⟩ := href
    cases he
  obtain ⟨hearly, hu', hp', hsync, hcur⟩ := processBuffered_clean env hu hp
  have hev : ∀ e ∈ (dtls1ProcessBufferedRecords env s).2.2, e.Sat Vetted :=
    fun e he => (hearly e he).sat
  generalize hr : dtls1ProcessBufferedRecords env s = r at hearly hev hu' hp' hsync hcur
  obtain ⟨ok, s', ev⟩ := r
  have hnot : ¬ Refuses ev := by
    rintro ⟨length, left, he⟩
    exact hearly _ he
  cases pass_on env answer hr with
  | failed hpass =>
    rw [hpass]
    refine ⟨hev, (absurd · hnot), fun _ => ⟨hu', hp', fun hv => ?_⟩⟩
    rcases hcur with hcur | hcur | ⟨-, hcur⟩
    · exact nomatch hcur.symm.trans hv
    · cases hcur
    · cases hcur
  | @returned _ _ item rest hq hpass =>
    rw [hpass]
    have hitem : Vetted item.data.rrec := hp' item (by simp [hq])
    refine ⟨forall_mem_append.mpr ⟨hev, by simp [RecordEvent.Sat, hitem]⟩, fun href => ?_,
      fun _ => ⟨hu', fun i hi => hp' i ?_, fun hv => nomatch hitem.symm.trans hv⟩⟩
    · obtain ⟨length, left, he⟩ := href
      rcases mem_append.mp he with he | he
      · exact absurd ⟨length, left, he⟩ hnot
      · simp at he
    · rw [hq]
      exact mem_cons_of_mem _ hi
  | header hq _ hpass =>
    rw [hpass]
    obtain ⟨hev', href, hclean⟩ := readHeader_clean env answer hev hu' hq (hsync rfl)
    exact ⟨hev', fun h => (href h).resolve_left hnot, hclean⟩
  | body hq hbody h13 hpass =>
    -- Here the record is an accepted one, or an early one that was accepted.
    have hv : Vetted s'.rrec := by
      rcases hcur with hcur | ⟨⟨⟩⟩ | ⟨-, ⟨⟩⟩
      · exact hcur
      all_goals exact Bool.of_not_eq_false fun hv => hwait ⟨hv, hbody, h13⟩
    obtain ⟨hev', hu'', hp'', hr'⟩ := readBody_vetted env answer 0 hev hu' hv
    rw [hpass]
    refine ⟨hev', fun href => ?_, fun _ => ⟨hu'', ?_, fun hv' => nomatch hr'.symm.trans hv'⟩⟩
    · obtain ⟨length, left, he⟩ := href
      exact absurd ⟨length, left, readBody_examined env answer s' 0 he⟩ hnot
    · rw [hp'']
      exact hp'

theorem op_clean (hσ : σ.Clean env) (hidle : σ.inCall = false) (o : ConnOp) :
    Sys.Clean env ⟨o.apply σ.conn, false⟩ := by
  have hnot : ¬ (σ.conn.rrec.vetted = false ∧ σ.conn.rstate = .body ∧
      dtls1RtHeaderLength ≤ σ.conn.rd.packet_length) := by
    rintro ⟨hv, hb, h13⟩
    exact absurd (hσ.pending hv hb h13).inCall (by simp [hidle])
  cases o with
  | consume n =>
    refine ⟨hσ.unprocessed, hσ.processed, fun hv hb h13 => absurd ⟨hv, ?_, h13⟩ hnot⟩
    simp only [ConnOp.apply] at hb
    split at hb
    · cases hb
    · exact hb
  | swap rbuf packet rrec =>
    exact ⟨hσ.unprocessed, hσ.processed, fun _ _ h13 => absurd h13 (by simp [ConnOp.apply])⟩
  | discard | newEpoch | control =>
    exact ⟨hσ.unprocessed, hσ.processed, fun hv hb h13 => absurd ⟨hv, hb, h13⟩ hnot⟩

/-- Every refusal of the run is harmless. -/
def Sys.Guarded (σ : Sys) (labels : List Label) : Prop :=
  Lib.Along (fun σ l => (σ.step env l).1)
    (fun σ l => Refuses (σ.step env l).2 → Harmless env (σ.step env l).1.conn) σ labels

theorem step_clean (hσ : σ.Clean env) (l : Label) : (∀ e ∈ (σ.step env l).2, e.Sat Vetted) ∧
    ((Refuses (σ.step env l).2 → Harmless env (σ.step env l).1.conn) →
      (σ.step env l).1.Clean env) := by
  cases l with
  | pass answer =>
    obtain ⟨hev, -, hclean⟩ := pass_clean env answer hσ
    exact ⟨hev, hclean⟩
  | op o =>
    unfold Sys.step
    cases hin : σ.inCall with
    | true => exact ⟨fun _ he => absurd he not_mem_nil, fun _ => hσ⟩
    | false => exact ⟨fun _ he => absurd he not_mem_nil, fun _ => op_clean env hσ hin o⟩

theorem run_clean (labels : List Label) (σ : Sys) (hσ : σ.Clean env)
    (hguard : σ.Guarded env labels) :
    (∀ e ∈ σ.trace env labels, e.Sat Vetted) ∧ (σ.run env labels).Clean env := by
  have hstep (σ : Sys) (l : Label) (hσ : σ.Clean env)
      (hharm : Refuses (σ.step env l).2 → Harmless env (σ.step env l).1.conn) :=
    (step_clean env hσ l).2 hharm
  exact ⟨Lib.trace_forall hstep (fun σ l hσ _ => (step_clean env hσ l).1) labels σ hσ hguard,
    Lib.run_invariant hstep labels σ hσ hguard⟩

/-! ## The condition is exact -/

/-- After a refusal of a record that would not be dropped, and is all there, the next pass hands it
on or buffers it. -/
theorem refused_taken (h : JustRefused s) (hpos : 0 < s.rrec.length)
    (hle : s.rrec.length ≤ s.rd.rbuf.left.length) (hdrop : ¬ Dropped env s) :
    ∃ r : Ssl3Record, r.vetted = s.rrec.vetted ∧
      (.handed r ∈ (dtls1GetRecordPass env answer s).events ∨
        .buffered r ∈ (dtls1GetRecordPass env answer s).events) := by
  have hdue : ¬ Due s := fun hdue => by
    rw [hdue.2.2, length_nil] at hle
    omega
  rw [pass_body env answer h hdue]
  exact (readBody_follows env answer 0 [] ⟨h.packet_length, h.packet, hpos, hle⟩).2 hdrop

/-- After a refusal of a record that is not all there, the next pass is still at its body. -/
theorem refused_stuck (h : JustRefused s) (hdue : ¬ Due s)
    (hlt : s.rd.rbuf.left.length < s.rrec.length) :
    (dtls1GetRecordPass env answer s).conn.rstate = .body := by
  rw [pass_body env answer h hdue]
  have h13 := h.packet_length
  obtain ⟨rd, -, -, -, hbody⟩ := readBody_cases env answer s 0 [] (by omega)
  rw [hbody, if_pos hlt]
  exact h.rstate

/-- In every run whose refusals are harmless, a record is processed, buffered or returned only if
its header passed the checks, and the pass after a refusal ends at a header. After a pass whose
refusal is not harmless, where no early record is due, the next hands the refused record on or
buffers it, or is still at its body. -/
theorem refused_discarded (rbuf : Ssl3Buffer) (version : ℕ) (big_buffer : Bool)
    (labels : List Label) (hguard : Sys.Guarded env ⟨.init rbuf version big_buffer, false⟩ labels) :
    (∀ e ∈ Sys.trace env ⟨.init rbuf version big_buffer, false⟩ labels, e.Sat Vetted) ∧
    ∀ σ, σ = Sys.run env ⟨.init rbuf version big_buffer, false⟩ labels →
      (σ.conn.rrec.vetted = false → σ.conn.rstate = .body →
        dtls1RtHeaderLength ≤ σ.conn.rd.packet_length → ∀ answer,
        (dtls1GetRecordPass env answer σ.conn).conn.rstate = .header) ∧
      ∀ answer answer',
        let p := dtls1GetRecordPass env answer σ.conn
        let p' := dtls1GetRecordPass env answer' p.conn
        Refuses p.events → ¬ Due p.conn → ¬ Harmless env p.conn →
          p'.conn.rstate = .body ∨ ∃ r : Ssl3Record, r.vetted = false ∧
            (.handed r ∈ p'.events ∨ .buffered r ∈ p'.events) := by
  obtain ⟨hev, hclean⟩ := run_clean env labels _
    ⟨fun _ hi => absurd hi not_mem_nil, fun _ hi => absurd hi not_mem_nil,
      fun hv => Bool.noConfusion hv⟩ hguard
  refine ⟨hev, fun σ hσ => ?_⟩
  rw [← hσ] at hclean
  refine ⟨fun hv hst h13 answer => ?_, fun answer answer' href hdue hharm => ?_⟩
  · have hpending := hclean.pending hv hst h13
    have hcall : Pending env ⟨σ.conn, true⟩ := hpending.inCall ▸ hpending
    rw [pass_body env answer hpending.refused hpending.harmless.2]
    exact (readBody_pending env answer hclean.unprocessed hcall).2.1
  have hrefused := (pass_clean env answer hclean).2.1 href
  generalize (dtls1GetRecordPass env answer σ.conn).conn = s at *
  have hnot : ¬ (s.rrec.length = 0 ∨ s.rrec.length ≤ s.rd.rbuf.left.length ∧ Dropped env s) :=
    fun h => hharm ⟨h, hdue⟩
  obtain ⟨hzero, htake⟩ := not_or.mp hnot
  rcases Nat.lt_or_ge s.rd.rbuf.left.length s.rrec.length with hlt | hle
  · exact .inl (refused_stuck env answer' hrefused hdue hlt)
  · obtain ⟨r, hr, htaken⟩ := refused_taken env answer' hrefused (Nat.pos_of_ne_zero hzero) hle
      fun hdrop => htake ⟨hle, hdrop⟩
    exact .inr ⟨r, hr.trans hrefused.vetted, htaken⟩

/-- A datagram with a record of the wrong version, of an epoch that has no window, and a good one.
-/
def droppedDatagram : BioResult := .bytes 22 [0xfe, 0xfd, 0, 5, 0, 0, 0, 0, 0, 1, 0, 2, 7, 7,
  22, 0xfe, 0xff, 0, 0, 0, 0, 0, 0, 0, 1, 0, 3, 7, 8, 9]

/-- The first record is refused and discarded, and the second one is returned. -/
theorem refused_discarded_dropped :
    let σ : Sys := ⟨.init exampleBuffer 0xfeff false, false⟩
    let labels : List Label := replicate 3 (.pass droppedDatagram)
    σ.Guarded plainEnv labels ∧ Refuses (σ.trace plainEnv labels) ∧
      (∀ e ∈ σ.trace plainEnv labels, e.Sat Vetted) ∧
      (∀ σ', σ' = σ.run plainEnv [.pass droppedDatagram] →
        (dtls1GetRecordPass plainEnv droppedDatagram σ'.conn).conn.rstate = .header) ∧
      (σ.run plainEnv labels).conn.rrec.data = [7, 8, 9] := by
  intro σ labels
  -- The epoch of the first record has no window.
  have hdrop : Dropped plainEnv (σ.step plainEnv (.pass droppedDatagram)).1.conn := by
    have hnone : (dtls1GetBitmap (σ.step plainEnv (.pass droppedDatagram)).1.conn
        (σ.step plainEnv (.pass droppedDatagram)).1.conn.rrec).isNone = true := by decide +kernel
    rw [Dropped, Option.isNone_iff_eq_none.mp hnone]
    trivial
  have hguard : σ.Guarded plainEnv labels :=
    ⟨fun _ => ⟨.inr ⟨by decide +kernel, hdrop⟩, fun h => h.1 rfl⟩,
      fun h => absurd h (by decide +kernel), fun h => absurd h (by decide +kernel), trivial⟩
  have h := refused_discarded plainEnv exampleBuffer 0xfeff false
  refine ⟨hguard, by decide +kernel, (h labels hguard).1, ?_, by decide +kernel⟩
  intro σ' hσ'
  refine ((h [.pass droppedDatagram] ⟨hguard.1, trivial⟩).2 σ' hσ').1 ?_ ?_ ?_ droppedDatagram <;>
    (rw [hσ']; decide +kernel)

/-- DTLS 1.0 receives a record with the version of DTLS 1.2. -/
def refusedDatagram : BioResult := .bytes 22 [0xfe, 0xfd, 0, 0, 0, 0, 0, 0, 0, 1, 0, 3, 7, 8, 9]

/-- The header is refused, and the next pass hands the record on and returns its body. -/
theorem refused_record_returned :
    let p := dtls1GetRecordPass plainEnv refusedDatagram (.init exampleBuffer 0xfeff false)
    let p' := dtls1GetRecordPass plainEnv refusedDatagram p.conn
    ∃ r : Ssl3Record, r.vetted = false ∧ r.data = [7, 8, 9] ∧ .examined false 3 3 ∈ p.events ∧
      p'.out = some 1 ∧ .returned r ∈ p'.events := by
  intro p p'
  refine ⟨p'.conn.rrec, by decide +kernel, by decide +kernel, ?_, by decide +kernel, ?_⟩
  · exact mem_singleton_self _
  · exact mem_cons_of_mem _ (mem_singleton_self _)

end VigorTls.Dtls
