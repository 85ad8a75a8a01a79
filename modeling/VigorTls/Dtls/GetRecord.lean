import VigorTls.Dtls.Record

/-!
# Runs of `dtls1_get_record`

A step is a pass of `dtls1_get_record` from the label `again` on or, between two calls, what the
rest of the connection does to the same fields (`ConnOp`). The lemmas say what each part of a pass
can do to the buffer, the queues and `rstate`.
-/

namespace VigorTls.Dtls

open List

/-- What happens to these fields between two calls of `dtls1_get_record`. -/
inductive ConnOp where
  /-- `dtls1_read_bytes` takes `n` bytes of the record. -/
  | consume (n : ℕ)
  | discard
  /-- `dtls1_buffer_record` or `dtls1_copy_record` with `buffered_app_data`: another buffer and
  record take the place of the current ones. Either is processed, with `packet_length` 0. -/
  | swap (rbuf : Ssl3Buffer) (packet : Bytes) (rrec : Ssl3Record)
  /-- `dtls1_reset_seq_numbers` for reading. -/
  | newEpoch
  | control (first_packet : Bool) (version : ℕ) (in_init : Bool) (in_handshake : ℕ) (listen : Bool)

variable (s : DtlsConn)

/-- `dtls1_reset_seq_numbers(s, SSL3_CC_READ)`. -/
def dtls1ResetSeqNumbers : DtlsConn :=
  { s with
    r_epoch := (s.r_epoch + 1) % 2 ^ 16
    bitmap := s.next_bitmap
    next_bitmap := .zero
    read_sequence := Dtls1Bitmap.zero.max_seq_num }

def ConnOp.apply : ConnOp → DtlsConn
  | .consume n =>
    let length := s.rrec.length - n
    { s with
      rrec := { s.rrec with length := length, off := if length = 0 then 0 else s.rrec.off + n }
      rstate := if length = 0 then .header else s.rstate }
  | .discard => { s with rrec := { s.rrec with length := 0 } }
  | .swap rbuf packet rrec => { s with rd := ⟨rbuf, packet, 0⟩, rrec := rrec }
  | .newEpoch => dtls1ResetSeqNumbers s
  | .control first_packet version in_init in_handshake listen =>
    { s with
      first_packet := first_packet, version := version, in_init := in_init
      in_handshake := in_handshake, listen := listen }

def DtlsConn.init (rbuf : Ssl3Buffer) (version : ℕ) (big_buffer : Bool) : DtlsConn where
  rstate := .header
  rd := ⟨{ rbuf with left := [] }, [], 0⟩
  rrec := .zero
  read_sequence := Dtls1Bitmap.zero.max_seq_num
  first_packet := false
  version := version
  in_init := true
  in_handshake := 0
  big_buffer := big_buffer
  r_epoch := 0
  bitmap := .zero
  next_bitmap := .zero
  unprocessed_rcds := ⟨0, []⟩
  processed_rcds := ⟨0, []⟩
  listen := false

/-- A connection between two steps. -/
structure Sys where
  conn : DtlsConn
  /-- `dtls1_get_record` is at `again`, and has not returned. -/
  inCall : Bool

/-- A pass, with what the transport would answer, or an operation between two calls. -/
inductive Label where
  | pass (answer : BioResult)
  | op (o : ConnOp)

variable (env : RecordEnv)

/-- One step. Nothing else runs while a call is at `again`. -/
def Sys.step (σ : Sys) : Label → Sys × List RecordEvent
  | .pass answer =>
    let p := dtls1GetRecordPass env answer σ.conn
    (⟨p.conn, p.out.isNone⟩, p.events)
  | .op o => if σ.inCall then (σ, []) else (⟨o.apply σ.conn, false⟩, [])

/-- A run of steps, and the events in it. -/
def Sys.run (σ : Sys) (labels : List Label) : Sys :=
  Lib.run (fun σ l => (σ.step env l).1) σ labels

@[inherit_doc Sys.run]
def Sys.trace (σ : Sys) (labels : List Label) : List RecordEvent :=
  Lib.trace (fun σ l => (σ.step env l).1) (fun σ l => (σ.step env l).2) σ labels

/-- Keys that leave every body as it is, for the examples. -/
def plainEnv : RecordEnv := ⟨true, fun _ _ _ body => .plain body⟩

def exampleBuffer : Ssl3Buffer := ⟨16720, 0, [], by decide⟩

theorem dtlsMode_dtls : dtlsMode.dtls = true := rfl

section

variable (answer : BioResult) (rd : ReadState) (reads : ℕ)

theorem fetchHeader (max : ℕ) :
    ∃ n rd' reads', ssl3ReadN (dgramRead answer) dtlsMode dtls1RtHeaderLength max false rd reads
        = (n, rd', reads') ∧
      ((n ≤ 0 ∧ reads' = reads + 1 ∧ rd'.packet_length = 0) ∨
        (0 < n ∧ 0 < rd'.packet_length ∧ rd'.packet.length = rd'.packet_length ∧
          rd'.packet_length ≤ dtls1RtHeaderLength ∧
          (reads' = reads + 1 ∨
            reads' = reads ∧
              rd'.rbuf.left.length + rd'.packet_length = rd.rbuf.left.length))) := by
  by_cases hleft : rd.rbuf.left = []
  · have hroom : dtls1RtHeaderLength + ssl3Align ≤ rd.rbuf.len := by
      have := rd.rbuf.room
      simp only [ssl3RtMaxEncryptedLength, dtls1RtHeaderLength] at *
      omega
    obtain ⟨room, _, h⟩ :=
      ssl3ReadN_fresh dtlsMode_dtls answer _ max (by decide) rd reads hleft hroom
    rw [h]
    cases answer.upTo room with
    | fail i hi => exact ⟨_, _, _, rfl, .inl ⟨hi, rfl, rfl⟩⟩
    | bytes head tail =>
      refine ⟨_, _, _, rfl, .inr ⟨?_, ?_, ?_, min_le_left _ _, .inl rfl⟩⟩ <;>
        simp
  · obtain ⟨offset, h⟩ :=
      ssl3ReadN_more dtlsMode_dtls answer dtls1RtHeaderLength max (by decide) rd reads false
        hleft
    have hpos : 0 < rd.rbuf.left.length := length_pos_iff.mpr hleft
    rw [h]
    refine ⟨_, _, _, rfl, .inr ⟨?_, ?_, ?_, ?_, .inr ⟨rfl, ?_⟩⟩⟩ <;>
      simp only [Bool.false_eq_true, if_false, nil_append, length_take,
        length_drop, dtls1RtHeaderLength] <;> omega

end

theorem parseRecordHeader_isSome {bs : Bytes} (h : bs.length = dtls1RtHeaderLength) :
    ∃ hdr, parseRecordHeader bs = some hdr := by
  match bs, h with
  | [_, _, _, _, _, _, _, _, _, _, _, _, _], _ => exact ⟨_, rfl⟩

/-! ## What the parts of a pass can do -/

theorem dtls1BufferRecord_cases (ref : QueueRef) (priority : RecordSeq) :
    (100 ≤ pqueueSize (s.queue ref).q ∧ dtls1BufferRecord s ref priority = (0, s, [])) ∨
      (pqueueSize (s.queue ref).q < 100 ∧
        pqueueInsert (s.queue ref).q ⟨priority.bytes, ⟨s.rd, s.rrec⟩⟩ = none ∧
        dtls1BufferRecord s ref priority = (-1, s.fresh, [])) ∨
      (pqueueSize (s.queue ref).q < 100 ∧ ∃ q,
        pqueueInsert (s.queue ref).q ⟨priority.bytes, ⟨s.rd, s.rrec⟩⟩ = some q ∧
        dtls1BufferRecord s ref priority = (1, s.fresh.setQueue q ref, [.buffered s.rrec])) := by
  unfold dtls1BufferRecord
  split_ifs with hfull
  · exact .inl ⟨hfull, rfl⟩
  · dsimp only
    cases pqueueInsert (s.queue ref).q ⟨priority.bytes, ⟨s.rd, s.rrec⟩⟩ with
    | none => exact .inr (.inl ⟨not_le.mp hfull, rfl, rfl⟩)
    | some q => exact .inr (.inr ⟨not_le.mp hfull, q, rfl, rfl⟩)

variable (env : RecordEnv)

theorem dtls1ProcessRecord_cases (s : DtlsConn) (ref : BitmapRef) :
    ∃ alerts : List ℕ,
      dtls1ProcessRecord env s ref = (false, s, .handed s.rrec :: alerts.map .alert) ∨
      ∃ data, dtls1ProcessRecord env s ref =
        (true, DtlsConn.setBitmap { s with
          rrec := { s.rrec with data := data, length := data.length, off := 0 }
          rd := { s.rd with packet_length := 0 } }
          (dtls1RecordBitmapUpdate env.wide s.read_sequence (s.bitmapAt ref)) ref,
          [.handed s.rrec]) := by
  unfold dtls1ProcessRecord
  split_ifs with hlong
  · exact ⟨[sslAdRecordOverflow], .inl rfl⟩
  dsimp only
  cases env.crypt s.r_epoch s.read_sequence s.rrec.type
      ((s.rd.packet.drop dtls1RtHeaderLength).take s.rrec.length) with
  | invalid => exact ⟨[], .inl rfl⟩
  | short => exact ⟨[sslAdDecodeError], .inl rfl⟩
  | bad => exact ⟨[], .inl rfl⟩
  | plain data =>
    dsimp only
    split_ifs with hplain
    · exact ⟨[sslAdRecordOverflow], .inl rfl⟩
    · exact ⟨[], .inr ⟨data, rfl⟩⟩

/-- What is left of the datagram is too short and is taken, or the body is. The transport is not
asked. -/
theorem readBody_cases (answer : BioResult) (s : DtlsConn) (reads : ℕ)
    (ev : List RecordEvent) (hlen : s.rd.packet_length - dtls1RtHeaderLength < s.rrec.length) :
    ∃ rd : ReadState,
      rd.rbuf.left = s.rd.rbuf.left.drop s.rrec.length ∧
      rd.packet_length = s.rd.packet_length + min s.rrec.length s.rd.rbuf.left.length ∧
      (s.rd.rbuf.left ≠ [] → rd.packet = s.rd.packet.take s.rd.packet_length ++
        s.rd.rbuf.left.take (min s.rrec.length s.rd.rbuf.left.length)) ∧
      readBody env answer s reads ev =
        if s.rd.rbuf.left.length < s.rrec.length then ⟨none, { s with rd := rd }, reads, ev⟩
        else examineRecord env { s with rd := rd } reads ev := by
  have hpos : 0 < s.rrec.length := Nat.zero_lt_of_lt hlen
  unfold readBody
  rw [if_pos hlen]
  by_cases hleft : s.rd.rbuf.left = []
  · rw [ssl3ReadN_empty dtlsMode_dtls answer _ _ hpos s.rd reads hleft]
    refine ⟨s.rd, by simp [hleft], by simp [hleft], fun h => absurd hleft h, ?_⟩
    dsimp only
    rw [if_pos (by omega), if_pos (by simpa [hleft] using hpos)]
  obtain ⟨offset, h⟩ :=
    ssl3ReadN_more dtlsMode_dtls answer s.rrec.length s.rrec.length hpos s.rd reads true hleft
  simp only [if_true] at h
  rw [h]
  refine ⟨⟨{ s.rd.rbuf with
      offset := offset, left := s.rd.rbuf.left.drop (min s.rrec.length s.rd.rbuf.left.length) },
    _, _⟩, ?_, rfl, fun _ => rfl, ?_⟩
  · rcases le_total s.rrec.length s.rd.rbuf.left.length with hle | hle
    · rw [min_eq_left hle]
    · rw [min_eq_right hle, drop_length, drop_eq_nil_of_le hle]
  · dsimp only
    by_cases hshort : s.rd.rbuf.left.length < s.rrec.length
    · rw [if_pos hshort, if_pos (by omega)]
    · rw [if_neg hshort, if_neg (by omega)]

/-- What examining a complete record does, whichever way it goes. -/
structure Examines (reads : ℕ) (ev : List RecordEvent) (p : Pass) : Prop where
  rstate : p.conn.rstate = .header
  reads : p.reads = reads
  /-- Nothing is added to what is left of the datagram. -/
  left : p.conn.rd.rbuf.left.length ≤ s.rd.rbuf.left.length
  processed : p.conn.processed_rcds = s.processed_rcds
  /-- Only the record itself can join the queue of unprocessed ones, by being buffered. -/
  unprocessed : ∀ item ∈ p.conn.unprocessed_rcds.q, item ∈ s.unprocessed_rcds.q ∨
    item.data.rrec.vetted = s.rrec.vetted ∧ .buffered item.data.rrec ∈ p.events
  /-- The record is still the one examined, or there is none. -/
  vetted : p.conn.rrec.vetted = s.rrec.vetted ∨ p.conn.rrec.vetted = true
  before : ∀ e ∈ ev, e ∈ p.events
  events : ∀ e ∈ p.events, e ∈ ev ∨
    (∃ r : Ssl3Record, r.vetted = s.rrec.vetted ∧
      (e = .handed r ∨ e = .buffered r ∨ e = .returned r)) ∨
    ∃ desc, e = .alert desc

theorem Examines.drop {s : DtlsConn} (hst : s.rstate = .header) (reads : ℕ)
    (ev : List RecordEvent) :
    Examines s reads ev ⟨none, s, reads, ev⟩ :=
  ⟨hst, rfl, le_rfl, rfl, fun _ h => .inl h, .inl rfl, fun _ h => h, fun _ h => .inl h⟩

theorem acceptRecord_examines (ref : BitmapRef) {s : DtlsConn}
    (hst : s.rstate = .header) (reads : ℕ) (ev : List RecordEvent) :
    Examines s reads ev (acceptRecord env ref s reads ev) := by
  have hkeep : ∀ {p : Pass}, ∀ item ∈ s.unprocessed_rcds.q, item ∈ s.unprocessed_rcds.q ∨
      item.data.rrec.vetted = s.rrec.vetted ∧ .buffered item.data.rrec ∈ p.events :=
    fun _ h => .inl h
  have hdump : Examines s reads ev ⟨none, s.dump, reads, ev⟩ :=
    ⟨hst, rfl, le_rfl, rfl, hkeep, .inl rfl, fun _ h => h, fun _ h => .inl h⟩
  unfold acceptRecord
  rcases eq_or_ne s.rrec.length 0 with hzero | hzero
  · rw [if_pos hzero]
    exact .drop hst reads ev
  rw [if_neg hzero]
  cases ref with
  | next =>
    -- A record of the next epoch is buffered during a handshake.
    rcases Bool.eq_false_or_eq_true
      ((s.in_init || s.in_handshake != 0) && !s.listen) with hbuf | hbuf
    · rw [if_pos hbuf]
      rcases dtls1BufferRecord_cases s .unprocessed s.rrec.seq_num with
        ⟨-, h⟩ | ⟨-, -, h⟩ | ⟨-, q, hq, h⟩
      · simpa [h] using hdump
      · rw [h]
        exact ⟨hst, rfl, Nat.zero_le _, rfl, hkeep, .inr rfl, fun e he => mem_append_left _ he,
          fun e he => .inl (by simpa using he)⟩
      rw [h]
      refine ⟨hst, rfl, Nat.zero_le _, rfl, fun item hi => ?_, .inr rfl,
        fun e he => mem_append_left _ he, fun e he => ?_⟩
      · rcases mem_cons.mp ((pqueueInsert_perm hq).mem_iff.mp hi) with rfl | hi
        · exact .inr ⟨rfl, mem_append_right _ (mem_singleton_self _)⟩
        · exact .inl hi
      · rcases mem_append.mp he with he | he
        · exact .inl he
        · exact .inr (.inl ⟨s.rrec, rfl, .inr (.inl (mem_singleton.mp he))⟩)
    · rw [if_neg (by simp [hbuf])]
      exact hdump
  | current =>
    obtain ⟨alerts, h | ⟨data, h⟩⟩ := dtls1ProcessRecord_cases env s .current
    · rw [h]
      refine ⟨hst, rfl, le_rfl, rfl, hkeep, .inl rfl, fun e he => mem_append_left _ he,
        fun e he => ?_⟩
      simp only [mem_append, mem_cons, mem_map] at he
      rcases he with he | rfl | ⟨desc, _, rfl⟩
      · exact .inl he
      · exact .inr (.inl ⟨s.rrec, rfl, .inl rfl⟩)
      · exact .inr (.inr ⟨desc, rfl⟩)
    rw [h]
    refine ⟨hst, rfl, le_rfl, rfl, hkeep, .inl rfl,
      fun e he => mem_append_left _ (mem_append_left _ he), fun e he => ?_⟩
    simp only [mem_append, mem_cons, not_mem_nil, or_false] at he
    rcases he with (he | rfl) | rfl
    · exact .inl he
    · exact .inr (.inl ⟨s.rrec, rfl, .inl rfl⟩)
    · refine .inr (.inl ⟨_, ?_, .inr (.inr rfl)⟩)
      rfl

theorem Examines.of_numberRecord {s : DtlsConn} {reads : ℕ} {ev : List RecordEvent} {p : Pass}
    (h : Examines (numberRecord s) reads ev p) : Examines s reads ev p := by
  unfold numberRecord at h
  split_ifs at h
  · exact h
  · exact { h with }

theorem examineRecord_examines (s : DtlsConn) (reads : ℕ) (ev : List RecordEvent) :
    Examines s reads ev (examineRecord env s reads ev) := by
  have hcopy : ∀ {p}, Examines { s with rstate := .header } reads ev p → Examines s reads ev p :=
    fun h => { h with }
  unfold examineRecord
  dsimp only
  split
  · exact hcopy (.drop rfl reads ev)
  next ref _ =>
  split_ifs with hreplay
  · exact hcopy (.drop rfl reads ev)
  · refine hcopy (.of_numberRecord (acceptRecord_examines env ref ?_ reads ev))
    unfold numberRecord
    split_ifs <;> rfl

section

variable (env : RecordEnv) (answer : BioResult)

theorem readBody_inv (s : DtlsConn) (reads : ℕ) (ev : List RecordEvent) : ∃ rd : ReadState,
    rd.rbuf.left.length ≤ s.rd.rbuf.left.length ∧
    (s.rd.packet_length - dtls1RtHeaderLength < s.rrec.length →
      rd.rbuf.left = s.rd.rbuf.left.drop s.rrec.length) ∧
    (s.rd.rbuf.left.length < s.rrec.length ∧
        readBody env answer s reads ev = ⟨none, { s with rd := rd }, reads, ev⟩ ∨
      readBody env answer s reads ev = examineRecord env { s with rd := rd } reads ev) := by
  rcases Nat.lt_or_ge (s.rd.packet_length - dtls1RtHeaderLength) s.rrec.length with hlen | hlen
  · obtain ⟨rd, hdrop, -, -, h⟩ := readBody_cases env answer s reads ev hlen
    refine ⟨rd, ?_, fun _ => hdrop, ?_⟩
    · rw [hdrop, length_drop]
      exact Nat.sub_le _ _
    · rw [h]
      split_ifs with hshort
      · exact .inl ⟨hshort, rfl⟩
      · exact .inr rfl
  · exact ⟨s.rd, le_rfl, fun h => absurd h (not_lt.mpr hlen), .inr (if_neg (not_lt.mpr hlen))⟩

/-- There is no header or a part of one, or it is in `packet`, and the pass goes on with the body if
it passes the checks. -/
theorem readHeader_inv (s : DtlsConn) (ev : List RecordEvent) : ∃ (rd : ReadState) (reads : ℕ),
    (reads = 0 → rd.rbuf.left.length + rd.packet_length = s.rd.rbuf.left.length) ∧
    ((rd.packet_length < dtls1RtHeaderLength ∧ ∃ out, (out = none → 0 < rd.packet_length) ∧
        readHeader env answer s 0 ev = ⟨out, { s with rd := rd }, reads, ev⟩) ∨
      (rd.packet_length = dtls1RtHeaderLength ∧ rd.packet.length = dtls1RtHeaderLength ∧
        ∃ hdr, (headerPasses { s with rd := rd } hdr = true ∧
            readHeader env answer s 0 ev = readBody env answer (noteHeader { s with rd := rd } hdr)
              reads (ev ++ [.examined true hdr.length rd.rbuf.left.length])) ∨
          (headerPasses { s with rd := rd } hdr = false ∧
            readHeader env answer s 0 ev = ⟨none, noteHeader { s with rd := rd } hdr, reads,
              ev ++ [.examined false hdr.length rd.rbuf.left.length]⟩))) := by
  obtain ⟨n, rd, reads, h, hcase⟩ := fetchHeader answer s.rd 0 s.rd.rbuf.len
  refine ⟨rd, reads, by omega, ?_⟩
  unfold readHeader
  rw [h]
  dsimp only
  rcases hcase with ⟨hn, -, hpl⟩ | ⟨hn, hpos, hpacket, hle, -⟩
  · rw [if_pos hn]
    exact .inl ⟨hpl ▸ by decide, some n, nofun, rfl⟩
  rw [if_neg (not_le.mpr hn)]
  rcases ne_or_eq rd.packet_length dtls1RtHeaderLength with hshort | hfull
  · rw [if_pos hshort]
    exact .inl ⟨lt_of_le_of_ne hle hshort, none, fun _ => hpos, rfl⟩
  rw [if_neg (not_not_intro hfull)]
  obtain ⟨hdr, hhdr⟩ := parseRecordHeader_isSome (hpacket.trans hfull)
  rw [hhdr]
  refine .inr ⟨hfull, hpacket.trans hfull, hdr, ?_⟩
  dsimp only
  cases headerPasses { s with rd := rd } hdr with
  | true => exact .inl ⟨rfl, rfl⟩
  | false => exact .inr ⟨rfl, rfl⟩

theorem processBuffered_inv (s : DtlsConn) :
    (s.unprocessed_rcds.q = [] ∧ dtls1ProcessBufferedRecords env s = (true, syncEpochs s, [])) ∨
      (s.unprocessed_rcds.q ≠ [] ∧ (s.unprocessed_rcds.epoch ≠ s.r_epoch ∨ s.rd.rbuf.left ≠ []) ∧
        dtls1ProcessBufferedRecords env s = (true, s, [])) ∨
      (s.unprocessed_rcds.q ≠ [] ∧ s.unprocessed_rcds.epoch = s.r_epoch ∧ s.rd.rbuf.left = [] ∧
        ∃ ok s' ev, processPending env s.unprocessed_rcds.q.length s = (ok, s', ev) ∧
          dtls1ProcessBufferedRecords env s = (ok, if ok then syncEpochs s' else s', ev)) := by
  unfold dtls1ProcessBufferedRecords pqueuePeek
  cases hq : s.unprocessed_rcds.q with
  | nil => exact .inl ⟨rfl, rfl⟩
  | cons item rest =>
    refine .inr ?_
    split_ifs with hepoch hleft
    · exact .inl ⟨nofun, .inl hepoch, rfl⟩
    · exact .inl ⟨nofun, .inr hleft, rfl⟩
    · refine .inr ⟨nofun, not_not.mp hepoch, not_not.mp hleft, ?_⟩
      rcases processPending env (item :: rest).length s with ⟨_ | _, s', ev⟩ <;>
        exact ⟨_, _, _, rfl, rfl⟩

/-- How a pass goes on after the early records. -/
inductive PassOn (p : Pass) : Bool → DtlsConn → List RecordEvent → Prop
  | failed {s ev} (hpass : p = ⟨some (-1), s, 0, ev⟩) : PassOn p false s ev
  | returned {s ev item rest} (hq : s.processed_rcds.q = item :: rest)
      (hpass : p = ⟨some 1, dtls1CopyRecord (s.setQueue rest .processed) item.data, 0,
        ev ++ [.dequeued, .returned item.data.rrec]⟩) : PassOn p true s ev
  | header {s ev} (hq : s.processed_rcds.q = [])
      (hhdr : s.rstate ≠ .body ∨ s.rd.packet_length < dtls1RtHeaderLength)
      (hpass : p = readHeader env answer s 0 ev) : PassOn p true s ev
  | body {s ev} (hq : s.processed_rcds.q = []) (hst : s.rstate = .body)
      (h13 : dtls1RtHeaderLength ≤ s.rd.packet_length)
      (hpass : p = readBody env answer s 0 ev) : PassOn p true s ev

theorem pass_on {s s' : DtlsConn} {ok : Bool} {ev : List RecordEvent}
    (h : dtls1ProcessBufferedRecords env s = (ok, s', ev)) :
    PassOn env answer (dtls1GetRecordPass env answer s) ok s' ev := by
  unfold dtls1GetRecordPass dtls1RetrieveBufferedRecord
  rw [h]
  cases ok with
  | false => exact .failed rfl
  | true =>
    cases hq : s'.processed_rcds.q with
    | cons item rest =>
      refine .returned hq ?_
      simp only [DtlsConn.queue, hq]
      rfl
    | nil =>
      simp only [DtlsConn.queue, hq]
      split_ifs with hhdr
      · exact .header hq hhdr rfl
      · rw [not_or, not_not, not_lt] at hhdr
        exact .body hq hhdr.1 hhdr.2 rfl

end

variable (P : Ssl3Record → Prop)

def QueueAll (q : Pqueue Dtls1RecordData) : Prop :=
  ∀ item ∈ q, P item.data.rrec

/-- What happens has a property, as far as it is about a record. -/
def RecordEvent.Sat : RecordEvent → Prop
  | .handed r => P r
  | .buffered r => P r
  | .returned r => P r
  | _ => True

/-- What the loop over the early records can do: it reads no header and returns nothing. -/
def RecordEvent.Early : RecordEvent → Prop
  | .handed r => P r
  | .buffered r => P r
  | .dequeued => True
  | .alert _ => True
  | .examined _ _ _ => False
  | .returned _ => False

theorem RecordEvent.Early.sat {P : Ssl3Record → Prop} : ∀ {e : RecordEvent}, e.Early P → e.Sat P
  | .handed _, h => h
  | .buffered _, h => h
  | .dequeued, _ => trivial
  | .alert _, _ => trivial

/-- A property of records that processing keeps: it depends on the header only. -/
structure Stable (P : Ssl3Record → Prop) : Prop where
  zero : P .zero
  /-- Numbering, opening and dumping a record keep the property. -/
  update : ∀ r length off data seq_num, P r →
    P { r with length := length, off := off, data := data, seq_num := seq_num }

section

variable {P : Ssl3Record → Prop} (hP : Stable P) (env : RecordEnv)

include hP

omit hP in
/-- What has been handed on has the property, and so has what is there. -/
structure Satisfies (P : Ssl3Record → Prop) (s : DtlsConn)
    (r : Bool × DtlsConn × List RecordEvent) : Prop where
  events : ∀ e ∈ r.2.2, e.Early P
  unprocessed : QueueAll P r.2.1.unprocessed_rcds.q
  processed : QueueAll P r.2.1.processed_rcds.q
  rrec : P r.2.1.rrec
  rstate : r.2.1.rstate = s.rstate

theorem pendingRound_sat {s : DtlsConn} (hu : QueueAll P s.unprocessed_rcds.q)
    (hp : QueueAll P s.processed_rcds.q) (hr : P s.rrec) :
    Satisfies P s (pendingRound env s) := by
  unfold pendingRound
  cases dtls1GetBitmap s s.rrec with
  | none => exact ⟨by simp [RecordEvent.Early], hu, hp, hr, rfl⟩
  | some ref =>
    dsimp only
    split_ifs with hcheck
    · have hr2 : P { s.rrec with seq_num := s.read_sequence } := hP.update _ _ _ _ _ hr
      obtain ⟨alerts, h | ⟨data, h⟩⟩ := dtls1ProcessRecord_cases env
        { s with rrec := { s.rrec with seq_num := s.read_sequence } } ref
      · -- It does not open, and is dumped.
        rw [h]
        exact ⟨by simp [RecordEvent.Early, hr2], hu, hp, hP.update _ 0 _ _ _ hr2, rfl⟩
      -- It opens, and moves to the other queue.
      rw [h]
      dsimp only
      generalize hs2 : DtlsConn.setBitmap _ _ ref = s2
      have hu2 : QueueAll P s2.unprocessed_rcds.q := by rw [← hs2]; cases ref <;> exact hu
      have hp2 : QueueAll P s2.processed_rcds.q := by rw [← hs2]; cases ref <;> exact hp
      have hr3 : P s2.rrec := by
        rw [← hs2]
        cases ref <;> exact hP.update _ _ _ _ _ hr
      have hst2 : s2.rstate = s.rstate := by rw [← hs2]; cases ref <;> rfl
      rcases dtls1BufferRecord_cases s2 .processed s2.rrec.seq_num with
        ⟨-, hb⟩ | ⟨-, -, hb⟩ | ⟨-, q, hq, hb⟩
      · rw [hb]
        exact ⟨by simp [RecordEvent.Early, hr2], hu2, hp2, hr3, hst2⟩
      · rw [hb]
        exact ⟨by simp [RecordEvent.Early, hr2], hu2, hp2, hP.zero, hst2⟩
      rw [hb]
      refine ⟨by simp [RecordEvent.Early, hr2, hr3], hu2, fun item hi => ?_, hP.zero, hst2⟩
      rcases mem_cons.mp ((pqueueInsert_perm hq).mem_iff.mp hi) with rfl | hi
      · exact hr3
      · exact hp2 item hi
    · exact ⟨by simp [RecordEvent.Early], hu, hp, hP.update _ 0 _ _ _ hr, rfl⟩

/-- If all queued records have a stable property, so do all that are handed on, and those queued
afterwards. A round removes a record, and leaves `rstate` alone. -/
theorem processPending_sat : ∀ (rounds : ℕ) (s : DtlsConn),
    QueueAll P s.unprocessed_rcds.q → QueueAll P s.processed_rcds.q →
    (rounds = 0 ∨ s.unprocessed_rcds.q = [] → P s.rrec) →
    Satisfies P s (processPending env rounds s)
  | 0, s, hu, hp, hr => ⟨by simp [processPending], hu, hp, hr (.inl rfl), rfl⟩
  | rounds + 1, s, hu, hp, hr => by
    unfold processPending dtls1RetrieveBufferedRecord
    cases hq : s.unprocessed_rcds.q with
    | nil =>
      simp only [DtlsConn.queue, hq]
      exact ⟨by simp, hu, hp, hr (.inr hq), rfl⟩
    | cons item rest =>
      simp only [DtlsConn.queue, hq]
      -- The record is out of the queue, and is the current one.
      have hround :=
        pendingRound_sat (s := dtls1CopyRecord (s.setQueue rest .unprocessed) item.data)
        hP env (fun i hi => hu i (by simp [hq, show i ∈ rest from hi])) hp (hu item (by simp [hq]))
      generalize pendingRound env _ = r at hround ⊢
      obtain ⟨_ | _, t, ev⟩ := r
      · exact ⟨hround.events, hround.unprocessed, hround.processed, hround.rrec, hround.rstate⟩
      · obtain ⟨he, hu', hp', hr', hst⟩ := processPending_sat rounds t hround.unprocessed
          hround.processed fun _ => hround.rrec
        exact ⟨forall_mem_append.mpr ⟨hround.events, he⟩, hu', hp', hr', hst.trans hround.rstate⟩

end

end VigorTls.Dtls
