import VigorTls.Dtls.GetRecord

/-!
# Progress of `dtls1_get_record`

Each pass through `again` returns, asks the transport, removes a record from a queue, or uses up
unread bytes, in every run whose headers announce bodies that their datagrams hold
(`RecordEvent.WholeBody`). A record whose datagram ends early is left with `rstate` still at the
body, and every later pass does the same nothing (`truncated_record_loops`).
-/

namespace VigorTls.Dtls

open List DtlsConn

def Pass.Progresses (p : Pass) (s : DtlsConn) : Prop :=
  p.out.isSome ∨ 0 < p.reads ∨ .dequeued ∈ p.events ∨
    p.conn.rd.rbuf.left.length < s.rd.rbuf.left.length

/-- An examined header announces a body that its datagram holds, and a refused one no empty body. -/
def RecordEvent.WholeBody : RecordEvent → Prop
  | .examined vetted length left => length ≤ left ∧ (vetted = false → 0 < length)
  | _ => True

/-- A connection that is not stuck: `rstate` is at the body only right after a header was refused,
inside a call, with the whole body to read. -/
def Sys.Ready (σ : Sys) : Prop :=
  σ.conn.rstate = .body → σ.inCall = true ∧ σ.conn.processed_rcds.q = [] ∧
    dtls1RtHeaderLength ≤ σ.conn.rd.packet_length ∧
    σ.conn.rd.packet_length - dtls1RtHeaderLength < σ.conn.rrec.length ∧
    σ.conn.rrec.length ≤ σ.conn.rd.rbuf.left.length

variable (env : RecordEnv) (answer : BioResult) (s : DtlsConn) (ev : List RecordEvent)

theorem pendingRound_dequeued : .dequeued ∈ (pendingRound env s).2.2 := by
  unfold pendingRound
  cases dtls1GetBitmap s s.rrec with
  | none => exact mem_singleton_self _
  | some ref =>
    dsimp only
    split
    · split <;> exact mem_cons_self
    · exact mem_singleton_self _

theorem processPending_dequeued (rounds : ℕ) (s : DtlsConn) (hq : s.unprocessed_rcds.q ≠ []) :
    .dequeued ∈ (processPending env (rounds + 1) s).2.2 := by
  obtain ⟨item, rest, hcons⟩ := exists_cons_of_ne_nil hq
  unfold processPending dtls1RetrieveBufferedRecord
  simp only [queue, hcons]
  have hround :=
    pendingRound_dequeued env (dtls1CopyRecord (s.setQueue rest .unprocessed) item.data)
  generalize pendingRound env _ = r at hround ⊢
  obtain ⟨_ | _, t, ev⟩ := r
  · exact hround
  · exact mem_append_left _ hround

theorem processBuffered_cases :
    (∃ s', (s' = s ∨ s' = syncEpochs s) ∧ dtls1ProcessBufferedRecords env s = (true, s', [])) ∨
      (s.rd.rbuf.left = [] ∧ .dequeued ∈ (dtls1ProcessBufferedRecords env s).2.2 ∧
        (dtls1ProcessBufferedRecords env s).2.1.rstate = s.rstate) := by
  obtain ⟨-, h⟩ | ⟨-, -, h⟩ | ⟨hq, -, hleft, ok, s', ev, hrun, h⟩ := processBuffered_inv env s
  · exact .inl ⟨_, .inr rfl, h⟩
  · exact .inl ⟨_, .inl rfl, h⟩
  obtain ⟨item, rest, hcons⟩ := exists_cons_of_ne_nil hq
  have hdeq := processPending_dequeued env rest.length s hq
  have hst := (processPending_sat (P := fun _ => True) ⟨trivial, fun _ _ _ _ _ _ => trivial⟩ env
    (rest.length + 1) s (fun _ _ => trivial) (fun _ _ => trivial) fun _ => trivial).rstate
  rw [hcons, length_cons] at hrun
  rw [hrun] at hdeq hst
  rw [h]
  cases ok <;> exact .inr ⟨hleft, hdeq, hst⟩

theorem readBody_whole (reads : ℕ) (ev : List RecordEvent)
    (hleft : s.rrec.length ≤ s.rd.rbuf.left.length) :
    let p := readBody env answer s reads ev
    p.conn.rstate = .header ∧
      p.reads = reads ∧
      (p.conn.rd.rbuf.left.length ≤ s.rd.rbuf.left.length) ∧
      (s.rd.packet_length - dtls1RtHeaderLength < s.rrec.length →
        p.conn.rd.rbuf.left.length < s.rd.rbuf.left.length) := by
  obtain ⟨rd, hle, hdrop, ⟨hshort, -⟩ | h⟩ := readBody_inv env answer s reads ev
  · exact absurd hleft (not_le.mpr hshort)
  have hex := examineRecord_examines env { s with rd := rd } reads ev
  rw [h]
  refine ⟨hex.rstate, hex.reads, hex.left.trans hle, fun hlen => lt_of_le_of_lt hex.left ?_⟩
  rw [hdrop hlen, length_drop]
  omega

theorem readBody_le (reads : ℕ) (ev : List RecordEvent) :
    let p := readBody env answer s reads ev
    p.reads = reads ∧
      p.conn.rd.rbuf.left.length ≤ s.rd.rbuf.left.length ∧
      ∀ e ∈ ev, e ∈ p.events := by
  obtain ⟨rd, hle, -, ⟨-, h⟩ | h⟩ := readBody_inv env answer s reads ev
  · rw [h]
    exact ⟨rfl, hle, fun _ he => he⟩
  · have hex := examineRecord_examines env { s with rd := rd } reads ev
    rw [h]
    exact ⟨hex.reads, hex.left.trans hle, hex.before⟩

theorem readHeader_progress (hst : s.rstate = .header) (hq : s.processed_rcds.q = []) :
    let p := readHeader env answer s 0 ev
    p.Progresses s ∧
      (∀ e ∈ ev, e ∈ p.events) ∧
      ((∀ e ∈ p.events, e.WholeBody) →
        Sys.Ready ⟨p.conn, p.out.isNone⟩) := by
  obtain ⟨rd, reads, hsrc, hcase⟩ := readHeader_inv env answer s ev
  -- Either the transport was asked, or bytes were used up.
  have hprog (hpos : 0 < rd.packet_length) :
      0 < reads ∨ rd.rbuf.left.length < s.rd.rbuf.left.length := by omega
  have hself {e : RecordEvent} : e ∈ ev ++ [e] := mem_append_right _ (mem_singleton_self _)
  obtain ⟨-, out, hout, h⟩ | ⟨hpl, -, hdr, ⟨-, h⟩ | ⟨-, h⟩⟩ := hcase
  · rw [h]
    refine ⟨?_, fun _ he => he, fun _ hbody => by simp [hst] at hbody⟩
    cases out with
    | some n => exact .inl rfl
    | none => exact .inr ((hprog (hout rfl)).imp_right .inr)
  · obtain ⟨hr, hle, hmono⟩ := readBody_le env answer (noteHeader { s with rd := rd } hdr) reads
      (ev ++ [.examined true hdr.length rd.rbuf.left.length])
    rw [h]
    refine ⟨.inr ?_, fun e he => hmono e (mem_append_left _ he), fun hwhole hbody => ?_⟩
    · rw [hr]
      exact (hprog (by rw [hpl]; decide)).imp_right fun hlt => .inr (lt_of_le_of_lt hle hlt)
    · -- The body is whole, so the pass ended at the next header.
      obtain ⟨hlen, -⟩ := hwhole _ (hmono _ hself)
      rw [(readBody_whole env answer _ reads _ hlen).1] at hbody
      cases hbody
  · rw [h]
    refine ⟨.inr ((hprog (by rw [hpl]; decide)).imp_right .inr),
      fun e he => mem_append_left _ he, fun hwhole _ => ?_⟩
    -- The header was refused, and its body is still there.
    obtain ⟨hlen, hzero⟩ := hwhole _ hself
    refine ⟨rfl, hq, hpl.ge, ?_, hlen⟩
    change rd.packet_length - dtls1RtHeaderLength < hdr.length
    rw [hpl]
    exact hzero rfl

variable {σ : Sys}

/-- A pass from a connection that is not stuck makes progress, and leaves it not stuck if the header
examined, if any, announces a whole body. -/
theorem pass_progress (hσ : σ.Ready) :
    (dtls1GetRecordPass env answer σ.conn).Progresses σ.conn ∧
      ((∀ e ∈ (dtls1GetRecordPass env answer σ.conn).events, e.WholeBody) →
        (σ.step env (.pass answer)).1.Ready) := by
  obtain ⟨s, inCall⟩ := σ
  unfold Sys.step
  dsimp only
  cases hrs : s.rstate with
  | body =>
    -- Right after a refusal: there is something left, so the early records wait.
    obtain ⟨-, hq, hpl, hlen, hle⟩ := hσ hrs
    dsimp only at hq hpl hlen hle
    rcases processBuffered_cases env s with ⟨s', hs', h⟩ | ⟨hnil, -, -⟩
    · obtain ⟨hrs', hq', hrd', hrr'⟩ : s'.rstate = .body ∧ s'.processed_rcds.q = [] ∧
          s'.rd = s.rd ∧ s'.rrec = s.rrec := by
        rcases hs' with rfl | rfl <;> exact ⟨hrs, hq, rfl, rfl⟩
      cases pass_on env answer h with
      | returned hq2 => exact nomatch hq'.symm.trans hq2
      | header _ hhdr =>
        rw [hrs', hrd'] at hhdr
        exact absurd hhdr (by simp [hpl])
      | body _ _ _ hpass =>
        obtain ⟨hst, -, -, hlt⟩ := readBody_whole env answer s' 0 [] (by rw [hrd', hrr']; exact hle)
        rw [hrd', hrr'] at hlt
        rw [hpass]
        exact ⟨.inr (.inr (.inr (hlt hlen))), fun _ hbody => nomatch hst.symm.trans hbody⟩
    · rw [hnil] at hle
      exact absurd hle (by simp only [length_nil]; omega)
  | header =>
    rcases processBuffered_cases env s with ⟨s', hs', h⟩ | ⟨-, hdeq, hst⟩
    · obtain ⟨hst', hrd⟩ : s'.rstate = .header ∧ s'.rd = s.rd := by
        rcases hs' with rfl | rfl <;> exact ⟨hrs, rfl⟩
      cases pass_on env answer h with
      | returned _ hpass =>
        rw [hpass]
        exact ⟨.inl rfl, fun _ hbody => nomatch hst'.symm.trans hbody⟩
      | header hq _ hpass =>
        obtain ⟨hprog, -, hready⟩ := readHeader_progress env answer s' [] hst' hq
        rw [hpass]
        refine ⟨?_, hready⟩
        unfold Pass.Progresses at hprog ⊢
        rwa [hrd] at hprog
      | body _ hst => exact nomatch hst'.symm.trans hst
    generalize hr : dtls1ProcessBufferedRecords env s = r at hdeq hst
    obtain ⟨ok, s', ev⟩ := r
    have hst' : s'.rstate = .header := hst.trans hrs
    cases pass_on env answer hr with
    | failed hpass | returned _ hpass =>
      rw [hpass]
      exact ⟨.inl rfl, fun _ hbody => nomatch hst'.symm.trans hbody⟩
    | header hq _ hpass =>
      obtain ⟨-, hbefore, hready⟩ := readHeader_progress env answer s' ev hst' hq
      rw [hpass]
      exact ⟨.inr (.inr (.inl (hbefore _ hdeq))), hready⟩
    | body _ hst => exact nomatch hst'.symm.trans hst

theorem op_ready (hσ : σ.Ready) (hidle : σ.inCall = false) (o : ConnOp) :
    Sys.Ready ⟨o.apply σ.conn, false⟩ := by
  have hst : σ.conn.rstate = .header := by
    cases h : σ.conn.rstate with
    | header => rfl
    | body => exact absurd (hσ h).1 (by simp [hidle])
  intro hbody
  cases o <;> simp [ConnOp.apply, dtls1ResetSeqNumbers, hst] at hbody

/-- In a run whose headers all announce bodies that their datagrams hold, no call is stuck. -/
theorem run_ready (labels : List Label) (σ : Sys) (hσ : σ.Ready)
    (hwhole : ∀ e ∈ σ.trace env labels, e.WholeBody) : (σ.run env labels).Ready := by
  refine Lib.run_invariant ?_ labels σ hσ (Lib.along_of_trace hwhole)
  intro σ l hσ hstep
  cases l with
  | pass answer => exact (pass_progress env answer hσ).2 hstep
  | op o =>
    unfold Sys.step
    dsimp only
    rcases Bool.eq_false_or_eq_true σ.inCall with hin | hin
    · rw [if_pos hin]
      exact hσ
    · rw [if_neg (by simp [hin])]
      exact op_ready hσ hin o

/-! ## How long a call can go on without the transport -/

/-- Three for each unread byte of a record's buffer, and `c` for the record. -/
def queueWeight (c : ℕ) (q : Pqueue Dtls1RecordData) : ℕ :=
  (q.map fun item => 3 * item.data.rd.rbuf.left.length + c).sum

/-- What a call can still do without asking the transport. -/
def DtlsConn.weight : ℕ :=
  3 * s.rd.rbuf.left.length + queueWeight 2 s.unprocessed_rcds.q + queueWeight 1 s.processed_rcds.q

@[simp]
theorem queueWeight_cons (c : ℕ) (item : Pitem Dtls1RecordData) (q : Pqueue Dtls1RecordData) :
    queueWeight c (item :: q) = 3 * item.data.rd.rbuf.left.length + c + queueWeight c q := by
  simp [queueWeight]

theorem queueWeight_perm (c : ℕ) {q q' : Pqueue Dtls1RecordData} (h : q.Perm q') :
    queueWeight c q = queueWeight c q' :=
  (h.map _).sum_nat

theorem bufferRecord_weight (queue : QueueRef) (priority : RecordSeq) :
    (dtls1BufferRecord s queue priority).2.1.weight ≤
      s.weight + if queue = .unprocessed then 2 else 1 := by
  rcases dtls1BufferRecord_cases s queue priority with ⟨-, h⟩ | ⟨-, -, h⟩ | ⟨-, q, hq, h⟩
  · rw [h]
    exact Nat.le_add_right _ _
  · rw [h]
    simp only [weight, fresh, freshBuffer, length_nil]
    omega
  have hw1 := queueWeight_perm 1 (pqueueInsert_perm hq)
  have hw2 := queueWeight_perm 2 (pqueueInsert_perm hq)
  rw [queueWeight_cons] at hw1 hw2
  rw [h]
  cases queue <;> simp only [weight, setQueue, fresh,
    freshBuffer, queue, length_nil, if_true, reduceCtorEq, if_false]
    at hw1 hw2 ⊢ <;> omega

theorem processRecord_weight (ref : BitmapRef) :
    (dtls1ProcessRecord env s ref).2.1.weight = s.weight := by
  obtain ⟨alerts, h | ⟨data, h⟩⟩ := dtls1ProcessRecord_cases env s ref
  · rw [h]
  · rw [h]
    cases ref <;> rfl

theorem pendingRound_weight : (pendingRound env s).2.1.weight ≤ s.weight + 1 := by
  unfold pendingRound
  cases dtls1GetBitmap s s.rrec with
  | none => exact Nat.le_add_right _ _
  | some ref =>
    have hp : _ = s.weight := processRecord_weight env
      { s with rrec := { s.rrec with seq_num := s.read_sequence } } ref
    dsimp only
    split
    · split
      next s2 ev heq =>
        rw [heq] at hp
        exact hp.le.trans (Nat.le_add_right _ _)
      next s2 ev heq =>
        rw [heq] at hp
        exact (bufferRecord_weight s2 .processed s2.rrec.seq_num).trans
          (Nat.add_le_add_right hp.le 1)
    · exact Nat.le_add_right _ _

theorem processPending_weight (env : RecordEnv) : ∀ (rounds : ℕ) (s : DtlsConn),
    (processPending env rounds s).2.1.weight ≤ s.weight
  | 0, s => le_rfl
  | rounds + 1, s => by
    unfold processPending dtls1RetrieveBufferedRecord
    cases hq : s.unprocessed_rcds.q with
    | nil => simp [queue, hq]
    | cons item rest =>
      simp only [queue, hq]
      have hround :=
        pendingRound_weight env (dtls1CopyRecord (s.setQueue rest .unprocessed) item.data)
      -- The record takes the place of the current one, whatever was left there.
      have hw : (dtls1CopyRecord (s.setQueue rest .unprocessed) item.data).weight + 1 ≤
          s.weight := by
        simp only [weight, dtls1CopyRecord, setQueue, hq, queueWeight_cons]
        omega
      generalize pendingRound env _ = r at hround ⊢
      obtain ⟨_ | _, t, ev⟩ := r
      · exact hround.trans hw
      · exact (processPending_weight env rounds t).trans (hround.trans hw)

theorem processBuffered_weight : (dtls1ProcessBufferedRecords env s).2.1.weight ≤ s.weight := by
  have hpend := processPending_weight env s.unprocessed_rcds.q.length s
  obtain ⟨-, h⟩ | ⟨-, -, h⟩ | ⟨-, -, -, ok, s', ev, hrun, h⟩ := processBuffered_inv env s
  · rw [h]
    exact le_rfl
  · rw [h]
  · rw [hrun] at hpend
    rw [h]
    cases ok <;> exact hpend

theorem examineRecord_weight (reads : ℕ) (ev : List RecordEvent) :
    (examineRecord env s reads ev).conn.weight ≤ s.weight + 2 := by
  have haccept : ∀ ref t, (acceptRecord env ref t reads ev).conn.weight ≤ t.weight + 2 := by
    intro ref t
    unfold acceptRecord
    split
    · exact Nat.le_add_right _ _
    cases ref with
    | next =>
      dsimp only
      have hb := bufferRecord_weight t .unprocessed t.rrec.seq_num
      split
      · split <;> exact hb
      · exact Nat.le_add_right t.weight 2
    | current =>
      have hp := processRecord_weight env t .current
      generalize dtls1ProcessRecord env t .current = r at hp
      obtain ⟨ok, t', ev'⟩ := r
      cases ok
      · exact (show t'.dump.weight = t.weight from hp).le.trans (Nat.le_add_right _ _)
      · exact (show t'.weight = t.weight from hp).le.trans (Nat.le_add_right _ _)
  have hnum : ∀ t : DtlsConn, (numberRecord t).weight = t.weight := by
    intro t
    unfold numberRecord
    split <;> rfl
  unfold examineRecord
  dsimp only
  split
  · exact Nat.le_add_right s.weight 2
  next ref _ =>
  split
  · exact Nat.le_add_right s.weight 2
  · exact (haccept ref _).trans (by rw [hnum]; exact le_rfl)

theorem readBody_weight (reads : ℕ) (ev : List RecordEvent) :
    (readBody env answer s reads ev).conn.weight ≤ s.weight + 2 ∧
      (s.rd.packet_length - dtls1RtHeaderLength < s.rrec.length → s.rd.rbuf.left ≠ [] →
        (readBody env answer s reads ev).conn.weight < s.weight) := by
  obtain ⟨rd, hle, hdrop, hcase⟩ := readBody_inv env answer s reads ev
  have hrd : weight { s with rd := rd } ≤ s.weight := by
    simp only [weight]
    omega
  have htaken (hlen : s.rd.packet_length - dtls1RtHeaderLength < s.rrec.length)
      (hne : s.rd.rbuf.left ≠ []) : weight { s with rd := rd } + 3 ≤ s.weight := by
    have := length_pos_iff.mpr hne
    simp only [weight, hdrop hlen, length_drop]
    omega
  have hex := examineRecord_weight env { s with rd := rd } reads ev
  obtain ⟨-, h⟩ | h := hcase
  · rw [h]
    exact ⟨Nat.le_add_right_of_le hrd, fun hlen hne => lt_of_lt_of_le (by simp) (htaken hlen hne)⟩
  · rw [h]
    exact ⟨by omega, fun hlen hne => by have := htaken hlen hne; omega⟩

theorem readHeader_weight (hout : (readHeader env answer s 0 ev).out = none)
    (hreads : (readHeader env answer s 0 ev).reads = 0) :
    (readHeader env answer s 0 ev).conn.weight < s.weight := by
  obtain ⟨rd, reads, hsrc, hcase⟩ := readHeader_inv env answer s ev
  have hw (hzero : reads = 0) :
      weight { s with rd := rd } + 3 * rd.packet_length = s.weight := by
    simp only [weight]
    omega
  obtain ⟨-, out, hpos, h⟩ | ⟨hpl, -, hdr, ⟨-, h⟩ | ⟨-, h⟩⟩ := hcase
  · rw [h] at hout hreads ⊢
    have := hw hreads
    have := hpos hout
    dsimp only
    omega
  · rw [h] at hreads ⊢
    have hb := (readBody_weight env answer (noteHeader { s with rd := rd } hdr) reads
      (ev ++ [.examined true hdr.length rd.rbuf.left.length])).1
    have := hw ((readBody_le env answer _ reads _).1.symm.trans hreads)
    rw [show rd.packet_length = 13 from hpl] at this
    change _ ≤ weight { s with rd := rd } + 2 at hb
    omega
  · rw [h] at hreads ⊢
    have := hw hreads
    rw [show rd.packet_length = 13 from hpl] at this
    change weight { s with rd := rd } < _
    omega

theorem pass_weight (hσ : σ.Ready) (hout : (dtls1GetRecordPass env answer σ.conn).out = none)
    (hreads : (dtls1GetRecordPass env answer σ.conn).reads = 0) :
    let p := dtls1GetRecordPass env answer σ.conn
    p.conn.weight < σ.conn.weight := by
  obtain ⟨s, inCall⟩ := σ
  have hbuf := processBuffered_weight env s
  have hcases := processBuffered_cases env s
  generalize hr : dtls1ProcessBufferedRecords env s = r at hbuf hcases
  obtain ⟨ok, s', ev⟩ := r
  cases pass_on env answer hr with
  | failed hpass =>
    rw [hpass] at hout
    cases hout
  | returned _ hpass =>
    rw [hpass] at hout
    cases hout
  | header _ _ hpass =>
    rw [hpass] at hout hreads ⊢
    exact lt_of_lt_of_le (readHeader_weight env answer s' ev hout hreads) hbuf
  | body _ hst' _ hpass =>
    -- A body is pending, so the early records were left alone.
    rw [hpass]
    obtain ⟨t, ht, heq⟩ | ⟨hnil, -, hst⟩ := hcases
    · obtain ⟨-, rfl, -⟩ : true = true ∧ s' = t ∧ ev = [] := by simpa using heq
      obtain ⟨hst, hrd, hrr⟩ : s'.rstate = s.rstate ∧ s'.rd = s.rd ∧ s'.rrec = s.rrec := by
        rcases ht with rfl | rfl <;> exact ⟨rfl, rfl, rfl⟩
      obtain ⟨-, -, -, hlen, hle⟩ := hσ (hst.symm.trans hst')
      dsimp only at hlen hle
      refine lt_of_lt_of_le ((readBody_weight env answer s' 0 ev).2 ?_ ?_) hbuf
      · rw [hrd, hrr]
        exact hlen
      · rw [hrd]
        exact length_pos_iff.mp (by omega)
    · obtain ⟨-, -, -, hlen, hle⟩ := hσ (hst.symm.trans hst')
      rw [hnil, length_nil] at hle
      omega

/-- Passes that follow one another without a return and without the transport being asked. -/
def Sys.Quiet (env : RecordEnv) : Sys → List BioResult → Prop
  | _, [] => True
  | σ, answer :: answers =>
    (dtls1GetRecordPass env answer σ.conn).out = none ∧
      (dtls1GetRecordPass env answer σ.conn).reads = 0 ∧
      Sys.Quiet env (σ.step env (.pass answer)).1 answers

theorem quiet_length_le (env : RecordEnv) : ∀ (answers : List BioResult) (σ : Sys), σ.Ready →
    (∀ e ∈ σ.trace env (answers.map .pass), e.WholeBody) → σ.Quiet env answers →
    answers.length ≤ σ.conn.weight
  | [], _, _, _, _ => Nat.zero_le _
  | answer :: answers, σ, hσ, hwhole, ⟨hout, hreads, hquiet⟩ => by
    have hlt := pass_weight env answer hσ hout hreads
    have hnext := (pass_progress env answer hσ).2 fun e he => hwhole e (mem_append_left _ he)
    have hrest := quiet_length_le env answers _ hnext
      (fun e he => hwhole e (mem_append_right _ he)) hquiet
    exact lt_of_le_of_lt hrest hlt

instance : DecidablePred RecordEvent.WholeBody := fun e => by
  cases e <;> unfold RecordEvent.WholeBody <;> infer_instance

/-- In every run whose headers announce bodies that their datagrams hold, each pass makes progress,
and only so many passes follow one another without a return or asking the transport. -/
theorem getRecord_progress (env : RecordEnv) (rbuf : Ssl3Buffer) (version : ℕ) (big_buffer : Bool)
    (labels : List Label) (answers : List BioResult)
    (hwhole : ∀ e ∈ Sys.trace env ⟨.init rbuf version big_buffer, false⟩
      (labels ++ answers.map .pass), e.WholeBody) :
    (∀ answer, (dtls1GetRecordPass env answer
        (Sys.run env ⟨.init rbuf version big_buffer, false⟩ labels).conn).Progresses
      (Sys.run env ⟨.init rbuf version big_buffer, false⟩ labels).conn) ∧
    (Sys.Quiet env (Sys.run env ⟨.init rbuf version big_buffer, false⟩ labels) answers →
      answers.length ≤
        (Sys.run env ⟨.init rbuf version big_buffer, false⟩ labels).conn.weight) := by
  rw [Sys.trace, Lib.trace_append] at hwhole
  have hready := run_ready env labels _ (fun h => by cases h)
    fun e he => hwhole e (mem_append_left _ he)
  exact ⟨fun answer => (pass_progress env answer hready).1,
    quiet_length_le env answers _ hready fun e he => hwhole e (mem_append_right _ he)⟩

/-- A datagram with one whole handshake record. -/
def wholeDatagram : BioResult := .bytes 22 [0xfe, 0xff, 0, 0, 0, 0, 0, 0, 0, 1, 0, 3, 7, 8, 9]

/-- A datagram that ends two bytes into a record of five. -/
def truncatedDatagram : BioResult := .bytes 22 [0xfe, 0xff, 0, 0, 0, 0, 0, 0, 0, 1, 0, 5, 7, 8]

/-- A run that receives a whole record meets the condition. -/
theorem getRecord_progress_whole :
    let σ : Sys := ⟨.init exampleBuffer 0xfeff false, false⟩
    let s := (σ.run plainEnv [.pass wholeDatagram]).conn
    (∀ e ∈ σ.trace plainEnv ([.pass wholeDatagram] ++ [].map .pass), e.WholeBody) ∧
      ∀ answer, (dtls1GetRecordPass plainEnv answer s).Progresses s := by
  intro σ s
  have hwhole : ∀ e ∈ σ.trace plainEnv ([.pass wholeDatagram] ++ [].map .pass), e.WholeBody := by
    decide +kernel
  exact ⟨hwhole, (getRecord_progress plainEnv exampleBuffer 0xfeff false [.pass wholeDatagram] []
    hwhole).1⟩

/-- After a record whose datagram ends early the call goes through `again` for ever. -/
theorem truncated_record_loops :
    let σ := Sys.run plainEnv ⟨.init exampleBuffer 0xfeff false, false⟩ [.pass truncatedDatagram]
    (∀ answer, ¬ (dtls1GetRecordPass plainEnv answer σ.conn).Progresses σ.conn) ∧
      ∀ answers, Sys.Quiet plainEnv σ answers := by
  intro σ
  -- A pass changes nothing.
  have hfix : ∀ answer, dtls1GetRecordPass plainEnv answer σ.conn = ⟨none, σ.conn, 0, []⟩ :=
    fun _ => rfl
  have hcall : σ.inCall = true := rfl
  have hstep : ∀ answer, (σ.step plainEnv (.pass answer)).1 = σ := by
    intro answer
    simp only [Sys.step, hfix answer, Option.isNone_none]
    rw [← hcall]
  constructor
  · intro answer
    rw [hfix answer]
    simp [Pass.Progresses]
  · intro answers
    induction answers with
    | nil => trivial
    | cons answer answers ih => exact ⟨by rw [hfix], by rw [hfix], by rw [hstep]; exact ih⟩

end VigorTls.Dtls
