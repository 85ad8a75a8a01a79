import Mathlib.Data.List.Nodup
import VigorTls.Dtls.GetRecord

/-!
# Records that arrive before their epoch

A handshake or alert record of the next epoch waits in `unprocessed_rcds`, and
`dtls1_process_buffered_records` opens it.

`dtls1_buffer_record` takes the refusal of an equal number for an internal error, with the comment
that duplicates are dropped before. They are not: putting a record aside does not mark it in
`next_bitmap`, so a second copy passes the replay check, and `dtls1_get_record` returns -1.
`early_duplicates` says that this is the only harm a duplicate does, and exactly when.
-/

namespace VigorTls.Dtls

open Lib List Option

/-- The fields that decide what becomes of a record of the next epoch. -/
structure Core where
  r_epoch : ℕ
  bitmap : Dtls1Bitmap
  next_bitmap : Dtls1Bitmap
  unprocessed_rcds : RecordPqueue
  listen : Bool

def DtlsConn.core (s : DtlsConn) : Core :=
  ⟨s.r_epoch, s.bitmap, s.next_bitmap, s.unprocessed_rcds, s.listen⟩

def numbers (l : List RecordSeq) : Set ℕ := {k | ∃ n ∈ l, n.val = k}

theorem mem_numbers {l : List RecordSeq} {n : RecordSeq} : n.val ∈ numbers l ↔ n ∈ l := by
  constructor
  · rintro ⟨m, hm, hmn⟩
    rwa [← RecordSeq.val_injective hmn]
  · exact fun hn => ⟨n, hn, rfl⟩

theorem numbers_append (l : List RecordSeq) (n : RecordSeq) :
    numbers (l ++ [n]) = insert n.val (numbers l) := by
  ext k
  simp [numbers, or_and_right, exists_or, or_comm, eq_comm]

theorem bitmap_zero_holds : Dtls1Bitmap.zero.Holds (numbers []) := by
  have hempty : numbers [] = ∅ := by simp [numbers]
  rw [hempty]
  exact ⟨by simp, tracks_zero _⟩

theorem RecordSeq.bytes_injective {m n : RecordSeq} (h : m.bytes = n.bytes) : m = n := by
  obtain ⟨v, hv⟩ := m
  obtain ⟨u, hu⟩ := n
  obtain rfl : v = u := h
  rfl

variable {item : Pitem Dtls1RecordData}

theorem exists_priority_of_insert_eq_none {q : Pqueue Dtls1RecordData}
    (h : pqueueInsert q item = none) : ∃ x ∈ q, x.priority = item.priority := by
  cases hfind : pqueueFind q item.priority with
  | none =>
    obtain ⟨q', hins, -⟩ := pqueueFind_insert hfind
    rw [h] at hins
    cases hins
  | some x => exact ⟨x, pqueueFind_some hfind⟩

/-- The number of the record, if a round opens it. -/
def roundOpened (env : RecordEnv) (s : DtlsConn) : List RecordSeq :=
  match dtls1GetBitmap s s.rrec with
  | none => []
  | some ref =>
    if dtls1RecordReplayCheck env.wide s.read_sequence (s.bitmapAt ref) &&
        (dtls1ProcessRecord env { s with rrec.seq_num := s.read_sequence } ref).1 then
      [s.read_sequence]
    else []

/-- The numbers of the records that the loop opens. -/
def pendingOpened (env : RecordEnv) : ℕ → DtlsConn → List RecordSeq
  | 0, _ => []
  | rounds + 1, s =>
    match dtls1RetrieveBufferedRecord s .unprocessed with
    | none => []
    | some s =>
      roundOpened env s ++
        if (pendingRound env s).1 then pendingOpened env rounds (pendingRound env s).2.1 else []

variable (env : RecordEnv) (answer : BioResult)
variable {s : DtlsConn}

/-- A round leaves the record unopened, and stops only at one of another epoch; or it opens the
record, which passed the check, and stops only if a processed one has its number. -/
theorem pendingRound_effect (hepoch : s.unprocessed_rcds.epoch = s.r_epoch) :
    let r := pendingRound env s
    (roundOpened env s = [] ∧ r.2.1.core = s.core ∧
        r.2.1.processed_rcds = s.processed_rcds ∧
        (r.1 = false → s.rrec.epoch ≠ s.r_epoch)) ∨
      (roundOpened env s = [s.read_sequence] ∧
        dtls1RecordReplayCheck env.wide s.read_sequence s.bitmap = true ∧
        r.2.1.core = { s.core with
          bitmap := dtls1RecordBitmapUpdate env.wide s.read_sequence s.bitmap } ∧
        (∀ item ∈ r.2.1.processed_rcds.q,
          item ∈ s.processed_rcds.q ∨ item.priority = s.read_sequence.bytes) ∧
        (r.1 = false →
          ∃ item ∈ s.processed_rcds.q, item.priority = s.read_sequence.bytes)) := by
  unfold roundOpened pendingRound dtls1GetBitmap
  by_cases hcur : s.rrec.epoch = s.r_epoch
  · rw [if_pos hcur]
    dsimp only
    cases hcheck : dtls1RecordReplayCheck env.wide s.read_sequence (s.bitmapAt .current) with
    | false => exact .inl ⟨rfl, rfl, rfl, nofun⟩
    | true =>
      obtain ⟨alerts, h | ⟨data, h⟩⟩ :=
        dtls1ProcessRecord_cases env { s with rrec.seq_num := s.read_sequence } .current
      · rw [h]
        exact .inl ⟨rfl, rfl, rfl, nofun⟩
      rw [h]
      right
      dsimp only
      generalize hs2 : DtlsConn.setBitmap _ _ _ = s₂
      have hcore : s₂.core = { s.core with
        bitmap := dtls1RecordBitmapUpdate env.wide s.read_sequence s.bitmap } := by rw [← hs2]; rfl
      have hproc : s₂.processed_rcds = s.processed_rcds := by rw [← hs2]; rfl
      have hseq : s₂.rrec.seq_num = s.read_sequence := by rw [← hs2]; rfl
      rw [hseq, ← hproc]
      rcases dtls1BufferRecord_cases s₂ .processed s.read_sequence with
        ⟨-, hb⟩ | ⟨-, hnone, hb⟩ | ⟨-, q, hq, hb⟩
      · rw [hb]
        exact ⟨rfl, hcheck, hcore, fun item hi => .inl hi, nofun⟩
      · rw [hb]
        exact ⟨rfl, hcheck, hcore, fun item hi => .inl hi,
          fun _ => exists_priority_of_insert_eq_none hnone⟩
      · rw [hb]
        refine ⟨rfl, hcheck, hcore, fun item hi => ?_, nofun⟩
        rcases mem_cons.mp ((pqueueInsert_perm hq).mem_iff.mp hi) with rfl | hi
        · exact .inr rfl
        · exact .inl hi
  · -- The queue is of this epoch, so no record counts as one of the next.
    rw [if_neg hcur, if_neg (fun h => h.2.1 hepoch)]
    exact .inl ⟨rfl, rfl, rfl, fun _ => hcur⟩

/-- What rounds of the loop that open `new` do to a connection whose window holds `done`; `ok` if
not stopped. -/
structure PendingEffect (s s' : DtlsConn) (done new : List RecordSeq) (ok : Bool) : Prop where
  r_epoch : s'.r_epoch = s.r_epoch
  next_bitmap : s'.next_bitmap = s.next_bitmap
  listen : s'.listen = s.listen
  epoch : s'.unprocessed_rcds.epoch = s.unprocessed_rcds.epoch
  /-- Records are only taken from the front of the queue. -/
  queue : s'.unprocessed_rcds.q <:+ s.unprocessed_rcds.q
  /-- What joins the other queue was opened. -/
  processed : ∀ item ∈ s'.processed_rcds.q,
    item ∈ s.processed_rcds.q ∨ ∃ n ∈ new, item.priority = n.bytes
  holds : s'.bitmap.Holds (numbers (done ++ new))
  once : done.Nodup → (done ++ new).Nodup
  /-- The loop stops only because of a record of another epoch, in either queue. -/
  failed : ok = false → (∃ item ∈ s.unprocessed_rcds.q, item.data.rrec.epoch ≠ s.r_epoch) ∨
    ∃ item ∈ s.processed_rcds.q, ∀ n ∈ done, item.priority ≠ n.bytes

namespace PendingEffect

variable {s₁ s₂ : DtlsConn} {done new₁ new₂ : List RecordSeq} {ok : Bool}

theorem refl (h : s.bitmap.Holds (numbers done)) : PendingEffect s s done [] true where
  r_epoch := rfl
  next_bitmap := rfl
  listen := rfl
  epoch := rfl
  queue := suffix_refl _
  processed := fun _ hi => .inl hi
  holds := by rwa [append_nil]
  once := fun hn => by rwa [append_nil]
  failed := nofun

theorem trans (h1 : PendingEffect s s₁ done new₁ true)
    (h2 : PendingEffect s₁ s₂ (done ++ new₁) new₂ ok) :
    PendingEffect s s₂ done (new₁ ++ new₂) ok where
  r_epoch := h2.r_epoch.trans h1.r_epoch
  next_bitmap := h2.next_bitmap.trans h1.next_bitmap
  listen := h2.listen.trans h1.listen
  epoch := h2.epoch.trans h1.epoch
  queue := h2.queue.trans h1.queue
  processed := fun item hi => by
    rcases h2.processed item hi with hi | ⟨n, hn, hprio⟩
    · rcases h1.processed item hi with hi | ⟨n, hn, hprio⟩
      · exact .inl hi
      · exact .inr ⟨n, mem_append_left _ hn, hprio⟩
    · exact .inr ⟨n, mem_append_right _ hn, hprio⟩
  holds := by
    rw [← append_assoc]
    exact h2.holds
  once := fun hn => by
    rw [← append_assoc]
    exact h2.once (h1.once hn)
  failed := fun hok => by
    rcases h2.failed hok with ⟨item, hi, hne⟩ | ⟨item, hi, hne⟩
    · exact .inl ⟨item, h1.queue.mem hi, by rwa [← h1.r_epoch]⟩
    · -- It is not one that these rounds put there.
      rcases h1.processed item hi with hi | ⟨n, hn, hprio⟩
      · exact .inr ⟨item, hi, fun m hm => hne m (mem_append_left _ hm)⟩
      · exact absurd hprio (hne n (mem_append_right _ hn))

end PendingEffect

theorem pendingRound_pending {done : List RecordSeq} {rest : Pqueue Dtls1RecordData}
    (hq : s.unprocessed_rcds.q = item :: rest) (hepoch : s.unprocessed_rcds.epoch = s.r_epoch)
    (hholds : s.bitmap.Holds (numbers done)) :
    let s₁ := dtls1CopyRecord (s.setQueue rest .unprocessed) item.data
    PendingEffect s (pendingRound env s₁).2.1 done (roundOpened env s₁)
      (pendingRound env s₁).1 := by
  dsimp only
  generalize hs1 : dtls1CopyRecord (s.setQueue rest .unprocessed) item.data = s₁
  have hcore1 : s₁.core =
      { s.core with unprocessed_rcds := { s.unprocessed_rcds with q := rest } } := by
    rw [← hs1]
    rfl
  have hproc1 : s₁.processed_rcds = s.processed_rcds := by rw [← hs1]; rfl
  have hrec1 : s₁.rrec = item.data.rrec := by rw [← hs1]; rfl
  have hr1 : s₁.r_epoch = s.r_epoch := congrArg Core.r_epoch hcore1
  have hu1 : s₁.unprocessed_rcds = { s.unprocessed_rcds with q := rest } :=
    congrArg Core.unprocessed_rcds hcore1
  have hb1 : s₁.bitmap = s.bitmap := congrArg Core.bitmap hcore1
  have heffect := pendingRound_effect env (s := s₁) (by rw [hu1, hr1]; exact hepoch)
  generalize roundOpened env s₁ = opened at *
  generalize pendingRound env s₁ = r at *
  obtain ⟨ok, s₂, ev⟩ := r
  rw [hcore1, hproc1] at heffect
  -- Either way the record is taken from the queue, and only the window can change.
  have hmk {bitmap : Dtls1Bitmap} (hcore : s₂.core = { s.core with
      unprocessed_rcds := { s.unprocessed_rcds with q := rest }, bitmap := bitmap })
      (hproc : ∀ x ∈ s₂.processed_rcds.q,
        x ∈ s.processed_rcds.q ∨ ∃ n ∈ opened, x.priority = n.bytes)
      (hholds : bitmap.Holds (numbers (done ++ opened)))
      (honce : done.Nodup → (done ++ opened).Nodup)
      (hfailed : ok = false → (∃ x ∈ s.unprocessed_rcds.q, x.data.rrec.epoch ≠ s.r_epoch) ∨
        ∃ x ∈ s.processed_rcds.q, ∀ n ∈ done, x.priority ≠ n.bytes) :
      PendingEffect s s₂ done opened ok := by
    refine ⟨congrArg Core.r_epoch hcore, congrArg Core.next_bitmap hcore,
      congrArg Core.listen hcore, congrArg (·.unprocessed_rcds.epoch) hcore, ?_, hproc, ?_, honce,
      hfailed⟩
    · rw [show s₂.unprocessed_rcds = _ from congrArg Core.unprocessed_rcds hcore, hq]
      exact suffix_cons item rest
    · rwa [show s₂.bitmap = _ from congrArg Core.bitmap hcore]
  rcases heffect with ⟨hopened, hcore, hproc, hstop⟩ | ⟨hopened, hcheck, hcore, hproc, hstop⟩
  · refine hmk hcore (fun x hx => .inl (hproc ▸ hx)) ?_ ?_ fun hok => .inl ⟨item, ?_, ?_⟩
    · rwa [hopened, append_nil]
    · rw [hopened, append_nil]
      exact id
    · rw [hq]
      exact mem_cons_self
    · rw [← hrec1, ← hr1]
      exact hstop hok
  -- The check found the number unmarked.
  rw [hb1] at hcheck hcore
  have hnew : s₁.read_sequence ∉ done := fun hmem =>
    ((replayCheck_iff env.wide hholds _).mp hcheck).1 (mem_numbers.mpr hmem)
  rw [hopened] at hmk ⊢
  refine hmk hcore (fun x hx => ?_) ?_ ?_ fun hok => ?_
  · exact (hproc x hx).imp_right fun hprio => ⟨_, mem_singleton_self _, hprio⟩
  · rw [numbers_append]
    exact bitmapUpdate_holds env.wide hholds _
  · exact fun hn => nodup_append_comm.mp (nodup_cons.mpr ⟨hnew, hn⟩)
  · obtain ⟨x, hx, hprio⟩ := hstop hok
    refine .inr ⟨x, hx, fun n hn heq => hnew ?_⟩
    rwa [← RecordSeq.bytes_injective (hprio.symm.trans heq)] at hn

theorem processPending_pending (env : RecordEnv) : ∀ (rounds : ℕ) (s : DtlsConn)
    (done : List RecordSeq), s.unprocessed_rcds.epoch = s.r_epoch →
    s.bitmap.Holds (numbers done) →
    PendingEffect s (processPending env rounds s).2.1 done (pendingOpened env rounds s)
      (processPending env rounds s).1
  | 0, s, done, _, hholds => .refl hholds
  | rounds + 1, s, done, hepoch, hholds => by
    cases hq : s.unprocessed_rcds.q with
    | nil =>
      have hnone : dtls1RetrieveBufferedRecord s .unprocessed = none := by
        simp only [dtls1RetrieveBufferedRecord, DtlsConn.queue, hq]
      rw [processPending, pendingOpened, hnone]
      exact .refl hholds
    | cons item rest =>
      have hsome : dtls1RetrieveBufferedRecord s .unprocessed =
          some (dtls1CopyRecord (s.setQueue rest .unprocessed) item.data) := by
        simp only [dtls1RetrieveBufferedRecord, DtlsConn.queue, hq]
      rw [processPending, pendingOpened, hsome]
      have hround := pendingRound_pending env hq hepoch hholds
      dsimp only at hround ⊢
      generalize pendingRound env _ = r at hround ⊢
      obtain ⟨_ | _, t, ev⟩ := r
      · simpa using hround
      · refine hround.trans (processPending_pending env rounds t _ ?_ hround.holds)
        rw [hround.epoch, hround.r_epoch]
        exact hepoch

/-- The connection with the body of its record read, if it is there. -/
def fetchedBody (s : DtlsConn) (reads : ℕ) : Option DtlsConn :=
  if s.rd.packet_length - dtls1RtHeaderLength < s.rrec.length then
    match ssl3ReadN (dgramRead answer) dtlsMode s.rrec.length s.rrec.length true s.rd reads with
    | (n, rd, _) => if n ≠ s.rrec.length then none else some { s with rd := rd }
  else some s

/-- The connection with a record read, header and body. -/
def fetchedRecord (s : DtlsConn) : Option DtlsConn :=
  match ssl3ReadN (dgramRead answer) dtlsMode dtls1RtHeaderLength s.rd.rbuf.len false s.rd 0 with
  | (n, rd, reads) =>
    if n ≤ 0 then none
    else if rd.packet_length ≠ dtls1RtHeaderLength then none
    else
      match parseRecordHeader rd.packet with
      | none => none
      | some h =>
        if headerPasses { s with rd := rd } h then
          fetchedBody answer (noteHeader { s with rd := rd } h) reads
        else none

/-- The connection where a pass has a complete record. -/
def fetched (s : DtlsConn) : Option DtlsConn :=
  match dtls1ProcessBufferedRecords env s with
  | (false, _, _) => none
  | (true, s, _) =>
    match dtls1RetrieveBufferedRecord s .processed with
    | some _ => none
    | none =>
      if s.rstate ≠ .body ∨ s.rd.packet_length < dtls1RtHeaderLength then fetchedRecord answer s
      else fetchedBody answer s 0

/-- How a pass goes on: with a record, or without one and without touching these fields. -/
def Goes (s : DtlsConn) (got : Option DtlsConn) (p : Pass) : Prop :=
  (got = none ∧ p.conn.core = s.core) ∨
    ∃ s₁ reads ev, got = some s₁ ∧ s₁.core = s.core ∧ p = examineRecord env s₁ reads ev

theorem readBody_goes (s : DtlsConn) (reads : ℕ) (ev : List RecordEvent) :
    Goes env s (fetchedBody answer s reads) (readBody env answer s reads ev) := by
  unfold fetchedBody readBody
  dsimp only
  split_ifs
  · exact .inl ⟨rfl, rfl⟩
  · exact .inr ⟨_, _, _, rfl, rfl, rfl⟩
  · exact .inr ⟨_, _, _, rfl, rfl, rfl⟩

theorem readHeader_goes (s : DtlsConn) (ev : List RecordEvent) :
    Goes env s (fetchedRecord answer s) (readHeader env answer s 0 ev) := by
  unfold fetchedRecord readHeader
  rcases ssl3ReadN (dgramRead answer) dtlsMode dtls1RtHeaderLength s.rd.rbuf.len false s.rd 0 with
    ⟨n, rd, reads⟩
  dsimp only
  cases parseRecordHeader rd.packet with
  | none => split_ifs <;> exact .inl ⟨rfl, rfl⟩
  | some h =>
    dsimp only
    split_ifs
    · exact .inl ⟨rfl, rfl⟩
    · exact .inl ⟨rfl, rfl⟩
    · exact readBody_goes env answer _ reads _
    · exact .inl ⟨rfl, rfl⟩

theorem pass_goes (s : DtlsConn) :
    Goes env (dtls1ProcessBufferedRecords env s).2.1 (fetched env answer s)
      (dtls1GetRecordPass env answer s) := by
  unfold fetched dtls1GetRecordPass
  rcases dtls1ProcessBufferedRecords env s with ⟨_ | _, s', ev⟩
  · exact .inl ⟨rfl, rfl⟩
  dsimp only
  cases hret : dtls1RetrieveBufferedRecord s' .processed with
  | some s'' =>
    refine .inl ⟨rfl, ?_⟩
    unfold dtls1RetrieveBufferedRecord at hret
    split at hret
    · cases hret
    · cases hret
      rfl
  | none =>
    split_ifs
    · exact readHeader_goes env answer s' ev
    · exact readBody_goes env answer s' 0 ev

/-- The record is one of the next epoch that is to be put aside. -/
def isEarly (s : DtlsConn) : Bool :=
  decide (dtls1GetBitmap s s.rrec = some .next) && !replayed env .next s &&
    s.rrec.length != 0 && ((s.in_init || s.in_handshake != 0) && !s.listen)

/-- The record is put aside: the queue is not full and does not have its number. -/
def putsAside (s : DtlsConn) : Bool :=
  isEarly env s && decide (pqueueSize s.unprocessed_rcds.q < 100) &&
    (pqueueFind s.unprocessed_rcds.q s.read_sequence.bytes).isNone

def opensNow (s : DtlsConn) : Bool :=
  decide (dtls1GetBitmap s s.rrec = some .current) && !replayed env .current s &&
    s.rrec.length != 0 &&
    (dtls1ProcessRecord env (numberRecord { s with rstate := .header }) .current).1

/-- What `dtls1_get_record` does with a complete record. -/
inductive Fate (s : DtlsConn) (p : Pass) : Prop
  | dropped (hearly : isEarly env s = false) (hopens : opensNow env s = false)
      (hcore : p.conn.core = s.core) (hout : p.out ≠ some (-1))
  /-- It is opened, after the check or while listening. -/
  | opened (hearly : isEarly env s = false) (hopens : opensNow env s = true)
      (hcheck : s.listen = false →
        dtls1RecordReplayCheck env.wide s.read_sequence s.bitmap = true)
      (hcore : p.conn.core = { s.core with
        bitmap := dtls1RecordBitmapUpdate env.wide s.read_sequence s.bitmap })
      (hout : p.out = some 1)
  /-- It is early, and the queue is full. -/
  | full (hearly : isEarly env s = true) (hopens : opensNow env s = false)
      (hsize : 100 ≤ pqueueSize s.unprocessed_rcds.q) (hcore : p.conn.core = s.core)
      (hout : p.out = none)
  /-- It is early, and the queue refuses it. -/
  | refused (hearly : isEarly env s = true) (hopens : opensNow env s = false)
      (hsize : pqueueSize s.unprocessed_rcds.q < 100) (data : Dtls1RecordData)
      (hinsert : pqueueInsert s.unprocessed_rcds.q ⟨s.read_sequence.bytes, data⟩ = none)
      (hcore : p.conn.core = s.core) (hout : p.out = some (-1))
  | kept (hearly : isEarly env s = true) (hopens : opensNow env s = false)
      (hsize : pqueueSize s.unprocessed_rcds.q < 100) (data : Dtls1RecordData)
      (hseq : data.rrec.seq_num = s.read_sequence) (q : Pqueue Dtls1RecordData)
      (hinsert : pqueueInsert s.unprocessed_rcds.q ⟨s.read_sequence.bytes, data⟩ = some q)
      (hcore : p.conn.core =
        { s.core with unprocessed_rcds := { s.unprocessed_rcds with q := q } })
      (hout : p.out = none)

theorem numberRecord_core (s : DtlsConn) :
    let r := numberRecord s
    r.core = s.core ∧
    r.read_sequence = s.read_sequence ∧
    r.rrec.length = s.rrec.length ∧ r.in_init = s.in_init ∧
    r.in_handshake = s.in_handshake := by
  unfold numberRecord
  split <;> exact ⟨rfl, rfl, rfl, rfl, rfl⟩

theorem acceptRecord_next_fate (s : DtlsConn) (reads : ℕ) (ev : List RecordEvent)
    (hnext : dtls1GetBitmap s s.rrec = some .next) (hreplay : replayed env .next s = false) :
    Fate env s (acceptRecord env .next (numberRecord { s with rstate := .header }) reads ev) := by
  have hopens : opensNow env s = false := by simp [opensNow, hnext]
  obtain ⟨hcore, -, hlength, hinit, hhand⟩ := numberRecord_core { s with rstate := .header }
  unfold acceptRecord
  by_cases hzero : s.rrec.length = 0
  · rw [if_pos (hlength.trans hzero)]
    exact .dropped (by simp [isEarly, hzero]) hopens hcore (by simp)
  rw [if_neg (hlength ▸ hzero)]
  cases hwants : (s.in_init || s.in_handshake != 0) && !s.listen with
  | false =>
    have hlisten : (numberRecord { s with rstate := .header }).listen = s.listen :=
      congrArg Core.listen hcore
    rw [hinit, hhand, hlisten, if_neg (hwants ▸ Bool.false_ne_true)]
    exact .dropped (by simp [isEarly, hwants]) hopens hcore (by simp)
  | true =>
    -- The connection is not listening, so the record is numbered.
    have hlisten : s.listen = false := by
      rw [Bool.and_eq_true, Bool.not_eq_true'] at hwants
      exact hwants.2
    have hnumber : numberRecord { s with rstate := .header } =
        { s with rstate := .header, rrec := { s.rrec with seq_num := s.read_sequence } } := by
      unfold numberRecord
      rw [if_neg (by simp [listeningHello, hlisten])]
    have hearly : isEarly env s = true := by simp [isEarly, hnext, hreplay, hzero, hwants]
    rw [hnumber]
    rw [if_pos hwants]
    rcases dtls1BufferRecord_cases { s with
        rstate := .header, rrec := { s.rrec with seq_num := s.read_sequence } } .unprocessed
        s.read_sequence with ⟨hsize, hb⟩ | ⟨hsize, hq, hb⟩ | ⟨hsize, q, hq, hb⟩
    · rw [hb]
      exact .full hearly hopens hsize rfl rfl
    · rw [hb]
      exact .refused hearly hopens hsize _ hq rfl rfl
    · rw [hb]
      exact .kept hearly hopens hsize _ rfl q hq rfl rfl

theorem acceptRecord_current_fate (s : DtlsConn) (reads : ℕ) (ev : List RecordEvent)
    (hcurrent : dtls1GetBitmap s s.rrec = some .current)
    (hreplay : replayed env .current s = false) :
    Fate env s
      (acceptRecord env .current (numberRecord { s with rstate := .header }) reads ev) := by
  have hearly : isEarly env s = false := by simp [isEarly, hcurrent]
  obtain ⟨hcore, hseq, hlength, -, -⟩ := numberRecord_core { s with rstate := .header }
  unfold acceptRecord
  by_cases hzero : s.rrec.length = 0
  · rw [if_pos (hlength.trans hzero)]
    exact .dropped hearly (by simp [opensNow, hzero]) hcore (by simp)
  rw [if_neg (hlength ▸ hzero)]
  have hopens : opensNow env s =
      (dtls1ProcessRecord env (numberRecord { s with rstate := .header }) .current).1 := by
    simp [opensNow, hcurrent, hreplay, hzero]
  generalize numberRecord { s with rstate := .header } = s₁ at *
  obtain ⟨alerts, h | ⟨data, h⟩⟩ := dtls1ProcessRecord_cases env s₁ .current
  · rw [h] at hopens ⊢
    exact .dropped hearly hopens hcore (by simp)
  rw [h] at hopens ⊢
  refine .opened hearly hopens (fun hlisten => ?_) ?_ rfl
  · simpa [replayed, listeningHello, hlisten, DtlsConn.bitmapAt] using hreplay
  · change
      { s₁.core with bitmap := dtls1RecordBitmapUpdate env.wide s₁.read_sequence s₁.bitmap } = _
    rw [hcore, hseq, show s₁.bitmap = s.bitmap from congrArg Core.bitmap hcore]
    rfl

theorem examineRecord_fate (s : DtlsConn) (reads : ℕ) (ev : List RecordEvent) :
    Fate env s (examineRecord env s reads ev) := by
  unfold examineRecord
  dsimp only
  have hsame : dtls1GetBitmap { s with rstate := .header } s.rrec = dtls1GetBitmap s s.rrec := rfl
  rw [hsame]
  cases href : dtls1GetBitmap s s.rrec with
  | none => exact .dropped (by simp [isEarly, href]) (by simp [opensNow, href]) rfl (by simp)
  | some ref =>
    dsimp only
    have hsame : replayed env ref { s with rstate := .header } = replayed env ref s := by
      cases ref <;> rfl
    rw [hsame]
    cases hreplay : replayed env ref s with
    | true =>
      refine .dropped ?_ ?_ rfl (by simp)
      · cases ref <;> simp [isEarly, href, hreplay]
      · cases ref <;> simp [opensNow, href, hreplay]
    | false =>
      cases ref with
      | next => exact acceptRecord_next_fate env s reads ev href hreplay
      | current => exact acceptRecord_current_fate env s reads ev href hreplay

/-- A connection with what has happened to the records of this epoch and the next. -/
structure Hist where
  sys : Sys
  /-- The records of the next epoch that were put aside, since the epoch began. -/
  early : List RecordSeq
  /-- The records of this epoch that were put aside before it began. -/
  kept : List RecordSeq
  /-- The records that were opened, since the epoch began. -/
  opened : List RecordSeq

def bufferedOpened (s : DtlsConn) : List RecordSeq :=
  if s.unprocessed_rcds.epoch = s.r_epoch ∧ s.rd.rbuf.left = [] then
    pendingOpened env s.unprocessed_rcds.q.length s
  else []

/-- The record that a pass puts aside, if it does. -/
def passEarly (s : DtlsConn) : List RecordSeq :=
  match fetched env answer s with
  | some s₁ => if putsAside env s₁ then [s₁.read_sequence] else []
  | none => []

def passOpened (s : DtlsConn) : List RecordSeq :=
  bufferedOpened env s ++
    match fetched env answer s with
    | some s₁ => if opensNow env s₁ then [s₁.read_sequence] else []
    | none => []

/-- A step of a connection. While listening no ChangeCipherSpec is taken, and only `DTLSv1_listen`
starts to listen. -/
def Hist.step (h : Hist) : Label → Hist
  | .pass answer =>
    { sys := (h.sys.step env (.pass answer)).1
      early := h.early ++ passEarly env answer h.sys.conn
      kept := h.kept
      opened := h.opened ++ passOpened env answer h.sys.conn }
  | .op .newEpoch =>
    if h.sys.inCall || h.sys.conn.listen then h
    else ⟨(h.sys.step env (.op .newEpoch)).1, [], h.early, []⟩
  | .op (.control first_packet version in_init in_handshake listen) =>
    { h with sys := (h.sys.step env (.op (.control first_packet version in_init in_handshake
        (h.sys.conn.listen && listen)))).1 }
  | .op o => { h with sys := (h.sys.step env (.op o)).1 }

def Hist.init (rbuf : Ssl3Buffer) (version : ℕ) (big_buffer listen : Bool) : Hist :=
  ⟨⟨{ DtlsConn.init rbuf version big_buffer with listen := listen }, false⟩, [], [], []⟩

structure Tracked (c : Core) (early kept opened : List RecordSeq) : Prop where
  /-- The window holds what was opened. -/
  current : c.bitmap.Holds (numbers opened)
  /-- Nothing is marked for the next epoch. -/
  next : c.next_bitmap = .zero
  sorted : Pqueue.Sorted c.unprocessed_rcds.q
  /-- The priority of an item is its number. -/
  numbered : ∀ item ∈ c.unprocessed_rcds.q, item.priority = item.data.rrec.seq_num.bytes
  /-- What was put aside is still there. -/
  there : ∀ n ∈ early, ∃ item ∈ c.unprocessed_rcds.q, item.priority = n.bytes
  /-- The loop does not run before the epoch changes. -/
  waits : early ≠ [] → c.unprocessed_rcds.epoch ≠ c.r_epoch
  /-- Listening is over when an epoch has changed. -/
  listening : c.listen = true → kept = []
  once : kept ≠ [] → opened.Nodup

def Hist.Tracked (h : Hist) : Prop := Dtls.Tracked h.sys.conn.core h.early h.kept h.opened

theorem Hist.init_tracked (rbuf : Ssl3Buffer) (version : ℕ) (big_buffer listen : Bool) :
    (Hist.init rbuf version big_buffer listen).Tracked where
  current := bitmap_zero_holds
  next := rfl
  sorted := List.Pairwise.nil
  numbered := fun _ hi => by cases hi
  there := fun _ hn => by cases hn
  waits := fun h => absurd rfl h
  listening := fun _ => rfl
  once := fun h => absurd rfl h

variable {kept opened : List RecordSeq}

theorem Tracked.drain {c c' : Core} {opened' : List RecordSeq} (h : Tracked c [] kept opened)
    (hnext : c'.next_bitmap = c.next_bitmap) (hlisten : c'.listen = c.listen)
    (hqueue : c'.unprocessed_rcds.q <:+ c.unprocessed_rcds.q)
    (hholds : c'.bitmap.Holds (numbers opened')) (honce : opened.Nodup → opened'.Nodup) :
    Tracked c' [] kept opened' where
  current := hholds
  next := hnext.trans h.next
  sorted := List.Pairwise.sublist hqueue.sublist h.sorted
  numbered := fun item hi => h.numbered item (hqueue.mem hi)
  there := fun _ hn => by cases hn
  waits := fun hne => absurd rfl hne
  listening := fun hl => h.listening (hlisten ▸ hl)
  once := fun hkept => honce (h.once hkept)

variable {early : List RecordSeq}

/-- What is opened is opened once, and it fails only because of a record of another epoch in a
queue. -/
theorem processBuffered_tracked (h : Tracked s.core early kept opened) :
    Tracked (dtls1ProcessBufferedRecords env s).2.1.core early kept
        (opened ++ bufferedOpened env s) ∧
      ((dtls1ProcessBufferedRecords env s).1 = false →
        (∃ item ∈ s.unprocessed_rcds.q, item.data.rrec.epoch ≠ s.r_epoch) ∨
          ∃ item ∈ s.processed_rcds.q, ∀ n ∈ opened, item.priority ≠ n.bytes) := by
  unfold bufferedOpened
  obtain ⟨hq, hrun⟩ | ⟨-, hwait, hrun⟩ | ⟨-, hepoch, hleft, ok, s', ev, hpend, hrun⟩ :=
    processBuffered_inv env s
  · -- Nothing is there, so nothing was put aside, and the epochs of the queues move on.
    have hearly : early = [] := by
      refine eq_nil_iff_forall_not_mem.mpr fun n hn => ?_
      obtain ⟨item, hi, -⟩ := h.there n hn
      rw [show s.core.unprocessed_rcds.q = [] from hq] at hi
      cases hi
    subst hearly
    rw [hrun, hq, length_nil, pendingOpened, ite_self, append_nil]
    exact ⟨h.drain rfl rfl (suffix_refl _) h.current id, nofun⟩
  · rw [hrun, if_neg fun hc => hwait.elim (· hc.1) (· hc.2), append_nil]
    exact ⟨h, nofun⟩
  have hearly : early = [] := by
    by_contra hne
    exact h.waits hne hepoch
  subst hearly
  have heffect := processPending_pending env s.unprocessed_rcds.q.length s opened hepoch h.current
  rw [hpend] at heffect
  rw [if_pos ⟨hepoch, hleft⟩, hrun]
  refine ⟨h.drain ?_ ?_ ?_ ?_ heffect.once, heffect.failed⟩
  · cases ok <;> exact heffect.next_bitmap
  · cases ok <;> exact heffect.listen
  · cases ok <;> exact heffect.queue
  · cases ok <;> exact heffect.holds

theorem pqueueFind_isNone_iff (q : Pqueue Dtls1RecordData) (priority : Seq64) :
    (pqueueFind q priority).isNone = true ↔ ∀ x ∈ q, x.priority ≠ priority := by
  rw [isNone_iff_eq_none, pqueueFind, find?_eq_none]
  simp [memcmp_priority_eq_iff]

theorem isEarly_epoch {env : RecordEnv} (h : isEarly env s = true) :
    s.unprocessed_rcds.epoch ≠ s.r_epoch := by
  simp only [isEarly, Bool.and_eq_true] at h
  have hnext := of_decide_eq_true h.1.1.1
  unfold dtls1GetBitmap at hnext
  split_ifs at hnext with _ hcond
  · cases hnext
  · exact hcond.2.1

theorem Fate.tracked {env : RecordEnv} {p : Pass} (hfate : Fate env s p)
    (h : Tracked s.core early kept opened) :
    Tracked p.conn.core (early ++ if putsAside env s then [s.read_sequence] else []) kept
      (opened ++ if opensNow env s then [s.read_sequence] else []) := by
  cases hfate with
  | dropped hearly hopens hcore hout =>
    rw [hcore, hopens, show putsAside env s = false by simp [putsAside, hearly]]
    simpa using h
  | opened hearly hopens hcheck hcore hout =>
    rw [hcore, hopens, show putsAside env s = false by simp [putsAside, hearly]]
    simp only [if_true, Bool.false_eq_true, if_false, append_nil]
    refine { h with current := ?_, once := fun hkept => ?_ }
    · rw [numbers_append]
      exact bitmapUpdate_holds env.wide h.current _
    -- The connection does not listen any more, so the record passed the check.
    have hlisten : s.listen = false := Bool.eq_false_iff.mpr fun hl => hkept (h.listening hl)
    have hpass := (replayCheck_iff env.wide h.current _).mp (hcheck hlisten)
    have hnew : s.read_sequence ∉ opened := fun hmem => hpass.1 (mem_numbers.mpr hmem)
    exact nodup_append_comm.mp (nodup_cons.mpr ⟨hnew, h.once hkept⟩)
  | full hearly hopens hsize hcore hout =>
    rw [hcore, hopens, show putsAside env s = false by simp [putsAside, hsize]]
    simpa using h
  | refused hearly hopens hsize data hinsert hcore hout =>
    obtain ⟨x, hx, hprio⟩ := exists_priority_of_insert_eq_none hinsert
    have hfind : (pqueueFind s.unprocessed_rcds.q s.read_sequence.bytes).isNone = false :=
      Bool.eq_false_iff.mpr fun hnone => (pqueueFind_isNone_iff _ _).mp hnone x hx hprio
    rw [hcore, hopens, show putsAside env s = false by simp [putsAside, hfind]]
    simpa using h
  | kept hearly hopens hsize data hseq q hinsert hcore hout =>
    have hperm := pqueueInsert_perm hinsert
    have hfind : (pqueueFind s.unprocessed_rcds.q s.read_sequence.bytes).isNone = true := by
      refine (pqueueFind_isNone_iff _ _).mpr fun x hx hprio => ?_
      have hnone := (h.sorted.insert_eq_none_iff ⟨s.read_sequence.bytes, data⟩).mpr ⟨x, hx, hprio⟩
      rw [show s.core.unprocessed_rcds.q = s.unprocessed_rcds.q from rfl, hinsert] at hnone
      cases hnone
    rw [hcore, hopens, show putsAside env s = true by simp [putsAside, hearly, hsize, hfind]]
    simp only [Bool.false_eq_true, if_false, append_nil]
    exact { h with
      sorted := h.sorted.insert hinsert
      numbered := fun item hi => by
        rcases mem_cons.mp (hperm.mem_iff.mp hi) with rfl | hi
        · exact congrArg RecordSeq.bytes hseq.symm
        · exact h.numbered item hi
      there := fun n hn => by
        rcases mem_append.mp hn with hn | hn
        · obtain ⟨item, hi, hprio⟩ := h.there n hn
          exact ⟨item, hperm.mem_iff.mpr (mem_cons_of_mem _ hi), hprio⟩
        · rw [mem_singleton.mp hn]
          exact ⟨_, hperm.mem_iff.mpr mem_cons_self, rfl⟩
      waits := fun _ => isEarly_epoch hearly }

theorem pass_tracked {h : Hist} (ht : h.Tracked) : (h.step env (.pass answer)).Tracked := by
  obtain ⟨hbuf, -⟩ := processBuffered_tracked env ht
  have hgoes := pass_goes env answer h.sys.conn
  unfold Hist.Tracked Hist.step passEarly passOpened
  dsimp only [Sys.step]
  rw [← append_assoc]
  rcases hgoes with ⟨hnone, hcore⟩ | ⟨s₁, reads, ev, hsome, hcore, hpass⟩
  · rw [hnone, hcore, append_nil, append_nil]
    exact hbuf
  · rw [hsome, hpass]
    rw [← hcore] at hbuf
    exact (examineRecord_fate env s₁ reads ev).tracked hbuf

theorem Hist.step_tracked (h : Hist) (label : Label) (ht : h.Tracked) :
    (h.step env label).Tracked := by
  cases label with
  | pass answer => exact pass_tracked env answer ht
  | op o =>
    have hkeep : ∀ o : ConnOp, (o.apply h.sys.conn).core = h.sys.conn.core →
        Hist.Tracked { h with sys := (h.sys.step env (.op o)).1 } := by
      intro o hcore
      unfold Hist.Tracked
      dsimp only [Sys.step]
      split
      · exact ht
      · rw [hcore]
        exact ht
    cases o with
    | consume n | discard | swap rbuf packet rrec => exact hkeep _ rfl
    | newEpoch =>
      unfold Hist.step
      cases hbusy : h.sys.inCall || h.sys.conn.listen with
      | true =>
        exact ht
      | false =>
        rw [if_neg Bool.false_ne_true]
        obtain ⟨hcall, hlisten⟩ := Bool.or_eq_false_iff.mp hbusy
        -- The next window is still empty, and becomes the current one.
        dsimp only [Sys.step]
        rw [hcall, if_neg Bool.false_ne_true]
        exact {
          current := by
            rw [show (ConnOp.newEpoch.apply h.sys.conn).core.bitmap = .zero from ht.next]
            exact bitmap_zero_holds
          next := rfl
          sorted := ht.sorted
          numbered := ht.numbered
          there := fun _ hn => by cases hn
          waits := fun hne => absurd rfl hne
          listening := fun hl => by
            rw [show (ConnOp.newEpoch.apply h.sys.conn).core.listen = false from hlisten] at hl
            cases hl
          once := fun _ => nodup_nil }
    | control first_packet version in_init in_handshake listen =>
      unfold Hist.step Hist.Tracked
      dsimp only [Sys.step]
      split
      · exact ht
      · exact { ht with listening := fun hl => ht.listening (Bool.and_eq_true_iff.mp hl).1 }

/-! ## Duplicates -/

/-- A complete record of the next epoch has the number of one that was put aside. -/
def Hist.Duplicate (h : Hist) (s : DtlsConn) : Prop :=
  s.rrec.epoch = s.r_epoch + 1 ∧ s.read_sequence ∈ h.early

instance (h : Hist) (s : DtlsConn) : Decidable (h.Duplicate s) :=
  inferInstanceAs (Decidable (_ ∧ _))

/-- No error because of a duplicate, neither when one arrives nor when the early records are
processed. -/
def Hist.NoError (h : Hist) : Label → Prop
  | .pass answer =>
    (∀ s ∈ fetched env answer h.sys.conn, h.Duplicate s →
      (dtls1GetRecordPass env answer h.sys.conn).out ≠ some (-1)) ∧
    ((dtls1ProcessBufferedRecords env h.sys.conn).1 = false →
      (∃ item ∈ h.sys.conn.unprocessed_rcds.q, item.data.rrec.epoch ≠ h.sys.conn.r_epoch) ∨
        ∃ item ∈ h.sys.conn.processed_rcds.q, ∀ n ∈ h.opened, item.priority ≠ n.bytes)
  | .op _ => True

/-- No duplicate arrives that would be put aside, unless the queue is full. -/
def Hist.NoDuplicate (h : Hist) : Label → Prop
  | .pass answer =>
    ∀ s ∈ fetched env answer h.sys.conn, h.Duplicate s → isEarly env s = true →
      100 ≤ pqueueSize s.unprocessed_rcds.q
  | .op _ => True

instance (h : Hist) : (label : Label) → Decidable (h.NoDuplicate env label)
  | .pass answer => inferInstanceAs (Decidable (∀ s ∈ fetched env answer h.sys.conn, h.Duplicate s →
      isEarly env s = true → 100 ≤ pqueueSize s.unprocessed_rcds.q))
  | .op _ => .isTrue trivial

/-- Each record is at most once in the queue of the early ones. -/
def Hist.KeptOnce (h : Hist) : Prop :=
  (h.sys.conn.unprocessed_rcds.q.map fun item =>
    (item.data.rrec.epoch, item.data.rrec.seq_num)).Nodup

/-- Each record that was put aside is opened at most once in its epoch. -/
def Hist.OpenedOnce (h : Hist) : Prop := ∀ n ∈ h.kept, h.opened.count n ≤ 1

theorem Hist.noError_iff (h : Hist) (label : Label) (ht : h.Tracked) :
    h.NoError env label ↔ h.NoDuplicate env label := by
  cases label with
  | op o => exact Iff.rfl
  | pass answer =>
    obtain ⟨hbuf, hfailed⟩ := processBuffered_tracked env ht
    unfold Hist.NoError Hist.NoDuplicate
    dsimp only
    rw [and_iff_left hfailed]
    rcases pass_goes env answer h.sys.conn with ⟨hnone, -⟩ | ⟨s, reads, ev, hsome, hcore, hpass⟩
    · rw [hnone]
      simp
    rw [hsome, hpass]
    rw [← hcore] at hbuf
    simp only [mem_some_iff, forall_eq']
    refine forall_congr' fun hdup => ?_
    -- A number that was put aside is in the queue, so a queue with room refuses it.
    have hthere := hbuf.there s.read_sequence hdup.2
    cases examineRecord_fate env s reads ev with
    | dropped hearly hopens hcore' hout => simp [hearly, hout]
    | opened hearly hopens hcheck hcore' hout => simp [hearly, hout]
    | full hearly hopens hsize hcore' hout => simp [hsize, hout]
    | refused hearly hopens hsize data hinsert hcore' hout =>
      simp [hearly, hout, Nat.not_le.mpr hsize]
    | kept hearly hopens hsize data hseq q hinsert hcore' hout =>
      have hnone := (hbuf.sorted.insert_eq_none_iff ⟨s.read_sequence.bytes, data⟩).mpr hthere
      rw [show s.core.unprocessed_rcds.q = s.unprocessed_rcds.q from rfl, hinsert] at hnone
      cases hnone

/-- In every run, records of the next epoch are put aside at most once and opened at most once; and
no error comes from a duplicate exactly if none arrives that would be put aside while the queue has
room. -/
theorem early_duplicates (env : RecordEnv) (rbuf : Ssl3Buffer) (version : ℕ)
    (big_buffer listen : Bool) (labels : List Label) :
    (Along (Hist.step env) (Hist.NoError env) (.init rbuf version big_buffer listen) labels ∧
        (run (Hist.step env) (.init rbuf version big_buffer listen) labels).KeptOnce ∧
        (run (Hist.step env) (.init rbuf version big_buffer listen) labels).OpenedOnce) ↔
      Along (Hist.step env) (Hist.NoDuplicate env) (.init rbuf version big_buffer listen)
        labels := by
  have hinit := Hist.init_tracked rbuf version big_buffer listen
  have hstep := fun h label => Hist.step_tracked env h label
  have hrun := run_invariant_all hstep labels _ hinit
  rw [along_congr hstep (Hist.noError_iff env) labels _ hinit]
  refine and_iff_left ⟨?_, fun n hn => ?_⟩
  · -- The order of the queue is one of the numbers.
    refine pairwise_map.mpr (hrun.sorted.imp_of_mem fun {a b} ha hb hlt heq => ?_)
    have hprio : a.priority = b.priority := by
      rw [hrun.numbered a ha, hrun.numbered b hb, (Prod.mk.inj heq).2]
    rw [hprio] at hlt
    exact lt_irrefl _ hlt
  · exact nodup_iff_count_le_one.mp (hrun.once (ne_nil_of_mem hn)) n

/-- A datagram with one handshake record of epoch 1, number `n`. -/
def earlyDatagram (n : UInt8) : BioResult :=
  .bytes 22 [0xfe, 0xff, 0, 1, 0, 0, 0, 0, 0, n, 0, 1, 7]

/-- Two early records, the change of epoch, and one of the two again: it is dropped. -/
theorem early_duplicates_after_change :
    let start := Hist.init exampleBuffer 0xfeff false false
    let labels : List Label := [.pass (earlyDatagram 0), .pass (earlyDatagram 1),
      .pass (.fail (-1) (by decide)), .op .newEpoch, .pass (.fail (-1) (by decide)),
      .pass (.fail (-1) (by decide)), .pass (earlyDatagram 0)]
    (run (Hist.step plainEnv) start labels).opened.length = 2 ∧
      Along (Hist.step plainEnv) (Hist.NoError plainEnv) start labels ∧
      (run (Hist.step plainEnv) start labels).KeptOnce ∧
      (run (Hist.step plainEnv) start labels).OpenedOnce := by
  intro start labels
  exact ⟨by decide +kernel,
    (early_duplicates plainEnv exampleBuffer 0xfeff false false labels).mpr (by decide +kernel)⟩

/-- The same early record twice: the second copy passes the replay check, the queue refuses it, and
an error is returned. -/
theorem early_duplicates_refused :
    let start := Hist.init exampleBuffer 0xfeff false false
    let h := start.step plainEnv (.pass (earlyDatagram 0))
    h.early.length = 1 ∧
      (dtls1GetRecordPass plainEnv (earlyDatagram 0) h.sys.conn).out = some (-1) ∧
      ¬ Along (Hist.step plainEnv) (Hist.NoError plainEnv) start
        [.pass (earlyDatagram 0), .pass (earlyDatagram 0)] := by
  intro start h
  refine ⟨by decide +kernel, by decide +kernel, fun hall => ?_⟩
  obtain ⟨s, hs⟩ : ∃ s, fetched plainEnv (earlyDatagram 0) h.sys.conn = some s :=
    isSome_iff_exists.mp (by decide +kernel)
  have hdup : ∀ s ∈ fetched plainEnv (earlyDatagram 0) h.sys.conn, h.Duplicate s := by
    decide +kernel
  exact hall.2.1.1 s hs (hdup s hs) (by decide +kernel)

end VigorTls.Dtls
