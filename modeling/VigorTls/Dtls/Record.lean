import VigorTls.Dtls.Replay
import VigorTls.Record.ReadN

/-!
# The DTLS record layer, receiving

The state that `dtls1_get_record` of `ssl/d1_pkt.c` works on, and the functions that it calls.
Decryption and the MAC are a parameter (`RecordEnv.crypt`). Allocation succeeds.
-/

namespace VigorTls.Dtls

inductive RState where
  | header
  | body
deriving DecidableEq

structure Ssl3Record where
  type : ℕ
  length : ℕ
  off : ℕ
  data : Bytes
  epoch : ℕ
  seq_num : RecordSeq
  /-- Ghost: the header of the record passed the checks of `dtls1_get_record`. No branch depends on
  it. -/
  vetted : Bool

/-- The record after `memset(&s->s3->rrec, 0, …)`. -/
def Ssl3Record.zero : Ssl3Record := ⟨0, 0, 0, [], 0, Dtls1Bitmap.zero.max_seq_num, true⟩

/-- `DTLS1_RECORD_DATA`: a record put aside together with the buffer that it is in. -/
structure Dtls1RecordData where
  rd : ReadState
  rrec : Ssl3Record

structure RecordPqueue where
  epoch : ℕ
  q : Pqueue Dtls1RecordData

/-- The part of the connection that receiving records works on. -/
structure DtlsConn where
  rstate : RState
  /-- `packet`, `packet_length` and `rbuf`. -/
  rd : ReadState
  rrec : Ssl3Record
  read_sequence : RecordSeq
  first_packet : Bool
  version : ℕ
  in_init : Bool
  in_handshake : ℕ
  /-- `SSL_OP_MICROSOFT_BIG_SSLV3_BUFFER` -/
  big_buffer : Bool
  r_epoch : ℕ
  bitmap : Dtls1Bitmap
  next_bitmap : Dtls1Bitmap
  unprocessed_rcds : RecordPqueue
  processed_rcds : RecordPqueue
  listen : Bool

/-- `dtls1_get_bitmap`'s two windows. -/
inductive BitmapRef where
  | current
  | next
deriving DecidableEq

/-- The two queues of records. -/
inductive QueueRef where
  | unprocessed
  | processed
deriving DecidableEq

/-- The outcome of decrypting a record and checking its MAC. -/
inductive Opened where
  /-- `enc` returned 0: the record is publicly invalid. -/
  | invalid
  | short
  | bad
  | plain (data : Bytes)

/-- What the record layer depends on from outside: word size and alignment for `satsub64be`, and the
read keys. -/
structure RecordEnv where
  wide : Bool
  crypt : ℕ → RecordSeq → ℕ → Bytes → Opened

/-- What a pass does, as far as it is observed. -/
inductive RecordEvent where
  /-- A header was examined: whether it passed the checks, the length announced, and how many bytes
  its datagram still holds. -/
  | examined (vetted : Bool) (length left : ℕ)
  | dequeued
  | handed (r : Ssl3Record)
  | buffered (r : Ssl3Record)
  | returned (r : Ssl3Record)
  | alert (desc : ℕ)

namespace DtlsConn

variable (s : DtlsConn)

def bitmapAt : BitmapRef → Dtls1Bitmap
  | .current => s.bitmap
  | .next => s.next_bitmap

def setBitmap (b : Dtls1Bitmap) : BitmapRef → DtlsConn
  | .current => { s with bitmap := b }
  | .next => { s with next_bitmap := b }

def queue : QueueRef → RecordPqueue
  | .unprocessed => s.unprocessed_rcds
  | .processed => s.processed_rcds

def setQueue (q : Pqueue Dtls1RecordData) : QueueRef → DtlsConn
  | .unprocessed => { s with unprocessed_rcds := { s.unprocessed_rcds with q := q } }
  | .processed => { s with processed_rcds := { s.processed_rcds with q := q } }

/-- `rr->length = 0; s->packet_length = 0`: dump the record. -/
def dump : DtlsConn :=
  { s with rrec := { s.rrec with length := 0 }, rd := { s.rd with packet_length := 0 } }

/-- The size of the buffer that `ssl3_setup_read_buffer` allocates. -/
def bufferLen : ℕ :=
  ssl3RtMaxEncryptedLength + dtls1RtHeaderLength + ssl3Align +
    if s.big_buffer then ssl3RtMaxExtra else 0

def freshBuffer : Ssl3Buffer where
  len := s.bufferLen
  offset := 0
  left := []
  room := by
    simp only [bufferLen, ssl3RtHeaderLength, dtls1RtHeaderLength]
    omega

/-- A fresh buffer and no record, as `dtls1_buffer_record` leaves it. -/
def fresh : DtlsConn := { s with rd := ⟨s.freshBuffer, [], 0⟩, rrec := .zero }

end DtlsConn

/-- The sequence number in the six bytes from the head of `bs` on. -/
def RecordSeq.ofBytes (bs : Bytes) : RecordSeq where
  bytes := #v[0, 0, bs.getD 0 0, bs.getD 1 0, bs.getD 2 0, bs.getD 3 0, bs.getD 4 0, bs.getD 5 0]
  top := (⟨rfl, rfl⟩ : (0 : UInt8) = 0 ∧ (0 : UInt8) = 0)

variable (s : DtlsConn)

/-- `dtls1_copy_record`: copy a buffered record into the connection. -/
def dtls1CopyRecord (rdata : Dtls1RecordData) : DtlsConn :=
  { s with
    rd := rdata.rd
    rrec := rdata.rrec
    read_sequence := RecordSeq.ofBytes (rdata.rd.packet.drop 5) }

/-- `dtls1_buffer_record`: move the current record to a queue, which takes 100 records and only one
of a priority. -/
def dtls1BufferRecord (ref : QueueRef) (priority : RecordSeq) : ℤ × DtlsConn × List RecordEvent :=
  if 100 ≤ pqueueSize (s.queue ref).q then (0, s, [])
  else
    let rdata : Dtls1RecordData := ⟨s.rd, s.rrec⟩
    match pqueueInsert (s.queue ref).q ⟨priority.bytes, rdata⟩ with
    | none => (-1, s.fresh, [])
    | some q => (1, s.fresh.setQueue q ref, [.buffered s.rrec])

/-- `dtls1_retrieve_buffered_record`: the first record of a queue, if there is one. -/
def dtls1RetrieveBufferedRecord (ref : QueueRef) : Option DtlsConn :=
  match (s.queue ref).q with
  | [] => none
  | item :: rest => some (dtls1CopyRecord (s.setQueue rest ref) item.data)

/-- `dtls1_get_bitmap`: the window of the current epoch, or of the next one for handshake and alert
records, or `none`. -/
def dtls1GetBitmap (rr : Ssl3Record) : Option BitmapRef :=
  if rr.epoch = s.r_epoch then some .current
  else if rr.epoch = s.r_epoch + 1 ∧ s.unprocessed_rcds.epoch ≠ s.r_epoch ∧
      (rr.type = ssl3RtHandshake ∨ rr.type = ssl3RtAlert) then some .next
  else none

variable (env : RecordEnv) (answer : BioResult) (ref : BitmapRef)

/-- `dtls1_process_record`: open the record in `packet`, and mark it. `false` is a return of 0. What
a failed decryption leaves in `data` and `length` is not modelled: both callers dump the record at
once. -/
def dtls1ProcessRecord (s : DtlsConn) (ref : BitmapRef) : Bool × DtlsConn × List RecordEvent :=
  if ssl3RtMaxEncryptedLength < s.rrec.length then
    (false, s, [.handed s.rrec, .alert sslAdRecordOverflow])
  else
    let input := (s.rd.packet.drop dtls1RtHeaderLength).take s.rrec.length
    match env.crypt s.r_epoch s.read_sequence s.rrec.type input with
    | .invalid => (false, s, [.handed s.rrec])
    | .short => (false, s, [.handed s.rrec, .alert sslAdDecodeError])
    | .bad => (false, s, [.handed s.rrec])
    | .plain data =>
      if ssl3RtMaxPlainLength < data.length then
        (false, s, [.handed s.rrec, .alert sslAdRecordOverflow])
      else
        let s' := { s with
          rrec := { s.rrec with data := data, length := data.length, off := 0 }
          rd := { s.rd with packet_length := 0 } }
        (true, s'.setBitmap (dtls1RecordBitmapUpdate env.wide s.read_sequence (s.bitmapAt ref)) ref,
          [.handed s.rrec])

/-- A round of the loop of `dtls1_process_buffered_records`, with the record from the queue. `false`
stops it. -/
def pendingRound (s : DtlsConn) : Bool × DtlsConn × List RecordEvent :=
  match dtls1GetBitmap s s.rrec with
  | none => (false, s, [.dequeued])
  | some ref =>
    if dtls1RecordReplayCheck env.wide s.read_sequence (s.bitmapAt ref) then
      match dtls1ProcessRecord env { s with rrec.seq_num := s.read_sequence } ref with
      | (false, s, ev) => (true, s.dump, .dequeued :: ev)
      | (true, s, ev) =>
        match dtls1BufferRecord s .processed s.rrec.seq_num with
        | (ret, s, evb) => (!decide (ret < 0), s, .dequeued :: ev ++ evb)
    else (true, s.dump, [.dequeued])

/-- The loop of `dtls1_process_buffered_records`. -/
def processPending (env : RecordEnv) : ℕ → DtlsConn → Bool × DtlsConn × List RecordEvent
  | 0, s => (true, s, [])
  | rounds + 1, s =>
    match dtls1RetrieveBufferedRecord s .unprocessed with
    | none => (true, s, [])
    | some s =>
      match pendingRound env s with
      | (false, s, ev) => (false, s, ev)
      | (true, s, ev) =>
        let (ok, s, ev') := processPending env rounds s
        (ok, s, ev ++ ev')

/-- The end of `dtls1_process_buffered_records`: both queues follow the epoch. -/
def syncEpochs : DtlsConn :=
  { s with
    processed_rcds.epoch := s.r_epoch
    unprocessed_rcds.epoch := (s.r_epoch + 1) % 2 ^ 16 }

/-- `dtls1_process_buffered_records`: once the epoch has changed, but not while data of the datagram
is left to read. -/
def dtls1ProcessBufferedRecords (s : DtlsConn) : Bool × DtlsConn × List RecordEvent :=
  match pqueuePeek s.unprocessed_rcds.q with
  | none => (true, syncEpochs s, [])
  | some _ =>
    if s.unprocessed_rcds.epoch ≠ s.r_epoch then (true, s, [])
    else if s.rd.rbuf.left ≠ [] then (true, s, [])
    else
      match processPending env s.unprocessed_rcds.q.length s with
      | (false, s, ev) => (false, s, ev)
      | (true, s, ev) => (true, syncEpochs s, ev)

structure RecordHeader where
  type : ℕ
  version : ℕ
  epoch : ℕ
  seq : RecordSeq
  length : ℕ

def u16 (hi lo : UInt8) : ℕ := hi.toNat * 256 + lo.toNat

/-- The thirteen bytes of a record header. -/
def parseRecordHeader : Bytes → Option RecordHeader
  | [type, v0, v1, e0, e1, q0, q1, q2, q3, q4, q5, l0, l1] =>
    some ⟨type.toNat, u16 v0 v1, u16 e0 e1, RecordSeq.ofBytes [q0, q1, q2, q3, q4, q5], u16 l0 l1⟩
  | _ => none

/-- The version is `s->version` once `first_packet` is clear, its major part always, and the record
is not too long. -/
def headerPasses (h : RecordHeader) : Bool :=
  !(!s.first_packet && h.version != s.version) &&
    !(h.version &&& 0xff00 != s.version &&& 0xff00) &&
    !(ssl3RtMaxEncryptedLength < h.length)

/-- One pass of `dtls1_get_record` from the label `again` on. -/
structure Pass where
  /-- The value returned, or `none` for `goto again`. -/
  out : Option ℤ
  conn : DtlsConn
  /-- How often `BIO_read` was called. -/
  reads : ℕ
  events : List RecordEvent

/-- A datagram transport. `ssl3_read_n` acts for DTLS as if `s->read_ahead` were set. -/
abbrev dtlsMode : ReadMode := ⟨true, false⟩

/-- A ClientHello that arrives while listening is not checked for a replay. -/
def listeningHello : Bool :=
  s.listen && s.rrec.type == ssl3RtHandshake &&
    decide (dtls1RtHeaderLength < s.rd.packet_length) &&
    s.rd.packet[dtls1RtHeaderLength]? == some ssl3MtClientHello

/-- A replay check that passes copies the number; a ClientHello that skips it keeps what was there.
-/
def numberRecord : DtlsConn :=
  if listeningHello s then s else { s with rrec := { s.rrec with seq_num := s.read_sequence } }

/-- `dtls1_get_record` from the point where the record is known not to be a replay. -/
def acceptRecord (s : DtlsConn) (reads : ℕ) (ev : List RecordEvent) : Pass :=
  if s.rrec.length = 0 then ⟨none, s, reads, ev⟩
  else
    match ref with
    | .next =>
      if (s.in_init || s.in_handshake != 0) && !s.listen then
        match dtls1BufferRecord s .unprocessed s.rrec.seq_num with
        | (ret, s, evb) =>
          if ret < 0 then ⟨some (-1), s, reads, ev ++ evb⟩
          else ⟨none, s.dump, reads, ev ++ evb⟩
      else ⟨none, s.dump, reads, ev⟩
    | .current =>
      match dtls1ProcessRecord env s ref with
      | (false, s, evp) => ⟨none, s.dump, reads, ev ++ evp⟩
      | (true, s, evp) => ⟨some 1, s, reads, ev ++ evp ++ [.returned s.rrec]⟩

/-- Its number is old or was received, and it is no ClientHello listened for. -/
def replayed (s : DtlsConn) : Bool :=
  !listeningHello s && !dtls1RecordReplayCheck env.wide s.read_sequence (s.bitmapAt ref)

/-- `dtls1_get_record` from the point where the record is complete. -/
def examineRecord (s : DtlsConn) (reads : ℕ) (ev : List RecordEvent) : Pass :=
  let s := { s with rstate := .header }
  match dtls1GetBitmap s s.rrec with
  | none => ⟨none, s, reads, ev⟩
  | some ref =>
    if replayed env ref s then ⟨none, s, reads, ev⟩
    else acceptRecord env ref (numberRecord s) reads ev

/-- `dtls1_get_record` from the point where the header is in `packet`. -/
def readBody (s : DtlsConn) (reads : ℕ) (ev : List RecordEvent) : Pass :=
  if s.rd.packet_length - dtls1RtHeaderLength < s.rrec.length then
    match ssl3ReadN (dgramRead answer) dtlsMode s.rrec.length s.rrec.length true s.rd reads with
    | (n, rd, reads) =>
      if n ≠ s.rrec.length then ⟨none, { s with rd := rd }, reads, ev⟩
      else examineRecord env { s with rd := rd } reads ev
  else examineRecord env s reads ev

/-- A header has been pulled apart, whether or not it passes the checks. -/
def noteHeader (h : RecordHeader) : DtlsConn :=
  { s with
    rstate := .body
    read_sequence := h.seq
    rrec := { s.rrec with
      type := h.type, epoch := h.epoch, length := h.length, vetted := headerPasses s h } }

/-- `dtls1_get_record` from the point where it reads a header. -/
def readHeader (s : DtlsConn) (reads : ℕ) (ev : List RecordEvent) : Pass :=
  match ssl3ReadN (dgramRead answer) dtlsMode dtls1RtHeaderLength s.rd.rbuf.len false s.rd
    reads with
  | (n, rd, reads) =>
    let s := { s with rd := rd }
    if n ≤ 0 then ⟨some n, s, reads, ev⟩
    -- The datagram ends inside the header.
    else if s.rd.packet_length ≠ dtls1RtHeaderLength then ⟨none, s, reads, ev⟩
    else
      match parseRecordHeader s.rd.packet with
      | none => ⟨none, { s with rstate := .body }, reads, ev⟩
      | some h =>
        let ev := ev ++ [.examined (headerPasses s h) h.length s.rd.rbuf.left.length]
        -- A header that fails a check is discarded by `goto again` alone.
        if headerPasses s h then readBody env answer (noteHeader s h) reads ev
        else ⟨none, noteHeader s h, reads, ev⟩

/-- One pass from `again` on, with `answer` from the transport if it is asked. -/
def dtls1GetRecordPass (s : DtlsConn) : Pass :=
  match dtls1ProcessBufferedRecords env s with
  | (false, s, ev) => ⟨some (-1), s, 0, ev⟩
  | (true, s, ev) =>
    match dtls1RetrieveBufferedRecord s .processed with
    | some s => ⟨some 1, s, 0, ev ++ [.dequeued, .returned s.rrec]⟩
    | none =>
      if s.rstate ≠ .body ∨ s.rd.packet_length < dtls1RtHeaderLength then
        readHeader env answer s 0 ev
      else readBody env answer s 0 ev

end VigorTls.Dtls
