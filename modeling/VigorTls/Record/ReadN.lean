import VigorTls.Lib.Bytes
import VigorTls.Constants

/-!
# Reading bytes into the record buffer

`ssl3_read_n` of `ssl/s3_pkt.c`, for TLS and DTLS alike: `packet` is what `s->packet` points at,
`packet_length` bytes of it belong to the current packet, and `left` is the unread rest. `offset` is
kept only for the room in the buffer. `BIO_read` is a parameter. A datagram transport is asked at
most once, and only for a new packet with nothing left.
-/

namespace VigorTls

open List

/-- What `BIO_read` returns: at least one byte, or a value `≤ 0`. -/
inductive BioResult where
  | bytes (head : UInt8) (tail : Bytes)
  /-- The end of the data, a retry, or an error. -/
  | fail (ret : ℤ) (nonpos : ret ≤ 0)

/-- A datagram transport asked for up to `max` bytes: the rest of a longer datagram is lost. -/
def BioResult.upTo (answer : BioResult) (max : ℕ) : BioResult :=
  match answer with
  | .bytes head tail => .bytes head (tail.take (max - 1))
  | .fail ret nonpos => .fail ret nonpos

structure Ssl3Buffer where
  len : ℕ
  /-- Where the unread bytes start. -/
  offset : ℕ
  /-- The unread bytes, `left` of them at `buf + offset`. -/
  left : Bytes
  /-- `ssl3_setup_read_buffer` makes room for the longest record and its header. -/
  room : ssl3RtMaxEncryptedLength + ssl3RtHeaderLength + ssl3Align ≤ len

/-- The fields of the connection that `ssl3_read_n` works on. -/
structure ReadState where
  rbuf : Ssl3Buffer
  /-- The bytes at `s->packet`. -/
  packet : Bytes
  /-- How many of them belong to the packet. -/
  packet_length : ℕ

/-- What `ssl3_read_n` asks the connection about: `SSL_IS_DTLS` and `s->read_ahead`. -/
structure ReadMode where
  dtls : Bool
  read_ahead : Bool

section

variable {β : Type} (bioRead : β → ℕ → BioResult × β)

/-- The loop of `ssl3_read_n`. It ends with `some i` when `BIO_read` returned `i ≤ 0`, and otherwise
with the number of bytes asked for, which a datagram that is too short lowers. -/
def readMore (dtls : Bool) (max : ℕ) : ℕ → ℕ → Bytes → β → Option ℤ × ℕ × Bytes × β
  | 0, n, left, bio => (none, n, left, bio)
  | fuel + 1, n, left, bio =>
    if left.length < n then
      match bioRead bio (max - left.length) with
      | (.fail i _, bio) => (some i, n, left, bio)
      | (.bytes head tail, bio) =>
        let left := left ++ head :: tail
        -- Reads never span two datagrams.
        readMore dtls max fuel (if dtls && left.length < n then left.length else n) left bio
    else (none, n, left, bio)

/-- Take `n` bytes of what is left, or read more first. -/
def readTake (mode : ReadMode) (n max : ℕ) (s : ReadState) (bio : β) : ℤ × ReadState × β :=
  if n ≤ s.rbuf.left.length then
    (n, { rbuf := { s.rbuf with left := s.rbuf.left.drop n, offset := s.rbuf.offset + n },
          packet := s.packet.take s.packet_length ++ s.rbuf.left.take n,
          packet_length := s.packet_length + n }, bio)
  else
    -- The packet and what is left move to the front of the buffer.
    let offset := s.packet_length + ssl3Align
    if s.rbuf.len - offset < n then (-1, { s with rbuf := { s.rbuf with offset := offset } }, bio)
    else
      let max := if !mode.read_ahead && !mode.dtls then n
        else min (if max < n then n else max) (s.rbuf.len - offset)
      match readMore bioRead mode.dtls max n n s.rbuf.left bio with
      | (some i, _, left, bio) =>
        -- An empty buffer may be released here; it is set up again before it is used.
        (i, { s with rbuf := { s.rbuf with left := left, offset := offset } }, bio)
      | (none, n, left, bio) =>
        (n, { rbuf := { s.rbuf with left := left.drop n, offset := offset + n },
              packet := s.packet.take s.packet_length ++ left.take n,
              packet_length := s.packet_length + n }, bio)

/-- `ssl3_read_n` for `extend == 0`: an empty packet at the unread bytes, moved to the front when a
large record begins there. -/
def readStart (s : ReadState) : ReadState :=
  let offset :=
    match s.rbuf.left with
    | [] => ssl3Align
    | b0 :: _ :: _ :: b3 :: b4 :: _ =>
      if b0.toNat = ssl3RtApplicationData ∧ 128 ≤ b3.toNat <<< 8 ||| b4.toNat then ssl3Align
      else s.rbuf.offset
    | _ => s.rbuf.offset
  { rbuf := { s.rbuf with offset := offset }, packet := [], packet_length := 0 }

/-- `ssl3_read_n`: a new packet of `n` bytes, or `n` more if `extend` is set, reading ahead up to
`max` bytes. -/
def ssl3ReadN (mode : ReadMode) (n max : ℕ) (extend : Bool) (s : ReadState) (bio : β) :
    ℤ × ReadState × β :=
  if n = 0 then (0, s, bio)
  else
    let s := if extend then s else readStart s
    -- On a datagram transport a packet ends where its datagram ends.
    if mode.dtls && s.rbuf.left.isEmpty && extend then (0, s, bio)
    else
      let n := if mode.dtls && !s.rbuf.left.isEmpty && s.rbuf.left.length < n
        then s.rbuf.left.length else n
      readTake bioRead mode n max s bio

end

/-- A datagram transport that answers with `answer`, and counts how often it is asked. -/
def dgramRead (answer : BioResult) (reads max : ℕ) : BioResult × ℕ := (answer.upTo max, reads + 1)

section

variable {mode : ReadMode} (hdtls : mode.dtls = true) (answer : BioResult) (n max : ℕ) (hn : 0 < n)
  (s : ReadState) (reads : ℕ)

include hdtls hn

theorem ssl3ReadN_empty (hleft : s.rbuf.left = []) :
    ssl3ReadN (dgramRead answer) mode n max true s reads = (0, s, reads) := by
  simp [ssl3ReadN, hdtls, hleft, hn.ne']

theorem ssl3ReadN_more (extend : Bool) (hleft : s.rbuf.left ≠ []) :
    let r := min n s.rbuf.left.length
    ∃ offset, ssl3ReadN (dgramRead answer) mode n max extend s reads =
      (↑r,
        { rbuf := { s.rbuf with
            offset := offset, left := s.rbuf.left.drop r },
          packet := (if extend then s.packet.take s.packet_length else []) ++
            s.rbuf.left.take r,
          packet_length := (if extend then s.packet_length else 0) +
            min n s.rbuf.left.length }, reads) := by
  have hemp : s.rbuf.left.isEmpty = false := by simpa using hleft
  have hstart : (readStart s).rbuf.left = s.rbuf.left := rfl
  have hmin : (if s.rbuf.left.length < n then s.rbuf.left.length else n)
      = min n s.rbuf.left.length := by
    split_ifs <;> omega
  have hle : min n s.rbuf.left.length ≤ s.rbuf.left.length := min_le_right _ _
  unfold ssl3ReadN
  rw [if_neg hn.ne']
  cases extend with
  | true =>
    simp only [hdtls, hemp, Bool.and_true, Bool.not_false, Bool.true_and, decide_eq_true_eq, hmin,
      readTake, if_pos hle, if_true]
    exact ⟨_, rfl⟩
  | false =>
    simp only [hdtls, hstart, hemp, Bool.not_false, Bool.true_and,
      decide_eq_true_eq, hmin, readTake, if_neg Bool.false_ne_true]
    exact ⟨(readStart s).rbuf.offset + min n s.rbuf.left.length, by simp [readStart]⟩

/-- A new packet with nothing left: the transport is asked once, and the packet ends where the
datagram ends. -/
theorem ssl3ReadN_fresh (hleft : s.rbuf.left = []) (hroom : n + ssl3Align ≤ s.rbuf.len) :
    ∃ room, 0 < room ∧ ssl3ReadN (dgramRead answer) mode n max false s reads =
      match answer.upTo room with
      | .fail i _ => (i, ⟨{ s.rbuf with offset := ssl3Align, left := [] }, [], 0⟩, reads + 1)
      | .bytes head tail =>
        let m := min n (tail.length + 1)
        (m, ⟨{ s.rbuf with offset := ssl3Align + m, left := (head :: tail).drop m },
          (head :: tail).take m, m⟩, reads + 1) := by
  obtain ⟨fuel, rfl⟩ : ∃ fuel, n = fuel + 1 := ⟨n - 1, by omega⟩
  have hstart : readStart s = ⟨{ s.rbuf with offset := ssl3Align, left := [] }, [], 0⟩ := by
    simp [readStart, hleft]
  refine ⟨min (if max < fuel + 1 then fuel + 1 else max) (s.rbuf.len - ssl3Align), ?_, ?_⟩
  · split_ifs <;> omega
  unfold ssl3ReadN
  rw [if_neg hn.ne', hstart]
  simp only [Bool.false_eq_true, if_false, hdtls, isEmpty_nil, Bool.and_false, Bool.not_true,
    Bool.false_and, readTake, length_nil, Nat.zero_add, take_nil]
  rw [if_neg (by omega), if_neg (by omega)]
  simp only [readMore, length_nil, Nat.succ_pos, if_true, dgramRead]
  cases hans : answer.upTo _ with
  | fail i hi => simp
  | bytes head tail =>
    simp only [nil_append, length_cons, Bool.true_and, decide_eq_true_eq]
    have hmin : (if tail.length + 1 < fuel + 1 then tail.length + 1 else fuel + 1)
        = min (fuel + 1) (tail.length + 1) := by
      split_ifs <;> omega
    rw [hmin]
    -- One datagram was read, and what is asked for is at most its length.
    have hdone : readMore (dgramRead answer) true
        (min (if max < fuel + 1 then fuel + 1 else max) (s.rbuf.len - ssl3Align)) fuel
        (min (fuel + 1) (tail.length + 1)) (head :: tail) (reads + 1)
        = (none, min (fuel + 1) (tail.length + 1), head :: tail, reads + 1) := by
      cases fuel with
      | zero => rfl
      | succ fuel => rw [readMore, if_neg (by simp)]
    rw [hdone]

end

end VigorTls
