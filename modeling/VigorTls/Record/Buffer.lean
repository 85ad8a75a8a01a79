import VigorTls.Lib.Memory
import VigorTls.Record.ReadN

/-!
# The read buffer in memory

`ssl3_read_n` of `ssl/s3_pkt.c` as it works on memory: one buffer, in which `packet` and
`packet_length` mark the current packet, `offset` and `left` the bytes that were read ahead. They
are moved to where the payload is aligned, and the buffer may be released when it is empty.
-/

namespace VigorTls.Record

open Lib List

/-- A stream of bytes in pieces of any length, with any failures between them. -/
structure ByteSource (β : Type) where
  read : β → ℕ → BioResult × β
  /-- The bytes that it has still to give. -/
  rest : β → Bytes
  /-- What it gives comes next in the stream, and is not more than what it was asked for. -/
  read_bytes : ∀ {bio bio' : β} {max : ℕ} {head : UInt8} {tail : Bytes},
    read bio max = (.bytes head tail, bio') →
      rest bio = head :: tail ++ rest bio' ∧ tail.length + 1 ≤ max
  read_fail : ∀ {bio bio' : β} {max : ℕ} {ret : ℤ} {nonpos : ret ≤ 0},
    read bio max = (.fail ret nonpos, bio') → rest bio' = rest bio

/-! ## The function -/

/-- Where the payload of a record at the front of the buffer is aligned:
`(-(buf + SSL3_RT_HEADER_LENGTH)) & (SSL3_ALIGN_PAYLOAD - 1)`. -/
def alignOf (addr : ℕ) : ℕ := (8 - (addr + ssl3RtHeaderLength) % 8) % 8

/-- The memory of a read buffer, in which the longest record fits when the payload is aligned, as in
memory from `malloc`. -/
structure Memory (extra : ℕ) where
  addr : ℕ
  bytes : ℕ → UInt8
  len : ℕ
  room : alignOf addr + ssl3RtHeaderLength + (ssl3RtMaxEncryptedLength + extra) ≤ len

/-- The buffer and the packet in it, as places. -/
structure Rbuf (extra : ℕ) where
  mem : Memory extra
  offset : ℕ
  left : ℕ
  packet : ℕ
  packet_length : ℕ

/-- The fields of the connection. There may be no buffer. -/
structure ReadConn (extra : ℕ) where
  buf : Option (Memory extra)
  len : ℕ
  offset : ℕ
  left : ℕ
  packet : ℕ
  packet_length : ℕ

/-- `read_ahead` and `SSL_MODE_RELEASE_BUFFERS`. -/
structure ReadConfig where
  read_ahead : Bool
  release_buffers : Bool

variable {extra : ℕ} {β : Type}
variable (s : Rbuf extra) (fresh : Memory extra)

/-- `ssl3_setup_read_buffer`, given the memory that `malloc` would return. -/
def ssl3SetupReadBuffer (s : ReadConn extra) : Rbuf extra :=
  match s.buf with
  | some mem => ⟨mem, s.offset, s.left, s.packet, s.packet_length⟩
  | none => ⟨fresh, s.offset, s.left, 0, s.packet_length⟩

/-- The connection, with its buffer. -/
def Rbuf.conn : ReadConn extra :=
  ⟨some s.mem, s.mem.len, s.offset, s.left, s.packet, s.packet_length⟩

def ssl3ReleaseReadBuffer (s : ReadConn extra) : ReadConn extra := { s with buf := none }

def Memory.move (mem : Memory extra) (dst src n : ℕ) : Memory extra :=
  { mem with bytes := memmove mem.bytes dst src n }

def startPacket : Rbuf extra :=
  let align := alignOf s.mem.addr
  let s :=
    if s.left = 0 then { s with offset := align }
    else if align ≠ 0 ∧ ssl3RtHeaderLength ≤ s.left then
      -- Is the next packet large enough to justify the alignment of its payload?
      if (s.mem.bytes s.offset).toNat = ssl3RtApplicationData ∧
          128 ≤ (s.mem.bytes (s.offset + 3)).toNat <<< 8 ||| (s.mem.bytes (s.offset + 4)).toNat then
        { s with mem := s.mem.move align s.offset s.left, offset := align }
      else s
    else s
  { s with packet := s.offset, packet_length := 0 }

/-- The loop: read to `pkt` until `n` bytes are there. Every round adds a byte, so `n` rounds are
enough. -/
def readLoop (read : β → ℕ → BioResult × β) (pkt len n max : ℕ) :
    ℕ → (ℕ → UInt8) → ℕ → β → Option ℤ × (ℕ → UInt8) × ℕ × β
  | 0, bytes, left, bio => (none, bytes, left, bio)
  | fuel + 1, bytes, left, bio =>
    if left < n then
      match read bio (max - left) with
      | (.fail i _, bio) => (some i, bytes, left, bio)
      | (.bytes head tail, bio) =>
        readLoop read pkt len n max fuel (store bytes (pkt + len + left) (head :: tail))
          (left + (head :: tail).length) bio
    else (none, bytes, left, bio)

/-- The move to the front of the buffer: `packet_length` bytes of the packet and `left` extra ones.
-/
def moveToFront : Rbuf extra :=
  let pkt := alignOf s.mem.addr
  if s.packet ≠ pkt then
    { s with
      mem := s.mem.move pkt s.packet (s.packet_length + s.left)
      packet := pkt
      offset := s.packet_length + pkt }
  else s

/-- `ssl3_read_n`: a new packet of `n` bytes, or `n` more if `extend` is set. -/
def ssl3ReadN (read : β → ℕ → BioResult × β) (cfg : ReadConfig) (fresh : Memory extra) (n max : ℕ)
    (extend : Bool) (s : ReadConn extra) (bio : β) : ℤ × ReadConn extra × β :=
  if n = 0 then (0, s, bio)
  else
    let s := ssl3SetupReadBuffer fresh s
    let s := if extend then s else startPacket s
    if n ≤ s.left then
      -- There is enough from a previous read.
      (n, Rbuf.conn { s with
        packet_length := s.packet_length + n, left := s.left - n, offset := s.offset + n }, bio)
    else
      let s := moveToFront s
      if s.mem.len - s.offset < n then (-1, s.conn, bio)
      else
        let max := if cfg.read_ahead then min (if max < n then n else max) (s.mem.len - s.offset)
          else n
        match readLoop read (alignOf s.mem.addr) s.packet_length n max n s.mem.bytes s.left bio with
        | (some i, bytes, left, bio) =>
          let s := Rbuf.conn { s with mem := { s.mem with bytes := bytes }, left := left }
          if cfg.release_buffers ∧ s.packet_length + left = 0 then (i, ssl3ReleaseReadBuffer s, bio)
          else (i, s, bio)
        | (none, bytes, left, bio) =>
          (n, Rbuf.conn { s with
            mem := { s.mem with bytes := bytes }
            offset := s.offset + n
            left := left - n
            packet_length := s.packet_length + n }, bio)

/-! ## The bytes in the buffer -/

def Rbuf.pending : Bytes := slice s.mem.bytes s.packet s.packet_length

def Rbuf.unread : Bytes := slice s.mem.bytes s.offset s.left

def ReadConn.pending (s : ReadConn extra) : Bytes :=
  match s.buf with
  | some mem => slice mem.bytes s.packet s.packet_length
  | none => []

def ReadConn.unread (s : ReadConn extra) : Bytes :=
  match s.buf with
  | some mem => slice mem.bytes s.offset s.left
  | none => []

/-- The rest starts where the packet ends, and all is in the buffer, also when moved. -/
structure Rbuf.Ok : Prop where
  follows : 0 < s.packet_length → s.packet + s.packet_length = s.offset
  inside : 0 < s.left → s.offset + s.left ≤ s.mem.len
  movable : alignOf s.mem.addr + s.left ≤ s.mem.len

/-- Without a buffer there are no bytes. -/
structure ReadConn.Ok (s : ReadConn extra) : Prop where
  some : ∀ mem, s.buf = some mem →
    Rbuf.Ok ⟨mem, s.offset, s.left, s.packet, s.packet_length⟩
  none : s.buf = none → s.left = 0 ∧ s.packet_length = 0

theorem Rbuf.Ok.conn {s : Rbuf extra} (h : s.Ok) : s.conn.Ok :=
  ⟨fun mem hmem => by obtain rfl := Option.some.inj hmem; exact h, nofun⟩

theorem setup_ok {s : ReadConn extra} (h : s.Ok) :
    let t := ssl3SetupReadBuffer fresh s
    t.Ok ∧ t.pending = s.pending ∧
      t.unread = s.unread ∧
      t.packet_length = s.packet_length := by
  unfold ssl3SetupReadBuffer ReadConn.pending ReadConn.unread
  cases hbuf : s.buf with
  | some mem => exact ⟨h.some mem hbuf, rfl, rfl, rfl⟩
  | none =>
    obtain ⟨hleft, hlen⟩ := h.none hbuf
    have hroom := fresh.room
    refine ⟨⟨?_, ?_, ?_⟩, ?_, ?_, rfl⟩
    · dsimp only
      omega
    · dsimp only
      omega
    · dsimp only
      omega
    · rw [Rbuf.pending, hlen, slice_zero]
    · rw [Rbuf.unread, hleft, slice_zero]

/-- The state in which a read begins: the packet is followed by the rest. -/
structure Rbuf.Ready : Prop extends Rbuf.Ok s where
  adjacent : s.packet + s.packet_length = s.offset

theorem startPacket_ready {s : Rbuf extra} (h : s.Ok) :
    let r := startPacket s
    r.Ready ∧
    r.pending = [] ∧ r.unread = s.unread ∧
    r.packet_length = 0 := by
  obtain ⟨hfollows, hinside, hmovable⟩ := h
  have hempty {c : Prop} : 0 < 0 → c := fun hpos => absurd hpos (lt_irrefl 0)
  unfold startPacket Rbuf.pending Rbuf.unread
  dsimp only
  by_cases hleft : s.left = 0
  · rw [if_pos hleft]
    refine ⟨⟨⟨hempty, fun _ => hmovable, hmovable⟩, rfl⟩, rfl, ?_, rfl⟩
    rw [hleft, slice_zero, slice_zero]
  rw [if_neg hleft]
  by_cases hbig : alignOf s.mem.addr ≠ 0 ∧ ssl3RtHeaderLength ≤ s.left
  · rw [if_pos hbig]
    split
    · -- The unread bytes are moved.
      exact ⟨⟨⟨hempty, fun _ => hmovable, hmovable⟩, rfl⟩, rfl, slice_memmove .., rfl⟩
    · exact ⟨⟨⟨hempty, hinside, hmovable⟩, rfl⟩, rfl, rfl, rfl⟩
  · rw [if_neg hbig]
    exact ⟨⟨⟨hempty, hinside, hmovable⟩, rfl⟩, rfl, rfl, rfl⟩

theorem moveToFront_ready {s : Rbuf extra} (h : s.Ready) : let t := moveToFront s
    t.mem.addr = s.mem.addr ∧ t.mem.len = s.mem.len ∧ t.packet = alignOf s.mem.addr ∧
      t.offset = alignOf s.mem.addr + s.packet_length ∧ t.left = s.left ∧
      t.packet_length = s.packet_length ∧
      slice t.mem.bytes t.packet (t.packet_length + t.left) = s.pending ++ s.unread := by
  have hbytes : slice s.mem.bytes s.packet (s.packet_length + s.left) = s.pending ++ s.unread := by
    rw [slice_add, h.adjacent]
    rfl
  unfold moveToFront
  dsimp only
  split
  · refine ⟨rfl, rfl, rfl, Nat.add_comm _ _, rfl, rfl, ?_⟩
    exact (slice_memmove ..).trans hbytes
  · next hpkt =>
    have hpkt := of_not_not hpkt
    exact ⟨rfl, rfl, hpkt, hpkt ▸ h.adjacent.symm, rfl, rfl, hbytes⟩

/-- What arrives in the loop goes behind what is there. -/
structure Arrived (src : ByteSource β) (pkt len n max : ℕ) (bytes : ℕ → UInt8) (left : ℕ) (bio : β)
    (out : Option ℤ × (ℕ → UInt8) × ℕ × β) (arrived : Bytes) : Prop where
  stream : src.rest bio = arrived ++ src.rest out.2.2.2
  count : out.2.2.1 = left + arrived.length
  fits : out.2.2.1 ≤ max
  behind : slice out.2.1 pkt (len + out.2.2.1) = slice bytes pkt (len + left) ++ arrived
  enough : out.1 = none → n ≤ out.2.2.1
  failed : ∀ i, out.1 = some i → i ≤ 0 ∧ out.2.2.1 < n

theorem readLoop_arrived (src : ByteSource β) (pkt len n max : ℕ) :
    ∀ (fuel : ℕ) (bytes : ℕ → UInt8) (left : ℕ) (bio : β), n ≤ fuel + left → left ≤ max →
      ∃ arrived, Arrived src pkt len n max bytes left bio
        (readLoop src.read pkt len n max fuel bytes left bio) arrived := by
  intro fuel
  induction fuel with
  | zero =>
    intro bytes left bio hfuel hleft
    refine ⟨[], (nil_append _).symm, rfl, hleft, (append_nil _).symm, fun _ => ?_, nofun⟩
    rwa [Nat.zero_add] at hfuel
  | succ fuel ih =>
    intro bytes left bio hfuel hleft
    rw [readLoop]
    split_ifs with hlt
    · cases hread : src.read bio (max - left) with
      | mk result bio' =>
        cases result with
        | fail i hi =>
          refine ⟨[], ?_, rfl, hleft, (append_nil _).symm, nofun, fun j hj => ?_⟩
          · exact (src.read_fail hread).symm
          · cases hj
            exact ⟨hi, hlt⟩
        | bytes head tail =>
          obtain ⟨hstream, hmax⟩ := src.read_bytes hread
          obtain ⟨arrived, h⟩ := ih (store bytes (pkt + len + left) (head :: tail))
            (left + (head :: tail).length) bio'
            (by rw [length_cons]; omega) (by rw [length_cons]; omega)
          refine ⟨head :: tail ++ arrived, ?_, ?_, h.fits, ?_, h.enough, h.failed⟩
          · rw [hstream, h.stream, append_assoc]
          · rw [h.count, length_append, Nat.add_assoc]
          · -- The new bytes follow the old ones.
            rw [h.behind, ← Nat.add_assoc, slice_add,
              slice_store_of_disjoint _ _ _ (.inl (by omega)), ← Nat.add_assoc,
              slice_store_self, append_assoc]
    · exact ⟨[], (nil_append _).symm, rfl, hleft, (append_nil _).symm,
        fun _ => not_lt.mp hlt, nofun⟩

/-- Bytes arrived; the packet takes `n` bytes from the front of what is unread, or there are not
`n`. -/
structure Reads (src : ByteSource β) (n : ℕ) (pending unread : Bytes) (bio : β)
    (out : ℤ × ReadConn extra × β) (arrived : Bytes) : Prop where
  ok : out.2.1.Ok
  stream : src.rest bio = arrived ++ src.rest out.2.2
  length : out.2.1.packet_length = out.2.1.pending.length
  cases : out.1 = n ∧ n ≤ (unread ++ arrived).length ∧
      out.2.1.pending = pending ++ (unread ++ arrived).take n ∧
      out.2.1.unread = (unread ++ arrived).drop n ∨
    out.1 ≤ 0 ∧ (unread ++ arrived).length < n ∧ out.2.1.pending = pending ∧
      out.2.1.unread = unread ++ arrived

/-- Whatever the places, the bytes that arrive go behind the unread ones, and the packet takes its
bytes from their front. -/
theorem ssl3ReadN_spec (src : ByteSource β) (cfg : ReadConfig) (fresh : Memory extra) {n : ℕ}
    (max : ℕ) (extend : Bool) {s : ReadConn extra} (bio : β) (h : s.Ok) (hn : 0 < n)
    (hext : extend → 0 < s.packet_length)
    (hfit : (if extend then s.packet_length else 0) + n ≤
      ssl3RtHeaderLength + (ssl3RtMaxEncryptedLength + extra)) :
    ∃ arrived, Reads src n (if extend then s.pending else []) s.unread bio
      (ssl3ReadN src.read cfg fresh n max extend s bio) arrived := by
  unfold ssl3ReadN
  rw [if_neg hn.ne']
  dsimp only
  obtain ⟨hok, hpending, hunread, hlen⟩ := setup_ok fresh h
  -- The packet to which bytes are added.
  obtain ⟨t, ht, hready, hpending', hunread', hlen'⟩ : ∃ t, (if extend = true then
      ssl3SetupReadBuffer fresh s else startPacket (ssl3SetupReadBuffer fresh s)) = t ∧ t.Ready ∧
      t.pending = (if extend then s.pending else []) ∧ t.unread = s.unread ∧
      t.packet_length = if extend then s.packet_length else 0 := by
    cases extend with
    | true => exact ⟨_, rfl, ⟨hok, hok.follows (hlen ▸ hext rfl)⟩, hpending, hunread, hlen⟩
    | false =>
      obtain ⟨hready, hp, hu, hl⟩ := startPacket_ready hok
      exact ⟨_, rfl, hready, hp, hu.trans hunread, hl⟩
  rw [ht, ← hpending', ← hunread']
  have hpl : t.pending.length = t.packet_length := length_slice ..
  have hul : t.unread.length = t.left := length_slice ..
  by_cases henough : n ≤ t.left
  · -- Enough was read ahead.
    rw [if_pos henough]
    have hinside := hready.inside (hn.trans_le henough)
    have hmovable := hready.movable
    refine ⟨[], Rbuf.Ok.conn ⟨fun _ => ?_, fun _ => ?_, ?_⟩, (nil_append _).symm,
      (length_slice ..).symm, .inl ⟨rfl, ?_, ?_, ?_⟩⟩
    · dsimp only
      rw [← hready.adjacent, Nat.add_assoc]
    · dsimp only
      omega
    · dsimp only
      omega
    · rwa [append_nil, hul]
    · rw [append_nil, Rbuf.unread, take_slice _ _ henough]
      change slice t.mem.bytes t.packet (t.packet_length + n) = _
      rw [slice_add, hready.adjacent]
      rfl
    · rw [append_nil, Rbuf.unread, drop_slice _ _ henough]
      rfl
  rw [if_neg henough]
  obtain ⟨haddr, hmlen, hpkt, hoff, hleft, hplen, hbytes⟩ := moveToFront_ready hready
  generalize moveToFront t = u at haddr hmlen hpkt hoff hleft hplen hbytes ⊢
  have hroom := t.mem.room
  have halign : alignOf u.mem.addr = alignOf t.mem.addr := by rw [haddr]
  rw [if_neg (by omega)]
  generalize hmax : (if cfg.read_ahead = true then
    min (if max < n then n else max) (u.mem.len - u.offset) else n) = max'
  have hmax' : n ≤ max' ∧ max' ≤ u.mem.len - u.offset := by
    rw [← hmax]
    split_ifs <;> omega
  obtain ⟨arrived, harr⟩ := readLoop_arrived src (alignOf u.mem.addr) u.packet_length n max' n
    u.mem.bytes u.left bio (Nat.le_add_right _ _) (by omega)
  generalize readLoop src.read (alignOf u.mem.addr) u.packet_length n max' n u.mem.bytes u.left bio
    = out at harr
  obtain ⟨result, bytes, left, bio'⟩ := out
  obtain ⟨hstream, hleft', hfits, hslice, hdone, hfailed⟩ := harr
  dsimp only at hstream hleft' hfits hslice hdone hfailed
  rw [haddr, ← hpkt, hbytes, hplen, slice_add] at hslice
  -- The packet is followed by what was left of it and what arrived.
  obtain ⟨hp, hu⟩ := append_inj (hslice.trans (append_assoc ..)) (by rw [length_slice, hpl])
  have hoff' : u.packet + t.packet_length = u.offset := by rw [hpkt, hoff]
  rw [hoff'] at hu
  have hlen'' : left = (t.unread ++ arrived).length := by rw [← hu, length_slice]
  refine ⟨arrived, ?_⟩
  cases result with
  | some i =>
    obtain ⟨hi, hshort⟩ := hfailed i rfl
    dsimp only
    split
    · -- Nothing is in the buffer, and it is released.
      next hrel =>
      have hzero : u.packet_length = 0 ∧ left = 0 := by
        have := hrel.2
        simp only [Rbuf.conn] at this
        omega
      refine ⟨⟨nofun, fun _ => ⟨hzero.2, hzero.1⟩⟩, hstream, hzero.1,
        .inr ⟨hi, by omega, ?_, ?_⟩⟩ <;>
        exact (eq_nil_of_length_eq_zero (by omega)).symm
    refine ⟨Rbuf.Ok.conn ⟨fun _ => ?_, fun _ => ?_, ?_⟩, hstream, (length_slice ..).symm,
      .inr ⟨hi, by omega, ?_, hu⟩⟩
    · dsimp only
      omega
    · dsimp only
      omega
    · dsimp only
      omega
    · change slice bytes u.packet u.packet_length = _
      rw [hplen, hp]
  | none =>
    have hdone := hdone rfl
    refine ⟨Rbuf.Ok.conn ⟨fun _ => ?_, fun _ => ?_, ?_⟩, hstream, (length_slice ..).symm,
      .inl ⟨rfl, by omega, ?_, ?_⟩⟩
    · dsimp only
      omega
    · dsimp only
      omega
    · dsimp only
      omega
    · change slice bytes u.packet (u.packet_length + n) = _
      rw [slice_add, hplen, hp, hoff', ← hu, take_slice _ _ hdone]
    · change slice bytes (u.offset + n) (left - n) = _
      rw [← hu, drop_slice _ _ hdone]

end VigorTls.Record
