import VigorTls.Lib.Bytes
import VigorTls.Lib.Run
import VigorTls.Constants

/-!
# Writing a handshake message in fragments

`dtls1_do_write` of `ssl/d1_both.c`, for handshake messages. It keeps its place in `init_off`,
`init_num` and `frag_off`, and writes the header of each fragment over the last twelve bytes of the
one before. A write can fail at any point and the function be called again.

The fragments are meant to tile the message (`Message.Tiles`). A call that tries a fragment again
after a failed write rewinds it a second time, and then `init_off` is no longer the fragment's
offset. By `doWrite_tiles_iff` this is the only way in which they can fail to tile it.
-/

namespace VigorTls.Dtls

open Lib

abbrev dtls1HmHeaderLength : ℕ := 12

structure HmHeader where
  type : UInt8
  msg_len : ℕ
  seq : ℕ
  frag_off : ℕ
  frag_len : ℕ
deriving DecidableEq

/-- `dtls1_write_message_header`: the twelve bytes of a header. -/
def dtls1WriteMessageHeader (h : HmHeader) : Bytes :=
  h.type :: l2n3 h.msg_len ++ s2n h.seq ++ l2n3 h.frag_off ++ l2n3 h.frag_len

def overwrite (buf : Bytes) (off : ℕ) (bytes : Bytes) : Bytes :=
  buf.take off ++ bytes ++ buf.drop (off + bytes.length)

/-- The transport's overhead, the sizes that the cipher adds, and the options. -/
structure WriteEnv where
  overhead : ℕ
  mac_size : ℕ
  blocksize : ℕ
  no_query_mtu : Bool
  retransmitting : Bool
  /-- `BIO_CTRL_DGRAM_QUERY_MTU` when the call begins. -/
  queried : ℕ

/-- What one round of the loop finds. -/
structure Attempt where
  wpending : ℕ
  flush : ℤ
  /-- Whether `dtls1_write_bytes` writes everything or fails. -/
  writes : Bool
  /-- `BIO_CTRL_DGRAM_QUERY_MTU` after a failure. -/
  queried : ℕ

/-- The message as it is kept in the connection. -/
structure WriteState where
  init_buf : Bytes
  init_off : ℕ
  init_num : ℕ
  w_msg_hdr : HmHeader
  mtu : ℕ
  link_mtu : ℕ

def sub32 (a b : ℕ) : ℕ := (a + (2 ^ 32 - b % 2 ^ 32)) % 2 ^ 32

variable (env : WriteEnv)

/-- `dtls1_min_mtu`: the last of `g_probable_mtu` without the overhead. -/
def dtls1MinMtu : ℕ := sub32 256 env.overhead

/-- `dtls1_query_mtu`, with what the transport answers. `none` is a return of 0. -/
def dtls1QueryMtu (queried : ℕ) (s : WriteState) : Option WriteState :=
  let s :=
    if s.link_mtu ≠ 0 then { s with mtu := sub32 s.link_mtu env.overhead, link_mtu := 0 } else s
  if s.mtu < dtls1MinMtu env then
    if env.no_query_mtu then none
    else some { s with mtu := if queried < dtls1MinMtu env then dtls1MinMtu env else queried }
  else some s

/-- A call in progress: its local variables at the head of the loop. -/
structure WriteCall where
  env : WriteEnv
  frag_off : ℕ
  retry : Bool

structure Writer where
  s : WriteState
  call : Option WriteCall
  /-- What `dtls1_write_bytes` has written. -/
  sent : List Bytes
  done : Bool
  aborted : Bool

variable (w : Writer)

/-- The entry of `dtls1_do_write`, up to its loop. -/
def dtls1DoWriteEnter : Writer :=
  match dtls1QueryMtu env env.queried w.s with
  | none => w
  | some s =>
    if s.mtu < dtls1MinMtu env ∨
        s.init_off = 0 ∧ s.init_num ≠ s.w_msg_hdr.msg_len + dtls1HmHeaderLength then
      { w with s := s, aborted := true }
    else { w with s := s, call := some ⟨env, 0, true⟩ }

variable (s : WriteState)

/-- The head of a round: make room for the header of a fragment other than the first. `none` is the
return of -1. -/
def rewind (frag_off : ℕ) : Option (WriteState × ℕ) :=
  if s.init_off ≠ 0 then
    if 0 < frag_off then
      if s.init_off ≤ dtls1HmHeaderLength then none
      else some ({ s with init_off := s.init_off - dtls1HmHeaderLength,
                          init_num := s.init_num + dtls1HmHeaderLength }, frag_off)
    else some (s, s.w_msg_hdr.frag_off)
  else some (s, frag_off)

/-- The room for a fragment with its header. `none` is a return. -/
def currMtu (a : Attempt) (mtu : ℕ) : Option ℕ :=
  let used_len := (a.wpending + dtls1RtHeaderLength + env.mac_size + env.blocksize) % 2 ^ 32
  let curr_mtu := if used_len < mtu then mtu - used_len else 0
  if curr_mtu ≤ dtls1HmHeaderLength then
    if a.flush ≤ 0 then none
    else
      let used_len := (dtls1RtHeaderLength + env.mac_size + env.blocksize) % 2 ^ 32
      if used_len + dtls1HmHeaderLength < mtu then some (mtu - used_len) else none
  else some curr_mtu

def dtls1FixMessageHeader (frag_off frag_len : ℕ) : WriteState :=
  { s with w_msg_hdr := { s.w_msg_hdr with frag_off := frag_off, frag_len := frag_len } }

def fragmentLen (curr_mtu : ℕ) (s : WriteState) : ℕ :=
  if curr_mtu < s.init_num then curr_mtu else s.init_num

/-- The header of the fragment is fixed and written in front of it. -/
def placeHeader (frag_off frag_len : ℕ) : WriteState :=
  let s := dtls1FixMessageHeader s frag_off frag_len
  { s with init_buf := overwrite s.init_buf s.init_off (dtls1WriteMessageHeader s.w_msg_hdr) }

/-- For the transcript, the first fragment gets the header of the whole message. -/
def reconstructHeader (frag_off : ℕ) : WriteState :=
  if !env.retransmitting && frag_off == 0 then
    { s with init_buf := overwrite s.init_buf s.init_off (dtls1WriteMessageHeader
      { s.w_msg_hdr with frag_off := 0, frag_len := s.w_msg_hdr.msg_len }) }
  else s

/-- One round of the loop, in a call `c`. -/
def dtls1DoWriteRound (a : Attempt) (w : Writer) (c : WriteCall) : Writer :=
  match rewind w.s c.frag_off with
  | none => { w with call := none }
  | some (s, frag_off) =>
    match currMtu c.env a s.mtu with
    | none => { w with s := s, call := none }
    | some curr_mtu =>
      let len := fragmentLen curr_mtu s
      if len < dtls1HmHeaderLength then { w with s := s, call := none }
      else if ssl3RtMaxPlainLength < len then { w with s := s, call := none, aborted := true }
      else
        let s := placeHeader s frag_off (len - dtls1HmHeaderLength)
        if a.writes then
          let sent := w.sent ++ [(s.init_buf.drop s.init_off).take len]
          let s := reconstructHeader c.env s frag_off
          if len = s.init_num then
            { w with s := { s with init_off := 0, init_num := 0 }, call := none, sent := sent,
                     done := true }
          else
            let frag_off := frag_off + (len - dtls1HmHeaderLength)
            let s := { s with init_off := s.init_off + len, init_num := s.init_num - len }
            { w with
              s := dtls1FixMessageHeader s frag_off 0
              call := some { c with frag_off := frag_off }, sent := sent }
        else if c.retry && !c.env.no_query_mtu then
          match dtls1QueryMtu c.env a.queried s with
          | none => { w with s := s, call := none }
          | some s =>
            { w with s := s, call := some { c with frag_off := frag_off, retry := false } }
        else { w with s := s, call := none }

/-- A step: the function is called, or its loop goes round. -/
inductive WriteLabel where
  | enter (env : WriteEnv)
  | round (a : Attempt)

/-- A call begins when none is in progress, unless the message is written or an assertion failed. -/
def Writer.step : WriteLabel → Writer
  | .enter env => if w.done || w.aborted || w.call.isSome then w else dtls1DoWriteEnter env w
  | .round a =>
    match w.call with
    | none => w
    | some c => dtls1DoWriteRound a w c

def Writer.run (labels : List WriteLabel) : Writer := Lib.run Writer.step w labels

/-! ## What is to be written -/

/-- A handshake message, small enough for its header. -/
structure Message where
  type : UInt8
  seq : ℕ
  body : Bytes
  seq_lt : seq < 2 ^ 16
  length_lt : body.length < 2 ^ 24

def Message.fragment (m : Message) (off n : ℕ) : Bytes :=
  dtls1WriteMessageHeader ⟨m.type, m.body.length, m.seq, off, n⟩ ++ (m.body.drop off).take n

/-- The fragments carry the message from `off` to `stop`, each from where the last ended. -/
def Message.Tiles (m : Message) : ℕ → List Bytes → ℕ → Prop
  | off, [], stop => off = stop
  | off, p :: ps, stop =>
    ∃ n, off + n ≤ m.body.length ∧ p = m.fragment off n ∧ m.Tiles (off + n) ps stop

def Message.writer (m : Message) (mtu link_mtu : ℕ) (header : Bytes) : Writer where
  s :=
    { init_buf := header ++ m.body
      init_off := 0
      init_num := m.body.length + dtls1HmHeaderLength
      w_msg_hdr := ⟨m.type, m.body.length, m.seq, 0, m.body.length⟩
      mtu := mtu
      link_mtu := link_mtu }
  call := none
  sent := []
  done := false
  aborted := false

def carried (sent : List Bytes) : ℕ := (sent.map fun p => p.length - dtls1HmHeaderLength).sum

theorem dtls1WriteMessageHeader_length (h : HmHeader) :
    (dtls1WriteMessageHeader h).length = dtls1HmHeaderLength := rfl

variable {off : ℕ}

theorem fragment_length (m : Message) {n : ℕ} (h : off + n ≤ m.body.length) :
    (m.fragment off n).length = dtls1HmHeaderLength + n := by
  simp only [Message.fragment, List.length_append, dtls1WriteMessageHeader_length, List.length_take,
    List.length_drop]
  omega

variable {m : Message}

theorem Message.Tiles.carried_eq : ∀ {ps : List Bytes} {off stop : ℕ},
    m.Tiles off ps stop → off + carried ps = stop
  | [], _, _, h => (Nat.add_zero _).trans h
  | p :: ps, off, stop, ⟨n, hn, hp, hps⟩ => by
    have ih := hps.carried_eq
    have hlen := fragment_length m hn
    rw [← hp] at hlen
    simp only [carried, List.map_cons, List.sum_cons] at ih ⊢
    omega

theorem not_tiles_of_carried {ps : List Bytes} (h : carried ps ≠ m.body.length) :
    ¬ m.Tiles 0 ps m.body.length :=
  fun ht => h ((Nat.zero_add _).symm.trans ht.carried_eq)

theorem Message.Tiles.snoc {n stop : ℕ} (hn : stop + n ≤ m.body.length) :
    ∀ {ps : List Bytes} {off : ℕ}, m.Tiles off ps stop →
      m.Tiles off (ps ++ [m.fragment stop n]) (stop + n)
  | [], _, rfl => ⟨n, hn, rfl, rfl⟩
  | _ :: _, _, ⟨k, hk, hp, hps⟩ => ⟨k, hk, hp, hps.snoc hn⟩

variable {buf bytes : Bytes}

theorem overwrite_length (h : off + bytes.length ≤ buf.length) :
    (overwrite buf off bytes).length = buf.length := by
  simp only [overwrite, List.length_append, List.length_take, List.length_drop]
  omega

theorem overwrite_drop (h : off ≤ buf.length) :
    (overwrite buf off bytes).drop off = bytes ++ buf.drop (off + bytes.length) := by
  unfold overwrite
  rw [List.append_assoc, List.drop_append_of_le_length (by simp [h]),
    List.drop_eq_nil_of_le (by simp),
    List.nil_append]

theorem overwrite_getElem? (h : off + bytes.length ≤ buf.length) (i : ℕ) :
    (overwrite buf off bytes)[i]? =
      if off ≤ i ∧ i < off + bytes.length then bytes[i - off]? else buf[i]? := by
  have htake : (buf.take off).length = off := by
    rw [List.length_take]
    omega
  unfold overwrite
  rw [List.append_assoc]
  rcases Nat.lt_or_ge i off with hi | hi
  · rw [List.getElem?_append_left (by omega), List.getElem?_take_of_lt hi, if_neg (by omega)]
  rw [List.getElem?_append_right (by omega), htake]
  rcases Nat.lt_or_ge (i - off) bytes.length with hj | hj
  · rw [List.getElem?_append_left hj, if_pos (by omega)]
  · rw [List.getElem?_append_right hj, List.getElem?_drop, if_neg (by omega)]
    congr 1
    omega

theorem overwrite_drop_after {k : ℕ} (h : off ≤ buf.length) (hk : off + bytes.length ≤ k) :
    (overwrite buf off bytes).drop k = buf.drop k := by
  obtain ⟨j, rfl⟩ := Nat.exists_eq_add_of_le hk
  rw [Nat.add_assoc, ← List.drop_drop, overwrite_drop h, ← List.drop_drop, List.drop_left,
    List.drop_drop, ← Nat.add_assoc]

/-- What holds of the message, `drift` bytes out of place: what is done and what is left make it up.
While nothing is out of place the rest of the body is intact and the fragments tile what they carry.
-/
structure Placed (m : Message) (s : WriteState) (sent : List Bytes) (drift : ℕ) : Prop where
  buf : s.init_buf.length = dtls1HmHeaderLength + m.body.length
  sum : s.init_off + s.init_num = dtls1HmHeaderLength + m.body.length
  type : s.w_msg_hdr.type = m.type
  msg_len : s.w_msg_hdr.msg_len = m.body.length
  seq : s.w_msg_hdr.seq = m.seq
  carried : carried sent = s.w_msg_hdr.frag_off
  /-- At the start nothing is out of place. -/
  start : s.init_off = 0 → drift = 0
  exact : drift = 0 →
    s.init_buf.drop (dtls1HmHeaderLength + s.w_msg_hdr.frag_off) =
      m.body.drop s.w_msg_hdr.frag_off ∧
      m.Tiles 0 sent s.w_msg_hdr.frag_off

/-- There is room for a header before the next fragment. -/
def Rewound (drift : ℕ) : Prop := s.w_msg_hdr.frag_off = s.init_off + drift

/-- There is no room for a header yet. -/
def Fresh (drift : ℕ) : Prop :=
  s.w_msg_hdr.frag_off + dtls1HmHeaderLength = s.init_off + drift ∧ dtls1HmHeaderLength < s.init_off

/-- Where a call stands at the head of its loop; `spoilt` says that a fragment is about to be
rewound a second time. -/
def AtHead (c : WriteCall) (drift : ℕ) (spoilt : Bool) : Prop :=
  (c.frag_off = 0 ∧ Rewound s drift ∧ spoilt = false) ∨
  (0 < c.frag_off ∧ c.frag_off = s.w_msg_hdr.frag_off ∧
    (Fresh s drift ∧ spoilt = false ∨
      Rewound s drift ∧ (spoilt = true ↔ dtls1HmHeaderLength < s.init_off)))

variable {s s' : WriteState} {sent : List Bytes} {drift : ℕ}

/-- What is out of place grows by twelve bytes exactly when a fragment is rewound a second time. -/
theorem rewind_cases {c : WriteCall} {spoilt : Bool} (hP : Placed m s sent drift)
    (hA : AtHead s c drift spoilt) :
    (rewind s c.frag_off = none ∧ Rewound s drift ∧ spoilt = false) ∨
      ∃ s', rewind s c.frag_off = some (s', s'.w_msg_hdr.frag_off) ∧
        Placed m s' sent (if spoilt then drift + dtls1HmHeaderLength else drift) ∧
        Rewound s' (if spoilt then drift + dtls1HmHeaderLength else drift) := by
  unfold rewind
  rcases hA with ⟨hzero, hrew, rfl⟩ | ⟨hpos, hoff, hcase⟩
  · refine .inr ⟨s, ?_, hP, hrew⟩
    by_cases hinit : s.init_off = 0
    · -- The first fragment: nothing has been carried.
      rw [if_neg (not_not_intro hinit), hzero, hrew, hinit, hP.start hinit]
    · rw [if_pos hinit, if_neg (by omega)]
  have hne : s.init_off ≠ 0 := by
    intro hinit
    have hd := hP.start hinit
    rcases hcase with ⟨⟨-, hlt⟩, -⟩ | ⟨hrew, -⟩
    · omega
    · unfold Rewound at hrew
      omega
  rw [if_pos hne, if_pos hpos, hoff]
  by_cases hle : s.init_off ≤ dtls1HmHeaderLength
  · rw [if_pos hle]
    rcases hcase with ⟨⟨-, hlt⟩, -⟩ | ⟨hrew, hspoilt⟩
    · omega
    · refine .inl ⟨rfl, hrew, Bool.eq_false_iff.mpr fun hsp => ?_⟩
      exact absurd (hspoilt.mp hsp) (not_lt.mpr hle)
  rw [if_neg hle]
  rw [not_le] at hle
  have hkeep : ∀ drift', (drift' = 0 → drift = 0) →
      Placed m { s with init_off := s.init_off - dtls1HmHeaderLength,
                        init_num := s.init_num + dtls1HmHeaderLength } sent drift' := by
    intro drift' h0
    have hsum := hP.sum
    refine { hP with sum := ?_, start := fun hz => ?_, exact := fun hz => hP.exact (h0 hz) }
    · dsimp only
      omega
    · dsimp only at hz
      omega
  rcases hcase with ⟨⟨hfresh, -⟩, rfl⟩ | ⟨hrew, hspoilt⟩
  · refine .inr ⟨_, rfl, hkeep drift id, ?_⟩
    unfold Rewound
    simp only [Bool.false_eq_true, if_false]
    omega
  -- The fragment is rewound a second time.
  obtain rfl : spoilt = true := hspoilt.mpr hle
  refine .inr ⟨_, rfl, hkeep _ (by simp), ?_⟩
  unfold Rewound at hrew ⊢
  simp only [if_true]
  omega

theorem Placed.overwrite (hP : Placed m s sent drift) (hR : Rewound s drift)
    (hroom : dtls1HmHeaderLength ≤ s.init_num) (h : HmHeader) :
    Placed m { s with init_buf := overwrite s.init_buf s.init_off (dtls1WriteMessageHeader h) } sent
      drift := by
  have hsum := hP.sum
  have hbuf := hP.buf
  unfold Rewound at hR
  refine { hP with
    buf := (overwrite_length ?_).trans hbuf
    exact := fun hz => ⟨(overwrite_drop_after ?_ ?_).trans (hP.exact hz).1, (hP.exact hz).2⟩ }
  · rw [dtls1WriteMessageHeader_length]
    omega
  · omega
  · rw [dtls1WriteMessageHeader_length]
    dsimp only
    omega

theorem payload_spec {len : ℕ} (hP : Placed m s sent drift) (hR : Rewound s drift)
    (hlen : dtls1HmHeaderLength ≤ len) (hle : len ≤ s.init_num)
    (h : placeHeader s s.w_msg_hdr.frag_off (len - dtls1HmHeaderLength) = s') :
    ((s'.init_buf.drop s'.init_off).take len).length = len ∧
      (drift = 0 → (s'.init_buf.drop s'.init_off).take len =
        m.fragment s.w_msg_hdr.frag_off (len - dtls1HmHeaderLength)) := by
  have hsum := hP.sum
  have hbuf := hP.buf
  have hdrop : s'.init_buf.drop s'.init_off =
      dtls1WriteMessageHeader { s.w_msg_hdr with frag_len := len - dtls1HmHeaderLength } ++
        s.init_buf.drop (s.init_off + dtls1HmHeaderLength) := by
    rw [← h]
    exact overwrite_drop (by show s.init_off ≤ s.init_buf.length; omega)
  rw [hdrop]
  constructor
  · simp only [List.length_take, List.length_append, dtls1WriteMessageHeader_length,
      List.length_drop]
    omega
  intro hz
  have hoff : s.init_off = s.w_msg_hdr.frag_off := by
    unfold Rewound at hR
    omega
  rw [List.take_append, dtls1WriteMessageHeader_length,
    List.take_of_length_le (by rw [dtls1WriteMessageHeader_length]; exact hlen), hoff,
    Nat.add_comm, (hP.exact hz).1]
  unfold Message.fragment
  rw [← hP.type, ← hP.msg_len, ← hP.seq]

theorem reconstructHeader_spec (hP : Placed m s sent drift) (hR : Rewound s drift)
    (env : WriteEnv) (hroom : dtls1HmHeaderLength ≤ s.init_num) (frag_off : ℕ) :
    let t := reconstructHeader env s frag_off
    Placed m t sent drift ∧
      t.init_off = s.init_off ∧
      t.init_num = s.init_num ∧
      t.w_msg_hdr = s.w_msg_hdr := by
  unfold reconstructHeader
  split
  · exact ⟨hP.overwrite hR hroom _, rfl, rfl, rfl⟩
  · exact ⟨hP, rfl, rfl, rfl⟩

/-! ## Runs -/

/-- Once it is done, the fragments carry the message and as much again as is out of place. -/
def Writer.Stands (m : Message) (w : Writer) (drift : ℕ) (spoilt : Bool) : Prop :=
  if w.done then
    w.call = none ∧ spoilt = false ∧ carried w.sent = m.body.length + drift ∧
      (drift = 0 → m.Tiles 0 w.sent m.body.length)
  else
    Placed m w.s w.sent drift ∧
      match w.call with
      | none => Rewound w.s drift ∧ spoilt = false
      | some c => AtHead w.s c drift spoilt

theorem stands_iff {w : Writer} {spoilt : Bool} (hdone : w.done = false) :
    w.Stands m drift spoilt ↔ Placed m w.s w.sent drift ∧
      match w.call with
      | none => Rewound w.s drift ∧ spoilt = false
      | some c => AtHead w.s c drift spoilt := by
  rw [Writer.Stands, if_neg (by simp [hdone])]

/-- A write of a fragment past the twelfth byte fails, and the call tries it once more. -/
def Spoils : WriteLabel → Prop
  | .enter _ => False
  | .round a => ∃ c s frag_off curr_mtu, w.call = some c ∧
    rewind w.s c.frag_off = some (s, frag_off) ∧
    currMtu c.env a s.mtu = some curr_mtu ∧ dtls1HmHeaderLength ≤ fragmentLen curr_mtu s ∧
    fragmentLen curr_mtu s ≤ ssl3RtMaxPlainLength ∧ a.writes = false ∧
    (c.retry && !c.env.no_query_mtu) = true ∧ dtls1HmHeaderLength < s.init_off

variable {env : WriteEnv}

theorem dtls1QueryMtu_spec {queried : ℕ} (h : dtls1QueryMtu env queried s = some s') :
    ∃ mtu link_mtu, s' = { s with mtu := mtu, link_mtu := link_mtu } := by
  unfold dtls1QueryMtu at h
  dsimp only at h
  split at h <;> split at h <;> (try split at h) <;> (try cases h) <;> exact ⟨_, _, rfl⟩

theorem dtls1QueryMtu_isSome (queried : ℕ) (s : WriteState) (h : env.no_query_mtu = false) :
    ∃ s', dtls1QueryMtu env queried s = some s' := by
  unfold dtls1QueryMtu
  simp only [h, Bool.false_eq_true]
  split
  · split <;> exact ⟨_, rfl⟩
  · split <;> exact ⟨_, rfl⟩

theorem currMtu_lt {a : Attempt} {mtu curr_mtu : ℕ} (h : currMtu env a mtu = some curr_mtu) :
    dtls1HmHeaderLength < curr_mtu := by
  unfold currMtu at h
  dsimp only at h
  generalize (a.wpending + dtls1RtHeaderLength + env.mac_size + env.blocksize) % 2 ^ 32 = u at h
  generalize (if u < mtu then mtu - u else 0) = c at h
  split at h
  · split at h
    · cases h
    · split at h
      · cases h
        omega
      · cases h
  · cases h
    omega

theorem sent_stands {w : Writer} {c : WriteCall} {payload : Bytes} {len : ℕ}
    (hdone : w.done = false) (hP : Placed m s w.sent drift) (hR : Rewound s drift)
    (hlen : dtls1HmHeaderLength ≤ len) (hle : len ≤ s.init_num)
    (hbig : len ≠ s.init_num → dtls1HmHeaderLength < len) (hplen : payload.length = len)
    (hpay : drift = 0 → payload = m.fragment s.w_msg_hdr.frag_off (len - dtls1HmHeaderLength)) :
    (if len = s.init_num then
      { w with
        s := { s with init_off := 0, init_num := 0 }, call := none
        sent := w.sent ++ [payload], done := true }
    else
      let frag_off := s.w_msg_hdr.frag_off + (len - dtls1HmHeaderLength)
      let s := { s with init_off := s.init_off + len, init_num := s.init_num - len }
      { w with
        s := dtls1FixMessageHeader s frag_off 0
        call := some { c with frag_off := frag_off }
        sent := w.sent ++ [payload] }).Stands m drift false := by
  have hsum := hP.sum
  have hoff : s.w_msg_hdr.frag_off = s.init_off + drift := hR
  have hcarried : carried (w.sent ++ [payload]) =
      s.w_msg_hdr.frag_off + (len - dtls1HmHeaderLength) := by
    rw [← hP.carried]
    simp [carried, hplen]
  have htiles (hz : drift = 0) : m.Tiles 0 (w.sent ++ [payload])
      (s.w_msg_hdr.frag_off + (len - dtls1HmHeaderLength)) := by
    rw [hpay hz]
    exact (hP.exact hz).2.snoc (by omega)
  by_cases hlast : len = s.init_num
  · -- The last fragment.
    have hend : s.w_msg_hdr.frag_off + (len - dtls1HmHeaderLength) =
        m.body.length + drift := by omega
    rw [if_pos hlast]
    refine ⟨rfl, rfl, hcarried.trans hend, fun hz => ?_⟩
    have := htiles hz
    rwa [hend, hz] at this
  rw [if_neg hlast, stands_iff (by exact hdone)]
  have hbig := hbig hlast
  refine ⟨{ hP with
      sum := ?_, carried := hcarried, start := fun hz => ?_
      exact := fun hz => ⟨?_, htiles hz⟩ },
    .inr ⟨?_, rfl, .inl ⟨⟨?_, ?_⟩, rfl⟩⟩⟩
  · simp only [dtls1FixMessageHeader]
    omega
  · simp only [dtls1FixMessageHeader] at hz
    omega
  · change s.init_buf.drop (_ + (_ + _)) = _
    rw [← Nat.add_assoc, ← List.drop_drop, (hP.exact hz).1, List.drop_drop]
    rfl
  all_goals simp only [dtls1FixMessageHeader]; omega

theorem round_stands {w : Writer} {c : WriteCall} {spoilt : Bool} (a : Attempt)
    (hdone : w.done = false) (hcall : w.call = some c) (hP : Placed m w.s w.sent drift)
    (hA : AtHead w.s c drift spoilt) :
    ∃ spoilt', (dtls1DoWriteRound a w c).Stands m
        (if spoilt then drift + dtls1HmHeaderLength else drift) spoilt' ∧
      (spoilt' = true ↔ Spoils w (.round a)) := by
  -- A round that ends the call before it writes spoils nothing.
  have hquit {s : WriteState} {d : ℕ} {aborted : Bool} hPs
      hRs (hnot : ¬ Spoils w (.round a)) : ∃ spoilt', Writer.Stands m
        { w with s := s, call := none, aborted := aborted } d spoilt' ∧
        (spoilt' = true ↔ Spoils w (.round a)) :=
    ⟨false, (stands_iff (by exact hdone)).mpr ⟨hPs, hRs, rfl⟩, by simp [hnot]⟩
  unfold dtls1DoWriteRound
  rcases rewind_cases hP hA with ⟨hrw, hR, rfl⟩ | ⟨s, hrw, hPs, hRs⟩
  · rw [hrw]
    exact hquit hP hR (by simp [Spoils, hcall, hrw])
  generalize (if spoilt then drift + dtls1HmHeaderLength else drift) = d at hPs hRs ⊢
  -- Whatever a spoilt write needs, it needs of this call and this fragment.
  have hspoil : Spoils w (.round a) ↔ ∃ curr_mtu, currMtu c.env a s.mtu = some curr_mtu ∧
      dtls1HmHeaderLength ≤ fragmentLen curr_mtu s ∧
      fragmentLen curr_mtu s ≤ ssl3RtMaxPlainLength ∧ a.writes = false ∧
      (c.retry && !c.env.no_query_mtu) = true ∧ dtls1HmHeaderLength < s.init_off := by
    simp [Spoils, hcall, hrw]
  rw [hrw]
  dsimp only
  cases hmtu : currMtu c.env a s.mtu with
  | none => exact hquit hPs hRs (by simp [hspoil, hmtu])
  | some curr_mtu =>
    dsimp only
    have hroom := currMtu_lt hmtu
    simp only [hmtu, Option.some.injEq, exists_eq_left'] at hspoil
    by_cases hshort : fragmentLen curr_mtu s < dtls1HmHeaderLength
    · rw [if_pos hshort]
      exact hquit hPs hRs (by rw [hspoil]; omega)
    rw [if_neg hshort]
    by_cases hlong : ssl3RtMaxPlainLength < fragmentLen curr_mtu s
    · rw [if_pos hlong]
      exact hquit hPs hRs (by rw [hspoil]; omega)
    rw [if_neg hlong]
    have hle : fragmentLen curr_mtu s ≤ s.init_num := by
      unfold fragmentLen
      split <;> omega
    have hbig : fragmentLen curr_mtu s ≠ s.init_num →
        dtls1HmHeaderLength < fragmentLen curr_mtu s := by
      unfold fragmentLen
      split
      · exact fun _ => hroom
      · exact fun h => absurd rfl h
    rw [not_lt] at hshort hlong
    generalize fragmentLen curr_mtu s = len at hspoil hshort hlong hle hbig ⊢
    generalize hs1 : placeHeader s s.w_msg_hdr.frag_off (len - dtls1HmHeaderLength) = s1
    obtain ⟨hplen, hpay⟩ := payload_spec hPs hRs hshort hle hs1
    obtain ⟨ho1, hn1, hf1⟩ : s1.init_off = s.init_off ∧ s1.init_num = s.init_num ∧
        s1.w_msg_hdr.frag_off = s.w_msg_hdr.frag_off := by
      rw [← hs1]
      exact ⟨rfl, rfl, rfl⟩
    have hP1 : Placed m s1 w.sent d := by
      rw [← hs1]
      exact { hPs.overwrite hRs (hshort.trans hle) _ with }
    have hR1 : Rewound s1 d := by rw [Rewound, hf1, ho1, hRs]
    rw [← hf1] at hpay ⊢
    rw [← hn1] at hle hbig
    rw [← ho1] at hspoil
    cases hwr : a.writes with
    | true =>
      obtain ⟨hP2, ho2, hn2, hh2⟩ := reconstructHeader_spec hP1 hR1 c.env (hshort.trans hle)
        s1.w_msg_hdr.frag_off
      generalize reconstructHeader c.env s1 s1.w_msg_hdr.frag_off = s2 at hP2 ho2 hn2 hh2 ⊢
      rw [← hn2] at hle hbig
      rw [← hh2] at hpay ⊢
      have hR2 : Rewound s2 d := by rw [Rewound, hh2, ho2, hR1]
      exact ⟨false, sent_stands hdone hP2 hR2 hshort hle hbig hplen hpay, by simp [hspoil, hwr]⟩
    | false =>
      cases hretry : c.retry && !c.env.no_query_mtu with
      | false => exact hquit hP1 hR1 (by simp [hspoil, hretry])
      | true =>
        have hnq : c.env.no_query_mtu = false := by
          rw [Bool.and_eq_true] at hretry
          simpa using hretry.2
        obtain ⟨s3, hs3⟩ := dtls1QueryMtu_isSome a.queried s1 hnq
        rw [hs3]
        obtain ⟨mtu, link_mtu, rfl⟩ := dtls1QueryMtu_spec hs3
        -- The fragment is tried again, and spoilt if that rewinds it a second time.
        have hiff : Spoils w (.round a) ↔ dtls1HmHeaderLength < s1.init_off := by
          simp [hspoil, hshort, hlong, hwr, hretry]
        refine ⟨decide (dtls1HmHeaderLength < s1.init_off), (stands_iff (by exact hdone)).mpr
          ⟨{ hP1 with }, ?_⟩, by rw [hiff]; exact decide_eq_true_iff⟩
        rcases Nat.eq_zero_or_pos s1.w_msg_hdr.frag_off with hz | hpos
        · exact .inl ⟨hz, hR1, decide_eq_false (by unfold Rewound at hR1; omega)⟩
        · exact .inr ⟨hpos, rfl, .inr ⟨hR1, decide_eq_true_iff⟩⟩

theorem step_stands {w : Writer} {spoilt : Bool} (l : WriteLabel) (h : w.Stands m drift spoilt) :
    ∃ drift' spoilt', (w.step l).Stands m drift' spoilt' ∧
      ((drift' = 0 ∧ spoilt' = false) ↔ (drift = 0 ∧ spoilt = false) ∧ ¬ Spoils w l) := by
  cases l with
  | enter env =>
    suffices hsame : (w.step (.enter env)).Stands m drift spoilt from
      ⟨drift, spoilt, hsame, by simp [Spoils]⟩
    unfold Writer.step
    dsimp only
    split
    · exact h
    next hidle =>
    simp only [Bool.or_eq_true, not_or, Bool.not_eq_true, Option.isSome_eq_false_iff,
      Option.isNone_iff_eq_none] at hidle
    obtain ⟨⟨hdone, -⟩, hcall⟩ := hidle
    have hstands := (stands_iff hdone).mp h
    rw [hcall] at hstands
    obtain ⟨hP, hR, rfl⟩ := hstands
    unfold dtls1DoWriteEnter
    split
    · exact h
    next s hs =>
    obtain ⟨mtu, link_mtu, rfl⟩ := dtls1QueryMtu_spec hs
    split <;> refine (stands_iff (by exact hdone)).mpr ⟨{ hP with }, ?_⟩
    · rw [hcall]
      exact ⟨hR, rfl⟩
    · exact .inl ⟨rfl, hR, rfl⟩
  | round a =>
    unfold Writer.step
    cases hcall : w.call with
    | none =>
      refine ⟨drift, spoilt, h, ?_⟩
      simp [Spoils, hcall]
    | some c =>
      have hdone : w.done = false := by
        cases hd : w.done with
        | false => rfl
        | true =>
          unfold Writer.Stands at h
          rw [if_pos hd, hcall] at h
          cases h.1
      rw [stands_iff hdone, hcall] at h
      obtain ⟨spoilt', hst, hiff⟩ := round_stands a hdone hcall h.1 h.2
      refine ⟨_, spoilt', hst, ?_⟩
      rw [← hiff]
      cases spoilt <;> cases spoilt' <;> simp

def Unspoilt : Writer → List WriteLabel → Prop := Along Writer.step fun w l => ¬ Spoils w l

theorem run_stands : ∀ (labels : List WriteLabel) {w : Writer} {drift : ℕ}
    {spoilt : Bool}, w.Stands m drift spoilt →
      ∃ drift' spoilt', (w.run labels).Stands m drift' spoilt' ∧
      ((drift' = 0 ∧ spoilt' = false) ↔ (drift = 0 ∧ spoilt = false) ∧ Unspoilt w labels)
  | [], w, drift, spoilt, h => ⟨drift, spoilt, h, by simp [Unspoilt, Along]⟩
  | l :: labels, w, drift, spoilt, h => by
    obtain ⟨d1, sp1, h1, hiff1⟩ := step_stands l h
    obtain ⟨d2, sp2, h2, hiff2⟩ := run_stands labels h1
    refine ⟨d2, sp2, h2, ?_⟩
    rw [hiff2, hiff1, and_assoc]
    rfl

theorem writer_stands (m : Message) (mtu link_mtu : ℕ) (header : Vector UInt8 12) :
    (m.writer mtu link_mtu header.toList).Stands m 0 false := by
  have hlen : header.toList.length = dtls1HmHeaderLength := by simp
  refine (stands_iff rfl).mpr
    ⟨⟨?_, ?_, rfl, rfl, rfl, rfl, fun _ => rfl, fun _ => ⟨?_, rfl⟩⟩, rfl, rfl⟩
  · simp [Message.writer]
  · simp only [Message.writer]
    omega
  · simp only [Message.writer]
    rw [Nat.add_zero, ← hlen, List.drop_left, List.drop_zero]

/-- Once `dtls1_do_write` has returned 1, the fragments written tile the message exactly if no write
of a fragment past the twelfth byte failed while its call could try again. -/
theorem doWrite_tiles_iff (m : Message) (mtu link_mtu : ℕ) (header : Vector UInt8 12)
    (labels : List WriteLabel)
    (hdone : ((m.writer mtu link_mtu header.toList).run labels).done = true) :
    m.Tiles 0 ((m.writer mtu link_mtu header.toList).run labels).sent m.body.length ↔
      Unspoilt (m.writer mtu link_mtu header.toList) labels := by
  obtain ⟨drift, spoilt, hst, hiff⟩ := run_stands labels (writer_stands m mtu link_mtu header)
  unfold Writer.Stands at hst
  rw [if_pos hdone] at hst
  obtain ⟨-, rfl, hcarried, htiles⟩ := hst
  simp only [and_true, true_and] at hiff
  rw [← hiff]
  refine ⟨fun h => ?_, htiles⟩
  -- Fragments that tile the message carry no more than it has.
  by_contra hne
  exact not_tiles_of_carried (by omega) h

def exampleMessage : Message where
  type := 11
  seq := 3
  body := (List.range 300).map UInt8.ofNat
  seq_lt := by decide
  length_lt := by simp

/-- A call in the clear over IPv4. -/
def exampleWriteEnv : WriteEnv := ⟨28, 0, 0, false, false, 0⟩

/-- A round whose write succeeds, and one whose write fails. -/
def writeOk : Attempt := ⟨0, 1, true, 0⟩
def writeFails : Attempt := ⟨0, 1, false, 0⟩

/-- A run that ends with two fragments written, for which the condition decides. -/
theorem doWrite_tiles_two_fragments :
    let w := exampleMessage.writer 241 0 (Vector.replicate 12 0).toList
    let labels := [.enter exampleWriteEnv, .round writeOk, .round writeOk]
    (w.run labels).done = true ∧
      (exampleMessage.Tiles 0 (w.run labels).sent exampleMessage.body.length ↔
        Unspoilt w labels) := by
  intro w labels
  have hdone : (w.run labels).done = true := by decide +kernel
  exact ⟨hdone, doWrite_tiles_iff exampleMessage 241 0 (Vector.replicate 12 0) _ hdone⟩

/-- The write of the second fragment fails once and is tried again: the message is reported as
written, and not tiled. -/
theorem doWrite_retry_shifts :
    let w := (exampleMessage.writer 241 0 (Vector.replicate 12 0).toList).run
      [.enter exampleWriteEnv, .round writeOk, .round writeFails, .round writeOk]
    w.done = true ∧ ¬ exampleMessage.Tiles 0 w.sent exampleMessage.body.length := by
  -- They carry 312 bytes.
  exact ⟨by decide +kernel, not_tiles_of_carried (by decide +kernel)⟩

end VigorTls.Dtls
