import VigorTls.Dtls.Reassembly

/-!
# Reading a handshake message

`dtls1_get_message` of `ssl/d1_both.c` and the functions under it. A pass through
`dtls1_get_message_fragment` delivers a message that the queue holds complete, or reads one fragment
from the current record: into the queue, or, in sequence and in one piece, into `init_buf`. What
`dtls1_read_bytes` does between two records is a parameter. Memory can always be had.

A `Reader` goes through calls of the function, with any changes by the rest of the program between
them; `getMessage_complete_iff` says when what is delivered was carried by fragments.
-/

namespace VigorTls.Dtls

open Lib List

/-! ## The functions -/

abbrev dtls1HmBadFragment : ℤ := -2

/-- `dtls1_get_message_header`: the header in twelve bytes. -/
def dtls1GetMessageHeader : Bytes → Option HmHeader
  | [t, m0, m1, m2, s0, s1, o0, o1, o2, l0, l1, l2] =>
    some ⟨t, beNat [m0, m1, m2], beNat [s0, s1], beNat [o0, o1, o2], beNat [l0, l1, l2]⟩
  | _ => none

/-- What `dtls1_read_bytes` comes to when no byte is left: a record, or a value `≤ 0`. -/
inductive NextRecord where
  | record (head : UInt8) (tail : Bytes)
  | fail (ret : ℤ) (nonpos : ret ≤ 0)

/-- The fields of the connection that reading a message works on. -/
structure MessageConn where
  server : Bool
  listen : Bool
  handshake_read_seq : ℕ
  buffered_messages : Pqueue HmFragment
  r_msg_hdr : HmHeader
  init_buf : Bytes
  init_num : ℕ
  reuse_message : Bool
  message_type : UInt8
  message_size : ℕ
  /-- The header that reading application data has met. -/
  handshake_fragment : Bytes
  /-- The unread bytes of the current handshake record. -/
  rrec : Bytes

variable (next : NextRecord)

/-- `ssl_read_bytes` for a header. -/
def readHandshakeBytes (len : ℕ) (s : MessageConn) : Except ℤ (Bytes × MessageConn) :=
  if s.handshake_fragment ≠ [] then
    .ok (s.handshake_fragment.take len,
      { s with handshake_fragment := s.handshake_fragment.drop len })
  else if s.rrec ≠ [] then .ok (s.rrec.take len, { s with rrec := s.rrec.drop len })
  else
    match next with
    | .record head tail =>
      .ok ((head :: tail).take len, { s with rrec := (head :: tail).drop len })
    | .fail ret _ => .error ret

def bufMemGrowClean (buf : Bytes) (len : ℕ) : Bytes :=
  buf.take len ++ replicate (len - buf.length) 0

/-- `dtls1_preprocess_fragment`: the alert, zero for none. -/
def dtls1PreprocessFragment (max : ℕ) (msg_hdr : HmHeader) (s : MessageConn) : ℕ × MessageConn :=
  if msg_hdr.msg_len < msg_hdr.frag_off + msg_hdr.frag_len then (sslAdIllegalParameter, s)
  else if max < msg_hdr.frag_off + msg_hdr.frag_len then (sslAdIllegalParameter, s)
  else if s.r_msg_hdr.frag_off = 0 then
    (0, { s with
      init_buf := bufMemGrowClean s.init_buf (msg_hdr.msg_len + dtls1HmHeaderLength)
      message_size := msg_hdr.msg_len
      message_type := msg_hdr.type
      r_msg_hdr := { s.r_msg_hdr with
        msg_len := msg_hdr.msg_len, type := msg_hdr.type, seq := msg_hdr.seq } })
  else if msg_hdr.msg_len ≠ s.r_msg_hdr.msg_len then (sslAdIllegalParameter, s)
  else (0, s)

/-- How `dtls1_get_message_fragment` and its parts end. -/
inductive FragmentResult where
  /-- `*ok` is one: the message is in `init_buf`. -/
  | got (frag_len : ℕ)
  | ret (i : ℤ)
  /-- An alert is sent and `-1` returned, with `*ok` zero. -/
  | alert (al : ℕ)
  | again

def dtls1RetrieveBufferedFragment (max : ℕ) (s : MessageConn) : FragmentResult × MessageConn :=
  -- Stale messages are cleared.
  let queue := s.buffered_messages.dropWhile fun item =>
    decide (item.data.msg_header.seq < s.handshake_read_seq)
  let s := { s with buffered_messages := queue }
  match queue with
  | [] => (.ret 0, s)
  | item :: rest =>
    let frag := item.data
    if frag.reassembly.isSome then (.ret 0, s)
    else if s.handshake_read_seq = frag.msg_header.seq then
      let (al, s) :=
        dtls1PreprocessFragment max frag.msg_header { s with buffered_messages := rest }
      if al = 0 then
        (.got frag.msg_header.frag_len, { s with
          init_buf := overwrite s.init_buf (dtls1HmHeaderLength + frag.msg_header.frag_off)
            (frag.fragment.take frag.msg_header.frag_len) })
      else (.alert al, { s with init_num := 0 })
    else (.ret 0, s)

def dtls1ProcessOutOfSeqMessage (env : ReassemblyEnv) (msg_hdr : HmHeader) (s : MessageConn) :
    ℤ × MessageConn :=
  if msg_hdr.msg_len < msg_hdr.frag_off + msg_hdr.frag_len then (-1, s)
  else
    let item := pqueueFind s.buffered_messages (seq64be msg_hdr.seq)
    if msg_hdr.seq ≤ s.handshake_read_seq ∨ s.handshake_read_seq + 10 < msg_hdr.seq ∨
        (item.isSome ∧ msg_hdr.frag_len = msg_hdr.msg_len) ∨
        (s.handshake_read_seq = 0 ∧ msg_hdr.type = ssl3MtFinished) then
      match drain msg_hdr.frag_len s.rrec with
      | none => (-1, { s with rrec := [] })
      | some rest => (dtls1HmFragmentRetry, { s with rrec := rest })
    else if msg_hdr.frag_len ≠ msg_hdr.msg_len then
      let (i, queue, rest) := dtls1ReassembleFragment env msg_hdr s.buffered_messages s.rrec
      (i, { s with buffered_messages := queue, rrec := rest })
    else if dtls1MaxHandshakeMessageLen env < msg_hdr.frag_len then (-1, s)
    else
      let fragment := s.rrec.take msg_hdr.frag_len
      let s := { s with rrec := s.rrec.drop msg_hdr.frag_len }
      if fragment.length ≠ msg_hdr.frag_len then (-1, s)
      else
        (dtls1HmFragmentRetry, { s with
          buffered_messages := (pqueueInsert s.buffered_messages
            ⟨seq64be msg_hdr.seq, ⟨msg_hdr, fragment, none⟩⟩).getD s.buffered_messages })

/-- A fragment as it is received: its header and its bytes. -/
abbrev Received := HmHeader × Bytes

/-- The last part of `dtls1_get_message_fragment`, for a whole message in sequence. -/
def readInPlace (max : ℕ) (msg_hdr : HmHeader) (s : MessageConn) : FragmentResult × MessageConn :=
  if !s.server && s.r_msg_hdr.frag_off = 0 && msg_hdr.type = ssl3MtHelloRequest then
    if msg_hdr.msg_len = 0 then (.again, { s with init_num := 0 })
    else (.alert sslAdUnexpectedMessage, { s with init_num := 0 })
  else
    let (al, s) := dtls1PreprocessFragment max msg_hdr s
    if al ≠ 0 then (.alert al, { s with init_num := 0 })
    else
      let bytes := s.rrec.take msg_hdr.frag_len
      let s := { s with
        init_buf := overwrite s.init_buf (dtls1HmHeaderLength + msg_hdr.frag_off) bytes
        rrec := s.rrec.drop msg_hdr.frag_len }
      if 0 < msg_hdr.frag_len ∧ bytes = [] then (.ret 0, s)
      else if bytes.length ≠ msg_hdr.frag_len then
        (.alert sslAdIllegalParameter, { s with init_num := 0 })
      else (.got msg_hdr.frag_len, { s with init_num := msg_hdr.frag_len })

/-- `dtls1_get_message_fragment` up to its `goto again`, with the fragment received. -/
def dtls1GetMessageFragment (env : ReassemblyEnv) (next : NextRecord) (max : ℕ) (s : MessageConn) :
    FragmentResult × MessageConn × Option Received :=
  match dtls1RetrieveBufferedFragment max s with
  | (.got frag_len, s) => (.got frag_len, { s with init_num := frag_len }, none)
  | (.alert al, s) => (.alert al, s, none)
  | (_, s) =>
    match readHandshakeBytes next dtls1HmHeaderLength s with
    | .error i => (.ret i, s, none)
    | .ok (wire, s) =>
      match dtls1GetMessageHeader wire with
      | none => (.alert sslAdUnexpectedMessage, { s with init_num := 0 }, none)
      | some msg_hdr =>
        -- Fragments must not span records.
        if s.rrec.length < msg_hdr.frag_len then
          (.alert sslAdIllegalParameter, { s with init_num := 0 }, none)
        else
          let received := some (msg_hdr, s.rrec.take msg_hdr.frag_len)
          if msg_hdr.seq ≠ s.handshake_read_seq ∧ ¬(s.listen ∧ msg_hdr.seq = 1) then
            let (i, s) := dtls1ProcessOutOfSeqMessage env msg_hdr s
            (.ret i, s, received)
          else if msg_hdr.frag_len ≠ 0 ∧ msg_hdr.frag_len < msg_hdr.msg_len then
            let (i, queue, rest) := dtls1ReassembleFragment env msg_hdr s.buffered_messages s.rrec
            (.ret i, { s with buffered_messages := queue, rrec := rest }, received)
          else
            let (result, s) := readInPlace max msg_hdr s
            (result, s, received)

/-- A message as `dtls1_get_message` hands it on. -/
structure Delivery where
  /-- `r_msg_hdr`, before it is cleared. -/
  msg_hdr : HmHeader
  /-- What `tls1_finish_mac` is given. -/
  hashed : Bytes
  init_num : ℕ
deriving DecidableEq

def Delivery.body (d : Delivery) : Bytes := d.hashed.drop dtls1HmHeaderLength

/-- The last part of `dtls1_get_message`: the header is written anew, as for one piece, and the
message is hashed. -/
def finishMessage (s : MessageConn) : MessageConn × Delivery :=
  let msg_hdr := s.r_msg_hdr
  let init_buf := overwrite s.init_buf 0
    (dtls1WriteMessageHeader { msg_hdr with frag_off := 0, frag_len := msg_hdr.msg_len })
  ({ s with
      init_buf := init_buf
      r_msg_hdr := ⟨0, 0, 0, 0, 0⟩
      handshake_read_seq :=
        if s.listen then s.handshake_read_seq else (s.handshake_read_seq + 1) % 2 ^ 16 },
    ⟨msg_hdr, init_buf.take (msg_hdr.msg_len + dtls1HmHeaderLength), s.init_num⟩)

/-- What the rest of the program may do between two calls: use `init_buf`, start a handshake, set a
message aside, or meet a handshake record while it reads application data. -/
structure Between where
  listen : Bool
  handshake_read_seq : ℕ
  /-- Whether `buffered_messages` is emptied. -/
  clear : Bool
  init_buf : Bytes
  init_num : ℕ
  reuse_message : Bool
  handshake_fragment : Bytes
  rrec : Bytes
  /-- The storage has room for a header. -/
  fits : handshake_fragment.length ≤ dtls1HmHeaderLength

def Between.apply (b : Between) (s : MessageConn) : MessageConn :=
  { s with
    listen := b.listen
    handshake_read_seq := b.handshake_read_seq
    buffered_messages := if b.clear then [] else s.buffered_messages
    init_buf := b.init_buf
    init_num := b.init_num
    reuse_message := b.reuse_message
    handshake_fragment := b.handshake_fragment
    rrec := b.rrec }

/-- A connection that reads messages. -/
structure Reader where
  s : MessageConn
  /-- The call that is running: `msg_type`, if any, and `max`. -/
  call : Option (Option UInt8 × ℕ)
  /-- The fragments received, the last one first. -/
  received : List Received

variable (r : Reader)

inductive ReaderLabel where
  | call (msg_type : Option UInt8) (max : ℕ)
  | pass (env : ReassemblyEnv) (next : NextRecord)
  | between (b : Between)

def Reader.pass (env : ReassemblyEnv) (next : NextRecord) (msg_type : Option UInt8) (max : ℕ) :
    Reader × Option Delivery :=
  let (result, s, received) := dtls1GetMessageFragment env next max r.s
  let received := received.toList ++ r.received
  match result with
  | .again => (⟨s, r.call, received⟩, none)
  | .ret i =>
    if i = dtls1HmBadFragment ∨ i = dtls1HmFragmentRetry then (⟨s, r.call, received⟩, none)
    else (⟨s, none, received⟩, none)
  | .alert _ => (⟨s, none, received⟩, none)
  | .got _ =>
    if msg_type.any (· ≠ s.r_msg_hdr.type) then
      -- An alert for an unexpected message is sent.
      (⟨s, none, received⟩, none)
    else
      let (s, d) := finishMessage s
      (⟨s, none, received⟩, some d)

/-- `dtls1_get_message` up to its loop, a pass while it runs, or something else while not. -/
def Reader.step : ReaderLabel → Reader × Option Delivery
  | .call msg_type max =>
    if r.call.isSome then (r, none)
    else if r.s.reuse_message then
      let s := { r.s with reuse_message := false }
      if msg_type.any (· ≠ s.message_type) then (⟨s, none, r.received⟩, none)
      else (⟨{ s with init_num := s.message_size }, none, r.received⟩, none)
    else
      (⟨{ r.s with r_msg_hdr := ⟨0, 0, 0, 0, 0⟩ }, some (msg_type, max), r.received⟩, none)
  | .pass env next =>
    match r.call with
    | none => (r, none)
    | some (msg_type, max) => r.pass env next msg_type max
  | .between b => if r.call.isSome then (r, none) else (⟨b.apply r.s, none, r.received⟩, none)

def Reader.run (labels : List ReaderLabel) : Reader :=
  Lib.run (fun r label => (r.step label).1) r labels

def Reader.init (server : Bool) : Reader where
  s :=
    { server := server
      listen := false
      handshake_read_seq := 0
      buffered_messages := []
      r_msg_hdr := ⟨0, 0, 0, 0, 0⟩
      init_buf := []
      init_num := 0
      reuse_message := false
      message_type := 0
      message_size := 0
      handshake_fragment := []
      rrec := [] }
  call := none
  received := []

/-- `b` is at place `i` of a fragment received with the given number and length. -/
def Carried (received : List Received) (seq msg_len i : ℕ) (b : UInt8) : Prop :=
  ∃ f ∈ received, f.1.seq = seq ∧ f.1.msg_len = msg_len ∧ f.1.Covers i ∧
    f.2[i - f.1.frag_off]? = some b

/-- Every byte was carried by a fragment of the message, whose length is returned. -/
structure Delivery.Complete (received : List Received) (d : Delivery) : Prop where
  length : d.body.length = d.msg_hdr.msg_len
  carried : ∀ i < d.msg_hdr.msg_len, ∃ b, d.body[i]? = some b ∧
    Carried received d.msg_hdr.seq d.msg_hdr.msg_len i b
  init_num : d.init_num = d.msg_hdr.msg_len

/-- The next pass reads an empty fragment of a message that is not empty. -/
def Reader.ReadsEmpty : ReaderLabel → Prop
  | .pass env next => ∃ call ∈ r.call, ∃ f ∈ (dtls1GetMessageFragment env next call.2 r.s).2.2,
      f.1.frag_len = 0 ∧ 0 < f.1.msg_len
  | _ => False

variable {received received' : List Received} {queue : Pqueue HmFragment} {item : Pitem HmFragment}

theorem Carried.mono (hsub : received ⊆ received') {seq msg_len i : ℕ} {b : UInt8}
    (h : Carried received seq msg_len i b) : Carried received' seq msg_len i b := by
  obtain ⟨f, hf, hrest⟩ := h
  exact ⟨f, hsub hf, hrest⟩

/-- An entry of the queue: a message in one piece, of bytes that were received for it. -/
structure Held (received : List Received) (item : Pitem HmFragment) : Prop where
  priority : item.priority = seq64be item.data.msg_header.seq
  seq_lt : item.data.msg_header.seq < 2 ^ 16
  frag_off : item.data.msg_header.frag_off = 0
  frag_len : item.data.msg_header.frag_len = item.data.msg_header.msg_len
  gathers : ∃ S, Gathers item.data.msg_header.msg_len
    (Carried received item.data.msg_header.seq item.data.msg_header.msg_len) S item.data

/-- Every entry of a queue is one. -/
def Holds (received : List Received) (queue : Pqueue HmFragment) : Prop :=
  ∀ item ∈ queue, Held received item

theorem Holds.mono (hsub : received ⊆ received') (h : Holds received queue) :
    Holds received' queue := by
  intro item hmem
  obtain ⟨hprio, hlt, hoff, hlen, S, hg⟩ := h item hmem
  exact ⟨hprio, hlt, hoff, hlen, S, hg.mono fun _ _ => Carried.mono hsub⟩

theorem Holds.insert (h : Holds received queue) (hitem : Held received item) :
    Holds received ((pqueueInsert queue item).getD queue) := by
  cases hins : pqueueInsert queue item with
  | none => exact h
  | some queue' =>
    intro x hx
    rcases mem_cons.mp ((pqueueInsert_perm hins).mem_iff.mp hx) with rfl | hmem
    · exact hitem
    · exact h x hmem

theorem outOfSeq_cases (env : ReassemblyEnv) (h : HmHeader) (s : MessageConn) : ∃ queue rrec,
    (dtls1ProcessOutOfSeqMessage env h s).2 =
      { s with buffered_messages := queue, rrec := rrec } ∧
    (queue = s.buffered_messages ∨
      (s.handshake_read_seq < h.seq ∧ h.seq ≤ s.handshake_read_seq + 10) ∧
        (queue = (dtls1ReassembleFragment env h s.buffered_messages s.rrec).2.1 ∨
          h.frag_off = 0 ∧ h.frag_len = h.msg_len ∧ (s.rrec.take h.frag_len).length = h.frag_len ∧
            queue = (pqueueInsert s.buffered_messages
              ⟨seq64be h.seq, ⟨h, s.rrec.take h.frag_len, none⟩⟩).getD s.buffered_messages)) := by
  unfold dtls1ProcessOutOfSeqMessage
  dsimp only
  split_ifs with hlong hguard hfrag hmax hshort
  · exact ⟨_, _, rfl, .inl rfl⟩
  · cases drain h.frag_len s.rrec <;> exact ⟨_, _, rfl, .inl rfl⟩
  · exact ⟨_, _, rfl, .inr ⟨by omega, .inl rfl⟩⟩
  · exact ⟨_, _, rfl, .inl rfl⟩
  · exact ⟨_, _, rfl, .inl rfl⟩
  · exact ⟨_, _, rfl, .inr ⟨by omega, .inr ⟨by omega, of_not_not hfrag, of_not_not hshort, rfl⟩⟩⟩

variable {s : MessageConn}

section

variable {h : HmHeader} (hseq : h.seq < 2 ^ 16) {rest : Bytes}
  (hrest : h.frag_len ≤ rest.length) (hmem : (h, rest.take h.frag_len) ∈ received)

include hrest hmem

omit hrest in
theorem carried_of_mem (j : ℕ) (hj : j < h.frag_len) (b : UInt8) (hb : rest[j]? = some b) :
    Carried received h.seq h.msg_len (h.frag_off + j) b := by
  refine ⟨_, hmem, rfl, rfl, ⟨Nat.le_add_right _ _, by dsimp only; omega⟩, ?_⟩
  rw [Nat.add_sub_cancel_left, getElem?_take_of_lt hj]
  exact hb

include hseq

theorem reassemble_holds (env : ReassemblyEnv) (hq : Holds received queue) :
    Holds received (dtls1ReassembleFragment env h queue rest).2.1 := by
  by_cases hchk : h.msg_len < h.frag_off + h.frag_len ∨ dtls1MaxHandshakeMessageLen env < h.msg_len
  · unfold dtls1ReassembleFragment
    rwa [if_pos hchk]
  obtain ⟨hle, hmax⟩ := not_or.mp hchk
  rcases Nat.eq_zero_or_pos h.frag_len with hzero | hpos
  · unfold dtls1ReassembleFragment
    rwa [if_neg hchk, if_pos hzero]
  have hgood := carried_of_mem hmem
  cases hfind : pqueueFind queue (seq64be h.seq) with
  | none =>
    obtain ⟨e, hg, hh, heq⟩ :=
      reassemble_first hpos (not_lt.mp hle) hrest hgood (not_lt.mp hmax) hfind
    rw [heq]
    refine hq.insert ⟨?_, ?_, ?_, ?_, h.Covers, ?_⟩ <;> dsimp only <;> rw [hh]
    · exact hseq
    · exact hg
  | some item =>
    obtain ⟨hitem, hprio⟩ := pqueueFind_some hfind
    obtain ⟨hprio', hlt, hoff, hlen, S, hg⟩ := hq item hitem
    have hsame : item.data.msg_header.seq = h.seq :=
      seq64be_inj hlt hseq (hprio'.symm.trans hprio)
    by_cases hml : item.data.msg_header.msg_len = h.msg_len
    · rw [hsame, hml] at hg
      obtain ⟨-, heq⟩ | ⟨-, e, hg', hh, heq⟩ :=
        reassemble_later hpos (not_lt.mp hle) hrest hgood (not_lt.mp hmax) hfind hg
      · rwa [heq]
      rw [heq]
      intro x hx
      rcases mem_pqueueUpdate hx with hold | ⟨item', hfind', rfl⟩
      · exact hq x hold
      obtain rfl := Option.some.inj (hfind.symm.trans hfind')
      refine ⟨?_, ?_, ?_, ?_, fun i => S i ∨ h.Covers i, ?_⟩ <;> dsimp only <;> rw [hh]
      · exact hprio'
      · exact hlt
      · exact hoff
      · exact hlen
      · rw [hsame, hml]
        exact hg'
    · unfold dtls1ReassembleFragment
      rw [if_neg hchk, if_neg hpos.ne', hfind]
      dsimp only
      rwa [if_pos hml]

theorem outOfSeq_holds (env : ReassemblyEnv) (hs : s.rrec = rest)
    (hq : Holds received s.buffered_messages) :
    Holds received (dtls1ProcessOutOfSeqMessage env h s).2.buffered_messages := by
  obtain ⟨queue, rrec, heq, rfl | ⟨-, rfl | ⟨hoff, hwhole, hlen, rfl⟩⟩⟩ := outOfSeq_cases env h s
  · rw [heq]
    exact hq
  · rw [heq, hs]
    exact reassemble_holds hseq hrest hmem env hq
  -- A whole message is an entry of its own.
  rw [heq]
  refine hq.insert ⟨rfl, hseq, hoff, hwhole, fun i => i < h.msg_len, rfl, hlen.trans hwhole,
    fun i hi => ?_, fun _ hi => hi, ⟨fun _ _ hi => hi, fun _ => rfl⟩, nofun⟩
  rw [hs, getElem?_take_of_lt (by omega)]
  obtain ⟨b, hb⟩ : ∃ b, rest[i]? = some b :=
    ⟨_, getElem?_eq_getElem (by omega)⟩
  refine ⟨b, hb, ?_⟩
  have hc := carried_of_mem hmem i (by omega) b hb
  rwa [hoff, Nat.zero_add] at hc

end

/-! ## What a pass can do -/

/-- The bytes of a fragment are in place, and its header noted. -/
def MessageConn.placed (s : MessageConn) (h : HmHeader) (bytes : Bytes) : MessageConn :=
  { s with
    init_buf := overwrite (bufMemGrowClean s.init_buf (h.msg_len + dtls1HmHeaderLength))
      (dtls1HmHeaderLength + h.frag_off) bytes
    message_size := h.msg_len
    message_type := h.type
    r_msg_hdr := { s.r_msg_hdr with msg_len := h.msg_len, type := h.type, seq := h.seq } }

/-- A message in one piece, each of its bytes carried by a fragment of it. -/
structure Whole (received : List Received) (h : HmHeader) (bytes : Bytes) : Prop where
  frag_off : h.frag_off = 0
  frag_len : h.frag_len = h.msg_len
  length : bytes.length = h.msg_len
  carried : ∀ i < h.msg_len, ∃ b, bytes[i]? = some b ∧ Carried received h.seq h.msg_len i b

theorem Held.whole (h : Held received item) (hc : item.data.reassembly = none) :
    Whole received item.data.msg_header
      (item.data.fragment.take item.data.msg_header.frag_len) := by
  obtain ⟨S, hg⟩ := h.gathers
  have htake : item.data.fragment.take item.data.msg_header.frag_len = item.data.fragment :=
    take_of_length_le (by rw [hg.length, h.frag_len])
  rw [htake]
  exact ⟨h.frag_off, h.frag_len, hg.length, fun i hi => hg.good i (hg.complete.mp hc i hi)⟩

theorem Whole.complete {h : HmHeader} {bytes : Bytes} (hw : Whole received h bytes)
    (s : MessageConn) :
    (finishMessage { s.placed h bytes with init_num := h.frag_len }).2.Complete received := by
  have hgrow : (bufMemGrowClean s.init_buf (h.msg_len + dtls1HmHeaderLength)).length
      = h.msg_len + dtls1HmHeaderLength := by
    simp only [bufMemGrowClean, length_append, length_take, length_replicate]
    omega
  have hfit : dtls1HmHeaderLength + h.frag_off + bytes.length ≤
      (bufMemGrowClean s.init_buf (h.msg_len + dtls1HmHeaderLength)).length := by
    rw [hw.frag_off, hw.length]
    omega
  have hbody : (finishMessage { s.placed h bytes with init_num := h.frag_len }).2.body = bytes := by
    simp only [Delivery.body, finishMessage, MessageConn.placed]
    rw [take_of_length_le, overwrite_drop_after (Nat.zero_le _)
      (by rw [dtls1WriteMessageHeader_length, Nat.zero_add]), hw.frag_off,
        overwrite_drop (by rw [hgrow]; omega), drop_eq_nil_of_le, append_nil]
    · rw [hw.length]
      omega
    · rw [overwrite_length, overwrite_length hfit, hgrow]
      rw [overwrite_length hfit, dtls1WriteMessageHeader_length]
      omega
  refine ⟨?_, fun i hi => ?_, hw.frag_len⟩
  · rw [hbody]
    exact hw.length
  · rw [hbody]
    exact hw.carried i hi

theorem preprocess_cases (max : ℕ) (h : HmHeader) (hfirst : s.r_msg_hdr.frag_off = 0) :
    (∃ al, al ≠ 0 ∧ dtls1PreprocessFragment max h s = (al, s)) ∨
    (h.frag_off + h.frag_len ≤ h.msg_len ∧ dtls1PreprocessFragment max h s = (0, { s with
      init_buf := bufMemGrowClean s.init_buf (h.msg_len + dtls1HmHeaderLength)
      message_size := h.msg_len
      message_type := h.type
      r_msg_hdr := { s.r_msg_hdr with msg_len := h.msg_len, type := h.type, seq := h.seq } })) := by
  unfold dtls1PreprocessFragment
  split
  · exact .inl ⟨_, by decide, rfl⟩
  next hle =>
  split
  · exact .inl ⟨_, by decide, rfl⟩
  exact .inr ⟨not_lt.mp hle, rfl⟩

/-- The fields that say which message is next. -/
structure SameCount (s s' : MessageConn) : Prop where
  server : s'.server = s.server
  listen : s'.listen = s.listen
  handshake_read_seq : s'.handshake_read_seq = s.handshake_read_seq

theorem retrieve_cases (max : ℕ) (hfirst : s.r_msg_hdr.frag_off = 0) :
    ∃ queue, queue.Sublist s.buffered_messages ∧
      (dtls1RetrieveBufferedFragment max s = (.ret 0, { s with buffered_messages := queue }) ∨
      (∃ al, dtls1RetrieveBufferedFragment max s =
        (.alert al, { s with buffered_messages := queue, init_num := 0 })) ∨
      ∃ item ∈ s.buffered_messages, item.data.reassembly = none ∧
        item.data.msg_header.seq = s.handshake_read_seq ∧
        dtls1RetrieveBufferedFragment max s = (.got item.data.msg_header.frag_len,
          ({ s with buffered_messages := queue } : MessageConn).placed item.data.msg_header
            (item.data.fragment.take item.data.msg_header.frag_len))) := by
  unfold dtls1RetrieveBufferedFragment
  generalize hq : s.buffered_messages.dropWhile _ = queue
  have hsub : queue.Sublist s.buffered_messages := hq ▸ (dropWhile_suffix _).sublist
  cases queue with
  | nil => exact ⟨[], hsub, .inl rfl⟩
  | cons item rest =>
    dsimp only
    split
    · exact ⟨_, hsub, .inl rfl⟩
    next hre =>
    split
    · next hnext =>
      refine ⟨rest, (sublist_cons_self _ _).trans hsub, .inr ?_⟩
      obtain ⟨al, hal, heq⟩ | ⟨-, heq⟩ := preprocess_cases max item.data.msg_header
        (s := { s with buffered_messages := rest }) hfirst
      · rw [heq]
        exact .inl ⟨al, if_neg hal⟩
      · rw [heq]
        exact .inr ⟨item, hsub.subset mem_cons_self, by simpa using hre, hnext.symm, rfl⟩
    · exact ⟨_, hsub, .inl rfl⟩

theorem inPlace_cases (max : ℕ) (h : HmHeader) (hfirst : s.r_msg_hdr.frag_off = 0) :
    let r := readInPlace max h s
    SameCount s r.2 ∧
    r.2.buffered_messages = s.buffered_messages ∧
    r.2.r_msg_hdr.frag_off = 0 ∧
    ∀ n, r.1 = .got n → n = h.frag_len ∧
      h.frag_off + h.frag_len ≤ h.msg_len ∧ (s.rrec.take h.frag_len).length = h.frag_len ∧
      ∃ s', r.2 =
        { MessageConn.placed s' h (s.rrec.take h.frag_len) with init_num := h.frag_len } := by
  unfold readInPlace
  obtain ⟨al, hal, heq⟩ | ⟨hle, heq⟩ := preprocess_cases max h hfirst
  · rw [heq]
    dsimp only
    split_ifs <;> exact ⟨⟨rfl, rfl, rfl⟩, rfl, hfirst, nofun⟩
  rw [heq]
  dsimp only
  rw [if_neg (not_not_intro rfl)]
  split_ifs with _ _ _ hlen
  on_goal 5 =>
    exact ⟨⟨rfl, rfl, rfl⟩, rfl, hfirst, fun n hn => ⟨(FragmentResult.got.inj hn).symm, hle,
      of_not_not hlen, { s with rrec := s.rrec.drop h.frag_len }, rfl⟩⟩
  all_goals exact ⟨⟨rfl, rfl, rfl⟩, rfl, hfirst, nofun⟩

variable {next : NextRecord} {wire : Bytes}

theorem readHeader_frame {len : ℕ} {s' : MessageConn}
    (h : readHandshakeBytes next len s = .ok (wire, s')) :
    ∃ fragment rrec, s' = { s with handshake_fragment := fragment, rrec := rrec } := by
  unfold readHandshakeBytes at h
  split at h
  · cases h
    exact ⟨_, _, rfl⟩
  split at h
  · cases h
    exact ⟨_, _, rfl⟩
  split at h
  · cases h
    exact ⟨_, _, rfl⟩
  · cases h

theorem header_seq_lt {h : HmHeader} (heq : dtls1GetMessageHeader wire = some h) :
    h.seq < 2 ^ 16 := by
  unfold dtls1GetMessageHeader at heq
  split at heq
  · cases heq
    exact (beNat_lt _).trans_eq (by norm_num)
  · cases heq

/-- What a pass leaves: a sound queue, and, when it delivers, a whole message, or nothing of one
whose empty fragment it has read. -/
structure PassSound (received : List Received)
    (out : FragmentResult × MessageConn × Option Received) : Prop where
  holds : Holds (out.2.2.toList ++ received) out.2.1.buffered_messages
  first : out.2.1.r_msg_hdr.frag_off = 0
  got : ∀ n, out.1 = .got n → ∃ s h bytes,
    out.2.1 = { MessageConn.placed s h bytes with init_num := h.frag_len } ∧
      (∀ f ∈ out.2.2, f.1 = h) ∧
    (Whole (out.2.2.toList ++ received) h bytes ∨ h.frag_len = 0 ∧ 0 < h.msg_len ∧ out.2.2 ≠ none)

theorem fragment_sound (env : ReassemblyEnv) (next : NextRecord) (max : ℕ)
    (hq : Holds received s.buffered_messages) (hfirst : s.r_msg_hdr.frag_off = 0) :
    PassSound received (dtls1GetMessageFragment env next max s) := by
  unfold dtls1GetMessageFragment
  obtain ⟨queue, hsub, heq | ⟨al, heq⟩ | ⟨item, hitem, hre, -, heq⟩⟩ := retrieve_cases max hfirst
  · -- The queue has nothing to deliver, so a header is read.
    rw [heq]
    dsimp only
    have hq' : Holds received queue := fun item hmem => hq item (hsub.subset hmem)
    cases hread : readHandshakeBytes next dtls1HmHeaderLength
      { s with buffered_messages := queue } with
    | error i => exact ⟨hq', hfirst, nofun⟩
    | ok p =>
      obtain ⟨wire, s'⟩ := p
      obtain ⟨fragment, rrec, hs'⟩ := readHeader_frame hread
      have hfirst' : s'.r_msg_hdr.frag_off = 0 := hs' ▸ hfirst
      rw [← show s'.buffered_messages = queue by rw [hs']] at hq'
      dsimp only
      cases hwire : dtls1GetMessageHeader wire with
      | none => exact ⟨hq', hfirst', nofun⟩
      | some h =>
        dsimp only
        split
        · exact ⟨hq', hfirst', nofun⟩
        next hlen =>
        have hlen : h.frag_len ≤ s'.rrec.length := not_lt.mp hlen
        have hseq := header_seq_lt hwire
        have hmem : (h, s'.rrec.take h.frag_len) ∈ (h, s'.rrec.take h.frag_len) :: received :=
          mem_cons_self
        have hq'' : Holds ((h, s'.rrec.take h.frag_len) :: received) s'.buffered_messages :=
          hq'.mono (subset_cons_self _ _)
        split
        · refine ⟨outOfSeq_holds hseq hlen hmem env rfl hq'', ?_, nofun⟩
          obtain ⟨queue, rrec, heq, -⟩ := outOfSeq_cases env h s'
          rw [heq]
          exact hfirst'
        split
        · exact ⟨reassemble_holds hseq hlen hmem env hq'', hfirst', nofun⟩
        obtain ⟨-, hbuf', hfirst'', hgot⟩ := inPlace_cases max h hfirst'
        refine ⟨hbuf' ▸ hq'', hfirst'', fun n hn => ?_⟩
        obtain ⟨rfl, hle, htake, s'', hs''⟩ := hgot n hn
        refine ⟨s'', h, _, hs'', by simp, ?_⟩
        -- The fragment is the whole message, unless it is empty and the message is not.
        by_cases hempty : h.frag_len = 0 ∧ 0 < h.msg_len
        · exact .inr ⟨hempty.1, hempty.2, nofun⟩
        have hwhole : h.frag_len = h.msg_len := by omega
        refine .inl ⟨by omega, hwhole, htake.trans hwhole, fun i hi => ?_⟩
        obtain ⟨b, hb⟩ : ∃ b, s'.rrec[i]? = some b :=
          ⟨_, getElem?_eq_getElem (by omega)⟩
        rw [getElem?_take_of_lt (by omega)]
        have hc := carried_of_mem hmem i (by omega) b hb
        rw [show h.frag_off + i = i by omega] at hc
        exact ⟨b, hb, hc⟩
  · rw [heq]
    exact ⟨fun item hmem => hq item (hsub.subset hmem), hfirst, nofun⟩
  · rw [heq]
    refine ⟨fun item hmem => hq item (hsub.subset hmem), hfirst, fun n hn => ?_⟩
    exact ⟨{ s with buffered_messages := queue }, _, _, rfl, by simp,
      .inl ((hq item hitem).whole hre)⟩

structure Reader.Sound : Prop where
  holds : Holds r.received r.s.buffered_messages
  first : r.call.isSome → r.s.r_msg_hdr.frag_off = 0

variable {r : Reader}

theorem Reader.pass_cases {env : ReassemblyEnv} {max : ℕ}
    {out : FragmentResult × MessageConn × Option Received}
    (hout : dtls1GetMessageFragment env next max r.s = out) (msg_type : Option UInt8) :
    (∃ call, r.pass env next msg_type max =
      (⟨out.2.1, call, out.2.2.toList ++ r.received⟩, none)) ∨
    (∃ n, out.1 = .got n) ∧ r.pass env next msg_type max =
      (⟨(finishMessage out.2.1).1, none, out.2.2.toList ++ r.received⟩,
        some (finishMessage out.2.1).2) := by
  obtain ⟨result, s, received⟩ := out
  unfold Reader.pass
  rw [hout]
  cases result with
  | again => exact .inl ⟨_, rfl⟩
  | ret i =>
    dsimp only
    split <;> exact .inl ⟨_, rfl⟩
  | alert al => exact .inl ⟨_, rfl⟩
  | got n =>
    dsimp only
    split
    · exact .inl ⟨_, rfl⟩
    · exact .inr ⟨⟨n, rfl⟩, rfl⟩

theorem pass_sound (h : r.Sound) {msg_type : Option UInt8} {max : ℕ}
    (hcall : r.call = some (msg_type, max)) (env : ReassemblyEnv) (next : NextRecord) :
    let t := r.pass env next msg_type max
    t.1.Sound ∧
    ∀ d, t.2 = some d →
      (d.Complete t.1.received ↔
        ¬∃ f ∈ (dtls1GetMessageFragment env next max r.s).2.2,
          f.1.frag_len = 0 ∧ 0 < f.1.msg_len) := by
  have hpass := fragment_sound env next max h.holds (h.first (hcall ▸ rfl))
  generalize hout : dtls1GetMessageFragment env next max r.s = out at hpass
  obtain ⟨hholds, hfirst, hgot⟩ := hpass
  obtain ⟨call, heq⟩ | ⟨⟨n, hn⟩, heq⟩ := Reader.pass_cases hout msg_type
  · rw [heq]
    exact ⟨⟨hholds, fun _ => hfirst⟩, nofun⟩
  rw [heq]
  refine ⟨⟨hholds, nofun⟩, fun d hd => ?_⟩
  cases hd
  obtain ⟨s', hdr, bytes, hs, hhdr, hwhole⟩ := hgot n hn
  rcases hwhole with hwhole | ⟨hzero, hpos, hrec⟩
  · rw [hs]
    refine iff_of_true (hwhole.complete s') ?_
    rintro ⟨f, hf, hf0, hfpos⟩
    have hlen := hwhole.frag_len
    rw [hhdr f hf] at hf0 hfpos
    omega
  -- Nothing of the message is there, and its length is not what is returned.
  obtain ⟨f, hf⟩ := Option.ne_none_iff_exists'.mp hrec
  refine iff_of_false (fun hc => ?_) (not_not_intro ⟨f, hf, ?_⟩)
  · have hnum := hc.init_num
    rw [hs] at hnum
    exact absurd (hnum.symm.trans hzero) hpos.ne'
  · rw [hhdr f hf]
    exact ⟨hzero, hpos⟩

theorem step_pass {msg_type : Option UInt8} {max : ℕ} (hcall : r.call = some (msg_type, max))
    (env : ReassemblyEnv) (next : NextRecord) :
    r.step (.pass env next) = r.pass env next msg_type max := by
  unfold Reader.step
  rw [hcall]

/-- A step is a pass of the call that is running, or delivers nothing and adds nothing. -/
theorem Reader.step_cases (r : Reader) (label : ReaderLabel) :
    (∃ env next msg_type max, label = .pass env next ∧ r.call = some (msg_type, max)) ∨
    ∃ r', r.step label = (r', none) ∧ r'.received = r.received ∧
      r'.s.buffered_messages.Sublist r.s.buffered_messages ∧
      ((r.call.isSome → r.s.r_msg_hdr.frag_off = 0) →
        r'.call.isSome → r'.s.r_msg_hdr.frag_off = 0) := by
  cases label with
  | call msg_type max =>
    unfold Reader.step
    dsimp only
    split_ifs
    · exact .inr ⟨_, rfl, rfl, Sublist.refl _, id⟩
    · exact .inr ⟨_, rfl, rfl, Sublist.refl _, nofun⟩
    · exact .inr ⟨_, rfl, rfl, Sublist.refl _, nofun⟩
    · exact .inr ⟨_, rfl, rfl, Sublist.refl _, fun _ _ => rfl⟩
  | pass env next =>
    cases hcall : r.call with
    | none =>
      unfold Reader.step
      rw [hcall]
      exact .inr ⟨r, rfl, rfl, Sublist.refl _, fun _ hc => by simp [hcall] at hc⟩
    | some call => exact .inl ⟨env, next, call.1, call.2, rfl, rfl⟩
  | between b =>
    unfold Reader.step
    dsimp only
    split
    · exact .inr ⟨_, rfl, rfl, Sublist.refl _, id⟩
    refine .inr ⟨_, rfl, rfl, ?_, nofun⟩
    dsimp only [Between.apply]
    split
    · exact nil_sublist _
    · exact Sublist.refl _

theorem step_sound (h : r.Sound) (label : ReaderLabel) : (r.step label).1.Sound := by
  obtain ⟨env, next, msg_type, max, rfl, hcall⟩ | ⟨r', heq, hrec, hsub, hfirst⟩ :=
    r.step_cases label
  · rw [step_pass hcall]
    exact (pass_sound h hcall env next).1
  · rw [heq]
    exact ⟨hrec ▸ fun item hmem => h.holds item (hsub.subset hmem), hfirst h.first⟩

theorem run_sound (server : Bool) (labels : List ReaderLabel) :
    ((Reader.init server).run labels).Sound := by
  have hstep (r : Reader) (label : ReaderLabel) (h : r.Sound) := step_sound h label
  exact run_invariant_all hstep labels _ ⟨fun item hmem => absurd hmem not_mem_nil, nofun⟩

/-- Whatever arrives and happens: a message that `dtls1_get_message` delivers consists of bytes that
fragments with its number and length carried, exactly if it is not delivered on an empty fragment of
a message that is not empty. -/
theorem getMessage_complete_iff (server : Bool) (labels : List ReaderLabel) (label : ReaderLabel)
    (d : Delivery) (hstep : (((Reader.init server).run labels).step label).2 = some d) :
    d.Complete (((Reader.init server).run labels).step label).1.received ↔
      ¬((Reader.init server).run labels).ReadsEmpty label := by
  have hsound := run_sound server labels
  generalize (Reader.init server).run labels = r at hstep hsound
  obtain ⟨env, next, msg_type, max, rfl, hcall⟩ | ⟨r', heq, -⟩ := r.step_cases label
  · rw [step_pass hcall] at hstep ⊢
    rw [(pass_sound hsound hcall env next).2 d hstep]
    simp [Reader.ReadsEmpty, hcall]
  · rw [heq] at hstep
    cases hstep

/-- A message of three bytes whose second fragment arrives first is delivered complete. -/
theorem getMessage_complete_reordered :
    let env : ReassemblyEnv := ⟨0, fun _ => 0⟩
    let r := (Reader.init true).run
      [.call none 100, .pass env (.record 1 [0, 0, 3, 0, 0, 0, 0, 1, 0, 0, 2, 8, 9]),
        .pass env (.record 1 [0, 0, 3, 0, 0, 0, 0, 0, 0, 0, 1, 7])]
    let label : ReaderLabel := .pass env (.fail (-1) (by decide))
    ∃ d, (r.step label).2 = some d ∧ d.body = [7, 8, 9] ∧ d.Complete (r.step label).1.received := by
  intro env r label
  have hd : (r.step label).2 =
      some ⟨⟨1, 3, 0, 0, 0⟩, [1, 0, 0, 3, 0, 0, 0, 0, 0, 0, 0, 3, 7, 8, 9], 3⟩ := by decide
  refine ⟨_, hd, rfl, (getMessage_complete_iff true _ label _ hd).mpr ?_⟩
  rintro ⟨call, hcall, f, hf, -⟩
  obtain rfl : (none, 100) = call := Option.some.inj hcall
  exact absurd hf nofun

/-- An empty fragment of a message of three bytes delivers it: what `init_buf` held before is
hashed, and zero is returned. -/
theorem getMessage_empty_fragment :
    let env : ReassemblyEnv := ⟨0, fun _ => 0⟩
    let stale : Bytes := [0, 0, 0, 0, 0, 0, 0, 0, 0, 0, 0, 0, 4, 5, 6]
    let r := (Reader.init true).run
      [.between ⟨false, 0, true, stale, 15, false, [], [], by decide⟩, .call none 100]
    let label : ReaderLabel := .pass env (.record 1 [0, 0, 3, 0, 0, 0, 0, 0, 0, 0, 0])
    ∃ d, (r.step label).2 = some d ∧ d.msg_hdr.msg_len = 3 ∧ d.body = [4, 5, 6] ∧ d.init_num = 0 ∧
      (∀ i b, ¬Carried (r.step label).1.received 0 3 i b) ∧
      ¬d.Complete (r.step label).1.received := by
  intro env stale r label
  have hd : (r.step label).2 =
      some ⟨⟨1, 3, 0, 0, 0⟩, [1, 0, 0, 3, 0, 0, 0, 0, 0, 0, 0, 3, 4, 5, 6], 0⟩ := by decide
  refine ⟨_, hd, rfl, rfl, rfl, ?_, fun h => absurd h.init_num (by decide)⟩
  rintro i b ⟨f, hf, -, -, hcov, -⟩
  obtain rfl := mem_singleton.mp hf
  exact absurd (hcov.1.trans_lt hcov.2) (by decide)

end VigorTls.Dtls
