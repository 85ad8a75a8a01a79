import VigorTls.Dtls.Reassembly

/-!
# The numbers of the records that are sent

`do_dtls1_write` of `ssl/d1_pkt.c` numbers each record by the epoch and `write_sequence`.
`dtls1_retransmit_message` of `ssl/d1_both.c` swaps the write state of an earlier message in and out
by hand, with `last_write_sequence` for the numbers of the epoch before.

A pair of epoch and number is used at most once under a key (`nonces_differ`), unless the epoch
wraps: epochs are compared in `int`, so a message of epoch 65535 then goes out with the numbers of
the new epoch (`nonces_differ_wrapped`), and a suite without AEAD leaves the old `aead_write_ctx` in
use. A context is known by the change of state that created it.
-/

namespace VigorTls.Dtls

open Lib List

/-! ## The write state -/

/-- `struct dtls1_retransmit_state`. -/
structure RetransmitState where
  enc_write_ctx : Option ℕ
  write_hash : Option ℕ
  session : Bool
  epoch : ℕ
  /-- Ghost: the epoch, not cut off at 16 bits. -/
  change : ℕ

/-- `hm_fragment`, as `dtls1_buffer_message` keeps it. -/
structure SentMessage where
  msg_header : HmHeader
  is_ccs : Bool
  fragment : Bytes
  saved_retransmit_state : RetransmitState

/-- What a record is protected with. -/
inductive WriteKey where
  | plain
  | cipher (ctx : ℕ)
  | aead (ctx : ℕ)
deriving DecidableEq

/-- A record that is handed to the transport. -/
structure WireRecord where
  type : ℕ
  epoch : ℕ
  /-- The six bytes of the sequence number. -/
  seq : ℕ
  key : WriteKey
  payload : Bytes
  /-- Ghost: the epoch, not cut off at 16 bits. -/
  change : ℕ
deriving DecidableEq

/-- The fields of the connection that sending works on. -/
structure Sender where
  w_epoch : ℕ
  write_sequence : ℕ
  last_write_sequence : ℕ
  enc_write_ctx : Option ℕ
  write_hash : Option ℕ
  aead_write_ctx : Option ℕ
  session : Bool
  alert_dispatch : Bool
  send_alert : UInt8 × UInt8
  sent_messages : Pqueue SentMessage
  /-- Ghost: `w_epoch`, not cut off at 16 bits. -/
  w_change : ℕ

def Sender.init : Sender :=
  ⟨0, 0, 0, none, none, none, false, false, (0, 0), [], 0⟩

/-- What `tls1_enc` protects a record with: `aead_write_ctx` if there is one, and else
`enc_write_ctx`. -/
def Sender.writeKey (s : Sender) : WriteKey :=
  match s.aead_write_ctx, s.enc_write_ctx with
  | some ctx, _ => .aead ctx
  | none, some ctx => if s.session then .cipher ctx else .plain
  | none, none => .plain

/-- What a call of `do_dtls1_write` meets. -/
structure Outcome where
  mac : Bool
  enc : Bool
  /-- `BIO_write`: `none` if it takes the record, maybe in parts, or a value `≤ 0`, and the record
  is dropped. -/
  bio : Option ℤ

/-- `do_dtls1_write` when no alert is waiting; `wbuf.left` is zero between calls. -/
def writeRecord (o : Outcome) (type : ℕ) (buf : Bytes) (s : Sender) :
    ℤ × Sender × List WireRecord :=
  if buf = [] then (0, s, [])
  else if !o.mac then (-1, s, [])
  else if !o.enc then (-1, s, [])
  else
    (o.bio.getD buf.length, { s with write_sequence := (s.write_sequence + 1) % 2 ^ 64 },
      [⟨type, s.w_epoch, s.write_sequence % 2 ^ 48, s.writeKey, buf, s.w_change⟩])

def dtls1DispatchAlert (o : Outcome) (s : Sender) : ℤ × Sender × List WireRecord :=
  let s := { s with alert_dispatch := false }
  match writeRecord o ssl3RtAlert [s.send_alert.1, s.send_alert.2] s with
  | (i, s, log) => (i, { s with alert_dispatch := decide (i ≤ 0) }, log)

/-- `do_dtls1_write`: an alert that is waiting goes first. -/
def doDtls1Write (alert o : Outcome) (type : ℕ) (buf : Bytes) (s : Sender) :
    ℤ × Sender × List WireRecord :=
  if s.alert_dispatch then
    match dtls1DispatchAlert alert s with
    | (i, s, log) =>
      if i ≤ 0 then (i, s, log)
      else
        match writeRecord o type buf s with
        | (ret, s, log') => (ret, s, log ++ log')
  else writeRecord o type buf s

/-- A call of `dtls1_write_bytes`. -/
structure WriteBytes where
  alert : Outcome
  outcome : Outcome
  buf : Bytes

/-- `dtls1_do_write` calls `dtls1_write_bytes` for the fragments of the message. -/
def writeFragments (type : ℕ) : List WriteBytes → Sender → Sender × List WireRecord
  | [], s => (s, [])
  | c :: calls, s =>
    match doDtls1Write c.alert c.outcome type c.buf s with
    | (_, s, log) =>
      match writeFragments type calls s with
      | (s, log') => (s, log ++ log')

/-- `dtls1_get_queue_priority`, in an `unsigned short`. -/
def dtls1GetQueuePriority (seq : ℕ) (is_ccs : Bool) : ℕ :=
  (((seq * 2 : ℕ) - (if is_ccs then 1 else 0) : ℤ) % 2 ^ 16).toNat

/-- `dtls1_buffer_message`, on a message just serialized. A message of a taken priority is lost. -/
def dtls1BufferMessage (is_ccs : Bool) (w_msg_hdr : HmHeader) (data : Bytes) (s : Sender) :
    Sender :=
  let frag : SentMessage :=
    { msg_header := { w_msg_hdr with frag_off := 0, frag_len := w_msg_hdr.msg_len }
      is_ccs := is_ccs
      fragment := data
      saved_retransmit_state := ⟨s.enc_write_ctx, s.write_hash, s.session, s.w_epoch, s.w_change⟩ }
  { s with sent_messages :=
      (pqueueInsert s.sent_messages
        ⟨seq64be (dtls1GetQueuePriority w_msg_hdr.seq is_ccs), frag⟩).getD s.sent_messages }

variable (saved : RetransmitState)

/-- The saved epoch is the one before `w_epoch`, compared as `int`. -/
def RetransmitState.isLast (w_epoch : ℕ) : Bool :=
  (saved.epoch : ℤ) == w_epoch - 1

/-- `dtls1_retransmit_message` up to `dtls1_do_write`: the state of the first sending. -/
def restoreState (s : Sender) : Sender :=
  { s with
    enc_write_ctx := saved.enc_write_ctx
    write_hash := saved.write_hash
    session := saved.session
    w_epoch := saved.epoch
    w_change := saved.change
    write_sequence :=
      if saved.isLast s.w_epoch then s.last_write_sequence else s.write_sequence }

/-- And from there on: the state `s` of before the call. -/
def restoreCurrent (s s' : Sender) : Sender :=
  { s' with
    enc_write_ctx := s.enc_write_ctx
    write_hash := s.write_hash
    session := s.session
    w_epoch := s.w_epoch
    w_change := s.w_change
    last_write_sequence :=
      if saved.isLast s.w_epoch then s'.write_sequence else s'.last_write_sequence
    write_sequence := if saved.isLast s.w_epoch then s.write_sequence else s'.write_sequence }

def dtls1RetransmitMessage (seq : ℕ) (calls : List WriteBytes) (s : Sender) :
    Sender × List WireRecord :=
  match pqueueFind s.sent_messages (seq64be seq) with
  | none => (s, [])
  | some item =>
    let saved := item.data.saved_retransmit_state
    let type := if item.data.is_ccs then ssl3RtChangeCipherSpec else ssl3RtHandshake
    match writeFragments type calls (restoreState saved s) with
    | (s', log) => (restoreCurrent saved s s', log)

/-- A suite with AEAD sets `aead_write_ctx`, any other the other two. -/
def changeWriteState (aead : Bool) (s : Sender) : Sender :=
  let ctx := s.w_change + 1
  if aead then { s with aead_write_ctx := some ctx }
  else { s with enc_write_ctx := some ctx, write_hash := some ctx }

/-- `dtls1_reset_seq_numbers(s, SSL3_CC_WRITE)`. -/
def resetWriteSeq (s : Sender) : Sender :=
  { s with
    last_write_sequence := s.write_sequence
    w_epoch := (s.w_epoch + 1) % 2 ^ 16
    w_change := s.w_change + 1
    write_sequence := 0 }

inductive SendOp where
  /-- `dtls1_write_bytes`, for application data and for the fragments of messages. -/
  | write (type : ℕ) (call : WriteBytes)
  | alert (level desc : UInt8) (outcome : Outcome)
  | session
  | buffer (is_ccs : Bool) (w_msg_hdr : HmHeader) (data : Bytes)
  | clearSent
  | retransmit (seq : ℕ) (calls : List WriteBytes)
  /-- The write state is changed, to a suite with AEAD or without. The session holds its cipher. -/
  | change (aead : Bool)

/-- The state after an operation, and the records that it sends. -/
def SendOp.apply (s : Sender) : SendOp → Sender × List WireRecord
  | .write type c => (doDtls1Write c.alert c.outcome type c.buf s).2
  | .alert level desc o => (dtls1DispatchAlert o { s with send_alert := (level, desc) }).2
  | .session => ({ s with session := true }, [])
  | .buffer is_ccs w_msg_hdr data => (dtls1BufferMessage is_ccs w_msg_hdr data s, [])
  | .clearSent => ({ s with sent_messages := [] }, [])
  | .retransmit seq calls => dtls1RetransmitMessage seq calls s
  | .change aead => (resetWriteSeq (changeWriteState aead { s with session := true }), [])

structure Sent where
  s : Sender
  log : List WireRecord

def Sent.step (h : Sent) (op : SendOp) : Sent :=
  ⟨(op.apply h.s).1, h.log ++ (op.apply h.s).2⟩

def sentIn (k : ℕ) (log : List WireRecord) : ℕ := log.countP fun r => r.change = k

@[simp] theorem sentIn_append (k : ℕ) (log new : List WireRecord) :
    sentIn k (log ++ new) = sentIn k log + sentIn k new := countP_append

/-- The message was buffered in the current write epoch or the one before. -/
def Sent.Recent (h : Sent) : SendOp → Prop
  | .retransmit seq _ => ∀ item ∈ pqueueFind h.s.sent_messages (seq64be seq),
      item.data.saved_retransmit_state.change = h.s.w_change ∨
        item.data.saved_retransmit_state.change + 1 = h.s.w_change
  | _ => True

/-- No message of epoch 65535 is sent again in epoch 0, and a suite without AEAD comes less than
65535 changes after the `aead_write_ctx` that it leaves in use. -/
def Sent.Unwrapped (h : Sent) : SendOp → Prop
  | .retransmit seq _ => ∀ item ∈ pqueueFind h.s.sent_messages (seq64be seq),
      h.s.w_epoch = 0 → item.data.saved_retransmit_state.epoch ≠ 65535
  | .change false => ∀ ctx ∈ h.s.aead_write_ctx, h.s.w_change + 1 < ctx + 65535
  | _ => True

/-- The epochs whose records a key may protect: those of a cipher its own, those of an AEAD from the
one before its own, at most 65535 on. -/
def WriteKey.Covers : WriteKey → ℕ → Prop
  | .plain, k => k = 0
  | .cipher ctx, k => ctx = k
  | .aead ctx, k => ctx ≤ k + 1 ∧ k + 1 < ctx + 2 ^ 16

theorem WriteKey.Covers.eq {key : WriteKey} {k k' : ℕ} (h : key.Covers k) (h' : key.Covers k')
    (hmod : k % 2 ^ 16 = k' % 2 ^ 16) : k = k' := by
  cases key with
  | plain => exact h.trans h'.symm
  | cipher ctx => exact h.symm.trans h'
  | aead ctx =>
    obtain ⟨hlo, hhi⟩ := h
    obtain ⟨hlo', hhi'⟩ := h'
    omega

/-- Each epoch's records are numbered upwards, by less than there are. -/
structure LogOk (log : List WireRecord) : Prop where
  ordered : log.Pairwise fun r r' => r.change = r'.change → r.seq < r'.seq
  below : ∀ r ∈ log, r.seq < sentIn r.change log
  epoch : ∀ r ∈ log, r.epoch = r.change % 2 ^ 16
  key : ∀ r ∈ log, r.key.Covers r.change

variable {log : List WireRecord}

theorem LogOk.differ (h : LogOk log) :
    log.Pairwise fun r r' => r.key = r'.key → (r.epoch, r.seq) ≠ (r'.epoch, r'.seq) := by
  refine h.ordered.imp_of_mem fun {r r'} hr hr' hlt hkey heq => ?_
  obtain ⟨hepoch, hseq⟩ := Prod.mk.inj heq
  rw [h.epoch r hr, h.epoch r' hr'] at hepoch
  have hcovers := h.key r' hr'
  rw [← hkey] at hcovers
  have := hlt ((h.key r hr).eq hcovers hepoch)
  omega

theorem LogOk.snoc (h : LogOk log) {r : WireRecord} (hseq : r.seq = sentIn r.change log)
    (hepoch : r.epoch = r.change % 2 ^ 16) (hkey : r.key.Covers r.change) : LogOk (log ++ [r]) := by
  have hself : sentIn r.change [r] = 1 := by simp [sentIn]
  refine ⟨?_, fun r' hr' => ?_, fun r' hr' => ?_, fun r' hr' => ?_⟩
  · refine pairwise_append.mpr ⟨h.ordered, pairwise_singleton _ _, fun a ha b hb hab => ?_⟩
    obtain rfl := mem_singleton.mp hb
    rw [hseq, ← hab]
    exact h.below a ha
  · rw [sentIn_append]
    rcases mem_append.mp hr' with hr' | hr'
    · exact Nat.lt_add_right _ (h.below r' hr')
    · obtain rfl := mem_singleton.mp hr'
      omega
  · rcases mem_append.mp hr' with hr' | hr'
    · exact h.epoch r' hr'
    · rwa [mem_singleton.mp hr']
  · rcases mem_append.mp hr' with hr' | hr'
    · exact h.key r' hr'
    · rwa [mem_singleton.mp hr']

/-! ## Writing -/

/-- The next number is how many records were sent in the epoch. -/
structure Writing (s : Sender) (log : List WireRecord) : Prop where
  epoch : s.w_epoch = s.w_change % 2 ^ 16
  next : s.write_sequence = sentIn s.w_change log
  key : s.writeKey.Covers s.w_change

/-- Only the next number and the waiting alert change, and the records are of this epoch. -/
structure Sends (s : Sender) (log : List WireRecord) (s' : Sender) (new : List WireRecord) :
    Prop where
  frame : s' = { s with
    write_sequence := s'.write_sequence, alert_dispatch := s'.alert_dispatch }
  change : ∀ r ∈ new, r.change = s.w_change
  logged : LogOk (log ++ new)
  writing : Writing s' (log ++ new)

namespace Sends

variable {s s' s'' : Sender} {new' : List WireRecord}

theorem w_change (h : Sends s log s' new) : s'.w_change = s.w_change := by rw [h.frame]

theorem nil (hlog : LogOk log) (hw : Writing s log) : Sends s log s [] where
  frame := rfl
  change := fun _ hr => by cases hr
  logged := by rwa [append_nil]
  writing := by rwa [append_nil]

theorem trans (h : Sends s log s' new) (h' : Sends s' (log ++ new) s'' new') :
    Sends s log s'' (new ++ new') where
  frame := by
    have hframe := h'.frame
    rw [h.frame] at hframe
    exact hframe
  change := fun r hr => by
    rcases mem_append.mp hr with hr | hr
    · exact h.change r hr
    · exact (h'.change r hr).trans h.w_change
  logged := by
    rw [← append_assoc]
    exact h'.logged
  writing := by
    rw [← append_assoc]
    exact h'.writing

theorem alert (b b' : Bool) (h : Sends { s with alert_dispatch := b } log s' new) :
    Sends s log { s' with alert_dispatch := b' } new where
  frame := by
    have hframe := h.frame
    rw [hframe]
  change := h.change
  logged := h.logged
  writing := ⟨h.writing.epoch, h.writing.next, h.writing.key⟩

theorem sentIn_other (h : Sends s log s' new) {k : ℕ} (hk : k ≠ s.w_change) :
    sentIn k (log ++ new) = sentIn k log := by
  have hzero : sentIn k new = 0 := by
    refine countP_eq_zero.mpr fun r hr => ?_
    rw [h.change r hr]
    simpa using hk.symm
  rw [sentIn_append, hzero, Nat.add_zero]

end Sends

/-- Fewer than 2^48 records were sent in each epoch. -/
def Few (log : List WireRecord) : Prop := ∀ k, sentIn k log < 2 ^ 48

variable {new : List WireRecord}

theorem Few.left (h : Few (log ++ new)) : Few log := fun k => by
  have := h k
  rw [sentIn_append] at this
  omega

section

variable {s : Sender} (hlog : LogOk log) (hw : Writing s log)

include hlog hw

theorem writeRecord_sends (o : Outcome) (type : ℕ) (buf : Bytes)
    (hfew : Few (log ++ (writeRecord o type buf s).2.2)) :
    Sends s log (writeRecord o type buf s).2.1 (writeRecord o type buf s).2.2 := by
  have hbound := hfew.left s.w_change
  unfold writeRecord
  split_ifs with hbuf hmac henc
  · exact .nil hlog hw
  · exact .nil hlog hw
  · exact .nil hlog hw
  have hseq : s.write_sequence % 2 ^ 48 = sentIn s.w_change log := by
    rw [hw.next, Nat.mod_eq_of_lt hbound]
  refine ⟨rfl, fun r hr => ?_, hlog.snoc hseq hw.epoch hw.key, ⟨hw.epoch, ?_, hw.key⟩⟩
  · rw [mem_singleton.mp hr]
  · rw [hw.next, Nat.mod_eq_of_lt (by omega)]
    simp [sentIn]

theorem dtls1DispatchAlert_sends (o : Outcome) (hfew : Few (log ++ (dtls1DispatchAlert o s).2.2)) :
    Sends s log (dtls1DispatchAlert o s).2.1 (dtls1DispatchAlert o s).2.2 :=
  (writeRecord_sends (s := { s with alert_dispatch := false }) hlog ⟨hw.epoch, hw.next, hw.key⟩
    o ssl3RtAlert [s.send_alert.1, s.send_alert.2] hfew).alert false _

theorem doDtls1Write_sends (alert o : Outcome) (type : ℕ) (buf : Bytes)
    (hfew : Few (log ++ (doDtls1Write alert o type buf s).2.2)) :
    Sends s log (doDtls1Write alert o type buf s).2.1 (doDtls1Write alert o type buf s).2.2 := by
  unfold doDtls1Write at hfew ⊢
  cases hwaits : s.alert_dispatch with
  | false =>
    rw [hwaits] at hfew
    exact writeRecord_sends hlog hw o type buf hfew
  | true =>
    simp only [if_true] at hfew ⊢
    have halert := dtls1DispatchAlert_sends hlog hw alert
    generalize dtls1DispatchAlert alert s = r at halert hfew ⊢
    split_ifs at hfew ⊢ with hi
    · exact halert hfew
    · rw [← append_assoc] at hfew
      have hsends := halert hfew.left
      exact hsends.trans (writeRecord_sends hsends.logged hsends.writing o type buf hfew)

end

theorem writeFragments_sends (type : ℕ) : ∀ (calls : List WriteBytes) {s : Sender}
    {log : List WireRecord}, LogOk log → Writing s log →
    Few (log ++ (writeFragments type calls s).2) →
    Sends s log (writeFragments type calls s).1 (writeFragments type calls s).2
  | [], _, _, hlog, hw, _ => .nil hlog hw
  | c :: calls, s, log, hlog, hw, hfew => by
    have hfirst := doDtls1Write_sends hlog hw c.alert c.outcome type c.buf
    unfold writeFragments at hfew ⊢
    generalize doDtls1Write c.alert c.outcome type c.buf s = r at hfirst hfew ⊢
    rw [← append_assoc] at hfew
    have hsends := hfirst hfew.left
    exact hsends.trans (writeFragments_sends type calls hsends.logged hsends.writing hfew)

/-! ## Whole runs -/

/-- `enc_write_ctx` in an epoch, when no suite had AEAD. -/
def encCtx (k : ℕ) : Option ℕ := if k = 0 then none else some k

/-- What a saved state says of its epoch. -/
structure SavedOk (aead : Option ℕ) (saved : RetransmitState) : Prop where
  epoch : saved.epoch = saved.change % 2 ^ 16
  enc : aead = none → saved.enc_write_ctx = encCtx saved.change
  session : 0 < saved.change → saved.session = true

structure Sent.Ok (h : Sent) : Prop where
  logged : LogOk h.log
  epoch : h.s.w_epoch = h.s.w_change % 2 ^ 16
  next : h.s.write_sequence = sentIn h.s.w_change h.log
  /-- `last_write_sequence` is the next number of the epoch before. -/
  last : ∀ k, k + 1 = h.s.w_change → h.s.last_write_sequence = sentIn k h.log
  /-- Nothing was sent in an epoch to come. -/
  past : ∀ r ∈ h.log, r.change ≤ h.s.w_change
  aead : ∀ ctx ∈ h.s.aead_write_ctx, ctx ≤ h.s.w_change ∧ h.s.w_change + 1 < ctx + 2 ^ 16
  enc : h.s.aead_write_ctx = none → h.s.enc_write_ctx = encCtx h.s.w_change
  session : 0 < h.s.w_change → h.s.session = true
  saved : ∀ item ∈ h.s.sent_messages, SavedOk h.s.aead_write_ctx item.data.saved_retransmit_state

theorem writeKey_covers {s : Sender} {k : ℕ}
    (haead : ∀ ctx ∈ s.aead_write_ctx, ctx ≤ k + 1 ∧ k + 1 < ctx + 2 ^ 16)
    (henc : s.aead_write_ctx = none → s.enc_write_ctx = encCtx k)
    (hsession : 0 < k → s.session = true) : s.writeKey.Covers k := by
  unfold Sender.writeKey
  cases hctx : s.aead_write_ctx with
  | some ctx => exact haead ctx hctx
  | none =>
    rw [henc hctx]
    unfold encCtx
    by_cases hk : k = 0
    · rw [if_pos hk]
      exact hk
    · rw [if_neg hk]
      rw [hsession (Nat.pos_of_ne_zero hk)]
      rfl

variable {h : Sent} {saved : RetransmitState}

section

variable (hok : h.Ok)

include hok

theorem Sent.Ok.writing : Writing h.s h.log where
  epoch := hok.epoch
  next := hok.next
  key := writeKey_covers (fun ctx hctx => ⟨(hok.aead ctx hctx).1.trans (Nat.le_succ _),
    (hok.aead ctx hctx).2⟩) hok.enc hok.session

theorem Sent.Ok.sends {s' : Sender} (hsends : Sends h.s h.log s' new) :
    Sent.Ok ⟨s', h.log ++ new⟩ := by
  have hframe := hsends.frame
  have hchange := hsends.w_change
  exact {
    logged := hsends.logged
    epoch := hsends.writing.epoch
    next := hsends.writing.next
    last := fun k hk => by
      rw [hchange] at hk
      rw [hsends.sentIn_other (by omega), hframe]
      exact hok.last k hk
    past := fun r hr => by
      rw [hchange]
      rcases mem_append.mp hr with hr | hr
      · exact hok.past r hr
      · exact (hsends.change r hr).le
    aead := by rw [hframe]; exact hok.aead
    enc := by rw [hframe]; exact hok.enc
    session := by rw [hframe]; exact hok.session
    saved := by rw [hframe]; exact hok.saved }

theorem restoreState_writing (hsaved : SavedOk h.s.aead_write_ctx saved)
    (hrecent : saved.change = h.s.w_change ∨ saved.change + 1 = h.s.w_change)
    (hwrap : h.s.w_epoch = 0 → saved.epoch ≠ 65535) :
    Writing (restoreState saved h.s) h.log ∧
      (saved.isLast h.s.w_epoch = true ↔ saved.change + 1 = h.s.w_change) := by
  have hepoch := hok.epoch
  have hsepoch := hsaved.epoch
  have hlast : saved.isLast h.s.w_epoch = true ↔ saved.change + 1 = h.s.w_change := by
    rw [RetransmitState.isLast, beq_iff_eq]
    omega
  have hkey : (restoreState saved h.s).writeKey.Covers saved.change := by
    refine writeKey_covers (fun ctx hctx => ?_) hsaved.enc hsaved.session
    obtain ⟨hlo, hhi⟩ := hok.aead ctx hctx
    omega
  refine ⟨⟨hsepoch, ?_, hkey⟩, hlast⟩
  show (if saved.isLast h.s.w_epoch then h.s.last_write_sequence else h.s.write_sequence) =
    sentIn saved.change h.log
  by_cases hprev : saved.change + 1 = h.s.w_change
  · rw [if_pos (hlast.mpr hprev)]
    exact hok.last _ hprev
  · rw [if_neg (fun h => hprev (hlast.mp h)), hok.next, hrecent.resolve_right hprev]

theorem Sent.Ok.restore {s' : Sender} (hsends : Sends (restoreState saved h.s) h.log s' new)
    (hrecent : saved.change = h.s.w_change ∨ saved.change + 1 = h.s.w_change)
    (hlast : saved.isLast h.s.w_epoch = true ↔ saved.change + 1 = h.s.w_change) :
    Sent.Ok ⟨restoreCurrent saved h.s s', h.log ++ new⟩ := by
  have hframe := hsends.frame
  have hchange : s'.w_change = saved.change := hsends.w_change
  have hnext := hsends.writing.next
  rw [hchange] at hnext
  have hother : ∀ k, k ≠ saved.change → sentIn k (h.log ++ new) = sentIn k h.log :=
    fun k hk => hsends.sentIn_other hk
  have hkept : s'.aead_write_ctx = h.s.aead_write_ctx ∧ s'.sent_messages = h.s.sent_messages ∧
      s'.last_write_sequence = h.s.last_write_sequence := by
    rw [hframe]
    exact ⟨rfl, rfl, rfl⟩
  obtain ⟨haead, hmessages, hlastseq⟩ := hkept
  -- The records went under the last change or under the one before it.
  exact {
    logged := hsends.logged
    epoch := hok.epoch
    next := by
      show (if saved.isLast h.s.w_epoch then h.s.write_sequence else s'.write_sequence) =
        sentIn h.s.w_change (h.log ++ new)
      by_cases hprev : saved.change + 1 = h.s.w_change
      · rw [if_pos (hlast.mpr hprev), hother _ (by omega)]
        exact hok.next
      · rw [if_neg fun h => hprev (hlast.mp h), hnext, hrecent.resolve_right hprev]
    last := fun k hk => by
      replace hk : k + 1 = h.s.w_change := hk
      show (if saved.isLast h.s.w_epoch then s'.write_sequence else s'.last_write_sequence) =
        sentIn k (h.log ++ new)
      by_cases hprev : saved.change + 1 = h.s.w_change
      · obtain rfl : k = saved.change := by omega
        rw [if_pos (hlast.mpr hprev), hnext]
      · rw [if_neg fun h => hprev (hlast.mp h), hlastseq, hother k (by omega)]
        exact hok.last k hk
    past := fun r hr => by
      rcases mem_append.mp hr with hr | hr
      · exact hok.past r hr
      · rw [hsends.change r hr]
        show saved.change ≤ h.s.w_change
        omega
    aead := by
      show ∀ ctx ∈ s'.aead_write_ctx, _
      rw [haead]
      exact hok.aead
    enc := by
      show s'.aead_write_ctx = none → _
      rw [haead]
      exact hok.enc
    session := hok.session
    saved := by
      show ∀ item ∈ s'.sent_messages, SavedOk s'.aead_write_ctx _
      rw [hmessages, haead]
      exact hok.saved }

theorem dtls1RetransmitMessage_ok (seq : ℕ) (calls : List WriteBytes)
    (hrecent : h.Recent (.retransmit seq calls)) (hwrap : h.Unwrapped (.retransmit seq calls))
    (hfew : Few (h.log ++ (dtls1RetransmitMessage seq calls h.s).2)) :
    Sent.Ok ⟨(dtls1RetransmitMessage seq calls h.s).1,
      h.log ++ (dtls1RetransmitMessage seq calls h.s).2⟩ := by
  unfold dtls1RetransmitMessage at hfew ⊢
  dsimp only [Sent.Recent, Sent.Unwrapped] at hrecent hwrap
  cases hfind : pqueueFind h.s.sent_messages (seq64be seq) with
  | none => simpa using hok
  | some item =>
    rw [hfind] at hfew hrecent hwrap
    have hsaved := hok.saved item (pqueueFind_some hfind).1
    obtain ⟨hwriting, hlast⟩ := restoreState_writing hok hsaved (hrecent item rfl) (hwrap item rfl)
    dsimp only at hfew ⊢
    have hsends := writeFragments_sends
      (if item.data.is_ccs then ssl3RtChangeCipherSpec else ssl3RtHandshake) calls hok.logged
        hwriting
    generalize writeFragments _ calls (restoreState item.data.saved_retransmit_state h.s) = r
      at hfew hsends ⊢
    have hsends := hsends hfew
    have hrecent := hrecent item rfl
    exact hok.restore hsends hrecent hlast

theorem dtls1BufferMessage_ok (is_ccs : Bool) (w_msg_hdr : HmHeader)
    (data : Bytes) : Sent.Ok ⟨dtls1BufferMessage is_ccs w_msg_hdr data h.s, h.log⟩ := by
  refine { hok with saved := fun item hi => ?_ }
  unfold dtls1BufferMessage at hi
  dsimp only at hi
  cases hins : pqueueInsert h.s.sent_messages _ with
  | none =>
    rw [hins] at hi
    exact hok.saved item hi
  | some q =>
    rw [hins] at hi
    rcases mem_cons.mp ((pqueueInsert_perm hins).mem_iff.mp hi) with rfl | hi
    · exact ⟨hok.epoch, hok.enc, hok.session⟩
    · exact hok.saved item hi

theorem change_ok (aead : Bool) (hwrap : h.Unwrapped (.change aead)) :
    Sent.Ok ⟨resetWriteSeq (changeWriteState aead { h.s with session := true }), h.log⟩ := by
  have hnone : sentIn (h.s.w_change + 1) h.log = 0 := by
    refine countP_eq_zero.mpr fun r hr => ?_
    have := hok.past r hr
    simp only [decide_eq_true_eq]
    omega
  have hepoch : (h.s.w_epoch + 1) % 2 ^ 16 = (h.s.w_change + 1) % 2 ^ 16 := by
    rw [hok.epoch]
    omega
  have hlast : ∀ k, k + 1 = h.s.w_change + 1 → h.s.write_sequence = sentIn k h.log := by
    rintro k hk
    obtain rfl : k = h.s.w_change := by omega
    exact hok.next
  have hpast : ∀ r ∈ h.log, r.change ≤ h.s.w_change + 1 :=
    fun r hr => (hok.past r hr).trans (Nat.le_succ _)
  cases aead with
  | true =>
    exact {
      logged := hok.logged, epoch := hepoch, next := hnone.symm, last := hlast, past := hpast
      aead := fun ctx hctx => by
        have heq : h.s.w_change + 1 = ctx := Option.some.inj hctx
        show ctx ≤ h.s.w_change + 1 ∧ h.s.w_change + 1 + 1 < ctx + 2 ^ 16
        omega
      enc := fun hctx => by cases hctx
      session := fun _ => rfl
      saved := fun item hi =>
        ⟨(hok.saved item hi).epoch, fun hctx => (by cases hctx), (hok.saved item hi).session⟩ }
  | false =>
    exact {
      logged := hok.logged, epoch := hepoch, next := hnone.symm, last := hlast, past := hpast
      aead := fun ctx hctx => by
        have hle := (hok.aead ctx hctx).1
        have hlt := hwrap ctx hctx
        show ctx ≤ h.s.w_change + 1 ∧ h.s.w_change + 1 + 1 < ctx + 2 ^ 16
        omega
      enc := fun _ => (if_neg (Nat.succ_ne_zero _)).symm
      session := fun _ => rfl
      saved := hok.saved }

end

theorem Sent.step_ok (h : Sent) (op : SendOp) (hok : h.Ok) (hrecent : h.Recent op)
    (hwrap : h.Unwrapped op) (hfew : Few (h.step op).log) : (h.step op).Ok := by
  have hnil : ∀ s : Sender, Sent.Ok ⟨s, h.log⟩ → Sent.Ok ⟨s, h.log ++ []⟩ := by
    intro s
    rw [append_nil]
    exact id
  cases op with
  | write type c =>
    exact hok.sends (doDtls1Write_sends hok.logged hok.writing c.alert c.outcome type c.buf hfew)
  | alert level desc o =>
    have hok' : Sent.Ok ⟨{ h.s with send_alert := (level, desc) }, h.log⟩ := { hok with }
    exact hok'.sends (dtls1DispatchAlert_sends hok'.logged hok'.writing o hfew)
  | session => exact hnil _ { hok with session := fun _ => rfl }
  | buffer is_ccs w_msg_hdr data => exact hnil _ (dtls1BufferMessage_ok hok is_ccs w_msg_hdr data)
  | clearSent => exact hnil _ { hok with saved := fun _ hi => by cases hi }
  | retransmit seq calls => exact dtls1RetransmitMessage_ok hok seq calls hrecent hwrap hfew
  | change aead => exact hnil _ (change_ok hok aead hwrap)

theorem Sent.init_ok : Sent.Ok ⟨.init, []⟩ where
  logged := ⟨.nil, fun _ hr => (nomatch hr), fun _ hr => (nomatch hr), fun _ hr => (nomatch hr)⟩
  epoch := rfl
  next := rfl
  last := fun k hk => by cases hk
  past := fun _ hr => by cases hr
  aead := fun _ hctx => by cases hctx
  enc := fun _ => rfl
  session := fun hpos => absurd hpos (Nat.lt_irrefl 0)
  saved := fun _ hi => by cases hi

theorem sentIn_run_le (k : ℕ) : ∀ (ops : List SendOp) (h : Sent),
    sentIn k h.log ≤ sentIn k (run Sent.step h ops).log
  | [], _ => le_rfl
  | op :: ops, h => by
    refine le_trans ?_ (sentIn_run_le k ops (h.step op))
    show sentIn k h.log ≤ sentIn k (h.log ++ _)
    rw [sentIn_append]
    exact Nat.le_add_right _ _

theorem along_few : ∀ (ops : List SendOp) (h : Sent), Few (run Sent.step h ops).log →
    Along Sent.step (fun h op => Few (h.step op).log) h ops
  | [], _, _ => trivial
  | op :: ops, h, hfew =>
    ⟨fun k => (sentIn_run_le k ops (h.step op)).trans_lt (hfew k), along_few ops (h.step op) hfew⟩

/-- In every run with fewer than 2^48 records in an epoch, in which only messages of the current
write epoch or the one before are sent again, no pair of epoch and number is used twice under a key,
unless something goes wrong when the epoch wraps. -/
theorem nonces_differ (ops : List SendOp) (hrecent : Along Sent.step Sent.Recent ⟨.init, []⟩ ops)
    (hfew : Few (run Sent.step ⟨.init, []⟩ ops).log)
    (hwrap : Along Sent.step Sent.Unwrapped ⟨.init, []⟩ ops) :
    (run Sent.step ⟨.init, []⟩ ops).log.Pairwise fun r r' =>
      r.key = r'.key → (r.epoch, r.seq) ≠ (r'.epoch, r'.seq) := by
  have hall := (hrecent.and hwrap).and (along_few ops _ hfew)
  exact (run_invariant (fun h op hok hP => Sent.step_ok h op hok hP.1.1 hP.1.2 hP.2) ops _
    Sent.init_ok hall).logged.differ

instance (h : Sent) : (op : SendOp) → Decidable (h.Recent op)
  | .retransmit seq _ => inferInstanceAs (Decidable (∀ item ∈ pqueueFind h.s.sent_messages
      (seq64be seq), item.data.saved_retransmit_state.change = h.s.w_change ∨
        item.data.saved_retransmit_state.change + 1 = h.s.w_change))
  | .write _ _ | .alert _ _ _ | .session | .buffer _ _ _ | .clearSent | .change _ => .isTrue trivial

instance (h : Sent) : (op : SendOp) → Decidable (h.Unwrapped op)
  | .retransmit seq _ => inferInstanceAs (Decidable (∀ item ∈ pqueueFind h.s.sent_messages
      (seq64be seq), h.s.w_epoch = 0 → item.data.saved_retransmit_state.epoch ≠ 65535))
  | .change false => inferInstanceAs (Decidable (∀ ctx ∈ h.s.aead_write_ctx,
      h.s.w_change + 1 < ctx + 65535))
  | .write _ _ | .alert _ _ _ | .session | .buffer _ _ _ | .clearSent | .change true =>
    .isTrue trivial

theorem few_of_length (h : log.length < 2 ^ 48) : Few log :=
  fun _ => countP_le_length.trans_lt h

/-- A call for one byte of payload that goes well. -/
def writeByte (b : UInt8) : WriteBytes := ⟨⟨true, true, none⟩, ⟨true, true, none⟩, [b]⟩

/-- The header of a message with the number 3. -/
def thirdHeader : HmHeader := ⟨20, 12, 3, 0, 12⟩

/-- A message before a change of state is sent again after it. -/
def sentAgain : List SendOp :=
  [.write ssl3RtHandshake (writeByte 1), .buffer false thirdHeader [1], .change true,
    .write ssl3RtHandshake (writeByte 2), .retransmit 6 [writeByte 1],
    .write ssl3RtApplicationData (writeByte 3)]

/-- The four pairs differ. -/
theorem nonces_differ_again :
    (run Sent.step ⟨.init, []⟩ sentAgain).log.length = 4 ∧
      (run Sent.step ⟨.init, []⟩ sentAgain).log.Pairwise fun r r' =>
        r.key = r'.key → (r.epoch, r.seq) ≠ (r'.epoch, r'.seq) := by
  have hlen : (run Sent.step ⟨.init, []⟩ sentAgain).log.length = 4 := by decide +kernel
  exact ⟨hlen, nonces_differ sentAgain (by decide +kernel) (few_of_length (by rw [hlen]; decide))
    (by decide +kernel)⟩

theorem run_changes (n : ℕ) :
    run Sent.step ⟨.init, []⟩ (replicate n (.change false)) =
      ⟨{ Sender.init with
        w_epoch := n % 2 ^ 16, w_change := n, enc_write_ctx := encCtx n, write_hash := encCtx n
        session := decide (0 < n) }, []⟩ := by
  induction n with
  | zero => rfl
  | succ n ih =>
    rw [replicate_succ', run_append, ih]
    simp [Sent.step, SendOp.apply, changeWriteState, resetWriteSeq, Sender.init, encCtx]

/-- At epoch 65535 a message is sent and kept, the epoch wraps, and it is sent again. -/
def wrapped : List SendOp :=
  replicate 65535 (.change false) ++
    [.write ssl3RtHandshake (writeByte 1), .buffer false thirdHeader [1], .change false,
      .retransmit 6 [writeByte 1]]

/-- The message of epoch 65535 goes out under its old key and its old number. -/
theorem nonces_differ_wrapped :
    let log := (run Sent.step ⟨.init, []⟩ wrapped).log
    Along Sent.step Sent.Recent ⟨.init, []⟩ wrapped ∧ Few log ∧
      log = replicate 2 ⟨ssl3RtHandshake, 65535, 0, .cipher 65535, [1], 65535⟩ ∧
      ¬ log.Pairwise fun r r' => r.key = r'.key → (r.epoch, r.seq) ≠ (r'.epoch, r'.seq) := by
  intro log
  have hlog : log = replicate 2 ⟨ssl3RtHandshake, 65535, 0, .cipher 65535, [1], 65535⟩ := by
    show (run Sent.step ⟨.init, []⟩ wrapped).log = _
    rw [wrapped, run_append, run_changes]
    decide +kernel
  refine ⟨along_append.mpr ⟨along_of_forall _ fun op hop _ => ?_, ?_⟩, ?_, hlog, ?_⟩
  · rw [eq_of_mem_replicate hop]
    trivial
  · rw [run_changes]
    decide +kernel
  · rw [hlog]
    exact few_of_length (by decide)
  · rw [hlog]
    decide

end VigorTls.Dtls
