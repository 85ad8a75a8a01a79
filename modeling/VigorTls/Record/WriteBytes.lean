import VigorTls.Lib.Bytes
import VigorTls.Lib.Run
import VigorTls.Constants

/-!
# Writing records

`ssl3_write_bytes`, `do_ssl3_write` and `ssl3_write_pending` of `ssl/s3_pkt.c`, with the alert that
`ssl3_dispatch_alert` may send in between and the empty fragment that may go before a record. `wnum`
is how much of the caller's buffer went into written records, `wpend_*` describe the record in
flight, and `left` is what the transport has still to take. Encryption is a parameter, and does not
fail. No handshake is under way.

`Sound` relates the records to the caller's buffer, and every step keeps it (`step_sound`). The
multi-block branch of `ssl3_write_bytes` is not compiled: the file defines
`EVP_CIPH_FLAG_TLS1_1_MULTIBLOCK` as 0.
-/

namespace VigorTls.Record.Send

open Lib List

/-! ## The functions -/

/-- A transport that takes bytes. -/
structure ByteSink (β : Type) where
  /-- `BIO_write` on a number of bytes: how many were taken, or a value `≤ 0` to try again. -/
  write : β → ℕ → ℤ × β
  write_le : ∀ bio n, (write bio n).1 ≤ n

/-- What writing asks the connection about. -/
structure SendEnv where
  max_send_fragment : ℕ
  /-- `SSL_CTRL_SET_MAX_SEND_FRAGMENT` takes no other value. -/
  range : 512 ≤ max_send_fragment ∧ max_send_fragment ≤ ssl3RtMaxPlainLength
  version : ℕ
  need_empty_fragments : Bool
  dont_insert_empty_fragments : Bool
  /-- `SSL_MODE_ENABLE_PARTIAL_WRITE`, `SSL_MODE_ACCEPT_MOVING_WRITE_BUFFER` and
  `SSL_MODE_RELEASE_BUFFERS` -/
  enable_partial_write : Bool
  accept_moving_write_buffer : Bool
  release_buffers : Bool
  /-- `enc_write_ctx` is set; it is not under an AEAD cipher. -/
  enc_write_ctx : Bool
  /-- What encryption and MAC make of the payload of the record with the given number and type. -/
  encrypt : ℕ → ℕ → Bytes → Bytes

def SendEnv.wire (env : SendEnv) (number type : ℕ) (payload : Bytes) : Bytes :=
  let data := env.encrypt number type payload
  UInt8.ofNat type :: (s2n env.version ++ s2n data.length ++ data)

/-- Where bytes to be written are: in the caller's buffer, or in `send_alert`. -/
inductive Source where
  | data (off : ℕ)
  | alert
deriving DecidableEq

structure Written where
  source : Source
  payload : Bytes
  wire : Bytes

/-- The fields of the connection, with what the transport has taken and the records made. -/
structure WriteConn (β : Type) where
  wnum : ℕ
  /-- `wbuf.len`, when there is a buffer. -/
  buf : Option ℕ
  /-- The bytes at `wbuf.buf + wbuf.offset`. -/
  left : Bytes
  wpend_tot : ℕ
  wpend_buf : Source
  wpend_type : ℕ
  wpend_ret : ℕ
  alert_dispatch : Bool
  send_alert : UInt8 × UInt8
  empty_fragment_done : Bool
  sealed : ℕ
  bio : β
  sent : Bytes
  records : List Written

variable {β : Type}

/-- The loop of `ssl3_write_pending`. Every round but the last takes a byte. -/
def writeLoop (sink : ByteSink β) : ℕ → WriteConn β → ℤ × WriteConn β
  | 0, s => (0, s)
  | fuel + 1, s =>
    match sink.write s.bio s.left.length with
    | (i, bio) =>
      if i = s.left.length then
        (s.wpend_ret, { s with bio := bio, sent := s.sent ++ s.left, left := [] })
      else if i ≤ 0 then (i, { s with bio := bio })
      else
        writeLoop sink fuel { s with
          bio := bio, sent := s.sent ++ s.left.take i.toNat, left := s.left.drop i.toNat }

section

variable (sink : ByteSink β) (env : SendEnv)

def ssl3WritePending (type : ℕ) (buf : Source) (len : ℕ) (s : WriteConn β) : ℤ × WriteConn β :=
  if len < s.wpend_tot ∨ (s.wpend_buf ≠ buf ∧ !env.accept_moving_write_buffer) ∨
      s.wpend_type ≠ type then (-1, s)
  else writeLoop sink (s.left.length + 1) s

def ssl3SetupWriteBuffer (s : WriteConn β) : WriteConn β :=
  let overhead := ssl3RtHeaderLength + ssl3Align + ssl3RtSendMaxEncryptedOverhead
  { s with
    buf := some (s.buf.getD (env.max_send_fragment + overhead +
      if env.dont_insert_empty_fragments then 0 else overhead)) }

/-- Put records into the buffer and write it. -/
def sendRecords (type : ℕ) (buf : Source) (len : ℕ) (new : List Written) (s : WriteConn β) :
    ℤ × WriteConn β :=
  ssl3WritePending sink env type buf len { s with
    left := new.flatMap Written.wire
    wpend_tot := len
    wpend_buf := buf
    wpend_type := type
    wpend_ret := len
    sealed := s.sealed + new.length
    records := s.records ++ new }

/-- `do_ssl3_write` from where no alert is to be sent. -/
def writeRecord (type : ℕ) (buf : Source) (payload : Bytes) (s : WriteConn β) : ℤ × WriteConn β :=
  let s := ssl3SetupWriteBuffer env s
  if payload = [] then (0, s)
  else
    let first := env.enc_write_ctx && !s.empty_fragment_done
    if first && env.need_empty_fragments && type = ssl3RtApplicationData then
      let empty : Written := ⟨buf, [], env.wire s.sealed type []⟩
      if ssl3RtHeaderLength + ssl3RtSendMaxEncryptedOverhead < empty.wire.length then
        -- The space is not sufficient.
        (-1, { s with sealed := s.sealed + 1 })
      else
        sendRecords sink env type buf payload.length
          [empty, ⟨buf, payload, env.wire (s.sealed + 1) type payload⟩]
          { s with empty_fragment_done := true }
    else
      sendRecords sink env type buf payload.length
        [⟨buf, payload, env.wire s.sealed type payload⟩]
        { s with empty_fragment_done := s.empty_fragment_done || first }

def ssl3DispatchAlert (s : WriteConn β) : ℤ × WriteConn β :=
  let s := { s with alert_dispatch := false }
  let (i, s) :=
    if s.left ≠ [] then ssl3WritePending sink env ssl3RtAlert .alert 2 s
    else writeRecord sink env ssl3RtAlert .alert [s.send_alert.1, s.send_alert.2] s
  if i ≤ 0 then (i, { s with alert_dispatch := true }) else (i, s)

/-- `do_ssl3_write`, called with `create_empty_fragment` zero. -/
def doSsl3Write (type : ℕ) (buf : Source) (payload : Bytes) (s : WriteConn β) : ℤ × WriteConn β :=
  if s.left ≠ [] then ssl3WritePending sink env type buf payload.length s
  else if s.alert_dispatch then
    match ssl3DispatchAlert sink env s with
    | (i, s) => if i ≤ 0 then (i, s) else writeRecord sink env type buf payload s
  else writeRecord sink env type buf payload s

variable (type : ℕ) (buf : Bytes)

/-- The loop of `ssl3_write_bytes`. Every round but the last writes a byte. -/
def writeFragments : ℕ → ℕ → WriteConn β → ℤ × WriteConn β
  | 0, _, s => (0, s)
  | fuel + 1, tot, s =>
    let n := buf.length - tot
    let nw := if env.max_send_fragment < n then env.max_send_fragment else n
    match doSsl3Write sink env type (.data tot) ((buf.drop tot).take nw) s with
    | (i, s) =>
      if i ≤ 0 then (i, { s with wnum := tot })
      else if i = n ∨ (type = ssl3RtApplicationData ∧ env.enable_partial_write) then
        (tot + i, { s with
          empty_fragment_done := false
          buf := if i = n ∧ env.release_buffers then none else s.buf })
      else writeFragments fuel (tot + i.toNat) s

/-- `ssl3_write_bytes` from where nothing is in flight. -/
def writeRest (tot : ℕ) (s : WriteConn β) : ℤ × WriteConn β :=
  if tot = buf.length then (tot, if env.release_buffers then { s with buf := none } else s)
  else writeFragments sink env type buf (buf.length + 1) tot s

/-- `ssl3_write_bytes`, outside a handshake. -/
def ssl3WriteBytes (s : WriteConn β) : ℤ × WriteConn β :=
  let tot := s.wnum
  let s := { s with wnum := 0 }
  if buf.length < tot then (-1, s)
  else if s.left ≠ [] then
    match ssl3WritePending sink env type (.data tot) s.wpend_tot s with
    | (i, s) =>
      if i ≤ 0 then (i, { s with wnum := tot })
      else writeRest sink env type buf (tot + i.toNat) s
  else writeRest sink env type buf tot s

end

/-! ## What is in flight -/

/-- The bytes of the caller's buffer that went into records. -/
def dataOf (records : List Written) : Bytes :=
  (records.filter fun r => r.source ≠ .alert).flatMap Written.payload

/-- The fields that say what was written and what is in flight. -/
structure Flight where
  left : Bytes
  sent : Bytes
  records : List Written
  wpend_tot : ℕ
  wpend_buf : Source
  wpend_type : ℕ
  wpend_ret : ℕ

def WriteConn.flight (s : WriteConn β) : Flight :=
  ⟨s.left, s.sent, s.records, s.wpend_tot, s.wpend_buf, s.wpend_type, s.wpend_ret⟩

structure Flight.Quiet (buf : Bytes) (tot : ℕ) (f : Flight) : Prop where
  left : f.left = []
  data : dataOf f.records = buf.take tot

/-- Records of the caller's data from `tot` on are in flight. -/
structure Flight.Data (type : ℕ) (buf : Bytes) (tot : ℕ) (f : Flight) : Prop where
  left : f.left ≠ []
  wpend_type : f.wpend_type = type
  wpend_buf : f.wpend_buf = .data tot
  ret_eq : f.wpend_ret = f.wpend_tot
  pos : 0 < f.wpend_tot
  le : tot + f.wpend_tot ≤ buf.length
  data : dataOf f.records = buf.take (tot + f.wpend_tot)

structure Flight.Alert (buf : Bytes) (tot : ℕ) (f : Flight) : Prop where
  left : f.left ≠ []
  wpend_type : f.wpend_type = ssl3RtAlert
  ret : f.wpend_ret = 2
  data : dataOf f.records = buf.take tot

/-- `tot` bytes of the buffer are written. All that is written or in flight are the bytes of the
records. -/
structure Flight.Ok (env : SendEnv) (type : ℕ) (buf : Bytes) (tot : ℕ) (f : Flight) :
    Prop where
  wire : f.sent ++ f.left = f.records.flatMap Written.wire
  bound : ∀ r ∈ f.records, r.payload.length ≤ env.max_send_fragment
  le : tot ≤ buf.length
  cases : f.Quiet buf tot ∨ f.Data type buf tot ∨ f.Alert buf tot

variable {tot : ℕ}

theorem Flight.Ok.quiet {env : SendEnv} {type : ℕ} {buf : Bytes} {f : Flight}
    (h : f.Ok env type buf tot) (hleft : f.left = []) : f.Quiet buf tot := by
  rcases h.cases with hq | hd | ha
  · exact hq
  · exact absurd hleft hd.left
  · exact absurd hleft ha.left

/-- It returns `ret`, `adv` more bytes of the buffer are written and nothing is in flight; or it has
to be tried again. -/
def Goes (env : SendEnv) (type : ℕ) (buf : Bytes) (tot : ℕ) (ret : ℤ) (adv : ℕ)
    (out : ℤ × WriteConn β) : Prop :=
  out.1 = ret ∧ out.2.left = [] ∧ out.2.flight.Ok env type buf (tot + adv) ∨
    out.1 ≤ 0 ∧ out.2.flight.Ok env type buf tot

theorem writeLoop_takes (sink : ByteSink β) : ∀ (fuel : ℕ) (s : WriteConn β), ∃ bio sent left,
    (writeLoop sink fuel s).2 = { s with bio := bio, sent := sent, left := left } ∧
    sent ++ left = s.sent ++ s.left ∧
    ((writeLoop sink fuel s).1 = s.wpend_ret ∧ left = [] ∨
      (writeLoop sink fuel s).1 ≤ 0 ∧ (s.left ≠ [] → left ≠ [])) := by
  intro fuel
  induction fuel with
  | zero => exact fun s => ⟨s.bio, s.sent, s.left, rfl, rfl, .inr ⟨le_refl 0, id⟩⟩
  | succ fuel ih =>
    intro s
    have hle := sink.write_le s.bio s.left.length
    rw [writeLoop]
    generalize sink.write s.bio s.left.length = out at hle
    obtain ⟨i, bio⟩ := out
    dsimp only at hle ⊢
    split_ifs with hall hfail
    · exact ⟨bio, s.sent ++ s.left, [], rfl, append_nil _, .inl ⟨rfl, rfl⟩⟩
    · exact ⟨bio, s.sent, s.left, rfl, rfl, .inr ⟨hfail, id⟩⟩
    obtain ⟨bio', sent, left, heq, hbytes, hcases⟩ := ih { s with
      bio := bio, sent := s.sent ++ s.left.take i.toNat, left := s.left.drop i.toNat }
    refine ⟨bio', sent, left, heq, ?_, hcases.imp_right fun h => ⟨h.1, fun _ => h.2 ?_⟩⟩
    · rw [hbytes]
      rw [append_assoc, take_append_drop]
    · -- The transport took less than all of it.
      intro hnil
      have := drop_eq_nil_iff.mp hnil
      omega

section

variable (sink : ByteSink β) {env : SendEnv} {type : ℕ} {buf : Bytes} {tot : ℕ}
  {s : WriteConn β} (h : s.flight.Ok env type buf tot)

include h

omit sink in
theorem Flight.Ok.data_or_alert (hleft : s.left ≠ []) :
    s.flight.Data type buf tot ∨ s.flight.Alert buf tot :=
  h.cases.resolve_left fun hq => hleft hq.left

variable {adv : ℕ}

theorem writeLoop_goes (hleft : s.left ≠ []) (hle : tot + adv ≤ buf.length)
    (hdata : dataOf s.records = buf.take (tot + adv)) (fuel : ℕ) :
    Goes env type buf tot s.wpend_ret adv (writeLoop sink fuel s) := by
  obtain ⟨bio, sent, left, heq, hbytes, hcases⟩ := writeLoop_takes sink fuel s
  have hwire : sent ++ left = s.records.flatMap Written.wire := hbytes.trans h.wire
  rcases hcases with ⟨hret, rfl⟩ | ⟨hret, hmore⟩
  · refine .inl ⟨hret, by rw [heq], ?_⟩
    rw [heq]
    exact ⟨hwire, h.bound, hle, .inl ⟨rfl, hdata⟩⟩
  refine .inr ⟨hret, ?_⟩
  rw [heq]
  refine ⟨hwire, h.bound, h.le, ?_⟩
  rcases h.data_or_alert hleft with hd | ha
  · exact .inr (.inl ⟨hmore hleft, hd.wpend_type, hd.wpend_buf, hd.ret_eq, hd.pos, hd.le, hd.data⟩)
  · exact .inr (.inr ⟨hmore hleft, ha.wpend_type, ha.ret, ha.data⟩)

theorem writePending_goes {type' : ℕ} {ret : ℤ} (hleft : s.left ≠ [])
    (hflight : s.wpend_type = type' → s.wpend_ret = ret ∧ tot + adv ≤ buf.length ∧
      dataOf s.records = buf.take (tot + adv))
    (source : Source) (len : ℕ) :
    Goes env type buf tot ret adv (ssl3WritePending sink env type' source len s) := by
  unfold ssl3WritePending
  split
  · exact .inr ⟨show -1 ≤ 0 by decide, h⟩
  next hcheck =>
  obtain ⟨rfl, hle, hdata⟩ := hflight (not_not.mp fun hne => hcheck (.inr (.inr hne)))
  exact writeLoop_goes sink h hleft hle hdata _

section

variable (htype : type ≠ ssl3RtAlert)

include htype

theorem writePending_goes_data (hleft : s.left ≠ []) (source : Source) (len : ℕ) :
    Goes env type buf tot s.wpend_tot s.wpend_tot
      (ssl3WritePending sink env type source len s) := by
  refine writePending_goes sink h hleft (fun hsame => ?_) source len
  rcases h.data_or_alert hleft with hd | ha
  · exact ⟨congrArg Nat.cast hd.ret_eq, hd.le, hd.data⟩
  · exact absurd (hsame.symm.trans ha.wpend_type) htype

theorem writePending_goes_alert (hleft : s.left ≠ []) (source : Source)
    (len : ℕ) : Goes env type buf tot 2 0 (ssl3WritePending sink env ssl3RtAlert source len s) := by
  refine writePending_goes sink h hleft (fun hsame => ?_) source len
  rcases h.data_or_alert hleft with hd | ha
  · exact absurd (hd.wpend_type.symm.trans hsame) htype
  · exact ⟨congrArg Nat.cast ha.ret, h.le, ha.data⟩

variable {len : ℕ}

omit htype in
theorem sendRecords_goes {source : Source} {new : List Written} {type' : ℕ} (hleft : s.left = [])
    (hwire : new.flatMap Written.wire ≠ [])
    (hbound : ∀ r ∈ new, r.payload.length ≤ env.max_send_fragment) (hle : tot + adv ≤ buf.length)
    (hdata : dataOf new = (buf.drop tot).take adv)
    (hflight : type' = type ∧ source = .data tot ∧ len = adv ∧ 0 < adv ∨
      type' = ssl3RtAlert ∧ len = 2 ∧ adv = 0) :
    Goes env type buf tot len adv (sendRecords sink env type' source len new s) := by
  have hsent : s.sent ++ s.left = s.records.flatMap Written.wire := h.wire
  have hdata' : dataOf (s.records ++ new) = buf.take (tot + adv) := by
    rw [dataOf, filter_append, flatMap_append, take_add]
    congr 1
    exact (h.quiet hleft).data
  unfold sendRecords ssl3WritePending
  rw [if_neg (by simp)]
  refine writeLoop_goes sink (s := { s with
    left := _, wpend_tot := _, wpend_buf := _, wpend_type := _, wpend_ret := _, sealed := _
    records := _ }) ⟨?_, fun r hr => ?_, h.le, .inr ?_⟩ hwire hle hdata' _
  · rw [hleft, append_nil] at hsent
    exact (congrArg (· ++ _) hsent).trans flatMap_append.symm
  · exact (mem_append.mp hr).elim (h.bound r) (hbound r)
  · rcases hflight with ⟨rfl, rfl, rfl, hpos⟩ | ⟨rfl, rfl, rfl⟩
    · exact .inl ⟨hwire, rfl, rfl, rfl, hpos, hle, hdata'⟩
    · exact .inr ⟨hwire, rfl, rfl, hdata'⟩

omit htype in
theorem writeRecord_goes (hleft : s.left = []) (hpos : 0 < len) (hlen : tot + len ≤ buf.length)
    (hmax : len ≤ env.max_send_fragment) :
    Goes env type buf tot len len
      (writeRecord sink env type (.data tot) ((buf.drop tot).take len) s) := by
  have hl : ((buf.drop tot).take len).length = len := by
    rw [length_take, length_drop]
    omega
  unfold writeRecord
  dsimp only
  rw [if_neg (ne_nil_of_length_pos (by omega)), hl]
  split
  · split
    · exact .inr ⟨show -1 ≤ 0 by decide, h⟩
    refine sendRecords_goes sink (s := { ssl3SetupWriteBuffer env s with
      empty_fragment_done := true }) h hleft (by simp [SendEnv.wire]) (fun r hr => ?_) hlen
      (by simp [dataOf]) (.inl ⟨rfl, rfl, rfl, hpos⟩)
    rcases mem_pair.mp hr with rfl | rfl
    · exact Nat.zero_le _
    · exact hl.trans_le hmax
  · refine sendRecords_goes sink (s := { ssl3SetupWriteBuffer env s with
      empty_fragment_done := _ }) h hleft (by simp [SendEnv.wire]) (fun r hr => ?_) hlen
      (by simp [dataOf]) (.inl ⟨rfl, rfl, rfl, hpos⟩)
    obtain rfl := mem_singleton.mp hr
    exact hl.trans_le hmax

theorem dispatchAlert_goes : Goes env type buf tot 2 0 (ssl3DispatchAlert sink env s) := by
  have hmax := env.range.1
  unfold ssl3DispatchAlert
  dsimp only
  generalize hout : (if s.left ≠ [] then _ else _ : ℤ × WriteConn β) = out
  have key : Goes env type buf tot 2 0 out := by
    rw [← hout]
    by_cases hleft : s.left = []
    · rw [if_neg (not_not_intro hleft)]
      unfold writeRecord
      rw [if_neg (cons_ne_nil _ _), if_neg (by simp)]
      refine sendRecords_goes sink (s := { ssl3SetupWriteBuffer env { s with
        alert_dispatch := false } with empty_fragment_done := _ }) h hleft (by simp [SendEnv.wire])
        (fun r hr => ?_) h.le (by simp [dataOf]) (.inr ⟨rfl, rfl, rfl⟩)
      obtain rfl := mem_singleton.mp hr
      dsimp only [length_cons, length_nil]
      omega
    · rw [if_pos hleft]
      exact writePending_goes_alert sink (s := { s with alert_dispatch := false }) h htype hleft _ _
  obtain ⟨i, s'⟩ := out
  rcases key with ⟨hi, hleft, hok⟩ | ⟨hi, hok⟩
  · dsimp only at hi ⊢
    rw [if_neg (by omega)]
    exact .inl ⟨hi, hleft, hok⟩
  · dsimp only at hi ⊢
    rw [if_pos hi]
    exact .inr ⟨hi, hok⟩

theorem doWrite_cases (hleft : s.left = []) (source : Source) (payload : Bytes) :
    let r := doSsl3Write sink env type source payload s
    (∃ s', s'.flight.Ok env type buf tot ∧ s'.left = [] ∧
        doSsl3Write sink env type source payload s = writeRecord sink env type source payload s') ∨
      r.1 ≤ 0 ∧
        r.2.flight.Ok env type buf tot := by
  unfold doSsl3Write
  rw [if_neg (not_not_intro hleft)]
  split
  · have halert := dispatchAlert_goes sink h htype
    generalize ssl3DispatchAlert sink env s = out at halert
    obtain ⟨i, s'⟩ := out
    dsimp only
    rcases halert with ⟨hi, hleft', hok⟩ | ⟨hi, hok⟩
    · dsimp only at hi
      rw [if_neg (by omega)]
      exact .inl ⟨s', hok, hleft', rfl⟩
    · dsimp only at hi
      rw [if_pos hi]
      exact .inr ⟨hi, hok⟩
  · exact .inl ⟨s, h, hleft, rfl⟩

theorem doWrite_nil (hleft : s.left = []) (source : Source) :
    (doSsl3Write sink env type source [] s).1 ≤ 0 ∧
      (doSsl3Write sink env type source [] s).2.flight.Ok env type buf tot := by
  rcases doWrite_cases sink h htype hleft source [] with ⟨s', hok, -, heq⟩ | hfail
  · rw [heq]
    exact ⟨le_refl 0, hok⟩
  · exact hfail

end

end

/-- A call returns how much is written, all unless partial writes are allowed; or it has to be tried
again. -/
def CallGoes (env : SendEnv) (type : ℕ) (buf : Bytes) (out : ℤ × WriteConn β) : Prop :=
  (∃ r : ℕ, out.1 = r ∧ (0 < r ∨ buf = []) ∧ out.2.left = [] ∧ out.2.flight.Ok env type buf r ∧
      (r = buf.length ∨ type = ssl3RtApplicationData ∧ env.enable_partial_write)) ∨
    out.1 ≤ 0 ∧ (out.1 = 0 → buf ≠ []) ∧ out.2.flight.Ok env type buf out.2.wnum

variable {s : WriteConn β}

section

variable (sink : ByteSink β) {env : SendEnv} {type : ℕ} (htype : type ≠ ssl3RtAlert)
  {buf : Bytes}

include htype

theorem writeFragments_goes (hbuf : buf ≠ []) : ∀ (fuel tot : ℕ) (s : WriteConn β),
    s.flight.Ok env type buf tot → s.left = [] → buf.length - tot < fuel →
    CallGoes env type buf (writeFragments sink env type buf fuel tot s) := by
  intro fuel
  induction fuel with
  | zero => exact fun _ _ _ _ hfuel => absurd hfuel (Nat.not_lt_zero _)
  | succ fuel ih =>
    intro tot s h hleft hfuel
    rw [writeFragments]
    generalize hnw : (if env.max_send_fragment < buf.length - tot then env.max_send_fragment
      else buf.length - tot) = nw
    rcases Nat.eq_zero_or_pos nw with rfl | hpos
    · obtain ⟨hi, hok⟩ := doWrite_nil sink h htype hleft (.data tot)
      rw [take_zero]
      generalize doSsl3Write sink env type (.data tot) [] s = out at hi hok
      dsimp only at hi hok ⊢
      rw [if_pos hi]
      exact .inr ⟨hi, fun _ => hbuf, hok⟩
    have hnw' : nw ≤ buf.length - tot ∧ nw ≤ env.max_send_fragment := by
      rw [← hnw]
      split_ifs <;> omega
    have hgoes : Goes env type buf tot nw nw
        (doSsl3Write sink env type (.data tot) ((buf.drop tot).take nw) s) := by
      rcases doWrite_cases sink h htype hleft (.data tot) ((buf.drop tot).take nw) with
        ⟨s', hok, hleft', heq⟩ | hfail
      · rw [heq]
        exact writeRecord_goes sink hok hleft' hpos (by omega) hnw'.2
      · exact .inr hfail
    generalize doSsl3Write sink env type (.data tot) ((buf.drop tot).take nw) s = out at hgoes
    obtain ⟨i, s'⟩ := out
    dsimp only
    rcases hgoes with ⟨hi, hleft', hok⟩ | ⟨hi, hok⟩
    · dsimp only at hi hleft' hok
      subst hi
      rw [if_neg (by omega)]
      split
      · next hend =>
        refine .inl ⟨tot + nw, by push_cast; rfl, .inl (by omega), hleft', hok,
          hend.imp_left fun hn => ?_⟩
        omega
      · rw [Int.toNat_natCast]
        exact ih (tot + nw) s' hok hleft' (by omega)
    · dsimp only at hi hok
      rw [if_pos hi]
      exact .inr ⟨hi, fun _ => hbuf, hok⟩

/-- The rest of a call: all is written already, or it goes in fragments. -/
theorem writeRest_goes (h : s.flight.Ok env type buf tot) (hleft : s.left = []) :
    CallGoes env type buf (writeRest sink env type buf tot s) := by
  unfold writeRest
  split
  · next htot =>
    have hdone : ∀ s' : WriteConn β, s'.flight = s.flight → CallGoes env type buf (tot, s') := by
      intro s' hs
      refine .inl ⟨tot, rfl, ?_, (congrArg Flight.left hs).trans hleft, hs ▸ h, .inl htot⟩
      rw [htot, length_pos_iff]
      exact (Classical.em _).symm
    -- Releasing the buffer changes nothing that is in flight.
    split <;> exact hdone _ rfl
  · next htot =>
    refine writeFragments_goes sink htype (fun hnil => ?_) _ tot s h hleft (by omega)
    have hle := h.le
    rw [hnil, length_nil] at hle htot
    omega

theorem writeBytes_goes (h : s.flight.Ok env type buf s.wnum) :
    CallGoes env type buf (ssl3WriteBytes sink env type buf s) := by
  unfold ssl3WriteBytes
  rw [if_neg (not_lt.mpr h.le)]
  by_cases hleft : s.left = []
  · rw [if_neg (not_not_intro hleft)]
    exact writeRest_goes sink htype (s := { s with wnum := 0 }) h hleft
  rw [if_pos hleft]
  have hpend := writePending_goes_data sink (s := { s with wnum := 0 }) h htype hleft
    (.data s.wnum) s.wpend_tot
  have hnil : buf = [] → (ssl3WritePending sink env type (.data s.wnum) s.wpend_tot
      { s with wnum := 0 }).1 = -1 := by
    -- No data is in flight, so it is an alert.
    intro hnil
    have hother : s.wpend_type ≠ type := by
      rcases h.data_or_alert hleft with hd | ha
      · have hpos := hd.pos
        have hle := hd.le
        rw [hnil, length_nil] at hle
        omega
      · exact fun heq => htype (heq.symm.trans ha.wpend_type)
    unfold ssl3WritePending
    rw [if_pos (.inr (.inr hother))]
  generalize ssl3WritePending sink env type (.data s.wnum) s.wpend_tot { s with wnum := 0 } = out
    at hpend hnil
  obtain ⟨i, s'⟩ := out
  dsimp only at hnil ⊢
  have hzero : i = 0 → buf ≠ [] := fun hi hb => by
    have := hnil hb
    omega
  rcases hpend with ⟨hi, hleft', hok⟩ | ⟨hi, hok⟩
  · dsimp only at hi hleft' hok
    split_ifs with hi0
    · refine .inr ⟨hi0, hzero, ?_⟩
      rwa [show s.wpend_tot = 0 by omega] at hok
    · rw [hi]
      exact writeRest_goes sink htype hok hleft'
  · dsimp only at hi
    rw [if_pos hi]
    exact .inr ⟨hi, hzero, hok⟩

end

/-! ## Runs -/

inductive SendStatus where
  | trying
  | done (r : ℕ)
deriving DecidableEq

structure Sending (β : Type) where
  s : WriteConn β
  status : SendStatus

inductive SendEvent where
  | call
  | alert (level desc : UInt8)
  /-- `ssl3_dispatch_alert`, where an alert is to be sent. -/
  | dispatch

/-- The caller stops when the function has returned what it has written. -/
def Sending.step (sink : ByteSink β) (env : SendEnv) (type : ℕ) (buf : Bytes)
    (t : Sending β) : SendEvent → Sending β
  | .call =>
    if t.status ≠ .trying then t
    else
      match ssl3WriteBytes sink env type buf t.s with
      | (i, s) => ⟨s, if 0 < i ∨ (i = 0 ∧ buf = []) then .done i.toNat else .trying⟩
  | .alert level desc =>
    if t.status ≠ .trying then t
    else
      let s := { t.s with alert_dispatch := true, send_alert := (level, desc) }
      ⟨if s.left = [] then (ssl3DispatchAlert sink env s).2 else s, .trying⟩
  | .dispatch =>
    if t.status ≠ .trying then t
    else ⟨if t.s.alert_dispatch then (ssl3DispatchAlert sink env t.s).2 else t.s, .trying⟩

structure Sending.Sound (env : SendEnv) (type : ℕ) (buf : Bytes) (t : Sending β) : Prop where
  trying : t.status = .trying → t.s.flight.Ok env type buf t.s.wnum
  done : ∀ r, t.status = .done r → t.s.left = [] ∧ t.s.flight.Ok env type buf r ∧
    (r = buf.length ∨ type = ssl3RtApplicationData ∧ env.enable_partial_write)

theorem dispatchAlert_wnum (sink : ByteSink β) (env : SendEnv) (s : WriteConn β) :
    (ssl3DispatchAlert sink env s).2.wnum = s.wnum := by
  have hloop : ∀ fuel s, (writeLoop sink fuel s).2.wnum = s.wnum := by
    intro fuel s
    obtain ⟨bio, sent, left, heq, -⟩ := writeLoop_takes sink fuel s
    rw [heq]
  have hpend : ∀ type source len s,
      (ssl3WritePending sink env type source len s).2.wnum = s.wnum := by
    intro type source len s
    unfold ssl3WritePending
    split
    · rfl
    · exact hloop _ s
  have hwrite : ∀ type source payload s,
      (writeRecord sink env type source payload s).2.wnum = s.wnum := by
    intro type source payload s
    unfold writeRecord sendRecords
    dsimp only
    split
    · rfl
    split
    · split
      · rfl
      · exact hpend ..
    · exact hpend ..
  unfold ssl3DispatchAlert
  dsimp only
  generalize hout : (if s.left ≠ [] then _ else _ : ℤ × WriteConn β) = out
  have key : out.2.wnum = s.wnum := by
    rw [← hout]
    split
    · exact hpend ..
    · exact hwrite ..
  split <;> exact key

section

variable (sink : ByteSink β) {env : SendEnv} {type : ℕ} (htype : type ≠ ssl3RtAlert)
  {buf : Bytes}

include htype

theorem dispatchAlert_ok (h : s.flight.Ok env type buf s.wnum) :
    (ssl3DispatchAlert sink env s).2.flight.Ok env type buf
      (ssl3DispatchAlert sink env s).2.wnum := by
  rw [dispatchAlert_wnum]
  rcases dispatchAlert_goes sink h htype with ⟨-, -, hok⟩ | ⟨-, hok⟩ <;> exact hok

theorem step_sound (t : Sending β) (event : SendEvent) (h : t.Sound env type buf) :
    (t.step sink env type buf event).Sound env type buf := by
  by_cases hst : t.status = .trying
  · have hok := h.trying hst
    cases event with
    | call =>
      have hgoes := writeBytes_goes sink htype hok
      unfold Sending.step
      rw [if_neg (not_not_intro hst)]
      generalize ssl3WriteBytes sink env type buf t.s = out at hgoes
      obtain ⟨i, s⟩ := out
      dsimp only
      rcases hgoes with ⟨r, hi, hpos, hleft, hr, hall⟩ | ⟨hi, hzero, hok'⟩
      · dsimp only at hi hleft hr
        subst hi
        have hret : (0 : ℤ) < r ∨ ((r : ℤ) = 0 ∧ buf = []) := by
          rcases Nat.eq_zero_or_pos r with rfl | hr
          · exact .inr ⟨rfl, hpos.resolve_left (lt_irrefl 0)⟩
          · exact .inl (by omega)
        rw [if_pos hret]
        refine ⟨nofun, fun r' hr' => ?_⟩
        obtain rfl : r = r' := by simpa using hr'
        exact ⟨hleft, hr, hall⟩
      · dsimp only at hi hzero hok'
        rw [if_neg]
        · exact ⟨fun _ => hok', nofun⟩
        · rintro (hpos | ⟨h0, hnil⟩)
          · omega
          · exact hzero h0 hnil
    | alert level desc =>
      unfold Sending.step
      dsimp only
      rw [if_neg (not_not_intro hst)]
      refine ⟨fun _ => ?_, nofun⟩
      split
      · exact dispatchAlert_ok sink htype (s := { t.s with
          alert_dispatch := true, send_alert := (level, desc) }) hok
      · exact hok
    | dispatch =>
      unfold Sending.step
      dsimp only
      rw [if_neg (not_not_intro hst)]
      refine ⟨fun _ => ?_, nofun⟩
      split
      · exact dispatchAlert_ok sink htype hok
      · exact hok
  · have hsame : t.step sink env type buf event = t := by
      cases event <;> exact if_pos hst
    rwa [hsame]

end

/-- A connection on which nothing was written, with any alert pending. -/
def Sending.init (bio : β) (buf : Option ℕ) (alert_dispatch : Bool) (send_alert : UInt8 × UInt8)
    (empty_fragment_done : Bool) : Sending β where
  s :=
    { wnum := 0
      buf := buf
      left := []
      wpend_tot := 0
      wpend_buf := .alert
      wpend_type := 0
      wpend_ret := 0
      alert_dispatch := alert_dispatch
      send_alert := send_alert
      empty_fragment_done := empty_fragment_done
      sealed := 0
      bio := bio
      sent := []
      records := [] }
  status := .trying

/-- Whatever the transport takes at a time and whatever alerts are sent in between: what is on the
wire and in flight are the records one after the other, none with more than `max_send_fragment`
bytes, and when the function returns `r`, their payloads are the first `r` bytes of the buffer, once
and in order: all of it, unless partial writes are enabled. -/
theorem written_once (sink : ByteSink β) (env : SendEnv) (type : ℕ) (htype : type ≠ ssl3RtAlert)
    (buf : Bytes) (bio : β) (wbuf : Option ℕ) (alert_dispatch : Bool)
    (send_alert : UInt8 × UInt8) (empty_fragment_done : Bool) (events : List SendEvent) :
    let t := run (Sending.step sink env type buf)
      (Sending.init bio wbuf alert_dispatch send_alert empty_fragment_done) events
    t.s.sent ++ t.s.left = t.s.records.flatMap Written.wire ∧
    (∀ r ∈ t.s.records, r.payload.length ≤ env.max_send_fragment) ∧
    ∀ r, t.status = .done r → t.s.left = [] ∧ dataOf t.s.records = buf.take r ∧
      (r = buf.length ∨ type = ssl3RtApplicationData ∧ env.enable_partial_write) := by
  intro t
  have h : t.Sound env type buf := by
    refine run_invariant_all (step_sound sink htype) events _ ⟨fun _ => ?_, nofun⟩
    exact ⟨rfl, nofun, Nat.zero_le _, .inl ⟨rfl, rfl⟩⟩
  obtain ⟨tot, hok⟩ : ∃ tot, t.s.flight.Ok env type buf tot := by
    cases hst : t.status with
    | trying => exact ⟨_, h.trying hst⟩
    | done r => exact ⟨r, (h.done r hst).2.1⟩
  refine ⟨hok.wire, hok.bound, fun r hr => ?_⟩
  obtain ⟨hleft, hokr, hall⟩ := h.done r hr
  exact ⟨hleft, (hokr.quiet hleft).data, hall⟩

/-- A transport that takes what its plan says, and blocks at zero. -/
def planned : ByteSink (List ℕ) where
  write
    | [], n => (n, [])
    | 0 :: plan, _ => (-1, plan)
    | k :: plan, n => (min k n, plan)
  write_le := by
    rintro (_ | ⟨_ | k, plan⟩) n
    · exact le_refl _
    · exact (by decide : (-1 : ℤ) ≤ 0).trans (Int.natCast_nonneg n)
    · exact min_le_right _ _

/-- Encryption that changes nothing, with an empty fragment before the data. -/
def splitEnv : SendEnv where
  max_send_fragment := 512
  range := by decide
  version := tls12Version
  need_empty_fragments := true
  dont_insert_empty_fragments := false
  enable_partial_write := false
  accept_moving_write_buffer := false
  release_buffers := true
  enc_write_ctx := true
  encrypt _ _ payload := payload

/-- A buffer of three bytes, written after the transport took seven bytes of the two records and
blocked; the alert that was to be sent meanwhile waits. -/
theorem written_once_retried :
    let t := run (Sending.step planned splitEnv ssl3RtApplicationData [7, 8, 9])
      (Sending.init [7, 0] none false (0, 0) false) [.call, .alert 1 0, .call]
    t.status = .done 3 ∧ dataOf t.s.records = [7, 8, 9] ∧
      t.s.sent = [23, 3, 3, 0, 0, 23, 3, 3, 0, 3, 7, 8, 9] := by
  intro t
  have h := written_once planned splitEnv ssl3RtApplicationData (by decide) [7, 8, 9] [7, 0] none
    false (0, 0) false [.call, .alert 1 0, .call]
  have hdone : t.status = .done 3 := by decide +kernel
  exact ⟨hdone, (h.2.2 3 hdone).2.1, by decide +kernel⟩

end VigorTls.Record.Send
