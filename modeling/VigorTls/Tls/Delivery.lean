import VigorTls.Tls.Boundaries
import VigorTls.Tls.Machine
import VigorTls.Record.Stream

/-!
# Handshake messages out of records

`ssl3_get_message` over `ssl3_read_bytes` over `ssl3_get_record`, down to the transport. `Carries`
says which handshake data the bytes on the wire are. Wherever a run has got to, it has taken a first
part of that data and stands where `parse` stands on it (`Receiver.step_sound`). So the messages and
the digest do not depend on how the data was cut into records, or the records into reads
(`getMessage_boundaries`), but for the limit on empty records (`getMessage_depends_on_pause`).
-/

namespace VigorTls.Tls

open Lib List
open Record (ByteSource RawRecord RecordConn RecordEnvs parseRecord clearEnv scheduled
  maxEmptyRecords getRecord)

variable {extra : ℕ} {β : Type}

/-- What the last call of `ssl3_get_record` has found, where `keys` says how each record is read. -/
def answered (keys : RecordEnvs) (t : Record.Reading extra β) :
    Answer :=
  match t.status, t.records.getLast? with
  | .going, some raw =>
    match (keys t.records.dropLast).decode raw with
    | .ok (b :: bs) => some (raw.type.toNat, b, bs)
    | _ => none
  | _, _ => none

/-- A connection that reads the messages of a handshake. -/
structure Receiver (extra : ℕ) (β : Type) where
  /-- The calls of `ssl3_get_message`. -/
  reading : Reading
  /-- What `ssl3_read_bytes` knows. -/
  s : Conn
  /-- What `ssl3_get_record` knows, with the transport. -/
  layer : Record.Reading extra β
  /-- The bytes that `ssl3_read_bytes` has returned. -/
  taken : Bytes

/-- What a pass finds around it. -/
structure Attempt (extra : ℕ) where
  /-- For a call of `ssl3_get_record`. -/
  call : Record.Call extra
  env : ReadEnv

/-- A connection that is about to read the messages of `calls`. -/
def Receiver.init (calls : List Call) (s : Conn) (conn : RecordConn extra) (bio : β) :
    Receiver extra β :=
  ⟨.start s.server calls, s, .init conn bio, []⟩

/-- `ssl3_get_record` is called when the connection holds no handshake data. -/
def Receiver.fetch (src : ByteSource β) (keys : RecordEnvs)
    (t : Receiver extra β) (call : Record.Call extra) : Record.Reading extra β :=
  if t.s.handshake_fragment = [] ∧ t.s.rrec.data = [] then t.layer.step src keys call else t.layer

/-- A pass of `ssl3_read_bytes` for the call of `ssl3_get_message` that waits. When it returns no
bytes, `ssl3_get_message` is called again. -/
def Receiver.step (cfg : Config) (src : ByteSource β)
    (keys : RecordEnvs) (t : Receiver extra β) (a : Attempt extra) :
    Receiver extra β :=
  match t.reading.waits with
  | none => t
  | some (c, len) =>
    let layer := t.fetch src keys a.call
    let go (s : Conn) (taken : Bytes) (p : Progress) : Receiver extra β :=
      ⟨proceed t.s.server t.reading.returned t.reading.hashed t.reading.calls c p, s, layer, taken⟩
    let again := ssl3GetMessage t.s.server c.mt c.max t.reading.m
    match handshakeRead cfg (answered keys layer) a.env len t.s with
    | .bytes bytes _ s =>
      go s (t.taken ++ bytes) (messageResume t.s.server c.mt c.max (messageFeed bytes t.reading.m))
    -- After three such passes `ssl3_read_bytes` returns.
    | .again s | .ret s | .alert _ s | .handshake s => go s t.taken again

/-! ## The data on the wire -/

/-- The bytes, after the given records, are records of handshake data and perhaps the beginning of
another one; what the records hold is `stream`. -/
inductive Carries (extra : ℕ) (keys : RecordEnvs) :
    List RawRecord → Bytes → Bytes → Prop
  | more {records bytes} (h : parseRecord extra (keys records) bytes = .more) :
      Carries extra keys records bytes []
  | record {records bytes raw plain rest stream}
      (h : parseRecord extra (keys records) bytes = .record raw plain rest)
      (htype : raw.type.toNat = ssl3RtHandshake)
      (hrest : Carries extra keys (records ++ [raw]) rest stream) :
      Carries extra keys records bytes (plain ++ stream)

variable {keys : RecordEnvs} {src : ByteSource β}
  {stream wire : Bytes}

theorem Carries.not_error {records : List RawRecord} {bytes : Bytes}
    (h : Carries extra keys records bytes stream) :
    parseRecord extra (keys records) bytes ≠ .error := by
  cases h with
  | more h =>
    rw [h]
    exact Record.Parsed.noConfusion
  | record h _ _ =>
    rw [h]
    exact Record.Parsed.noConfusion

/-- What a call of `ssl3_get_record` leaves of the data: all of it when it returns without a record,
and what is after the record otherwise. -/
def CallCarries (src : ByteSource β) (keys : RecordEnvs) (stream : Bytes) :
    Record.Ended × List RawRecord × RecordConn extra × β → Prop
  | (.ret n, records, s, bio) =>
      n ≤ 0 ∧ Carries extra keys records (s.held ++ src.rest bio) stream ∨
      n = 1 ∧ ∃ init raw b bs rest, records = init ++ [raw] ∧ raw.type.toNat = ssl3RtHandshake ∧
        (keys init).decode raw = .ok (b :: bs) ∧ stream = b :: bs ++ rest ∧
        Carries extra keys records (s.held ++ src.rest bio) rest
  | (.err _, _, _, _) => False
  | (.flood, records, s, bio) => Carries extra keys records (s.held ++ src.rest bio) stream

theorem getRecord_carries (src : ByteSource β) (cfg : Record.ReadConfig)
    (fresh : Record.Memory extra) (k : ℕ) : ∀ (records : List RawRecord)
    (s : RecordConn extra) (bio : β), s.Ok (keys records) →
    Carries extra keys records (s.held ++ src.rest bio) stream →
    CallCarries src keys stream (getRecord src.read keys cfg fresh k records s bio) := by
  -- On the empty records that are still allowed: each of them leaves the data as it is.
  induction k using Nat.strong_induction_on with
  | _ k ih =>
  intro records s bio hok hcarries
  have hpass := Record.pass_parses src cfg fresh bio hok
  unfold getRecord
  generalize Record.getRecordPass src.read (keys records) cfg fresh s bio = out at hpass
  obtain ⟨result, s', bio'⟩ := out
  cases result with
  | ret n =>
    obtain ⟨hn, -, hbytes, -⟩ := hpass
    exact .inl ⟨hn, hbytes ▸ hcarries⟩
  | err al => exact hcarries.not_error hpass.2
  | record raw plain =>
    obtain ⟨hrd, hbody, hparse⟩ := hpass
    cases hcarries with
    | more h => cases h.symm.trans hparse
    | record h htype hrest =>
      cases h.symm.trans hparse
      dsimp only
      split_ifs with hplain
      · subst hplain
        rw [nil_append] at ih ⊢
        cases k with
        | zero => exact hrest
        | succ k =>
          have hok' : s'.Ok (keys (records ++ [raw])) :=
            ⟨hrd, fun hb => absurd (hbody.symm.trans hb) (by decide)⟩
          exact ih k (Nat.lt_succ_self k) _ s' bio' hok' hrest
      · obtain ⟨b, bs, rfl⟩ := exists_cons_of_ne_nil hplain
        exact .inr ⟨rfl, records, raw, b, bs, _, rfl, htype, (Record.parseRecord_wire hparse).2,
          rfl, hrest⟩

/-- A call of `ssl3_get_record` on data of a handshake finds a record of it, and takes it off the
data, or returns with the data as it was. -/
theorem layer_step_carries {t : Record.Reading extra β} (h : t.Sound src keys wire)
    (hcarries : Carries extra keys t.records (t.ahead src) stream) (c : Record.Call extra) :
    let t' := t.step src keys c
    t'.status ≠ .going ∧ answered keys t' = none ∧
        Carries extra keys t'.records (t'.ahead src) stream ∨
      ∃ b bs rest, answered keys t' = some (ssl3RtHandshake, b, bs) ∧ stream = b :: bs ++ rest ∧
        Carries extra keys t'.records (t'.ahead src) rest := by
  have hfailed : t.status ≠ .failed := fun hst => hcarries.not_error (h.failed hst)
  unfold Record.Reading.step
  by_cases hflooded : t.status = .flooded
  · rw [if_pos (.inr hflooded)]
    refine .inl ⟨?_, ?_, hcarries⟩
    · rw [hflooded]
      decide
    · rw [answered, hflooded]
  rw [if_neg (not_or.mpr ⟨hfailed, hflooded⟩)]
  have hgoing : t.status = .going ∨ t.status = .blocked := by
    cases hst : t.status with
    | going => exact .inl rfl
    | blocked => exact .inr rfl
    | failed => exact absurd hst hfailed
    | flooded => exact absurd hst hflooded
  rw [Record.Reading.ahead, if_neg hfailed] at hcarries
  have hcall := getRecord_carries src c.cfg c.fresh maxEmptyRecords t.records t.conn t.bio
    (h.ok hgoing) hcarries
  unfold Record.ssl3GetRecord
  generalize getRecord src.read keys c.cfg c.fresh maxEmptyRecords t.records t.conn
    t.bio = out at hcall
  obtain ⟨result, records, conn, bio⟩ := out
  cases result with
  | ret n =>
    rcases hcall with ⟨hn, hrest⟩ | ⟨rfl, init, raw, b, bs, rest, rfl, htype, hdec, rfl, hrest⟩
    · dsimp only
      rw [if_pos hn]
      exact .inl ⟨by decide, rfl, hrest⟩
    · refine .inr ⟨b, bs, rest, ?_, rfl, hrest⟩
      simp [answered, hdec, htype]
  | err al => exact hcall.elim
  | flood => exact .inl ⟨Record.Status.noConfusion, rfl, hcall⟩

/-! ## Runs -/

/-- A connection that holds handshake data, or is answered with a record of it, gives some of it
out, from the front. -/
theorem handshakeRead_bytes (cfg : Config) (env : ReadEnv) {answer : Answer} {s : Conn} {len : ℕ}
    {held : Bytes} (hshutdown : s.received_shutdown = false)
    (htype : s.rrec.data ≠ [] → s.rrec.type = ssl3RtHandshake) (hlen : 0 < len)
    (hheld : held ≠ [] ∧ held = s.handshake_fragment ++ s.rrec.data ∨
      s.handshake_fragment = [] ∧ s.rrec.data = [] ∧
        ∃ b bs, answer = some (ssl3RtHandshake, b, bs) ∧ held = b :: bs) :
    ∃ xs epochs s', handshakeRead cfg answer env len s = .bytes xs epochs s' ∧
      xs ≠ [] ∧ xs.length ≤ len ∧ held = xs ++ (s'.handshake_fragment ++ s'.rrec.data) ∧
      (s'.rrec.data ≠ [] → s'.rrec.type = ssl3RtHandshake) ∧ s'.server = s.server ∧
      s'.received_shutdown = false := by
  have hne {l : Bytes} (hl : l ≠ []) {n : ℕ} (hn : 0 < n) : l.take n ≠ [] := by
    rw [Ne, take_eq_nil_iff, not_or]
    exact ⟨hn.ne', hl⟩
  -- A record that is there is read, as far as it goes.
  have hrecord (s₀ : Conn) (hshut : s₀.received_shutdown = false) (hdata : s₀.rrec.data ≠ [])
      (hty : s₀.rrec.type = ssl3RtHandshake) :
      readPass cfg env ssl3RtHandshake len false s₀ =
        .bytes (s₀.rrec.data.take (min len s₀.rrec.data.length))
          (replicate (min len s₀.rrec.data.length) s₀.ghost.rrec_epoch)
          (takeBytes s₀ (min len s₀.rrec.data.length)) ∧
      0 < min len s₀.rrec.data.length := by
    refine ⟨?_, lt_min hlen (length_pos_iff.mpr hdata)⟩
    simp [readPass, hty, hshut, hlen.ne', ssl3RtHandshake, ssl3RtApplicationData]
  unfold handshakeRead
  rcases hheld with ⟨hheld, rfl⟩ | ⟨hfragment, hdata, b, bs, rfl, rfl⟩
  · by_cases hfragment : s.handshake_fragment = []
    · rw [hfragment, nil_append] at hheld
      obtain ⟨hread, hpos⟩ := hrecord s hshutdown hheld (htype hheld)
      rw [if_neg (not_not.mpr hfragment), fetchRecord, if_pos hheld]
      refine ⟨_, _, _, hread, hne hheld hpos, ?_, ?_, fun _ => htype hheld, rfl, hshutdown⟩
      · rw [length_take]
        omega
      · simp only [takeBytes, hfragment, nil_append, take_append_drop]
    · rw [if_pos hfragment]
      refine ⟨_, _, _, rfl, hne hfragment hlen, length_take_le _ _, ?_, htype, rfl, hshutdown⟩
      rw [Conn.dropFragment, ← append_assoc, take_append_drop]
  · obtain ⟨hread, hpos⟩ := hrecord (openRecord s ssl3RtHandshake (b :: bs)) hshutdown
      (cons_ne_nil _ _) rfl
    rw [if_neg (not_not.mpr hfragment), fetchRecord, if_neg (not_not.mpr hdata)]
    refine ⟨_, _, _, hread, hne (cons_ne_nil _ _) hpos, ?_, ?_, fun _ => rfl, rfl, hshutdown⟩
    · rw [length_take]
      omega
    · simp only [takeBytes, openRecord, hfragment, nil_append, take_append_drop]

/-- Where a run stands whose data is `stream`, on the bytes `wire`. -/
structure Receiver.Sound (server : Bool) (calls : List Call) (stream wire : Bytes)
    (src : ByteSource β) (keys : RecordEnvs)
    (t : Receiver extra β) : Prop where
  side : t.s.server = server
  shutdown : t.s.received_shutdown = false
  type : t.s.rrec.data ≠ [] → t.s.rrec.type = ssl3RtHandshake
  follows : Follows server calls t.taken t.reading
  layer : t.layer.Sound src keys wire
  /-- The data is what was returned, what is held, and what is to come. -/
  carries : ∃ rest, stream = t.taken ++ (t.s.handshake_fragment ++ t.s.rrec.data) ++ rest ∧
    Carries extra keys t.layer.records (t.layer.ahead src) rest

variable {server : Bool} {calls : List Call}

/-- Before a pass, the connection has handshake data, or `ssl3_get_record` has returned without a
record. -/
theorem Receiver.Sound.fetch {t : Receiver extra β}
    (h : t.Sound server calls stream wire src keys) (call : Record.Call extra) :
    let layer := t.fetch src keys call
    layer.Sound src keys wire ∧ ∃ held rest, stream = t.taken ++ held ++ rest ∧
      Carries extra keys layer.records (layer.ahead src) rest ∧
      ((held ≠ [] ∧ held = t.s.handshake_fragment ++ t.s.rrec.data ∨
          t.s.handshake_fragment = [] ∧ t.s.rrec.data = [] ∧
            ∃ b bs, answered keys layer = some (ssl3RtHandshake, b, bs) ∧ held = b :: bs) ∨
        layer.status ≠ .going ∧ answered keys layer = none ∧ held = [] ∧
          t.s.handshake_fragment = [] ∧ t.s.rrec.data = []) := by
  obtain ⟨rest, hstream, hcarries⟩ := h.carries
  dsimp only
  unfold Receiver.fetch
  by_cases hnone : t.s.handshake_fragment = [] ∧ t.s.rrec.data = []
  · rw [if_pos hnone]
    rw [hnone.1, hnone.2, append_nil, append_nil] at hstream
    refine ⟨Record.step_parses src keys t.layer call h.layer, ?_⟩
    rcases layer_step_carries h.layer hcarries call with
      ⟨hstatus, hanswer, hahead⟩ | ⟨b, bs, rest', hanswer, rfl, hahead⟩
    · refine ⟨[], rest, ?_, hahead, .inr ⟨hstatus, hanswer, rfl, hnone⟩⟩
      rw [append_nil]
      exact hstream
    · refine ⟨b :: bs, rest', ?_, hahead, .inl (.inr ⟨hnone.1, hnone.2, b, bs, hanswer, rfl⟩)⟩
      rw [append_assoc]
      exact hstream
  · rw [if_neg hnone]
    refine ⟨h.layer, _, rest, hstream, hcarries, .inl (.inl ⟨?_, rfl⟩)⟩
    rwa [Ne, append_eq_nil_iff]

/-- A pass keeps to the data. A call that waits gets bytes by it, or `ssl3_get_record` has returned
without a record. -/
theorem Receiver.step_sound (cfg : Config) {t : Receiver extra β}
    (h : t.Sound server calls stream wire src keys) (a : Attempt extra) :
    let t' := t.step cfg src keys a
    t'.Sound server calls stream wire src keys ∧
      (t.reading.waits = none ∨ t.taken.length < t'.taken.length ∨ t'.layer.status ≠ .going) := by
  obtain ⟨hlayer, held, rest, hstream, hcarries, hcases⟩ := h.fetch a.call
  dsimp only
  unfold Receiver.step
  rw [h.side]
  cases hwaits : t.reading.waits with
  | none => exact ⟨h, .inl rfl⟩
  | some call =>
    obtain ⟨c, len⟩ := call
    dsimp only
    generalize t.fetch src keys a.call = layer at hlayer hcarries hcases ⊢
    rcases hcases with hheld | ⟨hstatus, hanswer, rfl, hfragment, hdata⟩
    · obtain ⟨xs, epochs, s', hread, hne, hle, hsplit, htype', hserver', hshutdown'⟩ :=
        handshakeRead_bytes cfg a.env h.shutdown h.type (h.follows.pos hwaits) hheld
      rw [hread]
      refine ⟨⟨hserver'.trans h.side, hshutdown', htype', h.follows.feed hwaits hle, hlayer, rest,
        ?_, hcarries⟩, .inr (.inl ?_)⟩
      · rw [hstream, hsplit]
        simp only [append_assoc]
      · have hpos := length_pos_iff.mpr hne
        dsimp only
        rw [length_append]
        omega
    · -- The call is made again, in the same state.
      have hread : handshakeRead cfg none a.env len t.s = .ret t.s := by
        rw [handshakeRead, if_neg (not_not.mpr hfragment), fetchRecord, if_neg (not_not.mpr hdata)]
        rfl
      rw [hanswer, hread]
      dsimp only
      rw [h.follows.again hwaits]
      refine ⟨⟨h.side, h.shutdown, h.type, h.follows, hlayer, rest, ?_, hcarries⟩,
        .inr (.inr hstatus)⟩
      rw [hfragment, hdata]
      exact hstream

/-- The handshake data `stream` is to be read by a connection: it holds the beginning, and the
records of the bytes to come carry the rest. -/
structure Delivers (server : Bool) (stream : Bytes) (src : ByteSource β)
    (keys : RecordEnvs) (s : Conn) (conn : RecordConn extra)
    (bio : β) : Prop where
  side : s.server = server
  shutdown : s.received_shutdown = false
  type : s.rrec.data ≠ [] → s.rrec.type = ssl3RtHandshake
  start : conn.Start
  carries : ∃ rest, stream = s.handshake_fragment ++ s.rrec.data ++ rest ∧
    Carries extra keys [] (conn.rd.unread ++ src.rest bio) rest

theorem Delivers.run_sound {s : Conn} {conn : RecordConn extra} {bio : β}
    (h : Delivers server stream src keys s conn bio) (cfg : Config) (calls : List Call)
    (as : List (Attempt extra)) :
    (run (Receiver.step cfg src keys) (.init calls s conn bio) as).Sound server calls stream
      (conn.rd.unread ++ src.rest bio) src keys := by
  have hstep (t : Receiver extra β) (a : Attempt extra)
      (ht : t.Sound server calls stream (conn.rd.unread ++ src.rest bio) src keys) :=
    (Receiver.step_sound cfg ht a).1
  refine run_invariant_all hstep as _ ?_
  have hlayer := Record.run_parses src keys h.start bio []
  have hahead : (Record.Reading.init conn bio).ahead src = conn.rd.unread ++ src.rest bio := by
    simp [Record.Reading.ahead, Record.Reading.init, RecordConn.held, h.start.body]
  refine ⟨h.side, h.shutdown, h.type, ?_, hlayer, ?_⟩
  · rw [← h.side]
    exact start_follows s.server calls
  · obtain ⟨rest, hstream, hcarries⟩ := h.carries
    exact ⟨rest, hstream, hahead ▸ hcarries⟩

/-- All the messages asked for have been read, or all the data. -/
def Receiver.Complete (stream : Bytes) (t : Receiver extra β) : Prop :=
  t.reading.waits = none ∨ t.taken = stream

variable {β' : Type} {extra' : ℕ}

/-- Of two first parts of the data, the shorter one is a first part of the other. -/
theorem taken_append {u u' : Bytes} (hu : u <+: stream) (hu' : u' <+: stream)
    (hle : u.length ≤ u'.length) : ∃ xs, u' = u ++ xs := by
  obtain ⟨xs, hxs⟩ := prefix_of_prefix_length_le hu hu' hle
  exact ⟨xs, hxs.symm⟩

theorem Receiver.Sound.first {t : Receiver extra β}
    (h : t.Sound server calls stream wire src keys) : t.taken <+: stream := by
  obtain ⟨rest, hstream, -⟩ := h.carries
  rw [hstream, append_assoc]
  exact prefix_append _ _

/-- The one of two complete runs that has taken less has got all that it asked for, or there is
nothing more. -/
theorem Receiver.Complete.same {wire' : Bytes} {src' : ByteSource β'}
    {keys' : RecordEnvs} {t : Receiver extra β} {t' : Receiver extra' β'} (hc : t.Complete stream)
    (h : t.Sound server calls stream wire src keys)
    (h' : t'.Sound server calls stream wire' src' keys')
    (hle : t.taken.length ≤ t'.taken.length) : t.reading.Same t'.reading := by
  obtain ⟨xs, hxs⟩ := taken_append h.first h'.first hle
  have hfollows := h'.follows
  rw [hxs] at hfollows
  refine h.follows.complete hfollows (hc.imp_right fun hall => ?_)
  have hlen := h'.first.length_le
  rw [hxs, hall, length_append] at hlen
  exact eq_nil_of_length_eq_zero (by omega)

/-- Two deliveries of the same handshake data, in any records, over any transports. The messages
returned and what goes into the MAC are the same where the two have taken as much, or both are
complete; otherwise those of one are the first ones of the other. A client skips exactly the Hello
Requests between messages, which are not hashed. A call that waits takes more with each pass, until
a record is incomplete on the transport, or more than 32 empty records are read in one call of
`ssl3_get_record`. -/
theorem getMessage_boundaries {src' : ByteSource β'} {keys' : RecordEnvs} {s s' : Conn}
    {conn : RecordConn extra} {conn' : RecordConn extra'} {bio : β} {bio' : β'}
    (h : Delivers server stream src keys s conn bio)
    (h' : Delivers server stream src' keys' s' conn' bio') (cfg cfg' : Config) (calls : List Call)
    (as : List (Attempt extra)) (as' : List (Attempt extra')) :
    let t := run (Receiver.step cfg src keys) (.init calls s conn bio) as
    let t' := run (Receiver.step cfg' src' keys') (.init calls s' conn' bio') as'
    (t.taken = t'.taken ∨ t.Complete stream ∧ t'.Complete stream → t.reading.Same t'.reading) ∧
    (t.taken.length ≤ t'.taken.length →
      t.reading.returned <+: t'.reading.returned ∧ t.reading.hashed <+: t'.reading.hashed) ∧
    (∃ items tail rest, stream = t.taken ++ rest ∧ Accounts server t.reading t.taken items tail) ∧
    ∀ a, let u := t.step cfg src keys a
      t.reading.waits = none ∨ t.taken.length < u.taken.length ∨
      u.layer.status = .blocked ∧
        parseRecord extra (keys u.layer.records) u.layer.conn.held = .more ∨
      u.layer.status = .flooded ∧ ∃ records raws, u.layer.records = records ++ raws ∧
        raws.length = maxEmptyRecords + 1 ∧ Record.EmptyRun keys records raws := by
  intro t t'
  have ht := h.run_sound cfg calls as
  have ht' := h'.run_sound cfg' calls as'
  refine ⟨?_, ?_, ?_, ?_⟩
  · rintro (heq | ⟨hc, hc'⟩)
    · have hfollows : Follows server calls t.taken t'.reading := heq ▸ ht'.follows
      exact Agrees.same ht.follows hfollows
    · rcases le_total t.taken.length t'.taken.length with hle | hle
      · exact hc.same ht ht' hle
      · exact (hc'.same ht' ht hle).symm
  · intro hle
    obtain ⟨xs, hxs⟩ := taken_append ht.first ht'.first hle
    exact ht.follows.mono (hxs ▸ ht'.follows)
  · obtain ⟨rest, hrest⟩ := ht.first
    exact ⟨_, _, rest, hrest.symm, ht.follows.accounts⟩
  · intro a u
    obtain ⟨hu, hcases⟩ := Receiver.step_sound cfg ht a
    refine hcases.imp_right (Or.imp_right fun hstatus => ?_)
    cases hst : u.layer.status with
    | going => exact absurd hst hstatus
    | blocked => exact .inl ⟨rfl, hu.layer.blocked hst⟩
    | failed =>
      obtain ⟨rest, -, hcarries⟩ := hu.carries
      exact absurd (hu.layer.failed hst) hcarries.not_error
    | flooded => exact .inr ⟨rfl, hu.layer.flooded hst⟩

/-- Two messages, each after a Hello Request: from one record, in one piece, and from four, one of
them empty, the first two bytes being there before and the others arriving one by one. -/
theorem getMessage_boundaries_skips :
    let calls : List Call := [⟨some 2, 20000, false⟩, ⟨some 14, 30, false⟩]
    let bytes : Bytes := [0, 0, 0, 0, 2, 0, 0, 2, 7, 8, 0, 0, 0, 0, 14, 0, 0, 0]
    let wire : Bytes := [22, 3, 1, 0, 18] ++ bytes
    let wire' : Bytes := [22, 3, 1, 0, 5, 0, 0, 2, 0, 0, 22, 3, 1, 0, 0,
      22, 3, 1, 0, 10, 2, 7, 8, 0, 0, 0, 0, 14, 0, 0, 22, 3, 1, 0, 1, 0]
    let a : Attempt 0 := ⟨⟨⟨true, false⟩, Record.aligned⟩, {}⟩
    let t := run (Receiver.step .permissive scheduled clearEnv)
      (.init calls (.init false {}) .fresh (wire, replicate 4 (.size 40))) (replicate 9 a)
    let t' := run (Receiver.step .permissive scheduled clearEnv)
      (.init calls { Conn.init false {} with handshake_fragment := [0, 0] } .fresh
        (wire', .block (-1) (by decide) :: replicate 40 (.size 0))) (replicate 20 a)
    t.reading.returned = [(2, [7, 8]), (14, [])] ∧ t.reading.Same t'.reading := by
  intro calls bytes wire wire' a t t'
  have h : Delivers false bytes scheduled clearEnv (.init false {}) .fresh
      (wire, replicate 4 (.size 40)) :=
    ⟨rfl, rfl, fun hne => absurd rfl hne, RecordConn.fresh_start, bytes ++ [], rfl,
      .record rfl rfl (.more rfl)⟩
  have h' : Delivers false bytes scheduled clearEnv
      { Conn.init false {} with handshake_fragment := [0, 0] } .fresh
      (wire', .block (-1) (by decide) :: replicate 40 (.size 0)) :=
    ⟨rfl, rfl, fun hne => absurd rfl hne, RecordConn.fresh_start,
      [0, 0, 2, 0, 0] ++ ([] ++ ([2, 7, 8, 0, 0, 0, 0, 14, 0, 0] ++ ([0] ++ []))), rfl,
      .record rfl rfl (.record rfl rfl (.record rfl rfl (.record rfl rfl (.more rfl))))⟩
  refine ⟨by decide +kernel, (getMessage_boundaries h h' .permissive .permissive calls _ _).1
    (.inr ⟨.inl ?_, .inl ?_⟩)⟩ <;> decide +kernel

/-- The same forty empty records and the same message: read at once they end the handshake, and read
with a pause they do not. -/
theorem getMessage_depends_on_pause :
    let calls : List Call := [⟨some 14, 30, false⟩]
    let wire : Bytes := (replicate 40 [22, 3, 1, 0, 0]).flatten ++ [22, 3, 1, 0, 4, 14, 0, 0, 0]
    let a : Attempt 0 := ⟨⟨⟨true, false⟩, Record.aligned⟩, {}⟩
    let t (plan : List Record.Chunk) :=
      run (Receiver.step .permissive scheduled clearEnv)
        (.init calls (.init false {}) .fresh (wire, plan)) (replicate 4 a)
    let t₁ := t [.size 4, .size 300]
    let t₂ := t [.size 4, .size 94, .block (-1) (by decide), .size 300]
    t₁.reading.returned = [] ∧ t₁.layer.status = .flooded ∧
      t₂.reading.returned = [(14, [])] ∧ t₂.layer.status = .going := by
  decide +kernel

end VigorTls.Tls
