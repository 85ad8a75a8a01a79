import Mathlib.Logic.Relation
import VigorTls.Lib.Run
import VigorTls.Record.Buffer

/-!
# Records from a stream

`ssl3_get_record` of `ssl/s3_pkt.c` over `ssl3_read_n`. A record arrives in pieces of any length,
with failures between them. `parseRecord` says which record a string of bytes begins with; a pass
comes to the same on the bytes that it holds and those to come (`pass_parses`), and so do runs
(`run_parses`). Only the limit on empty records counts per call.
-/

namespace VigorTls.Record

open Lib List Prod

/-- A record as it is on the wire. -/
structure RawRecord where
  type : UInt8
  version : ℕ
  length : ℕ
  body : Bytes
deriving DecidableEq

def RawRecord.wire (r : RawRecord) : Bytes :=
  r.type :: (s2n r.version ++ s2n r.length ++ r.body)

def n2s (hi lo : UInt8) : ℕ := hi.toNat <<< 8 ||| lo.toNat

theorem n2s_eq (hi lo : UInt8) : n2s hi lo = hi.toNat * 256 + lo.toNat := by
  have hlo : lo.toNat < 2 ^ 8 := lo.toNat_lt
  rw [n2s, Nat.shiftLeft_eq, Nat.mul_comm, ← Nat.two_pow_add_eq_or_of_lt hlo]

theorem s2n_n2s (hi lo : UInt8) : s2n (n2s hi lo) = [hi, lo] := by
  have hlo := lo.toNat_lt
  have hhi := hi.toNat_lt
  rw [n2s_eq, s2n]
  congr 2
  · rw [← UInt8.toNat_inj, UInt8.toNat_ofNat']
    omega
  · rw [← UInt8.toNat_inj, UInt8.toNat_ofNat']
    omega

/-- What the rest of the connection contributes to reading a record. -/
structure RecordEnv where
  first_packet : Bool
  version : ℕ
  /-- There is neither `enc_write_ctx` nor `write_hash`. -/
  clear_write : Bool
  /-- Decryption and the check of the MAC, with the alert when they fail. -/
  decode : RawRecord → Except ℕ Bytes

/-- What it contributes after the records read so far. -/
abbrev RecordEnvs := List RawRecord → RecordEnv

variable {extra : ℕ} {β : Type}

/-- The checks of a header: `some` for an error, with the alert that is sent, if one is. -/
def checkHeader (extra : ℕ) (env : RecordEnv) (type : UInt8) (version length : ℕ) :
    Option (Option ℕ) :=
  if !env.first_packet && version ≠ env.version then
    if env.version &&& 0xff00 = version &&& 0xff00 ∧ env.clear_write ∧ type.toNat = ssl3RtAlert then
      some none
    else some (some sslAdProtocolVersion)
  else if version >>> 8 ≠ ssl3VersionMajor then some none
  else if ssl3RtMaxEncryptedLength + extra < length then some (some sslAdRecordOverflow)
  else none

/-- The fields of the connection that `ssl3_get_record` works on. -/
structure RecordConn (extra : ℕ) where
  rd : ReadConn extra
  /-- `rstate` is `SSL_ST_READ_BODY`. -/
  body : Bool
  /-- `rr->type` and `rr->length`. -/
  type : UInt8
  length : ℕ

inductive PassResult where
  | ret (n : ℤ)
  /-- An error, with the alert that is sent. -/
  | err (al : Option ℕ)
  /-- A record, and what it decodes to. -/
  | record (raw : RawRecord) (plain : Bytes)

/-- The record in the packet is decoded. -/
def decodeRecord (env : RecordEnv) (s : RecordConn extra) : PassResult × RecordConn extra :=
  let s := { s with body := false }
  match s.rd.pending with
  | _ :: v1 :: v0 :: _ :: _ :: input =>
    let raw : RawRecord := ⟨s.type, n2s v1 v0, s.length, input⟩
    match env.decode raw with
    | .error al => (.err (some al), s)
    | .ok plain =>
      if ssl3RtMaxPlainLength + extra < plain.length then (.err (some sslAdRecordOverflow), s)
      else (.record raw plain, { s with rd := { s.rd with packet_length := 0 } })
  | _ => (.err none, s)

section

variable (read : β → ℕ → BioResult × β) (env : RecordEnv) (cfg : ReadConfig) (fresh : Memory extra)

/-- `ssl3_get_record` from where it has the header. -/
def readBody (s : RecordConn extra) (bio : β) : PassResult × RecordConn extra × β :=
  if s.rd.packet_length - ssl3RtHeaderLength < s.length then
    match ssl3ReadN read cfg fresh s.length s.length true s.rd bio with
    | (n, rd, bio) =>
      if n ≤ 0 then (.ret n, { s with rd := rd }, bio)
      else
        let (result, s) := decodeRecord env { s with rd := rd }
        (result, s, bio)
  else
    let (result, s) := decodeRecord env s
    (result, s, bio)

/-- `ssl3_get_record` up to its `goto again`. -/
def getRecordPass (s : RecordConn extra) (bio : β) : PassResult × RecordConn extra × β :=
  if !s.body || s.rd.packet_length < ssl3RtHeaderLength then
    match ssl3ReadN read cfg fresh ssl3RtHeaderLength s.rd.len false s.rd bio with
    | (n, rd, bio) =>
      if n ≤ 0 then (.ret n, { s with rd := rd }, bio)
      else
        match rd.pending with
        | t :: v1 :: v0 :: l1 :: l0 :: _ =>
          let s : RecordConn extra := ⟨rd, true, t, n2s l1 l0⟩
          match checkHeader extra env t (n2s v1 v0) (n2s l1 l0) with
          | some al => (.err al, s, bio)
          | none => readBody read env cfg fresh s bio
        | _ => (.err none, { s with rd := rd, body := true }, bio)
  else readBody read env cfg fresh s bio

end

abbrev maxEmptyRecords : ℕ := 32

inductive Ended where
  /-- With a record, or with what `ssl3_read_n` returned. -/
  | ret (n : ℤ)
  /-- With an error, with the alert that is sent. -/
  | err (al : Option ℕ)
  | flood

/-- `ssl3_get_record` with `k` empty records still allowed, after the records `records`. -/
def getRecord (read : β → ℕ → BioResult × β) (env : RecordEnvs) (cfg : ReadConfig)
    (fresh : Memory extra) : ℕ → List RawRecord → RecordConn extra → β →
      Ended × List RawRecord × RecordConn extra × β
  | k, records, s, bio =>
    match getRecordPass read (env records) cfg fresh s bio with
    | (.ret n, s, bio) => (.ret n, records, s, bio)
    | (.err al, s, bio) => (.err al, records, s, bio)
    | (.record raw plain, s, bio) =>
      if plain = [] then
        match k with
        | 0 => (.flood, records ++ [raw], s, bio)
        | k + 1 => getRecord read env cfg fresh k (records ++ [raw]) s bio
      else (.ret 1, records ++ [raw], s, bio)

def ssl3GetRecord (read : β → ℕ → BioResult × β) (env : RecordEnvs)
    (cfg : ReadConfig) (fresh : Memory extra) (records : List RawRecord) (s : RecordConn extra)
    (bio : β) : Ended × List RawRecord × RecordConn extra × β :=
  getRecord read env cfg fresh maxEmptyRecords records s bio

inductive Status where
  | going
  /-- The transport has failed, and the caller may try again. -/
  | blocked
  | failed
  /-- There were too many empty records. -/
  | flooded
deriving DecidableEq

structure Reading (extra : ℕ) (β : Type) where
  conn : RecordConn extra
  bio : β
  records : List RawRecord
  status : Status

/-- A call: how the connection is set up, and the memory that would be allocated. -/
structure Call (extra : ℕ) where
  cfg : ReadConfig
  fresh : Memory extra

/-- A call of `ssl3_get_record`, unless one has failed. -/
def Reading.step (src : ByteSource β) (env : RecordEnvs) (t : Reading extra β)
    (c : Call extra) : Reading extra β :=
  if t.status = .failed ∨ t.status = .flooded then t
  else
    match ssl3GetRecord src.read env c.cfg c.fresh t.records t.conn t.bio with
    | (.ret n, records, conn, bio) => ⟨conn, bio, records, if n ≤ 0 then .blocked else .going⟩
    | (.err _, records, conn, bio) => ⟨conn, bio, records, .failed⟩
    | (.flood, records, conn, bio) => ⟨conn, bio, records, .flooded⟩

inductive Parsed where
  | more
  | error
  | record (raw : RawRecord) (plain rest : Bytes)

/-- The record at the front of a string of bytes. -/
def parseRecord (extra : ℕ) (env : RecordEnv) : Bytes → Parsed
  | t :: v1 :: v0 :: l1 :: l0 :: rest =>
    match checkHeader extra env t (n2s v1 v0) (n2s l1 l0) with
    | some _ => .error
    | none =>
      if rest.length < n2s l1 l0 then .more
      else
        let raw : RawRecord := ⟨t, n2s v1 v0, n2s l1 l0, rest.take (n2s l1 l0)⟩
        match env.decode raw with
        | .error _ => .error
        | .ok plain =>
          if ssl3RtMaxPlainLength + extra < plain.length then .error
          else .record raw plain (rest.drop (n2s l1 l0))
  | _ => .more

variable {bytes : Bytes}
variable {env : RecordEnv} {raw : RawRecord} {s : RecordConn extra}

theorem parseRecord_wire {plain rest : Bytes}
    (h : parseRecord extra env bytes = .record raw plain rest) :
    bytes = raw.wire ++ rest ∧ env.decode raw = .ok plain := by
  unfold parseRecord at h
  split at h
  · split at h
    · cases h
    split at h
    · cases h
    dsimp only at h
    split at h
    · cases h
    next hdec =>
    split at h
    · cases h
    obtain ⟨rfl, rfl, rfl⟩ := Parsed.record.inj h
    refine ⟨?_, hdec⟩
    rw [RawRecord.wire, s2n_n2s, s2n_n2s]
    simp
  · cases h

theorem parseRecord_short (h : bytes.length < ssl3RtHeaderLength) :
    parseRecord extra env bytes = .more := by
  unfold parseRecord
  split
  · simp only [length_cons, ssl3RtHeaderLength] at h
    omega
  · rfl

/-- The bytes of the record that is being read, and those after it. -/
def RecordConn.held (s : RecordConn extra) : Bytes :=
  (if s.body then s.rd.pending else []) ++ s.rd.unread

/-- A header that was read was accepted, and it is the packet. -/
structure RecordConn.Ok (env : RecordEnv) (s : RecordConn extra) : Prop where
  rd : s.rd.Ok
  header : s.body → s.rd.packet_length = ssl3RtHeaderLength ∧
    ∃ v1 v0 l1 l0, s.rd.pending = [s.type, v1, v0, l1, l0] ∧ s.length = n2s l1 l0 ∧
      checkHeader extra env s.type (n2s v1 v0) s.length = none

/-- A pass comes to what the bytes are: those that it holds at first and those that arrive. -/
def PassParses (src : ByteSource β) (env : RecordEnv) (bytes : Bytes) :
    PassResult × RecordConn extra × β → Prop
  | (.ret n, s, bio) => n ≤ 0 ∧ s.Ok env ∧ bytes = s.held ++ src.rest bio ∧
      parseRecord extra env s.held = .more
  | (.err _, s, bio) => bytes = s.rd.pending ++ s.rd.unread ++ src.rest bio ∧
      parseRecord extra env bytes = .error
  | (.record raw plain, s, bio) => s.rd.Ok ∧ s.body = false ∧
      parseRecord extra env bytes = .record raw plain (s.held ++ src.rest bio)

theorem decodeRecord_parses (src : ByteSource β) (hrd : s.rd.Ok) {v1 v0 l1 l0 : UInt8}
    {input : Bytes} (hpending : s.rd.pending = s.type :: v1 :: v0 :: l1 :: l0 :: input)
    (hlength : s.length = n2s l1 l0) (hinput : input.length = s.length)
    (hcheck : checkHeader extra env s.type (n2s v1 v0) s.length = none) (bio : β) :
    PassParses src env (s.rd.pending ++ s.rd.unread ++ src.rest bio)
      ((decodeRecord env s).1, (decodeRecord env s).2, bio) := by
  have hparse : ∀ rest, parseRecord extra env (s.rd.pending ++ rest) =
      match env.decode ⟨s.type, n2s v1 v0, s.length, input⟩ with
      | .error _ => .error
      | .ok plain =>
        if ssl3RtMaxPlainLength + extra < plain.length then .error
        else .record ⟨s.type, n2s v1 v0, s.length, input⟩ plain rest := by
    intro rest
    rw [hpending]
    simp only [cons_append, parseRecord]
    rw [← hlength, hcheck]
    rw [if_neg (by rw [length_append]; omega), take_left' hinput, drop_left' hinput]
  have hdecode : decodeRecord env s =
      match env.decode ⟨s.type, n2s v1 v0, s.length, input⟩ with
      | .error al => (.err (some al), { s with body := false })
      | .ok plain =>
        if ssl3RtMaxPlainLength + extra < plain.length then
          (.err (some sslAdRecordOverflow), { s with body := false })
        else (.record ⟨s.type, n2s v1 v0, s.length, input⟩ plain,
          { s with rd := { s.rd with packet_length := 0 }, body := false }) := by
    unfold decodeRecord
    dsimp only
    rw [hpending]
  have hparse := hparse (s.rd.unread ++ src.rest bio)
  rw [hdecode, append_assoc]
  cases hdec : env.decode ⟨s.type, n2s v1 v0, s.length, input⟩ with
  | error al =>
    rw [hdec] at hparse
    exact ⟨(append_assoc ..).symm, hparse⟩
  | ok plain =>
    rw [hdec] at hparse
    dsimp only at hparse ⊢
    split_ifs at hparse ⊢ with hlong
    · exact ⟨(append_assoc ..).symm, hparse⟩
    · refine ⟨⟨fun mem hmem => ?_, fun hmem => ⟨(hrd.none hmem).1, rfl⟩⟩, rfl, hparse⟩
      have hok := hrd.some mem hmem
      exact ⟨fun hpos => absurd hpos (lt_irrefl 0), hok.inside, hok.movable⟩

theorem header_bytes (h : ssl3RtHeaderLength ≤ bytes.length) :
    ∃ t v1 v0 l1 l0 rest, bytes = t :: v1 :: v0 :: l1 :: l0 :: rest := by
  match bytes, h with
  | t :: v1 :: v0 :: l1 :: l0 :: rest, _ => exact ⟨t, v1, v0, l1, l0, rest, rfl⟩

section

variable (src : ByteSource β) (cfg : ReadConfig) (fresh : Memory extra)
  {s : RecordConn extra} (bio : β)

theorem readBody_parses (h : s.Ok env) (hbody : s.body = true) :
    PassParses src env (s.held ++ src.rest bio) (readBody src.read env cfg fresh s bio) := by
  obtain ⟨hlen, v1, v0, l1, l0, hpending, hlength, hcheck⟩ := h.header hbody
  have hheld : s.held = s.rd.pending ++ s.rd.unread := by rw [RecordConn.held, if_pos hbody]
  unfold readBody
  rw [hheld]
  split_ifs with hmore
  · have hmax : s.length ≤ ssl3RtMaxEncryptedLength + extra := by
      unfold checkHeader at hcheck
      split_ifs at hcheck with h1 h2 h3 h4
      exact not_lt.mp h4
    obtain ⟨arrived, hok, hstream, hcount, hcases⟩ :=
      ssl3ReadN_spec src cfg fresh s.length true bio h.rd (n := s.length) (by omega)
      (fun _ => by rw [hlen]; decide) (by rw [if_pos rfl]; omega)
    generalize ssl3ReadN src.read cfg fresh s.length s.length true s.rd bio = out
      at hok hstream hcount hcases
    obtain ⟨n, rd, bio'⟩ := out
    dsimp only at hok hstream hcount hcases ⊢
    rw [if_pos rfl] at hcases
    have hbytes : s.rd.pending ++ s.rd.unread ++ src.rest bio =
        s.rd.pending ++ (s.rd.unread ++ arrived) ++ src.rest bio' := by
      rw [hstream]
      simp
    rw [hbytes]
    rcases hcases with ⟨hn, henough, hp, hu⟩ | ⟨hn, hshort, hp, hu⟩
    · -- The body is all there.
      rw [if_neg (by omega)]
      have hp' : rd.pending = s.type :: v1 :: v0 :: l1 :: l0 ::
          (s.rd.unread ++ arrived).take s.length := by
        rw [hp, hpending]
        rfl
      have hdec := decodeRecord_parses src (s := { s with rd := rd }) hok hp' hlength
        (length_take_of_le henough) hcheck bio'
      rwa [hp, hu, append_assoc s.rd.pending, take_append_drop] at hdec
    rw [if_pos hn]
    have hheld' : RecordConn.held { s with rd := rd } =
        s.rd.pending ++ (s.rd.unread ++ arrived) := by
      rw [RecordConn.held, if_pos hbody, hp, hu]
    refine ⟨hn, ⟨hok, fun _ => ?_⟩, ?_, ?_⟩
    · have hfive : rd.packet_length = ssl3RtHeaderLength := by
        rw [hcount, hp, hpending]
        rfl
      exact ⟨hfive, v1, v0, l1, l0, hp.trans hpending, hlength, hcheck⟩
    · rw [hheld']
    · rw [hheld', hpending]
      simp only [cons_append, nil_append, parseRecord]
      rw [← hlength, hcheck]
      rw [if_pos hshort]
  · refine decodeRecord_parses src h.rd (hpending.trans rfl) hlength ?_ hcheck bio
    simp only [length_nil]
    omega

theorem pass_parses (h : s.Ok env) :
    PassParses src env (s.held ++ src.rest bio) (getRecordPass src.read env cfg fresh s bio) := by
  unfold getRecordPass
  by_cases hbody : s.body = true
  · rw [if_neg (by rw [hbody, (h.header hbody).1]; decide)]
    exact readBody_parses src cfg fresh bio h hbody
  have hbody : s.body = false := Bool.eq_false_of_not_eq_true hbody
  rw [if_pos (hbody ▸ rfl)]
  obtain ⟨arrived, hok, hstream, hcount, hcases⟩ :=
    ssl3ReadN_spec src cfg fresh s.rd.len false bio h.rd (n := ssl3RtHeaderLength) (by decide)
      (by simp) (by rw [if_neg Bool.false_ne_true]; omega)
  generalize ssl3ReadN src.read cfg fresh ssl3RtHeaderLength s.rd.len false s.rd bio = out
    at hok hstream hcount hcases
  obtain ⟨n, rd, bio'⟩ := out
  dsimp only at hok hstream hcount hcases ⊢
  have hbytes : s.held ++ src.rest bio = s.rd.unread ++ arrived ++ src.rest bio' := by
    rw [RecordConn.held, hbody, hstream]
    simp
  rw [hbytes]
  rcases hcases with ⟨hn, henough, hp, hu⟩ | ⟨hn, hshort, hp, hu⟩
  · -- The header is there.
    rw [if_neg (by rw [hn]; decide)]
    obtain ⟨t, v1, v0, l1, l0, rest, hrest⟩ := header_bytes henough
    rw [hrest] at hp hu ⊢
    have hp : rd.pending = [t, v1, v0, l1, l0] := hp
    rw [hp]
    dsimp only
    cases hcheck : checkHeader extra env t (n2s v1 v0) (n2s l1 l0) with
    | some al =>
      refine ⟨?_, ?_⟩
      · dsimp only
        rw [hp, hu]
        rfl
      · simp only [cons_append, parseRecord]
        rw [hcheck]
    | none =>
      have hheld : RecordConn.held (⟨rd, true, t, n2s l1 l0⟩ : RecordConn extra) =
          t :: v1 :: v0 :: l1 :: l0 :: rest := by
        rw [RecordConn.held, hp, hu]
        rfl
      rw [← hheld]
      have hfive : rd.packet_length = ssl3RtHeaderLength := by
        rw [hcount, hp]
        rfl
      exact readBody_parses src cfg fresh bio'
        ⟨hok, fun _ => ⟨hfive, v1, v0, l1, l0, hp, rfl, hcheck⟩⟩ rfl
  · rw [if_pos hn]
    have hheld : RecordConn.held { s with rd := rd } = s.rd.unread ++ arrived := by
      rw [RecordConn.held, hbody, hu]
      rfl
    refine ⟨hn, ⟨hok, fun hb => absurd (hbody.symm.trans hb) Bool.false_ne_true⟩, ?_, ?_⟩
    · rw [hheld]
    · rw [hheld]
      exact parseRecord_short hshort

end

/-! ## What a run reads -/

def Takes (extra : ℕ) (env : RecordEnvs) (a b : List RawRecord × Bytes) : Prop :=
  ∃ raw plain, parseRecord extra (env a.1) a.2 = .record raw plain b.2 ∧ b.1 = a.1 ++ [raw]

/-- Records are taken from the front, one after the other. -/
abbrev Parses (extra : ℕ) (env : RecordEnvs) :=
  Relation.ReflTransGen (Takes extra env)

theorem takes_unique (env : RecordEnvs) :
    Relator.RightUnique (Takes extra env) := by
  rintro a b c ⟨raw, plain, hparse, hb⟩ ⟨raw', plain', hparse', hc⟩
  obtain ⟨rfl, rfl, hrest⟩ := Parsed.record.inj (hparse.symm.trans hparse')
  exact Prod.ext (hb.trans hc.symm) hrest

variable {env : RecordEnvs} {a b : List RawRecord × Bytes}

theorem parses_wire (h : Parses extra env a b) :
    a.1.flatMap RawRecord.wire ++ a.2 = b.1.flatMap RawRecord.wire ++ b.2 ∧ a.1 <+: b.1 := by
  induction h with
  | refl => exact ⟨rfl, prefix_refl _⟩
  | tail _ hstep ih =>
    obtain ⟨raw, plain, hparse, hrecords⟩ := hstep
    refine ⟨ih.1.trans ?_, ih.2.trans (hrecords ▸ prefix_append _ _)⟩
    rw [(parseRecord_wire hparse).1, hrecords]
    simp

/-- The records of a list are all empty, after those in `records`. -/
def EmptyRun (env : RecordEnvs) : List RawRecord → List RawRecord → Prop
  | _, [] => True
  | records, raw :: raws =>
    (env records).decode raw = .ok [] ∧ EmptyRun env (records ++ [raw]) raws

def CallParses (src : ByteSource β) (env : RecordEnvs) (k : ℕ)
    (records : List RawRecord) (bytes : Bytes) :
    Ended × List RawRecord × RecordConn extra × β → Prop
  | (.ret n, records', s, bio) => s.Ok (env records') ∧
      Parses extra env (records, bytes) (records', s.held ++ src.rest bio) ∧
      (n ≤ 0 → parseRecord extra (env records') s.held = .more)
  | (.err _, records', s, bio) =>
      Parses extra env (records, bytes) (records', s.rd.pending ++ s.rd.unread ++ src.rest bio) ∧
      parseRecord extra (env records') (s.rd.pending ++ s.rd.unread ++ src.rest bio) = .error
  | (.flood, records', s, bio) =>
      Parses extra env (records, bytes) (records', s.held ++ src.rest bio) ∧
      ∃ raws, records' = records ++ raws ∧ raws.length = k + 1 ∧ EmptyRun env records raws

variable {src : ByteSource β}

theorem CallParses.after_empty {k : ℕ} {records : List RawRecord} {bytes' : Bytes}
    {out : Ended × List RawRecord × RecordConn extra × β}
    (hparse : parseRecord extra (env records) bytes = .record raw [] bytes')
    (h : CallParses src env k (records ++ [raw]) bytes' out) :
    CallParses src env (k + 1) records bytes out := by
  have hstep : Takes extra env (records, bytes) (records ++ [raw], bytes') := ⟨raw, [], hparse, rfl⟩
  obtain ⟨result, records', s, bio⟩ := out
  cases result with
  | ret n =>
    obtain ⟨hok, hparses, hmore⟩ := h
    exact ⟨hok, .head hstep hparses, hmore⟩
  | err al =>
    obtain ⟨hparses, herr⟩ := h
    exact ⟨.head hstep hparses, herr⟩
  | flood =>
    obtain ⟨hparses, raws, hrecords, hlen, hempty⟩ := h
    refine ⟨.head hstep hparses, raw :: raws, ?_, congrArg (· + 1) hlen, ?_, hempty⟩
    · rw [hrecords, append_assoc]
      rfl
    · exact (parseRecord_wire hparse).2

theorem getRecord_parses (src : ByteSource β) (env : RecordEnvs) (cfg : ReadConfig)
    (fresh : Memory extra) (k : ℕ) : ∀ (records : List RawRecord) (s : RecordConn extra) (bio : β),
      s.Ok (env records) → CallParses src env k records (s.held ++ src.rest bio)
        (getRecord src.read env cfg fresh k records s bio) := by
  induction k using Nat.strong_induction_on with
  | _ k ih =>
  intro records s bio h
  have hpass := pass_parses src cfg fresh bio h
  unfold getRecord
  generalize getRecordPass src.read (env records) cfg fresh s bio = out at hpass
  obtain ⟨result, s', bio'⟩ := out
  cases result with
  | ret n =>
    obtain ⟨-, hok, hbytes, hmore⟩ := hpass
    rw [hbytes]
    exact ⟨hok, .refl, fun _ => hmore⟩
  | err al =>
    obtain ⟨hbytes, herr⟩ := hpass
    rw [hbytes] at herr ⊢
    exact ⟨.refl, herr⟩
  | record raw plain =>
    obtain ⟨hrd, hbody, hparse⟩ := hpass
    have hok : ∀ env, s'.Ok env := fun _ =>
      ⟨hrd, fun hb => absurd (hbody.symm.trans hb) (by decide)⟩
    dsimp only
    split_ifs with hplain
    · rw [hplain] at hparse
      cases k with
      | zero =>
        refine ⟨.single ⟨raw, [], hparse, rfl⟩, [raw], rfl, rfl, ?_, trivial⟩
        exact (parseRecord_wire hparse).2
      | succ k => exact (ih k (Nat.lt_succ_self k) _ s' bio' (hok _)).after_empty hparse
    · exact ⟨hok _, .single ⟨raw, plain, hparse, rfl⟩, fun hn => absurd hn (by decide)⟩

/-- The bytes after the records read, those of a record that failed included. -/
def Reading.ahead (src : ByteSource β) (t : Reading extra β) : Bytes :=
  (if t.status = .failed then t.conn.rd.pending ++ t.conn.rd.unread else t.conn.held) ++
    src.rest t.bio

/-- What holds at every point of a run on the stream `stream`. -/
structure Reading.Sound (src : ByteSource β) (env : RecordEnvs)
    (stream : Bytes) (t : Reading extra β) : Prop where
  parses : Parses extra env ([], stream) (t.records, t.ahead src)
  ok : t.status = .going ∨ t.status = .blocked → t.conn.Ok (env t.records)
  blocked : t.status = .blocked → parseRecord extra (env t.records) t.conn.held = .more
  failed : t.status = .failed → parseRecord extra (env t.records) (t.ahead src) = .error
  flooded : t.status = .flooded → ∃ records raws, t.records = records ++ raws ∧
    raws.length = maxEmptyRecords + 1 ∧ EmptyRun env records raws

variable {stream : Bytes}

theorem step_parses (src : ByteSource β) (env : RecordEnvs) (t : Reading extra β)
    (c : Call extra) (h : t.Sound src env stream) : (t.step src env c).Sound src env stream := by
  unfold Reading.step
  by_cases hstop : t.status = .failed ∨ t.status = .flooded
  · rwa [if_pos hstop]
  rw [if_neg hstop]
  obtain ⟨hfailed, hflooded⟩ := not_or.mp hstop
  have hgoing : t.status = .going ∨ t.status = .blocked := by
    cases hst : t.status with
    | going => exact .inl rfl
    | blocked => exact .inr rfl
    | failed => exact absurd hst hfailed
    | flooded => exact absurd hst hflooded
  have hcall := getRecord_parses src env c.cfg c.fresh maxEmptyRecords t.records t.conn t.bio
    (h.ok hgoing)
  have hparses := h.parses
  rw [Reading.ahead, if_neg hfailed] at hparses
  unfold ssl3GetRecord
  generalize getRecord src.read env c.cfg c.fresh maxEmptyRecords t.records t.conn t.bio = out
    at hcall
  obtain ⟨result, records, conn, bio⟩ := out
  cases result with
  | ret n =>
    obtain ⟨hok, hmore, hblocked⟩ := hcall
    dsimp only
    split_ifs with hn
    · exact ⟨hparses.trans hmore, fun _ => hok, fun _ => hblocked hn, nofun, nofun⟩
    · exact ⟨hparses.trans hmore, fun _ => hok, nofun, nofun, nofun⟩
  | err al =>
    obtain ⟨hmore, herr⟩ := hcall
    exact ⟨hparses.trans hmore, nofun, nofun, fun _ => herr, nofun⟩
  | flood =>
    obtain ⟨hmore, raws, hrecords, hlen, hempty⟩ := hcall
    exact ⟨hparses.trans hmore, nofun, nofun, nofun,
      fun _ => ⟨t.records, raws, hrecords, hlen, hempty⟩⟩

/-- Where reading starts: at the unread bytes, if there are any. -/
structure RecordConn.Start (s : RecordConn extra) : Prop where
  rd : s.rd.Ok
  body : s.body = false

def Reading.init (s : RecordConn extra) (bio : β) : Reading extra β := ⟨s, bio, [], .going⟩

theorem run_parses (src : ByteSource β) (env : RecordEnvs) (hs : s.Start) (bio : β)
    (calls : List (Call extra)) :
    (run (Reading.step src env) (Reading.init s bio) calls).Sound src env
      (s.rd.unread ++ src.rest bio) := by
  refine run_invariant_all (step_parses src env) calls _
    ⟨?_, fun _ => ?_, by rintro ⟨⟩, by rintro ⟨⟩, by rintro ⟨⟩⟩
  · have hheld : s.held = s.rd.unread := by
      rw [RecordConn.held, hs.body]
      rfl
    rw [← hheld]
    exact .refl
  · exact ⟨hs.rd, fun hb => absurd (hs.body.symm.trans hb) (by decide)⟩

/-- It ended with an error, or for want of bytes when the transport has none. -/
def Reading.Over (src : ByteSource β) (t : Reading extra β) : Prop :=
  t.status = .failed ∨ t.status = .blocked ∧ src.rest t.bio = []

theorem Reading.Sound.stop {t : Reading extra β} (h : t.Sound src env stream) (ht : t.Over src) :
    parseRecord extra (env t.records) (t.ahead src) =
      if t.status = .failed then .error else .more := by
  rcases ht with hf | ⟨hb, hrest⟩
  · rw [if_pos hf]
    exact h.failed hf
  · rw [Reading.ahead, hb, hrest, append_nil]
    exact h.blocked hb

theorem eq_of_stop (ha : ∀ raw plain rest, parseRecord extra (env a.1) a.2 ≠ .record raw plain rest)
    (h : Parses extra env a b) : a = b := by
  cases h.cases_head with
  | inl heq => exact heq
  | inr hstep =>
    obtain ⟨c, ⟨raw, plain, hparse, -⟩, -⟩ := hstep
    exact absurd hparse (ha raw plain _)

/-- Two runs on the same stream: the records of one are the first records of the other, and in each
no byte is lost. When both are over they have read the same, and both or neither have failed. A run
stopped for too many empty records has read that many in one call. -/
theorem records_independent {β' : Type} (src : ByteSource β) (src' : ByteSource β')
    (env : RecordEnvs) (s s' : RecordConn extra) (bio : β) (bio' : β')
    (hs : s.Start) (hs' : s'.Start)
    (hstream : s.rd.unread ++ src.rest bio = s'.rd.unread ++ src'.rest bio')
    (calls calls' : List (Call extra)) :
    let t := run (Reading.step src env) (Reading.init s bio) calls
    let t' := run (Reading.step src' env) (Reading.init s' bio') calls'
    (t.records <+: t'.records ∨ t'.records <+: t.records) ∧
    s.rd.unread ++ src.rest bio = t.records.flatMap RawRecord.wire ++ t.ahead src ∧
    (t.Over src → t'.Over src' →
      t.records = t'.records ∧ (t.status = .failed ↔ t'.status = .failed)) ∧
    (t.status = .flooded → ∃ records raws, t.records = records ++ raws ∧
      raws.length = maxEmptyRecords + 1 ∧ EmptyRun env records raws) := by
  intro t t'
  have ht : t.Sound src env (s.rd.unread ++ src.rest bio) := run_parses src env hs bio calls
  have ht' : t'.Sound src' env (s.rd.unread ++ src.rest bio) :=
    hstream ▸ run_parses src' env hs' bio' calls'
  have htotal := ht.parses.total_of_right_unique (takes_unique env) ht'.parses
  refine ⟨?_, (parses_wire ht.parses).1, fun hover hover' => ?_, ht.flooded⟩
  · exact htotal.imp (fun h => (parses_wire h).2) fun h => (parses_wire h).2
  have hstop := ht.stop hover
  have hstop' := ht'.stop hover'
  have hnone : ∀ raw plain rest,
      parseRecord extra (env t.records) (t.ahead src) ≠ .record raw plain rest := by
    rw [hstop]
    split_ifs <;> exact nofun
  have hnone' : ∀ raw plain rest,
      parseRecord extra (env t'.records) (t'.ahead src') ≠ .record raw plain rest := by
    rw [hstop']
    split_ifs <;> exact nofun
  have heq : (t.records, t.ahead src) = (t'.records, t'.ahead src') :=
    htotal.elim (eq_of_stop hnone) fun h => (eq_of_stop hnone' h).symm
  obtain ⟨hrecords, hahead⟩ := mk.inj heq
  refine ⟨hrecords, ?_⟩
  rw [hrecords, hahead, hstop'] at hstop
  by_cases hf : t.status = .failed
  · refine iff_of_true hf ?_
    by_contra hf'
    rw [if_pos hf, if_neg hf'] at hstop
    cases hstop
  · refine iff_of_false hf fun hf' => ?_
    rw [if_neg hf, if_pos hf'] at hstop
    cases hstop

/-- What a transport does when it is asked: it gives up to `n + 1` bytes, or fails. -/
inductive Chunk where
  | size (n : ℕ)
  | block (ret : ℤ) (nonpos : ret ≤ 0)

/-- A transport with a plan for the given bytes. -/
def scheduled : ByteSource (Bytes × List Chunk) where
  read
    | (rest, []), _ => (.fail (-1) (by decide), (rest, []))
    | (rest, .block ret nonpos :: plan), _ => (.fail ret nonpos, (rest, plan))
    | ([], .size _ :: plan), _ => (.fail (-1) (by decide), ([], plan))
    | (b :: rest, .size n :: plan), max =>
      if max = 0 then (.fail (-1) (by decide), (b :: rest, plan))
      else
        let k := min n (max - 1)
        (.bytes b (rest.take k), (rest.drop k, plan))
  rest := fst
  read_bytes := by
    rintro ⟨rest, plan⟩ bio' max head tail h
    match rest, plan, h with
    | [], .size n :: plan, h => cases (mk.inj h).1
    | b :: rest, .size n :: plan, h =>
      dsimp only at h
      split at h
      · cases (mk.inj h).1
      next hmax =>
      obtain ⟨hbytes, rfl⟩ := mk.inj h
      obtain ⟨rfl, rfl⟩ := BioResult.bytes.inj hbytes
      refine ⟨?_, ?_⟩
      · simp
      · rw [length_take]
        omega
  read_fail := by
    rintro ⟨rest, plan⟩ bio' max ret nonpos h
    match rest, plan, h with
    | rest, [], h => rw [← (mk.inj h).2]
    | rest, .block _ _ :: plan, h => rw [← (mk.inj h).2]
    | [], .size _ :: plan, h => rw [← (mk.inj h).2]
    | b :: rest, .size n :: plan, h =>
      dsimp only at h
      split at h
      · rw [← (mk.inj h).2]
      · cases (mk.inj h).1

/-- A connection without a buffer. -/
def RecordConn.fresh : RecordConn 0 := ⟨⟨none, 0, 0, 0, 0, 0⟩, false, 0, 0⟩

theorem RecordConn.fresh_start : RecordConn.fresh.Start :=
  ⟨⟨nofun, fun _ => ⟨rfl, rfl⟩⟩, rfl⟩

def aligned : Memory 0 := ⟨0, fun _ => 0, 16712, by decide⟩

/-- A connection that takes records as they are. -/
def clearEnv (_ : List RawRecord) : RecordEnv := ⟨true, tls12Version, true, fun raw => .ok raw.body⟩

/-- Two records that arrive at once and byte by byte. -/
theorem records_independent_bytewise :
    let stream : Bytes := [22, 3, 1, 0, 1, 7, 23, 3, 1, 0, 2, 8, 9]
    let call (ahead : Bool) : Call 0 := ⟨⟨ahead, true⟩, aligned⟩
    let t := run (Reading.step scheduled clearEnv)
      (Reading.init .fresh (stream, replicate 4 (.size 20))) (replicate 3 (call true))
    let t' := run (Reading.step scheduled clearEnv)
      (Reading.init .fresh (stream, .block 0 (by decide) :: replicate 13 (.size 0)))
      (replicate 4 (call false))
    t.records = t'.records ∧ t.records = [⟨22, 0x301, 1, [7]⟩, ⟨23, 0x301, 2, [8, 9]⟩] := by
  intro stream call t t'
  have h := records_independent scheduled scheduled clearEnv .fresh .fresh
    (stream, replicate 4 (.size 20))
    (stream, .block 0 (by decide) :: replicate 13 (.size 0))
    RecordConn.fresh_start RecordConn.fresh_start rfl (replicate 3 (call true))
    (replicate 4 (call false))
  have hover : t.Over scheduled := .inr ⟨by decide +kernel, by decide +kernel⟩
  have hover' : t'.Over scheduled := .inr ⟨by decide +kernel, by decide +kernel⟩
  exact ⟨(h.2.2.1 hover hover').1, by decide +kernel⟩

/-- The same forty empty records: read at once they are refused, and read with a pause they are not.
-/
theorem records_depend_on_pause :
    let stream : Bytes := (replicate 40 [23, 3, 1, 0, 0]).flatten
    let call : Call 0 := ⟨⟨true, false⟩, aligned⟩
    let t := run (Reading.step scheduled clearEnv)
      (Reading.init .fresh (stream, [.size 200, .size 200])) [call]
    let t' := run (Reading.step scheduled clearEnv)
      (Reading.init .fresh (stream, [.size 4, .size 94, .block (-1) (by decide), .size 99]))
      [call, call]
    t.status = .flooded ∧ t.records.length = 33 ∧
      t'.status = .blocked ∧ t'.records.length = 40 := by
  decide +kernel

end VigorTls.Record
