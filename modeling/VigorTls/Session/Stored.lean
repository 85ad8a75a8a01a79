import VigorTls.Session.Asn1

/-!
# Sessions that are stored and read back

What is read is what was written (`decode_session`): an optional getter takes a field that is there,
and leaves the input alone when the next tag is a later one (`Later`). A session that
`i2d_SSL_SESSION` takes is the same after a round trip (`session_round_trip`). Reading into a used
session differs (`decoded_into_iff`): the old ticket's length decides on the lifetime hint.
-/

namespace VigorTls.Session

open Lib Bytestring Option List

variable {X : Type}

/-! ## Reading what was written -/

variable {tag tag' : UInt8} {rest : Forest} {bytes b : Bytes} {cbs : Cbs}

theorem serialize_asn1 {child : Forest} (h : (Forest.asn1 tag child rest).serialize = some bytes) :
    ∃ c tail, child.serialize = some c ∧ rest.serialize = some tail ∧
      c.length ≤ 0xfffffffe ∧ bytes = element tag c ++ tail := by
  obtain ⟨wrapped, hwrapped, hrest⟩ := bind_eq_some_iff.mp h
  obtain ⟨c, hc, hwrap⟩ := bind_eq_some_iff.mp hwrapped
  obtain ⟨tail, htail, rfl⟩ := map_eq_some_iff.mp hrest
  obtain ⟨rfl, -, hlen⟩ := asn1Bytes_eq_some hwrap
  exact ⟨c, tail, hc, htail, hlen, rfl⟩

theorem serialize_octetString (h : (octetString b rest).serialize = some bytes) :
    ∃ tail, rest.serialize = some tail ∧ b.length ≤ 0xfffffffe ∧
      bytes = element cbsAsn1Octetstring b ++ tail := by
  obtain ⟨c, tail, hc, htail, hlen, rfl⟩ := serialize_asn1 h
  obtain rfl : b = c := by simpa [Forest.serialize] using hc
  exact ⟨tail, htail, hlen, rfl⟩

/-- The first tag of what is left comes after a given one. -/
def Later (tag : UInt8) (cbs : Cbs) : Prop := ∀ b, cbs.head? = some b → tag < b

theorem Later.of_lt (h : Later tag' cbs) (hlt : tag < tag') :
    Later tag cbs := fun b hb => UInt8.lt_trans hlt (h b hb)

theorem Later.nil (tag : UInt8) : Later tag [] := nofun

theorem Later.element (hlt : tag < tag') (c rest : Bytes) :
    Later tag (Bytestring.element tag' c ++ rest) := by
  intro b hb
  cases hb
  exact hlt

/-- And so it does whatever some operations write. -/
def After (tag : UInt8) (ops : Forest) : Prop :=
  ∀ bytes, ops.serialize = some bytes → Later tag bytes

theorem cbsGetOptionalAsn1_later (h : Later tag cbs) :
    cbsGetOptionalAsn1 cbs tag = some (none, cbs) := by
  have hpeek : ¬ cbsPeekAsn1Tag cbs tag = true := fun hp =>
    UInt8.lt_irrefl tag (h tag (of_decide_eq_true hp))
  rw [cbsGetOptionalAsn1, if_neg hpeek]

theorem cbsGetOptionalAsn1_element (htag : tag &&& 0x1f ≠ 0x1f) {c : Bytes}
    (hc : c.length < 2 ^ 32) (rest : Cbs) :
    cbsGetOptionalAsn1 (element tag c ++ rest) tag = some (some c, rest) := by
  have hpeek : cbsPeekAsn1Tag (element tag c ++ rest) tag = true := decide_eq_true rfl
  rw [cbsGetOptionalAsn1, if_pos hpeek, cbsGetAsn1_element htag hc]
  rfl

theorem read_optionalUint64 (htag : tag &&& 0x1f ≠ 0x1f) {present : Bool} {value : UInt64}
    (habsent : present = false → value = 0) (hvalue : value.toNat ≤ longMax)
    (h : (optionalUint64 tag present value rest).serialize = some bytes) (hlater : After tag rest) :
    ∃ tail, rest.serialize = some tail ∧ readUint64 bytes tag = some (value.toNat, tail) := by
  cases present with
  | true =>
    obtain ⟨c, tail, hc, htail, hlen, rfl⟩ := serialize_asn1 h
    obtain rfl : element cbsAsn1Integer (integerBytes value.toNat) = c := by
      simpa [Forest.serialize] using hc
    have hint := cbsGetAsn1Uint64_element value.toNat_lt []
    rw [append_nil] at hint
    refine ⟨tail, htail, ?_⟩
    simp only [readUint64, cbsGetOptionalAsn1Uint64,
      cbsGetOptionalAsn1_element htag (Nat.lt_of_le_of_lt hlen (by decide)), bind_eq_bind,
      bind_some, hint]
    rw [if_neg (not_not.mpr rfl), bind_some, if_neg (Nat.not_lt.mpr hvalue)]
  | false =>
    rw [habsent rfl]
    refine ⟨bytes, h, ?_⟩
    simp only [readUint64, cbsGetOptionalAsn1Uint64, cbsGetOptionalAsn1_later (hlater bytes h),
      bind_eq_bind]
    rfl

theorem read_optionalOctets (htag : tag &&& 0x1f ≠ 0x1f) {b : Option Bytes}
    (h : (optionalOctets tag b rest).serialize = some bytes) (hlater : After tag rest) :
    ∃ tail, rest.serialize = some tail ∧
      cbsGetOptionalAsn1OctetString bytes tag = some (b, tail) ∧
      ∀ b', b = some b' → b'.length ≤ 0xfffffffe := by
  cases b with
  | some b =>
    obtain ⟨c, tail, hc, htail, hlen, rfl⟩ := serialize_asn1 h
    obtain ⟨_, hdone, hblen, rfl⟩ := serialize_octetString hc
    cases hdone
    refine ⟨tail, htail, ?_, fun b' hb' => by cases hb'; exact hblen⟩
    simp only [cbsGetOptionalAsn1OctetString,
      cbsGetOptionalAsn1_element htag (Nat.lt_of_le_of_lt hlen (by decide)), bind_eq_bind,
      bind_some,
      cbsGetAsn1_element (show cbsAsn1Octetstring &&& 0x1f ≠ 0x1f by decide)
        (Nat.lt_of_le_of_lt hblen (by decide))]
    rw [if_neg (not_not.mpr rfl)]
  | none =>
    refine ⟨bytes, h, ?_, nofun⟩
    simp [cbsGetOptionalAsn1OctetString, cbsGetOptionalAsn1_later (hlater bytes h)]

theorem after_optionalUint64 (hlt : tag < tag') {present : Bool} {value : UInt64}
    (hrest : After tag' rest) : After tag (optionalUint64 tag' present value rest) := by
  intro bytes h
  cases present with
  | true =>
    obtain ⟨c, tail, -, -, -, rfl⟩ := serialize_asn1 h
    exact .element hlt c tail
  | false => exact (hrest bytes h).of_lt hlt

theorem after_optionalOctets (hlt : tag < tag') {b : Option Bytes} (hrest : After tag' rest) :
    After tag (optionalOctets tag' b rest) := by
  intro bytes h
  cases b with
  | some b =>
    obtain ⟨c, tail, -, -, -, rfl⟩ := serialize_asn1 h
    exact .element hlt c tail
  | none => exact (hrest bytes h).of_lt hlt

/-- What a session is asked to be for the round trip. -/
structure SslSession.Storable (s : SslSession X) : Prop where
  time : s.time ≠ 0
  timeout : s.timeout ≠ 0
  lifetime : 0 ≤ s.tlsext_tick_lifetime_hint
  ticket : s.tlsext_tick.isSome → 0 < s.tlsext_ticklen
  session_id : s.session_id_length ≤ 32
  master_key : 0 ≤ s.master_key_length ∧ s.master_key_length ≤ 48
  sid_ctx : s.sid_ctx_length ≤ 32

def SslSession.decoded (s : SslSession X) : Decoded X where
  tls_version := (ofInt s.ssl_version).toNat
  cipher_value := s.cid
  session_id := slice s.session_id 0 s.session_id_length
  master_key := slice s.master_key 0 (ofInt s.master_key_length).toNat
  stime := s.time.toUInt64.toNat
  timeout := s.timeout.toUInt64.toNat
  peer := s.peer
  sid_ctx := some (slice s.sid_ctx 0 s.sid_ctx_length)
  verify_result := s.verify_result.toUInt64.toNat
  hostname := s.tlsext_hostname
  lifetime := s.tlsext_tick_lifetime_hint.toUInt64.toNat
  ticket := s.tlsext_tick.map fun tick => slice tick 0 s.tlsext_ticklen

/-- The values that are read again: a lifetime hint that is not above zero was left out. -/
def SslSession.written (s : SslSession X) : Decoded X :=
  { s.decoded with
    lifetime :=
      if s.tlsext_tick_lifetime_hint > 0 then s.tlsext_tick_lifetime_hint.toUInt64.toNat else 0 }

/-- The lengths that are written are those that the reader has arrays for. -/
structure SslSession.Fits (s : SslSession X) : Prop where
  session_id : s.session_id_length ≤ 32
  master_key : (ofInt s.master_key_length).toNat ≤ 48
  sid_ctx : s.sid_ctx_length ≤ 32

section

variable {codec : X509Codec X} {s : SslSession X}

theorem SslSession.Storable.length_master_key (hs : s.Storable) :
    (ofInt s.master_key_length).toNat ≤ 48 := by
  have hnat := toNat_ofInt hs.master_key.1
  have hle : s.master_key_length.toInt ≤ 48 := Int32.le_iff_toInt_le.mp hs.master_key.2
  omega

theorem unwritable_eq_false_iff : s.unwritable codec = false ↔ 0 ≤ s.ssl_version ∧ 0 ≤ s.time ∧
    0 ≤ s.timeout ∧ 0 ≤ s.verify_result ∧ ∀ x, s.peer = some x → codec.i2d x ≠ [] := by
  have hpeer : s.peer.any (fun x => codec.i2d x = []) = false ↔
      ∀ x, s.peer = some x → codec.i2d x ≠ [] := by
    cases s.peer <;> simp
  simp only [SslSession.unwritable, Bool.or_eq_false_iff, decide_eq_false_iff_not, Int32.not_lt,
    Int64.not_lt]
  tauto

theorem readOctets_octetString (n : ℕ) (h : (octetString b rest).serialize = some bytes) :
    ∃ tail, rest.serialize = some tail ∧
      readOctets bytes n = if n < b.length then none else some (b, tail) := by
  obtain ⟨tail, htail, hlen, rfl⟩ := serialize_octetString h
  refine ⟨tail, htail, ?_⟩
  simp [readOctets, cbsGetAsn1_element (show cbsAsn1Octetstring &&& 0x1f ≠ 0x1f by decide)
    (Nat.lt_of_le_of_lt hlen (by decide))]

theorem read_head {version : Int32} (hversion : 0 ≤ version) {cid : UInt16}
    (h : (Forest.asn1Uint64 (UInt64.ofNat sslSessionAsn1Version) <|
      .asn1Uint64 (ofInt version) <|
      .asn1 cbsAsn1Octetstring (.u16 cid .done) rest).serialize = some bytes) :
    ∃ b1 b2 tail, rest.serialize = some tail ∧ readAsn1Version bytes = some b1 ∧
      readVersion b1 = some ((ofInt version).toNat, b2) ∧ readCipher b2 = some (cid, tail) := by
  obtain ⟨b1, h1, hbytes⟩ := map_eq_some_iff.mp h
  obtain ⟨b2, h2, hb1⟩ := map_eq_some_iff.mp h1
  obtain ⟨c, tail, hc, htail, hlen, hb2⟩ := serialize_asn1 h2
  obtain rfl : beBytes 2 cid.toNat = c := by simpa [Forest.serialize] using hc
  refine ⟨b1, b2, tail, htail, ?_, ?_, ?_⟩
  · simp only [← hbytes, readAsn1Version, cbsGetAsn1Uint64_element (UInt64.toNat_lt _),
      bind_eq_bind]
    rfl
  · have hle : (ofInt version).toNat ≤ intMax := by
      have hnat := toNat_ofInt hversion
      have hlt := version.toInt_lt
      rw [intMax]
      omega
    simp only [← hb1, readVersion, cbsGetAsn1Uint64_element (UInt64.toNat_lt _),
      bind_eq_bind, bind_some]
    rw [if_neg (Nat.not_lt.mpr hle)]
  · have hget := cbsGetU_beBytes (n := 2) (by omega) cid.toNat_lt []
    rw [append_nil] at hget
    simp only [hb2, readCipher,
      cbsGetAsn1_element (show cbsAsn1Octetstring &&& 0x1f ≠ 0x1f by decide)
        (Nat.lt_of_le_of_lt hlen (by decide)),
      bind_eq_bind, bind_some, cbsGetU16, hget, map_some, UInt16.ofNat_toNat]
    rw [if_neg (not_not.mpr rfl)]

theorem readPeer_optionalOctets {peer : Option X}
    (h : (optionalOctets sslasn1PeerCertTag (peer.map codec.i2d) rest).serialize = some bytes)
    (hlater : After sslasn1PeerCertTag rest) :
    ∃ tail, rest.serialize = some tail ∧ readPeer codec bytes = some (peer, tail) := by
  obtain ⟨tail, htail, hread, hlen⟩ := read_optionalOctets (by decide) h hlater
  refine ⟨tail, htail, ?_⟩
  cases peer with
  | none => simp [readPeer, hread]
  | some x =>
    have hle : (codec.i2d x).length ≤ longMax := Nat.le_trans (hlen _ rfl) (by decide)
    simp only [readPeer, hread, map_some, bind_eq_bind, bind_some]
    rw [if_neg (Nat.not_lt.mpr hle), codec.round_trip]
    rfl

theorem readHostname_optionalOctets {name : Option CString}
    (h : (optionalOctets sslasn1HostnameTag (name.map Subtype.val) rest).serialize = some bytes)
    (hlater : After sslasn1HostnameTag rest) :
    ∃ tail, rest.serialize = some tail ∧ readHostname bytes = some (name, tail) := by
  obtain ⟨tail, htail, hread, -⟩ := read_optionalOctets (by decide) h hlater
  refine ⟨tail, htail, ?_⟩
  cases name with
  | none => simp [readHostname, hread]
  | some name =>
    simp only [readHostname, hread, map_some, bind_eq_bind, bind_some]
    rw [dif_neg name.2]

theorem read_lifetime (h : (lifetimeOps s rest).serialize = some bytes)
    (hlater : After sslasn1LifetimeTag rest) :
    ∃ tail, rest.serialize = some tail ∧
      readUint64 bytes sslasn1LifetimeTag = some (s.written.lifetime, tail) := by
  by_cases hpos : s.tlsext_tick_lifetime_hint > 0
  · have hnonneg := Int64.le_of_lt hpos
    rw [lifetimeOps, decide_eq_true hpos] at h
    simp only [SslSession.written, if_pos hpos]
    exact read_optionalUint64 (by decide) (fun ht => absurd ht.symm Bool.false_ne_true)
      (toNat_toUInt64_le hnonneg) h hlater
  · rw [lifetimeOps, decide_eq_false hpos] at h
    simp only [SslSession.written, if_neg hpos]
    have hzero : (optionalUint64 sslasn1LifetimeTag false 0 rest).serialize = some bytes := h
    exact read_optionalUint64 (by decide) (fun _ => rfl) (Nat.zero_le _) hzero hlater

section

variable {α β : Type} {x : Option α} {f : α → Option β} {a : α} {b : β}

theorem bind_iff (hx : x = some a) : x.bind f = some b ↔ f a = some b := by
  rw [hx, bind_some]

theorem of_bind_guard {c : Prop} [Decidable c] (hx : x = if c then none else some a)
    (h : x.bind f = some b) : ¬ c ∧ f a = some b := by
  split_ifs at hx with hc
  · rw [hx] at h
    cases h
  · exact ⟨hc, (bind_iff hx).mp h⟩

end

variable {data : Bytes}

theorem decode_written (hw : s.unwritable codec = false)
    (h : (sessionOps codec s).serialize = some data) (rest : Cbs) :
    (s.Fits → decode codec (data ++ rest) = some (s.written, rest)) ∧
      ∀ r, decode codec (data ++ rest) = some r → s.Fits := by
  obtain ⟨hversion, htime, htimeout, hverify, -⟩ := unwritable_eq_false_iff.mp hw
  -- Each optional field is followed by those of later tags only.
  have after10 : After sslasn1TicketTag .done := fun b hb => by cases hb; exact .nil _
  have after9 : After sslasn1LifetimeTag (ticketOps s .done) :=
    after_optionalOctets (by decide) after10
  have after6 : After sslasn1HostnameTag (lifetimeOps s _) :=
    after_optionalUint64 (by decide) after9
  have after5 : After sslasn1VerifyResultTag (hostnameOps s _) :=
    after_optionalOctets (by decide) after6
  have after4 : After sslasn1SessionIdCtxTag (verifyResultOps s _) :=
    after_optionalUint64 (by decide) after5
  have after3 : After sslasn1PeerCertTag (sidCtxOps s _) :=
    after_optionalOctets (by decide) after4
  have after2 : After sslasn1TimeoutTag (peerOps codec s _) :=
    after_optionalOctets (by decide) after3
  have after1 : After sslasn1TimeTag (timeoutOps s _) :=
    after_optionalUint64 (by decide) after2
  -- A number that is left out is zero.
  have habsent : ∀ t : Int64, decide (t ≠ 0) = false → t.toUInt64 = 0 := fun t ht => by
    rw [not_not.mp (of_decide_eq_false ht)]
    rfl
  obtain ⟨f1, _, h1, hdone, hlen, rfl⟩ := serialize_asn1 h
  cases hdone
  obtain ⟨f2, f3, f4, h4, hread1, hread2, hread3⟩ := read_head hversion h1
  obtain ⟨f5, h5, hread4⟩ := readOctets_octetString 32 h4
  obtain ⟨f6, h6, hread5⟩ := readOctets_octetString 48 h5
  obtain ⟨f7, h7, hread6⟩ := read_optionalUint64 (by decide) (habsent _)
    (toNat_toUInt64_le htime) h6 after1
  obtain ⟨f8, h8, hread7⟩ := read_optionalUint64 (by decide) (habsent _)
    (toNat_toUInt64_le htimeout) h7 after2
  obtain ⟨f9, h9, hread8⟩ := readPeer_optionalOctets h8 after3
  obtain ⟨f10, h10, hread9, -⟩ := read_optionalOctets (by decide) h9 after4
  obtain ⟨f11, h11, hread10⟩ := read_optionalUint64 (by decide) (habsent _)
    (toNat_toUInt64_le hverify) h10 after5
  obtain ⟨f12, h12, hread11⟩ := readHostname_optionalOctets h11 after6
  obtain ⟨f13, h13, hread12⟩ := read_lifetime h12 after9
  obtain ⟨f14, -, hread13, -⟩ := read_optionalOctets (by decide) h13 after10
  have hctx : readSidCtx f9 32 = if 32 < s.sid_ctx_length then none
      else some (some (slice s.sid_ctx 0 s.sid_ctx_length), f10) := by
    simp [readSidCtx, hread9]
  have hseq : cbsGetAsn1 (element cbsAsn1Sequence f1 ++ [] ++ rest) cbsAsn1Sequence =
      some (f1, rest) := by
    rw [append_nil]
    exact cbsGetAsn1_element (by decide) (Nat.lt_of_le_of_lt hlen (by decide)) rest
  rw [length_slice] at hread4 hread5
  refine ⟨fun ⟨hid, hkey, hsid⟩ => ?_, fun r h => ?_⟩
  · rw [if_neg (Nat.not_lt.mpr hid)] at hread4
    rw [if_neg (Nat.not_lt.mpr hkey)] at hread5
    rw [if_neg (Nat.not_lt.mpr hsid)] at hctx
    exact (bind_iff hseq).mpr <| (bind_iff hread1).mpr <| (bind_iff hread2).mpr <|
      (bind_iff hread3).mpr <| (bind_iff hread4).mpr <| (bind_iff hread5).mpr <|
      (bind_iff hread6).mpr <| (bind_iff hread7).mpr <| (bind_iff hread8).mpr <|
      (bind_iff hctx).mpr <| (bind_iff hread10).mpr <| (bind_iff hread11).mpr <|
      (bind_iff hread12).mpr <| (bind_iff hread13).mpr rfl
  -- Each of the three arrays is the reason to stop where it is too short.
  · have h4 := (bind_iff hread3).mp <| (bind_iff hread2).mp <| (bind_iff hread1).mp <|
      (bind_iff hseq).mp h
    obtain ⟨hid, h5⟩ := of_bind_guard hread4 h4
    obtain ⟨hkey, h6⟩ := of_bind_guard hread5 h5
    have h9 := (bind_iff hread8).mp <| (bind_iff hread7).mp <| (bind_iff hread6).mp h6
    obtain ⟨hsid, -⟩ := of_bind_guard hctx h9
    exact ⟨Nat.not_lt.mp hid, Nat.not_lt.mp hkey, Nat.not_lt.mp hsid⟩

theorem SslSession.Storable.fits (hs : s.Storable) : s.Fits :=
  ⟨hs.session_id, hs.length_master_key, hs.sid_ctx⟩

theorem SslSession.Storable.written_eq (hs : s.Storable) : s.written = s.decoded := by
  have hlifetime : s.written.lifetime = s.decoded.lifetime := by
    by_cases hpos : s.tlsext_tick_lifetime_hint > 0
    · exact if_pos hpos
    · have hzero := Int64.le_antisymm (Int64.not_lt.mp hpos) hs.lifetime
      simp only [SslSession.written, SslSession.decoded, hzero]
      rfl
  exact congrArg (fun n => { s.decoded with lifetime := n }) hlifetime

theorem decode_session (hs : s.Storable) (hw : s.unwritable codec = false)
    (h : (sessionOps codec s).serialize = some data) (rest : Cbs) :
    decode codec (data ++ rest) = some (s.decoded, rest) := by
  rw [(decode_written hw h rest).1 hs.fits, hs.written_eq]

theorem toNat_ne_zero {t : Int64} (h : 0 ≤ t) (hne : t ≠ 0) : t.toUInt64.toNat ≠ 0 := by
  intro hzero
  apply hne
  rw [← ofNat_toUInt64 h, hzero]
  rfl

/-- The fields with the defaults of the reader where the writer left something out. -/
def Fields.filled (f : Fields X) (now : Int64) : Fields X :=
  { f with
    time := if f.time = 0 then now else f.time
    timeout := if f.timeout = 0 then 3 else f.timeout
    tlsext_tick_lifetime_hint :=
      if 0 < f.tlsext_tick_lifetime_hint then f.tlsext_tick_lifetime_hint else 0
    tlsext_tick := f.tlsext_tick.filter (· ≠ []) }

theorem Fields.filled_eq_self_iff {f : Fields X} {now : Int64} :
    f.filled now = f ↔ (f.time = 0 → now = 0) ∧ f.timeout ≠ 0 ∧
      0 ≤ f.tlsext_tick_lifetime_hint ∧ f.tlsext_tick ≠ some [] := by
  have htime : (if f.time = 0 then now else f.time) = f.time ↔ (f.time = 0 → now = 0) := by
    split_ifs with h
    · rw [h]
      exact ⟨fun hnow _ => hnow, fun hnow => hnow rfl⟩
    · exact iff_of_true rfl fun h' => absurd h' h
  have htimeout : (if f.timeout = 0 then 3 else f.timeout) = f.timeout ↔ f.timeout ≠ 0 := by
    split_ifs with h
    · rw [h]
      exact iff_of_false (by decide) (not_not.mpr rfl)
    · exact iff_of_true rfl h
  have hhint : (if 0 < f.tlsext_tick_lifetime_hint then f.tlsext_tick_lifetime_hint else 0) =
      f.tlsext_tick_lifetime_hint ↔ 0 ≤ f.tlsext_tick_lifetime_hint := by
    split_ifs with h
    · exact iff_of_true rfl (Int64.le_of_lt h)
    · refine ⟨fun hzero => Int64.le_of_eq hzero, fun hle => ?_⟩
      exact Int64.le_antisymm hle (Int64.not_lt.mp h)
  have htick : f.tlsext_tick.filter (· ≠ []) = f.tlsext_tick ↔ f.tlsext_tick ≠ some [] := by
    rcases f.tlsext_tick with _ | _ | ⟨b, bs⟩
    · exact iff_of_true rfl nofun
    · exact iff_of_false nofun (not_not.mpr rfl)
    · exact iff_of_true rfl nofun
  rw [← htime, ← htimeout, ← hhint, ← htick, Fields.filled]
  constructor
  · intro h
    exact ⟨congrArg Fields.time h, congrArg Fields.timeout h,
      congrArg Fields.tlsext_tick_lifetime_hint h, congrArg Fields.tlsext_tick h⟩
  · rintro ⟨h1, h2, h3, h4⟩
    rw [h1, h2, h3, h4]

theorem filled_number {t d : Int64} (h : 0 ≤ t) :
    (if t.toUInt64.toNat ≠ 0 then Int64.ofNat t.toUInt64.toNat else d) =
      if t = 0 then d else t := by
  by_cases hzero : t = 0
  · rw [hzero]
    rfl
  · rw [if_neg hzero, if_pos (toNat_ne_zero h hzero), ofNat_toUInt64 h]

theorem fields_written (hfits : s.Fits) (hw : s.unwritable codec = false) (now : Int64)
    {a : SslSession X} (ha : a.tlsext_ticklen = 0) :
    (s.written.install now a).fields = s.fields.filled now := by
  obtain ⟨hversion, htime, htimeout, hverify, -⟩ := unwritable_eq_false_iff.mp hw
  have hkey : s.written.master_key.length ≤ 48 := by
    simpa [SslSession.written, SslSession.decoded] using hfits.master_key
  have hversion' : Int32.ofNat s.written.tls_version = s.ssl_version := ofNat_ofInt hversion
  have htime' : (if s.written.stime ≠ 0 then Int64.ofNat s.written.stime else now) =
      if s.time = 0 then now else s.time := filled_number htime
  have htimeout' : (if s.written.timeout ≠ 0 then Int64.ofNat s.written.timeout else 3) =
      if s.timeout = 0 then 3 else s.timeout := filled_number htimeout
  have hverify' : Int64.ofNat s.written.verify_result = s.verify_result := ofNat_toUInt64 hverify
  have hhint : (if s.written.lifetime > 0 then Int64.ofNat s.written.lifetime
      else if a.tlsext_ticklen > 0 ∧ s.written.session_id.length > 0 then -1 else 0) =
      if 0 < s.tlsext_tick_lifetime_hint then s.tlsext_tick_lifetime_hint else 0 := by
    have hticklen : ¬ (a.tlsext_ticklen > 0 ∧ s.written.session_id.length > 0) := by omega
    rw [if_neg hticklen]
    by_cases hpos : 0 < s.tlsext_tick_lifetime_hint
    · have hnonneg := Int64.le_of_lt hpos
      have hne : s.tlsext_tick_lifetime_hint ≠ 0 := (Int64.ne_of_lt hpos).symm
      have hlifetime : s.written.lifetime = s.tlsext_tick_lifetime_hint.toUInt64.toNat :=
        if_pos hpos
      rw [if_pos hpos, hlifetime, if_pos (Nat.pos_of_ne_zero (toNat_ne_zero hnonneg hne)),
        ofNat_toUInt64 hnonneg]
    · have hlifetime : s.written.lifetime = 0 := if_neg hpos
      rw [if_neg hpos, hlifetime, if_neg (Nat.lt_irrefl 0)]
  rw [fields_install hkey, hversion', htime', htimeout', hverify', hhint]
  rfl

theorem SslSession.Storable.filled (hs : s.Storable) (now : Int64) :
    s.fields.filled now = s.fields := by
  refine Fields.filled_eq_self_iff.mpr ⟨fun h => absurd h hs.time, hs.timeout, hs.lifetime, ?_⟩
  intro h
  obtain ⟨tick, htick, hempty⟩ := map_eq_some_iff.mp h
  have hlen := congrArg List.length hempty
  rw [length_slice] at hlen
  exact absurd hlen (Nat.ne_of_gt (hs.ticket (htick ▸ rfl)))

theorem sessionOps_congr {s' : SslSession X} (h : s'.fields = s.fields) :
    sessionOps codec s' = sessionOps codec s ∧ s'.unwritable codec = s.unwritable codec := by
  simp only [SslSession.fields, Fields.mk.injEq] at h
  obtain ⟨hversion, hcid, hid, hkey, htime, htimeout, hpeer, hctx, hverify, hname, hhint, htick⟩ :=
    h
  simp only [sessionOps, sessionFields, timeOps, timeoutOps, peerOps, sidCtxOps, verifyResultOps,
    hostnameOps, lifetimeOps, ticketOps, SslSession.unwritable, hversion, hcid, hid, hkey, htime,
    htimeout, hpeer, hctx, hverify, hname, hhint, htick, and_self]

theorem i2dSslSession_eq_ok {heap : Heap} (h : i2dSslSession codec heap s = .ok data) :
    (s.cipher ≠ none ∨ s.cipher_id ≠ 0) ∧ s.unwritable codec = false ∧
      (sessionOps codec s).serialize = some data ∧ data.length ≤ intMax := by
  rw [i2dSslSession] at h
  split_ifs at h with hcipher hw
  cases hbuild : build heap 0 (sessionOps codec s) with
  | none =>
    rw [hbuild] at h
    cases h
  | some out =>
    simp only [hbuild] at h
    split_ifs at h with hlen
    cases h
    exact ⟨not_and_or.mp hcipher, Bool.eq_false_of_not_eq_true hw, build_serialize hbuild,
      Nat.not_lt.mp hlen⟩

theorem i2dSslSession_ample {heap : Heap} (hheap : heap.Ample)
    (hcipher : s.cipher ≠ none ∨ s.cipher_id ≠ 0) (hw : s.unwritable codec = false)
    (hdata : (sessionOps codec s).serialize = some data) (hlen : data.length ≤ intMax) :
    i2dSslSession codec heap s = .ok data := by
  have hbuild := build_ample hheap 0 hdata (Nat.lt_of_le_of_lt hlen (by decide))
  rw [i2dSslSession, if_neg (not_and_or.mpr hcipher), hw, if_neg Bool.false_ne_true]
  simp only [hbuild]
  rw [if_neg (Nat.not_lt.mpr hlen)]

/-- What `i2d_SSL_SESSION` gives is read back, and no further, to a session with the same fields,
which is written as the same bytes. With enough memory it gives something exactly when there is a
cipher, no number is negative, and the certificate and the whole can be encoded. -/
theorem session_round_trip (codec : X509Codec X) {s : SslSession X} (hs : s.Storable) :
    (∀ heap data, i2dSslSession codec heap s = .ok data → ∀ now rest, ∃ s',
      d2iSslSession codec now none (data ++ rest) = some (s', rest) ∧ s'.fields = s.fields ∧
      ∀ heap' : Heap, heap'.Ample → i2dSslSession codec heap' s' = .ok data) ∧
    ∀ heap : Heap, heap.Ample → ((∃ data, i2dSslSession codec heap s = .ok data) ↔
      (s.cipher ≠ none ∨ s.cipher_id ≠ 0) ∧ 0 ≤ s.ssl_version ∧ 0 ≤ s.time ∧ 0 ≤ s.timeout ∧
      0 ≤ s.verify_result ∧ (∀ x, s.peer = some x → codec.i2d x ≠ []) ∧
      ∃ data, (sessionOps codec s).serialize = some data ∧ data.length ≤ intMax) := by
  refine ⟨fun heap data hdata now rest => ?_, fun heap hheap => ?_⟩
  · obtain ⟨-, hw, hserialize, hlen⟩ := i2dSslSession_eq_ok hdata
    have hfields : (s.decoded.install now (sslSessionNew now)).fields = s.fields := by
      rw [← hs.written_eq, fields_written hs.fits hw now rfl, hs.filled]
    obtain ⟨hops, hwrite⟩ := @sessionOps_congr _ codec _ _ hfields
    refine ⟨s.decoded.install now (sslSessionNew now), ?_, hfields, fun heap' hheap' => ?_⟩
    · rw [d2iSslSession, decode_session hs hw hserialize]
      rfl
    · refine i2dSslSession_ample hheap' (.inr fun hzero => ?_) (hwrite ▸ hw)
        (hops ▸ hserialize) hlen
      have hor : ssl3CkId ||| s.decoded.cipher_value.toNat = 0 := hzero
      exact absurd (Nat.or_eq_zero_iff.mp hor).1 (by decide)
  · constructor
    · rintro ⟨data, hdata⟩
      obtain ⟨hcipher, hw, hserialize, hlen⟩ := i2dSslSession_eq_ok hdata
      obtain ⟨hversion, htime, htimeout, hverify, hpeer⟩ := unwritable_eq_false_iff.mp hw
      exact ⟨hcipher, hversion, htime, htimeout, hverify, hpeer, data, hserialize, hlen⟩
    · rintro ⟨hcipher, hversion, htime, htimeout, hverify, hpeer, data, hserialize, hlen⟩
      have hw := unwritable_eq_false_iff.mpr ⟨hversion, htime, htimeout, hverify, hpeer⟩
      exact ⟨data, i2dSslSession_ample hheap hcipher hw hserialize hlen⟩

end

/-- One certificate, which is an empty sequence. -/
def oneCertificate : X509Codec Unit where
  i2d _ := [0x30, 0]
  d2i cert := if cert = [0x30, 0] then some () else none
  round_trip _ := rfl

/-- A session of TLS 1.2 with one byte of an ID and no key, made at a given time. -/
def sampleSession (now : Int64) : SslSession Unit :=
  { (sslSessionNew now : SslSession Unit) with
    ssl_version := 0x0303
    cipher_id := 0x0300002f
    session_id := fun _ => 7
    session_id_length := 1
    peer := some () }

theorem sampleSession_storable : (sampleSession 9).Storable :=
  ⟨by decide, by decide, by decide, nofun, by decide, by decide, by decide⟩

def sampleBytes : Bytes :=
  [0x30, 42, 2, 1, 1, 2, 2, 3, 3, 4, 2, 0, 0x2f, 4, 1, 7, 4, 0, 0xa1, 3, 2, 1, 9,
    0xa2, 4, 2, 2, 1, 0x30, 0xa3, 4, 4, 2, 0x30, 0, 0xa4, 2, 4, 0, 0xa5, 3, 2, 1, 1]

theorem session_round_trip_sample :
    i2dSslSession oneCertificate zeroHeap (sampleSession 9) = .ok sampleBytes ∧
    ∀ now rest, ∃ s',
      d2iSslSession oneCertificate now none (sampleBytes ++ rest) = some (s', rest) ∧
      s'.fields = (sampleSession 9).fields ∧
      ∀ heap' : Heap, heap'.Ample → i2dSslSession oneCertificate heap' s' = .ok sampleBytes := by
  have hdata : i2dSslSession oneCertificate zeroHeap (sampleSession 9) = .ok sampleBytes := by
    decide +kernel
  exact ⟨hdata, (session_round_trip oneCertificate sampleSession_storable).1 _ _ hdata⟩

/-- A verification result below zero, which is not written. -/
theorem session_unwritable :
    ({ sampleSession 9 with verify_result := -1 } : SslSession Unit).Storable ∧
    ∀ heap, i2dSslSession oneCertificate heap { sampleSession 9 with verify_result := -1 } =
      .error (-1) :=
  ⟨⟨by decide, by decide, by decide, nofun, by decide, by decide, by decide⟩, fun _ => rfl⟩

section

variable {codec : X509Codec X}

theorem readOctets_length {rest : Cbs} {n : ℕ} (h : readOctets cbs n = some (b, rest)) :
    b.length ≤ n := by
  obtain ⟨⟨bytes, session⟩, -, h⟩ := bind_eq_some_iff.mp h
  by_cases hlt : n < bytes.length
  · exact absurd h (by simp [hlt])
  · obtain ⟨rfl, -⟩ : bytes = b ∧ session = rest := by simpa [hlt] using h
    exact Nat.not_lt.mp hlt

theorem decode_master_key {pp rest : Cbs} {r : Decoded X} (h : decode codec pp = some (r, rest)) :
    r.master_key.length ≤ 48 := by
  obtain ⟨_, -, h1⟩ := bind_eq_some_iff.mp h
  obtain ⟨_, -, h2⟩ := bind_eq_some_iff.mp h1
  obtain ⟨_, -, h3⟩ := bind_eq_some_iff.mp h2
  obtain ⟨_, -, h4⟩ := bind_eq_some_iff.mp h3
  obtain ⟨_, -, h5⟩ := bind_eq_some_iff.mp h4
  obtain ⟨⟨key, _⟩, hkey, h6⟩ := bind_eq_some_iff.mp h5
  obtain ⟨_, -, h7⟩ := bind_eq_some_iff.mp h6
  obtain ⟨_, -, h8⟩ := bind_eq_some_iff.mp h7
  obtain ⟨_, -, h9⟩ := bind_eq_some_iff.mp h8
  obtain ⟨_, -, h10⟩ := bind_eq_some_iff.mp h9
  obtain ⟨_, -, h11⟩ := bind_eq_some_iff.mp h10
  obtain ⟨_, -, h12⟩ := bind_eq_some_iff.mp h11
  obtain ⟨_, -, h13⟩ := bind_eq_some_iff.mp h12
  obtain ⟨_, -, h14⟩ := bind_eq_some_iff.mp h13
  cases h14
  exact readOctets_length hkey

theorem hint_install_eq_iff (r : Decoded X) (now : Int64) (old : SslSession X) :
    (r.install now old).tlsext_tick_lifetime_hint =
        (r.install now (sslSessionNew now)).tlsext_tick_lifetime_hint ↔
      old.tlsext_ticklen = 0 ∨ r.session_id = [] ∨ r.lifetime ≠ 0 := by
  rcases Nat.eq_zero_or_pos r.lifetime with hlife | hlife
  · have hcond : (old.tlsext_ticklen = 0 ∨ r.session_id = [] ∨ r.lifetime ≠ 0) ↔
        ¬ (old.tlsext_ticklen > 0 ∧ r.session_id.length > 0) := by
      rw [← length_eq_zero_iff]
      omega
    rw [hcond]
    simp only [Decoded.install, sslSessionNew, hlife, Nat.lt_irrefl, false_and, if_false]
    split_ifs with hold
    · exact iff_of_false (by decide) (not_not.mpr hold)
    · exact iff_of_true rfl hold
  · simp [Decoded.install, hlife, Nat.ne_of_gt hlife]

/-- Into a used session and into a new one both succeed or neither, and take the same bytes. The
fields are the same exactly when the old session had no ticket, or the encoding has no session ID,
or it has a lifetime hint. -/
theorem decoded_into_iff (codec : X509Codec X) (now : Int64) (old : SslSession X) (pp : Cbs) :
    (decode codec pp = none → d2iSslSession codec now (some old) pp = none ∧
      d2iSslSession codec now none pp = none) ∧
    ∀ r rest, decode codec pp = some (r, rest) → ∃ s fresh,
      d2iSslSession codec now (some old) pp = some (s, rest) ∧
      d2iSslSession codec now none pp = some (fresh, rest) ∧
      (s.fields = fresh.fields ↔
        old.tlsext_ticklen = 0 ∨ r.session_id = [] ∨ r.lifetime ≠ 0) := by
  refine ⟨fun h => ?_, fun r rest h => ?_⟩
  · rw [d2iSslSession, d2iSslSession, h]
    exact ⟨rfl, rfl⟩
  refine ⟨r.install now old, r.install now (sslSessionNew now), ?_, ?_, ?_⟩
  · rw [d2iSslSession, h]
    rfl
  · rw [d2iSslSession, h]
    rfl
  · have hkey := decode_master_key h
    rw [← hint_install_eq_iff r now old, fields_install hkey, fields_install hkey]
    simp only [Fields.mk.injEq, true_and, and_true]
    rfl

end

def sampleDecoded : Decoded Unit := (sampleSession 9).decoded

theorem decode_sampleBytes : decode oneCertificate sampleBytes = some (sampleDecoded, []) := by
  decide +kernel

/-- The same encoding with a ticket of one byte. -/
def ticketBytes : Bytes := [0x30, 47] ++ sampleBytes.drop 2 ++ [0xaa, 3, 4, 1, 5]

theorem decode_ticketBytes :
    decode oneCertificate ticketBytes = some ({ sampleDecoded with ticket := some [5] }, []) := by
  decide +kernel

theorem decoded_into_iff_sample : ∃ s fresh,
    d2iSslSession oneCertificate 0 (some (sampleSession 5)) sampleBytes = some (s, []) ∧
    d2iSslSession oneCertificate 0 none sampleBytes = some (fresh, []) ∧
    s.fields = fresh.fields := by
  obtain ⟨s, fresh, hs, hfresh, hiff⟩ :=
    (decoded_into_iff oneCertificate 0 (sampleSession 5) sampleBytes).2 _ _ decode_sampleBytes
  exact ⟨s, fresh, hs, hfresh, hiff.mpr (.inl rfl)⟩

/-- After an encoding with a ticket, one without is read into the same session. The lifetime hint is
not that of a new one. -/
theorem decoded_into_mixes : ∃ old s fresh,
    d2iSslSession oneCertificate 0 none ticketBytes = some (old, []) ∧
    d2iSslSession oneCertificate 0 (some old) sampleBytes = some (s, []) ∧
    d2iSslSession oneCertificate 0 none sampleBytes = some (fresh, []) ∧
    s.tlsext_tick_lifetime_hint = -1 ∧ fresh.tlsext_tick_lifetime_hint = 0 ∧
    s.fields ≠ fresh.fields := by
  refine ⟨_, _, _, congrArg _ decode_ticketBytes, congrArg _ decode_sampleBytes,
    congrArg _ decode_sampleBytes, rfl, rfl, fun h => ?_⟩
  exact absurd (congrArg Fields.tlsext_tick_lifetime_hint h) (by decide)

end VigorTls.Session
