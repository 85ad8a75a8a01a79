import VigorTls.Hello.Resumption

/-!
# The three walks over the extensions

The extensions of a ClientHello are walked over by `tls1_process_ticket`,
`ssl_scan_clienthello_tlsext` and `ssl_scan_clienthello_custom_tlsext`. They agree exactly on a
well-formed block that fills the message, and on what is broken before its first ticket
(`walkers_agree`): `tls1_process_ticket` refuses a ClientHello without a block, which the others
take, and looks neither at what follows a ticket nor at what follows the block.
-/

namespace VigorTls.Hello

open Lib Parser

variable {n e limit data fuel : ℕ} {s : Server} {buf : ℕ → UInt8} {cfg : HelloConfig}

/-! ## The format -/

/-- An extension in the buffer: its type, and where its data is. -/
structure Ext where
  type : ℕ
  data : ℕ
  size : ℕ
deriving DecidableEq

abbrev be16 (buf : ℕ → UInt8) (p : ℕ) : ℕ := (n2s p).run buf

/-- The bytes from `a` to `b` are these extensions. -/
inductive Exts (buf : ℕ → UInt8) : ℕ → ℕ → List Ext → Prop
  | nil (a : ℕ) : Exts buf a a []
  | cons {a b : ℕ} {exts : List Ext} (h : Exts buf (a + 4 + be16 buf (a + 2)) b exts) :
    Exts buf a b (⟨be16 buf a, a + 4, be16 buf (a + 2)⟩ :: exts)

variable {exts : List Ext}

theorem Exts.le {a b : ℕ} (h : Exts buf a b exts) : a ≤ b := by
  induction h with
  | nil a => exact Nat.le_refl a
  | cons _ ih => omega

/-- No extension is complete at `p`. -/
def Stuck (buf : ℕ → UInt8) (limit p : ℕ) : Prop :=
  limit < p + 4 + be16 buf (p + 2)

/-- The extensions that are complete, and where the walk over them stops. -/
def extensionsFrom (buf : ℕ → UInt8) (limit : ℕ) : ℕ → ℕ → List Ext × ℕ
  | 0, data => ([], data)
  | fuel + 1, data =>
    if data + 4 + be16 buf (data + 2) ≤ limit then
      let rest := extensionsFrom buf limit fuel (data + 4 + be16 buf (data + 2))
      (⟨be16 buf data, data + 4, be16 buf (data + 2)⟩ :: rest.1, rest.2)
    else ([], data)

theorem extensionsFrom_next (h : data + 4 + be16 buf (data + 2) ≤ limit) :
    extensionsFrom buf limit (fuel + 1) data =
      (⟨be16 buf data, data + 4, be16 buf (data + 2)⟩ ::
          (extensionsFrom buf limit fuel (data + 4 + be16 buf (data + 2))).1,
        (extensionsFrom buf limit fuel (data + 4 + be16 buf (data + 2))).2) := if_pos h

theorem extensionsFrom_stop (h : Stuck buf limit data) :
    extensionsFrom buf limit (fuel + 1) data = ([], data) := if_neg (Nat.not_le.mpr h)

theorem extensionsFrom_exts (data : ℕ) :
    Exts buf data (extensionsFrom buf limit fuel data).2
      (extensionsFrom buf limit fuel data).1 := by
  induction fuel generalizing data with
  | zero => exact .nil data
  | succ fuel ih =>
    rw [extensionsFrom]
    split_ifs
    · exact .cons (ih _)
    · exact .nil data

theorem extensionsFrom_stuck (h : limit ≤ data + fuel) :
    Stuck buf limit (extensionsFrom buf limit fuel data).2 := by
  induction fuel generalizing data with
  | zero => show limit < data + 4 + _; omega
  | succ fuel ih =>
    rw [extensionsFrom]
    split_ifs with hc
    · exact ih (by omega)
    · exact Nat.not_le.mp hc

theorem extensionsFrom_le (h : data ≤ limit) : (extensionsFrom buf limit fuel data).2 ≤ limit := by
  induction fuel generalizing data with
  | zero => exact h
  | succ fuel ih =>
    rw [extensionsFrom]
    split_ifs with hc
    · exact ih hc
    · exact h

theorem extensionsFrom_of_exts {stop : ℕ} (h : Exts buf data stop exts) (hstop : stop ≤ limit)
    (hstuck : Stuck buf limit stop) (hfuel : limit ≤ data + fuel) :
    extensionsFrom buf limit fuel data = (exts, stop) := by
  induction h generalizing fuel with
  | nil a =>
    cases fuel with
    | zero => rfl
    | succ fuel => rw [extensionsFrom, if_neg (Nat.not_le.mpr hstuck)]
  | cons h ih =>
    have hle := h.le
    cases fuel with
    | zero => omega
    | succ fuel =>
      rw [extensionsFrom, if_pos (by omega), ih hstop hstuck (by omega)]

/-- The extensions that a walk sees, and whether it accepts the block. -/
structure Seen where
  exts : List Ext
  accepted : Bool

def Ext.isTicket (x : Ext) : Bool := x.type = tlsextTypeSessionTicket

def upToTicket : List Ext → List Ext
  | [] => []
  | x :: exts => if x.isTicket then [x] else x :: upToTicket exts

/-- What `ssl_scan_clienthello_tlsext` sees of the bytes from `e` on. -/
def scanSees (buf : ℕ → UInt8) (e n : ℕ) : Seen :=
  if e = n then ⟨[], true⟩
  else if e + 2 > n then ⟨[], false⟩
  else if e + 2 + be16 buf e ≠ n then ⟨[], false⟩
  else
    let walk := extensionsFrom buf n n (e + 2)
    ⟨walk.1, walk.2 = n⟩

/-- What `ssl_scan_clienthello_custom_tlsext` sees: it refuses nothing. -/
def customSees (buf : ℕ → UInt8) (e n : ℕ) : Seen :=
  if e + 2 ≥ n then ⟨[], true⟩
  else if e + 2 + be16 buf e > n then ⟨[], true⟩
  else ⟨(extensionsFrom buf n n (e + 2)).1, true⟩

/-- What `tls1_process_ticket` sees: it stops at a ticket. -/
def ticketSees (buf : ℕ → UInt8) (e n : ℕ) : Seen :=
  if e + 2 > n then ⟨[], false⟩
  else if e + 2 + be16 buf e > n then ⟨[], false⟩
  else
    let limit := e + 2 + be16 buf e
    let walk := extensionsFrom buf limit (be16 buf e) (e + 2)
    ⟨upToTicket walk.1, walk.1.any Ext.isTicket || walk.2 = limit⟩

def firstTicket (exts : List Ext) : Option Cbs :=
  (exts.find? Ext.isTicket).map fun x => ⟨x.data, x.size⟩

/-- The ticket that is processed. -/
def Seen.walk (seen : Seen) : TicketWalk :=
  if seen.accepted then
    match firstTicket seen.exts with
    | none => .absent
    | some ext_data => .found ext_data
  else .bad

def handleAll (handle : Ext → HelloM Unit) : List Ext → HelloM Unit
  | [] => return ()
  | x :: exts => do
    handle x
    handleAll handle exts

/-- `ssl_scan_clienthello_tlsext` on the extensions that it sees. -/
def scanWith (cfg : HelloConfig) (seen : Seen) : HelloM Unit := do
  modify fun s => { s with
    servername_done := false, tlsext_status_type := none, next_proto_neg_seen := false,
    tlsext_ticket_expected := false, alpn_proposed := none }
  handleAll (fun x => scanExtension cfg x.type x.data x.size) seen.exts
  if seen.accepted then riCheck (seen.exts.any (·.type = tlsextTypeRenegotiate))
  else decodeError

/-- `ssl_scan_clienthello_custom_tlsext` on the extensions that it sees. -/
def customWith (cfg : HelloConfig) (seen : Seen) : HelloM Unit := do
  let s ← get
  if s.hit || cfg.custom.isEmpty then return ()
  else handleAll (fun x => customExtParse cfg x.type x.data x.size) seen.exts

/-- The loop of `ssl_scan_clienthello_tlsext` on what it walks over. -/
def scanAlong (cfg : HelloConfig) (limit : ℕ) (seen : Bool) (walk : List Ext × ℕ) :
    HelloM (ℕ × Bool) := do
  handleAll (fun x => scanExtension cfg x.type x.data x.size) walk.1
  if walk.2 + 4 ≤ limit then decodeError
  else return (walk.2, seen || walk.1.any (·.type = tlsextTypeRenegotiate))

theorem scanAlong_nil {seen : Bool} : (scanAlong cfg limit seen ([], data) s).run buf =
    ((if data + 4 ≤ limit then decodeError else pure (data, seen) : HelloM _) s).run buf := by
  show ((if data + 4 ≤ limit then decodeError else pure (data, seen || false) : HelloM _) s).run
    buf = _
  rw [Bool.or_false]

theorem scanLoop_run {seen : Bool} (h : limit ≤ data + fuel) :
    (scanLoop cfg limit fuel data seen s).run buf =
      (scanAlong cfg limit seen (extensionsFrom buf limit fuel data) s).run buf := by
  induction fuel generalizing data seen s with
  | zero =>
    rw [extensionsFrom, scanAlong_nil, if_neg (by omega)]
    rfl
  | succ fuel ih =>
    rw [scanLoop]
    by_cases hsize : data + 4 + be16 buf (data + 2) ≤ limit
    · rw [if_pos (by omega), run_lift_bind, run_lift_bind, if_neg (Nat.not_lt.mpr hsize),
        extensionsFrom_next hsize, scanAlong, handleAll, run_bind_assoc]
      refine run_bind_congr fun _ s' => ?_
      rw [ih (by omega), List.any_cons, ← Bool.or_assoc]
      rfl
    · rw [extensionsFrom_stop (Nat.not_le.mp hsize), scanAlong_nil]
      by_cases h4 : data + 4 ≤ limit
      · rw [if_pos h4, if_pos h4, run_lift_bind, run_lift_bind, if_pos (Nat.not_le.mp hsize)]
      · rw [if_neg h4, if_neg h4]

theorem scan_sees : (sslScanClienthelloTlsext cfg e n s).run buf =
    (scanWith cfg (scanSees buf e n) s).run buf := by
  unfold sslScanClienthelloTlsext scanSees
  rw [run_modify_bind]
  split_ifs with h0 h2 hlen
  · rfl
  · rfl
  · rw [run_lift_bind, if_pos hlen]
    rfl
  rw [run_lift_bind, if_neg hlen, run_bind, scanLoop_run (by omega), ← run_bind, scanAlong,
    run_bind_assoc, scanWith]
  refine run_bind_congr fun _ s' => ?_
  -- Where the walk does not end at the limit, one of the two checks for it fails.
  simp only [decide_eq_true_eq]
  by_cases h4 : (extensionsFrom buf n n (e + 2)).2 + 4 ≤ n
  · rw [if_pos h4, if_neg (by omega)]
    rfl
  rw [if_neg h4]
  split_ifs with hstop
  · show ((if _ ≠ n then decodeError else riCheck _) s').run buf = _
    rw [if_neg (not_not.mpr hstop), Bool.false_or]
  · show ((if _ ≠ n then decodeError else riCheck _) s').run buf = _
    rw [if_pos hstop]

variable {cbs : Cbs}

theorem lengthPrefixed_run {getLen : Cbs → Probe (Option (ℕ × Cbs))} {width len : ℕ}
    (h : (getLen cbs).run buf =
      if cbs.len < width then none else some (len, ⟨cbs.data + width, cbs.len - width⟩)) :
    (cbs.lengthPrefixed getLen).run buf =
      if cbs.len < width + len then none
      else some (⟨cbs.data + width, len⟩,
        ⟨cbs.data + width + len, cbs.len - (width + len)⟩) := by
  unfold Cbs.lengthPrefixed
  rw [Probe.bind_eq, Probe.run_bind, h]
  by_cases hwidth : cbs.len < width
  · rw [if_pos hwidth, if_pos (by omega)]
    rfl
  rw [if_neg hwidth]
  show Cbs.get _ len = _
  split_ifs with hlen
  · rw [Cbs.get, if_pos (by simp only; omega)]
  · rw [Cbs.get, if_neg (by simp only; omega), Nat.sub_sub]

theorem getU16LengthPrefixed_run : cbs.getU16LengthPrefixed.run buf =
    if cbs.len < 2 + be16 buf cbs.data then none
    else some (⟨cbs.data + 2, be16 buf cbs.data⟩,
      ⟨cbs.data + 2 + be16 buf cbs.data, cbs.len - (2 + be16 buf cbs.data)⟩) :=
  lengthPrefixed_run getU16_run

theorem getU8LengthPrefixed_run : cbs.getU8LengthPrefixed.run buf =
    if cbs.len < 1 + (buf cbs.data).toNat then none
    else some (⟨cbs.data + 1, (buf cbs.data).toNat⟩,
      ⟨cbs.data + 1 + (buf cbs.data).toNat, cbs.len - (1 + (buf cbs.data).toNat)⟩) :=
  lengthPrefixed_run (by unfold Cbs.getU8 Cbs.get; split_ifs <;> rfl)

/-- What the loop of `tls1_process_ticket` finds on what it walks over. -/
def ticketAlong (limit : ℕ) (walk : List Ext × ℕ) : TicketWalk :=
  match firstTicket walk.1 with
  | some ext_data => .found ext_data
  | none => if walk.2 = limit then .absent else .bad

theorem ticketLoop_run {len : ℕ} (h : len ≤ fuel) : (ticketLoop fuel ⟨data, len⟩).run buf =
    ticketAlong (data + len) (extensionsFrom buf (data + len) fuel data) := by
  induction fuel generalizing data len with
  | zero =>
    simp [ticketLoop, extensionsFrom, ticketAlong, firstTicket, Probe.pure_eq]
  | succ fuel ih =>
    rw [ticketLoop]
    by_cases hsize : data + 4 + be16 buf (data + 2) ≤ data + len
    · -- The first extension is complete.
      rw [extensionsFrom_next hsize, if_pos (by simp only; omega), Probe.bind_eq, Probe.run_bind,
        getU16_run, if_neg (by simp only; omega)]
      simp only
      rw [Probe.bind_eq, Probe.run_bind, getU16LengthPrefixed_run, if_neg (by simp only; omega)]
      simp only
      by_cases hticket : be16 buf data = tlsextTypeSessionTicket
      · rw [if_pos hticket]
        simp [ticketAlong, firstTicket, Ext.isTicket, hticket, Probe.pure_eq]
      · have hlimit : data + 2 + 2 + be16 buf (data + 2) +
            (len - 2 - (2 + be16 buf (data + 2))) = data + len := by omega
        rw [if_neg hticket, ih (by omega), hlimit]
        simp [ticketAlong, firstTicket, Ext.isTicket, hticket]
    · rw [extensionsFrom_stop (Nat.not_le.mp hsize)]
      by_cases hlen : len > 0
      · have hbad : ticketAlong (data + len) ([], data) = .bad := by
          simp [ticketAlong, firstTicket]
          omega
        rw [if_pos hlen, Probe.bind_eq, Probe.run_bind, getU16_run, hbad]
        split_ifs with h2
        · rfl
        · simp only
          rw [Probe.bind_eq, Probe.run_bind, getU16LengthPrefixed_run, if_pos (by simp only; omega)]
          rfl
      · obtain rfl : len = 0 := by omega
        simp [ticketAlong, firstTicket, Probe.pure_eq]

theorem customLoop_run (h : limit ≤ data + fuel) : (customLoop cfg limit fuel data s).run buf =
    (handleAll (fun x => customExtParse cfg x.type x.data x.size)
      (extensionsFrom buf limit fuel data).1 s).run buf := by
  induction fuel generalizing data s with
  | zero => rfl
  | succ fuel ih =>
    rw [customLoop]
    by_cases hsize : data + 4 + be16 buf (data + 2) ≤ limit
    · rw [if_pos (by omega), run_lift_bind, run_lift_bind, if_neg (Nat.not_lt.mpr hsize),
        extensionsFrom_next hsize]
      exact run_bind_congr fun _ s' => ih (by omega)
    rw [extensionsFrom_stop (Nat.not_le.mp hsize)]
    split_ifs with h4
    · rw [run_lift_bind, run_lift_bind, if_pos (Nat.not_le.mp hsize)]
      rfl
    · rfl

theorem custom_sees : (sslScanClienthelloCustomTlsext cfg e n s).run buf =
    (customWith cfg (customSees buf e n) s).run buf := by
  unfold sslScanClienthelloCustomTlsext customWith customSees
  rw [run_get_bind, run_get_bind]
  split_ifs with hskip h2 hlen
  · rfl
  · rfl
  · rw [run_lift_bind, if_pos hlen]
    rfl
  · rw [run_lift_bind, if_neg hlen]
    exact customLoop_run (by omega)

/-- A ClientHello that is well formed up to the compression methods, which end at `e`. -/
structure HelloPrefix (dtls : Bool) (buf : ℕ → UInt8) (n e : ℕ) : Prop where
  ends : e = cipherStart dtls buf + 2 + be16 buf (cipherStart dtls buf) + 1 +
    (buf (cipherStart dtls buf + 2 + be16 buf (cipherStart dtls buf))).toNat
  inside : e ≤ n

theorem helloCiphers_end {p : ℕ} :
    Post buf s (helloCiphers cfg n p) fun r _ => r.2 = p + 2 + be16 buf p := by
  refine .guard fun _ => .lift_bind ?_
  rintro _ ⟨⟩
  refine .guard fun _ => .guard fun _ => .bind (Q := fun _ _ => True) (fun _ _ _ => trivial) ?_
  exact fun _ _ _ => .get (.guard fun _ => .pure rfl)

theorem helloCompression_end {p : ℕ} :
    Post buf s (helloCompression n p) fun e _ => e = p + 1 + (buf p).toNat ∧ e ≤ n := by
  refine .guard fun _ => .lift_bind ?_
  rintro _ ⟨⟩
  exact .guard fun h => .lift_bind fun _ _ => .guard fun _ => .pure ⟨rfl, Nat.not_lt.mp h⟩

/-- The steps of `ssl3_get_client_hello` before the extensions accept only such a ClientHello. -/
theorem helloPrefix_of_run {p : ℕ} {s₁ s₂ s₃ s₄ : Server} {cookie : Bool × ℕ}
    {ciphers : List ℕ × ℕ} (hsession : (helloSession cfg n s).run buf = (.ok p, s₁))
    (hdtls : (helloDtls cfg n p s₁).run buf = (.ok cookie, s₂))
    (hciphers : (helloCiphers cfg n cookie.2 s₂).run buf = (.ok ciphers, s₃))
    (hcompression : (helloCompression n ciphers.2 s₃).run buf = (.ok e, s₄)) :
    HelloPrefix s.isDtls buf n e := by
  obtain ⟨rfl, hcarried, hresumable⟩ := helloSession_post _ _ hsession
  obtain ⟨hstart, -, -⟩ := helloDtls_post hresumable _ _ hdtls
  obtain ⟨hend, hinside⟩ := helloCompression_end _ _ hcompression
  have hmethod : s₁.method_version = s.method_version := congrArg (·.2.1) hcarried
  rw [Server.isDtls, hmethod, ← Server.isDtls] at hstart
  rw [helloCiphers_end _ _ hciphers, hstart] at hend
  exact ⟨hend, hinside⟩

theorem firstTicket_upToTicket (exts : List Ext) :
    firstTicket (upToTicket exts) = firstTicket exts := by
  induction exts with
  | nil => rfl
  | cons x exts ih =>
    unfold firstTicket at ih ⊢
    cases hx : x.isTicket with
    | true => simp [upToTicket, hx]
    | false => simpa [upToTicket, hx] using ih

theorem firstTicket_isSome (exts : List Ext) :
    (firstTicket exts).isSome = exts.any Ext.isTicket := by
  rw [firstTicket, Option.isSome_map, List.isSome_find?]

theorem walk_upToTicket (walk : List Ext × ℕ) :
    (Seen.mk (upToTicket walk.1) (walk.1.any Ext.isTicket || walk.2 = limit)).walk =
      ticketAlong limit walk := by
  rw [Seen.walk, firstTicket_upToTicket, ← firstTicket_isSome, ticketAlong]
  cases firstTicket walk.1 with
  | none => simp
  | some ext_data => simp

theorem skipCookie_run {dtls : Bool} (h : cipherStart dtls buf ≤ n) :
    (skipCookie dtls ⟨35 + (buf 34).toNat, n - 35 - (buf 34).toNat⟩).run buf =
      some ⟨cipherStart dtls buf, n - cipherStart dtls buf⟩ := by
  cases dtls with
  | false =>
    rw [Nat.sub_sub]
    rfl
  | true =>
    have hstart : cipherStart true buf =
      35 + (buf 34).toNat + 1 + (buf (35 + (buf 34).toNat)).toNat := rfl
    simp only [skipCookie, if_true]
    rw [Probe.bind_eq, Probe.run_bind, getU8LengthPrefixed_run, if_neg (by simp only; omega)]
    show some (Cbs.mk _ (n - 35 - (buf 34).toNat -
      (1 + (buf (35 + (buf 34).toNat)).toNat))) = some (Cbs.mk _ _)
    congr 2
    omega

theorem ticket_sees {dtls : Bool} (h : HelloPrefix dtls buf n e) :
    (findTicket dtls 35 (buf 34).toNat n).run buf = (ticketSees buf e n).walk := by
  have hends := h.ends
  have hinside := h.inside
  have hstart : 35 + (buf 34).toNat ≤ cipherStart dtls buf := by
    unfold cipherStart
    cases dtls with
    | false => exact Nat.le_refl _
    | true => simp only [if_true]; omega
  unfold findTicket
  rw [if_neg (by omega)]
  have hget : (Cbs.mk 35 (n - 35)).get (buf 34).toNat =
      some (⟨35, (buf 34).toNat⟩, ⟨35 + (buf 34).toNat, n - 35 - (buf 34).toNat⟩) :=
    if_neg (by simp only; omega)
  rw [hget]
  simp only
  rw [Probe.bind_eq, Probe.run_bind, skipCookie_run (by omega)]
  simp only
  rw [Probe.bind_eq, Probe.run_bind, getU16LengthPrefixed_run, if_neg (by simp only; omega)]
  simp only
  rw [Probe.bind_eq, Probe.run_bind, getU8LengthPrefixed_run, if_neg (by simp only; omega)]
  simp only
  have hrest : Cbs.mk (cipherStart dtls buf + 2 + be16 buf (cipherStart dtls buf) + 1 +
      (buf (cipherStart dtls buf + 2 + be16 buf (cipherStart dtls buf))).toNat)
      (n - cipherStart dtls buf - (2 + be16 buf (cipherStart dtls buf)) -
        (1 + (buf (cipherStart dtls buf + 2 + be16 buf (cipherStart dtls buf))).toNat)) =
      ⟨e, n - e⟩ := by
    rw [← hends]
    congr 1
    omega
  rw [hrest, Probe.bind_eq, Probe.run_bind, getU16LengthPrefixed_run, ticketSees]
  by_cases h2 : e + 2 > n
  · rw [if_pos (by simp only; omega), if_pos h2]
    rfl
  by_cases hlen : e + 2 + be16 buf e > n
  · rw [if_pos (by simp only; omega), if_neg h2, if_pos hlen]
    rfl
  rw [if_neg (by simp only; omega), if_neg h2, if_neg hlen]
  rw [ticketLoop_run (Nat.le_refl _), walk_upToTicket]

/-! ## Agreement -/

/-- The bytes from `e` to `n` are an extension block. -/
def Block (buf : ℕ → UInt8) (e n : ℕ) (exts : List Ext) : Prop :=
  e + 2 + be16 buf e = n ∧ Exts buf (e + 2) n exts

/-- The block is longer than the message, or broken before its first ticket. -/
def BrokenEarly (buf : ℕ → UInt8) (e n : ℕ) : Prop :=
  n < e + 2 + be16 buf e ∨
    ∃ exts stop, Exts buf (e + 2) stop exts ∧ exts.any Ext.isTicket = false ∧
      stop < e + 2 + be16 buf e ∧ Stuck buf (e + 2 + be16 buf e) stop

/-- None refuses what the others accept, and then they see the same extensions,
`tls1_process_ticket` up to the ticket it processes. -/
structure WalkersAgree (buf : ℕ → UInt8) (e n : ℕ) : Prop where
  accepted : (ticketSees buf e n).accepted = (scanSees buf e n).accepted
  custom : (scanSees buf e n).accepted = true → (customSees buf e n).exts = (scanSees buf e n).exts
  ticket : (scanSees buf e n).accepted = true →
    (ticketSees buf e n).exts = upToTicket (scanSees buf e n).exts ∧
      (ticketSees buf e n).walk =
        match firstTicket (scanSees buf e n).exts with
        | none => .absent
        | some ext_data => .found ext_data

theorem stuck_self (limit : ℕ) : Stuck buf limit limit := by
  unfold Stuck
  omega

section

variable (h : Block buf e n exts)

include h

theorem extensionsFrom_block (hfuel : n ≤ e + 2 + fuel) :
    extensionsFrom buf n fuel (e + 2) = (exts, n) :=
  extensionsFrom_of_exts h.2 (Nat.le_refl n) (stuck_self n) hfuel

theorem scanSees_block : scanSees buf e n = ⟨exts, true⟩ := by
  have hn := h.1
  rw [scanSees, if_neg (by omega), if_neg (by omega), if_neg (not_not.mpr hn),
    extensionsFrom_block h (by omega)]
  simp

theorem customSees_block : (customSees buf e n).exts = exts := by
  obtain ⟨hn, hexts⟩ := h
  by_cases h2 : e + 2 ≥ n
  · obtain rfl : e + 2 = n := by omega
    cases hexts with
    | nil => simp [customSees]
    | cons hexts => exact absurd hexts.le (by omega)
  · rw [customSees, if_neg h2, if_neg (by omega), extensionsFrom_block ⟨hn, hexts⟩ (by omega)]

theorem ticketSees_block : ticketSees buf e n = ⟨upToTicket exts, true⟩ := by
  have hn := h.1
  rw [ticketSees, if_neg (by omega)]
  simp only [hn]
  rw [extensionsFrom_block h (by omega)]
  simp

end

theorem scanSees_accepted (h : (scanSees buf e n).accepted = true) :
    e = n ∨ ∃ exts, Block buf e n exts := by
  rw [scanSees] at h
  split_ifs at h with h0 h2 hn
  · exact .inl h0
  have hstop : (extensionsFrom buf n n (e + 2)).2 = n := of_decide_eq_true h
  have hexts : Exts buf (e + 2) (extensionsFrom buf n n (e + 2)).2
      (extensionsFrom buf n n (e + 2)).1 := extensionsFrom_exts (e + 2)
  rw [hstop] at hexts
  exact .inr ⟨_, not_not.mp hn, hexts⟩

theorem ticketSees_refused : (ticketSees buf e n).accepted = false ↔ BrokenEarly buf e n := by
  unfold ticketSees BrokenEarly
  split_ifs with h2 hn
  · exact ⟨fun _ => .inl (by omega), fun _ => rfl⟩
  · exact ⟨fun _ => .inl hn, fun _ => rfl⟩
  simp only [Bool.or_eq_false_iff, decide_eq_false_iff_not]
  constructor
  · rintro ⟨hticket, hstop⟩
    have hle : (extensionsFrom buf (e + 2 + be16 buf e) (be16 buf e) (e + 2)).2 ≤
        e + 2 + be16 buf e := extensionsFrom_le (by omega)
    exact .inr ⟨_, _, extensionsFrom_exts _, hticket, by omega,
      extensionsFrom_stuck (Nat.le_refl _)⟩
  · rintro (h | ⟨exts, stop, hexts, hticket, hstop, hstuck⟩)
    · exact absurd h hn
    · rw [extensionsFrom_of_exts hexts (Nat.le_of_lt hstop) hstuck (Nat.le_refl _)]
      exact ⟨hticket, Nat.ne_of_lt hstop⟩

/-- After a ClientHello that is well formed up to the compression methods, the extensions seen agree
exactly where they are a block that fills the message, or are there and broken before the first
ticket. -/
theorem walkers_agree (dtls : Bool) (buf : ℕ → UInt8) (n e : ℕ) (h : HelloPrefix dtls buf n e) :
    ((findTicket dtls 35 (buf 34).toNat n).run buf = (ticketSees buf e n).walk ∧
      (∀ cfg s, (sslScanClienthelloTlsext cfg e n s).run buf =
        (scanWith cfg (scanSees buf e n) s).run buf) ∧
      ∀ cfg s, (sslScanClienthelloCustomTlsext cfg e n s).run buf =
        (customWith cfg (customSees buf e n) s).run buf) ∧
    (WalkersAgree buf e n ↔ (∃ exts, Block buf e n exts) ∨ e < n ∧ BrokenEarly buf e n) := by
  refine ⟨⟨ticket_sees h, fun _ _ => scan_sees, fun _ _ => custom_sees⟩, ?_, ?_⟩
  · intro hagree
    cases hscan : (scanSees buf e n).accepted with
    | true =>
      rcases scanSees_accepted hscan with rfl | hblock
      · -- Without a block the ticket walk fails.
        have hticket : (ticketSees buf e e).accepted = false :=
          ticketSees_refused.mpr (.inl (by omega))
        exact absurd (hticket.symm.trans (hagree.accepted.trans hscan)) (by decide)
      · exact .inl hblock
    | false =>
      have hne : e ≠ n := fun heq => by simp [scanSees, heq] at hscan
      have hle := h.inside
      exact .inr ⟨by omega, ticketSees_refused.mp (hagree.accepted.trans hscan)⟩
  rintro (⟨exts, hblock⟩ | ⟨hlt, hbroken⟩)
  · have hscan := scanSees_block hblock
    have hticket := ticketSees_block hblock
    refine ⟨by rw [hscan, hticket], fun _ => ?_, fun _ => ⟨by rw [hscan, hticket], ?_⟩⟩
    · rw [hscan]
      exact customSees_block hblock
    · rw [hscan, hticket, Seen.walk, firstTicket_upToTicket]
      rfl
  have hticket := ticketSees_refused.mpr hbroken
  have hscan : (scanSees buf e n).accepted = false := by
    by_contra haccepted
    rcases scanSees_accepted (Bool.not_eq_false _ ▸ haccepted) with heq | ⟨exts, hblock⟩
    · exact absurd heq (Nat.ne_of_lt hlt)
    · rw [ticketSees_block hblock] at hticket
      cases hticket
  exact ⟨hticket.trans hscan.symm, fun h => absurd (hscan.symm.trans h) (by decide),
    fun h => absurd (hscan.symm.trans h) (by decide)⟩

/-- A ClientHello without extensions: the server fails on it, unless it takes no tickets. -/
theorem walkers_disagree :
    let buf := bufferOf (sampleHello [] []) 0
    let cfg : HelloConfig := { keys := sampleKeys, generate_session_id := fun _ => some [1] }
    HelloPrefix false buf 41 41 ∧ ¬WalkersAgree buf 41 41 ∧
      ((ssl3GetClientHello cfg false 41 sampleServer).run buf).1 = .error .err ∧
      ((ssl3GetClientHello { cfg with no_ticket := true } false 41 sampleServer).run buf).1 =
        .ok 1 :=
  ⟨⟨by decide +kernel, Nat.le_refl 41⟩, fun h => absurd h.accepted (by decide +kernel),
    by decide +kernel, by decide +kernel⟩

/-- A ClientHello that asks for a ticket. -/
theorem walkers_agree_ticket :
    let buf := bufferOf (sampleHello [] [0, 4, 0, 35, 0, 0]) 0
    HelloPrefix false buf 47 41 ∧ WalkersAgree buf 41 47 := by
  have hhello : HelloPrefix false (bufferOf (sampleHello [] [0, 4, 0, 35, 0, 0]) 0) 47 41 :=
    ⟨by decide +kernel, by decide⟩
  exact ⟨hhello, (walkers_agree false _ 47 41 hhello).2.mpr
    (.inl ⟨[⟨35, 47, 0⟩], rfl, .cons (.nil 47)⟩)⟩

end VigorTls.Hello
