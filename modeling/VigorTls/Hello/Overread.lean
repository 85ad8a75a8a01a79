import VigorTls.Hello.Bounds

/-!
# Where a ClientHello is read past its end

Two places read before the lengths have been checked: the look at the length of the cookie, and
`tls_decrypt_ticket`, which takes the name of the key and the IV from a ticket of any length. So the
message is all that is read exactly where these bytes are in it (`client_hello_reads`).
-/

namespace VigorTls.Hello

open Lib Parser

variable {n session session_len : ℕ} {s : Server} {buf : ℕ → UInt8} {cfg : HelloConfig}
  {keys : TicketKeys}

/-- The name of the key is inside, and so is the IV where it is read. -/
def TicketInside (keys : TicketKeys) (n : ℕ) (buf : ℕ → UInt8) (etick : ℕ) : Prop :=
  etick + 16 ≤ n ∧ (keys.tlsext_ticket_key_cb.isSome ∨
    (Probe.bytes etick 16).run buf = keys.tlsext_tick_key_name → etick + 32 ≤ n)

theorem ticketContexts_inside {etick : ℕ} :
    (ticketContexts keys etick).Inside n buf ↔ TicketInside keys n buf etick := by
  unfold ticketContexts TicketInside
  rw [Probe.bind_eq, Probe.inside_bind, Probe.inside_bytes]
  have hiv : (Probe.bytes (etick + 16) 16).Inside n buf ↔ etick + 32 ≤ n := by
    rw [Probe.inside_bytes]
    omega
  cases keys.tlsext_ticket_key_cb with
  | some cb => simp [Probe.bind_eq, Probe.inside_bind, Probe.pure_eq, Probe.inside_ret, hiv]
  | none =>
    by_cases hname : (Probe.bytes etick 16).run buf = keys.tlsext_tick_key_name
    · simp [hname, Probe.bind_eq, Probe.inside_bind, Probe.pure_eq, Probe.inside_ret, hiv]
    · simp [hname, Probe.pure_eq, Probe.inside_ret]

/-- After the contexts, nothing is read before the length has been checked. -/
theorem decryptTicketWith_inside {S : Type} {d2i : Bytes → Option S}
    {setSessionId : S → Bytes → S} {etick eticklen : ℕ} {sess_id : Probe Bytes}
    (htick : etick + eticklen ≤ n) (hid : sess_id.Stays n fun _ => True) :
    (decryptTicketWith keys d2i setSessionId etick eticklen sess_id).Inside n buf ↔
      TicketInside keys n buf etick := by
  rw [← ticketContexts_inside]
  unfold decryptTicketWith
  rw [Probe.bind_eq, Probe.inside_bind]
  refine and_iff_left (Probe.Stays.inside (Q := fun _ => True) ?_ buf)
  generalize (ticketContexts keys etick).run buf = r
  obtain ⟨rv, ctx⟩ := r
  refine .ite (fun _ => .pure trivial) fun _ => .ite (fun _ => .pure trivial) fun _ => ?_
  refine .ite (fun _ => .pure trivial) fun _ => .ite (fun _ => .pure trivial) fun hlen => ?_
  refine .bind (.bytes (by omega) fun _ => trivial) fun signed _ => ?_
  refine .bind (.bytes (by omega) fun _ => trivial) fun tick_hmac _ => ?_
  refine .ite (fun _ => .pure trivial) fun _ => ?_
  refine .bind (.bytes (by omega) fun _ => trivial) fun input _ => ?_
  cases (ctx.decrypt input).bind d2i with
  | none => exact .pure trivial
  | some sess => exact .bind hid fun _ _ => .pure trivial

theorem tlsDecryptTicket_inside {etick eticklen sess_id sesslen : ℕ} (htick : etick + eticklen ≤ n)
    (hid : sess_id + sesslen ≤ n) :
    (tlsDecryptTicket keys etick eticklen sess_id sesslen).Inside n buf ↔
      TicketInside keys n buf etick :=
  decryptTicketWith_inside htick (.bytes hid fun _ => trivial)

theorem ticketLoop_stays {fuel : ℕ} {cbs : Cbs} (h : cbs.Within n) :
    (ticketLoop fuel cbs).Stays n fun r => ∀ d, r = .found d → d.Within n := by
  induction fuel generalizing cbs with
  | zero => exact .pure (by split <;> nofun)
  | succ fuel ih =>
    refine .ite (fun _ => ?_) fun _ => .pure nofun
    refine .bind (Cbs.getU16_stays h) fun r hr => ?_
    rcases r with _ | ⟨ext_type, rest⟩
    · exact .pure nofun
    refine .bind (Cbs.getU16LengthPrefixed_stays (hr _ _ rfl)) fun r hr => ?_
    rcases r with _ | ⟨ext_data, rest⟩
    · exact .pure nofun
    obtain ⟨hdata, hrest⟩ := hr _ _ rfl
    refine .ite (fun _ => .pure ?_) fun _ => ih hrest
    rintro _ ⟨⟩
    exact hdata

theorem skipCookie_stays {dtls : Bool} {cbs : Cbs} (h : cbs.Within n) :
    (skipCookie dtls cbs).Stays n fun r => ∀ rest, r = some rest → rest.Within n := by
  refine .ite (fun _ => ?_) fun _ => .pure (by rintro _ ⟨⟩; exact h)
  refine .bind (Cbs.getU8LengthPrefixed_stays h) fun r hr => .pure fun rest hrest => ?_
  obtain ⟨⟨v, w⟩, rfl, rfl⟩ := Option.map_eq_some_iff.mp hrest
  exact (hr _ _ rfl).2

theorem findTicket_stays {dtls : Bool} :
    (findTicket dtls session session_len n).Stays n fun r => ∀ d, r = .found d → d.Within n := by
  refine .ite (fun _ => .pure nofun) fun hsession => ?_
  have hbody : (Cbs.mk session (n - session)).Within n := by
    simp only [Cbs.Within]
    omega
  cases hget : (Cbs.mk session (n - session)).get session_len with
  | none => exact .pure nofun
  | some r =>
    refine .bind (skipCookie_stays (Cbs.get_within hbody _ _ _ hget).2) fun r hr => ?_
    rcases r with _ | cbs
    · exact .pure nofun
    refine .bind (Cbs.getU16LengthPrefixed_stays (hr _ rfl)) fun r hr => ?_
    rcases r with _ | ⟨_, cbs⟩
    · exact .pure nofun
    refine .bind (Cbs.getU8LengthPrefixed_stays (hr _ _ rfl).2) fun r hr => ?_
    rcases r with _ | ⟨_, cbs⟩
    · exact .pure nofun
    refine .bind (Cbs.getU16LengthPrefixed_stays (hr _ _ rfl).2) fun r hr => ?_
    rcases r with _ | ⟨extensions, _⟩
    · exact .pure nofun
    exact ticketLoop_stays (hr _ _ rfl).1

theorem useTicket_inside {walk : TicketWalk} (hid : session + session_len ≤ n)
    (hwalk : ∀ d, walk = .found d → d.Within n) :
    (useTicket cfg session session_len walk s).Inside n buf ↔
      ∀ d, walk = .found d → d.len ≠ 0 → cfg.tls_session_secret_cb = none →
        TicketInside cfg.keys n buf d.data := by
  cases walk with
  | bad | absent => exact ⟨fun _ => nofun, fun _ => inside_pure⟩
  | found d =>
    simp only [TicketWalk.found.injEq, forall_eq', useTicket]
    split_ifs with hlen hsecret
    · exact ⟨fun _ h => absurd hlen h, fun _ => (inside_bind_ok rfl inside_modify).mpr inside_pure⟩
    · exact ⟨fun _ _ h => absurd h (Option.isSome_iff_ne_none.mp hsecret), fun _ => inside_pure⟩
    rw [inside_bind_left, inside_lift, tlsDecryptTicket_inside (hwalk d rfl) hid]
    · exact ⟨fun h _ _ => h, fun h => h hlen (by simpa using hsecret)⟩
    rintro ⟨r, ret⟩ s'
    refine inside_of_safe ?_ buf
    refine .ite (fun _ => .modify_bind rfl (.pure trivial)) fun _ => ?_
    refine .ite (fun _ => .pure trivial) fun _ => .ite (fun _ => ?_) fun _ => .pure trivial
    exact .modify_bind rfl (.pure trivial)

/-- The ticket that is handed to `tls_decrypt_ticket`. -/
structure ReadsTicket (cfg : HelloConfig) (n : ℕ) (buf : ℕ → UInt8) (dtls : Bool)
    (session session_len : ℕ) (d : Cbs) : Prop where
  tickets : cfg.no_ticket = false
  secret : cfg.tls_session_secret_cb = none
  found : (findTicket dtls session session_len n).run buf = .found d
  nonempty : d.len ≠ 0

theorem tls1ProcessTicket_inside (hid : session + session_len ≤ n) :
    (tls1ProcessTicket cfg session session_len n s).Inside n buf ↔
      ∀ d, ReadsTicket cfg n buf s.isDtls session session_len d →
        TicketInside cfg.keys n buf d.data := by
  unfold tls1ProcessTicket
  rw [inside_bind_ok rfl inside_modify]
  by_cases htickets : cfg.no_ticket = true
  · simp only [htickets]
    exact ⟨fun _ d hd => absurd hd.tickets (by simp [htickets]), fun _ => inside_pure⟩
  rw [if_neg htickets, inside_bind_ok rfl inside_get, inside_bind_ok (run_lift_ok.mpr ⟨rfl, rfl⟩)
    (inside_lift.mpr (findTicket_stays.inside buf)), useTicket_inside hid (findTicket_stays buf).2]
  exact ⟨fun h d hd => h d hd.found hd.nonempty hd.secret,
    fun h d hfound hlen hsecret => h d ⟨by simpa using htickets, hsecret, hfound, hlen⟩⟩

theorem sslGetPrevSession_inside {session_id len : ℕ} (h : session_id + len ≤ n) :
    (sslGetPrevSession cfg session_id len n s).Inside n buf ↔
      ∀ d, ReadsTicket cfg n buf s.isDtls session_id len d →
        TicketInside cfg.keys n buf d.data := by
  unfold sslGetPrevSession
  rw [if_neg (by omega), inside_bind_left, tls1ProcessTicket_inside h]
  rintro ⟨r, ticket⟩ s'
  refine inside_of_safe ?_ buf
  refine .ite (fun _ => .pure trivial) fun _ => .get (.bind (Q := fun _ => True) (.lift
    (.ite (fun _ => .bind (.bytes h fun _ => trivial) fun _ _ => .pure trivial) fun _ =>
      .pure trivial)) ?_)
  rintro (_ | ⟨ret, origin⟩) s'' _ _
  · exact .pure trivial
  simp only
  cases vetSession cfg s' ret with
  | accepted ret | refused | fatal => exact .modify_bind rfl (.pure trivial)

theorem sslGetNewSession_inside : (sslGetNewSession cfg s).Inside n buf := by
  refine inside_of_safe ?_ buf
  refine .get (.modify_bind rfl (.guard fun _ => ?_))
  cases if s.tlsext_ticket_expected then some [] else cfg.generate_session_id s with
  | none => exact .fail
  | some session_id => exact .modify rfl trivial

theorem resume_inside {p j : ℕ} (h : p + j ≤ n) : (resume cfg n p j s).Inside n buf ↔
    ((s.new_session && cfg.no_resumption_on_renegotiation) = false →
      ∀ d, ReadsTicket cfg n buf s.isDtls p j d → TicketInside cfg.keys n buf d.data) := by
  unfold resume
  rw [inside_bind_ok rfl inside_get]
  split_ifs with hnew
  · exact ⟨fun _ h => absurd (hnew.symm.trans h) nofun, fun _ => sslGetNewSession_inside⟩
  rw [inside_bind_left, sslGetPrevSession_inside h]
  · exact ⟨fun h _ => h, fun h => h (by simpa using hnew)⟩
  intro i s'
  rw [inside_bind_ok rfl inside_get]
  split
  · exact inside_modify
  split
  · exact inside_fail
  · exact sslGetNewSession_inside

theorem helloSession_inside : (helloSession cfg n s).Inside n buf ↔
    (35 + (buf 34).toNat ≤ n → (buf 34).toNat ≤ sslMaxSslSessionIdLength →
      (s.new_session && cfg.no_resumption_on_renegotiation) = false →
      ∀ d, ReadsTicket cfg n buf s.isDtls 35 (buf 34).toNat d →
        TicketInside cfg.keys n buf d.data) := by
  unfold helloSession
  split_ifs with hn
  · simp only [ssl3RandomSize] at hn
    exact ⟨fun _ h => absurd h (by omega), fun _ => inside_fail⟩
  rw [inside_bind_ok (run_lift_ok.mpr ⟨rfl,
    rfl⟩) (inside_lift.mpr (Probe.inside_bytes.mpr (.inr (by omega)))),
      inside_bind_ok rfl inside_modify, inside_bind_ok (run_lift_ok.mpr ⟨Probe.run_byte _,
        rfl⟩) (inside_lift.mpr (Probe.inside_byte.mpr (by omega)))]
  split_ifs with hj hid
  · exact ⟨fun _ h => absurd hj (Nat.not_lt.mpr h), fun _ => inside_fail⟩
  · exact ⟨fun _ _ h => absurd hid (Nat.not_lt.mpr h), fun _ => inside_fail⟩
  rw [inside_bind_ok rfl inside_modify, inside_bind_left fun _ _ => inside_pure,
    resume_inside (Nat.not_lt.mp hj)]
  exact ⟨fun h _ _ => h, fun h => h (Nat.not_lt.mp hj) (Nat.not_lt.mp hid)⟩

theorem helloBody_inside : (helloBody cfg n s).Inside n buf ↔ (helloSession cfg n s).Inside n buf :=
  inside_bind_left fun _ _ => helloRest_safe.inside buf

theorem peekCookie_inside : (peekCookie cfg).Inside n buf ↔
    (cfg.cookie_exchange = true → 35 + (buf 34).toNat < n) := by
  unfold peekCookie
  by_cases h : cfg.cookie_exchange = true
  · simp only [h, if_true, Probe.bind_eq, Probe.inside_bind, Probe.inside_byte, Probe.run_byte,
      Probe.pure_eq, Probe.inside_ret]
    simp only [ssl3RandomSize, Nat.reduceAdd, true_implies, and_true]
    constructor <;> omega
  · simp [h, Probe.pure_eq, Probe.inside_ret]

/-- The length of the cookie, where it is looked at, and the start of a decrypted ticket are in the
message. -/
structure HelloInside (cfg : HelloConfig) (n : ℕ) (buf : ℕ → UInt8) (s : Server) : Prop where
  peek : cfg.cookie_exchange = true → 35 + (buf 34).toNat < n
  ticket : (peekCookie cfg).run buf = false → 35 + (buf 34).toNat ≤ n →
    (buf 34).toNat ≤ sslMaxSslSessionIdLength →
    (s.new_session && cfg.no_resumption_on_renegotiation) = false →
    ∀ d, ReadsTicket cfg n buf s.isDtls 35 (buf 34).toNat d → TicketInside cfg.keys n buf d.data

theorem ssl3GetClientHello_inside {again : Bool} :
    (ssl3GetClientHello cfg again n s).Inside n buf ↔
      (again = false → 2 ≤ n → wrongVersion s ((n2s 0).run buf) = false →
        HelloInside cfg n buf s) := by
  cases again with
  | true =>
    refine ⟨fun _ => nofun, fun _ => ?_⟩
    exact Safe.inside (.bind retryCert_safe fun _ _ _ _ => helloLate_safe) buf
  | false =>
    simp only [true_implies, ssl3GetClientHello, Bool.false_eq_true, if_false]
    rw [inside_bind, and_iff_right (helloVersion_safe.inside buf)]
    constructor
    · intro h hn hv
      have hrest := h () _ (helloVersion_ok.mpr ⟨hn, hv, rfl⟩)
      obtain ⟨hpeek, hbody⟩ := inside_bind.mp hrest
      refine ⟨peekCookie_inside.mp (inside_lift.mp hpeek), fun hbare => ?_⟩
      have hbody := hbody _ _ (run_lift_ok.mpr ⟨hbare, rfl⟩)
      simp only [Bool.false_eq_true, if_false, helloBody_inside] at hbody
      exact fun hlen hid hnew d hd => helloSession_inside.mp hbody hlen hid hnew d hd
    rintro h _ _ hrun
    obtain ⟨hn, hv, rfl⟩ := helloVersion_ok.mp hrun
    have hinside := h hn hv
    refine inside_bind.mpr ⟨inside_lift.mpr (peekCookie_inside.mpr hinside.peek), ?_⟩
    rintro bare _ hrun
    obtain ⟨hbare, rfl⟩ := run_lift_ok.mp hrun
    cases bare with
    | true => exact inside_pure
    | false =>
      simp only [Bool.false_eq_true, if_false, helloBody_inside]
      exact helloSession_inside.mpr fun hlen hid hnew d hd =>
        hinside.ticket hbare hlen hid hnew d hd

/-- It takes up the choice of a certificate again, or refuses the version, or the message has what
is looked at unchecked. -/
def OnlyMessage (cfg : HelloConfig) (again : Bool) (n : ℕ) (buf : ℕ → UInt8) (s : Server) : Prop :=
  again = false → 2 ≤ n → wrongVersion s ((n2s 0).run buf) = false → HelloInside cfg n buf s

/-- `ssl3_get_client_hello` reads only the message exactly then, and its result is the same whatever
follows the message in the buffer. -/
theorem client_hello_reads (cfg : HelloConfig) (again : Bool) (n : ℕ) (buf : ℕ → UInt8)
    (s : Server) :
    ((∀ i ∈ (ssl3GetClientHello cfg again n s).inspected buf, i < n) ↔
        OnlyMessage cfg again n buf s) ∧
      (OnlyMessage cfg again n buf s → ∀ buf', (∀ i < n, buf' i = buf i) →
        (ssl3GetClientHello cfg again n s).run buf' = (ssl3GetClientHello cfg again n s).run buf) :=
  ⟨ssl3GetClientHello_inside,
    fun h _ hbuf => ((ssl3GetClientHello_inside.mpr h).run_eq hbuf).1⟩

/-- A server that asks for cookies looks at what follows a message of two bytes; a ticket of one
byte at the end of a message is read to its sixteenth byte. -/
theorem client_hello_reads_past :
    let cookies : HelloConfig := { keys := sampleKeys, cookie_exchange := true }
    let dtls : Server := { version := dtls12Version, method_version := dtls12Version }
    let tls : Server := { version := tls12Version, method_version := tls12Version }
    let hello := sampleHello [] [0, 5, 0, 35, 0, 1, 9]
    35 ∈ (ssl3GetClientHello cookies false 2 dtls).inspected (bufferOf [0xfe, 0xfd] 0) ∧
      ((ssl3GetClientHello cookies false 2 dtls).run (bufferOf [0xfe, 0xfd] 0)).1 = .ok 1 ∧
      ((ssl3GetClientHello cookies false 2 dtls).run (bufferOf [0xfe, 0xfd] 1)).1 =
        .error (.alert sslAdDecodeError) ∧
      hello.length = 48 ∧
      62 ∈ (ssl3GetClientHello { keys := sampleKeys } false 48 tls).inspected
        (bufferOf hello 0) := by
  decide +kernel

/-- The same message with a ticket that is long enough. -/
theorem client_hello_reads_sample :
    let tls : Server := { version := tls12Version, method_version := tls12Version }
    let hello := sampleHello [] ([0, 36, 0, 35, 0, 32] ++ List.replicate 32 7)
    (∀ i ∈ (ssl3GetClientHello { keys := sampleKeys } false 79 tls).inspected (bufferOf hello 0),
        i < 79) ∧
      OnlyMessage { keys := sampleKeys } false 79 (bufferOf hello 0) tls := by
  have hreads : ∀ i ∈ (ssl3GetClientHello { keys := sampleKeys } false 79
      { version := tls12Version, method_version := tls12Version }).inspected
      (bufferOf (sampleHello [] ([0, 36, 0, 35, 0, 32] ++ List.replicate 32 7)) 0), i < 79 := by
    decide +kernel
  exact ⟨hreads, (client_hello_reads _ _ _ _ _).1.mp hreads⟩

end VigorTls.Hello
