import VigorTls.Hello.Overread
import VigorTls.Session.Stored

/-!
# Session tickets

`ssl3_send_newsession_ticket` of `ssl/s3_srvr.c` seals a session into a ticket, and
`tls_decrypt_ticket` of `ssl/t1_lib.c` opens it, at offsets that each side computes on its own.

The ticket gives back the fields of the session with the defaults of the reader filled in
(`sent_ticket`, `opened_ticket`). A session comes out only where the HMAC is right; but the name and
the IV are taken from the ticket before its length is looked at (`session_ticket`).
-/

namespace VigorTls.Session

open Lib Bytestring List Option Probe

variable {X : Type}

/-- The contexts for a new ticket, once they have their keys, with the name and the IV. -/
structure SealCtx where
  key_name : Bytes
  iv : Bytes
  iv_length : ℕ
  /-- `EVP_EncryptUpdate` and `EVP_EncryptFinal`. -/
  encrypt : Bytes → Option Bytes
  hmac : Bytes → Bytes

/-- What `ssl3_send_newsession_ticket` uses of the context. -/
structure TicketSource where
  /-- What `tlsext_ticket_key_cb` answers. -/
  tlsext_ticket_key_cb : Option (ℤ × SealCtx) := none
  rand_bytes : Option { iv : Bytes // iv.length = 16 }
  /-- The contexts with the keys and the name of the server, for an IV. -/
  init : Bytes → Option SealCtx

/-- The contexts: from the callback, or with the keys of the server. -/
def sealContexts (tctx : TicketSource) : Option SealCtx :=
  match tctx.tlsext_ticket_key_cb with
  | some (rv, ctx) => if rv < 0 then none else some ctx
  | none => do
    let iv ← tctx.rand_bytes
    tctx.init iv

def sealTicket (ctx : SealCtx) (senc : Bytes) : Option Bytes := do
  let encrypted ← ctx.encrypt senc
  let signed := ctx.key_name ++ ctx.iv.take ctx.iv_length ++ encrypted
  some (signed ++ ctx.hmac signed)

variable (codec : X509Codec X)

/-- The session that goes into a ticket and its encoding: a fresh copy without the ID. A negative
result of `i2d_SSL_SESSION` fails later. -/
def ticketSession (heap : Heap) (now : Int64) (s : SslSession X) :
    Option (SslSession X × Bytes) := do
  let senc ← (i2dSslSession codec heap s).toOption
  if senc.length = 0 ∨ senc.length > 0xff00 then none
  else do
    let (sess, _) ← d2iSslSession codec now none senc
    let sess := { sess with session_id_length := 0 }
    let senc' ← (i2dSslSession codec heap sess).toOption
    if senc'.length = 0 ∨ senc'.length > senc.length then none
    else some (sess, senc')

/-- `ssl3_send_newsession_ticket`: the body, unless the state becomes `SSL_ST_ERR`. `grow` is
whether `BUF_MEM_grow` succeeds. -/
def ssl3SendNewsessionTicket (heap : Heap) (now : Int64) (tctx : TicketSource)
    (grow : ℕ → Bool) (hit : Bool) (s : SslSession X) : Option Bytes := do
  let (_, senc) ← ticketSession codec heap now s
  if ¬ grow (4 + 22 + 16 + 32 + 64 + senc.length) then none
  else do
    let ctx ← sealContexts tctx
    let ticket ← sealTicket ctx senc
    let hint := if hit then 0 else s.timeout
    some (beBytes 4 hint.toUInt64.toNat ++ s2n ticket.length ++ ticket)

variable (s : SslSession X)

/-- The session ID that the client presented. -/
def SslSession.setSessionId (sess_id : Bytes) : SslSession X :=
  { s with session_id := store s.session_id 0 sess_id, session_id_length := sess_id.length }

/-- The session that a ticket holds. -/
def decodeTicket (now : Int64) (sdec : Bytes) : Option (SslSession X) :=
  (d2iSslSession codec now none sdec).map Prod.fst

/-- `tls_decrypt_ticket` with the whole of the session. -/
def tlsDecryptTicket (now : Int64) (keys : Hello.TicketKeys)
    (etick eticklen : ℕ) (sess_id : Bytes) : Probe (ℤ × Option (SslSession X)) :=
  Hello.decryptTicketWith keys (decodeTicket codec now) SslSession.setSessionId etick eticklen
    (return sess_id)

/-- A session, as far as the server looks at it. -/
def SslSession.summary : Hello.Session where
  ssl_version := s.ssl_version.toInt.toNat
  session_id := slice s.session_id 0 s.session_id_length
  sid_ctx := slice s.sid_ctx 0 s.sid_ctx_length
  cipher := s.cipher
  cipher_id := s.cipher_id
  time := s.time
  timeout := s.timeout
  tlsext_hostname := s.tlsext_hostname.map Subtype.val
  tlsext_ecpointformatlist := none
  tlsext_ellipticcurvelist := none

theorem summary_setSessionId (sess_id : Bytes) :
    (s.setSessionId sess_id).summary = { s.summary with session_id := sess_id } := by
  simp only [SslSession.summary, SslSession.setSessionId, slice_store_self]

theorem run_bytes_slice (buf : ℕ → UInt8) (i len : ℕ) :
    (bytes i len).run buf = slice buf i len := run_bytes i len

/-- The server that reads a ClientHello gets what it looks at of this session. -/
theorem tlsDecryptTicket_summary (now : Int64) {keys : Hello.TicketKeys}
    (hkeys : ∀ sdec, keys.d2iSession sdec = (decodeTicket codec now sdec).map SslSession.summary)
    (etick eticklen sess_id sesslen : ℕ) (buf : ℕ → UInt8) :
    (Hello.tlsDecryptTicket keys etick eticklen sess_id sesslen).run buf =
      ((tlsDecryptTicket codec now keys etick eticklen (slice buf sess_id sesslen)).run buf).map id
        (Option.map SslSession.summary) := by
  unfold Hello.tlsDecryptTicket tlsDecryptTicket Hello.decryptTicketWith
  simp only [bind_eq, run_bind]
  generalize (Hello.ticketContexts keys etick).run buf = r
  obtain ⟨rv, ctx⟩ := r
  iterate 4
    split
    · rfl
  simp only [run_bind]
  split
  · rfl
  simp only [run_bind]
  -- The two sessions are decoded from the same bytes.
  cases ctx.decrypt _ with
  | none => rfl
  | some sdec =>
    simp only [bind_some, hkeys]
    cases decodeTicket codec now sdec with
    | none => rfl
    | some sess =>
      show ((bytes sess_id sesslen).bind _).run buf = _
      rw [run_bind, run_bytes_slice]
      exact Prod.ext rfl (congrArg some (summary_setSessionId sess _).symm)

/-- The keys of the server: a cipher with its inverse, and any function for the HMAC. -/
structure BuiltinKeys where
  tlsext_tick_key_name : Bytes
  length_key_name : tlsext_tick_key_name.length = 16
  encrypt : Bytes → Bytes → Bytes
  decrypt : Bytes → Bytes → Option Bytes
  decrypt_encrypt : ∀ iv data, decrypt iv (encrypt iv data) = some data
  length_encrypt : ∀ iv data, (encrypt iv data).length = (data.length / 16 + 1) * 16
  hmac : Bytes → Bytes
  length_hmac : ∀ data, (hmac data).length = 32

variable (keys : BuiltinKeys)

def BuiltinKeys.sender (rand_bytes : Option { iv : Bytes // iv.length = 16 }) :
    TicketSource where
  rand_bytes := rand_bytes
  init := fun iv => some
    ⟨keys.tlsext_tick_key_name, iv, 16, fun data => some (keys.encrypt iv data), keys.hmac⟩

def BuiltinKeys.receiver (now : Int64) : Hello.TicketKeys where
  tlsext_tick_key_name := keys.tlsext_tick_key_name
  init := fun iv => ⟨32, 16, keys.hmac, keys.decrypt iv⟩
  d2iSession := fun sdec => (decodeTicket codec now sdec).map SslSession.summary

/-- `tls_decrypt_ticket` with these keys, on the first `n` bytes of the buffer. -/
def BuiltinKeys.decryptTicket (now : Int64) (n : ℕ) (sess_id : Bytes) :
    Probe (ℤ × Option (SslSession X)) :=
  tlsDecryptTicket codec now (keys.receiver codec now) 0 n sess_id

variable {keys} {codec : X509Codec X} {now : Int64} {n : ℕ} {sess_id : Bytes}
  {buf : ℕ → UInt8}

theorem BuiltinKeys.run_contexts :
    (Hello.ticketContexts (keys.receiver codec now) 0).run buf =
      if slice buf 0 16 ≠ keys.tlsext_tick_key_name then (0, (keys.receiver codec now).init [])
      else (1, (keys.receiver codec now).init (slice buf 16 16)) := by
  unfold Hello.ticketContexts
  rw [bind_eq, run_bind, run_bytes_slice]
  by_cases hname : slice buf 0 16 ≠ keys.tlsext_tick_key_name
  · rw [if_pos hname]
    exact congrArg (run buf) (if_pos hname)
  · rw [if_neg hname]
    refine (congrArg (run buf) (if_neg hname)).trans ?_
    rw [bind_eq, run_bind, run_bytes_slice]
    rfl

theorem BuiltinKeys.run_decryptTicket :
    (keys.decryptTicket codec now n sess_id).run buf =
      if slice buf 0 16 ≠ keys.tlsext_tick_key_name then ((2 : ℤ), none)
      else if n ≤ 64 then (2, none)
      else if keys.hmac (slice buf 0 (n - 32)) ≠ slice buf (n - 32) 32 then (2, none)
      else
        match (keys.decrypt (slice buf 16 16) (slice buf 32 (n - 64))).bind
          (decodeTicket codec now) with
        | none => (2, none)
        | some sess => (3, some (sess.setSessionId sess_id)) := by
  unfold BuiltinKeys.decryptTicket tlsDecryptTicket Hello.decryptTicketWith
  rw [bind_eq, run_bind, BuiltinKeys.run_contexts]
  by_cases hname : slice buf 0 16 ≠ keys.tlsext_tick_key_name
  · rw [if_pos hname, if_pos hname]
    rfl
  rw [if_neg hname, if_neg hname]
  by_cases hlen : n ≤ 64
  · rw [if_pos hlen]
    exact congrArg (run buf) (if_pos hlen)
  rw [if_neg hlen]
  refine (congrArg (run buf) (if_neg hlen)).trans ?_
  rw [bind_eq, run_bind, bind_eq, run_bind, run_bytes_slice,
    run_bytes_slice]
  have hmac_size : ((keys.receiver codec now).init (slice buf 16 16)).hmac_size.toNat = 32 := rfl
  rw [Nat.zero_add]
  by_cases hmac : keys.hmac (slice buf 0 (n - 32)) ≠ slice buf (n - 32) 32
  · rw [if_pos hmac]
    exact congrArg (run buf) (if_pos hmac)
  rw [if_neg hmac]
  refine (congrArg (run buf) (if_neg hmac)).trans ?_
  rw [bind_eq, run_bind, run_bytes_slice]
  rw [show n - 64 = n - 32 - (16 + 16) by omega]
  cases hopened : (keys.decrypt (slice buf 16 16) (slice buf 32 (n - 32 - (16 + 16)))).bind
    (decodeTicket codec now) with
  | none => split <;> cases hopened.symm.trans ‹_›; rfl
  | some sess => split <;> cases hopened.symm.trans ‹_›; rfl

theorem BuiltinKeys.decryptTicket_inside :
    (keys.decryptTicket codec now n sess_id).Inside n buf ↔
      32 ≤ n ∨ 16 ≤ n ∧ slice buf 0 16 ≠ keys.tlsext_tick_key_name := by
  rw [BuiltinKeys.decryptTicket, tlsDecryptTicket, Hello.decryptTicketWith_inside (by omega)
    (.pure trivial), Hello.TicketInside, run_bytes_slice]
  have hcb : (keys.receiver codec now).tlsext_ticket_key_cb.isSome = false := rfl
  rw [hcb]
  simp only [Bool.false_eq_true, false_or]
  by_cases hname : slice buf 0 16 = keys.tlsext_tick_key_name
  · simp only [hname, ne_eq, not_true_eq_false, and_false, or_false]
    exact ⟨fun h => h.2 rfl, fun h => ⟨by omega, fun _ => h⟩⟩
  · simp only [ne_eq, hname, not_false_eq_true, and_true]
    exact ⟨fun h => .inr h.1, fun h => ⟨by omega, fun hname' => absurd hname' hname⟩⟩

/-! ## Round trip -/

variable {heap : Heap} {s : SslSession X} {senc iv : Bytes}

theorem toOption_eq_some {ε α : Type} {x : Except ε α} {a : α} :
    x.toOption = some a ↔ x = .ok a := by
  cases x with
  | error e => exact iff_of_false nofun nofun
  | ok b => simp [Except.toOption]

theorem ticketSession_eq_some {sess : SslSession X}
    (h : ticketSession codec heap now s = some (sess, senc)) :
    sess.fields = { s.fields.filled now with session_id := [] } ∧ senc.length ≤ 0xff00 ∧
      ∀ now', ∃ s', d2iSslSession codec now' none senc = some (s', []) ∧
        s'.fields = sess.fields.filled now' := by
  obtain ⟨full, hfull, h⟩ := bind_eq_some_iff.mp h
  split_ifs at h with hlen
  obtain ⟨⟨copy, rest⟩, hcopy, h⟩ := bind_eq_some_iff.mp h
  obtain ⟨senc', hsenc, h⟩ := bind_eq_some_iff.mp h
  split_ifs at h with hlen'
  obtain ⟨rfl, rfl⟩ : { copy with session_id_length := 0 } = sess ∧ senc' = senc := by
    cases h
    exact ⟨rfl, rfl⟩
  -- The session fits, or its encoding would have been refused.
  obtain ⟨-, hw, hserialize, -⟩ := i2dSslSession_eq_ok (toOption_eq_some.mp hfull)
  obtain ⟨hread, hfits⟩ := decode_written hw hserialize []
  rw [append_nil] at hread hfits
  obtain ⟨r, hr, hinstall⟩ := map_eq_some_iff.mp hcopy
  have hfits := hfits r hr
  obtain rfl : (s.written, []) = r := Option.some.inj ((hread hfits).symm.trans hr)
  obtain ⟨rfl, -⟩ : s.written.install now (sslSessionNew now) = copy ∧ [] = rest := by
    cases hinstall
    exact ⟨rfl, rfl⟩
  have hfields := fields_written hfits hw now (a := sslSessionNew now) rfl
  -- And so does the copy.
  obtain ⟨-, hw', hserialize', -⟩ := i2dSslSession_eq_ok (toOption_eq_some.mp hsenc)
  have hkey : s.written.master_key.length ≤ 48 := by
    simpa [SslSession.written, SslSession.decoded] using hfits.master_key
  have hfits' : ({ s.written.install now (sslSessionNew now) with
      session_id_length := 0 } : SslSession X).Fits := by
    refine ⟨Nat.zero_le _, ?_, ?_⟩
    · show (ofInt (Int32.ofNat s.written.master_key.length)).toNat ≤ 48
      rw [ofInt_ofNat (by omega)]
      exact hkey
    · show (slice s.sid_ctx 0 s.sid_ctx_length).length ≤ 32
      rw [length_slice]
      exact hfits.sid_ctx
  have hread' := (decode_written hw' hserialize' []).1 hfits'
  rw [append_nil] at hread'
  refine ⟨congrArg (fun f => { f with session_id := [] }) hfields, by omega, fun now' => ?_⟩
  refine ⟨_, ?_, fields_written hfits' hw' now' (a := sslSessionNew now') rfl⟩
  rw [d2iSslSession, hread']
  rfl

/-- The ticket for an encoded session under an IV. -/
def BuiltinKeys.ticket (keys : BuiltinKeys) (iv senc : Bytes) : Bytes :=
  let signed := keys.tlsext_tick_key_name ++ iv ++ keys.encrypt iv senc
  signed ++ keys.hmac signed

theorem BuiltinKeys.length_ticket (hiv : iv.length = 16) (senc : Bytes) :
    (keys.ticket iv senc).length = 64 + (senc.length / 16 + 1) * 16 := by
  simp only [BuiltinKeys.ticket, length_append, keys.length_key_name,
    keys.length_encrypt, keys.length_hmac]
  omega

theorem sent_ticket {rand_bytes : Option { iv : Bytes // iv.length = 16 }} {grow : ℕ → Bool}
    {hit : Bool} {body : Bytes}
    (h : ssl3SendNewsessionTicket codec heap now (keys.sender rand_bytes) grow hit s = some body) :
    ∃ sess senc iv, ticketSession codec heap now s = some (sess, senc) ∧ iv.length = 16 ∧
      body = beBytes 4 (if hit then 0 else s.timeout).toUInt64.toNat ++
        s2n (keys.ticket iv senc).length ++ keys.ticket iv senc := by
  obtain ⟨⟨sess, senc⟩, hsess, h⟩ := bind_eq_some_iff.mp h
  by_cases hgrow : ¬ grow (4 + 22 + 16 + 32 + 64 + senc.length)
  · exact absurd ((if_pos hgrow).symm.trans h) nofun
  have h := (if_neg hgrow).symm.trans h
  obtain ⟨ctx, hctx, h⟩ := bind_eq_some_iff.mp h
  obtain ⟨⟨iv, hiv⟩, -, hinit⟩ := bind_eq_some_iff.mp hctx
  cases hinit
  refine ⟨sess, senc, iv, hsess, hiv, ?_⟩
  have htake : iv.take 16 = iv := take_of_length_le (Nat.le_of_eq hiv)
  simp only [sealTicket, htake, bind_eq_bind, bind_some, Option.some.injEq] at h
  exact h.symm

theorem opened_ticket (hiv : iv.length = 16)
    (hbuf : slice buf 0 (keys.ticket iv senc).length = keys.ticket iv senc) {s' : SslSession X}
    (hs' : decodeTicket codec now senc = some s') :
    (keys.decryptTicket codec now (keys.ticket iv senc).length sess_id).run buf =
      (3, some (s'.setSessionId sess_id)) := by
  have hlen := keys.length_ticket hiv senc
  have henc := keys.length_encrypt iv senc
  have hname := keys.length_key_name
  -- The parts of the ticket, each at its offset.
  obtain ⟨hsigned, hmac⟩ := slice_eq_append (hbuf.trans rfl)
  obtain ⟨hhead, hinput⟩ := slice_eq_append hsigned
  obtain ⟨hkey, hivs⟩ := slice_eq_append hhead
  simp only [length_append, hname, hiv, henc] at hsigned hinput
  simp only [length_append, hname, hiv, henc, keys.length_hmac, Nat.zero_add] at hmac
  simp only [hname, hiv] at hkey hivs
  have hsub : 64 + (senc.length / 16 + 1) * 16 - 32 = 32 + (senc.length / 16 + 1) * 16 := by omega
  have hsub' : 64 + (senc.length / 16 + 1) * 16 - 64 = (senc.length / 16 + 1) * 16 := by omega
  rw [BuiltinKeys.run_decryptTicket, hlen, if_neg (not_not.mpr hkey), if_neg (by omega), hsub,
    hsub', hsigned, if_neg (not_not.mpr hmac.symm), hivs, hinput, keys.decrypt_encrypt, bind_some,
    hs']

theorem fields_setSessionId (sess_id : Bytes) :
    (s.setSessionId sess_id).fields = { s.fields with session_id := sess_id } := by
  simp only [SslSession.fields, SslSession.setSessionId, slice_store_self]
  rfl

/-- What was filled in once stays, but for the time of a clock that stands at zero. -/
theorem Fields.filled_filled (f : Fields X) (now now' : Int64) :
    (f.filled now).filled now' = f.filled (if now = 0 then now' else now) := by
  have htime : ((f.filled now).filled now').time =
      (f.filled (if now = 0 then now' else now)).time := by
    by_cases h : f.time = 0 <;> simp [Fields.filled, h]
  have htimeout : ((f.filled now).filled now').timeout = (f.filled now).timeout := by
    by_cases h : f.timeout = 0 <;> simp [Fields.filled, h]
  have hhint : ((f.filled now).filled now').tlsext_tick_lifetime_hint =
      (f.filled now).tlsext_tick_lifetime_hint := by
    by_cases h : 0 < f.tlsext_tick_lifetime_hint <;> simp [Fields.filled, h]
  have htick : ((f.filled now).filled now').tlsext_tick = (f.filled now).tlsext_tick := by
    simp [Fields.filled]
  simp only [Fields.filled] at htime htimeout hhint htick ⊢
  rw [htime, htimeout, hhint, htick]

/-- A ticket that a server sends is opened whatever follows it, and gives the session under the ID
that the client presents, the same exactly when its encoding leaves nothing out. A session comes out
only where the last 32 bytes are the HMAC. And only the ticket is read exactly when it is long
enough. -/
theorem session_ticket (codec : X509Codec X) (keys : BuiltinKeys) :
    (∀ heap now rand_bytes grow hit s body,
      ssl3SendNewsessionTicket codec heap now (keys.sender rand_bytes) grow hit s = some body →
      ∃ hint ticket, body = hint ++ s2n ticket.length ++ ticket ∧ hint.length = 4 ∧
        ticket.length < 65536 ∧
        ∀ buf now' sess_id, slice buf 0 ticket.length = ticket → ∃ s',
          (keys.decryptTicket codec now' ticket.length sess_id).run buf = (3, some s') ∧
          s'.fields = { (s.fields.filled now).filled now' with session_id := sess_id } ∧
          (s'.fields = { s.fields with session_id := sess_id } ↔
            (s.time = 0 → now = 0 ∧ now' = 0) ∧ s.timeout ≠ 0 ∧
              0 ≤ s.tlsext_tick_lifetime_hint ∧ s.fields.tlsext_tick ≠ some [])) ∧
    ∀ now n sess_id buf,
      (∀ rv s', (keys.decryptTicket codec now n sess_id).run buf = (rv, some s') →
        32 ≤ n ∧ slice buf (n - 32) 32 = keys.hmac (slice buf 0 (n - 32))) ∧
      ((keys.decryptTicket codec now n sess_id).Inside n buf ↔
        32 ≤ n ∨ 16 ≤ n ∧ slice buf 0 16 ≠ keys.tlsext_tick_key_name) := by
  refine ⟨fun heap now rand_bytes grow hit s body hbody => ?_, fun now n sess_id buf =>
    ⟨fun rv s' h => ?_, keys.decryptTicket_inside⟩⟩
  rotate_left
  · -- A session comes out only where the HMAC is right.
    rw [BuiltinKeys.run_decryptTicket] at h
    split_ifs at h with hname hlen hmac
    · cases h
    · cases h
    · cases h
    · exact ⟨by omega, (not_not.mp hmac).symm⟩
  obtain ⟨sess, senc, iv, hsess, hiv, rfl⟩ := sent_ticket hbody
  obtain ⟨hfields, hlen, hread⟩ := ticketSession_eq_some hsess
  refine ⟨_, keys.ticket iv senc, rfl, length_beBytes .., ?_, fun buf now' sess_id hbuf => ?_⟩
  · rw [keys.length_ticket hiv]
    omega
  obtain ⟨s', hs', hfields'⟩ := hread now'
  have hresult : (s'.setSessionId sess_id).fields =
      { (s.fields.filled now).filled now' with session_id := sess_id } := by
    rw [fields_setSessionId, hfields', hfields]
    rfl
  refine ⟨_, opened_ticket hiv hbuf (congrArg (·.map Prod.fst) hs'), hresult, ?_⟩
  have hclock : (if now = 0 then now' else now) = 0 ↔ now = 0 ∧ now' = 0 := by
    by_cases h : now = 0 <;> simp [h]
  rw [hresult, ← hclock, Fields.filled_filled]
  exact @Fields.filled_eq_self_iff _ { s.fields with session_id := sess_id } _

def padded (data : Bytes) : Bytes :=
  data ++ replicate (16 - data.length % 16) (UInt8.ofNat (16 - data.length % 16))

theorem padded_last (data : Bytes) :
    (padded data).getLast? = some (UInt8.ofNat (16 - data.length % 16)) := by
  have hpos : 16 - data.length % 16 ≠ 0 := by omega
  rw [padded, getLast?_append, getLast?_replicate, if_neg hpos]
  rfl

/-- Keys with a cipher that does nothing but pad. -/
def plainKeys : BuiltinKeys where
  tlsext_tick_key_name := replicate 16 1
  length_key_name := rfl
  encrypt := fun _ data => padded data
  decrypt := fun _ data => data.getLast?.map fun b => data.take (data.length - b.toNat)
  decrypt_encrypt := by
    intro iv data
    have hlt : 16 - data.length % 16 < 256 := by omega
    rw [padded_last, map_some, UInt8.toNat_ofNat_of_lt' hlt]
    simp [padded]
  length_encrypt := by
    intro iv data
    simp only [padded, length_append, length_replicate]
    omega
  hmac := fun _ => replicate 32 0
  length_hmac := fun _ => rfl

theorem session_ticket_sample : ∃ body hint ticket,
    ssl3SendNewsessionTicket oneCertificate zeroHeap 0 (plainKeys.sender
      (some ⟨replicate 16 2, rfl⟩)) (fun _ => true) false (sampleSession 9) = some body ∧
    body = hint ++ s2n ticket.length ++ ticket ∧
    ∃ s', (plainKeys.decryptTicket oneCertificate 0 ticket.length [7, 8]).run
        (store (fun _ => 0) 0 ticket) = (3, some s') ∧
      s'.fields = { (sampleSession 9).fields with session_id := [7, 8] } := by
  have hsend : (ssl3SendNewsessionTicket oneCertificate zeroHeap 0 (plainKeys.sender
      (some ⟨replicate 16 2, rfl⟩)) (fun _ => true) false (sampleSession 9)).isSome := by
    decide +kernel
  obtain ⟨body, hbody⟩ := isSome_iff_exists.mp hsend
  obtain ⟨hint, ticket, hparts, -, -, hopen⟩ :=
    (session_ticket oneCertificate plainKeys).1 _ _ _ _ _ _ _ hbody
  obtain ⟨s', hrun, -, hiff⟩ := hopen _ 0 [7, 8] (slice_store_self (fun _ => 0) 0 ticket)
  exact ⟨body, hint, ticket, hbody, hparts, s', hrun,
    hiff.mpr ⟨by decide, by decide, by decide, by decide⟩⟩

/-- A ticket of one byte, and one of the name only: both are read past their end. -/
theorem short_ticket_read_past :
    ¬ (plainKeys.decryptTicket oneCertificate 0 1 []).Inside 1 (fun _ => 1) ∧
    ¬ (plainKeys.decryptTicket oneCertificate 0 16 []).Inside 16 (fun _ => 1) := by
  decide

end VigorTls.Session
