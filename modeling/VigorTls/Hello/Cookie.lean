import VigorTls.Hello.Resumption
import VigorTls.Lib.Run

/-!
# The check of a cookie

Without a callback, `ssl3_get_client_hello` copies the cookie of a ClientHello to the start of
`rcvd_cookie` and compares as many bytes as the cookie in `s->d1->cookie` is long. The length
received takes no part in it, and before a cookie has been issued the length is that of the whole
field. What is accepted is the cookie issued exactly where the two have the same length or differ
in the bytes compared (`cookie_check`).
-/

namespace VigorTls.Hello

open Lib Parser CookieField

variable {n p : ℕ} {s s1 : Server} {buf : ℕ → UInt8} {cfg : HelloConfig}

/-- A connection, with the cookie that it has issued. -/
structure CookieServer where
  server : Server
  issued : Option Bytes

inductive CookieEvent where
  | clear
  /-- `dtls1_send_hello_verify_request`, with the cookie of the callback. -/
  | issue (cookie : Bytes) (h : cookie.length ≤ dtls1CookieLength)
  /-- A ClientHello; one that fails ends the handshake. -/
  | hello (cfg : HelloConfig) (again : Bool) (n : ℕ) (buf : ℕ → UInt8)

/-- `dtls1_clear` for the cookies. -/
def clearCookies (s : Server) : Server :=
  { s with cookie := .zero, rcvd_cookie := .zero, cookie_len := dtls1CookieLength }

variable (c : CookieServer)

def CookieServer.step : CookieEvent → CookieServer
  | .clear => ⟨clearCookies c.server, none⟩
  | .issue cookie _ =>
    ⟨{ c.server with cookie := c.server.cookie.store cookie, cookie_len := cookie.length },
      some cookie⟩
  | .hello cfg again n buf =>
    match (ssl3GetClientHello cfg again n c.server).run buf with
    | (.ok _, s) => ⟨s, c.issued⟩
    | (.error _, _) => c

/-- The field holds the cookie that was issued, or it is as it was allocated. -/
def CookieServer.Holds : Prop :=
  match c.issued with
  | none => c.server.cookie = .zero ∧ c.server.cookie_len = dtls1CookieLength
  | some cookie => cookie.length ≤ dtls1CookieLength ∧ c.server.cookie_len = cookie.length ∧
    c.server.cookie.bytes.take cookie.length = cookie

theorem CookieField.store_take (field : CookieField) (bs : Bytes) {k : ℕ}
    (hk : k ≤ dtls1CookieLength) :
    (field.store bs).bytes.take k = (bs ++ field.bytes.drop bs.length).take k := by
  rw [store, List.take_take, Nat.min_eq_left hk]

theorem ssl3GetClientHello_held {again : Bool} :
    Post buf s (ssl3GetClientHello cfg again n) fun _ s' => held s' = held s := by
  cases again with
  | true =>
    refine .bind ((retryCert_safe (n := n)).post buf) fun _ s' ⟨h, _⟩ => ?_
    exact ((helloLate_safe (n := n)).post buf).mono fun _ _ ⟨h', _⟩ =>
      held_of_kept (h'.trans h)
  | false =>
    refine Post.bind (fun _ _ hrun => helloVersion_ok.mp hrun) fun _ s1 ⟨_, _, hs1⟩ => ?_
    have h1 : held s1 = held s := by rw [hs1]; rfl
    refine .lift_bind fun bare _ => .ite (fun _ => .pure h1) fun _ => ?_
    refine .bind helloSession_post fun p s2 ⟨_, h2, _⟩ => ?_
    have h2 : held s2 = held s1 := congrArg (·.2.2.2) h2
    exact (helloRest_safe.post buf).mono fun _ _ ⟨h, _⟩ => h.trans (h2.trans h1)

theorem CookieServer.holds_step (event : CookieEvent) (h : c.Holds) : (c.step event).Holds := by
  cases event with
  | clear => exact ⟨rfl, rfl⟩
  | issue cookie hlen =>
    refine ⟨hlen, rfl, ?_⟩
    show (c.server.cookie.store cookie).bytes.take cookie.length = cookie
    rw [store_take _ _ hlen, List.take_left]
  | hello cfg again n buf =>
    simp only [CookieServer.step]
    split
    next s hrun =>
      have hheld : held s = held c.server := ssl3GetClientHello_held _ _ hrun
      have hcookie : s.cookie = c.server.cookie := congrArg (·.1) hheld
      have hlen : s.cookie_len = c.server.cookie_len := congrArg (·.2.1) hheld
      simp only [Holds, hcookie, hlen]
      exact h
    next => exact h

def CookieServer.new (s : Server) : CookieServer := ⟨clearCookies s, none⟩

/-! ## The check -/

/-- The cookie of a ClientHello whose session ID ends at `p`. -/
def receivedCookie (buf : ℕ → UInt8) (p : ℕ) : Bytes :=
  (Probe.bytes (p + 1) (buf p).toNat).run buf

/-- A ClientHello with a cookie reaches the check; its session ID ends at `p`. -/
structure ReachesCookie (cfg : HelloConfig) (n : ℕ) (buf : ℕ → UInt8) (s : Server) (p : ℕ)
    (s₁ : Server) : Prop where
  session : ∃ sv, (helloVersion n s).run buf = (.ok (), sv) ∧
    (helloSession cfg n sv).run buf = (.ok p, s₁)
  peek : (peekCookie cfg).run buf = false
  dtls : s₁.isDtls = true
  nonempty : 0 < (buf p).toNat
  inside : p + 1 + (buf p).toNat ≤ n

def CookieValid (cfg : HelloConfig) (n : ℕ) (buf : ℕ → UInt8) (p : ℕ) (s₁ : Server) : Prop :=
  ∃ q s', (helloCookie cfg n p s₁).run buf = (.ok (true, q), s')

theorem ReachesCookie.start (h : ReachesCookie cfg n buf s p s1) : p = 35 + (buf 34).toNat := by
  obtain ⟨sv, -, hsession⟩ := h.session
  exact (helloSession_post _ _ hsession).1

theorem ReachesCookie.carried (h : ReachesCookie cfg n buf s p s1) :
    held s1 = held s ∧ s1.rcvd_cookie = s.rcvd_cookie := by
  obtain ⟨sv, hversion, hsession⟩ := h.session
  obtain ⟨-, -, rfl⟩ := helloVersion_ok.mp hversion
  have hcarried := (helloSession_post _ _ hsession).2.1
  exact ⟨congrArg (·.2.2.2) hcarried, congrArg (·.2.2.1) hcarried⟩

theorem cookieValid_iff (hexchange : cfg.cookie_exchange = true)
    (hcb : cfg.app_verify_cookie_cb = none) (hpos : 0 < (buf p).toNat)
    (hinside : p + 1 + (buf p).toNat ≤ n) :
    CookieValid cfg n buf p s ↔
      (s.rcvd_cookie.store (receivedCookie buf p)).bytes.take s.cookie_len =
        s.cookie.bytes.take s.cookie_len := by
  have hlt : (buf p).toNat < dtls1CookieLength := (buf p).toNat_lt
  have hverify : ∀ s' : Server, verifyCookie cfg s' (buf p).toNat =
      decide (s'.rcvd_cookie.bytes.take s'.cookie_len = s'.cookie.bytes.take s'.cookie_len) :=
    fun s' => by rw [verifyCookie, hcb]
  unfold CookieValid helloCookie
  rw [if_neg (by omega), run_lift_bind, Probe.run_byte, if_neg (by omega), if_neg (by omega),
    if_pos (by simp [hexchange, hpos]), run_lift_bind, run_modify_bind, run_get_bind, hverify]
  by_cases heq : (s.rcvd_cookie.store (receivedCookie buf p)).bytes.take s.cookie_len =
      s.cookie.bytes.take s.cookie_len
  · refine ⟨fun _ => heq, fun _ => ⟨p + 1 + (buf p).toNat,
      { s with rcvd_cookie := s.rcvd_cookie.store (receivedCookie buf p) }, ?_⟩⟩
    rw [if_neg (by simpa [receivedCookie] using heq)]
    rfl
  · refine ⟨fun ⟨_, _, h⟩ => ?_, fun h => absurd h heq⟩
    rw [if_pos (by simpa [receivedCookie] using heq)] at h
    exact absurd h run_fail_ok

/-- It has the length of the cookie issued, or its bytes, followed by those that an earlier
ClientHello has left, differ from it; with no cookie issued, they are not all zero. -/
def CookieServer.Distinguishes (received : Bytes) : Prop :=
  match c.issued with
  | none => c.server.rcvd_cookie.store received ≠ .zero
  | some cookie => received.length = cookie.length ∨
    (received ++ c.server.rcvd_cookie.bytes.drop received.length).take cookie.length ≠ cookie

theorem CookieField.ext_bytes {f g : CookieField} (h : f.bytes = g.bytes) : f = g := by
  cases f
  congr

theorem valid_issued_iff {c : CookieServer} (hc : c.Holds) (hexchange : cfg.cookie_exchange = true)
    (hcb : cfg.app_verify_cookie_cb = none) (hreach : ReachesCookie cfg n buf c.server p s1) :
    (CookieValid cfg n buf p s1 → c.issued = some (receivedCookie buf p)) ↔
      c.Distinguishes (receivedCookie buf p) := by
  obtain ⟨hheld, hrcvd⟩ := hreach.carried
  have hcookie : s1.cookie = c.server.cookie := congrArg (·.1) hheld
  have hlen : s1.cookie_len = c.server.cookie_len := congrArg (·.2.1) hheld
  rw [cookieValid_iff hexchange hcb hreach.nonempty hreach.inside, hcookie, hlen, hrcvd]
  unfold CookieServer.Distinguishes
  cases hissued : c.issued with
  | none =>
    simp only [CookieServer.Holds, hissued] at hc
    obtain ⟨hzero, hlen⟩ := hc
    rw [hzero, hlen, List.take_of_length_le (Nat.le_of_eq (size _)),
      List.take_of_length_le (Nat.le_of_eq (size _))]
    constructor
    · exact fun h heq => absurd (h (congrArg bytes heq)) nofun
    · exact fun h heq => absurd (ext_bytes heq) h
  | some cookie =>
    simp only [CookieServer.Holds, hissued] at hc
    obtain ⟨hsize, hlen, hfield⟩ := hc
    rw [hlen, hfield, store_take _ _ hsize]
    constructor
    · intro h
      by_cases heq : (receivedCookie buf p ++
          c.server.rcvd_cookie.bytes.drop (receivedCookie buf p).length).take cookie.length = cookie
      · exact .inl (congrArg List.length (Option.some.inj (h heq))).symm
      · exact .inr heq
    · rintro (hsame | hdiff) heq
      · rw [← hsame, List.take_left] at heq
        rw [heq]
      · exact absurd heq hdiff

variable {cookie_valid : Bool}

theorem helloLate_two {chosen : Bool} :
    Post buf s (helloLate cfg cookie_valid chosen) fun r _ => r = 2 → cookie_valid = true := by
  refine .ite (fun _ => .pure nofun) fun _ => .get (.guard fun _ => ?_)
  refine .guard fun _ => .pure ?_
  cases cookie_valid with
  | true => exact fun _ => rfl
  | false => exact nofun

theorem helloTail_two {ciphers : List ℕ} :
    Post buf s (helloTail cfg n p ciphers cookie_valid) fun r _ => r = 2 → cookie_valid = true := by
  refine .bind (parseTlsext_safe.post buf) fun _ _ _ => .guard fun _ => ?_
  refine .bind ((sessionSecret_safe (n := n)).post buf) fun _ _ _ => ?_
  exact .bind ((helloCipher_safe (n := n)).post buf) fun _ _ _ => helloLate_two

theorem helloCookie_true : Post buf s (helloCookie cfg n p) fun r _ => r.1 = true →
    0 < (buf p).toNat ∧ p + 1 + (buf p).toNat ≤ n := by
  refine .guard fun _ => .lift_bind ?_
  rintro _ ⟨⟩
  refine .guard fun _ => .guard fun hinside => .ite (fun hpos => ?_) fun _ => .pure nofun
  simp only [Bool.and_eq_true, decide_eq_true_eq] at hpos
  exact .lift_bind fun _ _ => .modify_bind (.get (.guard fun _ =>
    .pure fun _ => ⟨hpos.2, Nat.not_lt.mp hinside⟩))

theorem returns_two {again : Bool} {s' : Server}
    (h : (ssl3GetClientHello cfg again n s).run buf = (.ok 2, s')) :
    ∃ p s1, ReachesCookie cfg n buf s p s1 ∧ CookieValid cfg n buf p s1 := by
  cases again with
  | true =>
    obtain ⟨_, _, -, h⟩ := run_bind_ok.mp h
    exact absurd (helloLate_two _ _ h rfl) (by decide)
  | false =>
    obtain ⟨_, sv, hversion, h⟩ := run_bind_ok.mp h
    rw [run_lift_bind] at h
    cases hpeek : (peekCookie cfg).run buf with
    | true =>
      rw [hpeek] at h
      cases h
    | false =>
      rw [hpeek] at h
      obtain ⟨p, s1, hsession, h⟩ := run_bind_ok.mp h
      obtain ⟨⟨cookie_valid, q⟩, s2, hdtls, h⟩ := run_bind_ok.mp h
      have hvalid : cookie_valid = true := by
        obtain ⟨_, _, -, h⟩ := run_bind_ok.mp h
        obtain ⟨_, _, -, h⟩ := run_bind_ok.mp h
        exact helloTail_two _ _ h rfl
      subst hvalid
      rw [helloDtls, run_get_bind] at hdtls
      split_ifs at hdtls with his
      · obtain ⟨⟨cookie_valid, q'⟩, s3, hcookie, hdtls⟩ := run_bind_ok.mp hdtls
        obtain ⟨_, _, -, hpure⟩ := run_bind_ok.mp hdtls
        obtain ⟨hpair, -⟩ := run_pure_ok.mp hpure
        obtain ⟨rfl, rfl⟩ := Prod.mk.inj hpair
        obtain ⟨hpos, hinside⟩ := helloCookie_true _ _ hcookie rfl
        exact ⟨p, s1, ⟨⟨sv, hversion, hsession⟩, hpeek, his, hpos, hinside⟩, q', s3, hcookie⟩
      · cases (Prod.mk.inj (run_pure_ok.mp hdtls).1).1

/-- Over every connection, a cookie is treated as valid only if it is the one that was issued,
exactly for the cookies that the comparison distinguishes from it; the return value 2 comes only
from there. -/
theorem cookie_check (s₀ : Server) (events : List CookieEvent) (cfg : HelloConfig) (n : ℕ)
    (buf : ℕ → UInt8) (hexchange : cfg.cookie_exchange = true)
    (hcb : cfg.app_verify_cookie_cb = none) :
    let c := run CookieServer.step (.new s₀) events
    (∀ p s₁, ReachesCookie cfg n buf c.server p s₁ →
        ((CookieValid cfg n buf p s₁ → c.issued = some (receivedCookie buf p)) ↔
          c.Distinguishes (receivedCookie buf p))) ∧
      ∀ again s', (ssl3GetClientHello cfg again n c.server).run buf = (.ok 2, s') →
        ∃ p s₁, ReachesCookie cfg n buf c.server p s₁ ∧ CookieValid cfg n buf p s₁ :=
  have hholds := run_invariant_all CookieServer.holds_step events (.new s₀) ⟨rfl, rfl⟩
  ⟨fun _ _ hreach => valid_issued_iff hholds hexchange hcb hreach, fun _ _ h => returns_two h⟩

def cookieConfig : HelloConfig where
  keys := sampleKeys
  cookie_exchange := true
  generate_session_id _ := some [1]

def dtlsServer : Server := { version := dtls12Version, method_version := dtls12Version }

/-- A ClientHello for DTLS 1.2 with a cookie and one cipher. -/
def cookieHello (cookie : Bytes) : Bytes :=
  [0xfe, 0xfd] ++ List.replicate 32 1 ++ [0] ++ [UInt8.ofNat cookie.length] ++ cookie ++
    [0, 2, 0, 47] ++ [1, 0] ++ [0, 0]

/-- A zero byte is valid where no cookie has been issued, and so is a cookie longer than the one
issued, or one that completes itself with what is left of the one before. -/
theorem cookie_check_confused :
    let c := CookieServer.new dtlsServer
    let c₁ := c.step (.issue [1, 2] (by decide))
    let c₂ := c₁.step (.hello cookieConfig false 46 (bufferOf (cookieHello [1, 2]) 0))
    (c.issued = none ∧ ((ssl3GetClientHello cookieConfig false 45 c.server).run
        (bufferOf (cookieHello [0]) 0)).1 = .ok 2) ∧
      (c₁.issued = some [1, 2] ∧ ((ssl3GetClientHello cookieConfig false 47 c₁.server).run
        (bufferOf (cookieHello [1, 2, 3]) 0)).1 = .ok 2) ∧
      (c₂.issued = some [1, 2] ∧ ((ssl3GetClientHello cookieConfig false 45 c₂.server).run
        (bufferOf (cookieHello [1]) 0)).1 = .ok 2) := by
  decide +kernel

/-- The cookie that was issued. -/
theorem cookie_check_issued :
    let c := run CookieServer.step (.new dtlsServer) [.issue [1, 2] (by decide)]
    let buf := bufferOf (cookieHello [1, 2]) 0
    ∃ s₁, ReachesCookie cookieConfig 46 buf c.server 35 s₁ ∧
      CookieValid cookieConfig 46 buf 35 s₁ ∧ c.issued = some (receivedCookie buf 35) := by
  obtain ⟨p, s₁, hreach, hvalid⟩ := (cookie_check dtlsServer [.issue [1, 2] (by decide)]
    cookieConfig 46 (bufferOf (cookieHello [1, 2]) 0) rfl rfl).2 false _ rfl
  obtain rfl : p = 35 := hreach.start
  exact ⟨s₁, hreach, hvalid, ((cookie_check dtlsServer [.issue [1, 2] (by decide)] cookieConfig 46
    _ rfl rfl).1 35 s₁ hreach).mpr (.inl rfl) hvalid⟩

end VigorTls.Hello
