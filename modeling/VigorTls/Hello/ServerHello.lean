import VigorTls.Hello.Walkers

/-!
# The extensions of a ServerHello

`ssl_scan_serverhello_tlsext` of `ssl/t1_lib.c`, and the end of `ssl3_get_server_hello`. Where an
extension is longer than what remains, or the tail has one or two bytes, the scan succeeds but does
not move `*p`. `ssl3_get_server_hello` compares `p` with the end of the message, and so takes only
an empty tail and a well-formed block (`server_hello_grammar`).
-/

namespace VigorTls.Hello

open Lib Parser

variable {σ : Type} {buf : ℕ → UInt8} {s : σ} {e n limit fuel data : ℕ}

/-- What a client does with the extensions of a server. An alert is a failure. -/
structure ServerExtensions (σ : Type) where
  /-- What is cleared before the scan. -/
  clear : σ → σ
  /-- The branches for the types, with the data of the extension and its size. -/
  branch : ℕ → ℕ → ℕ → Parser σ ℕ Unit
  /-- Behind the loop, with `tlsext_servername`. -/
  saveHostname : Bool → Parser σ ℕ Unit
  check : Parser σ ℕ Unit
  legacy_server_connect : Bool

namespace ServerExtensions

variable (x : ServerExtensions σ)

/-- The loop: where it ends, none for the jump to `ri_check`. -/
def scanLoop (limit : ℕ) : ℕ → ℕ → Bool → Bool → Parser σ ℕ (Option ℕ × Bool × Bool)
  | 0, data, tlsext_servername, renegotiate_seen =>
    return (some data, tlsext_servername, renegotiate_seen)
  | fuel + 1, data, tlsext_servername, renegotiate_seen =>
    if data + 4 ≤ limit then do
      let type ← n2s data
      let size ← n2s (data + 2)
      if data + 4 + size > limit then return (none, tlsext_servername, renegotiate_seen)
      else do
        x.branch type (data + 4) size
        scanLoop limit fuel (data + 4 + size) (tlsext_servername || type = tlsextTypeServerName)
          (renegotiate_seen || type = tlsextTypeRenegotiate)
    else return (some data, tlsext_servername, renegotiate_seen)

/-- `ri_check`, with the result `*p`. -/
def riCheck (renegotiate_seen : Bool) (p : ℕ) : Parser σ ℕ ℕ :=
  if !renegotiate_seen && !x.legacy_server_connect then fail sslAdHandshakeFailure else return p

/-- `ssl_scan_serverhello_tlsext`; the result is `*p`. -/
def sslScanServerhelloTlsext (p limit : ℕ) : Parser σ ℕ ℕ := do
  modify x.clear
  if p + 2 ≥ limit then x.riCheck false p
  else do
    let length ← n2s p
    if p + 2 + length ≠ limit then fail sslAdDecodeError
    else do
      let (stop, tlsext_servername, renegotiate_seen) ← x.scanLoop limit limit (p + 2) false false
      match stop with
      | none => x.riCheck renegotiate_seen p
      | some data =>
        if data ≠ limit then fail sslAdDecodeError
        else do
          x.saveHostname tlsext_servername
          x.riCheck renegotiate_seen data

/-- `ssl3_get_server_hello` from the extensions on. -/
def ssl3GetServerHelloTail (p limit : ℕ) : Parser σ ℕ Unit := do
  let p ← x.sslScanServerhelloTlsext p limit
  x.check
  if p ≠ limit then fail sslAdDecodeError

end ServerExtensions

open ServerExtensions

variable {x : ServerExtensions σ}

theorem serverLoop_post {sn rn : Bool} : Post buf s (x.scanLoop limit fuel data sn rn) fun r _ =>
    ∃ stop exts, Exts buf data stop exts ∧
      (r.1 = some stop ∨ r.1 = none ∧ stop + 4 ≤ limit ∧ Stuck buf limit stop) := by
  induction fuel generalizing data sn rn s with
  | zero => exact .pure ⟨data, [], .nil data, .inl rfl⟩
  | succ fuel ih =>
    refine .ite (fun h4 => ?_) fun _ => .pure ⟨data, [], .nil data, .inl rfl⟩
    refine .lift_bind fun type htype => .lift_bind fun size hsize => .ite (fun hlong => ?_) ?_
    · subst hsize
      exact .pure ⟨data, [], .nil data, .inr ⟨rfl, h4, hlong⟩⟩
    · subst htype hsize
      refine fun _ => .bind (Q := fun _ _ => True) (fun _ _ _ => trivial) fun _ s' _ => ?_
      refine ih.mono fun r _ ⟨stop, exts, hexts, hr⟩ => ⟨stop, _, .cons hexts, hr⟩

theorem serverRiCheck_post {rn : Bool} {p : ℕ} : Post buf s (x.riCheck rn p) fun r _ => r = p :=
  .guard fun _ => .pure rfl

/-- Where the scan leaves `*p`: at the end of a well-formed block, or where it was. -/
def ScanEnds (buf : ℕ → UInt8) (e n p : ℕ) : Prop :=
  (p = n ∧ ∃ exts, Block buf e n exts) ∨
    p = e ∧ (n ≤ e + 2 ∨ e + 2 + be16 buf e = n ∧
      ∃ exts stop, Exts buf (e + 2) stop exts ∧ stop + 4 ≤ n ∧ Stuck buf n stop)

theorem serverScan_post :
    Post buf s (x.sslScanServerhelloTlsext e n) fun p _ => ScanEnds buf e n p := by
  refine .modify_bind (.ite (fun h2 => ?_) fun _ => ?_)
  · exact serverRiCheck_post.mono fun p _ hp => .inr ⟨hp, .inl h2⟩
  refine .lift_bind fun length hlength => .guard fun hlen => ?_
  subst hlength
  have hlen := not_not.mp hlen
  refine serverLoop_post.bind fun ⟨r, _, rn⟩ s' ⟨stop, exts, hexts, hr⟩ => ?_
  obtain rfl | ⟨rfl, h4, hstuck⟩ := hr
  · refine .guard fun hstop => ?_
    obtain rfl := not_not.mp hstop
    refine .bind (Q := fun _ _ => True) (fun _ _ _ => trivial) fun _ _ _ => ?_
    exact serverRiCheck_post.mono fun p _ hp => .inl ⟨hp, exts, hlen, hexts⟩
  · exact serverRiCheck_post.mono fun p _ hp =>
    .inr ⟨hp, .inr ⟨hlen, exts, stop, hexts, h4, hstuck⟩⟩

/-- A ServerHello is only taken with no extensions, or with a block of complete ones that fills the
message. The scan alone also succeeds without moving `*p`. -/
theorem server_hello_grammar (x : ServerExtensions σ) (buf : ℕ → UInt8) (s : σ) (e n : ℕ) :
    (Post buf s (x.ssl3GetServerHelloTail e n) fun _ _ => e = n ∨ ∃ exts, Block buf e n exts) ∧
      Post buf s (x.sslScanServerhelloTlsext e n) fun p _ => ScanEnds buf e n p := by
  refine ⟨serverScan_post.bind fun p _ hp => ?_, serverScan_post⟩
  refine .bind (Q := fun _ _ => True) (fun _ _ _ => trivial) fun _ _ _ => ?_
  refine .guard fun hend => .pure ?_
  obtain rfl := not_not.mp hend
  exact hp.elim (fun h => .inr h.2) fun h => .inl h.1.symm

/-- A client that does nothing with the extensions. -/
def ignoring : ServerExtensions Unit :=
  ⟨id, fun _ _ _ => pure (), fun _ => pure (), pure (), true⟩

/-- The scan alone succeeds where an extension of one byte has no data. -/
theorem server_scan_oversized :
    let buf : ℕ → UInt8 := fun i => [0, 4, 0, 35, 0, 1].getD i 0
    (ignoring.sslScanServerhelloTlsext 0 6 ()).run buf = (.ok 0, ()) ∧
      ¬ ∃ exts, Block buf 0 6 exts := by
  refine ⟨rfl, fun ⟨exts, _, hexts⟩ => ?_⟩
  cases hexts with
  | cons h => exact absurd h.le (by decide)

end VigorTls.Hello
