import VigorTls.Lib.Bytes

/-!
# Selecting a protocol

`SSL_select_next_proto` of `ssl/ssl_lib.c`, for lists of names behind a byte with their length;
reading behind the end is `none`. By `select_next_proto_iff` the function does what its comment
promises exactly when the client has a protocol at all: the fallback takes the first one without a
look at the length of the list.
-/

namespace VigorTls

open List UInt8

/-- `OPENSSL_NPN_UNSUPPORTED` is only a start value, and never returned. -/
inductive NpnStatus
  | negotiated
  | noOverlap

def sameProto : Bytes → Bytes → Option Bool
  | n :: server, m :: client =>
    if n = m then
      if server.length < n.toNat ∨ client.length < n.toNat then none
      else some (server.take n.toNat = client.take n.toNat)
    else some false
  | _, _ => none

/-- The inner loop, over the protocols of the client. -/
def clientLoop (server : Bytes) : Bytes → Option Bool
  | [] => some false
  | m :: client => do
    if ← sameProto server (m :: client) then return true
    clientLoop server (client.drop m.toNat)
termination_by client => client.length
decreasing_by simp only [length_drop, length_cons]; omega

/-- The outer loop, over those of the server: the place of the first match. -/
def serverLoop (client : Bytes) : Bytes → Option (Option Bytes)
  | [] => some none
  | n :: server => do
    if ← clientLoop (n :: server) client then return some (n :: server)
    serverLoop client (server.drop n.toNat)
termination_by server => server.length
decreasing_by simp only [length_drop, length_cons]; omega

/-- `SSL_select_next_proto`: the status, `*out` and `*outlen`. -/
def sslSelectNextProto (server client : Bytes) : Option (NpnStatus × Bytes × ℕ) := do
  let (result, status) := match ← serverLoop client server with
    | some found => (found, NpnStatus.negotiated)
    | none => (client, .noOverlap)
  match result with
  | [] => none
  | n :: out => some (status, out, n.toNat)

/-- A list of protocols on the wire. -/
def wire (protos : List Bytes) : Bytes :=
  protos.flatMap fun p => ofNat p.length :: p

/-- A byte can hold the lengths of the names; a name may even be empty. -/
def Named (protos : List Bytes) : Prop := ∀ p ∈ protos, p.length ≤ 255

variable {p : Bytes} {protos cprotos : List Bytes}

theorem toNat_length (hp : p.length ≤ 255) : (ofNat p.length).toNat = p.length :=
  toNat_ofNat_of_lt' (Nat.lt_succ_of_le hp)

theorem wire_cons (p : Bytes) (protos : List Bytes) :
    wire (p :: protos) = ofNat p.length :: (p ++ wire protos) := rfl

theorem sameProto_eq {q rest rest' : Bytes} (hp : p.length ≤ 255) (hq : q.length ≤ 255) :
    sameProto (ofNat p.length :: (p ++ rest)) (ofNat q.length :: (q ++ rest')) =
      some (decide (p = q)) := by
  rw [sameProto]
  by_cases hlen : p.length = q.length
  · have hin : ¬ ((p ++ rest).length < p.length ∨ (q ++ rest').length < p.length) := by
      rw [length_append, length_append]
      omega
    rw [if_pos (congrArg ofNat hlen), toNat_length hp, if_neg hin, take_left, take_left' hlen.symm]
  · have hne : ofNat p.length ≠ ofNat q.length := fun heq =>
      hlen ((toNat_length hp).symm.trans (heq ▸ toNat_length hq))
    rw [if_neg hne, decide_eq_false (fun h => hlen (congrArg List.length h))]

theorem clientLoop_eq {rest : Bytes} (hp : p.length ≤ 255) (hnamed : Named protos) :
    clientLoop (ofNat p.length :: (p ++ rest)) (wire protos) = some (decide (p ∈ protos)) := by
  induction protos with
  | nil => exact clientLoop.eq_1 _
  | cons q protos ih =>
    obtain ⟨hq, hnamed⟩ := forall_mem_cons.mp hnamed
    rw [wire_cons, clientLoop, sameProto_eq hp hq, toNat_length hq, drop_left, ih hnamed]
    by_cases hpq : p = q <;> simp [hpq]

theorem serverLoop_eq (hclient : Named cprotos) (hnamed : Named protos) :
    ∃ rest, serverLoop (wire cprotos) (wire protos) =
        some ((protos.find? (· ∈ cprotos)).map fun p => ofNat p.length :: (p ++ rest)) ∧
      ∀ p, protos.find? (· ∈ cprotos) = some p → p ++ rest <:+ wire protos := by
  induction protos with
  | nil => exact ⟨[], serverLoop.eq_1 _, nofun⟩
  | cons p protos ih =>
    obtain ⟨hp, hnamed⟩ := forall_mem_cons.mp hnamed
    rw [wire_cons, serverLoop, clientLoop_eq hp hclient, toNat_length hp, drop_left, find?_cons]
    by_cases hmem : p ∈ cprotos
    · rw [decide_eq_true hmem]
      refine ⟨wire protos, rfl, ?_⟩
      rintro _ ⟨⟩
      exact suffix_cons _ _
    · rw [decide_eq_false hmem]
      obtain ⟨rest, hfound, hsuffix⟩ := ih hnamed
      refine ⟨rest, hfound, fun p' hp' => ?_⟩
      exact ((hsuffix p' hp').trans (suffix_append p _)).trans (suffix_cons _ _)

/-- The answer is the first protocol of the server that the client has too, or else the first one of
the client, and lies in its list. -/
def Selected (server client : List Bytes) : Prop :=
  ∃ status out outlen, sslSelectNextProto (wire server) (wire client) = some (status, out, outlen) ∧
    outlen ≤ out.length ∧
    match server.find? (· ∈ client) with
    | some p => status = .negotiated ∧ out <:+ wire server ∧ out.take outlen = p
    | none => status = .noOverlap ∧ out <:+ wire client ∧ some (out.take outlen) = client.head?

/-- A protocol is selected as promised exactly when the client has one. -/
theorem select_next_proto_iff {server client : List Bytes} (hserver : Named server)
    (hclient : Named client) : Selected server client ↔ client ≠ [] := by
  obtain ⟨rest, hloop, hsuffix⟩ := serverLoop_eq hclient hserver
  unfold Selected sslSelectNextProto
  rw [hloop, Option.bind_eq_bind]
  cases hfind : server.find? (· ∈ client) with
  | some p =>
    have hlen := toNat_length (hserver p (mem_of_find?_eq_some hfind))
    have hne : client ≠ [] := by
      rintro rfl
      simpa using find?_some hfind
    refine iff_of_true ⟨_, _, _, rfl, ?_, rfl, hsuffix p hfind, ?_⟩ hne
    · exact Nat.le_trans (Nat.le_of_eq hlen) (length_append ▸ Nat.le_add_right _ _)
    · rw [hlen, take_left]
  | none =>
    cases client with
    | nil =>
      -- The length of the first protocol of the client is read from an empty list.
      exact iff_of_false (fun ⟨_, _, _, hsel, _⟩ => nomatch hsel) (not_not_intro rfl)
    | cons p client =>
      have hlen := toNat_length (hclient p mem_cons_self)
      refine iff_of_true ⟨_, _, _, rfl, ?_, rfl, suffix_cons _ _, ?_⟩ (cons_ne_nil _ _)
      · exact Nat.le_trans (Nat.le_of_eq hlen) (length_append ▸ Nat.le_add_right _ _)
      · exact congrArg some (take_left' hlen.symm)

/-- A server with the protocol `a` and a client with none: the length of the client's first protocol
is read behind the end of its list. -/
theorem select_next_proto_empty :
    sslSelectNextProto (wire [[97]]) (wire []) = none ∧ ¬ Selected [[97]] [] := by
  have hnone : sslSelectNextProto (wire [[97]]) (wire []) = none := by
    simp [sslSelectNextProto, wire, serverLoop, clientLoop]
  refine ⟨hnone, ?_⟩
  rintro ⟨status, out, outlen, hsome, -⟩
  cases hnone.symm.trans hsome

/-- A client with `b` and `a`. -/
theorem select_next_proto_second : Selected [[97]] [[98], [97]] :=
  (select_next_proto_iff (by simp [Named]) (by simp [Named])).mpr (by decide)

end VigorTls
