import VigorTls.X509.Extensions
import VigorTls.X509.NameConstraints
import VigorTls.X509.Search
import Mathlib.Logic.Function.Basic

/-!
# Verification

The second half of `X509_verify_cert`: the chain that was found is checked (`checkChain`), and
`internal_verify` walks it from its end for the signatures. A certificate whose signature was
checked once is marked and never checked again.
-/

namespace VigorTls.X509

open Lib List Sum

variable {X K : Type}

/-- The `valid` flags of all certificate objects. -/
abbrev Marks (X : Type) := X → Bool

section Walk

variable [DecidableEq X] (o : Objects X K) (w : Walk X)

/-- The signature of `xs` with the key of `xi`, unless that is passed over. -/
def checkSignature (marks : Marks X) (e : Complaint X) (xi xs : X) :
    Except (Complaint X) (Complaint X) :=
  if ¬ marks xs ∧ (xs ≠ xi ∨ w.flags.check_ss_signature) then
    match o.pubkey xi with
    | none =>
      complain w.cb { e with error := .unableToDecodeIssuerPublicKey, current_cert := some xi }
    | some pkey =>
      if o.verify xs pkey then .ok e
      else complain w.cb { e with error := .certSignatureFailure, current_cert := some xs }
  else .ok e

omit [DecidableEq X] in
/-- The part of the loop from `check_cert` on. -/
def checkCert (e : Complaint X) (xi xs : X) : Except (Complaint X) (Complaint X) := do
  let e ← x509CheckCertTime w.cb w.not_before w.not_after e xs false
  let e := { e with current_issuer := some xi, current_cert := some xs }
  if w.cb true e then pure e else throw e

/-- The loop of `internal_verify`, with `xs` and the certificates below it. -/
def verifyFrom : Marks X → Complaint X → X → List X →
    Marks X × Except (Complaint X) (Complaint X)
  | marks, e, _, [] => (marks, .ok e)
  | marks, e, xi, xs :: below =>
    match checkSignature o w marks { e with error_depth := below.length } xi xs with
    | .error e => (marks, .error e)
    | .ok e =>
      let marks := Function.update marks xs true
      match checkCert w e xi xs with
      | .error e => (marks, .error e)
      | .ok e => verifyFrom marks e xs below

def internalVerify (marks : Marks X) : Marks X × Except (Complaint X) (Complaint X) :=
  match w.chain.reverse with
  | [] => (marks, .error w.e)
  | xi :: below =>
    match checkIssued o w.flags w.cb { w.e with error_depth := below.length } xi xi with
    | (true, e) => verifyFrom o w marks e xi (xi :: below)
    | (false, e) =>
      if w.flags.partial_chain then
        match checkCert w e xi xi with
        | .error e => (marks, .error e)
        | .ok e => verifyFrom o w marks e xi below
      else if below = [] then
        (marks, complain w.cb
          { e with error := .unableToVerifyLeafSignature, current_cert := some xi })
      else verifyFrom o w marks e xi below

end Walk

/-! ## Verification of a chain -/

/-- What a run leaves in its context, with its result; there is none if a null pointer is used. -/
structure Result (X : Type) where
  ok : Option ℤ
  chain : List X
  last_untrusted : ℕ
  e : Complaint X

def Search.result (s : Search X) (ok : ℤ) (e : Complaint X) : Result X :=
  ⟨some ok, s.chain, s.last_untrusted, e⟩

/-- A chain that is not trusted: with the self-signed certificate that was put aside, if it fits. -/
def completeChain (o : Objects X K) (ctx : StoreCtx X) (trust : Trust) (s : Search X) :
    Search X × Except (Complaint X) (Complaint X) :=
  if trust ≠ .trusted ∧ ¬ s.bad_chain then
    let fits : Option X × Complaint X :=
      match s.chain_ss, s.x with
      | some chain_ss, some x =>
        match checkIssued o ctx.flags ctx.cb s.e x chain_ss with
        | (true, e) => (some chain_ss, e)
        | (false, e) => (none, e)
      | _, _ => (none, s.e)
    match fits with
    | (none, e) =>
      let error := if s.last_untrusted ≥ s.num then Code.unableToGetIssuerCertLocally
        else .unableToGetIssuerCert
      let e := { e with error := error, current_cert := s.x, error_depth := s.num - 1 }
      ({ s with bad_chain := true, e := e }, complain ctx.cb e)
    | (some chain_ss, e) =>
      let e := { e with error := .selfSignedCertInChain, current_cert := some chain_ss
                        error_depth := s.num }
      ({ s with
          bad_chain := true
          e := e
          chain := s.chain ++ [chain_ss]
          num := s.num + 1
          last_untrusted := s.num + 1
          chain_ss := none }, complain ctx.cb e)
  else (s, .ok s.e)

variable (ctx : StoreCtx X)

def checkId (cert : X) (e : Complaint X) : Except (Complaint X) (Complaint X) := do
  let e ← reportIf (ctx.hosts.any (· ≤ 0)) ctx.cb e .hostnameMismatch 0 cert
  let e ← reportIf (ctx.email.any (· ≤ 0)) ctx.cb e .emailMismatch 0 cert
  reportIf (ctx.ip.any (· ≤ 0)) ctx.cb e .ipAddressMismatch 0 cert

/-- The checks of a chain before revocation. -/
def checkChain (o : Objects X K) (ctx : StoreCtx X) (cert : X) (s : Search X) (e : Complaint X) :
    Except (Complaint X) (Complaint X) := do
  let e ← checkChainExtensions o ctx s.chain s.last_untrusted e
  let e ← checkNameConstraints o ctx.cb s.chain e
  checkId ctx cert e

/-- `X509_chain_check_suiteb` with its complaint. -/
def checkSuiteb (chain : List X) (e : Complaint X) : Except (Complaint X) (Complaint X) :=
  let (err, depth) := ctx.check_suiteb chain
  if err ≠ .ok then
    complain ctx.cb { e with error := err, error_depth := depth, current_cert := chain[depth]? }
  else .ok e

/-- What `internal_verify` finds for a chain in a context. -/
def StoreCtx.walk (chain : List X) (e : Complaint X) : Walk X :=
  ⟨chain, ctx.flags, ctx.cb, ctx.not_before, ctx.not_after, e⟩

section Verify

variable [DecidableEq X] (o : Objects X K)

/-- `internal_verify` time after time. -/
def walks (marks : Marks X) (ws : List (Walk X)) : Marks X :=
  run (fun marks w => (internalVerify o w marks).1) marks ws

variable (ctx : StoreCtx X)

/-- `X509_verify_cert` up to `check_revocation`: it returns, or has a chain. -/
def prepare : Result X ⊕ Search X × Complaint X :=
  let unused : Complaint X := ⟨.ok, 0, none, none⟩
  match ctx.cert with
  | none => .inl ⟨some (-1), ctx.chain.getD [], 0, unused⟩
  | some cert =>
    if ctx.chain.isSome then .inl ⟨some (-1), ctx.chain.getD [], 0, unused⟩
    else
      match search o ctx cert with
      | .stopped ok s => .inl (s.result (if ok > 0 then 0 else ok) s.e)
      | .found trust s =>
        match completeChain o ctx trust s with
        | (s, .error e) => .inl (s.result 0 e)
        | (s, .ok e) =>
          match checkChain o ctx cert s e with
          | .error e => .inl (s.result 0 e)
          | .ok e => .inr (s, e)
      | _ => .inl ⟨none, [], 0, unused⟩

/-- The rest, after `check_revocation`. -/
def finish (marks : Marks X) (s : Search X) (e : Complaint X) : Marks X × Result X :=
  match checkSuiteb ctx s.chain e with
  | .error e => (marks, s.result 0 e)
  | .ok e =>
    match internalVerify o (ctx.walk s.chain e) marks with
    | (marks, .error e) => (marks, s.result 0 e)
    | (marks, .ok e) =>
      if ¬ s.bad_chain ∧ ctx.flags.policy_check then
        match ctx.check_policy s.chain e with
        | .error e => (marks, s.result 0 e)
        | .ok e => (marks, s.result 1 e)
      else (marks, s.result 1 e)

/-- The flags with which a run gets to the signatures of its chain. -/
def marksBefore (marks : Marks X) : Marks X :=
  match prepare o ctx with
  | .inl _ => marks
  | .inr (s, e) => walks o marks (ctx.check_revocation s.chain e).1

def x509VerifyCert (marks : Marks X) : Marks X × Result X :=
  match prepare o ctx with
  | .inl r => (marks, r)
  | .inr (s, e) =>
    let (ws, revoked) := ctx.check_revocation s.chain e
    let marks := walks o marks ws
    match revoked with
    | .error e => (marks, s.result 0 e)
    | .ok e => finish o ctx marks s e

end Verify

/-- The signature of `x` verifies under the key of `y`. -/
def Verifies (o : Objects X K) (x y : X) : Prop :=
  ∃ pkey, o.pubkey y = some pkey ∧ o.verify x pkey

variable {e e' : Complaint X}

section Checked

variable [DecidableEq X] {o : Objects X K} {w : Walk X} {marks : Marks X}

theorem checkSignature_ok (hcb : Transparent w.cb) {xi xs : X}
    (h : checkSignature o w marks e xi xs = .ok e') : marks xs ∨ xs = xi ∨ Verifies o xs xi := by
  rw [checkSignature] at h
  split at h
  · split at h
    · rw [complain_of_transparent hcb] at h
      exact nomatch h
    next pkey hpkey =>
    split at h
    · next hverify => exact .inr (.inr ⟨pkey, hpkey, hverify⟩)
    · rw [complain_of_transparent hcb] at h
      exact nomatch h
  · next hskip =>
    by_cases hmark : marks xs
    · exact .inl hmark
    · have hsame : ¬ (xs ≠ xi ∨ w.flags.check_ss_signature) := fun h => hskip ⟨hmark, h⟩
      exact .inr (.inl (not_not.mp (not_or.mp hsame).1))

theorem verifyFrom_checked (hcb : Transparent w.cb) {xi : X} {todo : List X}
    (h : (verifyFrom o w marks e xi todo).2 = .ok e') {above below : List X} {y x : X}
    (hsplit : xi :: todo = above ++ y :: x :: below) :
    marks x ∨ x ∈ above ++ [y] ∨ Verifies o x y := by
  induction todo generalizing marks e xi above with
  | nil =>
    have hlen := congrArg List.length hsplit
    simp only [length_cons, length_append, length_nil] at hlen
    omega
  | cons xs rest ih =>
    rw [verifyFrom] at h
    split at h
    · exact nomatch h
    next hsig =>
    split at h
    · exact nomatch h
    rcases cons_eq_append_iff.mp hsplit with ⟨rfl, hcons⟩ | ⟨above, rfl, hcons⟩
    · -- the two at the top
      obtain ⟨rfl, hrest⟩ := List.cons.inj hcons
      obtain ⟨rfl, -⟩ := List.cons.inj hrest
      rcases checkSignature_ok hcb hsig with hmark | rfl | hverify
      · exact .inl hmark
      · exact .inr (.inl (by simp))
      · exact .inr (.inr hverify)
    have hxs : xs ∈ above ++ [y] := by
      cases above with
      | nil => exact mem_singleton.mpr (List.cons.inj hcons).1
      | cons a above => exact (List.cons.inj hcons).1 ▸ mem_cons_self
    rcases ih h hcons with hmark | hmem | hverify
    · rw [Function.update_apply] at hmark
      split at hmark
      · next heq => exact .inr (.inl (mem_cons_of_mem _ (heq ▸ hxs)))
      · exact .inl hmark
    · exact .inr (.inl (mem_cons_of_mem _ hmem))
    · exact .inr (.inr hverify)

theorem internalVerify_checked (hcb : Transparent w.cb) (h : (internalVerify o w marks).2 = .ok e)
    {i : ℕ} {x y : X} (hx : w.chain[i]? = some x) (hy : w.chain[i + 1]? = some y) :
    marks x ∨ x ∈ w.chain.drop (i + 1) ∨ Verifies o x y := by
  obtain ⟨hlt, rfl⟩ := List.getElem?_eq_some_iff.mp hy
  obtain ⟨_, rfl⟩ := List.getElem?_eq_some_iff.mp hx
  have hdrop := drop_eq_getElem_cons hlt
  have hchain : w.chain = w.chain.take i ++ w.chain[i] :: w.chain[i + 1] ::
      w.chain.drop (i + 1 + 1) := by
    rw [← hdrop, ← drop_eq_getElem_cons, take_append_drop]
  have hreverse : w.chain.reverse = (w.chain.drop (i + 1 + 1)).reverse ++ w.chain[i + 1] ::
      w.chain[i] :: (w.chain.take i).reverse := by
    simp
  have habove : (w.chain.drop (i + 1 + 1)).reverse ++ [w.chain[i + 1]] =
      (w.chain.drop (i + 1)).reverse := by
    rw [hdrop, reverse_cons]
  -- what the loop says, from whichever of the last two certificates it starts
  have hloop : ∀ {e1 xi todo}, (verifyFrom o w marks e1 xi todo).2 = .ok e →
      xi :: todo = w.chain.reverse →
      marks w.chain[i] ∨ w.chain[i] ∈ w.chain.drop (i + 1) ∨
        Verifies o w.chain[i] w.chain[i + 1] := by
    intro e1 xi todo hverify htodo
    have hchecked := verifyFrom_checked hcb hverify (htodo.trans hreverse)
    rw [habove, mem_reverse] at hchecked
    exact hchecked
  rw [internalVerify] at h
  split at h
  · exact nomatch h
  next xi below hbelow =>
  split at h
  · next e1 _ =>
    -- the last certificate is gone through as its own issuer first
    rw [hbelow] at hreverse
    have htwice : xi :: xi :: below = (xi :: (w.chain.drop (i + 1 + 1)).reverse) ++
        w.chain[i + 1] :: w.chain[i] :: (w.chain.take i).reverse := by
      rw [hreverse, cons_append]
    have hchecked := verifyFrom_checked hcb h htwice
    have hxi : xi ∈ w.chain.drop (i + 1) := by
      rw [← mem_reverse, ← habove]
      cases hrev : (w.chain.drop (i + 1 + 1)).reverse with
      | nil =>
        rw [hrev] at hreverse
        exact mem_singleton.mpr (List.cons.inj hreverse).1
      | cons a rest =>
        rw [hrev] at hreverse
        exact (List.cons.inj hreverse).1 ▸ mem_cons_self
    rw [cons_append, habove, mem_cons, mem_reverse] at hchecked
    rcases hchecked with hmark | (heq | hmem) | hverify
    · exact .inl hmark
    · exact .inr (.inl (heq ▸ hxi))
    · exact .inr (.inl hmem)
    · exact .inr (.inr hverify)
  · split at h
    · split at h
      · exact nomatch h
      · exact hloop h hbelow.symm
    · split at h
      · rw [complain_of_transparent hcb] at h
        exact nomatch h
      · exact hloop h hbelow.symm

end Checked

section Accepted

variable [DecidableEq X] {o : Objects X K} {ctx : StoreCtx X} {marks : Marks X} {s : Search X}

omit [DecidableEq X] in
theorem completeChain_ok (hcb : Transparent ctx.cb) {trust : Trust} {t : Search X}
    (hbad : s.bad_chain = false) (h : completeChain o ctx trust s = (t, .ok e)) :
    trust = .trusted ∧ t = s ∧ e = s.e := by
  rw [completeChain] at h
  split at h
  · dsimp only at h
    split at h <;> exact nomatch complain_of_transparent hcb ▸ (Prod.mk.inj h).2
  next hnot =>
  obtain ⟨rfl, he⟩ := Prod.mk.inj h
  refine ⟨?_, rfl, (Except.ok.inj he).symm⟩
  by_contra hne
  exact hnot ⟨hne, by rw [hbad]; exact Bool.false_ne_true⟩

theorem prepare_ready (hcb : Transparent ctx.cb) (h : prepare o ctx = .inr (s, e)) :
    ∃ cert, ctx.cert = some cert ∧ search o ctx cert = .found .trusted s ∧
      checkChain o ctx cert s s.e = .ok e := by
  rw [prepare] at h
  split at h
  · exact nomatch h
  next cert hcert =>
  split at h
  · exact nomatch h
  have hbad := search_notBad (o := o) cert hcb
  split at h
  · exact nomatch h
  · next trust t hsearch =>
    rw [hsearch] at hbad
    split at h
    · exact nomatch h
    next t' e' hcomplete =>
    obtain ⟨rfl, rfl, rfl⟩ := completeChain_ok hcb hbad hcomplete
    split at h
    · exact nomatch h
    · next e'' hchain =>
      obtain ⟨rfl, rfl⟩ := Prod.mk.inj (inr.inj h)
      exact ⟨cert, hcert, hsearch, hchain⟩
  · exact nomatch h

omit [DecidableEq X] in
theorem result_ok_ne {ok : ℤ} (hok : ok ≠ 1) :
    (s.result ok e).ok ≠ some 1 := fun h => hok (Option.some.inj h)

theorem prepare_returned {r : Result X} (h : prepare o ctx = .inl r) : r.ok ≠ some 1 := by
  rw [prepare] at h
  split at h
  · rw [← inl.inj h]
    exact fun hone => absurd (Option.some.inj hone) (by decide)
  split at h
  · rw [← inl.inj h]
    exact fun hone => absurd (Option.some.inj hone) (by decide)
  split at h
  · next ok s _ =>
    rw [← inl.inj h]
    exact result_ok_ne (by split <;> omega)
  · split at h
    · rw [← inl.inj h]
      exact result_ok_ne (by decide)
    · split at h
      · rw [← inl.inj h]
        exact result_ok_ne (by decide)
      · exact nomatch h
  · rw [← inl.inj h]
    exact nofun

theorem finish_accepted (h : (finish o ctx marks s e).2.ok = some 1) :
    (∃ e1 e2, (internalVerify o (ctx.walk s.chain e1) marks).2 = .ok e2) ∧
      (finish o ctx marks s e).2.chain = s.chain ∧
      (finish o ctx marks s e).2.last_untrusted = s.last_untrusted := by
  rw [finish] at h ⊢
  split at h
  · exact absurd h (result_ok_ne (by decide))
  next e1 _ =>
  split at h
  · exact absurd h (result_ok_ne (by decide))
  next marks' e2 hwalk =>
  refine ⟨⟨e1, e2, by rw [hwalk]⟩, ?_⟩
  split
  · split <;> exact ⟨rfl, rfl⟩
  · exact ⟨rfl, rfl⟩

/-- What a run that returns 1 has gone through. -/
structure Accepted (o : Objects X K) (ctx : StoreCtx X) (marks : Marks X) (cert : X)
    (s : Search X) : Prop where
  found : search o ctx cert = .found .trusted s
  chain_eq : (x509VerifyCert o ctx marks).2.chain = s.chain
  last_untrusted_eq : (x509VerifyCert o ctx marks).2.last_untrusted = s.last_untrusted
  passed : ∀ i x, i < s.last_untrusted → s.chain[i]? = some x →
    Passed o ctx (ExtState.after o s.e (s.chain.take i)) i x
  obeys : ChainObeys o s.chain
  checked : ∀ i x y, s.chain[i]? = some x → s.chain[i + 1]? = some y →
    marksBefore o ctx marks x ∨ x ∈ s.chain.drop (i + 1) ∨ Verifies o x y

/-- A result of 1 means that all this has been gone through. -/
theorem x509VerifyCert_accepted (hcb : Transparent ctx.cb)
    (h : (x509VerifyCert o ctx marks).2.ok = some 1) :
    ∃ cert s, ctx.cert = some cert ∧ Accepted o ctx marks cert s := by
  cases hprepare : prepare o ctx with
  | inl r =>
    rw [x509VerifyCert, hprepare] at h
    exact absurd h (prepare_returned hprepare)
  | inr ready =>
    obtain ⟨s, e⟩ := ready
    obtain ⟨cert, hcert, hsearch, hchain⟩ := prepare_ready hcb hprepare
    obtain ⟨e1, hext, hchain⟩ := bind_eq_ok.mp hchain
    obtain ⟨e2, hnames, -⟩ := bind_eq_ok.mp hchain
    obtain ⟨rfl, hpassed⟩ := checkChainExtensions_passed hcb hext
    obtain ⟨-, hobeys⟩ := chainObeys_of_ok hcb hnames
    cases hrevoked : (ctx.check_revocation s.chain e).2 with
    | error e' =>
      simp only [x509VerifyCert, hprepare, hrevoked] at h
      exact absurd h (result_ok_ne (by decide))
    | ok e' =>
      have hrun : x509VerifyCert o ctx marks = finish o ctx (marksBefore o ctx marks) s e' := by
        simp only [x509VerifyCert, marksBefore, hprepare, hrevoked]
      rw [hrun] at h
      obtain ⟨⟨e1, e2, hwalk⟩, hchain_eq, hlast_eq⟩ := finish_accepted h
      refine ⟨cert, s, hcert, hsearch, by rw [hrun, hchain_eq], by rw [hrun, hlast_eq], hpassed,
        hobeys, fun i x y hx hy => ?_⟩
      have hw : Transparent (ctx.walk s.chain e1).cb := hcb
      exact internalVerify_checked hw hwalk hx hy

end Accepted

end VigorTls.X509
