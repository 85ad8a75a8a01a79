import VigorTls.X509.Context
import Mathlib.Data.List.Count

/-!
# The extensions of a chain

`check_chain_extensions` looks at the certificates below `last_untrusted` one after the other, with
a count of those that are not self-issued. Every certificate has passed with the values of those
before (`checkChainExtensions_passed`), so all but the first are CAs (`ca_of_passed`). The count has
the first certificate in it, and a self-issued one is not checked (`pathlen_of_passed`).
-/

namespace VigorTls.X509

open List

variable {X K : Type}

/-- The local variables of the loop. -/
structure ExtState (X : Type) where
  must_be_ca : ℤ
  plen : ℕ
  proxy_path_length : ℕ
  e : Complaint X

/-- The `switch` on `must_be_ca`. -/
def caCode (strict : Bool) (must_be_ca : ℤ) (ret : ℕ) : Option Code :=
  if must_be_ca = -1 then if strict ∧ ret ≠ 1 ∧ ret ≠ 0 then some .invalidCa else none
  else if must_be_ca = 0 then if ret ≠ 0 then some .invalidNonCa else none
  else if ret = 0 ∨ strict ∧ ret ≠ 1 then some .invalidCa else none

variable (o : Objects X K)

/-- The check of a certificate's purpose fails. -/
def badPurpose (ctx : StoreCtx X) (must_be_ca : ℤ) (x : X) : Prop :=
  let purpose := if ctx.parent then x509PurposeCrlSign else ctx.purpose
  let ret := o.check_purpose x purpose (must_be_ca > 0)
  ctx.purpose > 0 ∧ (ret = 0 ∨ ctx.flags.x509_strict ∧ ret ≠ 1)

instance (ctx : StoreCtx X) (must_be_ca : ℤ) (x : X) :
    Decidable (badPurpose o ctx must_be_ca x) :=
  inferInstanceAs (Decidable (_ ∧ _))

/-- The test of a path length. The sum is one of a `long`, and wraps at `LONG_MAX`. -/
def pathTooLong (c : Cached) (st : ExtState X) (i : ℕ) : Prop :=
  i > 1 ∧ ¬ c.si ∧ c.ex_pathlen ≠ -1 ∧
    (st.plen : ℤ) > (c.ex_pathlen + st.proxy_path_length + 1).bmod (2 ^ 64)

instance (c : Cached) (st : ExtState X) (i : ℕ) : Decidable (pathTooLong c st i) :=
  inferInstanceAs (Decidable (_ ∧ _))

/-- A round of the loop of `check_chain_extensions`. -/
def checkExtensions (ctx : StoreCtx X) (st : ExtState X) (i : ℕ) (x : X) :
    Except (Complaint X) (ExtState X) := do
  let c := x509v3CacheExtensions (o.info x)
  let allow_proxy_certs := ! ctx.parent && ctx.flags.allow_proxy_certs
  let e ← reportIf (¬ ctx.flags.ignore_critical ∧ c.critical) ctx.cb st.e
    .unhandledCriticalExtension i x
  let e ← reportIf (¬ allow_proxy_certs ∧ c.proxy) ctx.cb e .proxyCertificatesNotAllowed i x
  let code := caCode ctx.flags.x509_strict st.must_be_ca (x509CheckCa (o.info x))
  let e ← reportIf code.isSome ctx.cb e (code.getD .ok) i x
  let e ← reportIf (badPurpose o ctx st.must_be_ca x) ctx.cb e .invalidPurpose i x
  let e ← reportIf (pathTooLong c st i) ctx.cb e .pathLengthExceeded i x
  let plen := if c.si then st.plen else st.plen + 1
  if c.proxy then
    let e ← reportIf (c.ex_pcpathlen ≠ -1 ∧ i > c.ex_pcpathlen) ctx.cb e
      .proxyPathLengthExceeded i x
    pure ⟨0, plen, st.proxy_path_length + 1, e⟩
  else pure ⟨1, plen, st.proxy_path_length, e⟩

def checkExtensionsFrom (o : Objects X K) (ctx : StoreCtx X) :
    ExtState X → ℕ → List X → Except (Complaint X) (Complaint X)
  | st, _, [] => .ok st.e
  | st, i, x :: xs => do
    let st ← checkExtensions o ctx st i x
    checkExtensionsFrom o ctx st (i + 1) xs

def checkChainExtensions (ctx : StoreCtx X) (chain : List X) (last_untrusted : ℕ)
    (e : Complaint X) : Except (Complaint X) (Complaint X) :=
  checkExtensionsFrom o ctx ⟨-1, 0, 0, e⟩ 0 (chain.take last_untrusted)

abbrev selfIssued (x : X) : Bool := (x509v3CacheExtensions (o.info x)).si

abbrev isProxy (x : X) : Bool := (x509v3CacheExtensions (o.info x)).proxy

/-- The variables after the certificates `xs`. -/
def ExtState.after (e : Complaint X) (xs : List X) : ExtState X where
  must_be_ca := match xs.getLast? with
    | none => -1
    | some x => if isProxy o x then 0 else 1
  plen := xs.countP (! selfIssued o ·)
  proxy_path_length := xs.countP (isProxy o)
  e := e

/-- A certificate that a round lets pass. -/
structure Passed (ctx : StoreCtx X) (st : ExtState X) (i : ℕ) (x : X) : Prop where
  critical : ¬ (¬ ctx.flags.ignore_critical ∧ (x509v3CacheExtensions (o.info x)).critical)
  proxy : isProxy o x → ctx.parent = false ∧ ctx.flags.allow_proxy_certs
  ca : caCode ctx.flags.x509_strict st.must_be_ca (x509CheckCa (o.info x)) = none
  purpose : ¬ badPurpose o ctx st.must_be_ca x
  pathlen : ¬ pathTooLong (x509v3CacheExtensions (o.info x)) st i

section Checked

variable {o : Objects X K} {ctx : StoreCtx X}

theorem ExtState.after_append (e : Complaint X) (xs : List X) (x : X) :
    ExtState.after o e (xs ++ [x]) =
      ⟨if isProxy o x then 0 else 1,
        (ExtState.after o e xs).plen + if selfIssued o x then 0 else 1,
        (ExtState.after o e xs).proxy_path_length + if isProxy o x then 1 else 0, e⟩ := by
  simp only [ExtState.after, getLast?_append, getLast?_singleton, countP_append, countP_singleton]
  cases selfIssued o x <;> rfl

variable {e e' : Complaint X}

theorem checkExtensions_ok (hcb : Transparent ctx.cb) {xs : List X} {x : X} {st : ExtState X}
    (h : checkExtensions o ctx (ExtState.after o e xs) xs.length x = .ok st) :
    Passed o ctx (ExtState.after o e xs) xs.length x ∧ st = ExtState.after o e (xs ++ [x]) := by
  simp only [checkExtensions, bind_eq_ok, reportIf_eq_ok hcb] at h
  obtain ⟨e1, ⟨hcritical, rfl⟩, e2, ⟨hproxy, rfl⟩, e3, ⟨hca, rfl⟩, e4, ⟨hpurpose, rfl⟩, e5,
    ⟨hpathlen, rfl⟩, h⟩ := h
  refine ⟨⟨hcritical, fun hx => ?_, ?_, hpurpose, hpathlen⟩, ?_⟩
  · have hallow := not_not.mp fun hnot => hproxy ⟨hnot, hx⟩
    simpa using hallow
  · exact Option.not_isSome_iff_eq_none.mp hca
  have hplen : (if selfIssued o x then (ExtState.after o e5 xs).plen else
      (ExtState.after o e5 xs).plen + 1) =
      (ExtState.after o e5 xs).plen + if selfIssued o x then 0 else 1 := by
    split <;> rfl
  rw [ExtState.after_append, ← hplen]
  split at h
  · next hx =>
    obtain ⟨e6, hlast, hst⟩ := bind_eq_ok.mp h
    obtain ⟨-, rfl⟩ := (reportIf_eq_ok hcb).mp hlast
    rw [← Except.ok.inj hst, if_pos hx, if_pos hx]
  · next hx =>
    rw [← Except.ok.inj h, if_neg hx, if_neg hx]
    rfl

theorem checkExtensionsFrom_ok (hcb : Transparent ctx.cb) :
    ∀ {xs ys : List X}, checkExtensionsFrom o ctx (ExtState.after o e xs) xs.length ys = .ok e' →
      e' = e ∧ ∀ pre x post, ys = pre ++ x :: post →
        Passed o ctx (ExtState.after o e (xs ++ pre)) (xs ++ pre).length x
  | xs, [], h => ⟨(Except.ok.inj h).symm, fun pre x post hys => by simp at hys⟩
  | xs, y :: ys, h => by
    rw [checkExtensionsFrom, bind_eq_ok] at h
    obtain ⟨st, hfirst, hrest⟩ := h
    obtain ⟨hpassed, rfl⟩ := checkExtensions_ok hcb hfirst
    have hlen : xs.length + 1 = (xs ++ [y]).length := by
      rw [length_append, length_singleton]
    rw [hlen] at hrest
    obtain ⟨rfl, ih⟩ := checkExtensionsFrom_ok hcb hrest
    refine ⟨rfl, fun pre x post hys => ?_⟩
    rcases cons_eq_append_iff.mp hys with ⟨rfl, hx⟩ | ⟨pre, rfl, hpre⟩
    · obtain ⟨rfl, -⟩ := List.cons.inj hx
      rw [append_nil]
      exact hpassed
    · have hnext := ih pre x post hpre
      rw [append_assoc] at hnext
      exact hnext

variable {chain : List X} {last_untrusted : ℕ}

theorem checkChainExtensions_passed (hcb : Transparent ctx.cb)
    (h : checkChainExtensions o ctx chain last_untrusted e = .ok e') :
    e' = e ∧ ∀ i x, i < last_untrusted → chain[i]? = some x →
      Passed o ctx (ExtState.after o e (chain.take i)) i x := by
  have hstart : checkExtensionsFrom o ctx (ExtState.after o e []) ([] : List X).length
      (chain.take last_untrusted) = .ok e' := h
  obtain ⟨he, hpassed⟩ := checkExtensionsFrom_ok hcb hstart
  refine ⟨he, fun i x hi hx => ?_⟩
  obtain ⟨hlt, rfl⟩ := List.getElem?_eq_some_iff.mp hx
  have hlen : i < (chain.take last_untrusted).length := by
    rw [length_take]
    omega
  have hsplit : chain.take last_untrusted =
      chain.take i ++ chain[i] :: (chain.take last_untrusted).drop (i + 1) := by
    rw [← getElem_take (h := hlen), ← drop_eq_getElem_cons]
    conv_lhs => rw [← take_append_drop i (chain.take last_untrusted), take_take,
      Nat.min_eq_left hi.le]
  have hx := hpassed _ _ _ hsplit
  rw [nil_append, length_take, Nat.min_eq_left hlt.le] at hx
  exact hx

theorem ca_of_passed (hallow : ¬ ctx.flags.allow_proxy_certs)
    (hpassed : ∀ i x, i < last_untrusted → chain[i]? = some x →
      Passed o ctx (ExtState.after o e (chain.take i)) i x)
    {i : ℕ} {x : X} (hi : 1 ≤ i) (hlt : i < last_untrusted) (hx : chain[i]? = some x) :
    x509CheckCa (o.info x) ≠ 0 := by
  obtain ⟨hlen, -⟩ := List.getElem?_eq_some_iff.mp hx
  have hbefore : chain[i - 1]? = some chain[i - 1] := getElem?_eq_getElem (by omega)
  have hproxy : ¬ isProxy o chain[i - 1] :=
    fun h => hallow ((hpassed _ _ (by omega) hbefore).proxy h).2
  have hlast : (chain.take i).getLast? = some chain[i - 1] := by
    rw [getLast?_take, if_neg (by omega), hbefore]
    rfl
  have hca := (hpassed i x hlt hx).ca
  simp only [ExtState.after, hlast, if_neg hproxy] at hca
  intro hzero
  simp [caCode, hzero] at hca

/-- How many certificates between the first and that at `i` are not self-issued. -/
def intermediates (o : Objects X K) (chain : List X) (i : ℕ) : ℕ :=
  ((chain.take i).drop 1).countP (! selfIssued o ·)

/-- The path lengths of the certificates below `last_untrusted` are kept. -/
def PathLengthsKept (o : Objects X K) (chain : List X) (last_untrusted : ℕ) : Prop :=
  ∀ i x, 1 ≤ i → i < last_untrusted → chain[i]? = some x →
    (x509v3CacheExtensions (o.info x)).ex_pathlen ≠ -1 →
    (intermediates o chain i : ℤ) ≤ (x509v3CacheExtensions (o.info x)).ex_pathlen

/-- What is not looked at: the lengths of self-issued certificates, and if the first certificate is
self-issued, those that are too short by one. -/
structure SelfIssuedKept (o : Objects X K) (chain : List X) (last_untrusted : ℕ) : Prop where
  issuer : ∀ i x, 1 ≤ i → i < last_untrusted → chain[i]? = some x → selfIssued o x →
    (x509v3CacheExtensions (o.info x)).ex_pathlen ≠ -1 →
    (intermediates o chain i : ℤ) ≤ (x509v3CacheExtensions (o.info x)).ex_pathlen
  leaf : ∀ leaf, chain[0]? = some leaf → selfIssued o leaf → ∀ i x, 1 ≤ i → i < last_untrusted →
    chain[i]? = some x → ¬ selfIssued o x → (x509v3CacheExtensions (o.info x)).ex_pathlen ≠ -1 →
    (intermediates o chain i : ℤ) ≠ (x509v3CacheExtensions (o.info x)).ex_pathlen + 1

theorem after_plen {leaf : X} (hleaf : chain[0]? = some leaf) {i : ℕ} (hi : 1 ≤ i)
    (e : Complaint X) : (ExtState.after o e (chain.take i)).plen =
      intermediates o chain i + if selfIssued o leaf then 0 else 1 := by
  obtain ⟨rest, rfl⟩ : ∃ rest, chain = leaf :: rest := by
    cases chain with
    | nil => exact absurd hleaf (by simp)
    | cons c rest => exact ⟨rest, by rw [Option.some.inj hleaf]⟩
  obtain ⟨i, rfl⟩ : ∃ k, i = k + 1 := ⟨i - 1, by omega⟩
  simp only [ExtState.after, intermediates, take_succ_cons, drop_succ_cons, countP_cons]
  cases selfIssued o leaf <;> rfl

/-- **Path lengths.** They are kept exactly if those are that are not looked at. -/
theorem pathLengthsKept_iff (hproxy : ∀ x ∈ chain, ¬ isProxy o x)
    (hpassed : ∀ i x, i < last_untrusted → chain[i]? = some x →
      Passed o ctx (ExtState.after o e (chain.take i)) i x) :
    PathLengthsKept o chain last_untrusted ↔ SelfIssuedKept o chain last_untrusted := by
  constructor
  · intro h
    exact ⟨fun i x hi hlt hx _ hlen => h i x hi hlt hx hlen,
      fun leaf _ _ i x hi hlt hx _ hlen heq => by have := h i x hi hlt hx hlen; omega⟩
  intro h i x hi hlt hx hlen
  by_cases hsi : selfIssued o x
  · exact h.issuer i x hi hlt hx hsi hlen
  have hge := x509v3CacheExtensions_pathlen (o.info x)
  obtain ⟨hltlen, -⟩ := List.getElem?_eq_some_iff.mp hx
  obtain ⟨leaf, hleaf⟩ : ∃ leaf, chain[0]? = some leaf :=
    ⟨_, getElem?_eq_getElem (by omega)⟩
  have hcount := after_plen (o := o) hleaf hi e
  have hnoproxy : (ExtState.after o e (chain.take i)).proxy_path_length = 0 :=
    countP_eq_zero.mpr fun y hy => hproxy y (mem_of_mem_take hy)
  rcases Nat.lt_or_ge 1 i with hi1 | hi1
  · have hshort := (hpassed i x hlt hx).pathlen
    have hle : ¬ ((ExtState.after o e (chain.take i)).plen : ℤ) >
        ((x509v3CacheExtensions (o.info x)).ex_pathlen +
          (ExtState.after o e (chain.take i)).proxy_path_length + 1).bmod (2 ^ 64) :=
      fun hgt => hshort ⟨hi1, hsi, hlen, hgt⟩
    -- After a wrap the length is below zero, and the chain is not accepted.
    have hmax : (x509v3CacheExtensions (o.info x)).ex_pathlen + 1 < 2 ^ 63 := by
      by_contra hmax
      have heq : (x509v3CacheExtensions (o.info x)).ex_pathlen = 2 ^ 63 - 1 := by omega
      rw [hnoproxy, heq] at hle
      exact hle (lt_of_lt_of_le (by decide) (Int.natCast_nonneg _))
    rw [hcount, hnoproxy, Int.bmod_eq_of_le (by omega) (by omega)] at hle
    by_cases hleafsi : selfIssued o leaf
    · have hne := h.leaf leaf hleaf hleafsi i x hi hlt hx hsi hlen
      omega
    · rw [if_neg hleafsi] at hle
      omega
  · -- there is nothing between the first certificate and the second
    have hzero : intermediates o chain i = 0 := by
      have hnil := drop_of_length_le (length_take_le 1 chain)
      rw [show i = 1 by omega, intermediates, hnil]
      rfl
    omega

end Checked

end VigorTls.X509
