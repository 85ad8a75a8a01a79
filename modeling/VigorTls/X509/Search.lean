import VigorTls.Lib.Run
import VigorTls.X509.Context

/-!
# Looking for a chain

The first half of `X509_verify_cert` as a machine, with a `step` for every round of its loops. A
certificate is followed to issuers from the untrusted list (`stepUntrusted`), then from the store
(`stepLook`, `stepStore`); if the chain is not trusted (`stepTrust`), the untrusted part is
shortened until the store has another issuer for its end (`stepAlternative`).
-/

namespace VigorTls.X509

open Lib List Nat Prod

variable {X K : Type}

/-- The variables of `X509_verify_cert`, and what it changes of the context. -/
structure Search (X : Type) where
  chain : List X
  last_untrusted : ℕ
  num : ℕ
  j : ℕ
  x : Option X
  sktmp : List X
  chain_ss : Option X
  bad_chain : Bool
  /-- The calls of `get_issuer` up to now. -/
  calls : ℕ
  e : Complaint X

/-- The loops of `X509_verify_cert`. -/
inductive Phase
  | untrusted
  | look
  | store
  | trust
  | alternative (trust : Trust)

/-- It leaves the loops with the trust in the chain, gives up with a result, or uses a null pointer.
-/
inductive SearchState (X : Type)
  | busy (phase : Phase) (s : Search X)
  | found (trust : Trust) (s : Search X)
  | stopped (ok : ℤ) (s : Search X)
  | crashed

def skX509Value (chain : List X) (i : ℤ) : Option X := if 0 ≤ i then chain[i.toNat]? else none

/-- The loop of `check_trust`, from the certificate at `i` on. -/
def checkTrustFrom (o : Objects X K) (ctx : StoreCtx X) :
    ℕ → Complaint X → List X → Trust × Complaint X
  | _, e, [] => (.untrusted, e)
  | i, e, x :: xs =>
    match x509CheckTrust (o.info x) ctx.trust with
    | .trusted => (.trusted, e)
    | .rejected =>
      let e := { e with error := .certRejected, error_depth := i, current_cert := some x }
      if ctx.cb false e then checkTrustFrom o ctx (i + 1) e xs else (.rejected, e)
    | .untrusted => checkTrustFrom o ctx (i + 1) e xs

def lookupCertMatch (o : Objects X K) (ctx : StoreCtx X) (x : X) : Option X :=
  (ctx.lookup_certs x).bind fun certs => certs.find? (o.same · x)

def checkTrust (o : Objects X K) (ctx : StoreCtx X) (s : Search X) : Trust × Search X :=
  match checkTrustFrom o ctx s.last_untrusted s.e (s.chain.drop s.last_untrusted) with
  | (.untrusted, e) =>
    if ctx.flags.partial_chain then
      if s.last_untrusted < s.chain.length then (.trusted, { s with e := e })
      else
        match s.chain.head?.bind (lookupCertMatch o ctx) with
        | some mx => (.trusted, { s with e := e, chain := s.chain.set 0 mx, last_untrusted := 0 })
        | none => (.untrusted, { s with e := e })
    else (.untrusted, { s with e := e })
  | (trust, e) => (trust, { s with e := e })

section Steps

variable [DecidableEq X] (o : Objects X K) (ctx : StoreCtx X)

variable (s : Search X)

/-- The untrusted list for the issuer of `x`. -/
def takeUntrusted (x : X) : SearchState X :=
  match ctx.untrusted with
  | none => .busy .look { s with j := s.num }
  | some _ =>
    match findIssuer o ctx x s.e none s.sktmp with
    | (none, e) => .busy .look { s with e := e, j := s.num }
    | (some xtmp, e) => .busy .untrusted
      { s with
        e := e
        chain := s.chain ++ [xtmp]
        sktmp := s.sktmp.erase xtmp
        last_untrusted := s.last_untrusted + 1
        x := some xtmp
        num := s.num + 1 }

/-- A round of the first loop. -/
def stepUntrusted : SearchState X :=
  if ctx.depth < s.num then .busy .look { s with j := s.num }
  else
    match s.x with
    | none => .crashed
    | some x =>
      if certSelfSigned o x then .busy .look { s with j := s.num }
      else if ctx.flags.trusted_first then
        match ctx.get_issuer s.calls x with
        | .failed => .stopped (-1) { s with calls := s.calls + 1 }
        | .found _ => .busy .look { s with calls := s.calls + 1, j := s.num }
        | .notFound => takeUntrusted o ctx { s with calls := s.calls + 1 } x
      else takeUntrusted o ctx s x

/-- The start of the second loop: what is self-signed has to be in the store, or is put aside. -/
def stepLook : SearchState X :=
  let i : ℤ := s.chain.length
  match skX509Value s.chain (i - 1) with
  | none => .crashed
  | some x =>
    if certSelfSigned o x then
      if s.chain.length = 1 then
        let issuer := ctx.get_issuer s.calls x
        let s := { s with calls := s.calls + 1 }
        match issuer with
        | .found xtmp =>
          if o.same x xtmp then .busy .store
            { s with x := some xtmp, chain := s.chain.set (s.chain.length - 1) xtmp
                     last_untrusted := 0 }
          else unmatched s x
        | _ => unmatched s x
      else .busy .store
        { s with
          chain_ss := s.chain.getLast?
          chain := s.chain.dropLast
          last_untrusted := s.last_untrusted - 1
          num := s.num - 1
          j := s.j - 1
          x := skX509Value s.chain.dropLast ((s.num - 1 : ℕ) - 1) }
    else .busy .store { s with x := some x }
where
  /-- A self-signed certificate that is not in the store. -/
  unmatched (s : Search X) (x : X) : SearchState X :=
    let e := { s.e with error := .depthZeroSelfSignedCert, current_cert := some x
                        error_depth := s.chain.length - 1 }
    let s := { s with e := e, bad_chain := true, x := some x }
    if ctx.cb false e then .busy .store s else .stopped 0 s

/-- A round of the loop over the store. -/
def stepStore : SearchState X :=
  if ctx.depth < s.num then .busy .trust s
  else
    match s.x with
    | none => .crashed
    | some x =>
      if certSelfSigned o x then .busy .trust s
      else
        match ctx.get_issuer s.calls x with
        | .failed => .stopped (-1) { s with calls := s.calls + 1 }
        | .notFound => .busy .trust { s with calls := s.calls + 1 }
        | .found xtmp => .busy .store
          { s with
            calls := s.calls + 1
            x := some xtmp
            chain := s.chain ++ [xtmp]
            num := s.num + 1 }

/-- `check_trust`, and whether to look for alternative chains. -/
def stepTrust : SearchState X :=
  match checkTrust o ctx s with
  | (.rejected, s) => .stopped 0 s
  | (trust, s) =>
    if trust ≠ .trusted ∧ ¬ ctx.flags.trusted_first ∧ ¬ ctx.flags.no_alt_chains then
      .busy (.alternative trust) s
    else .found trust s

/-- A round of the loop for alternative chains. -/
def stepAlternative (trust : Trust) (s : Search X) : SearchState X :=
  if s.j > 1 then
    let j := s.j - 1
    match skX509Value s.chain (j - 1) with
    | none => .crashed
    | some xtmp2 =>
      match ctx.get_issuer s.calls xtmp2 with
      | .failed => .stopped (-1) { s with calls := s.calls + 1, j := j }
      | .notFound => .busy (.alternative trust) { s with calls := s.calls + 1, j := j }
      | .found _ =>
        -- as many certificates are popped as `num` is above `j`
        let chain := s.chain.take (s.chain.length - (s.num - j))
        .busy .look
          { s with
            calls := s.calls + 1
            j := j
            chain := chain
            num := s.num - (s.num - j)
            last_untrusted := chain.length }
  else .found trust { s with j := s.j - 1 }

def step : SearchState X → SearchState X
  | .busy .untrusted s => stepUntrusted o ctx s
  | .busy .look s => stepLook o ctx s
  | .busy .store s => stepStore o ctx s
  | .busy .trust s => stepTrust o ctx s
  | .busy (.alternative trust) s => stepAlternative ctx trust s
  | st => st

end Steps

/-- The chain with the certificate to verify in it. -/
def searchStart (ctx : StoreCtx X) (cert : X) : SearchState X :=
  .busy .untrusted
    { chain := [cert]
      last_untrusted := 1
      num := 1
      j := 0
      x := some cert
      sktmp := ctx.untrusted.getD []
      chain_ss := none
      bad_chain := false
      calls := 0
      e := ⟨.ok, 0, none, none⟩ }

/-! ## Trusted and untrusted -/

/-- The store has given a certificate. -/
def FromStore (ctx : StoreCtx X) (c : X) : Prop := ∃ n x, ctx.get_issuer n x = .found c

/-- The certificate is one of those to verify with. -/
def Given (ctx : StoreCtx X) (cert c : X) : Prop := c = cert ∨ ∃ l, ctx.untrusted = some l ∧ c ∈ l

/-- A chain with certificates that were given up to `last_untrusted`, and certificates from the
store after that. -/
structure Apart (ctx : StoreCtx X) (cert : X) (s : Search X) : Prop where
  num_eq : s.num = s.chain.length
  last_untrusted_le : s.last_untrusted ≤ s.chain.length
  untrusted : ∀ i c, i < s.last_untrusted → s.chain[i]? = some c → Given ctx cert c
  trusted : ∀ i c, s.last_untrusted ≤ i → s.chain[i]? = some c → FromStore ctx c

/-- How the other variables are, in each loop. -/
def Phase.Placed (s : Search X) : Phase → Prop
  | .untrusted => s.last_untrusted = s.num ∧ s.x = s.chain.getLast?
  | .look => s.last_untrusted = s.num ∧ s.j = s.num
  | .store => s.x = s.chain.getLast? ∧ s.j ≤ s.num ∧ (1 < s.j → s.j ≤ s.last_untrusted)
  | .trust => s.j ≤ s.num ∧ (1 < s.j → s.j ≤ s.last_untrusted)
  | .alternative judged => judged ≠ .trusted ∧ s.j ≤ s.num ∧ (1 < s.j → s.j ≤ s.last_untrusted)

/-- There is a certificate from the store that is trusted. -/
def Anchored (o : Objects X K) (ctx : StoreCtx X) (s : Search X) : Prop :=
  ∃ i c, s.last_untrusted ≤ i ∧ s.chain[i]? = some c ∧
    x509CheckTrust (o.info c) ctx.trust = .trusted

/-- The variables of a search. -/
structure Kept (ctx : StoreCtx X) (cert : X) (phase : Phase) (s : Search X) : Prop where
  apart : Apart ctx cert s
  ne_nil : s.chain ≠ []
  sktmp_given : ∀ c ∈ s.sktmp, Given ctx cert c
  placed : phase.Placed s

/-- The states that are reached. -/
def Good (o : Objects X K) (ctx : StoreCtx X) (cert : X) : SearchState X → Prop
  | .busy phase s => Kept ctx cert phase s
  | .found trust s => Apart ctx cert s ∧ (trust = .trusted → Anchored o ctx s)
  | .stopped ok s => Apart ctx cert s ∧ ok ≤ 0
  | .crashed => False

variable {t : Search X} {trust : Trust} {st : SearchState X}

section Kept

variable {o : Objects X K} {ctx : StoreCtx X} {cert : X} {s : Search X}

theorem skX509Value_last (chain : List X) :
    skX509Value chain ((chain.length : ℤ) - 1) = chain.getLast? := by
  rw [skX509Value, getLast?_eq_getElem?]
  split
  · congr 1
    omega
  · next h =>
    rw [length_eq_zero_iff.mp (show chain.length = 0 by omega)]
    rfl

theorem getElem?_concat_eq_some {xs : List X} {c c' : X} {i : ℕ} (h : (xs ++ [c])[i]? = some c') :
    i < xs.length ∧ xs[i]? = some c' ∨ c' = c := by
  rw [getElem?_append] at h
  split at h
  · next hi => exact .inl ⟨hi, h⟩
  · exact .inr (mem_singleton.mp (mem_of_getElem? h))

section

variable (h : Apart ctx cert s)

include h

theorem Apart.push_untrusted (hall : s.last_untrusted = s.num) {c : X}
    (hc : Given ctx cert c) (hchain : t.chain = s.chain ++ [c])
    (hlast : t.last_untrusted = s.last_untrusted + 1) (hnum : t.num = s.num + 1) :
    Apart ctx cert t := by
  have hlen : t.chain.length = s.chain.length + 1 := by rw [hchain, length_append]; rfl
  have hnum_eq := h.num_eq
  refine ⟨by omega, by omega, fun i c' hi hx => ?_, fun i c' hi hx => ?_⟩
  · rcases getElem?_concat_eq_some (hchain ▸ hx) with ⟨hi, hx⟩ | rfl
    · exact h.untrusted i c' (by omega) hx
    · exact hc
  · have hnone : t.chain[i]? = none := getElem?_eq_none (by omega)
    exact absurd (hnone.symm.trans hx) (by simp)

theorem Apart.push_trusted {c : X} (hc : FromStore ctx c)
    (hchain : t.chain = s.chain ++ [c]) (hlast : t.last_untrusted = s.last_untrusted)
    (hnum : t.num = s.num + 1) : Apart ctx cert t := by
  have hlen : t.chain.length = s.chain.length + 1 := by rw [hchain, length_append]; rfl
  have hnum_eq := h.num_eq
  have hle := h.last_untrusted_le
  refine ⟨by omega, by omega, fun i c' hi hx => ?_, fun i c' hi hx => ?_⟩
  · rw [hchain, getElem?_append_left (by omega)] at hx
    exact h.untrusted i c' (by omega) hx
  rcases getElem?_concat_eq_some (hchain ▸ hx) with ⟨-, hx⟩ | rfl
  · exact h.trusted i c' (by omega) hx
  · exact hc

theorem Apart.cut {n : ℕ} (hn : n ≤ s.last_untrusted)
    (hchain : t.chain = s.chain.take n) (hlast : t.last_untrusted = n) (hnum : t.num = n) :
    Apart ctx cert t := by
  have hle := h.last_untrusted_le
  have hlen : t.chain.length = n := by
    rw [hchain, length_take]
    omega
  refine ⟨by omega, by omega, fun i c' hi hx => ?_, fun i c' hi hx => ?_⟩
  · rw [hchain, getElem?_take_of_lt (by omega)] at hx
    exact h.untrusted i c' (by omega) hx
  · have hnone : t.chain[i]? = none := getElem?_eq_none (by omega)
    exact absurd (hnone.symm.trans hx) (by simp)

theorem Apart.congr (hchain : t.chain = s.chain)
    (hlast : t.last_untrusted = s.last_untrusted) (hnum : t.num = s.num) : Apart ctx cert t := by
  obtain ⟨num_eq, last_untrusted_le, untrusted, trusted⟩ := h
  rw [← hchain] at num_eq last_untrusted_le untrusted trusted
  rw [← hlast] at last_untrusted_le untrusted trusted
  exact ⟨hnum.trans num_eq, last_untrusted_le, untrusted, trusted⟩

theorem stopped_good {ok : ℤ} (hok : ok ≤ 0) (hchain : t.chain = s.chain)
    (hlast : t.last_untrusted = s.last_untrusted) (hnum : t.num = s.num) :
    Good o ctx cert (.stopped ok t) :=
  ⟨h.congr hchain hlast hnum, hok⟩

end

theorem look_good (h : Kept ctx cert .untrusted s) (hchain : t.chain = s.chain)
    (hlast : t.last_untrusted = s.last_untrusted) (hnum : t.num = s.num) (hj : t.j = s.num)
    (hsktmp : t.sktmp = s.sktmp) : Good o ctx cert (.busy .look t) :=
  ⟨h.apart.congr hchain hlast hnum, hchain ▸ h.ne_nil, hsktmp ▸ h.sktmp_given,
    by rw [hlast, hnum]; exact h.placed.1, hj.trans hnum.symm⟩

theorem stepLook_good (h : Kept ctx cert .look s) : Good o ctx cert (stepLook o ctx s) := by
  obtain ⟨hlast, hj⟩ := h.placed
  have hnum := h.apart.num_eq
  have hpos := length_pos_iff.mpr h.ne_nil
  -- the certificate that is left in the chain although the store does not have it
  have hunmatched : ∀ t : Search X, ∀ x, t.chain = s.chain → t.last_untrusted = s.last_untrusted →
      t.num = s.num → t.j = s.j → t.sktmp = s.sktmp → s.chain.getLast? = some x →
      Good o ctx cert (stepLook.unmatched ctx t x) := by
    intro t x hchain htlast htnum htj hsktmp hx
    rw [stepLook.unmatched]
    split
    · refine ⟨h.apart.congr hchain htlast htnum, by rw [hchain]; exact h.ne_nil, ?_, ?_,
        by dsimp only; omega, by dsimp only; omega⟩
      · rw [hsktmp]
        exact h.sktmp_given
      · rw [hchain, hx]
    · exact stopped_good h.apart (by decide) hchain htlast htnum
  rw [stepLook, skX509Value_last]
  dsimp only
  split
  · next hnone => exact absurd (getLast?_eq_none_iff.mp hnone) h.ne_nil
  next x hx =>
  split
  · split
    · next hone =>
      split
      · next xtmp hissuer =>
        split
        · -- the certificate of the store in the place of the one given
          obtain ⟨c, hc⟩ := length_eq_one_iff.mp hone
          have hset : s.chain.set (s.chain.length - 1) xtmp = [xtmp] := by rw [hc]; rfl
          have hfrom : FromStore ctx xtmp := ⟨_, _, hissuer⟩
          refine ⟨⟨?_, Nat.zero_le _, fun i c hi => absurd hi (Nat.not_lt_zero i), ?_⟩, ?_,
            h.sktmp_given, ?_, by dsimp only; omega, by dsimp only; omega⟩
          · dsimp only
            rw [length_set, hnum]
          · intro i c' _ hx'
            rw [hset] at hx'
            exact mem_singleton.mp (mem_of_getElem? hx') ▸ hfrom
          · dsimp only
            rw [hset]
            exact cons_ne_nil _ _
          · dsimp only
            rw [hset]
            rfl
        · exact hunmatched _ x rfl rfl rfl rfl rfl hx
      · exact hunmatched _ x rfl rfl rfl rfl rfl hx
    · next hone =>
      -- all but the last certificate are kept
      have hdrop : s.chain.dropLast = s.chain.take (s.num - 1) := by
        rw [dropLast_eq_take, hnum]
      have hlen : s.chain.dropLast.length = s.num - 1 := by
        rw [length_dropLast, hnum]
      refine ⟨h.apart.cut (n := s.num - 1) (by omega) hdrop (by dsimp only; omega) rfl, ?_,
        h.sktmp_given, ?_, by dsimp only; omega, by dsimp only; omega⟩
      · exact ne_nil_of_length_pos (by dsimp only; omega)
      · dsimp only
        rw [← hlen, skX509Value_last]
  · exact ⟨h.apart.congr rfl rfl rfl, h.ne_nil, h.sktmp_given, hx.symm, by dsimp only; omega,
      by dsimp only; omega⟩

theorem stepStore_good (h : Kept ctx cert .store s) : Good o ctx cert (stepStore o ctx s) := by
  obtain ⟨hx, hj, hlast⟩ := h.placed
  rw [stepStore]
  split
  · exact ⟨h.apart, h.ne_nil, h.sktmp_given, hj, hlast⟩
  split
  · next hnone =>
    rw [hx, getLast?_eq_none_iff] at hnone
    exact absurd hnone h.ne_nil
  split
  · exact ⟨h.apart, h.ne_nil, h.sktmp_given, hj, hlast⟩
  split
  · exact stopped_good h.apart (by decide) rfl rfl rfl
  · exact ⟨h.apart.congr rfl rfl rfl, h.ne_nil, h.sktmp_given, hj, hlast⟩
  · next xtmp hissuer =>
    exact ⟨h.apart.push_trusted ⟨_, _, hissuer⟩ rfl rfl rfl, by simp, h.sktmp_given,
      getLast?_concat.symm, le_succ_of_le hj, hlast⟩

theorem checkTrust_chain (hflag : ¬ ctx.flags.partial_chain) :
    ∃ e, checkTrust o ctx s =
      ((checkTrustFrom o ctx s.last_untrusted s.e (s.chain.drop s.last_untrusted)).1,
        { s with e := e }) := by
  rw [checkTrust]
  split
  · next e h => exact ⟨e, by rw [if_neg hflag, h]⟩
  · next trust e _ h => exact ⟨e, by rw [h]⟩

theorem checkTrustFrom_trusted {i : ℕ} {e : Complaint X} {xs : List X}
    (h : (checkTrustFrom o ctx i e xs).1 = .trusted) :
    ∃ c ∈ xs, x509CheckTrust (o.info c) ctx.trust = .trusted := by
  fun_induction checkTrustFrom o ctx i e xs with
  | case1 i e => exact nomatch h
  | case2 i e x xs htrust => exact ⟨x, mem_cons_self, htrust⟩
  | case3 i e x xs htrust e' hcb ih =>
    obtain ⟨c, hc, hct⟩ := ih h
    exact ⟨c, mem_cons_of_mem _ hc, hct⟩
  | case4 i e x xs htrust e' hcb => exact nomatch h
  | case5 i e x xs htrust ih =>
    obtain ⟨c, hc, hct⟩ := ih h
    exact ⟨c, mem_cons_of_mem _ hc, hct⟩

theorem stepTrust_good (hflag : ¬ ctx.flags.partial_chain) (h : Kept ctx cert .trust s) :
    Good o ctx cert (stepTrust o ctx s) := by
  obtain ⟨e, he⟩ := checkTrust_chain (o := o) (s := s) hflag
  rw [stepTrust]
  split
  · next t ht =>
    obtain rfl : { s with e := e } = t := (mk.inj (he.symm.trans ht)).2
    exact stopped_good h.apart (by decide) rfl rfl rfl
  next trust t _ ht =>
  obtain ⟨htrust, rfl⟩ := mk.inj (he.symm.trans ht)
  split
  · next halt =>
    exact ⟨h.apart.congr rfl rfl rfl, h.ne_nil, h.sktmp_given, halt.1, h.placed⟩
  refine ⟨h.apart.congr rfl rfl rfl, fun htrusted => ?_⟩
  obtain ⟨c, hc, hct⟩ := checkTrustFrom_trusted (htrust.trans htrusted)
  obtain ⟨i, hi⟩ := mem_iff_getElem?.mp hc
  rw [getElem?_drop] at hi
  exact ⟨_, c, Nat.le_add_right _ _, hi, hct⟩

theorem stepAlternative_good (h : Kept ctx cert (.alternative trust) s) :
    Good o ctx cert (stepAlternative ctx trust s) := by
  obtain ⟨hne, hj, hlast⟩ := h.placed
  have hnum := h.apart.num_eq
  rw [stepAlternative]
  split
  · next hgt =>
    dsimp only
    split
    · next hnone =>
      rw [skX509Value, if_pos (by omega), List.getElem?_eq_none_iff] at hnone
      omega
    split
    · exact stopped_good h.apart (by decide) rfl rfl rfl
    · exact ⟨h.apart.congr rfl rfl rfl, h.ne_nil, h.sktmp_given, hne, by dsimp only; omega,
        by dsimp only; omega⟩
    -- the part of the chain that was given, up to the certificate with another issuer
    have hpops : s.chain.length - (s.num - (s.j - 1)) = s.j - 1 := by omega
    have hlen : (s.chain.take (s.j - 1)).length = s.j - 1 := by
      rw [length_take]
      omega
    rw [hpops, hlen]
    exact ⟨h.apart.cut (n := s.j - 1) (by omega) rfl rfl (by dsimp only; omega),
      ne_nil_of_length_pos (by dsimp only; omega), h.sktmp_given, by dsimp only; omega,
      by dsimp only; omega⟩
  · exact ⟨h.apart.congr rfl rfl rfl, fun htrusted => absurd htrusted hne⟩

theorem searchStart_good (ctx : StoreCtx X) (cert : X) :
    Good o ctx cert (searchStart ctx cert) := by
  refine ⟨⟨rfl, le_rfl, fun i c hi hx => .inl ?_, fun i c hi hx => ?_⟩, cons_ne_nil _ _, ?_,
    rfl, rfl⟩
  · exact mem_singleton.mp (mem_of_getElem? hx)
  · rw [getElem?_eq_none (by exact hi)] at hx
    exact nomatch hx
  · intro c hc
    cases hu : ctx.untrusted with
    | none => rw [hu] at hc; exact absurd hc not_mem_nil
    | some l => rw [hu] at hc; exact .inr ⟨l, hu, hc⟩

variable [DecidableEq X]

theorem takeUntrusted_good (h : Kept ctx cert .untrusted s) (x : X) :
    Good o ctx cert (takeUntrusted o ctx s x) := by
  rw [takeUntrusted]
  split
  · exact look_good h rfl rfl rfl rfl rfl
  split
  · exact look_good h rfl rfl rfl rfl rfl
  next xtmp e hfound =>
  have hmem : xtmp ∈ s.sktmp :=
    (findIssuer_mem (congrArg fst hfound)).resolve_left (by simp)
  obtain ⟨hlast, -⟩ := h.placed
  refine ⟨h.apart.push_untrusted hlast (h.sktmp_given xtmp hmem) rfl rfl rfl, by simp, ?_, ?_⟩
  · exact fun c hc => h.sktmp_given c (mem_of_mem_erase hc)
  · exact ⟨congrArg (· + 1) hlast, getLast?_concat.symm⟩

theorem stepUntrusted_good (h : Kept ctx cert .untrusted s) :
    Good o ctx cert (stepUntrusted o ctx s) := by
  rw [stepUntrusted]
  split
  · exact look_good h rfl rfl rfl rfl rfl
  split
  · next hnone =>
    rw [h.placed.2, getLast?_eq_none_iff] at hnone
    exact absurd hnone h.ne_nil
  next x hx =>
  split
  · exact look_good h rfl rfl rfl rfl rfl
  split
  · split
    · exact stopped_good h.apart (by decide) rfl rfl rfl
    · exact look_good h rfl rfl rfl rfl rfl
    · have hcalled : Kept ctx cert .untrusted { s with calls := s.calls + 1 } :=
        ⟨h.apart.congr rfl rfl rfl, h.ne_nil, h.sktmp_given, h.placed⟩
      exact takeUntrusted_good hcalled x
  · exact takeUntrusted_good h x

/-- The counters `num`, `j` and `last_untrusted` stay together with the chain, which is `Apart`. -/
theorem step_good (hflag : ¬ ctx.flags.partial_chain) (h : Good o ctx cert st) :
    Good o ctx cert (step o ctx st) := by
  match st with
  | .busy .untrusted s => exact stepUntrusted_good h
  | .busy .look s => exact stepLook_good h
  | .busy .store s => exact stepStore_good h
  | .busy .trust s => exact stepTrust_good hflag h
  | .busy (.alternative trust) s => exact stepAlternative_good h
  | .found trust s => exact h
  | .stopped ok s => exact h
  | .crashed => exact h

end Kept

/-- Nothing has been complained of. -/
def NotBad : SearchState X → Prop
  | .busy _ s => s.bad_chain = false
  | .found _ s => s.bad_chain = false
  | _ => True

section NotBad

variable {o : Objects X K} {ctx : StoreCtx X} {s : Search X}

theorem checkTrust_same :
    (checkTrust o ctx s).2.bad_chain = s.bad_chain ∧ (checkTrust o ctx s).2.j = s.j := by
  rw [checkTrust]
  repeat' split
  all_goals exact ⟨rfl, rfl⟩

theorem stepLook_notBad (hcb : Transparent ctx.cb) (h : s.bad_chain = false) :
    NotBad (stepLook o ctx s) := by
  have hunmatched : ∀ t x, NotBad (stepLook.unmatched ctx t x) := by
    intro t x
    rw [stepLook.unmatched, hcb]
    exact trivial
  rw [stepLook]
  dsimp only
  split
  · exact trivial
  split
  · split
    · split
      · split
        · exact h
        · exact hunmatched _ _
      · exact hunmatched _ _
    · exact h
  · exact h

theorem stepStore_notBad (h : s.bad_chain = false) : NotBad (stepStore o ctx s) := by
  rw [stepStore]
  repeat' split
  all_goals first | exact h | exact trivial

theorem stepTrust_notBad (h : s.bad_chain = false) : NotBad (stepTrust o ctx s) := by
  have hbad : (checkTrust o ctx s).2.bad_chain = s.bad_chain := checkTrust_same.1
  rw [stepTrust]
  split
  · exact trivial
  · next ht =>
    rw [ht] at hbad
    split <;> exact hbad.trans h

theorem stepAlternative_notBad (h : s.bad_chain = false) :
    NotBad (stepAlternative ctx trust s) := by
  rw [stepAlternative]
  dsimp only
  repeat' split
  all_goals first | exact h | exact trivial

variable [DecidableEq X]

theorem stepUntrusted_notBad (h : s.bad_chain = false) : NotBad (stepUntrusted o ctx s) := by
  have htake : ∀ t x, t.bad_chain = false → NotBad (takeUntrusted o ctx t x) := by
    intro t x ht
    rw [takeUntrusted]
    repeat' split
    all_goals exact ht
  rw [stepUntrusted]
  repeat' split
  all_goals first | exact h | exact trivial | exact htake _ _ h

theorem step_notBad (hcb : Transparent ctx.cb) (h : NotBad st) : NotBad (step o ctx st) := by
  match st with
  | .busy .untrusted s => exact stepUntrusted_notBad h
  | .busy .look s => exact stepLook_notBad hcb h
  | .busy .store s => exact stepStore_notBad h
  | .busy .trust s => exact stepTrust_notBad h
  | .busy (.alternative trust) s => exact stepAlternative_notBad h
  | .found trust s => exact h
  | .stopped ok s => exact h
  | .crashed => exact h

end NotBad

/-! ## The end -/

/-- The machine has left its loops. -/
def SearchState.Ended : SearchState X → Prop
  | .busy _ _ => False
  | _ => True

/-- As many certificates as are taken from the store in one go. -/
def storeSteps (ctx : StoreCtx X) : ℕ := (ctx.depth + 1).toNat

/-- A bound for the steps to come. -/
def measure (ctx : StoreCtx X) : SearchState X → ℕ
  | .busy .untrusted s =>
    (s.num + s.sktmp.length + 1) * (storeSteps ctx + 5) + s.sktmp.length + 1
  | .busy .look s => s.j * (storeSteps ctx + 5) + storeSteps ctx + 4
  | .busy .store s => s.j * (storeSteps ctx + 5) + (ctx.depth + 1 - s.num).toNat + 3
  | .busy .trust s => s.j * (storeSteps ctx + 5) + 2
  | .busy (.alternative _) s => s.j * (storeSteps ctx + 5) + 1
  | _ => 0

section Measure

variable {o : Objects X K} {ctx : StoreCtx X} {s : Search X}

theorem measure_look_lt (hj : t.j = s.num) :
    measure ctx (.busy .look t) < measure ctx (.busy .untrusted s) := by
  have hle : (s.num + 1) * (storeSteps ctx + 5) ≤
      (s.num + s.sktmp.length + 1) * (storeSteps ctx + 5) :=
    Nat.mul_le_mul_right _ (by omega)
  rw [succ_mul] at hle
  simp only [measure, hj]
  omega

theorem stepLook_measure : measure ctx (stepLook o ctx s) < measure ctx (.busy .look s) := by
  have hstore : ∀ t : Search X, t.j ≤ s.j →
      measure ctx (.busy .store t) < measure ctx (.busy .look s) := by
    intro t ht
    have hle := Nat.mul_le_mul_right (storeSteps ctx + 5) ht
    simp only [measure, storeSteps] at hle ⊢
    omega
  have hunmatched : ∀ t : Search X, ∀ x, t.j ≤ s.j →
      measure ctx (stepLook.unmatched ctx t x) < measure ctx (.busy .look s) := by
    intro t x ht
    rw [stepLook.unmatched]
    split
    · exact hstore _ ht
    · exact succ_pos _
  rw [stepLook]
  dsimp only
  split
  · exact succ_pos _
  split
  · split
    · split
      · split
        · exact hstore _ le_rfl
        · exact hunmatched _ _ le_rfl
      · exact hunmatched _ _ le_rfl
    · exact hstore _ (sub_le _ _)
  · exact hstore _ le_rfl

theorem stepStore_measure : measure ctx (stepStore o ctx s) < measure ctx (.busy .store s) := by
  have htrust : ∀ t : Search X, t.j = s.j →
      measure ctx (.busy .trust t) < measure ctx (.busy .store s) := by
    intro t ht
    simp only [measure, ht]
    omega
  rw [stepStore]
  split
  · exact htrust _ rfl
  next hdepth =>
  split
  · exact succ_pos _
  split
  · exact htrust _ rfl
  split
  · exact succ_pos _
  · exact htrust _ rfl
  · simp only [measure]
    omega

theorem stepTrust_measure : measure ctx (stepTrust o ctx s) < measure ctx (.busy .trust s) := by
  rw [stepTrust]
  split
  · exact succ_pos _
  next trust t _ ht =>
  have hj : (checkTrust o ctx s).2.j = s.j := checkTrust_same.2
  rw [ht] at hj
  split
  · simp only [measure, show t.j = s.j from hj]
    omega
  · exact succ_pos _

theorem stepAlternative_measure :
    measure ctx (stepAlternative ctx trust s) < measure ctx (.busy (.alternative trust) s) := by
  rw [stepAlternative]
  split
  · next hgt =>
    obtain ⟨j, hj⟩ : ∃ j, s.j = j + 1 := ⟨s.j - 1, by omega⟩
    have hmul : (j + 1) * (storeSteps ctx + 5) =
        j * (storeSteps ctx + 5) + (storeSteps ctx + 5) := succ_mul ..
    dsimp only
    split
    · exact succ_pos _
    split
    · exact succ_pos _
    · simp only [measure, hj, Nat.add_sub_cancel]
      omega
    · simp only [measure, hj, Nat.add_sub_cancel]
      omega
  · exact succ_pos _

variable [DecidableEq X]

theorem takeUntrusted_measure (x : X) :
    measure ctx (takeUntrusted o ctx s x) < measure ctx (.busy .untrusted s) := by
  rw [takeUntrusted]
  split
  · exact measure_look_lt rfl
  split
  · exact measure_look_lt rfl
  next xtmp e hfound =>
  have hmem : xtmp ∈ s.sktmp :=
    (findIssuer_mem (congrArg fst hfound)).resolve_left (by simp)
  have hlen := length_erase_of_mem hmem
  have hpos := length_pos_of_mem hmem
  have hsum : s.num + 1 + (s.sktmp.erase xtmp).length + 1 = s.num + s.sktmp.length + 1 := by
    omega
  simp only [measure, hsum]
  omega

theorem stepUntrusted_measure :
    measure ctx (stepUntrusted o ctx s) < measure ctx (.busy .untrusted s) := by
  rw [stepUntrusted]
  split
  · exact measure_look_lt rfl
  split
  · exact succ_pos _
  split
  · exact measure_look_lt rfl
  split
  · split
    · exact succ_pos _
    · exact measure_look_lt rfl
    · exact takeUntrusted_measure _
  · exact takeUntrusted_measure _

theorem step_measure (st : SearchState X) (h : ¬ st.Ended) :
    measure ctx (step o ctx st) < measure ctx st := by
  match st with
  | .busy .untrusted s => exact stepUntrusted_measure
  | .busy .look s => exact stepLook_measure
  | .busy .store s => exact stepStore_measure
  | .busy .trust s => exact stepTrust_measure
  | .busy (.alternative trust) s => exact stepAlternative_measure
  | .found trust s => exact absurd trivial h
  | .stopped ok s => exact absurd trivial h
  | .crashed => exact absurd trivial h

end Measure

section

variable [DecidableEq X] (o : Objects X K) (ctx : StoreCtx X) (cert : X)

/-- The first half of `X509_verify_cert`. -/
def search : SearchState X :=
  (step o ctx)^[measure ctx (searchStart ctx cert)] (searchStart ctx cert)

/-- The machine ends within a known number of steps. -/
theorem search_ended : (search o ctx cert).Ended := by
  refine iterate_ended step_measure (fun st h => ?_) _ _ le_rfl
  cases st with
  | busy _ s => exact h.elim
  | found trust s => exact h
  | stopped ok s => exact h
  | crashed => exact h

theorem iterate_good (hflag : ¬ ctx.flags.partial_chain) (n : ℕ) :
    Good o ctx cert ((step o ctx)^[n] (searchStart ctx cert)) := by
  induction n with
  | zero => exact searchStart_good ctx cert
  | succ n ih =>
    rw [Function.iterate_succ_apply']
    exact step_good hflag ih

variable {o ctx} in
theorem search_notBad (hcb : Transparent ctx.cb) : NotBad (search o ctx cert) := by
  rw [search]
  generalize measure ctx (searchStart ctx cert) = n
  induction n with
  | zero => exact rfl
  | succ n ih =>
    rw [Function.iterate_succ_apply']
    exact step_notBad hcb ih

end

end VigorTls.X509
