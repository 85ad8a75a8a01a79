import Mathlib.Data.List.Count
import Mathlib.Data.List.DropRight
import Mathlib.Data.List.Nodup
import Mathlib.Data.List.Pairwise
import VigorTls.Lib.Bytes

/-!
# Lists of signature algorithms

`tls1_set_sigalgs_list` of `ssl/t1_lib.c`, with its callback `sig_cb`. The callback stores the hash
of a pair before the signature, and looks for the pair the other way round, so that a pair that
comes again is not noticed (`sigalgs_list_iff`).
-/

namespace VigorTls.Hello

open List Option

/-- `OBJ_sn2nid` and `OBJ_ln2nid`, with 0 for a name that is not known. -/
structure ObjNames where
  sn2nid : Bytes → ℤ
  ln2nid : Bytes → ℤ

def isspace (c : UInt8) : Bool := c = 32 || 9 ≤ c && c ≤ 13

/-- The elements that `CONF_parse_list` finds between colons; the callback gets `NULL` for an empty
one. -/
def listElements (list : Bytes) : List (Option Bytes) :=
  (list.splitOn 58).map fun piece =>
    let elem := (piece.dropWhile isspace).rdropWhile isspace
    if elem = [] then none else some elem

/-- The signature algorithms by their names: `RSA`, `DSA` and `ECDSA`. -/
def sigAlg (name : Bytes) : Option ℤ :=
  if name = [82, 83, 65] then some 6
  else if name = [68, 83, 65] then some 116
  else if name = [69, 67, 68, 83, 65] then some 408
  else none

def tls12FindId (nid : ℤ) (table : List (ℤ × UInt8)) : Option UInt8 :=
  (table.find? (·.1 = nid)).map Prod.snd

def tls12Md : List (ℤ × UInt8) := [(4, 1), (64, 2), (675, 3), (672, 4), (673, 5), (674, 6)]

def tls12Sig : List (ℤ × UInt8) := [(6, 1), (116, 2), (408, 3)]

/-- A pair is stored with the hash first. -/
structure SigPair where
  hash_alg : ℤ
  sig_alg : ℤ
deriving DecidableEq

/-- The arrays, of `MAX_SIGALGLEN` numbers, hold so many pairs. -/
abbrev maxPairs : ℕ := 7 * 4

section

variable (names : ObjNames)

/-- What `sig_cb` reads in an element. -/
def sigPair (elem : Option Bytes) : Option SigPair := do
  let etmp ← elem
  if 20 - 1 < etmp.length then none
  else
    let p := (etmp.dropWhile (· ≠ 43)).drop 1
    if p = [] then none
    else
      let sig_alg ← sigAlg (etmp.takeWhile (· ≠ 43))
      let hash_alg := if names.sn2nid p = 0 then names.ln2nid p else names.sn2nid p
      if hash_alg = 0 then none else some ⟨hash_alg, sig_alg⟩

/-- `sig_cb`. The first number of a pair is compared with the signature, the second with the hash.
-/
def sigCb (sigalgs : List SigPair) (elem : Option Bytes) : Option (List SigPair) :=
  if sigalgs.length = maxPairs then none
  else do
    let new ← sigPair names elem
    if sigalgs.any fun p => p.hash_alg = new.sig_alg ∧ p.sig_alg = new.hash_alg then none
    else some (sigalgs ++ [new])

def SigPair.ids (p : SigPair) : Option Bytes := do
  let rhash ← tls12FindId p.hash_alg tls12Md
  let rsign ← tls12FindId p.sig_alg tls12Sig
  some [rhash, rsign]

def tls1SetSigalgs : List SigPair → Option Bytes
  | [] => some []
  | p :: ps => do
    let ids ← p.ids
    (tls1SetSigalgs ps).map (ids ++ ·)

/-- `tls1_set_sigalgs_list`: what is stored, which is nothing if `c` is null. -/
def tls1SetSigalgsList (c : Bool) (str : Bytes) : Option (Option Bytes) := do
  let sigalgs ← (listElements str).foldlM (sigCb names) []
  if c then (tls1SetSigalgs sigalgs).map some else some none

/-- The pairs of the elements, `none` for an element that is not one. -/
def listedPairs (str : Bytes) : List (Option SigPair) := (listElements str).map (sigPair names)

/-- A list with a pair that comes again is refused; pairs that are all different and valid, and not
too many, are stored in order. -/
structure SigalgsRight (c : Bool) (str : Bytes) : Prop where
  repeated : ∀ p, 1 < (listedPairs names str).count (some p) →
    tls1SetSigalgsList names c str = none
  accepted : ∀ ps : List SigPair, listedPairs names str = ps.map some → ps.Nodup →
    (∀ p ∈ ps, p.ids.isSome) → ps.length ≤ maxPairs →
    tls1SetSigalgsList names c str =
      some (if c then some (ps.filterMap SigPair.ids).flatten else none)

/-- The hash of one pair is the signature of the other one, both ways. -/
def Crossed (p q : SigPair) : Prop := p.hash_alg = q.sig_alg ∧ p.sig_alg = q.hash_alg

/-- Pairs that are not too many, not crossed, and valid where this is asked. -/
structure Acceptable (c : Bool) (ps : List SigPair) : Prop where
  length : ps.length ≤ maxPairs
  uncrossed : ps.Pairwise fun p q => ¬ Crossed p q
  valid : c → ∀ p ∈ ps, p.ids.isSome

end

variable {names : ObjNames} {c : Bool} {str : Bytes}

theorem sigCb_eq_some_iff {elem : Option Bytes} {acc out : List SigPair} :
    sigCb names acc elem = some out ↔ ∃ new, sigPair names elem = some new ∧
      acc.length ≠ maxPairs ∧ (∀ p ∈ acc, ¬ Crossed p new) ∧ acc ++ [new] = out := by
  simp only [sigCb, ite_none_left_eq_some, bind_eq_bind, bind_eq_some_iff,
    some_inj, List.any_eq_true, decide_eq_true_eq, not_exists, not_and, Crossed]
  tauto

theorem foldlM_sigCb {elems : List (Option Bytes)} {acc out : List SigPair}
    (hlen : acc.length ≤ maxPairs) (hacc : acc.Pairwise fun p q => ¬ Crossed p q) :
    elems.foldlM (sigCb names) acc = some out ↔ ∃ ps : List SigPair,
      elems.map (sigPair names) = ps.map some ∧ acc ++ ps = out ∧ out.length ≤ maxPairs ∧
        out.Pairwise fun p q => ¬ Crossed p q := by
  induction elems generalizing acc with
  | nil =>
    simp only [map_nil, nil_eq, map_eq_nil_iff, exists_eq_left, append_nil]
    exact ⟨fun h => by cases h; exact ⟨rfl, hlen, hacc⟩, fun h => congrArg some h.1⟩
  | cons elem elems ih =>
    rw [foldlM_cons, bind_eq_bind, bind_eq_some_iff]
    constructor
    · rintro ⟨_, hcb, h⟩
      obtain ⟨new, hnew, hroom, hfree, rfl⟩ := sigCb_eq_some_iff.mp hcb
      rw [ih (by rw [length_append]; exact Nat.lt_of_le_of_ne hlen hroom)
        (pairwise_append.mpr ⟨hacc, pairwise_singleton _ _, by simpa using hfree⟩)] at h
      obtain ⟨ps, hps, hout⟩ := h
      exact ⟨new :: ps, by rw [map_cons, map_cons, hnew, hps], by simpa using hout⟩
    rintro ⟨_ | ⟨new, ps⟩, hps, rfl, hle, hpair⟩
    · cases hps
    obtain ⟨hnew, hps⟩ := cons.inj hps
    rw [length_append, length_cons] at hle
    have hfree := fun p hp => (pairwise_append.mp hpair).2.2 p hp new mem_cons_self
    refine ⟨_, sigCb_eq_some_iff.mpr ⟨new, hnew, by omega, hfree, rfl⟩, ?_⟩
    rw [ih (by rw [length_append, length_singleton]; omega)
      (pairwise_append.mpr ⟨hacc, pairwise_singleton _ _, by simpa using hfree⟩)]
    exact ⟨ps, hps, by simp, by simp; omega, by simpa using hpair⟩

theorem tls1SetSigalgs_eq {ps : List SigPair} : tls1SetSigalgs ps =
    if ∀ p ∈ ps, p.ids.isSome then some (ps.filterMap SigPair.ids).flatten else none := by
  induction ps with
  | nil => rfl
  | cons p ps ih =>
    rw [tls1SetSigalgs, ih]
    cases hids : p.ids with
    | none => simp [hids]
    | some ids =>
      by_cases hps : ∀ p ∈ ps, p.ids.isSome
      · simp [hids, if_pos hps]
      · simp [hids, hps]

theorem tls1SetSigalgsList_eq_some_iff {stored : Option Bytes} :
    tls1SetSigalgsList names c str = some stored ↔ ∃ ps : List SigPair,
      listedPairs names str = ps.map some ∧ Acceptable c ps ∧
        stored = if c then some (ps.filterMap SigPair.ids).flatten else none := by
  have hfold := fun out => @foldlM_sigCb names (listElements str) [] out (Nat.zero_le _) .nil
  simp only [tls1SetSigalgsList, bind_eq_bind, bind_eq_some_iff, hfold,
    nil_append, tls1SetSigalgs_eq]
  constructor
  · rintro ⟨_, ⟨ps, hps, rfl, hlen, hfree⟩, h⟩
    refine ⟨ps, hps, ?_⟩
    cases c with
    | false => exact ⟨⟨hlen, hfree, by rintro ⟨⟩⟩, (some_inj.mp h).symm⟩
    | true =>
      rw [if_pos rfl, map_eq_some_iff] at h
      obtain ⟨ids, hids, rfl⟩ := h
      obtain ⟨hvalid, hids⟩ := ite_none_right_eq_some.mp hids
      exact ⟨⟨hlen, hfree, fun _ => hvalid⟩, hids.symm⟩
  · rintro ⟨ps, hps, h, rfl⟩
    refine ⟨ps, ⟨ps, hps, rfl, h.length, h.uncrossed⟩, ?_⟩
    cases c with
    | false => rfl
    | true => rw [if_pos rfl, if_pos (h.valid rfl)]; rfl

theorem not_crossed {elem : Option Bytes} {p q : SigPair} (hp : p.ids.isSome)
    (hq : sigPair names elem = some q) : ¬ Crossed p q := by
  rintro ⟨heq, -⟩
  have hsig : q.sig_alg = 6 ∨ q.sig_alg = 116 ∨ q.sig_alg = 408 := by
    simp only [sigPair, bind_eq_bind, bind_eq_some_iff, ite_none_left_eq_some] at hq
    obtain ⟨etmp, -, -, -, sig_alg, hsig, -, hq⟩ := hq
    cases hq
    unfold sigAlg at hsig
    split_ifs at hsig <;> cases hsig <;> simp
  rw [← heq] at hsig
  rcases hsig with h | h | h <;> simp [SigPair.ids, h, tls12FindId, tls12Md] at hp

/-- All is as it should be exactly when pairs that come again are in a list that is refused for
another reason. -/
theorem sigalgs_list_iff (names : ObjNames) (c : Bool) (str : Bytes) :
    SigalgsRight names c str ↔ ∀ ps : List SigPair,
      listedPairs names str = ps.map some → Acceptable c ps → ps.Nodup := by
  have hcount {ps : List SigPair} (hps : listedPairs names str = ps.map some) (p : SigPair) :
      (listedPairs names str).count (some p) = ps.count p := by
    rw [hps, count_map_of_injective _ _ fun _ _ => some.inj]
  constructor
  · intro h ps hps haccept
    rw [nodup_iff_count_le_one]
    intro p
    by_contra hp
    have hnone := h.repeated p (by rw [hcount hps]; omega)
    have hsome := tls1SetSigalgsList_eq_some_iff.mpr ⟨ps, hps, haccept, rfl⟩
    cases hnone.symm.trans hsome
  refine fun h => ⟨fun p hp => ?_, fun ps hps _ hvalid hlen => ?_⟩
  · by_contra hsome
    obtain ⟨stored, hsome⟩ := ne_none_iff_exists'.mp hsome
    obtain ⟨ps, hps, haccept, -⟩ := tls1SetSigalgsList_eq_some_iff.mp hsome
    have hle := nodup_iff_count_le_one.mp (h ps hps haccept) p
    rw [hcount hps] at hp
    omega
  · refine tls1SetSigalgsList_eq_some_iff.mpr ⟨ps, hps, ⟨hlen, ?_, fun _ => hvalid⟩, rfl⟩
    refine pairwise_of_forall_mem_list fun p hp q hq => ?_
    have hmem : some q ∈ listedPairs names str := hps ▸ mem_map_of_mem hq
    obtain ⟨elem, -, helem⟩ := mem_map.mp hmem
    exact not_crossed (hvalid p hp) helem

/-- `RSA+SHA1:RSA+SHA1` is taken. -/
theorem sigalgs_list_again :
    ¬ SigalgsRight ⟨fun p => if p = [83, 72, 65, 49] then 64 else 0, fun _ => 0⟩ true
      [82, 83, 65, 43, 83, 72, 65, 49, 58, 82, 83, 65, 43, 83, 72, 65, 49] := by
  intro h
  have hrsa := h.repeated ⟨64, 6⟩ (by decide)
  revert hrsa
  decide

end VigorTls.Hello
