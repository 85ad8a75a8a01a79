import Mathlib.Algebra.Ring.Nat
import VigorTls.Asn1.Integer

/-!
# Decoding into an object that exists

`c2i_ASN1_INTEGER`, `c2i_ASN1_OBJECT` and `c2i_ASN1_BIT_STRING` fill the object in `*a` if there is
one. The first sets the sign of a negative number and never clears it, and the second keeps the
`nid`, so that what these two leave depends on what was there (`decode_reuse`).
-/

namespace VigorTls.Asn1

/-- An `ASN1_STRING` that holds an INTEGER or a BIT STRING. -/
structure Asn1String where
  type : ℕ
  data : Bytes
  flags : BitVec 64

/-- The bit `V_ASN1_NEG` of the type, and the magnitude. -/
def Asn1String.signMagnitude (a : Asn1String) : Bool × Bytes := (a.type.testBit 8, a.data)

/-- `c2i_ASN1_INTEGER`; `c2i_ibuf` writes all of the data. -/
def c2iAsn1Integer (a : Option Asn1String) (octets : Bytes) : Option Asn1String :=
  match c2iIbuf octets with
  | none => none
  | some x =>
    let ret := a.getD ⟨2, [], 0⟩
    some { ret with data := x.octets, type := if x.neg then ret.type ||| 0x100 else ret.type }

/-- The bits, and how many of the last octet are unused. -/
def Asn1String.bits (a : Asn1String) : Bytes × BitVec 64 := (a.data, a.flags &&& 0xf)

def c2iAsn1BitString (a : Option Asn1String) : Bytes → Option Asn1String
  | [] => none
  | i :: rest =>
    if 7 < i then none
    else
      let ret := a.getD ⟨3, [], 0⟩
      some { type := 3
             data := rest.modifyLast (· &&& (0xff <<< i))
             flags := (ret.flags &&& ~~~0xf) ||| (0x8 ||| i.toBitVec.setWidth 64) }

/-- An `ASN1_OBJECT`; its other flags are not read. -/
structure Asn1Object where
  sn : Option String
  ln : Option String
  nid : ℤ
  data : Bytes
  dynamic : Bool
  dynamic_data : Bool

def asn1ObjectNew : Asn1Object := ⟨none, none, 0, [], true, false⟩

/-- The loop of `c2i_ASN1_OBJECT`, after an octet whose top bit is `more`: no arc starts with
`0x80`. -/
def arcsStart : Bool → Bytes → Bool
  | _, [] => true
  | more, p :: rest => !(p = 0x80 && !more) && arcsStart (p &&& 0x80 ≠ 0) rest

/-- The sanity checks of `c2i_ASN1_OBJECT`. -/
def oidAccepted (octets : Bytes) : Bool :=
  octets ≠ [] && octets.length < 2 ^ 31 && octets.getLast?.all (· &&& 0x80 = 0) &&
    arcsStart false octets

def c2iAsn1Object (a : Option Asn1Object) (octets : Bytes) : Option Asn1Object :=
  if oidAccepted octets then
    let ret := (a.filter (·.dynamic)).getD asn1ObjectNew
    some { ret with
      data := octets, sn := none, ln := none
      dynamic_data := ret.dynamic_data || ret.data.length < octets.length }
  else none

/-- `OBJ_obj2nid`, where `find` looks the octets up. -/
def objObj2nid (find : Bytes → ℤ) (a : Asn1Object) : ℤ :=
  if a.nid ≠ 0 then a.nid else if a.data = [] then 0 else find a.data

theorem neg_c2iIbuf {octets : Bytes} {x : Ibuf} (h : c2iIbuf octets = some x) :
    x.neg = octets.head?.any (· &&& 0x80 ≠ 0) := by
  match octets, h with
  | [p], h =>
    cases h
    rfl
  | p :: q :: rest, h =>
    unfold c2iIbuf at h
    dsimp only at h
    split_ifs at h with _ hp
    · cases h
      simp [hp]
    · cases h
      simp [hp]
    · cases h
      simp [hp]
    all_goals
      obtain ⟨l, -, rfl⟩ := Option.map_eq_some_iff.mp h
      simp [hp]

theorem flags_low (f g x : BitVec 64) :
    ((f &&& ~~~0xf) ||| x) &&& 0xf = ((g &&& ~~~0xf) ||| x) &&& 0xf := by
  ext k hk
  simp only [BitVec.getElem_and, BitVec.getElem_or, BitVec.getElem_not]
  cases f[k] <;> cases g[k] <;> cases (0xf : BitVec 64)[k] <;> simp

/-- Decoding into an object gives what decoding into a new one gives: an INTEGER exactly if the
object was not negative or the octets are, an OBJECT IDENTIFIER exactly if no other `nid` is kept, a
BIT STRING always. -/
theorem decode_reuse (find : Bytes → ℤ) (octets : Bytes) :
    (∀ old, (c2iAsn1Integer none octets).isSome →
      ((c2iAsn1Integer (some old) octets).map Asn1String.signMagnitude =
          (c2iAsn1Integer none octets).map Asn1String.signMagnitude ↔
        (old.type.testBit 8 = true → octets.head?.any (· &&& 0x80 ≠ 0) = true))) ∧
    (∀ old, (c2iAsn1Object none octets).isSome →
      ((c2iAsn1Object (some old) octets).map (fun o => (o.data, objObj2nid find o)) =
          (c2iAsn1Object none octets).map (fun o => (o.data, objObj2nid find o)) ↔
        (old.dynamic = true → old.nid ≠ 0 → old.nid = find octets))) ∧
    ∀ old, (c2iAsn1BitString (some old) octets).map Asn1String.bits =
      (c2iAsn1BitString none octets).map Asn1String.bits := by
  refine ⟨fun old hsome => ?_, fun old hsome => ?_, fun old => ?_⟩
  · unfold c2iAsn1Integer at hsome ⊢
    cases hx : c2iIbuf octets with
    | none => simp [hx] at hsome
    | some x =>
      rw [← neg_c2iIbuf hx]
      have hbits : Nat.testBit 2 8 = false ∧ Nat.testBit 256 8 = true ∧
          Nat.testBit 258 8 = true := by
        decide
      cases hneg : x.neg <;> simp [hneg, hbits, Asn1String.signMagnitude]
  · unfold c2iAsn1Object at hsome ⊢
    split at hsome
    case isFalse => cases hsome
    next hacc =>
    rw [if_pos hacc, if_pos hacc]
    have hne : octets ≠ [] := by
      simp only [oidAccepted, Bool.and_eq_true, decide_eq_true_eq] at hacc
      exact hacc.1.1.1
    cases hdyn : old.dynamic with
    | false => simp [hdyn, Option.filter]
    | true =>
      by_cases hnid : old.nid = 0 <;>
        simp [hdyn, hne, Option.filter, objObj2nid, asn1ObjectNew]
  · cases octets with
    | nil => rfl
    | cons i rest =>
      unfold c2iAsn1BitString
      dsimp only
      split_ifs
      · rfl
      · exact congrArg some (Prod.ext rfl (flags_low _ _ _))

/-- A positive number after a negative one, and an identifier after one with another `nid`. -/
theorem decode_reuse_leaks :
    ((c2iAsn1Integer (some ⟨0x102, [5], 0⟩) [7]).map Asn1String.signMagnitude = some (true, [7]) ∧
      (c2iAsn1Integer none [7]).map Asn1String.signMagnitude = some (false, [7])) ∧
    (c2iAsn1Object (some ⟨none, none, 6, [0x2a, 0x03], true, true⟩) [0x2a, 0x04]).map
        (objObj2nid fun _ => 0) = some 6 ∧
      (c2iAsn1Object none [0x2a, 0x04]).map (objObj2nid fun _ => 0) = some 0 := by
  decide

end VigorTls.Asn1
