import Mathlib.Data.List.Basic
import Mathlib.Data.Nat.Bitwise
import Mathlib.Tactic.Common

/-!
# Lists of curves

`tls1_set_curves` and `tls1_get_curvelist` of `ssl/t1_lib.c`. `curves_used_iff` says when all
entries of a list are there and right: never for curves that were configured, because their number
is stored doubled and the array is never written; and of the Suite B modes only for the one that has
both curves.
-/

namespace VigorTls

/-- `nid_list`: the NID of the curve with the id 1, 2, and so on. -/
def nidList : List ℤ :=
  [721, 722, 723, 724, 725, 726, 727, 728, 729, 730, 731, 732, 733, 734, 708, 709, 710, 711, 409,
    712, 713, 714, 415, 715, 716, 929, 933, 935]

/-- `tls1_ec_nid2curve_id`, a switch with the same curves in the same order; 0 for any other NID. -/
def tls1EcNid2curveId (nid : ℤ) : ℕ := if nid ∈ nidList then nidList.idxOf nid + 1 else 0

/-- An array, a place in it, and a number of entries from there on. -/
structure CurveList where
  array : List UInt16
  start : ℕ
  len : ℕ

/-- The entries: `none` when one is not in the array. -/
def CurveList.entries (l : CurveList) : Option (List UInt16) :=
  if l.start + l.len ≤ l.array.length then some ((l.array.drop l.start).take l.len) else none

inductive SuiteB
  | off
  | los128Only
  | los192
  | los128
deriving DecidableEq

/-- What is read of a connection. -/
structure CurveConn where
  suiteb : SuiteB
  /-- `tlsext_ellipticcurvelist`, with its length. -/
  tlsext_ellipticcurvelist : Option CurveList
  /-- And that of the session, from the peer. -/
  session_curvelist : CurveList
  server : Bool
  ecdh_tmp_auto : Bool

def suitebCurves : List UInt16 := [23, 24]

def eccurvesAuto : List UInt16 := [23, 25, 28, 27, 24, 26, 22, 14, 13, 11, 12, 9, 10]

def eccurvesAll : List UInt16 :=
  eccurvesAuto ++ [20, 21, 18, 19, 15, 16, 17, 8, 6, 7, 4, 5, 1, 2, 3]

def tls1GetCurvelist (s : CurveConn) (client_curves : Bool) : CurveList :=
  if client_curves then s.session_curvelist
  else
    match s.suiteb with
    | .los128 => ⟨suitebCurves, 0, 4 / 2⟩
    | .los128Only => ⟨suitebCurves, 0, 2⟩
    | .los192 => ⟨suitebCurves, 2, 2⟩
    | .off => s.tlsext_ellipticcurvelist.getD
        (if !s.server || s.ecdh_tmp_auto then ⟨eccurvesAuto, 0, eccurvesAuto.length⟩
         else ⟨eccurvesAll, 0, eccurvesAll.length⟩)

/-- One round of the loop of `tls1_set_curves`: the bits of the curves that were seen. -/
def noteCurve (dup_list : ℕ) (nid : ℤ) : Option ℕ :=
  let id := tls1EcNid2curveId nid
  let idmask := 1 <<< id
  if id = 0 ∨ dup_list &&& idmask ≠ 0 then none else some (dup_list ||| idmask)

/-- `tls1_set_curves`: `clist` is the array that `reallocarray` gives. Nothing is written to it. -/
def tls1SetCurves {n : ℕ} (curves : Vector ℤ n) (clist : Vector UInt16 n) : Option CurveList :=
  (curves.toList.foldlM noteCurve 0).map fun _ => ⟨clist.toList, 0, n * 2⟩

def wantedCurves (suiteb : SuiteB) (curves : List ℤ) : List UInt16 :=
  match suiteb with
  | .los128 => [23, 24]
  | .los128Only => [23]
  | .los192 => [24]
  | .off => curves.map fun nid => UInt16.ofNat (tls1EcNid2curveId nid)

theorem foldlM_noteCurve {curves : List ℤ} (hknown : ∀ nid ∈ curves, nid ∈ nidList)
    (hnodup : curves.Nodup) {dup_list : ℕ}
    (hnew : ∀ nid ∈ curves, dup_list.testBit (tls1EcNid2curveId nid) = false) :
    (curves.foldlM noteCurve dup_list).isSome := by
  induction curves generalizing dup_list with
  | nil => rfl
  | cons nid curves ih =>
    obtain ⟨hnid, hnodup⟩ := List.nodup_cons.mp hnodup
    have hmem := hknown nid List.mem_cons_self
    have hround : noteCurve dup_list nid = some (dup_list ||| 1 <<< tls1EcNid2curveId nid) := by
      refine if_neg (not_or.mpr ⟨by simp [tls1EcNid2curveId, hmem], not_not.mpr ?_⟩)
      rw [Nat.one_shiftLeft, Nat.and_two_pow, hnew nid List.mem_cons_self]
      exact Nat.zero_mul _
    rw [List.foldlM_cons, hround]
    refine ih (fun x hx => hknown x (List.mem_cons_of_mem _ hx)) hnodup fun x hx => ?_
    have hne : nidList.idxOf nid ≠ nidList.idxOf x := fun heq =>
      hnid ((List.idxOf_inj hmem).mp heq ▸ hx)
    have hxmem := hknown x (List.mem_cons_of_mem _ hx)
    rw [Nat.testBit_or, hnew x (List.mem_cons_of_mem _ hx), Nat.one_shiftLeft, Nat.testBit_two_pow]
    simpa [tls1EcNid2curveId, hmem, hxmem] using hne

/-- The list that is handed out after curves were configured is the right one exactly in the Suite B
mode with both curves. -/
theorem curves_used_iff (s : CurveConn) {n : ℕ} (hn : n ≠ 0) (curves : Vector ℤ n)
    (hknown : ∀ nid ∈ curves.toList, nid ∈ nidList) (hnodup : curves.toList.Nodup)
    (clist : Vector UInt16 n) :
    ∃ l, tls1SetCurves curves clist = some l ∧
      ((tls1GetCurvelist { s with tlsext_ellipticcurvelist := some l } false).entries =
        some (wantedCurves s.suiteb curves.toList) ↔ s.suiteb = .los128) := by
  have hset := @foldlM_noteCurve _ hknown hnodup 0 fun _ _ => Nat.zero_testBit _
  obtain ⟨dup_list, hset⟩ := Option.isSome_iff_exists.mp hset
  refine ⟨⟨clist.toList, 0, n * 2⟩, by rw [tls1SetCurves, hset]; rfl, ?_⟩
  cases s.suiteb with
  | los128 => exact iff_of_true rfl rfl
  | los128Only =>
    refine iff_of_false ?_ (by decide)
    show CurveList.entries ⟨suitebCurves, 0, 2⟩ ≠ some [23]
    decide
  | los192 =>
    refine iff_of_false ?_ (by decide)
    show CurveList.entries ⟨suitebCurves, 2, 2⟩ ≠ some [24]
    decide
  | off =>
    have hout : ¬ 0 + n * 2 ≤ clist.toList.length := by
      rw [Vector.length_toList]
      omega
    refine iff_of_false (fun hentries => ?_) (by decide)
    exact Option.some_ne_none _ (hentries.symm.trans (if_neg hout))

/-- A client that is to use P-256 only. -/
def p256Client (suiteb : SuiteB) : CurveConn :=
  ⟨suiteb, tls1SetCurves #v[415] #v[0], ⟨[], 0, 0⟩, false, false⟩

/-- Its list has two entries, in an array of one. -/
theorem curves_used_outside :
    (tls1GetCurvelist (p256Client .off) false).len = 2 ∧
      (tls1GetCurvelist (p256Client .off) false).array.length = 1 := by
  decide

/-- With Suite B it has both curves of the mode. -/
theorem curves_used_iff_suiteb :
    (tls1GetCurvelist (p256Client .los128) false).entries = some [23, 24] := by
  obtain ⟨l, hl, hiff⟩ := curves_used_iff (p256Client .los128) one_ne_zero #v[415] (by decide)
    (by decide) #v[0]
  exact (congrArg (fun l => (tls1GetCurvelist { p256Client .los128 with
    tlsext_ellipticcurvelist := l } false).entries) hl).trans (hiff.mpr rfl)

end VigorTls
