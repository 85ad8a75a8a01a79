import VigorTls.Lib.Run
import VigorTls.Sk.Stack
import Mathlib.Data.List.Sort

/-!
# Stacks that are said to be sorted

With `sorted` set `sk_find` does not sort the elements before its binary search. Every function
keeps `Stack.Ordered` (`call_ordered`) but `sk_set`, which puts any element anywhere and leaves
`sorted` alone. In a stack in order the search ends with the first element that compares equal, or
knows that there is none (`objBsearchEx_spec`), but for the null pointer as a key.
-/

namespace VigorTls.Sk

open Lib List Option Prod

section

variable {β : Type} {cmp : β → β → ℤ} {key : β} {base : List β}

theorem bsearchLoop_spec (hcmp : TotalOrder cmp) (hbase : Ascending cmp base)
    (hlen : base.length ≤ 2 ^ 28) : ∀ {fuel l h i : ℕ} {c : ℤ}, Narrowed cmp key base l h →
    h - l ≤ fuel → l < h ∨ c ≠ 0 →
    ∃ i' c', bsearchLoop cmp key base pointerSize fuel l h i c = some (i', c') ∧
      (c' = 0 → ∃ x ∈ base[i']?, cmp key x = 0) ∧ (c' ≠ 0 → ∀ x ∈ base, cmp key x ≠ 0) := by
  intro fuel
  induction fuel with
  | zero =>
    intro l h i c hn hfuel hc
    have hle : h ≤ l := by omega
    rw [bsearchLoop, if_neg (by omega)]
    exact ⟨i, c, rfl, fun hzero => absurd hzero (by omega), fun _ => hn.ne_of_le hle⟩
  | succ fuel ih =>
    intro l h i c hn hfuel hc
    rw [bsearchLoop]
    by_cases hlt : l < h
    · have hh := hn.h_le
      have hmid : (l + h) / 2 < base.length := by omega
      have hfits : ¬ (l + h > intMax ∨ (l + h) / 2 * pointerSize > intMax) := by
        simp only [intMax, pointerSize]
        omega
      obtain ⟨x, hx⟩ : ∃ x, base[(l + h) / 2]? = some x := ⟨_, getElem?_eq_getElem hmid⟩
      rw [if_pos hlt, if_neg hfits, hx, bind_eq_bind, bind_some]
      rcases lt_trichotomy (cmp key x) 0 with hneg | hzero | hpos
      · rw [if_pos hneg]
        exact ih (hn.upper hcmp hbase hx hneg) (by omega) (.inr (by omega))
      · rw [if_neg (by omega), if_neg (by omega)]
        exact ⟨_, _, rfl, fun _ => ⟨x, hx, hzero⟩, fun hne => absurd hzero hne⟩
      · rw [if_neg (by omega), if_pos hpos]
        exact ih (hn.lower hcmp hbase hx hpos) (by omega) (.inr (by omega))
    · rw [if_neg hlt]
      exact ⟨i, c, rfl, fun hzero => absurd hzero (by omega), fun _ => hn.ne_of_le (by omega)⟩

theorem bsearchFirst_spec (hcmp : TotalOrder cmp) (hbase : Ascending cmp base) : ∀ {i : ℕ} {x : β},
    base[i]? = some x → cmp key x = 0 →
    ∃ j, bsearchFirst cmp key base i = some j ∧ FirstEqual cmp key base j := by
  intro i
  induction i with
  | zero =>
    intro x hx heq
    exact ⟨0, rfl, ⟨x, hx, heq⟩, fun j hj => absurd hj (Nat.not_lt_zero j)⟩
  | succ i ih =>
    intro x hx heq
    have hi : i < base.length := Nat.lt_of_succ_lt (List.getElem?_eq_some_iff.mp hx).1
    obtain ⟨p, hp⟩ : ∃ p, base[i]? = some p := ⟨_, getElem?_eq_getElem hi⟩
    rw [bsearchFirst, hp, bind_eq_bind, bind_some]
    split_ifs with hzero
    · exact ih hp hzero
    -- The element before is smaller, and so are all before that.
    have hpx := hbase.get_le (Nat.lt_succ_self i) hp hx
    have hpos : 0 < cmp key p := by
      by_contra hle
      have hlt := hcmp.lt_of_lt_of_le (show cmp key p < 0 by omega) hpx
      omega
    refine ⟨i + 1, rfl, ⟨x, hx, heq⟩, fun j hj y hy => ?_⟩
    rcases Nat.lt_succ_iff_lt_or_eq.mp hj with hji | rfl
    · have hgt := hcmp.lt_of_gt_of_le hpos (hbase.get_le hji hy hp)
      omega
    · rw [hp] at hy
      cases hy
      exact hzero

theorem objBsearchEx_defined (hcmp : TotalOrder cmp) (hbase : Ascending cmp base)
    (hlen : base.length ≤ 2 ^ 28) :
    ∃ r, objBsearchEx cmp key base pointerSize true false = some r := by
  unfold objBsearchEx
  by_cases hnil : base = []
  · rw [if_pos hnil]
    exact ⟨none, rfl⟩
  have hpos : 0 < base.length := length_pos_iff.mpr hnil
  have hfuel : base.length - 0 ≤ base.length := Nat.sub_le ..
  obtain ⟨i, c, hloop, -, -⟩ := bsearchLoop_spec (i := 0) (c := 0) hcmp hbase hlen
    (.start cmp key base) hfuel (.inl hpos)
  rw [if_neg hnil, hloop, bind_eq_bind, bind_some]
  dsimp only
  rw [if_neg (fun h => h.2 rfl), if_neg (fun h => by cases h.2)]
  exact ⟨some i, rfl⟩

theorem objBsearchEx_spec (hcmp : TotalOrder cmp) (hbase : Ascending cmp base)
    (hlen : base.length ≤ 2 ^ 28) :
    ∃ r, objBsearchEx cmp key base pointerSize false true = some r ∧
      (r = none → ∀ x ∈ base, cmp key x ≠ 0) ∧ ∀ i ∈ r, FirstEqual cmp key base i := by
  unfold objBsearchEx
  by_cases hnil : base = []
  · rw [if_pos hnil]
    refine ⟨none, rfl, fun _ x hx => ?_, fun i hi => (by cases hi)⟩
    rw [hnil] at hx
    cases hx
  have hpos : 0 < base.length := length_pos_iff.mpr hnil
  have hfuel : base.length - 0 ≤ base.length := Nat.sub_le ..
  obtain ⟨i, c, hloop, hequal, hnone⟩ := bsearchLoop_spec (i := 0) (c := 0) hcmp hbase hlen
    (.start cmp key base) hfuel (.inl hpos)
  rw [if_neg hnil, hloop, bind_eq_bind, bind_some]
  dsimp only
  by_cases hc : c = 0
  · obtain ⟨x, hx, hzero⟩ := hequal hc
    obtain ⟨j, hfirst, hj⟩ := bsearchFirst_spec hcmp hbase hx hzero
    rw [if_neg (by simp [hc]), if_pos ⟨hc, rfl⟩, hfirst]
    exact ⟨some j, rfl, by rintro ⟨⟩, fun i hi => by cases hi; exact hj⟩
  · rw [if_pos ⟨hc, (by decide)⟩]
    exact ⟨none, rfl, fun _ => hnone hc, fun i hi => by cases hi⟩

end

/-! ## Sequences of calls -/

variable {α K : Type}

inductive Call (α K : Type)
  | setCmpFunc (c : Option K)
  | insert (allocs : Bool) (data : Option α) (loc : ℤ)
  | push (allocs : Bool) (data : Option α)
  | unshift (allocs : Bool) (data : Option α)
  | delete (loc : ℤ)
  | deletePtr (p : Option α)
  | shift
  | pop
  | zero
  | set (i : ℤ) (value : Option α)
  | sort
  | find (data : Option α)
  | findEx (data : Option α)

/-- A stack is made or copied, or a function is called with one. -/
inductive Op (α K : Type)
  | new (c : Option K)
  | dup (i : ℕ)
  | on (i : ℕ) (c : Call α K)

section

variable [DecidableEq α] [DecidableEq K] (env : Env α K)

def call (st : Stack α K) : Call α K → Option (Stack α K)
  | .setCmpFunc c => some (skSetCmpFunc st c).2
  | .insert allocs data loc => (skInsert allocs st data loc).map snd
  | .push allocs data => (skPush allocs st data).map snd
  | .unshift allocs data => (skUnshift allocs st data).map snd
  | .delete loc => some (skDelete st loc).2
  | .deletePtr p => some (skDeletePtr st p).2
  | .shift => some (skShift st).2
  | .pop => some (skPop st).2
  | .zero => some (skZero st)
  | .set i value => some (skSet st i value).2
  | .sort => some (skSort env st)
  | .find data => (skFind env st data).map snd
  | .findEx data => (skFindEx env st data).map snd

/-- The stacks after a call. The null pointer is no stack. -/
def step (sks : List (Stack α K)) : Op α K → Option (List (Stack α K))
  | .new c => some (sks ++ [skNew c])
  | .dup i => some (sks ++ (sks[i]?.map skDup).toList)
  | .on i c =>
    match sks[i]? with
    | some st => (call env st c).map fun st' => sks.set i st'
    | none => some sks

def run : List (Stack α K) → List (Op α K) → Option (List (Stack α K)) := runOption (step env)

end

/-- The number of elements up to which their offsets are an `int`. -/
abbrev maxNum : ℕ := 2 ^ 28

/-- What `sorted` says, with a bound on the number of elements. -/
structure Stack.Ordered (env : Env α K) (st : Stack α K) : Prop where
  sorted : st.sorted = true → ∃ k, st.comp = some k ∧ Ascending (env.comp k) st.data
  num_le : st.num ≤ maxNum

/-- The calls that are in order: an insertion into a stack with room, and an assignment to a sorted
one of a value between the neighbours of its place. -/
def Allowed (env : Env α K) (st : Stack α K) : Call α K → Prop
  | .insert .. | .push .. | .unshift .. => st.num < maxNum
  | .set i value => st.sorted = true → 0 ≤ i → i < st.num → ∀ k ∈ st.comp,
      Between (env.comp k) st.data i.toNat value
  | _ => True

instance (env : Env α K) (st : Stack α K) : DecidablePred (Allowed env st)
  | .insert .. | .push .. | .unshift .. => inferInstanceAs (Decidable (st.num < maxNum))
  | .set .. => inferInstanceAs (Decidable (st.sorted = true → _ → _ → ∀ k ∈ st.comp, Between ..))
  | .setCmpFunc _ | .delete _ | .deletePtr _ | .shift | .pop | .zero | .sort | .find _
  | .findEx _ => .isTrue trivial

/-- -1 if no element compares equal to the key, or else the index of the first that does. -/
def Found (cmp : Option α → Option α → ℤ) (key : Option α) (data : List (Option α)) (r : ℤ) :
    Prop :=
  r = -1 ∧ (∀ x ∈ data, cmp key x ≠ 0) ∨ ∃ i : ℕ, r = i ∧ FirstEqual cmp key data i

section

variable {env : Env α K} {st : Stack α K}

section

variable (h : st.Ordered env)

include h

theorem skInsert_ordered (allocs : Bool) (data : Option α) (loc : ℤ) (hroom : st.num < maxNum) :
    ∃ ret st', skInsert allocs st data loc = some (ret, st') ∧ st'.Ordered env := by
  unfold skInsert
  by_cases hfails : st.num_alloc ≤ st.num + 1 ∧ ¬ allocs
  · rw [if_pos hfails]
    exact ⟨0, st, rfl, h⟩
  obtain ⟨n, hreserve⟩ : ∃ n, st.reserve = some { st with num_alloc := n } := by
    unfold Stack.reserve
    by_cases hfull : st.num_alloc ≤ st.num + 1
    · have hfits : ¬ st.num_alloc * 2 > intMax := by
        simp only [intMax, maxNum] at hroom ⊢
        omega
      rw [if_pos hfull, if_neg hfits]
      exact ⟨_, rfl⟩
    · rw [if_neg hfull]
      exact ⟨st.num_alloc, rfl⟩
  rw [if_neg hfails, hreserve, bind_eq_bind, bind_some]
  split
  · refine ⟨_, _, rfl, nofun, ?_⟩
    rw [Stack.num, length_append]
    exact hroom
  · refine ⟨_, _, rfl, nofun, ?_⟩
    rw [Stack.num, length_append, length_cons, ← Nat.add_assoc, ← length_append, take_append_drop]
    exact hroom

theorem Stack.Ordered.sublist {data : List (Option α)}
    (hdata : data.Sublist st.data) : ({ st with data := data } : Stack α K).Ordered env where
  sorted hsorted := by
    obtain ⟨k, hk, hasc⟩ := h.sorted hsorted
    exact ⟨k, hk, hasc.sublist hdata⟩
  num_le := Nat.le_trans hdata.length_le h.num_le

theorem skDelete_ordered (loc : ℤ) : (skDelete st loc).2.Ordered env := by
  unfold skDelete
  split
  · exact h
  · exact h.sublist (eraseIdx_sublist ..)

omit h in
theorem skSort_eq (st : Stack α K) {k : K} (hk : st.comp = some k) :
    skSort env st = if st.sorted then st
      else { st with data := env.qsort k st.data, sorted := true } := by
  unfold skSort
  rw [hk]
  cases hsorted : st.sorted with
  | false => rfl
  | true => rfl

theorem skSort_ordered : (skSort env st).Ordered env := by
  cases hk : st.comp with
  | none =>
    unfold skSort
    rw [hk]
    split
    · next hsome => cases hsome
    · exact h
  | some k =>
    rw [skSort_eq st hk]
    split
    · exact h
    · refine ⟨fun _ => ⟨k, hk, env.qsort_ascending k st.data⟩, ?_⟩
      rw [Stack.num, (env.qsort_perm k st.data).length_eq]
      exact h.num_le

theorem skSort_ascending {k : K} (hk : st.comp = some k) :
    Ascending (env.comp k) (skSort env st).data := by
  rw [skSort_eq st hk]
  split
  · next hsorted =>
    obtain ⟨k', hk', hasc⟩ := h.sorted hsorted
    rw [hk, some_inj] at hk'
    exact hk' ▸ hasc
  · exact env.qsort_ascending k st.data

end

theorem skSort_perm (env : Env α K) (st : Stack α K) : (skSort env st).data.Perm st.data := by
  unfold skSort
  split
  · exact env.qsort_perm ..
  · exact .refl _

variable [DecidableEq α]

theorem skFind_spec (h : st.Ordered env) {k : K} (hk : st.comp = some k) (key : Option α) :
    ∃ r, skFind env st key = some (r, skSort env st) ∧
      (Found (env.comp k) key (skSort env st).data r ↔
        key ≠ none ∨ ∀ x ∈ st.data, env.comp k none x ≠ 0) := by
  have hsort := skSort_ordered h
  unfold skFind internalFind
  rw [hk]
  dsimp only
  by_cases hkey : key = none
  · subst hkey
    refine ⟨-1, rfl, ?_, ?_⟩
    · rintro (⟨-, hnone⟩ | ⟨i, hi, -⟩)
      · exact .inr fun x hx => hnone x ((skSort_perm env st).mem_iff.mpr hx)
      · omega
    · rintro (hne | hnone)
      · exact absurd rfl hne
      · exact .inl ⟨rfl, fun x hx => hnone x ((skSort_perm env st).mem_iff.mp hx)⟩
  · obtain ⟨r, hsearch, hnone, hfirst⟩ :=
      objBsearchEx_spec (env.total k) (skSort_ascending h hk) hsort.num_le
    rw [if_neg hkey, hsearch, bind_eq_bind]
    refine ⟨_, rfl, fun _ => .inl hkey, fun _ => ?_⟩
    cases r with
    | none => exact .inl ⟨rfl, hnone rfl⟩
    | some i => exact .inr ⟨i, rfl, hfirst i rfl⟩

theorem skFindEx_defined (h : st.Ordered env) (key : Option α) :
    ∃ r st', skFindEx env st key = some (r, st') ∧ st'.Ordered env := by
  unfold skFindEx internalFind
  cases hk : st.comp with
  | none => exact ⟨_, st, rfl, h⟩
  | some k =>
    have hsort := skSort_ordered h
    dsimp only
    split
    · exact ⟨-1, _, rfl, hsort⟩
    · obtain ⟨r, hsearch⟩ :=
        objBsearchEx_defined (env.total k) (skSort_ascending h hk) hsort.num_le
      rw [hsearch]
      exact ⟨_, _, rfl, hsort⟩

variable [DecidableEq K]

theorem call_ordered (h : st.Ordered env) {c : Call α K} (hc : Allowed env st c) :
    ∃ st', call env st c = some st' ∧ st'.Ordered env := by
  cases c with
  | setCmpFunc c =>
    refine ⟨_, rfl, fun hsorted => ?_, h.num_le⟩
    by_cases hne : st.comp ≠ c
    · simp [skSetCmpFunc, hne] at hsorted
    · rw [not_not] at hne
      simp only [skSetCmpFunc, hne, ne_eq, not_true_eq_false] at hsorted ⊢
      exact hne ▸ h.sorted hsorted
  | insert allocs data loc =>
    obtain ⟨ret, st', heq, hst'⟩ := skInsert_ordered h allocs data loc hc
    exact ⟨st', by rw [call, heq]; rfl, hst'⟩
  | push allocs data =>
    obtain ⟨ret, st', heq, hst'⟩ := skInsert_ordered h allocs data st.num hc
    exact ⟨st', by rw [call, skPush, heq]; rfl, hst'⟩
  | unshift allocs data =>
    obtain ⟨ret, st', heq, hst'⟩ := skInsert_ordered h allocs data 0 hc
    exact ⟨st', by rw [call, skUnshift, heq]; rfl, hst'⟩
  | delete loc => exact ⟨_, rfl, skDelete_ordered h loc⟩
  | deletePtr p =>
    refine ⟨_, rfl, ?_⟩
    unfold skDeletePtr
    split
    · exact h
    · split
      · exact skDelete_ordered h _
      · exact h
  | shift =>
    refine ⟨_, rfl, ?_⟩
    unfold skShift
    split
    · exact h
    · exact skDelete_ordered h 0
  | pop =>
    refine ⟨_, rfl, ?_⟩
    unfold skPop
    split
    · exact h
    · exact skDelete_ordered h _
  | zero =>
    refine ⟨_, rfl, ?_⟩
    unfold skZero
    split
    · exact h
    · exact h.sublist (nil_sublist _)
  | set i value =>
    refine ⟨_, rfl, ?_⟩
    unfold skSet
    split
    · exact h
    next hin =>
    refine ⟨fun hsorted => ?_, ?_⟩
    · obtain ⟨k, hk, hasc⟩ := h.sorted hsorted
      have hi : i.toNat < st.data.length := by
        rw [Stack.num] at hin
        omega
      exact ⟨k, hk, (hasc.set_iff (env.total k) hi).mpr (hc hsorted (by omega) (by omega) k hk)⟩
    · rw [Stack.num, length_set]
      exact h.num_le
  | sort => exact ⟨_, rfl, skSort_ordered h⟩
  | find key =>
    cases hk : st.comp with
    | none =>
      exact ⟨st, by rw [call, skFind, internalFind, hk]; rfl, h⟩
    | some k =>
      obtain ⟨r, heq, -⟩ := skFind_spec h hk key
      exact ⟨_, by rw [call, heq]; rfl, skSort_ordered h⟩
  | findEx key =>
    obtain ⟨r, st', heq, hst'⟩ := skFindEx_defined h key
    exact ⟨st', by rw [call, heq]; rfl, hst'⟩

/-- The calls on the stacks of a program that are in order. -/
def OpAllowed (env : Env α K) (sks : List (Stack α K)) : Op α K → Prop
  | .on i c => ∀ st ∈ sks[i]?, Allowed env st c
  | _ => True

instance (env : Env α K) (sks : List (Stack α K)) : DecidablePred (OpAllowed env sks)
  | .on i c => inferInstanceAs (Decidable (∀ st ∈ sks[i]?, Allowed env st c))
  | .new _ | .dup _ => .isTrue trivial

def AllAllowed (env : Env α K) (sks : List (Stack α K)) : List (Op α K) → Prop :=
  AlongOption (step env) (fun _ _ => ()) (fun sks _ op => OpAllowed env sks op) sks ()

instance (env : Env α K) (sks : List (Stack α K)) : DecidablePred (AllAllowed env sks) :=
  AlongOption.decidable _ _ _ sks ()

theorem step_ordered {sks : List (Stack α K)} (h : ∀ st ∈ sks, st.Ordered env) {op : Op α K}
    (hop : OpAllowed env sks op) :
    ∃ sks', step env sks op = some sks' ∧ ∀ st ∈ sks', st.Ordered env := by
  cases op with
  | new c =>
    refine ⟨_, rfl, fun st hst => ?_⟩
    rcases mem_append.mp hst with hst | hst
    · exact h st hst
    · rw [mem_singleton.mp hst]
      exact ⟨nofun, Nat.zero_le _⟩
  | dup i =>
    refine ⟨_, rfl, fun st hst => ?_⟩
    rcases mem_append.mp hst with hst | hst
    · exact h st hst
    · rw [mem_toList, map_eq_some_iff] at hst
      obtain ⟨sk, hsk, rfl⟩ := hst
      exact h sk (mem_of_getElem? hsk)
  | on i c =>
    cases hi : sks[i]? with
    | none => exact ⟨sks, by rw [step, hi], h⟩
    | some st =>
      obtain ⟨st', hcall, hst'⟩ := call_ordered (h st (mem_of_getElem? hi)) (hop st hi)
      refine ⟨sks.set i st', by rw [step, hi]; dsimp only; rw [hcall]; rfl, fun x hx => ?_⟩
      rcases mem_or_eq_of_mem_set hx with hx | rfl
      · exact h x hx
      · exact hst'

theorem run_ordered {ops : List (Op α K)} {sks : List (Stack α K)} (h : ∀ st ∈ sks, st.Ordered env)
    (hall : AllAllowed env sks ops) :
    ∃ sks', run env sks ops = some sks' ∧ ∀ st ∈ sks', st.Ordered env :=
  runOption_refines (R := fun (sks : List (Stack α K)) _ => ∀ st ∈ sks, st.Ordered env)
    (fun _ _ _ h hop => step_ordered h hop) h hall

end

/-- After every sequence of calls in which an assignment to a sorted stack keeps its order, a stack
said to be sorted is, and `sk_find` returns the first element that compares equal to the key, or -1,
unless it is asked for a null pointer that is there. -/
theorem sorted_stays [DecidableEq α] [DecidableEq K] (env : Env α K) (ops : List (Op α K))
    (hall : AllAllowed env [] ops) :
    ∃ sks, run env [] ops = some sks ∧ ∀ st ∈ sks,
      (st.sorted = true → ∃ k, st.comp = some k ∧ Ascending (env.comp k) st.data) ∧
      ∀ k, st.comp = some k → ∀ key, ∃ r, skFind env st key = some (r, skSort env st) ∧
        (skSort env st).data.Perm st.data ∧ Ascending (env.comp k) (skSort env st).data ∧
        (Found (env.comp k) key (skSort env st).data r ↔
          key ≠ none ∨ ∀ x ∈ st.data, env.comp k none x ≠ 0) := by
  obtain ⟨sks, hrun, h⟩ := run_ordered (fun _ hst => absurd hst not_mem_nil) hall
  refine ⟨sks, hrun, fun st hst => ⟨(h st hst).sorted, fun k hk key => ?_⟩⟩
  obtain ⟨r, hfind, hfound⟩ := skFind_spec (h st hst) hk key
  exact ⟨r, hfind, skSort_perm env st, skSort_ascending (h st hst) hk, hfound⟩

/-- Numbers in their order, with the null pointer in front. -/
def numberComp (x y : Option ℕ) : ℤ :=
  ((x.map (· + 1)).getD 0 : ℕ) - ((y.map (· + 1)).getD 0 : ℕ)

theorem numberComp_total : TotalOrder numberComp where
  flip x y := by
    unfold numberComp
    omega
  trans x y z := by
    unfold numberComp
    omega

instance : Std.Total fun x y : Option ℕ => numberComp x y ≤ 0 where
  total x y := by
    have hflip := numberComp_total.flip x y
    omega

instance : IsTrans (Option ℕ) fun x y => numberComp x y ≤ 0 where
  trans := numberComp_total.trans

/-- One comparison function, and an insertion sort for `qsort`. -/
def numberEnv : Env ℕ Unit where
  comp _ := numberComp
  total _ := numberComp_total
  qsort _ := insertionSort fun x y => numberComp x y ≤ 0
  qsort_perm _ := perm_insertionSort _
  qsort_ascending _ := pairwise_insertionSort _

/-- Three numbers are sorted, and the one in the middle is replaced. -/
theorem sorted_stays_three :
    let ops : List (Op ℕ Unit) := [.new (some ()), .on 0 (.push true (some 1)),
      .on 0 (.push true (some 5)), .on 0 (.push true (some 3)), .on 0 .sort,
        .on 0 (.set 1 (some 4))]
    ∃ sks, run numberEnv [] ops = some sks ∧
      ∀ st ∈ sks, st.sorted = true ∧ st.data = [some 1, some 4, some 5] ∧
        ∃ r, skFind numberEnv st (some 4) = some (r, skSort numberEnv st) ∧
          Found numberComp (some 4) (skSort numberEnv st).data r := by
  intro ops
  obtain ⟨sks, hrun, h⟩ := sorted_stays numberEnv ops (by decide +kernel)
  have heval : (run numberEnv [] ops).map (·.map fun st => (st.sorted, st.comp, st.data)) =
      some [(true, some (), [some 1, some 4, some 5])] := by
    decide +kernel
  rw [hrun, map_some, some_inj] at heval
  refine ⟨sks, hrun, fun st hst => ?_⟩
  have hmem := mem_map_of_mem (f := fun st => (st.sorted, st.comp, st.data)) hst
  rw [heval, mem_singleton] at hmem
  obtain ⟨hsorted, hcd⟩ := Prod.mk.inj hmem
  obtain ⟨hcomp, hdata⟩ := Prod.mk.inj hcd
  obtain ⟨r, hfind, -, -, hfound⟩ := (h st hst).2 () hcomp (some 4)
  exact ⟨hsorted, hdata, r, hfind, hfound.mpr (.inl (some_ne_none 4))⟩

/-- An assignment to the first of two sorted elements. The new one is not found, though it is
there. -/
theorem set_unsorts :
    (run numberEnv [] [.new (some ()), .on 0 (.push true (some 1)), .on 0 (.push true (some 2)),
      .on 0 .sort, .on 0 (.set 0 (some 3))]).map (fun sks => sks.map fun st =>
        (st.sorted, st.data, (skFind numberEnv st (some 3)).map fst)) =
      some [(true, [some 3, some 2], some (-1))] := by
  decide +kernel

end VigorTls.Sk
