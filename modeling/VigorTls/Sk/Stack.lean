import VigorTls.Lib.Comparison

/-!
# Stacks of pointers

`_STACK` of `crypto/stack/stack.c` with its functions, and the binary search `OBJ_bsearch_ex_` of
`crypto/objects/obj_dat.c`. A function gives `none` where the source reads outside of an array or
overflows an `int`. The comparison function of a stack is known by a name, since `sk_set_cmp_func`
compares it with the new one; `qsort` is under its contract.
-/

namespace VigorTls.Sk

open Lib

abbrev intMax : ℕ := 2 ^ 31 - 1

abbrev minNodes : ℕ := 4

abbrev pointerSize : ℕ := 8

section

variable {β : Type} (cmp : β → β → ℤ) (key : β) (base : List β)

/-- The loop of `OBJ_bsearch_ex_`, with its `l`, `h`, `i` and `c`. -/
def bsearchLoop (size : ℕ) : ℕ → ℕ → ℕ → ℕ → ℤ → Option (ℕ × ℤ)
  | 0, l, h, i, c => if l < h then none else some (i, c)
  | fuel + 1, l, h, i, c =>
    if l < h then
      -- the sum and the offset are computed with an `int`
      if l + h > intMax ∨ (l + h) / 2 * size > intMax then none
      else do
        let p ← base[(l + h) / 2]?
        if cmp key p < 0 then bsearchLoop size fuel l ((l + h) / 2) ((l + h) / 2) (cmp key p)
        else if cmp key p > 0 then
          bsearchLoop size fuel ((l + h) / 2 + 1) h ((l + h) / 2) (cmp key p)
        else some ((l + h) / 2, cmp key p)
    else some (i, c)

/-- The loop for the first element that matches. -/
def bsearchFirst : ℕ → Option ℕ
  | 0 => some 0
  | i + 1 => do
    let p ← base[i]?
    if cmp key p = 0 then bsearchFirst i else some (i + 1)

/-- `OBJ_bsearch_ex_`, with an index for the pointer returned. -/
def objBsearchEx (size : ℕ) (valueOnNomatch firstValueOnMatch : Bool) : Option (Option ℕ) :=
  if base = [] then some none
  else do
    let (i, c) ← bsearchLoop cmp key base size base.length 0 base.length 0 0
    if c ≠ 0 ∧ ¬ valueOnNomatch then some none
    else if c = 0 ∧ firstValueOnMatch then (bsearchFirst cmp key base i).map some
    else some (some i)

end

/-! ## Stacks -/

/-- What the functions rely on: comparison functions that order the pointers, null among them, and
`qsort`. -/
structure Env (α K : Type) where
  comp : K → Option α → Option α → ℤ
  total : ∀ k, TotalOrder (comp k)
  qsort : K → List (Option α) → List (Option α)
  qsort_perm : ∀ k l, (qsort k l).Perm l
  qsort_ascending : ∀ k l, Ascending (comp k) (qsort k l)

/-- `_STACK`. The elements of `data` are those below `num`; the null pointer is `none`. -/
structure Stack (α K : Type) where
  data : List (Option α)
  sorted : Bool
  num_alloc : ℕ
  comp : Option K

variable {α K : Type}

variable (st : Stack α K)

def Stack.num : ℕ := st.data.length

def skNew (c : Option K) : Stack α K := ⟨[], false, minNodes, c⟩

/-- `sk_dup`, if it gets its memory. -/
def skDup (sk : Stack α K) : Stack α K :=
  { data := sk.data, sorted := sk.sorted, num_alloc := sk.num_alloc, comp := sk.comp }

def skSetCmpFunc [DecidableEq K] (sk : Stack α K) (c : Option K) : Option K × Stack α K :=
  (sk.comp, { sk with sorted := if sk.comp ≠ c then false else sk.sorted, comp := c })

/-- The array of `sk_insert`: with twice the elements if there is no room for two more. -/
def Stack.reserve : Option (Stack α K) :=
  if st.num_alloc ≤ st.num + 1 then
    if st.num_alloc * 2 > intMax then none else some { st with num_alloc := st.num_alloc * 2 }
  else some st

/-- `sk_insert`; `allocs` says that `reallocarray` succeeds if it is called. -/
def skInsert (allocs : Bool) (st : Stack α K) (data : Option α) (loc : ℤ) :
    Option (ℕ × Stack α K) :=
  if st.num_alloc ≤ st.num + 1 ∧ ¬ allocs then some (0, st)
  else do
    let st ← st.reserve
    if loc ≥ st.num ∨ loc < 0 then
      some (st.num + 1, { st with data := st.data ++ [data], sorted := false })
    else
      some (st.num + 1, { st with
        data := st.data.take loc.toNat ++ data :: st.data.drop loc.toNat, sorted := false })

def skPush (allocs : Bool) (st : Stack α K) (data : Option α) : Option (ℕ × Stack α K) :=
  skInsert allocs st data st.num

def skUnshift (allocs : Bool) (st : Stack α K) (data : Option α) : Option (ℕ × Stack α K) :=
  skInsert allocs st data 0

def skDelete (loc : ℤ) : Option α × Stack α K :=
  if loc < 0 ∨ loc ≥ st.num then (none, st)
  else (st.data[loc.toNat]?.join, { st with data := st.data.eraseIdx loc.toNat })

def skDeletePtr [DecidableEq α] (p : Option α) : Option α × Stack α K :=
  if p = none then (none, st)
  else
    match st.data.findIdx? (· = p) with
    | some i => skDelete st i
    | none => (none, st)

def skShift : Option α × Stack α K :=
  if st.num ≤ 0 then (none, st) else skDelete st 0

def skPop : Option α × Stack α K :=
  if st.num ≤ 0 then (none, st) else skDelete st (st.num - 1)

def skZero : Stack α K := if st.num ≤ 0 then st else { st with data := [] }

/-- `sk_set`. It leaves `sorted` as it is. -/
def skSet (i : ℤ) (value : Option α) : Option α × Stack α K :=
  if i < 0 ∨ i ≥ st.num then (none, st)
  else (value, { st with data := st.data.set i.toNat value })

def skSort (env : Env α K) (st : Stack α K) : Stack α K :=
  match st.sorted, st.comp with
  | false, some k => { st with data := env.qsort k st.data, sorted := true }
  | _, _ => st

/-- `internal_find`: the index or -1, and the stack. -/
def internalFind [DecidableEq α] (env : Env α K) (st : Stack α K) (data : Option α)
    (valueOnNomatch firstValueOnMatch : Bool) : Option (ℤ × Stack α K) :=
  match st.comp with
  | none => some (((st.data.findIdx? (· = data)).map Int.ofNat).getD (-1), st)
  | some k =>
    let st := skSort env st
    if data = none then some (-1, st)
    else do
      let r ← objBsearchEx (env.comp k) data st.data pointerSize valueOnNomatch firstValueOnMatch
      some ((r.map Int.ofNat).getD (-1), st)

def skFind [DecidableEq α] (env : Env α K) (st : Stack α K) (data : Option α) :
    Option (ℤ × Stack α K) := internalFind env st data false true

def skFindEx [DecidableEq α] (env : Env α K) (st : Stack α K) (data : Option α) :
    Option (ℤ × Stack α K) := internalFind env st data true false

end VigorTls.Sk
