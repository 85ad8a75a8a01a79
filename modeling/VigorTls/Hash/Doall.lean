import VigorTls.Hash.Table
import Mathlib.Data.List.TakeWhile

/-!
# Going through a table

`doall_util_fn` of `crypto/lhash/lhash.c` calls a function on every item, from the last bucket down.
The function may change the table on the way. As long as what is ahead is left alone (`Ahead`), the
items are gone through once each, in their order (`doall_rule`).
-/

namespace VigorTls.Hash

open Lib List Option Node Nat

variable {α σ : Type} [DecidableEq α] {before rest : List (Node α)}

/-- A chain from the node with some data on. -/
def suffixAt (a : α) (chain : List (Node α)) : Option (List (Node α)) :=
  match chain.dropWhile fun n => n.data ≠ a with
  | [] => none
  | chain => some chain

/-- The chain from a node on, wherever the node is now. A node is known by its data. -/
def Lhash.chainAt (lh : Lhash α) (a : α) : Option (List (Node α)) :=
  (range lh.num_nodes).findSome? fun i => suffixAt a (lh.b i)

/-- The inner loop: the `next` of the node `a` is read before the call. -/
def doallChain (table : σ → Lhash α) (func : α → σ → Option σ) :
    ℕ → Option α → σ → Option (List α × σ)
  | _, none, s => some ([], s)
  | 0, some _, _ => none
  | fuel + 1, some a, s => do
    let chain ← (table s).chainAt a
    let n := chain.tail.head?.map data
    let s ← func a s
    let (seen, s) ← doallChain table func fuel n s
    some (a :: seen, s)

/-- The outer loop, for the buckets below `i`. -/
def doallBuckets (table : σ → Lhash α) (func : α → σ → Option σ) :
    ℕ → σ → Option (List α × σ)
  | 0, s => some ([], s)
  | i + 1, s =>
    if i < (table s).num_alloc_nodes then do
      let a := ((table s).b i).head?.map data
      let (seen, s) ← doallChain table func ((table s).num_items + 1) a s
      let (seen', s) ← doallBuckets table func i s
      some (seen ++ seen', s)
    else none

/-- `doall_util_fn`: the items that the function was called with, and the state. -/
def doallUtilFn (table : σ → Lhash α) (func : α → σ → Option σ) (s : σ) : Option (List α × σ) :=
  doallBuckets table func (table s).num_nodes s

theorem suffixAt_eq_none {a : α} {chain : List (Node α)} (h : ∀ n ∈ chain, n.data ≠ a) :
    suffixAt a chain = none := by
  have hdrop : chain.dropWhile (fun n => n.data ≠ a) = [] :=
    dropWhile_eq_nil_iff.mpr fun n hn => decide_eq_true (h n hn)
  rw [suffixAt, hdrop]

variable {m : Methods α} {lh : Lhash α}

theorem chainAt_eq (h : lh.Valid m) {i : ℕ} {n : Node α} (hchain : lh.b i = before ++ n :: rest) :
    lh.chainAt n.data = some (n :: rest) := by
  have hn : n ∈ lh.b i := hchain ▸ mem_append_right _ mem_cons_self
  have hsuffix : suffixAt n.data (lh.b i) = some (n :: rest) := by
    have hne : ∀ x ∈ before, x.data ≠ n.data := fun x hx hdata =>
      h.not_same_before hchain x hx (hdata ▸ Methods.Same.refl m n.data)
    rw [hchain, suffixAt, dropWhile_append_of_pos fun x hx => decide_eq_true (hne x hx)]
    simp
  have hother : ∀ j, j ≠ i → suffixAt n.data (lh.b j) = none := fun j hj =>
    suffixAt_eq_none fun x hx hdata => hj (h.eq_bucket hx hn hdata)
  rw [Lhash.chainAt]
  cases hfind : (range lh.num_nodes).findSome? fun i => suffixAt n.data (lh.b i) with
  | none =>
    have hi : i < lh.num_nodes := Nat.lt_of_not_le fun hle => by
      rw [h.placed.outside i hle] at hn
      cases hn
    rw [findSome?_eq_none_iff.mp hfind i (mem_range.mpr hi)] at hsuffix
    cases hsuffix
  | some chain =>
    obtain ⟨j, -, hj⟩ := exists_of_findSome?_eq_some hfind
    by_cases hji : j = i
    · rw [← hj, hji, hsuffix]
    · rw [hother j hji] at hj
      cases hj

/-- The rest of the chain in bucket `i`, and the buckets below, are as in `b₀`. -/
structure Ahead (m : Methods α) (b₀ : ℕ → List (Node α)) (i : ℕ) (rest : List (Node α))
    (lh : Lhash α) : Prop where
  valid : lh.Valid m
  alloc : i ≤ lh.num_alloc_nodes
  below : ∀ j < i, lh.b j = b₀ j
  chain : rest ≠ [] → ∃ before, lh.b i = before ++ rest

section

variable {table : σ → Lhash α} {func : α → σ → Option σ} {b₀ : ℕ → List (Node α)}
  {items : List α} {Inv : List α → σ → Prop}

/-- What a call has to do. `Inv` may speak of the items that the function was called with. -/
def Advances (m : Methods α) (table : σ → Lhash α) (func : α → σ → Option σ)
    (b₀ : ℕ → List (Node α)) (items : List α) (Inv : List α → σ → Prop) : Prop :=
  ∀ seen n rest i s,
    items = seen ++ n.data :: (rest ++ contents b₀ i).map data → Inv seen s →
    Ahead m b₀ i (n :: rest) (table s) →
    ∃ s', func n.data s = some s' ∧ Inv (seen ++ [n.data]) s' ∧ Ahead m b₀ i rest (table s')

theorem doallChain_rule (hstep : Advances m table func b₀ items Inv) {i : ℕ} :
    ∀ (rest : List (Node α)) {fuel : ℕ} {seen : List α} {s : σ}, rest.length ≤ fuel →
      items = seen ++ (rest ++ contents b₀ i).map data → Inv seen s →
      Ahead m b₀ i rest (table s) →
      ∃ s', doallChain table func fuel (rest.head?.map data) s =
        some (rest.map data, s') ∧ Inv (seen ++ rest.map data) s' ∧
        Ahead m b₀ i [] (table s')
  | [], fuel, seen, s, _, _, hinv, hahead =>
    ⟨s, by rw [head?_nil, map_none, doallChain]; rfl, by simpa using hinv, hahead⟩
  | n :: rest, 0, _, _, hlen, _, _, _ => absurd hlen (not_succ_le_zero _)
  | n :: rest, fuel + 1, seen, s, hlen, hitems, hinv, hahead => by
    obtain ⟨before, hchain⟩ := hahead.chain (cons_ne_nil n rest)
    obtain ⟨s1, hfunc, hinv1, hahead1⟩ := hstep seen n rest i s hitems hinv hahead
    obtain ⟨s2, hwalk, hinv2, hahead2⟩ := doallChain_rule hstep rest (le_of_succ_le_succ hlen)
      (by rw [hitems, append_assoc]; rfl) hinv1 hahead1
    refine ⟨s2, ?_, by simpa using hinv2, hahead2⟩
    rw [head?_cons, map_some, doallChain, chainAt_eq hahead.valid hchain, hfunc]
    dsimp only [bind_eq_bind, bind_some, tail_cons]
    rw [hwalk]
    rfl

theorem doallBuckets_rule (hstep : Advances m table func b₀ items Inv) :
    ∀ (i : ℕ) {seen : List α} {s : σ}, items = seen ++ (contents b₀ i).map data →
      Inv seen s → Ahead m b₀ i [] (table s) →
      ∃ s', doallBuckets table func i s = some ((contents b₀ i).map data, s') ∧ Inv items s'
  | 0, seen, s, hitems, hinv, _ =>
    ⟨s, rfl, by rw [hitems]; simpa [contents] using hinv⟩
  | i + 1, seen, s, hitems, hinv, hahead => by
    have hb : (table s).b i = b₀ i := hahead.below i (lt_succ_self i)
    have hahead' : Ahead m b₀ i (b₀ i) (table s) :=
      ⟨hahead.valid, le_of_succ_le hahead.alloc,
        fun j hj => hahead.below j (lt_succ_of_lt hj), fun _ => ⟨[], hb⟩⟩
    have hlen : (b₀ i).length ≤ (table s).num_items + 1 :=
      hb ▸ le_succ_of_le (hahead.valid.length_bucket_le i)
    obtain ⟨s1, hwalk, hinv1, hahead1⟩ := doallChain_rule hstep (b₀ i) hlen hitems hinv hahead'
    obtain ⟨s2, hrest, hinv2⟩ := doallBuckets_rule hstep i
      (by rw [hitems, contents, map_append, append_assoc]) hinv1 hahead1
    refine ⟨s2, ?_, hinv2⟩
    rw [doallBuckets, if_pos (lt_of_succ_le hahead.alloc), hb]
    dsimp only
    rw [hwalk]
    dsimp only [bind_eq_bind, bind_some]
    rw [hrest, contents, map_append]
    rfl

/-- The rule for `doall_util_fn`: if every call leaves alone what is ahead, each item is called with
once. -/
theorem doall_rule (s : σ) (hvalid : (table s).Valid m)
    (hstep : Advances m table func (table s).b (table s).items Inv) (hinv : Inv [] s) :
    ∃ s', doallUtilFn table func s = some ((table s).items, s') ∧ Inv (table s).items s' := by
  have halloc : (table s).num_nodes ≤ (table s).num_alloc_nodes := by
    have hp := hvalid.p_lt
    rw [hvalid.nodes, hvalid.alloc]
    omega
  exact doallBuckets_rule hstep (table s).num_nodes rfl hinv
    ⟨hvalid, halloc, fun _ _ => rfl, fun hne => absurd rfl hne⟩

end

end VigorTls.Hash
