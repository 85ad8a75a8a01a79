import VigorTls.Lib.LinearHash
import Mathlib.Data.Int.Notation

/-!
# The hash table of `crypto/lhash`

`lh_insert`, `lh_delete` and `lh_retrieve` of `crypto/lhash/lhash.c`, with the splitting and merging
of buckets in `expand` and `contract`. A function gives `none` where the source leaves the array of
chains or overflows an `int`. Allocations succeed.

`Lhash.Valid` is what the functions keep. What they do is said of the data in the table, up to
order: `expand_spec` and `contract_spec` keep it, `lhInsert_spec` adds or replaces one,
`lhDelete_spec` takes one away.
-/

namespace VigorTls.Hash

open Lib List Function Option

/-- The two functions that a table is made with. A hash value is an `unsigned long`; comparing equal
is an equivalence. -/
structure Methods (α : Type) where
  hash : α → ℕ
  comp : α → α → ℤ
  equiv : Equivalence fun x y => comp x y = 0

/-- `LHASH_NODE`; the chain that it is in has its `next`. -/
structure Node (α : Type) where
  data : α
  hash : ℕ
deriving DecidableEq

/-- `_LHASH` without its statistics. The array `b` has `num_alloc_nodes` elements. -/
structure Lhash (α : Type) where
  b : ℕ → List (Node α)
  num_nodes : ℕ
  num_alloc_nodes : ℕ
  p : ℕ
  pmax : ℕ
  up_load : ℕ
  down_load : ℕ
  num_items : ℕ

abbrev lhLoadMult : ℕ := 256

abbrev minNodes : ℕ := 16

abbrev intMax : ℕ := 2 ^ 31 - 1

variable {α : Type}

def lhNew : Lhash α where
  b := fun _ => []
  num_nodes := minNodes / 2
  num_alloc_nodes := minNodes
  p := 0
  pmax := minNodes / 2
  up_load := 2 * lhLoadMult
  down_load := lhLoadMult
  num_items := 0

/-- The loop of `expand`: what is left of a chain, and the chain `n2` with the moved nodes in front.
-/
def expandLoop (nni p : ℕ) : List (Node α) → List (Node α) → List (Node α) × List (Node α)
  | [], n2 => ([], n2)
  | np :: chain, n2 =>
    if np.hash % nni ≠ p then expandLoop nni p chain (np :: n2)
    else (np :: (expandLoop nni p chain n2).1, (expandLoop nni p chain n2).2)

variable (lh : Lhash α)

/-- The first part of `expand`: bucket `p` is split. -/
def Lhash.splitNext : Lhash α :=
  let n := expandLoop lh.num_alloc_nodes lh.p (lh.b lh.p) []
  { lh with
    b := update (update lh.b lh.p n.1) (lh.p + lh.pmax) n.2
    num_nodes := lh.num_nodes + 1
    p := lh.p + 1 }

/-- The end of `expand`: twice the buckets once all of them are split. -/
def Lhash.double : Option (Lhash α) :=
  if lh.p ≥ lh.pmax then
    -- The product is computed with an `int`.
    if lh.num_alloc_nodes * 2 > intMax then none
    else
      some { lh with
        b := fun i =>
          if lh.num_alloc_nodes ≤ i ∧ i < lh.num_alloc_nodes * 2 then [] else lh.b i
        pmax := lh.num_alloc_nodes
        num_alloc_nodes := lh.num_alloc_nodes * 2
        p := 0 }
  else some lh

def expand : Option (Lhash α) :=
  if lh.p + lh.pmax < lh.num_alloc_nodes then lh.splitNext.double else none

/-- The first part of `contract`: one bucket less, and half the array once none is split. -/
def Lhash.halve : Lhash α :=
  if lh.p = 0 then
    { lh with
      num_alloc_nodes := lh.num_alloc_nodes / 2
      pmax := lh.pmax / 2
      p := lh.pmax / 2 - 1
      num_nodes := lh.num_nodes - 1 }
  else { lh with p := lh.p - 1, num_nodes := lh.num_nodes - 1 }

def contract : Option (Lhash α) :=
  let last := lh.p + lh.pmax - 1
  if last < lh.num_alloc_nodes then
    let np := lh.b last
    let lh := { lh with b := update lh.b last [] }.halve
    if lh.p < lh.num_alloc_nodes then
      some { lh with b := update lh.b lh.p (lh.b lh.p ++ np) }
    else none
  else none

/-- A chain before and from the place that `getrn` stops at. -/
def getrnLoop (m : Methods α) (data : α) (hash : ℕ) :
    List (Node α) → List (Node α) × List (Node α)
  | [] => ([], [])
  | n1 :: chain =>
    if n1.hash = hash ∧ m.comp n1.data data = 0 then ([], n1 :: chain)
    else (n1 :: (getrnLoop m data hash chain).1, (getrnLoop m data hash chain).2)

/-- What `getrn` returns: the hash value, its bucket, and the chain there before and from the
place. -/
structure Place (α : Type) where
  hash : ℕ
  nn : ℕ
  before : List (Node α)
  rn : List (Node α)

variable (m : Methods α)

variable (lh : Lhash α)

def getrn (data : α) : Option (Place α) :=
  let hash := m.hash data
  let nn := if hash % lh.pmax < lh.p then hash % lh.num_alloc_nodes else hash % lh.pmax
  if nn < lh.num_alloc_nodes then
    let chain := getrnLoop m data hash (lh.b nn)
    some ⟨hash, nn, chain.1, chain.2⟩
  else none

/-- The test for a load that is too high, before an insertion. -/
def Lhash.grow : Option (Lhash α) :=
  if lh.up_load ≤ lh.num_items * lhLoadMult / lh.num_nodes then expand lh else some lh

/-- And for one that is too low, after a deletion. -/
def Lhash.shrink : Option (Lhash α) :=
  if lh.num_nodes > minNodes ∧ lh.down_load ≥ lh.num_items * lhLoadMult / lh.num_nodes then
    contract lh
  else some lh

/-- The assignments of `lh_insert`. -/
def Lhash.put (data : α) (place : Place α) : Option α × Lhash α :=
  match place.rn with
  | [] =>
    (none, { lh with
      b := update lh.b place.nn (place.before ++ [⟨data, place.hash⟩])
      num_items := lh.num_items + 1 })
  | n :: rest =>
    (some n.data, { lh with
      b := update lh.b place.nn (place.before ++ { n with data := data } :: rest) })

/-- `lh_insert`: the data that was replaced, and the table. -/
def lhInsert (data : α) : Option (Option α × Lhash α) := do
  let lh ← lh.grow
  let place ← getrn m lh data
  some (lh.put data place)

/-- The assignments of `lh_delete`. -/
def Lhash.take (place : Place α) (rest : List (Node α)) : Lhash α :=
  { lh with
    b := update lh.b place.nn (place.before ++ rest)
    num_items := lh.num_items - 1 }

/-- `lh_delete`: the data that was removed, and the table. -/
def lhDelete (data : α) : Option (Option α × Lhash α) := do
  let place ← getrn m lh data
  match place.rn with
  | [] => some (none, lh)
  | n :: rest =>
    let lh ← (lh.take place rest).shrink
    some (some n.data, lh)

def lhRetrieve (data : α) : Option (Option α) := do
  let place ← getrn m lh data
  some (place.rn.head?.map Node.data)

/-- Two items have the same key: they compare equal and have the same hash value. -/
def Methods.Same (x y : α) : Prop := m.hash x = m.hash y ∧ m.comp x y = 0

instance (x y : α) : Decidable (m.Same x y) :=
  inferInstanceAs (Decidable (_ ∧ _))

theorem Methods.Same.refl (x : α) : m.Same x x := ⟨rfl, m.equiv.refl x⟩

theorem Methods.Same.symm {m : Methods α} {x y : α} (h : m.Same x y) : m.Same y x :=
  ⟨h.1.symm, m.equiv.symm h.2⟩

theorem Methods.Same.trans {m : Methods α} {x y z : α} (h : m.Same x y) (h' : m.Same y z) :
    m.Same x z := ⟨h.1.trans h'.1, m.equiv.trans h.2 h'.2⟩

def Lhash.entries : List (Node α) := contents lh.b lh.num_nodes

def Lhash.items : List α := lh.entries.map Node.data

/-- How the numbers of a table hang together. -/
structure Lhash.Shape : Prop where
  pow : ∃ k, lh.pmax = 2 ^ (k + 3)
  alloc : lh.num_alloc_nodes = 2 * lh.pmax
  p_lt : lh.p < lh.pmax
  nodes : lh.num_nodes = lh.pmax + lh.p
  bounded : lh.num_alloc_nodes ≤ intMax

structure Lhash.Valid : Prop extends lh.Shape where
  hashes : ∀ n ∈ lh.entries, n.hash = m.hash n.data
  placed : Placed (fun n => address lh.p lh.pmax n.hash) lh.b lh.num_nodes
  count : lh.num_items = lh.entries.length
  distinct : lh.entries.Pairwise fun x y => ¬ m.Same x.data y.data

/-! ## The functions keep it -/

section

variable {m : Methods α} {lh lh' : Lhash α}

theorem Lhash.Shape.pmax_pos (h : lh.Shape) : 8 ≤ lh.pmax := by
  obtain ⟨k, hk⟩ := h.pow
  rw [hk, Nat.pow_add]
  have := Nat.one_le_two_pow (n := k)
  omega

theorem Lhash.Shape.num_nodes_pos (h : lh.Shape) : 0 < lh.num_nodes := by
  have hpos := h.pmax_pos
  rw [h.nodes]
  omega

theorem Lhash.Shape.num_nodes_lt (h : lh.Shape) : lh.num_nodes < 2 ^ 30 := by
  obtain ⟨k, hk⟩ := h.pow
  have hbound := h.bounded
  rw [h.alloc, intMax] at hbound
  have hle : k + 3 ≤ 29 := by
    by_contra hgt
    have hpow : 2 ^ 30 ≤ 2 ^ (k + 3) := Nat.pow_le_pow_right (by decide) (by omega)
    omega
  have hpow : 2 ^ (k + 3) ≤ 2 ^ 29 := Nat.pow_le_pow_right (by decide) hle
  have hp := h.p_lt
  rw [h.nodes]
  omega

/-- What `expand` and `contract` do: they keep the entries. -/
structure Keeps (m : Methods α) (lh lh' : Lhash α) : Prop where
  valid : lh'.Valid m
  entries : lh'.entries.Perm lh.entries
  num_items : lh'.num_items = lh.num_items
  up_load : lh'.up_load = lh.up_load
  down_load : lh'.down_load = lh.down_load

theorem expandLoop_eq (p pmax : ℕ) (chain n2 : List (Node α)) :
    expandLoop (2 * pmax) p chain n2 =
      (staying Node.hash p pmax chain, (moving Node.hash p pmax chain).reverse ++ n2) := by
  induction chain generalizing n2 with
  | nil => rfl
  | cons np chain ih =>
    rw [expandLoop]
    by_cases hp : np.hash % (2 * pmax) = p
    · rw [if_neg (not_not.mpr hp), ih]
      simp [staying, moving, hp]
    · rw [ih]
      simp [staying, moving, hp]

theorem Lhash.Valid.of_perm (h : lh.Valid m) (hshape : lh'.Shape)
    (hplaced : Placed (fun n => address lh'.p lh'.pmax n.hash) lh'.b lh'.num_nodes)
    (hentries : lh'.entries.Perm lh.entries) (hitems : lh'.num_items = lh.num_items) :
    lh'.Valid m where
  toShape := hshape
  hashes n hn := h.hashes n (hentries.mem_iff.mp hn)
  placed := hplaced
  count := by rw [hitems, h.count, hentries.length_eq]
  distinct := hentries.symm.pairwise h.distinct fun hne hsame => hne hsame.symm

/-- All buckets may be split, as `expand` leaves it before the last step. -/
structure Lhash.Splitting (lh : Lhash α) : Prop where
  pow : ∃ k, lh.pmax = 2 ^ (k + 3)
  alloc : lh.num_alloc_nodes = 2 * lh.pmax
  p_le : lh.p ≤ lh.pmax
  nodes : lh.num_nodes = lh.pmax + lh.p
  bounded : lh.num_alloc_nodes ≤ intMax
  placed : Placed (fun n => address lh.p lh.pmax n.hash) lh.b lh.num_nodes

theorem double_spec (h : lh.Splitting) (hd : lh.double = some lh') :
    lh'.Shape ∧ Placed (fun n => address lh'.p lh'.pmax n.hash) lh'.b lh'.num_nodes ∧
      lh'.b = lh.b ∧ lh'.num_nodes = lh.num_nodes ∧ lh'.num_items = lh.num_items ∧
      lh'.up_load = lh.up_load ∧ lh'.down_load = lh.down_load := by
  rw [Lhash.double] at hd
  by_cases hfull : lh.p ≥ lh.pmax
  · rw [if_pos hfull] at hd
    by_cases hlarge : lh.num_alloc_nodes * 2 > intMax
    · rw [if_pos hlarge] at hd
      cases hd
    rw [if_neg hlarge] at hd
    cases hd
    have hp : lh.p = lh.pmax := Nat.le_antisymm h.p_le hfull
    have hnodes : lh.num_nodes = lh.num_alloc_nodes := by rw [h.nodes, h.alloc]; omega
    -- The new part of the array is empty, as there is nothing outside of the buckets.
    have hb : (fun i => if lh.num_alloc_nodes ≤ i ∧ i < lh.num_alloc_nodes * 2 then []
        else lh.b i) = lh.b := by
      funext i
      split
      · next hi => rw [h.placed.outside i (hnodes ▸ hi.1)]
      · rfl
    obtain ⟨k, hk⟩ := h.pow
    have hpos : 0 < lh.pmax := by rw [hk]; exact Nat.two_pow_pos _
    have hplaced := h.placed
    simp only [hp, address_full, ← h.alloc] at hplaced
    refine ⟨⟨⟨k + 1, ?_⟩, Nat.mul_comm .., ?_, hnodes, Nat.not_lt.mp hlarge⟩, ?_, hb, rfl, rfl, rfl,
      rfl⟩
    · rw [h.alloc, hk, ← Nat.pow_succ']
    · change 0 < lh.num_alloc_nodes
      rw [h.alloc]
      omega
    · simp only [hb]
      exact hplaced
  · rw [if_neg hfull] at hd
    cases hd
    exact ⟨⟨h.pow, h.alloc, Nat.not_le.mp hfull, h.nodes, h.bounded⟩, h.placed, rfl, rfl, rfl, rfl,
      rfl⟩

theorem splitNext_spec (h : lh.Valid m) :
    lh.splitNext.Splitting ∧ lh.splitNext.entries.Perm lh.entries := by
  have hp := h.p_lt
  have hmoving := reverse_perm (moving Node.hash lh.p lh.pmax (lh.b lh.p))
  have hnodes : lh.num_nodes + 1 = lh.pmax + (lh.p + 1) := by rw [h.nodes]; omega
  refine ⟨⟨h.pow, h.alloc, hp, hnodes, h.bounded, ?_⟩, ?_⟩
  · simp only [Lhash.splitNext, h.alloc, expandLoop_eq, append_nil, hnodes]
    exact Placed.split (h.nodes ▸ h.placed) hp hmoving
  · simp only [Lhash.entries, Lhash.splitNext, h.alloc, expandLoop_eq, append_nil]
    rw [h.nodes]
    exact contents_split hp hmoving

theorem expand_eq (h : lh.Valid m) : expand lh = lh.splitNext.double := by
  have hp := h.p_lt
  rw [expand, if_pos (by rw [h.alloc]; omega)]

theorem expand_spec (h : lh.Valid m) (he : expand lh = some lh') :
    Keeps m lh lh' ∧ lh'.num_nodes = lh.num_nodes + 1 := by
  obtain ⟨hsplitting, hentries⟩ := splitNext_spec h
  obtain ⟨hshape, hplaced, hb, hnodes, hitems, hup, hdown⟩ :=
    double_spec hsplitting (expand_eq h ▸ he)
  have hentries' : lh'.entries.Perm lh.entries := by
    rw [Lhash.entries, hb, hnodes]
    exact hentries
  exact ⟨⟨h.of_perm hshape hplaced hentries' hitems, hentries', hitems, hup, hdown⟩, hnodes⟩

theorem expand_defined (h : lh.Valid m) (hlt : lh.num_nodes + 1 < 2 ^ 30) :
    ∃ lh', expand lh = some lh' := by
  rw [expand_eq h, Lhash.double]
  by_cases hfull : lh.splitNext.p ≥ lh.splitNext.pmax
  · have hfull' : lh.p + 1 ≥ lh.pmax := hfull
    have hsmall : ¬ lh.splitNext.num_alloc_nodes * 2 > intMax := by
      change ¬ lh.num_alloc_nodes * 2 > intMax
      rw [h.alloc, intMax]
      rw [h.nodes] at hlt
      omega
    rw [if_pos hfull, if_neg hsmall]
    exact ⟨_, rfl⟩
  · rw [if_neg hfull]
    exact ⟨_, rfl⟩

theorem halve_spec (h : lh.Shape) (hmin : minNodes < lh.num_nodes) :
    lh.halve.Shape ∧ lh.halve.num_nodes + 1 = lh.num_nodes ∧
      (∀ n, address (lh.halve.p + 1) lh.halve.pmax n = address lh.p lh.pmax n) ∧
      lh.halve.b = lh.b ∧ lh.halve.num_items = lh.num_items ∧ lh.halve.up_load = lh.up_load ∧
      lh.halve.down_load = lh.down_load := by
  have hnodes := h.nodes
  have hp := h.p_lt
  by_cases hzero : lh.p = 0
  · have hpmax : ∃ k, lh.pmax = 2 * 2 ^ (k + 3) := by
      obtain ⟨k, hk⟩ := h.pow
      cases k with
      | zero =>
        rw [hzero, hk] at hnodes
        exact absurd hmin (by rw [hnodes]; decide)
      | succ k => exact ⟨k, by rw [hk, ← Nat.pow_succ']⟩
    obtain ⟨k, hk⟩ := hpmax
    have hhalf : lh.pmax / 2 = 2 ^ (k + 3) := by omega
    have hbound := h.bounded
    have halloc := h.alloc
    rw [Lhash.halve, if_pos hzero]
    refine ⟨⟨⟨k, hhalf⟩, ?_, ?_, ?_, ?_⟩, ?_, fun n => ?_, rfl, rfl, rfl, rfl⟩
    · simp only
      omega
    · simp only
      omega
    · simp only
      omega
    · simp only
      omega
    · simp only
      omega
    · rw [Nat.sub_add_cancel (by omega), address_full, hzero, hhalf, ← hk]
  · rw [Lhash.halve, if_neg hzero]
    refine ⟨⟨h.pow, h.alloc, ?_, ?_, h.bounded⟩, ?_, fun n => ?_, rfl, rfl, rfl, rfl⟩
    · simp only
      omega
    · simp only
      omega
    · simp only
      omega
    · rw [Nat.sub_add_cancel (by omega)]

theorem halve_with (lh : Lhash α) (b : ℕ → List (Node α)) :
    ({ lh with b := b } : Lhash α).halve = { lh.halve with b := b } := by
  unfold Lhash.halve
  split <;> rfl

theorem contract_spec (h : lh.Valid m) (hmin : minNodes < lh.num_nodes) :
    ∃ lh', contract lh = some lh' ∧ Keeps m lh lh' ∧ lh'.num_nodes + 1 = lh.num_nodes := by
  obtain ⟨hshape, hnodes, haddr, hb, hitems, hup, hdown⟩ := halve_spec h.toShape hmin
  have hp := hshape.p_lt
  have hnodes' := hshape.nodes
  have hlast : lh.p + lh.pmax - 1 = lh.halve.p + lh.halve.pmax := by
    have := h.nodes
    omega
  have hlt : lh.halve.p + lh.halve.pmax < lh.num_alloc_nodes := by
    have h2 := h.alloc
    have h3 := h.p_lt
    omega
  have hlt' : lh.halve.p < lh.halve.num_alloc_nodes := by
    rw [hshape.alloc]
    omega
  have hother : update lh.b (lh.halve.p + lh.halve.pmax) [] lh.halve.p =
      lh.b lh.halve.p := update_of_ne (by omega) ..
  have hnum : lh.halve.pmax + (lh.halve.p + 1) = lh.num_nodes := by omega
  have hplaced : Placed (fun n : Node α => address (lh.halve.p + 1) lh.halve.pmax n.hash) lh.b
      (lh.halve.pmax + (lh.halve.p + 1)) := by
    simp only [haddr, hnum]
    exact h.placed
  have hmerged := hplaced.merge hp
  have hcontents := contents_merge (b := lh.b) hp
  rw [← hnodes'] at hmerged
  rw [← hnodes', hnum] at hcontents
  obtain ⟨b', hb'⟩ : ∃ b', b' = update (update lh.b (lh.halve.p + lh.halve.pmax) []) lh.halve.p
      (lh.b lh.halve.p ++ lh.b (lh.halve.p + lh.halve.pmax)) := ⟨_, rfl⟩
  rw [← hb'] at hmerged hcontents
  have hcontract : contract lh = some { lh.halve with b := b' } := by
    simp only [contract, hlast, halve_with]
    rw [if_pos hlt, if_pos hlt', hother, hb']
  have hshape' : ({ lh.halve with b := b' } : Lhash α).Shape :=
    ⟨hshape.pow, hshape.alloc, hshape.p_lt, hshape.nodes, hshape.bounded⟩
  exact ⟨_, hcontract,
    ⟨h.of_perm hshape' hmerged hcontents hitems, hcontents, hitems, hup, hdown⟩, hnodes⟩

/-! ### Access -/

theorem getrnLoop_spec (m : Methods α) (data : α) (hash : ℕ) (chain : List (Node α)) :
    let r := getrnLoop m data hash chain
    r.1 ++ r.2 = chain ∧
      (∀ n ∈ r.1, ¬ (n.hash = hash ∧ m.comp n.data data = 0)) ∧
      ∀ n ∈ r.2.head?, n.hash = hash ∧ m.comp n.data data = 0 := by
  induction chain with
  | nil => simp [getrnLoop]
  | cons n1 chain ih =>
    obtain ⟨happend, hbefore, hhead⟩ := ih
    rw [getrnLoop]
    split
    · next hfound => exact ⟨rfl, nofun, fun n hn => by cases hn; exact hfound⟩
    next hne =>
    refine ⟨by rw [cons_append, happend], fun n hn => ?_, hhead⟩
    rcases mem_cons.mp hn with rfl | hn
    · exact hne
    · exact hbefore n hn

/-- The place of some data in a table. -/
structure Placement (m : Methods α) (lh : Lhash α) (data : α) (place : Place α) : Prop where
  hash : place.hash = m.hash data
  nn : place.nn = address lh.p lh.pmax (m.hash data)
  nn_lt : place.nn < lh.num_nodes
  chain : lh.b place.nn = place.before ++ place.rn
  before : ∀ n ∈ place.before, ¬ m.Same n.data data
  found : ∀ n ∈ place.rn.head?, m.Same n.data data

theorem getrn_spec (h : lh.Valid m) (data : α) :
    ∃ place, getrn m lh data = some place ∧ Placement m lh data place := by
  have hlt := address_lt (m.hash data) h.p_lt
  have haddr : (if m.hash data % lh.pmax < lh.p then m.hash data % lh.num_alloc_nodes
      else m.hash data % lh.pmax) = address lh.p lh.pmax (m.hash data) := by
    rw [h.alloc]
    rfl
  have hbound : address lh.p lh.pmax (m.hash data) < lh.num_alloc_nodes := by
    have hp := h.p_lt
    rw [h.alloc]
    omega
  obtain ⟨happend, hbefore, hhead⟩ := getrnLoop_spec m data (m.hash data)
    (lh.b (address lh.p lh.pmax (m.hash data)))
  -- The stored hash value of a node is that of its data, so a hit is one with the same key.
  have hmem : ∀ n ∈ lh.b (address lh.p lh.pmax (m.hash data)), n.hash = m.hash n.data := by
    intro n hn
    exact h.hashes n (mem_contents.mpr ⟨_, h.nodes ▸ hlt, hn⟩)
  refine ⟨⟨m.hash data, address lh.p lh.pmax (m.hash data), _, _⟩, ?_, rfl, rfl, h.nodes ▸ hlt,
    happend.symm, fun n hn hsame => ?_, fun n hn => ?_⟩
  · simp only [getrn, haddr]
    rw [if_pos hbound]
  · have hn' := hmem n (happend ▸ mem_append_left _ hn)
    exact hbefore n hn ⟨hn'.trans hsame.1, hsame.2⟩
  · have hn' := hmem n (happend ▸ mem_append_right _ (mem_of_mem_head? hn))
    obtain ⟨hhash, hcomp⟩ := hhead n hn
    exact ⟨hn'.symm.trans hhash, hcomp⟩

variable {before rest : List (Node α)} {n : Node α} {data : α} {place : Place α} {i : ℕ}
  {ret : Option α}

theorem Lhash.Valid.insert (h : lh.Valid m) {nn : ℕ} (new : Node α)
    (hchain : lh.b nn = before ++ rest) (hnn : nn = address lh.p lh.pmax new.hash)
    (hhash : new.hash = m.hash new.data) (hfresh : ∀ n ∈ lh.entries, ¬ m.Same new.data n.data) :
    ({ lh with b := update lh.b nn (before ++ new :: rest)
               num_items := lh.num_items + 1 } : Lhash α).Valid m ∧
    (contents (update lh.b nn (before ++ new :: rest)) lh.num_nodes).Perm
      (new :: lh.entries) := by
  have hlt : nn < lh.num_nodes := by
    rw [hnn, h.nodes]
    exact address_lt _ h.p_lt
  have hperm := contents_insert_perm hlt hchain new
  refine ⟨⟨⟨h.pow, h.alloc, h.p_lt, h.nodes, h.bounded⟩, fun n hn => ?_, ?_, ?_, ?_⟩, hperm⟩
  · rcases mem_cons.mp (hperm.mem_iff.mp hn) with rfl | hn
    · exact hhash
    · exact h.hashes n hn
  · refine h.placed.update hlt fun n hn => ?_
    rcases mem_cons.mp (perm_middle.mem_iff.mp hn) with rfl | hn
    · exact hnn.symm
    · exact h.placed.mem_bucket (hchain ▸ hn)
  · rw [Lhash.entries, hperm.length_eq, length_cons, h.count, Lhash.entries]
  · exact hperm.symm.pairwise (pairwise_cons.mpr ⟨hfresh, h.distinct⟩)
      fun hne hsame => hne hsame.symm

theorem Lhash.Valid.erase (h : lh.Valid m) {nn : ℕ} (hchain : lh.b nn = before ++ n :: rest) :
    ({ lh with b := update lh.b nn (before ++ rest)
               num_items := lh.num_items - 1 } : Lhash α).Valid m ∧
    lh.entries.Perm (n :: contents (update lh.b nn (before ++ rest)) lh.num_nodes) := by
  have hlt : nn < lh.num_nodes := Nat.lt_of_not_le fun hle => by
    rw [h.placed.outside nn hle] at hchain
    simp at hchain
  have hperm := contents_insert_perm (b := update lh.b nn (before ++ rest)) hlt (update_self ..) n
  rw [update_idem, ← hchain, update_eq_self] at hperm
  have hsub : ∀ x ∈ contents (update lh.b nn (before ++ rest)) lh.num_nodes,
      x ∈ lh.entries := fun x hx => hperm.mem_iff.mpr (mem_cons_of_mem n hx)
  refine ⟨⟨⟨h.pow, h.alloc, h.p_lt, h.nodes, h.bounded⟩, fun x hx => h.hashes x (hsub x hx), ?_, ?_,
    ?_⟩, hperm⟩
  · refine h.placed.update hlt fun x hx => h.placed.mem_bucket (i := nn) ?_
    rw [hchain]
    exact perm_middle.mem_iff.mpr (mem_cons_of_mem n hx)
  · have hcount := h.count
    rw [Lhash.entries, hperm.length_eq] at hcount
    rw [hcount]
    rfl
  · exact (pairwise_cons.mp
      (hperm.pairwise h.distinct fun hne hsame => hne hsame.symm)).2

theorem Placement.miss (h : lh.Valid m) (hplace : Placement m lh data place) (hrn : place.rn = []) :
    ∀ n ∈ lh.entries,
      ¬ m.Same n.data data := by
  intro n hn hsame
  have hbucket := h.placed.mem_contents_iff.mp hn
  rw [h.hashes n hn, hsame.1, ← hplace.nn, hplace.chain, hrn, append_nil] at hbucket
  exact hplace.before n hbucket hsame

theorem Lhash.Valid.mem_entries (h : lh.Valid m) (hn : n ∈ lh.b i) : n ∈ lh.entries := by
  refine mem_contents.mpr ⟨i, Nat.lt_of_not_le fun hle => ?_, hn⟩
  rw [h.placed.outside i hle] at hn
  cases hn

theorem Lhash.Valid.length_bucket_le (h : lh.Valid m) (i : ℕ) : (lh.b i).length ≤ lh.num_items := by
  rw [h.count]
  rcases Nat.lt_or_ge i lh.num_nodes with hi | hi
  · exact (sublist_contents hi).length_le
  · rw [h.placed.outside i hi]
    exact Nat.zero_le _

theorem Lhash.Valid.eq_bucket (h : lh.Valid m) {x y : Node α} {j : ℕ} (hx : x ∈ lh.b i)
    (hy : y ∈ lh.b j) (hdata : x.data = y.data) : i = j := by
  rw [← h.placed.mem_bucket hx, ← h.placed.mem_bucket hy, h.hashes x (h.mem_entries hx),
    h.hashes y (h.mem_entries hy), hdata]

theorem Lhash.Valid.not_same_before (h : lh.Valid m) (hchain : lh.b i = before ++ n :: rest) :
    ∀ x ∈ before, ¬ m.Same x.data n.data := by
  have hn : n ∈ lh.b i := hchain ▸ mem_append_right _ mem_cons_self
  obtain ⟨j, hj, hnj⟩ := mem_contents.mp (h.mem_entries hn)
  obtain rfl := h.eq_bucket hn hnj rfl
  have hdistinct := h.distinct.sublist (sublist_contents hj)
  rw [hchain, pairwise_append] at hdistinct
  exact fun x hx => hdistinct.2.2 x hx n mem_cons_self

/-- What an insertion does to the data of a table, and what it returns. -/
inductive Inserted (m : Methods α) (data : α) (items items' : List α) : Option α → Prop
  | added (fresh : ∀ x ∈ items, ¬ m.Same x data) (perm : items'.Perm (data :: items)) :
    Inserted m data items items' none
  | replaced {old : α} {rest : List α} (same : m.Same old data) (perm : items.Perm (old :: rest))
    (perm' : items'.Perm (data :: rest)) : Inserted m data items items' (some old)

theorem Inserted.of_perm {items items1 items' : List α} (h : Inserted m data items1 items' ret)
    (hperm : items1.Perm items) : Inserted m data items items' ret := by
  cases h with
  | added fresh perm =>
    exact .added (fun x hx => fresh x (hperm.mem_iff.mpr hx)) (perm.trans (hperm.cons data))
  | replaced same perm perm' => exact .replaced same (hperm.symm.trans perm) perm'

inductive Deleted (m : Methods α) (data : α) (items items' : List α) : Option α → Prop
  | missing (fresh : ∀ x ∈ items, ¬ m.Same x data) (perm : items'.Perm items) :
    Deleted m data items items' none
  | removed {x : α} (same : m.Same x data) (perm : items.Perm (x :: items')) :
    Deleted m data items items' (some x)

inductive Retrieved (m : Methods α) (data : α) (items : List α) : Option α → Prop
  | missing (fresh : ∀ x ∈ items, ¬ m.Same x data) : Retrieved m data items none
  | found {x : α} (mem : x ∈ items) (same : m.Same x data) : Retrieved m data items (some x)

theorem Lhash.Valid.count_items (h : lh.Valid m) : lh.num_items = lh.items.length := by
  rw [h.count, Lhash.items, length_map]

theorem Lhash.Valid.congr {m' : Methods α} (h : lh.Valid m)
    (hhash : ∀ x ∈ lh.items, m'.hash x = m.hash x)
    (hcomp : ∀ x ∈ lh.items, ∀ y ∈ lh.items, m'.comp x y = m.comp x y) : lh.Valid m' where
  toShape := h.toShape
  hashes n hn := (h.hashes n hn).trans (hhash _ (mem_map_of_mem hn)).symm
  placed := h.placed
  count := h.count
  distinct := h.distinct.imp_of_mem fun hx hy hne hsame => by
    have hx' := mem_map_of_mem (f := Node.data) hx
    have hy' := mem_map_of_mem (f := Node.data) hy
    exact hne ⟨by rw [← hhash _ hx', ← hhash _ hy']; exact hsame.1,
      by rw [← hcomp _ hx' _ hy']; exact hsame.2⟩

theorem forall_items {P : α → Prop} : (∀ x ∈ lh.items, P x) ↔ ∀ n ∈ lh.entries, P n.data := by
  simp [Lhash.items]

theorem put_spec (h : lh.Valid m) (hplace : Placement m lh data place) :
    (lh.put data place).2.Valid m ∧
      Inserted m data lh.items (lh.put data place).2.items (lh.put data place).1 := by
  rw [Lhash.put]
  cases hrn : place.rn with
  | nil =>
    have hmiss := hplace.miss h hrn
    have hchain := hplace.chain
    rw [hrn] at hchain
    obtain ⟨hvalid, hperm⟩ := h.insert ⟨data, place.hash⟩ hchain
      (by rw [hplace.nn, hplace.hash]) hplace.hash fun n hn hsame => hmiss n hn hsame.symm
    exact ⟨hvalid, .added (forall_items.mpr hmiss) (hperm.map Node.data)⟩
  | cons n rest =>
    have hsame : m.Same n.data data := hplace.found n (hrn ▸ rfl)
    have hchain := hplace.chain
    rw [hrn] at hchain
    -- The node is taken out and put back with the new data.
    obtain ⟨hvalid, hperm⟩ := h.erase hchain
    have hmem : n ∈ lh.entries := hperm.mem_iff.mpr mem_cons_self
    have hhash : n.hash = m.hash data := (h.hashes n hmem).trans hsame.1
    have hdistinct := (pairwise_cons.mp
      (hperm.pairwise h.distinct fun hne hsame => hne hsame.symm)).1
    obtain ⟨hvalid', hperm'⟩ := hvalid.insert { n with data := data }
      (update_self ..) (hhash ▸ hplace.nn) hhash
      fun x hx hsame' => hdistinct x hx (hsame.trans hsame')
    have hpos : lh.num_items - 1 + 1 = lh.num_items := by
      have hcount := h.count
      rw [hperm.length_eq, length_cons] at hcount
      omega
    simp only [update_idem, hpos] at hvalid' hperm'
    exact ⟨hvalid', .replaced hsame (hperm.map Node.data) (hperm'.map Node.data)⟩

theorem Keeps.refl (h : lh.Valid m) : Keeps m lh lh := ⟨h, .refl _, rfl, rfl, rfl⟩

theorem grow_spec (h : lh.Valid m) (hg : lh.grow = some lh') : Keeps m lh lh' := by
  rw [Lhash.grow] at hg
  split at hg
  · exact (expand_spec h hg).1
  · cases hg
    exact .refl h

theorem grow_load (h : lh.Valid m) (hup : lh.up_load = 2 * lhLoadMult)
    (hload : lh.num_items ≤ 2 * lh.num_nodes) (hg : lh.grow = some lh') :
    lh.num_items < 2 * lh'.num_nodes := by
  rw [Lhash.grow, hup] at hg
  split at hg
  · have hnodes := (expand_spec h hg).2
    omega
  next hlow =>
  cases hg
  have hpos := h.num_nodes_pos
  have hlt := (Nat.div_lt_iff_lt_mul hpos).mp (Nat.not_le.mp hlow)
  simp only [lhLoadMult] at hlt
  omega

theorem grow_defined (h : lh.Valid m) (hup : lh.up_load = 2 * lhLoadMult)
    (hitems : lh.num_items < 2 ^ 31 - 2) : ∃ lh', lh.grow = some lh' := by
  rw [Lhash.grow, hup]
  split
  · next hhigh =>
    have hpos := h.num_nodes_pos
    have hle := (Nat.le_div_iff_mul_le hpos).mp hhigh
    simp only [lhLoadMult] at hle
    exact expand_defined h (by omega)
  · exact ⟨lh, rfl⟩

theorem shrink_spec (h : lh.Valid m) : ∃ lh', lh.shrink = some lh' ∧ Keeps m lh lh' := by
  rw [Lhash.shrink]
  split
  · next hlow =>
    obtain ⟨lh', heq, hkeeps, -⟩ := contract_spec h hlow.1
    exact ⟨lh', heq, hkeeps⟩
  · exact ⟨lh, rfl, .refl h⟩

theorem Keeps.items (h : Keeps m lh lh') : lh'.items.Perm lh.items := h.entries.map Node.data

theorem lhInsert_spec (h : lh.Valid m) (hi : lhInsert m lh data = some (ret, lh')) :
    lh'.Valid m ∧ Inserted m data lh.items lh'.items ret ∧ lh'.up_load = lh.up_load ∧
      lh'.down_load = lh.down_load := by
  obtain ⟨lh1, hgrow, hi'⟩ := bind_eq_some_iff.mp hi
  have hkeeps := grow_spec h hgrow
  obtain ⟨place, hget, hplace⟩ := getrn_spec hkeeps.valid data
  rw [hget, bind_eq_bind, bind_some, some_inj] at hi'
  obtain ⟨hvalid, hinserted⟩ := put_spec hkeeps.valid hplace
  have hloads : (lh1.put data place).2.up_load = lh1.up_load ∧
      (lh1.put data place).2.down_load = lh1.down_load := by
    rw [Lhash.put]
    split <;> exact ⟨rfl, rfl⟩
  rw [hi'] at hvalid hinserted hloads
  exact ⟨hvalid, hinserted.of_perm hkeeps.items, hloads.1.trans hkeeps.up_load,
    hloads.2.trans hkeeps.down_load⟩

theorem lhInsert_load (h : lh.Valid m) (hup : lh.up_load = 2 * lhLoadMult)
    (hload : lh.num_items ≤ 2 * lh.num_nodes) (hi : lhInsert m lh data = some (ret, lh')) :
    lh.num_items < 2 * lh'.num_nodes := by
  obtain ⟨lh1, hgrow, hi'⟩ := bind_eq_some_iff.mp hi
  obtain ⟨place, hget, hi''⟩ := bind_eq_some_iff.mp hi'
  have hnodes : (lh1.put data place).2.num_nodes = lh1.num_nodes := by
    rw [Lhash.put]
    split <;> rfl
  rw [some_inj.mp hi''] at hnodes
  rw [hnodes]
  exact grow_load h hup hload hgrow

theorem lhInsert_defined (h : lh.Valid m) (hup : lh.up_load = 2 * lhLoadMult)
    (hitems : lh.num_items < 2 ^ 31 - 2) (data : α) :
    ∃ ret lh', lhInsert m lh data = some (ret, lh') := by
  obtain ⟨lh1, hgrow⟩ := grow_defined h hup hitems
  obtain ⟨place, hget, -⟩ := getrn_spec (grow_spec h hgrow).valid data
  refine ⟨(lh1.put data place).1, (lh1.put data place).2, ?_⟩
  rw [lhInsert, hgrow, bind_eq_bind, bind_some, hget]
  rfl

/-- `lh_delete`. It contracts the table by one bucket or leaves the buckets alone. -/
theorem lhDelete_spec (h : lh.Valid m) (data : α) :
    ∃ ret lh', lhDelete m lh data = some (ret, lh') ∧ lh'.Valid m ∧
      Deleted m data lh.items lh'.items ret ∧ lh'.up_load = lh.up_load ∧
      lh'.down_load = lh.down_load := by
  obtain ⟨place, hget, hplace⟩ := getrn_spec h data
  rw [lhDelete, hget, bind_eq_bind, bind_some]
  cases hrn : place.rn with
  | nil =>
    exact ⟨none, lh, rfl, h, .missing (forall_items.mpr (hplace.miss h hrn)) (.refl _), rfl, rfl⟩
  | cons n rest =>
    have hsame : m.Same n.data data := hplace.found n (hrn ▸ rfl)
    have hchain := hplace.chain
    rw [hrn] at hchain
    obtain ⟨hvalid, hperm⟩ := h.erase hchain
    obtain ⟨lh', hshrink, hkeeps⟩ := shrink_spec hvalid
    refine ⟨some n.data, lh', ?_, hkeeps.valid, .removed hsame ?_, hkeeps.up_load, hkeeps.down_load⟩
    · change ((lh.take place rest).shrink.bind _) = _
      rw [Lhash.take, hshrink]
      rfl
    · exact (hperm.map Node.data).trans (hkeeps.items.symm.cons n.data)

theorem lhDelete_eq (h : lh.Valid m) (hchain : lh.b i = before ++ n :: rest) :
    lhDelete m lh n.data =
      ({ lh with b := update lh.b i (before ++ rest)
                 num_items := lh.num_items - 1 } : Lhash α).shrink.map
        fun lh' => (some n.data, lh') := by
  have hn : n ∈ lh.b i := hchain ▸ mem_append_right _ mem_cons_self
  obtain ⟨place, hget, hplace⟩ := getrn_spec h n.data
  have hnn : place.nn = i := by
    rw [hplace.nn, ← h.hashes n (h.mem_entries hn)]
    exact h.placed.mem_bucket hn
  have happend := hplace.chain
  rw [hnn, hchain] at happend
  -- The place is where the node is, since its key is there once.
  have hparts : place.before = before ∧ place.rn = n :: rest := by
    rcases append_eq_append_iff.mp happend with ⟨mid, hbefore, hrn⟩ | ⟨mid, hbefore, hrn⟩
    · cases mid with
      | nil => exact ⟨by rw [hbefore, append_nil], hrn.symm⟩
      | cons y mid =>
        obtain ⟨rfl, -⟩ := List.cons.inj hrn
        refine absurd (Methods.Same.refl m n.data) (hplace.before n ?_)
        rw [hbefore]
        exact mem_append_right _ mem_cons_self
    · cases mid with
      | nil => exact ⟨by rw [hbefore, append_nil], hrn⟩
      | cons x mid =>
        have hx : x ∈ before := hbefore ▸ mem_append_right _ mem_cons_self
        exact absurd (hplace.found x (hrn ▸ rfl)) (h.not_same_before hchain x hx)
  rw [lhDelete, hget]
  dsimp only [bind_eq_bind, bind_some]
  rw [hparts.2]
  dsimp only [Lhash.take]
  rw [hnn, hparts.1]
  cases Lhash.shrink _ <;> rfl

theorem lhRetrieve_spec (h : lh.Valid m) (data : α) :
    ∃ ret, lhRetrieve m lh data = some ret ∧ Retrieved m data lh.items ret := by
  obtain ⟨place, hget, hplace⟩ := getrn_spec h data
  rw [lhRetrieve, hget, bind_eq_bind, bind_some]
  cases hrn : place.rn with
  | nil => exact ⟨none, rfl, .missing (forall_items.mpr (hplace.miss h hrn))⟩
  | cons n rest =>
    refine ⟨some n.data, rfl, .found ?_ (hplace.found n (hrn ▸ rfl))⟩
    have hmem : n ∈ lh.b place.nn := by
      rw [hplace.chain, hrn]
      exact mem_append_right _ mem_cons_self
    exact mem_map_of_mem (mem_contents.mpr ⟨_, hplace.nn_lt, hmem⟩)

end

end VigorTls.Hash
