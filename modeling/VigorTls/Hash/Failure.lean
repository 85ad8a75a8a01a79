import VigorTls.Hash.Map

/-!
# Tables when memory runs out

`crypto/lhash/lhash.c` with allocations that fail. That of a node is harmless, those of the array
come too late: when `expand` gets no larger array, every bucket has been split already and it goes
back to `p = 0`, from where the upper half is not looked at; when `contract` gets no smaller one, it
has taken the last chain out already.

A call that is `Lossless` keeps to the map (`stepWith_refines`), and so does a sequence
(`runWith_refines`); one that is not loses an entry (`grow_loses`, `shrink_loses`). A call comes
with the `error` that `lh_error` gives after it.
-/

namespace VigorTls.Hash

open Lib List Function Option Nat Lhash

variable {α : Type}

/-- The allocations of a call that fail: that of the array, and that of a node. -/
structure Faults where
  realloc : Bool
  malloc : Bool

variable (fails : Bool)

variable (lh : Lhash α)

/-- The end of `expand`, with what is added to `error`. -/
def Lhash.doubleWith : Option (ℕ × Lhash α) :=
  if fails ∧ lh.p ≥ lh.pmax ∧ lh.num_alloc_nodes * 2 ≤ intMax then some (1, { lh with p := 0 })
  else lh.double.map (0, ·)

def expandWith : Option (ℕ × Lhash α) :=
  if lh.p + lh.pmax < lh.num_alloc_nodes then lh.splitNext.doubleWith fails else none

def contractWith : Option (ℕ × Lhash α) :=
  let last := lh.p + lh.pmax - 1
  if fails ∧ lh.p = 0 ∧ last < lh.num_alloc_nodes then
    some (1, { lh with b := update lh.b last [] })
  -- `p` would be the largest `unsigned int` after it
  else if lh.p = 0 ∧ lh.pmax < 2 then none
  else (contract lh).map (0, ·)

def Lhash.Grows : Prop :=
  lh.up_load ≤ lh.num_items * lhLoadMult / lh.num_nodes

def Lhash.Shrinks : Prop :=
  lh.num_nodes > minNodes ∧ lh.down_load ≥ lh.num_items * lhLoadMult / lh.num_nodes

instance : Decidable lh.Grows := inferInstanceAs (Decidable (_ ≤ _))

instance : Decidable lh.Shrinks := inferInstanceAs (Decidable (_ ∧ _))

/-- The test of `lh_insert`. -/
def Lhash.growWith : Option (ℕ × Lhash α) :=
  if lh.Grows then expandWith fails lh else some (0, lh)

/-- The test of `lh_delete`. -/
def Lhash.shrinkWith : Option (ℕ × Lhash α) :=
  if lh.Shrinks then contractWith fails lh else some (0, lh)

variable (m : Methods α)

def lhInsertWith (faults : Faults) (lh : Lhash α) (data : α) :
    Option ((Option α × ℕ) × Lhash α) := do
  let (error, lh) ← lh.growWith faults.realloc
  let place ← getrn m lh data
  if place.rn.isEmpty ∧ faults.malloc then some ((none, error + 1), lh)
  else some (((lh.put data place).1, error), (lh.put data place).2)

def lhDeleteWith (faults : Faults) (lh : Lhash α) (data : α) :
    Option ((Option α × ℕ) × Lhash α) := do
  let place ← getrn m lh data
  match place.rn with
  | [] => some ((none, 0), lh)
  | n :: rest =>
    let (error, lh) ← (lh.take place rest).shrinkWith faults.realloc
    some ((some n.data, error), lh)

/-- A call during which allocations fail: what it returns, and `error` after it. -/
def stepWith (lh : Lhash α) : Op α × Faults → Option ((Option α × ℕ) × Lhash α)
  | (.insert data, faults) => lhInsertWith m faults lh data
  | (.delete data, faults) => lhDeleteWith m faults lh data
  | (.retrieve data, _) => (lhRetrieve m lh data).map fun ret => ((ret, 0), lh)

def runWith : Lhash α → List (Op α × Faults) → Option (List (Option α × ℕ) × Lhash α) :=
  runOutput (stepWith m)

/-- The calls on a map. An insertion that needs a node and gets none has failed and does nothing.
One that stores its item counts as successful, also if `error` is set since the array stayed as it
was; a deletion always does. -/
def mapStepWith (f : α → Option α) : Op α × Faults → Option α × (α → Option α)
  | (.insert data, faults) =>
    if (f data).isNone ∧ faults.malloc then (none, f) else mapStep m f (.insert data)
  | (.delete data, _) => mapStep m f (.delete data)
  | (.retrieve data, _) => mapStep m f (.retrieve data)

def mapRunWith : (α → Option α) → List (Op α × Faults) → List (Option α) × (α → Option α) :=
  runOutputs (mapStepWith m)

def RoomsWith : (α → Option α) → List (Op α × Faults) → Prop :=
  Along (fun f op => (mapStepWith m f op).2) fun f op => Room f op.1

/-- The upper half of the buckets is empty when `expand` asks for a larger array. -/
def Lhash.GrowLossless : Prop :=
  lh.Grows → lh.p + 1 = lh.pmax →
    ∀ i < lh.num_alloc_nodes, ∀ n ∈ lh.b i, n.hash % lh.num_alloc_nodes < lh.pmax

/-- The last bucket is empty when `contract` calls for a smaller array. -/
def Lhash.ShrinkLossless : Prop := lh.Shrinks → lh.p = 0 → lh.b (lh.pmax - 1) = []

/-- The table that a deletion leaves before it contracts it. -/
def afterTake (lh : Lhash α) (data : α) : Option (Lhash α) := do
  let place ← getrn m lh data
  match place.rn with
  | [] => none
  | _ :: rest => some (lh.take place rest)

/-- A call that loses nothing if it gets no memory for the array. -/
def Lossless (lh : Lhash α) : Op α × Faults → Prop
  | (.insert _, faults) => faults.realloc → lh.GrowLossless
  | (.delete data, faults) => faults.realloc → ∀ lh' ∈ afterTake m lh data, lh'.ShrinkLossless
  | (.retrieve _, _) => True

/-- A deletion that contracts the table finds as many buckets in use as it counts on. -/
def Enough (lh : Lhash α) : Op α × Faults → Prop
  | (.delete data, _) => ∀ lh' ∈ afterTake m lh data, lh'.Shrinks → lh'.pmax + lh'.p > minNodes
  | _ => True

def AllLossless : Lhash α → (α → Option α) → List (Op α × Faults) → Prop :=
  AlongOption (fun lh op => (stepWith m lh op).map Prod.snd) (fun f op => (mapStepWith m f op).2)
    fun lh _ op => Lossless m lh op ∧ Enough m lh op

instance : Decidable lh.GrowLossless := inferInstanceAs (Decidable (_ → _))

instance : Decidable lh.ShrinkLossless := inferInstanceAs (Decidable (_ → _))

instance (lh : Lhash α) : DecidablePred (Lossless m lh)
  | (.insert _, _) | (.delete _, _) => inferInstanceAs (Decidable (_ → _))
  | (.retrieve _, _) => .isTrue trivial

instance (lh : Lhash α) : DecidablePred (Enough m lh)
  | (.delete data, _) => inferInstanceAs (Decidable (∀ lh' ∈ afterTake m lh data, _ → _))
  | (.insert _, _) | (.retrieve _, _) => .isTrue trivial

instance (lh : Lhash α) (f : α → Option α) : DecidablePred (AllLossless m lh f) :=
  AlongOption.decidable _ _ _ lh f

/-! ## The buckets in use -/

def Lhash.renumber (k : ℕ) : Lhash α := { lh with num_nodes := k }

/-- A table with its number of buckets put right. -/
def Lhash.used : Lhash α := lh.renumber (lh.pmax + lh.p)

section

variable {m : Methods α} {lh lh' : Lhash α} {f : α → Option α}

theorem double_renumber (lh : Lhash α) (k : ℕ) :
    (lh.renumber k).double = lh.double.map fun lh' => lh'.renumber k := by
  unfold double renumber
  split_ifs <;> rfl

theorem expand_renumber (lh : Lhash α) (k : ℕ) :
    expand (lh.renumber k) = (expand lh).map fun lh' => lh'.renumber (k + 1) := by
  have hdouble := double_renumber lh.splitNext (k + 1)
  unfold expand renumber at *
  split_ifs
  · exact hdouble
  · rfl

theorem contract_renumber (lh : Lhash α) (k : ℕ) :
    contract (lh.renumber k) = (contract lh).map fun lh' => lh'.renumber (k - 1) := by
  have hhalve : halve { lh.renumber k with
      b := update (lh.renumber k).b ((lh.renumber k).p + (lh.renumber k).pmax - 1) [] } =
      renumber (halve { lh with b := update lh.b (lh.p + lh.pmax - 1) [] })
        (k - 1) := by
    unfold halve renumber
    split_ifs <;> rfl
  unfold contract
  by_cases hlast : lh.p + lh.pmax - 1 < lh.num_alloc_nodes
  · refine (if_pos hlast).trans ?_
    rw [hhalve]
    unfold renumber
    dsimp only
    split_ifs <;> rfl
  · rw [if_neg hlast]
    exact if_neg hlast

theorem Lhash.Shape.used_eq (h : lh.Shape) : lh.used = lh := by
  rw [used, ← h.nodes]
  rfl

/-- A map that a table holds in the buckets in use. -/
structure Keeping (m : Methods α) (lh : Lhash α) (f : α → Option α) : Prop where
  refines : Refines m lh.used f
  nodes_le : lh.pmax + lh.p ≤ lh.num_nodes

variable {data : α}

theorem Retrieved.of_perm {items items' : List α} {ret : Option α} (h : Retrieved m data items ret)
    (hperm : items.Perm items') : Retrieved m data items' ret := by
  cases h with
  | missing fresh => exact .missing fun x hx => fresh x (hperm.mem_iff.mpr hx)
  | found mem same => exact .found (hperm.mem_iff.mp mem) same

theorem Refines.keeps (h : Refines m lh f) (hkeeps : Keeps m lh lh') : Refines m lh' f := by
  refine ⟨hkeeps.valid, hkeeps.up_load.trans h.up_load, fun x => ?_⟩
  exact (h.lookup x).of_perm hkeeps.items.symm

theorem Keeping.of_refines (h : Refines m lh f) : Keeping m lh f :=
  ⟨h.valid.used_eq ▸ h, h.valid.nodes.ge⟩

theorem Keeps.used {k : ℕ} (h : Keeps m lh lh') : Keeps m lh (lh'.renumber k).used := by
  have hused : (lh'.renumber k).used = lh' := h.valid.used_eq
  rw [hused]
  exact h

variable {fails : Bool} {n : Node α}

theorem growWith_of_grows (h : lh.Grows) : lh.growWith fails = expandWith fails lh :=
  if_pos h

theorem shrinkWith_of_shrinks (h : lh.Shrinks) :
    lh.shrinkWith fails = contractWith fails lh := if_pos h

theorem expandWith_eq_expand (h : ¬ (fails ∧ lh.p + 1 = lh.pmax)) (hp : lh.p < lh.pmax) :
    expandWith fails lh = (expand lh).map (0, ·) := by
  have hnot : ¬ (fails = true ∧ lh.splitNext.p ≥ lh.splitNext.pmax ∧
      lh.splitNext.num_alloc_nodes * 2 ≤ intMax) := fun ⟨hfails, hge, _⟩ =>
    h ⟨hfails, Nat.le_antisymm hp hge⟩
  rw [expandWith, doubleWith, if_neg hnot, expand]
  split_ifs <;> rfl

section

variable (h : lh.used.Valid m)

include h

theorem expandWith_fails (hfull : lh.p + 1 = lh.pmax)
    (hlt : lh.num_nodes + 1 < 2 ^ 30) (hle : lh.pmax + lh.p ≤ lh.num_nodes) :
    expandWith true lh = some (1, { lh.splitNext with p := 0 }) := by
  have halloc : lh.num_alloc_nodes = 2 * lh.pmax := h.alloc
  have hfails : true = true ∧ lh.splitNext.p ≥ lh.splitNext.pmax ∧
      lh.splitNext.num_alloc_nodes * 2 ≤ intMax := by
    refine ⟨rfl, hfull.ge, ?_⟩
    change lh.num_alloc_nodes * 2 ≤ 2 ^ 31 - 1
    omega
  rw [expandWith, if_pos (by omega), doubleWith, if_pos hfails]

theorem placed_fails (hfull : lh.p + 1 = lh.pmax) :
    Placed (fun n => n.hash % (2 * lh.pmax)) lh.splitNext.b (lh.pmax + (lh.p + 1)) := by
  have hplaced : Placed (fun n => address (lh.p + 1) lh.pmax n.hash) lh.splitNext.b
      (lh.pmax + (lh.p + 1)) := (splitNext_spec h).1.placed
  rw [show (fun n : Node α => address (lh.p + 1) lh.pmax n.hash) = fun n => n.hash % (2 * lh.pmax)
    from funext fun n => by
      rw [hfull, address_full, address, if_neg (Nat.not_lt_zero _)]] at hplaced
  exact hplaced

theorem mem_splitNext : (∃ i, n ∈ lh.splitNext.b i) ↔ ∃ i, n ∈ lh.b i := by
  obtain ⟨hsplitting, hentries⟩ := splitNext_spec h
  have hmem : n ∈ lh.used.splitNext.entries ↔ n ∈ lh.used.entries := hentries.mem_iff
  rw [entries, entries, hsplitting.placed.exists_mem_iff,
    h.placed.exists_mem_iff] at hmem
  exact hmem

theorem Lhash.Valid.lt_alloc {i : ℕ} (hn : n ∈ lh.b i) : i < lh.num_alloc_nodes := by
  have halloc : lh.num_alloc_nodes = 2 * lh.pmax := h.alloc
  have hp : lh.p < lh.pmax := h.p_lt
  by_contra hge
  have hnil : lh.b i = [] := h.placed.2 i (show lh.pmax + lh.p ≤ i by omega)
  rw [hnil] at hn
  cases hn

theorem expand_fails_keeps (hfull : lh.p + 1 = lh.pmax)
    (hlow : ∀ i < lh.num_alloc_nodes, ∀ n ∈ lh.b i, n.hash % lh.num_alloc_nodes < lh.pmax) :
    Keeps m lh.used { lh.splitNext with p := 0 }.used := by
  have halloc : lh.num_alloc_nodes = 2 * lh.pmax := h.alloc
  have hplaced := placed_fails h hfull
  have haddr : ∀ i, ∀ n ∈ lh.splitNext.b i, address 0 lh.pmax n.hash = i ∧ i < lh.pmax := by
    intro i n hn
    obtain ⟨j, hj⟩ := (mem_splitNext h).mp ⟨i, hn⟩
    have hlt := hlow j (h.lt_alloc hj) n hj
    rw [halloc, hplaced.mem_bucket hn] at hlt
    rw [address, ← mod_mul_left_mod n.hash 2 lh.pmax, hplaced.mem_bucket hn, mod_eq_of_lt hlt]
    exact ⟨rfl, hlt⟩
  have houtside : ∀ i, lh.pmax ≤ i → lh.splitNext.b i = [] := fun i hi =>
    eq_nil_iff_forall_not_mem.mpr fun n hn => absurd (haddr i n hn).2 (Nat.not_lt.mpr hi)
  obtain ⟨lh', hlh'⟩ : ∃ lh', lh' = ({ lh.splitNext with p := 0 } : Lhash α).used := ⟨_, rfl⟩
  have hentries : lh'.entries.Perm lh.used.entries := by
    have hcontents : contents lh.splitNext.b (lh.pmax + (lh.p + 1)) =
        contents lh.splitNext.b lh.pmax := contents_of_le (Nat.le_add_right ..) houtside
    rw [hlh']
    change (contents lh.splitNext.b lh.pmax).Perm lh.used.entries
    rw [← hcontents]
    exact (splitNext_spec h).2
  rw [← hlh']
  have hshape : lh'.Shape := by
    rw [hlh']
    exact ⟨h.pow, h.alloc, zero_lt_of_lt (show lh.p < lh.pmax from h.p_lt), rfl, h.bounded⟩
  have hplaced' : Placed (fun n => address lh'.p lh'.pmax n.hash) lh'.b lh'.num_nodes := by
    rw [hlh']
    exact ⟨fun i _ n hn => (haddr i n hn).1, houtside⟩
  exact ⟨h.of_perm hshape hplaced' hentries (hlh' ▸ rfl), hentries, hlh' ▸ rfl, hlh' ▸ rfl,
    hlh' ▸ rfl⟩

end

theorem Keeping.num_nodes_lt (h : Keeping m lh f) (hitems : lh.num_items < 2 ^ 31 - 2)
    (hgrows : lh.Grows) : lh.num_nodes + 1 < 2 ^ 30 := by
  have hpos := lt_of_lt_of_le h.refines.valid.num_nodes_pos h.nodes_le
  have hup : lh.up_load = 2 * lhLoadMult := h.refines.up_load
  rw [Lhash.Grows, hup, Nat.le_div_iff_mul_le hpos] at hgrows
  simp only [lhLoadMult] at hgrows
  omega

theorem Keeping.keeps (h : Keeping m lh f) (hkeeps : Keeps m lh.used lh'.used)
    (hle : lh'.pmax + lh'.p ≤ lh'.num_nodes) : Keeping m lh' f :=
  ⟨h.refines.keeps hkeeps, hle⟩

theorem growWith_keeping (h : Keeping m lh f) (hitems : lh.num_items < 2 ^ 31 - 2)
    (hlossless : fails → lh.GrowLossless) :
    ∃ error lh', lh.growWith fails = some (error, lh') ∧ Keeping m lh' f := by
  have hvalid := h.refines.valid
  by_cases hgrows : lh.Grows
  · have hlt := h.num_nodes_lt hitems hgrows
    rw [growWith_of_grows hgrows]
    by_cases hcase : fails ∧ lh.p + 1 = lh.pmax
    · obtain ⟨rfl, hfull⟩ := hcase
      have hkeeps := expand_fails_keeps hvalid hfull (hlossless rfl hgrows hfull)
      refine ⟨1, _, expandWith_fails hvalid hfull hlt h.nodes_le, h.keeps hkeeps ?_⟩
      have hle := h.nodes_le
      change lh.pmax + 0 ≤ lh.num_nodes + 1
      omega
    have hnum : lh.used.num_nodes = lh.pmax + lh.p := rfl
    have hle := h.nodes_le
    obtain ⟨lh1, hexpand⟩ := expand_defined hvalid (by omega)
    obtain ⟨hkeeps, hnodes⟩ := expand_spec hvalid hexpand
    have heq := expand_renumber lh.used lh.num_nodes
    rw [hexpand] at heq
    refine ⟨0, _, (expandWith_eq_expand hcase hvalid.p_lt).trans (congrArg _ heq),
      h.keeps hkeeps.used ?_⟩
    have hnodes1 := hkeeps.valid.nodes
    change lh1.pmax + lh1.p ≤ lh.num_nodes + 1
    omega
  · exact ⟨0, lh, if_neg hgrows, h⟩

theorem shrinkWith_keeping (h : Keeping m lh f) (henough : lh.Shrinks → lh.pmax + lh.p > minNodes)
    (hlossless : fails → lh.ShrinkLossless) :
    ∃ error lh', lh.shrinkWith fails = some (error, lh') ∧ Keeping m lh' f := by
  have hvalid := h.refines.valid
  by_cases hshrinks : lh.Shrinks
  · have hmin := henough hshrinks
    rw [shrinkWith_of_shrinks hshrinks, contractWith]
    by_cases hcase : fails ∧ lh.p = 0 ∧ lh.p + lh.pmax - 1 < lh.num_alloc_nodes
    · -- The array stays as it is, and the chain that is taken out of it is empty.
      have hempty := hlossless hcase.1 hshrinks hcase.2.1
      have hb : update lh.b (lh.p + lh.pmax - 1) [] = lh.b := by
        rw [hcase.2.1, Nat.zero_add, ← hempty, update_eq_self]
      rw [if_pos hcase, hb]
      exact ⟨1, lh, rfl, h⟩
    rw [if_neg hcase, if_neg (by simp only [minNodes] at hmin; omega)]
    obtain ⟨lh1, hcontract, hkeeps, hnodes⟩ := contract_spec hvalid hmin
    have heq := contract_renumber lh.used lh.num_nodes
    rw [hcontract] at heq
    refine ⟨0, _, congrArg _ heq, h.keeps hkeeps.used ?_⟩
    have hnum : lh.used.num_nodes = lh.pmax + lh.p := rfl
    have hle := h.nodes_le
    have hnodes1 := hkeeps.valid.nodes
    change lh1.pmax + lh1.p ≤ lh.num_nodes - 1
    omega
  · exact ⟨0, lh, if_neg hshrinks, h⟩

theorem put_used (lh : Lhash α) (data : α) (place : Place α) :
    lh.used.put data place = ((lh.put data place).1, (lh.put data place).2.used) := by
  unfold put
  split <;> rfl

theorem put_snd (lh : Lhash α) (data : α) (place : Place α) :
    ∃ b num_items, (lh.put data place).2 = { lh with b := b, num_items := num_items } := by
  unfold put
  split <;> exact ⟨_, _, rfl⟩

variable {place : Place α}

theorem Keeping.placement (h : Keeping m lh f) (hget : getrn m lh data = some place) :
    Placement m lh.used data place := by
  obtain ⟨place', hget', hplace⟩ := getrn_spec h.refines.valid data
  obtain rfl : place = place' := some_inj.mp (hget.symm.trans hget')
  exact hplace

theorem put_keeping (hm : m.Consistent) (h : Keeping m lh f) (hget : getrn m lh data = some place) :
    (lh.put data place).1 = f data ∧
      Keeping m (lh.put data place).2 (mapStep m f (.insert data)).2 := by
  obtain ⟨hvalid, hinserted⟩ := put_spec h.refines.valid (h.placement hget)
  rw [put_used] at hvalid hinserted
  refine ⟨h.refines.valid.retrieved_unique hinserted.retrieved (h.refines.lookup data),
    ⟨hvalid, ?_, fun x => hinserted.lookup hm (h.refines.lookup x)⟩, ?_⟩
  all_goals obtain ⟨b, num_items, hput⟩ := put_snd lh data place; rw [hput]
  · exact h.refines.up_load
  · exact h.nodes_le

theorem take_keeping (hm : m.Consistent) (h : Keeping m lh f) {rest : List (Node α)}
    (hget : getrn m lh data = some place) (hrn : place.rn = n :: rest) :
    f data = some n.data ∧
      Keeping m (lh.take place rest) (mapStep m f (.delete data)).2 := by
  have hsame : m.Same n.data data := (h.placement hget).found n (hrn ▸ rfl)
  have hchain := (h.placement hget).chain
  rw [hrn] at hchain
  obtain ⟨hvalid, hperm⟩ := h.refines.valid.erase hchain
  have hdeleted : Deleted m data lh.used.items (lh.take place rest).used.items (some n.data) :=
    .removed hsame (hperm.map Node.data)
  exact ⟨h.refines.valid.retrieved_unique (h.refines.lookup data) hdeleted.retrieved,
    ⟨hvalid, h.refines.up_load, fun x =>
      hdeleted.lookup hm h.refines.valid (h.refines.lookup x)⟩, h.nodes_le⟩

theorem Keeping.miss (h : Keeping m lh f) (hget : getrn m lh data = some place)
    (hrn : place.rn = []) : f data = none := by
  exact h.refines.valid.retrieved_unique (h.refines.lookup data)
    (.missing (forall_items.mpr ((h.placement hget).miss h.refines.valid hrn)))

theorem Keeping.retrieve (h : Keeping m lh f) (x : α) : lhRetrieve m lh x = some (f x) := by
  obtain ⟨ret, heq, hretrieved⟩ := lhRetrieve_spec h.refines.valid x
  rw [← h.refines.valid.retrieved_unique hretrieved (h.refines.lookup x)]
  exact heq

variable {faults : Faults} {op : Op α × Faults}

theorem lhInsertWith_eq {error : ℕ} (hgrow : lh.growWith faults.realloc = some (error, lh'))
    (hget : getrn m lh' data = some place) :
    lhInsertWith m faults lh data =
      if place.rn.isEmpty ∧ faults.malloc then some ((none, error + 1), lh')
      else some (((lh'.put data place).1, error), (lh'.put data place).2) := by
  rw [lhInsertWith, hgrow, bind_eq_bind, bind_some]
  dsimp only
  rw [hget]
  rfl

theorem afterTake_eq {rest : List (Node α)} (hget : getrn m lh data = some place)
    (hrn : place.rn = n :: rest) : afterTake m lh data = some (lh.take place rest) := by
  rw [afterTake, hget, bind_eq_bind, bind_some, hrn]

/-- A call is as on the map, and so are all searches after it. If `error` is not set, nothing has
failed. -/
def Right (m : Methods α) (lh : Lhash α) (f : α → Option α) (op : Op α × Faults) : Prop :=
  ∃ error lh', stepWith m lh op = some (((mapStepWith m f op).1, error), lh') ∧
    (error = 0 → mapStepWith m f op = mapStep m f op.1) ∧
    ∀ x, lhRetrieve m lh' x = some ((mapStepWith m f op).2 x)

theorem stepWith_refines (hm : m.Consistent) (h : Keeping m lh f) (hroom : Room f op.1)
    (hlossless : Lossless m lh op) (henough : Enough m lh op) :
    ∃ error lh', stepWith m lh op = some (((mapStepWith m f op).1, error), lh') ∧
      (error = 0 → mapStepWith m f op = mapStep m f op.1) ∧
      Keeping m lh' (mapStepWith m f op).2 := by
  obtain ⟨op, faults⟩ := op
  cases op with
  | insert data =>
    have hitems : lh.num_items < 2 ^ 31 - 2 := h.refines.ncard_entries ▸ hroom
    obtain ⟨error, lh1, hgrow, h1⟩ := growWith_keeping h hitems hlossless
    obtain ⟨place, hget, hplace⟩ := getrn_spec h1.refines.valid data
    have hget1 : getrn m lh1 data = some place := hget
    obtain ⟨hret, hput⟩ := put_keeping hm h1 hget1
    have hempty : place.rn.isEmpty = (f data).isNone := by
      cases hrn : place.rn with
      | nil => rw [h1.miss hget1 hrn]; rfl
      | cons n rest => rw [← hret, put, hrn]; rfl
    rw [stepWith, lhInsertWith_eq hgrow hget1, hempty, mapStepWith]
    split_ifs with hmalloc
    · exact ⟨error + 1, lh1, rfl, fun hzero => absurd hzero (succ_ne_zero error), h1⟩
    · exact ⟨error, _, by rw [mapStep, ← hret], fun _ => rfl, hput⟩
  | delete data =>
    obtain ⟨place, hget, hplace⟩ := getrn_spec h.refines.valid data
    have hget1 : getrn m lh data = some place := hget
    rw [stepWith, lhDeleteWith, hget1, bind_eq_bind, bind_some]
    cases hrn : place.rn with
    | nil =>
      have hdeleted : Deleted m data lh.used.items lh.used.items none :=
        .missing (forall_items.mpr (hplace.miss h.refines.valid hrn)) (.refl _)
      refine ⟨0, lh, ?_, fun _ => rfl, ⟨h.refines.valid, h.refines.up_load, fun x =>
        hdeleted.lookup hm h.refines.valid (h.refines.lookup x)⟩, h.nodes_le⟩
      rw [mapStepWith, mapStep, h.miss hget1 hrn]
    | cons n rest =>
      obtain ⟨hret, htake⟩ := take_keeping hm h hget1 hrn
      have hafter := afterTake_eq hget1 hrn
      obtain ⟨error, lh', hshrink, h'⟩ := shrinkWith_keeping htake (henough _ hafter)
        fun hfails => hlossless hfails _ hafter
      refine ⟨error, lh', ?_, fun _ => rfl, h'⟩
      dsimp only
      rw [hshrink, mapStepWith, mapStep, hret]
      rfl
  | retrieve data =>
    refine ⟨0, lh, ?_, fun _ => rfl, h⟩
    rw [stepWith, h.retrieve]
    rfl

theorem runWith_refines (hm : m.Consistent) {ops : List (Op α × Faults)} (h : Keeping m lh f)
    (hrooms : RoomsWith m f ops) (hall : AllLossless m lh f ops) :
    ∃ outs lh', runWith m lh ops = some (outs, lh') ∧
      outs.map Prod.fst = (mapRunWith m f ops).1 ∧ Keeping m lh' (mapRunWith m f ops).2 :=
  runOutput_refines (fun lh f op h hop => by
    obtain ⟨⟨hlossless, henough⟩, hroom⟩ := hop
    obtain ⟨error, lh', hstep, -, h'⟩ := stepWith_refines hm h hroom hlossless henough
    exact ⟨_, lh', hstep, rfl, h'⟩) h (hall.and (hrooms.option lh))

/-! ## Losses -/

theorem getrnLoop_eq_nil {hash : ℕ} {chain : List (Node α)}
    (h : ∀ n ∈ chain, ¬ (n.hash = hash ∧ m.comp n.data data = 0)) :
    getrnLoop m data hash chain = (chain, []) := by
  induction chain with
  | nil => rfl
  | cons n chain ih =>
    rw [getrnLoop, if_neg (h n mem_cons_self), ih fun x hx => h x (mem_cons_of_mem n hx)]

theorem getrn_of_not_mem (hp : lh.p = 0) (hpmax : 0 < lh.pmax)
    (halloc : lh.num_alloc_nodes = 2 * lh.pmax)
    (h : ∀ n ∈ lh.b (m.hash data % lh.pmax), ¬ (n.hash = m.hash data ∧ m.comp n.data data = 0)) :
    getrn m lh data =
      some ⟨m.hash data, m.hash data % lh.pmax, lh.b (m.hash data % lh.pmax), []⟩ := by
  have hlt := mod_lt (m.hash data) hpmax
  rw [getrn]
  rw [hp, if_neg (Nat.not_lt_zero _), if_pos (by omega), getrnLoop_eq_nil h]

theorem lhRetrieve_of_not_mem (hp : lh.p = 0) (hpmax : 0 < lh.pmax)
    (halloc : lh.num_alloc_nodes = 2 * lh.pmax)
    (h : ∀ n ∈ lh.b (m.hash data % lh.pmax), ¬ (n.hash = m.hash data ∧ m.comp n.data data = 0)) :
    lhRetrieve m lh data = some none := by
  rw [lhRetrieve, getrn_of_not_mem hp hpmax halloc h]
  rfl

theorem Keeping.mem (h : Keeping m lh f) {i : ℕ} (hn : n ∈ lh.b i) :
    n.hash = m.hash n.data ∧ f n.data = some n.data := by
  have hmem : n ∈ lh.used.entries := h.refines.valid.mem_entries hn
  exact ⟨h.refines.valid.hashes n hmem, h.refines.mem_items_iff.mp (mem_map_of_mem hmem)⟩

theorem afterTake_inv (h : afterTake m lh data = some lh') : ∃ place n rest,
    getrn m lh data = some place ∧ place.rn = n :: rest ∧ lh.take place rest = lh' := by
  obtain ⟨place, hget, h⟩ := bind_eq_some_iff.mp h
  cases hrn : place.rn with
  | nil => simp [hrn] at h
  | cons n rest => exact ⟨place, n, rest, hget, hrn, by simpa [hrn] using h⟩

theorem mapStepWith_of_ne {x : α} (hx : m.comp x data ≠ 0) :
    (mapStepWith m f (.insert data, faults)).2 x = f x := by
  rw [mapStepWith]
  split
  · rfl
  · exact if_neg hx

theorem getrn_chain (h : getrn m lh data = some place) :
    lh.b place.nn = place.before ++ place.rn := by
  simp only [getrn, ite_none_right_eq_some, some_inj] at h
  obtain ⟨-, rfl⟩ := h
  exact (getrnLoop_spec ..).1.symm

theorem mem_put (hchain : lh.b place.nn = place.before ++ place.rn) {i : ℕ} {y : Node α}
    (hy : y ∈ (lh.put data place).2.b i) : y ∈ lh.b i ∨ y.data = data := by
  rw [put] at hy
  by_cases hi : i = place.nn
  · subst hi
    rw [hchain]
    cases hrn : place.rn with
    | nil =>
      rw [hrn] at hy
      simp only [update_self, mem_append, mem_singleton] at hy
      rcases hy with hy | rfl
      · exact .inl (mem_append_left _ hy)
      · exact .inr rfl
    | cons n rest =>
      rw [hrn] at hy
      simp only [update_self, mem_append, mem_cons] at hy
      rcases hy with hy | rfl | hy
      · exact .inl (mem_append_left _ hy)
      · exact .inr rfl
      · exact .inl (mem_append_right _ (mem_cons_of_mem n hy))
  · split at hy <;> exact .inl (by simpa only [update_of_ne hi] using hy)

theorem lhInsertWith_mem {out : Option α × ℕ} {error : ℕ} {lh1 : Lhash α}
    (hgrow : lh.growWith faults.realloc = some (error, lh1))
    (h : lhInsertWith m faults lh data = some (out, lh')) :
    lh'.p = lh1.p ∧ lh'.pmax = lh1.pmax ∧ lh'.num_alloc_nodes = lh1.num_alloc_nodes ∧
      ∀ i, ∀ y ∈ lh'.b i, y ∈ lh1.b i ∨ y.data = data := by
  rw [lhInsertWith, hgrow, bind_eq_bind, bind_some] at h
  obtain ⟨place, hget, h⟩ := bind_eq_some_iff.mp h
  split at h
  · cases h
    exact ⟨rfl, rfl, rfl, fun i y hy => .inl hy⟩
  have hput : (lh1.put data place).2 = lh' := (Prod.mk.inj (some_inj.mp h)).2
  have hmem := fun i y (hy : y ∈ (lh1.put data place).2.b i) => mem_put (getrn_chain hget) hy
  rw [hput] at hmem
  obtain ⟨b, num_items, heq⟩ := put_snd lh1 data place
  rw [← hput, heq] at hmem ⊢
  exact ⟨rfl, rfl, rfl, hmem⟩

/-- What is in the upper half when `expand` gets no memory is not found any more. -/
theorem grow_loses (hm : m.Consistent) (h : Keeping m lh f) (hitems : lh.num_items < 2 ^ 31 - 2)
    (hfails : faults.realloc) (hnot : ¬ lh.GrowLossless) :
    ¬ Right m lh f (.insert data, faults) := by
  unfold Lhash.GrowLossless at hnot
  push Not at hnot
  obtain ⟨hgrows, hfull, i, -, n, hn, hhigh⟩ := hnot
  have hvalid := h.refines.valid
  have halloc : lh.num_alloc_nodes = 2 * lh.pmax := hvalid.alloc
  have hpmax : 0 < lh.pmax := zero_lt_of_lt (show lh.p < lh.pmax from hvalid.p_lt)
  obtain ⟨hhash, hfn⟩ := h.mem hn
  rw [halloc, hhash] at hhigh
  -- The lower half has only nodes with other hash values.
  have hother : ∀ j < lh.pmax, ∀ y ∈ lh.splitNext.b j, y.hash ≠ m.hash n.data := by
    intro j hj y hy heq
    have haddr := (placed_fails hvalid hfull).mem_bucket hy
    rw [heq] at haddr
    omega
  have hgrow : lh.growWith faults.realloc = some (1, { lh.splitNext with p := 0 }) := by
    rw [growWith_of_grows hgrows, hfails,
      expandWith_fails hvalid hfull (h.num_nodes_lt hitems hgrows) h.nodes_le]
  rintro ⟨error, lh', hstep, -, hretrieve⟩
  by_cases hsame : m.comp n.data data = 0
  · -- The item to be replaced is the one that is lost.
    have heq : m.hash data = m.hash n.data := (hm _ _ hsame).symm
    have hget : getrn m { lh.splitNext with p := 0 } data = some ⟨m.hash data,
        m.hash data % lh.pmax, lh.splitNext.b (m.hash data % lh.pmax), []⟩ :=
      getrn_of_not_mem rfl hpmax halloc fun y hy hfound =>
        hother _ (mod_lt _ hpmax) y hy (hfound.1.trans heq)
    have hfd : f data = some n.data := by
      have hitem := h.refines.mem_items_iff.mpr hfn
      exact h.refines.valid.retrieved_unique (h.refines.lookup data)
        (.found hitem ⟨heq.symm, hsame⟩)
    have hmap : (mapStepWith m f (.insert data, faults)).1 = some n.data := by
      rw [mapStepWith, if_neg (by simp [hfd])]
      exact hfd
    rw [stepWith, lhInsertWith_eq hgrow hget, hmap] at hstep
    split at hstep <;> cases hstep
  · obtain ⟨hp, hpmax', halloc', hmem⟩ := lhInsertWith_mem hgrow hstep
    have hlost := hretrieve n.data
    rw [mapStepWith_of_ne hsame, hfn] at hlost
    have hnone : lhRetrieve m lh' n.data = some none := by
      refine lhRetrieve_of_not_mem hp (hpmax' ▸ hpmax) (by rw [halloc', hpmax']; exact halloc) ?_
      rintro y hy ⟨hyhash, hcomp⟩
      rw [hpmax'] at hy
      rcases hmem _ y hy with hy | rfl
      · exact hother _ (mod_lt _ hpmax) y hy hyhash
      · exact hsame (m.equiv.symm hcomp)
    rw [hnone] at hlost
    cases hlost

/-- What is in the last bucket when `contract` gets no memory is not found any more. -/
theorem shrink_loses (hm : m.Consistent) (h : Keeping m lh f) (hfails : faults.realloc)
    (hnot : ¬ ∀ lh' ∈ afterTake m lh data, lh'.ShrinkLossless) :
    ¬ Right m lh f (.delete data, faults) := by
  unfold Lhash.ShrinkLossless at hnot
  push Not at hnot
  obtain ⟨lh1, hafter, hshrinks, hp, hne⟩ := hnot
  obtain ⟨place, x, rest, hget, hrn, rfl⟩ := afterTake_inv hafter
  obtain ⟨hret, h1⟩ := take_keeping hm h hget hrn
  have hvalid := h1.refines.valid
  have halloc : lh.num_alloc_nodes = 2 * lh.pmax := hvalid.alloc
  have hpmax : 0 < lh.pmax := zero_lt_of_lt (show lh.p < lh.pmax from hvalid.p_lt)
  have hp' : lh.p = 0 := hp
  obtain ⟨n, hn⟩ := exists_mem_of_ne_nil _ hne
  obtain ⟨hhash, hfn⟩ := h1.mem hn
  have haddr : m.hash n.data % lh.pmax = lh.pmax - 1 := by
    have hbucket : address lh.p lh.pmax n.hash = lh.pmax - 1 := hvalid.placed.mem_bucket hn
    rw [hp', address, hhash] at hbucket
    exact hbucket
  have hcontract : (lh.take place rest).shrinkWith faults.realloc =
      some (1, { lh.take place rest with
        b := update (lh.take place rest).b (lh.p + lh.pmax - 1) [] }) := by
    rw [shrinkWith_of_shrinks hshrinks]
    exact if_pos ⟨hfails, hp, by change lh.p + lh.pmax - 1 < lh.num_alloc_nodes; omega⟩
  rintro ⟨error, lh', hstep, -, hretrieve⟩
  rw [stepWith, lhDeleteWith, hget, bind_eq_bind, bind_some, hrn] at hstep
  dsimp only at hstep
  rw [hcontract, bind_eq_bind] at hstep
  obtain ⟨-, rfl⟩ := Prod.mk.inj (some_inj.mp hstep)
  have hlost := hretrieve n.data
  have hnone : lhRetrieve m { lh.take place rest with
      b := update (lh.take place rest).b (lh.p + lh.pmax - 1) [] } n.data = some none := by
    refine lhRetrieve_of_not_mem hp hpmax halloc fun y hy => ?_
    have hempty : update (lh.take place rest).b (lh.p + lh.pmax - 1) []
        (m.hash n.data % lh.pmax) = [] := by
      rw [haddr, hp', Nat.zero_add, update_self]
    have hy' : y ∈ update (lh.take place rest).b (lh.p + lh.pmax - 1) []
        (m.hash n.data % lh.pmax) := hy
    rw [hempty] at hy'
    exact absurd hy' not_mem_nil
  rw [hnone] at hlost
  exact absurd (hlost.trans (congrArg some hfn)) (by simp)

theorem right_iff (hm : m.Consistent) (h : Keeping m lh f) (hroom : Room f op.1)
    (henough : Enough m lh op) : Right m lh f op ↔ Lossless m lh op := by
  constructor
  · intro hright
    obtain ⟨op, faults⟩ := op
    cases op with
    | insert data =>
      intro hfails
      by_contra hnot
      exact grow_loses hm h (h.refines.ncard_entries ▸ hroom) hfails hnot hright
    | delete data =>
      intro hfails
      by_contra hnot
      exact shrink_loses hm h hfails hnot hright
    | retrieve data => trivial
  · intro hlossless
    obtain ⟨error, lh', hstep, herror, h'⟩ := stepWith_refines hm h hroom hlossless henough
    exact ⟨error, lh', hstep, herror, h'.retrieve⟩

end

/-- After every sequence of calls in which none loses anything, the calls have returned what those
on the map return. The next call does so again exactly if it loses nothing. -/
theorem failures_lossless (m : Methods α) (hm : m.Consistent) (ops : List (Op α × Faults))
    (hrooms : RoomsWith m (fun _ => none) ops) (hall : AllLossless m lhNew (fun _ => none) ops) :
    ∃ outs lh, runWith m lhNew ops = some (outs, lh) ∧
      outs.map Prod.fst = (mapRunWith m (fun _ => none) ops).1 ∧
      (∀ x, lhRetrieve m lh x = some ((mapRunWith m (fun _ => none) ops).2 x)) ∧
      ∀ op, Room (mapRunWith m (fun _ => none) ops).2 op.1 → Enough m lh op →
        (Right m lh (mapRunWith m (fun _ => none) ops).2 op ↔ Lossless m lh op) := by
  obtain ⟨outs, lh, hrun, houts, h⟩ :=
    runWith_refines hm (.of_refines (lhNew_refines m)) hrooms hall
  exact ⟨outs, lh, hrun, houts, h.retrieve, fun op hroom henough => right_iff hm h hroom henough⟩

theorem mapStepWith_entries (f : α → Option α) (op : Op α × Faults) :
    ∃ x, mapEntries (mapStepWith m f op).2 ⊆ insert x (mapEntries f) := by
  obtain ⟨op, faults⟩ := op
  cases op with
  | insert data =>
    rw [mapStepWith]
    split
    · exact ⟨data, Set.subset_insert _ _⟩
    · exact mapStep_entries m f (.insert data)
  | delete data => exact mapStep_entries m f (.delete data)
  | retrieve data => exact mapStep_entries m f (.retrieve data)

/-- Numbers that all have the hash value 0. -/
def zeroes : Methods ℕ where
  hash _ := 0
  comp x y := if x = y then 0 else 1
  equiv := numbers.equiv

/-- The array can be made neither smaller when 30 is deleted, nor larger when 100 is inserted, and
there is no node for 101. -/
def tight : List (Op ℕ × Faults) :=
  (range 63).map (fun x => (.insert x, ⟨false, false⟩)) ++
    (range 32).map (fun x => (.delete x, ⟨x == 30, false⟩)) ++
    (range 31).map (fun x => (.insert x, ⟨true, false⟩)) ++
    [(.insert 100, ⟨true, false⟩), (.insert 101, ⟨true, true⟩)] ++
    [0, 31, 62, 100, 101].map fun x => (.retrieve x, ⟨true, true⟩)

/-- All numbers are in the first bucket, so that none is lost. That `error` is 1 says for 100 that
the array stayed as it was, and for 101 that it is not in the table. -/
theorem failures_lossless_tight : ∃ outs lh, runWith zeroes lhNew tight = some (outs, lh) ∧
    outs[93]? = some (some 30, 1) ∧ outs.drop 126 = [(none, 1), (none, 1),
      (some 0, 0), (none, 0), (some 62, 0), (some 100, 0), (none, 0)] ∧
    ∀ x, lhRetrieve zeroes lh x = some ((mapRunWith zeroes (fun _ => none) tight).2 x) := by
  obtain ⟨outs, lh, hrun, -, hretrieve, -⟩ := failures_lossless zeroes (fun _ _ _ => rfl) tight
    (along_room (mapStepWith_entries zeroes) (by simp [mapEntries_none])
      (by simp [mapEntries_none, tight, maxItems])) (by decide +kernel)
  have heval : (runWith zeroes lhNew tight).map (fun r => (r.1[93]?, r.1.drop 126)) =
      some (some (some 30, 1), [(none, 1), (none, 1), (some 0, 0), (none, 0), (some 62, 0),
        (some 100, 0), (none, 0)]) := by
    decide +kernel
  rw [hrun] at heval
  obtain ⟨hdelete, hdrop⟩ := Prod.mk.inj (some_inj.mp heval)
  exact ⟨outs, lh, hrun, hdelete, hdrop, hretrieve⟩

/-- The items from 0 to 30, where the array cannot be doubled for the last. -/
def thirtyOne : List (Op ℕ × Faults) :=
  (range 30).map (fun x => (.insert x, ⟨false, false⟩)) ++
    [(.insert 30, ⟨true, false⟩), (.retrieve 8, ⟨false, false⟩)]

/-- An item is lost that was inserted without an error. -/
theorem expand_loses_item :
    (runWith numbers lhNew thirtyOne).map (fun r => (r.1[8]?, r.1.drop 30)) =
        some (some (none, 0), [(none, 1), (none, 0)]) ∧
      (mapRunWith numbers (fun _ => none) thirtyOne).1.getLast? = some (some 8) := by
  decide +kernel

end VigorTls.Hash
