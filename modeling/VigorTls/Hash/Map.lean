import VigorTls.Hash.Doall
import VigorTls.Lib.Run
import Mathlib.Data.Set.Card

/-!
# The table is a finite map

A table whose hash function agrees with its comparison is a map from the classes of items that
compare equal to the item inserted last (`mapStep`). Every operation of `crypto/lhash` keeps
`Refines` and returns what the map returns (`step_refines`), from `lh_new` on (`run_refines`).
`expand` doubles the array with an `int`: an insertion is defined below `maxItems` items
(`lhInsert_defined`), and enough of them lead to an undefined one (`inserts_overflow`).
-/

namespace VigorTls.Hash

open Lib List Option

variable {α : Type}

inductive Op (α : Type)
  | insert (data : α)
  | delete (data : α)
  | retrieve (data : α)

variable (m : Methods α)

def step (lh : Lhash α) : Op α → Option (Option α × Lhash α)
  | .insert data => lhInsert m lh data
  | .delete data => lhDelete m lh data
  | .retrieve data => (lhRetrieve m lh data).map fun ret => (ret, lh)

/-- A sequence of calls, with what they return. -/
def runOps : Lhash α → List (Op α) → Option (List (Option α) × Lhash α) :=
  runOutput (step m)

/-! ## The map -/

variable (f : α → Option α)

/-- The same calls on a map. -/
def mapStep : Op α → Option α × (α → Option α)
  | .insert data => (f data, fun x => if m.comp x data = 0 then some data else f x)
  | .delete data => (f data, fun x => if m.comp x data = 0 then none else f x)
  | .retrieve data => (f data, f)

def mapRun : (α → Option α) → List (Op α) → List (Option α) × (α → Option α) :=
  runOutputs (mapStep m)

def mapEntries : Set α := { x | f x = some x }

/-- The largest number of items with which all calls are defined. -/
abbrev maxItems : ℕ := 2 ^ 31 - 2

/-- An insertion finds less than `maxItems` entries. -/
def Room : Op α → Prop
  | .insert _ => (mapEntries f).ncard < maxItems
  | _ => True

def Rooms : (α → Option α) → List (Op α) → Prop :=
  Along (fun f op => (mapStep m f op).2) Room

/-- The hash function agrees with the comparison. -/
def Methods.Consistent : Prop := ∀ x y, m.comp x y = 0 → m.hash x = m.hash y

structure Refines (lh : Lhash α) (f : α → Option α) : Prop where
  valid : lh.Valid m
  up_load : lh.up_load = 2 * lhLoadMult
  lookup : ∀ x, Retrieved m x lh.items (f x)

section

variable {m : Methods α} {lh lh' : Lhash α} {f : α → Option α} {x data : α} {r ret : Option α}
  {items items' : List α}

theorem Lhash.Valid.distinct_items (h : lh.Valid m) :
    lh.items.Pairwise fun x y => ¬ m.Same x y := pairwise_map.mpr h.distinct

theorem Lhash.Valid.eq_of_same (h : lh.Valid m) {y : α} (hx : x ∈ lh.items) (hy : y ∈ lh.items)
    (hsame : m.Same x y) : x = y := by
  have : Std.Symm fun x y => ¬ m.Same x y := ⟨fun _ _ hxy hyx => hxy hyx.symm⟩
  by_contra hne
  exact h.distinct_items.forall hx hy hne hsame

theorem Lhash.Valid.nodup_items (h : lh.Valid m) : lh.items.Nodup :=
  h.distinct_items.imp fun {x y} hne (heq : x = y) =>
    hne (heq ▸ Methods.Same.refl m x)

theorem Lhash.Valid.retrieved_unique (h : lh.Valid m) {r' : Option α}
    (hr : Retrieved m x lh.items r) (hr' : Retrieved m x lh.items r') : r = r' := by
  cases hr with
  | missing fresh =>
    cases hr' with
    | missing => rfl
    | found mem same => exact absurd same (fresh _ mem)
  | found mem same =>
    cases hr' with
    | missing fresh => exact absurd same (fresh _ mem)
    | found mem' same' => rw [h.eq_of_same mem mem' (same.trans same'.symm)]

theorem Inserted.retrieved (h : Inserted m data items items' ret) : Retrieved m data items ret := by
  cases h with
  | added fresh _ => exact .missing fresh
  | replaced same perm _ => exact .found (perm.mem_iff.mpr mem_cons_self) same

theorem Deleted.retrieved (h : Deleted m data items items' ret) : Retrieved m data items ret := by
  cases h with
  | missing fresh _ => exact .missing fresh
  | removed same perm => exact .found (perm.mem_iff.mpr mem_cons_self) same

theorem Inserted.lookup (hm : m.Consistent) (h : Inserted m data items items' ret)
    (hr : Retrieved m x items r) :
    Retrieved m x items' (if m.comp x data = 0 then some data else r) := by
  have hmem : ∀ y, y ∈ items' → y = data ∨ y ∈ items := by
    intro y hy
    cases h with
    | added _ perm => exact mem_cons.mp (perm.mem_iff.mp hy)
    | replaced _ perm perm' =>
      rcases mem_cons.mp (perm'.mem_iff.mp hy) with hy | hy
      · exact .inl hy
      · exact .inr (perm.mem_iff.mpr (mem_cons_of_mem _ hy))
  have hdata : data ∈ items' := by
    cases h with
    | added _ perm => exact perm.mem_iff.mpr mem_cons_self
    | replaced _ _ perm' => exact perm'.mem_iff.mpr mem_cons_self
  split_ifs with hx
  · exact .found hdata (Methods.Same.symm ⟨hm x data hx, hx⟩)
  cases hr with
  | missing fresh =>
    refine .missing fun y hy hsame => ?_
    rcases hmem y hy with rfl | hy
    · exact hx hsame.symm.2
    · exact fresh y hy hsame
  | @found y mem same =>
    refine .found ?_ same
    cases h with
    | added _ perm => exact perm.mem_iff.mpr (mem_cons_of_mem _ mem)
    | replaced same' perm perm' =>
      rcases mem_cons.mp (perm.mem_iff.mp mem) with rfl | hy
      · exact absurd (same.symm.trans same').2 hx
      · exact perm'.mem_iff.mpr (mem_cons_of_mem _ hy)

theorem Deleted.lookup (hm : m.Consistent) (hvalid : lh.Valid m)
    (h : Deleted m data lh.items items' ret) (hr : Retrieved m x lh.items r) :
    Retrieved m x items' (if m.comp x data = 0 then none else r) := by
  have hmem : ∀ y, y ∈ items' → y ∈ lh.items := by
    intro y hy
    cases h with
    | missing _ perm => exact perm.mem_iff.mp hy
    | removed _ perm => exact perm.mem_iff.mpr (mem_cons_of_mem _ hy)
  split_ifs with hx
  · have hsame : m.Same x data := ⟨hm x data hx, hx⟩
    refine .missing fun y hy hyx => ?_
    cases h with
    | missing fresh _ => exact fresh y (hmem y hy) (hyx.trans hsame)
    | removed same perm =>
      have hdistinct := (pairwise_cons.mp
        (perm.pairwise hvalid.distinct_items fun hne hsame => hne hsame.symm)).1
      exact hdistinct y hy (same.trans (hyx.trans hsame).symm)
  cases hr with
  | missing fresh => exact .missing fun y hy => fresh y (hmem y hy)
  | @found y mem same =>
    refine .found ?_ same
    cases h with
    | missing _ perm => exact perm.mem_iff.mpr mem
    | removed same' perm =>
      rcases mem_cons.mp (perm.mem_iff.mp mem) with rfl | hy
      · exact absurd (same.symm.trans same').2 hx
      · exact hy

theorem Refines.mem_items_iff (h : Refines m lh f) : x ∈ lh.items ↔ f x = some x := by
  have hlookup := h.lookup x
  constructor
  · intro hx
    exact h.valid.retrieved_unique hlookup (.found hx (Methods.Same.refl m x))
  · intro hfx
    rw [hfx] at hlookup
    cases hlookup with
    | found mem _ => exact mem

theorem Refines.ncard_entries (h : Refines m lh f) : (mapEntries f).ncard = lh.num_items := by
  classical
  have hset : mapEntries f = ↑lh.items.toFinset := by
    ext x
    rw [mapEntries, Set.mem_ofPred_eq, ← h.mem_items_iff, Finset.mem_coe, List.mem_toFinset]
  rw [hset, Set.ncard_coe_finset, toFinset_card_of_nodup h.valid.nodup_items, h.valid.count,
    Lhash.items, length_map]

theorem lhNew_valid (m : Methods α) : (lhNew : Lhash α).Valid m where
  pow := ⟨0, rfl⟩
  alloc := rfl
  p_lt := Nat.zero_lt_succ 7
  nodes := rfl
  bounded := show 16 ≤ 2 ^ 31 - 1 by decide
  hashes := nofun
  placed := ⟨fun _ _ _ => nofun, fun _ _ => rfl⟩
  count := rfl
  distinct := .nil

theorem lhNew_refines (m : Methods α) : Refines m lhNew fun _ => none :=
  ⟨lhNew_valid m, rfl, fun _ => .missing nofun⟩

theorem step_refines (hm : m.Consistent) (h : Refines m lh f) {op : Op α} (hroom : Room f op) :
    ∃ lh', step m lh op = some ((mapStep m f op).1, lh') ∧ Refines m lh' (mapStep m f op).2 := by
  cases op with
  | insert data =>
    have hlt : lh.num_items < 2 ^ 31 - 2 := h.ncard_entries ▸ hroom
    obtain ⟨ret, lh', heq⟩ := lhInsert_defined h.valid h.up_load hlt data
    obtain ⟨hvalid, hinserted, hup, -⟩ := lhInsert_spec h.valid heq
    obtain rfl := h.valid.retrieved_unique hinserted.retrieved (h.lookup data)
    exact ⟨lh', heq, hvalid, hup.trans h.up_load, fun x => hinserted.lookup hm (h.lookup x)⟩
  | delete data =>
    obtain ⟨ret, lh', heq, hvalid, hdeleted, hup, -⟩ := lhDelete_spec h.valid data
    obtain rfl := h.valid.retrieved_unique hdeleted.retrieved (h.lookup data)
    exact ⟨lh', heq, hvalid, hup.trans h.up_load, fun x => hdeleted.lookup hm h.valid (h.lookup x)⟩
  | retrieve data =>
    obtain ⟨ret, heq, hretrieved⟩ := lhRetrieve_spec h.valid data
    obtain rfl := h.valid.retrieved_unique hretrieved (h.lookup data)
    exact ⟨lh, by rw [step, heq]; rfl, h⟩

theorem run_refines (hm : m.Consistent) {ops : List (Op α)} (h : Refines m lh f)
    (hrooms : Rooms m f ops) :
    ∃ lh', runOps m lh ops = some ((mapRun m f ops).1, lh') ∧ Refines m lh' (mapRun m f ops).2 := by
  obtain ⟨outs, lh', hrun, houts, h'⟩ := runOutput_refines (g := id)
    (fun lh f op h hroom => by
      obtain ⟨lh', hstep, h'⟩ := step_refines hm h hroom
      exact ⟨_, lh', hstep, rfl, h'⟩) h (hrooms.option lh)
  rw [List.map_id] at houts
  exact ⟨lh', houts ▸ hrun, h'⟩

theorem doall_foldl [DecidableEq α] (h : lh.Valid m) {σ : Type} (func : α → σ → σ) (s : σ) :
    doallUtilFn Prod.fst (fun x (t : Lhash α × σ) => some (t.1, func x t.2)) (lh, s) =
      some (lh.items, (lh, lh.items.foldl (fun s x => func x s) s)) := by
  have hstep : Advances m Prod.fst (fun x t => some (t.1, func x t.2)) lh.b lh.items
      fun seen t => t = (lh, seen.foldl (fun s x => func x s) s) := by
    intro seen n rest i t _ hinv hahead
    refine ⟨_, rfl, ?_, hahead.valid, hahead.alloc, hahead.below, fun _ => ?_⟩
    · subst hinv
      rw [foldl_append]
      rfl
    · obtain ⟨before, hchain⟩ := hahead.chain (cons_ne_nil n rest)
      exact ⟨before ++ [n], by rw [hchain, append_assoc]; rfl⟩
  obtain ⟨t, hdoall, rfl⟩ := doall_rule (lh, s) h hstep rfl
  exact hdoall

end

/-- As long as no insertion finds `maxItems` entries, every sequence of calls from a new table on
returns what the calls on the map return. Each entry is in the bucket of its hash value, and going
through the table calls a function with each once. -/
theorem table_is_map [DecidableEq α] (m : Methods α) (hm : m.Consistent) (ops : List (Op α))
    (hrooms : Rooms m (fun _ => none) ops) :
    ∃ lh, runOps m lhNew ops = some ((mapRun m (fun _ => none) ops).1, lh) ∧
      (∀ x, lhRetrieve m lh x = some ((mapRun m (fun _ => none) ops).2 x)) ∧
      lh.num_items = (mapEntries (mapRun m (fun _ => none) ops).2).ncard ∧
      (∀ i, ∀ n ∈ lh.b i, n.hash = m.hash n.data ∧ i = address lh.p lh.pmax n.hash) ∧
      lh.items.Nodup ∧ (∀ x, x ∈ lh.items ↔ x ∈ mapEntries (mapRun m (fun _ => none) ops).2) ∧
      ∀ {σ : Type} (func : α → σ → σ) (s : σ),
        doallUtilFn Prod.fst (fun x (t : Lhash α × σ) => some (t.1, func x t.2)) (lh, s) =
          some (lh.items, (lh, lh.items.foldl (fun s x => func x s) s)) := by
  obtain ⟨lh, hrun, h⟩ := run_refines hm (lhNew_refines m) hrooms
  refine ⟨lh, hrun, fun x => ?_, h.ncard_entries.symm, fun i n hn => ?_, h.valid.nodup_items,
    fun x => h.mem_items_iff, fun func s => doall_foldl h.valid func s⟩
  · obtain ⟨ret, heq, hretrieved⟩ := lhRetrieve_spec h.valid x
    rw [heq, h.valid.retrieved_unique hretrieved (h.lookup x)]
  · exact ⟨h.valid.hashes n (h.valid.mem_entries hn), (h.valid.placed.mem_bucket hn).symm⟩

/-- Numbers, which are their own hash values. -/
def numbers : Methods ℕ where
  hash x := x
  comp x y := if x = y then 0 else 1
  equiv := ⟨by simp, by simp +contextual, by simp +contextual⟩

theorem numbers_same {x y : ℕ} : numbers.Same x y ↔ x = y :=
  ⟨fun h => h.1, fun h => h ▸ Methods.Same.refl numbers x⟩

theorem inserts_load : ∀ {xs : List ℕ} {lh lh' : Lhash ℕ} {rets : List (Option ℕ)},
    lh.Valid numbers → lh.up_load = 2 * lhLoadMult → lh.num_items ≤ 2 * lh.num_nodes →
    (∀ x ∈ xs, x ∉ lh.items) → xs.Nodup →
    runOps numbers lh (xs.map .insert) = some (rets, lh') →
    lh'.Valid numbers ∧ lh'.num_items = lh.num_items + xs.length ∧
      lh'.num_items ≤ 2 * lh'.num_nodes
  | [], lh, lh', rets, h, _, hload, _, _, hrun => by
    cases hrun
    exact ⟨h, rfl, hload⟩
  | x :: xs, lh, lh', rets, h, hup, hload, hfresh, hnodup, hrun => by
    obtain ⟨⟨ret, lh1⟩, hstep, hrun1⟩ := bind_eq_some_iff.mp hrun
    obtain ⟨⟨rets1, lh2⟩, hrest, hlast⟩ := bind_eq_some_iff.mp hrun1
    cases hlast
    obtain ⟨hvalid, hinserted, hup1, -⟩ := lhInsert_spec h hstep
    have hlt := lhInsert_load h hup hload hstep
    -- The item is new, so that it is added.
    have hperm : lh1.items.Perm (x :: lh.items) := by
      cases hinserted with
      | added _ perm => exact perm
      | replaced same perm _ =>
        refine absurd ?_ (hfresh x mem_cons_self)
        rw [← numbers_same.mp same]
        exact perm.mem_iff.mpr mem_cons_self
    have hcount : lh1.num_items = lh.num_items + 1 := by
      rw [hvalid.count_items, hperm.length_eq, length_cons, h.count_items]
    obtain ⟨hnotin, hnodup'⟩ := nodup_cons.mp hnodup
    obtain ⟨hvalid', hcount', hload'⟩ := inserts_load hvalid (hup1.trans hup) (by omega)
      (fun y hy hmem => by
        rcases mem_cons.mp (hperm.mem_iff.mp hmem) with rfl | hmem
        · exact hnotin hy
        · exact hfresh y (mem_cons_of_mem x hy) hmem) hnodup' hrest
    exact ⟨hvalid', by rw [hcount', length_cons]; omega, hload'⟩

/-- One item too many: the array cannot be doubled any more. -/
theorem inserts_overflow : runOps numbers lhNew ((range (maxItems + 1)).map .insert) = none := by
  rw [eq_none_iff_forall_ne_some]
  rintro ⟨rets, lh'⟩ hrun
  obtain ⟨hvalid, hcount, hload⟩ := inserts_load (lhNew_valid numbers) rfl (Nat.zero_le _)
    (fun _ _ => nofun) nodup_range hrun
  have hlt := hvalid.num_nodes_lt
  rw [length_range, maxItems] at hcount
  omega

theorem mapStep_entries (op : Op α) :
    ∃ x, mapEntries (mapStep m f op).2 ⊆ insert x (mapEntries f) := by
  cases op with
  | insert data =>
    refine ⟨data, fun x hx => ?_⟩
    simp only [mapEntries, Set.mem_ofPred_eq, mapStep] at hx
    split at hx
    · exact .inl (some_inj.mp hx).symm
    · exact .inr hx
  | delete data =>
    refine ⟨data, fun x hx => .inr ?_⟩
    simp only [mapEntries, Set.mem_ofPred_eq, mapStep] at hx
    split at hx
    · cases hx
    · exact hx
  | retrieve data => exact ⟨data, Set.subset_insert _ _⟩

/-- Calls that add at most one entry each find room if there are not too many. -/
theorem along_room {ι : Type} {next : (α → Option α) → ι → α → Option α} {op : ι → Op α}
    (hnext : ∀ f i, ∃ x, mapEntries (next f i) ⊆ insert x (mapEntries f)) :
    ∀ {labels : List ι} {f : α → Option α}, (mapEntries f).Finite →
      (mapEntries f).ncard + labels.length ≤ maxItems →
      Along next (fun f i => Room f (op i)) f labels
  | [], _, _, _ => trivial
  | i :: labels, f, hfinite, hle => by
    rw [length_cons] at hle
    obtain ⟨x, hx⟩ := hnext f i
    have hcard := (Set.ncard_le_ncard hx (hfinite.insert x)).trans (Set.ncard_insert_le x _)
    have hroom : ∀ o : Op α, Room f o := by
      rintro (data | data | data)
      · exact show (mapEntries f).ncard < maxItems by omega
      · trivial
      · trivial
    exact ⟨hroom (op i), along_room hnext ((hfinite.insert x).subset hx) (by omega)⟩

theorem mapEntries_none : mapEntries (fun _ : α => none) = ∅ :=
  Set.eq_empty_of_forall_notMem fun x hx => by cases hx

theorem numbers_consistent : numbers.Consistent := fun x y h => by simpa [numbers] using h

/-- Two numbers, one of them inserted twice and deleted. -/
theorem table_is_map_seven : ∃ lh, runOps numbers lhNew [.insert 5, .insert 13, .insert 5,
    .retrieve 13, .delete 5, .retrieve 5, .retrieve 13] =
      some ([none, none, some 5, some 13, some 5, none, some 13], lh) ∧ lh.num_items = 1 := by
  obtain ⟨lh, hrun, -, hitems, -⟩ := table_is_map numbers numbers_consistent
    [.insert 5, .insert 13, .insert 5, .retrieve 13, .delete 5, .retrieve 5, .retrieve 13]
    (along_room (mapStep_entries numbers) (by simp [mapEntries_none])
      (by rw [mapEntries_none, Set.ncard_empty]; decide))
  refine ⟨lh, hrun, ?_⟩
  rw [hitems, Set.ncard_eq_one]
  refine ⟨13, Set.ext fun x => ?_⟩
  by_cases hx : x = 5
  · simp [mapEntries, mapRun, runOutputs, mapStep, numbers, hx]
  · by_cases hx' : x = 13 <;> simp [mapEntries, mapRun, runOutputs, mapStep, numbers, hx, hx']

end VigorTls.Hash
