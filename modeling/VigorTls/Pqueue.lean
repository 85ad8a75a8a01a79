import VigorTls.Lib.Bytes

/-!
# The priority queue

`ssl/pqueue/pqueue.c`: a list of items in ascending order of their 64-bit priorities, without
duplicates. The data that an item points to is modelled as its value.
-/

namespace VigorTls

open Lib

/-- An eight-byte number in big-endian order: a sequence number, or a priority. -/
abbrev Seq64 := Vector UInt8 8

/-- The number that eight bytes encode. -/
def Seq64.val (v : Seq64) : ℕ := beNat v.toList

structure Pitem (α : Type) where
  priority : Seq64
  data : α

/-- `pqueue`: the items from the first one on. -/
abbrev Pqueue (α : Type) := List (Pitem α)

variable {α : Type}

/-- `pqueue_insert`: in front of the first item of a larger priority; `NULL` if one has the same
priority. -/
def pqueueInsert : Pqueue α → Pitem α → Option (Pqueue α)
  | [], item => some [item]
  | next :: rest, item =>
    match memcmp next.priority.toList item.priority.toList with
    | .gt => some (item :: next :: rest)
    | .eq => none
    | .lt => (pqueueInsert rest item).map (next :: ·)

variable (pq : Pqueue α)

def pqueuePeek : Option (Pitem α) := pq.head?

/-- `pqueue_find`: the first item of the given priority. -/
def pqueueFind (prio64be : Seq64) : Option (Pitem α) :=
  pq.find? fun item => memcmp item.priority.toList prio64be.toList == .eq

def pqueueSize : ℕ := pq.length

theorem pqueueInsert_perm : ∀ {pq pq' : Pqueue α} {item : Pitem α},
    pqueueInsert pq item = some pq' → pq'.Perm (item :: pq)
  | [], pq', item, h => by
    obtain rfl : [item] = pq' := by simpa [pqueueInsert] using h
    exact List.Perm.refl _
  | next :: rest, pq', item, h => by
    simp only [pqueueInsert] at h
    split at h
    · obtain rfl : item :: next :: rest = pq' := by simpa using h
      exact List.Perm.refl _
    · simp at h
    · obtain ⟨r, hr, rfl⟩ := Option.map_eq_some_iff.mp h
      exact ((pqueueInsert_perm hr).cons next).trans (List.Perm.swap item next rest)

/-- Change the data of the first item of the given priority, as a write through `pqueue_find` does.
-/
def pqueueUpdate (prio64be : Seq64) (data : α) : Pqueue α → Pqueue α
  | [] => []
  | item :: rest =>
    if memcmp item.priority.toList prio64be.toList == .eq then { item with data := data } :: rest
    else item :: pqueueUpdate prio64be data rest

theorem memcmp_priority_eq_iff (a b : Seq64) : memcmp a.toList b.toList = .eq ↔ a = b := by
  rw [memcmp_eq_compare (by simp), compare_eq_iff_eq]
  refine ⟨fun h => ?_, fun h => h ▸ rfl⟩
  exact Vector.toList_inj.mp (beNat_inj (by simp) h)

theorem pqueueFind_insert : ∀ {pq : Pqueue α} {item : Pitem α},
    pqueueFind pq item.priority = none →
    ∃ pq', pqueueInsert pq item = some pq' ∧ pqueueFind pq' item.priority = some item
  | [], item, _ => by
    refine ⟨[item], rfl, ?_⟩
    simp [pqueueFind, memcmp_priority_eq_iff]
  | next :: rest, item, h => by
    have hne : memcmp next.priority.toList item.priority.toList ≠ .eq := by
      intro heq
      simp [pqueueFind, heq] at h
    have hrest : pqueueFind rest item.priority = none := by
      simp only [pqueueFind, List.find?_eq_none, List.mem_cons, forall_eq_or_imp] at h ⊢
      exact h.2
    simp only [pqueueInsert]
    cases hcmp : memcmp next.priority.toList item.priority.toList with
    | gt =>
      simp [pqueueFind, memcmp_priority_eq_iff]
    | eq => exact absurd hcmp hne
    | lt =>
      obtain ⟨pq', hins, hfind⟩ := pqueueFind_insert hrest
      refine ⟨next :: pq', by simp [hins], ?_⟩
      simpa [pqueueFind, hcmp] using hfind

theorem pqueueFind_update (prio64be : Seq64) (data : α) : ∀ {pq : Pqueue α} {item : Pitem α},
    pqueueFind pq prio64be = some item →
    pqueueFind (pqueueUpdate prio64be data pq) prio64be = some { item with data := data }
  | [], _, h => by simp [pqueueFind] at h
  | next :: rest, item, h => by
    simp only [pqueueUpdate]
    cases hcmp : memcmp next.priority.toList prio64be.toList == .eq with
    | true =>
      have hitem : next = item := by simpa [pqueueFind, hcmp] using h
      simp [pqueueFind, hitem ▸ hcmp, hitem]
    | false =>
      have hrest : pqueueFind rest prio64be = some item := by simpa [pqueueFind, hcmp] using h
      have ih := pqueueFind_update prio64be data hrest
      simpa [pqueueFind, hcmp] using ih

theorem mem_pqueueUpdate {prio64be : Seq64} {data : α} {x : Pitem α} : ∀ {pq : Pqueue α},
    x ∈ pqueueUpdate prio64be data pq →
    x ∈ pq ∨ ∃ item, pqueueFind pq prio64be = some item ∧ x = { item with data := data }
  | next :: rest, h => by
    simp only [pqueueUpdate] at h
    cases hcmp : memcmp next.priority.toList prio64be.toList == .eq with
    | true =>
      rw [hcmp] at h
      rcases List.mem_cons.mp h with rfl | hmem
      · exact .inr ⟨next, by simp [pqueueFind, hcmp], rfl⟩
      · exact .inl (List.mem_cons_of_mem _ hmem)
    | false =>
      rw [hcmp] at h
      rcases List.mem_cons.mp h with rfl | hmem
      · exact .inl List.mem_cons_self
      · rcases mem_pqueueUpdate hmem with hold | ⟨item, hfind, hx⟩
        · exact .inl (List.mem_cons_of_mem _ hold)
        · exact .inr ⟨item, by simpa [pqueueFind, hcmp] using hfind, hx⟩

theorem pqueueFind_some {pq : Pqueue α} {prio64be : Seq64} {item : Pitem α}
    (h : pqueueFind pq prio64be = some item) : item ∈ pq ∧ item.priority = prio64be := by
  have heq := List.find?_some h
  exact ⟨List.mem_of_find?_eq_some h, (memcmp_priority_eq_iff _ _).mp (beq_iff_eq.mp heq)⟩

/-- The items are in ascending order, so no two have the same priority. -/
def Pqueue.Sorted : Prop :=
  pq.Pairwise fun a b => a.priority.val < b.priority.val

theorem memcmp_priority (a b : Seq64) : memcmp a.toList b.toList = compare a.val b.val :=
  memcmp_eq_compare (by simp)

theorem Pqueue.Sorted.insert : ∀ {pq pq' : Pqueue α} {item : Pitem α},
    pq.Sorted → pqueueInsert pq item = some pq' → pq'.Sorted
  | [], pq', item, _, h => by
    obtain rfl : [item] = pq' := by simpa [pqueueInsert] using h
    exact List.pairwise_singleton _ _
  | next :: rest, pq', item, hs, h => by
    obtain ⟨hnext, hrest⟩ := List.pairwise_cons.mp hs
    rw [pqueueInsert, memcmp_priority] at h
    cases hcmp : compare next.priority.val item.priority.val with
    | gt =>
      obtain rfl : item :: next :: rest = pq' := by simpa [hcmp] using h
      have hlt : item.priority.val < next.priority.val := compare_gt_iff_gt.mp hcmp
      refine List.pairwise_cons.mpr ⟨fun x hx => ?_, hs⟩
      rcases List.mem_cons.mp hx with rfl | hx
      · exact hlt
      · exact hlt.trans (hnext x hx)
    | eq => simp [hcmp] at h
    | lt =>
      rw [hcmp] at h
      obtain ⟨r, hr, rfl⟩ := Option.map_eq_some_iff.mp h
      refine List.pairwise_cons.mpr ⟨fun x hx => ?_, Pqueue.Sorted.insert hrest hr⟩
      rcases List.mem_cons.mp ((pqueueInsert_perm hr).mem_iff.mp hx) with rfl | hx
      · exact compare_lt_iff_lt.mp hcmp
      · exact hnext x hx

theorem Pqueue.Sorted.update {pq : Pqueue α} (hs : pq.Sorted) (prio64be : Seq64) (data : α) :
    Pqueue.Sorted (pqueueUpdate prio64be data pq) := by
  have hprio : ∀ pq : Pqueue α,
      (pqueueUpdate prio64be data pq).map (·.priority.val) = pq.map (·.priority.val) := by
    intro pq
    induction pq with
    | nil => rfl
    | cons item rest ih =>
      rw [pqueueUpdate]
      split
      · rfl
      · rw [List.map_cons, ih, List.map_cons]
  have hpair : (pq.map (·.priority.val)).Pairwise (· < ·) := List.pairwise_map.mpr hs
  rw [← hprio pq] at hpair
  exact List.pairwise_map.mp hpair

/-- An insertion fails for a priority that is there already, and only then. -/
theorem Pqueue.Sorted.insert_eq_none_iff : ∀ {pq : Pqueue α}, pq.Sorted → ∀ (item : Pitem α),
    pqueueInsert pq item = none ↔ ∃ x ∈ pq, x.priority = item.priority
  | [], _, item => by simp [pqueueInsert]
  | next :: rest, hs, item => by
    obtain ⟨hnext, hrest⟩ := List.pairwise_cons.mp hs
    have ih := Pqueue.Sorted.insert_eq_none_iff hrest item
    have hiff := memcmp_priority_eq_iff next.priority item.priority
    rw [memcmp_priority] at hiff
    rw [pqueueInsert, memcmp_priority]
    simp only [List.mem_cons, exists_eq_or_imp]
    cases hcmp : compare next.priority.val item.priority.val with
    | gt =>
      -- All that follows is larger still.
      have hlt : item.priority.val < next.priority.val := compare_gt_iff_gt.mp hcmp
      refine iff_of_false (by simp) ?_
      rintro (heq | ⟨x, hx, heq⟩)
      · rw [heq] at hlt
        exact lt_irrefl _ hlt
      · have := hlt.trans (hnext x hx)
        rw [heq] at this
        exact lt_irrefl _ this
    | eq => exact iff_of_true rfl (.inl (hiff.mp hcmp))
    | lt =>
      have hne : next.priority ≠ item.priority := fun heq => by
        rw [hiff.mpr heq] at hcmp
        cases hcmp
      simp [ih, hne]

end VigorTls
