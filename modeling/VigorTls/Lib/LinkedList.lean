import Mathlib.Data.List.Basic
import Mathlib.Data.List.Nodup
import Mathlib.Logic.Function.Basic

/-!
# Doubly linked lists

A list kept in links to the next and the one before, with marks at both ends (`Linked`).
-/

namespace VigorTls.Lib

open List Function

/-- A link of an item: nothing, the mark before the first item, the one behind the last, or another
item. -/
inductive Link (α : Type)
  | null
  | front
  | back
  | item (a : α)
deriving DecidableEq

/-- The links of a list, and its ends. -/
structure Links (α : Type) where
  head : Option α
  tail : Option α
  next : α → Link α
  prev : α → Link α

variable {α : Type}

/-- The link to what follows. -/
def linkTo : List α → Link α
  | [] => .back
  | a :: _ => .item a

/-- The link to what comes before. -/
def linkFrom (pre : List α) : Link α :=
  match pre.getLast? with
  | none => .front
  | some a => .item a

@[simp] theorem linkFrom_nil : linkFrom ([] : List α) = .front := rfl

@[simp] theorem linkFrom_append (pre : List α) (a : α) : linkFrom (pre ++ [a]) = .item a := by
  simp [linkFrom]

theorem linkFrom_append_cons (pre : List α) (a : α) (l : List α) :
    linkFrom (pre ++ a :: l) = linkFrom (a :: l) := by
  simp [linkFrom, getLast?_cons]

theorem linkTo_ne_null (l : List α) : linkTo l ≠ .null := by cases l <;> nofun

theorem linkFrom_ne_null (l : List α) : linkFrom l ≠ .null := by
  rw [linkFrom]
  split <;> nofun

structure Linked (k : Links α) (l : List α) : Prop where
  nodup : l.Nodup
  head : k.head = l.head?
  tail : k.tail = l.getLast?
  links : ∀ pre s post, l = pre ++ s :: post → k.next s = linkTo post ∧ k.prev s = linkFrom pre
  free : ∀ s, s ∉ l → k.next s = .null ∧ k.prev s = .null

def Links.empty : Links α := ⟨none, none, fun _ => .null, fun _ => .null⟩

theorem linked_empty : Linked (Links.empty : Links α) [] where
  nodup := .nil
  head := rfl
  tail := rfl
  links pre s post h := by simp at h
  free _ _ := ⟨rfl, rfl⟩

variable [DecidableEq α] {k : Links α} {l : List α}

/-- The links with a new item in front of `l`. -/
def Links.push (k : Links α) (s : α) (l : List α) : Links α where
  head := some s
  tail := (s :: l).getLast?
  next := update k.next s (linkTo l)
  prev := update (l.head?.elim k.prev fun h => update k.prev h (.item s)) s .front

variable {s : α}

/-- An item pushed to the front. -/
theorem Linked.push (h : Linked k l) (hs : s ∉ l) : Linked (k.push s l) (s :: l) where
  nodup := nodup_cons.mpr ⟨hs, h.nodup⟩
  head := rfl
  tail := rfl
  links pre x post heq := by
    cases pre with
    | nil =>
      obtain ⟨rfl, rfl⟩ := List.cons.inj heq
      exact ⟨update_self .., update_self ..⟩
    | cons p pre =>
      obtain ⟨rfl, rfl⟩ := List.cons.inj heq
      obtain ⟨hnext, hprev⟩ := h.links pre x post rfl
      have hne : x ≠ s := fun hx => hs (hx ▸ mem_append_right _ mem_cons_self)
      refine ⟨(update_of_ne hne ..).trans hnext, (update_of_ne hne ..).trans ?_⟩
      cases pre with
      | nil => exact update_self ..
      | cons a r =>
        have hax : x ≠ a := fun hx => (nodup_cons.mp h.nodup).1
          (hx ▸ mem_append_right _ mem_cons_self)
        refine (update_of_ne hax ..).trans (hprev.trans ?_)
        exact (linkFrom_append_cons [s] a r).symm
  free x hx := by
    obtain ⟨hxs, hxl⟩ := not_or.mp (mt mem_cons.mpr hx)
    obtain ⟨hnext, hprev⟩ := h.free x hxl
    refine ⟨(update_of_ne hxs ..).trans hnext, (update_of_ne hxs ..).trans ?_⟩
    cases l with
    | nil => exact hprev
    | cons a r =>
      have hxa : x ≠ a := fun hxa => hxl (hxa ▸ mem_cons_self)
      exact (update_of_ne hxa ..).trans hprev

/-- The links without the item between `pre` and `post`. -/
def Links.unlink (k : Links α) (pre : List α) (s : α) (post : List α) : Links α where
  head := (pre ++ post).head?
  tail := (pre ++ post).getLast?
  next := update
    (pre.getLast?.elim k.next fun q => update k.next q (linkTo post)) s .null
  prev := update
    (post.head?.elim k.prev fun n => update k.prev n (linkFrom pre)) s .null

variable {pre post : List α}

theorem Links.unlink_next_of_ne {x : α} (hs : x ≠ s) (hx : pre.getLast? ≠ some x) :
    (k.unlink pre s post).next x = k.next x := by
  refine (update_of_ne hs ..).trans ?_
  cases hlast : pre.getLast? with
  | none => rfl
  | some q =>
    have hxq : x ≠ q := fun hxq => hx (hxq ▸ hlast)
    exact update_of_ne hxq ..

theorem Links.unlink_prev_of_ne {x : α} (hs : x ≠ s) (hx : post.head? ≠ some x) :
    (k.unlink pre s post).prev x = k.prev x := by
  refine (update_of_ne hs ..).trans ?_
  cases hhead : post.head? with
  | none => rfl
  | some n =>
    have hxn : x ≠ n := fun hxn => hx (hxn ▸ hhead)
    exact update_of_ne hxn ..

theorem Links.unlink_next_last {x : α} (hs : x ≠ s) (hx : pre.getLast? = some x) :
    (k.unlink pre s post).next x = linkTo post := by
  refine (update_of_ne hs ..).trans ?_
  rw [hx]
  exact update_self ..

theorem Links.unlink_prev_first {x : α} (hs : x ≠ s) (hx : post.head? = some x) :
    (k.unlink pre s post).prev x = linkFrom pre := by
  refine (update_of_ne hs ..).trans ?_
  rw [hx]
  exact update_self ..

theorem Linked.unlink_behind {pre mid post : List α} {s x : α}
    (h : Linked k (pre ++ s :: (mid ++ x :: post))) :
    (k.unlink pre s (mid ++ x :: post)).next x = linkTo post ∧
      (k.unlink pre s (mid ++ x :: post)).prev x = linkFrom (pre ++ mid) := by
  obtain ⟨-, hcons, hdisjoint⟩ := nodup_append.mp h.nodup
  obtain ⟨hspost, hpost⟩ := nodup_cons.mp hcons
  have hmem : x ∈ mid ++ x :: post := mem_append_right _ mem_cons_self
  have hxs : x ≠ s := fun hxs => hspost (hxs ▸ hmem)
  have hlast : pre.getLast? ≠ some x := fun hlast =>
    hdisjoint x (mem_of_getLast? hlast) x (mem_cons_of_mem s hmem) rfl
  obtain ⟨hnext, hprev⟩ := h.links (pre ++ s :: mid) x post (by simp)
  refine ⟨(Links.unlink_next_of_ne hxs hlast).trans hnext, ?_⟩
  cases mid with
  | nil =>
    rw [append_nil]
    exact Links.unlink_prev_first hxs rfl
  | cons a mid =>
    have hhead : (a :: mid ++ x :: post).head? ≠ some x := fun hhead =>
      (nodup_cons.mp hpost).1
        (Option.some_inj.mp hhead ▸ mem_append_right _ mem_cons_self)
    rw [Links.unlink_prev_of_ne hxs hhead, hprev, linkFrom_append_cons, linkFrom_append_cons pre,
      ← singleton_append, linkFrom_append_cons]

theorem Linked.unlink_ahead {mid : List α} {x : α} (h : Linked k ((pre ++ x :: mid) ++ s :: post)) :
    (k.unlink (pre ++ x :: mid) s post).next x = linkTo (mid ++ post) ∧
      (k.unlink (pre ++ x :: mid) s post).prev x = linkFrom pre := by
  obtain ⟨hnodup, -, hdisjoint⟩ := nodup_append.mp h.nodup
  have hmem : x ∈ pre ++ x :: mid := mem_append_right _ mem_cons_self
  have hxs : x ≠ s := hdisjoint x hmem s mem_cons_self
  have hhead : post.head? ≠ some x := fun hhead =>
    hdisjoint x hmem x (mem_cons_of_mem s (mem_of_mem_head? hhead)) rfl
  obtain ⟨hnext, hprev⟩ := h.links pre x (mid ++ s :: post) (by simp)
  refine ⟨?_, (Links.unlink_prev_of_ne hxs hhead).trans hprev⟩
  cases mid with
  | nil => exact Links.unlink_next_last hxs (by simp)
  | cons a mid =>
    have hlast : (pre ++ x :: a :: mid).getLast? ≠ some x := fun hlast => by
      have hlast' : (a :: mid).getLast? = some x := by
        simpa [getLast?_cons] using hlast
      exact (nodup_cons.mp (nodup_append.mp hnodup).2.1).1 (mem_of_getLast? hlast')
    rw [Links.unlink_next_of_ne hxs hlast, hnext]
    rfl

/-- An item taken out from between two others, or at an end. -/
theorem Linked.unlink (h : Linked k (pre ++ s :: post)) :
    Linked (k.unlink pre s post) (pre ++ post) where
  nodup := h.nodup.sublist (Sublist.append_left (sublist_cons_self s post) pre)
  head := rfl
  tail := rfl
  links pre' x post' heq := by
    rcases append_eq_append_iff.mp heq with ⟨mid, rfl, rfl⟩ | ⟨mid, rfl, hx⟩
    · exact h.unlink_behind
    cases mid with
    | nil =>
      obtain rfl : x :: post' = post := hx
      simpa using @Linked.unlink_behind α _ k _ [] post' s x h
    | cons a mid =>
      obtain ⟨rfl, rfl⟩ := List.cons.inj hx
      exact h.unlink_ahead
  free x hx := by
    by_cases hxs : x = s
    · subst hxs
      exact ⟨update_self .., update_self ..⟩
    obtain ⟨hpre, hpost⟩ := not_or.mp (mt mem_append.mpr hx)
    have hfree := h.free x (by simp [hpre, hpost, hxs])
    rw [Links.unlink_next_of_ne hxs fun hlast => hpre (mem_of_getLast? hlast),
      Links.unlink_prev_of_ne hxs fun hhead => hpost (mem_of_mem_head? hhead)]
    exact hfree

end VigorTls.Lib
