import VigorTls.Session.Flush

/-!
# Runs of the session cache

What the cache is for: a list of sessions, at most one for a version and an ID, the newest in front,
cut off where it gets too long (`cacheList`). The table and the links hold the list after every call
(`cacheOp_spec`) and sequence of calls (`cacheRun_cached`).

Two calls can go wrong: a flush may contract the table while it walks through it (`FlushSafe`), and
the hash of a session reads four bytes of its ID, also of a shorter one, so that two sessions with
the same short ID can be in the cache side by side.
-/

namespace VigorTls.Session

open Lib Hash List

variable {X : Type}

inductive CacheOp (X : Type)
  | add (c : ℕ)
  | remove (c : ℕ)
  | lookup (q : ℕ) (data : SslSession X) (version : Int32) (session_id : Bytes)
  | flush (t : Int64)

section

variable (mem : ℕ → SslSession X)

def cacheOp (ctx : SslCtx) : CacheOp X → Option SslCtx
  | .add c => (sslCtxAddSession mem ctx c).map Prod.snd
  | .remove c => (sslCtxRemoveSession mem ctx c).map Prod.snd
  | .lookup q data version session_id =>
    (lookupSession mem ctx q data version session_id).map fun _ => ctx
  | .flush t => (sslCtxFlushSessions mem ctx t).map Prod.snd

/-- The list after a call. -/
def cacheList (size : ℤ) (l : List ℕ) : CacheOp X → List ℕ
  | .add c => cacheAdd mem size l c
  | .remove c => l.erase c
  | .lookup .. => l
  | .flush t => kept mem t l

/-- A session that is added has an ID and finds room; one on the stack is not in the cache; a flush
does not contract the table under way. -/
def Allowed (ctx : SslCtx) (l : List ℕ) : CacheOp X → Prop
  | .add c => (mem c).session_id_length ≠ 0 ∧ l.length < maxItems
  | .remove _ => True
  -- `ssl_get_prev_session` puts the ID into an object of its own
  | .lookup q .. => q ∉ l
  | .flush t => FlushSafe mem t ctx.sessions.num_nodes l

def cacheRun : SslCtx → List (CacheOp X) → Option SslCtx := runOption (cacheOp mem)

def cacheLists (size : ℤ) : List ℕ → List (CacheOp X) → List ℕ := run (cacheList mem size)

/-- Every call of a sequence is in order on the context and the list before it. -/
def AllAllowed (ctx : SslCtx) : List ℕ → List (CacheOp X) → Prop :=
  AlongOption (cacheOp mem) (cacheList mem ctx.session_cache_size) (Allowed mem) ctx

end

/-- The sessions that are added in a sequence of calls. -/
def added (ops : List (CacheOp X)) : List ℕ :=
  ops.filterMap fun
    | .add c => some c
    | _ => none

section

variable {mem : ℕ → SslSession X} {ctx : SslCtx} {l : List ℕ}

theorem cacheOp_spec (h : Cached mem ctx l) {op : CacheOp X} (hop : Allowed mem ctx l op) :
    ∃ ctx', cacheOp mem ctx op = some ctx' ∧
      Cached mem ctx' (cacheList mem ctx.session_cache_size l op) ∧
      ctx'.session_cache_size = ctx.session_cache_size := by
  cases op with
  | add c =>
    obtain ⟨ret, ctx', heq, hcached, hsize⟩ := sslCtxAddSession_spec h hop.1 hop.2
    exact ⟨ctx', by rw [cacheOp, heq]; rfl, hcached, hsize⟩
  | remove c =>
    by_cases hc : c ∈ l
    · obtain ⟨ctx', heq, hcached, hsize⟩ := removeSessionLock_mem h hc
      exact ⟨ctx', by rw [cacheOp, sslCtxRemoveSession, heq]; rfl, hcached, hsize⟩
    have heq : cacheOp mem ctx (.remove c) = some ctx := by
      rw [cacheOp, sslCtxRemoveSession, removeSessionLock_not_mem h hc]
      rfl
    refine ⟨ctx, heq, ?_, rfl⟩
    rw [cacheList, erase_of_not_mem hc]
    exact h
  | lookup q data version session_id =>
    obtain ⟨ret, heq, -⟩ := lhRetrieve_spec (h.valid_local hop _) q
    exact ⟨ctx, by rw [cacheOp, lookupSession, heq]; rfl, h, rfl⟩
  | flush t =>
    obtain ⟨ctx', heq, hcached, hsize⟩ := sslCtxFlushSessions_spec h hop
    exact ⟨ctx', by rw [cacheOp, heq]; rfl, hcached, hsize⟩

theorem cacheRun_cached {ops : List (CacheOp X)} (h : Cached mem ctx l)
    (hall : AllAllowed mem ctx l ops) :
    ∃ ctx', cacheRun mem ctx ops = some ctx' ∧
      Cached mem ctx' (cacheLists mem ctx.session_cache_size l ops) := by
  obtain ⟨ctx', hrun, h', -⟩ := runOption_refines
    (R := fun ctx' l => Cached mem ctx' l ∧ ctx'.session_cache_size = ctx.session_cache_size)
    (fun ctx1 l op h hop => by
      obtain ⟨ctx2, heq, h2, hsize⟩ := cacheOp_spec h.1 hop
      exact ⟨ctx2, heq, h.2 ▸ h2, hsize.trans h.2⟩) ⟨h, rfl⟩ hall
  exact ⟨ctx', hrun, h'⟩

end

section

variable {mem : ℕ → SslSession X} {size : ℤ} {l : List ℕ}

theorem trim_subset {c : ℕ} (hc : c ∈ trim size l) : c ∈ l := by
  rw [trim] at hc
  split at hc
  · exact mem_of_mem_take hc
  · exact hc

theorem mem_cacheAdd {c c' : ℕ} (hc' : c' ∈ cacheAdd mem size l c) : c' ∈ l ∨ c' = c := by
  rw [cacheAdd] at hc'
  split at hc'
  · split at hc'
    · exact .inl hc'
    · rcases mem_cons.mp (trim_subset hc') with rfl | hc'
      · exact .inr rfl
      · exact .inl (mem_of_mem_erase hc')
  · rcases mem_cons.mp (trim_subset hc') with rfl | hc'
    · exact .inr rfl
    · exact .inl hc'

theorem mem_cacheLists : ∀ {ops : List (CacheOp X)} {l : List ℕ} {c : ℕ},
    c ∈ cacheLists mem size l ops → c ∈ l ∨ c ∈ added ops
  | [], _, _, hc => .inl hc
  | op :: ops, l, c, hc => by
    -- only an addition brings a session that was not there
    have hstep : c ∈ cacheList mem size l op → c ∈ l ∨ c ∈ added (op :: ops) := by
      intro hc
      cases op with
      | add c' =>
        rcases mem_cacheAdd hc with hc | rfl
        · exact .inl hc
        · exact .inr mem_cons_self
      | remove c' => exact .inl (mem_of_mem_erase hc)
      | lookup => exact .inl hc
      | flush t => exact .inl (mem_of_mem_filter hc)
    have hrun : c ∈ cacheList mem size l op ∨ c ∈ added ops := mem_cacheLists hc
    rcases hrun with hlist | hops
    · exact hstep hlist
    · refine .inr ?_
      cases op with
      | add c' => exact mem_cons_of_mem c' hops
      | remove | lookup | flush => exact hops

theorem length_trim_le (hsize : size > 0) : (trim size l).length ≤ size.toNat := by
  rw [trim, if_pos hsize]
  exact length_take_le ..

theorem length_cacheList_le (hsize : size > 0) (l : List ℕ) (op : CacheOp X)
    (hl : l.length ≤ size.toNat) : (cacheList mem size l op).length ≤ size.toNat := by
  cases op with
  | add c =>
    rw [cacheList, cacheAdd]
    split
    · split
      · exact hl
      · exact length_trim_le hsize
    · exact length_trim_le hsize
  | remove c => exact Nat.le_trans (erase_sublist.length_le) hl
  | lookup => exact hl
  | flush t => exact Nat.le_trans (length_filter_le ..) hl

theorem length_cacheLists_le (hsize : size > 0) (ops : List (CacheOp X))
    (hl : l.length ≤ size.toNat) : (cacheLists mem size l ops).length ≤ size.toNat :=
  run_invariant_all (length_cacheList_le hsize) ops l hl

end

/-- After every sequence of calls that are in order, the list goes through the sessions of
`cacheLists` both ways, and the table holds these and no others. If those added with the same ID
have the same four bytes in front, there is at most one to a version and an ID. -/
theorem cache_invariant (mem : ℕ → SslSession X) (size : ℤ) (ops : List (CacheOp X))
    (hall : AllAllowed mem (newCtx size) [] ops)
    (hpad : ∀ c ∈ added ops, ∀ c' ∈ added ops, sslSessionCmp (mem c) (mem c') = 0 →
      sslSessionHash (mem c) = sslSessionHash (mem c')) :
    ∃ ctx, cacheRun mem (newCtx size) ops = some ctx ∧
      Linked ctx.list (cacheLists mem size [] ops) ∧
      ctx.sessions.items.Perm (cacheLists mem size [] ops) ∧
      (∀ c ∈ ctx.sessions.items, ∀ c' ∈ ctx.sessions.items,
        (mem c).ssl_version = (mem c').ssl_version → (mem c).id = (mem c').id → c = c') ∧
      (size > 0 → (ctx.sessions.num_items : ℤ) ≤ size) := by
  obtain ⟨ctx, hrun, h⟩ := cacheRun_cached (newCtx_cached mem size) hall
  have hadded : ∀ c ∈ ctx.sessions.items, c ∈ added ops := fun c hc =>
    (mem_cacheLists (h.items.mem_iff.mp hc)).resolve_left (not_mem_nil)
  refine ⟨ctx, hrun, h.linked, h.items, fun c hc c' hc' hversion hid => ?_, fun hsize => ?_⟩
  · have hcmp := sslSessionCmp_eq_zero_iff.mpr ⟨hversion, hid⟩
    exact h.valid.eq_of_same hc hc' ⟨hpad c (hadded c hc) c' (hadded c' hc') hcmp, hcmp⟩
  have hle : (cacheLists mem size [] ops).length ≤ size.toNat :=
    length_cacheLists_le hsize ops (Nat.zero_le _)
  rw [h.num_items]
  change ((cacheLists mem size [] ops).length : ℤ) ≤ size
  omega

/-- Two sessions in a cache with room for one. -/
theorem cache_invariant_two : ∃ ctx,
    cacheRun (fun _ => plainSession 4) (newCtx 1) [.add 1, .add 2] = some ctx ∧
      Linked ctx.list [2] ∧ ctx.sessions.items.Perm [2] := by
  obtain ⟨ctx, hrun, hlinked, hitems, -⟩ := cache_invariant (fun _ => plainSession 4) 1
    [.add 1, .add 2]
    ⟨⟨by decide, by decide⟩, fun _ _ => ⟨⟨by decide, by decide⟩, fun _ _ => trivial⟩⟩
      fun _ _ _ _ _ => rfl
  exact ⟨ctx, hrun, hlinked, hitems⟩

/-- Sessions with the same ID of one byte, and different bytes behind it. -/
def twins (c : ℕ) : SslSession Empty :=
  { plainSession 1 with session_id := fun i => if i = 3 then c.toUInt8 else 0 }

/-- Both are kept. -/
theorem cache_twins : sslSessionCmp (twins 1) (twins 2) = 0 ∧
    (cacheRun twins (newCtx 8) [.add 1, .add 2]).map
      (fun ctx => (ctx.sessions.items, ctx.list.head, ctx.list.next 2, ctx.list.next 1)) =
      some ([1, 2], some 2, .item 1, .back) := by
  decide +kernel

end VigorTls.Session
