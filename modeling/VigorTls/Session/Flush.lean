import VigorTls.Session.Cache

/-!
# Flushing the session cache

`SSL_CTX_flush_sessions` deletes from the table while it goes through it. It sets `down_load` to
zero against a contraction; but the load is rounded down, and the table is contracted all the same
once there is less than one item to 256 buckets, which moves sessions behind the loop's back.

By `flush_visits` all is well when a contraction can only come with the last session (`FlushSafe`).
`expired_iff_timedOut` compares the test with that of `ssl_get_prev_session`.
-/

namespace VigorTls.Session

open Lib Hash List Function Int64

variable {X : Type} {mem : ℕ → SslSession X} {ctx : SslCtx} {l : List ℕ}

/-- The sessions that are left when those in `seen` have been gone through. -/
def remaining (mem : ℕ → SslSession X) (t : Int64) (seen l : List ℕ) : List ℕ :=
  l.filter fun c => ¬ (expired t (mem c) ∧ c ∈ seen)

def kept (mem : ℕ → SslSession X) (t : Int64) (l : List ℕ) : List ℕ :=
  l.filter fun c => ¬ expired t (mem c)

/-- A deletion contracts the table only when it is the last and leaves it empty. -/
def FlushSafe (mem : ℕ → SslSession X) (t : Int64) (num_nodes : ℕ) (l : List ℕ) : Prop :=
  l.length ≤ max 1 (kept mem t l).length ∨ num_nodes ≤ 256 * max 1 (kept mem t l).length

variable (t : Int64) (seen : List ℕ)

theorem remaining_nil : remaining mem t [] l = l := by simp [remaining]

theorem remaining_all {seen : List ℕ} (h : ∀ c ∈ l, c ∈ seen) :
    remaining mem t seen l = kept mem t l :=
  filter_congr fun c hc => by simp [h c hc]

theorem remaining_of_not_expired {c : ℕ} (hc : ¬ expired t (mem c)) :
    remaining mem t (seen ++ [c]) l = remaining mem t seen l :=
  filter_congr fun x _ => by
    by_cases hx : x = c
    · subst hx
      simp [hc]
    · simp [hx]

theorem remaining_of_expired (hl : l.Nodup) {seen : List ℕ} {c : ℕ} (hc : expired t (mem c)) :
    remaining mem t (seen ++ [c]) l = (remaining mem t seen l).erase c := by
  rw [remaining, remaining, (hl.filter _).erase_eq_filter, filter_filter]
  refine filter_congr fun x _ => ?_
  by_cases hx : x = c
  · subst hx
    simp [hc]
  · simp [hx]

theorem kept_sublist_remaining : (kept mem t l).Sublist (remaining mem t seen l) :=
  monotone_filter_right l fun c hc => by
    simp only [decide_eq_true_eq] at hc ⊢
    exact fun h => hc h.1

structure Flushing (mem : ℕ → SslSession X) (t : Int64) (ctx₀ : SslCtx) (l seen : List ℕ)
    (ctx : SslCtx) : Prop where
  cached : Cached mem ctx (remaining mem t seen l)
  down_load : ctx.sessions.down_load = 0
  nodes : ctx.sessions.num_nodes = ctx₀.sessions.num_nodes ∨ remaining mem t seen l = []
  size : ctx.session_cache_size = ctx₀.session_cache_size

theorem delete_ahead {m : Methods ℕ} {b0 : ℕ → List (Node ℕ)} {i : ℕ} {n : Node ℕ}
    {rest : List (Node ℕ)} {lh lh' : Lhash ℕ} (hahead : Ahead m b0 i (n :: rest) lh)
    (hdown : lh.down_load = 0) (hdelete : lhDelete m lh n.data = some (some n.data, lh'))
    (hsafe : 256 * (lh.num_items - 1) < lh.num_nodes → lh.num_items = 1) :
    Ahead m b0 i rest lh' ∧ (lh'.num_nodes = lh.num_nodes ∨ lh'.items = []) := by
  have hvalid := hahead.valid
  obtain ⟨before, hchain⟩ := hahead.chain (cons_ne_nil n rest)
  obtain ⟨hvalid1, hperm⟩ := hvalid.erase hchain
  rw [lhDelete_eq hvalid hchain] at hdelete
  obtain ⟨lh1, hshrink, heq⟩ := Option.map_eq_some_iff.mp hdelete
  obtain rfl : lh1 = lh' := (Prod.ext_iff.mp heq).2
  rw [Lhash.shrink] at hshrink
  split at hshrink
  · next hlow =>
    have hone : lh.num_items = 1 := by
      have hzero : (lh.num_items - 1) * lhLoadMult / lh.num_nodes = 0 :=
        Nat.le_zero.mp (hdown ▸ hlow.2)
      rcases Nat.div_eq_zero_iff.mp hzero with hnodes | hlt
      · exact absurd hnodes (Nat.ne_of_gt hvalid.num_nodes_pos)
      · exact hsafe (by rw [Nat.mul_comm]; exact hlt)
    obtain ⟨lh2, hcontract, hkeeps, hnodes⟩ := contract_spec hvalid1 hlow.1
    rw [hcontract, Option.some_inj] at hshrink
    subst hshrink
    -- The node was the only one.
    have hnil : contents (update lh.b i (before ++ rest)) lh.num_nodes = [] := by
      have hlen := hperm.length_eq
      rw [← hvalid.count, hone] at hlen
      exact length_eq_zero_iff.mp (Nat.succ.inj hlen).symm
    have honly : ∀ j x, x ∈ lh.b j → j = i := by
      intro j x hx
      have hmem := hperm.mem_iff.mp (hvalid.mem_entries hx)
      rw [hnil, mem_singleton] at hmem
      subst hmem
      exact hvalid.eq_bucket hx (hchain ▸ mem_append_right _ mem_cons_self) rfl
    have hempty : lh2.entries = [] := by
      have hperm2 : lh2.entries.Perm
          (contents (update lh.b i (before ++ rest)) lh.num_nodes) := hkeeps.entries
      rw [hnil] at hperm2
      exact hperm2.eq_nil
    have hi : i < lh.num_nodes := Nat.lt_of_not_le fun hle => by
      rw [hvalid.placed.outside i hle] at hchain
      simp at hchain
    refine ⟨⟨hkeeps.valid, ?_, fun j hj => ?_, fun hne => ?_⟩,
      .inr (by rw [Lhash.items, hempty]; rfl)⟩
    · have hp := hkeeps.valid.p_lt
      have hnum := hkeeps.valid.nodes
      have hnodes' : lh2.num_nodes + 1 = lh.num_nodes := hnodes
      rw [hkeeps.valid.alloc]
      omega
    · rw [← hahead.below j hj, eq_nil_iff_forall_not_mem.mpr fun x hx =>
        Nat.ne_of_lt hj (honly j x hx), eq_nil_iff_forall_not_mem]
      intro x hx
      have hmem := hkeeps.valid.mem_entries hx
      rw [hempty] at hmem
      cases hmem
    · have hlen := hvalid.length_bucket_le i
      rw [hchain, length_append, length_cons] at hlen
      exact absurd (length_eq_zero_iff.mp (by omega)) hne
  · rw [Option.some_inj] at hshrink
    subst hshrink
    refine ⟨⟨hvalid1, hahead.alloc, fun j hj => ?_, fun _ => ⟨before, update_self ..⟩⟩, .inl rfl⟩
    exact (update_of_ne (Nat.ne_of_lt hj) ..).trans (hahead.below j hj)

theorem flush_advances (h : Cached mem ctx l) {t : Int64}
    (hsafe : FlushSafe mem t ctx.sessions.num_nodes l) :
    Advances (sessionMethods mem) SslCtx.sessions (timeoutDoallArg mem t) ctx.sessions.b
      ctx.sessions.items (Flushing mem t ctx l) := by
  intro seen n rest i ctx1 hitems hinv hahead
  have hnext : Ahead (sessionMethods mem) ctx.sessions.b i rest ctx1.sessions := by
    obtain ⟨before, hchain⟩ := hahead.chain (cons_ne_nil n rest)
    exact ⟨hahead.valid, hahead.alloc, hahead.below,
      fun _ => ⟨before ++ [n], by rw [hchain, append_assoc]; rfl⟩⟩
  rw [timeoutDoallArg]
  split_ifs with hexpired
  · have hmem : n.data ∈ remaining mem t seen l := by
      obtain ⟨before, hchain⟩ := hahead.chain (cons_ne_nil n rest)
      refine hinv.cached.items.mem_iff.mp (mem_map_of_mem (hahead.valid.mem_entries (i := i) ?_))
      rw [hchain]
      exact mem_append_right _ mem_cons_self
    obtain ⟨sessions, list, hdelete, hremove, hcached, hdown⟩ := hinv.cached.delete hmem
    have hlen : (remaining mem t (seen ++ [n.data]) l).length + 1 =
        (remaining mem t seen l).length := by
      rw [remaining_of_expired t h.linked.nodup hexpired, length_erase_of_mem hmem]
      exact Nat.sub_add_cancel (length_pos_of_mem hmem)
    rw [← remaining_of_expired t h.linked.nodup hexpired] at hcached
    have hnum : ctx1.sessions.num_nodes = ctx.sessions.num_nodes :=
      hinv.nodes.resolve_right (ne_nil_of_mem hmem)
    have hsafe' : 256 * (ctx1.sessions.num_items - 1) < ctx1.sessions.num_nodes →
        ctx1.sessions.num_items = 1 := by
      have hkept : (kept mem t l).length ≤ (remaining mem t (seen ++ [n.data]) l).length :=
        (kept_sublist_remaining t (seen ++ [n.data])).length_le
      have hle : (remaining mem t seen l).length ≤ l.length := length_filter_le ..
      rw [hinv.cached.num_items]
      rcases hsafe with hsafe | hsafe <;> omega
    obtain ⟨hahead', hnodes⟩ := delete_ahead hahead hinv.down_load hdelete hsafe'
    refine ⟨{ ctx1 with sessions := sessions, list := list }, ?_, ⟨hcached, ?_, ?_, hinv.size⟩,
      hahead'⟩
    · rw [hdelete]
      rw [hremove]
      rfl
    · exact hdown.trans hinv.down_load
    rcases hnodes with hnodes | hnil
    · exact .inl (hnodes.trans hnum)
    · have hperm : sessions.items.Perm _ := hcached.items
      rw [hnil] at hperm
      exact .inr hperm.nil_eq.symm
  · refine ⟨ctx1, rfl, ?_, hnext⟩
    have heq := remaining_of_not_expired (l := l) t seen hexpired
    exact ⟨heq ▸ hinv.cached, hinv.down_load, heq ▸ hinv.nodes, hinv.size⟩

theorem Cached.withDownLoad (h : Cached mem ctx l) (down_load : ℕ) :
    Cached mem (ctx.withDownLoad down_load) l where
  linked := h.linked
  valid := ⟨⟨h.valid.pow, h.valid.alloc, h.valid.p_lt, h.valid.nodes, h.valid.bounded⟩,
    h.valid.hashes, h.valid.placed, h.valid.count, h.valid.distinct⟩
  up_load := h.up_load
  items := h.items
  ids := h.ids

theorem sslCtxFlushSessions_spec (h : Cached mem ctx l) {t : Int64}
    (hsafe : FlushSafe mem t ctx.sessions.num_nodes l) :
    ∃ ctx', sslCtxFlushSessions mem ctx t = some (ctx.sessions.items, ctx') ∧
      Cached mem ctx' (kept mem t l) ∧ ctx'.session_cache_size = ctx.session_cache_size := by
  have h0 := h.withDownLoad 0
  obtain ⟨ctx1, hdoall, hflushing⟩ := doall_rule (ctx.withDownLoad 0) h0.valid
    (flush_advances h0 hsafe) ⟨by rw [remaining_nil]; exact h0, rfl, .inl rfl, rfl⟩
  refine ⟨ctx1.withDownLoad ctx.sessions.down_load, ?_, ?_, hflushing.size⟩
  · rw [sslCtxFlushSessions, hdoall]
    rfl
  · have hcached := hflushing.cached
    rw [remaining_all t fun c hc => h0.items.mem_iff.mpr hc] at hcached
    exact hcached.withDownLoad _

/-- A session is past its time at `t`; at zero, all are. -/
def Expired (s : SslSession X) : Prop :=
  t = 0 ∨ s.time.toInt + s.timeout.toInt < t.toInt

instance (s : SslSession X) : Decidable (Expired t s) :=
  inferInstanceAs (Decidable (_ ∨ _))

/-- The end of a session is a number of 64 bits. -/
def EndFits (s : SslSession X) : Prop :=
  -2 ^ 63 ≤ s.time.toInt + s.timeout.toInt ∧ s.time.toInt + s.timeout.toInt < 2 ^ 63

theorem expired_iff {t : Int64} {s : SslSession X} (hfits : t ≠ 0 → EndFits s) :
    expired t s = true ↔ Expired t s := by
  simp only [expired, Expired, Bool.or_eq_true, decide_eq_true_eq]
  refine or_congr_right' fun ht => ?_
  have hsum : (s.time + s.timeout).toInt = s.time.toInt + s.timeout.toInt := by
    obtain ⟨hlo, hhi⟩ := hfits ht
    rw [toInt_add]
    exact Int.bmod_eq_of_le (by omega) (by omega)
  rw [gt_iff_lt, lt_iff_toInt_lt, hsum]

/-- As long as the table is not contracted with sessions in it, and, unless all are flushed, no end
of a session overflows, the flush goes through every session once, and leaves those that are not
past their time. -/
theorem flush_visits (h : Cached mem ctx l) (t : Int64)
    (hsafe : FlushSafe mem t ctx.sessions.num_nodes l) (hfits : t ≠ 0 → ∀ c ∈ l, EndFits (mem c)) :
    ∃ ctx', sslCtxFlushSessions mem ctx t = some (ctx.sessions.items, ctx') ∧
      ctx.sessions.items.Nodup ∧ (∀ c, c ∈ ctx.sessions.items ↔ c ∈ l) ∧
      Cached mem ctx' (l.filter fun c => ¬ Expired t (mem c)) ∧
      ∀ c, c ∈ ctx'.sessions.items ↔ c ∈ ctx.sessions.items ∧ ¬ Expired t (mem c) := by
  obtain ⟨ctx', hflush, hcached, -⟩ := sslCtxFlushSessions_spec h hsafe
  have hkept : kept mem t l = l.filter fun c => ¬ Expired t (mem c) :=
    filter_congr fun c hc => by simp [expired_iff fun ht => hfits ht c hc]
  rw [hkept] at hcached
  refine ⟨ctx', hflush, h.valid.nodup_items, fun c => h.items.mem_iff, hcached, fun c => ?_⟩
  rw [hcached.items.mem_iff, h.items.mem_iff, mem_filter, decide_eq_true_eq]

/-- Sessions that end at the time 309, but for the second one, which ends at 1009. -/
def threeSessions (c : ℕ) : SslSession Empty :=
  { plainSession 4 with
    session_id := fun i => if i = 0 then c.toUInt8 else 0
    timeout := if c = 2 then 1000 else 300 }

/-- A cache to which the sessions 1, 2 and 3 were added. -/
def threeCtx : Option SslCtx := do
  let (_, ctx) ← sslCtxAddSession threeSessions (newCtx 5) 1
  let (_, ctx) ← sslCtxAddSession threeSessions ctx 2
  let (_, ctx) ← sslCtxAddSession threeSessions ctx 3
  return ctx

theorem threeCtx_cached : ∃ ctx, threeCtx = some ctx ∧ Cached threeSessions ctx [3, 2, 1] := by
  obtain ⟨_, ctx1, hadd1, h1, hsize1⟩ := sslCtxAddSession_spec (c := 1)
    (newCtx_cached threeSessions 5) (by decide) (by decide)
  obtain ⟨_, ctx2, hadd2, h2, hsize2⟩ := sslCtxAddSession_spec (c := 2) h1 (by decide) (by decide)
  rw [hsize1] at h2 hsize2
  obtain ⟨_, ctx3, hadd3, h3, -⟩ := sslCtxAddSession_spec (c := 3) h2 (by decide) (by decide)
  rw [hsize2] at h3
  refine ⟨ctx3, ?_, h3⟩
  simp [threeCtx, hadd1, hadd2, hadd3]

/-- At the time 500 two of three sessions are removed. -/
theorem flush_visits_three : ∃ ctx ctx', threeCtx = some ctx ∧
    sslCtxFlushSessions threeSessions ctx 500 = some (ctx.sessions.items, ctx') ∧
    (∀ c, c ∈ ctx.sessions.items ↔ c ∈ [3, 2, 1]) ∧ Cached threeSessions ctx' [2] := by
  obtain ⟨ctx, hctx, hcached⟩ := threeCtx_cached
  have hnodes : ctx.sessions.num_nodes ≤ 256 := by
    have hle : threeCtx.all (fun ctx => ctx.sessions.num_nodes ≤ 256) = true := by decide +kernel
    rw [hctx] at hle
    simpa using hle
  obtain ⟨ctx', hflush, -, hitems, hkept, -⟩ :=
    flush_visits hcached 500 (.inr (hnodes.trans (by decide)))
      fun _ => by simp only [EndFits]; decide
  exact ⟨ctx, ctx', hctx, hflush, hitems, hkept⟩

/-- The test of `ssl_get_prev_session`; the difference is one of 64 bits. -/
def timedOut (now : Int64) (ret : SslSession X) : Bool := ret.timeout < now - ret.time

/-- The age of a session is a number of 64 bits. -/
def AgeFits (s : SslSession X) : Prop :=
  -2 ^ 63 ≤ t.toInt - s.time.toInt ∧ t.toInt - s.time.toInt < 2 ^ 63

/-- A flush removes what a lookup at the same time refuses, exactly when the sum of the one and the
difference of the other both overflow or neither does. -/
theorem expired_iff_timedOut {t : Int64} (ht : t ≠ 0) (s : SslSession X) :
    (expired t s = true ↔ timedOut t s = true) ↔ (EndFits s ↔ AgeFits t s) := by
  have hbound (x : Int64) : -2 ^ 63 ≤ x.toInt ∧ x.toInt < 2 ^ 63 := ⟨x.le_toInt, x.toInt_lt⟩
  obtain ⟨ht1, ht2⟩ := hbound t
  obtain ⟨htime1, htime2⟩ := hbound s.time
  obtain ⟨hout1, hout2⟩ := hbound s.timeout
  simp only [expired, timedOut, ht, decide_false, Bool.false_or, decide_eq_true_eq,
    lt_iff_toInt_lt, toInt_add, toInt_sub, Int.bmod_def, EndFits, AgeFits]
  -- What the two overflows take away is the same, or nothing.
  omega

/-- A session without an end is removed by a flush, and not refused by a lookup. -/
theorem expired_not_timedOut :
    let s := { plainSession 4 with timeout := Int64.maxValue }
    expired 10 s = true ∧ timedOut 10 s = false := by
  decide

/-- One whose time is over. -/
theorem expired_iff_timedOut_plain :
    expired 400 (plainSession 4) = true ∧ timedOut 400 (plainSession 4) = true :=
  have h := (expired_iff_timedOut (by decide) (plainSession 4)).mpr
    (iff_of_true ⟨by decide, by decide⟩ ⟨by decide, by decide⟩)
  ⟨by decide, h.mp (by decide)⟩

/-- Sessions at the addresses 1, 2 and 3 that belong to the bucket 513 of 514. -/
def lastBucket (c : ℕ) : SslSession Empty :=
  { plainSession 4 with session_id := fun i => if i = 0 then 1 else if i = 1 then 4 * c.toUInt8 - 2
                                               else 0 }

/-- A cache with these three, as an earlier flush leaves it. -/
def lastBucketCtx : SslCtx where
  sessions :=
    { b := fun i => if i = 513 then [⟨1, 513⟩, ⟨2, 1537⟩, ⟨3, 2561⟩] else []
      num_nodes := 514
      num_alloc_nodes := 1024
      p := 2
      pmax := 512
      up_load := 2 * lhLoadMult
      down_load := lhLoadMult
      num_items := 3 }
  list := ((Links.empty.push 1 []).push 2 [1]).push 3 [2, 1]
  session_cache_size := 20480

theorem lastBucketCtx_entries :
    lastBucketCtx.sessions.entries = [⟨1, 513⟩, ⟨2, 1537⟩, ⟨3, 2561⟩] := by
  decide +kernel

theorem lastBucketCtx_valid : lastBucketCtx.sessions.Valid (sessionMethods lastBucket) where
  pow := ⟨6, rfl⟩
  alloc := rfl
  p_lt := by decide
  nodes := rfl
  bounded := by decide
  hashes := by
    rw [lastBucketCtx_entries]
    decide
  placed := by
    have hb : ∀ i, lastBucketCtx.sessions.b i =
        if i = 513 then [⟨1, 513⟩, ⟨2, 1537⟩, ⟨3, 2561⟩] else [] := fun _ => rfl
    refine ⟨fun i _ x hx => ?_, fun i hi => ?_⟩
    · rw [hb] at hx
      split at hx
      · next hi =>
        subst hi
        revert x
        decide
      · cases hx
    · rw [hb, if_neg (Nat.ne_of_gt (Nat.lt_of_lt_of_le (by decide) hi))]
  count := by
    rw [lastBucketCtx_entries]
    rfl
  distinct := by
    rw [lastBucketCtx_entries]
    decide

theorem lastBucketCtx_cached : Cached lastBucket lastBucketCtx [3, 2, 1] where
  linked := ((linked_empty.push (by decide)).push (by decide)).push (by decide)
  valid := lastBucketCtx_valid
  up_load := rfl
  items := by
    rw [Lhash.items, lastBucketCtx_entries]
    decide
  ids := by decide

/-- Deleting the three contracts the table three times while the loop is in their bucket, to an
array of 512 elements; the loop goes on with bucket 512. -/
theorem flush_outside : Cached lastBucket lastBucketCtx [3, 2, 1] ∧
    (doallChain SslCtx.sessions (timeoutDoallArg lastBucket 0) 4 (some 1)
      (lastBucketCtx.withDownLoad 0)).map (fun r => (r.1, r.2.sessions.num_alloc_nodes)) =
      some ([1, 2, 3], 512) ∧
    sslCtxFlushSessions lastBucket lastBucketCtx 0 = none := by
  refine ⟨lastBucketCtx_cached, by decide +kernel, ?_⟩
  have hnone : (sslCtxFlushSessions lastBucket lastBucketCtx 0).isNone = true := by decide +kernel
  exact Option.isNone_iff_eq_none.mp hnone

end VigorTls.Session
