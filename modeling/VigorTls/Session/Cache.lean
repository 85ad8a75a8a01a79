import VigorTls.Session.Asn1
import VigorTls.Hash.Map
import VigorTls.Lib.LinkedList

/-!
# The session cache

The internal cache of a server in `ssl/ssl_sess.c`: a hash table of sessions, and a list through
them with the newest in front. Sessions are known by their addresses, and `mem` is what is there.
-/

namespace VigorTls.Session

open Lib Bytestring Hash List Function Option Nat

variable {X : Type}

/-- `ssl_session_hash`, which takes four bytes of the ID whatever its length. -/
def sslSessionHash (a : SslSession X) : ℕ :=
  (a.session_id 0).toNat ||| (a.session_id 1).toNat <<< 8 ||| (a.session_id 2).toNat <<< 16 |||
    (a.session_id 3).toNat <<< 24

def sslSessionCmp (a b : SslSession X) : ℤ :=
  if a.ssl_version ≠ b.ssl_version then 1
  else if a.session_id_length ≠ b.session_id_length then 1
  else if slice a.session_id 0 a.session_id_length ≠ slice b.session_id 0 a.session_id_length then 1
  else 0

def SslSession.id (s : SslSession X) : Bytes := slice s.session_id 0 s.session_id_length

variable {a : SslSession X}

theorem sslSessionCmp_eq_zero_iff {b : SslSession X} :
    sslSessionCmp a b = 0 ↔ a.ssl_version = b.ssl_version ∧ a.id = b.id := by
  have hlen : a.id = b.id → a.session_id_length = b.session_id_length := fun hid => by
    simpa [SslSession.id] using congrArg List.length hid
  unfold sslSessionCmp
  split_ifs with hversion hlength hbytes
  · exact iff_of_false (by decide) fun h => hversion h.1
  · exact iff_of_false (by decide) fun h => hlength (hlen h.2)
  · refine iff_of_false (by decide) fun h => hbytes ?_
    have hid := h.2
    rwa [SslSession.id, SslSession.id, ← not_not.mp hlength] at hid
  · refine iff_of_true rfl ⟨not_not.mp hversion, ?_⟩
    rw [SslSession.id, SslSession.id, ← not_not.mp hlength]
    exact not_not.mp hbytes

/-- The functions of the table of sessions. -/
def sessionMethods (mem : ℕ → SslSession X) : Methods ℕ where
  hash c := sslSessionHash (mem c)
  comp c c' := sslSessionCmp (mem c) (mem c')
  equiv := by
    simp only [sslSessionCmp_eq_zero_iff]
    exact ⟨fun _ => ⟨rfl, rfl⟩, fun h => ⟨h.1.symm, h.2.symm⟩,
      fun h h' => ⟨h.1.trans h'.1, h.2.trans h'.2⟩⟩

/-- `SSL_CTX`, as far as the cache goes. The links are `session_cache_head`, `session_cache_tail`
and `next` and `prev`, with the addresses of the first two as marks at the ends. -/
structure SslCtx where
  sessions : Lhash ℕ
  list : Links ℕ
  session_cache_size : ℤ

/-- The session that a link is taken for. -/
def toSession : Link ℕ → Option ℕ
  | .item c => some c
  | _ => none

variable (k : Links ℕ) (size : ℤ) (data : SslSession X) (version : Int32)
  (session_id : Bytes)

/-- The four cases of `SSL_SESSION_list_remove`. -/
def listUnlink (s : ℕ) : Option (Links ℕ) :=
  if k.next s = .back then
    if k.prev s = .front then some { k with head := none, tail := none }
    else do
      let p ← toSession (k.prev s)
      some { k with tail := some p, next := update k.next p .back }
  else do
    let n ← toSession (k.next s)
    if k.prev s = .front then
      some { k with head := some n, prev := update k.prev n .front }
    else
      let p ← toSession (k.prev s)
      some { k with
        prev := update k.prev n (k.prev s)
        next := update k.next p (k.next s) }

def sslSessionListRemove (s : ℕ) : Option (Links ℕ) :=
  if k.next s = .null ∨ k.prev s = .null then some k
  else do
    let k ← listUnlink k s
    some { k with prev := update k.prev s .null, next := update k.next s .null }

def sslSessionListAdd (s : ℕ) : Option (Links ℕ) := do
  let k ← if k.next s ≠ .null ∧ k.prev s ≠ .null then sslSessionListRemove k s else some k
  match k.head with
  | none =>
    some {
      head := some s
      tail := some s
      prev := update k.prev s .front
      next := update k.next s .back }
  | some h =>
    some { k with
      next := update k.next s (.item h)
      prev := update (update k.prev h (.item s)) s .front
      head := some s }

section

variable (mem : ℕ → SslSession X)

variable (ctx : SslCtx)

/-- `remove_session_lock`, and whether it removed anything. -/
def removeSessionLock (c : Option ℕ) : Option (Bool × SslCtx) :=
  match c with
  | none => some (false, ctx)
  | some c =>
    if (mem c).session_id_length ≠ 0 then do
      let r ← lhRetrieve (sessionMethods mem) ctx.sessions c
      if r = some c then
        let (_, sessions) ← lhDelete (sessionMethods mem) ctx.sessions c
        let list ← sslSessionListRemove ctx.list c
        some (true, { ctx with sessions := sessions, list := list })
      else some (false, ctx)
    else some (false, ctx)

def sslCtxRemoveSession (c : ℕ) : Option (Bool × SslCtx) :=
  removeSessionLock mem ctx (some c)

/-- The loop of `SSL_CTX_add_session` that drops the oldest. Each turn but the last removes one. -/
def addLoop : ℕ → SslCtx → Option SslCtx
  | 0, _ => none
  | fuel + 1, ctx =>
    if (ctx.sessions.num_items : ℤ) > ctx.session_cache_size then do
      let (removed, ctx) ← removeSessionLock mem ctx ctx.list.tail
      if removed then addLoop fuel ctx else some ctx
    else some ctx

/-- The part of `SSL_CTX_add_session` for a new entry. -/
def addNew (c : ℕ) : Option (Bool × SslCtx) := do
  let list ← sslSessionListAdd ctx.list c
  let ctx := { ctx with list := list }
  if ctx.session_cache_size > 0 then
    let ctx ← addLoop mem (ctx.sessions.num_items + 1) ctx
    some (true, ctx)
  else some (true, ctx)

def sslCtxAddSession (c : ℕ) : Option (Bool × SslCtx) := do
  let (s, sessions) ← lhInsert (sessionMethods mem) ctx.sessions c
  let ctx := { ctx with sessions := sessions }
  match s with
  | some s =>
    if s ≠ c then
      let list ← sslSessionListRemove ctx.list s
      addNew mem { ctx with list := list } c
    else some (false, ctx)
  | none =>
    let r ← lhRetrieve (sessionMethods mem) ctx.sessions c
    if r = none then some (false, ctx) else addNew mem ctx c

/-- The session on the stack of `ssl_get_prev_session`. -/
def localSession : SslSession X :=
  { data with
    ssl_version := version
    session_id_length := session_id.length
    session_id := store data.session_id 0 session_id }

/-- The search of `ssl_get_prev_session` in the cache, with that session at the address `q`. -/
def lookupSession (q : ℕ) (data : SslSession X) (version : Int32)
    (session_id : Bytes) : Option (Option ℕ) :=
  lhRetrieve (sessionMethods (update mem q (localSession data version session_id)))
    ctx.sessions q

/-- The test of `timeout_doall_arg`; the sum is one of 64 bits. -/
def expired (t : Int64) (s : SslSession X) : Bool := t = 0 || t > s.time + s.timeout

def timeoutDoallArg (t : Int64) (s : ℕ) (ctx : SslCtx) : Option SslCtx :=
  if expired t (mem s) then do
    let (_, sessions) ← lhDelete (sessionMethods mem) ctx.sessions s
    let list ← sslSessionListRemove ctx.list s
    some { ctx with sessions := sessions, list := list }
  else some ctx

def SslCtx.withDownLoad (down_load : ℕ) : SslCtx :=
  { ctx with sessions := { ctx.sessions with down_load := down_load } }

/-- `SSL_CTX_flush_sessions`, with the sessions that it went through. -/
def sslCtxFlushSessions (t : Int64) : Option (List ℕ × SslCtx) := do
  let (seen, ctx') ← doallUtilFn SslCtx.sessions (timeoutDoallArg mem t) (ctx.withDownLoad 0)
  some (seen, ctx'.withDownLoad ctx.sessions.down_load)

end

theorem sslSessionListRemove_eq {k : Links ℕ} {pre post : List ℕ} {s : ℕ}
    (h : Linked k (pre ++ s :: post)) : sslSessionListRemove k s = some (k.unlink pre s post) := by
  obtain ⟨hnext, hprev⟩ := h.links pre s post rfl
  have hhead := h.head
  have htail := h.tail
  have hnull : ¬ (k.next s = .null ∨ k.prev s = .null) := by
    rw [hnext, hprev]
    exact not_or.mpr ⟨linkTo_ne_null post, linkFrom_ne_null pre⟩
  rw [sslSessionListRemove, listUnlink, hnext, hprev]
  rcases eq_nil_or_concat pre with rfl | ⟨pre, p, rfl⟩
  · cases post with
    | nil => rfl
    | cons n post =>
      have htail' : k.tail = (n :: post).getLast? := htail
      simp [linkTo, toSession, Links.unlink, htail']
  cases post with
  | nil =>
    have hhead' : k.head = (pre ++ [p]).head? := by
      rw [hhead]
      cases pre <;> rfl
    simp [linkTo, toSession, Links.unlink, hhead']
  | cons n post =>
    simp [linkTo, toSession, Links.unlink, hhead, htail]

theorem sslSessionListAdd_eq {k : Links ℕ} {l : List ℕ} {s : ℕ} (h : Linked k l) (hs : s ∉ l) :
    sslSessionListAdd k s = some (k.push s l) := by
  have hfree : ¬ (k.next s ≠ .null ∧ k.prev s ≠ .null) := fun hne => hne.1 (h.free s hs).1
  have hhead := h.head
  have htail := h.tail
  rw [sslSessionListAdd, if_neg hfree]
  cases l with
  | nil =>
    dsimp only [bind_eq_bind, bind_some]
    rw [hhead]
    rfl
  | cons a l =>
    dsimp only [bind_eq_bind, bind_some]
    rw [hhead]
    have htail' : k.tail = (s :: a :: l).getLast? := htail
    simp [Links.push, linkTo, htail']

theorem erase_middle {pre post : List ℕ} {s : ℕ} (h : (pre ++ s :: post).Nodup) :
    (pre ++ s :: post).erase s = pre ++ post := by
  have hs : s ∉ pre := fun hs => (nodup_append.mp h).2.2 s hs s mem_cons_self rfl
  rw [erase_append_right _ hs, erase_cons_head]

theorem sslSessionListRemove_mem {k : Links ℕ} {l : List ℕ} {s : ℕ} (h : Linked k l)
    (hs : s ∈ l) : ∃ k', sslSessionListRemove k s = some k' ∧ Linked k' (l.erase s) := by
  obtain ⟨pre, post, rfl⟩ := append_of_mem hs
  refine ⟨_, sslSessionListRemove_eq h, ?_⟩
  rw [erase_middle h.nodup]
  exact h.unlink

/-- A cache holds the sessions `l`, with the newest in front. -/
structure Cached (mem : ℕ → SslSession X) (ctx : SslCtx) (l : List ℕ) : Prop where
  linked : Linked ctx.list l
  valid : ctx.sessions.Valid (sessionMethods mem)
  up_load : ctx.sessions.up_load = 2 * lhLoadMult
  items : ctx.sessions.items.Perm l
  ids : ∀ c ∈ l, (mem c).session_id_length ≠ 0

section

variable {mem : ℕ → SslSession X} {ctx : SslCtx} {l : List ℕ}

theorem Cached.num_items (h : Cached mem ctx l) : ctx.sessions.num_items = l.length := by
  rw [h.valid.count_items, h.items.length_eq]

variable {c : ℕ}

theorem Cached.eq_of_same (h : Cached mem ctx l) {c' : ℕ} (hc : c ∈ l) (hc' : c' ∈ l)
    (hsame : (sessionMethods mem).Same c c') : c = c' :=
  h.valid.eq_of_same (h.items.mem_iff.mpr hc) (h.items.mem_iff.mpr hc') hsame

theorem Cached.delete (h : Cached mem ctx l) (hc : c ∈ l) :
    ∃ sessions list, lhDelete (sessionMethods mem) ctx.sessions c = some (some c, sessions) ∧
      sslSessionListRemove ctx.list c = some list ∧
      Cached mem { ctx with sessions := sessions, list := list } (l.erase c) ∧
      sessions.down_load = ctx.sessions.down_load := by
  obtain ⟨ret, sessions, hdelete, hvalid, hdeleted, hup, hdown⟩ := lhDelete_spec h.valid c
  obtain ⟨list, hremove, hlinked⟩ := sslSessionListRemove_mem h.linked hc
  cases hdeleted with
  | missing fresh _ =>
    exact absurd (Methods.Same.refl _ c) (fresh c (h.items.mem_iff.mpr hc))
  | @removed x same perm =>
    obtain rfl : x = c :=
      h.valid.eq_of_same (perm.mem_iff.mpr mem_cons_self) (h.items.mem_iff.mpr hc) same
    refine ⟨sessions, list, hdelete, hremove, ⟨hlinked, hvalid, hup.trans h.up_load, ?_,
      fun c' hc' => h.ids c' (mem_of_mem_erase hc')⟩, hdown⟩
    exact ((perm.symm.trans h.items).trans (perm_cons_erase hc)).cons_inv

theorem removeSessionLock_mem (h : Cached mem ctx l) (hc : c ∈ l) :
    ∃ ctx', removeSessionLock mem ctx (some c) = some (true, ctx') ∧
      Cached mem ctx' (l.erase c) ∧ ctx'.session_cache_size = ctx.session_cache_size := by
  obtain ⟨r, hretrieve, hretrieved⟩ := lhRetrieve_spec h.valid c
  obtain rfl := h.valid.retrieved_unique hretrieved
    (.found (h.items.mem_iff.mpr hc) (Methods.Same.refl _ c))
  obtain ⟨sessions, list, hdelete, hremove, hcached, -⟩ := h.delete hc
  refine ⟨{ ctx with sessions := sessions, list := list }, ?_, hcached, rfl⟩
  rw [removeSessionLock, if_pos (h.ids c hc), hretrieve]
  dsimp only [bind_eq_bind, bind_some]
  rw [if_pos rfl, hdelete]
  rw [hremove]
  rfl

theorem removeSessionLock_not_mem (h : Cached mem ctx l) (hc : c ∉ l) :
    removeSessionLock mem ctx (some c) = some (false, ctx) := by
  obtain ⟨r, hretrieve, hretrieved⟩ := lhRetrieve_spec h.valid c
  have hne : r ≠ some c := by
    rintro rfl
    cases hretrieved with
    | found mem same => exact hc (h.items.mem_iff.mp mem)
  rw [removeSessionLock]
  split
  · rw [hretrieve]
    dsimp only [bind_eq_bind, bind_some]
    rw [if_neg hne]
  · rfl

/-- The sessions that are kept of a list: the newest, as many as there is room for. -/
def trim (l : List ℕ) : List ℕ := if size > 0 then l.take size.toNat else l

theorem addLoop_spec : ∀ {fuel : ℕ} {ctx : SslCtx} {l : List ℕ}, Cached mem ctx l →
    l.length < fuel → ctx.session_cache_size > 0 →
    ∃ ctx', addLoop mem fuel ctx = some ctx' ∧
      Cached mem ctx' (l.take ctx.session_cache_size.toNat) ∧
      ctx'.session_cache_size = ctx.session_cache_size
  | 0, _, _, _, hfuel, _ => absurd hfuel (Nat.not_lt_zero _)
  | fuel + 1, ctx, l, h, hfuel, hsize => by
    rw [addLoop, h.num_items]
    split_ifs with hlarge
    · rcases eq_nil_or_concat l with rfl | ⟨l, x, rfl⟩
      · exact absurd hlarge (by simp; omega)
      rw [concat_eq_append] at h hfuel hlarge ⊢
      have htail : ctx.list.tail = some x := by
        rw [h.linked.tail]
        simp
      obtain ⟨ctx1, hremove, hcached, hsize1⟩ :=
        removeSessionLock_mem h (mem_append_right l mem_cons_self)
      rw [erase_middle h.linked.nodup, append_nil] at hcached
      rw [length_append, length_singleton] at hfuel hlarge
      obtain ⟨ctx2, hloop, hcached2, hsize2⟩ :=
        addLoop_spec hcached (show l.length < fuel by omega) (hsize1 ▸ hsize)
      refine ⟨ctx2, ?_, ?_, hsize2.trans hsize1⟩
      · rw [htail, hremove]
        exact hloop
      · rw [take_append_of_le_length (by omega), ← hsize1]
        exact hcached2
    · exact ⟨ctx, rfl, by rwa [take_of_length_le (by omega)], rfl⟩

theorem addNew_spec (hlinked : Linked ctx.list l) (hc : c ∉ l)
    (hvalid : ctx.sessions.Valid (sessionMethods mem))
    (hup : ctx.sessions.up_load = 2 * lhLoadMult) (hitems : ctx.sessions.items.Perm (c :: l))
    (hids : ∀ c' ∈ c :: l, (mem c').session_id_length ≠ 0) :
    ∃ ctx', addNew mem ctx c = some (true, ctx') ∧
      Cached mem ctx' (trim ctx.session_cache_size (c :: l)) ∧
      ctx'.session_cache_size = ctx.session_cache_size := by
  have hcached : Cached mem { ctx with list := ctx.list.push c l } (c :: l) :=
    ⟨hlinked.push hc, hvalid, hup, hitems, hids⟩
  rw [addNew, sslSessionListAdd_eq hlinked hc, trim]
  dsimp only [bind_eq_bind, bind_some]
  by_cases hsize : ctx.session_cache_size > 0
  · have hfuel : (c :: l).length < ctx.sessions.num_items + 1 := by
      rw [← hcached.num_items]
      exact lt_succ_self _
    obtain ⟨ctx', hloop, hcached', hsize'⟩ := addLoop_spec hcached hfuel hsize
    rw [if_pos hsize, if_pos hsize, hloop]
    exact ⟨ctx', rfl, hcached', hsize'⟩
  · rw [if_neg hsize, if_neg hsize]
    exact ⟨_, rfl, hcached, rfl⟩

/-- A session with the same key makes room for the new one, unless it is the same. -/
def cacheAdd (mem : ℕ → SslSession X) (size : ℤ) (l : List ℕ) (c : ℕ) : List ℕ :=
  match l.find? fun x => (sessionMethods mem).Same x c with
  | some old => if old = c then l else trim size (c :: l.erase old)
  | none => trim size (c :: l)

theorem sslCtxAddSession_spec (h : Cached mem ctx l) (hid : (mem c).session_id_length ≠ 0)
    (hroom : l.length < maxItems) :
    ∃ ret ctx', sslCtxAddSession mem ctx c = some (ret, ctx') ∧
      Cached mem ctx' (cacheAdd mem ctx.session_cache_size l c) ∧
      ctx'.session_cache_size = ctx.session_cache_size := by
  obtain ⟨s, sessions, hinsert⟩ := lhInsert_defined h.valid h.up_load (h.num_items ▸ hroom) c
  obtain ⟨hvalid, hinserted, hup, -⟩ := lhInsert_spec h.valid hinsert
  rw [sslCtxAddSession, hinsert, cacheAdd]
  dsimp only [bind_eq_bind, bind_some]
  cases hinserted with
  | added fresh perm =>
    have hc : c ∉ l := fun hc => fresh c (h.items.mem_iff.mpr hc) (Methods.Same.refl _ c)
    have hfind : l.find? (fun x => (sessionMethods mem).Same x c) = none := by
      rw [find?_eq_none]
      intro x hx
      simpa using fresh x (h.items.mem_iff.mpr hx)
    obtain ⟨r, hretrieve, hretrieved⟩ := lhRetrieve_spec hvalid c
    obtain rfl := hvalid.retrieved_unique hretrieved
      (.found (perm.mem_iff.mpr mem_cons_self) (Methods.Same.refl _ c))
    have hlinked : Linked { ctx with sessions := sessions }.list l := h.linked
    obtain ⟨ctx', hadd, hcached, hsize⟩ := addNew_spec hlinked hc hvalid (hup.trans h.up_load)
      (perm.trans (h.items.cons c))
      (forall_mem_cons.mpr ⟨hid, h.ids⟩)
    rw [hfind, hretrieve]
    exact ⟨true, ctx', hadd, hcached, hsize⟩
  | @replaced old rest same perm perm' =>
    have hold : old ∈ l := h.items.mem_iff.mp (perm.mem_iff.mpr mem_cons_self)
    have hfind : l.find? (fun x => (sessionMethods mem).Same x c) = some old := by
      cases hfind : l.find? fun x => (sessionMethods mem).Same x c with
      | none => exact absurd same (by simpa using find?_eq_none.mp hfind old hold)
      | some x =>
        have hx : (sessionMethods mem).Same x c := by simpa using find?_some hfind
        rw [h.eq_of_same (mem_of_find?_eq_some hfind) hold (hx.trans same.symm)]
    have hrest : rest.Perm (l.erase old) :=
      ((perm.symm.trans h.items).trans (perm_cons_erase hold)).cons_inv
    rw [hfind]
    dsimp only
    by_cases heq : old = c
    · subst heq
      rw [if_neg (not_not.mpr rfl), if_pos rfl]
      exact ⟨false, _, rfl, ⟨h.linked, hvalid, hup.trans h.up_load,
        (perm'.trans perm.symm).trans h.items, h.ids⟩, rfl⟩
    -- The session with the same id is taken out of the list first.
    have hc : c ∉ l := fun hc => heq (h.eq_of_same hold hc same)
    obtain ⟨list, hremove, hlinked⟩ := sslSessionListRemove_mem h.linked hold
    have hlinked' : Linked { ctx with sessions := sessions, list := list }.list (l.erase old) :=
      hlinked
    obtain ⟨ctx', hadd, hcached, hsize⟩ :=
      addNew_spec hlinked'
        (fun hmem => hc (mem_of_mem_erase hmem)) hvalid (hup.trans h.up_load)
        (perm'.trans (hrest.cons c))
        (forall_mem_cons.mpr ⟨hid, fun c' hc' => h.ids c' (mem_of_mem_erase hc')⟩)
    rw [if_pos heq, if_neg heq, hremove]
    exact ⟨true, ctx', hadd, hcached, hsize⟩

/-! ## Searching -/

theorem localSession_id : (localSession data version session_id).id = session_id :=
  slice_store_self data.session_id 0 session_id

theorem Cached.valid_local (h : Cached mem ctx l) {q : ℕ} (hq : q ∉ l) (s : SslSession X) :
    ctx.sessions.Valid (sessionMethods (update mem q s)) := by
  have hmem : ∀ x ∈ ctx.sessions.items, update mem q s x = mem x := by
    intro x hx
    have hxq : x ≠ q := fun hxq => hq (hxq ▸ h.items.mem_iff.mp hx)
    exact update_of_ne hxq ..
  exact h.valid.congr (fun x hx => congrArg sslSessionHash (hmem x hx))
    fun x hx y hy => congrArg₂ sslSessionCmp (hmem x hx) (hmem y hy)

theorem lookupSession_spec (h : Cached mem ctx l) {q : ℕ} (hq : q ∉ l) (data : SslSession X)
    (version : Int32) (session_id : Bytes) (hc : c ∈ l) :
    lookupSession mem ctx q data version session_id = some (some c) ↔
      (mem c).ssl_version = version ∧ (mem c).id = session_id ∧
        sslSessionHash (mem c) = sslSessionHash (localSession data version session_id) := by
  have hvalid := h.valid_local hq (localSession data version session_id)
  have hcq : c ≠ q := fun hcq => hq (hcq ▸ hc)
  have hsame : (sessionMethods (update mem q (localSession data version session_id))).Same c q ↔
      (mem c).ssl_version = version ∧ (mem c).id = session_id ∧
        sslSessionHash (mem c) = sslSessionHash (localSession data version session_id) := by
    simp only [Methods.Same, sessionMethods, update_of_ne hcq, update_self,
      sslSessionCmp_eq_zero_iff, localSession_id]
    exact ⟨fun h => ⟨h.2.1, h.2.2, h.1⟩, fun h => ⟨h.2.2, h.1, h.2.1⟩⟩
  obtain ⟨ret, hretrieve, hretrieved⟩ := lhRetrieve_spec hvalid q
  rw [lookupSession, hretrieve, ← hsame, some_inj]
  constructor
  · rintro rfl
    cases hretrieved with
    | found _ same => exact same
  · intro hsame
    exact hvalid.retrieved_unique hretrieved (.found (h.items.mem_iff.mpr hc) hsame)

theorem sslSessionHash_congr {b : SslSession X} (h : ∀ i < 4, a.session_id i = b.session_id i) :
    sslSessionHash a = sslSessionHash b := by
  rw [sslSessionHash, sslSessionHash, h 0 (by decide), h 1 (by decide), h 2 (by decide),
    h 3 (by decide)]

theorem sslSessionHash_shiftRight (a : SslSession X) :
    sslSessionHash a >>> 24 = (a.session_id 3).toNat := by
  have h0 := (a.session_id 0).toNat_lt
  have h1 := (a.session_id 1).toNat_lt
  have h2 := (a.session_id 2).toNat_lt
  rw [sslSessionHash, shiftRight_or_distrib, shiftRight_or_distrib, shiftRight_or_distrib]
  simp only [shiftLeft_eq, shiftRight_eq_div_pow]
  rw [div_eq_of_lt (by omega), div_eq_of_lt (by omega), div_eq_of_lt (by omega)]
  simp

theorem hash_eq_of_cmp {b : SslSession X} (hcmp : sslSessionCmp a b = 0)
    (hlen : 4 ≤ a.session_id_length) : sslSessionHash a = sslSessionHash b := by
  have hid := (sslSessionCmp_eq_zero_iff.mp hcmp).2
  have hlen' : 4 ≤ b.session_id_length := by
    have := congrArg List.length hid
    simp only [SslSession.id, length_slice] at this
    omega
  refine sslSessionHash_congr fun i hi => ?_
  have hbyte := congrArg (·[i]?) hid
  simp only [SslSession.id, getElem?_slice] at hbyte
  rw [if_pos (by omega), if_pos (by omega), Nat.zero_add] at hbyte
  exact some_inj.mp hbyte

theorem exists_hash_ne (hlen : a.session_id_length < 4) :
    ∃ data : SslSession X,
      sslSessionHash a ≠ sslSessionHash (localSession data a.ssl_version a.id) := by
  refine ⟨{ a with session_id := fun _ => a.session_id 3 + 1 }, fun hhash => ?_⟩
  have hbyte := congrArg (· >>> 24) hhash
  simp only [sslSessionHash_shiftRight] at hbyte
  have hthree : (localSession { a with session_id := fun _ => a.session_id 3 + 1 } a.ssl_version
      a.id).session_id 3 = a.session_id 3 + 1 := by
    have hnone : a.id[3 - 0]? = none := getElem?_eq_none (by simp [SslSession.id]; omega)
    simp only [localSession, store, hnone, getD_none, ite_self]
  rw [hthree, UInt8.toNat_add] at hbyte
  change _ = (_ + 1) % 2 ^ 8 at hbyte
  omega

/-- A stored session is found by its version and its ID, whatever else is on the stack, exactly when
its ID has the four bytes that the hash function takes. -/
theorem stored_found_iff (h : Cached mem ctx l) {c q : ℕ} (hc : c ∈ l) (hq : q ∉ l) :
    ((∀ data, lookupSession mem ctx q data (mem c).ssl_version (mem c).id = some (some c)) ↔
      4 ≤ (mem c).session_id_length) ∧
    ((∀ b, sslSessionCmp (mem c) b = 0 → sslSessionHash (mem c) = sslSessionHash b) ↔
      4 ≤ (mem c).session_id_length) := by
  have hcmp : ∀ data,
      sslSessionCmp (mem c) (localSession data (mem c).ssl_version (mem c).id) = 0 :=
    fun data => sslSessionCmp_eq_zero_iff.mpr ⟨rfl, (localSession_id ..).symm⟩
  refine ⟨⟨fun hfound => ?_, fun hlen data => ?_⟩, fun hhash => ?_, fun hlen b hb =>
    hash_eq_of_cmp hb hlen⟩
  · by_contra hlen
    obtain ⟨data, hne⟩ := exists_hash_ne (Nat.not_le.mp hlen)
    exact hne ((lookupSession_spec h hq data _ _ hc).mp (hfound data)).2.2
  · exact (lookupSession_spec h hq data _ _ hc).mpr ⟨rfl, rfl, hash_eq_of_cmp (hcmp data) hlen⟩
  · by_contra hlen
    obtain ⟨data, hne⟩ := exists_hash_ne (Nat.not_le.mp hlen)
    exact hne (hhash _ (hcmp data))

end

/-- `SSL_CTX_new`, with a cache of a given size. -/
def newCtx : SslCtx := ⟨lhNew, .empty, size⟩

theorem newCtx_cached (mem : ℕ → SslSession X) (size : ℤ) : Cached mem (newCtx size) [] :=
  ⟨linked_empty, lhNew_valid _, rfl, .refl _, nofun⟩

/-- A session of TLS 1.2 with an ID of zeros. -/
def plainSession (length : ℕ) : SslSession Empty :=
  { sslSessionNew 9 with ssl_version := 0x0303, session_id_length := length }

/-- One that was added to an empty cache. -/
theorem stored_found_iff_four : ∃ ret ctx,
    sslCtxAddSession (fun _ => plainSession 4) (newCtx 1) 1 = some (ret, ctx) ∧
    ∀ data, lookupSession (fun _ => plainSession 4) ctx 0 data 0x0303 [0, 0, 0, 0] =
      some (some 1) := by
  obtain ⟨ret, ctx, hadd, hcached, -⟩ := sslCtxAddSession_spec (c := 1)
    (newCtx_cached (fun _ => plainSession 4) 1) (by decide) (by decide)
  exact ⟨ret, ctx, hadd, (stored_found_iff (q := 0) hcached mem_cons_self (by decide)).1.mpr
    (by decide)⟩

/-- An ID of one byte is not found when the stack has something behind it. -/
theorem stored_not_found :
    ((sslCtxAddSession (fun _ => plainSession 1) (newCtx 1) 1).bind fun r =>
      lookupSession (fun _ => plainSession 1) r.2 0
        { plainSession 1 with session_id := fun _ => 5 } 0x0303 [0]) = some none := by
  decide +kernel

end VigorTls.Session
