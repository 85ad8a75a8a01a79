import VigorTls.Lib.Bytes

/-!
# Programs that read a buffer

A `Probe` reads bytes of a buffer by their index: `run` is its result and `inspected` the indices
that it reads. `Inside n` says that these are below `n`: the result is then the same on every buffer
with the same first `n` bytes (`Inside.run_eq`). A `Parser` is such a program with a state and
failures, of which `Post` and `Safe` say what a result is like.
-/

namespace VigorTls.Lib

/-- A program that reads bytes of a buffer. -/
inductive Probe (α : Type) where
  | ret (a : α)
  | read (i : ℕ) (k : UInt8 → Probe α)

variable {c : Prop}

namespace Probe

variable {α β : Type} {n i : ℕ} {buf buf' : ℕ → UInt8}

def bind : Probe α → (α → Probe β) → Probe β
  | ret a, f => f a
  | read i k, f => read i fun b => (k b).bind f

instance : Monad Probe where
  pure := ret
  bind := bind

theorem pure_eq (a : α) : (pure a : Probe α) = ret a := rfl

theorem bind_eq (p : Probe α) (f : α → Probe β) : p >>= f = p.bind f := rfl

def byte (i : ℕ) : Probe UInt8 := read i ret

def bytes (i : ℕ) : ℕ → Probe Bytes
  | 0 => ret []
  | len + 1 => (byte i).bind fun b => (bytes (i + 1) len).bind fun bs => ret (b :: bs)

/-- The result on a buffer. -/
def run (buf : ℕ → UInt8) : Probe α → α
  | ret a => a
  | read i k => (k (buf i)).run buf

/-- The indices that are read on a buffer. -/
def inspected (buf : ℕ → UInt8) : Probe α → List ℕ
  | ret _ => []
  | read i k => i :: (k (buf i)).inspected buf

/-- Only indices below `n` are read on a buffer. -/
def Inside (n : ℕ) (buf : ℕ → UInt8) (p : Probe α) : Prop := ∀ i ∈ p.inspected buf, i < n

instance (p : Probe α) : Decidable (p.Inside n buf) :=
  inferInstanceAs (Decidable (∀ i ∈ p.inspected buf, i < n))

@[simp] theorem run_ret (a : α) : (ret a).run buf = a := rfl

@[simp] theorem run_bind (p : Probe α) (f : α → Probe β) :
    (p.bind f).run buf = (f (p.run buf)).run buf := by
  induction p with
  | ret a => rfl
  | read i k ih => exact ih (buf i)

@[simp] theorem run_byte (i : ℕ) : (byte i).run buf = buf i := rfl

theorem run_bytes (i len : ℕ) :
    (bytes i len).run buf = (List.range len).map fun k => buf (i + k) := by
  induction len generalizing i with
  | zero => rfl
  | succ len ih =>
    simp only [bytes, run_bind, run_byte, ih, run_ret, List.range_succ_eq_map, List.map_cons,
      List.map_map, Nat.add_zero, List.cons.injEq, true_and]
    exact List.map_congr_left fun k _ => by simp [Nat.add_assoc, Nat.add_comm 1 k]

theorem inspected_bind (p : Probe α) (f : α → Probe β) :
    (p.bind f).inspected buf = p.inspected buf ++ (f (p.run buf)).inspected buf := by
  induction p with
  | ret a => rfl
  | read i k ih => exact congrArg (i :: ·) (ih (buf i))

theorem inside_ret (a : α) : (ret a).Inside n buf := nofun

/-- A sequence stays inside exactly when its parts do. -/
theorem inside_bind {p : Probe α} {f : α → Probe β} :
    (p.bind f).Inside n buf ↔ p.Inside n buf ∧ (f (p.run buf)).Inside n buf := by
  simp [Inside, inspected_bind, or_imp, forall_and]

theorem inside_byte : (byte i).Inside n buf ↔ i < n := by
  simp [Inside, byte, inspected]

theorem inside_bytes {len : ℕ} : (bytes i len).Inside n buf ↔ len = 0 ∨ i + len ≤ n := by
  induction len generalizing i with
  | zero => simp [bytes, inside_ret]
  | succ len ih =>
    rw [bytes, inside_bind, inside_byte, inside_bind, ih]
    simp only [inside_ret, and_true]
    omega

/-- On the buffer, the result meets `Q`. -/
def Post (buf : ℕ → UInt8) (p : Probe α) (Q : α → Prop) : Prop := Q (p.run buf)

section Post

variable {p q : Probe α} {f : α → Probe β} {Q : α → Prop} {R : β → Prop}

theorem Post.pure {a : α} (h : Q a) : Post buf (Pure.pure a) Q := h

theorem Post.bind (hf : ∀ a, p.run buf = a → Post buf (f a) R) : Post buf (p >>= f) R := by
  show R ((p.bind f).run buf)
  rw [run_bind]
  exact hf _ rfl

theorem Post.ite [Decidable c] (hp : c → Post buf p Q) (hq : ¬c → Post buf q Q) :
    Post buf (if c then p else q) Q := by
  split_ifs with h
  · exact hp h
  · exact hq h

end Post

/-- On every buffer, only indices below `n` are read, and the result meets `Q`. -/
def Stays (n : ℕ) (p : Probe α) (Q : α → Prop) : Prop := ∀ buf, p.Inside n buf ∧ Q (p.run buf)

section Stays

variable {p q : Probe α} {f : α → Probe β} {Q Q' : α → Prop} {R : β → Prop}

theorem Stays.inside (h : Stays n p Q) (buf : ℕ → UInt8) : p.Inside n buf := (h buf).1

theorem Stays.pure {a : α} (h : Q a) : Stays n (Pure.pure a) Q := fun _ => ⟨inside_ret a, h⟩

theorem Stays.byte {Q : UInt8 → Prop} (hi : i < n) (h : ∀ b, Q b) : Stays n (byte i) Q :=
  fun buf => ⟨inside_byte.mpr hi, h (buf i)⟩

theorem Stays.bytes {len : ℕ} {Q : Bytes → Prop} (hi : i + len ≤ n) (h : ∀ bs, Q bs) :
    Stays n (bytes i len) Q :=
  fun _ => ⟨inside_bytes.mpr (.inr hi), h _⟩

theorem Stays.bind (hp : Stays n p Q) (hf : ∀ a, Q a → Stays n (f a) R) :
    Stays n (p >>= f) R := fun buf => by
  obtain ⟨hinside, hQ⟩ := hp buf
  obtain ⟨hinside', hR⟩ := hf _ hQ buf
  refine ⟨inside_bind.mpr ⟨hinside, hinside'⟩, ?_⟩
  show R ((p.bind f).run buf)
  rw [run_bind]
  exact hR

theorem Stays.ite [Decidable c] (hp : c → Stays n p Q) (hq : ¬c → Stays n q Q) :
    Stays n (if c then p else q) Q := by
  split_ifs with h
  · exact hp h
  · exact hq h

end Stays

/-- What is not read does not matter. -/
theorem Inside.run_eq {p : Probe α} (h : p.Inside n buf) (hbuf : ∀ i < n, buf' i = buf i) :
    p.run buf' = p.run buf ∧ p.inspected buf' = p.inspected buf := by
  induction p with
  | ret a => exact ⟨rfl, rfl⟩
  | read i k ih =>
    have hi : buf' i = buf i := hbuf i (h i List.mem_cons_self)
    obtain ⟨hrun, hinspected⟩ := ih (buf i) fun j hj => h j (List.mem_cons_of_mem i hj)
    exact ⟨by rw [run, run, hi, hrun], by rw [inspected, inspected, hi, hinspected]⟩

end Probe

/-- A program that reads a buffer, with a state and failures. -/
def Parser (σ ε α : Type) := σ → Probe (Except ε α × σ)

namespace Parser

variable {σ ε α β : Type} {n : ℕ} {buf : ℕ → UInt8} {x : Parser σ ε α} {f : α → Parser σ ε β}
  {s s' : σ} {e : ε}

instance : Monad (Parser σ ε) where
  pure a := fun s => .ret (.ok a, s)
  bind x f := fun s => (x s).bind fun r =>
    match r with
    | (.ok a, s) => f a s
    | (.error e, s) => .ret (.error e, s)

def fail (e : ε) : Parser σ ε α := fun s => .ret (.error e, s)

def get : Parser σ ε σ := fun s => .ret (.ok s, s)

def modify (g : σ → σ) : Parser σ ε Unit := fun s => .ret (.ok (), g s)

instance : MonadLift Probe (Parser σ ε) := ⟨fun p s => p.bind fun a => .ret (.ok a, s)⟩

theorem run_bind : ((x >>= f) s).run buf =
    match (x s).run buf with
    | (.ok a, s') => (f a s').run buf
    | (.error e, s') => (.error e, s') := by
  show ((x s).bind _).run buf = _
  rw [Probe.run_bind]
  rcases (x s).run buf with ⟨e | a, s'⟩ <;> rfl

theorem run_bind_congr {g : α → Parser σ ε β} (h : ∀ a s', (f a s').run buf = (g a s').run buf) :
    ((x >>= f) s).run buf = ((x >>= g) s).run buf := by
  rw [run_bind, run_bind]
  rcases (x s).run buf with ⟨e | a, s'⟩
  · rfl
  · exact h a s'

theorem run_bind_assoc {γ : Type} {g : β → Parser σ ε γ} :
    ((x >>= f >>= g) s).run buf = ((x >>= fun a => f a >>= g) s).run buf := by
  rw [run_bind, run_bind, run_bind]
  rcases (x s).run buf with ⟨e | a, s'⟩
  · rfl
  · simp [run_bind]

theorem run_bind_ok {b : β} {s'' : σ} :
    ((x >>= f) s).run buf = (.ok b, s'') ↔
      ∃ a s', (x s).run buf = (.ok a, s') ∧ (f a s').run buf = (.ok b, s'') := by
  show ((x s).bind _).run buf = _ ↔ _
  rw [Probe.run_bind]
  rcases (x s).run buf with ⟨e | a, s'⟩ <;> simp

theorem run_pure_ok {a b : α} :
    ((pure a : Parser σ ε α) s).run buf = (.ok b, s') ↔ a = b ∧ s = s' := by
  show ((.ok a, s) : Except ε α × σ) = _ ↔ _
  simp

theorem run_fail_ok {a : α} :
    ¬((fail e : Parser σ ε α) s).run buf = (.ok a, s') := nofun

theorem run_get_ok {a : σ} : ((get : Parser σ ε σ) s).run buf = (.ok a, s') ↔ s = a ∧ s = s' := by
  show ((.ok s, s) : Except ε σ × σ) = _ ↔ _
  simp

variable {g : σ → σ} {y : Parser σ ε α}

theorem run_lift_ok {p : Probe α} {a : α} :
    ((liftM p : Parser σ ε α) s).run buf = (.ok a, s') ↔ p.run buf = a ∧ s = s' := by
  show (p.bind _).run buf = _ ↔ _
  simp

theorem run_get_bind {f : σ → Parser σ ε β} : ((get >>= f) s).run buf = (f s s).run buf := rfl

theorem run_modify_bind {f : Unit → Parser σ ε β} :
    ((modify g >>= f) s).run buf = (f () (g s)).run buf := rfl

theorem run_lift_bind {p : Probe α} : ((liftM p >>= f) s).run buf = (f (p.run buf) s).run buf := by
  show ((p.bind _).bind _).run buf = _
  rw [Probe.run_bind, Probe.run_bind]
  rfl

/-- A sequence stays inside exactly when its parts do. -/
theorem inside_bind : ((x >>= f) s).Inside n buf ↔ (x s).Inside n buf ∧
    ∀ a s', (x s).run buf = (.ok a, s') → (f a s').Inside n buf := by
  show ((x s).bind _).Inside n buf ↔ _
  rw [Probe.inside_bind]
  rcases (x s).run buf with ⟨e | a, s'⟩
  · simp [Probe.inside_ret]
  · simp

/-- What follows stays inside, so the first part decides. -/
theorem inside_bind_left (h : ∀ a s', (f a s').Inside n buf) :
    ((x >>= f) s).Inside n buf ↔ (x s).Inside n buf := by
  rw [inside_bind]
  exact and_iff_left fun a s' _ => h a s'

/-- A first part that gives a result decides nothing. -/
theorem inside_bind_ok {a : α} (hx : (x s).run buf = (.ok a, s'))
    (hinside : (x s).Inside n buf) : ((x >>= f) s).Inside n buf ↔ (f a s').Inside n buf := by
  rw [inside_bind, hx]
  refine ⟨fun h => h.2 a s' rfl, fun h => ⟨hinside, ?_⟩⟩
  rintro _ _ ⟨⟩
  exact h

theorem inside_lift {p : Probe α} : ((liftM p : Parser σ ε α) s).Inside n buf ↔ p.Inside n buf := by
  show (p.bind _).Inside n buf ↔ _
  rw [Probe.inside_bind]
  simp [Probe.inside_ret]

theorem inside_pure {a : α} : ((pure a : Parser σ ε α) s).Inside n buf := Probe.inside_ret _

theorem inside_fail : ((fail e : Parser σ ε α) s).Inside n buf := Probe.inside_ret _

theorem inside_get : ((get : Parser σ ε σ) s).Inside n buf := Probe.inside_ret _

theorem inside_modify : ((modify g : Parser σ ε Unit) s).Inside n buf :=
  Probe.inside_ret _

/-! ## Results and the state with them -/

/-- From `s`, on the buffer, a result and the state with it meet `Q`. -/
def Post (buf : ℕ → UInt8) (s : σ) (x : Parser σ ε α) (Q : α → σ → Prop) : Prop :=
  ∀ a s', (x s).run buf = (.ok a, s') → Q a s'

section Post

variable {Q Q' : α → σ → Prop} {R : β → σ → Prop}

theorem Post.pure {a : α} (h : Q a s) : Post buf s (Pure.pure a : Parser σ ε α) Q :=
  fun _ _ hrun => by obtain ⟨rfl, rfl⟩ := run_pure_ok.mp hrun; exact h

theorem Post.fail : Post buf s (Parser.fail e : Parser σ ε α) Q :=
  fun _ _ hrun => absurd hrun run_fail_ok

theorem Post.modify {Q : Unit → σ → Prop} (h : Q () (g s)) :
    Post buf s (Parser.modify g : Parser σ ε Unit) Q :=
  fun _ _ hrun => by cases hrun; exact h

theorem Post.modify_bind {f : Unit → Parser σ ε β} (hf : Post buf (g s) (f ()) R) :
    Post buf s (Parser.modify g >>= f) R := hf

theorem Post.lift_bind {p : Probe α} (hf : ∀ a, p.run buf = a → Post buf s (f a) R) :
    Post buf s (liftM p >>= f) R := fun b s' hrun => hf _ rfl b s' (run_lift_bind.symm.trans hrun)

theorem Post.lift {p : Probe α} (h : Q (p.run buf) s) : Post buf s (liftM p : Parser σ ε α) Q :=
  fun _ _ hrun => by obtain ⟨rfl, rfl⟩ := run_lift_ok.mp hrun; exact h

theorem Post.bind (hx : Post buf s x Q) (hf : ∀ a s', Q a s' → Post buf s' (f a) R) :
    Post buf s (x >>= f) R := fun b s'' hrun => by
  obtain ⟨a, s', hxrun, hfrun⟩ := run_bind_ok.mp hrun
  exact hf a s' (hx a s' hxrun) b s'' hfrun

theorem Post.get {f : σ → Parser σ ε β} (hf : Post buf s (f s) R) :
    Post buf s (Parser.get >>= f) R := fun b s'' hrun => by
  obtain ⟨_, _, hget, hfrun⟩ := run_bind_ok.mp hrun
  obtain ⟨rfl, rfl⟩ := run_get_ok.mp hget
  exact hf b s'' hfrun

theorem Post.ite [Decidable c] (hx : c → Post buf s x Q) (hy : ¬c → Post buf s y Q) :
    Post buf s (if c then x else y) Q := by
  split_ifs with h
  · exact hx h
  · exact hy h

theorem Post.guard [Decidable c] (hx : ¬c → Post buf s x Q) :
    Post buf s (if c then Parser.fail e else x) Q := .ite (fun _ => .fail) hx

theorem Post.and (h : Post buf s x Q) (h' : Post buf s x Q') :
    Post buf s x fun a s' => Q a s' ∧ Q' a s' :=
  fun a s' hrun => ⟨h a s' hrun, h' a s' hrun⟩

theorem Post.mono (h : Post buf s x Q) (hQ : ∀ a s', Q a s' → Q' a s') : Post buf s x Q' :=
  fun a s' hrun => hQ a s' (h a s' hrun)

end Post

/-! ## Programs that stay inside -/

/-- From `s`, on every buffer, only indices below `n` are read, and a result meets `Q` and keeps
`key` of the state. -/
def Safe {κ : Type} (n : ℕ) (key : σ → κ) (s : σ) (x : Parser σ ε α) (Q : α → Prop) : Prop :=
  ∀ buf, (x s).Inside n buf ∧ Post buf s x fun a s' => key s' = key s ∧ Q a

section Safe

variable {κ : Type} {key : σ → κ} {Q Q' : α → Prop} {R : β → Prop}

theorem Safe.post (h : Safe n key s x Q) (buf : ℕ → UInt8) :
    Post buf s x fun a s' => key s' = key s ∧ Q a := (h buf).2

theorem Safe.inside (h : Safe n key s x Q) (buf : ℕ → UInt8) : (x s).Inside n buf := (h buf).1

theorem Safe.pure {a : α} (h : Q a) : Safe n key s (Pure.pure a : Parser σ ε α) Q :=
  fun _ => ⟨inside_pure, .pure ⟨rfl, h⟩⟩

theorem Safe.fail : Safe n key s (Parser.fail e : Parser σ ε α) Q :=
  fun _ => ⟨inside_fail, .fail⟩

theorem Safe.modify {Q : Unit → Prop} (h : key (g s) = key s) (hQ : Q ()) :
    Safe n key s (Parser.modify g : Parser σ ε Unit) Q :=
  fun _ => ⟨inside_modify, .modify ⟨h, hQ⟩⟩

theorem Safe.lift {p : Probe α} (h : p.Stays n Q) : Safe n key s (liftM p : Parser σ ε α) Q :=
  fun buf => ⟨inside_lift.mpr (h buf).1, .lift ⟨rfl, (h buf).2⟩⟩

theorem Safe.bind (hx : Safe n key s x Q)
    (hf : ∀ a s', key s' = key s → Q a → Safe n key s' (f a) R) : Safe n key s (x >>= f) R :=
  fun buf => by
    obtain ⟨hinside, hpost⟩ := hx buf
    refine ⟨inside_bind.mpr ⟨hinside, fun a s' hrun => ?_⟩, hpost.bind fun a s' ⟨hkey, hQ⟩ => ?_⟩
    · obtain ⟨hkey, hQ⟩ := hpost a s' hrun
      exact (hf a s' hkey hQ buf).1
    · exact (hf a s' hkey hQ buf).2.mono fun _ _ ⟨hkey', hR⟩ => ⟨hkey'.trans hkey, hR⟩

theorem Safe.modify_bind {f : Unit → Parser σ ε β} (h : key (g s) = key s)
    (hf : Safe n key (g s) (f ()) R) : Safe n key s (Parser.modify g >>= f) R := fun buf => by
  refine ⟨(inside_bind_ok rfl inside_modify).mpr (hf buf).1, ?_⟩
  refine Post.bind (Q := fun _ s' => s' = g s) (.modify rfl) fun _ s' hs' => ?_
  subst hs'
  exact (hf buf).2.mono fun _ _ ⟨hkey, hR⟩ => ⟨hkey.trans h, hR⟩

theorem Safe.get {f : σ → Parser σ ε β} (hf : Safe n key s (f s) R) :
    Safe n key s (Parser.get >>= f) R := fun buf =>
  ⟨inside_bind.mpr ⟨inside_get, fun _ _ hrun => by
      obtain ⟨rfl, rfl⟩ := run_get_ok.mp hrun
      exact (hf buf).1⟩,
    .get (hf buf).2⟩

theorem Safe.ite [Decidable c] (hx : c → Safe n key s x Q) (hy : ¬c → Safe n key s y Q) :
    Safe n key s (if c then x else y) Q := by
  split_ifs with h
  · exact hx h
  · exact hy h

theorem Safe.guard [Decidable c] (hx : ¬c → Safe n key s x Q) :
    Safe n key s (if c then Parser.fail e else x) Q := .ite (fun _ => .fail) hx

/-- To stay inside, nothing of the state has to be kept. -/
theorem inside_of_safe (h : Safe n (fun _ => ()) s x fun _ => True) (buf : ℕ → UInt8) :
    (x s).Inside n buf := h.inside buf

theorem Safe.weaken {κ' : Type} {key' : σ → κ'} (h : Safe n key s x Q)
    (hkey : ∀ s s', key s' = key s → key' s' = key' s) : Safe n key' s x Q :=
  fun buf => ⟨(h buf).1, (h buf).2.mono fun _ s' ⟨hs', ha⟩ => ⟨hkey s s' hs', ha⟩⟩

end Safe

end Parser

end VigorTls.Lib
