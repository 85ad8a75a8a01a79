import Mathlib.Algebra.Ring.Nat
import VigorTls.Hello.Walkers

/-!
# The names in a server name extension

`ssl_scan_clienthello_tlsext` walks over the names with a pointer and the number of bytes left. The
number goes down by the whole entry, but the pointer only moves past the type and the length: lists
are read as they should be exactly where every name but the last is empty, and the last one is not
(`server_names_iff`).
-/

namespace VigorTls.Hello

open Lib Parser List

variable {a b p data size fuel len : ℕ} {s : Server} {buf : ℕ → UInt8} {lens : List ℕ}
  {names : List (UInt8 × Bytes)}

/-- The bytes from `a` to `b` are these names, each with its type. -/
inductive Names (buf : ℕ → UInt8) : ℕ → ℕ → List (UInt8 × Bytes) → Prop
  | nil (a : ℕ) : Names buf a a []
  | cons {a b : ℕ} {names : List (UInt8 × Bytes)}
    (h : Names buf (a + 3 + be16 buf (a + 1)) b names) :
    Names buf a b ((buf a, (Probe.bytes (a + 3) (be16 buf (a + 1))).run buf) :: names)

theorem Names.le (h : Names buf a b names) : a + 3 * names.length ≤ b := by
  induction h with
  | nil a => exact Nat.le_refl a
  | cons _ ih => simp only [length_cons]; omega

abbrev nameLengths (names : List (UInt8 × Bytes)) : List ℕ := names.map (·.2.length)

def firstHostName (names : List (UInt8 × Bytes)) : Option Bytes :=
  (names.find? (·.1 = 0)).map (·.2)

/-- What a server knows after these names: the first host name, unless it had one. -/
def Server.named (s : Server) (names : List (UInt8 × Bytes)) : Server :=
  match if s.servername_done then none else firstHostName names with
  | none => s
  | some name =>
    { s with
      session := s.session.map fun ss => { ss with tlsext_hostname := some name }
      servername_done := true }

/-- For a new session no name is known. -/
structure Nameless (s : Server) : Prop where
  hit : s.hit = false
  hostname : s.session.bind (·.tlsext_hostname) = none
  servername_done : s.servername_done = false

/-- A well-formed list leaves its first host name, where that may be kept, and one whose last name
does not end with it is refused. -/
structure NamesRead (lens : List ℕ) : Prop where
  kept : ∀ cfg buf data size s names, Nameless s → 2 + be16 buf data ≤ size →
    Names buf (data + 2) (data + 2 + be16 buf data) names → nameLengths names = lens →
    (∀ name, firstHostName names = some name → name.length ≤ tlsextMaxlenHostName ∧ 0 ∉ name) →
    (scanExtension cfg tlsextTypeServerName data size s).run buf = (.ok (), s.named names)
  refused : ∀ cfg buf data size s names p, Names buf (data + 2) p names →
    nameLengths names = lens.dropLast → p < data + 2 + be16 buf data →
    data + 2 + be16 buf data < p + 3 + be16 buf (p + 1) →
    ∀ s', (scanExtension cfg tlsextTypeServerName data size s).run buf ≠ (.ok (), s')

def OnlyLastFilled : List ℕ → Prop
  | [] => True
  | [len] => len ≠ 0
  | len :: lens => len = 0 ∧ OnlyLastFilled lens

/-- The first host name may be kept, unless there is one. -/
def Keepable (s : Server) (names : List (UInt8 × Bytes)) : Prop :=
  s.servername_done = false → Nameless s ∧ ∀ name, firstHostName names = some name →
    name.length ≤ tlsextMaxlenHostName ∧ 0 ∉ name

theorem Keepable.step {x : UInt8 × Bytes} (h : Keepable s (x :: names)) :
    Keepable s [x] ∧ Keepable (s.named [x]) names ∧
      (s.named [x]).named names = s.named (x :: names) := by
  unfold Keepable Server.named firstHostName at *
  cases hdone : s.servername_done with
  | true => simp [hdone]
  | false =>
    by_cases hx : x.1 = 0
    · simp_all
    · simp_all

theorem scanName_run {type : UInt8} {sdata : ℕ}
    (h : Keepable s [(type, (Probe.bytes sdata len).run buf)]) :
    (scanName type sdata len s).run buf =
      (.ok (), s.named [(type, (Probe.bytes sdata len).run buf)]) := by
  unfold scanName
  rw [run_get_bind]
  cases hdone : s.servername_done with
  | true => simp [Server.named, hdone]; rfl
  | false =>
    obtain ⟨⟨hhit, hhost, -⟩, hname⟩ := h hdone
    by_cases htype : type = 0
    · obtain ⟨hlen, hzero⟩ := hname _ (by simp only [htype]; rfl)
      rw [Probe.run_bytes, length_map, length_range] at hlen
      simp only [htype, Bool.not_false, Bool.true_and, decide_true, if_true, scanHostName]
      rw [run_get_bind]
      simp only [hhit, hhost, Bool.not_false, if_true, Option.isSome_none, Bool.false_eq_true,
        if_false]
      rw [if_neg (Nat.not_lt.mpr hlen), run_lift_bind, if_neg hzero]
      simp [Server.named, hdone]
      rfl
    · simp [htype, Server.named, firstHostName]
      rfl

theorem serverNameLoop_end : (serverNameLoop fuel a 0 s).run buf = (.ok 0, s) := by
  cases fuel with
  | zero => rfl
  | succ fuel => rfl

theorem serverNameLoop_names (h : Names buf a b names) (hlens : OnlyLastFilled (nameLengths names))
    (hfuel : b - a ≤ fuel) (hs : Keepable s names) :
    (serverNameLoop fuel a (b - a) s).run buf = (.ok 0, s.named names) := by
  induction h generalizing fuel s with
  | nil a =>
    rw [Nat.sub_self, serverNameLoop_end]
    simp [Server.named, firstHostName]
  | @cons a b names h ih =>
    obtain ⟨hx, hrest, hnamed⟩ := hs.step
    have hle := h.le
    have hlen : ((Probe.bytes (a + 3) (be16 buf (a + 1))).run buf).length = be16 buf (a + 1) := by
      simp [Probe.run_bytes]
    have hlong : 3 < b - a := by
      cases names with
      | nil =>
        have : be16 buf (a + 1) ≠ 0 := hlen ▸ hlens
        omega
      | cons x names => simp only [length_cons] at hle; omega
    have hfit : be16 buf (a + 1) ≤ b - a - 3 := by omega
    obtain ⟨fuel, rfl⟩ : ∃ k, fuel = k + 1 := ⟨fuel - 1, by omega⟩
    rw [serverNameLoop, if_pos hlong, run_lift_bind, run_lift_bind, if_neg (Nat.not_lt.mpr hfit),
      run_bind, ← hnamed]
    rw [show (scanName ((Probe.byte a).run buf) (a + 3) ((n2s (a + 1)).run buf) s).run buf = _ from
      scanName_run hx]
    show (serverNameLoop fuel (a + 3) (b - a - 3 - be16 buf (a + 1))
      (s.named [(buf a, (Probe.bytes (a + 3) (be16 buf (a + 1))).run buf)])).run buf = _
    generalize s.named [(buf a, (Probe.bytes (a + 3) (be16 buf (a + 1))).run buf)] = s1 at hrest ⊢
    cases names with
    | nil =>
      cases h
      rw [show a + 3 + be16 buf (a + 1) - a - 3 - be16 buf (a + 1) = 0 by omega, serverNameLoop_end]
      simp [Server.named, firstHostName]
    | cons x names =>
      -- The pointer is where the next name is, as this one is empty.
      have hzero : be16 buf (a + 1) = 0 := hlen.symm.trans hlens.1
      rw [hzero] at ih ⊢
      exact ih hlens.2 (by omega) hrest

theorem serverNameLoop_refused {dsize : ℕ} (hdsize : 0 < dsize)
    (h : ∀ k, 3 < dsize → be16 buf (a + 1) ≤ dsize - 3 →
      Post buf s (scanName (buf a) (a + 3) (be16 buf (a + 1)) >>= fun _ =>
      serverNameLoop k (a + 3) (dsize - 3 - be16 buf (a + 1))) fun left _ => 0 < left) :
    Post buf s (serverNameLoop fuel a dsize) fun left _ => 0 < left := by
  cases fuel with
  | zero => exact .pure hdsize
  | succ fuel =>
    refine .ite (fun hlong => .lift_bind ?_) fun _ => .pure hdsize
    rintro _ ⟨⟩
    refine .lift_bind ?_
    rintro _ ⟨⟩
    exact .guard fun hfit => h fuel hlong (Nat.not_lt.mp hfit)

theorem scanServerName_refused
    (h : Post buf s (serverNameLoop (be16 buf data) (data + 2) (be16 buf data)) fun left _ =>
      0 < left) :
    Post buf s (scanServerName data size) fun _ _ => False := by
  refine .guard fun _ => .lift_bind ?_
  rintro _ ⟨⟩
  refine .guard fun _ => .bind h fun _ _ hleft => .guard fun h => ?_
  exact absurd (Nat.pos_iff_ne_zero.mp hleft) h

theorem serverNameLoop_stuck (h : Names buf a p names) (hlens : ∀ x ∈ names, x.2.length = 0)
    (hp : p < b) (hstuck : b < p + 3 + be16 buf (p + 1)) :
    Post buf s (serverNameLoop fuel a (b - a)) fun left _ => 0 < left := by
  have hle := h.le
  induction h generalizing fuel s with
  | nil a => exact serverNameLoop_refused (by omega) fun _ _ _ => by omega
  | @cons a p names h ih =>
    have hzero : be16 buf (a + 1) = 0 := by simpa [Probe.run_bytes] using hlens _ mem_cons_self
    refine serverNameLoop_refused (by omega) fun k _ _ => ?_
    refine .bind (Q := fun _ _ => True) (fun _ _ _ => trivial) fun _ _ _ => ?_
    have hle := h.le
    rw [hzero] at ih hle ⊢
    exact ih (fun x hx => hlens x (mem_cons_of_mem _ hx)) hp hstuck hle

theorem OnlyLastFilled.dropLast : ∀ {lens : List ℕ}, OnlyLastFilled lens →
    ∀ len ∈ lens.dropLast, len = 0
  | [], _ => nofun
  | [_], _ => nofun
  | _ :: _ :: _, h => forall_mem_cons.mpr ⟨h.1, OnlyLastFilled.dropLast h.2⟩

theorem OnlyLastFilled.read (h : OnlyLastFilled lens) : NamesRead lens where
  kept cfg buf data size s names hs hsize hnames hlens hname := by
    have hloop : (serverNameLoop (be16 buf data) (data + 2) (data + 2 + be16 buf data - (data + 2))
        s).run buf = _ := serverNameLoop_names hnames (hlens ▸ h) (by omega) fun _ => ⟨hs, hname⟩
    rw [Nat.add_sub_cancel_left] at hloop
    have hfit : ¬be16 buf data > size - 2 := by omega
    show (scanServerName data size s).run buf = _
    rw [scanServerName, if_neg (by omega), run_lift_bind, if_neg hfit, run_bind,
      show (serverNameLoop ((n2s data).run buf) _ ((n2s data).run buf) s).run buf = _ from hloop]
    rfl
  refused cfg buf data size s names p hnames hlens hp hstuck := by
    have hempty : ∀ x ∈ names, x.2.length = 0 := fun x hx =>
      h.dropLast _ (hlens ▸ mem_map_of_mem hx)
    refine fun s' => scanServerName_refused ?_ _ s'
    have hloop : Post buf s (serverNameLoop (be16 buf data) (data + 2) _) _ :=
      serverNameLoop_stuck hnames hempty hp hstuck
    rwa [Nat.add_sub_cancel_left] at hloop

/-- How long a list with names of these lengths is. -/
def listSize (lens : List ℕ) : ℕ := (lens.map (3 + ·)).sum

/-- A pointer in the first nonempty name finds a host name there that is too long. -/
def trap : List ℕ → ℕ → UInt8
  | [], _ => 0
  | len :: lens, i =>
    if i = 0 then 1
    else if i = 1 then .ofNat (len / 256)
    else if i = 2 then .ofNat len
    else if i < 3 + len then if i = 4 then 1 else 0
    else trap lens (i - (3 + len))

theorem be16_trap (h : ∀ i, buf (a + i) = trap (len :: lens) i) (hlen : len < 2 ^ 16) :
    be16 buf (a + 1) = len := by
  show (buf (a + 1)).toNat * 256 + (buf (a + 1 + 1)).toNat = len
  rw [h 1, h 2]
  simp [trap]
  omega

theorem trap_tail (h : ∀ i, buf (a + i) = trap (len :: lens) i) (i : ℕ) :
    buf (a + 3 + len + i) = trap lens i := by
  have hi : 3 + len + i - (3 + len) = i := by omega
  rw [Nat.add_assoc a, Nat.add_assoc a, h, trap, if_neg (by omega), if_neg (by omega),
    if_neg (by omega), if_neg (by omega), hi]

theorem names_trap (h : ∀ i, buf (a + i) = trap lens i) (hfit : listSize lens < 2 ^ 16) :
    ∃ names, Names buf a (a + listSize lens) names ∧ nameLengths names = lens ∧
      firstHostName names = none := by
  induction lens generalizing a with
  | nil => exact ⟨[], .nil a, rfl, rfl⟩
  | cons len lens ih =>
    have hsize : listSize (len :: lens) = 3 + len + listSize lens := sum_cons
    have hlen := be16_trap h (by omega)
    obtain ⟨names, hnames, hlens, hhost⟩ := ih (trap_tail h) (by omega)
    have hnext : Names buf (a + 3 + be16 buf (a + 1)) (a + listSize (len :: lens)) names := by
      rw [hlen, hsize, ← Nat.add_assoc, ← Nat.add_assoc]
      exact hnames
    refine ⟨_, .cons hnext, by simp [Probe.run_bytes, hlen, hlens], ?_⟩
    simpa [firstHostName, show buf a = 1 from h 0] using hhost

theorem serverNameLoop_inside (hs : Nameless s) (htype : buf a = 0) (hlen : buf (a + 1) = 1)
    {dsize : ℕ} (hdsize : 0 < dsize) :
    Post buf s (serverNameLoop fuel a dsize) fun left _ => 0 < left := by
  refine serverNameLoop_refused hdsize fun k _ _ => ?_
  refine .bind (Q := fun _ _ => False) (.get ?_) fun _ _ h => h.elim
  have hlong : be16 buf (a + 1) > tlsextMaxlenHostName := by
    show (buf (a + 1)).toNat * 256 + _ > 255
    rw [hlen]
    exact Nat.lt_add_right _ (by decide)
  rw [htype, hs.servername_done]
  refine .get (.ite (fun _ => .guard fun _ => .guard fun h => absurd hlong h) fun h => ?_)
  exact absurd hs.hit (by simpa using h)

theorem serverNameLoop_trap (h : ∀ i, buf (a + i) = trap lens i) (hfit : listSize lens < 2 ^ 16)
    (hlens : ¬OnlyLastFilled lens) (hs : Nameless s) :
    Post buf s (serverNameLoop fuel a (listSize lens)) fun left _ => 0 < left := by
  induction lens generalizing a fuel with
  | nil => exact absurd trivial hlens
  | cons len lens ih =>
    have hsize : listSize (len :: lens) = 3 + len + listSize lens := sum_cons
    refine serverNameLoop_refused (by omega) fun k hlong _ => ?_
    rw [be16_trap h (by omega), show buf a = 1 from h 0,
      show listSize (len :: lens) - 3 - len = listSize lens by omega]
    refine .bind (Q := fun _ s' => s' = s) (.get (.ite (fun h' => ?_) fun _ => .pure rfl)) ?_
    · simp at h'
    rintro _ _ rfl
    cases lens with
    | nil =>
      have hlast : len ≠ 0 := fun hzero => by simp [hzero, listSize] at hlong
      exact absurd hlast hlens
    | cons len' lens =>
      by_cases hzero : len = 0
      · subst hzero
        exact ih (trap_tail h) (by omega) fun h' => hlens ⟨rfl, h'⟩
      have hnext : listSize (len' :: lens) = 3 + len' + listSize lens := sum_cons
      refine serverNameLoop_inside hs ?_ ?_ (by omega)
      · rw [h 3]
        simp [trap]
        omega
      · rw [h 4]
        simp [trap]
        omega

/-- The lists that are read: the last name has bytes, and no other. -/
theorem server_names_iff (lens : List ℕ) (hfit : listSize lens < 2 ^ 16) :
    NamesRead lens ↔ OnlyLastFilled lens := by
  refine ⟨fun h => ?_, OnlyLastFilled.read⟩
  by_contra hlens
  let buf : ℕ → UInt8 := fun i =>
    if i = 0 then .ofNat (listSize lens / 256) else if i = 1 then .ofNat (listSize lens)
    else trap lens (i - 2)
  have hbuf i : buf (0 + 2 + i) = trap lens i := by
    show (if _ then _ else if _ then _ else _) = _
    rw [if_neg (by omega), if_neg (by omega), Nat.add_sub_cancel_left]
  have hdsize : be16 buf 0 = listSize lens := by
    show (UInt8.ofNat (listSize lens / 256)).toNat * 256 + (UInt8.ofNat (listSize lens)).toNat = _
    simp
    omega
  obtain ⟨names, hnames, hlens', hhost⟩ := names_trap hbuf hfit
  have hrun := h.kept { keys := sampleKeys } buf 0 (2 + listSize lens) sampleServer names
    ⟨rfl, rfl, rfl⟩ (by omega) (hdsize ▸ hnames) hlens' (by simp [hhost])
  refine scanServerName_refused ?_ _ _ hrun
  rw [hdsize]
  exact serverNameLoop_trap hbuf hfit hlens ⟨rfl, rfl, rfl⟩

/-- The host name after a name of another type is lost: the list is refused. -/
theorem server_names_lost :
    let buf := bufferOf [0, 10, 1, 0, 1, 120, 0, 0, 3, 97, 46, 98] 0
    (∃ names, Names buf 2 12 names ∧ firstHostName names = some [97, 46, 98]) ∧
      ((scanExtension { keys := sampleKeys } tlsextTypeServerName 0 12 sampleServer).run buf).1 =
        .error (.alert sslAdDecodeError) :=
  ⟨⟨_, .cons (.cons (.nil 12)), by decide +kernel⟩, by decide +kernel⟩

/-- An empty name and one of three bytes. -/
theorem server_names_two : NamesRead [0, 3] :=
  (server_names_iff [0, 3] (by decide)).mpr ⟨rfl, show 3 ≠ 0 by decide⟩

end VigorTls.Hello
