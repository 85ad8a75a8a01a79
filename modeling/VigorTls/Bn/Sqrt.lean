import Mathlib.Tactic.NormNum.LegendreSymbol
import VigorTls.Bn.Kronecker

/-!
# The loops of `BN_mod_sqrt`

`BN_mod_sqrt` of `crypto/bn/bn_sqrt.c` on integers, with fuel for the loops that count up. The loop
of Tonelli and Shanks looks in each pass for the order of `b`. The guard is `i == e` after `i` has
been made 2, so it holds back the search only if `e` is at least 2 (`passEnds_iff`). A pass with `e
= 1` and `b ≠ 1` has no bound; it does not occur for a prime (`heads_end`), but for 65 and 14
the search goes round in a circle (`mod_sqrt_hangs`).
-/

namespace VigorTls.Bn

open Int Option

/-- `while (!BN_is_bit_set(p, e)) e++`. -/
def bitSearch (m : ℕ) : ℕ → ℕ → Option ℕ
  | 0, _ => none
  | fuel + 1, e => if m.testBit e then some e else bitSearch m fuel (e + 1)

/-- The number that is tried; `rand` is what `BN_pseudo_rand` gives. -/
def candidate (m : ℕ) (rand : ℕ → ℕ) (i : ℕ) : ℕ :=
  if i < 22 then i
  else
    let y := if rand i ≥ m then rand i - m else rand i
    if y = 0 then i else y

/-- The loop that looks for a non-square, with `n` numbers to go. -/
def nonSquare (m : ℕ) (rand : ℕ → ℕ) : ℕ → ℕ → Option ℕ
  | n, i =>
    let y := candidate m rand i
    let r := bnKronecker y m
    if r = 0 then none
    else if r = 1 then
      match n with
      | 0 => none
      | n + 1 => nonSquare m rand n (i + 1)
    else some y

/-- The variables of the loop of Tonelli and Shanks. -/
structure SqrtState where
  e : ℕ
  x : ℤ
  y : ℤ
  b : ℤ

/-- What comes before the loop when `e > 2`. -/
def start (rand : ℕ → ℕ) (A : ℤ) (m e : ℕ) : Except (Option ℤ) SqrtState :=
  match nonSquare m rand 79 2 with
  | none => .error none
  | some y =>
    let q := m / 2 ^ e
    let y := (y : ℤ) ^ q % m
    if y = 1 then .error none
    else
      let t := q / 2
      let x := if t = 0 then 1 else A ^ t % m
      if (if t = 0 then A else x) = 0 then .error (some 0)
      else .ok ⟨e, x * A % m, y, x * x % m * A % m⟩

/-- The search for the order of `b`; `some none` is `BN_R_NOT_A_SQUARE`. -/
def orderSearch (m e : ℕ) : ℕ → ℕ → ℤ → Option (Option ℕ)
  | 0, _, _ => none
  | fuel + 1, i, t =>
    if t = 1 then some (some i)
    else if i + 1 = e then some none
    else orderSearch m e fuel (i + 1) (t * t % m)

/-- A pass of the loop: it leaves with `ret` or an error, or goes on. -/
def pass (m fuel : ℕ) (s : SqrtState) : Option (Except (Option ℤ) SqrtState) :=
  if s.b = 1 then some (.error (some s.x))
  else
    (orderSearch m s.e fuel 1 (s.b * s.b % m)).map fun
    | none => .error none
    | some i =>
      let t := (fun t => t * t % (m : ℤ))^[s.e - i - 1] s.y
      let y := t * t % m
      .ok ⟨i, s.x * t % m, y, s.b * y % m⟩

def passes (m fuel : ℕ) : ℕ → SqrtState → Option (Option ℤ)
  | 0, _ => none
  | n + 1, s =>
    (pass m fuel s).bind fun
    | .error r => some r
    | .ok s => passes m fuel n s

/-- What is done at the label `vrfy`. -/
def verify (A : ℤ) (m : ℕ) (ret : ℤ) : Option ℤ := if ret * ret % m = A then some ret else none

/-- `BN_mod_sqrt`: none if the fuel is not enough, and `some none` for `NULL`. -/
def bnModSqrt (rand : ℕ → ℕ) (a p : ℤ) (fuel : ℕ) : Option (Option ℤ) :=
  if p % 2 = 0 ∨ p.natAbs = 1 then some (if p.natAbs = 2 then some (a % 2) else none)
  else if a = 0 ∨ a = 1 then some (some a)
  else
    let m := p.natAbs
    let A := a % m
    (bitSearch m fuel 1).bind fun e =>
      if e = 1 then some (verify A m (A ^ (m / 4 + 1) % m))
      else if e = 2 then
        let t := if 2 * A ≥ p then 2 * A - p else 2 * A
        let b := t ^ (m / 8) % m
        let t := t * (b * b % m) % m - 1
        some (verify A m (A * b % m * t % m))
      else
        match start rand A m e with
        | .error r => some r
        | .ok s => (passes m fuel fuel s).map (·.bind (verify A m))

theorem bitSearch_spec {m : ℕ} : ∀ {fuel e : ℕ}, m % 2 ^ e = 1 →
    match bitSearch m fuel e with
    | none => m % 2 ^ (e + fuel) = 1
    | some e' => e ≤ e' ∧ e' < m ∧ m % 2 ^ e' = 1
  | 0, e, h => h
  | fuel + 1, e, h => by
    rw [bitSearch]
    by_cases hbit : m.testBit e
    · rw [if_pos hbit]
      exact ⟨le_refl e, Nat.lt_two_pow_self.trans_le (Nat.ge_two_pow_of_testBit hbit), h⟩
    have hnext : m % 2 ^ (e + 1) = 1 := by
      rw [Nat.testBit_eq_decide_div_mod_eq, decide_eq_true_eq] at hbit
      rw [Nat.mod_pow_succ, h, show m / 2 ^ e % 2 = 0 by omega, Nat.mul_zero]
    rw [if_neg hbit]
    have ih := @bitSearch_spec m fuel (e + 1) hnext
    cases hsearch : bitSearch m fuel (e + 1) with
    | none =>
      rw [hsearch] at ih
      rwa [show e + (fuel + 1) = e + 1 + fuel by omega]
    | some e' =>
      rw [hsearch] at ih
      exact ⟨by omega, ih.2⟩

variable {fuel m e : ℕ}

theorem bitSearch_isSome (hodd : m % 2 = 1) (hone : m ≠ 1) (hfuel : m ≤ fuel) :
    ∃ e, bitSearch m fuel 1 = some e := by
  have hspec := @bitSearch_spec m fuel 1 hodd
  cases hsearch : bitSearch m fuel 1 with
  | none =>
    rw [hsearch] at hspec
    have hlt : m < 2 ^ (1 + fuel) := Nat.lt_of_lt_of_le Nat.lt_two_pow_self
      (Nat.pow_le_pow_right (by decide) (by omega))
    exact absurd ((Nat.mod_eq_of_lt hlt).symm.trans hspec) hone
  | some e => exact ⟨e, rfl⟩

/-- The search of a pass ends before `e` steps, and the loop is left or goes on with a smaller
`e`. -/
def PassEnds (m : ℕ) (s : SqrtState) : Prop :=
  ∃ r, pass m s.e s = some r ∧ ∀ s', r = .ok s' → s'.e < s.e

theorem orderSearch_ends : ∀ {fuel i : ℕ} {t : ℤ}, i < e → e ≤ i + fuel →
    ∃ r, orderSearch m e fuel i t = some r
  | 0, _, _, hi, hfuel => by omega
  | fuel + 1, i, t, hi, hfuel => by
    rw [orderSearch]
    split_ifs with hone hend
    · exact ⟨_, rfl⟩
    · exact ⟨_, rfl⟩
    · exact orderSearch_ends (by omega) (by omega)

theorem orderSearch_lt {k : ℕ} : ∀ {fuel i : ℕ} {t : ℤ}, i < e →
    orderSearch m e fuel i t = some (some k) → k < e
  | fuel + 1, i, t, hi, h => by
    rw [orderSearch] at h
    split_ifs at h with hone hend
    · exact Option.some.inj (Option.some.inj h) ▸ hi
    · cases h
    · exact orderSearch_lt (by omega) h

variable {s : SqrtState} {rand : ℕ → ℕ}

theorem pass_ok {s' : SqrtState} (h : pass m fuel s = some (.ok s')) :
    s.b ≠ 1 ∧ ∃ i, orderSearch m s.e fuel 1 (s.b * s.b % m) = some (some i) ∧
      ∃ t, t = (fun t => t * t % (m : ℤ))^[s.e - i - 1] s.y ∧
        s' = ⟨i, s.x * t % m, t * t % m, s.b * (t * t % m) % m⟩ := by
  unfold pass at h
  by_cases hb : s.b = 1
  · rw [if_pos hb] at h
    cases h
  rw [if_neg hb] at h
  obtain ⟨r, hr, hs'⟩ := map_eq_some_iff.mp h
  cases r with
  | none => cases hs'
  | some i =>
    cases hs'
    exact ⟨hb, i, hr, _, rfl, rfl⟩

theorem pass_ends (h : s.b = 1 ∨ 2 ≤ s.e) (hfuel : s.e ≤ fuel) :
    ∃ r, pass m fuel s = some r ∧ ∀ s', r = .ok s' → s'.e < s.e := by
  have hlt (s') (hpass : pass m fuel s = some (.ok s')) : s'.e < s.e := by
    obtain ⟨hb, i, hi, t, -, rfl⟩ := pass_ok hpass
    exact orderSearch_lt (by have := h.resolve_left hb; omega) hi
  cases hpass : pass m fuel s with
  | some r => exact ⟨r, rfl, fun s' hs' => hlt s' (by rw [hpass, hs'])⟩
  | none =>
    unfold pass at hpass
    split_ifs at hpass with hb
    obtain ⟨r, hr⟩ := @orderSearch_ends m s.e fuel 1 (s.b * s.b % m)
      (by have := h.resolve_left hb; omega) (by omega)
    rw [hr] at hpass
    cases hpass

theorem passEnds_iff (he : 1 ≤ s.e) : PassEnds m s ↔ s.b = 1 ∨ 2 ≤ s.e := by
  refine ⟨fun ⟨r, hr, hlt⟩ => ?_, fun h => pass_ends h (le_refl _)⟩
  by_contra hnot
  rw [not_or] at hnot
  have he1 : s.e = 1 := by omega
  -- The search is over at once, with an order that is not smaller, or does not come to its guard.
  rw [pass, if_neg hnot.1, he1, orderSearch, if_neg (show 1 + 1 ≠ 1 by decide)] at hr
  split_ifs at hr with hone
  · cases hr
    exact absurd (hlt _ rfl) (by simp [he1])
  · cases hr

inductive Head (m : ℕ) (s₀ : SqrtState) : SqrtState → Prop
  | start : Head m s₀ s₀
  | next {s s' : SqrtState} {fuel : ℕ} (h : Head m s₀ s) (hpass : pass m fuel s = some (.ok s')) :
    Head m s₀ s'

theorem Head.cons {s' s'' : SqrtState} (hpass : pass m fuel s = some (.ok s'))
    (h : Head m s' s'') : Head m s s'' := by
  induction h with
  | start => exact .next .start hpass
  | next _ hpass ih => exact ih.next hpass

theorem passes_ends {m fuel : ℕ} : ∀ {n : ℕ} {s : SqrtState},
    (∀ s', Head m s s' → s'.b = 1 ∨ 2 ≤ s'.e) → s.e < n → s.e ≤ fuel →
      ∃ r, passes m fuel n s = some r
  | 0, _, _, hn, _ => by omega
  | n + 1, s, h, hn, hfuel => by
    obtain ⟨r, hr, hlt⟩ := pass_ends (m := m) (h s .start) hfuel
    rw [passes, hr]
    cases r with
    | error r => exact ⟨r, rfl⟩
    | ok s' =>
      have hsmaller := hlt s' rfl
      exact passes_ends (fun s'' hs'' => h s'' (.cons hr hs'')) (by omega) (by omega)

/-- The states at the head of the loop in a call. -/
def Heads (rand : ℕ → ℕ) (a p : ℤ) (s : SqrtState) : Prop :=
  ∃ fuel e s₀, bitSearch p.natAbs fuel 1 = some e ∧ 2 < e ∧
    start rand (a % p.natAbs) p.natAbs e = .ok s₀ ∧ Head p.natAbs s₀ s

theorem start_e {A : ℤ} (h : start rand A m e = .ok s) : s.e = e := by
  unfold start at h
  split at h
  · cases h
  · dsimp only at h
    split_ifs at h <;> cases h <;> rfl

theorem bnModSqrt_ends {a p : ℤ} (h : ∀ s, Heads rand a p s → s.b = 1 ∨ 2 ≤ s.e) :
    ∃ fuel, (bnModSqrt rand a p fuel).isSome := by
  refine ⟨p.natAbs + 1, ?_⟩
  unfold bnModSqrt
  by_cases heven : p % 2 = 0 ∨ p.natAbs = 1
  · rw [if_pos heven]
    rfl
  by_cases hsmall : a = 0 ∨ a = 1
  · rw [if_neg heven, if_pos hsmall]
    rfl
  rw [if_neg heven, if_neg hsmall]
  have hodd : p.natAbs % 2 = 1 := by omega
  obtain ⟨e, he⟩ := bitSearch_isSome hodd (by omega) (Nat.le_succ _)
  have hspec := @bitSearch_spec p.natAbs (p.natAbs + 1) 1 hodd
  rw [he] at hspec
  dsimp only
  rw [he, bind_some]
  by_cases h1 : e = 1
  · rw [if_pos h1]
    rfl
  by_cases h2 : e = 2
  · rw [if_neg h1, if_pos h2]
    rfl
  rw [if_neg h1, if_neg h2]
  cases hstart : start rand (a % p.natAbs) p.natAbs e with
  | error r => rfl
  | ok s0 =>
    have hs0 := start_e hstart
    obtain ⟨r, hr⟩ := @passes_ends p.natAbs (p.natAbs + 1) (p.natAbs + 1) s0
      (fun s hs => h s ⟨_, e, s0, he, by omega, hstart, hs⟩) (by omega) (by omega)
    dsimp only
    rw [hr]
    rfl

section

variable {m : ℕ}

theorem eq_one_of_cast (hm : 1 < m) {t : ℤ} (ht : t % m = t) (h : (t : ZMod m) = 1) : t = 1 := by
  rw [← cast_one, ZMod.intCast_eq_intCast_iff', ht] at h
  rw [h]
  exact emod_eq_of_lt (by decide) (by exact_mod_cast hm)

theorem orderSearch_spec (hm : 1 < m) {k : ℕ} {β : ZMod m} : ∀ {fuel i : ℕ} {t : ℤ},
    orderSearch m e fuel (i + 1) t = some (some k) → t % m = t → (t : ZMod m) = β ^ 2 ^ (i + 1) →
    β ^ 2 ^ i ≠ 1 → ∃ j, k = j + 1 ∧ β ^ 2 ^ (j + 1) = 1 ∧ β ^ 2 ^ j ≠ 1
  | 0, _, _, h, _, _, _ => nomatch h
  | fuel + 1, i, t, h, ht, hpow, hne => by
    rw [orderSearch] at h
    split_ifs at h with hone hend
    · obtain rfl := Option.some.inj (Option.some.inj h)
      rw [hone, cast_one] at hpow
      exact ⟨i, rfl, hpow.symm, hne⟩
    · cases h
    · refine orderSearch_spec hm h (emod_emod_of_dvd _ (dvd_refl _)) ?_ fun hpow' => ?_
      · rw [ZMod.intCast_mod, cast_mul, hpow, ← pow_add, ← mul_two, ← pow_succ]
      · exact hone (eq_one_of_cast hm ht (hpow.trans hpow'))

theorem iterate_sqr (y : ℤ) (n : ℕ) :
    (((fun t => t * t % (m : ℤ))^[n] y : ℤ) : ZMod m) = (y : ZMod m) ^ 2 ^ n := by
  induction n with
  | zero => simp
  | succ n ih =>
    rw [Function.iterate_succ_apply', ZMod.intCast_mod, cast_mul, ih, ← pow_add, ← mul_two,
      ← pow_succ]

/-- What holds at the head of the loop for a prime: `y` has the order `2 ^ e`. -/
structure Primitive (m : ℕ) (s : SqrtState) : Prop where
  order : (s.y : ZMod m) ^ 2 ^ (s.e - 1) = -1
  last : s.e = 1 → s.b = 1
  reduced : s.b % m = s.b
  pos : 1 ≤ s.e

variable [hprime : Fact m.Prime]

theorem Primitive.next {s' : SqrtState} (h : Primitive m s)
    (hpass : pass m fuel s = some (.ok s')) : Primitive m s' := by
  have hm := hprime.out.one_lt
  obtain ⟨hb, k, hr, t, rfl, rfl⟩ := pass_ok hpass
  have hpos := h.pos
  have hlast := mt h.last hb
  have he := orderSearch_lt (by omega) hr
  obtain ⟨j, rfl, hone, hne⟩ := orderSearch_spec hm (β := s.b) hr
    (emod_emod_of_dvd _ (dvd_refl _)) (by simp [sq])
    (fun h1 => hb (eq_one_of_cast hm h.reduced (by simpa using h1)))
  have hy : (((fun t => t * t % (m : ℤ))^[s.e - (j + 1) - 1] s.y : ℤ) : ZMod m) ^ 2 =
      s.y ^ 2 ^ (s.e - (j + 1)) := by
    rw [iterate_sqr, ← pow_mul, ← pow_succ, Nat.sub_add_cancel (by omega)]
  have horder : ((s.y : ZMod m) ^ 2 ^ (s.e - (j + 1))) ^ 2 ^ j = -1 := by
    rw [← pow_mul, ← pow_add, ← h.order]
    congr 2
    omega
  refine ⟨?_, fun hlast => ?_, emod_emod_of_dvd _ (dvd_refl _), Nat.succ_pos j⟩
  · rw [Nat.add_sub_cancel, ZMod.intCast_mod, cast_mul, ← sq, hy, horder]
  -- Only two numbers have the square one, and both factors are the other one.
  obtain rfl : j = 0 := Nat.succ.inj hlast
  rw [pow_zero, pow_one] at hne
  have hsq : (s.b : ZMod m) * s.b = 1 := by
    rw [← sq]
    exact hone
  have hb' : (s.b : ZMod m) = -1 := (mul_self_eq_one_iff.mp hsq).resolve_left hne
  refine eq_one_of_cast hm (emod_emod_of_dvd _ (dvd_refl _)) ?_
  rw [pow_zero, pow_one] at horder
  rw [ZMod.intCast_mod, cast_mul, ZMod.intCast_mod, cast_mul, ← sq, hy, horder, hb',
    neg_mul_neg, one_mul]

theorem Head.primitive {s0 : SqrtState} (h : Head m s0 s) (h0 : Primitive m s0) :
    Primitive m s := by
  induction h with
  | start => exact h0
  | next _ hpass ih => exact ih.next hpass

theorem nonSquare_spec (hm : m % 2 = 1) {y : ℕ} : ∀ {n i : ℕ}, nonSquare m rand n i = some y →
    (y : ZMod m) ^ (m / 2) = -1
  | n, i, h => by
    have heuler := legendreSym.eq_pow m (candidate m rand i)
    rw [jacobiSym.legendreSym.to_jacobiSym] at heuler
    unfold nonSquare at h
    dsimp only at h
    rw [bnKronecker_of_odd _ hm] at h
    split_ifs at h with h0 h1
    · cases n with
      | zero => cases h
      | succ n => exact nonSquare_spec hm h
    · cases h
      have hneg := ((jacobiSym.trichotomy _ m).resolve_left h0).resolve_left h1
      rw [hneg] at heuler
      simpa using heuler.symm

omit [Fact m.Prime] in
/-- Where `m - 1` is a multiple of `2 ^ e`. -/
theorem half_of_bits (he : 2 < e) (hbits : m % 2 ^ e = 1) :
    m % 2 = 1 ∧ m / 2 ^ e * 2 ^ (e - 1) = m / 2 := by
  obtain ⟨k, rfl⟩ : ∃ k, e = k + 1 := ⟨e - 1, by omega⟩
  have hdiv := Nat.div_add_mod m (2 ^ (k + 1))
  rw [hbits, pow_succ, mul_right_comm] at hdiv
  rw [Nat.add_sub_cancel, pow_succ, mul_comm]
  omega

theorem start_primitive {A : ℤ} (he : 2 < e) (hbits : m % 2 ^ e = 1)
    (h : start rand A m e = .ok s) :
    Primitive m s := by
  unfold start at h
  split at h
  · cases h
  next y hy =>
  dsimp only at h
  split_ifs at h <;> cases h
  all_goals
    refine ⟨?_, fun h1 => ?_, emod_emod_of_dvd _ (dvd_refl _), ?_⟩
    · obtain ⟨hodd, hq⟩ := half_of_bits he hbits
      rw [ZMod.intCast_mod, cast_pow, ← pow_mul, cast_natCast, hq]
      exact nonSquare_spec hodd hy
    · simp only at h1
      omega
    · simp only
      omega

end

/-- For a prime, the loop never stands at `e = 1` with `b ≠ 1`. -/
theorem heads_end {a p : ℤ} (hp : p.natAbs.Prime) (hodd : p.natAbs % 2 = 1)
    (h : Heads rand a p s) : s.b = 1 ∨ 2 ≤ s.e := by
  have : Fact p.natAbs.Prime := ⟨hp⟩
  obtain ⟨fuel, e, s0, hbit, he, hstart, hhead⟩ := h
  have hspec := @bitSearch_spec p.natAbs fuel 1 hodd
  rw [hbit] at hspec
  have hprimitive := hhead.primitive (start_primitive he hspec.2.2 hstart)
  have hpos := hprimitive.pos
  by_cases hone : s.e = 1
  · exact .inl (hprimitive.last hone)
  · exact .inr (by omega)

/-- The loops of `BN_mod_sqrt`. -/
theorem mod_sqrt_loops (p : ℤ) :
    (∀ s : SqrtState, 1 ≤ s.e → (PassEnds p.natAbs s ↔ s.b = 1 ∨ 2 ≤ s.e)) ∧
    (∀ rand a, (∀ s, Heads rand a p s → s.b = 1 ∨ 2 ≤ s.e) →
      ∃ fuel, (bnModSqrt rand a p fuel).isSome) ∧
    (p.natAbs.Prime → ∀ rand a, ∃ fuel, (bnModSqrt rand a p fuel).isSome) := by
  refine ⟨fun s => passEnds_iff, fun rand a => bnModSqrt_ends, fun hprime rand a => ?_⟩
  refine bnModSqrt_ends fun s ⟨fuel, e, s0, hbit, he, hstart, hhead⟩ => ?_
  have hodd : p.natAbs % 2 = 1 := by
    refine hprime.eq_two_or_odd.resolve_left fun htwo => ?_
    -- The bit 1 of two is set.
    rw [htwo] at hbit
    cases fuel with
    | zero => cases hbit
    | succ fuel =>
      obtain rfl : 1 = e := Option.some.inj hbit
      omega
  exact heads_end hprime hodd ⟨fuel, e, s0, hbit, he, hstart, hhead⟩

theorem orderSearch_circle (fuel : ℕ) : ∀ {i : ℕ} {t : ℤ}, 0 < i → t = 16 ∨ t = 61 →
    orderSearch 65 1 fuel i t = none := by
  induction fuel with
  | zero => exact fun _ _ => rfl
  | succ fuel ih =>
    intro i t hi ht
    rw [orderSearch, if_neg (by omega), if_neg (by omega)]
    refine ih (by omega) ?_
    rcases ht with rfl | rfl <;> decide

theorem nonSquare_three (hm : m % 2 = 1) (h2 : jacobiSym 2 m = 1)
    (h3 : jacobiSym 3 m = -1) : nonSquare m rand 79 2 = some 3 := by
  have hnext (i : ℕ) : bnKronecker (i : ℤ) m = jacobiSym i m := bnKronecker_of_odd i hm
  rw [nonSquare, show candidate m rand 2 = 2 from rfl, hnext, Nat.cast_two, h2, if_pos rfl]
  rw [nonSquare, show candidate m rand (2 + 1) = 3 from rfl, hnext, Nat.cast_ofNat, h3]
  rfl

/-- No fuel is enough for 14 modulo 65. -/
theorem mod_sqrt_hangs : (fun rand fuel => bnModSqrt rand 14 65 fuel) = fun _ _ => none := by
  funext rand fuel
  have hstart : start rand 14 65 6 = .ok ⟨6, 14, 3, 14⟩ := by
    rw [start, nonSquare_three rfl (by norm_num) (by norm_num)]
    rfl
  -- The first pass goes on with `e = 1` and `b = 9`, and the square of that is 16.
  have hsecond n (x y) : passes 65 fuel n ⟨1, x, y, 9⟩ = none := by
    cases n with
    | zero => rfl
    | succ n =>
      have hsearch : orderSearch 65 1 fuel 1 (9 * 9 % 65) = none :=
        orderSearch_circle fuel (by decide) (.inl rfl)
      have hpass : pass 65 fuel ⟨1, x, y, 9⟩ = none := by
        exact map_eq_none_iff.mpr hsearch
      rw [passes, hpass]
      rfl
  have hpasses n : passes 65 fuel n ⟨6, 14, 3, 14⟩ = none := by
    cases n with
    | zero => rfl
    | succ n =>
      cases fuel with
      | zero => rfl
      | succ fuel => exact hsecond n _ _
  have hbit : bitSearch 65 fuel 1 = none ∨ bitSearch 65 fuel 1 = some 6 := by
    rcases fuel with _ | _ | _ | _ | _ | _ | fuel
    all_goals first | exact .inl rfl | exact .inr rfl
  rcases hbit with hbit | hbit
  · exact bind_eq_none_iff.mpr fun e he => nomatch hbit.symm.trans he
  show (bitSearch 65 fuel 1).bind _ = none
  rw [hbit]
  show (match start rand 14 65 6 with
    | .error r => some r
    | .ok s => (passes 65 fuel fuel s).map (·.bind (verify 14 65))) = none
  rw [hstart]
  show (passes 65 fuel fuel ⟨6, 14, 3, 14⟩).map _ = none
  rw [hpasses]
  rfl

end VigorTls.Bn
