import VigorTls.Bn.Sqrt

/-!
# The roots of `BN_mod_sqrt`

For a prime `BN_mod_sqrt` returns a root exactly of the squares (`mod_sqrt_exact`). What is returned
has been checked; that a root is found takes a proof in each of the three cases of `e`. In the loop
of Tonelli and Shanks `x ^ 2` stays `A * b`, and the order of `b` below that of `y` (`Rooted`).
-/

namespace VigorTls.Bn

open Int Option

variable {m e fuel : ℕ} {A a : ℤ} {s : SqrtState} {rand : ℕ → ℕ}

theorem bitSearch_bit : ∀ {fuel e e' : ℕ}, bitSearch m fuel e = some e' → m.testBit e' = true
  | fuel + 1, e, e', h => by
    rw [bitSearch] at h
    split_ifs at h with hbit
    · exact Option.some.inj h ▸ hbit
    · exact bitSearch_bit h

theorem eq_zero_of_cast {t : ℤ} (ht : t % m = t) (h : (t : ZMod m) = 0) : t = 0 := by
  rw [← cast_zero, ZMod.intCast_eq_intCast_iff', ht] at h
  rw [h, zero_emod]

/-- Zero, and by Euler the other squares. -/
def Square (α : ZMod m) : Prop := α = 0 ∨ α ^ (m / 2) = 1

/-- What is returned is a root, and something is returned for a square. -/
structure Returns (α : ZMod m) (r : Option ℤ) : Prop where
  root : ∀ x ∈ r, (x : ZMod m) ^ 2 = α
  isSome : Square α → r.isSome

theorem verify_root {ret x : ℤ} (h : verify A m ret = some x) : (x : ZMod m) ^ 2 = A := by
  unfold verify at h
  split_ifs at h with hret
  obtain rfl := Option.some.inj h
  rw [← hret, ZMod.intCast_mod, cast_mul, sq]

theorem verify_returns {ret : ℤ} (hA : A % m = A)
    (h : Square (A : ZMod m) → (ret : ZMod m) ^ 2 = A) : Returns (A : ZMod m) (verify A m ret) := by
  refine ⟨fun x => verify_root, fun hsq => ?_⟩
  have hret := h hsq
  rw [sq, ← cast_mul, ZMod.intCast_eq_intCast_iff', hA] at hret
  rw [verify, if_pos hret]
  rfl

theorem root_two (hm : m = 2) (a : ℤ) : ((a % 2 : ℤ) : ZMod m) ^ 2 = a := by
  subst hm
  exact (ZMod.pow_card _).trans (ZMod.intCast_mod a 2)

section

variable [hprime : Fact m.Prime]

/-- `m` is `3` modulo `4`. -/
theorem root_three (hm : m % 4 = 3) {α : ZMod m} (h : Square α) : (α ^ (m / 4 + 1)) ^ 2 = α := by
  rcases h with rfl | h
  · rw [zero_pow (Nat.succ_ne_zero _), zero_pow two_ne_zero]
  · rw [← pow_mul, show (m / 4 + 1) * 2 = m / 2 + 1 by omega, pow_succ, h, one_mul]

/-- `m` is `5` modulo `8`, and two is not a square. -/
theorem root_five (hm : m % 8 = 5) {α β i : ZMod m} (hβ : β = (2 * α) ^ (m / 8))
    (hi : i = 2 * α * β ^ 2) (h : Square α) : (α * β * (i - 1)) ^ 2 = α := by
  rcases h with rfl | h
  · simp
  have htwo : (2 : ZMod m) ^ (m / 2) = -1 := by
    have hne : (2 : ZMod m) ≠ 0 := fun hz => by
      have hle := Nat.le_of_dvd two_pos ((ZMod.natCast_eq_zero_iff 2 m).mp (by exact_mod_cast hz))
      omega
    refine (ZMod.pow_div_two_eq_neg_one_or_one m hne).resolve_left fun hone => ?_
    have hsq := (ZMod.euler_criterion m hne).mpr hone
    rw [ZMod.exists_sq_eq_two_iff (by omega)] at hsq
    omega
  have hneg : i ^ 2 = -1 := by
    calc i ^ 2 = (2 * α) ^ (m / 2) := by
          rw [hi, hβ, mul_pow, ← pow_mul, ← pow_mul, ← pow_add]
          congr 1
          omega
      _ = -1 := by rw [mul_pow, htwo, h, mul_one]
  calc (α * β * (i - 1)) ^ 2 = α * (2 * α * β ^ 2) * (-i) + α ^ 2 * β ^ 2 * (i ^ 2 + 1) := by ring
    _ = α := by
      rw [← hi, hneg]
      linear_combination -α * hneg

/-- What holds at the head of the loop for a square `A`. -/
structure Rooted (m : ℕ) (A : ℤ) (s : SqrtState) : Prop where
  square : (s.x : ZMod m) ^ 2 = A * s.b
  order : (s.b : ZMod m) ^ 2 ^ (s.e - 1) = 1

theorem orderSearch_found (hm : 1 < m) {β : ZMod m} (hβ : β ^ 2 ^ (e - 1) = 1) :
    ∀ {fuel i : ℕ} {t : ℤ}, i < e → t % m = t → (t : ZMod m) = β ^ 2 ^ i →
      orderSearch m e fuel i t ≠ some none
  | 0, _, _, _, _, _ => by simp [orderSearch]
  | fuel + 1, i, t, hi, ht, hpow => by
    rw [orderSearch]
    split_ifs with hone hend
    · simp
    · refine absurd (eq_one_of_cast hm ht ?_) hone
      rw [hpow, ← hβ, ← hend, Nat.add_sub_cancel]
    · refine orderSearch_found hm hβ (by omega) (emod_emod_of_dvd _ (dvd_refl _)) ?_
      rw [ZMod.intCast_mod, cast_mul, hpow, ← pow_add, ← mul_two, ← pow_succ]

theorem Rooted.next {s' : SqrtState} (h : Rooted m A s) (hp : Primitive m s)
    (hpass : pass m fuel s = some (.ok s')) : Rooted m A s' := by
  have hm := hprime.out.one_lt
  obtain ⟨hb, k, hr, t, ht, rfl⟩ := pass_ok hpass
  have hpos := hp.pos
  have hk := orderSearch_lt (by have := mt hp.last hb; omega) hr
  obtain ⟨j, rfl, hone, hne⟩ := orderSearch_spec hm (β := s.b) hr
    (emod_emod_of_dvd _ (dvd_refl _)) (by simp [sq])
    (fun h1 => hb (eq_one_of_cast hm hp.reduced (by simpa using h1)))
  -- Both factors of the new `b` have the power `-1`.
  have hbj : (s.b : ZMod m) ^ 2 ^ j = -1 := by
    refine (mul_self_eq_one_iff.mp ?_).resolve_left hne
    rw [← pow_two, ← pow_mul, ← pow_succ, hone]
  have htj : ((t : ZMod m) ^ 2) ^ 2 ^ j = -1 := by
    rw [ht, iterate_sqr, ← hp.order, ← pow_mul, ← pow_mul, ← pow_succ', ← pow_add]
    congr 2
    omega
  refine ⟨?_, ?_⟩
  · simp only [ZMod.intCast_mod, cast_mul]
    rw [mul_pow, h.square]
    ring
  · simp only [ZMod.intCast_mod, cast_mul, Nat.add_sub_cancel]
    rw [mul_pow, hbj, ← sq, htj, neg_mul_neg, one_mul]

theorem passes_root : ∀ {n : ℕ} {s : SqrtState} {r : Option ℤ}, passes m fuel n s = some r →
    Primitive m s → Rooted m A s → ∃ x, r = some x ∧ (x : ZMod m) ^ 2 = A
  | n + 1, s, r, h, hp, hroot => by
    rw [passes] at h
    obtain ⟨r', hpass, hr⟩ := bind_eq_some_iff.mp h
    cases r' with
    | ok s' => exact passes_root hr (hp.next hpass) (hroot.next hp hpass)
    | error r' =>
      obtain rfl := Option.some.inj hr
      unfold pass at hpass
      split_ifs at hpass with hb
      · cases hpass
        refine ⟨s.x, rfl, ?_⟩
        rw [hroot.square, hb, cast_one, mul_one]
      obtain ⟨o, ho, hs'⟩ := map_eq_some_iff.mp hpass
      have hpos := hp.pos
      have hlast := mt hp.last hb
      cases o with
      | some i => cases hs'
      | none =>
        exact absurd ho (orderSearch_found hprime.out.one_lt hroot.order (by omega)
          (emod_emod_of_dvd _ (dvd_refl _)) (by simp [sq]))

theorem start_returns (hfound : (nonSquare m rand 79 2).isSome) (he : 2 < e)
    (hbits : m % 2 ^ e = 1) (hbit : m.testBit e = true) (hA : A % m = A) :
    (∀ r, start rand A m e = .error r → Returns (A : ZMod m) r) ∧
    ∀ s, start rand A m e = .ok s → Square (A : ZMod m) → Rooted m A s := by
  obtain ⟨y, hy⟩ := isSome_iff_exists.mp hfound
  obtain ⟨hm, hq⟩ := half_of_bits he hbits
  have hodd : m / 2 ^ e % 2 = 1 := by
    rwa [Nat.testBit_eq_decide_div_mod_eq, decide_eq_true_eq] at hbit
  unfold start
  rw [hy]
  dsimp only
  generalize m / 2 ^ e = q at hq hodd
  -- Otherwise `y` would be a square.
  have hone : (y : ℤ) ^ q % m ≠ 1 := by
    intro hone
    have hpow := nonSquare_spec hm hy
    rw [← hq, pow_mul, ← cast_natCast, ← cast_pow, ← ZMod.intCast_mod, hone, cast_one,
      one_pow] at hpow
    have : Fact (2 < m) :=
      ⟨he.trans (Nat.lt_two_pow_self.trans_le (Nat.ge_two_pow_of_testBit hbit))⟩
    exact ZMod.neg_one_ne_one hpow.symm
  rw [if_neg hone]
  generalize hx : (if q / 2 = 0 then 1 else A ^ (q / 2) % (m : ℤ)) = x
  have hxA : (x : ZMod m) = A ^ (q / 2) := by
    rw [← hx]
    split_ifs with h0
    · rw [h0, pow_zero, cast_one]
    · rw [ZMod.intCast_mod, cast_pow]
  have hzero : (if q / 2 = 0 then A else x) = 0 ↔ (A : ZMod m) = 0 := by
    split_ifs at hx ⊢ with h0
    · exact ⟨fun h => by rw [h, cast_zero], eq_zero_of_cast hA⟩
    · rw [show (A : ZMod m) = 0 ↔ (A : ZMod m) ^ (q / 2) = 0 from (pow_eq_zero_iff h0).symm, ← hxA]
      refine ⟨fun h => by rw [h, cast_zero], eq_zero_of_cast ?_⟩
      rw [← hx, emod_emod_of_dvd _ (dvd_refl _)]
  by_cases hz : (if q / 2 = 0 then A else x) = 0
  · rw [if_pos hz]
    refine ⟨fun r hr => ?_, by rintro s ⟨⟩⟩
    cases hr
    refine ⟨fun x hx => ?_, fun _ => rfl⟩
    obtain rfl := Option.some.inj hx
    rw [hzero.mp hz, cast_zero, zero_pow two_ne_zero]
  rw [if_neg hz]
  refine ⟨by rintro r ⟨⟩, fun s hs hsq => ?_⟩
  cases hs
  constructor
  · simp only [ZMod.intCast_mod, cast_mul]
    ring
  · have hpow := hsq.resolve_left (mt hzero.mpr hz)
    simp only [ZMod.intCast_mod, cast_mul]
    rw [hxA, ← pow_add, ← pow_succ, ← pow_mul, show q / 2 + q / 2 + 1 = q by omega, hq, hpow]

theorem passes_returns {n : ℕ} {r : Option ℤ} (hA : A % m = A)
    (hpasses : passes m fuel n s = some r) (hp : Primitive m s)
    (hroot : Square (A : ZMod m) → Rooted m A s) :
    Returns (A : ZMod m) (r.bind (verify A m)) := by
  refine ⟨fun x hx => ?_, fun hsq => ?_⟩
  · obtain ⟨ret, -, hret⟩ := bind_eq_some_iff.mp hx
    exact verify_root hret
  · obtain ⟨x, rfl, hx⟩ := passes_root hpasses hp (hroot hsq)
    exact (verify_returns hA fun _ => hx).isSome hsq

end

/-- The three cases of `e`. -/
theorem odd_returns {p : ℤ} (hp : p.natAbs.Prime) (hodd : p.natAbs % 2 = 1)
    (hfound : p.natAbs % 8 = 1 → (nonSquare p.natAbs rand 79 2).isSome) (ha : ¬(a = 0 ∨ a = 1))
    {r : Option ℤ} (h : bnModSqrt rand a p fuel = some r) :
    Returns (a : ZMod p.natAbs) r := by
  have hprime : Fact p.natAbs.Prime := ⟨hp⟩
  have hA : a % p.natAbs % p.natAbs = a % p.natAbs := emod_emod_of_dvd _ (dvd_refl _)
  unfold bnModSqrt at h
  rw [if_neg (by have := hp.one_lt; omega), if_neg ha] at h
  dsimp only at h
  obtain ⟨e, he, h⟩ := bind_eq_some_iff.mp h
  have hbit := bitSearch_bit he
  have hspec := @bitSearch_spec p.natAbs fuel 1 hodd
  rw [he] at hspec
  obtain ⟨hpos, -, hbits⟩ := hspec
  rw [← ZMod.intCast_mod a]
  generalize a % (p.natAbs : ℤ) = A at hA h ⊢
  have hdiv := hbit
  rw [Nat.testBit_eq_decide_div_mod_eq, decide_eq_true_eq] at hdiv
  by_cases h1 : e = 1
  · subst h1
    obtain rfl := Option.some.inj h
    refine verify_returns hA fun hsq => ?_
    rw [ZMod.intCast_mod, cast_pow]
    exact root_three (by omega) hsq
  rw [if_neg h1] at h
  by_cases h2 : e = 2
  · subst h2
    obtain rfl := Option.some.inj h
    refine verify_returns hA fun hsq => ?_
    have ht : ((if 2 * A ≥ p then 2 * A - p else 2 * A : ℤ) : ZMod p.natAbs) = 2 * A := by
      have hp0 : (p : ZMod p.natAbs) = 0 :=
        (ZMod.intCast_zmod_eq_zero_iff_dvd _ _).mpr (natAbs_dvd.mpr (dvd_refl p))
      split_ifs <;> simp [hp0]
    simp only [ZMod.intCast_mod, cast_mul, cast_sub, cast_one, cast_pow, ht]
    exact root_five (by omega) rfl (by rw [sq]) hsq
  rw [if_neg h2] at h
  have h8 : p.natAbs % 8 = 1 := by
    have hmod := Nat.mod_mod_of_dvd p.natAbs (pow_dvd_pow 2 (show 3 ≤ e by omega))
    rw [hbits] at hmod
    exact hmod.symm
  obtain ⟨herror, hok⟩ := start_returns (hfound h8) (by omega) hbits hbit hA
  cases hstart : start rand A p.natAbs e with
  | error r' =>
    rw [hstart] at h
    exact Option.some.inj h ▸ herror r' hstart
  | ok s =>
    rw [hstart] at h
    obtain ⟨o, ho, rfl⟩ := map_eq_some_iff.mp h
    exact passes_returns hA ho (start_primitive (by omega) hbits hstart) (hok s hstart)

/-- For a prime, `BN_mod_sqrt` ends, what it returns is a root of `a`, and it returns one exactly if
there is one, provided that a non-square is found where one is looked for. -/
theorem mod_sqrt_exact (p : ℤ) (hp : p.natAbs.Prime) (rand : ℕ → ℕ)
    (hfound : p.natAbs % 8 = 1 → (nonSquare p.natAbs rand 79 2).isSome) (a : ℤ) :
    (∃ fuel, (bnModSqrt rand a p fuel).isSome) ∧
    ∀ fuel r, bnModSqrt rand a p fuel = some r →
      (∀ x ∈ r, (x : ZMod p.natAbs) ^ 2 = a) ∧ (r.isSome ↔ IsSquare (a : ZMod p.natAbs)) := by
  have hprime : Fact p.natAbs.Prime := ⟨hp⟩
  have hiff {r : Option ℤ} (h : Returns (a : ZMod p.natAbs) r) :
      (∀ x ∈ r, (x : ZMod p.natAbs) ^ 2 = a) ∧ (r.isSome ↔ IsSquare (a : ZMod p.natAbs)) := by
    refine ⟨h.root, fun hr => ?_, fun hsq => h.isSome ?_⟩
    · obtain ⟨x, hx⟩ := isSome_iff_exists.mp hr
      exact ⟨x, by rw [← sq, h.root x hx]⟩
    · exact or_iff_not_imp_left.mpr fun hne => (ZMod.euler_criterion _ hne).mp hsq
  rcases hp.eq_two_or_odd with htwo | hodd
  · have heq (fuel : ℕ) : bnModSqrt rand a p fuel = some (some (a % 2)) := by
      rw [bnModSqrt, if_pos (by omega), if_pos htwo]
    refine ⟨⟨0, by rw [heq]; rfl⟩, fun fuel r h => hiff ?_⟩
    obtain rfl := Option.some.inj ((heq fuel).symm.trans h)
    refine ⟨fun x hx => ?_, fun _ => rfl⟩
    obtain rfl := Option.some.inj hx
    exact root_two htwo a
  refine ⟨bnModSqrt_ends fun s => heads_end hp hodd, fun fuel r h => hiff ?_⟩
  by_cases ha : a = 0 ∨ a = 1
  · rw [bnModSqrt, if_neg (by have := hp.one_lt; omega), if_pos ha] at h
    obtain rfl := Option.some.inj h
    refine ⟨fun x hx => ?_, fun _ => rfl⟩
    obtain rfl := Option.some.inj hx
    rcases ha with rfl | rfl <;> simp
  · exact odd_returns hp hodd hfound ha h

/-- Modulo 17 the loop is needed, and 2 has a root. -/
theorem mod_sqrt_exact_seventeen :
    ∃ fuel x, bnModSqrt (fun _ => 0) 2 17 fuel = some (some x) ∧
      (x : ZMod (natAbs 17)) ^ 2 = (2 : ℤ) := by
  have hfound : (nonSquare 17 (fun _ => 0) 79 2).isSome := by
    rw [nonSquare_three rfl (by norm_num) (by norm_num)]
    rfl
  obtain ⟨⟨fuel, hfuel⟩, hreturns⟩ :=
    mod_sqrt_exact 17 (by decide +kernel) (fun _ => 0) (fun _ => hfound) 2
  obtain ⟨r, hr⟩ := isSome_iff_exists.mp hfuel
  obtain ⟨hroot, hiff⟩ := hreturns fuel r hr
  obtain ⟨x, rfl⟩ := isSome_iff_exists.mp (hiff.mpr ⟨6, by decide +kernel⟩)
  exact ⟨fuel, x, hr, hroot x rfl⟩

end VigorTls.Bn
