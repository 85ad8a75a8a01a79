import Mathlib.Data.List.Induction
import VigorTls.Lib.Bytes

/-!
# The content octets of an INTEGER

`i2c_ibuf` and `c2i_ibuf` of `crypto/asn1/a_int.c`: a sign with the octets of an absolute value on
one side, those of a two's complement on the other. Both loops compute `negate`, which is its own
inverse, and so the two are inverse (`integer_codec`).
-/

namespace VigorTls.Asn1

open List

/-- A sign, and octets from the most significant one on. -/
structure Ibuf where
  neg : Bool
  octets : Bytes
deriving DecidableEq

/-- Zero is a single octet and not negative, and other values do not start with a zero. -/
def Ibuf.Normal (x : Ibuf) : Prop :=
  x.octets ≠ [] ∧ (x.octets.head? = some 0 → x = ⟨false, [0]⟩)

/-- The least number of octets for their value: the first nine bits are not all the same. -/
def Minimal : Bytes → Prop
  | [] => False
  | [_] => True
  | p :: q :: _ => ¬ (p = 0 ∧ q.toNat < 128) ∧ ¬ (p = 0xff ∧ 128 ≤ q.toNat)

/-- The loops that look for an octet that is not zero. -/
def zeros (l : Bytes) : Bool := l.all (· = 0)

variable (b : Bytes)

/-- The sign that `i2c_ibuf` goes on with. -/
def i2cNeg (neg : Bool) : Bool := neg && b ≠ [0]

/-- The octet that it pads with. -/
def i2cPad (neg : Bool) : Option UInt8 :=
  match b with
  | [] => none
  | i :: rest =>
    if !i2cNeg b neg && i.toNat > 127 then some 0
    else if i2cNeg b neg then
      if i.toNat > 128 then some 0xff
      else if i.toNat = 128 && !zeros rest then some 0xff
      else none
    else none

def i2cLength (neg : Bool) : ℕ :=
  if b = [] then 1 else b.length + (i2cPad b neg).toList.length

/-- Its loops, with the last octet first. -/
def i2cNegate : Bytes → Bytes
  | [] => []
  | n :: rest =>
    if n = 0 && rest ≠ [] then 0 :: i2cNegate rest
    else ((n ^^^ 0xff) + 1) :: rest.map (· ^^^ 0xff)

/-- `i2c_ibuf`: the octets that it writes. -/
def i2cIbuf (neg : Bool) : Bytes :=
  (i2cPad b neg).toList ++
    if b = [] then [0] else if !i2cNeg b neg then b else (i2cNegate b.reverse).reverse

/-- The loops of `c2i_ibuf`, last octet first; none if its assertion fails. -/
def c2iNegate : Bytes → Option Bytes
  | [] => none
  | p :: rest =>
    if p = 0 then (c2iNegate rest).map (0 :: ·)
    else some (((p ^^^ 0xff) + 1) :: rest.map (· ^^^ 0xff))

/-- `c2i_ibuf`; none if it returns 0. -/
def c2iIbuf : Bytes → Option Ibuf
  | [] => none
  | [p] => some ⟨p &&& 0x80 ≠ 0, [if p &&& 0x80 ≠ 0 then (p ^^^ 0xff) + 1 else p]⟩
  | p :: q :: rest =>
    let neg := p &&& 0x80
    let pad := p = 0 || p = 0xff
    if pad && neg = q &&& 0x80 then none
    else if neg = 0 then some ⟨false, if pad then q :: rest else p :: q :: rest⟩
    else if pad && zeros (q :: rest) then some ⟨true, 1 :: replicate (rest.length + 1) 0⟩
    else (c2iNegate (if pad then q :: rest else p :: q :: rest).reverse).map (⟨true, ·.reverse⟩)

def c2iLength : Bytes → ℕ
  | [] => 0
  | [_] => 1
  | p :: q :: rest =>
    let neg := p &&& 0x80
    let pad := p = 0 || p = 0xff
    let plen := rest.length + 2
    if pad && neg = q &&& 0x80 then 0
    else if neg = 0 then plen - pad.toNat
    else if pad && zeros (q :: rest) then plen
    else plen - pad.toNat

/-! ## The two's complement -/

theorem forall_octet {P : UInt8 → Prop} (h : ∀ b : BitVec 8, P (.ofBitVec b)) (i : UInt8) : P i :=
  h i.toBitVec

section

variable (i : UInt8)

theorem compl_compl : (i ^^^ 0xff) ^^^ 0xff = i := by
  induction i using forall_octet
  decide +revert

theorem compl_succ_compl_succ : ((i ^^^ 0xff) + 1 ^^^ 0xff) + 1 = i := by
  induction i using forall_octet
  decide +revert

theorem toNat_compl : (i ^^^ 0xff).toNat = 255 - i.toNat := by
  induction i using forall_octet
  decide +revert

theorem toNat_compl_succ : ((i ^^^ 0xff) + 1).toNat = (256 - i.toNat) % 256 := by
  induction i using forall_octet
  decide +revert

theorem sign_octet : (i &&& 0x80 = 0 ∧ i.toNat < 128) ∨ (i &&& 0x80 = 0x80 ∧ 128 ≤ i.toNat) := by
  induction i using forall_octet
  decide +revert

end

/-- The two's complement, from the first octet on. -/
def negate : Bytes → Bytes
  | [] => []
  | i :: rest => (if zeros rest then (i ^^^ 0xff) + 1 else i ^^^ 0xff) :: negate rest

variable (l : Bytes)

theorem zeros_negate : zeros (negate l) = zeros l := by
  induction l with
  | nil => rfl
  | cons i rest ih =>
    have hzero : (i ^^^ 0xff) + 1 = 0 ↔ i = 0 := by
      rw [← UInt8.toNat_inj, ← UInt8.toNat_inj, toNat_compl_succ]
      have := i.toNat_lt
      simp only [UInt8.toNat_zero]
      omega
    unfold zeros at ih ⊢
    rw [negate, all_cons, all_cons, ih]
    cases hrest : rest.all (· = 0) with
    | false => rw [Bool.and_false, Bool.and_false]
    | true => simp [zeros, hrest, hzero]

theorem negate_negate : negate (negate l) = l := by
  induction l with
  | nil => rfl
  | cons i rest ih =>
    rw [negate, negate, zeros_negate, ih]
    cases zeros rest with
    | false => rw [if_neg nofun, if_neg nofun, compl_compl]
    | true => rw [if_pos rfl, if_pos rfl, compl_succ_compl_succ]

theorem length_negate : (negate l).length = l.length := by
  induction l with
  | nil => rfl
  | cons i rest ih => rw [negate, length_cons, length_cons, ih]

theorem negate_append_zero : negate (l ++ [0]) = negate l ++ [0] := by
  induction l with
  | nil => rfl
  | cons i rest ih =>
    have hsame : zeros (rest ++ [0]) = zeros rest := by simp [zeros]
    rw [cons_append, negate, ih, hsame, negate, cons_append]

theorem negate_append {n : UInt8} (hn : n ≠ 0) (l : Bytes) :
    negate (l ++ [n]) = l.map (· ^^^ 0xff) ++ [(n ^^^ 0xff) + 1] := by
  induction l with
  | nil => rfl
  | cons i rest ih =>
    have hnot : ¬ zeros (rest ++ [n]) = true := by simp [zeros, hn]
    rw [cons_append, negate, ih, if_neg hnot]
    rfl

theorem i2cNegate_reverse : (i2cNegate l).reverse = negate l.reverse := by
  induction l with
  | nil => rfl
  | cons n rest ih =>
    rw [i2cNegate, reverse_cons]
    by_cases hn : n = 0
    · subst hn
      rw [negate_append_zero, ← ih]
      by_cases hrest : rest = []
      · subst hrest
        rfl
      · rw [if_pos (by simp [hrest]), reverse_cons]
    · rw [if_neg (by simp [hn]), negate_append hn, reverse_cons, map_reverse]

theorem c2iNegate_reverse {l : Bytes} (hl : zeros l = false) :
    (c2iNegate l.reverse).map (fun b => Ibuf.mk true b.reverse) = some ⟨true, negate l⟩ := by
  induction l using reverseRecOn with
  | nil => cases hl
  | append_singleton rest n ih =>
    rw [reverse_append, reverse_singleton, singleton_append, c2iNegate]
    by_cases hn : n = 0
    · subst hn
      have hrest : zeros rest = false := by simpa [zeros] using hl
      obtain ⟨out, hout, heq⟩ := Option.map_eq_some_iff.mp (ih hrest)
      rw [hout, negate_append_zero, ← (Ibuf.mk.inj heq).2]
      simp
    · rw [if_neg hn, negate_append hn]
      simp

section

variable {p q i : UInt8} {rest : Bytes}

theorem i2cIbuf_pos : i2cIbuf (i :: rest) false =
    (if i.toNat > 127 then [0] else []) ++ i :: rest := by
  by_cases hi : i.toNat > 127
  · simp [i2cIbuf, i2cPad, i2cNeg, hi]
  · simp [i2cIbuf, i2cPad, i2cNeg, hi]

theorem i2cIbuf_neg (hi : i ≠ 0) : i2cIbuf (i :: rest) true =
    (if i.toNat > 128 ∨ i.toNat = 128 ∧ zeros rest = false then [0xff] else []) ++
      negate (i :: rest) := by
  have hneg : i2cNeg (i :: rest) true = true := by simp [i2cNeg, hi]
  rw [i2cIbuf, i2cNegate_reverse, i2cPad]
  simp only [hneg]
  rcases Nat.lt_trichotomy i.toNat 128 with hlt | heq | hgt
  · simp [Nat.ne_of_lt hlt, Nat.not_lt_of_gt hlt]
  · cases hz : zeros rest <;> simp [heq]
  · simp [hgt]

theorem c2iIbuf_pos (hp : p.toNat < 128) : c2iIbuf (p :: q :: rest) =
    if p = 0 ∧ q.toNat < 128 then none
    else some ⟨false, if p = 0 then q :: rest else p :: q :: rest⟩ := by
  have hff : p ≠ 0xff := fun h => absurd (h ▸ hp) (by decide)
  have hsign : p &&& 0x80 = 0 := ((sign_octet p).resolve_right (by omega)).1
  have hq : 0 = q &&& 0x80 ↔ q.toNat < 128 := by
    rcases sign_octet q with ⟨h, hlt⟩ | ⟨h, hlt⟩ <;> simp [h, hlt]
  simp [c2iIbuf, hsign, hff, hq]

theorem c2iIbuf_neg (hp : 128 ≤ p.toNat) : c2iIbuf (p :: q :: rest) =
    if p = 0xff ∧ 128 ≤ q.toNat then none
    else if p = 0xff ∧ zeros (q :: rest) then some ⟨true, 1 :: replicate (rest.length + 1) 0⟩
    else some ⟨true, negate (if p = 0xff then q :: rest else p :: q :: rest)⟩ := by
  have h0 : p ≠ 0 := fun h => absurd (h ▸ hp) (by decide)
  have hsign : p &&& 0x80 = 0x80 := ((sign_octet p).resolve_left (by omega)).1
  have hq : 0x80 = q &&& 0x80 ↔ 128 ≤ q.toNat := by
    rcases sign_octet q with ⟨h, hlt⟩ | ⟨h, hlt⟩ <;> simp [h, hlt]
  have hnot : zeros (p :: q :: rest) = false := by simp [zeros, h0]
  by_cases hff : p = 0xff
  · subst hff
    cases hz : zeros (q :: rest) with
    | true => simp [c2iIbuf, hq, hz, hsign]
    | false => simp [c2iIbuf, hq, hz, hsign, ← c2iNegate_reverse hz]
  · have hrun := c2iNegate_reverse hnot
    simp [c2iIbuf, h0, hff, hsign, ← hrun]

/-! ## Inverse to each other -/

theorem eq_replicate_of_zeros {l : Bytes} (h : zeros l = true) : l = replicate l.length 0 := by
  refine eq_replicate_iff.mpr ⟨rfl, fun b hb => ?_⟩
  simpa using all_eq_true.mp h b hb

theorem toNat_ne_zero (hi : i ≠ 0) : i.toNat ≠ 0 := fun h => hi (UInt8.toNat_inj.mp h)

theorem negate_cons (i : UInt8) (rest : Bytes) : ∃ h, negate (i :: rest) = h :: negate rest ∧
    h.toNat = if zeros rest then (256 - i.toNat) % 256 else 255 - i.toNat := by
  refine ⟨_, rfl, ?_⟩
  split_ifs
  · exact toNat_compl_succ i
  · exact toNat_compl i

theorem c2i_i2c_pos (hi : i ≠ 0) :
    c2iIbuf (i2cIbuf (i :: rest) false) = some ⟨false, i :: rest⟩ := by
  rw [i2cIbuf_pos]
  split_ifs with hlarge
  · rw [singleton_append, c2iIbuf_pos (by decide), if_neg (by omega), if_pos rfl]
  rw [nil_append]
  cases rest with
  | nil =>
    have hsign : i &&& 0x80 = 0 := ((sign_octet i).resolve_right (by omega)).1
    simp [c2iIbuf, hsign]
  | cons j rest => rw [c2iIbuf_pos (by omega), if_neg (fun h => hi h.1), if_neg hi]

theorem c2i_i2c_neg (hi : i ≠ 0) : c2iIbuf (i2cIbuf (i :: rest) true) = some ⟨true, i :: rest⟩ := by
  have hi' := toNat_ne_zero hi
  have hneg := negate_negate (i :: rest)
  have hzeros : zeros (negate (i :: rest)) = false := by
    rw [zeros_negate]
    simp [zeros, hi]
  obtain ⟨h, hhead, hnat⟩ := negate_cons i rest
  rw [i2cIbuf_neg hi]
  rw [hhead] at hneg hzeros ⊢
  split_ifs with hpad
  · -- The first octet of the complement is below 128, so 0xff in front of it is no superfluous one.
    have hsmall : h.toNat < 128 := by
      rw [hnat]
      rcases hpad with hgt | ⟨heq, hz⟩
      · split_ifs <;> omega
      · rw [hz, heq]
        decide
    rw [singleton_append, c2iIbuf_neg (by decide), if_neg (by omega),
      if_neg (by simp [hzeros]), if_pos rfl, hneg]
  have hlarge : 128 ≤ h.toNat := by
    rw [hnat]
    split_ifs with hz
    · omega
    · have hne : i.toNat ≠ 128 := fun heq => hpad (.inr ⟨heq, Bool.not_eq_true _ ▸ hz⟩)
      omega
  rw [nil_append]
  cases rest with
  | nil =>
    have hsign : h &&& 0x80 = 0x80 := ((sign_octet h).resolve_left (by omega)).1
    obtain rfl : h = (i ^^^ 0xff) + 1 := (List.cons.inj hhead).1.symm
    show c2iIbuf [(i ^^^ 0xff) + 1] = _
    simp [c2iIbuf, hsign, compl_succ_compl_succ]
  | cons j rest =>
    obtain ⟨k, hk, hknat⟩ := negate_cons j rest
    have hzeros' := zeros_negate (j :: rest)
    rw [hk] at hneg hzeros' ⊢
    by_cases hff : h = 0xff
    · -- The absolute value is a power of 256.
      subst hff
      have h255 : UInt8.toNat 255 = 255 := rfl
      have hz : zeros (j :: rest) = true := by
        by_contra hz
        rw [if_neg hz] at hnat
        omega
      rw [if_pos hz] at hnat
      obtain rfl : i = 1 := UInt8.toNat_inj.mp (by simp; omega)
      have hk0 : k = 0 := by
        rw [hz] at hzeros'
        simpa using all_eq_true.mp hzeros' k mem_cons_self
      have hrep := eq_replicate_of_zeros hz
      rw [c2iIbuf_neg (by decide), if_neg (by rw [hk0]; decide), if_pos ⟨rfl, hzeros'.trans hz⟩]
      rw [length_negate]
      exact congrArg (fun l => some (Ibuf.mk true (1 :: l))) hrep.symm
    · rw [c2iIbuf_neg hlarge, if_neg (fun h => hff h.1), if_neg (fun h => hff h.1), if_neg hff,
        hneg]

theorem c2i_i2c {x : Ibuf} (hx : x.Normal) : c2iIbuf (i2cIbuf x.octets x.neg) = some x := by
  obtain ⟨neg, octets⟩ := x
  obtain ⟨hne, hzero⟩ := hx
  cases octets with
  | nil => exact absurd rfl hne
  | cons i rest =>
    by_cases hi : i = 0
    · rw [hzero (hi ▸ rfl)]
      decide
    cases neg with
    | false => exact c2i_i2c_pos hi
    | true => exact c2i_i2c_neg hi

/-- A complement is written as it was read, with an octet in front if its first one is below 128. -/
theorem i2c_negate (padded : Bool) (hz : zeros (p :: rest) = false)
    (hp : if padded then p.toNat < 128 else 128 ≤ p.toNat ∧ (p.toNat = 255 → zeros rest = true)) :
    Ibuf.Normal ⟨true, negate (p :: rest)⟩ ∧
      i2cIbuf (negate (p :: rest)) true = (if padded then [0xff] else []) ++ p :: rest := by
  have hlt := p.toNat_lt
  have hneg := negate_negate (p :: rest)
  have hp0 : zeros rest = true → p.toNat ≠ 0 := fun hrest => toNat_ne_zero fun h0 => by
    simp [zeros, h0] at hz hrest
    obtain ⟨b, hb, hne⟩ := hz
    exact hne (hrest b hb)
  obtain ⟨i, hhead, hnat⟩ := negate_cons p rest
  have hi : i.toNat ≠ 0 := by
    cases padded <;> split_ifs at hnat with hrest <;> simp [hrest] at hp hp0 <;> omega
  have hi' : i ≠ 0 := fun h => hi (h ▸ rfl)
  rw [hhead] at hneg ⊢
  refine ⟨⟨cons_ne_nil _ _, fun h => absurd (Option.some.inj h) hi'⟩, ?_⟩
  rw [i2cIbuf_neg hi', zeros_negate]
  congr 1
  cases padded <;> split_ifs at hnat with hrest <;> simp [hrest] at hp hp0 ⊢ <;> omega

theorem i2c_c2i {s : Bytes} {x : Ibuf} (h : c2iIbuf s = some x) :
    x.Normal ∧ i2cIbuf x.octets x.neg = s := by
  match s with
  | [] => cases h
  | [p] =>
    rcases sign_octet p with ⟨hsign, hp⟩ | ⟨hsign, hp⟩
    · obtain rfl : ⟨false, [p]⟩ = x := by simpa [c2iIbuf, hsign] using h
      refine ⟨⟨cons_ne_nil _ _, fun h0 => by rw [Option.some.inj h0]⟩, ?_⟩
      rw [i2cIbuf_pos, if_neg (by omega), nil_append]
    · obtain rfl : ⟨true, negate [p]⟩ = x := by simpa [c2iIbuf, hsign, negate, zeros] using h
      have hne : p ≠ 0 := fun h0 => by simp [h0] at hp
      exact i2c_negate false (by simp [zeros, hne]) ⟨hp, fun _ => rfl⟩
  | p :: q :: rest =>
    rcases Nat.lt_or_ge p.toNat 128 with hp | hp
    · rw [c2iIbuf_pos hp] at h
      split_ifs at h with hbad h0
      · cases h
        have hq : ¬ q.toNat < 128 := fun hq => hbad ⟨h0, hq⟩
        refine ⟨⟨cons_ne_nil _ _, fun hq0 => ?_⟩, ?_⟩
        · exact absurd (Option.some.inj hq0 ▸ hq) (by decide)
        · rw [i2cIbuf_pos, if_pos (by omega), h0]
          rfl
      · cases h
        refine ⟨⟨cons_ne_nil _ _, fun hp0 => absurd (Option.some.inj hp0) h0⟩, ?_⟩
        rw [i2cIbuf_pos, if_neg (by omega), nil_append]
    have hne : p ≠ 0 := fun h0 => by simp [h0] at hp
    have hz : zeros (p :: q :: rest) = false := by simp [zeros, hne]
    rw [c2iIbuf_neg hp] at h
    split_ifs at h with hbad hpow hff
    · obtain ⟨rfl, hrest⟩ := hpow
      have hone : negate (0xff :: q :: rest) = 1 :: replicate (rest.length + 1) 0 := by
        rw [negate, if_pos hrest, eq_replicate_of_zeros ((zeros_negate _).trans hrest),
          length_negate]
        rfl
      cases h
      rw [← hone]
      exact i2c_negate false hz ⟨hp, fun _ => hrest⟩
    · subst hff
      cases h
      have hq : ¬ 128 ≤ q.toNat := fun hq => hbad ⟨rfl, hq⟩
      exact i2c_negate true (by simpa using hpow) (by simpa using hq)
    · cases h
      exact i2c_negate false hz ⟨hp, fun h255 => absurd (UInt8.toNat_inj.mp (h255.trans rfl)) hff⟩

theorem c2i_isSome_iff (s : Bytes) : (c2iIbuf s).isSome ↔ Minimal s := by
  match s with
  | [] => simp [c2iIbuf, Minimal]
  | [p] => simp [c2iIbuf, Minimal]
  | p :: q :: rest =>
    rcases Nat.lt_or_ge p.toNat 128 with hp | hp
    · have hff : p ≠ 0xff := fun h => absurd (h ▸ hp) (by decide)
      rw [c2iIbuf_pos hp, Minimal]
      by_cases h : p = 0 ∧ q.toNat < 128
      · simp [h]
      · simp [hff]
    have h0 : p ≠ 0 := fun h => absurd (h ▸ hp) (by decide)
    rw [c2iIbuf_neg hp, Minimal]
    by_cases h : p = 0xff ∧ 128 ≤ q.toNat
    · simp [h]
    · rw [if_neg h]
      split_ifs <;> simp [h, h0]

end

theorem length_i2cIbuf (neg : Bool) : (i2cIbuf b neg).length = i2cLength b neg := by
  unfold i2cIbuf i2cLength
  by_cases hb : b = []
  · subst hb
    rfl
  · rw [if_neg hb, length_append, Nat.add_comm, i2cNegate_reverse, reverse_reverse]
    split_ifs
    · rfl
    · rw [length_negate]

theorem c2iLength_eq (s : Bytes) : c2iLength s = ((c2iIbuf s).map (·.octets.length)).getD 0 := by
  match s with
  | [] => rfl
  | [p] => rfl
  | p :: q :: rest =>
    unfold c2iLength c2iIbuf
    by_cases hpad : (p = 0 || p = 0xff) = true
    · simp only [hpad]
      split_ifs with h1 h2 h3
      · rfl
      · rfl
      · simp
      · rw [c2iNegate_reverse (by simpa using h3)]
        simp [length_negate]
    · simp only [hpad, Bool.false_and, Bool.false_eq_true, if_false]
      split_ifs with h
      · rfl
      · have hp : p ≠ 0 := fun h0 => h (by rw [h0]; rfl)
        rw [c2iNegate_reverse (by simp [zeros, hp])]
        simp [length_negate]

/-- `i2c_ibuf` and `c2i_ibuf` are inverse to each other between signs with absolute values in normal
form and minimal octets, which are all that is accepted. -/
theorem integer_codec :
    (∀ x : Ibuf, x.Normal → Minimal (i2cIbuf x.octets x.neg) ∧
      c2iIbuf (i2cIbuf x.octets x.neg) = some x) ∧
    (∀ s, (c2iIbuf s).isSome ↔ Minimal s) ∧
    (∀ s x, c2iIbuf s = some x → x.Normal ∧ i2cIbuf x.octets x.neg = s) ∧
    (∀ b neg, i2cLength b neg = (i2cIbuf b neg).length) ∧
    ∀ s, c2iLength s = ((c2iIbuf s).map (·.octets.length)).getD 0 := by
  refine ⟨fun x hx => ⟨?_, c2i_i2c hx⟩, c2i_isSome_iff, fun s x => i2c_c2i,
    fun b neg => (length_i2cIbuf b neg).symm, c2iLength_eq⟩
  rw [← c2i_isSome_iff, c2i_i2c hx]
  rfl

end VigorTls.Asn1
