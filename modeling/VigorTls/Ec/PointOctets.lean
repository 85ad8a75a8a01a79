import VigorTls.Lib.Bytes
import Mathlib.Data.Nat.Size
import Mathlib.Algebra.Field.ZMod

/-!
# Points as octet strings

`ec_GFp_simple_point2oct` and `ec_GFp_simple_oct2point` of `crypto/ec/ecp_oct.c`, with affine
coordinates and square roots that are exact. A string is read as a point exactly if it is what is
written for that point in one of the forms (`point_octets`).
-/

namespace VigorTls.Ec

open Lib List Option

/-- `point_conversion_form_t`. -/
inductive Form
  | compressed
  | uncompressed
  | hybrid
deriving DecidableEq

def Form.code : Form → UInt8
  | compressed => 2
  | uncompressed => 4
  | hybrid => 6

/-- The arithmetic of an `EC_METHOD`. Without a `field_decode`, `field_sqr` and `field_mul` work on
the standard representation. -/
structure EcMethod (p : ℕ) where
  field_sqr : ZMod p → ZMod p
  field_mul : ZMod p → ZMod p → ZMod p
  field_decode : Option (ZMod p → ZMod p)
  sqr_standard : field_decode = none → ∀ x, field_sqr x = x ^ 2
  mul_standard : field_decode = none → ∀ x y, field_mul x y = x * y

/-- What an element of the field stands for. -/
def EcMethod.decode {p : ℕ} (meth : EcMethod p) (x : ZMod p) : ZMod p :=
  meth.field_decode.elim x fun field_decode => field_decode x

/-- `EC_GFp_simple_method`. -/
def ecGFpSimpleMethod (p : ℕ) : EcMethod p where
  field_sqr x := x ^ 2
  field_mul x y := x * y
  field_decode := none
  sqr_standard _ _ := rfl
  mul_standard _ _ _ := rfl

/-- `EC_GFp_mont_method`, whose elements have the factor `R`. -/
def ecGFpMontMethod {p : ℕ} (R : ZMod p) : EcMethod p where
  field_sqr x := x ^ 2 * R⁻¹
  field_mul x y := x * y * R⁻¹
  field_decode := some fun x => x * R⁻¹
  sqr_standard h := by cases h
  mul_standard h := by cases h

/-- `EC_GROUP`, for the curve `y ^ 2 = x ^ 3 + a * x + b`. The coefficients are stored as the method
has them; `a_is_minus3` is about `a` itself. -/
structure EcGroup (p : ℕ) where
  meth : EcMethod p
  a : ZMod p
  b : ZMod p
  a_is_minus3 : Bool
  minus3 : a_is_minus3 = true → meth.decode a = -3

/-- The affine coordinates of a point, with none at infinity. -/
abbrev Point (p : ℕ) := Option (ZMod p × ZMod p)

/-- `BN_mod_sqrt`. -/
structure ModSqrt (p : ℕ) where
  sqrt : ZMod p → Option (ZMod p)
  sound : ∀ {a y}, sqrt a = some y → y ^ 2 = a
  complete : ∀ {a y}, y ^ 2 = a → (sqrt a).isSome

variable {p : ℕ} (g : EcGroup p) (r : ModSqrt p) (form : Form)

/-- `EC_POINT_is_on_curve`. -/
def EcGroup.OnCurve (P : ZMod p × ZMod p) : Prop :=
  P.2 ^ 2 = P.1 ^ 3 + g.meth.decode g.a * P.1 + g.meth.decode g.b

instance (P : ZMod p × ZMod p) : Decidable (g.OnCurve P) := inferInstanceAs (Decidable (_ = _))

def bnNumBytes (n : ℕ) : ℕ := (n.size + 7) / 8

def isOdd (x : ZMod p) : Bool := x.val % 2 = 1

/-- `BN_bn2bin` behind as many zeros as `field_len` asks for. -/
def putCoordinate (x : ZMod p) : Bytes :=
  replicate (bnNumBytes p - bnNumBytes x.val) 0 ++ beBytes (bnNumBytes x.val) x.val

/-- The length of what is written for a point that is not at infinity. -/
def encLen (p : ℕ) : ℕ := if form = .compressed then 1 + bnNumBytes p else 1 + 2 * bnNumBytes p

/-- `ec_GFp_simple_point2oct`, with a buffer of `len` bytes. -/
def point2oct (len : ℕ) : Point p → Option Bytes
  | none => if len < 1 then none else some [0]
  | some (x, y) =>
    if len < encLen form p then none
    else if bnNumBytes p < bnNumBytes x.val then none
    else if form ≠ .compressed ∧ bnNumBytes p < bnNumBytes y.val then none
    else some ((if form ≠ .uncompressed ∧ isOdd y then form.code + 1 else form.code) ::
      (putCoordinate x ++ if form = .compressed then [] else putCoordinate y))

/-- The right side of the equation, as `ec_GFp_simple_set_compressed_coordinates` computes it. -/
def EcGroup.rhs (x : ZMod p) : ZMod p :=
  let tmp1 := match g.meth.field_decode with
    | none => g.meth.field_mul (g.meth.field_sqr x) x
    | some _ => x ^ 2 * x
  let tmp1 :=
    if g.a_is_minus3 then tmp1 - (2 * x + x)
    else match g.meth.field_decode with
      | some field_decode => tmp1 + field_decode g.a * x
      | none => tmp1 + g.meth.field_mul g.a x
  match g.meth.field_decode with
  | some field_decode => tmp1 + field_decode g.b
  | none => tmp1 + g.b

/-- `ec_GFp_simple_set_compressed_coordinates`; both errors for `y = 0` are failures. -/
def setCompressedCoordinates (x_ : ℕ) (y_bit : Bool) : Option (ZMod p × ZMod p) := do
  let x : ZMod p := x_
  let y ← r.sqrt (g.rhs x)
  if y_bit ≠ isOdd y ∧ y = 0 then none
  else
    let y := if y_bit ≠ isOdd y then -y else y
    if y_bit ≠ isOdd y then none else some (x, y)

/-- The form and the bit in the first byte, or none at infinity. -/
def getForm (b : UInt8) : Option (Option (Form × Bool)) :=
  let y_bit : Bool := b &&& 1 = 1
  let form := b &&& 0xfe
  if form ≠ 0 ∧ form ≠ 2 ∧ form ≠ 4 ∧ form ≠ 6 then none
  else if (form = 0 ∨ form = 4) ∧ y_bit then none
  else if form = 0 then some none
  else
    let form := if form = 2 then .compressed else if form = 4 then .uncompressed else .hybrid
    some (some (form, y_bit))

def getCoordinates (y_bit : Bool) (buf : Bytes) : Option (ZMod p × ZMod p) :=
  let x := beNat (buf.take (bnNumBytes p))
  let y := beNat (buf.drop (bnNumBytes p))
  if p ≤ x then none
  else if form = .compressed then setCompressedCoordinates g r x y_bit
  else if p ≤ y then none
  else if form = .hybrid ∧ y_bit ≠ decide (y % 2 = 1) then none
  else some ((x : ZMod p), (y : ZMod p))

def oct2point : Bytes → Option (Point p)
  | [] => none
  | b :: buf =>
    match getForm b with
    | none => none
    | some none => if buf.length + 1 ≠ 1 then none else some none
    | some (some (form, y_bit)) =>
      if buf.length + 1 ≠ encLen form p then none
      else do
        let P ← getCoordinates g r form y_bit buf
        if g.OnCurve P then some (some P) else none

variable {g r form}

theorem bnNumBytes_mono {m n : ℕ} (h : m ≤ n) : bnNumBytes m ≤ bnNumBytes n :=
  Nat.div_le_div_right (Nat.add_le_add_right (Nat.size_le_size h) 7)

theorem lt_pow_bnNumBytes (n : ℕ) : n < 256 ^ bnNumBytes n := by
  have hle : n.size ≤ 8 * bnNumBytes n := by
    unfold bnNumBytes
    omega
  calc n < 2 ^ n.size := Nat.lt_size_self n
    _ ≤ 2 ^ (8 * bnNumBytes n) := Nat.pow_le_pow_right (by decide) hle
    _ = 256 ^ bnNumBytes n := by rw [Nat.pow_mul]

/-- The first byte, by the form and the bit. -/
def octet (form : Form) (y_bit : Bool) : UInt8 := if y_bit then form.code + 1 else form.code

theorem getForm_eq_some_iff {b : UInt8} {y_bit : Bool} : getForm b = some (some (form, y_bit)) ↔
    b = octet form y_bit ∧ (form = .uncompressed → y_bit = false) := by
  obtain ⟨b⟩ := b
  cases form <;> cases y_bit <;> decide +revert

theorem getForm_eq_none_iff {b : UInt8} : getForm b = some none ↔ b = 0 := by
  obtain ⟨b⟩ := b
  decide +revert

variable [Fact p.Prime] {P : ZMod p × ZMod p}

theorem putCoordinate_eq (x : ZMod p) : putCoordinate x = beBytes (bnNumBytes p) x.val := by
  have hle := bnNumBytes_mono x.val_lt.le
  refine beNat_inj ?_ ?_
  · simp [putCoordinate, length_beBytes]
    omega
  · rw [beNat_beBytes_of_lt (x.val_lt.trans (lt_pow_bnNumBytes p)), putCoordinate, beNat_append,
      beNat_beBytes_of_lt (lt_pow_bnNumBytes _)]
    simp [(beNat_eq_zero_iff _).mpr fun b hb => eq_of_mem_replicate hb]

/-- What is written behind the first byte. -/
def body (form : Form) (P : ZMod p × ZMod p) : Bytes :=
  beBytes (bnNumBytes p) P.1.val ++
    if form = .compressed then [] else beBytes (bnNumBytes p) P.2.val

def bit (form : Form) (P : ZMod p × ZMod p) : Bool := form ≠ .uncompressed ∧ isOdd P.2

theorem point2oct_some {len : ℕ} : point2oct form len (some P) =
    if len < encLen form p then none else some (octet form (bit form P) :: body form P) := by
  have hx := Nat.not_lt.mpr (bnNumBytes_mono P.1.val_lt.le)
  have hy := Nat.not_lt.mpr (bnNumBytes_mono P.2.val_lt.le)
  simp only [point2oct, hx, hy, and_false, if_false, putCoordinate_eq, octet, bit,
    decide_eq_true_eq]
  rfl

theorem isOdd_neg (hp : p % 2 = 1) {y : ZMod p} (hy : y ≠ 0) : isOdd (-y) = !isOdd y := by
  have hlt := y.val_lt
  rw [isOdd, isOdd, ZMod.neg_val, if_neg hy, ← decide_not, decide_eq_decide]
  omega

/-- Both representations give the same. -/
theorem EcGroup.rhs_eq (g : EcGroup p) (x : ZMod p) :
    g.rhs x = x ^ 3 + g.meth.decode g.a * x + g.meth.decode g.b := by
  have hminus3 := g.minus3
  unfold EcGroup.rhs EcMethod.decode at *
  cases hdecode : g.meth.field_decode with
  | none =>
    simp only [hdecode, elim_none, g.meth.sqr_standard hdecode, g.meth.mul_standard hdecode]
      at hminus3 ⊢
    split_ifs with h
    · rw [hminus3 h]
      ring
    · ring
  | some field_decode =>
    simp only [hdecode, elim_some] at hminus3 ⊢
    split_ifs with h
    · rw [hminus3 h]
      ring
    · ring

theorem setCompressedCoordinates_iff (hp : p % 2 = 1) {x_ : ℕ} {y_bit : Bool} :
    setCompressedCoordinates g r x_ y_bit = some P ↔
      P.1 = x_ ∧ g.OnCurve P ∧ isOdd P.2 = y_bit := by
  obtain ⟨x, y⟩ := P
  simp only [setCompressedCoordinates, g.rhs_eq, bind_eq_bind, bind_eq_some_iff,
    ite_none_left_eq_some, some_inj, Prod.mk.injEq, EcGroup.OnCurve, not_and, not_not]
  constructor
  · rintro ⟨y', hsqrt, -, hbit, rfl, rfl⟩
    refine ⟨rfl, ?_, hbit.symm⟩
    have hsq := r.sound hsqrt
    split_ifs
    · rwa [neg_sq]
    · exact hsq
  rintro ⟨rfl, hcurve, rfl⟩
  obtain ⟨y', hy'⟩ := isSome_iff_exists.mp (r.complete hcurve)
  refine ⟨y', hy', ?_⟩
  rcases sq_eq_sq_iff_eq_or_eq_neg.mp (hcurve.trans (r.sound hy').symm) with rfl | rfl
  · simp
  · by_cases hzero : y' = 0
    · simp [hzero]
    · simp [isOdd_neg hp hzero, hzero]

theorem beBytes_val_iff {x : ZMod p} {xs : Bytes} (h : xs.length = bnNumBytes p) :
    beBytes (bnNumBytes p) x.val = xs ↔ beNat xs < p ∧ x = beNat xs := by
  constructor
  · rintro rfl
    rw [beNat_beBytes_of_lt (x.val_lt.trans (lt_pow_bnNumBytes p))]
    exact ⟨x.val_lt, x.natCast_zmod_val.symm⟩
  · rintro ⟨hlt, rfl⟩
    rw [ZMod.val_natCast_of_lt hlt, ← h, beBytes_beNat]

theorem getCoordinates_iff (hp : p % 2 = 1) {y_bit : Bool} {buf : Bytes}
    (hbuf : buf.length + 1 = encLen form p) (hbit : form = .uncompressed → y_bit = false)
    (h : g.OnCurve P) :
    getCoordinates g r form y_bit buf = some P ↔ bit form P = y_bit ∧ body form P = buf := by
  have hx := @beBytes_val_iff p _ P.1 (buf.take (bnNumBytes p))
  have hy := @beBytes_val_iff p _ P.2 (buf.drop (bnNumBytes p))
  rw [length_take] at hx
  rw [length_drop] at hy
  unfold encLen at hbuf
  simp only [getCoordinates, body]
  by_cases hform : form = .compressed
  · rw [if_pos hform] at hbuf
    rw [take_of_length_le (by omega)] at hx ⊢
    rw [if_pos hform, if_pos hform, append_nil, hx (by omega), ite_none_left_eq_some,
      setCompressedCoordinates_iff hp]
    simp [bit, hform, h]
    tauto
  rw [if_neg hform] at hbuf
  have hsplit : beBytes (bnNumBytes p) P.1.val ++ beBytes (bnNumBytes p) P.2.val = buf ↔
      beBytes (bnNumBytes p) P.1.val = buf.take (bnNumBytes p) ∧
        beBytes (bnNumBytes p) P.2.val = buf.drop (bnNumBytes p) := by
    constructor
    · rintro rfl
      exact ⟨(take_left' (length_beBytes ..)).symm, (drop_left' (length_beBytes ..)).symm⟩
    · rintro ⟨hfst, hsnd⟩
      rw [hfst, hsnd, take_append_drop]
  simp only [if_neg hform, hsplit, hx (by omega), hy (by omega), ite_none_left_eq_some,
    some_inj, not_le, Prod.ext_iff]
  generalize beNat (buf.drop (bnNumBytes p)) = y
  -- Only the hybrid form has the parity of `y`.
  have hparity (hlt : y < p) (heq : P.2 = y) :
      bit form P = y_bit ↔ ¬ (form = .hybrid ∧ y_bit ≠ decide (y % 2 = 1)) := by
    rw [bit, isOdd, heq, ZMod.val_natCast_of_lt hlt]
    cases form with
    | compressed => exact absurd rfl hform
    | uncompressed => simp [hbit rfl]
    | hybrid => simp [eq_comm]
  constructor
  · rintro ⟨hxlt, hylt, hcheck, hxeq, hyeq⟩
    exact ⟨(hparity hylt hyeq.symm).mpr hcheck, ⟨hxlt, hxeq.symm⟩, hylt, hyeq.symm⟩
  · rintro ⟨hbit, ⟨hxlt, hxeq⟩, hylt, hyeq⟩
    exact ⟨hxlt, hylt, (hparity hylt hyeq).mp hbit, hxeq.symm, hyeq.symm⟩

/-- A string is read as a point exactly if it is what is written for that point. -/
theorem oct2point_eq_some_iff (hp : p % 2 = 1) {buf : Bytes} {Q : Point p} :
    oct2point g r buf = some Q ↔
      (∀ P ∈ Q, g.OnCurve P) ∧ ∃ form len, point2oct form len Q = some buf := by
  constructor
  · intro h
    cases buf with
    | nil => cases h
    | cons b buf =>
      rw [oct2point] at h
      cases hform : getForm b with
      | none => simp [hform] at h
      | some first =>
        rw [hform] at h
        cases first with
        | none =>
          obtain ⟨hlen, h⟩ := ite_none_left_eq_some.mp h
          obtain rfl : buf = [] := length_eq_zero_iff.mp (by omega)
          cases h
          exact ⟨by rintro _ ⟨⟩, .compressed, 1, by rw [getForm_eq_none_iff.mp hform]; rfl⟩
        | some first =>
          obtain ⟨form, y_bit⟩ := first
          obtain ⟨rfl, hbit⟩ := getForm_eq_some_iff.mp hform
          obtain ⟨hlen, h⟩ := ite_none_left_eq_some.mp h
          obtain ⟨P, hget, h⟩ := bind_eq_some_iff.mp h
          obtain ⟨hcurve, hQ⟩ := ite_none_right_eq_some.mp h
          cases hQ
          obtain ⟨rfl, rfl⟩ := (getCoordinates_iff hp (not_not.mp hlen) hbit hcurve).mp hget
          refine ⟨by rintro _ ⟨⟩; exact hcurve, form, encLen form p, ?_⟩
          rw [point2oct_some, if_neg (Nat.lt_irrefl _)]
  · rintro ⟨hQ, form, len, h⟩
    cases Q with
    | none =>
      obtain ⟨-, h⟩ := ite_none_left_eq_some.mp h
      cases h
      rfl
    | some P =>
      rw [point2oct_some, ite_none_left_eq_some] at h
      cases h.2
      have hbit : form = .uncompressed → bit form P = false := by
        rintro rfl
        rfl
      have hlen : (body form P).length + 1 = encLen form p := by
        unfold body encLen
        split_ifs <;> simp [length_beBytes] <;> omega
      have hget := (getCoordinates_iff (r := r) hp hlen hbit (hQ P rfl)).mpr ⟨rfl, rfl⟩
      simp only [oct2point, getForm_eq_some_iff.mpr ⟨rfl, hbit⟩, if_neg (not_not.mpr hlen), hget,
        bind_eq_bind, bind_some, if_pos (hQ P rfl)]

/-- Every point is read back in every form, and a string is read exactly if it was written for a
point. -/
theorem point_octets (hp : 3 < p) (g : EcGroup p) (r : ModSqrt p) :
    (∀ (Q : Point p) (form : Form) (len : ℕ), (∀ P ∈ Q, g.OnCurve P) → encLen form p ≤ len →
      ∃ buf, point2oct form len Q = some buf ∧ oct2point g r buf = some Q) ∧
    ∀ buf, (oct2point g r buf).isSome ↔
      ∃ Q : Point p, (∀ P ∈ Q, g.OnCurve P) ∧ ∃ form len, point2oct form len Q = some buf := by
  have hodd : p % 2 = 1 := (Fact.out : p.Prime).eq_two_or_odd.resolve_left (by omega)
  refine ⟨fun Q form len hQ hlen => ?_, fun buf => ?_⟩
  · obtain ⟨buf, hbuf⟩ : ∃ buf, point2oct form len Q = some buf := by
      cases Q with
      | none =>
        refine ⟨[0], if_neg ?_⟩
        unfold encLen at hlen
        split_ifs at hlen <;> omega
      | some P => exact ⟨_, point2oct_some.trans (if_neg (by omega))⟩
    exact ⟨buf, hbuf, (oct2point_eq_some_iff hodd).mpr ⟨hQ, form, len, hbuf⟩⟩
  · rw [isSome_iff_exists]
    exact exists_congr fun Q => oct2point_eq_some_iff hodd

/-- Square roots modulo 5, by trying. -/
def sqrtFive : ModSqrt 5 where
  sqrt a := [0, 1, 2, 3, 4].find? fun y => y ^ 2 = a
  sound h := by simpa using find?_some h
  complete := by
    rintro _ y rfl
    revert y
    decide

/-- The curve `y² = x³ + x + 1` over the integers modulo 5. -/
def simpleFive : EcGroup 5 := ⟨ecGFpSimpleMethod 5, 1, 1, false, by decide⟩

/-- The same curve, with the coefficients in Montgomery form. -/
def montFive : EcGroup 5 := ⟨ecGFpMontMethod 2, 2, 2, false, by decide⟩

/-- A point of both. -/
theorem point_octets_five :
    (∃ buf, point2oct .compressed 2 (some ((2 : ZMod 5), 1)) = some buf ∧
      oct2point simpleFive sqrtFive buf = some (some (2, 1))) ∧
    ∃ buf, point2oct .compressed 2 (some ((2 : ZMod 5), 1)) = some buf ∧
      oct2point montFive sqrtFive buf = some (some (2, 1)) := by
  have hsimple : simpleFive.OnCurve (2, 1) := by decide +kernel
  have hmont : montFive.OnCurve (2, 1) := by decide +kernel
  have : Fact (Nat.Prime 5) := ⟨by decide⟩
  have hread (g : EcGroup 5) (h : g.OnCurve (2, 1)) :=
    (point_octets (by decide) g sqrtFive).1 (some (2, 1)) .compressed 2 (by
      rintro _ ⟨⟩
      exact h) (by decide)
  exact ⟨hread _ hsimple, hread _ hmont⟩

end VigorTls.Ec
