import Mathlib.Data.List.GetD
import VigorTls.Lib.Bytes

/-!
# Parsing times

`ASN1_time_parse` of `crypto/asn1/a_time_tm.c` and its callers `ASN1_UTCTIME_cmp_time_t`,
`ASN1_TIME_to_generalizedtime` and `X509_cmp_time` (`crypto/x509/x509_vfy.c`). The year of a UTCTime
is added to what is in `*tm` (`time_parse_iff`). Only the last two callers clear the structure.
-/

namespace VigorTls.Asn1

open List

/-- `struct tm`, as far as it is used; a sum that overflows an `int` is undefined in C. -/
structure Tm where
  tm_year : ℤ
  tm_mon : ℤ
  tm_mday : ℤ
  tm_hour : ℤ
  tm_min : ℤ
  tm_sec : ℤ
deriving DecidableEq

def Tm.zero : Tm := ⟨0, 0, 0, 0, 0, 0⟩

/-- `V_ASN1_UTCTIME` and `V_ASN1_GENERALIZEDTIME`. -/
inductive TimeType
  | utctime
  | generalizedtime
deriving DecidableEq

variable (bytes : Bytes) (tm : Tm) (mode : Option TimeType)

/-- `ATOI2`, for the digits at `i`. -/
def atoi2 (i : ℕ) : ℤ :=
  ((bytes.getD i 0).toNat - 48) * 10 + ((bytes.getD (i + 1) 0).toNat - 48)

def isdigit (c : UInt8) : Bool := 48 ≤ c && c ≤ 57

/-- `ASN1_time_parse` after the year: the other fields are at `i`. -/
def timeFields (tm_year : ℤ) (i : ℕ) : Option Tm :=
  let tm_mon := atoi2 bytes i - 1
  let tm_mday := atoi2 bytes (i + 2)
  let tm_hour := atoi2 bytes (i + 4)
  let tm_min := atoi2 bytes (i + 6)
  let tm_sec := atoi2 bytes (i + 8)
  if tm_mon < 0 ∨ tm_mon > 11 then none
  else if tm_mday < 1 ∨ tm_mday > 31 then none
  else if tm_hour < 0 ∨ tm_hour > 23 then none
  else if tm_min < 0 ∨ tm_min > 59 then none
  else if tm_sec < 0 ∨ tm_sec > 59 then none
  else some ⟨tm_year, tm_mon, tm_mday, tm_hour, tm_min, tm_sec⟩

/-- `ASN1_time_parse`: the type, and `*tm` after it. `mode` is none for 0. -/
def asn1TimeParse : Option (TimeType × Tm) :=
  if bytes.length ≠ 13 ∧ bytes.length ≠ 15 then none
  else if bytes.getD (bytes.length - 1) 0 ≠ 90 then none
  else if ¬ bytes.dropLast.all isdigit then none
  else if bytes.length = 15 then
    if mode = some .utctime then none
    else
      let tm_year := atoi2 bytes 0 * 100 - 1900
      (timeFields bytes (tm_year + atoi2 bytes 2) 4).map (.generalizedtime, ·)
  else if mode = some .generalizedtime then none
  else
    let tm_year := tm.tm_year + atoi2 bytes 0
    (timeFields bytes (if tm_year < 50 then tm_year + 100 else tm_year) 2).map (.utctime, ·)

def asn1TimeTmCmp (tm1 tm2 : Tm) : ℤ :=
  if tm1.tm_year < tm2.tm_year then -1
  else if tm1.tm_year > tm2.tm_year then 1
  else if tm1.tm_mon < tm2.tm_mon then -1
  else if tm1.tm_mon > tm2.tm_mon then 1
  else if tm1.tm_mday < tm2.tm_mday then -1
  else if tm1.tm_mday > tm2.tm_mday then 1
  else if tm1.tm_hour < tm2.tm_hour then -1
  else if tm1.tm_hour > tm2.tm_hour then 1
  else if tm1.tm_min < tm2.tm_min then -1
  else if tm1.tm_min > tm2.tm_min then 1
  else if tm1.tm_sec < tm2.tm_sec then -1
  else if tm1.tm_sec > tm2.tm_sec then 1
  else 0

section Callers

-- In each of them `tm` is what the local variable happens to hold.
variable (gmtime_r : ℤ → Option Tm)

def asn1UtctimeCmpTimeT (t2 : ℤ) : ℤ :=
  match asn1TimeParse bytes tm (some .utctime), gmtime_r t2 with
  | some (_, tm1), some tm2 => asn1TimeTmCmp tm1 tm2
  | _, _ => -2

/-- `ASN1_TIME_to_generalizedtime`: the new string, by the numbers that `asprintf` is given. -/
def asn1TimeToGeneralizedtime (asprintf : List ℤ → Option Bytes) (type : TimeType)
    (_tm : Tm) : Option Bytes := do
  let (type', tm) ← asn1TimeParse bytes .zero (some type)
  let year := tm.tm_year + 1900
  if type ≠ type' ∨ year < 0 ∨ year > 9999 then none
  else asprintf [year, tm.tm_mon + 1, tm.tm_mday, tm.tm_hour, tm.tm_min, tm.tm_sec]

/-- `X509_cmp_time`; `timegm` also normalises its argument. -/
def x509CmpTime (timegm : Tm → ℤ × Tm) (time2 : ℤ) (_tm : Tm) : ℤ :=
  match asn1TimeParse bytes .zero none with
  | none => 0
  | some (type, tm1) =>
    if tm1.tm_year < 150 ∧ type ≠ .utctime then 0
    else if tm1.tm_year ≥ 150 ∧ type ≠ .generalizedtime then 0
    else
      let (time1, tm1) := timegm tm1
      if time1 = -1 then 0
      else
        match gmtime_r time2 with
        | none => 0
        | some tm2 =>
          let ret := asn1TimeTmCmp tm1 tm2
          if ret = 0 then -1 else ret

end Callers

/-! ## The time that is denoted -/

/-- The year that a string denotes, from 1900 on. -/
def denotedYear : ℤ :=
  if bytes.length = 15 then atoi2 bytes 0 * 100 + atoi2 bytes 2 - 1900
  else if atoi2 bytes 0 < 50 then atoi2 bytes 0 + 100
  else atoi2 bytes 0

def denoted : Tm :=
  let i := bytes.length - 11
  ⟨denotedYear bytes, atoi2 bytes i - 1, atoi2 bytes (i + 2), atoi2 bytes (i + 4),
    atoi2 bytes (i + 6), atoi2 bytes (i + 8)⟩

/-- What is stored is what the string denotes, and what the callers give does not depend on the
structure. -/
structure TimeRight : Prop where
  stored : ∀ r ∈ asn1TimeParse bytes tm mode, r.2 = denoted bytes
  utctime : ∀ gmtime_r t2,
    asn1UtctimeCmpTimeT bytes tm gmtime_r t2 = asn1UtctimeCmpTimeT bytes .zero gmtime_r t2
  generalized : ∀ asprintf type,
    asn1TimeToGeneralizedtime bytes asprintf type tm =
      asn1TimeToGeneralizedtime bytes asprintf type .zero
  x509 : ∀ gmtime_r timegm time2,
    x509CmpTime bytes gmtime_r timegm time2 tm = x509CmpTime bytes gmtime_r timegm time2 .zero

/-- The year is set, or added to one that makes no difference. -/
def YearReset : Prop :=
  bytes.length = 15 ∨ tm.tm_year = 0 ∨ (tm.tm_year = 100 ∧ atoi2 bytes 0 < 50) ∨
    (tm.tm_year = -100 ∧ 50 ≤ atoi2 bytes 0)

variable {bytes tm mode}

theorem timeFields_eq_some {year : ℤ} {i : ℕ} {t : Tm} (h : timeFields bytes year i = some t) :
    t = ⟨year, atoi2 bytes i - 1, atoi2 bytes (i + 2), atoi2 bytes (i + 4), atoi2 bytes (i + 6),
      atoi2 bytes (i + 8)⟩ := by
  simp only [timeFields] at h
  split_ifs at h
  exact (Option.some.inj h).symm

theorem atoi2_digits (h : bytes.dropLast.all isdigit) (hlen : 3 ≤ bytes.length) :
    0 ≤ atoi2 bytes 0 ∧ atoi2 bytes 0 ≤ 99 := by
  have hdigit {i : ℕ} (hi : i < 2) : 48 ≤ (bytes.getD i 0).toNat ∧ (bytes.getD i 0).toNat ≤ 57 := by
    have hlt : i < bytes.dropLast.length := by
      rw [length_dropLast]
      omega
    have hmem := all_eq_true.mp h _ (getElem_mem hlt)
    rw [getElem_dropLast, isdigit, Bool.and_eq_true, decide_eq_true_eq, decide_eq_true_eq] at hmem
    rw [getD_eq_getElem _ _ (by omega : i < bytes.length)]
    exact hmem
  have h0 := hdigit Nat.zero_lt_two
  have h1 := hdigit Nat.one_lt_two
  rw [atoi2, Nat.zero_add]
  omega

theorem stored_iff {r : TimeType × Tm} (h : asn1TimeParse bytes tm mode = some r) :
    r.2 = denoted bytes ↔ YearReset bytes tm := by
  unfold asn1TimeParse at h
  split_ifs at h with hlen hz hdigits hgen hmode hmode
  · obtain ⟨t, ht, rfl⟩ := Option.map_eq_some_iff.mp h
    have hyear : atoi2 bytes 0 * 100 - 1900 + atoi2 bytes 2 =
        atoi2 bytes 0 * 100 + atoi2 bytes 2 - 1900 := by omega
    rw [timeFields_eq_some ht, denoted, denotedYear, if_pos hgen, hgen, hyear]
    exact iff_of_true rfl (.inl hgen)
  obtain ⟨t, ht, rfl⟩ := Option.map_eq_some_iff.mp h
  have hutc : bytes.length = 13 := by omega
  have hyy := atoi2_digits hdigits (by omega)
  rw [timeFields_eq_some ht, denoted, denotedYear, YearReset, hutc]
  simp only [Tm.mk.injEq, and_true]
  split_ifs <;> omega

theorem parse_of_yearReset (h : YearReset bytes tm) :
    asn1TimeParse bytes tm mode = asn1TimeParse bytes .zero mode := by
  unfold asn1TimeParse
  split_ifs with hlen hz hdigits hgen hmode hmode
  all_goals try rfl
  have hyy := atoi2_digits hdigits (by omega)
  unfold YearReset at h
  simp only [Tm.zero]
  congr 2
  split_ifs <;> omega

/-- A string that is parsed leaves what it denotes, and the callers do not see what was there
before, exactly if the year is set, or added to one that makes no difference. -/
theorem time_parse_iff (h : (asn1TimeParse bytes tm mode).isSome) :
    TimeRight bytes tm mode ↔ YearReset bytes tm := by
  obtain ⟨r, hr⟩ := Option.isSome_iff_exists.mp h
  constructor
  · intro hright
    exact (stored_iff hr).mp (hright.stored r hr)
  intro hreset
  refine ⟨fun r hr => (stored_iff hr).mpr hreset, fun gmtime_r t2 => ?_, fun _ _ => rfl,
    fun _ _ _ => rfl⟩
  rw [asn1UtctimeCmpTimeT, parse_of_yearReset hreset]
  rfl

/-- The start of 2000, read over a time of that year. -/
theorem time_parse_again :
    TimeRight [48, 48, 48, 49, 48, 49, 48, 48, 48, 48, 48, 48, 90] ⟨100, 5, 4, 3, 2, 1⟩ none :=
  (time_parse_iff (by decide)).mpr (.inr (.inr (.inl (by decide))))

/-- Over a structure with the year 1 the same string is one of 2001, and is later than itself. -/
theorem time_parse_old :
    let bytes := [48, 48, 48, 49, 48, 49, 48, 48, 48, 48, 48, 48, 90]
    let tm : Tm := ⟨1, 0, 0, 0, 0, 0⟩
    asn1TimeParse bytes tm none = some (.utctime, ⟨101, 0, 1, 0, 0, 0⟩) ∧
      asn1TimeParse bytes .zero none = some (.utctime, ⟨100, 0, 1, 0, 0, 0⟩) ∧
      asn1UtctimeCmpTimeT bytes tm (fun _ => some (denoted bytes)) 946684800 = 1 ∧
      asn1UtctimeCmpTimeT bytes .zero (fun _ => some (denoted bytes)) 946684800 = 0 := by
  decide

end VigorTls.Asn1
