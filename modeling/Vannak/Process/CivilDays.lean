import Vannak.Foundation.Overflow
import Vannak.Process.Chronology
import Vannak.Process.Timestamp

/-!
# Days from civil dates

`days_from_civil` of `ingest.rs` counts in years that begin on 1 March and in eras of 400 years, on `i32`. Here is the
same computation with an overflow at any step reported, the days it counts, and when they fit.
-/

namespace Vannak.Process

open Foundation

set_option autoImplicit false

/-! ## The checked computation -/

def eraChecked (year : Int32) : Option Int32 :=
  if 0 ≤ year then some (year / 400) else (subChecked year 399).map (· / 400)

def dayOfYearChecked (month day : Int32) : Option Int32 := do
  let shifted ← addChecked month (if month > 2 then -3 else 9)
  let scaled ← addChecked (← mulChecked 153 shifted) 2
  subChecked (← addChecked (scaled / 5) day) 1

def dayOfEraChecked (yoe doy : Int32) : Option Int32 := do
  let days ← addChecked (← mulChecked yoe 365) (yoe / 4)
  addChecked (← subChecked days (yoe / 100)) doy

/-- `days_from_civil`; no result at all if an operation overflows. -/
def daysFromCivilChecked (year : Int32) (month day : UInt32) : Option (Option Int32) :=
  if ¬(1 ≤ month ∧ month ≤ 12) ∨ ¬(1 ≤ day ∧ day ≤ 31) then some none
  else do
    let year ← subChecked year (if month ≤ 2 then 1 else 0)
    let era ← eraChecked year
    let yoe ← subChecked year (← mulChecked era 400)
    let doy ← dayOfYearChecked month.toInt32 day.toInt32
    let doe ← dayOfEraChecked yoe doy
    let days ← subChecked (← addChecked (← mulChecked era 146097) doe) 719468
    return some days

theorem bind_unwrapped {α : Type} {exact : Int} {result : Int32} {rest : Int32 → Option α} {value : α}
    (h : (unwrapped exact result).bind rest = some value) : rest result = some value := by
  obtain ⟨found, hFound, hRest⟩ := Option.bind_eq_some_iff.mp h
  rwa [← eq_of_unwrapped hFound] at hRest

theorem eraChecked_eq_some {year era : Int32} (h : eraChecked year = some era) :
    (if 0 ≤ year then year else year - 399) / 400 = era := by
  rw [eraChecked] at h
  split at h
  · rename_i hPositive
    rw [if_pos hPositive]
    exact Option.some.inj h
  · rename_i hNegative
    obtain ⟨shifted, hShifted, rfl⟩ := Option.map_eq_some_iff.mp h
    rw [if_neg hNegative, eq_of_unwrapped hShifted]

theorem dayOfYearChecked_eq_some {month day doy : Int32} (h : dayOfYearChecked month day = some doy) :
    (153 * (month + (if month > 2 then -3 else 9)) + 2) / 5 + day - 1 = doy := by
  have hScaled := bind_unwrapped (bind_unwrapped (bind_unwrapped h))
  have hDay := bind_unwrapped hScaled
  exact eq_of_unwrapped hDay

theorem dayOfEraChecked_eq_some {yoe doy doe : Int32} (h : dayOfEraChecked yoe doy = some doe) :
    yoe * 365 + yoe / 4 - yoe / 100 + doy = doe := by
  have hDays := bind_unwrapped (bind_unwrapped h)
  have hYears := bind_unwrapped hDays
  exact eq_of_unwrapped hYears

/-- Without an overflow the wrapping computation has the same result. -/
theorem daysFromCivil_of_checked {year : Int32} {month day : UInt32} {days : Option Int32}
    (h : daysFromCivilChecked year month day = some days) : daysFromCivil year month day = days := by
  rw [daysFromCivilChecked] at h
  rw [daysFromCivil]
  split at h
  · rename_i hInvalid
    rw [if_pos hInvalid]
    exact Option.some.inj h
  · rename_i hValid
    rw [if_neg hValid]
    have hYear := bind_unwrapped h
    obtain ⟨era, hEra, hYoe⟩ := Option.bind_eq_some_iff.mp hYear
    have hProduct := bind_unwrapped hYoe
    have hDifference := bind_unwrapped hProduct
    obtain ⟨doy, hDoy, hRest⟩ := Option.bind_eq_some_iff.mp hDifference
    obtain ⟨doe, hDoe, hEras⟩ := Option.bind_eq_some_iff.mp hRest
    have hSum := bind_unwrapped hEras
    have hEpoch := bind_unwrapped hSum
    have hDays := bind_unwrapped hEpoch
    simp only [eraChecked_eq_some hEra, dayOfYearChecked_eq_some hDoy, dayOfEraChecked_eq_some hDoe]
    exact Option.some.inj hDays

/-! ## The days it counts -/

/-- Months of a year that begins in March. -/
def shiftedMonth (month : Int) : Int := month + if month > 2 then -3 else 9

def dayOfYear (month day : Int) : Int := (153 * shiftedMonth month + 2) / 5 + day - 1

def dayOfEra (yoe doy : Int) : Int := yoe * 365 + yoe / 4 - yoe / 100 + doy

/-- Days since 1 March of the year 0. -/
def daysSinceMarch (year month day : Int) : Int :=
  let year := year - if month ≤ 2 then 1 else 0
  year / 400 * 146097 + dayOfEra (year % 400) (dayOfYear month day)

theorem shiftedMonth_mem {month : Int} (hLow : 1 ≤ month) (hHigh : month ≤ 12) :
    0 ≤ shiftedMonth month ∧ shiftedMonth month ≤ 11 := by
  rw [shiftedMonth]
  split <;> omega

theorem dayOfYearChecked_eq {month day : Int32} (hMonth : 1 ≤ month.toInt ∧ month.toInt ≤ 12)
    (hDay : 1 ≤ day.toInt ∧ day.toInt ≤ 31) :
    ∃ doy, dayOfYearChecked month day = some doy ∧ doy.toInt = dayOfYear month.toInt day.toInt := by
  have hMem := shiftedMonth_mem hMonth.1 hMonth.2
  have hOffset : (if month > 2 then -3 else 9 : Int32).toInt = if month.toInt > 2 then -3 else 9 := by
    have hIff : month > 2 ↔ month.toInt > 2 := Int32.lt_iff_toInt_lt
    by_cases hLate : month.toInt > 2
    · rw [if_pos hLate, if_pos (hIff.mpr hLate)]
      rfl
    · rw [if_neg hLate, if_neg (hIff.not.mpr hLate)]
      rfl
  obtain ⟨shifted, hShifted, hShiftedInt⟩ :=
    addChecked_of_fits (rfl : month.toInt = month.toInt) hOffset ⟨by rw [shiftedMonth] at hMem; omega, by
      rw [shiftedMonth] at hMem; omega⟩
  rw [← shiftedMonth] at hShiftedInt
  obtain ⟨product, hProduct, hProductInt⟩ :=
    mulChecked_of_fits (by decide : (153 : Int32).toInt = 153) hShiftedInt ⟨by omega, by omega⟩
  obtain ⟨scaled, hScaled, hScaledInt⟩ :=
    addChecked_of_fits hProductInt (by decide : (2 : Int32).toInt = 2) ⟨by omega, by omega⟩
  have hMonths := toInt_div_of_nonneg hScaledInt (by decide : (5 : Int32).toInt = 5) (by omega) (by decide)
  obtain ⟨counted, hCounted, hCountedInt⟩ :=
    addChecked_of_fits hMonths (rfl : day.toInt = day.toInt) ⟨by omega, by omega⟩
  obtain ⟨doy, hDoy, hDoyInt⟩ :=
    subChecked_of_fits hCountedInt (by decide : (1 : Int32).toInt = 1) ⟨by omega, by omega⟩
  refine ⟨doy, ?_, hDoyInt⟩
  rw [dayOfYearChecked, hShifted]
  simp only [hProduct, hScaled, hCounted, hDoy, Option.bind_eq_bind, Option.bind_some]

theorem dayOfYear_mem {month day : Int} (hMonth : 1 ≤ month ∧ month ≤ 12) (hDay : 1 ≤ day ∧ day ≤ 31) :
    0 ≤ dayOfYear month day ∧ dayOfYear month day ≤ 367 := by
  have hMem := shiftedMonth_mem hMonth.1 hMonth.2
  rw [dayOfYear]
  omega

theorem dayOfEraChecked_eq {yoe doy : Int32} {years days : Int} (hYoe : yoe.toInt = years) (hDoy : doy.toInt = days)
    (hYears : 0 ≤ years ∧ years < 400) (hDays : 0 ≤ days ∧ days ≤ 367) :
    ∃ doe, dayOfEraChecked yoe doy = some doe ∧ doe.toInt = dayOfEra years days := by
  obtain ⟨product, hProduct, hProductInt⟩ :=
    mulChecked_of_fits hYoe (by decide : (365 : Int32).toInt = 365) ⟨by omega, by omega⟩
  have hLeap := toInt_div_of_nonneg hYoe (by decide : (4 : Int32).toInt = 4) hYears.1 (by decide)
  have hCentury := toInt_div_of_nonneg hYoe (by decide : (100 : Int32).toInt = 100) hYears.1 (by decide)
  obtain ⟨leap, hLeapDays, hLeapInt⟩ := addChecked_of_fits hProductInt hLeap ⟨by omega, by omega⟩
  obtain ⟨common, hCommon, hCommonInt⟩ := subChecked_of_fits hLeapInt hCentury ⟨by omega, by omega⟩
  obtain ⟨doe, hDoe, hDoeInt⟩ := addChecked_of_fits hCommonInt hDoy ⟨by omega, by omega⟩
  refine ⟨doe, ?_, hDoeInt⟩
  rw [dayOfEraChecked, hProduct]
  simp only [hLeapDays, hCommon, hDoe, Option.bind_eq_bind, Option.bind_some]

/-- A year is at least -1 where it begins in March. -/
theorem eraChecked_eq {year : Int32} {value : Int} (hYear : year.toInt = value) (hValue : -1 ≤ value) :
    ∃ era, eraChecked year = some era ∧ era.toInt = value / 400 := by
  have hIff : 0 ≤ year ↔ 0 ≤ value := by
    rw [Int32.le_iff_toInt_le, hYear]
    rfl
  rw [eraChecked]
  by_cases hPositive : 0 ≤ value
  · rw [if_pos (hIff.mpr hPositive)]
    exact ⟨_, rfl, toInt_div_of_nonneg hYear (by decide : (400 : Int32).toInt = 400) hPositive (by decide)⟩
  · obtain rfl : value = -1 := by omega
    obtain ⟨shifted, hShifted, hShiftedInt⟩ :=
      subChecked_of_fits hYear (by decide : (399 : Int32).toInt = 399) (by decide)
    rw [if_neg (hIff.not.mpr hPositive), hShifted]
    refine ⟨_, rfl, ?_⟩
    rw [Int32.toInt_div_of_ne_right _ _ (by decide), hShiftedInt]
    rfl

/-! ## When they fit -/

/-- A month and a day that `days_from_civil` accepts, in a year that has no minus sign. -/
structure Accepted (year : Int32) (month day : UInt32) : Prop where
  year_nonneg : 0 ≤ year.toInt
  month_mem : 1 ≤ month ∧ month ≤ 12
  day_mem : 1 ≤ day ∧ day ≤ 31

section

variable {year : Int32} {month day : UInt32}

def sinceMarch (year : Int32) (month day : UInt32) : Int := daysSinceMarch year.toInt month.toNat day.toNat

theorem toInt_toInt32_of_lt (value : UInt32) (h : value.toNat < 2 ^ 31) : value.toInt32.toInt = value.toNat := by
  change value.toBitVec.toInt = value.toBitVec.toNat
  have hToNat : value.toBitVec.toNat = value.toNat := rfl
  exact BitVec.toInt_eq_toNat_of_lt (by omega)

theorem Accepted.month_toNat (h : Accepted year month day) : 1 ≤ month.toNat ∧ month.toNat ≤ 12 :=
  ⟨UInt32.le_iff_toNat_le.mp h.month_mem.1, UInt32.le_iff_toNat_le.mp h.month_mem.2⟩

theorem Accepted.day_toNat (h : Accepted year month day) : 1 ≤ day.toNat ∧ day.toNat ≤ 31 :=
  ⟨UInt32.le_iff_toNat_le.mp h.day_mem.1, UInt32.le_iff_toNat_le.mp h.day_mem.2⟩

/-- All operations before the days of the eras are added up fit. -/
theorem daysFromCivilChecked_eq (h : Accepted year month day) :
    ∃ era doe : Int32, (0 ≤ doe.toInt ∧ doe.toInt < 262144) ∧ -1 ≤ era.toInt ∧
      era.toInt * 146097 + doe.toInt = sinceMarch year month day ∧
      daysFromCivilChecked year month day = do
        let days ← subChecked (← addChecked (← mulChecked era 146097) doe) 719468
        return some days := by
  have hYear := h.year_nonneg
  have hMonth := h.month_toNat
  have hDay := h.day_toNat
  have hYearLt := (fits32_toInt year).2
  have hMonthInt := toInt_toInt32_of_lt month (by omega)
  have hDayInt := toInt_toInt32_of_lt day (by omega)
  have hEarly : (if month ≤ 2 then 1 else 0 : Int32).toInt = if (month.toNat : Int) ≤ 2 then 1 else 0 := by
    have hIff : month ≤ 2 ↔ (month.toNat : Int) ≤ 2 := by
      rw [UInt32.le_iff_toNat_le]
      exact Int.ofNat_le.symm
    by_cases hLe : month ≤ 2
    · rw [if_pos hLe, if_pos (hIff.mp hLe)]
      rfl
    · rw [if_neg hLe, if_neg (hIff.not.mp hLe)]
      rfl
  obtain ⟨shifted, hShifted, hShiftedInt⟩ :=
    subChecked_of_fits (rfl : year.toInt = year.toInt) hEarly ⟨by split <;> omega, by split <;> omega⟩
  have hLow : -1 ≤ year.toInt - if (month.toNat : Int) ≤ 2 then 1 else 0 := by
    split <;> omega
  obtain ⟨era, hEra, hEraInt⟩ := eraChecked_eq hShiftedInt hLow
  obtain ⟨eras, hEras, hErasInt⟩ :=
    mulChecked_of_fits hEraInt (by decide : (400 : Int32).toInt = 400) ⟨by omega, by omega⟩
  obtain ⟨yoe, hYoe, hYoeInt⟩ := subChecked_of_fits hShiftedInt hErasInt ⟨by omega, by omega⟩
  obtain ⟨doy, hDoy, hDoyInt⟩ : ∃ doy, dayOfYearChecked month.toInt32 day.toInt32 = some doy ∧
      doy.toInt = dayOfYear month.toInt32.toInt day.toInt32.toInt :=
    dayOfYearChecked_eq ⟨by omega, by omega⟩ ⟨by omega, by omega⟩
  rw [hMonthInt, hDayInt] at hDoyInt
  have hDoyMem : 0 ≤ dayOfYear month.toNat day.toNat ∧ dayOfYear month.toNat day.toNat ≤ 367 :=
    dayOfYear_mem ⟨by omega, by omega⟩ ⟨by omega, by omega⟩
  obtain ⟨doe, hDoe, hDoeInt⟩ := dayOfEraChecked_eq hYoeInt hDoyInt ⟨by omega, by omega⟩ hDoyMem
  refine ⟨era, doe, ?_, by omega, ?_, ?_⟩
  · rw [hDoeInt, dayOfEra]
    constructor <;> omega
  · have hMod (value : Int) : value - value / 400 * 400 = value % 400 := by
      omega
    rw [hEraInt, hDoeInt, sinceMarch, daysSinceMarch, hMod]
  · have hValid : ¬(¬(1 ≤ month ∧ month ≤ 12) ∨ ¬(1 ≤ day ∧ day ≤ 31)) := by
      rw [not_or, not_not, not_not]
      exact ⟨h.month_mem, h.day_mem⟩
    rw [daysFromCivilChecked, if_neg hValid, hShifted, Option.bind_eq_bind, Option.bind_some, hEra, Option.bind_some,
      hEras, Option.bind_some, hYoe, Option.bind_some, hDoy, Option.bind_some, hDoe, Option.bind_some]

/-- The day number is computed exactly if the days since 1 March of the year 0 fit `i32`; otherwise an addition
overflows. -/
theorem daysFromCivilChecked_of_lt (h : Accepted year month day) (hLt : sinceMarch year month day < 2147483648) :
    ∃ days, daysFromCivilChecked year month day = some (some days) ∧
      days.toInt = sinceMarch year month day - 719468 := by
  obtain ⟨era, doe, hDoe, hEra, hDays, hChecked⟩ := daysFromCivilChecked_eq h
  obtain ⟨eras, hEras, hErasInt⟩ := mulChecked_of_fits (rfl : era.toInt = era.toInt)
    (by decide : (146097 : Int32).toInt = 146097) ⟨by omega, by omega⟩
  obtain ⟨sum, hSum, hSumInt⟩ := addChecked_of_fits hErasInt (rfl : doe.toInt = doe.toInt) ⟨by omega, by omega⟩
  obtain ⟨days, hResult, hResultInt⟩ := subChecked_of_fits hSumInt (by decide : (719468 : Int32).toInt = 719468)
    ⟨by omega, by omega⟩
  refine ⟨days, ?_, by omega⟩
  rw [hChecked, hEras]
  simp only [hSum, hResult, Option.bind_eq_bind, Option.bind_some, Option.pure_def]

theorem daysFromCivilChecked_of_le (h : Accepted year month day) (hLe : 2147483648 ≤ sinceMarch year month day) :
    daysFromCivilChecked year month day = none := by
  obtain ⟨era, doe, hDoe, hEra, hDays, hChecked⟩ := daysFromCivilChecked_eq h
  rw [hChecked]
  by_cases hFits : Fits32 (era.toInt * 146097)
  · obtain ⟨eras, hEras, hErasInt⟩ := mulChecked_of_fits (rfl : era.toInt = era.toInt)
      (by decide : (146097 : Int32).toInt = 146097) hFits
    have hSum : addChecked eras doe = none := by
      refine addChecked_of_not_fits hErasInt rfl fun hSum => ?_
      have hHigh := hSum.2
      omega
    rw [hEras]
    simp only [hSum, Option.bind_eq_bind, Option.bind_some, Option.bind_none]
  · rw [mulChecked_of_not_fits rfl (by decide : (146097 : Int32).toInt = 146097) hFits]
    rfl

end

/-! ## The calendar -/

theorem isLeapYear_iff {year : Nat} :
    isLeapYear year = true ↔ year % 4 = 0 ∧ (year % 100 ≠ 0 ∨ year % 400 = 0) := by
  rw [isLeapYear, decide_eq_true_iff]

theorem daysInYear_eq (year : Nat) :
    (daysInYear year : Int) = 365 + (if year % 4 = 0 then 1 else 0) - (if year % 100 = 0 then 1 else 0) +
      if year % 400 = 0 then 1 else 0 := by
  rw [daysInYear]
  split
  · rename_i hLeap
    have hDivides := isLeapYear_iff.mp hLeap
    split_ifs <;> omega
  · rename_i hCommon
    have hDivides := isLeapYear_iff.not.mp hCommon
    split_ifs <;> omega

theorem daysBeforeYear_eq (year : Nat) :
    (daysBeforeYear year : Int) = 365 * year + (year + 3) / 4 - (year + 99) / 100 + (year + 399) / 400 := by
  induction year with
  | zero => rfl
  | succ year ih =>
    -- A quotient grows after a year that its divisor divides.
    have hFours : (((year + 1 : Nat) : Int) + 3) / 4 = (year + 3) / 4 + if year % 4 = 0 then 1 else 0 := by
      split <;> omega
    have hHundreds : (((year + 1 : Nat) : Int) + 99) / 100 =
        (year + 99) / 100 + if year % 100 = 0 then 1 else 0 := by
      split <;> omega
    have hFourHundreds : (((year + 1 : Nat) : Int) + 399) / 400 =
        (year + 399) / 400 + if year % 400 = 0 then 1 else 0 := by
      split <;> omega
    rw [daysBeforeYear, Nat.cast_add, ih, daysInYear_eq, hFours, hHundreds, hFourHundreds]
    push_cast
    ring

/-- The days of the months before, in a year that begins in March, for each of the months. -/
theorem dayOfYear_eq (year : Nat) {month : Nat} (hMonth : 1 ≤ month ∧ month ≤ 12) (day : Int) :
    dayOfYear month day = daysBeforeMonth year month + day - 1 +
      if month ≤ 2 then 306 else -(if isLeapYear year then 60 else 59) := by
  obtain ⟨hLow, hHigh⟩ := hMonth
  rw [dayOfYear, shiftedMonth]
  cases hLeap : isLeapYear year <;> interval_cases month <;> simp [daysBeforeMonth, daysInMonth, hLeap] <;> omega

theorem daysSinceMarch_eq (year : Nat) {month : Nat} (hMonth : 1 ≤ month ∧ month ≤ 12) (day : Int) :
    daysSinceMarch year month day = daysBeforeYear year + daysBeforeMonth year month + (day - 1) - 60 := by
  rw [daysSinceMarch, dayOfYear_eq year hMonth, daysBeforeYear_eq]
  generalize (daysBeforeMonth year month : Int) = before
  by_cases hEarly : month ≤ 2
  · have hInt : (month : Int) ≤ 2 := by omega
    simp only [if_pos hEarly, if_pos hInt, dayOfEra]
    omega
  · have hInt : ¬(month : Int) ≤ 2 := by omega
    simp only [if_neg hEarly, if_neg hInt, dayOfEra]
    split
    · rename_i hLeap
      have hDivides := isLeapYear_iff.mp hLeap
      omega
    · rename_i hCommon
      have hDivides := isLeapYear_iff.not.mp hCommon
      omega

end Vannak.Process
