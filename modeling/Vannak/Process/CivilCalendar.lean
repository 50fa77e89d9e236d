import Vannak.Process.CivilDays

/-!
# The day count of the calendar

The dates of the proleptic Gregorian calendar in their order, and `days_from_civil` of `ingest.rs` on them. From each
date to the next one its result grows by one, and 1970-01-01 has the result 0.
-/

namespace Vannak.Process

open Foundation

set_option autoImplicit false

theorem daysInMonth_pos (year month : Nat) : 1 ≤ daysInMonth year month := by
  rw [daysInMonth]
  split
  · split <;> decide
  · split <;> decide

theorem daysInMonth_le (year month : Nat) : daysInMonth year month ≤ 31 := by
  rw [daysInMonth]
  split
  · split <;> decide
  · split <;> decide

/-- A date of the calendar. -/
structure CivilDate where
  year : Nat
  month : Nat
  day : Nat
  month_pos : 1 ≤ month
  month_le : month ≤ 12
  day_pos : 1 ≤ day
  day_le : day ≤ daysInMonth year month

namespace CivilDate

/-- The first day of a month. -/
def firstOf (year month : Nat) (hPos : 1 ≤ month) (hLe : month ≤ 12) : CivilDate :=
  ⟨year, month, 1, hPos, hLe, Nat.le_refl 1, daysInMonth_pos year month⟩

/-- The date that follows. -/
def next (date : CivilDate) : CivilDate :=
  if hDay : date.day < daysInMonth date.year date.month then
    { date with day := date.day + 1, day_pos := Nat.le_add_left 1 _, day_le := hDay }
  else if hMonth : date.month < 12 then firstOf date.year (date.month + 1) (Nat.le_add_left 1 _) hMonth
  else firstOf (date.year + 1) 1 (Nat.le_refl 1) (by decide)

/-- Days from the beginning of the year 0. -/
def dayNumber (date : CivilDate) : Nat :=
  daysBeforeYear date.year + daysBeforeMonth date.year date.month + (date.day - 1)

/-- 1970-01-01. -/
def epoch : CivilDate := firstOf 1970 1 (Nat.le_refl 1) (by decide)

theorem dayNumber_firstOf (year month : Nat) (hPos : 1 ≤ month) (hLe : month ≤ 12) :
    (firstOf year month hPos hLe).dayNumber = daysBeforeYear year + daysBeforeMonth year month := rfl

theorem daysBeforeMonth_one (year : Nat) : daysBeforeMonth year 1 = 0 := rfl

/-- One day more, within a month, at its end and at the end of the year. -/
theorem dayNumber_next (date : CivilDate) : date.next.dayNumber = date.dayNumber + 1 := by
  have hPos := date.day_pos
  rw [next]
  split
  · rw [dayNumber, dayNumber]
    dsimp only
    omega
  · rename_i hLast
    have hDay : date.day = daysInMonth date.year date.month := Nat.le_antisymm date.day_le (Nat.le_of_not_lt hLast)
    have hMonthEnd := daysBeforeMonth_succ date.month_pos date.year
    split
    · rw [dayNumber_firstOf, hMonthEnd, dayNumber]
      omega
    · rename_i hDecember
      have hMonth : date.month = 12 := Nat.le_antisymm date.month_le (Nat.le_of_not_lt hDecember)
      have hYear : daysBeforeYear (date.year + 1) = daysBeforeYear date.year + daysInYear date.year := rfl
      rw [hMonth, daysBeforeMonth_thirteen, ← hMonth] at hMonthEnd
      rw [dayNumber_firstOf, daysBeforeMonth_one, hYear, hMonthEnd, dayNumber]
      omega

theorem year_next_le (date : CivilDate) : date.next.year ≤ date.year + 1 := by
  rw [next]
  split
  · exact Nat.le_succ _
  · split
    · exact Nat.le_succ _
    · exact Nat.le_refl _

/-! ## `days_from_civil` on a date -/

def fromCivilChecked (date : CivilDate) : Option (Option Int32) :=
  daysFromCivilChecked (Int32.ofNat date.year) (UInt32.ofNat date.month) (UInt32.ofNat date.day)

def fromCivil (date : CivilDate) : Option Int32 :=
  daysFromCivil (Int32.ofNat date.year) (UInt32.ofNat date.month) (UInt32.ofNat date.day)

theorem dayNumber_lt_of_year {date : CivilDate} (h : date.year ≤ 5000001) : date.dayNumber < 1826300000 := by
  have hMonth := daysBeforeMonth_mono date.year (date.month_le.trans (by decide : 12 ≤ 13))
  have hYear : daysInYear date.year ≤ 366 := by
    rw [daysInYear]
    split <;> decide
  have hDay := date.day_le.trans (daysInMonth_le date.year date.month)
  have hDays := daysBeforeYear_eq date.year
  rw [daysBeforeMonth_thirteen] at hMonth
  rw [dayNumber]
  omega

/-- In these years no operation overflows, and the result counts the days since 1970-01-01. -/
theorem fromCivilChecked_eq {date : CivilDate} (h : date.year ≤ 5000001) :
    ∃ days, date.fromCivilChecked = some (some days) ∧ date.fromCivil = some days ∧
      days.toInt = date.dayNumber - 719528 := by
  have hMonthPos := date.month_pos
  have hMonthLe := date.month_le
  have hDayPos := date.day_pos
  have hDayLe := date.day_le.trans (daysInMonth_le date.year date.month)
  have hYear : (Int32.ofNat date.year).toInt = date.year := Int32.toInt_ofNat_of_lt (by omega)
  have hMonth : (UInt32.ofNat date.month).toNat = date.month := UInt32.toNat_ofNat_of_lt' (by
    change date.month < 4294967296
    omega)
  have hDay : (UInt32.ofNat date.day).toNat = date.day := UInt32.toNat_ofNat_of_lt' (by
    change date.day < 4294967296
    omega)
  have hAccepted : Accepted (Int32.ofNat date.year) (UInt32.ofNat date.month) (UInt32.ofNat date.day) := by
    refine ⟨by omega, ⟨?_, ?_⟩, ?_, ?_⟩
    · rw [UInt32.le_iff_toNat_le, hMonth]
      exact hMonthPos
    · rw [UInt32.le_iff_toNat_le, hMonth]
      exact hMonthLe
    · rw [UInt32.le_iff_toNat_le, hDay]
      exact hDayPos
    · rw [UInt32.le_iff_toNat_le, hDay]
      exact hDayLe
  have hSince : sinceMarch (Int32.ofNat date.year) (UInt32.ofNat date.month) (UInt32.ofNat date.day) =
      date.dayNumber - 60 := by
    rw [sinceMarch, hYear, hMonth, hDay, daysSinceMarch_eq date.year ⟨hMonthPos, hMonthLe⟩, dayNumber]
    omega
  have hLt := dayNumber_lt_of_year h
  obtain ⟨days, hChecked, hDays⟩ := daysFromCivilChecked_of_lt hAccepted (by omega)
  exact ⟨days, hChecked, daysFromCivil_of_checked hChecked, by omega⟩

theorem dayNumber_epoch : epoch.dayNumber = 719528 := by
  have hDays := daysBeforeYear_eq 1970
  rw [epoch, dayNumber_firstOf, daysBeforeMonth_one]
  omega

end CivilDate

/-- Nothing overflows, 1970-01-01 is the day 0, and each date is one day before the next. -/
theorem days_from_civil_counts_days (date : CivilDate) (h : date.year ≤ 5000000) :
    ∃ days following, date.fromCivilChecked = some (some days) ∧ date.fromCivil = some days ∧
      (date = .epoch → days = 0) ∧
      date.next.fromCivilChecked = some (some following) ∧ date.next.fromCivil = some following ∧
      following.toInt = days.toInt + 1 := by
  have hNext := date.year_next_le
  obtain ⟨days, hChecked, hDays, hDaysInt⟩ := @CivilDate.fromCivilChecked_eq date (by omega)
  obtain ⟨following, hNextChecked, hFollowing, hFollowingInt⟩ :=
    @CivilDate.fromCivilChecked_eq date.next (by omega)
  refine ⟨days, following, hChecked, hDays, ?_, hNextChecked, hFollowing, ?_⟩
  · rintro rfl
    rw [CivilDate.dayNumber_epoch] at hDaysInt
    exact Int32.toInt_inj.mp hDaysInt
  · rw [hFollowingInt, hDaysInt, CivilDate.dayNumber_next]
    omega

/-- The last day of February of a leap century. -/
theorem days_from_civil_counts_days_leap :
    ∃ days following, (⟨2000, 2, 29, by decide, by decide, by decide, by decide⟩ : CivilDate).fromCivil = some days ∧
      (⟨2000, 3, 1, by decide, by decide, by decide, by decide⟩ : CivilDate).fromCivil = some following ∧
      following.toInt = days.toInt + 1 := by
  obtain ⟨days, following, -, hDays, -, -, hFollowing, hSucc⟩ :=
    days_from_civil_counts_days ⟨2000, 2, 29, by decide, by decide, by decide, by decide⟩ (by decide)
  exact ⟨days, following, hDays, hFollowing, hSucc⟩

end Vannak.Process
