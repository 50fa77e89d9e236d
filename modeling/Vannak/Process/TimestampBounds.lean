import Vannak.Process.CivilDays

/-!
# Overflow in timestamps

`parse_epoch_millis` and `saturating_duration_until` of `ingest.rs` with an overflow at any step reported, beside the
milliseconds that the fields of a timestamp stand for. The 64-bit arithmetic always fits. The days are counted on `i32`
and overflow after 5879610-09-09.
-/

namespace Vannak.Process

open Foundation

set_option autoImplicit false

/-! ## The fields -/

/-- What `parse_epoch_millis` reads in a timestamp. -/
structure TimestampFields where
  year : Int32
  month : UInt32
  day : UInt32
  hour : UInt32
  minute : UInt32
  second : UInt32
  millis : Nat

def timestampFields (timestamp : String) : Option TimestampFields := do
  let rest ← if timestamp.toList.getLast? = some 'Z' then some timestamp.toList.dropLast else none
  let (date, time) ← splitOnce 'T' rest
  let year :: month :: day :: _ := date.splitOn '-' | none
  let year ← parseInt32 year
  let month ← parseUInt32 month
  let day ← parseUInt32 day
  let hour :: minute :: secondPart :: _ := time.splitOn ':' | none
  let hour ← parseUInt32 hour
  let minute ← parseUInt32 minute
  let (second, millis) ← parseSecondMillis secondPart
  return { year, month, day, hour, minute, second, millis }

namespace TimestampFields

variable (fields : TimestampFields)

def ValidDate : Prop := (1 ≤ fields.month ∧ fields.month ≤ 12) ∧ 1 ≤ fields.day ∧ fields.day ≤ 31

instance : Decidable fields.ValidDate := inferInstanceAs (Decidable (_ ∧ _))

def secondOfDay : Nat := fields.hour.toNat * 3600 + fields.minute.toNat * 60 + fields.second.toNat

/-- Days from the beginning of the year 0. A day after the end of its month counts on. -/
def dayNumber : Nat :=
  daysBeforeYear fields.year.toInt.toNat + daysBeforeMonth fields.year.toInt.toNat fields.month.toNat +
    (fields.day.toNat - 1)

/-- Milliseconds since 1970-01-01. -/
def instantMillis : Int :=
  ((fields.dayNumber - 719528 : Int) * 86400 + fields.secondOfDay) * 1000 + fields.millis

/-- The end of `parse_epoch_millis`. -/
def epochMillis (days : Int) : Option Nat :=
  let seconds : Int := days * 86400 + fields.secondOfDay
  if seconds < 0 then none else (some (seconds.toNat * 1000 + fields.millis)).filter (· < 2 ^ 64)

end TimestampFields

/-- The instant of a timestamp, where it is one and fits `u64`. -/
def exactEpochMillis (timestamp : String) : Option Nat := do
  let fields ← timestampFields timestamp
  if fields.ValidDate ∧ 0 ≤ fields.instantMillis ∧ fields.instantMillis.toNat < 2 ^ 64 then
    some fields.instantMillis.toNat
  else none

def exactDuration (start later : EventTimestamp) : Nat :=
  match exactEpochMillis start.asStr, exactEpochMillis later.asStr with
  | some start, some later => later - start
  | _, _ => 0

/-! ## The checked computation -/

/-- The rest of `parse_epoch_millis`. The source checks the operations on the days and the milliseconds itself. -/
def epochMillisChecked (fields : TimestampFields) (days : Int32) : Option (Option Nat) :=
  match fitsI64 (days.toInt * 86400) with
  | none => some none
  | some daySeconds => do
    let hours ← fitsI64 (fields.hour.toNat * 3600)
    let minutes ← fitsI64 (fields.minute.toNat * 60)
    let time ← fitsI64 ((← fitsI64 (hours + minutes)) + fields.second.toNat)
    return do
      let seconds ← fitsI64 (daySeconds + time)
      let seconds ← if 0 ≤ seconds then some seconds.toNat else none
      fitsU64 ((← fitsU64 (seconds * 1000)) + fields.millis)

/-- `parse_epoch_millis`; no result at all if an operation overflows. -/
def parseEpochMillisChecked (timestamp : String) : Option (Option Nat) :=
  match timestampFields timestamp with
  | none => some none
  | some fields =>
    match daysFromCivilChecked fields.year fields.month fields.day with
    | none => none
    | some none => some none
    | some (some days) => epochMillisChecked fields days

def saturatingDurationUntilChecked (start later : EventTimestamp) : Option Nat := do
  let start ← parseEpochMillisChecked start.asStr
  let later ← parseEpochMillisChecked later.asStr
  match start, later with
  | some start, some later => return later - start
  | _, _ => return 0

/-! ## What is read -/

theorem digit_lt {digit : Char} (h : digit.isDigit = true) : digit.toNat - '0'.toNat < 10 := by
  rw [Char.isDigit, Bool.and_eq_true, decide_eq_true_eq, decide_eq_true_eq] at h
  have hHigh : digit.toNat ≤ 57 := UInt32.le_iff_toNat_le.mp h.2
  have hZero : '0'.toNat = 48 := rfl
  omega

theorem foldl_digits_lt {digits : List Char} (h : ∀ digit ∈ digits, digit.isDigit = true) (value : Nat) :
    digits.foldl (fun value digit => 10 * value + (digit.toNat - '0'.toNat)) value <
      (value + 1) * 10 ^ digits.length := by
  induction digits generalizing value with
  | nil => simp
  | cons digit digits ih =>
    have hDigit := digit_lt (h digit List.mem_cons_self)
    rw [List.foldl_cons, List.length_cons, Nat.pow_succ]
    calc
      _ < (10 * value + (digit.toNat - '0'.toNat) + 1) * 10 ^ digits.length :=
        ih (fun other hOther => h other (List.mem_cons_of_mem _ hOther)) _
      _ ≤ (value + 1) * 10 * 10 ^ digits.length := Nat.mul_le_mul_right _ (by omega)
      _ = (value + 1) * (10 ^ digits.length * 10) := by rw [Nat.mul_assoc, Nat.mul_comm 10]

theorem parseDigits_lt {digits : List Char} {value : Nat} (h : parseDigits digits = some value) :
    value < 10 ^ digits.length := by
  rw [parseDigits] at h
  split at h
  · rename_i hDigits
    cases h
    have hLt := foldl_digits_lt (List.all_eq_true.mp hDigits.2) 0
    rwa [Nat.zero_add, Nat.one_mul] at hLt
  · cases h

theorem parseUnsigned_lt {limit : Nat} {text : List Char} {value : Nat} (h : parseUnsigned limit text = some value) :
    value < limit ∧ value < 10 ^ text.length := by
  rw [parseUnsigned.eq_def] at h
  obtain ⟨hDigits, hLimit⟩ := Option.filter_eq_some_iff.mp h
  refine ⟨of_decide_eq_true hLimit, ?_⟩
  have hLt := parseDigits_lt hDigits
  split at hLt
  · rename_i digits
    exact hLt.trans (Nat.pow_lt_pow_right (by decide) (Nat.lt_succ_self _))
  · exact hLt

theorem not_mem_of_splitOn {separator : Char} {text first : List Char} {rest : List (List Char)}
    (h : text.splitOn separator = first :: rest) : separator ∉ first := by
  by_cases hMem : separator ∈ text
  · obtain ⟨before, after, rfl, hBefore⟩ := List.eq_append_cons_of_mem hMem
    rw [List.splitOn_append_cons_self_of_not_mem hBefore] at h
    cases h
    exact hBefore
  · rw [List.splitOn_eq_singleton hMem] at h
    cases h
    exact hMem

theorem parseInt32_nonneg {text : List Char} {value : Int32} (hText : '-' ∉ text) (h : parseInt32 text = some value) :
    0 ≤ value.toInt := by
  rw [parseInt32.eq_def] at h
  split at h
  · exact absurd List.mem_cons_self hText
  · obtain ⟨_, hInt, rfl⟩ := Option.map_eq_some_iff.mp h
    obtain ⟨parsed, hParsed, hSame⟩ := Option.bind_eq_some_iff.mp hInt
    cases hSame
    have hLt := (parseUnsigned_lt hParsed).1
    rw [Int32.toInt_ofInt_of_le (by omega) (by omega)]
    exact Int.natCast_nonneg _

theorem parseSecondMillis_lt {text : List Char} {second : UInt32} {millis : Nat}
    (h : parseSecondMillis text = some (second, millis)) : millis < 1000 := by
  rw [parseSecondMillis] at h
  split at h
  · rename_i fraction _
    obtain ⟨_, -, hRest⟩ := Option.bind_eq_some_iff.mp h
    obtain ⟨parsed, hParsed, hSame⟩ := Option.bind_eq_some_iff.mp hRest
    cases hSame
    calc
      millis < 10 ^ (fraction.take 3).length := (parseUnsigned_lt hParsed).2
      _ ≤ 10 ^ 3 := Nat.pow_le_pow_right (by decide) (List.length_take_le _ _)
  · obtain ⟨_, -, hSame⟩ := Option.bind_eq_some_iff.mp h
    cases hSame
    decide

theorem parseEpochMillis_eq (timestamp : String) :
    parseEpochMillis timestamp = (timestampFields timestamp).bind fun fields =>
      (daysFromCivil fields.year fields.month fields.day).bind fun days => fields.epochMillis days.toInt := by
  rw [parseEpochMillis, timestampFields]
  simp only [Option.bind_eq_bind]
  by_cases hZulu : timestamp.toList.getLast? = some 'Z'
  · rw [if_pos hZulu, if_pos hZulu, Option.bind_assoc]
    refine Option.bind_congr fun rest _ => ?_
    rw [Option.bind_assoc]
    refine Option.bind_congr fun parts _ => ?_
    generalize parts.1.splitOn '-' = dateParts
    rcases dateParts with _ | ⟨year, _ | ⟨month, _ | ⟨day, dateRest⟩⟩⟩
    · rfl
    · rfl
    · rfl
    · simp only [Option.bind_assoc]
      refine Option.bind_congr fun year _ => Option.bind_congr fun month _ => Option.bind_congr fun day _ => ?_
      generalize parts.2.splitOn ':' = timeParts
      rcases timeParts with _ | ⟨hour, _ | ⟨minute, _ | ⟨secondPart, timeRest⟩⟩⟩
      · rfl
      · rfl
      · rfl
      · simp only [Option.bind_assoc]
        refine Option.bind_congr fun hour _ => Option.bind_congr fun minute _ => Option.bind_congr fun parsed _ => ?_
        rfl
  · rw [if_neg hZulu, if_neg hZulu]
    rfl

theorem timestampFields_bounds {timestamp : String} {fields : TimestampFields}
    (h : timestampFields timestamp = some fields) : 0 ≤ fields.year.toInt ∧ fields.millis < 1000 := by
  rw [timestampFields] at h
  split at h
  · obtain ⟨rest, -, hRest⟩ := Option.bind_eq_some_iff.mp h
    obtain ⟨⟨date, time⟩, -, hParts⟩ := Option.bind_eq_some_iff.mp hRest
    dsimp only at hParts
    split at hParts
    · rename_i hDate
      obtain ⟨year, hYear, hMonths⟩ := Option.bind_eq_some_iff.mp hParts
      obtain ⟨month, -, hDays⟩ := Option.bind_eq_some_iff.mp hMonths
      obtain ⟨day, -, hTime⟩ := Option.bind_eq_some_iff.mp hDays
      split at hTime
      · obtain ⟨hour, -, hMinutes⟩ := Option.bind_eq_some_iff.mp hTime
        obtain ⟨minute, -, hSeconds⟩ := Option.bind_eq_some_iff.mp hMinutes
        obtain ⟨⟨second, millis⟩, hSecond, hSame⟩ := Option.bind_eq_some_iff.mp hSeconds
        cases hSame
        exact ⟨parseInt32_nonneg (not_mem_of_splitOn hDate) hYear, parseSecondMillis_lt hSecond⟩
      · cases hTime
    · cases hParts
  · cases h

/-! ## The 64-bit part -/

/-- All operations on `i64` and `u64` fit. -/
theorem epochMillisChecked_eq (fields : TimestampFields) (days : Int32) :
    epochMillisChecked fields days = some (fields.epochMillis days.toInt) := by
  obtain ⟨hLow, hHigh⟩ := fits32_toInt days
  have hHour := fields.hour.toNat_lt
  have hMinute := fields.minute.toNat_lt
  have hSecond := fields.second.toNat_lt
  have hSum : (fields.hour.toNat * 3600 + fields.minute.toNat * 60 + fields.second.toNat : Int) =
      fields.secondOfDay := by
    rw [TimestampFields.secondOfDay]
    omega
  have hDays : fitsI64 (days.toInt * 86400) = some (days.toInt * 86400) := fitsI64_of_le (by omega) (by omega)
  have hHours : fitsI64 (fields.hour.toNat * 3600) = some (fields.hour.toNat * 3600 : Int) :=
    fitsI64_of_le (by omega) (by omega)
  have hMinutes : fitsI64 (fields.minute.toNat * 60) = some (fields.minute.toNat * 60 : Int) :=
    fitsI64_of_le (by omega) (by omega)
  have hMinuteSum : fitsI64 (fields.hour.toNat * 3600 + fields.minute.toNat * 60) =
      some (fields.hour.toNat * 3600 + fields.minute.toNat * 60 : Int) := fitsI64_of_le (by omega) (by omega)
  have hTime : fitsI64 (fields.hour.toNat * 3600 + fields.minute.toNat * 60 + fields.second.toNat) =
      some (fields.secondOfDay : Int) := by
    rw [← hSum]
    exact fitsI64_of_le (by omega) (by omega)
  have hSeconds : fitsI64 (days.toInt * 86400 + fields.secondOfDay) =
      some (days.toInt * 86400 + fields.secondOfDay : Int) := fitsI64_of_le (by omega) (by omega)
  simp only [epochMillisChecked, TimestampFields.epochMillis, hDays, hHours, hMinutes, hMinuteSum, hTime, hSeconds,
    Option.bind_eq_bind, Option.bind_some, Option.pure_def]
  by_cases hNegative : days.toInt * 86400 + fields.secondOfDay < 0
  · rw [if_pos hNegative, if_neg (Int.not_le.mpr hNegative), Option.bind_none]
  · have hProduct : (days.toInt * 86400 + fields.secondOfDay).toNat * 1000 < 2 ^ 64 := by
      omega
    rw [if_neg hNegative, if_pos (Int.not_lt.mp hNegative), fitsU64, if_pos hProduct, Option.bind_some, fitsU64,
      Option.filter_some]
    simp only [decide_eq_true_eq]

/-! ## When the days fit -/

/-- A date after 5879610-09-09 is 2147483708 days or more after the beginning of the year 0. -/
def DateFits (timestamp : String) : Prop :=
  ∀ fields ∈ timestampFields timestamp, fields.ValidDate → fields.dayNumber < 2147483708

theorem sinceMarch_eq_dayNumber {fields : TimestampFields} (hYear : 0 ≤ fields.year.toInt)
    (hValid : fields.ValidDate) :
    sinceMarch fields.year fields.month fields.day = fields.dayNumber - 60 := by
  have hAccepted : Accepted fields.year fields.month fields.day := ⟨hYear, hValid.1, hValid.2⟩
  have hDay := hAccepted.day_toNat
  have hDays := daysSinceMarch_eq fields.year.toInt.toNat hAccepted.month_toNat fields.day.toNat
  rw [Int.toNat_of_nonneg hYear] at hDays
  rw [sinceMarch, hDays, TimestampFields.dayNumber]
  omega

theorem epochMillis_eq {fields : TimestampFields} (hMillis : fields.millis < 1000) {days : Int}
    (hDays : days = fields.dayNumber - 719528) :
    fields.epochMillis days =
      if 0 ≤ fields.instantMillis ∧ fields.instantMillis.toNat < 2 ^ 64 then some fields.instantMillis.toNat
      else none := by
  rw [TimestampFields.epochMillis, TimestampFields.instantMillis, ← hDays]
  generalize days * 86400 + (fields.secondOfDay : Int) = seconds
  by_cases hNegative : seconds < 0
  · rw [if_pos hNegative, if_neg (by omega)]
  · have hSame : (seconds * 1000 + fields.millis).toNat = seconds.toNat * 1000 + fields.millis := by
      omega
    rw [if_neg hNegative, Option.filter_some, hSame]
    have hPositive : 0 ≤ seconds * 1000 + fields.millis := by
      omega
    simp only [hPositive, true_and, decide_eq_true_eq]

theorem daysFromCivil_of_not_validDate {fields : TimestampFields} (h : ¬fields.ValidDate) :
    daysFromCivil fields.year fields.month fields.day = none ∧
      daysFromCivilChecked fields.year fields.month fields.day = some none := by
  rw [TimestampFields.ValidDate, not_and_or] at h
  exact ⟨if_pos h, if_pos h⟩

/-- What the computation does with a date that fits, and with one that does not. -/
theorem parseEpochMillis_of_fits {timestamp : String} (h : DateFits timestamp) :
    parseEpochMillisChecked timestamp = some (exactEpochMillis timestamp) ∧
      parseEpochMillis timestamp = exactEpochMillis timestamp := by
  rw [parseEpochMillis_eq, parseEpochMillisChecked, exactEpochMillis]
  cases hFields : timestampFields timestamp with
  | none => exact ⟨rfl, rfl⟩
  | some fields =>
    obtain ⟨hYear, hMillis⟩ := timestampFields_bounds hFields
    simp only [Option.bind_eq_bind, Option.bind_some]
    by_cases hValid : fields.ValidDate
    · have hFits := h fields hFields hValid
      have hSince := sinceMarch_eq_dayNumber hYear hValid
      obtain ⟨days, hChecked, hDays⟩ :=
        daysFromCivilChecked_of_lt ⟨hYear, hValid.1, hValid.2⟩ (by omega : sinceMarch _ _ _ < 2147483648)
      have hExact := epochMillis_eq hMillis (by omega : days.toInt = fields.dayNumber - 719528)
      rw [daysFromCivil_of_checked hChecked, hChecked]
      simp only [epochMillisChecked_eq, Option.bind_some, hExact, hValid, true_and, and_self]
    · obtain ⟨hDays, hChecked⟩ := daysFromCivil_of_not_validDate hValid
      rw [hDays, hChecked, if_neg fun hExact => hValid hExact.1]
      exact ⟨rfl, rfl⟩

theorem parseEpochMillisChecked_of_not_fits {timestamp : String} (h : ¬DateFits timestamp) :
    parseEpochMillisChecked timestamp = none := by
  rw [DateFits] at h
  push Not at h
  obtain ⟨fields, hFields, hValid, hDay⟩ := h
  obtain ⟨hYear, -⟩ := timestampFields_bounds hFields
  have hSince := sinceMarch_eq_dayNumber hYear hValid
  have hChecked : daysFromCivilChecked fields.year fields.month fields.day = none :=
    daysFromCivilChecked_of_le ⟨hYear, hValid.1, hValid.2⟩ (by omega)
  rw [parseEpochMillisChecked, Option.mem_def.mp hFields]
  simp only [hChecked]

theorem parseEpochMillis_exact_iff (timestamp : String) :
    (parseEpochMillisChecked timestamp ≠ none ∧ parseEpochMillis timestamp = exactEpochMillis timestamp) ↔
      DateFits timestamp := by
  by_cases hFits : DateFits timestamp
  · obtain ⟨hChecked, hExact⟩ := parseEpochMillis_of_fits hFits
    exact iff_of_true ⟨by rw [hChecked]; exact Option.some_ne_none _, hExact⟩ hFits
  · exact iff_of_false (fun hHolds => hHolds.1 (parseEpochMillisChecked_of_not_fits hFits)) hFits

theorem saturatingDurationUntil_exact_iff (start later : EventTimestamp) :
    (saturatingDurationUntilChecked start later ≠ none ∧
      saturatingDurationUntil start later = exactDuration start later) ↔
      DateFits start.asStr ∧ DateFits later.asStr := by
  rw [saturatingDurationUntilChecked]
  by_cases hStart : DateFits start.asStr
  · obtain ⟨hStartChecked, hStartExact⟩ := parseEpochMillis_of_fits hStart
    by_cases hLater : DateFits later.asStr
    · obtain ⟨hLaterChecked, hLaterExact⟩ := parseEpochMillis_of_fits hLater
      refine iff_of_true ⟨?_, ?_⟩ ⟨hStart, hLater⟩
      · rw [hStartChecked, hLaterChecked]
        simp only [Option.bind_eq_bind, Option.bind_some]
        split <;> exact Option.some_ne_none _
      · rw [saturatingDurationUntil, hStartExact, hLaterExact]
        rfl
    · refine iff_of_false (fun hHolds => hHolds.1 ?_) fun hBoth => hLater hBoth.2
      rw [hStartChecked, parseEpochMillisChecked_of_not_fits hLater]
      rfl
  · refine iff_of_false (fun hHolds => hHolds.1 ?_) fun hBoth => hStart hBoth.1
    rw [parseEpochMillisChecked_of_not_fits hStart]
    rfl

/-- Nothing overflows, and instants out of range have no value, exactly if the days of the dates fit `i32`. -/
theorem timestamp_arithmetic_iff (timestamp : String) (start later : EventTimestamp) :
    ((parseEpochMillisChecked timestamp ≠ none ∧ parseEpochMillis timestamp = exactEpochMillis timestamp) ↔
      DateFits timestamp) ∧
    ((saturatingDurationUntilChecked start later ≠ none ∧
        saturatingDurationUntil start later = exactDuration start later) ↔
      DateFits start.asStr ∧ DateFits later.asStr) :=
  ⟨parseEpochMillis_exact_iff timestamp, saturatingDurationUntil_exact_iff start later⟩

/-- An operation overflows in the year 12000000, and the wrapped value is taken for an instant. -/
theorem far_year_overflows :
    parseEpochMillisChecked "12000000-01-01T00:00:00Z" = none ∧
      parseEpochMillis "12000000-01-01T00:00:00Z" = some 7536082406400000 ∧
      saturatingDurationUntilChecked ⟨"1970-01-01T00:00:00Z"⟩ ⟨"12000000-01-01T00:00:00Z"⟩ = none ∧
      saturatingDurationUntil ⟨"1970-01-01T00:00:00Z"⟩ ⟨"12000000-01-01T00:00:00Z"⟩ = 7536082406400000 := by
  decide +kernel

end Vannak.Process
