import Vannak.Process.TimestampBounds

/-!
# Milliseconds of timestamps

What `parse_epoch_millis` reads in a timestamp as Durga writes it. The reader takes the first three digits of the
fraction for milliseconds, however many there are. A fraction of one or two digits is not scaled.
-/

namespace Vannak.Process

open Foundation

set_option autoImplicit false

/-! ## Numbers -/

theorem digitChar_toNat : ∀ digit : Fin 10, (digitChar digit).toNat - '0'.toNat = digit := by
  decide

theorem digitChar_isDigit : ∀ digit : Fin 10, (digitChar digit).isDigit = true := by
  decide

theorem isDigit_of_mem_decimal {width n : Nat} {char : Char} (h : char ∈ decimal width n) : char.isDigit = true := by
  induction width generalizing n with
  | zero => cases h
  | succ width ih =>
    rw [decimal] at h
    rcases List.mem_cons.mp h with rfl | hRest
    · exact digitChar_isDigit _
    · exact ih hRest

theorem foldl_decimal {width n : Nat} (h : n < 10 ^ width) (value : Nat) :
    (decimal width n).foldl (fun value digit => 10 * value + (digit.toNat - '0'.toNat)) value =
      value * 10 ^ width + n := by
  induction width generalizing n value with
  | zero =>
    rw [Nat.pow_zero] at h ⊢
    rw [decimal, List.foldl_nil]
    omega
  | succ width ih =>
    have hPower : 0 < 10 ^ width := Nat.pow_pos (by decide)
    have hTop : n / 10 ^ width < 10 := Nat.div_lt_of_lt_mul (by rwa [Nat.pow_succ] at h)
    have hSplit := Nat.div_add_mod n (10 ^ width)
    rw [decimal, List.foldl_cons, digitChar_toNat, ih (Nat.mod_lt _ hPower), Fin.val_ofNat, Nat.mod_eq_of_lt hTop]
    calc
      _ = value * 10 ^ width * 10 + (10 ^ width * (n / 10 ^ width) + n % 10 ^ width) := by ring
      _ = value * 10 ^ (width + 1) + n := by rw [hSplit, Nat.pow_succ, Nat.mul_assoc]

theorem parseUnsigned_of_digits {limit : Nat} {digits : List Char} (hNe : digits ≠ [])
    (hDigits : ∀ digit ∈ digits, digit.isDigit = true)
    (hLt : digits.foldl (fun value digit => 10 * value + (digit.toNat - '0'.toNat)) 0 < limit) :
    parseUnsigned limit digits =
      some (digits.foldl (fun value digit => 10 * value + (digit.toNat - '0'.toNat)) 0) := by
  have hParse : parseDigits digits =
      some (digits.foldl (fun value digit => 10 * value + (digit.toNat - '0'.toNat)) 0) :=
    if_pos ⟨hNe, List.all_eq_true.mpr hDigits⟩
  rw [parseUnsigned.eq_def]
  dsimp only
  split
  · rename_i rest
    exact absurd (hDigits '+' List.mem_cons_self) (by decide)
  · rw [hParse, Option.filter_some, if_pos (decide_eq_true hLt)]

theorem decimal_ne_nil {width n : Nat} (h : 0 < width) : decimal width n ≠ [] := by
  intro hNil
  have hLength := length_decimal width n
  rw [hNil, List.length_nil] at hLength
  omega

theorem parseUnsigned_decimal {limit width n : Nat} (hWidth : 0 < width) (hn : n < 10 ^ width) (hLimit : n < limit) :
    parseUnsigned limit (decimal width n) = some n := by
  have hValue := foldl_decimal hn 0
  rw [Nat.zero_mul, Nat.zero_add] at hValue
  have hParsed := parseUnsigned_of_digits (decimal_ne_nil hWidth) (fun _ hDigit => isDigit_of_mem_decimal hDigit)
    (by rwa [hValue])
  rwa [hValue] at hParsed

theorem parseUInt32_decimal {width n : Nat} (hWidth : 0 < width) (hn : n < 10 ^ width) (hLimit : n < 2 ^ 32) :
    parseUInt32 (decimal width n) = some (UInt32.ofNat n) := by
  rw [parseUInt32, parseUnsigned_decimal hWidth hn hLimit, Option.map_some]

theorem parseInt32_decimal {width n : Nat} (hWidth : 0 < width) (hn : n < 10 ^ width) (hLimit : n < 2 ^ 31) :
    parseInt32 (decimal width n) = some (Int32.ofInt n) := by
  rw [parseInt32.eq_def]
  split
  · rename_i rest hText
    have hMinus : '-' ∈ decimal width n := hText ▸ List.mem_cons_self
    exact absurd (isDigit_of_mem_decimal hMinus) (by decide)
  · rw [parseUnsigned_decimal hWidth hn hLimit]
    rfl

/-! ## The fraction -/

/-- Whole milliseconds of a fraction. -/
def fractionMillis (digits : List (Fin 10)) : Nat := ⌊fractionValue digits * 1000⌋₊

/-- What is missing of them where the fraction is read as a number of milliseconds. -/
def lostMillis : List (Fin 10) → Nat
  | [tenths] => 99 * tenths
  | [tenths, hundredths] => 9 * (10 * tenths + hundredths)
  | _ => 0

theorem fractionMillis_eq {digits : List (Fin 10)} {millis : Nat} (hLow : (millis : ℚ) ≤ fractionValue digits * 1000)
    (hHigh : fractionValue digits * 1000 < millis + 1) : fractionMillis digits = millis := by
  have hPositive := fractionValue_nonneg digits
  exact (Nat.floor_eq_iff (by positivity)).mpr ⟨hLow, hHigh⟩

theorem fractionMillis_nil : fractionMillis [] = 0 :=
  fractionMillis_eq (by simp [fractionValue]) (by simp [fractionValue])

theorem fractionMillis_one (tenths : Fin 10) : fractionMillis [tenths] = 100 * tenths := by
  apply fractionMillis_eq
  all_goals
    simp only [fractionValue]
    push_cast
    linarith

theorem fractionMillis_two (tenths hundredths : Fin 10) :
    fractionMillis [tenths, hundredths] = 100 * tenths + 10 * hundredths := by
  apply fractionMillis_eq
  all_goals
    simp only [fractionValue]
    push_cast
    linarith

theorem fractionMillis_more (tenths hundredths thousandths : Fin 10) (digits : List (Fin 10)) :
    fractionMillis (tenths :: hundredths :: thousandths :: digits) =
      100 * tenths + 10 * hundredths + thousandths := by
  have hLow := fractionValue_nonneg digits
  have hHigh := fractionValue_lt_one digits
  apply fractionMillis_eq
  all_goals
    simp only [fractionValue]
    push_cast
    linarith

theorem parseUnsigned_digitChars {digits : List (Fin 10)} (hNe : digits ≠ []) {value : Nat}
    (hValue : (digits.map digitChar).foldl (fun value digit => 10 * value + (digit.toNat - '0'.toNat)) 0 = value)
    (hLt : value < 2 ^ 64) : parseUnsigned (2 ^ 64) (digits.map digitChar) = some value := by
  subst hValue
  refine parseUnsigned_of_digits (by simpa using hNe) ?_ hLt
  intro char hChar
  obtain ⟨digit, -, rfl⟩ := List.mem_map.mp hChar
  exact digitChar_isDigit digit

/-- The first digits of a fraction as a number, by how many there are. -/
theorem parseUnsigned_take {digits : List (Fin 10)} (hNe : digits ≠ []) :
    parseUnsigned (2 ^ 64) ((digits.map digitChar).take 3) = some (fractionMillis digits - lostMillis digits) := by
  rw [← List.map_take]
  match digits with
  | [] => exact absurd rfl hNe
  | [tenths] =>
    refine parseUnsigned_digitChars (List.cons_ne_nil _ _) ?_ ?_
    · simp only [List.map_cons, List.foldl_cons, List.take, List.map_nil, List.foldl_nil, digitChar_toNat,
        fractionMillis_one, lostMillis]
      omega
    · rw [fractionMillis_one]
      omega
  | [tenths, hundredths] =>
    refine parseUnsigned_digitChars (List.cons_ne_nil _ _) ?_ ?_
    · simp only [List.map_cons, List.foldl_cons, List.take, List.map_nil, List.foldl_nil, digitChar_toNat,
        fractionMillis_two, lostMillis]
      omega
    · rw [fractionMillis_two]
      omega
  | tenths :: hundredths :: thousandths :: digits =>
    refine parseUnsigned_digitChars (List.cons_ne_nil _ _) ?_ ?_
    · simp only [List.map_cons, List.foldl_cons, List.take, List.map_nil, List.foldl_nil, digitChar_toNat,
        fractionMillis_more, lostMillis]
      omega
    · rw [fractionMillis_more]
      omega

theorem lostMillis_le (digits : List (Fin 10)) : lostMillis digits ≤ fractionMillis digits := by
  match digits with
  | [] => exact Nat.zero_le _
  | [tenths] =>
    rw [fractionMillis_one, lostMillis]
    omega
  | [tenths, hundredths] =>
    rw [fractionMillis_two, lostMillis]
    omega
  | _ :: _ :: _ :: _ => exact Nat.zero_le _

/-- No fraction, one of three digits or more, or one of zeros. -/
def Scaled (digits : List (Fin 10)) : Prop := 3 ≤ digits.length ∨ ∀ digit ∈ digits, digit = 0

theorem lostMillis_eq_zero_iff (digits : List (Fin 10)) : lostMillis digits = 0 ↔ Scaled digits := by
  match digits with
  | [] => simp [lostMillis, Scaled]
  | [tenths] =>
    simp only [lostMillis, Scaled, List.length_cons, List.length_nil, List.forall_mem_singleton, Fin.ext_iff,
      Fin.val_zero]
    omega
  | [tenths, hundredths] =>
    simp only [lostMillis, Scaled, List.length_cons, List.length_nil, List.mem_cons, List.not_mem_nil, or_false,
      forall_eq_or_imp, forall_eq]
    rw [Fin.ext_iff, Fin.ext_iff, Fin.val_zero]
    omega
  | _ :: _ :: _ :: digits =>
    simp only [lostMillis, Scaled, List.length_cons, true_iff]
    omega

/-! ## The text -/

theorem splitOnce_append {separator : Char} {before : List Char} (h : separator ∉ before) (after : List Char) :
    splitOnce separator (before ++ separator :: after) = some (before, after) := by
  have hBefore : ∀ char ∈ before, decide (char ≠ separator) = true := by
    intro char hChar
    exact decide_eq_true fun hSame => h (hSame ▸ hChar)
  rw [splitOnce, List.span_eq_takeWhile_dropWhile, List.takeWhile_append_of_pos hBefore,
    List.dropWhile_append_of_pos hBefore]
  simp

theorem splitOnce_none {separator : Char} {text : List Char} (h : separator ∉ text) :
    splitOnce separator text = none := by
  have hText : ∀ char ∈ text, decide (char ≠ separator) = true := by
    intro char hChar
    exact decide_eq_true fun hSame => h (hSame ▸ hChar)
  rw [splitOnce, List.span_eq_takeWhile_dropWhile, List.dropWhile_eq_nil_iff.mpr hText]

theorem not_mem_decimal {char : Char} (h : char.isDigit = false) (width n : Nat) : char ∉ decimal width n := by
  intro hMem
  rw [isDigit_of_mem_decimal hMem] at h
  cases h

namespace UtcTimestamp

/-- The fraction without the final letter. -/
def fractionPart (timestamp : UtcTimestamp) : List Char :=
  match timestamp.fraction with
  | none => []
  | some digits => '.' :: digits.map digitChar

theorem fractionText_eq (timestamp : UtcTimestamp) : timestamp.fractionText = timestamp.fractionPart ++ ['Z'] := by
  rw [fractionText, fractionPart]
  cases timestamp.fraction <;> rfl

def dateText (timestamp : UtcTimestamp) : List Char :=
  decimal 4 timestamp.year ++ '-' :: (decimal 2 timestamp.month ++ '-' :: decimal 2 timestamp.day)

def timeText (timestamp : UtcTimestamp) : List Char :=
  decimal 2 timestamp.hour ++ ':' :: (decimal 2 timestamp.minute ++ ':' ::
    (decimal 2 timestamp.second ++ timestamp.fractionPart))

theorem text_eq (timestamp : UtcTimestamp) :
    timestamp.text = timestamp.dateText ++ 'T' :: timestamp.timeText ++ ['Z'] := by
  rw [text, dateText, timeText, fractionText_eq]
  simp only [List.append_assoc, List.cons_append]

theorem parseSecondMillis_text (timestamp : UtcTimestamp) :
    parseSecondMillis (decimal 2 timestamp.second ++ timestamp.fractionPart) =
      some (UInt32.ofNat timestamp.second, fractionMillis timestamp.digits - lostMillis timestamp.digits) := by
  have hSecond := timestamp.second_lt
  have hParsed := parseUInt32_decimal (by decide : 0 < 2) (by omega : timestamp.second < 10 ^ 2) (by omega)
  have hPoint : '.' ∉ decimal 2 timestamp.second := not_mem_decimal (by decide) _ _
  have hNonempty := timestamp.fraction_nonempty
  rw [fractionPart, digits, parseSecondMillis]
  cases hFraction : timestamp.fraction with
  | none =>
    rw [List.append_nil, splitOnce_none hPoint]
    simp only [hParsed, Option.bind_eq_bind, Option.bind_some, Option.getD_none, fractionMillis_nil, Nat.zero_sub,
      Option.pure_def]
  | some digits =>
    rw [hFraction] at hNonempty
    have hMillis := parseUnsigned_take fun hNil : digits = [] => hNonempty (congrArg some hNil)
    simp only [splitOnce_append hPoint, hParsed, hMillis, Option.bind_eq_bind, Option.bind_some, Option.getD_some]
    rfl

def fields (timestamp : UtcTimestamp) : TimestampFields where
  year := Int32.ofInt timestamp.year
  month := UInt32.ofNat timestamp.month
  day := UInt32.ofNat timestamp.day
  hour := UInt32.ofNat timestamp.hour
  minute := UInt32.ofNat timestamp.minute
  second := UInt32.ofNat timestamp.second
  millis := fractionMillis timestamp.digits - lostMillis timestamp.digits

theorem timestampFields_text (timestamp : UtcTimestamp) :
    timestampFields (String.ofList timestamp.text) = some timestamp.fields := by
  have hYear := timestamp.year_lt
  have hMonth := timestamp.month_le
  have hDay := timestamp.day_lt
  have hHour := timestamp.hour_lt
  have hMinute := timestamp.minute_lt
  have hDate : 'T' ∉ timestamp.dateText := by
    simp [dateText, not_mem_decimal (by decide : 'T'.isDigit = false)]
  have hDateParts : timestamp.dateText.splitOn '-' =
      [decimal 4 timestamp.year, decimal 2 timestamp.month, decimal 2 timestamp.day] := by
    have hMinus := not_mem_decimal (by decide : '-'.isDigit = false)
    rw [dateText, List.splitOn_append_cons_self_of_not_mem (hMinus _ _),
      List.splitOn_append_cons_self_of_not_mem (hMinus _ _), List.splitOn_eq_singleton (hMinus _ _)]
  have hTimeParts : timestamp.timeText.splitOn ':' =
      [decimal 2 timestamp.hour, decimal 2 timestamp.minute,
        decimal 2 timestamp.second ++ timestamp.fractionPart] := by
    have hColon := not_mem_decimal (by decide : ':'.isDigit = false)
    have hFraction : ':' ∉ timestamp.fractionPart := by
      rw [fractionPart]
      split
      · exact List.not_mem_nil
      · rename_i digits _
        have hDigits : ':' ∉ digits.map digitChar := by
          intro hMem
          obtain ⟨digit, -, hDigit⟩ := List.mem_map.mp hMem
          exact absurd (hDigit ▸ digitChar_isDigit digit) (by decide)
        exact List.not_mem_cons_of_ne_of_not_mem (by decide) hDigits
    have hSecondPart : ':' ∉ decimal 2 timestamp.second ++ timestamp.fractionPart := by
      rw [List.mem_append, not_or]
      exact ⟨hColon _ _, hFraction⟩
    rw [timeText, List.splitOn_append_cons_self_of_not_mem (hColon _ _),
      List.splitOn_append_cons_self_of_not_mem (hColon _ _), List.splitOn_eq_singleton hSecondPart]
  rw [timestampFields, String.toList_ofList, text_eq, List.getLast?_concat, if_pos rfl, List.dropLast_concat]
  simp only [Option.bind_eq_bind, Option.bind_some, splitOnce_append hDate, hDateParts, hTimeParts,
    parseInt32_decimal (by decide : 0 < 4) hYear (by omega : timestamp.year < 2 ^ 31),
    parseUInt32_decimal (by decide : 0 < 2) (by omega : timestamp.month < 10 ^ 2) (by omega),
    parseUInt32_decimal (by decide : 0 < 2) hDay (by omega),
    parseUInt32_decimal (by decide : 0 < 2) (by omega : timestamp.hour < 10 ^ 2) (by omega),
    parseUInt32_decimal (by decide : 0 < 2) (by omega : timestamp.minute < 10 ^ 2) (by omega),
    parseSecondMillis_text, Option.pure_def, fields]

/-- Whole milliseconds since the beginning of 1970. -/
def wholeMillis (timestamp : UtcTimestamp) : Nat :=
  ⌊(timestamp.instant - (daysBeforeYear 1970 * 86400 : Nat)) * 1000⌋₊

theorem daysBeforeYear_1970 : daysBeforeYear 1970 = 719528 := by
  have hDays := daysBeforeYear_eq 1970
  omega

theorem seconds_ge {timestamp : UtcTimestamp} (h : 1970 ≤ timestamp.year) :
    719528 * 86400 ≤ timestamp.seconds := by
  have hDays := daysBeforeYear_mono h
  rw [daysBeforeYear_1970] at hDays
  rw [seconds, dayNumber]
  omega

theorem wholeMillis_eq {timestamp : UtcTimestamp} (h : 1970 ≤ timestamp.year) :
    timestamp.wholeMillis = (timestamp.seconds - 719528 * 86400) * 1000 + fractionMillis timestamp.digits := by
  have hSeconds := seconds_ge h
  have hFraction := fractionValue_nonneg timestamp.digits
  have hSplit : (timestamp.instant - ((daysBeforeYear 1970 * 86400 : Nat) : ℚ)) * 1000 =
      fractionValue timestamp.digits * 1000 + (((timestamp.seconds - 719528 * 86400) * 1000 : Nat) : ℚ) := by
    rw [instant, daysBeforeYear_1970]
    push_cast [Nat.cast_sub hSeconds]
    ring
  rw [wholeMillis, hSplit, Nat.floor_add_natCast (by positivity), fractionMillis, Nat.add_comm]

theorem lostMillis_le_wholeMillis {timestamp : UtcTimestamp} (h : 1970 ≤ timestamp.year) :
    lostMillis timestamp.digits ≤ timestamp.wholeMillis := by
  have hLost := lostMillis_le timestamp.digits
  rw [wholeMillis_eq h]
  omega

theorem toNat_ofNat_of_two_digits {n : Nat} (h : n < 10 ^ 2) : (UInt32.ofNat n).toNat = n :=
  UInt32.toNat_ofNat_of_lt' (h.trans (by decide))

theorem fields_validDate (timestamp : UtcTimestamp) : timestamp.fields.ValidDate := by
  have hMonth := timestamp.month_le
  have hMonthPos := timestamp.month_pos
  have hDay := timestamp.day_le
  have hDayPos := timestamp.day_pos
  have hDays : daysInMonth timestamp.year timestamp.month ≤ 31 := by
    rw [daysInMonth]
    split
    · split <;> decide
    · split <;> decide
  simp only [TimestampFields.ValidDate, fields, UInt32.le_iff_toNat_le]
  rw [toNat_ofNat_of_two_digits (by omega), toNat_ofNat_of_two_digits (by omega)]
  refine ⟨⟨?_, ?_⟩, ?_, ?_⟩ <;> simp <;> omega

theorem fields_dayNumber (timestamp : UtcTimestamp) : timestamp.fields.dayNumber = timestamp.dayNumber := by
  have hYear := timestamp.year_lt
  have hMonth := timestamp.month_le
  have hDay := timestamp.day_lt
  rw [TimestampFields.dayNumber, fields, dayNumber]
  dsimp only
  rw [Int32.toInt_ofInt_of_le (by omega) (by omega), toNat_ofNat_of_two_digits (by omega),
    toNat_ofNat_of_two_digits (by omega), Int.toNat_natCast]

theorem fields_secondOfDay (timestamp : UtcTimestamp) :
    timestamp.fields.secondOfDay = timestamp.hour * 3600 + timestamp.minute * 60 + timestamp.second := by
  have hHour := timestamp.hour_lt
  have hMinute := timestamp.minute_lt
  have hSecond := timestamp.second_lt
  rw [TimestampFields.secondOfDay, fields]
  dsimp only
  rw [toNat_ofNat_of_two_digits (by omega), toNat_ofNat_of_two_digits (by omega),
    toNat_ofNat_of_two_digits (by omega)]

theorem dayNumber_lt_of_year (timestamp : UtcTimestamp) : timestamp.dayNumber < 3652425 := by
  have hYear := timestamp.year_lt
  have hDays := daysBeforeYear_mono (Nat.succ_le_of_lt hYear)
  have hLast : daysBeforeYear 10000 = 3652425 := by
    have hClosed := daysBeforeYear_eq 10000
    omega
  have hWithin := timestamp.dayOfYear_lt
  rw [Nat.succ_eq_add_one, daysBeforeYear, hLast] at hDays
  rw [dayNumber]
  omega

theorem parseEpochMillis_text {timestamp : UtcTimestamp} (h : 1970 ≤ timestamp.year) :
    parseEpochMillis (String.ofList timestamp.text) =
      some (timestamp.wholeMillis - lostMillis timestamp.digits) := by
  have hDay := timestamp.dayNumber_lt_of_year
  have hSeconds := seconds_ge h
  have hLost := lostMillis_le timestamp.digits
  have hFits : DateFits (String.ofList timestamp.text) := by
    intro fields hFields _
    rw [timestampFields_text, Option.mem_some_iff] at hFields
    rw [← hFields, fields_dayNumber]
    omega
  have hInstant : timestamp.fields.instantMillis = (timestamp.wholeMillis - lostMillis timestamp.digits : Nat) := by
    have hMillis : timestamp.fields.millis = fractionMillis timestamp.digits - lostMillis timestamp.digits := rfl
    rw [TimestampFields.instantMillis, fields_dayNumber, fields_secondOfDay, wholeMillis_eq h, hMillis]
    rw [seconds] at hSeconds ⊢
    omega
  have hFraction : fractionMillis timestamp.digits < 1000 := by
    have hBelow := fractionValue_lt_one timestamp.digits
    exact (Nat.floor_lt' (by decide)).mpr (by push_cast; linarith)
  have hBound : timestamp.wholeMillis < 2 ^ 64 := by
    have hHour := timestamp.hour_lt
    have hMinute := timestamp.minute_lt
    have hSecond := timestamp.second_lt
    rw [wholeMillis_eq h, seconds]
    omega
  rw [(parseEpochMillis_of_fits hFits).2, exactEpochMillis, timestampFields_text]
  simp only [Option.bind_eq_bind, Option.bind_some, hInstant, Int.toNat_natCast]
  exact if_pos ⟨timestamp.fields_validDate, Int.natCast_nonneg _, by omega⟩

end UtcTimestamp

/-! ## Durations -/

variable {start later : UtcTimestamp}

theorem saturatingDurationUntil_text (hStart : 1970 ≤ start.year) (hLater : 1970 ≤ later.year) :
    saturatingDurationUntil start.eventTimestamp later.eventTimestamp =
      (later.wholeMillis - lostMillis later.digits) - (start.wholeMillis - lostMillis start.digits) := by
  rw [saturatingDurationUntil]
  simp only [UtcTimestamp.eventTimestamp, UtcTimestamp.parseEpochMillis_text hStart,
    UtcTimestamp.parseEpochMillis_text hLater]

/-- What two timestamps lose does not show in their difference. -/
def LossCancels (start later : UtcTimestamp) : Prop :=
  lostMillis start.digits = lostMillis later.digits ∨
    later.wholeMillis ≤ start.wholeMillis ∧
      later.wholeMillis + lostMillis start.digits ≤ start.wholeMillis + lostMillis later.digits

/-- A timestamp is read exactly unless its fraction is not scaled, and durations are exact unless what is lost shows
in them. -/
theorem epoch_millis_iff (timestamp start later : UtcTimestamp) (hYear : 1970 ≤ timestamp.year)
    (hStart : 1970 ≤ start.year) (hLater : 1970 ≤ later.year) :
    (parseEpochMillis (String.ofList timestamp.text) = some timestamp.wholeMillis ↔ Scaled timestamp.digits) ∧
    (saturatingDurationUntil start.eventTimestamp later.eventTimestamp = later.wholeMillis - start.wholeMillis ↔
      LossCancels start later) := by
  constructor
  · have hLost := UtcTimestamp.lostMillis_le_wholeMillis hYear
    rw [UtcTimestamp.parseEpochMillis_text hYear, ← lostMillis_eq_zero_iff, Option.some_inj]
    omega
  · have hStartLost := UtcTimestamp.lostMillis_le_wholeMillis hStart
    have hLaterLost := UtcTimestamp.lostMillis_le_wholeMillis hLater
    rw [saturatingDurationUntil_text hStart hLater, LossCancels]
    omega

theorem halfFraction_nonempty : some [(5 : Fin 10)] ≠ some [] := by decide

/-- 2026-06-20T10:00:01.5Z. -/
def halfSecond : UtcTimestamp :=
  { tenOClock (some [5]) halfFraction_nonempty with second := 1, second_lt := by decide }

theorem epoch_millis_iff_halfSecond :
    (parseEpochMillis (String.ofList halfSecond.text) = some halfSecond.wholeMillis ↔ Scaled halfSecond.digits) ∧
      (saturatingDurationUntil halfSecond.eventTimestamp halfSecond.eventTimestamp =
        halfSecond.wholeMillis - halfSecond.wholeMillis ↔ LossCancels halfSecond halfSecond) :=
  epoch_millis_iff halfSecond halfSecond halfSecond (by decide) (by decide) (by decide)

/-- Half a second is read as 5 milliseconds, and so is the time until then. -/
theorem half_second_read_as_millis :
    parseEpochMillis (String.ofList halfSecond.text) = some 1781949601005 ∧
      halfSecond.wholeMillis = 1781949601500 ∧
      saturatingDurationUntil ⟨"2026-06-20T10:00:01Z"⟩ halfSecond.eventTimestamp = 5 := by
  refine ⟨by decide +kernel, ?_, by decide +kernel⟩
  have hSeconds : halfSecond.seconds = 719528 * 86400 + 1781949601 := by
    decide +kernel
  have hMillis : fractionMillis halfSecond.digits = 500 := fractionMillis_one 5
  rw [UtcTimestamp.wholeMillis_eq (by decide), hSeconds, hMillis]

end Vannak.Process
