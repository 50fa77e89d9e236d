import Vannak.Identity

/-!
# Event timestamps

Timestamps are compared as strings and parsed only for durations: `parse_epoch_millis`
of `ingest.rs`. The civil-date arithmetic is on `i32` and wraps around in release builds.
-/

namespace Vannak.Process

set_option autoImplicit false

/-- Digits of `str::parse`, most significant first. -/
def parseDigits (digits : List Char) : Option Nat :=
  if digits ≠ [] ∧ digits.all Char.isDigit then
    some (digits.foldl (fun value digit => 10 * value + (digit.toNat - '0'.toNat)) 0)
  else none

/-- `parse::<u32>` and `parse::<u64>`: a plus sign is allowed, overflow is an error. -/
def parseUnsigned (limit : Nat) (text : List Char) : Option Nat :=
  let digits := match text with
    | '+' :: digits => digits
    | digits => digits
  (parseDigits digits).filter (· < limit)

/-- `parse::<i32>`. -/
def parseInt32 : List Char → Option Int32
  | '-' :: digits => ((parseDigits digits).filter (· ≤ 2 ^ 31)).map fun value => Int32.ofInt (-value)
  | text => (parseUnsigned (2 ^ 31) text).map fun value => Int32.ofInt value

def parseUInt32 (text : List Char) : Option UInt32 :=
  (parseUnsigned (2 ^ 32) text).map UInt32.ofNat

/-- `split_once`. -/
def splitOnce (separator : Char) (text : List Char) : Option (List Char × List Char) :=
  match text.span (· ≠ separator) with
  | (before, _ :: after) => some (before, after)
  | (_, []) => none

def parseSecondMillis (value : List Char) : Option (UInt32 × Nat) :=
  match splitOnce '.' value with
  | some (second, fraction) => do
    let second ← parseUInt32 second
    let millis ← parseUnsigned (2 ^ 64) (fraction.take 3)
    return (second, millis)
  | none => do
    let second ← parseUInt32 value
    return (second, 0)

def daysFromCivil (year : Int32) (month day : UInt32) : Option Int32 :=
  if ¬(1 ≤ month ∧ month ≤ 12) ∨ ¬(1 ≤ day ∧ day ≤ 31) then none
  else
    let year := year - (if month ≤ 2 then 1 else 0)
    let era := (if 0 ≤ year then year else year - 399) / 400
    let yoe := year - era * 400
    let month := month.toInt32
    let day := day.toInt32
    let doy := (153 * (month + (if month > 2 then -3 else 9)) + 2) / 5 + day - 1
    let doe := yoe * 365 + yoe / 4 - yoe / 100 + doy
    some (era * 146097 + doe - 719468)

/-- Days and seconds fit `i64`; a date before the epoch is refused by `u64::try_from`. -/
def parseEpochMillis (timestamp : String) : Option Nat := do
  let rest ← if timestamp.toList.getLast? = some 'Z' then some timestamp.toList.dropLast else none
  let (date, time) ← splitOnce 'T' rest
  let year :: month :: day :: _ := date.splitOn '-' | none
  let year ← parseInt32 year
  let month ← parseUInt32 month
  let day ← parseUInt32 day
  let hour :: minute :: secondPart :: _ := time.splitOn ':' | none
  let hour ← parseUInt32 hour
  let minute ← parseUInt32 minute
  let (second, millis) ← parseSecondMillis secondPart
  let days ← daysFromCivil year month day
  let seconds : Int := days.toInt * 86400 + (hour.toNat * 3600 + minute.toNat * 60 + second.toNat)
  if seconds < 0 then none
  else (some (seconds.toNat * 1000 + millis)).filter (· < 2 ^ 64)

/-- `saturating_duration_until`. -/
def saturatingDurationUntil (start later : EventTimestamp) : Nat :=
  match parseEpochMillis start.asStr, parseEpochMillis later.asStr with
  | some start, some later => later - start
  | _, _ => 0

example : saturatingDurationUntil ⟨"2026-06-20T10:00:00Z"⟩ ⟨"2026-06-20T10:00:01.5Z"⟩ = 1005 := by
  decide +kernel

end Vannak.Process
