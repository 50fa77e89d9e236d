import Vannak.Foundation.Decimal
import Vannak.Process.HotIndex

/-!
# Timestamps and the instants they denote

Timestamps are ordered as strings, by the derived order of `EventTimestamp` in
`ingest.rs`. Durga writes an instant as `YYYY-MM-DDTHH:MM:SS[.f+]Z`. All fields but the
fraction have a fixed width, so the two orders agree on different seconds; within one
second they disagree exactly when one fraction continues the other.
-/

namespace Vannak.Process

open Foundation

set_option autoImplicit false

/-! ## The calendar -/

def isLeapYear (year : Nat) : Bool := year % 4 = 0 ∧ (year % 100 ≠ 0 ∨ year % 400 = 0)

def daysInMonth (year month : Nat) : Nat :=
  if month = 2 then (if isLeapYear year then 29 else 28)
  else if month = 4 ∨ month = 6 ∨ month = 9 ∨ month = 11 then 30
  else 31

/-- Days of the year before its month, counted from 1. -/
def daysBeforeMonth (year : Nat) : Nat → Nat
  | 0 => 0
  | month + 1 => daysBeforeMonth year month + if month = 0 then 0 else daysInMonth year month

def daysInYear (year : Nat) : Nat := if isLeapYear year then 366 else 365

def daysBeforeYear : Nat → Nat
  | 0 => 0
  | year + 1 => daysBeforeYear year + daysInYear year

theorem daysBeforeMonth_thirteen (year : Nat) : daysBeforeMonth year 13 = daysInYear year := by
  rw [daysInYear]
  cases hLeap : isLeapYear year <;> simp [daysBeforeMonth, daysInMonth, hLeap]

theorem daysBeforeMonth_mono (year : Nat) : Monotone (daysBeforeMonth year) :=
  monotone_nat_of_le_succ fun _ => Nat.le_add_right _ _

theorem daysBeforeYear_mono : Monotone daysBeforeYear :=
  monotone_nat_of_le_succ fun _ => Nat.le_add_right _ _

theorem daysBeforeMonth_succ {month : Nat} (h : 0 < month) (year : Nat) :
    daysBeforeMonth year (month + 1) = daysBeforeMonth year month + daysInMonth year month := by
  rw [daysBeforeMonth, if_neg h.ne']

/-! ## Timestamps as Durga writes them -/

/-- A valid UTC date and time with a fraction of one or more digits, or none. -/
structure UtcTimestamp where
  year : Nat
  month : Nat
  day : Nat
  hour : Nat
  minute : Nat
  second : Nat
  fraction : Option (List (Fin 10))
  year_lt : year < 10000
  month_pos : 0 < month
  month_le : month ≤ 12
  day_pos : 0 < day
  day_le : day ≤ daysInMonth year month
  hour_lt : hour < 24
  minute_lt : minute < 60
  second_lt : second < 60
  fraction_nonempty : fraction ≠ some []

namespace UtcTimestamp

/-- The digits of the fraction; none if there is no fraction. -/
def digits (timestamp : UtcTimestamp) : List (Fin 10) := timestamp.fraction.getD []

def fractionText (timestamp : UtcTimestamp) : List Char :=
  match timestamp.fraction with
  | none => ['Z']
  | some digits => '.' :: (digits.map digitChar ++ ['Z'])

def text (timestamp : UtcTimestamp) : List Char :=
  decimal 4 timestamp.year ++ '-' :: (decimal 2 timestamp.month ++ '-' :: (decimal 2 timestamp.day ++ 'T' ::
    (decimal 2 timestamp.hour ++ ':' :: (decimal 2 timestamp.minute ++ ':' ::
      (decimal 2 timestamp.second ++ timestamp.fractionText)))))

def eventTimestamp (timestamp : UtcTimestamp) : EventTimestamp := ⟨String.ofList timestamp.text⟩

def dayNumber (timestamp : UtcTimestamp) : Nat :=
  daysBeforeYear timestamp.year + daysBeforeMonth timestamp.year timestamp.month + (timestamp.day - 1)

/-- Whole seconds since the beginning of the year 0. -/
def seconds (timestamp : UtcTimestamp) : Nat :=
  timestamp.dayNumber * 86400 + (timestamp.hour * 3600 + timestamp.minute * 60 + timestamp.second)

def instant (timestamp : UtcTimestamp) : ℚ := timestamp.seconds + fractionValue timestamp.digits

/-- Field by field, without the fraction. -/
def Precedes (left right : UtcTimestamp) : Prop :=
  left.year < right.year ∨ left.year = right.year ∧
  (left.month < right.month ∨ left.month = right.month ∧
  (left.day < right.day ∨ left.day = right.day ∧
  (left.hour < right.hour ∨ left.hour = right.hour ∧
  (left.minute < right.minute ∨ left.minute = right.minute ∧ left.second < right.second))))

def SameSecond (left right : UtcTimestamp) : Prop :=
  left.year = right.year ∧ left.month = right.month ∧ left.day = right.day ∧
    left.hour = right.hour ∧ left.minute = right.minute ∧ left.second = right.second

instance (left right : UtcTimestamp) : Decidable (SameSecond left right) :=
  inferInstanceAs (Decidable (_ ∧ _))

/-- Two timestamps of one second, the second of which continues the fraction of the first. -/
def Continues (left right : UtcTimestamp) : Prop :=
  SameSecond left right ∧ left.digits <+: right.digits

instance (left right : UtcTimestamp) : Decidable (Continues left right) :=
  inferInstanceAs (Decidable (_ ∧ _))

variable {left right : UtcTimestamp}

theorem precedes_or_sameSecond (left right : UtcTimestamp) :
    Precedes left right ∨ SameSecond left right ∨ Precedes right left := by
  unfold Precedes SameSecond
  omega

theorem SameSecond.symm (h : SameSecond left right) : SameSecond right left := by
  unfold SameSecond at *
  omega

/-! ## The order of instants -/

theorem day_lt (timestamp : UtcTimestamp) : timestamp.day < 10 ^ 2 := by
  have hDay := timestamp.day_le
  rw [daysInMonth] at hDay
  split at hDay
  · split at hDay <;> omega
  · split at hDay <;> omega

theorem dayOfYear_lt (timestamp : UtcTimestamp) :
    daysBeforeMonth timestamp.year timestamp.month + (timestamp.day - 1) < daysInYear timestamp.year := by
  have hMonth := daysBeforeMonth_succ timestamp.month_pos timestamp.year
  have hYear : daysBeforeMonth timestamp.year (timestamp.month + 1) ≤ daysInYear timestamp.year := by
    rw [← daysBeforeMonth_thirteen]
    exact daysBeforeMonth_mono timestamp.year (Nat.succ_le_succ timestamp.month_le)
  have hDay := timestamp.day_le
  have hPos := timestamp.day_pos
  omega

theorem dayNumber_lt (h : left.year < right.year ∨ left.year = right.year ∧
    (left.month < right.month ∨ left.month = right.month ∧ left.day < right.day)) :
    left.dayNumber < right.dayNumber := by
  rw [dayNumber, dayNumber]
  have hPos := left.day_pos
  rcases h with hYear | ⟨hYear, hMonth | ⟨hMonth, hDay⟩⟩
  · have hLater := daysBeforeYear_mono (Nat.succ_le_of_lt hYear)
    have hWithin := left.dayOfYear_lt
    rw [Nat.succ_eq_add_one, daysBeforeYear] at hLater
    omega
  · have hLater := daysBeforeMonth_mono left.year (Nat.succ_le_of_lt hMonth)
    have hDay := left.day_le
    rw [Nat.succ_eq_add_one, daysBeforeMonth_succ left.month_pos] at hLater
    rw [← hYear]
    omega
  · rw [← hYear, ← hMonth]
    omega

theorem seconds_lt_of_precedes (h : Precedes left right) : left.seconds < right.seconds := by
  rw [seconds, seconds]
  have hLeft := And.intro left.hour_lt (And.intro left.minute_lt left.second_lt)
  by_cases hDate : left.year = right.year ∧ left.month = right.month ∧ left.day = right.day
  · have hSame : left.dayNumber = right.dayNumber := by
      rw [dayNumber, dayNumber, hDate.1, hDate.2.1, hDate.2.2]
    unfold Precedes at h
    omega
  · have hDay : left.dayNumber < right.dayNumber := by
      apply dayNumber_lt
      unfold Precedes at h
      omega
    omega

theorem SameSecond.seconds (h : SameSecond left right) : left.seconds = right.seconds := by
  obtain ⟨hYear, hMonth, hDay, hHour, hMinute, hSecond⟩ := h
  rw [UtcTimestamp.seconds, UtcTimestamp.seconds, dayNumber, dayNumber, hYear, hMonth, hDay, hHour, hMinute,
    hSecond]

theorem instant_lt_of_precedes (h : Precedes left right) : left.instant < right.instant := by
  have hSeconds : (left.seconds : ℚ) + 1 ≤ right.seconds := by exact_mod_cast seconds_lt_of_precedes h
  have hBelow := fractionValue_lt_one left.digits
  have hAbove := fractionValue_nonneg right.digits
  rw [instant, instant]
  linarith

theorem SameSecond.instant_lt_iff (h : SameSecond left right) :
    left.instant < right.instant ↔ fractionValue left.digits < fractionValue right.digits := by
  rw [instant, instant, h.seconds]
  exact add_lt_add_iff_left _

/-! ## The order of texts -/

theorem fractionText_lt_iff (left right : UtcTimestamp) :
    left.fractionText < right.fractionText ↔
      (right.digits <+: left.digits ∧ left.digits ≠ right.digits) ∨
        (¬left.digits <+: right.digits ∧ left.digits < right.digits) := by
  rw [fractionText, fractionText, digits, digits]
  have hLeft := left.fraction_nonempty
  have hRight := right.fraction_nonempty
  cases hFirst : left.fraction with
  | none =>
    cases hSecond : right.fraction with
    | none => simp
    | some more =>
      have hAfter : ¬(['Z'] : List Char) < '.' :: (more.map digitChar ++ ['Z']) := by
        rw [List.cons_lt_cons_iff]
        rintro (hLt | ⟨hSame, -⟩)
        · exact absurd hLt (by decide)
        · exact absurd hSame (by decide)
      rw [hSecond] at hRight
      have hMore : more ≠ [] := fun hNil => hRight (congrArg some hNil)
      simpa [hMore] using hAfter
  | some shorter =>
    rw [hFirst] at hLeft
    have hSome : shorter ≠ [] := fun hNil => hLeft (congrArg some hNil)
    cases hSecond : right.fraction with
    | none =>
      have hBefore : '.' :: (shorter.map digitChar ++ ['Z']) < (['Z'] : List Char) :=
        List.cons_lt_cons_iff.mpr (.inl (by decide))
      simpa [hSome] using hBefore
    | some more =>
      simp only [List.cons_lt_cons_iff, lt_irrefl, false_or, true_and, Option.getD_some]
      exact closed_lt_closed_iff (by decide) shorter more

theorem text_lt_iff (left right : UtcTimestamp) :
    left.text < right.text ↔
      Precedes left right ∨ SameSecond left right ∧ left.fractionText < right.fractionText := by
  have hNumber {width n m : Nat} (hn : n < 10 ^ width) (hm : m < 10 ^ width) (mark : Char)
      (after other : List Char) :
      decimal width n ++ mark :: after < decimal width m ++ mark :: other ↔
        n < m ∨ n = m ∧ after < other := by
    rw [append_lt_append_iff (by simp), decimal_lt_decimal_iff hn hm, List.cons_lt_cons_iff]
    simp only [lt_irrefl, false_or, true_and]
    exact or_congr_right (and_congr_left' ⟨decimal_inj hn hm, congrArg _⟩)
  have hLast : decimal 2 left.second ++ left.fractionText < decimal 2 right.second ++ right.fractionText ↔
      left.second < right.second ∨ left.second = right.second ∧ left.fractionText < right.fractionText := by
    have hLeft := left.second_lt
    have hRight := right.second_lt
    rw [append_lt_append_iff (by simp), decimal_lt_decimal_iff (by omega) (by omega)]
    exact or_congr_right (and_congr_left' ⟨decimal_inj (by omega) (by omega), congrArg _⟩)
  have hDay : left.day < 10 ^ 2 ∧ right.day < 10 ^ 2 := ⟨left.day_lt, right.day_lt⟩
  have hFields := And.intro left.month_le (And.intro left.hour_lt left.minute_lt)
  have hOthers := And.intro right.month_le (And.intro right.hour_lt right.minute_lt)
  have hYear : left.year < 10 ^ 4 ∧ right.year < 10 ^ 4 := ⟨left.year_lt, right.year_lt⟩
  rw [text, text, hNumber hYear.1 hYear.2, hNumber (by omega) (by omega), hNumber hDay.1 hDay.2,
    hNumber (by omega) (by omega), hNumber (by omega) (by omega), hLast]
  unfold Precedes SameSecond
  by_cases hTail : left.fractionText < right.fractionText
  · simp only [hTail, and_true]
    omega
  · simp only [hTail, and_false, or_false]

theorem Precedes.not_sameSecond (h : Precedes left right) : ¬SameSecond left right := by
  unfold Precedes at h
  unfold SameSecond
  omega

theorem text_lt_iff_of_instant_lt (h : left.instant < right.instant) :
    left.text < right.text ↔ ¬Continues left right := by
  rw [text_lt_iff]
  rcases precedes_or_sameSecond left right with hEarlier | hSame | hLater
  · exact ⟨fun _ hContinues => hEarlier.not_sameSecond hContinues.1, fun _ => .inl hEarlier⟩
  · have hValue := hSame.instant_lt_iff.mp h
    have hNotBack : ¬right.digits <+: left.digits := fun hPrefix =>
      absurd (fractionValue_le_of_isPrefix hPrefix) (not_le.mpr hValue)
    rw [fractionText_lt_iff]
    constructor
    · rintro (hEarlier | ⟨-, ⟨hPrefix, -⟩ | ⟨hNot, -⟩⟩) hContinues
      · exact hEarlier.not_sameSecond hSame
      · exact hNotBack hPrefix
      · exact hNot hContinues.2
    · intro hNot
      have hNotPrefix : ¬left.digits <+: right.digits := fun hPrefix => hNot ⟨hSame, hPrefix⟩
      refine .inr ⟨hSame, .inr ⟨hNotPrefix, ?_⟩⟩
      rcases lt_trichotomy left.digits right.digits with hLt | hEq | hGt
      · exact hLt
      · exact absurd (hEq ▸ List.prefix_refl _) hNotPrefix
      · exact absurd (fractionValue_lt_of_lt hNotBack hGt) hValue.asymm
  · exact absurd (instant_lt_of_precedes hLater) h.asymm

/-- The continued fraction comes first as a text, whatever the further digits are. -/
theorem Continues.text_lt (h : Continues left right) (hDigits : left.digits ≠ right.digits) :
    right.text < left.text :=
  (text_lt_iff right left).mpr
    (.inr ⟨h.1.symm, (fractionText_lt_iff right left).mpr (.inl ⟨h.2, hDigits.symm⟩)⟩)

theorem not_text_lt_iff_of_instant_lt (h : left.instant < right.instant) :
    ¬right.text < left.text ↔ ¬Continues left right := by
  constructor
  · intro hNot hContinues
    have hDigits : left.digits ≠ right.digits := fun hSame =>
      absurd (hContinues.1.instant_lt_iff.mp h) (hSame ▸ lt_irrefl _)
    exact hNot (hContinues.text_lt hDigits)
  · exact fun hNot => ((text_lt_iff_of_instant_lt h).mpr hNot).asymm

/-- Timestamps of one second of which one continues the fraction of the other. -/
def Confusable (left right : UtcTimestamp) : Prop :=
  left.digits ≠ right.digits ∧ (Continues left right ∨ Continues right left)

instance (left right : UtcTimestamp) : Decidable (Confusable left right) :=
  inferInstanceAs (Decidable (_ ∧ _))

theorem Confusable.symm (h : Confusable left right) : Confusable right left := ⟨h.1.symm, h.2.symm⟩

theorem text_lt_iff_instant_lt (h : ¬Confusable left right) :
    left.text < right.text ↔ left.instant < right.instant := by
  rcases precedes_or_sameSecond left right with hEarlier | hSame | hLater
  · exact iff_of_true ((text_lt_iff left right).mpr (.inl hEarlier)) (instant_lt_of_precedes hEarlier)
  · rw [text_lt_iff, hSame.instant_lt_iff, fractionText_lt_iff]
    by_cases hDigits : left.digits = right.digits
    · rw [hDigits]
      refine iff_of_false ?_ (lt_irrefl _)
      rintro (hEarlier | ⟨-, ⟨-, hNe⟩ | ⟨hNot, -⟩⟩)
      · exact hEarlier.not_sameSecond hSame
      · exact hNe rfl
      · exact hNot (List.prefix_refl _)
    · have hNot : ¬left.digits <+: right.digits := fun hPrefix => h ⟨hDigits, .inl ⟨hSame, hPrefix⟩⟩
      have hNotBack : ¬right.digits <+: left.digits := fun hPrefix =>
        h ⟨hDigits, .inr ⟨hSame.symm, hPrefix⟩⟩
      constructor
      · rintro (hEarlier | ⟨-, ⟨hPrefix, -⟩ | ⟨-, hLt⟩⟩)
        · exact absurd hSame hEarlier.not_sameSecond
        · exact absurd hPrefix hNotBack
        · exact fractionValue_lt_of_lt hNot hLt
      · intro hValue
        refine .inr ⟨hSame, .inr ⟨hNot, ?_⟩⟩
        rcases lt_trichotomy left.digits right.digits with hLt | hEq | hGt
        · exact hLt
        · exact absurd hEq hDigits
        · exact absurd (fractionValue_lt_of_lt hNotBack hGt) hValue.asymm
  · refine iff_of_false ?_ (instant_lt_of_precedes hLater).asymm
    exact ((text_lt_iff right left).mpr (.inl hLater)).asymm

theorem text_le_iff_instant_le (h : ¬Confusable left right) :
    left.text ≤ right.text ↔ left.instant ≤ right.instant := by
  rw [← not_lt, ← not_lt, text_lt_iff_instant_lt fun hConfusable => h hConfusable.symm]

theorem asStr_lt_iff (left right : UtcTimestamp) :
    left.eventTimestamp.asStr < right.eventTimestamp.asStr ↔ left.text < right.text := by
  rw [String.lt_iff_toList_lt, eventTimestamp, eventTimestamp, String.toList_ofList, String.toList_ofList]

theorem asStr_le_iff (left right : UtcTimestamp) :
    left.eventTimestamp.asStr ≤ right.eventTimestamp.asStr ↔ left.text ≤ right.text := by
  rw [← not_lt, ← not_lt, asStr_lt_iff]

end UtcTimestamp

/-! ## Events that are applied -/

/-- An event with a timestamp that Durga wrote. -/
structure TimedEvent where
  event : PipelineEvent
  time : UtcTimestamp
  timestamp_eq : event.timestamp = time.eventTimestamp

namespace ProcessInstanceState

theorem lastUpdatedAt_recordActivityTerminal (state : ProcessInstanceState) (event : PipelineEvent)
    (activityState : ActivityState) :
    (state.recordActivityTerminal event activityState).lastUpdatedAt = state.lastUpdatedAt := by
  rw [recordActivityTerminal]
  split
  · rfl
  · simp only
    split <;> rfl

theorem lastUpdatedAt_setStatusUnlessTerminal (wasTerminal : Bool) (status : ProcessStatus)
    (state : ProcessInstanceState) :
    (setStatusUnlessTerminal wasTerminal status state).lastUpdatedAt = state.lastUpdatedAt := by
  rw [setStatusUnlessTerminal]
  split <;> rfl

theorem lastUpdatedAt_applyKind (wasTerminal : Bool) (state : ProcessInstanceState) (event : PipelineEvent) :
    (applyKind wasTerminal state event).lastUpdatedAt = state.lastUpdatedAt := by
  rw [applyKind]
  cases event.kind with
  | activityEntered =>
    simp only
    split <;> exact lastUpdatedAt_setStatusUnlessTerminal _ _ _
  | _ => simp only [lastUpdatedAt_recordActivityTerminal, lastUpdatedAt_setStatusUnlessTerminal]

theorem lastUpdatedAt_apply (state : ProcessInstanceState) (event : PipelineEvent) :
    (state.apply event).lastUpdatedAt =
      if event.timestamp.asStr < state.lastUpdatedAt.asStr then state.lastUpdatedAt else event.timestamp := by
  rw [apply]
  split
  · rfl
  · rw [lastUpdatedAt_applyKind]
    rfl

/-- The state keeps the largest timestamp it has seen. -/
theorem lastUpdatedAt_foldl_apply (state : ProcessInstanceState) (events : List PipelineEvent) :
    (∀ event ∈ events, event.timestamp.asStr ≤ (events.foldl apply state).lastUpdatedAt.asStr) ∧
    state.lastUpdatedAt.asStr ≤ (events.foldl apply state).lastUpdatedAt.asStr ∧
    ((events.foldl apply state).lastUpdatedAt = state.lastUpdatedAt ∨
      ∃ event ∈ events, (events.foldl apply state).lastUpdatedAt = event.timestamp) := by
  induction events generalizing state with
  | nil => exact ⟨by simp, le_refl _, .inl rfl⟩
  | cons event events ih =>
    obtain ⟨hEvents, hState, hSource⟩ := ih (state.apply event)
    have hBoth : event.timestamp.asStr ≤ (state.apply event).lastUpdatedAt.asStr ∧
        state.lastUpdatedAt.asStr ≤ (state.apply event).lastUpdatedAt.asStr := by
      rw [lastUpdatedAt_apply]
      split
      · rename_i hOlder
        exact ⟨hOlder.le, le_refl _⟩
      · rename_i hNewer
        exact ⟨le_refl _, not_lt.mp hNewer⟩
    rw [List.foldl_cons]
    refine ⟨List.forall_mem_cons.mpr ⟨hBoth.1.trans hState, hEvents⟩, hBoth.2.trans hState, ?_⟩
    rcases hSource with hSame | ⟨other, hOther, hSame⟩
    · rw [hSame, lastUpdatedAt_apply]
      split
      · exact .inl rfl
      · exact .inr ⟨event, List.mem_cons_self, rfl⟩
    · exact .inr ⟨other, List.mem_cons_of_mem event hOther, hSame⟩

/-- The state of an instance whose events arrived in this order. -/
def ofEvents (first : PipelineEvent) (rest : List PipelineEvent) : ProcessInstanceState :=
  (first :: rest).foldl apply (new first)

/-- The event is not taken for an older one. -/
def Accepts (state : ProcessInstanceState) (event : PipelineEvent) : Prop :=
  (state.apply event).lastUpdatedAt = event.timestamp

theorem accepts_iff (state : ProcessInstanceState) (event : PipelineEvent) :
    state.Accepts event ↔ ¬event.timestamp.asStr < state.lastUpdatedAt.asStr := by
  rw [Accepts, lastUpdatedAt_apply]
  split
  · rename_i hOlder
    exact iff_of_false (fun hSame => absurd hOlder (hSame ▸ lt_irrefl _)) (not_not.mpr hOlder)
  · rename_i hNewer
    exact iff_of_true rfl hNewer

theorem ofEvents_accepts_iff (first : PipelineEvent) (rest : List PipelineEvent) (event : PipelineEvent) :
    (ofEvents first rest).Accepts event ↔
      ∀ other ∈ first :: rest, ¬event.timestamp.asStr < other.timestamp.asStr := by
  obtain ⟨hEvents, -, hSource⟩ := lastUpdatedAt_foldl_apply (new first) (first :: rest)
  rw [accepts_iff]
  constructor
  · exact fun hNewer other hOther hOlder => hNewer (hOlder.trans_le (hEvents other hOther))
  · intro hAll
    rcases hSource with hSame | ⟨other, hOther, hSame⟩
    · rw [ofEvents, hSame]
      exact hAll first List.mem_cons_self
    · rw [ofEvents, hSame]
      exact hAll other hOther

theorem accepts_later_iff (first : TimedEvent) (rest : List TimedEvent) (later : TimedEvent)
    (h : ∀ earlier ∈ first :: rest, earlier.time.instant < later.time.instant) :
    (ofEvents first.event (rest.map TimedEvent.event)).Accepts later.event ↔
      ∀ earlier ∈ first :: rest, ¬UtcTimestamp.Continues earlier.time later.time := by
  rw [ofEvents_accepts_iff, ← List.map_cons, List.forall_mem_map]
  refine forall₂_congr fun earlier hEarlier => ?_
  rw [later.timestamp_eq, earlier.timestamp_eq, UtcTimestamp.asStr_lt_iff]
  exact UtcTimestamp.not_text_lt_iff_of_instant_lt (h earlier hEarlier)

end ProcessInstanceState

/-! ## Range queries -/

/-- `QueryLimit::new` raises zero to one. -/
structure QueryLimit where
  value : Nat
  value_pos : 0 < value

def QueryLimit.reached (limit : QueryLimit) (count : Nat) : Bool := limit.value ≤ count

structure TimeRangeQuery where
  start : Option EventTimestamp
  stop : Option EventTimestamp
  limit : QueryLimit

def TimeRangeQuery.contains (query : TimeRangeQuery) (timestamp : EventTimestamp) : Bool :=
  query.start.all (fun start => start.asStr ≤ timestamp.asStr) &&
    query.stop.all (fun stop => timestamp.asStr ≤ stop.asStr)

namespace HotIndex

/-- The inner loop; the flag says that the limit was reached. -/
def pushUntil (limit : QueryLimit) : List EventId → List EventId → List EventId × Bool
  | found, [] => (found, false)
  | found, id :: ids =>
    if limit.reached (found ++ [id]).length then (found ++ [id], true) else pushUntil limit (found ++ [id]) ids

def collectInRange (query : TimeRangeQuery) :
    List EventId → List (EventTimestamp × List EventId) → List EventId
  | found, [] => found
  | found, (timestamp, ids) :: rest =>
    if ¬query.contains timestamp then collectInRange query found rest
    else
      match pushUntil query.limit found ids with
      | (found, true) => found
      | (found, false) => collectInRange query found rest

def eventsForIds (index : HotIndex) (ids : List EventId) : List PipelineEvent :=
  ids.filterMap fun id => index.eventsById[id]?

def eventsInTimeRange (index : HotIndex) (query : TimeRangeQuery) : List PipelineEvent :=
  index.eventsForIds (collectInRange query [] index.eventsByTime.toList)

def ingestAll (index : HotIndex) (events : List PipelineEvent) : HotIndex :=
  events.foldl (fun index event => (index.ingest event).2) index

/-- Every event is filed under its own timestamp. -/
def FilesByTime (index : HotIndex) : Prop :=
  ∀ (timestamp : EventTimestamp) (id : EventId), id ∈ (index.eventsByTime[timestamp]?).getD [] ↔
    ∃ event, index.eventsById[id]? = some event ∧ event.timestamp = timestamp

theorem mem_pushId {α : Type} [Ord α] [Std.TransOrd α] [Std.LawfulEqOrd α] [DecidableEq α]
    (map : BTreeMap α (List EventId)) (key other : α) (added id : EventId) :
    id ∈ ((pushId map key added)[other]?).getD [] ↔
      id ∈ (map[other]?).getD [] ∨ key = other ∧ id = added := by
  rw [pushId, getElem?_insert_ite, Std.ExtTreeMap.getD_eq_getD_getElem?]
  split
  · rename_i hKey
    subst hKey
    rw [Option.getD_some, List.mem_append, List.mem_singleton]
    simp
  · rename_i hKey
    simp [hKey]

theorem FilesByTime.ingest {index : HotIndex} (h : index.FilesByTime) (event : PipelineEvent) :
    (index.ingest event).2.FilesByTime := by
  rw [HotIndex.ingest]
  cases event.validate with
  | error error => exact h
  | ok =>
    by_cases hKnown : event.eventId ∈ index.eventsById
    · simp only [if_pos hKnown]
      exact h
    · simp only [if_neg hKnown]
      intro timestamp id
      have hFresh : index.eventsById[event.eventId]? = none := Std.ExtTreeMap.getElem?_eq_none hKnown
      simp only [mem_pushId, getElem?_insert_ite, h timestamp id]
      by_cases hSame : event.eventId = id
      · subst hSame
        simp [hFresh]
      · simp [hSame, Ne.symm hSame]

theorem filesByTime_ingestAll (events : List PipelineEvent) : (new.ingestAll events).FilesByTime := by
  have hNew : new.FilesByTime := fun timestamp id => by simp [new]
  rw [ingestAll]
  induction events using List.reverseRecOn with
  | nil => exact hNew
  | append_singleton events event ih =>
    rw [List.foldl_concat]
    exact FilesByTime.ingest ih event

theorem pushUntil_of_lt {limit : QueryLimit} {found ids : List EventId}
    (h : (found ++ ids).length < limit.value) : pushUntil limit found ids = (found ++ ids, false) := by
  induction ids generalizing found with
  | nil => rw [pushUntil, List.append_nil]
  | cons id ids ih =>
    rw [List.append_cons] at h ⊢
    have hNotReached : limit.reached (found ++ [id]).length = false := by
      rw [QueryLimit.reached, decide_eq_false_iff_not]
      rw [List.length_append] at h
      omega
    rw [pushUntil, hNotReached, if_neg Bool.false_ne_true, ih h]

theorem collectInRange_of_lt {query : TimeRangeQuery} {found : List EventId}
    {filed : List (EventTimestamp × List EventId)}
    (h : (found ++ filed.flatMap Prod.snd).length < query.limit.value) :
    collectInRange query found filed =
      found ++ (filed.filter fun entry => query.contains entry.1).flatMap Prod.snd := by
  induction filed generalizing found with
  | nil => simp [collectInRange]
  | cons entry filed ih =>
    obtain ⟨timestamp, ids⟩ := entry
    simp only [List.flatMap_cons, List.length_append] at h
    rw [collectInRange]
    by_cases hContains : query.contains timestamp = true
    · have hHere : (found ++ ids).length < query.limit.value := by
        rw [List.length_append]
        omega
      rw [if_neg (not_not.mpr hContains), pushUntil_of_lt hHere, List.filter_cons, if_pos hContains,
        List.flatMap_cons, ← List.append_assoc]
      refine ih ?_
      simp only [List.length_append]
      omega
    · rw [if_pos hContains, List.filter_cons, if_neg hContains]
      refine ih ?_
      simp only [List.length_append]
      omega

/-- Below the limit a range query returns the events whose text is in the range. -/
theorem mem_eventsInTimeRange_iff {index : HotIndex} (h : index.FilesByTime) {query : TimeRangeQuery}
    (hLimit : (index.eventsByTime.toList.flatMap Prod.snd).length < query.limit.value) (event : PipelineEvent) :
    event ∈ index.eventsInTimeRange query ↔
      (∃ id : EventId, index.eventsById[id]? = some event) ∧ query.contains event.timestamp = true := by
  rw [eventsInTimeRange, eventsForIds, collectInRange_of_lt (by simpa using hLimit), List.nil_append,
    List.mem_filterMap]
  simp only [List.mem_flatMap, List.mem_filter, Prod.exists, Std.ExtTreeMap.mem_toList_iff_getElem?_eq_some]
  constructor
  · rintro ⟨id, ⟨timestamp, ids, ⟨hIds, hContains⟩, hId⟩, hEvent⟩
    obtain ⟨other, hOther, hTimestamp⟩ := (h timestamp id).mp (by rw [hIds]; exact hId)
    obtain rfl : other = event := Option.some.inj (hOther.symm.trans hEvent)
    exact ⟨⟨id, hEvent⟩, hTimestamp ▸ hContains⟩
  · rintro ⟨⟨id, hEvent⟩, hContains⟩
    have hFiled := (h event.timestamp id).mpr ⟨event, hEvent, rfl⟩
    cases hIds : index.eventsByTime[event.timestamp]? with
    | none =>
      rw [hIds] at hFiled
      cases hFiled
    | some ids =>
      rw [hIds] at hFiled
      exact ⟨id, ⟨event.timestamp, ids, ⟨hIds, hContains⟩, hFiled⟩, hEvent⟩

/-- A query whose bounds are timestamps that Durga wrote. -/
def rangeBetween (start stop : Option UtcTimestamp) (limit : QueryLimit) : TimeRangeQuery :=
  ⟨start.map UtcTimestamp.eventTimestamp, stop.map UtcTimestamp.eventTimestamp, limit⟩

theorem contains_rangeBetween {start stop : Option UtcTimestamp} {time : UtcTimestamp}
    (h : ∀ bound, start = some bound ∨ stop = some bound → ¬UtcTimestamp.Confusable bound time)
    (limit : QueryLimit) :
    (rangeBetween start stop limit).contains time.eventTimestamp = true ↔
      (∀ bound, start = some bound → bound.instant ≤ time.instant) ∧
        (∀ bound, stop = some bound → time.instant ≤ bound.instant) := by
  rw [TimeRangeQuery.contains, Bool.and_eq_true]
  refine and_congr ?_ ?_
  · cases start with
    | none => simp [rangeBetween]
    | some bound =>
      have hOrder := UtcTimestamp.text_le_iff_instant_le (h bound (.inl rfl))
      simpa [rangeBetween, UtcTimestamp.asStr_le_iff] using hOrder
  · cases stop with
    | none => simp [rangeBetween]
    | some bound =>
      have hOrder := UtcTimestamp.text_le_iff_instant_le fun hConfusable =>
        h bound (.inr rfl) (UtcTimestamp.Confusable.symm hConfusable)
      simpa [rangeBetween, UtcTimestamp.asStr_le_iff] using hOrder

end HotIndex

/-! ## Order of events and order of instants -/

theorem timestamps_ordered_unless_continued (earlier later : UtcTimestamp) :
    (earlier.instant < later.instant →
      (compare earlier.eventTimestamp later.eventTimestamp = .lt ↔ ¬earlier.Continues later)) ∧
    (∀ (first : TimedEvent) (rest : List TimedEvent) (later : TimedEvent),
      (∀ earlier ∈ first :: rest, earlier.time.instant < later.time.instant) →
        ((ProcessInstanceState.ofEvents first.event (rest.map TimedEvent.event)).Accepts later.event ↔
          ∀ earlier ∈ first :: rest, ¬earlier.time.Continues later.time)) ∧
    (∀ (events : List PipelineEvent) (start stop : Option UtcTimestamp) (limit : QueryLimit)
      (timed : TimedEvent) (id : EventId),
      (HotIndex.new.ingestAll events).eventsById[id]? = some timed.event →
      ((HotIndex.new.ingestAll events).eventsByTime.toList.flatMap Prod.snd).length < limit.value →
      (∀ bound, start = some bound ∨ stop = some bound → ¬bound.Confusable timed.time) →
        (timed.event ∈ (HotIndex.new.ingestAll events).eventsInTimeRange (HotIndex.rangeBetween start stop limit) ↔
          (∀ bound, start = some bound → bound.instant ≤ timed.time.instant) ∧
            (∀ bound, stop = some bound → timed.time.instant ≤ bound.instant))) := by
  refine ⟨fun hLt => ?_, ProcessInstanceState.accepts_later_iff, ?_⟩
  · rw [StringId.compare_def, compare_lt_iff_lt, UtcTimestamp.asStr_lt_iff]
    exact UtcTimestamp.text_lt_iff_of_instant_lt hLt
  · intro events start stop limit timed id hEvent hLimit hBounds
    rw [HotIndex.mem_eventsInTimeRange_iff (HotIndex.filesByTime_ingestAll events) hLimit,
      timed.timestamp_eq, HotIndex.contains_rangeBetween hBounds]
    exact and_iff_right ⟨id, hEvent⟩

/-- Ten o'clock with the given fraction. -/
def tenOClock (fraction : Option (List (Fin 10))) (h : fraction ≠ some []) : UtcTimestamp where
  year := 2026
  month := 6
  day := 20
  hour := 10
  minute := 0
  second := 0
  fraction := fraction
  year_lt := by decide
  month_pos := by decide
  month_le := by decide
  day_pos := by decide
  day_le := by decide
  hour_lt := by decide
  minute_lt := by decide
  second_lt := by decide
  fraction_nonempty := h

theorem tenOClock_instant_lt {left right : Option (List (Fin 10))} (hLeft : left ≠ some [])
    (hRight : right ≠ some []) (h : fractionValue (left.getD []) < fractionValue (right.getD [])) :
    (tenOClock left hLeft).instant < (tenOClock right hRight).instant := by
  have hSame : UtcTimestamp.SameSecond (tenOClock left hLeft) (tenOClock right hRight) :=
    ⟨rfl, rfl, rfl, rfl, rfl, rfl⟩
  exact hSame.instant_lt_iff.mpr h

/-- A half and three quarters of a second past ten. -/
theorem timestamps_ordered_unless_continued_fractions :
    compare (tenOClock (some [5]) (by decide)).eventTimestamp
      (tenOClock (some [7, 5]) (by decide)).eventTimestamp = .lt :=
  ((timestamps_ordered_unless_continued _ _).1
    (tenOClock_instant_lt (by decide) (by decide) (by norm_num [fractionValue]))).mpr (by decide)

/-- Half a second past ten comes before ten. -/
theorem half_past_compares_less :
    (tenOClock none (by decide)).eventTimestamp = ⟨"2026-06-20T10:00:00Z"⟩ ∧
    (tenOClock (some [5]) (by decide)).eventTimestamp = ⟨"2026-06-20T10:00:00.5Z"⟩ ∧
    ¬∀ earlier later : UtcTimestamp, earlier.instant < later.instant →
      compare earlier.eventTimestamp later.eventTimestamp = .lt := by
  refine ⟨by decide +kernel, by decide +kernel, fun h => ?_⟩
  have hLess := h (tenOClock none (by decide)) (tenOClock (some [5]) (by decide))
    (tenOClock_instant_lt (by decide) (by decide) (by norm_num [fractionValue]))
  exact absurd hLess (by decide +kernel)

end Vannak.Process
