import Mathlib.Data.Int.Order.Basic

/-!
# Instants and civil dates

An aware timestamp is compared by its instant, here a count of microseconds
from the epoch. Only month arithmetic also reads the wall clock, so it takes
the UTC offset in which the timestamp was written.
-/

namespace StockProfiler

/-- Microseconds from the epoch; two aware timestamps are equal when their instants are. -/
abbrev Instant := ℤ

/-- The length of one civil day. -/
def microsecondsPerDay : ℤ := 86400000000

/-- The day number of an instant on the wall clock of a UTC offset. -/
def Instant.dayNumber (offset : ℤ) (t : Instant) : ℤ := (t + offset) / microsecondsPerDay

/-- The UTC calendar day of an instant. -/
def Instant.utcDay (t : Instant) : ℤ := t.dayNumber 0

/-- A date of the proleptic Gregorian calendar. -/
structure CivilDate where
  year : ℤ
  month : ℤ
  day : ℤ

/-- The Gregorian leap rule. -/
def isLeapYear (year : ℤ) : Bool :=
  year % 4 = 0 && (year % 100 != 0 || year % 400 = 0)

/-- The number of days of one month. -/
def daysInMonth (year month : ℤ) : ℤ :=
  if month = 2 then (if isLeapYear year then 29 else 28)
  else if month ∈ [4, 6, 9, 11] then 30
  else 31

/-- The day number of a date, counted from the epoch in eras of 400 years
whose years begin in March. -/
def CivilDate.toDay (d : CivilDate) : ℤ :=
  let y := if d.month ≤ 2 then d.year - 1 else d.year
  let era := y / 400
  let yearOfEra := y - era * 400
  let dayOfYear := (153 * (if d.month > 2 then d.month - 3 else d.month + 9) + 2) / 5 + d.day - 1
  let dayOfEra := yearOfEra * 365 + yearOfEra / 4 - yearOfEra / 100 + dayOfYear
  era * 146097 + dayOfEra - 719468

/-- The date of a day number. -/
def CivilDate.ofDay (n : ℤ) : CivilDate :=
  let z := n + 719468
  let era := z / 146097
  let dayOfEra := z - era * 146097
  let yearOfEra := (dayOfEra - dayOfEra / 1460 + dayOfEra / 36524 - dayOfEra / 146096) / 365
  let dayOfYear := dayOfEra - (365 * yearOfEra + yearOfEra / 4 - yearOfEra / 100)
  let monthIndex := (5 * dayOfYear + 2) / 153
  let month := if monthIndex < 10 then monthIndex + 3 else monthIndex - 9
  let year := yearOfEra + era * 400
  ⟨if month ≤ 2 then year + 1 else year, month, dayOfYear - (153 * monthIndex + 2) / 5 + 1⟩

/-- Move a wall-clock time forward by whole months, clipping the day to the target month. -/
def addCalendarMonths (offset : ℤ) (t : Instant) (months : ℤ) : Instant :=
  let date := CivilDate.ofDay (t.dayNumber offset)
  let monthIndex := date.month - 1 + months
  let year := date.year + monthIndex / 12
  let month := monthIndex % 12 + 1
  let day := min date.day (daysInMonth year month)
  CivilDate.toDay ⟨year, month, day⟩ * microsecondsPerDay +
    (t + offset) % microsecondsPerDay - offset

-- The last day of August has no counterpart in February.
example : addCalendarMonths 0 (CivilDate.toDay ⟨2042, 8, 31⟩ * microsecondsPerDay) 6 =
    CivilDate.toDay ⟨2043, 2, 28⟩ * microsecondsPerDay := by decide

end StockProfiler
