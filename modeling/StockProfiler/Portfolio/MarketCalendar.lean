import StockProfiler.Core.Clock

/-!
# Synthetic market calendars

Immutable reference sessions of the known calendar versions. Every session
closes at an instant of the UTC clock.
-/

namespace StockProfiler.Portfolio

/-- One known normal session of a calendar version. -/
structure MarketSession where
  ordinal : ℤ
  closedAt : Instant
  deriving DecidableEq

/-- The saved sessions of one calendar version. -/
structure SyntheticMarketCalendar where
  versionId : String
  sessions : List MarketSession
  deriving DecidableEq

namespace SyntheticMarketCalendar

variable (c : SyntheticMarketCalendar)

/-- The session of an ordinal. -/
def sessionFor (ordinal : ℤ) : Option MarketSession :=
  c.sessions.find? (·.ordinal = ordinal)

/-- The first saved session that closes later. -/
def nextSessionAfter (closedAt : Instant) : Option MarketSession :=
  c.sessions.find? (closedAt < ·.closedAt)

end SyntheticMarketCalendar

/-- A close on a date, some hours after midnight. -/
def closeOn (date : CivilDate) (hour : ℤ) : Instant :=
  date.toDay * microsecondsPerDay + hour * 3600000000

/-- Sessions some days after a first close, numbered in order. -/
def sessionsAfter (firstOrdinal : ℤ) (firstClose : Instant) (offsets : List ℕ) :
    List MarketSession :=
  offsets.zipIdx.map fun (offset, index) =>
    ⟨firstOrdinal + index, firstClose + offset * microsecondsPerDay⟩

/-- Whether a day number is a weekday; the epoch was a Thursday. -/
def isWeekday (day : ℤ) : Bool := (day + 3) % 7 < 5

/-- The offsets of the weekdays of a range that starts on a date, less excluded dates. -/
def weekdayOffsets (start : CivilDate) (days : ℕ) (excluded : List CivilDate) : List ℕ :=
  (List.range days).filter fun offset =>
    isWeekday (start.toDay + offset) && start.toDay + offset ∉ excluded.map CivilDate.toDay

/-- The known calendar versions. -/
def syntheticMarketCalendars : List SyntheticMarketCalendar :=
  [{ versionId := "synthetic-capital-calendar-v1"
     sessions := sessionsAfter 7101 (closeOn ⟨2042, 5, 20⟩ 15)
       ([0, 1, 2] ++ (List.range 12).flatMap fun week =>
         (List.range 5).map fun day => 5 + week * 7 + day) },
   { versionId := "synthetic-market-calendar-v1"
     sessions := sessionsAfter 6101 (closeOn ⟨2042, 5, 20⟩ 15)
       [0, 1, 2, 5, 6, 7, 8, 9, 12, 13, 14, 15, 16, 19, 20, 21, 22, 23, 26, 27, 28] },
   { versionId := "synthetic-market-calendar-v2"
     sessions := sessionsAfter 6101 (closeOn ⟨2042, 5, 20⟩ 15)
       (weekdayOffsets ⟨2042, 5, 20⟩ 99 [⟨2042, 6, 6⟩]) },
   { versionId := "synthetic-calendar-v1"
     sessions := sessionsAfter 101 (closeOn ⟨2046, 7, 2⟩ 8)
       (weekdayOffsets ⟨2046, 7, 2⟩ 30 []) }]

/-- One known calendar version, if it exists. -/
def syntheticMarketCalendar (versionId : String) : Option SyntheticMarketCalendar :=
  syntheticMarketCalendars.find? (·.versionId = versionId)

end StockProfiler.Portfolio
