import StockProfiler.Evaluation.Outcomes
import Mathlib.Data.List.Range
import Mathlib.Data.List.TakeWhile

/-!
# Standard calendars

The known calendar versions with the sessions that extend them, which are ordered by their dates.
-/

namespace StockProfiler.Evaluation

open CandidateSelection (CoverageCalendar)
open Portfolio (MarketSession SyntheticMarketCalendar closeOn sessionsAfter weekdayOffsets
  syntheticMarketCalendar syntheticMarketCalendars)

variable {sessions : List MarketSession} {calendar : SyntheticMarketCalendar}

/-- Sessions are on increasing dates. -/
def DayOrdered (sessions : List MarketSession) : Prop :=
  sessions.Pairwise fun first later => first.closedAt.utcDay < later.closedAt.utcDay

theorem lt_of_utcDay_lt {first later : Instant} (h : first.utcDay < later.utcDay) :
    first < later := by
  by_contra hle
  have hdiv : later.utcDay ≤ first.utcDay :=
    Int.ediv_le_ediv (by decide) (Int.add_le_add_right (not_lt.mp hle) 0)
  exact absurd h (not_lt.mpr hdiv)

theorem DayOrdered.first_le (h : DayOrdered sessions) {first : MarketSession}
    (hfirst : sessions.head? = some first) :
    ∀ session ∈ sessions, first.closedAt.utcDay ≤ session.closedAt.utcDay := by
  intro session hmem
  obtain ⟨rest, hrest⟩ := List.head?_eq_some_iff.mp hfirst
  rw [hrest] at hmem h
  rcases List.mem_cons.mp hmem with rfl | hmem
  · exact le_rfl
  · exact ((List.pairwise_cons.mp h).1 session hmem).le

theorem DayOrdered.le_last (h : DayOrdered sessions) {last : MarketSession}
    (hlast : sessions.getLast? = some last) :
    ∀ session ∈ sessions, session.closedAt.utcDay ≤ last.closedAt.utcDay := by
  intro session hmem
  obtain ⟨front, hfront⟩ := List.getLast?_eq_some_iff.mp hlast
  rw [hfront] at hmem h
  rcases List.mem_append.mp hmem with hmem | hmem
  · exact ((List.pairwise_append.mp h).2.2 session hmem last (List.mem_singleton_self _)).le
  · rw [List.mem_singleton.mp hmem]

/-- Sessions some increasing numbers of days after a first one are ordered. -/
theorem dayOrdered_sessionsAfter (firstOrdinal : ℤ) (firstClose : Instant) {offsets : List ℕ}
    (h : offsets.Pairwise (· < ·)) :
    DayOrdered (sessionsAfter firstOrdinal firstClose offsets) := by
  have hday : ∀ offset : ℕ, Instant.utcDay (firstClose + offset * microsecondsPerDay) =
      firstClose.utcDay + offset := by
    intro offset
    change (firstClose + offset * microsecondsPerDay + 0) / microsecondsPerDay =
      (firstClose + 0) / microsecondsPerDay + offset
    rw [add_zero, add_zero, Int.add_mul_ediv_right _ _ (by decide)]
  have hzip : (offsets.zipIdx.map Prod.fst).Pairwise (· < ·) := by
    rw [List.zipIdx_map_fst]
    exact h
  refine List.pairwise_map.mpr ((List.pairwise_map.mp hzip).imp fun {first later} hlt => ?_)
  dsimp only
  rw [hday, hday]
  exact Int.add_lt_add_left (Int.ofNat_lt.mpr hlt) _

theorem pairwise_weekdayOffsets (start : CivilDate) (days : ℕ) (excluded : List CivilDate) :
    (weekdayOffsets start days excluded).Pairwise (· < ·) :=
  List.pairwise_lt_range.filter _

/-- The sessions that a calendar covers are ordered, when its own and those that extend them are. -/
theorem dayOrdered_coveredSessions {calendar : CoverageCalendar}
    (hsessions : DayOrdered calendar.sessions) (hterminal : DayOrdered calendar.terminalSessions) :
    DayOrdered calendar.coveredSessions := by
  have hextended : DayOrdered calendar.extendedSessions := by
    unfold CoverageCalendar.extendedSessions
    split
    · exact hsessions
    · exact hterminal
  unfold CoverageCalendar.coveredSessions
  split
  · rename_i first last hfirst hlast
    have hfrom := hsessions.first_le hfirst
    have hthrough := hsessions.le_last hlast
    have hbefore : ∀ session ∈ calendar.extendedSessions.takeWhile
        (·.closedAt.utcDay < first.closedAt.utcDay),
        session.closedAt.utcDay < first.closedAt.utcDay := by
      intro session hmem
      have hlt := List.mem_takeWhile_imp hmem
      exact of_decide_eq_true hlt
    have hafter : ∀ session ∈ calendar.extendedSessions.dropWhile
        (·.closedAt.utcDay ≤ last.closedAt.utcDay),
        last.closedAt.utcDay < session.closedAt.utcDay := by
      intro session hmem
      cases hdropped : calendar.extendedSessions.dropWhile
          (·.closedAt.utcDay ≤ last.closedAt.utcDay) with
      | nil =>
        rw [hdropped] at hmem
        exact nomatch hmem
      | cons next rest =>
        have hnext : last.closedAt.utcDay < next.closedAt.utcDay := by
          have hhead := List.head?_dropWhile_not (·.closedAt.utcDay ≤ last.closedAt.utcDay)
            calendar.extendedSessions
          rw [hdropped] at hhead
          exact not_le.mp (of_decide_eq_false hhead)
        have hordered : DayOrdered (next :: rest) := by
          rw [← hdropped]
          exact hextended.sublist (List.dropWhile_sublist _)
        rw [hdropped] at hmem
        rcases List.mem_cons.mp hmem with rfl | hmem
        · exact hnext
        · exact hnext.trans ((List.pairwise_cons.mp hordered).1 session hmem)
    refine List.pairwise_append.mpr ⟨List.pairwise_append.mpr ⟨?_, hsessions, ?_⟩, ?_, ?_⟩
    · exact hextended.sublist (List.takeWhile_sublist _)
    · exact fun session hmem other hother => (hbefore session hmem).trans_le (hfrom other hother)
    · exact hextended.sublist (List.dropWhile_sublist _)
    · intro session hmem other hother
      rcases List.mem_append.mp hmem with hmem | hmem
      · have hle : first.closedAt.utcDay ≤ last.closedAt.utcDay :=
          hthrough first (List.mem_of_head? hfirst)
        exact (hbefore session hmem).trans (hle.trans_lt (hafter other hother))
      · exact (hthrough session hmem).trans_lt (hafter other hother)
  · exact hterminal

/-- A calendar whose covered sessions are ordered. -/
structure OrderedCalendar extends StandardCalendar where
  ordered : DayOrdered toCoverageCalendar.coveredSessions

/-- The weekday sessions from 2032 through 2050, which keep their ordinals from 2037 on. -/
@[irreducible] def terminalSessions (hour : ℤ) (excluded : List CivilDate) : List MarketSession :=
  sessionsAfter (1000000 - (weekdayOffsets ⟨2032, 1, 1⟩ 1827 excluded).length)
    (closeOn ⟨2032, 1, 1⟩ hour) (weekdayOffsets ⟨2032, 1, 1⟩ 6940 excluded)

theorem dayOrdered_terminalSessions (hour : ℤ) (excluded : List CivilDate) :
    DayOrdered (terminalSessions hour excluded) := by
  unfold terminalSessions
  exact dayOrdered_sessionsAfter _ _ (pairwise_weekdayOffsets _ _ _)

/-- The hour at which the terminal sessions of a version close, and the dates they leave out. -/
def terminalHours (versionId : String) : ℤ × List CivilDate :=
  if versionId = "synthetic-calendar-v1" then (8, [])
  else if versionId = "synthetic-capital-calendar-v1" then (15, [])
  else (15, [⟨2042, 6, 6⟩])

/-- The known versions have ordered sessions of their own. -/
theorem dayOrdered_sessions (h : calendar ∈ syntheticMarketCalendars) :
    DayOrdered calendar.sessions := by
  unfold syntheticMarketCalendars at h
  simp only [List.mem_cons, List.not_mem_nil, or_false] at h
  rcases h with rfl | rfl | rfl | rfl
  · exact dayOrdered_sessionsAfter _ _ (by decide)
  · exact dayOrdered_sessionsAfter _ _ (by decide)
  · exact dayOrdered_sessionsAfter _ _ (pairwise_weekdayOffsets ..)
  · exact dayOrdered_sessionsAfter _ _ (pairwise_weekdayOffsets ..)

/-- A known calendar with its terminal sessions. -/
def extendedCalendar (calendar : SyntheticMarketCalendar) : StandardCalendar where
  sessions := calendar.sessions
  terminalSessions := terminalSessions (terminalHours calendar.versionId).1
    (terminalHours calendar.versionId).2
  terminalSessionCoverageThrough := CivilDate.toDay ⟨2050, 12, 31⟩

theorem dayOrdered_extendedCalendar (h : calendar ∈ syntheticMarketCalendars) :
    DayOrdered (extendedCalendar calendar).coveredSessions := by
  have hterminal : DayOrdered (extendedCalendar calendar).terminalSessions :=
    dayOrdered_terminalSessions (terminalHours calendar.versionId).1
      (terminalHours calendar.versionId).2
  exact dayOrdered_coveredSessions (dayOrdered_sessions h) hterminal

theorem mem_of_syntheticMarketCalendar {versionId : String}
    (h : syntheticMarketCalendar versionId = some calendar) :
    calendar ∈ syntheticMarketCalendars := by
  unfold syntheticMarketCalendar at h
  exact List.mem_of_find?_eq_some h

/-- `synthetic_market_calendar`. -/
def standardCalendar (versionId : String) : Option OrderedCalendar :=
  match h : syntheticMarketCalendar versionId with
  | none => none
  | some calendar =>
    some ⟨extendedCalendar calendar, dayOrdered_extendedCalendar (mem_of_syntheticMarketCalendar h)⟩

end StockProfiler.Evaluation
