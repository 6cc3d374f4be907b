import StockProfiler.Core.SortedLookup
import StockProfiler.Evaluation.ExitPaths

/-!
# Session lookups

Completed sessions and session opens are looked up in the saved sessions within their span, and
in the terminal sessions outside. They agree with the covered sessions except where a terminal
session stands in for the last saved one.
-/

namespace StockProfiler.Evaluation

open CandidateSelection (CoverageCalendar sessionLength)
open Portfolio (MarketSession)

/-- The date of the close of a session. -/
def closeDay (session : MarketSession) : ℤ := session.closedAt.utcDay

/-- The first session that closes after an instant, of the saved ones within their span. -/
def StandardCalendar.firstCloseAfter (calendar : StandardCalendar) (day : ℤ) (instant : Instant) :
    Option MarketSession :=
  match calendar.sessions.head?, calendar.sessions.getLast? with
  | some first, some last =>
    if closeDay first ≤ day ∧ day ≤ closeDay last then
      calendar.sessions.find? (instant < ·.closedAt) <|>
        calendar.terminalSessions.find? (instant < ·.closedAt)
    else calendar.extendedSessions.find? (instant < ·.closedAt)
  | _, _ => calendar.extendedSessions.find? (instant < ·.closedAt)

/-- Return the first saved session open strictly after the frozen cutoff. -/
def StandardCalendar.nextMarketSessionOpenAfter (calendar : StandardCalendar) (value : Instant) :
    Except String Instant := do
  require (∀ first ∈ calendar.extendedSessions.head?, closeDay first ≤ value.utcDay)
    "MARKET_CALENDAR_ENTRY_WINDOW_UNAVAILABLE"
  let session ← known (calendar.firstCloseAfter value.utcDay (value + sessionLength))
    "MARKET_CALENDAR_ENTRY_WINDOW_UNAVAILABLE"
  return session.closedAt - sessionLength

/-- Preserve authoritative saved sessions and their gaps within active coverage. -/
def historicalSessions (calendar : StandardCalendar) : List MarketSession :=
  match calendar.sessions.head?, calendar.sessions.getLast? with
  | some first, some last =>
    calendar.terminalSessions.filter (·.closedAt < first.closedAt) ++ calendar.sessions ++
      calendar.terminalSessions.filter (last.closedAt < ·.closedAt)
  | _, _ => calendar.terminalSessions

/-- Both lists have one session a date, all at one time of day, and the saved ones begin and end
on dates of the terminal ones. -/
structure RegisteredShape (calendar : StandardCalendar) : Prop where
  sessions : DayOrdered calendar.sessions
  terminal : DayOrdered calendar.terminalSessions
  closes : ∃ timeOfDay : ℤ, 0 ≤ timeOfDay ∧ timeOfDay < microsecondsPerDay ∧
    ∀ session, session ∈ calendar.sessions ∨ session ∈ calendar.terminalSessions →
      session.closedAt = closeDay session * microsecondsPerDay + timeOfDay
  first_mem : ∀ first ∈ calendar.sessions.head?,
    ∃ session ∈ calendar.terminalSessions, closeDay session = closeDay first
  last_mem : ∀ last ∈ calendar.sessions.getLast?,
    ∃ session ∈ calendar.terminalSessions, closeDay session = closeDay last

/-- An instant is on a date inside the terminal coverage. -/
structure Covers (calendar : StandardCalendar) (value : Instant) : Prop where
  from_le : ∀ first ∈ calendar.extendedSessions.head?, closeDay first ≤ value.utcDay
  le_through : value.utcDay ≤ calendar.terminalSessionCoverageThrough

/-- The terminal sessions before, within and after the span of the saved ones. -/
structure CoverageParts (calendar : StandardCalendar) (first last : MarketSession)
    (before during after : List MarketSession) : Prop where
  head : calendar.sessions.head? = some first
  getLast : calendar.sessions.getLast? = some last
  terminal_eq : calendar.terminalSessions = before ++ (during ++ after)
  covered_eq : calendar.coveredSessions = before ++ (calendar.sessions ++ after)
  extended_eq : calendar.extendedSessions = calendar.terminalSessions
  before_lt : ∀ session ∈ before, closeDay session < closeDay first
  during_ge : ∀ session ∈ during, closeDay first ≤ closeDay session
  during_le : ∀ session ∈ during, closeDay session ≤ closeDay last
  after_lt : ∀ session ∈ after, closeDay last < closeDay session
  sessions_ge : ∀ session ∈ calendar.sessions, closeDay first ≤ closeDay session
  sessions_le : ∀ session ∈ calendar.sessions, closeDay session ≤ closeDay last
  during_head : ∃ session, during.head? = some session ∧ session.closedAt = first.closedAt
  during_last : ∃ session, during.getLast? = some session ∧ session.closedAt = last.closedAt

section Parts

variable {s session : MarketSession} {sessions : List MarketSession} {calendar : StandardCalendar}
  {first last : MarketSession} {before during after : List MarketSession}

theorem RegisteredShape.closedAt_eq (h : RegisteredShape calendar) {t : MarketSession}
    (hs : s ∈ calendar.sessions ∨ s ∈ calendar.terminalSessions)
    (ht : t ∈ calendar.sessions ∨ t ∈ calendar.terminalSessions) (hday : closeDay s = closeDay t) :
    s.closedAt = t.closedAt := by
  obtain ⟨timeOfDay, -, -, hclose⟩ := h.closes
  rw [hclose s hs, hclose t ht, hday]

/-- The first session on a date at least as late as one that is there is on that date. -/
theorem head?_filter_closeDay (h : DayOrdered sessions) (hs : s ∈ sessions) :
    (sessions.filter fun t => ¬closeDay t < closeDay s).head? = some s := by
  obtain ⟨earlier, later, rfl⟩ := List.append_of_mem hs
  obtain ⟨-, hlater, hcross⟩ := List.pairwise_append.mp h
  rw [List.filter_append, List.filter_eq_nil_iff.mpr, List.nil_append, List.filter_cons_of_pos,
    List.head?_cons]
  · simp
  · intro t ht
    have hlt : closeDay t < closeDay s := hcross t ht s List.mem_cons_self
    simpa using hlt

theorem getLast?_filter_closeDay (h : DayOrdered sessions) (hs : s ∈ sessions) :
    (sessions.filter fun t => closeDay t ≤ closeDay s).getLast? = some s := by
  obtain ⟨earlier, later, rfl⟩ := List.append_of_mem hs
  obtain ⟨-, hlater, -⟩ := List.pairwise_append.mp h
  have hrest : later.filter (fun t => closeDay t ≤ closeDay s) = [] := by
    refine List.filter_eq_nil_iff.mpr fun t ht => ?_
    have hlt : closeDay s < closeDay t := (List.pairwise_cons.mp hlater).1 t ht
    simpa using hlt
  rw [List.filter_append, List.filter_cons_of_pos (by simp), hrest, List.getLast?_concat]

/-- The terminal sessions of a registered calendar split at the saved ones. -/
theorem RegisteredShape.exists_parts (h : RegisteredShape calendar)
    (hfirst : calendar.sessions.head? = some first)
    (hlast : calendar.sessions.getLast? = some last) :
    ∃ before during after, CoverageParts calendar first last before during after := by
  obtain ⟨s, hs, hsday⟩ := h.first_mem first hfirst
  obtain ⟨t, ht, htday⟩ := h.last_mem last hlast
  have hfirstMem : first ∈ calendar.sessions := List.mem_of_head? hfirst
  have hlastMem : last ∈ calendar.sessions := List.mem_of_getLast? hlast
  have hspan : closeDay first ≤ closeDay last := h.sessions.le_last hlast first hfirstMem
  have hextended : calendar.extendedSessions = calendar.terminalSessions :=
    if_neg (List.ne_nil_of_mem hs)
  have hbefore : HoldsUpTo (fun u => closeDay u < closeDay first) calendar.terminalSessions :=
    .of_pairwise h.terminal fun a b hlt hb =>
      decide_eq_true (lt_trans hlt (of_decide_eq_true hb))
  have hthrough : HoldsUpTo (fun u => closeDay u ≤ closeDay last) calendar.terminalSessions :=
    .of_pairwise h.terminal fun a b hlt hb =>
      decide_eq_true (le_trans (le_of_lt hlt) (of_decide_eq_true hb))
  have hrest : DayOrdered
      (calendar.terminalSessions.filter fun u => !decide (closeDay u < closeDay first)) :=
    h.terminal.sublist List.filter_sublist
  refine ⟨calendar.terminalSessions.filter fun u => closeDay u < closeDay first,
    (calendar.terminalSessions.filter fun u => !decide (closeDay u < closeDay first)).filter
      fun u => closeDay u ≤ closeDay last,
    (calendar.terminalSessions.filter fun u => !decide (closeDay u < closeDay first)).filter
      fun u => !decide (closeDay u ≤ closeDay last), ?_⟩
  constructor
  case head => exact hfirst
  case getLast => exact hlast
  case terminal_eq =>
    have hduring : HoldsUpTo (fun u => closeDay u ≤ closeDay last)
        (calendar.terminalSessions.filter fun u => !decide (closeDay u < closeDay first)) :=
      hthrough.sublist List.filter_sublist
    rw [hduring.filter_append_filter, hbefore.filter_append_filter]
  case covered_eq =>
    unfold CoverageCalendar.coveredSessions
    rw [hfirst, hlast, hextended]
    dsimp only
    rw [List.append_assoc]
    refine congrArg₂ _ hbefore.takeWhile_eq (congrArg _ ?_)
    rw [List.filter_filter]
    refine hthrough.dropWhile_eq.trans (List.filter_congr fun u _ => ?_)
    by_cases hu : closeDay u ≤ closeDay last
    · simp [hu]
    · have hnot : ¬closeDay u < closeDay first := by omega
      simp [hu, hnot]
  case extended_eq => exact hextended
  case before_lt => exact fun u hu => of_decide_eq_true (List.mem_filter.mp hu).2
  case during_ge =>
    intro u hu
    have hnot := (List.mem_filter.mp (List.mem_filter.mp hu).1).2
    simpa using hnot
  case during_le => exact fun u hu => of_decide_eq_true (List.mem_filter.mp hu).2
  case after_lt =>
    intro u hu
    have hnot := (List.mem_filter.mp hu).2
    simpa using hnot
  case sessions_ge => exact h.sessions.first_le hfirst
  case sessions_le => exact h.sessions.le_last hlast
  case during_head =>
    refine ⟨s, ?_, h.closedAt_eq (.inr hs) (.inl hfirstMem) hsday⟩
    have hhead := head?_filter_closeDay h.terminal hs
    obtain ⟨others, hothers⟩ := List.head?_eq_some_iff.mp hhead
    have hsame : (calendar.terminalSessions.filter fun u => !decide (closeDay u < closeDay first)) =
        s :: others := by
      rw [← hothers]
      refine List.filter_congr fun u _ => ?_
      rw [hsday, decide_not]
    rw [hsame, List.filter_cons, if_pos (decide_eq_true (hsday.trans_le hspan)), List.head?_cons]
  case during_last =>
    refine ⟨t, ?_, h.closedAt_eq (.inr ht) (.inl hlastMem) htday⟩
    have hmem : t ∈ calendar.terminalSessions.filter
        fun u => !decide (closeDay u < closeDay first) := by
      refine List.mem_filter.mpr ⟨ht, ?_⟩
      have hnot : ¬closeDay t < closeDay first := by omega
      simp [hnot]
    rw [← htday]
    exact getLast?_filter_closeDay hrest hmem

theorem RegisteredShape.exists_last_parts (h : RegisteredShape calendar)
    (hfirst : calendar.sessions.head? = some first) : ∃ last,
      calendar.sessions.getLast? = some last ∧
        ∃ before during after, CoverageParts calendar first last before during after := by
  obtain ⟨last, hlast⟩ := Option.isSome_iff_exists.mp
    (List.getLast?_isSome.mpr (List.ne_nil_of_mem (List.mem_of_head? hfirst)))
  exact ⟨last, hlast, h.exists_parts hfirst hlast⟩

variable {value : Instant}

/-- The test that a session has closed by an instant. -/
def closedBy (value : Instant) (session : MarketSession) : Bool := session.closedAt ≤ value

theorem closedBy_of_lt (h : closeDay session < value.utcDay) :
    closedBy value session = true := decide_eq_true (lt_of_utcDay_lt h).le

theorem not_closedBy_of_lt (h : value.utcDay < closeDay session) :
    closedBy value session = false := decide_eq_false (not_le.mpr (lt_of_utcDay_lt h))

theorem holdsUpTo_closedBy (h : DayOrdered sessions) : HoldsUpTo (closedBy value) sessions :=
  .of_pairwise h fun _ _ hlt hclosed =>
    decide_eq_true ((lt_of_utcDay_lt hlt).le.trans (of_decide_eq_true hclosed))

theorem RegisteredShape.covered (h : RegisteredShape calendar) :
    DayOrdered calendar.coveredSessions := dayOrdered_coveredSessions h.sessions h.terminal

theorem getLast?_recentCompletedSessions (h : RegisteredShape calendar)
    (hcovers : Covers calendar value) : (calendar.recentCompletedSessions value 1).getLast? =
      (calendar.coveredSessions.filter (closedBy value)).getLast? := by
  unfold StandardCalendar.recentCompletedSessions
  rw [if_neg (not_lt.mpr hcovers.le_through)]
  dsimp only
  have hfilter : calendar.coveredSessions.takeWhile (·.closedAt ≤ value) =
      calendar.coveredSessions.filter (closedBy value) :=
        (holdsUpTo_closedBy h.covered).takeWhile_eq
  rw [hfilter, List.getLast?_drop]
  split
  · have hnil : calendar.coveredSessions.filter (closedBy value) = [] :=
      List.eq_nil_of_length_eq_zero (by omega)
    rw [hnil, List.getLast?_nil]
  · rfl

theorem filter_closedBy_eq_nil (h : ∀ session ∈ sessions, value.utcDay < closeDay session) :
    sessions.filter (closedBy value) = [] := by
  refine List.filter_eq_nil_iff.mpr fun session hsession => ?_
  rw [not_closedBy_of_lt (h session hsession)]
  exact Bool.false_ne_true

theorem filter_closedBy_eq_self (h : ∀ session ∈ sessions, closeDay session < value.utcDay) :
    sessions.filter (closedBy value) = sessions :=
  List.filter_eq_self.mpr fun session hsession => closedBy_of_lt (h session hsession)

namespace CoverageParts

variable (hparts : CoverageParts calendar first last before during after)

include hparts

/-- Within the span of the saved sessions the lookup agrees with the covered ones. -/
theorem sessionAtOrBefore_within (h : RegisteredShape calendar)
    (hfrom : closeDay first ≤ value.utcDay) (hthrough : value.utcDay ≤ closeDay last) :
    calendar.sessionAtOrBefore value =
      (calendar.coveredSessions.filter (closedBy value)).getLast? := by
  have hafter : after.filter (closedBy value) = [] :=
    filter_closedBy_eq_nil fun s hs => hthrough.trans_lt (hparts.after_lt s hs)
  have hterminal : calendar.terminalSessions.takeWhile (fun s => s.closedAt ≤ value ∧
      s.closedAt.utcDay < first.closedAt.utcDay) = before.filter (closedBy value) := by
    have hinitial : HoldsUpTo (fun s : MarketSession => decide (s.closedAt ≤ value ∧
        s.closedAt.utcDay < first.closedAt.utcDay)) calendar.terminalSessions := by
      refine .of_pairwise h.terminal fun a b hlt hb => decide_eq_true ?_
      have hclosed := of_decide_eq_true hb
      exact ⟨(lt_of_utcDay_lt hlt).le.trans hclosed.1, hlt.trans hclosed.2⟩
    have hrest : (during ++ after).filter (fun s : MarketSession => decide (s.closedAt ≤ value ∧
        s.closedAt.utcDay < first.closedAt.utcDay)) = [] := by
      refine List.filter_eq_nil_iff.mpr fun s hs => ?_
      have hge : closeDay first ≤ closeDay s := by
        rcases List.mem_append.mp hs with hs | hs
        · exact hparts.during_ge s hs
        · exact (hfrom.trans hthrough).trans (hparts.after_lt s hs).le
      exact fun htest => absurd (of_decide_eq_true htest).2 (not_lt.mpr hge)
    rw [hinitial.takeWhile_eq, hparts.terminal_eq, List.filter_append, hrest, List.append_nil]
    refine List.filter_congr fun s hs => ?_
    have hlt : s.closedAt.utcDay < first.closedAt.utcDay := hparts.before_lt s hs
    simp only [hlt, and_true, closedBy]
  have hsaved : calendar.sessions.takeWhile (·.closedAt ≤ value) =
      calendar.sessions.filter (closedBy value) := (holdsUpTo_closedBy h.sessions).takeWhile_eq
  unfold CoverageCalendar.sessionAtOrBefore
  rw [hparts.head, hparts.getLast]
  dsimp only
  rw [if_pos ⟨hfrom, hthrough⟩, hterminal, hsaved, hparts.covered_eq, List.filter_append,
    List.filter_append, hafter, List.append_nil, List.getLast?_append]
  exact Option.orElse_eq_or

/-- Outside the span of the saved sessions the terminal ones are looked up. -/
theorem sessionAtOrBefore_outside (h : RegisteredShape calendar)
    (houtside : ¬(closeDay first ≤ value.utcDay ∧ value.utcDay ≤ closeDay last)) :
    calendar.sessionAtOrBefore value =
      (calendar.terminalSessions.filter (closedBy value)).getLast? := by
  have hclosed : calendar.terminalSessions.takeWhile (·.closedAt ≤ value) =
      calendar.terminalSessions.filter (closedBy value) :=
    (holdsUpTo_closedBy h.terminal).takeWhile_eq
  unfold CoverageCalendar.sessionAtOrBefore
  rw [hparts.head, hparts.getLast]
  dsimp only
  refine (if_neg houtside).trans ?_
  rw [hparts.extended_eq, hclosed]

/-- Before the span of the saved sessions the lookup agrees with the covered ones. -/
theorem sessionAtOrBefore_before (h : RegisteredShape calendar)
    (hbefore : value.utcDay < closeDay first) : calendar.sessionAtOrBefore value =
      (calendar.coveredSessions.filter (closedBy value)).getLast? := by
  have hlater : ∀ sessions : List MarketSession,
      (∀ s ∈ sessions, closeDay first ≤ closeDay s) → sessions.filter (closedBy value) = [] :=
    fun sessions hsessions => filter_closedBy_eq_nil fun s hs => hbefore.trans_le (hsessions s hs)
  have hspan : closeDay first ≤ closeDay last :=
    hparts.sessions_le first (List.mem_of_head? hparts.head)
  have hafter := hlater after fun s hs => hspan.trans (hparts.after_lt s hs).le
  rw [hparts.sessionAtOrBefore_outside h fun hwithin => absurd hwithin.1 (not_le.mpr hbefore),
    hparts.terminal_eq, hparts.covered_eq, List.filter_append, List.filter_append,
    List.filter_append, List.filter_append, hlater during hparts.during_ge,
    hlater calendar.sessions hparts.sessions_ge, hafter]

/-- After the span of the saved sessions the lookup agrees with the covered ones exactly where a
later session has closed or the terminal session of the last saved date has its ordinal. -/
theorem sessionAtOrBefore_after_iff (h : RegisteredShape calendar)
    (hafter : closeDay last < value.utcDay) : calendar.sessionAtOrBefore value =
      (calendar.coveredSessions.filter (closedBy value)).getLast? ↔
        (∃ s ∈ after, s.closedAt ≤ value) ∨ during.getLast? = some last := by
  have hspan : closeDay first ≤ closeDay last :=
    hparts.sessions_le first (List.mem_of_head? hparts.head)
  have hbeforeAll : before.filter (closedBy value) = before :=
    filter_closedBy_eq_self fun s hs => ((hparts.before_lt s hs).trans_le hspan).trans hafter
  have hduringAll : during.filter (closedBy value) = during :=
    filter_closedBy_eq_self fun s hs => (hparts.during_le s hs).trans_lt hafter
  have hsavedAll : calendar.sessions.filter (closedBy value) = calendar.sessions :=
    filter_closedBy_eq_self fun s hs => (hparts.sessions_le s hs).trans_lt hafter
  obtain ⟨t, ht, htclose⟩ := hparts.during_last
  rw [hparts.sessionAtOrBefore_outside h fun hwithin => absurd hwithin.2 (not_le.mpr hafter),
    hparts.terminal_eq, hparts.covered_eq, List.filter_append, List.filter_append,
    List.filter_append, List.filter_append, hbeforeAll, hduringAll, hsavedAll,
    List.getLast?_append, List.getLast?_append, List.getLast?_append, List.getLast?_append,
    ht, hparts.getLast]
  cases hclosed : (after.filter (closedBy value)).getLast? with
  | some s =>
    refine iff_of_true rfl (Or.inl ?_)
    have hs := List.mem_filter.mp (List.mem_of_getLast? hclosed)
    exact ⟨s, hs.1, of_decide_eq_true hs.2⟩
  | none =>
    have hnone : ¬∃ s ∈ after, s.closedAt ≤ value := by
      rintro ⟨s, hs, hle⟩
      have hnil := List.getLast?_eq_none_iff.mp hclosed
      exact absurd (hnil ▸ List.mem_filter.mpr ⟨hs, decide_eq_true hle⟩) List.not_mem_nil
    simp [hnone]

end CoverageParts

end Parts

end StockProfiler.Evaluation
