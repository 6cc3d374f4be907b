import StockProfiler.Evaluation.SessionLookups

/-!
# Agreement of session lookups

The next open and the latest completed session agree with the covered sessions, in every calendar
of the registered shape, except where a terminal session stands in for a saved one.
-/

namespace StockProfiler.Evaluation

open CandidateSelection (CoverageCalendar sessionLength)
open Portfolio (MarketSession SyntheticMarketCalendar closeOn sessionsAfter weekdayOffsets isWeekday
  syntheticMarketCalendars)

variable {sessions : List MarketSession} {t : MarketSession} {ordinal : ℤ} {start : CivilDate}
  {offsets : List ℕ}

section Parts

variable {calendar : StandardCalendar} {first last : MarketSession}
  {before during after : List MarketSession} {value : Instant}

/-- The test that a session closes after an instant. -/
def closesAfter (instant : Instant) (session : MarketSession) : Bool := instant < session.closedAt

/-- The next session is the first covered one that opens after an instant. -/
theorem head?_sessionsAfterOpen (h : RegisteredShape calendar) (hcovers : Covers calendar value) :
    (calendar.sessionsAfterOpen value 1).head? =
      calendar.coveredSessions.find? (closesAfter (value + sessionLength)) := by
  have hnot : ¬∃ first ∈ calendar.extendedSessions.head?,
      value.utcDay < first.closedAt.utcDay := by
    rintro ⟨first, hfirst, hlt⟩
    exact absurd (hcovers.from_le first hfirst) (not_le.mpr hlt)
  have hclosed : HoldsUpTo (closedBy (value + sessionLength)) calendar.coveredSessions :=
    holdsUpTo_closedBy h.covered
  have hdrop : calendar.coveredSessions.dropWhile (·.closedAt ≤ value + sessionLength) =
      calendar.coveredSessions.filter (closesAfter (value + sessionLength)) := by
    refine hclosed.dropWhile_eq.trans (List.filter_congr fun s _ => ?_)
    rw [closedBy, closesAfter, ← decide_not]
    exact decide_eq_decide.mpr not_le
  unfold CoverageCalendar.sessionsAfterOpen
  rw [if_neg hnot, hdrop, List.head?_take, if_neg Nat.one_ne_zero, List.head?_filter]

/-- Where an instant is covered, the open is the one of the session that is found. -/
theorem nextMarketSessionOpenAfter_eq (hcovers : Covers calendar value) :
    calendar.nextMarketSessionOpenAfter value =
      match calendar.firstCloseAfter value.utcDay (value + sessionLength) with
      | some session => .ok (session.closedAt - sessionLength)
      | none => .error "MARKET_CALENDAR_ENTRY_WINDOW_UNAVAILABLE" := by
  unfold StandardCalendar.nextMarketSessionOpenAfter
  have hrequire : require (∀ first ∈ calendar.extendedSessions.head?,
      closeDay first ≤ value.utcDay) "MARKET_CALENDAR_ENTRY_WINDOW_UNAVAILABLE" = .ok () :=
    require_eq_ok.mpr hcovers.from_le
  rw [hrequire]
  cases calendar.firstCloseAfter value.utcDay (value + sessionLength) <;> rfl

theorem find?_closesAfter_eq_none (h : ∀ session ∈ sessions, closeDay session < value.utcDay) :
    sessions.find? (closesAfter (value + sessionLength)) = none := by
  refine List.find?_eq_none.mpr fun session hsession hafter => ?_
  have hclosed : session.closedAt < value := lt_of_utcDay_lt (h session hsession)
  have hlater : value ≤ value + sessionLength := Int.le_add_of_nonneg_right (by decide)
  exact absurd (hclosed.trans_le hlater) (of_decide_eq_true hafter).not_gt

theorem RegisteredShape.closedAt_le (h : RegisteredShape calendar) {s : MarketSession}
    (hs : s ∈ calendar.sessions ∨ s ∈ calendar.terminalSessions)
    (ht : t ∈ calendar.sessions ∨ t ∈ calendar.terminalSessions) (hday : closeDay s ≤ closeDay t) :
    s.closedAt ≤ t.closedAt := by
  obtain ⟨timeOfDay, -, -, hclose⟩ := h.closes
  rw [hclose s hs, hclose t ht]
  exact Int.add_le_add_right (Int.mul_le_mul_of_nonneg_right hday (by decide)) _

theorem add_sessionLength_lt {instant earlier later timeOfDay : ℤ}
    (hbefore : instant / 86400000000 < earlier) (hlater : earlier < later)
    (hnonneg : 0 ≤ timeOfDay) : instant + 25200000000 < later * 86400000000 + timeOfDay := by
  omega

/-- A session on a later date than one that closes on a later date than an instant opens after
the instant. -/
theorem RegisteredShape.closesAfter_of_lt (h : RegisteredShape calendar) {s : MarketSession}
    (hs : s ∈ calendar.sessions ∨ s ∈ calendar.terminalSessions)
    (hbefore : value.utcDay < closeDay t) (hlater : closeDay t < closeDay s) :
    closesAfter (value + sessionLength) s = true := by
  obtain ⟨timeOfDay, hnonneg, -, hclose⟩ := h.closes
  refine decide_eq_true ?_
  rw [hclose s hs]
  have hday : value.utcDay = (value : ℤ) / 86400000000 := congrArg (· / _) (add_zero _)
  rw [hday] at hbefore
  exact add_sessionLength_lt hbefore hlater hnonneg

namespace CoverageParts

variable (hparts : CoverageParts calendar first last before during after)

include hparts

theorem find?_covered (p : MarketSession → Bool) : calendar.coveredSessions.find? p =
    (before.find? p).or ((calendar.sessions.find? p).or (after.find? p)) := by
  rw [hparts.covered_eq, List.find?_append, List.find?_append]

theorem find?_terminal (p : MarketSession → Bool) : calendar.terminalSessions.find? p =
    (before.find? p).or ((during.find? p).or (after.find? p)) := by
  rw [hparts.terminal_eq, List.find?_append, List.find?_append]

/-- Within the span of the saved sessions the open agrees with the covered ones. -/
theorem firstCloseAfter_within (h : RegisteredShape calendar)
    (hfrom : closeDay first ≤ value.utcDay) (hthrough : value.utcDay ≤ closeDay last) :
    calendar.firstCloseAfter value.utcDay (value + sessionLength) =
      calendar.coveredSessions.find? (closesAfter (value + sessionLength)) := by
  have hbefore : before.find? (closesAfter (value + sessionLength)) = none :=
    find?_closesAfter_eq_none fun s hs => (hparts.before_lt s hs).trans_le hfrom
  have hfound : calendar.firstCloseAfter value.utcDay (value + sessionLength) =
      (calendar.sessions.find? (closesAfter (value + sessionLength))).or
        (calendar.terminalSessions.find? (closesAfter (value + sessionLength))) := by
    unfold StandardCalendar.firstCloseAfter
    rw [hparts.head, hparts.getLast]
    exact (if_pos ⟨hfrom, hthrough⟩).trans Option.orElse_eq_or
  rw [hfound, hparts.find?_covered, hparts.find?_terminal, hbefore, Option.none_or, Option.none_or]
  cases hsaved : calendar.sessions.find? (closesAfter (value + sessionLength)) with
  | some s => rfl
  | none =>
    have hlastMem := List.mem_of_getLast? hparts.getLast
    have hlast := List.find?_eq_none.mp hsaved last hlastMem
    have hduring : during.find? (closesAfter (value + sessionLength)) = none := by
      refine List.find?_eq_none.mpr fun s hs hcloses => hlast (decide_eq_true ?_)
      have hmem : s ∈ calendar.terminalSessions := by
        rw [hparts.terminal_eq]
        exact List.mem_append_right _ (List.mem_append_left _ hs)
      exact (of_decide_eq_true hcloses).trans_le
        (h.closedAt_le (.inr hmem) (.inl hlastMem) (hparts.during_le s hs))
    rw [hduring, Option.none_or]

/-- Outside the span of the saved sessions the terminal ones are looked up. -/
theorem firstCloseAfter_outside
    (houtside : ¬(closeDay first ≤ value.utcDay ∧ value.utcDay ≤ closeDay last)) :
    calendar.firstCloseAfter value.utcDay (value + sessionLength) =
      calendar.terminalSessions.find? (closesAfter (value + sessionLength)) := by
  unfold StandardCalendar.firstCloseAfter
  rw [hparts.head, hparts.getLast]
  refine (if_neg houtside).trans ?_
  rw [hparts.extended_eq]
  rfl

/-- After the span of the saved sessions the open agrees with the covered ones. -/
theorem firstCloseAfter_after (hafter : closeDay last < value.utcDay) :
    calendar.firstCloseAfter value.utcDay (value + sessionLength) =
      calendar.coveredSessions.find? (closesAfter (value + sessionLength)) := by
  have hduring : during.find? (closesAfter (value + sessionLength)) = none :=
    find?_closesAfter_eq_none fun s hs => (hparts.during_le s hs).trans_lt hafter
  have hsaved : calendar.sessions.find? (closesAfter (value + sessionLength)) = none :=
    find?_closesAfter_eq_none fun s hs => (hparts.sessions_le s hs).trans_lt hafter
  rw [hparts.firstCloseAfter_outside fun hwithin => absurd hwithin.2 (not_le.mpr hafter),
    hparts.find?_terminal, hparts.find?_covered, hduring, hsaved]

theorem closesAfter_iff (h : RegisteredShape calendar) (hbefore : value.utcDay < closeDay first)
    (hopened : first.closedAt ≤ value + sessionLength) {s : MarketSession}
    (hs : s ∈ calendar.sessions ∨ s ∈ calendar.terminalSessions) :
    closesAfter (value + sessionLength) s = decide (closeDay first < closeDay s) := by
  have hfirst : first ∈ calendar.sessions := List.mem_of_head? hparts.head
  by_cases hlater : closeDay first < closeDay s
  · rw [h.closesAfter_of_lt hs hbefore hlater, decide_eq_true hlater]
  · rw [decide_eq_false hlater]
    refine decide_eq_false (not_lt.mpr ?_)
    exact (h.closedAt_le hs (.inl hfirst) (not_lt.mp hlater)).trans hopened

/-- Before the span of the saved sessions, while their first one has not opened, the open is the
one of the covered sessions. -/
theorem closedAt_firstCloseAfter_of_lt (hbefore : value.utcDay < closeDay first)
    (hunopened : value + sessionLength < first.closedAt) :
    (calendar.firstCloseAfter value.utcDay (value + sessionLength)).map (·.closedAt) =
      (calendar.coveredSessions.find? (closesAfter (value + sessionLength))).map (·.closedAt) := by
  rw [hparts.firstCloseAfter_outside fun hwithin => absurd hwithin.1 (not_le.mpr hbefore),
    hparts.find?_terminal, hparts.find?_covered]
  cases before.find? (closesAfter (value + sessionLength)) with
  | some s => rfl
  | none =>
    obtain ⟨s, hs, hclose⟩ := hparts.during_head
    obtain ⟨others, hothers⟩ := List.head?_eq_some_iff.mp hs
    obtain ⟨rest, hrest⟩ := List.head?_eq_some_iff.mp hparts.head
    have hfirst : closesAfter (value + sessionLength) first = true := decide_eq_true hunopened
    have hsecond : closesAfter (value + sessionLength) s = true :=
      decide_eq_true (hunopened.trans_eq hclose.symm)
    rw [hothers, hrest, List.find?_cons_of_pos hfirst, List.find?_cons_of_pos hsecond]
    exact congrArg some hclose

/-- Before the span of the saved sessions, once their first one has opened, the open is the one of
the covered sessions exactly where the second saved session is on the next terminal date. -/
theorem closedAt_firstCloseAfter_iff (h : RegisteredShape calendar)
    (hbefore : value.utcDay < closeDay first) (hopened : first.closedAt ≤ value + sessionLength) :
    (calendar.firstCloseAfter value.utcDay (value + sessionLength)).map (·.closedAt) =
        (calendar.coveredSessions.find? (closesAfter (value + sessionLength))).map (·.closedAt) ↔
      ∀ second others, calendar.sessions = first :: second :: others →
        (calendar.terminalSessions.find? fun s => closeDay first < closeDay s).map closeDay =
          some (closeDay second) := by
  have hterminal : calendar.terminalSessions.find? (closesAfter (value + sessionLength)) =
      calendar.terminalSessions.find? fun s => closeDay first < closeDay s :=
    find?_eq_of_forall fun s hs => hparts.closesAfter_iff h hbefore hopened (.inr hs)
  have hsessions : calendar.sessions.find? (closesAfter (value + sessionLength)) =
      calendar.sessions.find? fun s => closeDay first < closeDay s :=
    find?_eq_of_forall fun s hs => hparts.closesAfter_iff h hbefore hopened (.inl hs)
  have hbeforeNone : before.find? (closesAfter (value + sessionLength)) = none := by
    refine List.find?_eq_none.mpr fun s hs => ?_
    have hmem : s ∈ calendar.terminalSessions := by
      rw [hparts.terminal_eq]
      exact List.mem_append_left _ hs
    rw [hparts.closesAfter_iff h hbefore hopened (.inr hmem), decide_eq_true_iff]
    exact not_lt.mpr (hparts.before_lt s hs).le
  rw [hparts.firstCloseAfter_outside fun hwithin => absurd hwithin.1 (not_le.mpr hbefore),
    hparts.find?_covered, hbeforeNone, Option.none_or, hsessions]
  obtain ⟨rest, hrest⟩ := List.head?_eq_some_iff.mp hparts.head
  cases rest with
  | nil =>
    -- The only saved session is the last one, and the terminal ones follow.
    have hlast : last = first := by
      have hlastOf := hparts.getLast
      rw [hrest] at hlastOf
      exact (Option.some.inj hlastOf).symm
    have hduringNone : during.find? (closesAfter (value + sessionLength)) = none := by
      refine List.find?_eq_none.mpr fun s hs => ?_
      have hmem : s ∈ calendar.terminalSessions := by
        rw [hparts.terminal_eq]
        exact List.mem_append_right _ (List.mem_append_left _ hs)
      rw [hparts.closesAfter_iff h hbefore hopened (.inr hmem), decide_eq_true_iff]
      exact not_lt.mpr (hlast ▸ hparts.during_le s hs)
    rw [hparts.find?_terminal, hbeforeNone, hduringNone, Option.none_or, Option.none_or, hrest,
      List.find?_cons_of_neg (by simp), List.find?_nil, Option.none_or]
    exact iff_of_true rfl fun second others hsecond => nomatch hsecond
  | cons second others =>
    have hordered := h.sessions
    rw [hrest] at hordered
    have hlater : closeDay first < closeDay second :=
      (List.pairwise_cons.mp hordered).1 second List.mem_cons_self
    have hsecondMem : second ∈ calendar.sessions := by
      rw [hrest]
      exact List.mem_cons_of_mem _ List.mem_cons_self
    obtain ⟨u, hu, huday⟩ := h.last_mem last hparts.getLast
    have hfound :
        (calendar.terminalSessions.find? fun s => closeDay first < closeDay s).isSome := by
      refine List.find?_isSome.mpr ⟨u, hu, decide_eq_true ?_⟩
      exact (hlater.trans_le (hparts.sessions_le second hsecondMem)).trans_eq huday.symm
    obtain ⟨next, hnext⟩ := Option.isSome_iff_exists.mp hfound
    have hnextMem : next ∈ calendar.terminalSessions := List.mem_of_find?_eq_some hnext
    have hhead : (second :: others).find? (fun s => decide (closeDay first < closeDay s)) =
        some second := List.find?_cons_of_pos (decide_eq_true hlater)
    rw [hterminal, hnext, hrest, List.find?_cons_of_neg (by simp), hhead, Option.some_or,
      Option.map_some, Option.map_some, Option.map_some]
    constructor
    · intro hclose second' others' hsame
      obtain ⟨rfl, rfl⟩ := List.cons.inj (List.cons.inj hsame).2
      refine congrArg some ?_
      exact congrArg Instant.utcDay (Option.some.inj hclose)
    · intro hday
      refine congrArg some ?_
      exact h.closedAt_eq (.inr hnextMem) (.inl hsecondMem)
        (Option.some.inj (hday second others rfl))

end CoverageParts

theorem RegisteredShape.closedAt_lt_iff (h : RegisteredShape calendar) {s : MarketSession}
    (hs : s ∈ calendar.sessions ∨ s ∈ calendar.terminalSessions)
    (ht : t ∈ calendar.sessions ∨ t ∈ calendar.terminalSessions) :
    s.closedAt < t.closedAt ↔ closeDay s < closeDay t := by
  refine ⟨fun hlt => ?_, lt_of_utcDay_lt⟩
  by_contra hday
  exact absurd (h.closedAt_le ht hs (not_lt.mp hday)) (not_le.mpr hlt)

/-- The sessions of the historical list are the covered ones. -/
theorem historicalSessions_eq (h : RegisteredShape calendar) :
    historicalSessions calendar = calendar.coveredSessions := by
  unfold historicalSessions
  cases hfirst : calendar.sessions.head? with
  | none =>
    have hcovered : calendar.coveredSessions = calendar.terminalSessions := by
      unfold CoverageCalendar.coveredSessions
      rw [hfirst]
    exact hcovered.symm
  | some first =>
    obtain ⟨last, hlast, before, during, after, hparts⟩ := h.exists_last_parts hfirst
    have hspan := hparts.sessions_le first (List.mem_of_head? hfirst)
    have hfirstMem : first ∈ calendar.sessions := List.mem_of_head? hfirst
    have hlastMem : last ∈ calendar.sessions := List.mem_of_getLast? hlast
    have hearlier : calendar.terminalSessions.filter (·.closedAt < first.closedAt) =
        calendar.terminalSessions.filter (closeDay · < closeDay first) :=
      List.filter_congr fun s hs =>
        decide_eq_decide.mpr (h.closedAt_lt_iff (.inr hs) (.inl hfirstMem))
    have hlater : calendar.terminalSessions.filter (last.closedAt < ·.closedAt) =
        calendar.terminalSessions.filter (closeDay last < closeDay ·) :=
      List.filter_congr fun s hs =>
        decide_eq_decide.mpr (h.closedAt_lt_iff (.inl hlastMem) (.inr hs))
    have hbefore : calendar.terminalSessions.filter (closeDay · < closeDay first) = before := by
      have hrest : (during ++ after).filter (closeDay · < closeDay first) = [] := by
        refine List.filter_eq_nil_iff.mpr fun s hs => ?_
        rw [decide_eq_true_iff, not_lt]
        rcases List.mem_append.mp hs with hs | hs
        · exact hparts.during_ge s hs
        · exact hspan.trans (hparts.after_lt s hs).le
      rw [hparts.terminal_eq, List.filter_append, hrest, List.append_nil]
      exact List.filter_eq_self.mpr fun s hs => decide_eq_true (hparts.before_lt s hs)
    have hafter : calendar.terminalSessions.filter (closeDay last < closeDay ·) = after := by
      have hfront : (before ++ during).filter (closeDay last < closeDay ·) = [] := by
        refine List.filter_eq_nil_iff.mpr fun s hs => ?_
        rw [decide_eq_true_iff, not_lt]
        rcases List.mem_append.mp hs with hs | hs
        · exact (hparts.before_lt s hs).le.trans hspan
        · exact hparts.during_le s hs
      rw [hparts.terminal_eq, ← List.append_assoc, List.filter_append, hfront, List.nil_append]
      exact List.filter_eq_self.mpr fun s hs => decide_eq_true (hparts.after_lt s hs)
    rw [hlast]
    dsimp only
    rw [hearlier, hlater, hbefore, hafter, hparts.covered_eq, List.append_assoc]

end Parts

/-- The lookups of a calendar at an instant draw from the same sessions. -/
structure LookupsAgree (calendar : StandardCalendar) (value : Instant) : Prop where
  completed : calendar.sessionAtOrBefore value =
    (calendar.recentCompletedSessions value 1).getLast?
  opens : ∀ instant, calendar.nextMarketSessionOpenAfter value = .ok instant →
    ∃ session, (calendar.sessionsAfterOpen value 1).head? = some session ∧
      instant = session.closedAt - sessionLength
  unavailable : calendar.sessionsAfterOpen value 1 = [] →
    ∃ reason, calendar.nextMarketSessionOpenAfter value = .error reason
  historical : historicalSessions calendar = calendar.coveredSessions

/-- After the saved sessions, until a terminal session on a later date has closed, the terminal
session of the last saved date has the ordinal of the saved one. -/
def LastOrdinalKept (calendar : StandardCalendar) (value : Instant) : Prop :=
  ∀ last ∈ calendar.sessions.getLast?, closeDay last < value.utcDay →
    (∀ session ∈ calendar.terminalSessions, closeDay last < closeDay session →
      value < session.closedAt) →
    ∀ session ∈ calendar.terminalSessions, closeDay session = closeDay last →
      session.ordinal = last.ordinal

/-- Before the date of the first saved session, once it has opened, the second one is on the next
terminal date. -/
def SecondDateKept (calendar : StandardCalendar) (value : Instant) : Prop :=
  ∀ first second others, calendar.sessions = first :: second :: others →
    value.utcDay < closeDay first → first.closedAt ≤ value + sessionLength →
    (calendar.terminalSessions.find? fun session => closeDay first < closeDay session).map
      closeDay = some (closeDay second)

section Agreement

variable {calendar : StandardCalendar} {value : Instant}

theorem eq_of_closeDay_eq (h : DayOrdered sessions) {s : MarketSession} (hs : s ∈ sessions)
    (ht : t ∈ sessions) (hday : closeDay s = closeDay t) : s = t := by
  have hhead := getLast?_filter_closeDay h hs
  rw [hday, getLast?_filter_closeDay h ht] at hhead
  exact (Option.some.inj hhead).symm

/-- A calendar without saved sessions covers its terminal ones. -/
theorem coveredSessions_of_none (hnone : calendar.sessions.head? = none) :
    calendar.coveredSessions = calendar.terminalSessions ∧
      calendar.extendedSessions = calendar.terminalSessions := by
  constructor
  · unfold CoverageCalendar.coveredSessions
    rw [hnone]
  · unfold CoverageCalendar.extendedSessions
    split
    · rename_i hnil
      rw [hnil]
      exact List.head?_eq_none_iff.mp hnone
    · rfl

/-- The ordinal of the last saved session is kept where a later session has closed, or where the
last terminal session within the span is the saved one. -/
theorem lastOrdinalKept_iff (h : RegisteredShape calendar) {first last : MarketSession}
    {before during after : List MarketSession}
    (hparts : CoverageParts calendar first last before during after)
    (hafter : closeDay last < value.utcDay) :
    (∃ s ∈ after, s.closedAt ≤ value) ∨ during.getLast? = some last ↔
      LastOrdinalKept calendar value := by
  have hterminal : ∀ s, s ∈ calendar.terminalSessions ↔ s ∈ before ∨ s ∈ during ∨ s ∈ after := by
    intro s
    rw [hparts.terminal_eq, List.mem_append, List.mem_append]
  obtain ⟨t, ht, htclose⟩ := hparts.during_last
  have htMem : t ∈ calendar.terminalSessions :=
    (hterminal t).mpr (.inr (.inl (List.mem_of_getLast? ht)))
  have htDay : closeDay t = closeDay last := congrArg Instant.utcDay htclose
  have hspan := hparts.sessions_le first (List.mem_of_head? hparts.head)
  constructor
  · rintro hclosed other hother - hnone s hs hday
    obtain rfl := Option.some.inj (hparts.getLast.symm.trans hother)
    rcases hclosed with ⟨u, hu, hle⟩ | hlast
    · have hlater := hnone u ((hterminal u).mpr (.inr (.inr hu))) (hparts.after_lt u hu)
      exact absurd hle (not_le.mpr hlater)
    · obtain rfl := Option.some.inj (ht.symm.trans hlast)
      rw [eq_of_closeDay_eq h.terminal hs htMem hday]
  · intro hkept
    by_cases hclosed : ∃ s ∈ after, s.closedAt ≤ value
    · exact Or.inl hclosed
    · have hnone : ∀ s ∈ calendar.terminalSessions, closeDay last < closeDay s →
          value < s.closedAt := by
        intro s hs hlater
        rcases (hterminal s).mp hs with hs | hs | hs
        · exact absurd (hlater.trans (hparts.before_lt s hs)) (not_lt.mpr hspan)
        · exact absurd hlater (not_lt.mpr (hparts.during_le s hs))
        · exact not_le.mp fun hle => hclosed ⟨s, hs, hle⟩
      have hordinal := hkept last hparts.getLast hafter hnone t htMem htDay
      have heq : t = last := by
        cases t
        cases last
        simp only at hordinal htclose
        rw [hordinal, htclose]
      exact Or.inr (heq ▸ ht)

/-- The two lookups of the last completed session agree when the last ordinal is kept. -/
theorem completed_iff (h : RegisteredShape calendar) (hcovers : Covers calendar value) :
    calendar.sessionAtOrBefore value = (calendar.recentCompletedSessions value 1).getLast? ↔
      LastOrdinalKept calendar value := by
  rw [getLast?_recentCompletedSessions h hcovers]
  cases hfirst : calendar.sessions.head? with
  | none =>
    have hlast : calendar.sessions.getLast? = none := by
      rw [List.head?_eq_none_iff.mp hfirst, List.getLast?_nil]
    have hfilter : calendar.terminalSessions.takeWhile (·.closedAt ≤ value) =
        calendar.terminalSessions.filter (closedBy value) :=
      (holdsUpTo_closedBy h.terminal).takeWhile_eq
    have hlookup : calendar.sessionAtOrBefore value =
        (calendar.terminalSessions.filter (closedBy value)).getLast? := by
      unfold CoverageCalendar.sessionAtOrBefore
      rw [hfirst, hlast, (coveredSessions_of_none hfirst).2]
      exact congrArg List.getLast? hfilter
    rw [hlookup, (coveredSessions_of_none hfirst).1]
    refine iff_of_true rfl fun last hsome => ?_
    rw [hlast] at hsome
    exact absurd hsome (Option.not_mem_none last)
  | some first =>
    obtain ⟨last, hlast, before, during, after, hparts⟩ := h.exists_last_parts hfirst
    rcases lt_or_ge (closeDay last) value.utcDay with hafter | hthrough
    · exact (hparts.sessionAtOrBefore_after_iff h hafter).trans
        (lastOrdinalKept_iff h hparts hafter)
    · have hkept : LastOrdinalKept calendar value := by
        intro other hother hlater
        obtain rfl := Option.some.inj (hlast.symm.trans hother)
        exact absurd hlater (not_lt.mpr hthrough)
      refine iff_of_true ?_ hkept
      rcases lt_or_ge value.utcDay (closeDay first) with hbefore | hfrom
      · exact hparts.sessionAtOrBefore_before h hbefore
      · exact hparts.sessionAtOrBefore_within h hfrom hthrough

/-- The session that the open belongs to closes with the first covered one exactly where the
second saved session is on the next terminal date. -/
theorem firstCloseAfter_iff (h : RegisteredShape calendar) :
    (calendar.firstCloseAfter value.utcDay (value + sessionLength)).map (·.closedAt) =
        (calendar.coveredSessions.find? (closesAfter (value + sessionLength))).map (·.closedAt) ↔
      SecondDateKept calendar value := by
  cases hfirst : calendar.sessions.head? with
  | none =>
    have hnil : calendar.sessions = [] := List.head?_eq_none_iff.mp hfirst
    have hfound : calendar.firstCloseAfter value.utcDay (value + sessionLength) =
        calendar.terminalSessions.find? (closesAfter (value + sessionLength)) := by
      unfold StandardCalendar.firstCloseAfter
      rw [hfirst, (coveredSessions_of_none hfirst).2]
      rfl
    rw [hfound, (coveredSessions_of_none hfirst).1]
    refine iff_of_true rfl fun first second others hsessions => ?_
    rw [hnil] at hsessions
    exact nomatch hsessions
  | some first =>
    obtain ⟨last, hlast, before, during, after, hparts⟩ := h.exists_last_parts hfirst
    by_cases hcase : value.utcDay < closeDay first ∧ first.closedAt ≤ value + sessionLength
    · rw [hparts.closedAt_firstCloseAfter_iff h hcase.1 hcase.2]
      constructor
      · intro hsecond other second others hsessions _ _
        rw [hsessions] at hfirst
        cases hfirst
        exact hsecond second others hsessions
      · exact fun hkept second others hsessions =>
          hkept first second others hsessions hcase.1 hcase.2
    · have hkept : SecondDateKept calendar value := by
        intro other second others hsessions hbefore hopened
        rw [hsessions] at hfirst
        cases hfirst
        exact absurd ⟨hbefore, hopened⟩ hcase
      refine iff_of_true ?_ hkept
      rcases lt_or_ge value.utcDay (closeDay first) with hbefore | hfrom
      · exact hparts.closedAt_firstCloseAfter_of_lt hbefore
          (not_le.mp fun hopened => hcase ⟨hbefore, hopened⟩)
      · rcases lt_or_ge (closeDay last) value.utcDay with hafter | hthrough
        · rw [hparts.firstCloseAfter_after hafter]
        · rw [hparts.firstCloseAfter_within h hfrom hthrough]

theorem mem_coveredSessions {s : MarketSession} (hs : s ∈ calendar.coveredSessions) :
    s ∈ calendar.sessions ∨ s ∈ calendar.terminalSessions := by
  have hextended : ∀ t ∈ calendar.extendedSessions,
      t ∈ calendar.sessions ∨ t ∈ calendar.terminalSessions := by
    intro t ht
    unfold CoverageCalendar.extendedSessions at ht
    split at ht
    · exact Or.inl ht
    · exact Or.inr ht
  unfold CoverageCalendar.coveredSessions at hs
  split at hs
  · rcases List.mem_append.mp hs with hs | hs
    · rcases List.mem_append.mp hs with hs | hs
      · exact hextended s ((List.takeWhile_sublist _).subset hs)
      · exact Or.inl hs
    · exact hextended s ((List.dropWhile_sublist _).subset hs)
  · exact Or.inr hs

/-- Without a later close on its day, no covered session closes after the instant. -/
theorem find?_covered_eq_none (h : RegisteredShape calendar) {instant : Instant} {day : ℤ}
    (hnone : calendar.firstCloseAfter day instant = none) :
    calendar.coveredSessions.find? (closesAfter instant) = none := by
  have hextended : (∃ s ∈ calendar.sessions, instant < s.closedAt) →
      ∃ s ∈ calendar.terminalSessions, instant < s.closedAt := by
    rintro ⟨s, hs, hlt⟩
    obtain ⟨last, hlast⟩ := Option.isSome_iff_exists.mp
      (List.getLast?_isSome.mpr (List.ne_nil_of_mem hs))
    obtain ⟨t, ht, hday⟩ := h.last_mem last hlast
    have hle : closeDay s ≤ closeDay t := (h.sessions.le_last hlast s hs).trans_eq hday.symm
    exact ⟨t, ht, hlt.trans_le (h.closedAt_le (.inl hs) (.inr ht) hle)⟩
  have hterminal : ∀ s ∈ calendar.terminalSessions, ¬instant < s.closedAt := by
    have hof : ∀ {sessions : List MarketSession}, sessions.find? (instant < ·.closedAt) = none →
        ∀ s ∈ sessions, ¬instant < s.closedAt := fun hfind s hs hlt =>
      List.find?_eq_none.mp hfind s hs (decide_eq_true hlt)
    have hwhole : calendar.extendedSessions.find? (instant < ·.closedAt) = none →
        ∀ s ∈ calendar.terminalSessions, ¬instant < s.closedAt := by
      intro hfind s hs
      have hsame : calendar.extendedSessions = calendar.terminalSessions :=
        if_neg (List.ne_nil_of_mem hs)
      exact hof (hsame ▸ hfind) s hs
    unfold StandardCalendar.firstCloseAfter at hnone
    split at hnone
    · split at hnone
      · rw [Option.orElse_eq_orElse, Option.orElse_eq_or, Option.or_eq_none_iff] at hnone
        exact hof hnone.2
      · exact hwhole hnone
    · exact hwhole hnone
  refine List.find?_eq_none.mpr fun s hs hcloses => ?_
  have hlt : instant < s.closedAt := of_decide_eq_true hcloses
  obtain ⟨t, ht, htlt⟩ : ∃ s ∈ calendar.terminalSessions, instant < s.closedAt := by
    rcases mem_coveredSessions hs with hs | hs
    · exact hextended ⟨s, hs, hlt⟩
    · exact ⟨s, hs, hlt⟩
  exact hterminal t ht htlt

/-- The two lookups of the next open agree when the second date is kept. -/
theorem opens_iff (h : RegisteredShape calendar) (hcovers : Covers calendar value) :
    ((∀ instant, calendar.nextMarketSessionOpenAfter value = .ok instant →
        ∃ session, (calendar.sessionsAfterOpen value 1).head? = some session ∧
          instant = session.closedAt - sessionLength) ∧
      (calendar.sessionsAfterOpen value 1 = [] →
        ∃ reason, calendar.nextMarketSessionOpenAfter value = .error reason)) ↔
      SecondDateKept calendar value := by
  rw [← firstCloseAfter_iff h, ← List.head?_eq_none_iff, head?_sessionsAfterOpen h hcovers,
    nextMarketSessionOpenAfter_eq hcovers]
  cases hfound : calendar.firstCloseAfter value.utcDay (value + sessionLength) with
  | none =>
    rw [find?_covered_eq_none h hfound]
    exact iff_of_true ⟨nofun, fun _ => ⟨_, rfl⟩⟩ rfl
  | some s =>
    cases hcovered : calendar.coveredSessions.find? (closesAfter (value + sessionLength)) with
    | none =>
      refine iff_of_false (fun hagree => ?_) nofun
      obtain ⟨reason, hreason⟩ := hagree.2 rfl
      exact nomatch hreason
    | some t =>
      constructor
      · rintro ⟨hopens, -⟩
        obtain ⟨u, hu, hclose⟩ := hopens _ rfl
        cases hu
        exact congrArg some (sub_left_inj.mp hclose)
      · intro hclose
        refine ⟨fun instant hinstant => ⟨t, rfl, ?_⟩, nofun⟩
        have hsame : s.closedAt = t.closedAt := Option.some.inj hclose
        rw [← Except.ok.inj hinstant, hsame]

/-- In every calendar of the registered shape and at every instant on a covered date, the session
lookups draw from the same sessions exactly where a terminal session never stands in for a saved
one: the last saved session keeps its ordinal after its date, and the second saved session is the
next one when the first opens before its date. -/
theorem lookupsAgree_iff (calendar : StandardCalendar) (h : RegisteredShape calendar)
    (value : Instant) (hcovers : Covers calendar value) :
    LookupsAgree calendar value ↔
      LastOrdinalKept calendar value ∧ SecondDateKept calendar value := by
  rw [← completed_iff h hcovers, ← opens_iff h hcovers]
  constructor
  · exact fun hagree => ⟨hagree.completed, hagree.opens, hagree.unavailable⟩
  · rintro ⟨hcompleted, hopens, hunavailable⟩
    exact ⟨hcompleted, hopens, hunavailable, historicalSessions_eq h⟩

end Agreement

theorem closeDay_add {hour : ℤ} {offset : ℕ} (hnonneg : 0 ≤ hour) (hhour : hour < 24) :
    closeDay ⟨ordinal, closeOn start hour + offset * microsecondsPerDay⟩ = start.toDay +
      offset := by
  change (start.toDay * 86400000000 + hour * 3600000000 + offset * 86400000000 + 0) /
    86400000000 = start.toDay + offset
  omega

/-- Sessions some days after a first close close at its time of day. -/
theorem closedAt_of_mem_sessionsAfter {hour : ℤ} (hnonneg : 0 ≤ hour) (hhour : hour < 24)
    {s : MarketSession} (hs : s ∈ sessionsAfter ordinal (closeOn start hour) offsets) :
    s.closedAt = closeDay s * microsecondsPerDay + hour * 3600000000 := by
  obtain ⟨⟨offset, index⟩, -, rfl⟩ := List.mem_map.mp hs
  dsimp only
  rw [closeDay_add hnonneg hhour, add_mul]
  exact add_right_comm _ _ _

/-- The ordinals of sessions do not go below the first one. -/
theorem ordinal_le_of_mem_sessionsAfter {start : Instant} {s : MarketSession}
    (hs : s ∈ sessionsAfter ordinal start offsets) : ordinal ≤ s.ordinal := by
  obtain ⟨⟨offset, index⟩, -, rfl⟩ := List.mem_map.mp hs
  exact Int.le_add_of_nonneg_right (Int.natCast_nonneg index)

theorem exists_mem_sessionsAfter {hour : ℤ} (hnonneg : 0 ≤ hour) (hhour : hour < 24) {offset : ℕ}
    (hoffset : offset ∈ offsets) :
    ∃ s ∈ sessionsAfter ordinal (closeOn start hour) offsets,
      closeDay s = start.toDay + offset := by
  rw [← List.zipIdx_map_fst 0 offsets] at hoffset
  obtain ⟨⟨_, index⟩, hmem, rfl⟩ := List.mem_map.mp hoffset
  exact ⟨_, List.mem_map_of_mem hmem, closeDay_add hnonneg hhour⟩

section Terminal

variable {hour : ℤ} {excluded : List CivilDate} {s : MarketSession}

theorem closedAt_of_mem_terminalSessions (hnonneg : 0 ≤ hour) (hhour : hour < 24)
    (hs : s ∈ terminalSessions hour excluded) :
    s.closedAt = closeDay s * microsecondsPerDay + hour * 3600000000 := by
  unfold terminalSessions at hs
  exact closedAt_of_mem_sessionsAfter hnonneg hhour hs

/-- Terminal sessions have ordinals close to a million and above. -/
theorem ordinal_of_mem_terminalSessions (hs : s ∈ terminalSessions hour excluded) :
    998173 ≤ s.ordinal := by
  unfold terminalSessions at hs
  have hle := ordinal_le_of_mem_sessionsAfter hs
  have hlength : (weekdayOffsets ⟨2032, 1, 1⟩ 1827 excluded).length ≤ 1827 :=
    (List.length_filter_le ..).trans_eq List.length_range
  omega

theorem exists_terminalSession {day : ℤ} (hnonneg : 0 ≤ hour) (hhour : hour < 24)
    (hfrom : CivilDate.toDay ⟨2032, 1, 1⟩ ≤ day)
    (hthrough : day < CivilDate.toDay ⟨2032, 1, 1⟩ + 6940) (hweekday : isWeekday day = true)
    (hincluded : day ∉ excluded.map CivilDate.toDay) :
    ∃ s ∈ terminalSessions hour excluded, closeDay s = day := by
  obtain ⟨offset, hoffset⟩ := Int.eq_ofNat_of_zero_le (Int.sub_nonneg_of_le hfrom)
  have hday : CivilDate.toDay ⟨2032, 1, 1⟩ + offset = day := by omega
  have hmem : offset ∈ weekdayOffsets ⟨2032, 1, 1⟩ 6940 excluded := by
    refine List.mem_filter.mpr ⟨List.mem_range.mpr (by omega), ?_⟩
    rw [hday, hweekday, Bool.true_and]
    exact decide_eq_true hincluded
  unfold terminalSessions
  rw [← hday]
  exact exists_mem_sessionsAfter hnonneg hhour hmem

end Terminal

/-- What the saved sessions of a known version share with its terminal ones. -/
structure SavedSpan (calendar : SyntheticMarketCalendar) : Prop where
  hour_mem : 0 ≤ (terminalHours calendar.versionId).1 ∧ (terminalHours calendar.versionId).1 < 24
  closes : ∀ s ∈ calendar.sessions,
    s.closedAt = closeDay s * microsecondsPerDay + (terminalHours calendar.versionId).1 * 3600000000
  ordinals : ∀ s ∈ calendar.sessions, s.ordinal < 998173
  ends : ∀ s, s ∈ calendar.sessions.head? ∨ s ∈ calendar.sessions.getLast? →
    CivilDate.toDay ⟨2032, 1, 1⟩ ≤ closeDay s ∧
      closeDay s < CivilDate.toDay ⟨2032, 1, 1⟩ + 6940 ∧ isWeekday (closeDay s) = true ∧
      closeDay s ∉ (terminalHours calendar.versionId).2.map CivilDate.toDay

/-- The known versions begin and end on weekdays of the terminal sessions. -/
theorem savedSpan_of_mem {calendar : SyntheticMarketCalendar}
    (h : calendar ∈ syntheticMarketCalendars) : SavedSpan calendar := by
  have hall : ∀ c ∈ syntheticMarketCalendars,
      (0 ≤ (terminalHours c.versionId).1 ∧ (terminalHours c.versionId).1 < 24) ∧
      (∀ s ∈ c.sessions, s.closedAt =
        closeDay s * microsecondsPerDay + (terminalHours c.versionId).1 * 3600000000) ∧
      (∀ s ∈ c.sessions, s.ordinal < 998173) ∧
      ∀ s ∈ c.sessions.head?.toList ++ c.sessions.getLast?.toList,
        CivilDate.toDay ⟨2032, 1, 1⟩ ≤ closeDay s ∧
          closeDay s < CivilDate.toDay ⟨2032, 1, 1⟩ + 6940 ∧ isWeekday (closeDay s) = true ∧
          closeDay s ∉ (terminalHours c.versionId).2.map CivilDate.toDay := by
    decide +kernel
  obtain ⟨hhour, hcloses, hordinals, hends⟩ := hall calendar h
  refine ⟨hhour, hcloses, hordinals, fun s hs => hends s (List.mem_append.mpr ?_)⟩
  exact hs.imp Option.mem_toList.mpr Option.mem_toList.mpr

theorem registeredShape_extendedCalendar {calendar : SyntheticMarketCalendar}
    (h : calendar ∈ syntheticMarketCalendars) : RegisteredShape (extendedCalendar calendar) := by
  have hspan := savedSpan_of_mem h
  obtain ⟨hnonneg, hhour⟩ := hspan.hour_mem
  have hends : ∀ s, s ∈ calendar.sessions.head? ∨ s ∈ calendar.sessions.getLast? →
      ∃ t ∈ (extendedCalendar calendar).terminalSessions, closeDay t = closeDay s := by
    intro s hs
    obtain ⟨hfrom, hthrough, hweekday, hincluded⟩ := hspan.ends s hs
    exact exists_terminalSession hnonneg hhour hfrom hthrough hweekday hincluded
  constructor
  case sessions => exact dayOrdered_sessions h
  case terminal => exact dayOrdered_terminalSessions _ _
  case closes =>
    refine ⟨(terminalHours calendar.versionId).1 * 3600000000, by omega, ?_, ?_⟩
    · unfold microsecondsPerDay
      omega
    · rintro s (hs | hs)
      · exact hspan.closes s hs
      · exact closedAt_of_mem_terminalSessions hnonneg hhour hs
  case first_mem => exact fun first hfirst => hends first (Or.inl hfirst)
  case last_mem => exact fun last hlast => hends last (Or.inr hlast)

/-- In every known calendar the terminal session stands in for the last saved one, from the next
date on and until the next close. -/
theorem not_lastOrdinalKept {calendar : SyntheticMarketCalendar}
    (h : calendar ∈ syntheticMarketCalendars) {last : MarketSession}
    (hlast : calendar.sessions.getLast? = some last) {value : Instant}
    (hafter : closeDay last < value.utcDay) (huntil : value < last.closedAt + microsecondsPerDay) :
    ¬LastOrdinalKept (extendedCalendar calendar) value := by
  intro hkept
  have hshape := registeredShape_extendedCalendar h
  have hspan := savedSpan_of_mem h
  obtain ⟨hnonneg, hhour⟩ := hspan.hour_mem
  have hlastMem : last ∈ calendar.sessions := List.mem_of_getLast? hlast
  obtain ⟨t, ht, hday⟩ := hshape.last_mem last hlast
  have hordinal := hkept last hlast hafter (fun s hs hlater => ?_) t ht hday
  · have hlow := hspan.ordinals last hlastMem
    have hhigh : 998173 ≤ t.ordinal := ordinal_of_mem_terminalSessions ht
    omega
  · have hclose : s.closedAt = closeDay s * microsecondsPerDay +
        (terminalHours calendar.versionId).1 * 3600000000 :=
      closedAt_of_mem_terminalSessions hnonneg hhour hs
    refine huntil.trans_le ?_
    rw [hclose, hspan.closes last hlastMem, add_right_comm]
    refine Int.add_le_add_right ?_ _
    calc closeDay last * microsecondsPerDay + microsecondsPerDay
        = (closeDay last + 1) * microsecondsPerDay := by rw [Int.add_mul, Int.one_mul]
      _ ≤ closeDay s * microsecondsPerDay := Int.mul_le_mul_of_nonneg_right hlater (by decide)

namespace SampleCalendar

def saved : SyntheticMarketCalendar where
  versionId := "synthetic-market-calendar-v1"
  sessions := sessionsAfter 6101 (closeOn ⟨2042, 5, 20⟩ 15)
    [0, 1, 2, 5, 6, 7, 8, 9, 12, 13, 14, 15, 16, 19, 20, 21, 22, 23, 26, 27, 28]

def last : MarketSession := ⟨6121, closeOn ⟨2042, 6, 17⟩ 15⟩

def within : Instant := closeOn ⟨2042, 6, 10⟩ 20

def morning : Instant := closeOn ⟨2042, 6, 18⟩ 10

theorem saved_mem : saved ∈ syntheticMarketCalendars := by decide +kernel

theorem saved_spec : saved.sessions.getLast? = some last ∧
    (∀ first ∈ saved.sessions.head?, closeDay first ≤ within.utcDay) ∧
    within.utcDay ≤ closeDay last ∧ closeDay last < morning.utcDay ∧
    morning < last.closedAt + microsecondsPerDay ∧
    morning.utcDay ≤ CivilDate.toDay ⟨2050, 12, 31⟩ := by
  decide +kernel

theorem covers_of_le {value : Instant}
    (hfrom : ∀ first ∈ saved.sessions.head?, closeDay first ≤ value.utcDay)
    (hthrough : value.utcDay ≤ CivilDate.toDay ⟨2050, 12, 31⟩) :
    Covers (extendedCalendar saved) value := by
  have hshape := registeredShape_extendedCalendar saved_mem
  refine ⟨fun earliest hearliest => ?_, hthrough⟩
  have hfirst : saved.sessions.head? = some ⟨6101, closeOn ⟨2042, 5, 20⟩ 15⟩ := by decide +kernel
  obtain ⟨s, hs, hday⟩ := hshape.first_mem _ hfirst
  have hterminal : (extendedCalendar saved).extendedSessions =
      (extendedCalendar saved).terminalSessions := if_neg (List.ne_nil_of_mem hs)
  rw [hterminal] at hearliest
  exact (hshape.terminal.first_le hearliest s hs).trans (hday.trans_le (hfrom _ hfirst))

end SampleCalendar

open SampleCalendar in
/-- Within the span of the saved sessions the lookups agree. -/
theorem sample_lookupsAgree : LookupsAgree (extendedCalendar saved) within := by
  obtain ⟨hlast, hfrom, hthrough, -⟩ := saved_spec
  have hcovers : Covers (extendedCalendar saved) within :=
    covers_of_le hfrom (hthrough.trans (by decide +kernel))
  refine (lookupsAgree_iff _ (registeredShape_extendedCalendar saved_mem) within hcovers).mpr
    ⟨fun other hother hafter => ?_, fun first second others hsessions hbefore => ?_⟩
  · obtain rfl := Option.some.inj (hlast.symm.trans hother)
    exact absurd hafter (not_lt.mpr hthrough)
  · have hhead : first ∈ saved.sessions.head? := by
      have hsame : saved.sessions = first :: second :: others := hsessions
      rw [hsame]
      rfl
    exact absurd hbefore (not_lt.mpr (hfrom first hhead))

open SampleCalendar in
/-- On the morning after the last saved session the latest completed session is the terminal one,
while the recent session is the saved one with another ordinal. -/
theorem lookups_disagree_after_last : RegisteredShape (extendedCalendar saved) ∧
    Covers (extendedCalendar saved) morning ∧
    (extendedCalendar saved).sessionAtOrBefore morning ≠
      ((extendedCalendar saved).recentCompletedSessions morning 1).getLast? ∧
    ¬LookupsAgree (extendedCalendar saved) morning := by
  obtain ⟨hlast, hfrom, hthrough, hafter, huntil, hcovered⟩ := saved_spec
  have hshape := registeredShape_extendedCalendar saved_mem
  have hcovers : Covers (extendedCalendar saved) morning :=
    covers_of_le (fun first hfirst => (hfrom first hfirst).trans (hthrough.trans hafter.le))
      hcovered
  have hdisagree : (extendedCalendar saved).sessionAtOrBefore morning ≠
      ((extendedCalendar saved).recentCompletedSessions morning 1).getLast? := fun hagree =>
    not_lastOrdinalKept saved_mem hlast hafter huntil ((completed_iff hshape hcovers).mp hagree)
  exact ⟨hshape, hcovers, hdisagree, fun hagree => hdisagree hagree.completed⟩

end StockProfiler.Evaluation
