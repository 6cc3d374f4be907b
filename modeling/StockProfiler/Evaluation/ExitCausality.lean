import StockProfiler.Core.Emission
import StockProfiler.Evaluation.ExitPaths

/-!
# Exit paths do not look ahead

What a path has done by the close of a session depends on the sessions and the forecasts up to that
close only, and a trade is executed strictly after the session whose signal caused it.
-/

namespace StockProfiler.Evaluation

variable {trade : StandardExitTrade}

section Days

variable {ctx : DecimalContext} {policy : ExitPolicy} {quantity wealth : ℚ}
  {forecasts forecasts' : Dict Instant ExitForecast} {name : ExitPolicyName}

/-- The trades that a day executes. -/
def dayTrades (ctx : DecimalContext) (quantity : ℚ) (s : ExitPathState) (row : ExitSession) :
    List StandardExitTrade :=
  if tradePending row s then [pendingTrade ctx quantity row s] else []

/-- The wealth that a day marks. -/
def dayWealth (ctx : DecimalContext) (quantity : ℚ) (s : ExitPathState) (row : ExitSession) : ℚ :=
  markedWealth ctx quantity row (executeTrade ctx quantity row (receiveCash ctx quantity row s))

theorem recordLabel_eq (forecast : Option ExitForecast) (s : ExitPathState) :
    (recordLabel ctx policy name forecast s).trades = s.trades ∧
      (recordLabel ctx policy name forecast s).wealths = s.wealths ∧
      (recordLabel ctx policy name forecast s).exposure = s.exposure ∧
      (recordLabel ctx policy name forecast s).target = s.target ∧
      (recordLabel ctx policy name forecast s).tradeSignal = s.tradeSignal ∧
      (recordLabel ctx policy name forecast s).index = s.index := by
  unfold recordLabel
  split <;> exact ⟨rfl, rfl, rfl, rfl, rfl, rfl⟩

theorem signal_eq (row : ExitSession) (proposed : ℚ) (s : ExitPathState) :
    (signal row proposed s).trades = s.trades ∧ (signal row proposed s).wealths = s.wealths ∧
      (signal row proposed s).exposure = s.exposure ∧
      (signal row proposed s).index = s.index := by
  unfold signal
  split <;> exact ⟨rfl, rfl, rfl, rfl⟩

theorem executeTrade_eq (row : ExitSession) (s : ExitPathState) :
    (executeTrade ctx quantity row s).trades = s.trades ++ dayTrades ctx quantity s row ∧
      (executeTrade ctx quantity row s).wealths = s.wealths ∧
      (executeTrade ctx quantity row s).exposure =
        (if tradePending row s then s.target else s.exposure) ∧
      (executeTrade ctx quantity row s).target = s.target ∧
      (executeTrade ctx quantity row s).tradeSignal = s.tradeSignal ∧
      (executeTrade ctx quantity row s).index = s.index := by
  unfold executeTrade dayTrades
  split
  · exact ⟨rfl, rfl, rfl, rfl, rfl, rfl⟩
  · exact ⟨(List.append_nil _).symm, rfl, rfl, rfl, rfl, rfl⟩

theorem appends_trades : Appends (stepDay ctx policy quantity wealth forecasts name)
    ExitPathState.trades (dayTrades ctx quantity) := by
  intro s row
  unfold stepDay
  dsimp only
  rw [(signal_eq _ _ _).1, (recordLabel_eq _ _).1]
  exact (executeTrade_eq row (receiveCash ctx quantity row s)).1

theorem appends_wealths : Appends (stepDay ctx policy quantity wealth forecasts name)
    ExitPathState.wealths fun s row => [dayWealth ctx quantity s row] := by
  intro s row
  unfold stepDay
  dsimp only
  rw [(signal_eq _ _ _).2.1, (recordLabel_eq _ _).2.1]
  unfold markWealth dayWealth
  dsimp only
  rw [(executeTrade_eq row _).2.1]
  rfl

theorem runDays_congr {rows : List ExitSession} (entryAt : Instant)
    (h : ∀ row ∈ rows, forecasts.get? row.closedAt = forecasts'.get? row.closedAt) :
    runDays ctx policy quantity wealth forecasts name entryAt rows =
      runDays ctx policy quantity wealth forecasts' name entryAt rows := by
  refine foldl_congr_mem _ fun row hrow s => ?_
  unfold stepDay
  rw [h row hrow]

theorem length_wealths (entryAt : Instant) (rows : List ExitSession) :
    (runDays ctx policy quantity wealth forecasts name entryAt rows).wealths.length =
      rows.length :=
  (appends_wealths.length_foldl (fun _ _ => rfl) _ rows).trans (Nat.zero_add _)

theorem runDays_append (entryAt : Instant) (seen later : List ExitSession) :
    runDays ctx policy quantity wealth forecasts name entryAt (seen ++ later) =
      later.foldl (stepDay ctx policy quantity wealth forecasts name)
        (runDays ctx policy quantity wealth forecasts name entryAt seen) :=
  List.foldl_append

variable (ctx policy quantity wealth forecasts name) in
theorem wealths_append (entryAt : Instant) (seen later : List ExitSession) :
    (runDays ctx policy quantity wealth forecasts name entryAt (seen ++ later)).wealths.take
        seen.length =
      (runDays ctx policy quantity wealth forecasts name entryAt seen).wealths := by
  obtain ⟨more, hlog, -⟩ := appends_wealths.foldl
    (runDays ctx policy quantity wealth forecasts name entryAt seen) later
  rw [runDays_append, hlog, ← length_wealths entryAt seen, List.take_left]

variable (ctx policy quantity wealth forecasts name) in
theorem trades_append (entryAt : Instant) (seen later : List ExitSession) :
    ∃ more, (runDays ctx policy quantity wealth forecasts name entryAt (seen ++ later)).trades =
        (runDays ctx policy quantity wealth forecasts name entryAt seen).trades ++ more ∧
      ∀ trade ∈ more, ∃ row ∈ later, trade.executedAt = row.closedAt := by
  obtain ⟨more, hlog, hmore⟩ := appends_trades.foldl
    (runDays ctx policy quantity wealth forecasts name entryAt seen) later
  refine ⟨more, by rw [runDays_append]; exact hlog, fun trade htrade => ?_⟩
  obtain ⟨s, row, hrow, htrade⟩ := hmore trade htrade
  unfold dayTrades at htrade
  split at htrade
  · rw [List.mem_singleton.mp htrade]
    exact ⟨row, hrow, rfl⟩
  · exact nomatch htrade

/-- The target that a path has after some days. -/
def targetAfter (ctx : DecimalContext) (policy : ExitPolicy) (quantity wealth : ℚ)
    (forecasts : Dict Instant ExitForecast) (name : ExitPolicyName) (entryAt : Instant)
    (rows : List ExitSession) : ℚ :=
  (runDays ctx policy quantity wealth forecasts name entryAt rows).target

/-- The signal of a session has lowered the target of a path to the one that it has. -/
def SignalledBy (ctx : DecimalContext) (policy : ExitPolicy) (quantity wealth : ℚ)
    (forecasts : Dict Instant ExitForecast) (name : ExitPolicyName) (entryAt : Instant)
    (rows : List ExitSession) (signalAt : Instant) : Prop :=
  ∃ earlier row later, rows = earlier ++ row :: later ∧ row.closedAt = signalAt ∧
    targetAfter ctx policy quantity wealth forecasts name entryAt rows <
      targetAfter ctx policy quantity wealth forecasts name entryAt earlier ∧
    targetAfter ctx policy quantity wealth forecasts name entryAt (earlier ++ [row]) =
      targetAfter ctx policy quantity wealth forecasts name entryAt rows

/-- A trade is executed in a session after the one whose signal it executes. -/
def ExecutedAfterSignal (ctx : DecimalContext) (policy : ExitPolicy) (quantity wealth : ℚ)
    (forecasts : Dict Instant ExitForecast) (name : ExitPolicyName) (entryAt : Instant)
    (rows : List ExitSession) (trade : StandardExitTrade) : Prop :=
  ∃ earlier row later, rows = earlier ++ row :: later ∧ row.closedAt = trade.executedAt ∧
    SignalledBy ctx policy quantity wealth forecasts name entryAt earlier trade.signalAt

section Causes

variable {entryAt : Instant} {rows : List ExitSession}

variable (ctx policy quantity wealth forecasts name entryAt rows) in
theorem runDays_snoc (row : ExitSession) :
    ∃ proposed, ∃ marked : ExitPathState,
      runDays ctx policy quantity wealth forecasts name entryAt (rows ++ [row]) =
        { signal row proposed marked with index := (signal row proposed marked).index + 1 } ∧
      marked.target = (runDays ctx policy quantity wealth forecasts name entryAt rows).target ∧
      marked.tradeSignal =
        (runDays ctx policy quantity wealth forecasts name entryAt rows).tradeSignal ∧
      marked.exposure =
        (if tradePending row (runDays ctx policy quantity wealth forecasts name entryAt rows) then
          (runDays ctx policy quantity wealth forecasts name entryAt rows).target
        else (runDays ctx policy quantity wealth forecasts name entryAt rows).exposure) := by
  rw [runDays_append]
  generalize runDays ctx policy quantity wealth forecasts name entryAt rows = s
  refine ⟨_, recordLabel ctx policy name (forecasts.get? row.closedAt) (markWealth ctx quantity row
    (executeTrade ctx quantity row (receiveCash ctx quantity row s))), rfl, ?_, ?_, ?_⟩
  · rw [(recordLabel_eq _ _).2.2.2.1]
    exact (executeTrade_eq row (receiveCash ctx quantity row s)).2.2.2.1
  · rw [(recordLabel_eq _ _).2.2.2.2.1]
    exact (executeTrade_eq row (receiveCash ctx quantity row s)).2.2.2.2.1
  · rw [(recordLabel_eq _ _).2.2.1]
    exact (executeTrade_eq row (receiveCash ctx quantity row s)).2.2.1

/-- A target that is below the exposure was set by the signal that the path remembers. -/
theorem signalledBy_runDays
    (h : targetAfter ctx policy quantity wealth forecasts name entryAt rows <
      (runDays ctx policy quantity wealth forecasts name entryAt rows).exposure) :
    SignalledBy ctx policy quantity wealth forecasts name entryAt rows
      (runDays ctx policy quantity wealth forecasts name entryAt rows).tradeSignal := by
  induction rows using List.reverseRecOn with
  | nil => exact absurd h (lt_irrefl _)
  | append_singleton rows row ih =>
    obtain ⟨proposed, marked, hrun, htarget, hsignal, hexposure⟩ :=
      runDays_snoc ctx policy quantity wealth forecasts name entryAt rows row
    unfold targetAfter at h
    unfold SignalledBy targetAfter
    rw [hrun] at h ⊢
    unfold signal at h ⊢
    by_cases hlower : proposed < marked.target
    · rw [if_pos hlower]
      refine ⟨rows, row, [], rfl, rfl, ?_, ?_⟩
      · rw [← htarget]
        exact hlower
      · rw [hrun, signal, if_pos hlower]
    · rw [if_neg hlower] at h ⊢
      dsimp only at h ⊢
      rw [htarget, hexposure] at h
      split at h
      · exact absurd h (lt_irrefl _)
      · obtain ⟨earlier, first, later, rfl, hclosed, hlowered, hsame⟩ := ih h
        unfold targetAfter at hlowered hsame
        refine ⟨earlier, first, later ++ [row], ?_, hclosed.trans hsignal.symm, ?_, ?_⟩
        · rw [List.append_assoc, List.cons_append]
        · rw [htarget]
          exact hlowered
        · rw [htarget]
          exact hsame

/-- Every trade of a path is executed after its signal. -/
theorem executedAfterSignal_runDays
    (h : trade ∈ (runDays ctx policy quantity wealth forecasts name entryAt rows).trades) :
    ExecutedAfterSignal ctx policy quantity wealth forecasts name entryAt rows trade := by
  induction rows using List.reverseRecOn with
  | nil => exact nomatch h
  | append_singleton rows row ih =>
    rw [runDays_append, List.foldl_cons, List.foldl_nil, appends_trades] at h
    rcases List.mem_append.mp h with h | h
    · obtain ⟨earlier, other, later, rfl, hexecuted, hsignalled⟩ := ih h
      exact ⟨earlier, other, later ++ [row], by rw [List.append_assoc, List.cons_append], hexecuted,
        hsignalled⟩
    · unfold dayTrades at h
      split at h
      · rename_i hpending
        rw [List.mem_singleton.mp h]
        exact ⟨rows, row, [], rfl, rfl, signalledBy_runDays (of_decide_eq_true hpending).2.1⟩
      · exact nomatch h

end Causes

end Days

section Observations

variable {ctx : DecimalContext} {calendars : String → Option OrderedCalendar}
  {position : StandardExitPosition} {policy : ExitPolicy} {quantity : ℚ}
  {cutoff : Instant} {observation : ExitObservation} {frozenForecasts : List ExitForecast}
  {result : ExitPositionResult}

/-- Sessions close one after another. -/
def InOrder (rows : List ExitSession) : Prop :=
  rows.Pairwise fun first later => first.closedAt < later.closedAt

/-- The sessions of a checked observation are in order. -/
theorem inOrder_of_checkExitObservation {calendar : OrderedCalendar}
    (h : checkExitObservation calendars position policy cutoff observation = .ok calendar) :
    InOrder observation.sessions := by
  obtain ⟨found, -, h⟩ := bind_eq_ok.mp h
  obtain ⟨_, -, h⟩ := bind_eq_ok.mp h
  obtain ⟨_, -, h⟩ := bind_eq_ok.mp h
  obtain ⟨last, -, h⟩ := bind_eq_ok.mp h
  obtain ⟨_, hdates, -⟩ := bind_eq_ok.mp h
  have hdates := (require_eq_ok.mp hdates).1
  have hordered : (observation.sessions.map (·.closedAt)).Pairwise (· < ·) := by
    rw [hdates]
    refine List.pairwise_map.mpr (List.Pairwise.filter _ ?_)
    have hcovered := found.ordered.imp lt_of_utcDay_lt
    unfold StandardCalendar.recentCompletedSessions
    split
    · exact .nil
    · exact hcovered.sublist ((List.drop_sublist _ _).trans (List.takeWhile_sublist _))
  exact List.pairwise_map.mp hordered

theorem observed_of_evaluateExit
    (h : evaluateExit ctx calendars position policy quantity cutoff (some observation)
      frozenForecasts = .ok result) :
    InOrder observation.sessions ∧ ∃ calendar, result = observedResult ctx position policy quantity
      cutoff calendar observation (retainedForecasts frozenForecasts observation) := by
  obtain ⟨calendar, hcalendar, h⟩ := bind_eq_ok.mp h
  obtain ⟨_, -, h⟩ := bind_eq_ok.mp h
  cases h
  exact ⟨inOrder_of_checkExitObservation hcalendar, _, rfl⟩

/-- The days of a path through a session are those of the sessions through it. -/
theorem take_policyRows {rows : List ExitSession} (hordered : InOrder rows) (count : ℕ) :
    (policyRows position cutoff rows).take count =
      policyRows position cutoff (rows.take count) := by
  induction rows generalizing count with
  | nil => rw [List.take_nil]; exact List.take_nil
  | cons row rows ih =>
    obtain ⟨hrow, hordered⟩ := List.pairwise_cons.mp hordered
    cases count with
    | zero => rfl
    | succ count =>
      rw [List.take_succ_cons]
      unfold policyRows at ih ⊢
      rw [List.filter_cons, List.filter_cons]
      by_cases hseen : row.closedAt ≤ min cutoff position.maturesAt
      · rw [if_pos (decide_eq_true hseen), if_pos (decide_eq_true hseen), List.take_succ_cons,
          ih hordered]
      · have hnone : ∀ others : List ExitSession, others ⊆ rows →
            others.filter (·.closedAt ≤ min cutoff position.maturesAt) = [] := by
          intro others hsub
          refine List.filter_eq_nil_iff.mpr fun other hother hle => hseen ?_
          exact (hrow other (hsub hother)).le.trans (of_decide_eq_true hle)
        have hfalse : ¬decide (row.closedAt ≤ min cutoff position.maturesAt) = true := by
          rw [decide_eq_true_eq]
          exact hseen
        rw [if_neg hfalse, if_neg hfalse, hnone rows (List.Subset.refl _),
          hnone _ (List.take_subset _ _), List.take_nil]

end Observations

/-- Two lists have the same forecasts for every session through a close. -/
def ForecastsAgree (close : Instant) (forecasts others : List ExitForecast) : Prop :=
  ∀ closedAt ≤ close,
    forecasts.filter (·.cutoffAt = closedAt) = others.filter (·.cutoffAt = closedAt)

/-- Two paths have the same wealths for some days, and the same trades through their close. -/
structure SameThrough (count : ℕ) (close : Instant) (path other : ExitPolicyPath) : Prop where
  wealths : path.dailyWealth.take count = other.dailyWealth.take count
  trades : path.trades.filter (·.executedAt ≤ close) = other.trades.filter (·.executedAt ≤ close)

section Causality

variable {close entryAt : Instant} {forecasts : Dict Instant ExitForecast} {name : ExitPolicyName}
  {ctx : DecimalContext} {calendars : String → Option OrderedCalendar}
  {position : StandardExitPosition} {policy : ExitPolicy} {quantity wealth : ℚ} {cutoff : Instant}

theorem get?_forecastsByCutoff_of_agree {closedAt : Instant} {forecasts others : List ExitForecast}
    (h : ForecastsAgree close forecasts others) (hle : closedAt ≤ close) :
    (forecastsByCutoff forecasts).get? closedAt = (forecastsByCutoff others).get? closedAt := by
  have hlast : ∀ items : List ExitForecast, (forecastsByCutoff items).get? closedAt =
      (items.filter (·.cutoffAt = closedAt)).getLast? := by
    intro items
    unfold forecastsByCutoff
    rw [Dict.get?_ofLast_eq_getLast?, Dict.valuesOf_map, List.map_id']
  rw [hlast, hlast, h closedAt hle]

/-- The wealths of some days are those of the path that ends with them. -/
theorem take_wealths (forecasts : Dict Instant ExitForecast) (name : ExitPolicyName)
    (entryAt : Instant) (days : List ExitSession) (count : ℕ) :
    (runDays ctx policy quantity wealth forecasts name entryAt days).wealths.take count =
      (runDays ctx policy quantity wealth forecasts name entryAt (days.take count)).wealths := by
  rcases Nat.le_total count days.length with hle | hle
  · have hwealths := wealths_append ctx policy quantity wealth forecasts name entryAt
      (days.take count) (days.drop count)
    rw [List.take_append_drop, List.length_take_of_le hle] at hwealths
    exact hwealths
  · rw [List.take_of_length_le hle, List.take_of_length_le]
    rw [length_wealths]
    exact hle

theorem executed_of_mem_trades {rows : List ExitSession}
    (h : trade ∈ (runDays ctx policy quantity wealth forecasts name entryAt rows).trades) :
    ∃ row ∈ rows, row.closedAt = trade.executedAt := by
  obtain ⟨earlier, row, later, rfl, hexecuted, -⟩ := executedAfterSignal_runDays h
  exact ⟨row, List.mem_append_right _ (List.mem_cons_self ..), hexecuted⟩

theorem filter_trades {seen later : List ExitSession} (hseen : ∀ row ∈ seen, row.closedAt ≤ close)
    (hlater : ∀ row ∈ later, close < row.closedAt) :
    (runDays ctx policy quantity wealth forecasts name entryAt (seen ++ later)).trades.filter
        (·.executedAt ≤ close) =
      (runDays ctx policy quantity wealth forecasts name entryAt seen).trades := by
  obtain ⟨more, hlog, hmore⟩ :=
    trades_append ctx policy quantity wealth forecasts name entryAt seen later
  rw [hlog, List.filter_append]
  have hkept : (runDays ctx policy quantity wealth forecasts name entryAt seen).trades.filter
      (·.executedAt ≤ close) =
      (runDays ctx policy quantity wealth forecasts name entryAt seen).trades := by
    refine List.filter_eq_self.mpr fun trade htrade => decide_eq_true ?_
    obtain ⟨row, hrow, hexecuted⟩ := executed_of_mem_trades htrade
    rw [← hexecuted]
    exact hseen row hrow
  have hdropped : more.filter (·.executedAt ≤ close) = [] := by
    refine List.filter_eq_nil_iff.mpr fun trade htrade hle => ?_
    obtain ⟨row, hrow, hexecuted⟩ := hmore trade htrade
    rw [decide_eq_true_eq, hexecuted] at hle
    exact absurd hle (not_le.mpr (hlater row hrow))
  rw [hkept, hdropped, List.append_nil]

/-- A trade on days that are in order is executed strictly after the session of its signal. -/
theorem signalAt_lt_executedAt {rows : List ExitSession} (hordered : InOrder rows)
    (h : ExecutedAfterSignal ctx policy quantity wealth forecasts name entryAt rows trade) :
    trade.signalAt < trade.executedAt := by
  obtain ⟨earlier, row, later, rfl, hexecuted, hsignalled⟩ := h
  obtain ⟨first, cause, rest, rfl, hsignal, -, -⟩ := hsignalled
  rw [← hexecuted, ← hsignal]
  refine (List.pairwise_append.mp hordered).2.2 cause ?_ row (List.mem_cons_self ..)
  exact List.mem_append_right _ (List.mem_cons_self ..)

/-- The sessions through one are no later than it, and the others are later. -/
theorem split_at_session {rows : List ExitSession} {i : ℕ} {row : ExitSession}
    (hordered : InOrder rows) (hrow : rows[i]? = some row) :
    (∀ other ∈ rows.take (i + 1), other.closedAt ≤ row.closedAt) ∧
      ∀ other ∈ rows.drop (i + 1), row.closedAt < other.closedAt := by
  have htake : rows.take (i + 1) = rows.take i ++ [row] := by
    rw [List.take_add_one, hrow, Option.toList_some]
  have hsplit : rows = rows.take i ++ [row] ++ rows.drop (i + 1) := by
    rw [← htake, List.take_append_drop]
  rw [htake]
  rw [hsplit] at hordered
  obtain ⟨hseen, -, hlater⟩ := List.pairwise_append.mp hordered
  refine ⟨fun other hother => ?_, fun other hother => hlater row
    (List.mem_append_right _ (List.mem_singleton_self _)) other hother⟩
  rcases List.mem_append.mp hother with hother | hother
  · exact ((List.pairwise_append.mp hseen).2.2 other hother row (List.mem_singleton_self _)).le
  · rw [List.mem_singleton.mp hother]

variable {otherCutoff : Instant} {observation other : ExitObservation}
  {frozenForecasts otherFrozen : List ExitForecast} {result otherResult : ExitPositionResult}

/-- Rows through a close are days before one cutoff exactly when they are days before another one
that is the same as far as that close. -/
theorem policyRows_congr {rows : List ExitSession}
    (hcutoff : min cutoff close = min otherCutoff close)
    (hrows : ∀ row ∈ rows, row.closedAt ≤ close) :
    policyRows position cutoff rows = policyRows position otherCutoff rows := by
  refine List.filter_congr fun row hrow => ?_
  have hle := hrows row hrow
  have hiff : row.closedAt ≤ cutoff ↔ row.closedAt ≤ otherCutoff := by
    constructor
    · intro h
      exact (le_min h hle).trans (hcutoff.le.trans (min_le_left _ _))
    · intro h
      exact (le_min h hle).trans (hcutoff.ge.trans (min_le_left _ _))
  rw [decide_eq_decide, le_min_iff, le_min_iff, hiff]

theorem get?_policies_observedResult {calendar : StandardCalendar} {retained : List ExitForecast}
    (name : ExitPolicyName) :
    Dict.get? (observedResult ctx position policy quantity cutoff calendar observation
        retained).policies name =
      some (policyPath ctx position policy quantity cutoff (forecastsByCutoff retained)
        (policyRows position cutoff observation.sessions) name) := by
  cases name <;> rfl

/-- The days of an observation through one of its sessions. -/
def daysThrough (position : StandardExitPosition) (cutoff : Instant) (observation : ExitObservation)
    (i : ℕ) : List ExitSession :=
  (policyRows position cutoff observation.sessions).take (i + 1)

/-- What a path has done through a session is what the path over the days through it has done. -/
theorem policyPath_through {i : ℕ} {row : ExitSession} (hordered : InOrder observation.sessions)
    (hrow : observation.sessions[i]? = some row) :
    let path := policyPath ctx position policy quantity cutoff forecasts
      (policyRows position cutoff observation.sessions) name
    let through := pathState ctx position policy quantity forecasts name
      (daysThrough position cutoff observation i)
    path.dailyWealth.take (i + 1) = through.wealths ∧
      path.trades.filter (·.executedAt ≤ row.closedAt) = through.trades := by
  intro path through
  obtain ⟨hseen, hlater⟩ := split_at_session hordered hrow
  refine ⟨take_wealths _ _ _ _ _, ?_⟩
  have hdays : policyRows position cutoff observation.sessions =
      daysThrough position cutoff observation i ++
        policyRows position cutoff (observation.sessions.drop (i + 1)) := by
    unfold daysThrough
    rw [take_policyRows hordered]
    unfold policyRows
    rw [← List.filter_append, List.take_append_drop]
  have htrades : path.trades = (pathState ctx position policy quantity forecasts name
      (policyRows position cutoff observation.sessions)).trades := rfl
  rw [htrades, hdays]
  refine filter_trades (fun other hother => hseen other ?_) fun other hother => hlater other ?_
  · unfold daysThrough at hother
    rw [take_policyRows hordered] at hother
    exact (List.mem_filter.mp hother).1
  · exact (List.mem_filter.mp hother).1

/-- Exit paths do not look ahead: two checked observations that agree on their sessions through
one of them and on the forecasts through its close give every policy the same wealths, trades and
target through it; and every trade is executed strictly after the session of its signal. -/
theorem evaluateExit_noLookAhead {i : ℕ} {row : ExitSession}
    (hresult : evaluateExit ctx calendars position policy quantity cutoff (some observation)
      frozenForecasts = .ok result)
    (hother : evaluateExit ctx calendars position policy quantity otherCutoff (some other)
      otherFrozen = .ok otherResult)
    (hsessions : observation.sessions.take (i + 1) = other.sessions.take (i + 1))
    (hrow : observation.sessions[i]? = some row)
    (hforecasts : ForecastsAgree row.closedAt (retainedForecasts frozenForecasts observation)
      (retainedForecasts otherFrozen other))
    (hcutoff : min cutoff row.closedAt = min otherCutoff row.closedAt) (name : ExitPolicyName) :
    ∃ path otherPath, Dict.get? result.policies name = some path ∧
      Dict.get? otherResult.policies name = some otherPath ∧
      SameThrough (i + 1) row.closedAt path otherPath ∧
      (pathState ctx position policy quantity
          (forecastsByCutoff (retainedForecasts frozenForecasts observation)) name
          (daysThrough position cutoff observation i)).target =
        (pathState ctx position policy quantity
          (forecastsByCutoff (retainedForecasts otherFrozen other)) name
          (daysThrough position otherCutoff other i)).target ∧
      ∀ trade ∈ path.trades,
        ExecutedAfterSignal ctx policy quantity (initialWealth ctx position quantity)
          (forecastsByCutoff (retainedForecasts frozenForecasts observation)) name position.entryAt
          (policyRows position cutoff observation.sessions) trade ∧
        trade.signalAt < trade.executedAt := by
  obtain ⟨hordered, calendar, rfl⟩ := observed_of_evaluateExit hresult
  obtain ⟨hotherOrdered, otherCalendar, rfl⟩ := observed_of_evaluateExit hother
  have hotherRow : other.sessions[i]? = some row := by
    have hlast := congrArg (·[i]?) hsessions
    simp only [List.getElem?_take_of_lt (Nat.lt_succ_self i)] at hlast
    rw [← hlast, hrow]
  have hthrough := (split_at_session hordered hrow).1
  have hdays : daysThrough position cutoff observation i =
      daysThrough position otherCutoff other i := by
    unfold daysThrough
    rw [take_policyRows hordered, take_policyRows hotherOrdered, ← hsessions]
    exact policyRows_congr hcutoff hthrough
  have hstate : pathState ctx position policy quantity
        (forecastsByCutoff (retainedForecasts frozenForecasts observation)) name
        (daysThrough position cutoff observation i) =
      pathState ctx position policy quantity
        (forecastsByCutoff (retainedForecasts otherFrozen other)) name
        (daysThrough position otherCutoff other i) := by
    rw [← hdays]
    refine runDays_congr _ fun day hday => get?_forecastsByCutoff_of_agree hforecasts ?_
    unfold daysThrough at hday
    rw [take_policyRows hordered] at hday
    exact hthrough day (List.mem_filter.mp hday).1
  obtain ⟨hwealths, htrades⟩ := policyPath_through hordered hrow
  obtain ⟨hotherWealths, hotherTrades⟩ := policyPath_through hotherOrdered hotherRow
  refine ⟨_, _, get?_policies_observedResult name, get?_policies_observedResult name, ⟨?_, ?_⟩,
    congrArg ExitPathState.target hstate, fun trade htrade => ?_⟩
  · rw [hwealths, hotherWealths, hstate]
  · rw [htrades, hotherTrades, hstate]
  · have hexecuted := executedAfterSignal_runDays htrade
    exact ⟨hexecuted, signalAt_lt_executedAt (hordered.filter _) hexecuted⟩

end Causality

namespace SampleExits

def session (day : ℕ) : Portfolio.MarketSession :=
  { ordinal := day, closedAt := day * microsecondsPerDay + 15 * 3600000000 }

def calendar : OrderedCalendar where
  sessions := (List.range 4).map session
  terminalSessions := []
  terminalSessionCoverageThrough := 3
  ordered := by
    unfold DayOrdered
    decide +kernel

def costs : ExitCostCurve := ⟨0, 0, 0, 0, 0⟩

def policy : ExitPolicy where
  versionId := "policy"
  startMonth := "1970-01"
  endMonth := "1970-01"
  marketCalendarVersion := "calendar"
  modelVersion := "model"
  costCurve := costs
  selectedGrid := 1 / 10
  states := [.bull]

/-- A position that is entered in the first session and matures in the last one. -/
def position : StandardExitPosition where
  lifecycleId := "lifecycle"
  candidateEvaluationId := "evaluation"
  sourceEventId := "source"
  securityId := "security"
  entryAt := (session 0).closedAt
  entryPrice := 10
  maturesAt := (session 3).closedAt
  state := .pending

def row (day : ℕ) (price : ℚ) : ExitSession where
  closedAt := (session day).closedAt
  price
  vwap := price
  sellable := true
  quantityMultiplier := 1
  cashPerInitialShare := 0
  costs

def delisting : OutcomeEvidence := .immediate "delisting" 0

/-- The forecast of the second session, which exits because of a hard fact. -/
def forecast : ExitForecast where
  predictionId := "prediction"
  cutoffAt := (session 1).closedAt
  frozenAt := (session 1).closedAt
  trainingWatermarkAt := 0
  modelVersion := "model"
  state := .bull
  dataComplete := false
  qualifiedScope := true
  newEvidenceId := "evidence"
  downside := []
  value := none
  hardExit := true
  hardEvidence := some (.fact .authoritativeDelisting delisting)

def observation (price : ℚ) : ExitObservation :=
  { OutcomeEvidence.immediate "observation" (session 3).closedAt with
    lifecycleId := "lifecycle"
    sessions := [row 0 10, row 1 9, row 2 8, row 3 price]
    forecasts := [forecast] }

def evaluation (price : ℚ) : Except String ExitPositionResult :=
  evaluateExit wealthDecimals (fun _ => some calendar) position policy 100 (session 3).closedAt
    (some (observation price)) []

def evaluated (price : ℚ) : ExitPositionResult :=
  observedResult wealthDecimals position policy 100 (session 3).closedAt calendar.toStandardCalendar
    (observation price) [forecast]

def tradesOf (price : ℚ) (name : ExitPolicyName) : Option (List ℚ × List (Instant × Instant)) :=
  (Dict.get? (evaluated price).policies name).map fun path =>
    (path.dailyWealth, path.trades.map fun trade => (trade.signalAt, trade.executedAt))

theorem evaluation_spec : evaluation 1 = .ok (evaluated 1) ∧ evaluation 99 = .ok (evaluated 99) ∧
    tradesOf 1 .holdEnd = some ([1000, 900, 800, 100], []) ∧
    tradesOf 99 .holdEnd = some ([1000, 900, 800, 9900], []) ∧
    tradesOf 99 .primary =
      some ([1000, 900, 800, 800], [((session 1).closedAt, (session 2).closedAt)]) := by
  decide +kernel

/-- The paths of the sample are the same through the third session, whatever the last price is. -/
theorem evaluateExit_noLookAhead_sample :
    evaluation 1 = .ok (evaluated 1) ∧ evaluation 99 = .ok (evaluated 99) ∧
      ∀ name, ∃ path otherPath, Dict.get? (evaluated 1).policies name = some path ∧
        Dict.get? (evaluated 99).policies name = some otherPath ∧
        SameThrough 3 (session 2).closedAt path otherPath := by
  obtain ⟨hlow, hhigh, -⟩ := evaluation_spec
  have hrow : (observation 1).sessions[2]? = some (row 2 8) := rfl
  refine ⟨hlow, hhigh, fun name => ?_⟩
  obtain ⟨path, otherPath, hpath, hother, hsame, -⟩ :=
    evaluateExit_noLookAhead hlow hhigh rfl hrow (fun _ _ => rfl) rfl name
  exact ⟨path, otherPath, hpath, hother, hsame⟩

end SampleExits

end StockProfiler.Evaluation
