import StockProfiler.Evaluation.ExitContracts
import StockProfiler.Evaluation.StandardCalendars

/-!
# Standard exit paths

Executable paired exit paths from frozen forecasts and complete market sessions. The path of every
policy is one pass over the sessions, day by day.
-/

namespace StockProfiler.Evaluation

open Portfolio (MarketSession)

/-- `statistical_direction`. -/
def statisticalDirection (ctx : DecimalContext) (policy : ExitPolicy) (forecast : ExitForecast) :
    ExitDirection :=
  if forecast.dataComplete = false then .dataFailed
  else if forecast.qualifiedScope = false ∨ forecast.state ∉ policy.states then .abstain
  else match forecast.value with
  | none => .abstain
  | some value =>
    if value.upper ctx ≤ policy.deniedValue then .exit
    else match forecast.downside.get? policy.selectedGrid with
    | none => .abstain
    | some downside =>
      if policy.riskyDownside ≤ downside.lower ctx then .reduce
      else if downside.upper ctx ≤ policy.safeDownside ∧
          policy.establishedValue ≤ value.lower ctx then .hold
      else .abstain

/-- `unlabeled_forecast`. -/
def unlabeledForecast (ctx : DecimalContext) (policy : ExitPolicy) (forecast : ExitForecast) :
    ExitDecisionLabel where
  predictionId := forecast.predictionId
  cutoffAt := forecast.cutoffAt
  state := forecast.state
  direction := statisticalDirection ctx policy forecast
  statistical := (statisticalDirection ctx policy forecast).isStatistical ∧
    forecast.hardExit = false
  forecast

/-- What is carried from day to day on a path. -/
structure ExitPathState where
  index : ℕ := 0
  exposure : ℚ := 1
  target : ℚ := 1
  cash : ℚ := 0
  paid : ℚ := 0
  dividends : ℚ := 0
  peak : ℚ
  drawdown : ℚ := 0
  marketPeak : ℚ
  tradeSignal : Instant
  trades : List StandardExitTrade := []
  wealths : List ℚ := []
  labels : List ExitDecisionLabel := []
  /-- The last statistical direction with its evidence and its day. -/
  previous : Option (ExitDirection × String × ℕ) := none

section Days

variable (ctx : DecimalContext) (policy : ExitPolicy) (quantity initialWealth : ℚ)
  (forecasts : Dict Instant ExitForecast) (name : ExitPolicyName) (row : ExitSession)
  (s : ExitPathState)

/-- Cash actions apply to exposure held at the start of the session. -/
def receiveCash : ExitPathState :=
  { s with
    cash := ctx.add s.cash (ctx.mul (ctx.mul quantity row.cashPerInitialShare) s.exposure)
    dividends := ctx.add s.dividends (ctx.mul quantity row.cashPerInitialShare) }

/-- Whether a pending target is executed in a session, which is not the first one. -/
def tradePending : Bool :=
  s.index ≠ 0 ∧ s.target < s.exposure ∧ row.sellable = true

/-- The trade that sells down to the target at the price of a session. -/
def pendingTrade : StandardExitTrade :=
  let sold := ctx.sub s.exposure s.target
  let gross := ctx.mul (ctx.mul (ctx.mul quantity row.quantityMultiplier) sold) row.vwap
  let cost := row.costs.charge ctx gross
  { signalAt := s.tradeSignal
    executedAt := row.closedAt
    exposureSold := sold
    price := row.vwap
    costs := cost
    netProceeds := ctx.sub gross cost }

/-- Execute a pending trade. -/
def executeTrade : ExitPathState :=
  if tradePending row s then
    let trade := pendingTrade ctx quantity row s
    { s with
      cash := ctx.add s.cash trade.netProceeds
      paid := ctx.add s.paid trade.costs
      trades := s.trades ++ [trade]
      exposure := s.target }
  else s

/-- The market value of the whole quantity in a session. -/
def marketValue : ℚ :=
  ctx.mul (ctx.mul quantity row.quantityMultiplier) row.price

/-- What the whole quantity would bring in a session, with all dividends. -/
def fullNet (dividends : ℚ) : ℚ :=
  ctx.sub (ctx.add (marketValue ctx quantity row) dividends)
    (row.costs.charge ctx (marketValue ctx quantity row))

/-- The wealth of a path in a session, less the costs of selling what is left. -/
def markedWealth : ℚ :=
  let remaining := ctx.mul (ctx.mul (ctx.mul quantity row.quantityMultiplier) s.exposure) row.price
  -- A blocked terminal is marked at residual value; it does not invent a sale.
  let liquidationCost := if row.sellable then row.costs.charge ctx remaining else 0
  ctx.sub (ctx.add s.cash remaining) liquidationCost

/-- Mark the wealth of a session, and the peaks of the path and of the market. -/
def markWealth : ExitPathState :=
  let wealth := markedWealth ctx quantity row s
  let peak := max s.peak wealth
  { s with
    wealths := s.wealths ++ [wealth]
    peak
    drawdown := if 0 < peak then max s.drawdown (ctx.sub 1 (ctx.div wealth peak)) else s.drawdown
    marketPeak := max s.marketPeak (fullNet ctx quantity row s.dividends) }

/-- The target of a staircase of losses. -/
def lossTarget (reduceLoss exitLoss loss : ℚ) : ℚ :=
  if exitLoss ≤ loss then 0 else if reduceLoss ≤ loss then 1 / 2 else 1

/-- The target that a direction proposes. -/
def directionTarget : ExitDirection → ℚ
  | .exit => 0
  | .reduce => 1 / 2
  | _ => 1

variable (forecast : Option ExitForecast)

/-- The direction of a day. -/
def dayDirection : ExitDirection :=
  forecast.elim .dataFailed (statisticalDirection ctx policy)

/-- The target that a policy proposes on a day, once its wealth is marked. -/
def proposedTarget (s : ExitPathState) : ℚ :=
  let net := fullNet ctx quantity row s.dividends
  let proposed := match name with
    | .primary => directionTarget (dayDirection ctx policy forecast)
    | .fixedLoss => lossTarget policy.fixedReduceLoss policy.fixedExitLoss
        (ctx.sub 1 (ctx.div net initialWealth))
    | .trailingDrawdown => lossTarget policy.trailingReduceLoss policy.trailingExitLoss
        (if 0 < s.marketPeak then ctx.sub 1 (ctx.div net s.marketPeak) else 0)
    | .holdEnd => 1
    | .hardOnly => 1
  if name ≠ .holdEnd ∧ forecast.any (·.hardExit) = true then 0 else proposed

/-- The label of a forecast on a day. -/
def dayLabel (forecast : ExitForecast) : ExitDecisionLabel :=
  let direction := statisticalDirection ctx policy forecast
  { unlabeledForecast ctx policy forecast with
    reversalWithoutEvidence := s.previous.any fun (previous, evidenceId, index) =>
      direction.isStatistical ∧ direction ≠ previous ∧ evidenceId = forecast.newEvidenceId ∧
        s.index ≤ index + 20 }

/-- Record the label of a forecast, on the primary path. -/
def recordLabel (s : ExitPathState) : ExitPathState :=
  match name, forecast with
  | .primary, some forecast =>
    let direction := statisticalDirection ctx policy forecast
    { s with
      labels := s.labels ++ [dayLabel ctx policy s forecast]
      previous := if direction.isStatistical then some (direction, forecast.newEvidenceId, s.index)
        else s.previous }
  | _, _ => s

/-- Lower the target to a proposed one; it never rises again. -/
def signal (proposed : ℚ) (s : ExitPathState) : ExitPathState :=
  if proposed < s.target then { s with target := proposed, tradeSignal := row.closedAt } else s

/-- One day of a path: cash, a pending trade, the marked wealth, and the signal at the close. -/
def stepDay (row : ExitSession) : ExitPathState :=
  let forecast := forecasts.get? row.closedAt
  let marked := markWealth ctx quantity row (executeTrade ctx quantity row
    (receiveCash ctx quantity row s))
  let proposed := proposedTarget ctx policy quantity initialWealth name row forecast marked
  let signalled := signal row proposed (recordLabel ctx policy name forecast marked)
  { signalled with index := signalled.index + 1 }

/-- The state of a path after some days. -/
def runDays (entryAt : Instant) (rows : List ExitSession) : ExitPathState :=
  rows.foldl (stepDay ctx policy quantity initialWealth forecasts name)
    { peak := initialWealth, marketPeak := initialWealth, tradeSignal := entryAt }

end Days

section Paths

variable (ctx : DecimalContext) (position : StandardExitPosition) (policy : ExitPolicy)
  (quantity : ℚ) (cutoff : Instant) (forecasts : Dict Instant ExitForecast)

/-- The wealth that a position starts with. -/
def initialWealth : ℚ := ctx.mul quantity position.entryPrice

/-- The days of a path that are before its cutoff and its maturity. -/
def policyRows (rows : List ExitSession) : List ExitSession :=
  rows.filter (·.closedAt ≤ min cutoff position.maturesAt)

variable (days : List ExitSession)

/-- Whether a path is known through its maturity. -/
def terminalKnown : Bool :=
  days.getLast?.any (·.closedAt = position.maturesAt) ∧ position.maturesAt ≤ cutoff

/-- The costs of selling the residual exposure on the last day. -/
def terminalCost (exposure : ℚ) : ℚ :=
  match days.getLast? with
  | none => 0
  | some last =>
    if last.sellable then last.costs.charge ctx
      (ctx.mul (ctx.mul (ctx.mul quantity last.quantityMultiplier) exposure) last.price)
    else 0

/-- The state of a path after its days. -/
def pathState (name : ExitPolicyName) (days : List ExitSession) : ExitPathState :=
  runDays ctx policy quantity (initialWealth ctx position quantity) forecasts name
    position.entryAt days

/-- The path of a policy over its days. -/
def policyPath (name : ExitPolicyName) : ExitPolicyPath :=
  let s := pathState ctx position policy quantity forecasts name days
  let wealth := initialWealth ctx position quantity
  let known := terminalKnown position cutoff days
  let cost := terminalCost ctx quantity days s.exposure
  let final := s.wealths.getLast?.getD 0
  { currentExposure := s.exposure
    pendingTarget := s.target
    trades := s.trades
    dailyWealth := s.wealths
    dates := days.map (·.closedAt)
    netTotalReturn := if known then some (ctx.sub (ctx.div final wealth) 1) else none
    grossTotalReturn :=
      if known then some (ctx.sub (ctx.div (ctx.add (ctx.add final s.paid) cost) wealth) 1)
      else none
    maximumDrawdown := s.drawdown
    exitCost := if known then ctx.add s.paid cost else s.paid
    turnover := ctx.sum (s.trades.map (·.exposureSold)) }

end Paths

section Labels

variable (ctx : DecimalContext) (calendar : StandardCalendar) (quantity : ℚ)

/-- The wealth of holding the whole quantity through the sessions after an origin. -/
def forwardWealth (rows : List ExitSession) : List ℚ :=
  (rows.foldl (fun (s : ℚ × List ℚ) row =>
    let actions := ctx.add s.1 (ctx.mul quantity row.cashPerInitialShare)
    let market := marketValue ctx quantity row
    (actions, s.2 ++ [ctx.sub (ctx.add market actions) (row.costs.charge ctx market)])) (0, [])).2

/-- Whether a horizon of sessions after an origin is complete. -/
def horizonComplete (horizon : ℕ) (forward : List MarketSession) (actual : List ExitSession) :
    Bool :=
  horizon ≤ forward.length ∧ horizon ≤ actual.length ∧
    (actual[horizon - 1]?.map (·.closedAt)) = forward[horizon - 1]?.map (·.closedAt)

/-- What the primary path kept of the value that a holder gained. -/
def upsideCapture (wealths : List ℚ) (origin : ℕ) (gain : ℚ) : ℚ :=
  let last := min (origin + 60) (wealths.length - 1)
  ctx.div (max 0 (ctx.sub (wealths.getD last 0) (wealths.getD origin 0))) gain

/-- A label with the returns of its horizons; each target waits for its complete separate
market-session horizon. -/
def labeled (rows : List ExitSession) (wealths : List ℚ) (label : ExitDecisionLabel) :
    ExitDecisionLabel :=
  let originIndex := (rows.map (·.closedAt)).idxOf label.cutoffAt
  match rows[originIndex]? with
  | none => label
  | some origin =>
    let forward := calendar.sessionsAfterOpen label.cutoffAt 60
    let actual := (rows.drop (originIndex + 1)).take 60
    let market := marketValue ctx quantity origin
    let exitCash := ctx.sub market (origin.costs.charge ctx market)
    if 0 < exitCash then
      let held := forwardWealth ctx quantity actual
      let downside := if horizonComplete 20 forward actual then
        (held.take 20).min?.map fun lowest => ctx.sub (ctx.div lowest exitCash) 1 else none
      let value := if forward.length = 60 ∧ horizonComplete 60 forward actual = true then
        held[59]?.map fun final => ctx.sub (ctx.div final exitCash) 1 else none
      { label with
        downsideReturn := downside
        valueReturn := value
        upsideCapture := if value.any (0 < ·) then
          held[59]?.map fun final =>
            upsideCapture ctx wealths originIndex (ctx.sub final exitCash) else none }
    else { label with downsideReturn := none, valueReturn := none, upsideCapture := none }

end Labels

/-- The latest completed sessions of a calendar. -/
def StandardCalendar.recentCompletedSessions (calendar : StandardCalendar) (value : Instant)
    (count : ℕ) : List MarketSession :=
  if calendar.terminalSessionCoverageThrough < value.utcDay then []
  else
    let completed := calendar.coveredSessions.takeWhile (·.closedAt ≤ value)
    completed.drop (completed.length - count)

/-- The dates of a complete path from an entry through a last session. -/
def expectedDates (calendar : StandardCalendar) (entryAt last : Instant) : List Instant :=
  ((calendar.recentCompletedSessions last 10000).filter (entryAt ≤ ·.closedAt)).map (·.closedAt)

section Evaluate

variable (ctx : DecimalContext) (calendars : String → Option OrderedCalendar)
  (position : StandardExitPosition) (policy : ExitPolicy) (quantity : ℚ) (cutoff : Instant)

/-- The checks of one observed forecast. -/
def checkForecast (dates : List Instant) (forecast : ExitForecast) : Except String Unit := do
  require (forecast.cutoffAt ∈ dates ∧ forecast.cutoffAt ≤ position.maturesAt ∧
    forecast.modelVersion = policy.modelVersion ∧ forecast.frozenAt ≤ cutoff)
    "EXIT_FORECAST_CONTRACT_MISMATCH"
  let values := policy.lossGrids.map fun grid => forecast.downside.get? grid
  require (forecast.dataComplete = true → none ∉ values ∧ forecast.value ≠ none)
    "EXIT_COMPLETE_FORECAST_TARGET_MISSING"
  require (((values.filterMap id).map (·.point)).IsChain fun left right => right ≤ left)
    "EXIT_DOWNSIDE_GRID_NOT_MONOTONE"

/-- The checks of an observation; a complete path has the sessions of its calendar. -/
def checkExitObservation (observation : ExitObservation) : Except String OrderedCalendar := do
  let calendar ← known (calendars policy.marketCalendarVersion) "EXIT_CALENDAR_UNAVAILABLE"
  require (observation.availableAt ≤ cutoff ∧ observation.effectiveAt ≤ cutoff)
    "EXIT_EVIDENCE_NOT_AVAILABLE_AT_CUTOFF"
  require (∀ row ∈ observation.sessions, row.costs = policy.costCurve) "EXIT_COST_CURVE_CHANGED"
  let last ← known observation.sessions.getLast? "EXIT_PATH_EMPTY"
  let dates := expectedDates calendar.toStandardCalendar position.entryAt last.closedAt
  require (observation.sessions.map (·.closedAt) = dates ∧
    last.closedAt ≤ observation.effectiveAt) "EXIT_PATH_CALENDAR_INCOMPLETE"
  require ((observation.forecasts.map (·.cutoffAt)).Nodup ∧
    (observation.forecasts.map (·.predictionId)).Nodup) "EXIT_FORECAST_IDENTITY_CONFLICT"
  observation.forecasts.forM (checkForecast position policy cutoff dates)
  return calendar

/-- The forecasts that a position is evaluated with: those that were frozen, or else those that
were observed. -/
def retainedForecasts (frozenForecasts : List ExitForecast) (observation : ExitObservation) :
    List ExitForecast :=
  if frozenForecasts = [] then observation.forecasts else frozenForecasts

/-- Forecasts by their cutoffs. -/
def forecastsByCutoff (forecasts : List ExitForecast) : Dict Instant ExitForecast :=
  Dict.ofLast (forecasts.map fun forecast => (forecast.cutoffAt, forecast))

/-- The state of an exit at a cutoff. -/
def exitState (primary : ExitPolicyPath) (missing : List ExitMissingReason) : ExitPositionState :=
  if cutoff < position.maturesAt then .pending
  else if primary.netTotalReturn ≠ none ∧ missing = [] then .evaluable
  else .unavailable

/-- The result of a position that is observed completely. -/
def observedResult (calendar : StandardCalendar) (observation : ExitObservation)
    (retained : List ExitForecast) : ExitPositionResult :=
  let forecasts := forecastsByCutoff retained
  let rows := observation.sessions
  let dates := rows.map (·.closedAt)
  let days := policyRows position cutoff rows
  let path := policyPath ctx position policy quantity cutoff forecasts days
  let primary := path .primary
  let labels := (pathState ctx position policy quantity forecasts .primary days).labels
  let missing := (days.filter fun row => (forecasts.get? row.closedAt).isNone).map fun row =>
    ExitMissingReason.forecastMissing row.closedAt
  { position with
    currentExposure := primary.currentExposure
    state := exitState position cutoff primary missing
    initialQuantity := quantity
    observation := some observation
    policies := ExitPolicyName.all.map fun name => (name, path name)
    decisions := (labels.map (labeled ctx calendar quantity rows primary.dailyWealth) ++
      (retained.filter (·.cutoffAt ∉ dates)).map (unlabeledForecast ctx policy)).insertionSort
        fun first later => first.cutoffAt ≤ later.cutoffAt
    missingReasons := missing ++
      if position.maturesAt ≤ cutoff ∧ primary.netTotalReturn = none then [.terminalPathMissing]
      else [] }

/-- `_evaluate`. -/
def evaluateExit (observation : Option ExitObservation) (frozenForecasts : List ExitForecast) :
    Except String ExitPositionResult :=
  match observation with
  | none => .ok { position with
      state := if position.maturesAt ≤ cutoff then .unavailable else position.state
      initialQuantity := quantity
      observation := none
      policies := []
      decisions := frozenForecasts.map (unlabeledForecast ctx policy)
      missingReasons := [.pathMissing] }
  | some observation => do
    let calendar ← checkExitObservation calendars position policy cutoff observation
    require (policyRows position cutoff observation.sessions = [] ∨
      initialWealth ctx position quantity ≠ 0) "decimal.DivisionByZero"
    return observedResult ctx position policy quantity cutoff calendar.toStandardCalendar
      observation
      (retainedForecasts frozenForecasts observation)

/-- `evaluate_exit_position`; a replay of a function of its arguments is consistent. -/
def evaluateExitPosition (observation : Option ExitObservation)
    (frozenForecasts : List ExitForecast) : Except String ExitPositionResult := do
  let result ← evaluateExit wealthDecimals calendars position policy quantity cutoff observation
    frozenForecasts
  return { result with replayConsistent := true }

end Evaluate

end StockProfiler.Evaluation
