import StockProfiler.Evaluation.ExitCausality
import Mathlib.Algebra.BigOperators.Group.Finset.Basic

/-!
# Exit paths conserve wealth

A path only reduces its exposure, in at most two sales, and what it is worth on a day is what
it received, with what is left of the quantity, less the costs.
-/

namespace StockProfiler.Evaluation

/-- The exposures that a policy may propose. -/
def IsTarget (x : ℚ) : Prop := x = 0 ∨ x = 1 / 2 ∨ x = 1

/-- What the residual exposure brings in a session before costs. -/
def residualValue (quantity : ℚ) (row : ExitSession) (exposure : ℚ) : ℚ :=
  quantity * row.quantityMultiplier * exposure * row.price

/-- The cost of selling the residual exposure in a session, if it can be sold. -/
def liquidationCost (quantity : ℚ) (row : ExitSession) (exposure : ℚ) : ℚ :=
  if row.sellable then row.costs.charge .exact (residualValue quantity row exposure) else 0

section Days

variable {policy : ExitPolicy} {quantity wealth : ℚ} {forecasts : Dict Instant ExitForecast}
  {name : ExitPolicyName}

theorem isTarget_lossTarget (reduceLoss exitLoss loss : ℚ) :
    IsTarget (lossTarget reduceLoss exitLoss loss) := by
  unfold lossTarget
  split
  · exact .inl rfl
  · split
    · exact .inr (.inl rfl)
    · exact .inr (.inr rfl)

theorem isTarget_directionTarget (direction : ExitDirection) :
    IsTarget (directionTarget direction) := by
  cases direction with
  | exit => exact .inl rfl
  | reduce => exact .inr (.inl rfl)
  | hold => exact .inr (.inr rfl)
  | abstain => exact .inr (.inr rfl)
  | dataFailed => exact .inr (.inr rfl)

/-- A policy proposes nothing, one half or everything. -/
theorem isTarget_proposedTarget (ctx : DecimalContext) (row : ExitSession)
    (forecast : Option ExitForecast) (s : ExitPathState) :
    IsTarget (proposedTarget ctx policy quantity wealth name row forecast s) := by
  unfold proposedTarget
  dsimp only
  split
  · exact .inl rfl
  · cases name with
    | primary => exact isTarget_directionTarget _
    | fixedLoss => exact isTarget_lossTarget _ _ _
    | trailingDrawdown => exact isTarget_lossTarget _ _ _
    | holdEnd => exact .inr (.inr rfl)
    | hardOnly => exact .inr (.inr rfl)

/-- What a day does to a path, in exact arithmetic. -/
structure DayDone (quantity : ℚ) (s s' : ExitPathState) (row : ExitSession) : Prop where
  exposure : s'.exposure = if tradePending row s then s.target else s.exposure
  target : ∃ proposed, IsTarget proposed ∧ s'.target = min proposed s.target
  trades : s'.trades = s.trades ++ dayTrades .exact quantity s row
  cash : s'.cash = s.cash + quantity * row.cashPerInitialShare * s.exposure +
    ((dayTrades .exact quantity s row).map (·.netProceeds)).sum
  paid : s'.paid = s.paid + ((dayTrades .exact quantity s row).map (·.costs)).sum
  wealths : s'.wealths = s.wealths ++ [s'.cash + residualValue quantity row s'.exposure -
    liquidationCost quantity row s'.exposure]

theorem recordLabel_cash {ctx : DecimalContext} (forecast : Option ExitForecast)
    (s : ExitPathState) : (recordLabel ctx policy name forecast s).cash = s.cash ∧
      (recordLabel ctx policy name forecast s).paid = s.paid := by
  unfold recordLabel
  split <;> exact ⟨rfl, rfl⟩

/-- A signal moves no cash; it lowers the target to the proposed one. -/
theorem signal_cash (row : ExitSession) (proposed : ℚ) (s : ExitPathState) :
    (signal row proposed s).cash = s.cash ∧ (signal row proposed s).paid = s.paid ∧
      (signal row proposed s).target = min proposed s.target := by
  unfold signal
  split
  · rename_i hlower
    exact ⟨rfl, rfl, (min_eq_left hlower.le).symm⟩
  · rename_i hlower
    exact ⟨rfl, rfl, (min_eq_right (not_lt.mp hlower)).symm⟩

/-- A sale brings its net proceeds and is charged its costs. -/
theorem executeTrade_cash (row : ExitSession) (s : ExitPathState) :
    (executeTrade .exact quantity row s).cash =
        s.cash + ((dayTrades .exact quantity s row).map (·.netProceeds)).sum ∧
      (executeTrade .exact quantity row s).paid =
        s.paid + ((dayTrades .exact quantity s row).map (·.costs)).sum := by
  unfold executeTrade dayTrades
  split
  · simp
  · simp

/-- A day of a path changes its state as the session allows. -/
theorem dayDone_stepDay (s : ExitPathState) (row : ExitSession) :
    DayDone quantity s (stepDay .exact policy quantity wealth forecasts name s row) row := by
  set received := receiveCash .exact quantity row s with hreceived
  set executed := executeTrade .exact quantity row received with hexecuted
  set marked := markWealth .exact quantity row executed with hmarked
  obtain ⟨htrades, hwealths, hexposure, htarget, -, -⟩ :=
    @executeTrade_eq .exact quantity row received
  obtain ⟨hcash, hpaid⟩ := @executeTrade_cash quantity row received
  have hlabel := @recordLabel_eq .exact policy name (forecasts.get? row.closedAt) marked
  have hlabelCash := @recordLabel_cash policy name .exact (forecasts.get? row.closedAt) marked
  have hstepCash : (stepDay .exact policy quantity wealth forecasts name s row).cash =
      executed.cash := (signal_cash _ _ _).1.trans hlabelCash.1
  have hstepExposure : (stepDay .exact policy quantity wealth forecasts name s row).exposure =
      executed.exposure := (signal_eq _ _ _).2.2.1.trans hlabel.2.2.1
  refine ⟨hstepExposure.trans hexposure,
    ⟨proposedTarget .exact policy quantity wealth name row (forecasts.get? row.closedAt) marked,
      isTarget_proposedTarget _ _ _ _, ?_⟩, appends_trades s row, ?_, ?_, ?_⟩
  · refine (signal_cash _ _ _).2.2.trans ?_
    rw [hlabel.2.2.2.1]
    exact congrArg _ htarget
  · rw [hstepCash, hcash]
    simp only [hreceived, receiveCash, DecimalContext.exact_add, DecimalContext.exact_mul]
    rfl
  · exact ((signal_cash _ _ _).2.1.trans hlabelCash.2).trans hpaid
  · rw [appends_wealths s row, hstepCash, hstepExposure]
    simp only [dayWealth, markedWealth, liquidationCost, residualValue, DecimalContext.exact_add,
      DecimalContext.exact_sub, DecimalContext.exact_mul]
    rfl

/-- A path has only reduced its exposure, by one half or more in each sale. -/
structure OnlyReduces (s : ExitPathState) : Prop where
  target : IsTarget s.target
  exposure : IsTarget s.exposure
  target_le : s.target ≤ s.exposure
  sold : s.exposure = 1 - (s.trades.map (·.exposureSold)).sum
  count : (s.trades.length : ℚ) ≤ 2 * (1 - s.exposure)

/-- Of two targets the larger one exceeds the smaller one by one half or more. -/
theorem IsTarget.half_le_sub {x y : ℚ} (hx : IsTarget x) (hy : IsTarget y) (h : x < y) :
    1 / 2 ≤ y - x := by
  rcases hx with rfl | rfl | rfl <;> rcases hy with rfl | rfl | rfl <;> revert h <;> norm_num

theorem IsTarget.mem {x : ℚ} (hx : IsTarget x) : 0 ≤ x ∧ x ≤ 1 := by
  rcases hx with rfl | rfl | rfl <;> norm_num

theorem IsTarget.min {x y : ℚ} (hx : IsTarget x) (hy : IsTarget y) : IsTarget (Min.min x y) := by
  rcases min_choice x y with h | h
  · rw [h]
    exact hx
  · rw [h]
    exact hy

variable {s s' : ExitPathState} {row : ExitSession}

theorem dayTrades_cases (quantity : ℚ) (s : ExitPathState) (row : ExitSession) :
    tradePending row s = false ∧ dayTrades .exact quantity s row = [] ∨
      tradePending row s ∧ s.target < s.exposure ∧ row.sellable ∧
        dayTrades .exact quantity s row = [pendingTrade .exact quantity row s] := by
  unfold dayTrades
  split
  · rename_i hpending
    obtain ⟨-, hlower, hsellable⟩ := of_decide_eq_true hpending
    exact .inr ⟨hpending, hlower, hsellable, rfl⟩
  · rename_i hpending
    exact .inl ⟨Bool.eq_false_iff.mpr hpending, rfl⟩

/-- One more day only reduces the exposure and the target. -/
theorem DayDone.onlyReduces (h : DayDone quantity s s' row) (hs : OnlyReduces s) :
    OnlyReduces s' ∧ s'.exposure ≤ s.exposure ∧ s'.target ≤ s.target := by
  obtain ⟨proposed, hproposed, htarget⟩ := h.target
  have hlower : s'.target ≤ s.target := htarget ▸ min_le_right _ _
  have htargets : IsTarget s'.target := htarget ▸ hproposed.min hs.target
  have hexposure := h.exposure
  have htrades := h.trades
  rcases dayTrades_cases quantity s row with ⟨hnot, hnone⟩ | ⟨hpending, hbelow, -, hsale⟩
  · rw [hnot, if_neg (by decide)] at hexposure
    rw [hnone, List.append_nil] at htrades
    refine ⟨⟨htargets, hexposure ▸ hs.exposure, ?_, ?_, ?_⟩, hexposure.le, hlower⟩
    · rw [hexposure]
      exact hlower.trans hs.target_le
    · rw [hexposure, htrades]
      exact hs.sold
    · rw [hexposure, htrades]
      exact hs.count
  · rw [if_pos hpending] at hexposure
    rw [hsale] at htrades
    have hhalf := hs.target.half_le_sub hs.exposure hbelow
    refine ⟨⟨htargets, hexposure ▸ hs.target, hexposure ▸ hlower, ?_, ?_⟩,
      hexposure ▸ hs.target_le, hlower⟩
    · have hsold := hs.sold
      rw [hexposure, htrades, List.map_append, List.sum_append, List.map_singleton,
        List.sum_singleton, pendingTrade, DecimalContext.exact_sub]
      linarith
    · have hcount := hs.count
      rw [hexposure, htrades, List.length_append, List.length_singleton, Nat.cast_add, Nat.cast_one]
      linarith

end Days

section Paths

variable (policy : ExitPolicy) (quantity wealth : ℚ) (forecasts : Dict Instant ExitForecast)
  (name : ExitPolicyName) (entryAt : Instant) (days : List ExitSession)

/-- The state of a path after some of its days, in exact arithmetic. -/
def stateAfter (count : ℕ) : ExitPathState :=
  runDays .exact policy quantity wealth forecasts name entryAt (days.take count)

/-- The distribution of a day on the exposure that is held when its session starts. -/
def distributionOn (quantity : ℚ) (states : ℕ → ExitPathState) (days : List ExitSession)
    (index : ℕ) : ℚ :=
  days[index]?.elim 0 fun row =>
    quantity * row.cashPerInitialShare * (states index).exposure

/-- The states of a path: its days are done one after another, and nothing follows the last. -/
structure Walks (states : ℕ → ExitPathState) : Prop where
  start : ∃ wealth entryAt,
    states 0 = { peak := wealth, marketPeak := wealth, tradeSignal := entryAt }
  day : ∀ {count row}, days[count]? = some row →
    DayDone quantity (states count) (states (count + 1)) row
  rest : ∀ {count}, days[count]? = none → states (count + 1) = states count

theorem walks_stateAfter :
    Walks quantity days (stateAfter policy quantity wealth forecasts name entryAt days) where
  start := ⟨wealth, entryAt, by simp [stateAfter, runDays]⟩
  day {count row} h := by
    rw [stateAfter, stateAfter, List.take_add_one, h, Option.toList_some, runDays_append]
    exact dayDone_stepDay _ row
  rest {count} h := by
    rw [stateAfter, List.take_add_one, h, Option.toList_none, List.append_nil, stateAfter]

variable {policy quantity wealth forecasts name entryAt days} {count : ℕ} {row : ExitSession}

namespace Walks

variable {states : ℕ → ExitPathState} (hwalks : Walks quantity days states)
include hwalks

theorem onlyReduces (count : ℕ) : OnlyReduces (states count) := by
  induction count with
  | zero =>
    obtain ⟨_, _, hstart⟩ := hwalks.start
    rw [hstart]
    exact ⟨.inr (.inr rfl), .inr (.inr rfl), le_rfl, (sub_zero 1).symm, by simp⟩
  | succ count ih =>
    cases h : days[count]? with
    | none => rwa [hwalks.rest h]
    | some row => exact ((hwalks.day h).onlyReduces ih).1

/-- From day to day the exposure and the target go down. -/
theorem anti (count : ℕ) : (states (count + 1)).exposure ≤ (states count).exposure ∧
    (states (count + 1)).target ≤ (states count).target := by
  cases h : days[count]? with
  | none => rw [hwalks.rest h]; exact ⟨le_rfl, le_rfl⟩
  | some row => exact ((hwalks.day h).onlyReduces (hwalks.onlyReduces count)).2

/-- The cash of a path is what was distributed on its exposure and what its sales brought. -/
theorem cash (count : ℕ) :
    (states count).cash =
        ∑ index ∈ Finset.range count, distributionOn quantity states days index +
          ((states count).trades.map (·.netProceeds)).sum ∧
      (states count).paid = ((states count).trades.map (·.costs)).sum := by
  induction count with
  | zero =>
    obtain ⟨_, _, hstart⟩ := hwalks.start
    simp [hstart]
  | succ count ih =>
    obtain ⟨hcash, hpaid⟩ := ih
    rw [Finset.sum_range_succ]
    cases h : days[count]? with
    | none =>
      rw [hwalks.rest h, distributionOn, h, Option.elim_none, add_zero]
      exact ⟨hcash, hpaid⟩
    | some row =>
      have hday := hwalks.day h
      rw [hday.cash, hday.paid, hday.trades, List.map_append, List.map_append, List.sum_append,
        List.sum_append, hcash, hpaid, distributionOn, h, Option.elim_some]
      exact ⟨by ring, rfl⟩

/-- Nothing is sold on a day on which nothing can be sold. -/
theorem trades_of_unsellable (h : days[count]? = some row) (hblocked : row.sellable = false) :
    (states (count + 1)).trades = (states count).trades := by
  rw [(hwalks.day h).trades]
  rcases dayTrades_cases quantity _ row with ⟨-, hnone⟩ | ⟨-, -, hsellable, -⟩
  · rw [hnone, List.append_nil]
  · rw [hblocked] at hsellable
    exact nomatch hsellable

end Walks

theorem onlyReduces_runDays (days : List ExitSession) :
    OnlyReduces (runDays .exact policy quantity wealth forecasts name entryAt days) := by
  have hreduces :=
    (walks_stateAfter policy quantity wealth forecasts name entryAt days).onlyReduces days.length
  rwa [stateAfter, List.take_length] at hreduces

theorem wealths_stateAfter (h : days[count]? = some row) :
    (runDays .exact policy quantity wealth forecasts name entryAt days).wealths[count]? = some
      ((stateAfter policy quantity wealth forecasts name entryAt days (count + 1)).cash +
        residualValue quantity row
          (stateAfter policy quantity wealth forecasts name entryAt days (count + 1)).exposure -
        liquidationCost quantity row
          (stateAfter policy quantity wealth forecasts name entryAt days
            (count + 1)).exposure) := by
  obtain ⟨hcount, -⟩ := List.getElem?_eq_some_iff.mp h
  have hlength (n : ℕ) (hn : n ≤ days.length) :
      (stateAfter policy quantity wealth forecasts name entryAt days n).wealths.length = n := by
    rw [stateAfter, length_wealths, List.length_take, min_eq_left hn]
  have htake := wealths_append .exact policy quantity wealth forecasts name entryAt
    (days.take (count + 1)) (days.drop (count + 1))
  rw [List.take_append_drop, List.length_take, min_eq_left (Nat.succ_le_of_lt hcount)] at htake
  have hday := (walks_stateAfter policy quantity wealth forecasts name entryAt days).day h
  rw [← List.getElem?_take_of_lt (Nat.lt_succ_self count), htake]
  refine (congrArg (·[count]?) hday.wealths).trans ?_
  rw [List.getElem?_append_right (hlength count hcount.le).le, hlength count hcount.le,
    Nat.sub_self]
  rfl

/-- A sale is for the price of a session in which the quantity can be sold. -/
def SoldIn (quantity : ℚ) (days : List ExitSession) (trade : StandardExitTrade) : Prop :=
  ∃ row ∈ days, row.sellable ∧ row.closedAt = trade.executedAt ∧ trade.price = row.vwap ∧
    trade.costs = row.costs.charge .exact
      (quantity * row.quantityMultiplier * trade.exposureSold * row.vwap) ∧
    trade.netProceeds + trade.costs =
      quantity * row.quantityMultiplier * trade.exposureSold * row.vwap

theorem soldIn_runDays {trade : StandardExitTrade}
    (h : trade ∈ (runDays .exact policy quantity wealth forecasts name entryAt days).trades) :
    SoldIn quantity days trade := by
  obtain ⟨later, hlog, hlater⟩ := (@appends_trades .exact policy quantity wealth forecasts
    name).foldl { peak := wealth, marketPeak := wealth, tradeSignal := entryAt } days
  rw [runDays, hlog, List.nil_append] at h
  obtain ⟨s, row, hrow, htrade⟩ := hlater trade h
  rcases dayTrades_cases quantity s row with ⟨-, hnone⟩ | ⟨-, -, hsellable, hsale⟩
  · rw [hnone] at htrade
    exact nomatch htrade
  · rw [hsale] at htrade
    obtain rfl := List.mem_singleton.mp htrade
    refine ⟨row, hrow, hsellable, rfl, rfl, ?_, ?_⟩
    · simp only [pendingTrade, DecimalContext.exact_mul]
    · simp only [pendingTrade, DecimalContext.exact_mul, DecimalContext.exact_sub]
      ring

end Paths

/-- A path over some days conserves wealth, and only reduces its exposure. -/
structure ConservesWealth (quantity initial : ℚ) (days : List ExitSession)
    (states : ℕ → ExitPathState) (path : ExitPolicyPath) : Prop where
  current : path.currentExposure = (states days.length).exposure ∧
    path.pendingTarget = (states days.length).target ∧ path.trades = (states days.length).trades
  exposure_mem : ∀ count, 0 ≤ (states count).exposure ∧ (states count).exposure ≤ 1
  exposure_eq : ∀ count, (states count).exposure =
    1 - ((states count).trades.map (·.exposureSold)).sum
  exposure_anti : ∀ count, (states (count + 1)).exposure ≤ (states count).exposure
  target_anti : ∀ count, (states (count + 1)).target ≤ (states count).target
  target_le : ∀ count, (states count).target ≤ (states count).exposure
  unsellable : ∀ (count : ℕ) row, days[count]? = some row → row.sellable = false →
    (states (count + 1)).trades = (states count).trades
  trades_length : path.trades.length ≤ 2
  trades_soldIn : ∀ trade ∈ path.trades, SoldIn quantity days trade
  cash : ∀ count, (states count).cash =
    ∑ index ∈ Finset.range count, distributionOn quantity states days index +
      ((states count).trades.map (·.netProceeds)).sum
  paid : ∀ count, (states count).paid = ((states count).trades.map (·.costs)).sum
  /-- Wealth and costs are what was distributed, what was sold and what is left, before costs. -/
  wealth : ∀ (count : ℕ) row, days[count]? = some row → ∃ marked,
    path.dailyWealth[count]? = some marked ∧
      marked + ((states (count + 1)).paid +
          liquidationCost quantity row (states (count + 1)).exposure) =
        ∑ index ∈ Finset.range (count + 1), distributionOn quantity states days index +
          ((states (count + 1)).trades.map fun trade => trade.netProceeds + trade.costs).sum +
          residualValue quantity row (states (count + 1)).exposure
  returns : ∀ net ∈ path.netTotalReturn, ∃ gross ∈ path.grossTotalReturn,
    gross - net = path.exitCost / initial

/-- The values that `_values` keeps of the sales of a position. -/
def monotoneActions (result : ExitPositionResult) (state : Option ExitMarketState) : List ℚ :=
  if state = none ∨ (result.decisions.head?.map (·.state)) = state then
    match Dict.get? result.policies .primary with
    | none => []
    | some primary =>
      if primary.netTotalReturn ≠ none ∧ result.state = .evaluable then
        [if primary.trades.length ≤ 2 ∧ primary.turnover ≤ 1 ∧
          primary.currentExposure ∈ [0, 1 / 2, 1] then 1 else 0]
      else []
  else []

section Positions

variable {position : StandardExitPosition} {policy : ExitPolicy} {quantity : ℚ}
  {cutoff : Instant} {forecasts : Dict Instant ExitForecast} {days : List ExitSession}

variable (position policy quantity cutoff forecasts days) in
/-- Every policy path conserves wealth from the opening balance on. -/
theorem conservesWealth_policyPath (name : ExitPolicyName) :
    ConservesWealth quantity (initialWealth .exact position quantity) days
      (stateAfter policy quantity (initialWealth .exact position quantity) forecasts name
        position.entryAt days)
      (policyPath .exact position policy quantity cutoff forecasts days name) := by
  set states := stateAfter policy quantity (initialWealth .exact position quantity) forecasts name
    position.entryAt days with hstates
  have hwalks : Walks quantity days states := walks_stateAfter ..
  have hfinal : states days.length =
      pathState .exact position policy quantity forecasts name days := by
    rw [hstates, stateAfter, List.take_length, pathState]
  refine ⟨?_, fun count => (hwalks.onlyReduces count).exposure.mem,
    fun count => (hwalks.onlyReduces count).sold, fun count => (hwalks.anti count).1,
    fun count => (hwalks.anti count).2, fun count => (hwalks.onlyReduces count).target_le,
    fun count row h => hwalks.trades_of_unsellable h, ?_, ?_, fun count => (hwalks.cash count).1,
    fun count => (hwalks.cash count).2, ?_, ?_⟩
  · rw [hfinal]
    exact ⟨rfl, rfl, rfl⟩
  · have hcount := (hwalks.onlyReduces days.length).count
    have hmem := (hwalks.onlyReduces days.length).exposure.mem
    have hle : ((states days.length).trades.length : ℚ) ≤ 2 := by linarith
    rw [hfinal] at hle
    exact_mod_cast hle
  · intro trade htrade
    exact soldIn_runDays htrade
  · intro count row h
    refine ⟨_, wealths_stateAfter h, ?_⟩
    obtain ⟨hcash, hpaid⟩ := hwalks.cash (count + 1)
    rw [hcash, hpaid, List.sum_map_add]
    ring
  · intro net hnet
    unfold policyPath at hnet ⊢
    dsimp only at hnet ⊢
    split at hnet
    · rename_i hknown
      obtain rfl := Option.mem_some.mp hnet
      rw [if_pos hknown, if_pos hknown]
      refine ⟨_, rfl, ?_⟩
      simp only [DecimalContext.exact_add, DecimalContext.exact_sub, DecimalContext.exact_div]
      ring
    · exact absurd hnet (Option.not_mem_none net)

/-- A path that conserves wealth sells at most everything, in at most two sales. -/
theorem monotoneActions_eq_one {result : ExitPositionResult} {primary : ExitPolicyPath}
    {initial : ℚ} {states : ℕ → ExitPathState}
    (hprimary : Dict.get? result.policies .primary = some primary)
    (hconserves : ConservesWealth quantity initial days states primary)
    (hturnover : primary.turnover = (primary.trades.map (·.exposureSold)).sum)
    (htarget : IsTarget primary.currentExposure) (state : Option ExitMarketState) :
    ∀ value ∈ monotoneActions result state, value = 1 := by
  intro value hvalue
  unfold monotoneActions at hvalue
  split at hvalue
  · rw [hprimary] at hvalue
    dsimp only at hvalue
    split at hvalue
    · rw [List.mem_singleton.mp hvalue]
      refine if_pos ⟨hconserves.trades_length, ?_, ?_⟩
      · have hsold := hconserves.exposure_eq days.length
        have hmem := (hconserves.exposure_mem days.length).1
        rw [hturnover, hconserves.current.2.2]
        linarith
      · rcases htarget with h | h | h <;> simp [h]
    · exact absurd hvalue List.not_mem_nil
  · exact absurd hvalue List.not_mem_nil

/-- **Exit paths conserve wealth and only reduce.** In exact arithmetic every path of an accepted
observation conserves wealth, and the sales of every evaluable position pass the gate of monotone
actions. -/
theorem evaluateExit_conservesWealth {calendars : String → Option OrderedCalendar}
    {observation : ExitObservation} {frozenForecasts : List ExitForecast}
    {result : ExitPositionResult}
    (h : evaluateExit .exact calendars position policy quantity cutoff (some observation)
      frozenForecasts = .ok result) : let days := policyRows position cutoff observation.sessions
    let initial := initialWealth .exact position quantity
    (∀ name, ∃ path, Dict.get? result.policies name = some path ∧
      path.dates = days.map (·.closedAt) ∧ ConservesWealth quantity initial days
        (stateAfter policy quantity initial
          (forecastsByCutoff (retainedForecasts frozenForecasts observation)) name
          position.entryAt days) path) ∧
    (∀ state, ∀ value ∈ monotoneActions result state, value = 1) ∧
    (result.state = .evaluable → monotoneActions result none = [1]) := by
  obtain ⟨-, calendar, rfl⟩ := observed_of_evaluateExit h
  set forecasts := forecastsByCutoff (retainedForecasts frozenForecasts observation)
  set days := policyRows position cutoff observation.sessions
  set primary := policyPath .exact position policy quantity cutoff forecasts days .primary
  have hconserves := conservesWealth_policyPath position policy quantity cutoff forecasts days
  have hprimary : Dict.get? (observedResult .exact position policy quantity cutoff calendar
      observation (retainedForecasts frozenForecasts observation)).policies .primary =
        some primary := get?_policies_observedResult .primary
  have hactions (state : Option ExitMarketState) := monotoneActions_eq_one hprimary
    (hconserves .primary) (DecimalContext.exact_sum _) (onlyReduces_runDays _).exposure state
  refine ⟨fun name => ⟨_, get?_policies_observedResult name, rfl, hconserves name⟩, hactions,
    fun hstate => ?_⟩
  have hknown : primary.netTotalReturn ≠ none := by
    intro hnone
    change exitState position cutoff primary _ = _ at hstate
    unfold exitState at hstate
    split at hstate
    · cases hstate
    · rw [if_neg (fun h => h.1 hnone)] at hstate
      cases hstate
  have hone := hactions none
  unfold monotoneActions at hone ⊢
  rw [if_pos (.inl rfl), get?_policies_observedResult] at hone ⊢
  dsimp only at hone ⊢
  rw [if_pos ⟨hknown, hstate⟩] at hone ⊢
  exact congrArg (fun value => [value]) (hone _ (List.mem_singleton_self _))

end Positions

namespace SampleExits

def charges : ExitCostCurve := ⟨1 / 1000, 5, 0, 1 / 2000, 0⟩

def chargedPolicy : ExitPolicy := { policy with costCurve := charges }

/-- The exit waits for a session in which something can be sold, while shares are added to the
holding and cash is distributed on it. -/
def eventful : ExitObservation :=
  { observation 8 with
    sessions := [{ row 0 10 with costs := charges }, { row 1 9 with costs := charges },
      { row 2 8 with
        sellable := false
        blockedReason := some .suspended
        quantityMultiplier := 11 / 10
        cashPerInitialShare := 1 / 2
        costs := charges
        sellable_iff := by decide },
      { row 3 8 with
        quantityMultiplier := 11 / 10
        costs := charges }] }

def exactResult : ExitPositionResult :=
  observedResult .exact position chargedPolicy 100 (session 3).closedAt calendar.toStandardCalendar
    eventful [forecast]

theorem exactEvaluation_spec :
    evaluateExit .exact (fun _ => some calendar) position chargedPolicy 100 (session 3).closedAt
      (some eventful) [] = .ok exactResult ∧
    (Dict.get? exactResult.policies .primary).map (·.trades.map fun trade =>
      (trade.executedAt, trade.costs)) = some [((session 3).closedAt, 136 / 25)] := by
  decide +kernel

/-- The paths of the sample conserve wealth, and its sales are monotone. -/
theorem evaluateExit_conservesWealth_sample :
    (∀ name, ∃ path, Dict.get? exactResult.policies name = some path ∧
      path.dates = (policyRows position (session 3).closedAt eventful.sessions).map
        (·.closedAt) ∧
      ConservesWealth 100 (initialWealth .exact position 100)
        (policyRows position (session 3).closedAt eventful.sessions)
        (stateAfter chargedPolicy 100 (initialWealth .exact position 100)
          (forecastsByCutoff (retainedForecasts [] eventful)) name position.entryAt
          (policyRows position (session 3).closedAt eventful.sessions)) path) ∧
    (∀ state, ∀ value ∈ monotoneActions exactResult state, value = 1) ∧
    (exactResult.state = .evaluable → monotoneActions exactResult none = [1]) :=
  evaluateExit_conservesWealth exactEvaluation_spec.1

end SampleExits

end StockProfiler.Evaluation
