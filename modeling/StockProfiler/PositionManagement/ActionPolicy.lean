import StockProfiler.PositionManagement.ActionContracts
import StockProfiler.PositionManagement.ExecutionRouting

/-!
# Action policy

Directional classification from guarded forecast bounds, and the qualification of
account costs against the frozen budget of an exit program.
-/

namespace StockProfiler.PositionManagement

/-- The direction of a forecast, and whether it is missing for lack of evidence. -/
structure StatisticalActionAssessment where
  direction : Option TargetDirection
  evidenceMissing : Bool

/-- The bounds of a probability, where both are guarded. -/
def GuardedExitProbability.bounds (p : GuardedExitProbability) : Option (ℚ × ℚ) := do
  let lower ← p.guardedLower
  let upper ← p.guardedUpper
  return (lower, upper)

/-- Classify guarded bounds; what the bands leave open has no direction. -/
def assessStatisticalAction (policy : PositionActionPolicy)
    (probabilities : List GuardedExitProbability) (grid : RiskGrid) :
    StatisticalActionAssessment :=
  let down := probabilities.find? fun p => p.target = .d20 ∧ p.lossBoundary = some grid.text
  let value := probabilities.find? (·.target = .v60)
  match value.bind (·.bounds) with
  | none => ⟨none, true⟩
  | some (valueLower, valueUpper) =>
    if valueUpper ≤ policy.valueDeniedUpper then ⟨some .exit, false⟩
    else match down.bind (·.bounds) with
      | none => ⟨none, true⟩
      | some (downLower, downUpper) =>
        if policy.downsideRiskyLower ≤ downLower then ⟨some .reduce, false⟩
        else if downUpper ≤ policy.downsideSafeUpper ∧ policy.valueEstablishedLower ≤
          valueLower then
          ⟨some .hold, false⟩
        else ⟨none, false⟩

/-- Whether the costs of a plan are known, and whether they are within the budget. -/
structure ActionCostAssessment where
  evidenceFailed : Bool
  outsideEnvelope : Bool

section Costs

variable (ctx : DecimalContext) (command : PositionActionCommand)
  (position : PositionReconciliationOutcome)

/-- The units of the security of an action. -/
def actionUnits : List PositionActionUnit :=
  position.snapshot.actionUnits.filter (·.securityId = command.securityId)

/-- The quantity that units hold together. -/
def unitsQuantity (units : List PositionActionUnit) : ℚ :=
  ctx.sum (units.map fun unit => unit.totalQuantity.getD 0)

/-- The value that units hold together. -/
def unitsMarketValue (units : List PositionActionUnit) : ℚ :=
  ctx.sum (units.map fun unit => ctx.mul (unit.totalQuantity.getD 0) (unit.marketPrice.getD 0))

/-- The route of a unit. -/
def unitRoute (unit : PositionActionUnit) : Option ExecutionRoute :=
  (routesByKey command.execution.routes).get? (unit.accountId, unit.securityId)

/-- The verified cost curve of a unit. -/
def unitCurve (unit : PositionActionUnit) : Option DisposalCostCurve :=
  ((unitRoute command unit).bind (·.costCurve)).filter fun curve =>
    curve.evidence.problemCodes command.cutoffAt true = []

/-- The ratio of all costs of a curve. -/
def DisposalCostCurve.rate (curve : DisposalCostCurve) : ℚ :=
  ctx.add (ctx.add (ctx.add (ctx.add (ctx.add curve.commissionRatio curve.tradingFeeRatio)
    curve.settlementFeeRatio) curve.taxRatio) curve.slippageRatio) curve.marketImpactRatio

/-- A curve costs more than the policy allows. -/
def PositionActionPolicy.excludes (policy : PositionActionPolicy) (curve : DisposalCostCurve) :
    Bool :=
  policy.maximumCostRatio < curve.rate ctx ∨
    policy.maximumMinimumCommission < curve.minimumCommission ∨
    curve.dividendLots.any (policy.maximumDividendTaxPerShare < ·.taxPerShare)

/-- The fees that were paid for the security after the anchor. -/
def accruedCost (costAnchor : Option StatisticalReductionAnchor) : ℚ :=
  ctx.sum ((position.snapshot.authoritativeLedger.filter fun entry =>
    entry.securityId = some command.securityId ∧ entry.entryType = .fee ∧
      costAnchor.any (·.frozenAt < entry.occurredAt)).map fun entry => ctx.neg entry.cashDelta)

/-- The legal quantity of a unit that covers an amount. -/
def boundedQuantity (route : ExecutionRoute) (total amount : ℚ) : ℚ :=
  if amount = 0 then amount
  else
    let increments : ℤ :=
      ⌈ctx.div (max 0 (ctx.sub amount route.minimumQuantity)) route.quantityIncrement⌉
    min total (ctx.add route.minimumQuantity (ctx.mul increments route.quantityIncrement))

/-- The cost of the share of a unit in a sale. -/
def unitCostBound (required quantity : ℚ) (unit : PositionActionUnit) : Option ℚ := do
  let route ← unitRoute command unit
  let curve ← route.costCurve
  let total ← unit.totalQuantity
  let amount := ctx.div (ctx.mul required total) quantity
  return curve.cost ctx (boundedQuantity ctx route total amount) (unit.marketPrice.getD 0)

variable (plan : ExecutionPlanOutcome)

/-- The quantity that a plan allows of a security, if it names the security. -/
def conjoinedTarget : Option ℚ :=
  (plan.targets.find? (·.securityId = command.securityId)).map (·.targetQuantity)

/-- The cost of the sales of a plan. A blocked route is not a zero-cost forecast: the full
remaining sale is bounded by legal quantities. -/
def plannedCost (costFailure : Bool) : Option ℚ :=
  let units := actionUnits command position
  let quantity := unitsQuantity ctx units
  let legs := ctx.sum ((plan.legs.filter (·.securityId = command.securityId)).map (·.disposalCost))
  match conjoinedTarget command plan with
  | none => some legs
  | some target =>
    if plan.disposition = .blocked ∧ 0 < quantity ∧ costFailure = false then do
      let bounds ← units.mapM (unitCostBound ctx command (max 0 (ctx.sub quantity target)) quantity)
      return max legs (ctx.sum bounds)
    else some legs

/-- Qualify the costs of a plan against the budget of its exit program. -/
def assessActionCosts (costAnchor : Option StatisticalReductionAnchor) (firstExitSeen : Bool) :
    Option ActionCostAssessment := do
  let units := actionUnits command position
  let costFailure := (firstExitSeen && costAnchor.isNone) ||
    units.any fun unit => (unitCurve command unit).isNone
  let excluded := (units.filterMap (unitCurve command)).any (command.policy.excludes ctx ·)
  let planned ← plannedCost ctx command position plan costFailure
  let basis := (costAnchor.map (·.marketValue)).getD (unitsMarketValue ctx units)
  let outside := ctx.mul basis command.policy.lifecycleCostRatio <
    ctx.add (max 0 (accruedCost ctx command position costAnchor)) planned
  return ⟨costFailure, excluded || outside⟩

end Costs

end StockProfiler.PositionManagement
