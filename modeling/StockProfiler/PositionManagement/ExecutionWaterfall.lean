import StockProfiler.Portfolio.Drawdown
import StockProfiler.Portfolio.Liquidity
import StockProfiler.Portfolio.Stress
import StockProfiler.PositionManagement.ExecutionRouting

/-!
# Execution waterfall

The established targets are met first. What gap they leave in the stress, the cash or the
exposure is then met by the least fraction of everything that remains sellable.
-/

namespace StockProfiler.PositionManagement

open Portfolio

/-- The risk results that a plan has to meet together. -/
structure RiskResults where
  snapshot : ReconciledPositionSnapshot
  stress : PortfolioStressOutcome
  liquidity : LiquidityOutcome
  drawdown : DrawdownState
  liquidityCommand : LiquidityCommand

namespace RiskResults

variable (ctx : DecimalContext) (steps : ℕ) (handoff : RiskResults)

/-- The value of all holdings whose quantity and price are known. -/
def stockValue : ℚ :=
  ctx.sum (handoff.snapshot.actionUnits.filterMap fun unit => do
    let quantity ← unit.totalQuantity
    let price ← unit.marketPrice
    return ctx.mul quantity price)

/-- The stress obligation, while it is outstanding. -/
def activeStress : Option StressObligation :=
  handoff.stress.obligation.filter (·.status = .outstanding)

/-- What receipts paid of each obligation. -/
def paidAmount (obligationId : String) : ℚ :=
  ctx.sum
    ((handoff.liquidity.settledCoverage.filter (·.obligationId = obligationId)).map (·.amount))

/-- What is left of an obligation. -/
def unpaidObligation (obligation : DatedCashObligation) : Option DatedCashObligation :=
  if h : handoff.paidAmount ctx obligation.obligationId < obligation.amount then
    some { obligation with
      amount := ctx.sub obligation.amount (handoff.paidAmount ctx obligation.obligationId)
      amount_pos := ctx.sub_pos_iff.mpr h }
  else none

/-- The obligations that are not paid, when an authorization lists them. -/
def unpaidObligations : Option (List DatedCashObligation) := do
  let authorization ← handoff.liquidity.protectionAuthorization
  let usage ← authorization.usage
  return usage.unfinishedCashObligations.filterMap (handoff.unpaidObligation ctx)

/-- The cash of an account after the sales in it that cost more than they bring. -/
def accountResource (legs : List ExecutionLeg) (cash : AccountCashState) :
    AvailableCashResource where
  accountId := cash.accountId
  availableAt := handoff.snapshot.cutoffAt
  amount := max 0 (ctx.add (cash.transferableCash.getD 0)
    (ctx.sum ((legs.filter (·.accountId = cash.accountId)).map fun leg => min 0 leg.netProceeds)))
  amount_nonneg := le_max_left _ _

/-- The cash of a sale that brings any. -/
def saleResource (leg : ExecutionLeg) : Option AvailableCashResource :=
  if h : 0 < leg.netProceeds then
    some { accountId := leg.accountId
           availableAt := leg.route.transferableAt
           amount := leg.netProceeds
           amount_nonneg := le_of_lt h }
  else none

/-- What sales leave uncovered of the dated obligations. -/
def fundingGap (obligations : List DatedCashObligation) (legs : List ExecutionLeg) : Option ℚ := do
  let resources := handoff.snapshot.cashStates.map (handoff.accountResource ctx legs) ++
    legs.filterMap saleResource
  let funding ← assessAvailableCash ctx steps resources handoff.liquidityCommand.transferRoutes
    obligations
  return ctx.sum (funding.map (·.uncoveredGap))

/-- The gap that sales leave in the stress obligation. -/
def stressGap (sold : ℚ) : Option ℚ :=
  match handoff.activeStress with
  | none => some 0
  | some obligation => do
    let policy ← handoff.stress.calculationPolicy
    let equity ← handoff.stress.netLiquidationEquity
    return max 0 (ctx.sub
      (ctx.mul (ctx.sub (handoff.stockValue ctx) sold)
        (ctx.add policy.shockRatio policy.disposalFrictionRatio))
      (ctx.mul obligation.targetStressRatio equity))

/-- The gap that sales leave in the stock exposure. -/
def exposureGap (sold : ℚ) : ℚ :=
  match handoff.drawdown.stockExposureTargetValue with
  | none => 0
  | some target => max 0 (ctx.sub (ctx.sub (handoff.stockValue ctx) sold) target)

/-- The identities that ask for more sales than the established targets do. -/
def remediationIds : List String :=
  (handoff.activeStress.map (·.obligationId)).toList ++
    (handoff.liquidity.remediationId.filter (· ≠ "")).toList ++
    if handoff.drawdown.riskDirection.isSome then [handoff.drawdown.decisionId] else []

end RiskResults

section Waterfall

variable (ctx : DecimalContext) (steps : ℕ) (command : ExecutionPlanCommand)
  (handoff : RiskResults) (obligations : List DatedCashObligation)

/-- The plan with the gaps that its sales leave. -/
def projectPlan (initialValue : ℚ) (plan : ExecutionPlanOutcome) : Option ExecutionPlanOutcome := do
  let sold := ctx.sum (plan.legs.map (·.grossProceeds))
  let netCash := ctx.sum (plan.legs.map (·.netProceeds))
  let stressGap ← handoff.stressGap ctx sold
  let deadlineGap ← handoff.fundingGap ctx steps obligations plan.legs
  let required := handoff.liquidity.remediationShortfall.getD 0
  return { plan with
    initialTargetSaleValue := some initialValue
    projectedStressGap := some stressGap
    projectedCashGap := some (max (max 0 (ctx.sub required netCash)) deadlineGap)
    projectedExposureGap := some (handoff.exposureGap ctx sold) }

variable (plan : ExecutionPlanOutcome)

/-- No gap is left. -/
def ExecutionPlanOutcome.restored : Bool :=
  plan.projectedStressGap = plan.projectedCashGap ∧
    plan.projectedCashGap = plan.projectedExposureGap ∧ plan.projectedExposureGap = some 0

/-- Two plans leave the same gaps. -/
def ExecutionPlanOutcome.sameGaps (other : ExecutionPlanOutcome) : Bool :=
  plan.projectedStressGap = other.projectedStressGap ∧
    plan.projectedCashGap = other.projectedCashGap ∧
    plan.projectedExposureGap = other.projectedExposureGap

/-- The routing itself failed, not only what it could sell. -/
def ExecutionPlanOutcome.routingFailed : Bool :=
  plan.reasons ≠ [] ∧ plan.reasons ≠ ["RISK_REMEDIATION_BLOCKED"] ∧
    "TRADING_UNIT_FULL_SALE" ∉ plan.reasons

/-- The plan of targets with the gaps that it leaves. -/
def projectedRoute (initialValue : ℚ) (targets : List ExecutionTarget) :
    Option ExecutionPlanOutcome := do
  let plan ← routeTargets ctx command handoff.snapshot targets
    (if obligations ≠ [] then some (handoff.fundingGap ctx steps obligations) else none)
  projectPlan ctx steps handoff obligations initialValue plan

/-- A target that also answers the remediations. -/
def remediated (ids : List String) (target : ExecutionTarget) : ExecutionTarget :=
  { target with
    sourceObligationIds := (target.sourceObligationIds ++ ids).eraseDups
    direction := if ids ≠ [] ∧ target.direction = .hold then .reduce else target.direction }

/-- The plan of the established targets, with what it leaves open. -/
def initialPlan (targets : List ExecutionTarget) : Option ExecutionPlanOutcome := do
  let routed ← routeTargets ctx command handoff.snapshot targets
    (if obligations ≠ [] then some (handoff.fundingGap ctx steps obligations) else none)
  let value := ctx.sum (routed.legs.map (·.grossProceeds))
  let plan ← projectPlan ctx steps handoff obligations value routed
  return { plan with
    newExposureBlocked := plan.newExposureBlocked || handoff.stress.newExposureBlocked ||
      handoff.liquidity.newExposureBlocked || handoff.drawdown.newExposureBlocked
    targets := plan.targets.map (remediated handoff.remediationIds) }

/-- The units of a security. -/
def securityUnits (securityId : String) : List PositionActionUnit :=
  handoff.snapshot.actionUnits.filter (·.securityId = securityId)

/-- The holdings of a security. -/
def currentQuantity (securityId : String) : ℚ :=
  ctx.sum ((securityUnits handoff securityId).map fun unit => unit.totalQuantity.getD 0)

/-- What may still be sold of a security after sales. -/
def remainingSellable (legs : List ExecutionLeg) (securityId : String) : ℚ :=
  ((legs.filter (·.securityId = securityId)).map (·.quantity)).foldl ctx.sub
    (ctx.sum ((securityUnits handoff securityId).map sellableQuantity))

/-- A target that also sells a fraction of what remains sellable. -/
def tightened (legs : List ExecutionLeg) (fraction : ℚ) (target : ExecutionTarget) :
    Option ExecutionTarget := do
  let remaining ← target.remainingQuantity
  let cap := if target.roundingInducedFullSale then target.targetQuantity
    else min target.targetQuantity (ctx.sub remaining
      (ctx.mul fraction (remainingSellable ctx handoff legs target.securityId)))
  return { target with
    targetQuantity := cap
    requiredSaleQuantity :=
      some (max 0 (ctx.sub (currentQuantity ctx handoff target.securityId) cap))
    sourceObligationIds := (target.sourceObligationIds ++ handoff.remediationIds).eraseDups
    direction := if target.direction = .exit then .exit else .reduce }

/-- The plan that sells a fraction of what the initial plan leaves sellable. -/
def allocateFraction (initial : ExecutionPlanOutcome) (fraction : ℚ) :
    Option ExecutionPlanOutcome := do
  let targets ← initial.targets.mapM (tightened ctx handoff initial.legs fraction)
  projectedRoute ctx steps command handoff obligations (initial.initialTargetSaleValue.getD 0)
    targets

/-- Halve an interval of fractions, keeping the last plan that leaves no gap. -/
def bisectPlan (allocate : ℚ → Option ExecutionPlanOutcome) :
    ℕ → ℚ → ℚ → ExecutionPlanOutcome → Option ExecutionPlanOutcome
  | 0, _, _, best => some best
  | n + 1, low, high, best => do
    let middle := ctx.div (ctx.add low high) 2
    let candidate ← allocate middle
    if candidate.restored then bisectPlan allocate n low middle candidate
    else bisectPlan allocate n middle high best

/-- The plan when selling everything still leaves a gap. -/
def unrestoredPlan (initial maximum : ExecutionPlanOutcome) : ExecutionPlanOutcome :=
  let plan := if maximum.sameGaps initial then initial else maximum
  { plan with
    disposition := .blocked
    reasons := (plan.reasons ++ ["RISK_REMEDIATION_BLOCKED"]).eraseDups }

/-- The plan that meets the targets and every remediation as far as it can. -/
def conjoinPortfolioTargets (targets : List ExecutionTarget) : Option ExecutionPlanOutcome := do
  let obligations ← handoff.unpaidObligations ctx
  let initial ← initialPlan ctx steps command handoff obligations targets
  if initial.routingFailed ∨ initial.restored then some initial
  else do
    guard (handoff.snapshot.actionUnits.all (·.totalQuantity.isSome))
    let allocate := allocateFraction ctx steps command handoff obligations initial
    let maximum ← allocate 1
    -- Every candidate is legally rounded and rechecked; an unverified midpoint is never returned.
    if maximum.restored then bisectPlan ctx allocate 64 0 1 maximum
    else some (unrestoredPlan initial maximum)

end Waterfall

end StockProfiler.PositionManagement
