import StockProfiler.DecisionCases.PositionEvents
import StockProfiler.PositionManagement.ActionPolicy
import StockProfiler.PositionManagement.ExecutionTargets

/-!
# Execution plans

Immutable scoped risk handoffs are resolved before a plan is formed. What earlier plans,
established targets and risk obligations ask for is retained whether or not they resolve.
-/

namespace StockProfiler.DecisionCases

open PositionManagement Portfolio

/-- Keep the smaller quantity and all sources of the targets of a security. -/
def retainTarget (retained : Dict String ExecutionTarget) (target : ExecutionTarget) :
    Dict String ExecutionTarget :=
  let prior := retained.get? target.securityId
  let quantity := prior.elim target.targetQuantity fun p =>
    min p.targetQuantity target.targetQuantity
  retained.set target.securityId
    { securityId := target.securityId
      targetQuantity := quantity
      requiredSaleQuantity := none
      sourceObligationIds :=
        (prior.elim [] (·.sourceObligationIds) ++ target.sourceObligationIds).eraseDups
      direction := directionOf quantity }

/-- The targets of earlier plans that say what asks for them. -/
def historicalTargets (history : List PlanFact) : List ExecutionTarget :=
  history.flatMap fun fact => fact.outcome.targets.filter (·.sourceObligationIds ≠ [])

/-- An established target on sound evidence. -/
def establishedTarget? (cutoffAt : Instant) (established : EstablishedQuantityTarget) :
    Option ExecutionTarget :=
  if established.qualified ∧ established.evidence.problemCodes cutoffAt true = [] then
    some { securityId := established.securityId
           targetQuantity := established.targetQuantity
           requiredSaleQuantity := none
           sourceObligationIds := [established.targetId]
           direction := established.direction }
  else none

/-- The caps of an issuer whose obligation is not resolved. -/
def issuerTargets (issuer : IssuerConcentration) : List ExecutionTarget :=
  match issuer.obligationId with
  | none => []
  | some obligationId =>
    if issuer.state = .resolved then []
    else issuer.targets.map fun cap =>
      { securityId := cap.securityId
        targetQuantity := cap.targetQuantity
        requiredSaleQuantity := none
        sourceObligationIds := [obligationId]
        direction := directionOf cap.targetQuantity }

section Plan

variable (ctx : DecimalContext) (steps : ℕ) (ledger : PositionLedger) (scope : ResultAccessScope)
  (command : ExecutionPlanCommand)

/-- A visible report of the same scope. -/
def scopedReport (eventId : String) : Option PositionEventFact :=
  (ledger.getFormalReportForEvent eventId).filter (·.case.accessScope.any (scope.sameScopeAs ·))

/-- The caps of the concentration that a command names. -/
def concentrationTargets : List ExecutionTarget :=
  match (scopedReport ledger scope command.concentrationEventId).bind (·.result.concentration) with
  | none => []
  | some concentration =>
    if concentration.portfolioId = command.portfolioId ∧
        concentration.cutoffAt = command.cutoffAt then
      concentration.issuers.flatMap issuerTargets
    else []

/-- The state of the drawdown that a command names. -/
def capitalState : Option DrawdownState :=
  (((scopedReport ledger scope command.drawdownEventId).bind (·.result.drawdown)).filter
    (·.disposition = .accepted)).bind (·.state)

/-- The exits of a portfolio whose capital is preserved. -/
def preservationTargets : List ExecutionTarget :=
  match capitalState ledger scope command with
  | none => []
  | some state =>
    if state.riskState = .preservation ∧ state.cutoffAt = command.cutoffAt ∧
        state.portfolioId = command.portfolioId ∧
        state.authorizationId = command.authorizationId then
      match ledger.positionEvidenceForDrawdown scope state.valuation.positionEventId
          command.cutoffAt with
      | none => []
      | some position => position.snapshot.actionUnits.map fun unit =>
        { securityId := unit.securityId
          targetQuantity := 0
          requiredSaleQuantity := none
          sourceObligationIds := [state.decisionId]
          direction := .exit }
    else []

/-- Everything that asks for a quantity, in order. -/
def askedTargets : List ExecutionTarget :=
  historicalTargets (ledger.executionPlanHistory scope command.portfolioId) ++
    command.establishedTargets.filterMap (establishedTarget? command.cutoffAt) ++
    concentrationTargets ledger scope command ++ preservationTargets ledger scope command

/-- The targets by security. -/
def retainedTargets : Dict String ExecutionTarget :=
  (askedTargets ledger scope command).foldl retainTarget []

/-- A plan that could not be formed. -/
def missingPlan (targets : List ExecutionTarget) (reason : String) : ExecutionPlanOutcome where
  disposition := .blocked
  reasons := [reason]
  newExposureBlocked := true
  targets := targets

/-- The first earlier plan that this one may not follow. -/
def planDenial : Option String :=
  (ledger.executionPlanHistory scope command.portfolioId).findSome? fun fact =>
    if ¬ ∀ id ∈ fact.scope.accountIds, id ∈ scope.accountIds then
      some "EXECUTION_HISTORY_SCOPE_INCOMPLETE"
    else if command.cutoffAt < fact.command.cutoffAt then some "EXECUTION_SNAPSHOT_NOT_FORWARD"
    else none

/-- The results that a plan rests on, with the position that they share. -/
structure PlanHandoff where
  position : PositionReconciliationOutcome
  concentration : ConcentrationOutcome
  risk : RiskResults

/-- The results describe one portfolio, authorization, cutoff and position. -/
def PlanHandoff.identified (handoff : PlanHandoff)
    (capitalPosition : Option PositionReconciliationOutcome) : Bool :=
  let stress := handoff.risk.stress
  let liquidity := handoff.risk.liquidity
  let state := handoff.risk.drawdown
  let snapshot := handoff.risk.snapshot
  let concentration := handoff.concentration
  concentration.portfolioId = command.portfolioId ∧ stress.portfolioId = command.portfolioId ∧
    state.portfolioId = command.portfolioId ∧
    stress.authorizationId = command.authorizationId ∧
    liquidity.authorizationId = command.authorizationId ∧
    state.authorizationId = command.authorizationId ∧
    concentration.cutoffAt = command.cutoffAt ∧ stress.cutoffAt = command.cutoffAt ∧
    state.cutoffAt = command.cutoffAt ∧ snapshot.cutoffAt = command.cutoffAt ∧
    concentration.snapshotId = snapshot.snapshotId ∧ stress.snapshotId = snapshot.snapshotId ∧
    liquidity.positionSnapshot = handoff.position ∧ capitalPosition = some handoff.position ∧
    concentration.riskBudgetVersionId = stress.riskBudgetVersionId

/-- The results that a command names, or why no plan can rest on them. -/
def resolveHandoff : Except String PlanHandoff := do
  let unavailable := "RISK_HANDOFF_UNAVAILABLE"
  let concentrationReport ←
    known (scopedReport ledger scope command.concentrationEventId) unavailable
  let stressReport ← known (scopedReport ledger scope command.stressEventId) unavailable
  let liquidityReport ← known (scopedReport ledger scope command.liquidityEventId) unavailable
  let drawdownReport ← known (scopedReport ledger scope command.drawdownEventId) unavailable
  let liquidityFact ←
    known (ledger.getOriginalDecisionEvent liquidityReport.case.businessObjectId) unavailable
  let liquidityCommand ← known liquidityFact.case.liquidity unavailable
  let concentration ← known concentrationReport.result.concentration unavailable
  let stress ← known stressReport.result.stress unavailable
  let liquidity ← known liquidityReport.result.liquidity unavailable
  let drawdown ← known drawdownReport.result.drawdown unavailable
  let position ← known concentrationReport.result.position unavailable
  let state ← known drawdown.state unavailable
  let handoff : PlanHandoff :=
    ⟨position, concentration, position.snapshot, stress, liquidity, state, liquidityCommand⟩
  require (handoff.identified command (ledger.positionEvidenceForDrawdown scope
    state.valuation.positionEventId command.cutoffAt)) "RISK_HANDOFF_IDENTITY_MISMATCH"
  require (concentration.disposition = .assessed ∧ stress.state ≠ .unknown ∧
    drawdown.disposition = .accepted ∧ liquidity.disposition ≠ .evidenceFailed)
    "RISK_HANDOFF_EVIDENCE_FAILED"
  return handoff

/-- A corporate action changed the quantity of a target after the plan that set it. -/
def quantityBasisUnresolved : Bool :=
  let entries := ledger.positionLedgerHistory scope command.cutoffAt
  (ledger.executionPlanHistory scope command.portfolioId).any fun fact =>
    entries.any fun entry =>
      entry.entryType = .corporateAction ∧ entry.quantityDelta ≠ 0 ∧
        fact.command.cutoffAt < entry.occurredAt ∧ entry.occurredAt ≤ command.cutoffAt ∧
        entry.securityId ∈ fact.outcome.targets.map fun target => some target.securityId

/-- The target of a holding. -/
def plannedTarget (retained : Dict String ExecutionTarget) (units : List PositionActionUnit)
    (securityId : String) : ExecutionTarget :=
  let quantity := unitsQuantity ctx (units.filter (·.securityId = securityId))
  let prior := retained.get? securityId
  let cap := prior.elim quantity fun target => min quantity target.targetQuantity
  { securityId
    targetQuantity := cap
    requiredSaleQuantity := some (max 0 (ctx.sub quantity cap))
    sourceObligationIds := prior.elim [] (·.sourceObligationIds)
    direction := if cap = 0 then .exit else if cap < quantity then .reduce else .hold }

/-- The targets of all holdings, or why they are unknown. -/
def plannedTargets (retained : Dict String ExecutionTarget) (units : List PositionActionUnit) :
    Except String (List ExecutionTarget) := do
  require (units.all (·.totalQuantity.isSome)) "POSITION_QUANTITY_UNKNOWN"
  require (∀ securityId ∈ retained.keys, securityId ∈ units.map (·.securityId))
    "TARGET_SCOPE_INVALID"
  require (quantityBasisUnresolved ledger scope command = false)
    "EXECUTION_QUANTITY_BASIS_UNRESOLVED"
  return (sortedSet (units.map (·.securityId))).map (plannedTarget ctx retained units)

/-- The handoff of a plan and its targets, or why it cannot be formed. -/
def resolvePlan : Except String (PlanHandoff × List ExecutionTarget) := do
  let handoff ← resolveHandoff ledger scope command
  let targets ← plannedTargets ctx ledger scope command (retainedTargets ledger scope command)
    handoff.risk.snapshot.actionUnits
  return (handoff, targets)

/-- A plan blocks new exposure when any of the results it rests on does. -/
def PlanHandoff.widen (handoff : PlanHandoff) (plan : ExecutionPlanOutcome) :
    ExecutionPlanOutcome :=
  { plan with
    newExposureBlocked := plan.newExposureBlocked || handoff.risk.drawdown.newExposureBlocked ||
      handoff.risk.stress.newExposureBlocked || handoff.risk.liquidity.newExposureBlocked ||
      handoff.concentration.issuers.any (·.newExposureBlocked) }

/-- Retain what was asked for and plan its execution. -/
def adjudicateExecutionPlan : Option ExecutionPlanOutcome :=
  match planDenial ledger scope command with
  | some reason => some (missingPlan [] reason)
  | none =>
    match resolvePlan ctx ledger scope command with
    | .error reason =>
      let retained := retainedTargets ledger scope command
      some (missingPlan ((sortedSet retained.keys).filterMap retained.get?) reason)
    | .ok (handoff, targets) =>
      (conjoinPortfolioTargets ctx steps command handoff.risk targets).map handoff.widen

end Plan

end StockProfiler.DecisionCases
