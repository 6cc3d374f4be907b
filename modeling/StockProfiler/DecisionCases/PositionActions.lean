import StockProfiler.DecisionCases.PlanTargets

/-!
# Position actions

Committed security and personal-risk evidence are composed into one conclusion. A target
that was established before is kept whatever else is missing.
-/

namespace StockProfiler.DecisionCases

open PositionManagement Portfolio

/-- One position action with the event that it becomes. -/
structure ActionRequest where
  eventId : String
  scope : ResultAccessScope
  command : PositionActionCommand
  businessPrerequisiteMet : Bool
  /-- What the authorization and the policy qualification lack at a loss boundary. -/
  checkActionQualification : RiskGrid → List String

/-- A direction that sells. -/
def TargetDirection.sells (direction : Option TargetDirection) : Bool :=
  direction = some .reduce ∨ direction = some .exit

/-- A target on the evidence of a position; a negative quantity is no target. -/
def establish (targetId securityId : String) (quantity : ℚ) (policyVersion : String)
    (evidence : PositionEvidence) (priority : Option TargetPriority := none) :
    Option EstablishedQuantityTarget :=
  if h : 0 ≤ quantity ∧ (priority = some .p0 → quantity = 0) then
    some { targetId
           securityId
           targetQuantity := quantity
           direction := directionOf quantity
           qualified := true
           policyVersion
           priority
           evidence
           targetQuantity_nonneg := h.1
           direction_ne_hold := by unfold directionOf; split <;> simp
           exit_iff := by unfold directionOf; split <;> simp [*]
           exit_of_p0 := fun hp => if_pos (h.2 hp) }
  else none

section Action

variable (ctx : DecimalContext) (steps : ℕ) (ledger : PositionLedger) (request : ActionRequest)

/-- The concluded actions of the lifecycle of a request. -/
def actionHistory : List ActionFact :=
  ledger.positionActionHistory request.scope request.command.execution.portfolioId
    request.command.lifecycleId

/-- The plan command of an action with targets that were established. -/
def actionPlanCommand (established : List EstablishedQuantityTarget) : ExecutionPlanCommand :=
  { request.command.execution with
    establishedTargets := request.command.execution.establishedTargets ++ established }

/-- Every target with every source of it, established on the evidence of a position. -/
def establishTargets (evidence : PositionEvidence) (targets : List ExecutionTarget) :
    Option (List EstablishedQuantityTarget) :=
  (targets.flatMap fun target => target.sourceObligationIds.map fun id => (id, target)).mapM
    fun entry => establish entry.1 entry.2.securityId entry.2.targetQuantity
      request.command.policy.versionId evidence

/-- The report of a security established a hard gate. -/
def hasHardGates (eventId : String) : Bool :=
  (ledger.getFormalReportForEvent eventId).any fun report =>
    report.result.exitAssessment.any (·.hardGates ≠ [])

/-- The plan of an earlier action that does not rest on statistics. -/
def deterministicPlan (fact : ActionFact) : Option ExecutionPlanOutcome :=
  fact.outcome.deterministicExecution.or
    (if hasHardGates ledger fact.command.securityEventId then fact.outcome.execution else none)

/-- The targets of earlier deterministic plans, on the evidence of the current position. -/
def inheritedTargets : Option (List EstablishedQuantityTarget) :=
  match (ledger.getFormalReportForEvent request.command.execution.concentrationEventId).bind
      (·.result.position) with
  | none => some []
  | some position =>
    establishTargets request position.snapshot.snapshotEvidence
      ((actionHistory ledger request).flatMap fun fact =>
        if request.scope.sameScopeAs fact.scope ∧
            fact.command.cutoffAt ≤ request.command.cutoffAt then
          (deterministicPlan ledger fact).elim [] (·.targets)
        else [])

/-- An action that says nothing. -/
def missingAction (reason : String) : PositionActionOutcome where
  disposition := .blocked
  securityId := request.command.securityId
  lifecycleId := request.command.lifecycleId
  reasons := [reason]

variable (position : PositionReconciliationOutcome) (security : ExitOutcome)
  (plan basePlan : ExecutionPlanOutcome)

/-- Fall back to the target that the base plan names. -/
def independentAction (reason : String) : PositionActionOutcome :=
  match attributedTarget basePlan request.command.securityId with
  | none => missingAction request reason
  | some target =>
    { missingAction request reason with
      disposition := .concluded
      direction := some (directionOf target.targetQuantity)
      targetQuantity := some target.targetQuantity
      execution := some { basePlan with disposition := .blocked } }

/-- Why an action cannot follow the ones before it. -/
def actionDenial : Option String :=
  (actionHistory ledger request).findSome? fun fact =>
    if fact.command.securityId ≠ request.command.securityId then
      some "ACTION_HISTORY_SECURITY_MISMATCH"
    else if request.scope.sameScopeAs fact.scope = false then some "ACTION_HISTORY_SCOPE_INCOMPLETE"
    else if request.command.cutoffAt < fact.command.cutoffAt then some "ACTION_SNAPSHOT_NOT_FORWARD"
    else none

/-- The first anchor of the reductions. -/
def priorAnchor : Option StatisticalReductionAnchor :=
  (actionHistory ledger request).findSome? (·.outcome.anchor)

/-- The first anchor of the costs. -/
def priorCostAnchor : Option StatisticalReductionAnchor :=
  (actionHistory ledger request).findSome? (·.outcome.costAnchor)

/-- Whether the lifecycle sold before. -/
def firstExitSeen : Bool :=
  (actionHistory ledger request).any fun fact => TargetDirection.sells fact.outcome.direction

/-- The targets of the security that earlier actions attribute, and that the base plan does. -/
def securityTargets : List ExecutionTarget :=
  ((actionHistory ledger request).flatMap fun fact =>
    (fact.outcome.execution.elim [] (·.targets)).filter fun target =>
      target.securityId = request.command.securityId ∧ target.sourceObligationIds ≠ []) ++
    (attributedTarget basePlan request.command.securityId).toList

/-- Targets of other securities. -/
def otherTargets : List ExecutionTarget :=
  plan.targets.filter (·.securityId ≠ request.command.securityId)

/-- Fall back to the strictest target of the security. -/
def retainedAction : PositionActionOutcome :=
  let targets := securityTargets ledger request basePlan
  match (targets.map (·.targetQuantity)).min? with
  | none => independentAction request basePlan "ACTION_HANDOFF_UNAVAILABLE"
  | some ceiling =>
    let retained : ExecutionTarget :=
      { securityId := request.command.securityId
        targetQuantity := ceiling
        requiredSaleQuantity := none
        sourceObligationIds := (targets.flatMap (·.sourceObligationIds)).eraseDups
        direction := directionOf ceiling }
    { missingAction request "ACTION_HANDOFF_UNAVAILABLE" with
      disposition := .concluded
      direction := some retained.direction
      targetQuantity := some ceiling
      anchor := priorAnchor ledger request
      costAnchor := priorCostAnchor ledger request
      execution := some { basePlan with
        disposition := .blocked
        legs := []
        targets := retained :: otherTargets request basePlan } }

/-- The position of the same scope that an action names. -/
def actionPosition : Option PositionReconciliationOutcome :=
  (scopedReport ledger request.scope request.command.execution.concentrationEventId).bind
    (·.result.position)

/-- The anchor of the costs of a lifecycle, when the holding is reconciled and valued. -/
def newCostAnchor : Option StatisticalReductionAnchor :=
  let units := actionUnits request.command position
  if position.disposition ≠ .reconciled ∨ units = [] ∨
      ¬ (units.all fun unit => unit.totalQuantity.isSome ∧ unit.marketPrice.isSome) then none
  else if h : 0 < unitsQuantity ctx units ∧ 0 < unitsMarketValue ctx units then
    some { eventId := request.eventId
           quantity := unitsQuantity ctx units
           marketValue := unitsMarketValue ctx units
           frozenAt := request.command.cutoffAt
           quantity_pos := h.1
           marketValue_pos := h.2 }
  else none

/-- The fallback with the anchor of its costs, when it is the first one that sells. -/
def fallbackAction : PositionActionOutcome :=
  let missing := retainedAction ledger request basePlan
  match actionPosition ledger request with
  | none => missing
  | some position =>
    if TargetDirection.sells missing.direction ∧ firstExitSeen ledger request = false ∧
        position.snapshot.cutoffAt = request.command.cutoffAt then
      { missing with costAnchor := newCostAnchor ctx request position }
    else missing

/-- The evidence of the security of an action, at its cutoff. -/
def securityEvidence : Option ExitOutcome := do
  let report ← scopedReport ledger request.scope request.command.securityEventId
  let fact ← ledger.getDecisionEvent request.command.securityEventId
  let assessment ← fact.case.exitAssessment
  let security ← report.result.exitAssessment
  guard (assessment.securityId = request.command.securityId ∧
    assessment.lifecycleId = request.command.lifecycleId ∧
    assessment.cutoffAt = request.command.cutoffAt)
  return security

/-- The position of an action, at its cutoff and with known quantities of the security. -/
def knownPosition : Option PositionReconciliationOutcome :=
  (actionPosition ledger request).filter fun position =>
    position.snapshot.cutoffAt = request.command.cutoffAt ∧
      (actionUnits request.command position).all (·.totalQuantity.isSome)

/-- A hard gate liquidates a holding whose quantity is unknown. -/
def protectiveExit (missing : PositionActionOutcome) (basePlan : ExecutionPlanOutcome)
    (security : ExitOutcome) : PositionActionOutcome :=
  { missing with
    disposition := .concluded
    direction := some .exit
    targetQuantity := some 0
    currentQuantity := none
    reasons := missing.reasons ++ security.hardGates.map (·.gateId)
    execution := some { basePlan with
      disposition := .blocked
      targets :=
        { securityId := request.command.securityId
          targetQuantity := 0
          requiredSaleQuantity := none
          sourceObligationIds := [request.command.securityEventId]
          direction := .exit } :: otherTargets request basePlan } }

/-- The targets of the security that earlier actions attribute, on the current evidence. -/
def historyTargets : Option (List EstablishedQuantityTarget) :=
  establishTargets request position.snapshot.snapshotEvidence
    ((actionHistory ledger request).flatMap fun fact =>
      (fact.outcome.execution.elim [] (·.targets)).filter
        (·.securityId = request.command.securityId))

/-- The exit that the hard gates of a security establish. -/
def gateTargets : Option (List EstablishedQuantityTarget) :=
  if security.hardGates = [] then some []
  else (establish request.command.securityEventId request.command.securityId 0
    request.command.policy.versionId position.snapshot.snapshotEvidence (some .p0)).map ([·])

/-- What remains of the targets whose gap no routing determined. -/
def completeQuantityGaps (securityId : String) (current : ℚ) : ExecutionPlanOutcome :=
  let remaining := ctx.sub current
    (ctx.sum ((plan.legs.filter (·.securityId = securityId)).map (·.quantity)))
  { plan with
    targets := plan.targets.map fun target =>
      if target.securityId = securityId ∧ target.remainingGap = none then
        { target with
          remainingQuantity := some remaining
          remainingGap := some (max 0 (ctx.sub remaining target.targetQuantity)) }
      else target }

/-- A plan allows none of the security. -/
def zeroCap : Bool :=
  plan.targets.any fun target => target.securityId = request.command.securityId ∧
    target.targetQuantity = 0 ∧ target.sourceObligationIds ≠ []

variable (quantity : ℚ) (cost : ActionCostAssessment) (step : StatisticalStep)

/-- The exit that a hard gate or an established target asks for. -/
def liquidation : PositionActionOutcome where
  disposition := .concluded
  securityId := request.command.securityId
  lifecycleId := request.command.lifecycleId
  direction := some .exit
  targetQuantity := some 0
  currentQuantity := some quantity
  reasons := if security.hardGates = [] then ["ESTABLISHED_LIQUIDATION_TARGET"]
    else security.hardGates.map (·.gateId)
  execution := some (completeQuantityGaps ctx plan request.command.securityId quantity)
  anchor := priorAnchor ledger request
  costAnchor := (priorCostAnchor ledger request).or
    (if firstExitSeen ledger request then none else newCostAnchor ctx request position)

/-- A risk result is missing or blocks new exposure to the security. -/
def riskBuffer (units : List PositionActionUnit) : Bool :=
  let execution := request.command.execution
  let concentration := (ledger.getFormalReportForEvent execution.concentrationEventId).bind
    (·.result.concentration)
  let stress := (ledger.getFormalReportForEvent execution.stressEventId).bind (·.result.stress)
  let liquidity :=
    (ledger.getFormalReportForEvent execution.liquidityEventId).bind (·.result.liquidity)
  let drawdown :=
    (ledger.getFormalReportForEvent execution.drawdownEventId).bind (·.result.drawdown)
  concentration.all (fun c => c.issuers.any fun issuer =>
      issuer.newExposureBlocked && units.any (·.issuerId = issuer.issuerId)) ||
    stress.all (·.newExposureBlocked) || liquidity.all (·.newExposureBlocked) ||
    (drawdown.bind (·.state)).all (·.riskState ≠ .normal)

/-- The loss boundary that the downside is read at. -/
def selectedGrid (units : List PositionActionUnit) : RiskGrid :=
  if riskBuffer ledger request units then .five else .ten

/-- A corporate action changed the quantity of the security after the anchor. -/
def unresolvedBasis : Bool :=
  (priorAnchor ledger request).any fun anchor =>
    position.snapshot.authoritativeLedger.any fun entry =>
      entry.securityId = some request.command.securityId ∧ entry.entryType = .corporateAction ∧
        entry.quantityDelta ≠ 0 ∧ anchor.frozenAt < entry.occurredAt ∧
        entry.occurredAt ≤ request.command.cutoffAt

/-- A reason for which a plan rests on no handoff. -/
def handoffReason (reason : String) : Bool :=
  ["RISK_HANDOFF", "EXECUTION_HISTORY", "EXECUTION_SNAPSHOT", "TARGET_SCOPE"].any fun start =>
    start.toList.isPrefixOf reason.toList

/-- Why no statistical direction may be taken. -/
def openReasons (grid : RiskGrid) : List String :=
  (if unresolvedBasis ledger request position then ["EXECUTION_QUANTITY_BASIS_UNRESOLVED"]
    else []) ++
  (if quantity ≤ 0 ∨ position.disposition ≠ .reconciled ∨
      (actionUnits request.command position).any (·.marketPrice ≠ security.standardPrice) then
    ["POSITION_FACTS_UNRESOLVED"] else []) ++
  (if plan.reasons.any handoffReason then ["RISK_HANDOFF_UNAVAILABLE"] else []) ++
  request.checkActionQualification grid

/-- The anchor of a reduction: the first one of the lifecycle, or the current holding. -/
def reductionAnchor : Option StatisticalReductionAnchor :=
  match priorAnchor ledger request with
  | some anchor => some anchor
  | none =>
    let marketValue := ctx.mul quantity (security.standardPrice.getD 0)
    if h : 0 < quantity ∧ 0 < marketValue then
      some { eventId := request.eventId
             quantity
             marketValue
             frozenAt := request.command.cutoffAt
             quantity_pos := h.1
             marketValue_pos := h.2 }
    else none

/-- A statistical direction with its anchor and its target. -/
structure StatisticalStep where
  direction : Option TargetDirection := none
  anchor : Option StatisticalReductionAnchor := none
  target : Option ℚ := none

/-- The target of a statistical direction; every reduction is measured from one anchor. -/
def statisticalStep : Option TargetDirection → Option StatisticalStep
  | none => some {}
  | some .hold => some { direction := some .hold, target := some quantity }
  | some .exit => some { direction := some .exit, target := some 0 }
  | some .reduce => (reductionAnchor ctx ledger request security quantity).map fun anchor =>
    { direction := some .reduce
      anchor := some anchor
      target :=
        some (min quantity (ctx.mul anchor.quantity request.command.policy.reductionRatio)) }

/-- The plan with the target of a direction that sells; a reduction keeps a positive quantity. -/
def statisticalPlan (established : List EstablishedQuantityTarget) (plan : ExecutionPlanOutcome) :
    Option ExecutionPlanOutcome :=
  match step.target with
  | none => some plan
  | some target =>
    if TargetDirection.sells step.direction then do
      let own ← establish ((step.anchor.map (·.eventId)).getD request.eventId)
        request.command.securityId target request.command.policy.versionId
        position.snapshot.snapshotEvidence (some .p2)
      adjudicateExecutionPlan ctx steps ledger request.scope
        (actionPlanCommand request (established ++ [own]))
    else some plan

/-- A statistical step is dropped when its costs fail or exceed their budget. -/
def costedStep : StatisticalStep :=
  if cost.evidenceFailed ∨ cost.outsideEnvelope then {} else step

/-- The reason that the costs of an action give. -/
def costReasons : List String :=
  if cost.evidenceFailed then ["EXECUTION_COST_EVIDENCE_FAILED"]
  else if cost.outsideEnvelope then ["STATISTICAL_COST_OUT_OF_SCOPE"] else []

/-- The plan without the statistical target, when the step was dropped. -/
def costedPlan (retained : List EstablishedQuantityTarget) (plan : ExecutionPlanOutcome) :
    Option ExecutionPlanOutcome :=
  if cost.evidenceFailed ∨ cost.outsideEnvelope then
    adjudicateExecutionPlan ctx steps ledger request.scope
      { request.command.execution with establishedTargets := retained }
  else some plan

/-- The stricter of a statistical target and the one that a plan attributes. -/
def strictest (effective : Option ExecutionTarget) : StatisticalStep :=
  match effective with
  | none => step
  | some own =>
    if step.target.all (own.targetQuantity < ·) then
      { step with
        direction := some (directionOf own.targetQuantity)
        target := some own.targetQuantity }
    else step

/-- The plan of an action, without gaps that rest on an unresolved basis. -/
def completedPlan : ExecutionPlanOutcome :=
  if unresolvedBasis ledger request position then
    { plan with
      disposition := .blocked
      legs := []
      reasons := plan.reasons ++ ["EXECUTION_QUANTITY_BASIS_UNRESOLVED"]
      targets := plan.targets.map fun target =>
        { target with remainingQuantity := none, remainingGap := none } }
  else completeQuantityGaps ctx plan request.command.securityId quantity

/-- The reasons for which an action without direction only observes data. -/
def observationReasons : List String :=
  ["POSITION_FACTS_UNRESOLVED", "RISK_HANDOFF_UNAVAILABLE", "STATISTICAL_EVIDENCE_UNAVAILABLE",
    "BUSINESS_PREREQUISITE_FAILED", "EXECUTION_QUANTITY_BASIS_UNRESOLVED"]

/-- How an action with a direction or reasons ended. -/
def actionDisposition (direction : Option TargetDirection) (costFailure : Bool)
    (reasons : List String) : ActionDisposition :=
  if direction.isSome then .concluded
  else if costFailure ∨ ∃ reason ∈ reasons, reason ∈ observationReasons then .dataObservation
  else .abstained

/-- Conclude from statistics, within the established targets. -/
def statisticalAction (retained : List EstablishedQuantityTarget) (plan : ExecutionPlanOutcome)
    (quantity : ℚ) : Option PositionActionOutcome := do
  let grid := selectedGrid ledger request (actionUnits request.command position)
  let blocking := openReasons ledger request position security plan quantity grid
  let statistical := assessStatisticalAction request.command.policy security.probabilities grid
  let modelDirection := if request.businessPrerequisiteMet ∧ blocking = [] then
    statistical.direction else none
  let step ← statisticalStep ctx ledger request security quantity modelDirection
  let planned ← statisticalPlan ctx steps ledger request position step retained plan
  let cost ← assessActionCosts ctx request.command position planned
    (priorCostAnchor ledger request) (firstExitSeen ledger request)
  let costed ← costedPlan ctx steps ledger request cost retained planned
  let effective := attributedTarget costed request.command.securityId
  let concluded := strictest (costedStep cost step) effective
  let reasons := blocking ++
    (if request.businessPrerequisiteMet then [] else ["BUSINESS_PREREQUISITE_FAILED"]) ++
    (if modelDirection = none ∧ statistical.evidenceMissing then
      ["STATISTICAL_EVIDENCE_UNAVAILABLE"] else []) ++
    costReasons cost ++ (if effective.isSome then ["STRICTEST_TARGET_CONJUNCTION"] else [])
  return {
    disposition := actionDisposition concluded.direction cost.evidenceFailed reasons
    securityId := request.command.securityId
    lifecycleId := request.command.lifecycleId
    direction := concluded.direction
    modelDirection
    targetQuantity := concluded.target
    currentQuantity := some quantity
    selectedGrid := some grid
    execution := some (completedPlan ctx ledger request position costed quantity)
    anchor := concluded.anchor.or (priorAnchor ledger request)
    costAnchor :=
      if TargetDirection.sells concluded.direction ∧ firstExitSeen ledger request = false then
        newCostAnchor ctx request position else priorCostAnchor ledger request
    reasons := reasons ++
      if modelDirection = none then ["STATISTICAL_MATRIX_ABSTAINED"] else [] }

/-- Conclude for a holding of known quantity. -/
def assessedAction : Option PositionActionOutcome := do
  let quantity := unitsQuantity ctx (actionUnits request.command position)
  let retained ← historyTargets ledger request position
  let gates ← gateTargets request position security
  let plan ← adjudicateExecutionPlan ctx steps ledger request.scope
    (actionPlanCommand request (retained ++ gates))
  if security.hardGates ≠ [] ∨ zeroCap request plan then
    some (liquidation ctx ledger request position security plan quantity)
  else statisticalAction ctx steps ledger request position security retained plan quantity

/-- Conclude from a base plan. -/
def concludeAction : Option PositionActionOutcome :=
  match actionDenial ledger request with
  | some reason => some (independentAction request basePlan reason)
  | none =>
    let missing := fallbackAction ctx ledger request basePlan
    match securityEvidence ledger request with
    | none => some missing
    | some security =>
      match knownPosition ledger request with
      | none =>
        if security.hardGates = [] then some missing
        else some (protectiveExit request missing basePlan security)
      | some position =>
        if actionUnits request.command position = [] then some missing
        else assessedAction ctx steps ledger request position security

/-- Compose the evidence of a request; an invalid target or anchor leaves no outcome. -/
def adjudicatePositionAction : Option PositionActionOutcome := do
  let inherited ← inheritedTargets ledger request
  let basePlan ← adjudicateExecutionPlan ctx steps ledger request.scope
    (actionPlanCommand request inherited)
  let outcome ← concludeAction ctx steps ledger request basePlan
  return { outcome with
    deterministicExecution := if hasHardGates ledger request.command.securityEventId then
      outcome.execution else some basePlan }

end Action

end StockProfiler.DecisionCases
