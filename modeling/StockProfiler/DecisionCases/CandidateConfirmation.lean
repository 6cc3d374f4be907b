import StockProfiler.DecisionCases.DecisionEvents

/-!
# Candidate confirmation

The batch confirmation of one plan, committed with all its reservations in one
event. A withdrawal releases reservations only with proof that nothing was bought.
-/

namespace StockProfiler.DecisionCases

open PositionManagement Portfolio

/-- Why a command is not carried out. -/
inductive Failure where
  /-- The command is answered with its reasons. -/
  | blocked (reasons : List String)
  /-- A decimal operation has no result. -/
  | arithmetic
  /-- An assertion, a lookup or a contract fails, and there is no answer. -/
  | raised
  deriving DecidableEq

/-- What the other services answer to one confirmation. -/
structure ConfirmationServices where
  /-- Whether a later saved allocation has other inputs than the plan. -/
  savedAllocationInputsChanged : Bool
  /-- Why a released candidate batch is not eligible at an instant. -/
  candidateQualificationEligibility : DecisionEventFact → Instant → List String
  /-- The allocation of the revalidation without the reservations of the plan. -/
  reallocation : CandidateAllocationOutcome
  /-- Why the envelope does not permit a confirmation at an instant. -/
  savedBetaPermissionReasons : Instant → List String

section Adjudication

variable (ctx : DecimalContext) (ledger : DecisionLedger) (services : ConfirmationServices)
  (command : CandidateConfirmationCommand) (scope : ResultAccessScope)

/-- Whether a saved plan replaces the plan of a command. -/
def planReplaced : Bool :=
  (ledger.candidateAllocationHistory scope).any fun fact =>
    fact.result.candidateAllocation.any fun plan =>
      plan.disposition = .planned ∧ plan.replacesPlanEventId = some command.planEventId

/-- Whether a confirmation found that the plan of a command has changed. -/
def planInvalidated : Bool :=
  (ledger.candidateConfirmationHistory scope command.portfolioId true).any fun fact =>
    fact.case.candidateConfirmation.any (·.planEventId = command.planEventId) ∧
      fact.result.candidateConfirmation.any ("PLAN_CHANGED" ∈ ·.reasons)

/-- The saved plan that a command confirms, if it can still be confirmed. -/
def confirmablePlan (businessPrerequisiteMet : Bool) :
    Except Failure CandidateAllocationOutcome := do
  let source ← known ((ledger.getFormalReportForEvent command.planEventId).filter fun source =>
    source.case.accessScope.any (scope.sameScopeAs ·)) (.blocked ["PLAN_UNAVAILABLE"])
  require (command.acts → !planReplaced ledger command scope) (.blocked ["PLAN_SUPERSEDED"])
  require (command.acts → !planInvalidated ledger command scope) (.blocked ["PLAN_INVALIDATED"])
  require businessPrerequisiteMet (.blocked ["BUSINESS_PREREQUISITE_NOT_MET"])
  require (command.acts → ledger.getCorrectionEvent command.planEventId = none)
    (.blocked ["PLAN_SUPERSEDED"])
  let plan ← known (source.result.candidateAllocation.filter fun plan =>
    plan.disposition = .planned ∧ plan.planId = some command.planId)
    (.blocked ["PLAN_NOT_CONFIRMABLE"])
  require (command.userId = scope.userId ∧ scope.visibility = .user ∧
      plan.portfolioId = some command.portfolioId ∧
      command.portfolioId = command.revalidation.riskHandoff.portfolioId ∧
      plan.candidateBatchId = some command.candidateBatchId ∧
      plan.candidateEventId = some command.revalidation.candidateEventId)
    (.blocked ["PLAN_IDENTITY_CONFLICT"])
  return plan

/-- Check that a command is timely, and the only one in progress. -/
def checkTiming (case : FrozenDecisionCase) (plan : CandidateAllocationOutcome) :
    Except Failure Unit := do
  require (command.acts → !services.savedAllocationInputsChanged)
    (.blocked ["ALLOCATION_INPUT_VERSION_CONFLICT"])
  require (command.revalidation.cutoffAt ≤ ledger.observedAt)
    (.blocked ["REVALIDATION_AFTER_SUBMISSION"])
  require (command.acts → entryWindowIsOpen ledger.sessionCloseOn plan ledger.observedAt)
    (.blocked ["ENTRY_WINDOW_CLOSED"])
  require (∀ pending ∈ ledger.pendingCandidateConfirmations, pending = case.businessObjectId)
    (.blocked ["CONFIRMATION_PENDING_RECONCILIATION"])

/-- The latest confirmation of a plan, as a fact. -/
def latestConfirmation (portfolioId planId : String) : Option DecisionEventFact :=
  (ledger.candidateConfirmationHistory scope portfolioId).reverse.find? fun fact =>
    fact.result.candidateConfirmation.any (·.planId = some planId)

/-- The latest execution of a plan. -/
def latestExecution (portfolioId planId : String) : Option CandidateExecutionOutcome :=
  ((ledger.candidateExecutionHistory scope (some portfolioId)).reverse.find? fun fact =>
    fact.result.candidateExecution.any (·.planId = some planId)).bind
      (·.result.candidateExecution)

/-- The choice on each security; the last one on a security counts. -/
def choicesBySecurity (choices : List CandidateChoice) : Dict String Choice :=
  Dict.ofLast (choices.map fun row => (row.securityId, row.choice))

variable (plan : CandidateAllocationOutcome)

/-- The securities that need a choice. -/
def requiredSecurities : List String :=
  (plan.rows.filter (0 < ·.principal)).map (·.candidate.securityId)

variable (prior : Option CandidateConfirmationOutcome)

/-- Check that a command has seen the latest confirmation and chooses on every security. -/
def checkChoices (execution : Option CandidateExecutionOutcome) : Except Failure Unit := do
  require (command.seenConfirmationId = prior.bind (·.confirmationId))
    (.blocked ["CONFIRMATION_VERSION_CONFLICT"])
  require (∀ seen ∈ command.seenExecution, seen.executionId = execution.bind (·.executionId))
    (.blocked ["EXECUTION_VERSION_CONFLICT"])
  let choices := choicesBySecurity command.choices
  require (choices.length = command.choices.length ∧
      sameMembers choices.keys (requiredSecurities plan) ∧ requiredSecurities plan ≠ [])
    (.blocked ["COMPLETE_CHOICES_REQUIRED"])
  let priorChoices := choicesBySecurity (prior.elim [] (·.choices))
  require (command.operation = .withdraw → prior ≠ none ∧
      ∀ entry ∈ choices, entry.2 = .accept → priorChoices.get? entry.1 = some .accept)
    (.blocked ["WITHDRAWAL_VECTOR_INVALID"])

/-- The position that proves a release, still the latest one and read after the confirmation. -/
def withdrawalProof (priorFact : DecisionEventFact) : Option ReconciledPositionSnapshot := do
  let eventId ← command.withdrawalPositionEventId
  let proof ← ledger.getDecisionEvent eventId
  let position ← proof.result.position
  let snapshot := position.snapshot
  guard (proof.correctsEventId = none ∧ ledger.getCorrectionEvent proof.decisionEventId = none ∧
    proof.case.accessScope.any (scope.sameScopeAs ·) ∧ position.disposition = .reconciled ∧
    ledger.positionSnapshotIsLatest scope snapshot ∧
    priorFact.committedAt ≤ snapshot.cutoffAt ∧ snapshot.cutoffAt ≤ ledger.observedAt ∧
    snapshot.snapshotEvidence.problemCodes ledger.observedAt true = [] ∧
    sameMembers scope.accountIds (snapshot.cashStates.map (·.accountId)))
  return snapshot

/-- The total quantity of a security in an account, unless it is unknown. -/
def totalQuantityOf (units : List PositionActionUnit) (accountId securityId : String) : Option ℚ :=
  ((Dict.ofLast (units.map fun unit => ((unit.accountId, unit.securityId),
    unit.totalQuantity))).get?
    (accountId, securityId)).getD (some 0)

/-- Check that nothing was ordered or bought for the reservations that are released. -/
def checkRelease (priorFact : Option DecisionEventFact)
    (execution : Option CandidateExecutionOutcome) (released : List AllocationCommitment) :
    Except Failure Unit := do
  if released = [] then return ()
  require (ledger.pendingCandidateExecutions = [] ∧
      execution.all fun execution =>
        execution.disposition = .reconciled ∧ execution.unresolvedOrderKeys = [])
    (.blocked ["EXECUTION_RECONCILIATION_REQUIRED"])
  let priorFact ← known priorFact .raised
  let snapshot ← known (withdrawalProof ledger command scope priorFact)
    (.blocked ["ORDER_EXCLUSION_REQUIRED"])
  require (∀ reservation ∈ released, ∀ order ∈ snapshot.unfinishedOrders,
      ¬(order.accountId = reservation.accountId ∧ order.securityId = reservation.securityId))
    (.blocked ["UNFINISHED_ORDER_PREVENTS_RELEASE"])
  let original ← known plan.positionSnapshot .raised
  require (∀ reservation ∈ released,
      (∀ entry ∈ snapshot.authoritativeLedger, ¬(entry.accountId = reservation.accountId ∧
        entry.securityId = some reservation.securityId ∧ entry.entryType = .fill ∧
        0 < entry.quantityDelta ∧ priorFact.committedAt ≤ entry.occurredAt)) ∧
      let now := totalQuantityOf snapshot.actionUnits reservation.accountId reservation.securityId
      now ≠ none ∧
        now = totalQuantityOf original.actionUnits reservation.accountId reservation.securityId)
    (.blocked ["RESERVATION_RECONCILIATION_REQUIRED"])

/-- A row without the evidence of its routes, which may be revalidated independently. -/
def structuredRow (row : CandidateAllocationRow) : CandidateAllocationRow :=
  let blank : PositionEvidence := ⟨none, none, none, none, none, none, none, none, none⟩
  { row with
    legs := row.legs.map fun leg => { leg with route := { leg.route with evidence := blank } }
    routeFailures := row.routeFailures.map fun failure =>
      { failure with route := { failure.route with evidence := blank } } }

/-- Compare execution facts while allowing independently revalidated provenance. -/
def structuredRows : List CandidateAllocationRow :=
  plan.rows.map structuredRow

/-- Whether a fresh allocation is the saved plan. -/
def samePlan (current plan : CandidateAllocationOutcome) : Bool :=
  current.disposition = .planned ∧ current.beta = plan.beta ∧ current.policy = plan.policy ∧
    current.positionSnapshot.any (ledger.positionSnapshotIsLatest scope ·) ∧
    structuredRows current = structuredRows plan ∧ current.capacityChecks = plan.capacityChecks ∧
    current.purchaseSequence = plan.purchaseSequence ∧
    current.totalPrincipal = plan.totalPrincipal ∧ current.remainingCash = plan.remainingCash ∧
    current.reasons = plan.reasons ∧ current.riskBudget = plan.riskBudget ∧
    current.discreteObjectives = plan.discreteObjectives ∧ current.correlations ≠ none ∧
    current.correlations = plan.correlations ∧
    current.candidateConclusionVersion = plan.candidateConclusionVersion

/-- Whether every accepted leg of an allocation can still be bought. -/
def legsCurrent (current : CandidateAllocationOutcome) (choices : Dict String Choice)
    (now : Instant) : Bool :=
  current.rows.all fun row => choices.get? row.candidate.securityId ≠ some .accept ∨
    row.legs.all fun leg => 0 < leg.quantity ∧ leg.route.priceCap ≠ none ∧
      leg.route.priceCapConfirmed ∧ leg.route.permission ∧
      leg.route.evidence.expiresAt.all (now ≤ ·)

/-- Check a command that acts on a plan against the state of everything it relies on. -/
def checkRevalidation : Except Failure Unit := do
  let now := ledger.observedAt
  let saved ← known (ledger.getDecisionEvent command.planEventId) .raised
  let allocation ← known saved.case.candidateAllocation .raised
  require (allocation.beta = command.revalidation.beta) (.blocked ["BETA_BINDING_CHANGED"])
  let authorizations := ledger.portfolioAuthorizationHistory scope command.portfolioId now
  require (authorizations.getLast?.any fun outcome => outcome.authorization.any
      (·.authorizationId = command.revalidation.riskHandoff.authorizationId))
    (.blocked ["AUTHORIZATION_SUPERSEDED"])
  let candidate ← known ((ledger.getDecisionEvent command.revalidation.candidateEventId).filter
    (·.result.hasCandidateRelease)) (.blocked ["CANDIDATE_HANDOFF_UNAVAILABLE"])
  let reasons := services.candidateQualificationEligibility candidate now
  require (reasons = []) (.blocked reasons)
  require (samePlan ledger scope services.reallocation plan ∧
      legsCurrent services.reallocation (choicesBySecurity command.choices) now ∧
      plan.riskBudget.any fun budget => budget.effectiveAt ≤ now ∧ now < budget.expiresAt)
    (.blocked ["PLAN_CHANGED"])

/-- The reservation of one leg: the one that a prior confirmation made, or a new one. -/
def reserve (eventId : String) (retained : Dict (String × String) AllocationCommitment)
    (row : CandidateAllocationRow) (leg : AcquisitionLeg) : Except Failure AllocationCommitment :=
  let securityId := row.candidate.securityId
  let accountId := leg.route.accountId
  match retained.get? (securityId, accountId) with
  | some reservation => .ok reservation
  | none =>
    if hquantity : 0 < leg.quantity then
      let reservation : AllocationCommitment :=
        { commitmentId := eventId ++ ":" ++ securityId ++ ":" ++ accountId
          accountId := accountId
          securityId := securityId
          issuerId := row.issuerId
          brokerOrderId := none
          principal := leg.principal
          quantity := some leg.quantity
          priceCap := leg.route.priceCap
          purchaseCost := leg.purchaseCost
          disposalFriction := ctx.mul leg.principal leg.route.disposalFrictionRatio
          evidence := leg.route.evidence
          quantity_pos := fun _ h => Option.some.inj h ▸ hquantity }
      if reservation.Valid then .ok reservation else .error .raised
    else .error .raised

/-- The legs of the accepted rows of a plan, each with its row. -/
def acceptedLegs (choices : Dict String Choice) : List (CandidateAllocationRow × AcquisitionLeg) :=
  (plan.rows.filter fun row => choices.get? row.candidate.securityId = some .accept).flatMap
    fun row => row.legs.map (row, ·)

/-- The reservations of a prior confirmation on securities that are no longer accepted. -/
def releasedReservations : List AllocationCommitment :=
  (prior.elim [] (·.reservations)).filter fun reservation =>
    (choicesBySecurity command.choices).get? reservation.securityId ≠ some .accept

/-- The reservations of a prior confirmation by security and account. -/
def retainedReservations : Dict (String × String) AllocationCommitment :=
  Dict.ofLast ((prior.elim [] (·.reservations)).map fun row =>
    ((row.securityId, row.accountId), row))

/-- Reserve the accepted legs of a plan, or only report that it was revalidated. -/
def reservePlan (eventId : String) (plan : CandidateAllocationOutcome)
    (prior : Option CandidateConfirmationOutcome) :
    Except Failure CandidateConfirmationOutcome := do
  if command.operation = .review then
    return { disposition := .revalidated, reasons := [], planId := plan.planId,
             portfolioId := some command.portfolioId }
  let reservations ← (acceptedLegs plan (choicesBySecurity command.choices)).mapM fun entry =>
    reserve ctx eventId (retainedReservations prior) entry.1 entry.2
  return { disposition := .confirmed
           reasons := []
           confirmationId := some eventId
           planId := plan.planId
           portfolioId := some command.portfolioId
           choices := command.choices
           reservations := reservations
           supersedesConfirmationId := prior.bind (·.confirmationId)
           releasedReservationIds := (releasedReservations command prior).map (·.commitmentId) }

/-- Adjudicate a confirmation of a saved plan. -/
def confirmCandidates (case : FrozenDecisionCase) (businessPrerequisiteMet : Bool) :
    Except Failure CandidateConfirmationOutcome := do
  let plan ← confirmablePlan ledger command scope businessPrerequisiteMet
  checkTiming ledger services command case plan
  let priorFact := latestConfirmation ledger scope command.portfolioId command.planId
  let prior := priorFact.bind (·.result.candidateConfirmation)
  let execution := latestExecution ledger scope command.portfolioId command.planId
  checkChoices command plan prior execution
  require (∀ reservation ∈ prior.elim [] (·.reservations),
    ((choicesBySecurity command.choices).get? reservation.securityId).isSome) .raised
  checkRelease ledger command scope plan priorFact execution (releasedReservations command prior)
  if command.acts then
    checkRevalidation ledger services command scope plan
  reservePlan ctx command case.decisionEventId plan prior

end Adjudication

/-- The answer to a command, unless an assertion fails. -/
def answer {α : Type} (blocked : List String → α) : Except Failure α → Option α
  | .ok outcome => some outcome
  | .error (.blocked reasons) => some (blocked reasons)
  | .error _ => none

/-- Adjudicate the confirmation of a case. -/
def adjudicateCandidateConfirmation (ctx : DecimalContext) (ledger : DecisionLedger)
    (services : ConfirmationServices) (case : FrozenDecisionCase) (businessPrerequisiteMet : Bool) :
    Option CandidateConfirmationOutcome := do
  let command ← case.candidateConfirmation
  let scope ← case.accessScope
  answer .blocked (confirmCandidates ctx ledger services command scope case businessPrerequisiteMet)

section Finalize

variable (ledger : DecisionLedger) (services : ConfirmationServices)
  (command : CandidateConfirmationCommand) (scope : ResultAccessScope) (now : Instant)

/-- Whether the proof of a release is still current at the commit. -/
def withdrawalProofCurrent : Bool :=
  (command.withdrawalPositionEventId.bind ledger.getDecisionEvent).any fun proof =>
    proof.result.position.any fun position =>
      ledger.positionSnapshotIsLatest scope position.snapshot ∧
        position.snapshot.snapshotEvidence.problemCodes now true = []

/-- Recheck what a command that acts on a plan relies on, at its commit. -/
def recheckPlan (handoffEvidence : String → Option (List PositionEvidence)) :
    Except Failure Unit := do
  let source := ledger.getFormalReportForEvent command.planEventId
  if command.revalidation.beta ≠ none then
    let _ ← known (source.bind (·.result.candidateAllocation)) .raised
    let reasons := services.savedBetaPermissionReasons now
    require (reasons = []) (.blocked reasons)
  require (!services.savedAllocationInputsChanged) (.blocked ["ALLOCATION_INPUT_VERSION_CONFLICT"])
  let plan ← known (source.bind (·.result.candidateAllocation)) .raised
  let budget ← known plan.riskBudget .raised
  require (entryWindowIsOpen ledger.sessionCloseOn plan now) (.blocked ["ENTRY_WINDOW_CLOSED"])
  require (budget.effectiveAt ≤ now ∧ now < budget.expiresAt) (.blocked ["RISK_BUDGET_EXPIRED"])
  let candidate ← known ((ledger.getDecisionEvent command.revalidation.candidateEventId).filter
    (·.result.hasCandidateRelease)) .raised
  let reasons := services.candidateQualificationEligibility candidate now
  require (reasons = []) (.blocked reasons)
  let handoff := command.revalidation.riskHandoff
  let evidence ← known ([handoff.concentrationEventId, handoff.stressEventId,
    handoff.liquidityEventId, handoff.drawdownEventId].mapM handoffEvidence)
    (.blocked ["RISK_HANDOFF_UNAVAILABLE"])
  require (!(command.revalidation.evidence :: evidence).any
      (currentEvidenceExpired · command.revalidation.cutoffAt now))
    (.blocked ["CURRENT_EVIDENCE_EXPIRED"])

/-- Recheck time-sensitive gates after optimization without another long solve. -/
def finalizeCandidateConfirmation (handoffEvidence : String → Option (List PositionEvidence))
    (outcome : CandidateConfirmationOutcome) : Option CandidateConfirmationOutcome :=
  if outcome.disposition = .blocked then some outcome
  else answer .blocked do
    require (outcome.releasedReservationIds ≠ [] → withdrawalProofCurrent ledger command scope now)
      (.blocked ["ORDER_EXCLUSION_REQUIRED"])
    if command.operation ≠ .withdraw then
      recheckPlan ledger services command now handoffEvidence
    return outcome

end Finalize

end StockProfiler.DecisionCases
