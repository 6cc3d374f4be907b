import StockProfiler.DecisionCases.DecisionEvents
import StockProfiler.Portfolio.Drawdown
import StockProfiler.Portfolio.Liquidity
import StockProfiler.PositionManagement.ActionContracts
import StockProfiler.PositionManagement.ConcentrationContracts
import StockProfiler.PositionManagement.History

/-!
# Position events

The committed facts that execution plans and position actions read: the results of the
risk assessments, the evidence of securities, and the plans and actions before them.
-/

namespace StockProfiler.DecisionCases

open PositionManagement Portfolio

/-- The commands of a case that plans and actions read. -/
structure PositionCase where
  decisionEventId : String
  businessObjectId : String
  accessScope : Option ResultAccessScope := none
  liquidity : Option LiquidityCommand := none
  executionPlan : Option ExecutionPlanCommand := none
  exitAssessment : Option SecurityAssessment := none
  positionAction : Option PositionActionCommand := none

/-- The results of a case that plans and actions read. -/
structure PositionResult where
  position : Option PositionReconciliationOutcome := none
  concentration : Option ConcentrationOutcome := none
  stress : Option PortfolioStressOutcome := none
  liquidity : Option LiquidityOutcome := none
  drawdown : Option DrawdownOutcome := none
  executionPlan : Option ExecutionPlanOutcome := none
  exitAssessment : Option ExitOutcome := none
  positionAction : Option PositionActionOutcome := none

/-- One committed fact. -/
structure PositionEventFact where
  case : PositionCase
  result : PositionResult
  decisionEventId : String
  correctsEventId : Option String := none

/-- The facts of a ledger in their order, with the reports that are visible. -/
structure PositionLedger where
  events : List PositionEventFact
  reportVisible : String → Bool := fun _ => true

/-- The reasons of plans that say nothing of the portfolio. -/
def planDenials : List String :=
  ["EXECUTION_HISTORY_SCOPE_INCOMPLETE", "EXECUTION_SNAPSHOT_NOT_FORWARD",
    "RISK_HANDOFF_IDENTITY_MISMATCH", "TARGET_SCOPE_INVALID"]

/-- A plan that later plans look back to. -/
def planRetained (plan : ExecutionPlanOutcome) : Bool :=
  plan.targets ≠ [] ∧ ∀ reason ∈ plan.reasons, reason ∉ planDenials

/-- An earlier plan of a portfolio. -/
structure PlanFact where
  scope : ResultAccessScope
  command : ExecutionPlanCommand
  outcome : ExecutionPlanOutcome

/-- The plan that a fact is, for an owner and a portfolio. -/
def planFact? (scope : ResultAccessScope) (portfolioId : String) (fact : PositionEventFact) :
    Option PlanFact := do
  let other ← fact.case.accessScope
  let command ← fact.case.executionPlan
  let outcome ← fact.result.executionPlan
  guard (other.sameOwnerAs scope ∧ command.portfolioId = portfolioId ∧ planRetained outcome)
  return ⟨other, command, outcome⟩

/-- An earlier action of a lifecycle. -/
structure ActionFact where
  scope : ResultAccessScope
  command : PositionActionCommand
  outcome : PositionActionOutcome

/-- The concluded action that a fact is, for an owner, a portfolio and a lifecycle. -/
def actionFact? (scope : ResultAccessScope) (portfolioId lifecycleId : String)
    (fact : PositionEventFact) : Option ActionFact := do
  let other ← fact.case.accessScope
  let command ← fact.case.positionAction
  let outcome ← fact.result.positionAction
  guard (other.sameOwnerAs scope ∧ command.execution.portfolioId = portfolioId ∧
    command.lifecycleId = lifecycleId ∧ outcome.disposition = .concluded)
  return ⟨other, command, outcome⟩

namespace PositionLedger

variable (ledger : PositionLedger)

/-- One committed fact. -/
def getDecisionEvent (decisionEventId : String) : Option PositionEventFact :=
  ledger.events.find? (·.decisionEventId = decisionEventId)

/-- One committed fact whose report is visible. -/
def getFormalReportForEvent (decisionEventId : String) : Option PositionEventFact :=
  if ledger.reportVisible decisionEventId then ledger.getDecisionEvent decisionEventId else none

/-- The original fact of a business object. -/
def getOriginalDecisionEvent (businessObjectId : String) : Option PositionEventFact :=
  ledger.events.find? fun fact =>
    fact.case.businessObjectId = businessObjectId ∧ fact.correctsEventId = none

/-- The facts that correct no other one. -/
def originalEventFacts : List PositionEventFact :=
  ledger.events.filter (·.correctsEventId = none)

variable (scope : ResultAccessScope)

/-- The original facts of an owner. -/
def ownedFacts : List PositionEventFact :=
  ledger.originalEventFacts.filter (·.case.accessScope.any (·.sameOwnerAs scope))

/-- The position of an event that a drawdown was valued at. -/
def positionEvidenceForDrawdown (eventId : String) (cutoffAt : Instant) :
    Option PositionReconciliationOutcome := do
  let fact ← ledger.getDecisionEvent eventId
  guard (fact.correctsEventId = none ∧ fact.case.accessScope.any (·.sameScopeAs scope))
  fact.result.position.filter (·.snapshot.cutoffAt ≤ cutoffAt)

/-- The ledger entries of the accounts of a scope by a cutoff. -/
def positionLedgerHistory (cutoffAt : Instant) : List AuthoritativeLedgerEntry :=
  authoritativeLedgerHistory ((ledger.ownedFacts scope).filterMap (·.result.position))
    scope.accountIds cutoffAt

/-- The plans of an owner and a portfolio that name targets. -/
def executionPlanHistory (portfolioId : String) : List PlanFact :=
  ledger.originalEventFacts.filterMap (planFact? scope portfolioId)

/-- The concluded actions of a lifecycle. -/
def positionActionHistory (portfolioId lifecycleId : String) : List ActionFact :=
  ledger.originalEventFacts.filterMap (actionFact? scope portfolioId lifecycleId)

end PositionLedger

end StockProfiler.DecisionCases
