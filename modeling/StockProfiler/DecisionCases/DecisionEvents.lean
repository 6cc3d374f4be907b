import StockProfiler.Portfolio.AuthorizationLineage
import StockProfiler.Portfolio.ConfirmationContracts
import StockProfiler.Portfolio.ExecutionContracts

/-!
# Decision events

The append-only facts of the decision ledger, and what the candidate services
read of them.
-/

namespace StockProfiler.DecisionCases

open PositionManagement Portfolio

/-- Who a result is for. -/
inductive Visibility where
  | user
  | shadow
  deriving DecidableEq

/-- Immutable ownership and visibility bound before a scoped case is executed. -/
@[ext]
structure ResultAccessScope where
  userId : String
  accountIds : List String
  visibility : Visibility
  accountIds_ne_nil : accountIds ≠ [] := by decide
  accountIds_nodup : accountIds.Nodup := by decide

instance : DecidableEq ResultAccessScope := fun _ _ => decidable_of_iff' _ ResultAccessScope.ext_iff

/-- The scope of a user over one account. -/
def ResultAccessScope.personal (userId accountId : String) : ResultAccessScope where
  userId
  accountIds := [accountId]
  visibility := .user
  accountIds_ne_nil := List.cons_ne_nil _ _
  accountIds_nodup := List.nodup_singleton _

namespace ResultAccessScope

variable (scope other : ResultAccessScope)

/-- Match historical ownership without normalizing its saved account order. -/
def sameScopeAs : Bool :=
  sameMembers scope.accountIds other.accountIds ∧ scope.userId = other.userId ∧
    scope.visibility = other.visibility

variable {scope other} in
theorem sameScopeAs_iff : scope.sameScopeAs other = true ↔
    (∀ account, account ∈ scope.accountIds ↔ account ∈ other.accountIds) ∧
      scope.userId = other.userId ∧ scope.visibility = other.visibility := by
  rw [sameScopeAs, decide_eq_true_eq, sameMembers_iff]

variable {scope other} in
theorem sameScopeAs_symm (h : scope.sameScopeAs other = true) : other.sameScopeAs scope = true := by
  obtain ⟨haccounts, huser, hvisibility⟩ := sameScopeAs_iff.mp h
  exact sameScopeAs_iff.mpr ⟨fun account => (haccounts account).symm, huser.symm,
    hvisibility.symm⟩

variable {scope other} in
theorem sameScopeAs_trans {third : ResultAccessScope} (h : scope.sameScopeAs other = true)
    (h' : other.sameScopeAs third = true) : scope.sameScopeAs third = true := by
  obtain ⟨haccounts, huser, hvisibility⟩ := sameScopeAs_iff.mp h
  obtain ⟨haccounts', huser', hvisibility'⟩ := sameScopeAs_iff.mp h'
  exact sameScopeAs_iff.mpr ⟨fun account => (haccounts account).trans (haccounts' account),
    huser.trans huser', hvisibility.trans hvisibility'⟩

/-- Two scopes have one owner and one visibility. -/
def sameOwnerAs : Bool := scope.userId = other.userId ∧ scope.visibility = other.visibility

end ResultAccessScope

/-- The commands of a case that the candidate services read. -/
structure FrozenDecisionCase where
  decisionEventId : String
  businessObjectId : String
  accessScope : Option ResultAccessScope := none
  candidateAllocation : Option CandidateAllocationCommand := none
  candidateConfirmation : Option CandidateConfirmationCommand := none
  candidateExecution : Option CandidateExecutionCommand := none
  /-- Every evidence record of a position command. -/
  position : Option (List PositionEvidence) := none

/-- The results of a case that the candidate services read. -/
structure CaseResult where
  candidateAllocation : Option CandidateAllocationOutcome := none
  candidateConfirmation : Option CandidateConfirmationOutcome := none
  candidateExecution : Option CandidateExecutionOutcome := none
  position : Option PositionReconciliationOutcome := none
  /-- The position that a liquidity assessment read. -/
  liquidityPosition : Option PositionReconciliationOutcome := none
  portfolio : Option PortfolioAuthorizationOutcome := none
  /-- Whether the case released candidates. -/
  hasCandidateRelease : Bool := false

/-- The append-only business fact from which a report is rebuilt. -/
structure DecisionEventFact where
  case : FrozenDecisionCase
  result : CaseResult
  committedAt : Instant
  /-- The identity of the event, which is that of its case unless it is a correction. -/
  decisionEventId : String
  correctsEventId : Option String := none

/-- The events of a ledger in their order, with what it says beside them. -/
structure DecisionLedger where
  events : List DecisionEventFact
  observedAt : Instant
  /-- Whether the report of an event is visible. -/
  reportVisible : String → Bool := fun _ => true
  /-- The confirmations of a scope and a portfolio whose commit is unknown. -/
  pendingCandidateConfirmations : List String := []
  /-- The executions of a scope and a portfolio whose commit is unknown. -/
  pendingCandidateExecutions : List String := []
  /-- The saved close of the session of a calendar version on a day. -/
  sessionCloseOn : String → ℤ → Option Instant

namespace DecisionLedger

variable (ledger : DecisionLedger)

/-- One committed fact. -/
def getDecisionEvent (decisionEventId : String) : Option DecisionEventFact :=
  ledger.events.find? (·.decisionEventId = decisionEventId)

/-- One committed fact whose report is visible. -/
def getFormalReportForEvent (decisionEventId : String) : Option DecisionEventFact :=
  if ledger.reportVisible decisionEventId then ledger.getDecisionEvent decisionEventId else none

/-- The sole correction that references an original fact. -/
def getCorrectionEvent (originalEventId : String) : Option DecisionEventFact :=
  ledger.events.find? (·.correctsEventId = some originalEventId)

/-- The facts that correct no other one. -/
def originalEventFacts : List DecisionEventFact :=
  ledger.events.filter (·.correctsEventId = none)

variable (scope : ResultAccessScope)

/-- The allocations of a scope. -/
def candidateAllocationHistory : List DecisionEventFact :=
  ledger.originalEventFacts.filter fun fact =>
    fact.case.accessScope.any (scope.sameScopeAs ·) ∧ fact.result.candidateAllocation.isSome

/-- The confirmations of an owner on a portfolio, those that took effect unless asked. -/
def candidateConfirmationHistory (portfolioId : String) (includeBlocked : Bool := false) :
    List DecisionEventFact :=
  ledger.originalEventFacts.filter fun fact =>
    fact.case.accessScope.any (·.sameOwnerAs scope) ∧
      fact.case.candidateConfirmation.any (·.portfolioId = portfolioId) ∧
      fact.result.candidateConfirmation.any fun outcome =>
        includeBlocked ∨ outcome.disposition = .confirmed

/-- The executions of an owner, on one portfolio if asked. -/
def candidateExecutionHistory (portfolioId : Option String := none) : List DecisionEventFact :=
  ledger.originalEventFacts.filter fun fact =>
    fact.case.accessScope.any (·.sameOwnerAs scope) ∧
      fact.case.candidateExecution.any (fun command =>
        portfolioId.all (command.portfolioId = ·)) ∧
      fact.result.candidateExecution.isSome

/-- The visible authorizations of a portfolio whose evidence predates a cutoff. -/
def portfolioAuthorizationHistory (portfolioId : String) (cutoff : Instant) :
    List PortfolioAuthorizationOutcome :=
  Portfolio.portfolioAuthorizationHistory
    ((ledger.originalEventFacts.filter (·.case.accessScope.any (·.sameOwnerAs scope))).filterMap
      (·.result.portfolio)) portfolioId cutoff

/-- Whether a snapshot is the reconciled position of the latest cutoff. -/
def positionSnapshotIsLatest (snapshot : ReconciledPositionSnapshot) : Bool :=
  let positions := ledger.events.filterMap fun fact =>
    if fact.case.accessScope.any fun other => other.sameOwnerAs scope ∧
        ∃ id ∈ other.accountIds, id ∈ scope.accountIds then
      (fact.result.position.or fact.result.liquidityPosition).map fun position => (fact, position)
    else none
  (lastMax (·.2.snapshot.cutoffAt) positions).any fun (fact, latest) =>
    fact.correctsEventId = none ∧ latest.disposition = .reconciled ∧
      fact.case.accessScope.any (·.sameScopeAs scope) ∧ latest.snapshot = snapshot

end DecisionLedger

end StockProfiler.DecisionCases
