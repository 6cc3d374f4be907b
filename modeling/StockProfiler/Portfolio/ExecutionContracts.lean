import StockProfiler.Portfolio.AllocationContracts

/-!
# Candidate-execution contracts

Read-only execution evidence and separate user declarations.
-/

namespace StockProfiler.Portfolio

open PositionManagement

/-- How an order or a fill relates to a plan. -/
inductive ExecutionClassification where
  | planned
  | deviation
  | external
  | unknown
  deriving DecidableEq

/-- The state of an order at the broker. -/
inductive BrokerOrderStatus where
  | isOpen
  | unknown
  | filled
  | cancelled
  | rejected
  | expired
  deriving DecidableEq

/-- Whether an order may still be executed. -/
def BrokerOrderStatus.isUnfinished (status : BrokerOrderStatus) : Bool :=
  status = .isOpen ∨ status = .unknown

/-- An order as the broker reports it. -/
@[ext]
structure BrokerExecutionOrder where
  orderId : String
  accountId : String
  securityId : String
  issuerId : String
  side : OrderSide
  status : BrokerOrderStatus
  quantity : ℚ
  filledQuantity : ℚ
  remainingQuantity : Option ℚ
  limitPrice : Option ℚ
  reservedCash : Option ℚ
  submittedAt : Instant
  causalReservationId : Option String
  stepConfirmationId : Option String
  externalOriginId : Option String := none
  evidence : PositionEvidence
  quantity_pos : 0 < quantity
  filledQuantity_nonneg : 0 ≤ filledQuantity
  remainingQuantity_nonneg : ∀ quantity ∈ remainingQuantity, 0 ≤ quantity
  limitPrice_pos : ∀ price ∈ limitPrice, 0 < price
  reservedCash_nonneg : ∀ cash ∈ reservedCash, 0 ≤ cash

/-- An account and a broker identity name an order. -/
def BrokerExecutionOrder.key (order : BrokerExecutionOrder) : String × String :=
  (order.accountId, order.orderId)

/-- A fill as the broker reports it; its quantity is that of its ledger entry. -/
@[ext]
structure BrokerExecutionFill where
  entryId : String
  orderId : String
  accountId : String
  price : ℚ
  feeEntryIds : List String
  price_pos : 0 < price

/-- An account and a broker identity name a fill. -/
def BrokerExecutionFill.key (fill : BrokerExecutionFill) : String × String :=
  (fill.accountId, fill.entryId)

/-- How an order was attributed. -/
structure AttributedOrder where
  accountId : String
  orderId : String
  reservationId : Option String
  classification : ExecutionClassification
  reasons : List String

/-- How a fill was attributed: what it takes of an intent, and what is external to it. -/
structure AttributedFill where
  entryId : String
  orderId : String
  accountId : String
  securityId : String
  reservationId : Option String
  classification : ExecutionClassification
  reasons : List String
  quantity : ℚ
  intentQuantity : ℚ := 0
  externalQuantity : ℚ := 0
  cashUsed : ℚ
  fees : ℚ
  correctsEntryId : Option String := none

/-- An account and a broker identity name a fill. -/
def AttributedFill.key (fill : AttributedFill) : String × String := (fill.accountId, fill.entryId)

/-- The state of the execution of a reservation. -/
inductive ExecutionRowState where
  | unexecuted
  | partiallyFilled
  | filled
  | terminalUnfilled
  | unknown

/-- How far a reservation is executed. -/
structure ExecutionRow where
  reservationId : String
  securityId : String
  acceptedQuantity : ℚ
  filledQuantity : ℚ
  remainingQuantity : ℚ
  state : ExecutionRowState

/-- What the user says about an execution. -/
structure ExecutionDeclaration where
  securityId : String
  status : String
  brokerOrderId : Option String
  declaredAt : Instant

/-- What an execution command asks for. -/
inductive ExecutionOperation where
  | declare
  | reconcile
  deriving DecidableEq

/-- A declaration, or broker facts to reconcile. -/
structure CandidateExecutionCommand where
  operation : ExecutionOperation
  portfolioId : String
  planEventId : String
  confirmationEventId : String
  cutoffAt : Instant
  seenExecutionId : Option String
  declaration : Option ExecutionDeclaration := none
  positionEventId : Option String := none
  brokerEvidence : Option PositionEvidence := none
  fundsEvidence : Option PositionEvidence := none
  orders : List BrokerExecutionOrder := []
  fills : List BrokerExecutionFill := []
  withdrawnReservationIds : List String := []

/-- Whether the broker facts of an execution are reconciled. -/
inductive ExecutionDisposition where
  | pendingReconciliation
  | reconciled
  | blocked
  deriving DecidableEq

/-- How the execution of a plan ended. -/
inductive TerminalOutcome where
  | noTrade
  | allDeclined
  | deferredExpired
  | partiallyFilled
  | fullyFilled

/-- The frozen result of an execution command. -/
structure CandidateExecutionOutcome where
  disposition : ExecutionDisposition
  reasons : List String
  executionId : Option String := none
  portfolioId : Option String := none
  planId : Option String := none
  confirmationId : Option String := none
  declarations : List ExecutionDeclaration := []
  /-- The claims that are still live. -/
  reservations : List AllocationCommitment := []
  unassociatedCommitments : List AllocationCommitment := []
  positionEventId : Option String := none
  orders : List BrokerExecutionOrder := []
  orderAttributions : List AttributedOrder := []
  fills : List AttributedFill := []
  rows : List ExecutionRow := []
  releasedReservationIds : List String := []
  withdrawnReservationIds : List String := []
  unresolvedOrderKeys : List (String × String) := []
  terminalOutcome : Option TerminalOutcome := none

end StockProfiler.Portfolio
