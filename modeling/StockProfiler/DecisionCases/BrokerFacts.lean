import StockProfiler.DecisionCases.CandidateConfirmation

/-!
# Broker facts of an execution

What the broker reports must be complete and free of contradiction before any
of it is attributed. Each order is then classified by what proves its cause.
-/

namespace StockProfiler.DecisionCases

open PositionManagement Portfolio

section BrokerFacts

variable (ctx : DecimalContext) (command : CandidateExecutionCommand)
  (snapshot : ReconciledPositionSnapshot)

/-- The ledger entries of a snapshot by account and identity; the last one counts. -/
def ledgerEntries : Dict (String × String) AuthoritativeLedgerEntry :=
  Dict.ofLast (snapshot.authoritativeLedger.map fun row => ((row.accountId, row.entryId), row))

/-- The entry of a fill. -/
def entryOf (fill : BrokerExecutionFill) : Option AuthoritativeLedgerEntry :=
  (ledgerEntries snapshot).get? fill.key

/-- The fills that a history needs: purchases and corrections since it began. -/
def requiredFills (historyStartAt : Instant) : List (String × String) :=
  (snapshot.authoritativeLedger.filter fun row => row.entryType = .fill ∧
    (0 < row.quantityDelta ∨ row.correctsEntryId ≠ none) ∧ historyStartAt ≤ row.occurredAt).map
    fun row => (row.accountId, row.entryId)

/-- The fees that a history needs. -/
def requiredFees (historyStartAt : Instant) : List (String × String) :=
  (snapshot.authoritativeLedger.filter fun row => row.entryType = .fee ∧
    historyStartAt ≤ row.occurredAt).map fun row => (row.accountId, row.entryId)

/-- The unfinished buy orders of a snapshot. -/
def openBuyOrders : List AccountOpenOrder :=
  snapshot.unfinishedOrders.filter (·.side = .buy)

/-- An account and a broker identity name an unfinished order. -/
def openOrderKey (order : AccountOpenOrder) : String × String := (order.accountId, order.orderId)

/-- The unfinished buy order of a key; the last one counts. -/
def openBuyOrder (key : String × String) : Option AccountOpenOrder :=
  (openBuyOrders snapshot).reverse.find? (openOrderKey · = key)

/-- The quantity deltas of the fills of an order. -/
def filledDeltas (order : BrokerExecutionOrder) : Except Failure (List ℚ) :=
  (command.fills.filter fun fill => (fill.accountId, fill.orderId) = order.key).mapM fun fill => do
    let entry ← known (entryOf snapshot fill) Failure.raised
    return entry.quantityDelta

/-- Check that one order agrees with its fills and with the snapshot. -/
def checkBrokerOrder (order : BrokerExecutionOrder) : Except Failure Unit := do
  require (order.side = .buy ∧ order.remainingQuantity ≠ none ∧ order.limitPrice ≠ none ∧
    order.reservedCash ≠ none ∧ order.status ≠ .unknown) (.blocked ["BROKER_ORDER_UNKNOWN"])
  require (order.evidence.problemCodes command.cutoffAt true = [] ∧
    order.submittedAt ≤ command.cutoffAt) (.blocked ["BROKER_ORDER_EVIDENCE_FAILED"])
  let deltas ← filledDeltas command snapshot order
  require (ctx.sum deltas = order.filledQuantity ∧ order.filledQuantity ≤ order.quantity)
    (.blocked ["BROKER_ORDER_QUANTITY_CONFLICT"])
  require (order.status = .isOpen →
      order.remainingQuantity = some (ctx.sub order.quantity order.filledQuantity))
    (.blocked ["BROKER_ORDER_QUANTITY_CONFLICT"])
  require (!order.status.isUnfinished →
      order.remainingQuantity = some 0 ∧ order.reservedCash = some 0)
    (.blocked ["BROKER_TERMINAL_CONFLICT"])
  require (order.status = .filled → order.filledQuantity = order.quantity)
    (.blocked ["BROKER_TERMINAL_CONFLICT"])
  require (∀ opened ∈ openBuyOrder snapshot order.key,
      opened.securityId = order.securityId ∧ opened.remainingQuantity = order.remainingQuantity ∧
        opened.reservedCash = order.reservedCash)
    (.blocked ["BROKER_ORDER_SNAPSHOT_CONFLICT"])

/-- Check that the broker facts of a command are complete and agree with a snapshot. -/
def checkBrokerFacts (accountIds : List String) (confirmedAt historyStartAt : Instant) :
    Except Failure Unit := do
  require ((command.orders.map (·.key)).Nodup ∧ (command.fills.map (·.key)).Nodup)
    (.blocked ["DUPLICATE_BROKER_IDENTITY"])
  require (sameMembers accountIds (snapshot.cashStates.map (·.accountId)) ∧
    confirmedAt ≤ command.cutoffAt) (.blocked ["BROKER_SCOPE_OR_TIME_CONFLICT"])
  require (∀ order ∈ command.orders, ¬(order.externalOriginId.getD "" ≠ "" ∧
    order.causalReservationId.getD "" ≠ "")) (.blocked ["BROKER_ORIGIN_CONFLICT"])
  require (∀ order ∈ command.orders, order.accountId ∈ accountIds)
    (.blocked ["BROKER_ACCOUNT_OUT_OF_SCOPE"])
  require (sameMembers (command.fills.map (·.key)) (requiredFills snapshot historyStartAt))
    (.blocked ["BROKER_FILLS_INCOMPLETE"])
  let suppliedFees := command.fills.flatMap fun fill => fill.feeEntryIds.map (fill.accountId, ·)
  require (suppliedFees.Nodup ∧ sameMembers suppliedFees (requiredFees snapshot historyStartAt))
    (.blocked ["BROKER_FEES_INCOMPLETE_OR_DUPLICATED"])
  require (sameMembers ((openBuyOrders snapshot).map openOrderKey)
      ((command.orders.filter fun order => order.side = .buy ∧ order.status.isUnfinished).map
        (·.key)))
    (.blocked ["BROKER_ORDERS_INCOMPLETE"])
  command.orders.forM (checkBrokerOrder ctx command snapshot)

end BrokerFacts

section Classification

variable (ctx : DecimalContext) (ledger : DecisionLedger) (scope : ResultAccessScope)
  (command : CandidateExecutionCommand) (snapshot : ReconciledPositionSnapshot)

/-- Whether an order was submitted before another one, by instant, account and identity. -/
def BrokerExecutionOrder.precedes (a b : BrokerExecutionOrder) : Bool :=
  a.submittedAt < b.submittedAt ∨ a.submittedAt = b.submittedAt ∧
    (a.accountId < b.accountId ∨ a.accountId = b.accountId ∧ a.orderId < b.orderId)

variable (reservations : List AllocationCommitment) (order : BrokerExecutionOrder)
  (reservationId : String)

/-- The orders of a reservation that were submitted before another order. -/
def earlierOrders (order : BrokerExecutionOrder) : List BrokerExecutionOrder :=
  command.orders.filter fun row =>
    row.causalReservationId = some reservationId ∧ BrokerExecutionOrder.precedes row order

/-- The accepted quantity that an order uses, filled or not. -/
def consumedBy : ℚ :=
  if order.status = .isOpen then ctx.add order.filledQuantity (order.remainingQuantity.getD 0)
  else order.filledQuantity

/-- The first confirmation that made a reservation. -/
def originOf : Option DecisionEventFact :=
  (ledger.candidateConfirmationHistory scope command.portfolioId).find? fun fact =>
    fact.result.candidateConfirmation.any fun outcome =>
      reservationId ∈ outcome.reservations.map (·.commitmentId)

/-- Whether a saved submission after the origin reviewed the step of an order. -/
def stepReviewed (origin : DecisionEventFact) (order : BrokerExecutionOrder) : Bool :=
  (order.stepConfirmationId.bind ledger.getDecisionEvent).any fun step =>
    step.case.accessScope.any (scope.sameScopeAs ·) ∧
      (step.result.candidateConfirmation.any fun outcome => outcome.disposition = .confirmed ∧
        reservationId ∈ outcome.reservations.map (·.commitmentId)) ∧
      step.decisionEventId ≠ origin.decisionEventId ∧
      (step.case.candidateConfirmation.any fun confirmation =>
        confirmation.operation = .submit ∧
          !currentEvidenceExpired confirmation.revalidation.evidence
            confirmation.revalidation.cutoffAt order.submittedAt) ∧
      step.committedAt ≤ order.submittedAt ∧
      ∀ row ∈ earlierOrders command reservationId order, row.submittedAt < step.committedAt

/-- The entries of the fills before an order. -/
def fillsBefore : Except Failure (List (BrokerExecutionFill × AuthoritativeLedgerEntry)) := do
  let fills ← command.fills.mapM fun fill => do
    let entry ← known (entryOf snapshot fill) Failure.raised
    return (fill, entry)
  return fills.filter fun (_, entry) => entry.occurredAt < order.submittedAt

/-- Whether the review of a step covers the fills before an order. -/
def reviewCoversFills (before : List (BrokerExecutionFill × AuthoritativeLedgerEntry)) : Bool :=
  (order.stepConfirmationId.bind ledger.getDecisionEvent).all fun step =>
    step.case.candidateConfirmation.all fun confirmation =>
      before.all fun (_, entry) => entry.occurredAt ≤ confirmation.revalidation.cutoffAt

/-- Whether every accepted security that comes first was bought before an order. -/
def sequenceKept (origin : DecisionEventFact) (confirmation : CandidateConfirmationOutcome)
    (plan : CandidateAllocationOutcome) (order : BrokerExecutionOrder)
    (before : List (BrokerExecutionFill × AuthoritativeLedgerEntry)) : Bool :=
  let accepted := (confirmation.choices.filter (·.choice = .accept)).map (·.securityId)
  let sequence := plan.purchaseSequence.filter (· ∈ accepted)
  (sequence.takeWhile (· ≠ order.securityId)).all fun security =>
    let intended := reservations.filter fun row => row.securityId = security ∧
      row.commitmentId ∈ confirmation.reservations.map (·.commitmentId)
    let required := ctx.sum (intended.map (·.quantity.getD 0))
    let orderKeys := (command.orders.filter fun row =>
      row.causalReservationId.any (· ∈ intended.map (·.commitmentId)) ∧
        row.securityId = security ∧ origin.committedAt ≤ row.submittedAt).map (·.key)
    let filled := ctx.sum ((before.filter fun (fill, _) =>
      orderKeys.contains (fill.accountId, fill.orderId)).map (·.2.quantityDelta))
    required ≠ 0 ∧ required ≤ filled

/-- How an order deviates from the reservation that caused it. -/
def orderDeviations (reservation : AllocationCommitment) (origin : DecisionEventFact)
    (confirmation : CandidateConfirmationOutcome) (plan : CandidateAllocationOutcome)
    (order : BrokerExecutionOrder) : Except Failure (List String) := do
  let consumed := ctx.sum
    ((earlierOrders command reservation.commitmentId order).map (consumedBy ctx))
  let before ← fillsBefore command snapshot order
  return (
    (if entryWindowIsOpen ledger.sessionCloseOn plan order.submittedAt then []
      else ["ENTRY_WINDOW_DEVIATION"]) ++
    (if order.accountId = reservation.accountId then [] else ["ACCOUNT_DEVIATION"]) ++
    (if max 0 (ctx.sub (reservation.quantity.getD 0) consumed) < order.quantity then
      ["QUANTITY_DEVIATION"] else []) ++
    (if order.limitPrice.any (· ≤ reservation.priceCap.getD 0) then [] else ["PRICE_DEVIATION"]) ++
    (if stepReviewed ledger scope command reservation.commitmentId origin order ∧
        reviewCoversFills ledger order before then [] else ["STEP_REVIEW_UNPROVEN"]) ++
    (if sequenceKept ctx command reservations origin confirmation plan order before then []
      else ["SEQUENCE_DEVIATION"]))

/-- Classify an order by the reservation that it names, and say why. -/
def classifyOrder (reservation : Option AllocationCommitment) (order : BrokerExecutionOrder) :
    Except Failure (ExecutionClassification × List String) :=
  match reservation with
  | none =>
    if order.externalOriginId.getD "" ≠ "" ∧ order.causalReservationId = none then
      .ok (.external, [])
    else if order.securityId ∈ reservations.map (·.securityId) ∨
        order.causalReservationId.getD "" ≠ "" then
      .ok (.unknown, ["CAUSALITY_UNPROVEN"])
    else .ok (.external, [])
  | some reservation =>
    if order.securityId ≠ reservation.securityId ∨ order.side ≠ .buy ∨
        order.issuerId ≠ reservation.issuerId then
      .ok (.unknown, ["CAUSAL_IDENTITY_CONFLICT"])
    else match originOf ledger scope command reservation.commitmentId with
      | none => .ok (.unknown, ["CAUSAL_SOURCE_UNAVAILABLE"])
      | some origin =>
        match origin.case.candidateConfirmation, origin.result.candidateConfirmation with
        | some source, some confirmation =>
          if !origin.case.accessScope.any (scope.sameScopeAs ·) then
            .ok (.unknown, ["CAUSAL_SOURCE_UNAVAILABLE"])
          else if order.submittedAt < origin.committedAt then
            .ok (.unknown, ["CAUSAL_TIME_CONFLICT"])
          else match (ledger.getFormalReportForEvent source.planEventId).bind
              (·.result.candidateAllocation) with
            | none => .ok (.unknown, ["CAUSAL_SOURCE_UNAVAILABLE"])
            | some plan => do
              let deviations ← orderDeviations ctx ledger scope command snapshot reservations
                reservation origin confirmation plan order
              return (if deviations = [] then .planned else .deviation, deviations)
        | _, _ => .ok (.unknown, ["CAUSAL_SOURCE_UNAVAILABLE"])

end Classification

end StockProfiler.DecisionCases
