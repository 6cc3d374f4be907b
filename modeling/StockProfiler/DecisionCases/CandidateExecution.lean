import StockProfiler.Core.Capped
import StockProfiler.DecisionCases.BrokerFacts

/-!
# Candidate execution

Broker facts are attributed to the reservations that caused them. What is left of
each reservation stays claimed until it is filled, withdrawn, expired or refused.
-/

namespace StockProfiler.DecisionCases

open PositionManagement Portfolio

/-- The orders of a command, each with its attribution. -/
abbrev AttributedOrders := List (BrokerExecutionOrder × AttributedOrder)

/-- The reservations of a history by identity, each as first recorded. -/
def reservationsOf (history : List DecisionEventFact) : Dict String AllocationCommitment :=
  Dict.ofFirst ((history.flatMap fun fact =>
    fact.result.candidateConfirmation.elim [] (·.reservations)).map fun reservation =>
      (reservation.commitmentId, reservation))

section Attribution

variable (ctx : DecimalContext) (ledger : DecisionLedger) (scope : ResultAccessScope)
  (command : CandidateExecutionCommand) (snapshot : ReconciledPositionSnapshot)
  (reservations : Dict String AllocationCommitment)

/-- Whether a classification ties an order to the reservation that it names. -/
def ExecutionClassification.isIntended (classification : ExecutionClassification) : Bool :=
  classification = .planned ∨ classification = .deviation

variable (fill : BrokerExecutionFill) (order : BrokerExecutionOrder)

/-- The reservation that an order names, if it is recorded. -/
def causalReservation : Option AllocationCommitment :=
  reservations.get? (order.causalReservationId.getD "")

/-- Attribute an order to the reservation that it names. -/
def attributeOrder : Except Failure (BrokerExecutionOrder × AttributedOrder) := do
  let reservation := causalReservation reservations order
  let (classification, reasons) ← classifyOrder ctx ledger scope command snapshot
    (reservations.map Prod.snd) reservation order
  return (order,
    { accountId := order.accountId
      orderId := order.orderId
      reservationId := if ExecutionClassification.isIntended classification then
        reservation.map (·.commitmentId) else none
      classification := classification
      reasons := reasons })

/-- Check that a fill is a purchase, or corrects one, on the terms of its order. -/
def checkFillFacts (entry : AuthoritativeLedgerEntry) (order : BrokerExecutionOrder) :
    Except Failure Unit :=
  require (entry.entryType = .fill ∧ (0 < entry.quantityDelta ∨ entry.correctsEntryId ≠ none) ∧
      ledgerEntryEvidenceIsVisible entry.toPositionLedgerEntry command.cutoffAt ∧
      entry.securityId = some order.securityId ∧ order.submittedAt ≤ entry.occurredAt ∧
      (entry.quantityDelta ≠ 0 → ctx.neg entry.cashDelta = ctx.mul entry.quantityDelta fill.price))
    (.blocked ["FILL_FACT_CONFLICT"])

/-- Check that a correction corrects a fill of its own order. -/
def checkFillCorrection (entry : AuthoritativeLedgerEntry) : Except Failure Unit :=
  require (∀ corrected ∈ entry.correctsEntryId,
      ((ledgerEntries snapshot).get? (fill.accountId, corrected)).any (fun target =>
        target.securityId = entry.securityId ∧ target.entryType = .fill) ∧
      (command.fills.find? fun row => row.key = (fill.accountId, corrected)).any
        (·.orderId = fill.orderId))
    (.blocked ["FILL_CORRECTION_IDENTITY_CONFLICT"])

/-- The fees of a fill. -/
def feesOf : Except Failure ℚ := do
  let entries ← known (fill.feeEntryIds.mapM fun id =>
    (ledgerEntries snapshot).get? (fill.accountId, id)) (Failure.blocked ["FEE_FACT_CONFLICT"])
  require (∀ fee ∈ entries, fee.entryType = .fee ∧ fee.securityId.all (· = order.securityId) ∧
    ledgerEntryEvidenceIsVisible fee.toPositionLedgerEntry command.cutoffAt)
    (.blocked ["FEE_FACT_CONFLICT"])
  return ctx.sum (entries.map fun fee => ctx.neg fee.cashDelta)

/-- Attribute a fill as its order is. A dearer fill deviates from the plan. -/
def attributeFill (orders : AttributedOrders) (fill : BrokerExecutionFill) :
    Except Failure AttributedFill := do
  let entry ← known (entryOf snapshot fill) (.blocked ["FILL_FACT_CONFLICT"])
  let (order, attribution) ← known (orders.find? fun (order, _) =>
    order.key = (fill.accountId, fill.orderId)) (Failure.blocked ["FILL_FACT_CONFLICT"])
  checkFillFacts ctx command fill entry order
  checkFillCorrection command snapshot fill entry
  let fees ← feesOf ctx command snapshot fill order
  let reservation := causalReservation reservations order
  let dearer := ExecutionClassification.isIntended attribution.classification ∧
    reservation.any fun reservation => reservation.priceCap.getD 0 < fill.price
  let classification := if dearer then .deviation else attribution.classification
  return { entryId := fill.entryId
           orderId := fill.orderId
           accountId := fill.accountId
           securityId := order.securityId
           reservationId := if ExecutionClassification.isIntended classification then
             reservation.map (·.commitmentId) else none
           classification := classification
           reasons := attribution.reasons ++ if dearer then ["FILL_PRICE_DEVIATION"] else []
           quantity := entry.quantityDelta
           cashUsed := ctx.add (ctx.neg entry.cashDelta) fees
           fees := fees
           correctsEntryId := entry.correctsEntryId }

/-- When a fill occurred; an attributed fill has an entry. -/
def occurredAt (fill : AttributedFill) : Instant :=
  (((ledgerEntries snapshot).get? fill.key).map (·.occurredAt)).getD 0

/-- Whether a fill comes before another one, by instant and identity. -/
def fillBefore (a b : AttributedFill) : Bool :=
  occurredAt snapshot a < occurredAt snapshot b ∨
    occurredAt snapshot a = occurredAt snapshot b ∧ a.entryId ≤ b.entryId

/-- The fills of a reservation in their order, each with its position. -/
def orderedPositions (reservationId : String) (fills : List AttributedFill) :
    List (AttributedFill × ℕ) :=
  (fills.zipIdx.filter fun p => p.1.reservationId = some reservationId).insertionSort
    fun a b => fillBefore snapshot a.1 b.1

/-- Divide the fill at a position, if something of it was matched. -/
def divideFill (matched : Dict ℕ ℚ) (index : ℕ) (fill : AttributedFill) : AttributedFill :=
  (matched.get? index).elim fill fun intent =>
    { fill with intentQuantity := intent, externalQuantity := ctx.sub fill.quantity intent }

/-- Divide the fills of a reservation between its intent and what exceeds it. -/
def allotReservation (fills : List AttributedFill) (reservation : AllocationCommitment) :
    Except Failure (List AttributedFill) := do
  let quantity ← known reservation.quantity .raised
  let ordered := orderedPositions snapshot reservation.commitmentId fills
  let steps ← known (cappedSteps ctx quantity 0 0 (ordered.map (·.1.quantity)))
    (.blocked ["FILL_CORRECTION_QUANTITY_CONFLICT"])
  return fills.mapIdx (divideFill ctx ((ordered.map Prod.snd).zip steps))

/-- An external fill is entirely external. -/
def markExternal (fill : AttributedFill) : AttributedFill :=
  if fill.classification = .external then { fill with externalQuantity := fill.quantity } else fill

/-- Attribute the fills of a command, and divide them between intents and excess. -/
def attributeFills (orders : AttributedOrders) : Except Failure (List AttributedFill) := do
  let fills ← command.fills.mapM (attributeFill ctx command snapshot reservations orders)
  let fills ← (reservations.map Prod.snd).foldlM (allotReservation ctx snapshot) fills
  return fills.map markExternal

end Attribution

/-- What becomes of one reservation. -/
structure Settlement where
  row : ExecutionRow
  /-- The claim that is kept. -/
  claim : Option AllocationCommitment
  released : Bool
  costProblems : List String

/-- The quantity that an unfinished order may still buy. -/
def openQuantity (order : BrokerExecutionOrder) : ℚ :=
  (order.remainingQuantity.filter (· ≠ 0)).getD order.quantity

variable (orders : AttributedOrders)

/-- The orders that are attributed to a reservation. -/
def relatedOrders (reservationId : String) : List BrokerExecutionOrder :=
  (orders.filter fun (_, attribution) => attribution.reservationId = some reservationId).map
    Prod.fst

/-- The unfinished purchases that are attributed to a reservation. -/
def linkedOrders (reservationId : String) : List BrokerExecutionOrder :=
  (relatedOrders orders reservationId).filter fun order =>
    order.side = .buy ∧ order.status.isUnfinished

/-- Whether the cause of an order on a security is unknown. -/
def unknownOn (securityId : String) : Bool :=
  orders.any fun (order, attribution) =>
    order.securityId = securityId ∧ attribution.classification = .unknown

section Settlement

variable (ctx : DecimalContext)

/-- The intended quantity that was filled. -/
def filledQuantityOf (fills : List AttributedFill) (reservationId : String) : ℚ :=
  ctx.sum ((fills.filter (·.reservationId = some reservationId)).map (·.intentQuantity))

/-- The cash that a fill used for its intent. -/
def cashUsedForIntent (fill : AttributedFill) : ℚ :=
  if fill.quantity = 0 then fill.cashUsed
  else ctx.div (ctx.mul fill.cashUsed fill.intentQuantity) fill.quantity

/-- The cash that the fills of a reservation used. -/
def savedCash (fills : List AttributedFill) (reservationId : String) : ℚ :=
  ctx.sum ((fills.filter (·.reservationId = some reservationId)).map (cashUsedForIntent ctx))

/-- The buying route of a plan for an account and a security. -/
def routeFor (plan : CandidateAllocationOutcome) (accountId securityId : String) :
    Option AcquisitionRoute :=
  plan.routes.find? fun route => route.accountId = accountId ∧ route.securityId = securityId

/-- The principal that an unfinished order may still need. -/
def openPrincipal (priceCap : ℚ) (order : BrokerExecutionOrder) : ℚ :=
  ctx.mul (openQuantity order) (order.limitPrice.getD priceCap)

/-- The acquisition cost and disposal friction of linked orders that have a route. -/
def linkedCosts (plan : CandidateAllocationOutcome) (priceCap : ℚ)
    (linked : List BrokerExecutionOrder) : ℚ × ℚ :=
  let priced := linked.filterMap fun order =>
    (routeFor plan order.accountId order.securityId).map fun route =>
      (route, openPrincipal ctx priceCap order)
  (ctx.sum (priced.map fun (route, principal) => route.cost ctx principal),
    ctx.sum (priced.map fun (route, principal) => ctx.mul principal route.disposalFrictionRatio))

/-- The evidence of funds is complete at a cutoff. -/
def fundsKnown (command : CandidateExecutionCommand) : Bool :=
  command.fundsEvidence.any fun evidence => evidence.problemCodes command.cutoffAt true = []

/-- What a reconciliation knows when it settles the reservations. -/
structure SettlementContext where
  plan : CandidateAllocationOutcome
  command : CandidateExecutionCommand
  orders : AttributedOrders
  fills : List AttributedFill
  withdrawn : List String
  expired : Bool
  invalidated : Bool

variable (facts : SettlementContext) (reservation : AllocationCommitment)

/-- Whether what remains of a reservation may be released. -/
def mayRelease (filled remaining : ℚ) : Bool :=
  let related := relatedOrders facts.orders reservation.commitmentId
  !unknownOn facts.orders reservation.securityId ∧ !related.any (·.status.isUnfinished) ∧
    (remaining = 0 ∨ reservation.commitmentId ∈ facts.withdrawn ∨ facts.expired ∨
      facts.invalidated ∨ related ≠ [] ∧ filled = 0)

/-- The state of a reservation's execution. -/
def rowState (filled remaining : ℚ) : ExecutionRowState :=
  if unknownOn facts.orders reservation.securityId then .unknown
  else if mayRelease facts reservation filled remaining ∧ remaining ≠ 0 then .terminalUnfilled
  else if filled ≠ 0 ∧ remaining ≠ 0 then .partiallyFilled
  else if filled ≠ 0 then .filled
  else .unexecuted

/-- The quantity, principal, costs and cash that a reservation still needs. -/
structure ClaimAmounts where
  quantity : ℚ
  principal : ℚ
  purchaseCost : ℚ
  disposalFriction : ℚ
  cashHold : ℚ

/-- The larger of what remains of a reservation and what its unfinished orders may still buy. -/
def claimAmounts (priceCap filled remaining : ℚ) : ClaimAmounts :=
  let linked := linkedOrders facts.orders reservation.commitmentId
  let kept := if mayRelease facts reservation filled remaining then 0 else remaining
  let brokerPrincipal := ctx.sum (linked.map (openPrincipal ctx priceCap))
  let quantity := max kept (ctx.sum (linked.map openQuantity))
  let principal := max (ctx.mul kept priceCap) brokerPrincipal
  let funded := fundsKnown facts.command
  let savingsHold := if funded then 0 else
    max 0 (ctx.sub (ctx.mul filled priceCap) (savedCash ctx facts.fills reservation.commitmentId))
  let brokerCash := ctx.sum (linked.map (·.reservedCash.getD 0))
  let friction := ctx.div (ctx.mul principal reservation.disposalFriction) reservation.principal
  let costs := linkedCosts ctx facts.plan priceCap linked
  let purchaseCost := if linked = [] then reservation.purchaseCost
    else max reservation.purchaseCost costs.1
  { quantity := quantity
    principal := principal
    purchaseCost := purchaseCost
    disposalFriction := if linked = [] then friction else max friction costs.2
    cashHold := max
      (ctx.add savingsHold (if quantity = 0 ∧ !funded then reservation.purchaseCost else 0))
      (ctx.sub (ctx.sub brokerCash principal) purchaseCost) }

/-- The claim on what a reservation still needs. -/
def claimOf (amounts : ClaimAmounts) : AllocationCommitment :=
  let linked := linkedOrders facts.orders reservation.commitmentId
  let deviated := linked.any (·.accountId ≠ reservation.accountId)
  { reservation with
    quantity := (some amounts.quantity).filter (0 < ·)
    priceCap := if amounts.quantity = 0 then none
      else some (ctx.div amounts.principal amounts.quantity)
    principal := amounts.principal
    purchaseCost := if amounts.quantity = 0 then 0 else amounts.purchaseCost
    brokerOrderId := if linked.length = 1 ∧ !deviated then linked.head?.map (·.orderId) else none
    brokerOrderBindings := if deviated ∨ 1 < linked.length then linked.map (·.key) else []
    disposalFriction := amounts.disposalFriction
    reconciliationCashHold := amounts.cashHold
    quantity_pos := fun _ h => of_decide_eq_true (Option.mem_filter_iff.mp h).2 }

/-- Settle one reservation: how far it is executed, and what stays claimed or is released. -/
def settleReservation : Except Failure Settlement := do
  let filled := filledQuantityOf ctx facts.fills reservation.commitmentId
  let accepted ← known reservation.quantity .raised
  let priceCap ← known reservation.priceCap .raised
  require (reservation.principal ≠ 0) .arithmetic
  let remaining := max 0 (ctx.sub accepted filled)
  let amounts := claimAmounts ctx facts reservation priceCap filled remaining
  let claimed := amounts.quantity ≠ 0 ∨ amounts.cashHold ≠ 0
  let linked := linkedOrders facts.orders reservation.commitmentId
  return { row :=
             { reservationId := reservation.commitmentId
               securityId := reservation.securityId
               acceptedQuantity := accepted
               filledQuantity := filled
               remainingQuantity := remaining
               state := rowState facts reservation filled remaining }
           claim := if claimed then some (claimOf ctx facts reservation amounts) else none
           released := mayRelease facts reservation filled remaining ∧ ¬claimed
           costProblems := (linked.filter fun order =>
             routeFor facts.plan order.accountId order.securityId = none).map fun _ =>
               "LINKED_ORDER_COSTS_UNAVAILABLE" }

/-- The commitment of an unfinished order that no reservation caused. -/
def unassociatedCommitment (order : BrokerExecutionOrder) : Except Failure AllocationCommitment :=
  let principal := ctx.mul (order.remainingQuantity.getD 0) (order.limitPrice.getD 0)
  let route := routeFor facts.plan order.accountId order.securityId
  let cost := route.elim 0 (·.cost ctx principal)
  if hquantity : ∀ value ∈ order.remainingQuantity, 0 < value then
    let commitment : AllocationCommitment :=
      { commitmentId := "broker-order:" ++ order.accountId ++ ":" ++ order.orderId
        accountId := order.accountId
        securityId := order.securityId
        issuerId := order.issuerId
        brokerOrderId := some order.orderId
        quantity := order.remainingQuantity
        priceCap := order.limitPrice
        principal := principal
        purchaseCost := cost
        reconciliationCashHold :=
          max 0 (ctx.sub (ctx.sub (order.reservedCash.getD 0) principal) cost)
        disposalFriction := route.elim 0 fun route => ctx.mul principal route.disposalFrictionRatio
        evidence := order.evidence
        quantity_pos := hquantity }
    if commitment.Valid then .ok commitment else .error .raised
  else .error .raised

/-- The unfinished orders that no reservation caused. -/
def unassociatedOrders (orders : AttributedOrders) : List BrokerExecutionOrder :=
  (orders.filter fun (order, attribution) =>
    order.status.isUnfinished ∧ attribution.reservationId = none).map Prod.fst

end Settlement

end StockProfiler.DecisionCases
