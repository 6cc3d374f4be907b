import StockProfiler.Portfolio.Contracts

/-!
# Candidate-allocation contracts

Frozen allocation inputs and plans, separate from recommendation, confirmation
and execution. A day is the number of a civil date.
-/

namespace StockProfiler.Portfolio

open PositionManagement

/-- The explicit policy of one allocation. -/
structure AllocationPolicy where
  versionId : String
  entryTargetRatio : ℚ
  correlationCeiling : ℚ
  neighborhoodRatio : ℚ
  turnoverRatio : ℚ
  correlationWindow : ℕ
  deriving DecidableEq

/-- One way to buy a security in an account, with its price and quantity rules and costs. -/
@[ext]
structure AcquisitionRoute where
  securityId : String
  accountId : String
  permission : Bool
  priceCap : Option ℚ
  priceCapConfirmed : Bool
  currentPrice : Option ℚ := none
  priceTick : ℚ
  minimumPrice : ℚ
  maximumPrice : ℚ
  minimumQuantity : ℚ
  quantityIncrement : ℚ
  commissionRatio : ℚ
  minimumCommission : ℚ
  otherCostRatio : ℚ
  disposalFrictionRatio : ℚ
  versionId : String
  ruleVersion : String
  evidence : PositionEvidence
  priceCap_pos : ∀ price ∈ priceCap, 0 < price
  currentPrice_pos : ∀ price ∈ currentPrice, 0 < price := by nofun
  priceTick_pos : 0 < priceTick
  minimumPrice_pos : 0 < minimumPrice
  maximumPrice_pos : 0 < maximumPrice
  minimumQuantity_pos : 0 < minimumQuantity
  quantityIncrement_pos : 0 < quantityIncrement
  commissionRatio_mem : 0 ≤ commissionRatio ∧ commissionRatio < 1
  minimumCommission_nonneg : 0 ≤ minimumCommission
  otherCostRatio_mem : 0 ≤ otherCostRatio ∧ otherCostRatio < 1
  disposalFrictionRatio_mem : 0 ≤ disposalFrictionRatio ∧ disposalFrictionRatio < 1

instance : DecidableEq AcquisitionRoute := fun _ _ => decidable_of_iff' _ AcquisitionRoute.ext_iff

/-- The estimated cost of buying for a principal on a route. -/
def AcquisitionRoute.cost (ctx : DecimalContext) (route : AcquisitionRoute) (principal : ℚ) : ℚ :=
  if principal = 0 then 0
  else ctx.add (max route.minimumCommission (ctx.mul principal route.commissionRatio))
    (ctx.mul principal route.otherCostRatio)

/-- A sample route of the sample account, which costs a commission only. -/
def SampleRoutes.acquisition (securityId : String) (increment : PositiveAmount)
    (commission : Amount) : AcquisitionRoute where
  securityId
  accountId := "A"
  permission := true
  priceCap := some 10
  priceCapConfirmed := true
  priceTick := 1
  minimumPrice := 1
  maximumPrice := 100
  minimumQuantity := 1
  quantityIncrement := increment.val
  commissionRatio := 0
  minimumCommission := commission.val
  otherCostRatio := 0
  disposalFrictionRatio := 0
  versionId := "1"
  ruleVersion := "1"
  evidence := SampleBroker.evidence 0
  priceCap_pos := Literal.mem_ten_pos
  priceTick_pos := Literal.one.pos
  minimumPrice_pos := Literal.one.pos
  maximumPrice_pos := Literal.hundred.pos
  minimumQuantity_pos := Literal.one.pos
  quantityIncrement_pos := increment.pos
  commissionRatio_mem := Literal.zero_ratio
  minimumCommission_nonneg := commission.nonneg
  otherCostRatio_mem := Literal.zero_ratio
  disposalFrictionRatio_mem := Literal.zero_ratio

/-- Buying power that is committed to a confirmed reservation or to a broker order. -/
structure AllocationCommitment where
  commitmentId : String
  accountId : String
  securityId : String
  issuerId : String
  brokerOrderId : Option String
  brokerOrderBindings : List (String × String) := []
  principal : ℚ
  quantity : Option ℚ := none
  priceCap : Option ℚ := none
  purchaseCost : ℚ
  reconciliationCashHold : ℚ := 0
  disposalFriction : ℚ
  evidence : PositionEvidence
  quantity_pos : ∀ value ∈ quantity, 0 < value := by nofun
  deriving DecidableEq

namespace AllocationCommitment

/-- The broker orders that a commitment is bound to. -/
def orderKeys (c : AllocationCommitment) : List (String × String) :=
  if c.brokerOrderBindings ≠ [] then c.brokerOrderBindings
  else (c.brokerOrderId.map fun order => (c.accountId, order)).toList

/-- What the contract of a commitment checks besides when it is built. -/
def Valid (c : AllocationCommitment) : Prop :=
  c.commitmentId ≠ "" ∧ c.accountId ≠ "" ∧ c.securityId ≠ "" ∧ c.issuerId ≠ "" ∧
    0 ≤ c.principal ∧ (∀ price ∈ c.priceCap, 0 < price) ∧ 0 ≤ c.purchaseCost ∧
    0 ≤ c.reconciliationCashHold ∧ 0 ≤ c.disposalFriction ∧
    (c.brokerOrderId ≠ none → c.brokerOrderBindings = []) ∧
    (∀ key ∈ c.orderKeys, key.1 ≠ "" ∧ key.2 ≠ "") ∧ c.orderKeys.Nodup

instance (c : AllocationCommitment) : Decidable c.Valid :=
  inferInstanceAs (Decidable (_ ∧ _))

end AllocationCommitment

/-- What an allocation reads of one member of a calibrated release. -/
structure CalibratedMember where
  securityId : String
  candidate : Bool
  calibratedProbability : Option ℚ
  /-- The market days on which an entry is valid, in order. -/
  validMarketDates : List ℤ
  deriving DecidableEq

/-- The purchase of a quantity on a route. -/
structure AcquisitionLeg where
  route : AcquisitionRoute
  quantity : ℚ
  principal : ℚ
  purchaseCost : ℚ
  deriving DecidableEq

/-- A criterion of the allocation order. -/
inductive AllocationCriterion where
  | coverage
  | completionRatios
  | principal
  | probabilities
  | purchaseCost
  | orderCount
  | stableIdentities
  deriving DecidableEq

/-- Whether a criterion prefers larger or smaller values. -/
inductive CriterionDirection where
  | maximize
  | minimize
  deriving DecidableEq

/-- How an alternative compares on a criterion. -/
inductive ComparisonRelation where
  | equal
  | worse
  | notReached
  | infeasible
  deriving DecidableEq

/-- The comparison of the selected plan with an alternative on one criterion. -/
structure AllocationComparison where
  criterion : AllocationCriterion
  direction : CriterionDirection
  selectedValue : List ℚ
  alternativeValue : Option (List ℚ)
  relation : ComparisonRelation
  deriving DecidableEq

/-- A route that cannot be used, and why. -/
structure AllocationRouteFailure where
  route : AcquisitionRoute
  reasons : List String
  deriving DecidableEq

/-- The margin of one capacity before and after a plan. -/
structure AllocationCapacityCheck where
  gateId : String
  reason : String
  securityIds : List String
  accountId : Option String := none
  committedMargin : ℚ
  availableBefore : ℚ
  remainingAfterContinuous : ℚ
  remainingAfterPlan : ℚ
  deriving DecidableEq

/-- How much of a candidate's target a plan allocates. -/
inductive AllocationRowOutcome where
  | fullyAllocated
  | partiallyAllocated
  | unallocated
  deriving DecidableEq

/-- What a plan allocates to one candidate. -/
structure CandidateAllocationRow where
  candidate : CalibratedMember
  issuerId : String
  committedExposure : ℚ
  targetGap : ℚ
  continuousPrincipal : ℚ
  principal : ℚ
  outcome : AllocationRowOutcome
  reasons : List String
  primaryReason : Option String := none
  comparisons : List AllocationComparison := []
  routeFailures : List AllocationRouteFailure := []
  legs : List AcquisitionLeg := []
  deriving DecidableEq

/-- The versions of the correlations that a plan was formed with. -/
structure AllocationCorrelations where
  versionId : String
  marketCalendarVersion : String
  deriving DecidableEq

/-- The broad-market envelope that a plan was formed in. -/
structure BetaEnvelopeOutcome where
  activationId : String
  permissionEnvelope : String
  reasons : List String
  operations : List String
  ratio : ℚ
  netLiquidationEquity : ℚ
  normalFeasibleCapacity : ℚ
  committedExposure : ℚ
  capacity : ℚ
  qualificationDecisionIds : List String
  deriving DecidableEq

/-- Whether an allocation command ended in a plan. -/
inductive AllocationDisposition where
  | blocked
  | planned
  | awaitingPriceCap
  deriving DecidableEq

/-- The frozen result of an allocation command. -/
structure CandidateAllocationOutcome where
  beta : Option BetaEnvelopeOutcome := none
  disposition : AllocationDisposition
  reasons : List String
  rows : List CandidateAllocationRow := []
  planId : Option String := none
  replacesPlanEventId : Option String := none
  candidateEventId : Option String := none
  candidateBatchId : Option String := none
  candidateConclusionVersion : Option String := none
  policy : Option AllocationPolicy := none
  positionSnapshot : Option ReconciledPositionSnapshot := none
  riskBudget : Option PersonalRiskBudget := none
  totalPrincipal : ℚ := 0
  remainingCash : Option ℚ := none
  /-- The portfolio of the risk handoff. -/
  portfolioId : Option String := none
  correlations : Option AllocationCorrelations := none
  routes : List AcquisitionRoute := []
  purchaseSequence : List String := []
  discreteObjectives : List (List ℚ) := []
  capacityChecks : List AllocationCapacityCheck := []

/-- Seven hours of the clock, from the open of a session to its close. -/
def sessionLength : ℤ := 7 * 3600000000

section EntryWindow

variable (sessionCloseOn : String → ℤ → Option Instant)

/-- The market window of one row. -/
def CandidateAllocationRow.entryWindow (calendarVersion : String) (row : CandidateAllocationRow) :
    Option (Instant × Instant) := do
  let first ← row.candidate.validMarketDates.head?
  let last ← row.candidate.validMarketDates.getLast?
  let start ← sessionCloseOn calendarVersion first
  let close ← sessionCloseOn calendarVersion last
  return (start - sessionLength, close)

/-- The immutable intersection of a plan's original market windows. -/
def allocationEntryWindow (plan : CandidateAllocationOutcome) : Option (Instant × Instant) := do
  let correlations ← plan.correlations
  let windows ← plan.rows.mapM (·.entryWindow sessionCloseOn correlations.marketCalendarVersion)
  return (← (windows.map Prod.fst).max?, ← (windows.map Prod.snd).min?)

/-- Whether an instant is in the window of a plan. -/
def entryWindowIsOpen (plan : CandidateAllocationOutcome) (now : Instant) : Bool :=
  (allocationEntryWindow sessionCloseOn plan).any fun (start, close) => start ≤ now ∧ now ≤ close

end EntryWindow

end StockProfiler.Portfolio
