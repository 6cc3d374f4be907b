import StockProfiler.Core.Decimal
import StockProfiler.PositionManagement.Contracts

/-!
# Execution plan contracts

Frozen execution-plan identities, separate from orders and risk discharge. A plan
names for each security the quantity that may be kept, the obligations that ask for
it, and the legs that would be sold.
-/

namespace StockProfiler.PositionManagement

/-- The dividend tax that a lot of a holding still owes when it is sold. -/
@[ext]
structure DisposalDividendLot where
  lotId : String
  quantity : ℚ
  taxPerShare : ℚ
  quantity_pos : 0 < quantity
  taxPerShare_nonneg : 0 ≤ taxPerShare

instance : DecidableEq DisposalDividendLot := fun _ _ =>
  decidable_of_iff' _ DisposalDividendLot.ext_iff

/-- What the disposal of a holding costs. -/
@[ext]
structure DisposalCostCurve where
  versionId : String
  commissionRatio : ℚ
  minimumCommission : ℚ
  tradingFeeRatio : ℚ
  settlementFeeRatio : ℚ
  taxRatio : ℚ
  slippageRatio : ℚ
  marketImpactRatio : ℚ
  dividendLots : List DisposalDividendLot
  evidence : PositionEvidence
  commissionRatio_mem : 0 ≤ commissionRatio ∧ commissionRatio < 1
  minimumCommission_nonneg : 0 ≤ minimumCommission
  tradingFeeRatio_mem : 0 ≤ tradingFeeRatio ∧ tradingFeeRatio < 1
  settlementFeeRatio_mem : 0 ≤ settlementFeeRatio ∧ settlementFeeRatio < 1
  taxRatio_mem : 0 ≤ taxRatio ∧ taxRatio < 1
  slippageRatio_mem : 0 ≤ slippageRatio ∧ slippageRatio < 1
  marketImpactRatio_mem : 0 ≤ marketImpactRatio ∧ marketImpactRatio < 1

instance : DecidableEq DisposalCostCurve := fun _ _ => decidable_of_iff' _ DisposalCostCurve.ext_iff

namespace DisposalCostCurve

variable (ctx : DecimalContext) (curve : DisposalCostCurve)

/-- The dividend tax of a sale, lot by lot. -/
def dividendTax (quantity : ℚ) : ℚ :=
  (curve.dividendLots.foldl (fun (acc : ℚ × ℚ) lot =>
    let used := min acc.1 lot.quantity
    (ctx.sub acc.1 used, ctx.add acc.2 (ctx.mul used lot.taxPerShare))) (quantity, 0)).2

/-- The ratios that apply to the proceeds besides the commission. -/
def feeRatio : ℚ :=
  ctx.add (ctx.add (ctx.add (ctx.add curve.tradingFeeRatio curve.settlementFeeRatio)
    curve.taxRatio) curve.slippageRatio) curve.marketImpactRatio

/-- The full cost of the sale of a quantity at a price. -/
def cost (quantity price : ℚ) : ℚ :=
  if quantity = 0 then 0
  else
    let gross := ctx.mul quantity price
    ctx.add (ctx.add (max curve.minimumCommission (ctx.mul gross curve.commissionRatio))
      (ctx.mul gross (curve.feeRatio ctx))) (curve.dividendTax ctx quantity)

end DisposalCostCurve

/-- How a holding can be sold in its account. -/
@[ext]
structure ExecutionRoute where
  accountId : String
  securityId : String
  minimumQuantity : ℚ
  quantityIncrement : ℚ
  allowFullOddLot : Bool
  firstSellableAt : Instant
  transferableAt : Instant
  rulesEvidence : PositionEvidence
  costCurve : Option DisposalCostCurve
  conservativeCostCurve : Option DisposalCostCurve := none
  minimumQuantity_pos : 0 < minimumQuantity
  quantityIncrement_pos : 0 < quantityIncrement

instance : DecidableEq ExecutionRoute := fun _ _ => decidable_of_iff' _ ExecutionRoute.ext_iff

/-- The account and the security of a route. -/
def ExecutionRoute.key (route : ExecutionRoute) : String × String :=
  (route.accountId, route.securityId)

/-- The first cost curve of a route on sound evidence. -/
def ExecutionRoute.qualifiedCurve (route : ExecutionRoute) (cutoffAt : Instant) :
    Option DisposalCostCurve :=
  ([route.costCurve, route.conservativeCostCurve].reduceOption).find?
    (·.evidence.problemCodes cutoffAt true = [])

namespace SampleBroker

/-- A curve that costs a commission only. -/
def curve (evidence : PositionEvidence) (commission : Amount) : DisposalCostCurve where
  versionId := "curve"
  commissionRatio := 0
  minimumCommission := commission.val
  tradingFeeRatio := 0
  settlementFeeRatio := 0
  taxRatio := 0
  slippageRatio := 0
  marketImpactRatio := 0
  dividendLots := []
  evidence
  commissionRatio_mem := Literal.zero_ratio
  minimumCommission_nonneg := commission.nonneg
  tradingFeeRatio_mem := Literal.zero_ratio
  settlementFeeRatio_mem := Literal.zero_ratio
  taxRatio_mem := Literal.zero_ratio
  slippageRatio_mem := Literal.zero_ratio
  marketImpactRatio_mem := Literal.zero_ratio

def route (accountId securityId : String) (lot : PositiveAmount) (odd : Bool) (t : Instant)
    (evidence : PositionEvidence) (commission : Amount) : ExecutionRoute where
  accountId
  securityId
  minimumQuantity := lot.val
  quantityIncrement := lot.val
  allowFullOddLot := odd
  firstSellableAt := t
  transferableAt := t
  rulesEvidence := evidence
  costCurve := some (curve evidence commission)
  minimumQuantity_pos := lot.pos
  quantityIncrement_pos := lot.pos

end SampleBroker

/-- What a holding has to do. -/
inductive TargetDirection where
  | hold
  | reduce
  | exit
  deriving DecidableEq

/-- How urgent an established target is. -/
inductive TargetPriority where
  | p0
  | p1
  | p2
  deriving DecidableEq

/-- A quantity that was established outside of the plan. -/
@[ext]
structure EstablishedQuantityTarget where
  targetId : String
  securityId : String
  targetQuantity : ℚ
  direction : TargetDirection
  qualified : Bool
  policyVersion : String
  priority : Option TargetPriority := none
  evidence : PositionEvidence
  targetQuantity_nonneg : 0 ≤ targetQuantity
  direction_ne_hold : direction ≠ .hold
  /-- A zero quantity is an explicit exit. -/
  exit_iff : direction = .exit ↔ targetQuantity = 0
  /-- A protective priority is an explicit exit. -/
  exit_of_p0 : priority = some .p0 → direction = .exit

instance : DecidableEq EstablishedQuantityTarget := fun _ _ =>
  decidable_of_iff' _ EstablishedQuantityTarget.ext_iff

/-- One request to plan the execution of a portfolio. -/
structure ExecutionPlanCommand where
  portfolioId : String
  authorizationId : String
  cutoffAt : Instant
  concentrationEventId : String
  stressEventId : String
  liquidityEventId : String
  drawdownEventId : String
  routes : List ExecutionRoute := []
  establishedTargets : List EstablishedQuantityTarget := []
  deriving DecidableEq

/-- The quantity of a security that may be kept. -/
structure ExecutionTarget where
  securityId : String
  targetQuantity : ℚ
  requiredSaleQuantity : Option ℚ
  sourceObligationIds : List String
  remainingQuantity : Option ℚ := none
  remainingGap : Option ℚ := none
  direction : TargetDirection
  roundingInducedFullSale : Bool := false
  deriving DecidableEq

/-- The direction that a quantity to keep asks for. -/
def directionOf (quantity : ℚ) : TargetDirection := if quantity = 0 then .exit else .reduce

/-- One sale of a plan. -/
structure ExecutionLeg where
  accountId : String
  securityId : String
  quantity : ℚ
  grossProceeds : ℚ
  disposalCost : ℚ
  netProceeds : ℚ
  route : ExecutionRoute
  deriving DecidableEq

/-- How a plan ended. -/
inductive PlanDisposition where
  | blocked
  | planned
  | reconfirmationRequired
  deriving DecidableEq

/-- How the costs of a plan were compared. -/
inductive CostRoutingBasis where
  | verifiedFullCost
  | conservativeBoundProportional
  deriving DecidableEq

/-- The result appended for one plan. -/
structure ExecutionPlanOutcome where
  disposition : PlanDisposition
  reasons : List String
  newExposureBlocked : Bool
  legs : List ExecutionLeg := []
  targets : List ExecutionTarget := []
  requiresConfirmation : Bool := false
  initialTargetSaleValue : Option ℚ := none
  projectedStressGap : Option ℚ := none
  projectedCashGap : Option ℚ := none
  projectedExposureGap : Option ℚ := none
  costRoutingBasis : Option CostRoutingBasis := none
  deriving DecidableEq

end StockProfiler.PositionManagement
