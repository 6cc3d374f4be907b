import Mathlib.Data.String.Basic
import Mathlib.Tactic.Simps.Basic
import StockProfiler.Core.MaximumFlow
import StockProfiler.Core.Timeline
import StockProfiler.Portfolio.Contracts

/-!
# Deadline-aware hypothetical funding

Cash resources, transfer routes and dated obligations become a network over
account and time, and the obligations are covered by a maximum flow through it.
Hypothetical funding stays apart from confirmed cash availability.
-/

namespace StockProfiler.Portfolio

open PositionManagement

/-- Terms under which a position can be sold for cash. -/
@[ext]
structure SaleFundingTerms where
  accountId : String
  securityId : String
  minimumQuantity : ℚ
  quantityIncrement : ℚ
  allowFullOddLot : Bool
  commissionRatio : ℚ
  minimumCommission : ℚ
  otherCostRatio : ℚ
  transferableAt : Instant
  evidence : PositionEvidence
  minimumQuantity_pos : 0 < minimumQuantity
  quantityIncrement_pos : 0 < quantityIncrement
  commissionRatio_mem : 0 ≤ commissionRatio ∧ commissionRatio < 1
  minimumCommission_nonneg : 0 ≤ minimumCommission
  otherCostRatio_mem : 0 ≤ otherCostRatio ∧ otherCostRatio < 1

/-- One hypothetical sale and the cash it would bring. -/
structure MaximumFundingLeg where
  accountId : String
  securityId : String
  quantity : ℚ
  grossProceeds : ℚ
  disposalCost : ℚ
  netProceeds : ℚ
  deadlineFundingContribution : ℚ
  transferableAt : Instant
  terms : SaleFundingTerms

/-- One dated transfer of cash between accounts, up to a capacity. -/
@[ext]
structure CashTransferRoute where
  routeId : String
  sourceAccountId : String
  targetAccountId : String
  departureAt : Instant
  arrivalAt : Instant
  capacity : ℚ
  evidence : PositionEvidence
  capacity_nonneg : 0 ≤ capacity

instance : DecidableEq CashTransferRoute := fun _ _ => decidable_of_iff' _ CashTransferRoute.ext_iff

/-- How much of one obligation can be covered. -/
structure ObligationFunding where
  obligationId : String
  targetAccountId : String
  latestUsableAt : Instant
  requiredCash : ℚ
  maximumCoveredCash : ℚ
  uncoveredGap : ℚ

/-- The funding of all obligations by cash and hypothetical sales. -/
structure FundingAssessment where
  reasons : List String
  maximumFundableCash : Option ℚ
  uncoveredGap : Option ℚ
  plan : List MaximumFundingLeg
  obligations : List ObligationFunding

/-- An amount of cash that an account has from some instant on. -/
structure CashResource where
  accountId : String
  availableAt : Instant
  amount : ℚ

/-- A validated cash resource. -/
structure AvailableCashResource extends CashResource where
  amount_nonneg : 0 ≤ amount

/-- A node of the funding network. -/
inductive FundingNode where
  | source
  | sink
  | account (accountId : String) (instant : Instant)
  | resource (index : ℕ)
  | route (routeId : String)
  | obligation (obligationId : String)
  deriving DecidableEq

/-- The instants at which anything can happen, in order. -/
def fundingTimes (resources : List CashResource) (routes : List CashTransferRoute)
    (obligations : List DatedCashObligation) : List Instant :=
  sortedSet (resources.map (·.availableAt) ++ routes.map (·.departureAt) ++
    routes.map (·.arrivalAt) ++ obligations.map (·.latestUsableAt))

/-- Cash held in an account from one instant to the next. -/
@[simps]
def holdoverArc (totalCash : ℚ) (accountId : String) (between : Instant × Instant) :
    Arc FundingNode :=
  ⟨.account accountId between.1, .account accountId between.2, totalCash⟩

/-- The cash of a resource, numbered, out of the source. -/
@[simps]
def resourceArc (r : CashResource × ℕ) : Arc FundingNode :=
  ⟨.source, .resource r.2, r.1.amount⟩

/-- The cash of a resource into its account. -/
@[simps]
def creditArc (r : CashResource × ℕ) : Arc FundingNode :=
  ⟨.resource r.2, .account r.1.accountId r.1.availableAt, r.1.amount⟩

/-- Cash that leaves on a route. -/
@[simps]
def departureArc (r : CashTransferRoute) : Arc FundingNode :=
  ⟨.account r.sourceAccountId r.departureAt, .route r.routeId, r.capacity⟩

/-- Cash that arrives over a route. -/
@[simps]
def arrivalArc (r : CashTransferRoute) : Arc FundingNode :=
  ⟨.route r.routeId, .account r.targetAccountId r.arrivalAt, r.capacity⟩

/-- Cash set aside for an obligation by its deadline. -/
@[simps]
def deadlineArc (capacity : DatedCashObligation → ℚ) (o : DatedCashObligation) :
    Arc FundingNode :=
  ⟨.account o.targetAccountId o.latestUsableAt, .obligation o.obligationId, capacity o⟩

/-- Cash that covers an obligation. -/
@[simps]
def coverageArc (capacity : DatedCashObligation → ℚ) (o : DatedCashObligation) :
    Arc FundingNode :=
  ⟨.obligation o.obligationId, .sink, capacity o⟩

/-- Routes in order of their identity. -/
def sortedRoutes (routes : List CashTransferRoute) : List CashTransferRoute :=
  routes.insertionSort fun a b => a.routeId ≤ b.routeId

/-- Obligations in order of deadline and identity. -/
def sortedObligations (obligations : List DatedCashObligation) : List DatedCashObligation :=
  obligations.insertionSort fun a b => a.latestUsableAt < b.latestUsableAt ∨
    a.latestUsableAt = b.latestUsableAt ∧ a.obligationId ≤ b.obligationId

theorem sortedRoutes_perm (routes : List CashTransferRoute) : (sortedRoutes routes).Perm routes :=
  List.perm_insertionSort _ _

theorem sortedObligations_perm (obligations : List DatedCashObligation) :
    (sortedObligations obligations).Perm obligations :=
  List.perm_insertionSort _ _

/-- Cash held in every account from every instant to the next. -/
def holdoverArcs (totalCash : ℚ) (resources : List CashResource)
    (routes : List CashTransferRoute) (obligations : List DatedCashObligation) :
    List (Arc FundingNode) :=
  (sortedSet (resources.map (·.accountId))).flatMap fun accountId =>
    (successive (fundingTimes resources routes obligations)).map (holdoverArc totalCash accountId)

/-- All arcs of a funding network, in the order in which they are added. -/
def fundingArcs (totalCash : ℚ) (capacity : DatedCashObligation → ℚ)
    (resources : List CashResource) (routes : List CashTransferRoute)
    (obligations : List DatedCashObligation) : List (Arc FundingNode) :=
  holdoverArcs totalCash resources routes obligations ++
  resources.zipIdx.flatMap (fun r => [resourceArc r, creditArc r]) ++
  (sortedRoutes routes).flatMap (fun r => [departureArc r, arrivalArc r]) ++
  (sortedObligations obligations).flatMap fun o => [deadlineArc capacity o, coverageArc capacity o]

variable (ctx : DecimalContext)

/-- The network of a list of funding arcs. -/
def fundingNetwork (arcs : List (Arc FundingNode)) : Network FundingNode :=
  .ofArcs ctx [.source, .sink] arcs

/-- Whether every account that a route or an obligation names holds a resource. -/
def accountsKnown (resources : List CashResource) (routes : List CashTransferRoute)
    (obligations : List DatedCashObligation) : Bool :=
  let accounts := resources.map (·.accountId)
  routes.all (fun r => r.sourceAccountId ∈ accounts ∧ r.targetAccountId ∈ accounts) &&
    obligations.all fun o => o.targetAccountId ∈ accounts

/-- The funding of one obligation, read off the residual of its arc into the sink. -/
def obligationFunding (covered : Network FundingNode) (o : DatedCashObligation) :
    ObligationFunding :=
  let gap := covered.residual (.obligation o.obligationId) .sink
  { obligationId := o.obligationId
    targetAccountId := o.targetAccountId
    latestUsableAt := o.latestUsableAt
    requiredCash := o.amount
    maximumCoveredCash := ctx.sub o.amount gap
    uncoveredGap := gap }

/-- Cover the obligations by maximum flows: once up to their amounts, and once without
a limit. There is no result when an account is unknown or the steps run out. -/
def fundObligations (steps : ℕ) (resources : List CashResource) (routes : List CashTransferRoute)
    (obligations : List DatedCashObligation) : Option (ℚ × List ObligationFunding × List ℚ) := do
  let totalCash := ctx.sum (resources.map (·.amount))
  if obligations = [] then
    return (totalCash, [], resources.map (·.amount))
  if !accountsKnown resources routes obligations then
    none
  let limited := fundingArcs totalCash (·.amount) resources routes obligations
  let unlimited := fundingArcs totalCash (fun _ => totalCash) resources routes obligations
  let (_, covered) ← Network.maximumFlow ctx .source .sink steps 0 (fundingNetwork ctx limited)
  let (maximum, used) ← Network.maximumFlow ctx .source .sink steps 0 (fundingNetwork ctx unlimited)
  return (maximum, (sortedObligations obligations).map (obligationFunding ctx covered),
    resources.zipIdx.map fun r => ctx.sub r.1.amount (used.residual .source (.resource r.2)))

/-- Project already validated cash resources without crediting current balances. -/
def assessAvailableCash (steps : ℕ) (resources : List AvailableCashResource)
    (routes : List CashTransferRoute) (obligations : List DatedCashObligation) :
    Option (List ObligationFunding) :=
  (fundObligations ctx steps (resources.map (·.toCashResource)) routes obligations).map (·.2.1)

variable (term : SaleFundingTerms) (unit : PositionActionUnit)

/-- A position that is known to bring no cash: nothing sellable, or only restrictions
withhold it. -/
def knownUnsellable : Bool :=
  unit.exactStatisticalActionQuantity = some 0 ||
    (!unit.reasons.isEmpty && unit.reasons.all fun reason =>
      "EXECUTION_RESTRICTION_ACTIVE:".toList.isPrefixOf reason.toList)

/-- The largest quantity the terms allow to sell out of a sellable maximum. -/
def fundingQuantity (maximum : ℚ) : ℚ :=
  if term.allowFullOddLot ∧ some maximum = unit.totalQuantity then maximum
  else if maximum < term.minimumQuantity then 0
  else
    let lots : ℤ := ⌊ctx.div (ctx.sub maximum term.minimumQuantity) term.quantityIncrement⌋
    ctx.add term.minimumQuantity (ctx.mul lots term.quantityIncrement)

/-- The cost of selling a quantity. -/
def disposalCost (quantity gross : ℚ) : ℚ :=
  if 0 < quantity then
    ctx.add (max term.minimumCommission (ctx.mul gross term.commissionRatio))
      (ctx.mul gross term.otherCostRatio)
  else 0

/-- The sale of one position at its price, unless it brings nothing. -/
def fundingLeg (maximum price : ℚ) : Option MaximumFundingLeg :=
  let quantity := fundingQuantity ctx term unit maximum
  let gross := ctx.mul quantity price
  let cost := disposalCost ctx term quantity gross
  if gross ≤ cost then none
  else some
    { accountId := unit.accountId
      securityId := unit.securityId
      quantity
      grossProceeds := gross
      disposalCost := cost
      netProceeds := ctx.sub gross cost
      deadlineFundingContribution := 0
      transferableAt := term.transferableAt
      terms := term }

/-- The sales of all positions, or the reason why they are unknown. -/
def fundingPlan (ctx : DecimalContext) (cutoffAt : Instant)
    (bySecurity : Dict (String × String) SaleFundingTerms) :
    List PositionActionUnit → Except String (List MaximumFundingLeg)
  | [] => .ok []
  | unit :: units =>
    if knownUnsellable unit then fundingPlan ctx cutoffAt bySecurity units
    else match bySecurity.get? (unit.accountId, unit.securityId) with
      -- Complete terms cover every position that reaches this lookup.
      | none => .error "SALE_FUNDING_TERMS_INCOMPLETE"
      | some term =>
        if term.evidence.problemCodes cutoffAt true ≠ [] ∨ term.transferableAt < cutoffAt then
          .error "SALE_FUNDING_EVIDENCE_FAILED"
        else match unit.exactStatisticalActionQuantity, unit.marketPrice with
          | some maximum, some price => do
            let legs ← fundingPlan ctx cutoffAt bySecurity units
            return (fundingLeg ctx term unit maximum price).toList ++ legs
          | _, _ => .error "SALE_FUNDING_QUANTITY_UNKNOWN"

/-- A funding assessment that fails for a reason. -/
def FundingAssessment.failed (reason : String) : FundingAssessment where
  reasons := [reason]
  maximumFundableCash := none
  uncoveredGap := none
  plan := []
  obligations := []

/-- Whether the routes are distinct, dated after the cutoff and soundly evidenced. -/
def routesValid (snapshot : ReconciledPositionSnapshot) (routes : List CashTransferRoute) : Bool :=
  let accountIds := snapshot.cashStates.map (·.accountId)
  (routes.map (·.routeId)).Nodup && routes.all fun route =>
    route.sourceAccountId ∈ accountIds ∧ route.targetAccountId ∈ accountIds ∧
    route.sourceAccountId ≠ route.targetAccountId ∧
    snapshot.cutoffAt ≤ route.departureAt ∧ route.departureAt ≤ route.arrivalAt ∧
    route.evidence.problemCodes snapshot.cutoffAt true = []

/-- Whether every position that may be sold has terms, and no other one has. -/
def termsComplete (snapshot : ReconciledPositionSnapshot) (terms : List SaleFundingTerms) : Bool :=
  let keys := terms.map fun term => (term.accountId, term.securityId)
  let captured := snapshot.actionUnits.map fun unit => (unit.accountId, unit.securityId)
  let required := (snapshot.actionUnits.filter (!knownUnsellable ·)).map fun unit =>
    (unit.accountId, unit.securityId)
  keys.Nodup && required.all (· ∈ keys) && keys.all (· ∈ captured)

/-- Fund the obligations from transferable cash and hypothetical sales. -/
def assessFunding (steps : ℕ) (snapshot : ReconciledPositionSnapshot)
    (terms : List SaleFundingTerms) (obligations : List DatedCashObligation)
    (routes : List CashTransferRoute) : Option FundingAssessment :=
  if !routesValid snapshot routes then some (.failed "CASH_TRANSFER_EVIDENCE_FAILED")
  else if !termsComplete snapshot terms then some (.failed "SALE_FUNDING_TERMS_INCOMPLETE")
  else match fundingPlan ctx snapshot.cutoffAt
      (Dict.ofLast (terms.map fun term => ((term.accountId, term.securityId), term)))
      snapshot.actionUnits with
    | .error reason => some (.failed reason)
    | .ok plan =>
      let cash : List CashResource := snapshot.cashStates.filterMap fun state =>
        state.transferableCash.map fun amount => ⟨state.accountId, snapshot.cutoffAt, amount⟩
      let sales : List CashResource := plan.map fun leg =>
        ⟨leg.accountId, leg.transferableAt, leg.netProceeds⟩
      (fundObligations ctx steps (cash ++ sales) routes obligations).map
        fun (maximum, results, used) =>
          let contributions := used.drop cash.length
          { reasons := []
            maximumFundableCash := some maximum
            uncoveredGap := some (ctx.sum (results.map (·.uncoveredGap)))
            plan := (plan.zip contributions).filterMap fun (leg, contribution) =>
              if obligations = [] ∨ 0 < contribution then
                some { leg with deadlineFundingContribution := contribution }
              else none
            obligations := results }

end StockProfiler.Portfolio
