import Mathlib.Data.List.Lex
import Mathlib.Data.List.MinMax
import Mathlib.Data.Prod.Lex
import Mathlib.Data.String.Basic
import StockProfiler.Core.Checks
import StockProfiler.Core.Dict
import StockProfiler.PositionManagement.ExecutionContracts

/-!
# Execution routing

Account-local legal quantities and deterministic full-cost comparisons. Every way to
sell at least what a target requires is compared, and the first one of least rank is
taken.
-/

namespace StockProfiler.PositionManagement

/-- Why no plan was routed: a reason that blocks it, or a comparison that cannot be made. -/
inductive RoutingFailure where
  | blocked (reason : String)
  | raised

/-- The routes by account and security. -/
def routesByKey (routes : List ExecutionRoute) : Dict (String × String) ExecutionRoute :=
  Dict.ofLast (routes.map fun route => (route.key, route))

/-- The units by account and security. -/
def unitsByKey (units : List PositionActionUnit) : Dict (String × String) PositionActionUnit :=
  Dict.ofLast (units.map fun unit => ((unit.accountId, unit.securityId), unit))

/-- The keys in order of account and security. -/
def sortedKeys {α : Type*} (entries : Dict (String × String) α) : List (String × String) :=
  (sortedSet (entries.keys.map toLex)).map ofLex

/-- How many increments above the minimum a route can sell. -/
def incrementCount (ctx : DecimalContext) (route : ExecutionRoute) (maximum : ℚ) : ℕ :=
  if route.minimumQuantity ≤ maximum then
    (⌊ctx.div (ctx.sub maximum route.minimumQuantity) route.quantityIncrement⌋ + 1).toNat
  else 0

/-- The quantities that a route can sell, in order. -/
def legalQuantities (ctx : DecimalContext) (route : ExecutionRoute) (maximum : ℚ)
    (total : Option ℚ) : List ℚ :=
  let steps := (List.range (incrementCount ctx route maximum)).map fun i =>
    ctx.add route.minimumQuantity (ctx.mul i route.quantityIncrement)
  sortedSet (0 :: steps ++
    if route.allowFullOddLot ∧ total = some maximum then [maximum] else [])

/-- The quantities of a unit that may be sold, and whether their cost is only bounded. -/
structure UnitOptions where
  quantities : List ℚ
  conservative : Bool

/-- What may be sold of a unit whose security has something to sell. -/
def unitOptions (ctx : DecimalContext) (cutoffAt : Instant) (active : List String)
    (route : Option ExecutionRoute) (unit : PositionActionUnit) :
    Except RoutingFailure UnitOptions :=
  if unit.exactStatisticalActionQuantity = some 0 ∨ unit.securityId ∉ active then
    .ok ⟨[0], false⟩
  else match unit.exactStatisticalActionQuantity, unit.marketPrice with
    | some maximum, some _ =>
      match route with
      | none => .error (.blocked "EXECUTION_COST_EVIDENCE_FAILED")
      | some route =>
        match route.qualifiedCurve cutoffAt with
        | none => .error (.blocked "EXECUTION_COST_EVIDENCE_FAILED")
        | some curve =>
          if route.rulesEvidence.problemCodes cutoffAt true ≠ [] ∨
              route.firstSellableAt < cutoffAt ∨ route.transferableAt < route.firstSellableAt then
            .error (.blocked "EXECUTION_RULE_EVIDENCE_FAILED")
          else if 100000 < incrementCount ctx route maximum then
            .error (.blocked "EXECUTION_SEARCH_LIMIT")
          else .ok ⟨legalQuantities ctx route maximum unit.totalQuantity,
            route.costCurve ≠ some curve⟩
    | _, _ => .error (.blocked "EXECUTION_QUANTITY_UNKNOWN")

/-- What may be sold of every unit. -/
abbrev RoutingOptions := Dict (String × String) UnitOptions

/-- The securities that have something to sell. -/
def activeSecurities (targets : List ExecutionTarget) : List String :=
  (targets.filter (·.requiredSaleQuantity ≠ some 0)).map (·.securityId)

/-- What may be sold of every unit, unless a unit blocks the plan. -/
def routingOptions (ctx : DecimalContext) (command : ExecutionPlanCommand)
    (units : Dict (String × String) PositionActionUnit) (targets : List ExecutionTarget) :
    Except RoutingFailure RoutingOptions :=
  units.mapM fun entry => do
    let options ← unitOptions ctx command.cutoffAt (activeSecurities targets)
      ((routesByKey command.routes).get? entry.1) entry.2
    return (entry.1, options)

/-- Every choice of one item from each list, the last one varying first. -/
def choices {α : Type*} : List (List α) → List (List α)
  | [] => [[]]
  | items :: rest => items.flatMap fun item => (choices rest).map (item :: ·)

/-- The product of the sizes of lists. -/
def choiceCount {α : Type*} (lists : List (List α)) : ℕ := (lists.map List.length).prod

section Legs

variable (ctx : DecimalContext) (command : ExecutionPlanCommand)
  (units : Dict (String × String) PositionActionUnit)

/-- The sale of a quantity of a unit, which is only asked for where the unit has a route. -/
def makeLeg (key : String × String) (quantity : ℚ) : Option ExecutionLeg := do
  let route ← (routesByKey command.routes).get? key
  let curve ← route.qualifiedCurve command.cutoffAt
  let unit ← units.get? key
  let price ← unit.marketPrice
  let gross := ctx.mul quantity price
  let cost := curve.cost ctx quantity price
  return { accountId := key.1
           securityId := key.2
           quantity
           grossProceeds := gross
           disposalCost := cost
           netProceeds := ctx.sub gross cost
           route }

/-- The sales of the quantities that are not zero. -/
def makeLegs (keys : List (String × String)) (values : List ℚ) : Option (List ExecutionLeg) :=
  ((keys.zip values).filter (·.2 ≠ 0)).mapM fun entry => makeLeg ctx command units entry.1 entry.2

end Legs

section Ranks

variable (ctx : DecimalContext) (command : ExecutionPlanCommand)
  (units : Dict (String × String) PositionActionUnit) (conservative : List String)
  (legs : List ExecutionLeg)

/-- The sum of an amount over the legs that satisfy a test. -/
def legSum (amount : ExecutionLeg → ℚ) (p : ExecutionLeg → Bool) : ℚ :=
  ctx.sum ((legs.filter p).map amount)

/-- The quantity that legs sell of a unit. -/
def legQuantity (key : String × String) : ℚ :=
  ((Dict.ofLast (legs.map fun leg => ((leg.accountId, leg.securityId), leg.quantity))).get?
    key).getD 0

/-- The sellable quantity of a unit. -/
def sellableQuantity (unit : PositionActionUnit) : ℚ :=
  unit.exactStatisticalActionQuantity.getD 0

/-- How far the sales of a security are from a proportional split over its units. -/
def proportionalDeviation (securityId : String) : ℚ :=
  let own := units.filter (·.1.2 = securityId)
  let total := ctx.sum (own.map fun entry => legQuantity legs entry.1)
  let sellable := ctx.sum (own.map fun entry => sellableQuantity entry.2)
  ctx.sum (own.map fun entry => |ctx.sub (ctx.mul (legQuantity legs entry.1) sellable)
    (ctx.mul total (sellableQuantity entry.2))|)

/-- The rank of a candidate: the funding gap, early proceeds, verified cost, deviations and bounded
cost, then the quantities themselves. -/
def rank (fundingGap : List ExecutionLeg → Option ℚ) (legs : List ExecutionLeg) :
    Option (List ℚ) :=
  let windows := sortedSet (command.routes.map (·.firstSellableAt))
  let securities := sortedSet (units.map (·.1.2))
  (fundingGap legs).map fun gap =>
    gap :: windows.map (fun window => ctx.neg
        (legSum ctx legs (·.grossProceeds) (·.route.firstSellableAt = window))) ++
      [legSum ctx legs (·.disposalCost) (·.securityId ∉ conservative),
        ctx.sum ((securities.filter (· ∈ conservative)).map (proportionalDeviation ctx units legs)),
        legSum ctx legs (·.disposalCost) (·.securityId ∈ conservative),
        ctx.sum
          ((securities.filter (· ∉ conservative)).map (proportionalDeviation ctx units legs))] ++
      (sortedKeys units).map (legQuantity legs)

/-- The first candidate of least rank, unless a candidate has no rank. -/
def leastRanked (rankOf : List ExecutionLeg → Option (List ℚ))
    (candidates : List (List ExecutionLeg)) : Option (List ExecutionLeg) := do
  let ranked ← candidates.mapM fun legs => (rankOf legs).map (·, legs)
  let least ← ranked.argmin Prod.fst
  return least.2

end Ranks

section Targets

variable (ctx : DecimalContext) (command : ExecutionPlanCommand)
  (units : Dict (String × String) PositionActionUnit) (options : RoutingOptions)
  (fundingGap : Option (List ExecutionLeg → Option ℚ))

/-- The securities of units whose cost is only bounded. -/
def conservativeSecurities : List String :=
  (options.filter (·.2.conservative)).map (·.1.2)

/-- The rank by the funding gap, where there is one. -/
def rankOf (legs : List ExecutionLeg) : Option (List ℚ) :=
  rank ctx command units (conservativeSecurities options) (fundingGap.getD fun _ => some 0) legs

/-- The ways to meet a target, and the target with what is left of it. -/
structure TargetRouting where
  variants : List (List ExecutionLeg)
  revised : ExecutionTarget

/-- The target with what a sale leaves of it. -/
def reviseTarget (target : ExecutionTarget) (required total : ℚ) : ExecutionTarget :=
  let current := ctx.add target.targetQuantity required
  { target with
    remainingQuantity := some (ctx.sub current total)
    remainingGap := some (max 0 (ctx.sub required total))
    roundingInducedFullSale := total = current ∧ 0 < target.targetQuantity }

/-- The quantities of each unit of a security that may be sold. -/
def securityOptions (securityId : String) : List ((String × String) × List ℚ) :=
  ((sortedKeys units).filter (·.2 = securityId)).map fun key =>
    (key, ((options.get? key).map (·.quantities)).getD [])

/-- The least total that meets a requirement as far as it can be met. -/
def leastTotal (lists : List (List ℚ)) (required : ℚ) : Option ℚ := do
  let maxima ← lists.mapM List.max?
  let achievable := min required (ctx.sum maxima)
  (((choices lists).map ctx.sum).filter (achievable ≤ ·)).min?

/-- The variants that are compared across targets: all of them where they share a funding gap,
otherwise the one of least rank. -/
def keptVariants (variants : List (List ExecutionLeg)) : Option (List (List ExecutionLeg)) :=
  if fundingGap.isSome then some variants
  else (leastRanked (rankOf ctx command units options fundingGap) variants).map ([·])

/-- Every way to sell the least quantity that meets a target. -/
def routeTarget (target : ExecutionTarget) : Except RoutingFailure TargetRouting := do
  let own := securityOptions units options target.securityId
  let lists := own.map (·.2)
  require (choiceCount lists ≤ 200000) (.blocked "EXECUTION_SEARCH_LIMIT")
  let required ← known target.requiredSaleQuantity (.blocked "EXECUTION_QUANTITY_UNKNOWN")
  let total ← known (leastTotal ctx lists required) .raised
  let variants ← known (((choices lists).filter (ctx.sum · = total)).mapM
    (makeLegs ctx command units (own.map (·.1)))) .raised
  let kept ← known (keptVariants ctx command units options fundingGap variants) .raised
  return { variants := kept, revised := reviseTarget ctx target required total }

/-- The plan of the sales that were chosen for the targets. -/
def routedPlan (targets revised : List ExecutionTarget) (legs : List ExecutionLeg) :
    ExecutionPlanOutcome :=
  let incomplete : Bool := revised.any fun target => target.remainingGap.all (0 < ·)
  let reconfirm : Bool := revised.any (·.roundingInducedFullSale)
  { disposition := if incomplete then .blocked
      else if reconfirm then .reconfirmationRequired else .planned
    reasons := (if incomplete then ["RISK_REMEDIATION_BLOCKED"] else []) ++
      if reconfirm then ["TRADING_UNIT_FULL_SALE"] else []
    newExposureBlocked := targets.any (·.sourceObligationIds ≠ [])
    legs
    targets := revised
    requiresConfirmation := legs ≠ []
    costRoutingBasis := some (if conservativeSecurities options ≠ [] then
      .conservativeBoundProportional else .verifiedFullCost) }

end Targets

/-- The sales that meet the targets, unless something blocks them. -/
def routing (ctx : DecimalContext) (command : ExecutionPlanCommand)
    (snapshot : ReconciledPositionSnapshot) (targets : List ExecutionTarget)
    (fundingGap : Option (List ExecutionLeg → Option ℚ)) :
    Except RoutingFailure ExecutionPlanOutcome := do
  let units := unitsByKey snapshot.actionUnits
  require ((command.routes.map (·.key)).Nodup ∧
      ∀ route ∈ command.routes, units.keys.contains route.key)
    (.blocked "EXECUTION_ROUTE_SCOPE_INVALID")
  let options ← routingOptions ctx command units targets
  let routed ← targets.mapM (routeTarget ctx command units options fundingGap)
  let alternatives := routed.map (·.variants)
  require (choiceCount alternatives ≤ 200000) (.blocked "EXECUTION_SEARCH_LIMIT")
  let legs ← known (leastRanked (rankOf ctx command units options fundingGap)
    ((choices alternatives).map List.flatten)) .raised
  return routedPlan options targets (routed.map (·.revised)) legs

/-- A plan that sells nothing. -/
def blockedPlan (targets : List ExecutionTarget) (reason : String) : ExecutionPlanOutcome where
  disposition := .blocked
  reasons := [reason]
  newExposureBlocked := true
  targets := targets

/-- The plan of least rank for the targets; there is none where a comparison cannot be made. -/
def routeTargets (ctx : DecimalContext) (command : ExecutionPlanCommand)
    (snapshot : ReconciledPositionSnapshot) (targets : List ExecutionTarget)
    (fundingGap : Option (List ExecutionLeg → Option ℚ)) : Option ExecutionPlanOutcome :=
  match routing ctx command snapshot targets fundingGap with
  | .ok plan => some plan
  | .error (.blocked reason) => some (blockedPlan targets reason)
  | .error .raised => none

end StockProfiler.PositionManagement
