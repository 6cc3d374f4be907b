import Mathlib.Data.List.FinRange
import Mathlib.Data.List.MinMax
import StockProfiler.Core.LinearModel
import StockProfiler.Portfolio.AllocationContracts

/-!
# The discrete allocation model

The exact checks of an allocation, and the mixed integer model from which an
optimizer proposes one. Each route is encoded by whether it is selected, by a count
of its increments and by its fee, and each member by whether it is covered.
-/

namespace StockProfiler.Portfolio

open PositionManagement

/-- What some members may be bought for together. -/
structure Capacity (m : ℕ) where
  members : List (Fin m)
  remaining : ℚ
  reason : String
  members_nodup : members.Nodup

/-- Routes to members, with the capacities that they share. Every route is capped in price
before it is planned, and targets are never below zero. -/
structure AllocationProblem (n m : ℕ) where
  routes : Fin n → AcquisitionRoute
  routeMembers : Fin n → Fin m
  targets : Fin m → ℚ
  probabilities : Fin m → ℚ
  accountCash : Dict String ℚ
  cash : ℚ
  stressRemaining : ℚ
  shock : ℚ
  capacities : List (Capacity m)
  priceCap_isSome : ∀ route, (routes route).priceCap.isSome
  targets_nonneg : ∀ member, 0 ≤ targets member
  shock_pos : 0 < shock

/-- What a continuous allocation buys of every member. -/
structure Principals (m : ℕ) where
  amount : Fin m → ℚ
  nonneg : ∀ member, 0 ≤ amount member

variable {n m : ℕ} (problem : AllocationProblem n m) (continuous : Principals m) (route : Fin n)
  (member : Fin m) (quantities amounts : Fin n → ℚ)

/-- The price cap of a route. -/
def AllocationProblem.price : ℚ := (problem.routes route).priceCap.getD 0

/-- What a minimum buy on a route costs, fees apart. -/
def AllocationProblem.minimum : ℚ :=
  (problem.routes route).minimumQuantity * problem.price route

/-- Amounts on some of the routes. -/
def routeSum (p : Fin n → Prop) [DecidablePred p] : ℚ :=
  sumWhere (List.finRange n) amounts p

/-- Amounts on the routes of a member. -/
def memberSum (member : Fin m) : ℚ :=
  routeSum amounts (problem.routeMembers · = member)

/-- What is spent on a route for an amount, with its fees. -/
def expenditure (route : Fin n) : ℚ :=
  amounts route + (problem.routes route).cost .exact (amounts route)

/-- What is lost on a route under stress. -/
def stressLoss (route : Fin n) : ℚ :=
  amounts route * (problem.shock + (problem.routes route).disposalFrictionRatio)

/-- Every monetary capacity holds. -/
def capacityIsFeasible (principals : Fin m → ℚ) (routePrincipals : Fin n → ℚ) : Prop :=
  ((∀ member, 0 ≤ principals member) ∧ ∀ route, 0 ≤ routePrincipals route) ∧
    routeSum (expenditure problem routePrincipals) (fun _ => True) ≤ problem.cash ∧
    (∀ account ∈ problem.accountCash, routeSum (expenditure problem routePrincipals)
      (fun route => (problem.routes route).accountId = account.1) ≤ account.2) ∧
    (∀ capacity ∈ problem.capacities,
      (capacity.members.map principals).sum ≤ max 0 capacity.remaining) ∧
    routeSum (stressLoss problem routePrincipals) (fun _ => True) ≤ problem.stressRemaining

instance (principals : Fin m → ℚ) (routePrincipals : Fin n → ℚ) :
    Decidable (capacityIsFeasible problem principals routePrincipals) :=
  inferInstanceAs (Decidable (_ ∧ _))

/-- The principal of every route of a plan. -/
def planAmounts (route : Fin n) : ℚ :=
  quantities route * problem.price route

/-- The least minimum buy among the selected routes of a member. -/
def minimumUnit : ℚ :=
  (((List.finRange n).filter fun route =>
    problem.routeMembers route = member ∧ 0 < quantities route).map problem.minimum).min?.getD 0

/-- A member may exceed its continuous principal by one minimum buy, up to its target. -/
def discretePrincipalCeiling : ℚ :=
  if 0 < continuous.amount member then
    min (problem.targets member)
      (continuous.amount member + minimumUnit problem member quantities)
  else 0

/-- A positive quantity is the minimum and a whole number of increments. -/
def LegalLot (route : AcquisitionRoute) (quantity : ℚ) : Prop :=
  0 < quantity → route.minimumQuantity ≤ quantity ∧
    ((quantity - route.minimumQuantity) / route.quantityIncrement).den = 1

instance (route : AcquisitionRoute) (quantity : ℚ) : Decidable (LegalLot route quantity) :=
  inferInstanceAs (Decidable (_ → _))

/-- The continuous principals together. -/
def continuousTotal : ℚ := ((List.finRange m).map continuous.amount).sum

/-- A plan keeps the monetary capacities, the lots and the continuous total. -/
def AffordablePlan : Prop :=
  capacityIsFeasible problem (memberSum problem (planAmounts problem quantities))
      (planAmounts problem quantities) ∧
    (∀ route, LegalLot (problem.routes route) (quantities route)) ∧
    routeSum (planAmounts problem quantities) (fun _ => True) ≤ continuousTotal continuous

/-- A plan passes every exact check. -/
def LegalPlan : Prop :=
  AffordablePlan problem continuous quantities ∧
    ∀ member, memberSum problem (planAmounts problem quantities) member ≤
      discretePrincipalCeiling problem continuous member quantities

instance (quantities : Fin n → ℚ) : Decidable (AffordablePlan problem continuous quantities) :=
  inferInstanceAs (Decidable (_ ∧ _))

instance (quantities : Fin n → ℚ) : Decidable (LegalPlan problem continuous quantities) :=
  inferInstanceAs (Decidable (_ ∧ _))

/-- The variables of the model. A threshold and its slacks measure one prefix of the ratios. -/
inductive AllocationVariable (n m : ℕ) where
  | enabled (route : Fin n)
  | fee (route : Fin n)
  | increments (route : Fin n)
  | coverage (member : Fin m)
  | threshold (size : ℕ)
  | slack (size : ℕ) (member : Fin m)
  deriving DecidableEq

/-- An expression of the model. -/
abbrev AllocationTerms (n m : ℕ) := Linear (AllocationVariable n m)

/-- The minimum buy when selected, and the increments. -/
def amountTerms : AllocationTerms n m :=
  [(.enabled route, problem.minimum route),
    (.increments route, (problem.routes route).quantityIncrement * problem.price route)]

/-- The variables of a route. -/
def routeColumns : List (Column (AllocationVariable n m)) :=
  [{ name := .enabled route, upper := some 1, integer := true },
    { name := .fee route },
    { name := .increments route
      upper := some (problem.targets (problem.routeMembers route) / problem.price route)
      integer := true }]

/-- No increments without the minimum buy, and a fee from the minimum commission and from the
commission ratio on. -/
def routeRows : List (Row (AllocationVariable n m)) :=
  let upper := problem.targets (problem.routeMembers route)
  [{ terms := [(.increments route, (problem.routes route).quantityIncrement),
        (.enabled route, -(upper / problem.price route))]
     upper := some 0 },
    { terms := [(.fee route, 1), (.enabled route, -(problem.routes route).minimumCommission)]
      lower := some 0 },
    { terms := Linear.overlay [(.fee route, 1)]
        ((amountTerms problem route).scale (-(problem.routes route).commissionRatio))
      lower := some 0 }]

/-- What is spent on a route. -/
def expenditureTerms : AllocationTerms n m :=
  ((amountTerms problem route).scale (1 + (problem.routes route).otherCostRatio)).set
    (.fee route) 1

/-- What is lost on a route under stress. -/
def stressTerms : AllocationTerms n m :=
  (amountTerms problem route).scale
    (problem.shock + (problem.routes route).disposalFrictionRatio)

/-- The sum of an expression over some of the routes. -/
def sumTerms (terms : Fin n → AllocationTerms n m) (p : Fin n → Prop) [DecidablePred p] :
    AllocationTerms n m :=
  Linear.total (((List.finRange n).filter (p ·)).map terms)

/-- Routes within the cash of the portfolio and of every account, the stress and the shared
capacities. -/
def baseModel : LinearModel (AllocationVariable n m) where
  columns := (List.finRange n).flatMap (routeColumns problem)
  rows := (List.finRange n).flatMap (routeRows problem) ++
    [{ terms := sumTerms (expenditureTerms problem) (fun _ => True)
       upper := some (max 0 problem.cash) }] ++
    (problem.accountCash.map fun account =>
      { terms := sumTerms (expenditureTerms problem)
          (fun route => (problem.routes route).accountId = account.1)
        upper := some (max 0 account.2) }) ++
    [{ terms := sumTerms (stressTerms problem) (fun _ => True)
       upper := some (max 0 problem.stressRemaining) }] ++
    problem.capacities.map fun capacity =>
      { terms := sumTerms (amountTerms problem)
          (fun route => problem.routeMembers route ∈ capacity.members)
        upper := some (max 0 capacity.remaining) }

/-- What is bought of a member. -/
def memberTerms : AllocationTerms n m :=
  sumTerms (amountTerms problem) (problem.routeMembers · = member)

/-- The target of a member that is continuously funded. -/
def memberUpper : ℚ :=
  if 0 < continuous.amount member then problem.targets member else 0

/-- The routes of a member. -/
def memberRouteIndices : List (Fin n) :=
  (List.finRange n).filter (problem.routeMembers · = member)

/-- A member within its target and, on each selected route, within the residual allowance.
It is covered exactly when one of its routes is selected. -/
def memberRows : List (Row (AllocationVariable n m)) :=
  { terms := memberTerms problem member
    upper := some (memberUpper problem continuous member) } ::
  ((memberRouteIndices problem member).map fun route =>
    -- Naming the selection again overwrites what the minimum buy contributes.
    { terms := (memberTerms problem member).set (.enabled route)
        (memberUpper problem continuous member)
      upper := some (memberUpper problem continuous member + continuous.amount member +
        problem.minimum route) }) ++
  { terms := Linear.overlay [(.coverage member, 1)]
      ((memberRouteIndices problem member).map (.enabled ·, -1))
    upper := some 0 } ::
  (memberRouteIndices problem member).map fun route =>
    { terms := [(.enabled route, 1), (.coverage member, -1)]
      upper := some 0 }

/-- The discrete model, in which one member may be required. -/
def discreteModel (required : Option (Fin m)) : LinearModel (AllocationVariable n m) where
  columns := (baseModel problem).columns ++ (List.finRange m).map fun member =>
    { name := .coverage member, upper := some 1, integer := true }
  rows := (baseModel problem).rows ++
    (List.finRange m).flatMap (memberRows problem continuous) ++
    { terms := sumTerms (amountTerms problem) (fun _ => True)
      upper := some (continuousTotal continuous) } ::
    required.toList.map fun member => { terms := [(.coverage member, 1)], lower := some 1 }

/-- The quantities that an assignment of the variables buys. -/
def planOf (x : AllocationVariable n m → ℚ) (route : Fin n) : ℚ :=
  (problem.routes route).minimumQuantity * x (.enabled route) +
    (problem.routes route).quantityIncrement * x (.increments route)

end StockProfiler.Portfolio
