import Mathlib.Data.Prod.Lex
import Mathlib.Data.String.Basic
import StockProfiler.Core.StagedOptimum
import StockProfiler.Portfolio.AllocationModel

/-!
# Stages of the discrete allocation

Coverage is maximized first, then the ascending vector of funded ratios by the sums of
its first entries, the principal, the covered probabilities, the cost, the number of
orders and the amounts in the order of their identities. The objectives of a plan are
compared in the same order.
-/

namespace StockProfiler.Portfolio

open PositionManagement

variable {n m : ℕ} (problem : AllocationProblem n m) (continuous : Principals m)

/-- The number of covered members. -/
def coverageTerms : AllocationTerms n m := (List.finRange m).map fun member => (.coverage member, 1)

/-- More than any funded ratio. -/
def ratioBound : ℚ :=
  2 + (((List.finRange m).filter (0 < continuous.amount ·)).map fun member =>
    problem.targets member / continuous.amount member).max?.getD 0

/-- The funded ratio of a member. -/
def ratioTerms (member : Fin m) : AllocationTerms n m :=
  if 0 < continuous.amount member then
    (memberTerms problem member).scale (continuous.amount member)⁻¹
  else []

/-- The slack of a covered member reaches from its ratio to the threshold. -/
def prefixRow (size : ℕ) (member : Fin m) : Row (AllocationVariable n m) where
  terms := (((ratioTerms problem continuous member).set (.slack size member) 1).set
    (.threshold size) (-1)).set (.coverage member) (-ratioBound problem continuous)
  lower := some (-ratioBound problem continuous)

/-- The variables and rows that measure the first ratios. -/
def prefixModel (model : LinearModel (AllocationVariable n m)) (size : ℕ) :
    LinearModel (AllocationVariable n m) where
  columns := model.columns ++
    { name := .threshold size, upper := some (ratioBound problem continuous) } ::
    (List.finRange m).map fun member =>
      { name := .slack size member, upper := some (ratioBound problem continuous) }
  rows := model.rows ++ (List.finRange m).map (prefixRow problem continuous size)

/-- The sum of the first ratios. -/
def prefixTerms (size : ℕ) : AllocationTerms n m :=
  Linear.overlay [(.threshold size, (size : ℚ))]
    ((List.finRange m).map fun member => (.slack size member, -1))

/-- The number of covered members of a probability, fewer counting for more. -/
def probabilityTerms (probability : ℚ) : AllocationTerms n m :=
  ((List.finRange m).filter (problem.probabilities · = probability)).map fun member =>
    (.coverage member, -1)

/-- All probabilities but the greatest, in ascending order. -/
def lowProbabilities : List ℚ :=
  (sortedSet ((List.finRange m).map problem.probabilities)).dropLast

/-- The costs of all routes, less counting for more. -/
def costTerms : AllocationTerms n m :=
  Linear.total ((List.finRange n).map fun route =>
    ((amountTerms problem route).scale (-(problem.routes route).otherCostRatio)).set (.fee route)
      (-1))

/-- The number of selected routes, fewer counting for more. -/
def orderTerms : AllocationTerms n m := (List.finRange n).map fun route => (.enabled route, -1)

/-- Routes in the order of their securities and accounts. -/
def identityOrder : List (Fin n) :=
  (List.finRange n).insertionSort fun a b =>
    toLex ((problem.routes a).securityId, (problem.routes a).accountId) ≤
      toLex ((problem.routes b).securityId, (problem.routes b).accountId)

/-- At most two thousand variables, five thousand rows and five hundred and twelve solves. -/
def solveLimits : ModelSize := (2000, 5000, 512)

variable (milp : LinearModel (AllocationVariable n m) → AllocationTerms n m →
  Option (AllocationVariable n m → ℚ))

/-- The stage that fixes the sum of the first ratios. -/
def prefixStage (state : BudgetedModel (AllocationVariable n m)) (size : ℕ) :
    Option (BudgetedModel (AllocationVariable n m)) :=
  (maximizeAndFix solveLimits milp
    ⟨prefixModel problem continuous state.model size, state.solveCount⟩
    (prefixTerms size)).map Prod.fst

/-- The stage that fixes an objective. -/
def objectiveStage (state : BudgetedModel (AllocationVariable n m)) (terms : AllocationTerms n m) :
    Option (BudgetedModel (AllocationVariable n m)) :=
  (maximizeAndFix solveLimits milp state terms).map Prod.fst

/-- The stages after the coverage, each one on the model and the assignment of the last. -/
def laterStages (count : ℕ)
    (first : BudgetedModel (AllocationVariable n m) × (AllocationVariable n m → ℚ)) :
    Option (BudgetedModel (AllocationVariable n m) × (AllocationVariable n m → ℚ)) := do
  let state ← (List.range count).foldlM
    (fun state size => prefixStage problem continuous milp state (size + 1)) first.1
  let state ← objectiveStage milp state (sumTerms (amountTerms problem) fun _ => True)
  let state ← (lowProbabilities problem).foldlM
    (fun state probability => objectiveStage milp state (probabilityTerms problem probability))
    state
  let state ← objectiveStage milp state (costTerms problem)
  let state ← objectiveStage milp state orderTerms
  (identityOrder problem).foldlM
    (fun current route => maximizeAndFix solveLimits milp current.1 (amountTerms problem route))
    (state, first.2)

/-- The quantities of the last stage, and how often the budget was used by then. -/
def discreteSolution (solveCount : ℕ) (required : Option (Fin m)) :
    Option ((Fin n → ℚ) × ℕ) :=
  if n = 0 then some (fun _ => 0, solveCount) else do
    let first ← maximizeAndFix solveLimits milp
      ⟨discreteModel problem continuous required, solveCount⟩ coverageTerms
    let count := ⌊coverageTerms.value first.2⌋₊
    if count = 0 then return (fun _ => 0, first.1.solveCount)
    let last ← laterStages problem continuous milp count first
    return (planOf problem last.2, last.1.solveCount)

/-- The number of stages that cover a number of members. -/
def stageCount (count : ℕ) : ℕ :=
  if count = 0 then 1 else count + (lowProbabilities problem).length + n + 4

/-- The stages that cover a number of members keep to the budget. -/
structure WithinBudget (solveCount : ℕ) (required : Option (Fin m)) (count : ℕ) : Prop where
  columns : 3 * n + m + count * (m + 1) ≤ 2000
  rows : (discreteModel problem continuous required).rows.length + count * m +
    stageCount problem count ≤ 5000
  solves : solveCount + stageCount problem count ≤ 512

instance (solveCount : ℕ) (required : Option (Fin m)) (count : ℕ) :
    Decidable (WithinBudget problem continuous solveCount required count) :=
  decidable_of_iff (_ ∧ _ ∧ _) ⟨fun ⟨columns, rows, solves⟩ => ⟨columns, rows, solves⟩,
    fun h => ⟨h.columns, h.rows, h.solves⟩⟩

variable (quantities : Fin n → ℚ)

/-- The members of which something is bought. -/
def coveredMembers : List (Fin m) :=
  (List.finRange m).filter (0 < memberSum problem (planAmounts problem quantities) ·)

/-- The funded ratios of the covered members, in ascending order. -/
def fundedRatios : List ℚ :=
  ((coveredMembers problem quantities).map fun member =>
    memberSum problem (planAmounts problem quantities) member /
      continuous.amount member).insertionSort (· ≤ ·)

/-- The probabilities of the covered members, in ascending order. -/
def coveredProbabilities : List ℚ :=
  ((coveredMembers problem quantities).map problem.probabilities).insertionSort (· ≤ ·)

/-- What plans are compared by, from the first objective on. -/
def objectives : List (List ℚ) :=
  [[((coveredMembers problem quantities).length : ℚ)],
    fundedRatios problem continuous quantities,
    [routeSum (planAmounts problem quantities) fun _ => True],
    coveredProbabilities problem quantities,
    [routeSum (fun route => (problem.routes route).cost .exact
      (planAmounts problem quantities route)) fun _ => True],
    [(((List.finRange n).countP (0 < quantities ·) : ℕ) : ℚ)],
    (identityOrder problem).map (planAmounts problem quantities)]

/-- Which way an objective is better. -/
inductive AllocationDirection where
  | minimize
  | maximize

/-- The cost and the number of orders are minimized, and all else is maximized. -/
def objectiveDirections : List AllocationDirection :=
  [.maximize, .maximize, .maximize, .maximize, .minimize, .minimize, .maximize]

/-- The first objective that differs is better. -/
def StrictlyBetter : List AllocationDirection → List (List ℚ) → List (List ℚ) → Prop
  | direction :: directions, alternative :: alternatives, selected :: others =>
    if alternative = selected then StrictlyBetter directions alternatives others
    else match direction with
      | .maximize => selected < alternative
      | .minimize => alternative < selected
  | _, _, _ => False

end StockProfiler.Portfolio
