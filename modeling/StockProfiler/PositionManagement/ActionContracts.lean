import StockProfiler.PositionManagement.ExecutionContracts

/-!
# Position action contracts

Frozen position conclusions, kept separate from security evidence and fills. The
evidence of a security says what its forecast bounds are and which hard gates
were established.
-/

namespace StockProfiler.PositionManagement

/-- What a forecast is about. -/
inductive ForecastTarget where
  /-- The downside within twenty sessions. -/
  | d20
  /-- The value after sixty sessions. -/
  | v60
  deriving DecidableEq

/-- A forecast probability with the bounds that are guarded. -/
structure GuardedExitProbability where
  target : ForecastTarget
  lossBoundary : Option String
  guardedLower : Option ℚ
  guardedUpper : Option ℚ

/-- A gate that liquidates a holding whatever else is known of it. -/
structure ExitHardGate where
  gateId : String

/-- The saved evidence of a security, as far as an action reads it. -/
structure ExitOutcome where
  hardGates : List ExitHardGate := []
  standardPrice : Option ℚ := none
  probabilities : List GuardedExitProbability := []

/-- What an assessment of a security was about. -/
structure SecurityAssessment where
  cutoffAt : Instant
  securityId : String
  lifecycleId : String

/-- The loss boundary that the downside is read at. -/
inductive RiskGrid where
  | five
  | ten
  deriving DecidableEq

/-- The text of a loss boundary. -/
def RiskGrid.text : RiskGrid → String
  | .five => "0.05"
  | .ten => "0.10"

/-- The bands and budgets of statistical actions. -/
@[ext]
structure PositionActionPolicy where
  versionId : String
  downsideSafeUpper : ℚ
  downsideRiskyLower : ℚ
  valueEstablishedLower : ℚ
  valueDeniedUpper : ℚ
  reductionRatio : ℚ
  lifecycleCostRatio : ℚ
  maximumCostRatio : ℚ
  maximumMinimumCommission : ℚ
  maximumDividendTaxPerShare : ℚ
  downsideSafeUpper_mem : 0 ≤ downsideSafeUpper ∧ downsideSafeUpper < 1
  downsideRiskyLower_mem : 0 < downsideRiskyLower ∧ downsideRiskyLower ≤ 1
  valueEstablishedLower_mem : 0 < valueEstablishedLower ∧ valueEstablishedLower ≤ 1
  valueDeniedUpper_mem : 0 ≤ valueDeniedUpper ∧ valueDeniedUpper < 1
  reductionRatio_mem : 0 < reductionRatio ∧ reductionRatio < 1
  lifecycleCostRatio_mem : 0 < lifecycleCostRatio ∧ lifecycleCostRatio < 1
  maximumCostRatio_mem : 0 ≤ maximumCostRatio ∧ maximumCostRatio < 1
  maximumMinimumCommission_nonneg : 0 ≤ maximumMinimumCommission
  maximumDividendTaxPerShare_nonneg : 0 ≤ maximumDividendTaxPerShare
  /-- The downside bands are disjoint. -/
  downside_disjoint : downsideSafeUpper < downsideRiskyLower
  /-- The value bands are disjoint. -/
  value_disjoint : valueDeniedUpper < valueEstablishedLower

instance : DecidableEq PositionActionPolicy :=
  fun _ _ => decidable_of_iff' _ PositionActionPolicy.ext_iff

/-- A policy whose bands lie apart and whose reductions are by one half. -/
def samplePolicy : PositionActionPolicy where
  versionId := "policy"
  downsideSafeUpper := 1 / 10
  downsideRiskyLower := 1 / 2
  valueEstablishedLower := 3 / 5
  valueDeniedUpper := 2 / 5
  reductionRatio := 1 / 2
  lifecycleCostRatio := 1 / 10
  maximumCostRatio := 1 / 10
  maximumMinimumCommission := 10
  maximumDividendTaxPerShare := 1
  downsideSafeUpper_mem := by norm_num
  downsideRiskyLower_mem := by norm_num
  valueEstablishedLower_mem := by norm_num
  valueDeniedUpper_mem := by norm_num
  reductionRatio_mem := Literal.half_mem
  lifecycleCostRatio_mem := by norm_num
  maximumCostRatio_mem := by norm_num
  maximumMinimumCommission_nonneg := by norm_num
  maximumDividendTaxPerShare_nonneg := by norm_num
  downside_disjoint := by norm_num
  value_disjoint := by norm_num

/-- One request for a position conclusion. -/
structure PositionActionCommand where
  cutoffAt : Instant
  securityId : String
  lifecycleId : String
  securityEventId : String
  execution : ExecutionPlanCommand
  policy : PositionActionPolicy
  /-- The targets of an action come from committed host evidence. -/
  establishedTargets_eq_nil : execution.establishedTargets = [] := by rfl
  /-- The plan of an action has its cutoff. -/
  execution_cutoffAt : execution.cutoffAt = cutoffAt := by rfl
  deriving DecidableEq

/-- The holding that the reductions or the costs of a lifecycle are measured against. -/
@[ext]
structure StatisticalReductionAnchor where
  eventId : String
  quantity : ℚ
  marketValue : ℚ
  frozenAt : Instant
  quantity_pos : 0 < quantity
  marketValue_pos : 0 < marketValue

instance : DecidableEq StatisticalReductionAnchor := fun _ _ =>
  decidable_of_iff' _ StatisticalReductionAnchor.ext_iff

/-- How an action ended. -/
inductive ActionDisposition where
  | concluded
  | abstained
  | dataObservation
  | blocked
  deriving DecidableEq

/-- The result appended for one action. -/
structure PositionActionOutcome where
  disposition : ActionDisposition
  securityId : String
  lifecycleId : String
  direction : Option TargetDirection := none
  modelDirection : Option TargetDirection := none
  targetQuantity : Option ℚ := none
  currentQuantity : Option ℚ := none
  selectedGrid : Option RiskGrid := none
  reasons : List String := []
  deterministicExecution : Option ExecutionPlanOutcome := none
  execution : Option ExecutionPlanOutcome := none
  anchor : Option StatisticalReductionAnchor := none
  costAnchor : Option StatisticalReductionAnchor := none
  deriving DecidableEq

end StockProfiler.PositionManagement
