import StockProfiler.Core.Decimal
import StockProfiler.Core.Dict
import StockProfiler.Evaluation.Contracts

/-!
# Standard exits

The policy under which standard exits are evaluated, the forecasts and the sessions that are
observed of them, and what is reported of a position.
-/

namespace StockProfiler.Evaluation

/-- The rates at which an exit is charged. -/
structure ExitCostCurve where
  commissionRate : ℚ
  minimumCommission : ℚ
  feeRate : ℚ
  taxRate : ℚ
  slippageRate : ℚ
  deriving DecidableEq

variable (ctx : DecimalContext)

/-- The costs of selling for a gross amount. -/
def ExitCostCurve.charge (curve : ExitCostCurve) (gross : ℚ) : ℚ :=
  if gross ≤ 0 then 0
  else ctx.add (max curve.minimumCommission (ctx.mul gross curve.commissionRate))
    (ctx.mul gross (ctx.add (ctx.add curve.feeRate curve.taxRate) curve.slippageRate))

/-- The state of the market that a forecast is for. -/
inductive ExitMarketState where
  | bull
  | bear
  | sideways
  deriving DecidableEq

/-- A registered policy of standard exits. -/
structure ExitPolicy where
  versionId : String
  startMonth : String
  endMonth : String
  marketCalendarVersion : String
  modelVersion : String
  costCurve : ExitCostCurve
  lossGrids : List ℚ := [1 / 20, 1 / 10, 3 / 20, 1 / 5]
  selectedGrid : ℚ
  states : List ExitMarketState
  fixedReduceLoss : ℚ := 1 / 10
  fixedExitLoss : ℚ := 1 / 5
  trailingReduceLoss : ℚ := 1 / 10
  trailingExitLoss : ℚ := 1 / 5
  safeDownside : ℚ := 1 / 5
  riskyDownside : ℚ := 2 / 5
  establishedValue : ℚ := 7 / 10
  deniedValue : ℚ := 3 / 10
  deriving DecidableEq

/-- Who vouches for a fact. -/
inductive EvidenceAuthority where
  | disclosure
  | exchange
  | model
  | news
  deriving DecidableEq

/-- What a fact is about. -/
inductive EvidenceFamily where
  | security
  | market
  | risk
  deriving DecidableEq

/-- How a value is compared with a threshold. -/
inductive PropositionOperator where
  | le
  | ge
  | eq
  deriving DecidableEq

/-- A proposition whose truth ends a thesis. -/
structure ExitProposition where
  propositionId : String
  metric : String
  authority : EvidenceAuthority
  source : String
  operator : PropositionOperator
  threshold : ℚ
  authority_mem : authority ∈ [.disclosure, .exchange] := by decide
  deriving DecidableEq

/-- Whose thesis it is. -/
inductive ThesisOrigin where
  | system
  | external
  deriving DecidableEq

/-- A thesis on a position, which is frozen before it can be falsified. -/
structure ExitThesis where
  thesisId : String
  securityId : String
  lifecycleId : String
  origin : ThesisOrigin
  registeredAt : Instant
  validUntil : Instant
  propositions : List ExitProposition
  propositions_ne_nil : propositions ≠ [] := by decide
  deriving DecidableEq

/-- What was observed of a security. -/
structure SecurityEvidence where
  evidenceId : String
  family : EvidenceFamily
  securityId : String
  source : String
  authority : EvidenceAuthority
  publicAt : Instant
  acquiredAt : Instant
  validatedAt : Instant
  validUntil : Instant
  complete : Bool
  metric : String
  value : ℚ
  deriving DecidableEq

/-- Whether evidence of a security can be used at a cutoff. -/
def SecurityEvidence.usableAt (evidence : SecurityEvidence) (securityId : String)
    (cutoff : Instant) : Bool :=
  evidence.securityId = securityId ∧ evidence.complete = true ∧
    (evidence.family ∈ [.security, .market] ∧ evidence.authority = .exchange ∨
      evidence.family = .risk ∧ evidence.authority ∈ [.disclosure, .exchange]) ∧
    evidence.publicAt ≤ evidence.acquiredAt ∧ evidence.acquiredAt ≤ evidence.validatedAt ∧
    evidence.validatedAt ≤ cutoff ∧ cutoff ≤ evidence.validUntil

/-- Whether a comparison with a threshold holds. -/
def PropositionOperator.holds (operator : PropositionOperator) (value threshold : ℚ) : Bool :=
  match operator with
  | .le => value ≤ threshold
  | .ge => threshold ≤ value
  | .eq => value = threshold

/-- Whether `thesis_falsification_gates` finds a proposition of a thesis that evidence falsifies. -/
def ExitThesis.falsifiedBy (thesis : ExitThesis) (evidence : SecurityEvidence) : Bool :=
  thesis.propositions.any fun proposition =>
    evidence.authority = proposition.authority ∧ evidence.source = proposition.source ∧
      evidence.metric = proposition.metric ∧ thesis.registeredAt ≤ evidence.publicAt ∧
      evidence.publicAt ≤ thesis.validUntil ∧
      proposition.operator.holds evidence.value proposition.threshold = true

/-- Why nothing could be sold in a session. -/
inductive BlockedReason where
  | suspended
  | limitDown
  | noBids
  | restricted
  deriving DecidableEq

/-- One session of an exit path. -/
structure ExitSession where
  closedAt : Instant
  price : ℚ
  vwap : ℚ
  sellable : Bool
  blockedReason : Option BlockedReason := none
  quantityMultiplier : ℚ
  cashPerInitialShare : ℚ
  costs : ExitCostCurve
  sellable_iff : sellable = true ↔ blockedReason = none := by decide
  deriving DecidableEq

/-- A probability with the errors on both of its sides. -/
structure GuardedExitProbability where
  point : ℚ
  lowerError : ℚ
  upperError : ℚ
  deriving DecidableEq

/-- The lower bound of a guarded probability. -/
def GuardedExitProbability.lower (p : GuardedExitProbability) : ℚ :=
  max 0 (ctx.sub p.point p.lowerError)

/-- The upper bound of a guarded probability. -/
def GuardedExitProbability.upper (p : GuardedExitProbability) : ℚ :=
  min 1 (ctx.add p.point p.upperError)

/-- What the authority of a security established, which ends a position. -/
inductive ExitHardReason where
  | authoritativeDelisting
  | authoritativeTradingTermination
  | securityIneligible
  deriving DecidableEq

/-- The evidence that a hard exit rests on: a fact, or what falsifies the thesis of an event. -/
inductive ExitHardEvidence where
  | fact (reason : ExitHardReason) (evidence : OutcomeEvidence)
  | thesisFalsified (thesisEventId : String) (evidence : SecurityEvidence)
  deriving DecidableEq

/-- The instant at which hard evidence is available. -/
def ExitHardEvidence.availableAt : ExitHardEvidence → Instant
  | .fact _ evidence => evidence.availableAt
  | .thesisFalsified _ evidence =>
    max evidence.publicAt (max evidence.acquiredAt evidence.validatedAt)

/-- The instant at which hard evidence is effective. -/
def ExitHardEvidence.effectiveAt : ExitHardEvidence → Instant
  | .fact _ evidence => evidence.effectiveAt
  | .thesisFalsified _ evidence => evidence.publicAt

/-- A forecast that is frozen at the close of a session. -/
structure ExitForecast where
  predictionId : String
  cutoffAt : Instant
  frozenAt : Instant
  trainingWatermarkAt : Instant
  modelVersion : String
  state : ExitMarketState
  dataComplete : Bool
  qualifiedScope : Bool
  newEvidenceId : String
  /-- The guarded probabilities of losses, by the grid of the loss. -/
  downside : Dict ℚ GuardedExitProbability
  value : Option GuardedExitProbability
  baselineProbabilities : Dict String (Dict String ℚ) := []
  quantiles : Dict String ℚ := []
  hardExit : Bool
  hardEvidence : Option ExitHardEvidence := none
  frozen_eq : frozenAt = cutoffAt := by decide
  trained_lt : trainingWatermarkAt < cutoffAt := by decide
  hard_iff : hardExit = true ↔ hardEvidence.isSome = true := by decide
  hard_available : ∀ evidence ∈ hardEvidence,
    evidence.availableAt ≤ cutoffAt ∧ evidence.effectiveAt ≤ cutoffAt := by decide
  deriving DecidableEq

/-- What is observed of the exit of a standard position. -/
structure ExitObservation extends OutcomeEvidence where
  lifecycleId : String
  sessions : List ExitSession
  forecasts : List ExitForecast
  deriving DecidableEq

/-- A sale of a standard exposure, and the session whose signal caused it. -/
structure StandardExitTrade where
  signalAt : Instant
  executedAt : Instant
  exposureSold : ℚ
  price : ℚ
  costs : ℚ
  netProceeds : ℚ
  deriving DecidableEq

/-- The path of a position under one policy. -/
structure ExitPolicyPath where
  currentExposure : ℚ
  pendingTarget : ℚ
  trades : List StandardExitTrade
  dailyWealth : List ℚ
  dates : List Instant
  netTotalReturn : Option ℚ
  grossTotalReturn : Option ℚ
  maximumDrawdown : ℚ
  exitCost : ℚ
  turnover : ℚ
  deriving DecidableEq

/-- The policies that are compared. -/
inductive ExitPolicyName where
  | primary
  | holdEnd
  | hardOnly
  | fixedLoss
  | trailingDrawdown
  deriving DecidableEq

/-- The policies in the order in which they are evaluated. -/
def ExitPolicyName.all : List ExitPolicyName :=
  [.primary, .holdEnd, .hardOnly, .fixedLoss, .trailingDrawdown]

/-- What a forecast asks for. -/
inductive ExitDirection where
  | hold
  | reduce
  | exit
  | abstain
  | dataFailed
  deriving DecidableEq

/-- Whether a direction is a statistical one. -/
def ExitDirection.isStatistical (direction : ExitDirection) : Bool :=
  direction ∈ [.hold, .reduce, .exit]

/-- A forecast with what it led to. -/
structure ExitDecisionLabel where
  predictionId : String
  cutoffAt : Instant
  state : ExitMarketState
  direction : ExitDirection
  statistical : Bool
  downsideReturn : Option ℚ := none
  valueReturn : Option ℚ := none
  upsideCapture : Option ℚ := none
  reversalWithoutEvidence : Bool := false
  forecast : ExitForecast
  deriving DecidableEq

/-- What is missing of the evaluation of a position. -/
inductive ExitMissingReason where
  | pathMissing
  | forecastMissing (closedAt : Instant)
  | terminalPathMissing
  deriving DecidableEq

/-- The evaluated exit of a standard position. -/
structure ExitPositionResult extends StandardExitPosition where
  initialQuantity : ℚ
  observation : Option ExitObservation
  policies : Dict ExitPolicyName ExitPolicyPath
  decisions : List ExitDecisionLabel
  missingReasons : List ExitMissingReason
  replayConsistent : Bool := true
  deriving DecidableEq

end StockProfiler.Evaluation
