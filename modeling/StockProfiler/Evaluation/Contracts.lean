import StockProfiler.CandidateSelection.ReleaseContracts
import Mathlib.Algebra.Order.Field.Rat

/-!
# Standard evaluation

The inputs of standard outcomes, and the reports that are saved of them.
-/

namespace StockProfiler.Evaluation

/-- The costs of one trade. -/
structure TradingCosts where
  commission : ℚ
  fees : ℚ
  taxes : ℚ
  slippage : ℚ
  commission_nonneg : 0 ≤ commission := by decide
  fees_nonneg : 0 ≤ fees := by decide
  taxes_nonneg : 0 ≤ taxes := by decide
  slippage_nonneg : 0 ≤ slippage := by decide
  deriving DecidableEq

/-- The exact total of the costs of a trade. -/
def exactCosts (costs : TradingCosts) : ℚ :=
  costs.commission + costs.fees + costs.taxes + costs.slippage

/-- One authoritative fact about an outcome, with its clocks. -/
structure OutcomeEvidence where
  evidenceId : String
  sourceVersion : String
  effectiveAt : Instant
  publishedAt : Instant
  acquiredAt : Instant
  validatedAt : Instant
  correctsEvidenceId : Option String := none
  correctionReason : Option String := none
  evidenceId_ne : evidenceId ≠ "" := by decide
  acquired_le : acquiredAt ≤ validatedAt := by decide
  effective_le : effectiveAt ≤ max publishedAt (max acquiredAt validatedAt) := by decide
  corrects_iff : correctsEvidenceId.getD "" ≠ "" ↔ correctionReason.getD "" ≠ "" := by decide
  deriving DecidableEq

/-- When a fact has been published, acquired and validated. -/
def OutcomeEvidence.availableAt (evidence : OutcomeEvidence) : Instant :=
  max evidence.publishedAt (max evidence.acquiredAt evidence.validatedAt)

/-- Evidence that is published, acquired and validated as it takes effect. -/
def OutcomeEvidence.immediate (evidenceId : String) (t : Instant)
    (hid : evidenceId ≠ "" := by decide) : OutcomeEvidence where
  evidenceId
  sourceVersion := "1"
  effectiveAt := t
  publishedAt := t
  acquiredAt := t
  validatedAt := t
  evidenceId_ne := hid
  acquired_le := le_rfl
  effective_le := le_max_left _ _

/-- Why nothing could be bought in a session. -/
inductive UnavailableReason where
  | suspended
  | limitUp
  | noSellerLiquidity
  | purchaseExcluded
  deriving DecidableEq

/-- One session of an entry window. -/
structure EntrySession where
  closedAt : Instant
  buyable : Bool
  unavailableReason : Option UnavailableReason := none
  turnover : ℚ
  volume : ℚ
  costs : Option TradingCosts := none
  buyable_valid : buyable = true →
    0 < volume ∧ 0 < turnover ∧ costs.isSome ∧ unavailableReason = none := by decide
  unavailable_valid : buyable = false → unavailableReason.isSome := by decide
  deriving DecidableEq

/-- The observed sessions of an entry window. -/
structure EntryEvidence extends OutcomeEvidence where
  sessions : List EntrySession
  sessions_ne : sessions ≠ [] := by decide
  sessions_length : sessions.length ≤ 5 := by decide
  deriving DecidableEq

/-- The terminal value of a standard quantity. -/
structure TerminalEvidence extends OutcomeEvidence where
  price : ℚ
  quantityMultiplier : ℚ
  cashDistributions : ℚ
  actionsCompleteThrough : Instant
  costs : TradingCosts
  price_nonneg : 0 ≤ price := by decide
  multiplier_pos : 0 < quantityMultiplier := by decide
  distributions_nonneg : 0 ≤ cashDistributions := by decide
  deriving DecidableEq

/-- Entry or terminal evidence; an identity names one of them. -/
inductive MarketEvidence where
  | entry (evidence : EntryEvidence)
  | terminal (evidence : TerminalEvidence)
  deriving DecidableEq

/-- The part that both kinds of evidence have. -/
def MarketEvidence.fact : MarketEvidence → OutcomeEvidence
  | .entry evidence => evidence.toOutcomeEvidence
  | .terminal evidence => evidence.toOutcomeEvidence

/-- What is known of the outcome of one security. -/
structure StandardObservation where
  securityId : String
  entry : Option EntryEvidence := none
  terminal : Option TerminalEvidence := none
  deriving DecidableEq

/-- The evidence of an observation. -/
def StandardObservation.evidence (observation : StandardObservation) : List MarketEvidence :=
  (observation.entry.map .entry).toList ++ (observation.terminal.map .terminal).toList

/-- A request to resolve the outcomes of one retained source event. -/
structure StandardOutcomeCommand where
  selectionEventId : Option String := none
  candidateEventId : Option String := none
  cutoffAt : Instant
  marketCalendarVersion : String
  standardQuantity : ℚ
  observations : List StandardObservation
  previousEventId : Option String := none
  quantity_pos : 0 < standardQuantity := by decide
  source_valid : selectionEventId.isSome ≠ candidateEventId.isSome := by decide
  deriving DecidableEq

/-- The event whose outcomes are resolved. -/
def StandardOutcomeCommand.sourceEventId (command : StandardOutcomeCommand) : String :=
  (command.selectionEventId <|> command.candidateEventId).getD ""

/-- The populations that outcomes are counted in. -/
inductive EvaluationPopulation where
  | selection
  | probability
  | candidate
  deriving DecidableEq

/-- The name of a population. -/
def EvaluationPopulation.name : EvaluationPopulation → String
  | .selection => "SELECTION"
  | .probability => "PROBABILITY"
  | .candidate => "CANDIDATE"

/-- The populations in the order in which they are reported. -/
def EvaluationPopulation.all : List EvaluationPopulation := [.selection, .probability, .candidate]

/-- An identity that is admitted to a population with its source. -/
structure EvaluationRegistration where
  evaluationId : String
  population : EvaluationPopulation
  sourceEventId : String
  securityId : String
  frozenProbability : Option ℚ
  registeredAt : Instant
  admissionReason : String
  standardQuantity : ℚ := 100
  marketCalendarVersion : String

/-- How far the outcome of a member is known. -/
inductive EvaluationState where
  | pending
  | unavailable
  | achieved
  | notAchieved
  deriving DecidableEq

/-- Whether a state is an outcome. -/
def EvaluationState.isResolved (state : EvaluationState) : Bool :=
  state ∈ [.achieved, .notAchieved]

/-- One member of a population, as it is reported. -/
structure EvaluationMember where
  evaluationId : String
  population : EvaluationPopulation
  sourceEventId : String
  frozenProbability : Option ℚ := none
  inclusionReason : String := "FROZEN_SELECTION_MEMBER"
  securityId : String
  maturesAt : Instant
  state : EvaluationState
  entryAt : Option Instant := none
  entryPrice : Option ℚ := none
  netTotalReturn : Option ℚ := none
  entryExpired : Bool := false
  observation : Option StandardObservation := none
  deriving DecidableEq

/-- Whether the evidence of a population suffices to adjudicate it. -/
inductive FormalAdjudication where
  | indeterminate
  | evidenceComplete
  deriving DecidableEq

/-- The counts of one population. -/
structure PopulationCounts where
  registered : ℕ
  due : ℕ
  evaluable : ℕ
  missing : ℕ
  immature : ℕ
  achieved : ℕ
  notAchieved : ℕ
  formalAdjudication : FormalAdjudication
  deriving DecidableEq

/-- How far a standard exit is known. -/
inductive ExitPositionState where
  | pending
  | unavailable
  | evaluable
  deriving DecidableEq

/-- The standard position of a candidate that was bought. -/
structure StandardExitPosition where
  lifecycleId : String
  candidateEvaluationId : String
  sourceEventId : String
  securityId : String
  initialExposure : ℚ := 1
  currentExposure : ℚ := 1
  entryAt : Instant
  entryPrice : ℚ
  maturesAt : Instant
  state : ExitPositionState
  deriving DecidableEq

/-- The saved outcomes of one source event at a cutoff. -/
structure StandardOutcomeReport where
  selectionEventId : Option String
  candidateEventId : Option String
  cutoffAt : Instant
  previousEventId : Option String
  members : List EvaluationMember
  populations : List (EvaluationPopulation × PopulationCounts)
  reportVersion : ℕ
  exitPositions : List StandardExitPosition := []
  deriving DecidableEq

/-- The evidence that a report retains. -/
def StandardOutcomeReport.evidence (report : StandardOutcomeReport) : List MarketEvidence :=
  (report.members.filterMap (·.observation)).flatMap (·.evidence)

end StockProfiler.Evaluation
