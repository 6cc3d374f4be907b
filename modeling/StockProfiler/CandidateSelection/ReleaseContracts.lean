import StockProfiler.Core.Clock
import Mathlib.Data.Rat.Defs

/-!
# Candidate releases

The frozen command of a candidate release, the qualification snapshots that it names, and
the outcome that is saved.
-/

namespace StockProfiler.CandidateSelection

/-- A state of the market. -/
inductive MarketState where
  | bull
  | bear
  | sideways
  deriving DecidableEq

/-- The name of a market state. -/
def MarketState.name : MarketState → String
  | .bull => "BULL"
  | .bear => "BEAR"
  | .sideways => "SIDEWAYS"

/-- The standing of a qualification for one market state. -/
inductive MarketStateQualificationStatus where
  | notObtained
  | valid
  | atRisk
  | suspended
  | revoked
  | expired
  deriving DecidableEq

/-- Snapshot of one persisted qualification decision for one market state. -/
structure MarketStateQualification where
  marketState : MarketState
  status : MarketStateQualificationStatus
  qualificationId : String
  capabilityVersion : String
  marketCalendarVersion : String
  recordedAt : Instant
  currentStatusRecordedAt : Option Instant := none
  validThrough : Instant
  deriving DecidableEq

/-- Whether a status carries authority. -/
def MarketStateQualificationStatus.isActive (status : MarketStateQualificationStatus) : Bool :=
  status ∈ [.valid, .atRisk]

/-- What the independent risk assessment says of a candidate. -/
inductive RiskStatus where
  | accepted
  | rejected
  | failed
  deriving DecidableEq

/-- Frozen member evidence handed from research and independent risk. -/
structure CandidateInput where
  securityId : String
  researchId : String
  rawSuccessScore : ℚ
  dataComplete : Bool
  riskStatus : RiskStatus
  deriving DecidableEq

/-- A market session from the immutable calendar used for a candidate batch; its date is a day
number. -/
structure ReleaseSession where
  marketDate : ℤ
  opensAt : Instant
  closesAt : Instant
  sessionSequence : ℤ
  deriving DecidableEq

/-- Complete input for one immutable, calibrated candidate publication. -/
structure CandidateReleaseCommand where
  batchId : String
  capabilityVersion : String
  researchObjectId : String
  researchEventId : String
  knowledgeCutoff : Instant
  publishedAt : Instant
  lastCompletedMarketSessionSequence : ℤ
  marketState : MarketState
  marketCalendarVersion : String
  qualifications : List MarketStateQualification := []
  calibratorVersion : String
  candidates : List CandidateInput
  marketSessions : List ReleaseSession
  deriving DecidableEq

/-- How a candidate release ends. -/
inductive CandidateReleaseDisposition where
  | candidates
  | validNoCandidates
  | recommendationAbstained
  | failed
  | blocked
  deriving DecidableEq

/-- The name of a disposition. -/
def CandidateReleaseDisposition.name : CandidateReleaseDisposition → String
  | .candidates => "CANDIDATES"
  | .validNoCandidates => "VALID_NO_CANDIDATES"
  | .recommendationAbstained => "RECOMMENDATION_ABSTAINED"
  | .failed => "FAILED"
  | .blocked => "BLOCKED"

/-- Whether a disposition is one of a complete batch, which may be published. -/
def CandidateReleaseDisposition.isReleasable (disposition : CandidateReleaseDisposition) : Bool :=
  disposition ∈ [.candidates, .validNoCandidates, .recommendationAbstained]

/-- Which part of the system an availability failure comes from. -/
inductive CandidateAvailabilityFailure where
  | data
  | system
  | calibration
  deriving DecidableEq

/-- What a member is told about the qualification of the market state. -/
inductive CandidateQualificationExplanationStatus where
  | valid
  | atRisk
  | notQualified
  deriving DecidableEq

/-- One member of a batch with its calibrated probability. -/
structure CalibratedMember where
  securityId : String
  researchId : String
  rawSuccessScore : ℚ
  calibratedProbability : Option ℚ
  candidate : Bool
  riskStatus : RiskStatus
  marketStateQualified : Bool
  marketStateQualificationStatus : CandidateQualificationExplanationStatus
  dataComplete : Bool
  validMarketDates : List ℤ
  reasons : List String
  deriving DecidableEq

/-- The populations that a batch counts for. -/
structure CandidatePopulation where
  validMonthly : Bool
  recommendationCoverageDenominator : Bool
  recommendationCoveragePass : Bool
  availabilityFailure : Option CandidateAvailabilityFailure := none
  deriving DecidableEq

/-- The saved outcome of a candidate release. -/
structure CandidateReleaseOutcome where
  batchId : String
  disposition : CandidateReleaseDisposition
  knowledgeCutoff : Instant
  publishedAt : Instant
  capabilityVersion : String
  researchObjectId : String
  researchEventId : String
  marketCalendarVersion : String
  marketState : MarketState
  qualification : Option MarketStateQualification := none
  members : List CalibratedMember
  population : CandidatePopulation
  validMarketDates : List ℤ
  reasons : List String
  availabilityFailure : Option CandidateAvailabilityFailure := none
  deriving DecidableEq

end StockProfiler.CandidateSelection
