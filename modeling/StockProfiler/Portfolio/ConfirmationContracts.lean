import StockProfiler.Portfolio.AllocationContracts

/-!
# Candidate-confirmation contracts

Complete plan choices and reservation facts; no order authority.
-/

namespace StockProfiler.Portfolio

open PositionManagement

/-- What the user decides on one security. -/
inductive Choice where
  | accept
  | decline
  | defer
  deriving DecidableEq

/-- The choice on one security of a plan. -/
structure CandidateChoice where
  securityId : String
  choice : Choice

/-- The risk assessments that an allocation relies on. -/
structure RiskHandoff where
  portfolioId : String
  authorizationId : String
  concentrationEventId : String
  stressEventId : String
  liquidityEventId : String
  drawdownEventId : String

/-- What a confirmation reads of an allocation command. -/
structure CandidateAllocationCommand where
  /-- The envelope command less its observations, as dumped for comparison. -/
  beta : Option String := none
  replacesPlanEventId : Option String := none
  cutoffAt : Instant
  riskHandoff : RiskHandoff
  candidateEventId : String
  commitments : List AllocationCommitment := []
  /-- Every evidence record of the command. -/
  evidence : List PositionEvidence := []
  commitmentIds_nodup : (commitments.map (·.commitmentId)).Nodup := by decide

/-- Whether evidence of a cutoff has expired by a later instant. -/
def currentEvidenceExpired (evidence : List PositionEvidence) (cutoff now : Instant) : Bool :=
  evidence.any fun e => e.cutoffAt = some cutoff ∧ e.expiresAt.any (· < now)

/-- What a confirmation command asks for. -/
inductive ConfirmationOperation where
  | submit
  | withdraw
  | review
  deriving DecidableEq

/-- The execution that the user has seen, if there was one. -/
structure SeenCandidateExecution where
  executionId : Option String

/-- The complete choices on one plan, with a revalidation of its allocation. -/
structure CandidateConfirmationCommand where
  operation : ConfirmationOperation
  userId : String
  portfolioId : String
  candidateBatchId : String
  planEventId : String
  planId : String
  seenConfirmationId : Option String
  seenExecution : Option SeenCandidateExecution := none
  withdrawalPositionEventId : Option String
  choices : List CandidateChoice
  revalidation : CandidateAllocationCommand

/-- Whether a command would act on a plan, rather than release what it reserved. -/
def CandidateConfirmationCommand.acts (command : CandidateConfirmationCommand) : Bool :=
  command.operation = .submit ∨ command.operation = .review

/-- Whether a confirmation command took effect. -/
inductive ConfirmationDisposition where
  | confirmed
  | revalidated
  | blocked
  deriving DecidableEq

/-- The frozen result of a confirmation command. -/
structure CandidateConfirmationOutcome where
  disposition : ConfirmationDisposition
  reasons : List String
  confirmationId : Option String := none
  planId : Option String := none
  portfolioId : Option String := none
  choices : List CandidateChoice := []
  reservations : List AllocationCommitment := []
  supersedesConfirmationId : Option String := none
  releasedReservationIds : List String := []

/-- A confirmation that is blocked for some reasons. -/
def CandidateConfirmationOutcome.blocked (reasons : List String) :
    CandidateConfirmationOutcome where
  disposition := .blocked
  reasons := reasons

end StockProfiler.Portfolio
