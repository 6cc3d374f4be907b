import StockProfiler.CandidateSelection.CandidateRelease
import StockProfiler.DecisionCases.DecisionEvents
import StockProfiler.Delivery.CandidateContracts
import StockProfiler.Qualification.Records

/-!
# Decision events and formal reports

The stages that a decision case goes through, the append-only fact that it commits, and the
report that is projected from the fact.
-/

namespace StockProfiler.Publication

open CandidateSelection Qualification
open DecisionCases (ResultAccessScope Visibility)

/-- What a saved stage is a stage of. -/
inductive StagePhase where
  | frameworkRun
  | riskFrameworkRun
  | auxiliaryRunReservation
  | hostValidation
  | businessDecision
  | qualification
  | portfolioAuthorization
  | positionReconciliation
  | issuerConcentration
  | drawdownProtection
  | liquidityProtection
  | candidateRelease
  | portfolioStress
  | candidateConfirmation
  | candidateExecution
  | candidateAllocation
  | executionPlan
  | securityExitAssessment
  | positionAction
  | adjudicationLifecycle
  | validityLifecycle
  | executionLifecycle
  | commitReconciliation
  | businessCommit
  | publication
  | notification
  | correction
  | research
  | rawScore
  | riskVeto
  deriving DecidableEq

/-- How a stage ends. -/
inductive StageStatus where
  | created
  | running
  | waiting
  | succeeded
  | rejected
  | abstained
  | failed
  | pending
  | expired
  | executionBlocked
  | unknown
  | cancelled
  deriving DecidableEq

/-- The states that belong to a phase. -/
def StagePhase.statuses : StagePhase → List StageStatus
  | .frameworkRun | .riskFrameworkRun =>
    [.created, .running, .waiting, .succeeded, .rejected, .failed, .cancelled]
  | .auxiliaryRunReservation => [.pending]
  | .hostValidation | .businessCommit | .notification | .rawScore => [.succeeded, .failed]
  | .businessDecision | .securityExitAssessment | .positionAction =>
    [.succeeded, .rejected, .abstained, .failed]
  | .drawdownProtection => [.succeeded, .rejected, .unknown]
  | .adjudicationLifecycle => [.pending, .unknown]
  | .validityLifecycle => [.expired, .unknown]
  | .executionLifecycle => [.executionBlocked, .unknown]
  | .commitReconciliation => [.unknown]
  | .publication => [.succeeded, .failed, .unknown]
  | .correction => [.succeeded]
  | .research | .riskVeto => [.succeeded, .failed, .rejected]
  | .candidateRelease => [.succeeded, .rejected, .abstained, .failed, .unknown]
  | .qualification | .portfolioAuthorization | .positionReconciliation | .issuerConcentration
  | .liquidityProtection | .portfolioStress | .candidateConfirmation | .candidateExecution
  | .candidateAllocation | .executionPlan => [.succeeded, .rejected]

/-- How a gate ends. -/
inductive GateStatus where
  | passed
  | failed
  | unknown
  deriving DecidableEq

/-- One deterministic gate evaluated during a saved decision stage. -/
structure GateResult where
  gateId : String
  status : GateStatus
  deriving DecidableEq

/-- A phase-specific outcome; lifecycle states have no global terminal meaning. -/
structure StageResult where
  phase : StagePhase
  status : StageStatus
  gateResults : List GateResult
  reasons : List String
  availabilityFailure : Option CandidateAvailabilityFailure := none
  candidateReminder : Option Delivery.CandidateReminderRecord := none
  /-- The canonical texts of the raw scores that are saved with the stage. -/
  rawScorePayloads : Option (List String) := none
  status_mem : status ∈ phase.statuses := by decide
  candidateReminder_spec : candidateReminder ≠ none → phase = .notification := by decide
  rawScorePayloads_spec : rawScorePayloads ≠ none →
    phase = .rawScore ∧ status = .succeeded := by decide
  availabilityFailure_spec : availabilityFailure ≠ none →
    phase = .publication ∧ status = .failed := by decide
  deriving DecidableEq

/-- A stage of one phase that ended in one way. -/
def StageResult.isStage (stage : StageResult) (phase : StagePhase) (status : StageStatus) : Bool :=
  stage.phase = phase ∧ stage.status = status

/-- The last stage of a report. -/
def publicationSucceeded : StageResult where
  phase := .publication
  status := .succeeded
  gateResults := [⟨"EVENT_COMMITTED", .passed⟩]
  reasons := []

/-- Keep an acknowledged failure distinct from an unresolved report write. -/
def publicationFailureStage (reason : String)
    (availabilityFailure : Option CandidateAvailabilityFailure) : StageResult :=
  if reason = "PUBLICATION_COMMIT_UNCERTAIN" then
    { phase := .publication
      status := .unknown
      gateResults := [⟨"EVENT_COMMITTED", .passed⟩, ⟨"FORMAL_REPORT_SAVED", .unknown⟩]
      reasons := [reason] }
  else
    { phase := .publication
      status := .failed
      gateResults := [⟨"EVENT_COMMITTED", .passed⟩, ⟨"FORMAL_REPORT_SAVED", .failed⟩]
      reasons := [reason]
      availabilityFailure
      availabilityFailure_spec := fun _ => ⟨rfl, rfl⟩ }

/-- The failures that close the publication of a candidate release. -/
def candidatePublicationClosureFailures : List String :=
  ["PUBLICATION_AFTER_CANDIDATE_WINDOW", "CANDIDATE_QUALIFICATION_CHANGED_BEFORE_PUBLICATION"]

/-- Whether a stage closes the publication of a candidate release. -/
def isCandidatePublicationClosureFailure (stage : StageResult) : Bool :=
  stage.isStage .publication .failed ∧
    ∃ reason ∈ stage.reasons, reason ∈ candidatePublicationClosureFailures

/-- The stage of a result that the host saved. -/
def businessCommitSucceeded : StageResult where
  phase := .businessCommit
  status := .succeeded
  gateResults := [⟨"HOST_RESULT_SAVED", .passed⟩]
  reasons := []

/-- The stage of a commit that did not save its result, or may not have. -/
def commitFailure (gateId : String) (uncertain : Bool) : StageResult :=
  if uncertain then
    { phase := .commitReconciliation
      status := .unknown
      gateResults := [⟨gateId, .unknown⟩]
      reasons := ["COMMIT_UNCERTAIN"] }
  else
    { phase := .businessCommit
      status := .failed
      gateResults := [⟨gateId, .failed⟩]
      reasons := ["COMMIT_STORAGE_FAILED"] }

/-- The stages of a correction. -/
def correctionStages : List StageResult :=
  [{ phase := .correction
     status := .succeeded
     gateResults := [⟨"ORIGINAL_EVENT_RETAINED", .passed⟩]
     reasons := ["SYNTHETIC_CORRECTION_RECORDED"] },
   { phase := .businessCommit
     status := .succeeded
     gateResults := [⟨"CORRECTION_RESULT_SAVED", .passed⟩]
     reasons := [] }]

/-- The result that a case commits, as far as its publication reads it. -/
structure ExternalResult where
  outcomeCode : String
  summary : String
  keyReasons : List String
  candidateRelease : Option CandidateReleaseOutcome := none
  governance : Option GovernanceOutcome := none
  /-- Whether the result monitors obligations. -/
  hasMonitoring : Bool := false
  deriving DecidableEq

/-- One replayable decision input with all clocks and contracts fixed. -/
structure FrozenDecisionCase where
  caseId : String
  businessObjectId : String
  frameworkRunId : String
  decisionEventId : String
  /-- The identities under which earlier builds may have saved the case. -/
  recoveryBusinessObjectIds : List String
  knowledgeCutoff : Instant
  reportGeneratedAt : Instant
  versionBundle : DecisionCaseVersionBundle
  accessScope : Option ResultAccessScope := none
  candidateRelease : Option CandidateReleaseCommand := none
  deriving DecidableEq

/-- A case whose result no user may see. -/
def FrozenDecisionCase.isShadow (case : FrozenDecisionCase) : Bool :=
  case.accessScope.any (·.visibility = .shadow)

/-- The append-only business fact from which the report is rebuilt. -/
structure DecisionEventFact where
  decisionEventId : String
  businessObjectId : String
  frameworkRunId : String
  case : FrozenDecisionCase
  result : ExternalResult
  committedAt : Instant
  stageResults : List StageResult
  correctsEventId : Option String := none
  generatedAt : Instant
  deriving DecidableEq

/-- What a build of the host brings: its framework release, stable identities derived from saved
contents, the cases that a mapping may be recovered with, the calendars, and the stage of an
outcome in the oldest reports. -/
structure HostContracts where
  mAgentReleaseCommit : String
  calendars : String → Option CoverageCalendar
  reportVersionId : String → String → String
  correctionEventId : String → String → String
  correctionReportVersionId : String → String
  matchesRecoveryInput : FrozenDecisionCase → FrozenDecisionCase → Bool
  legacyOutcomeStage : ExternalResult → Option StageResult

/-- The frozen projection contract of corrections without scope. -/
def frozenReportProjectionContractVersion : String := "2.0.0"

/-- The final publication disposition. -/
inductive PublicationStatus where
  | published
  | failed
  deriving DecidableEq

/-- The report commit clock and the final publication disposition. -/
structure ReportPublication where
  status : PublicationStatus
  committedAt : Instant
  publishedAt : Option Instant := none
  failureRecordedAt : Option Instant := none
  failureReason : Option String := none
  status_spec : match status with
    | .published => publishedAt ≠ none ∧ failureRecordedAt = none
    | .failed => failureRecordedAt ≠ none ∧ failureReason ≠ none
  deriving DecidableEq

/-- The commit and publication clocks of a monitoring report. -/
structure MonitoringPublication where
  committedAt : Instant
  publishedAt : Instant
  deriving DecidableEq

/-- Read-only delivery projection derived from one committed host event. -/
structure FormalReport where
  reportVersionId : String
  eventId : String
  businessObjectId : String
  frameworkRunId : String
  caseId : String
  generatedAt : Instant
  monitoringPublication : Option MonitoringPublication := none
  reportPublication : Option ReportPublication := none
  knowledgeCutoff : Instant
  versionBundle : DecisionCaseVersionBundle
  result : ExternalResult
  stageResults : List StageResult
  correctsEventId : Option String
  accessScope : Option ResultAccessScope
  deriving DecidableEq

section Projection

variable (contracts : HostContracts)

/-- The identity of the report of an event. -/
def reportVersionIdForEvent (fact : DecisionEventFact) : String :=
  match fact.correctsEventId with
  | some original =>
    contracts.correctionReportVersionId
      (contracts.correctionEventId fact.case.businessObjectId original)
  | none =>
    contracts.reportVersionId fact.decisionEventId
      fact.case.versionBundle.reportProjectionContractVersion

/-- The stages of a result that was saved before stages were. -/
def legacyStageResults (result : ExternalResult) : List StageResult :=
  [{ phase := .frameworkRun
     status := .succeeded
     gateResults := [⟨"RUN_TERMINAL", .passed⟩]
     reasons := [] },
   { phase := .hostValidation
     status := .succeeded
     gateResults := [⟨"FROZEN_RESULT_MATCH", .passed⟩]
     reasons := result.keyReasons }] ++
  (contracts.legacyOutcomeStage result).toList ++ [businessCommitSucceeded]

/-- Project a complete append-only fact into its one read-only report. -/
def formalReport (fact : DecisionEventFact) : FormalReport :=
  let legacy : Bool := fact.case.versionBundle.reportProjectionContractVersion = "1.0.0"
  { reportVersionId := reportVersionIdForEvent contracts fact
    eventId := fact.decisionEventId
    businessObjectId := fact.businessObjectId
    frameworkRunId := fact.frameworkRunId
    caseId := fact.case.caseId
    generatedAt := fact.generatedAt
    knowledgeCutoff := fact.case.knowledgeCutoff
    versionBundle := fact.case.versionBundle
    result := fact.result
    stageResults :=
      (if legacy then legacyStageResults contracts fact.result else fact.stageResults) ++
        [publicationSucceeded]
    correctsEventId := if legacy then none else fact.correctsEventId
    accessScope := fact.case.accessScope }

end Projection

/-- Stages and the clocks at which they were recorded. -/
abbrev SavedStages := List (StageResult × Instant)

/-- The clock of the last successful stage of a phase. -/
def SavedStages.clock (saved : SavedStages) (phase : StagePhase) : Option Instant :=
  (saved.reverse.find? (·.1.isStage phase .succeeded)).map (·.2)

/-- The clock of the first successful stage of a phase. -/
def SavedStages.firstClock (saved : SavedStages) (phase : StagePhase) : Option Instant :=
  (saved.find? (·.1.isStage phase .succeeded)).map (·.2)

namespace FormalReport

variable (report : FormalReport)

/-- Retain closed gates and correction recovery without replacing saved facts. -/
def withPublicationHistory (stages : List StageResult) : FormalReport :=
  match report.stageResults.getLast? with
  | none => report
  | some finalStage =>
    if finalStage.isStage .publication .succeeded = false then report
    else if report.correctsEventId = none then
      let history := stages.filter fun stage =>
        stage.phase = .publication ∧ stage.status ≠ .succeeded
      if history = [] then report
      else { report with stageResults := report.stageResults.dropLast ++ history ++ [finalStage] }
    else
      let phases := [.correction, .businessCommit, .commitReconciliation, .publication]
      let history := stages.filter (·.phase ∈ phases)
      if history = [] then report
      else { report with stageResults := report.stageResults.filter (·.phase ∉ phases) ++ history }

/-- Expose a persisted candidate report as a closed publication failure. -/
def withCandidatePublicationFailure (release : CandidateReleaseOutcome) (failure : StageResult)
    (committedAt failureRecordedAt : Instant) : FormalReport :=
  let reason := failure.reasons.headD ""
  { report with
    result :=
      { report.result with
        candidateRelease := some
          { release with
            disposition := .failed
            availabilityFailure := failure.availabilityFailure
            members := excludeCandidateMembers release.members [reason]
            population :=
              { validMonthly := false
                recommendationCoverageDenominator := false
                recommendationCoveragePass := false
                availabilityFailure := failure.availabilityFailure }
            reasons := (release.reasons ++ [reason]).eraseDups }
        outcomeCode := "CANDIDATE_RELEASE_FAILED"
        summary := "Synthetic calibrated candidate publication failed."
        keyReasons := [reason] }
    stageResults := report.stageResults.filter (·.phase ≠ .publication) ++ [failure]
    reportPublication := some
      { status := .failed
        committedAt
        failureRecordedAt := some failureRecordedAt
        failureReason := some reason
        status_spec := ⟨Option.some_ne_none _, Option.some_ne_none _⟩ } }

/-- A report with the saved stages of its event, which own its visible status; nothing when their
clocks are missing. -/
def withSavedStages (saved : SavedStages) : Option FormalReport :=
  match report.result.candidateRelease,
      (saved.filter (isCandidatePublicationClosureFailure ·.1)).getLast? with
  | some release, some (failure, failureRecordedAt) =>
    (saved.firstClock .businessCommit).map fun committedAt =>
      report.withCandidatePublicationFailure release failure committedAt failureRecordedAt
  | release, _ =>
    let projected := report.withPublicationHistory (saved.map (·.1))
    if report.result.hasMonitoring then
      (saved.firstClock .businessCommit).bind fun committedAt =>
        (saved.firstClock .publication).map fun publishedAt =>
          { projected with monitoringPublication := some ⟨committedAt, publishedAt⟩ }
    else if release = none then some projected
    else
      (saved.clock .businessCommit).bind fun committedAt =>
        (saved.clock .publication).map fun publishedAt =>
          { projected with
            reportPublication := some
              { status := .published
                committedAt
                publishedAt := some publishedAt
                status_spec := ⟨Option.some_ne_none _, rfl⟩ } }

end FormalReport

end StockProfiler.Publication
