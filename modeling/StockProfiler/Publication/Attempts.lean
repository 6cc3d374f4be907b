import StockProfiler.Core.SharedStore
import StockProfiler.Publication.CandidateGate

/-!
# Attempts to decide and to publish

An attempt executes a frozen case, or corrects one. It takes the write lock anew for each of
its transactions, so attempts interleave between these. A transaction commits, rolls back,
or commits without its acknowledgement; a process may stop after any of them.
-/

namespace StockProfiler.Publication

open CandidateSelection Qualification

/-- Whether a result is saved. -/
inductive BusinessCommitStatus where
  | notAttempted
  | failed
  | committed
  | unknown
  deriving DecidableEq

/-- What an attempt answers. -/
inductive Answer where
  | published (report : FormalReport)
  | unpublished (businessObjectId : String) (status : BusinessCommitStatus)
      (stages : List StageResult)
  | corrected (report : FormalReport)
  | correctionFailed (businessObjectId : String) (status : BusinessCommitStatus)
  deriving DecidableEq

/-- How far an attempt is, between two of its transactions. -/
inductive Phase where
  /-- A case to execute. -/
  | requested (case : FrozenDecisionCase)
  /-- Its mapping is saved. -/
  | mapped (businessObjectId : String)
  /-- It had no event when it was looked up. -/
  | unanswered (businessObjectId : String)
  /-- The framework runs it, outside any transaction. -/
  | executing (case : FrozenDecisionCase)
  /-- A case to correct. -/
  | requestedCorrection (case : FrozenDecisionCase)
  /-- An event was not saved, as far as its transaction tells. -/
  | unverified (fact : DecisionEventFact) (uncertain : Bool) (stages : List StageResult)
  /-- A fresh read did not find the event. -/
  | unsaved (fact : DecisionEventFact) (uncertain : Bool) (stages : List StageResult)
  /-- Its event is saved. -/
  | saved (businessObjectId : String)
  /-- Its correction is saved. -/
  | publishing (fact : DecisionEventFact)
  /-- The report of an event was not saved, as far as its transaction tells. -/
  | unverifiedReport (fact : DecisionEventFact)
  /-- The report of an event is saved. -/
  | reported (fact : DecisionEventFact)
  /-- The publication of an event is rolled back, to be recorded as failed. -/
  | closing (fact : DecisionEventFact) (reason : String)
      (availabilityFailure : Option CandidateAvailabilityFailure)
  | answered (answer : Answer)
  /-- An exception or the end of the process. -/
  | stopped
  deriving DecidableEq

/-- How the commit of a transaction ends. -/
inductive CommitSignal where
  | acknowledged
  | lost
  | rolledBack
  deriving DecidableEq

/-- How a candidate release is made, before its qualifications are resolved again. -/
inductive ReleaseSource where
  | frozen (calibration : Calibration)
  | unavailable (reason : String) (failure : CandidateAvailabilityFailure) (details : Bool)
  | blocked (reason : String) (details : Bool)

/-- The clocks at which a candidate release is made. -/
structure ReleaseClocks where
  qualificationObservedAt : Instant
  frozenAt : Instant
  finalizedAt : Instant

/-- What the host concludes from a framework run: stages only, or a result to commit. -/
inductive Conclusion where
  | refused (rows : List (StageResult × Bool))
  | concluded (rows : List (StageResult × Bool)) (stages : List StageResult)
      (result : ExternalResult) (source : ReleaseSource) (clocks : ReleaseClocks)

/-- What a transaction brings from outside: the end of its commit, its clocks, whether the database
refuses its row, what the framework gave, and the build that corrects. -/
structure TransactionInput where
  signal : CommitSignal := .acknowledged
  observedAt : Instant
  clock : StageResult → Instant
  writeFails : Bool := false
  refusal : Option (List StageResult) := none
  conclusion : Conclusion := .refused []

/-- What an attempt does next. -/
inductive Act where
  | stop
  | record (rows : List (StageResult × String × Bool)) (input : TransactionInput)
  | proceed (input : TransactionInput)

/-- Close a transaction: what it wrote stays or not, and the attempt goes on if it knows. -/
def close (signal : CommitSignal) (before after : DecisionLedger) (phase : Phase) :
    DecisionLedger × Phase :=
  match signal with
  | .acknowledged => (after, phase)
  | .lost => (after, .stopped)
  | .rolledBack => (before, .stopped)

/-- The reason of an availability failure. -/
def SnapshotFailure.reason : SnapshotFailure → String
  | .versionMismatch => "CANDIDATE_QUALIFICATION_VERSION_MISMATCH"
  | .historyAmbiguous => "CANDIDATE_QUALIFICATION_HISTORY_AMBIGUOUS"
  | .invalid reason => reason

section Results

variable (contracts : HostContracts) (case : FrozenDecisionCase) (command : CandidateReleaseCommand)
  (history : List GovernanceOutcome)

/-- The candidate release of a case, and the command with the qualifications that it was made
with. -/
def sourceRelease (clocks : ReleaseClocks) :
    ReleaseSource → CandidateReleaseOutcome × CandidateReleaseCommand := fun source =>
  let qualifications := validateCandidateQualificationSnapshots contracts case command history
    clocks.qualificationObservedAt
  let command := { command with qualifications := qualifications.toOption.getD [] }
  match source, qualifications with
  | .blocked reason details, _ =>
    (candidateReleaseBlocked command clocks.frozenAt reason details, command)
  | .unavailable reason failure details, _ =>
    (candidateReleaseAvailabilityFailure contracts.calendars command clocks.frozenAt reason failure
      details, command)
  | .frozen _, .error failure =>
    (candidateReleaseAvailabilityFailure contracts.calendars command clocks.frozenAt
      failure.reason .data true, command)
  | .frozen calibration, .ok _ =>
    let frozen := freezeCandidateRelease contracts.calendars command clocks.frozenAt calibration
    match validateCandidateQualificationSnapshots contracts case command history
        clocks.finalizedAt with
    | .error failure =>
      let command := { command with qualifications := [] }
      (candidateReleaseAvailabilityFailure contracts.calendars command clocks.finalizedAt
        failure.reason .data true, command)
    | .ok qualifications => (frozen, { command with qualifications })

/-- The candidate release that a case commits, confirmed at the clock of the commit. -/
def committedRelease (clocks : ReleaseClocks) (source : ReleaseSource) (committedAt : Instant) :
    CandidateReleaseOutcome :=
  let release := sourceRelease contracts case command history clocks source
  finalizeCandidateReleasePublication release.2
    (finalizeCandidateReleasePublication release.2 release.1 clocks.finalizedAt) committedAt

end Results

section Transactions

variable (contracts : HostContracts) (ledger : DecisionLedger) (input : TransactionInput)

/-- What is saved of a business object: its visible report, or its event. -/
inductive LookUp where
  | report (report : FormalReport)
  | event (fact : DecisionEventFact)
  | absent

variable (businessObjectId : String)

/-- Look a business object up, unless its rows raise. -/
def lookUp : Option LookUp := do
  match ← ledger.originalFormalReport contracts businessObjectId with
  | some report => return .report report
  | none =>
    match ← oneOrNone (ledger.originals businessObjectId) with
    | some fact => return .event fact
    | none => return .absent

variable (fact : DecisionEventFact) (case : FrozenDecisionCase)

/-- Save the mapping of a case before its framework runs. -/
def persistMapping : DecisionLedger × Phase :=
  match ledger.resolveBusinessObjectId case with
  | none => (ledger, .stopped)
  | some id =>
    if id = case.businessObjectId then
      match oneOrNone (ledger.originals id) with
      | none => (ledger, .stopped)
      | some (some _) => (ledger, .mapped id)
      | some none =>
        match ledger.ensureBusinessObject contracts case with
        | none => (ledger, .stopped)
        | some after => close input.signal ledger after (.mapped id)
    else (ledger, .mapped id)

/-- Go on with what is saved of a business object, or without. -/
def continueWith (absent : DecisionLedger × Phase) : DecisionLedger × Phase :=
  match lookUp contracts ledger businessObjectId with
  | none => (ledger, .stopped)
  | some (.report report) => (ledger, .answered (.published report))
  | some (.event _) => (ledger, .saved businessObjectId)
  | some .absent => absent

/-- Rows of a case that name no event. -/
def caseRow (clock : StageResult → Instant) (frameworkRunId : String) (stage : StageResult) :
    StageRow where
  businessObjectId := case.businessObjectId
  frameworkRunId
  decisionEventId := none
  stage
  recordedAt := clock stage

/-- Freeze the case that the framework executes, unless its source is refused. -/
def freezeExecution : DecisionLedger × Phase :=
  match ledger.mapping? businessObjectId with
  | none => (ledger, .stopped)
  | some case =>
    match ledger.ensureBusinessObject contracts case with
    | none => (ledger, .stopped)
    | some ledger' =>
      match input.refusal with
      | none => close input.signal ledger ledger' (.executing case)
      | some stages =>
        let after := ledger'.recordAll (stages.map fun stage =>
          (caseRow case input.clock case.frameworkRunId stage, false))
        close input.signal ledger after
          (.answered (.unpublished businessObjectId .notAttempted
            (after.stageResults businessObjectId)))

/-- Where an attempt goes on when its event is saved. -/
def committedPhase : Phase :=
  if fact.correctsEventId = none then .saved fact.businessObjectId else .publishing fact

/-- Append the event, and commit it with what its transaction wrote before. -/
def commitEvent (written : DecisionLedger) (fact : DecisionEventFact) (stages : List StageResult) :
    DecisionLedger × Phase :=
  match written.event? fact.decisionEventId with
  | some existing =>
    if existing = fact then close input.signal ledger written (committedPhase fact)
    else (ledger, .unverified fact false stages)
  | none =>
    if input.writeFails then (ledger, .unverified fact false stages)
    else
      let after := { written with events := written.events ++ [fact] }
      match input.signal with
      | .acknowledged => (after, committedPhase fact)
      | .lost => (after, .unverified fact true stages)
      | .rolledBack => (ledger, .unverified fact true stages)

/-- The fact that an execution commits. -/
def executedFact (result : ExternalResult) (source : ReleaseSource) (clocks : ReleaseClocks)
    (stages : List StageResult) : DecisionEventFact where
  decisionEventId := case.decisionEventId
  businessObjectId := case.businessObjectId
  frameworkRunId := case.frameworkRunId
  case
  result :=
    match case.candidateRelease with
    | none => result
    | some command =>
      -- A case has one contract: one that releases candidates does not monitor.
      { result with
        candidateRelease := some (committedRelease contracts case command
          (case.accessScope.elim [] ledger.governanceHistory) clocks source input.observedAt)
        hasMonitoring := false }
  committedAt := input.observedAt
  stageResults := stages ++ [businessCommitSucceeded]
  generatedAt := case.reportGeneratedAt

/-- Validate one terminal framework result and append its host business fact. -/
def commitFrameworkResult : DecisionLedger × Phase :=
  match input.conclusion with
  | .refused rows =>
    let after := ledger.recordAll (rows.map fun row =>
      (caseRow case input.clock case.frameworkRunId row.1, row.2))
    close input.signal ledger after
      (.answered (.unpublished case.businessObjectId .notAttempted
        (after.stageResults case.businessObjectId)))
  | .concluded rows stages result source clocks =>
    let written := ledger.recordAll (rows.map fun row =>
      (caseRow case input.clock case.frameworkRunId row.1, row.2))
    commitEvent ledger input written
      (executedFact contracts ledger input case result source clocks
        (written.stageResults case.businessObjectId)) stages

/-- Verify an event on a fresh read connection. -/
def verifyEvent (uncertain : Bool) (stages : List StageResult) : DecisionLedger × Phase :=
  match ledger.event? fact.decisionEventId with
  | none => (ledger, .unsaved fact uncertain stages)
  | some committed => (ledger, if committed = fact then committedPhase fact else .stopped)

/-- Record that an event was not saved, or may not be. -/
def recordUnsaved (uncertain : Bool) (stages : List StageResult) : DecisionLedger × Phase :=
  let status : BusinessCommitStatus := if uncertain then .unknown else .failed
  if fact.correctsEventId = none then
    let restored := ledger.recordAll (stages.map fun stage =>
      (caseRow fact.case input.clock fact.case.frameworkRunId stage,
        stage.status ∉ [.succeeded, .rejected, .abstained]))
    let after := restored.recordStageResult (caseRow fact.case input.clock fact.case.frameworkRunId
      (commitFailure "HOST_RESULT_SAVED" uncertain)) true
    close input.signal ledger after
      (.answered (.unpublished fact.businessObjectId status
        (after.stageResults fact.businessObjectId)))
  else
    let after := ledger.recordStageResult (DecisionLedger.stageRow fact (some fact.decisionEventId)
      input.clock (commitFailure "CORRECTION_RESULT_SAVED" uncertain)) true
    close input.signal ledger after (.answered (.correctionFailed fact.businessObjectId status))

/-- What an attempt answers when its report is not visible. -/
def closedAnswer (ledger : DecisionLedger) (fact : DecisionEventFact) : Answer :=
  if fact.correctsEventId = none then
    .unpublished fact.businessObjectId .committed (ledger.stageResults fact.businessObjectId)
  else .correctionFailed fact.businessObjectId .committed

/-- What an attempt answers with a visible report. -/
def reportAnswer (report : FormalReport) : Answer :=
  if fact.correctsEventId = none then .published report else .corrected report

/-- Record a publication, unless its gate closes at the clock of the record. -/
def recordPublication (opened : DecisionLedger) (fact : DecisionEventFact) :
    DecisionLedger × Phase :=
  let row := DecisionLedger.stageRow fact (some fact.decisionEventId) input.clock
    publicationSucceeded
  let after := opened.recordStageResult row false
  let verdict : Option GateVerdict :=
    match gatedRelease fact, opened.isRecorded row with
    | some (command, outcome), false =>
      fact.case.accessScope.bind fun scope => gateAtPublication contracts fact command outcome
        (after.governanceHistory scope) row.recordedAt
    | _, _ => some .passed
  match verdict with
  | none => (ledger, .stopped)
  | some (.closed reason availabilityFailure) =>
    (ledger, .closing fact reason availabilityFailure)
  | some .passed =>
    match after.formalReportForEvent contracts fact.decisionEventId with
    | some (some report) => close input.signal ledger after (.answered (reportAnswer fact report))
    | _ => (ledger, .stopped)

/-- Confirm a publication whose report is saved, unless its gate is closed. -/
def confirmPublication (opened : DecisionLedger) (fact : DecisionEventFact) :
    DecisionLedger × Phase :=
  let verdict : Option GateVerdict :=
    match gatedRelease fact with
    | some (command, outcome) =>
      fact.case.accessScope.bind fun scope => gateBeforePublication contracts fact command outcome
        (opened.governanceHistory scope) input.observedAt
    | none => some .passed
  match verdict with
  | none => (ledger, .stopped)
  | some (.closed reason availabilityFailure) =>
    (ledger, .closing fact reason availabilityFailure)
  | some .passed => recordPublication contracts ledger input opened fact

/-- Publish one committed fact: save its report, and confirm it when it is saved already. -/
def publishReport : DecisionLedger × Phase :=
  let opened := ledger.ensureEventStageResults fact input.clock
  let storageFailed := (ledger, Phase.closing fact "PUBLICATION_STORAGE_FAILED" none)
  if fact.case.isShadow then
    let after := opened.recordStageResult (DecisionLedger.stageRow fact (some fact.decisionEventId)
      input.clock (publicationFailureStage "SHADOW_ISOLATED" none)) false
    close input.signal ledger after (.answered (closedAnswer after fact))
  else if opened.hasConfirmedBusinessCommit fact.decisionEventId = false then storageFailed
  else
    match opened.storedFormalReport contracts (reportVersionIdForEvent contracts fact) with
    | none => storageFailed
    | some (some existing) =>
      if existing = formalReport contracts fact then
        confirmPublication contracts ledger input opened fact
      else storageFailed
    | some none =>
      if input.writeFails ∨ opened.reports.any (·.eventId = fact.decisionEventId) then
        storageFailed
      else
        let after := { opened with reports := opened.reports ++ [formalReport contracts fact] }
        match input.signal with
        | .acknowledged => (after, .reported fact)
        | .lost => (after, .unverifiedReport fact)
        | .rolledBack => (ledger, .unverifiedReport fact)

/-- Verify a report on a fresh read connection. -/
def verifyReport : DecisionLedger × Phase :=
  match ledger.storedFormalReport contracts (reportVersionIdForEvent contracts fact) with
  | none => (ledger, .stopped)
  | some none => (ledger, .closing fact "PUBLICATION_COMMIT_UNCERTAIN" none)
  | some (some committed) =>
    (ledger, if committed = formalReport contracts fact then .reported fact else .stopped)

/-- Retain a closed gate, and expose a candidate report that it closes as failed. -/
def recordClosed (reason : String) (availabilityFailure : Option CandidateAvailabilityFailure) :
    DecisionLedger × Phase :=
  let opened := ledger.ensureEventStageResults fact input.clock
  let after := opened.recordStageResult (DecisionLedger.stageRow fact (some fact.decisionEventId)
    input.clock (publicationFailureStage reason availabilityFailure)) true
  let closed := close input.signal ledger after (.answered (closedAnswer after fact))
  if reason ∈ candidatePublicationClosureFailures then
    match after.formalReportForEvent contracts fact.decisionEventId with
    | none => (ledger, .stopped)
    | some none => closed
    | some (some report) =>
      if report.reportPublication.any (·.status = .failed) then
        close input.signal ledger after (.answered (reportAnswer fact report))
      else closed
  else closed

/-- Retain the original run while recording the provenance of the correction. -/
def correctionCase (original current : FrozenDecisionCase) : FrozenDecisionCase :=
  { original with
    versionBundle :=
      { original.versionBundle with
        hostApplicationVersion := current.versionBundle.hostApplicationVersion
        hostSourceSha := current.versionBundle.hostSourceSha
        reportProjectionContractVersion :=
          if original.accessScope.isSome then original.versionBundle.reportProjectionContractVersion
          else frozenReportProjectionContractVersion } }

/-- The fact that corrects an event. -/
def correctionFact (original : DecisionEventFact) (report : FormalReport) : DecisionEventFact where
  decisionEventId := contracts.correctionEventId case.businessObjectId original.decisionEventId
  businessObjectId := case.businessObjectId
  frameworkRunId := original.frameworkRunId
  case
  result :=
    { report.result with
      outcomeCode := "SYNTHETIC_CORRECTION_RECORDED"
      summary :=
        "Synthetic D0 correction recorded without replacing the original decision event."
      keyReasons :=
        ["The original completion statement is corrected to an incomplete checklist.",
          "The original evidence cutoff and formal report remain available."] }
  committedAt := input.observedAt
  stageResults := correctionStages
  correctsEventId := some original.decisionEventId
  generatedAt := input.observedAt

/-- Append the correction of a published original, or publish the one that it has. -/
def correct : DecisionLedger × Phase :=
  match ledger.resolveBusinessObjectId case with
  | none => (ledger, .stopped)
  | some id =>
    match oneOrNone (ledger.originals id), ledger.originalFormalReport contracts id with
    | some (some original), some (some report) =>
      match oneOrNone (ledger.corrections original.decisionEventId) with
      | none => (ledger, .stopped)
      | some (some fact) => publishReport contracts ledger input fact
      | some none =>
        commitEvent ledger input ledger
          (correctionFact contracts input (correctionCase original.case case) original report) []
    | _, _ => (ledger, .stopped)

/-- The next transaction of an attempt. -/
def proceed : Phase → DecisionLedger × Phase
  | .requested case => persistMapping contracts ledger input case
  | .mapped id => continueWith contracts ledger id (ledger, .unanswered id)
  | .unanswered id => continueWith contracts ledger id (freezeExecution contracts ledger input id)
  | .executing case =>
    continueWith contracts ledger case.businessObjectId
      (commitFrameworkResult contracts ledger input case)
  | .requestedCorrection case => correct contracts ledger input case
  | .unverified fact uncertain stages => verifyEvent ledger fact uncertain stages
  | .unsaved fact uncertain stages => recordUnsaved ledger input fact uncertain stages
  | .saved id =>
    match lookUp contracts ledger id with
    | some (.report report) => (ledger, .answered (.published report))
    | some (.event fact) => publishReport contracts ledger input fact
    | _ => (ledger, .stopped)
  | .publishing fact => publishReport contracts ledger input fact
  | .unverifiedReport fact => verifyReport contracts ledger fact
  | .reported fact => confirmPublication contracts ledger input ledger fact
  | .closing fact reason availabilityFailure =>
    recordClosed contracts ledger input fact reason availabilityFailure
  | phase => (ledger, phase)

/-- Commit transitions that the framework makes while it runs. -/
def recordTransitions (rows : List (StageResult × String × Bool)) (phase : Phase) :
    DecisionLedger × Phase :=
  match phase with
  | .executing case =>
    close input.signal ledger
      (ledger.recordAll (rows.map fun row => (caseRow case input.clock row.2.1 row.1, row.2.2)))
      (.executing case)
  | phase => (ledger, phase)

end Transactions

/-- What one act of an attempt does to the ledger and to the attempt. -/
def advance (contracts : HostContracts) (act : Act) (ledger : DecisionLedger) (phase : Phase) :
    DecisionLedger × Phase :=
  match act with
  | .stop => (ledger, .stopped)
  | .record rows input => recordTransitions ledger input rows phase
  | .proceed input => proceed contracts ledger input phase

end StockProfiler.Publication
