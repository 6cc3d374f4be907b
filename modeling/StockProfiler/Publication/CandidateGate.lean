import StockProfiler.Publication.Ledger

/-!
# The gate of candidate publications

A candidate release is confirmed again when it is published: the qualifications that it
names are resolved anew, and an alert since the commit that only diagnoses is ignored.
-/

namespace StockProfiler.Publication

open CandidateSelection Qualification
open Portfolio (sameMembers)

/-- Why snapshots of qualifications do not bind to saved facts. -/
inductive SnapshotFailure where
  | versionMismatch
  | historyAmbiguous
  | invalid (reason : String)

/-- The status of a snapshot of a record. -/
def snapshotStatus : QualificationStatus → MarketStateQualificationStatus
  | .notObtained => .notObtained
  | .valid => .valid
  | .atRisk => .atRisk
  | .suspended => .suspended
  | .revoked => .revoked

/-- The outcomes that save a record by a clock. -/
def visibleHistory (history : List GovernanceOutcome) (observedAt : Instant) :
    List GovernanceOutcome :=
  history.filter fun outcome => outcome.qualification.any (·.recordedAt ≤ observedAt)

section Snapshots

variable (contracts : HostContracts) (case : FrozenDecisionCase) (command : CandidateReleaseCommand)
  (history : List GovernanceOutcome) (observedAt : Instant) (snapshot : MarketStateQualification)
  (record : QualificationRecord)

/-- A record is of the implementation that the batch runs. -/
def matchesImplementation (latest : QualificationRecord) : Bool :=
  record.version.versionId = snapshot.capabilityVersion ∧
    record.version.versionId = command.capabilityVersion ∧
    record.version.implementation = case.versionBundle ∧
    record.version.implementation.mAgentReleaseCommit = contracts.mAgentReleaseCommit ∧
    latest.version = record.version

/-- A record is what its snapshot says, for the owner and the target of the batch. -/
def matchesSnapshot : Bool :=
  snapshotStatus record.status = snapshot.status ∧ record.recordedAt = snapshot.recordedAt ∧
    record.scope.marketState = snapshot.marketState.name ∧
    case.accessScope.any (fun scope => record.scope.userId = scope.userId ∧
      sameMembers record.scope.accountIds scope.accountIds) ∧
    record.scope.purpose = "CANDIDATE_BUY" ∧
    record.scope.target = "SIX_MONTH_TERMINAL_20_PERCENT"

/-- A record without authority is one that never obtained it, at the cutoff as well. -/
def matchesUnobtained (atCutoff : QualificationRecord) : Bool :=
  record.status = .notObtained ∧ record.authorizationId = none ∧
    record.authorizationEvidence = none ∧ record.cause = "INSUFFICIENT_EVIDENCE" ∧
    record.evidence.kind = .insufficientEvidence ∧ record.formalEvidence = none ∧
    record.formalPassingEvidence = none ∧ atCutoff.decisionId = record.decisionId ∧
    atCutoff.status = .notObtained ∧ snapshot.status = .notObtained ∧
    snapshot.validThrough = record.recordedAt

/-- A scope is the one of candidate releases. -/
def isReleaseScope (scope : QualificationScope) : Bool :=
  scope.capability = "candidate-release" ∧ scope.source = "SYNTHETIC_D0" ∧
    scope.accountType = "SYNTHETIC" ∧ scope.board = "SYNTHETIC" ∧
    scope.holdingAgeDomain = none ∧ scope.renewalOrdinal = none ∧ scope.probabilityGrid = none ∧
    scope.portfolioScope = none

/-- Evidence names another calendar than the batch. -/
def otherCalendar (basis : Option QualificationEvidence) : Bool :=
  basis.any (·.marketCalendarVersion ≠ some command.marketCalendarVersion)

/-- Bind one snapshot to the record that it names, and to the latest one of its scope. -/
def resolveSnapshot : Except SnapshotFailure MarketStateQualification := do
  let visible := visibleHistory history observedAt
  let record ← known
    ((qualificationRecords visible).find? (·.decisionId = snapshot.qualificationId))
    (.invalid "CANDIDATE_QUALIFICATION_NOT_IN_LEDGER")
  let latest ← (currentQualification visible record.scope record.version).mapError
    fun _ => .historyAmbiguous
  let atCutoff ← (currentQualification (visibleHistory history case.knowledgeCutoff) record.scope
    record.version).mapError fun _ => .historyAmbiguous
  let basis := record.expiryBasis
  let latest ← known latest .historyAmbiguous
  let notObtained := { snapshot with status := .notObtained }
  match atCutoff with
  | none => return notObtained
  | some atCutoff =>
    require (matchesImplementation contracts case command snapshot record latest) .versionMismatch
    require (snapshot.marketCalendarVersion = command.marketCalendarVersion ∧
      otherCalendar command basis = false) .versionMismatch
    require (matchesSnapshot case snapshot record)
      (.invalid "CANDIDATE_QUALIFICATION_SNAPSHOT_MISMATCH")
    match basis with
    | none =>
      require (matchesUnobtained snapshot record atCutoff)
        (.invalid "CANDIDATE_QUALIFICATION_SNAPSHOT_MISMATCH")
      return notObtained
    | some basis =>
      require (basis.expiresAt = snapshot.validThrough)
        (.invalid "CANDIDATE_QUALIFICATION_SNAPSHOT_MISMATCH")
      if isReleaseScope record.scope = false then return notObtained
      require (otherCalendar command atCutoff.expiryBasis = false ∧
        otherCalendar command latest.expiryBasis = false) .versionMismatch
      match atCutoff.expiryBasis, latest.expiryBasis with
      | some _, some latestBasis =>
        if (snapshotStatus atCutoff.status).isActive = false ∨
            ¬ QualificationIsCurrent atCutoff case.knowledgeCutoff then return notObtained
        if case.knowledgeCutoff < record.recordedAt then return notObtained
        let status := snapshotStatus latest.status
        return { snapshot with
          qualificationId := latest.decisionId
          status :=
            if status.isActive ∧ ¬ QualificationIsCurrent latest observedAt then .expired
            else status
          currentStatusRecordedAt := some latest.recordedAt
          validThrough := latestBasis.expiresAt }
      | _, _ => return notObtained

/-- Bind market-state qualifications to saved, scope-matched governance facts. -/
def validateCandidateQualificationSnapshots :
    Except SnapshotFailure (List MarketStateQualification) := do
  require (command.qualifications.map (·.marketState)).Nodup
    (.invalid "CANDIDATE_MARKET_STATE_QUALIFICATION_DUPLICATE")
  command.qualifications.mapM (resolveSnapshot contracts case command history observedAt)

end Snapshots

section Diagnostics

variable (frozen : QualificationRecord) (committedAt : Instant)

/-- A record rests on what another one does, but for its alerts. -/
def keepsBasis (successor : QualificationRecord) : Bool :=
  successor.scope = frozen.scope ∧ successor.version = frozen.version ∧
    successor.authorizationId = frozen.authorizationId ∧
    successor.authorizationTerminatedAt = frozen.authorizationTerminatedAt ∧
    successor.formalEvidence = frozen.formalEvidence ∧
    successor.formalPassingEvidence = frozen.formalPassingEvidence ∧
    successor.authorizationEvidence = frozen.authorizationEvidence ∧
    successor.restrictions = frozen.restrictions ∧
    successor.restorationEvidence = frozen.restorationEvidence ∧
    successor.stateActivityEvidence = frozen.stateActivityEvidence

/-- A record adds to its predecessor nothing but diagnostic alerts and closures since a commit. -/
structure DiagnosticSuccessor (predecessor successor : QualificationRecord) : Prop where
  recorded : committedAt < successor.recordedAt
  basis : keepsBasis frozen successor
  alerts : predecessor.alerts <+: successor.alerts
  closures : predecessor.alertClosures <+: successor.alertClosures
  addedAlerts : ∀ alert ∈ successor.alerts.drop predecessor.alerts.length,
    alert.kind = .diagnosticAlert ∧ committedAt < alert.availableAt
  addedClosures : ∀ closure ∈ successor.alertClosures.drop predecessor.alertClosures.length,
    committedAt < closure.evidence.availableAt
  change : successor.status = .atRisk ∧ successor.cause = "DIAGNOSTIC_ALERT" ∧
      (successor.alerts.drop predecessor.alerts.length ≠ [] ∨
        successor.alertClosures.drop predecessor.alertClosures.length ≠ []) ∧
      successor.outstandingAlerts ≠ [] ∨
    successor.status = .valid ∧ successor.cause = "ALERT_CLOSED" ∧
      successor.alertClosures.drop predecessor.alertClosures.length ≠ [] ∧
      predecessor.outstandingAlerts ≠ [] ∧
      (∀ alert ∈ predecessor.outstandingAlerts, alert.evidenceId ∈ successor.closedAlertIds) ∧
      successor.outstandingAlerts = []

instance (predecessor successor : QualificationRecord) :
    Decidable (DiagnosticSuccessor frozen committedAt predecessor successor) :=
  decidable_of_iff _ ⟨fun h : _ ∧ _ ∧ _ ∧ _ ∧ _ ∧ _ ∧ _ =>
      ⟨h.1, h.2.1, h.2.2.1, h.2.2.2.1, h.2.2.2.2.1, h.2.2.2.2.2.1, h.2.2.2.2.2.2⟩,
    fun h => ⟨h.1, h.2, h.3, h.4, h.5, h.6, h.7⟩⟩

/-- The chain of diagnostic successors of a record up to the last one of its lineage: an empty
second level is a chain that breaks, an empty first level one that never ends. -/
def diagnosticChain (records : List QualificationRecord) :
    ℕ → QualificationRecord → Option (Option (List QualificationRecord))
  | 0, _ => none
  | steps + 1, predecessor =>
    match records.filter (·.previousDecisionId = some predecessor.decisionId) with
    | [] => some (some [])
    | [successor] =>
      if DiagnosticSuccessor frozen committedAt predecessor successor then
        (diagnosticChain records steps successor).map (·.map (successor :: ·))
      else some none
    | _ => some none

/-- The records of a chain that ends with the current one of its scope. -/
def currentChain (history : List GovernanceOutcome) : Option (List QualificationRecord) :=
  let records := qualificationRecords history
  (diagnosticChain frozen committedAt records (records.length + 1) frozen).map fun chain =>
    match chain.bind (·.getLast?), chain with
    | some last, some chain =>
      match currentQualification history last.scope last.version with
      | .ok (some current) => if current.decisionId = last.decisionId then chain else []
      | _ => []
    | _, _ => []

end Diagnostics

/-- The complete diagnostic chain since the commit for the active market state of a batch. -/
def postCommitDiagnosticAlertIds (fact : DecisionEventFact) (command : CandidateReleaseCommand)
    (outcome : CandidateReleaseOutcome) (history : List GovernanceOutcome) : Option (List String) :=
  match outcome.qualification with
  | none => some []
  | some frozen =>
    if command.qualifications = [] ∨ fact.case.accessScope = none ∨
        frozen.marketState ≠ outcome.marketState ∨ frozen.marketState ≠ command.marketState ∨
        frozen.status.isActive = false then some []
    else
      match (qualificationRecords history).find? (·.decisionId = frozen.qualificationId) with
      | none => some []
      | some record =>
        (currentChain record fact.committedAt history).map (·.map (·.decisionId))

/-- Whether a candidate publication goes on. -/
inductive GateVerdict where
  | passed
  | closed (reason : String) (availabilityFailure : Option CandidateAvailabilityFailure)

/-- The reason of a batch that another qualification closes. -/
def qualificationChanged : String := "CANDIDATE_QUALIFICATION_CHANGED_BEFORE_PUBLICATION"

/-- The reason of a batch that its window closes. -/
def afterCandidateWindow : String := "PUBLICATION_AFTER_CANDIDATE_WINDOW"

/-- The candidate release that an original event publishes through the gate. -/
def gatedRelease (fact : DecisionEventFact) :
    Option (CandidateReleaseCommand × CandidateReleaseOutcome) := do
  let command ← fact.case.candidateRelease
  let outcome ← fact.result.candidateRelease
  guard (fact.correctsEventId = none ∧ outcome.disposition.isReleasable)
  return (command, outcome)

theorem gatedRelease_eq_some {fact : DecisionEventFact} {command : CandidateReleaseCommand}
    {outcome : CandidateReleaseOutcome} (h : gatedRelease fact = some (command, outcome)) :
    fact.case.candidateRelease = some command ∧ fact.result.candidateRelease = some outcome ∧
      fact.correctsEventId = none ∧ outcome.disposition.isReleasable := by
  unfold gatedRelease at h
  simp only [bind_eq_some, Option.guard_eq_some', pure_eq_some, Prod.mk.injEq]
    at h
  obtain ⟨_, hcommand, _, houtcome, _, ⟨hnone, hreleasable⟩, rfl, rfl⟩ := h
  exact ⟨hcommand, houtcome, hnone, hreleasable⟩

section Gate

variable (contracts : HostContracts) (fact : DecisionEventFact) (command : CandidateReleaseCommand)
  (outcome : CandidateReleaseOutcome) (history : List GovernanceOutcome) (observedAt : Instant)

/-- A history without the outcomes of some records. -/
def withoutRecords (ids : List String) : List GovernanceOutcome :=
  history.filter fun outcome => outcome.qualification.all (·.decisionId ∉ ids)

/-- The batch as it is confirmed at a clock, ignoring the outcomes of some records. -/
def confirmedRelease (ids : List String) : Except SnapshotFailure CandidateReleaseOutcome :=
  (validateCandidateQualificationSnapshots contracts fact.case command (withoutRecords history ids)
    observedAt).map fun qualifications =>
    finalizeCandidateReleasePublication { command with qualifications } outcome observedAt

/-- The gate before a publication is recorded. -/
def gateBeforePublication : Option GateVerdict :=
  (postCommitDiagnosticAlertIds fact command outcome history).map fun ids =>
    match confirmedRelease contracts fact command outcome history observedAt ids with
    | .error _ => .closed qualificationChanged (some .data)
    | .ok confirmed =>
      if confirmed.disposition = .failed ∧ afterCandidateWindow ∈ confirmed.reasons then
        .closed afterCandidateWindow none
      else if sameBatch confirmed outcome = false then .closed qualificationChanged none
      else .passed

/-- The gate at the clock at which a publication is recorded. -/
def gateAtPublication : Option GateVerdict :=
  (postCommitDiagnosticAlertIds fact command outcome history).map fun ids =>
    match confirmedRelease contracts fact command outcome history observedAt ids with
    | .error _ => .closed qualificationChanged (some .data)
    | .ok confirmed =>
      if sameBatch confirmed outcome then .passed
      else if afterCandidateWindow ∈ confirmed.reasons then .closed afterCandidateWindow none
      else .closed qualificationChanged none

end Gate

end StockProfiler.Publication
