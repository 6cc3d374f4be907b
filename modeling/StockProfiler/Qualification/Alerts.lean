import StockProfiler.Qualification.Records

/-!
# Alerts and their closures

An alert is closed by observations in which it disappeared, by a replay that
proves it erroneous, by a restriction that takes its place, or by filing it. Only
the first two end it.
-/

namespace StockProfiler.Qualification

/-- Whether instants are listed once each, in order. -/
def InOrder (nodes : List Instant) : Prop := nodes.Nodup ∧ nodes.Pairwise (· ≤ ·)

instance (nodes : List Instant) : Decidable (InOrder nodes) := inferInstanceAs (Decidable (_ ∧ _))

/-- Whether the plan of an alert lists later nodes in order. -/
def DiagnosticPlanIsValid (evidence : QualificationEvidence) : Prop :=
  ∀ plan ∈ evidence.diagnosticPlan, InOrder plan.plannedNodes ∧
    ∀ node ∈ plan.plannedNodes, evidence.evaluationEnd < node

instance (evidence : QualificationEvidence) : Decidable (DiagnosticPlanIsValid evidence) :=
  inferInstanceAs (Decidable (∀ plan ∈ evidence.diagnosticPlan, _ ∧ _))

variable (context : AdjudicationContext) (command : QualificationCommand)
  (previous : Option QualificationRecord) (proof : AlertClosureProof)
  (target : QualificationEvidence)

/-- The record that can take an alert. -/
def alertable : Option QualificationRecord := do
  let previous ← previous
  guard (previous.authorizationEvidence.isSome ∧ command.evidence.kind = .diagnosticAlert ∧
    DiagnosticPlanIsValid command.evidence)
  return previous

/-- Put a record at risk, unless it is restricted or revoked. -/
def alertedRecord (previous : QualificationRecord) : QualificationRecord :=
  let previous := restrictExpiredQualification previous context.now
  { previous with
    decisionId := context.eventId
    previousDecisionId := some previous.decisionId
    status := if previous.status ∈ [.suspended, .revoked] then previous.status else .atRisk
    cause := if previous.status ∈ [.suspended, .revoked] then previous.cause
      else command.evidence.kind.name
    evidence := command.evidence
    alerts := previous.alerts ++ [command.evidence]
    recordedAt := context.now }

/-- Save an alert. -/
def raiseAlert : GovernanceOutcome :=
  match alertable command previous with
  | none => denied "ORIGINAL_AUTHORIZATION_REQUIRED"
  | some previous => approved "DIAGNOSTIC_ALERT" (alertedRecord context command previous)

/-- The saved replays of a history. -/
def recordedReplays (history : List GovernanceOutcome) : List RecordedAlertReplay :=
  history.filterMap (·.recordedAlertReplay)

/-- Whether a replay shows that an alert was erroneous. -/
def alertReplayIsValid (replay : ErroneousAlertReplay) (target : QualificationEvidence)
    (plan : DiagnosticPlan) : Bool :=
  decide (
    command.evidence.resolvesEvidenceId = some target.evidenceId ∧
    replay.ruleVersion = plan.ruleVersion ∧ replay.originalInformation = target ∧
    replay.originalInformationDigest = context.digests.qualificationEvidenceDigest target ∧
    replay.replayResultDigest = context.digests.alertReplayResultDigest replay ∧
    command.evidence.digest = replay.replayResultDigest ∧
    replay.availableAt = command.evidence.availableAt ∧ replay.availableAt = context.now ∧
    target.availableAt ≤ replay.availableAt ∧
    command.evidence.evaluationEnd ≤ replay.availableAt ∧
    command.evidence.availableAt ≤ context.cutoff ∧
    ¬∃ item ∈ recordedReplays context.history, item.scope.SameScopeAs command.scope ∧
      item.replay.replayId = replay.replayId)

/-- What a record and a command must have for a replay to be saved. -/
def replayable : Option (QualificationRecord × ErroneousAlertReplay) := do
  let previous ← previous
  let replay ← command.alertReplay
  guard (previous.authorizationEvidence.isSome ∧ command.evidence.kind = .alertReplayRecorded)
  return (previous, replay)

/-- The outstanding alert of a replay, with its plan. -/
def replayTarget (previous : QualificationRecord) (replay : ErroneousAlertReplay) :
    Option (QualificationEvidence × DiagnosticPlan) := do
  let target ← previous.outstandingAlerts.find? (·.evidenceId = replay.alertEvidenceId)
  let plan ← target.diagnosticPlan
  return (target, plan)

/-- Save a replay that did not reproduce an outstanding alert. -/
def recordAlertReplay : GovernanceOutcome :=
  match replayable command previous with
  | none => denied "ALERT_REPLAY_NOT_ALLOWED"
  | some (previous, replay) =>
    match replayTarget previous replay with
    | none => denied "ALERT_REPLAY_PROOF_INVALID"
    | some (target, plan) =>
      if alertReplayIsValid context command replay target plan then
        { disposition := .approved
          reasons := ["ALERT_REPLAY_RECORDED"]
          recordedAlertReplay := some
            { decisionId := context.eventId
              scope := command.scope
              version := command.version
              previousQualificationDecisionId := previous.decisionId
              replay
              evidence := command.evidence
              recordedAt := context.now } }
      else denied "ALERT_REPLAY_PROOF_INVALID"

/-- The saved replay of a version with an identity. -/
def recordedAlertReplay (history : List GovernanceOutcome) (scope : QualificationScope)
    (version : CapabilityVersion) (replayId : String) :
    Except String (Option RecordedAlertReplay) :=
  match (recordedReplays history).filter fun item =>
      item.scope.SameScopeAs scope ∧ item.version = version ∧ item.replay.replayId = replayId with
  | [] => .ok none
  | [replay] => .ok (some replay)
  | _ => .error "alert replay history has duplicate identifiers"

/-- Whether the observations of a proof follow its plan node by node. -/
def DiagnosticObservationNodesAreConsecutive (plannedNodes : List Instant) : Prop :=
  ∃ indices ∈ proof.observations.mapM fun item => plannedNodes.idxOf? item.scheduledAt,
    indices ≠ [] ∧ ∀ pair ∈ indices.zip indices.tail, pair.2 = pair.1 + 1

instance (proof : AlertClosureProof) (plannedNodes : List Instant) :
    Decidable (DiagnosticObservationNodesAreConsecutive proof plannedNodes) :=
  inferInstanceAs (Decidable
    (∃ indices ∈ proof.observations.mapM fun item => plannedNodes.idxOf? item.scheduledAt,
      indices ≠ [] ∧ ∀ pair ∈ indices.zip indices.tail, pair.2 = pair.1 + 1))

/-- The kind of evidence that an observation must have. -/
def ObservationStatus.expectedKind : ObservationStatus → EvidenceKind
  | .clear => .diagnosticClear
  | .recurrent => .diagnosticRecurrent
  | .insufficient => .diagnosticInsufficient
  | .unavailable => .diagnosticUnavailable

/-- Whether an observation is current evidence on its alert. -/
def ObservationIsValid (item : DiagnosticObservation) : Prop :=
  item.ruleVersion = proof.ruleVersion ∧ item.evidence.kind = item.status.expectedKind ∧
    item.evidence.diagnosticPlan = none ∧
    item.evidence.resolvesEvidenceId = some target.evidenceId ∧
    item.evidence.scope.SameScopeAs command.scope ∧ item.evidence.version = command.version ∧
    EvidenceBasisIsValid context.digests item.evidence ∧
    target.evaluationEnd < item.evidence.evaluationEnd ∧
    item.evidence.evaluationEnd ≤ item.scheduledAt ∧
    item.scheduledAt ≤ item.evidence.availableAt ∧
    item.evidence.availableAt ≤ min command.evidence.availableAt context.cutoff ∧
    EvidenceIsCurrent item.evidence context.now

instance (context : AdjudicationContext) (command : QualificationCommand)
    (proof : AlertClosureProof) (target : QualificationEvidence) (item : DiagnosticObservation) :
    Decidable (ObservationIsValid context command proof target item) :=
  inferInstanceAs (Decidable (_ ∧ _))

/-- Whether enough clear observations show that an alert disappeared. -/
def diagnosticObservationsSupportDisappearance (clearCount : ℕ) : Bool :=
  decide (
    (∀ item ∈ proof.observations.drop (proof.observations.length - clearCount),
      item.status = .clear) ∧
    (proof.observations.map (·.evidence.evidenceId)).Nodup ∧
    InOrder (proof.observations.map (·.evidence.evaluationEnd)) ∧
    InOrder (proof.observations.map (·.evidence.availableAt)) ∧
    (∀ last ∈ proof.observations.getLast?,
      last.evidence.evaluationEnd ≤ command.evidence.evaluationEnd) ∧
    (∀ last ∈ proof.observations.getLast?,
      last.evidence.availableAt ≤ command.evidence.availableAt) ∧
    ∀ item ∈ proof.observations, ObservationIsValid context command proof target item)

/-- The kind of evidence that a direct resolution must have. -/
def AlertResolution.expectedKind : AlertResolution → Option EvidenceKind
  | .disappeared => none
  | .provenErroneous => some .alertProvenErroneous
  | .transferred => some .alertTransferred
  | .archived => some .alertArchived

/-- Whether the evidence of a direct resolution is current and reviews its alert. -/
def ResolutionEvidenceIsValid (evidence : QualificationEvidence) : Prop :=
  some evidence.kind = proof.resolution.expectedKind ∧ proof.observations = [] ∧
    evidence.resolvesEvidenceId = some target.evidenceId ∧
    evidence.reviewedAlertDigest = some target.digest ∧
    evidence.scope.SameScopeAs command.scope ∧ evidence.version = command.version ∧
    EvidenceBasisIsValid context.digests evidence ∧
    target.evaluationEnd ≤ evidence.evaluationEnd ∧
    evidence.evaluationEnd ≤ evidence.availableAt ∧
    evidence.availableAt ≤ min command.evidence.availableAt context.cutoff ∧
    EvidenceIsCurrent evidence context.now

instance (context : AdjudicationContext) (command : QualificationCommand)
    (proof : AlertClosureProof) (target evidence : QualificationEvidence) :
    Decidable (ResolutionEvidenceIsValid context command proof target evidence) :=
  inferInstanceAs (Decidable (_ ∧ _))

/-- Whether a saved replay proves that an alert was erroneous. -/
def RecordedReplayProves (evidence : QualificationEvidence) (recorded : RecordedAlertReplay) :
    Prop :=
  proof.transferredRestrictionEvidenceId = none ∧
    recorded.scope.SameScopeAs command.scope ∧ recorded.version = command.version ∧
    recorded.evidence.availableAt ≤ context.cutoff ∧ recorded.recordedAt ≤ context.now ∧
    recorded.evidence.digest = recorded.replay.replayResultDigest ∧
    recorded.replay.alertEvidenceId = target.evidenceId ∧
    recorded.replay.ruleVersion = proof.ruleVersion ∧
    recorded.replay.originalInformation = target ∧
    recorded.replay.originalInformationDigest =
      context.digests.qualificationEvidenceDigest target ∧
    recorded.replay.replayResultDigest =
      context.digests.alertReplayResultDigest recorded.replay ∧
    target.availableAt ≤ recorded.replay.availableAt ∧
    recorded.replay.availableAt ≤ evidence.availableAt

instance (context : AdjudicationContext) (command : QualificationCommand)
    (proof : AlertClosureProof) (target evidence : QualificationEvidence)
    (recorded : RecordedAlertReplay) :
    Decidable (RecordedReplayProves context command proof target evidence recorded) :=
  inferInstanceAs (Decidable (_ ∧ _))

/-- Whether a direct resolution of an alert holds. -/
def directAlertResolutionIsValid (previous : QualificationRecord) (proof : AlertClosureProof)
    (target : QualificationEvidence) (recordedReplay : Option RecordedAlertReplay) : Bool :=
  match proof.resolutionEvidence with
  | none => false
  | some evidence =>
    decide (ResolutionEvidenceIsValid context command proof target evidence) &&
      match proof.resolution with
      | .provenErroneous => decide (∃ recorded ∈ recordedReplay,
          RecordedReplayProves context command proof target evidence recorded)
      | .transferred => proof.erroneousReplayId.isNone && recordedReplay.isNone &&
          decide (∃ transferredId ∈ proof.transferredRestrictionEvidenceId,
            ∃ restriction ∈ previous.restrictions, restriction.evidence.evidenceId = transferredId)
      | _ => proof.erroneousReplayId.isNone && recordedReplay.isNone &&
          proof.transferredRestrictionEvidenceId.isNone

/-- What a record and a command must have for a closure. -/
def closable : Option (QualificationRecord × AlertClosureProof × ℕ) := do
  let previous ← previous
  let proof ← command.alertClosure
  let policy ← command.version.qualificationPolicy
  let clearCount ← policy.diagnosticClearNodeCount
  guard (previous.authorizationEvidence.isSome ∧ command.evidence.kind = .alertClosure)
  return (previous, proof, clearCount)

/-- The alert of a closure, with its plan. -/
def closureTarget (previous : QualificationRecord) (proof : AlertClosureProof) :
    Option (QualificationEvidence × DiagnosticPlan) := do
  let target ← previous.alerts.find? (·.evidenceId = proof.alertEvidenceId)
  let plan ← target.diagnosticPlan
  return (target, plan)

/-- Whether the proof of a closure holds. -/
def alertClosureProofIsValid (previous : QualificationRecord) (proof : AlertClosureProof)
    (clearCount : ℕ) (target : QualificationEvidence) (plan : DiagnosticPlan)
    (recordedReplay : Option RecordedAlertReplay) : Bool :=
  decide (
    some proof.alertEvidenceId = command.evidence.resolvesEvidenceId ∧
    (¬∃ closure ∈ previous.alertClosures, closure.alertEvidenceId = proof.alertEvidenceId ∧
      (closure.terminatesAlert ∨ closure.resolution = proof.resolution)) ∧
    target.scope.SameScopeAs command.scope ∧ target.version = command.version ∧
    clearCount ≤ plan.plannedNodes.length ∧ InOrder plan.plannedNodes ∧
    (∀ node ∈ plan.plannedNodes, target.evaluationEnd < node) ∧
    proof.ruleVersion = plan.ruleVersion ∧
    if proof.resolution = .disappeared then
      proof.resolutionEvidence = none ∧ proof.erroneousReplayId = none ∧
        proof.transferredRestrictionEvidenceId = none ∧
        clearCount ≤ proof.observations.length ∧
        DiagnosticObservationNodesAreConsecutive proof plan.plannedNodes ∧
        diagnosticObservationsSupportDisappearance context command proof target clearCount
    else directAlertResolutionIsValid context command previous proof target recordedReplay)

/-- The closure that a proof saves. -/
def savedClosure (recordedReplay : Option RecordedAlertReplay) : AlertClosure where
  alertEvidenceId := target.evidenceId
  resolution := proof.resolution
  proof := proof
  evidence := command.evidence
  recordedReplay := recordedReplay
  recordedAt := context.now

/-- The record after a closure. -/
def closedRecord (previous : QualificationRecord) (closure : AlertClosure) : QualificationRecord :=
  let candidate := { previous with alertClosures := previous.alertClosures ++ [closure] }
  let kept := previous.status ∈ [.suspended, .revoked] ∨ closure.resolution = .archived
  { candidate with
    decisionId := context.eventId
    previousDecisionId := some previous.decisionId
    status := if kept then previous.status
      else if candidate.outstandingAlerts ≠ [] then .atRisk else .valid
    cause := if kept then previous.cause
      else if candidate.outstandingAlerts ≠ [] then "DIAGNOSTIC_ALERT" else "ALERT_CLOSED"
    evidence := command.evidence
    recordedAt := context.now }

/-- The saved replay that a closure names. -/
def namedReplay : Except String (Option RecordedAlertReplay) :=
  match proof.erroneousReplayId with
  | none => .ok none
  | some replayId =>
    recordedAlertReplay context.history command.scope command.version replayId

/-- Close an alert. -/
def closeAlert : Except String GovernanceOutcome :=
  match closable command previous with
  | none => return denied "ALERT_CLOSURE_NOT_ALLOWED"
  | some (previous, proof, clearCount) => do
    let recordedReplay ← namedReplay context command proof
    match closureTarget previous proof with
    | none => return denied "ALERT_CLOSURE_PROOF_INVALID"
    | some (target, plan) =>
      if alertClosureProofIsValid context command previous proof clearCount target plan
          recordedReplay then
        return approved "ALERT_CLOSED" (closedRecord context command previous
          (savedClosure context command proof target recordedReplay))
      else return denied "ALERT_CLOSURE_PROOF_INVALID"

end StockProfiler.Qualification
