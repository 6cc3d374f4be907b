import StockProfiler.Core.Walk
import StockProfiler.Qualification.Records

/-!
# Requalification

A revoked authority is only replaced on the strength of an application that was
registered after the revocation, with populations locked before their forward
predictions were made.
-/

namespace StockProfiler.Qualification

/-- Whether a registration commits itself to the application it belongs to. -/
def RequalificationRegistrationIsValid (digests : Digests)
    (registration : RequalificationPopulationRegistration) (applicationId : String)
    (populationKind : PopulationKind) (registeredAt lockedAt : Instant)
    (frozenVersionDigest : String) : Prop :=
  registration.applicationId = applicationId ∧ registration.populationKind = populationKind ∧
    registration.registeredAt = registeredAt ∧ registration.lockedAt = lockedAt ∧
    registration.frozenVersionDigest = frozenVersionDigest ∧
    registration.registeredMemberIds.Nodup ∧ registration.requiredGates.Nodup ∧
    registration.digest = digests.requalificationRegistrationDigest registration

instance (digests : Digests) (registration : RequalificationPopulationRegistration)
    (applicationId : String) (populationKind : PopulationKind) (registeredAt lockedAt : Instant)
    (frozenVersionDigest : String) : Decidable (RequalificationRegistrationIsValid digests
      registration applicationId populationKind registeredAt lockedAt frozenVersionDigest) :=
  inferInstanceAs (Decidable (_ ∧ _))

variable (context : AdjudicationContext) (command : QualificationCommand)
  (previous : QualificationRecord) (history : List GovernanceOutcome)

/-- The saved applications of a history. -/
def registeredApplications : List RegisteredRequalificationApplication :=
  history.filterMap (·.registeredRequalification)

/-- Whether an application can be registered for a revoked record. -/
def applicationIsValid (terminatedAt : Instant) (application : RequalificationApplication) : Bool :=
  decide (
    terminatedAt < application.registeredAt ∧
    application.registeredAt = application.lockedAt ∧ application.lockedAt = context.now ∧
    command.evidence.requalificationApplicationId = some application.applicationId ∧
    application.frozenVersionDigest =
      context.digests.capabilityVersionDigest command.version ∧
    application.historicalRegistration.populationId ≠
      application.forwardRegistration.populationId ∧
    RequalificationRegistrationIsValid context.digests application.historicalRegistration
      application.applicationId .historical application.registeredAt application.lockedAt
      application.frozenVersionDigest ∧
    RequalificationRegistrationIsValid context.digests application.forwardRegistration
      application.applicationId .forward application.registeredAt application.lockedAt
      application.frozenVersionDigest ∧
    ¬∃ item ∈ registeredApplications context.history, item.scope.SameScopeAs command.scope ∧
      item.application.applicationId = application.applicationId)

/-- What a record and a command must have for an application to be registered. -/
def registrable (previous : Option QualificationRecord) :
    Option (QualificationRecord × Instant × RequalificationApplication) := do
  let previous ← previous
  let terminatedAt ← previous.authorizationTerminatedAt
  let application ← command.requalificationApplication
  guard (previous.status = .revoked ∧ previous.authorizationEvidence.isSome ∧
    command.evidence.kind = .requalificationApplicationRegistered)
  return (previous, terminatedAt, application)

/-- Register an application for requalification. -/
def registerRequalificationApplication (previous : Option QualificationRecord) :
    GovernanceOutcome :=
  match registrable command previous with
  | none => denied "REQUALIFICATION_REGISTRATION_NOT_ALLOWED"
  | some (previous, terminatedAt, application) =>
    if applicationIsValid context command terminatedAt application then
      { disposition := .approved
        reasons := ["REQUALIFICATION_APPLICATION_REGISTERED"]
        registeredRequalification := some
          { decisionId := context.eventId
            scope := command.scope
            version := command.version
            previousQualificationDecisionId := previous.decisionId
            application
            evidence := command.evidence
            recordedAt := context.now } }
    else denied "REQUALIFICATION_APPLICATION_INVALID"

/-- The saved application of a version with an identity. -/
def registeredRequalificationApplication (scope : QualificationScope) (version : CapabilityVersion)
    (applicationId : String) : Except String (Option RegisteredRequalificationApplication) :=
  match (registeredApplications history).filter fun item =>
      item.scope.SameScopeAs scope ∧ item.version = version ∧
        item.application.applicationId = applicationId with
  | [] => .ok none
  | [registration] => .ok (some registration)
  | _ => .error "requalification history has duplicate applications"

/-- The records of a history by decision, the last of each. -/
def recordsById : Dict String QualificationRecord :=
  Dict.ofLast ((qualificationRecords history).map fun record => (record.decisionId, record))

/-- The decision that a decision supersedes, up to an anchor. -/
def supersededLink (records : Dict String QualificationRecord) (anchorId : String)
    (decisionId : String) : Link String :=
  if decisionId = anchorId then .root
  else match records.get? decisionId >>= (·.previousDecisionId) with
    | none => .missing
    | some previousId => .next previousId

/-- Whether the decisions that a decision supersedes, one after another, lead to an anchor. -/
def LineageReaches (decisionId anchorId : String) : Prop :=
  follow id (supersededLink (recordsById history) anchorId)
    ((qualificationRecords history).length + 2) [] decisionId = .root anchorId

instance (history : List GovernanceOutcome) (decisionId anchorId : String) :
    Decidable (LineageReaches history decisionId anchorId) :=
  inferInstanceAs (Decidable (_ = _))

/-- Whether an application was registered for the revocation that is still in force. -/
def RegisteredRequalificationMatchesCurrentLineage
    (registration : RegisteredRequalificationApplication) (current : QualificationRecord)
    (history : List GovernanceOutcome) : Prop :=
  ∃ anchor ∈ (recordsById history).get? registration.previousQualificationDecisionId,
    anchor.status = .revoked ∧ current.status = .revoked ∧
    anchor.scope.SameScopeAs current.scope ∧ anchor.version = current.version ∧
    anchor.authorizationId = current.authorizationId ∧
    anchor.authorizationEvidence = current.authorizationEvidence ∧
    anchor.authorizationTerminatedAt = current.authorizationTerminatedAt ∧
    anchor.requalification = current.requalification ∧
    LineageReaches history current.decisionId anchor.decisionId

/-- Whether a member was frozen, became available and matured in time. -/
def RequalificationMember.IsTimely (member : RequalificationMember)
    (evidence : QualificationEvidence) : Prop :=
  member.predictionFrozenAt ≤ member.availableAt ∧ member.availableAt ≤ member.maturedAt ∧
    member.maturedAt ≤ evidence.evaluationEnd ∧ member.availableAt ≤ evidence.availableAt

instance (member : RequalificationMember) (evidence : QualificationEvidence) :
    Decidable (member.IsTimely evidence) :=
  inferInstanceAs (Decidable (_ ∧ _))

/-- Whether a population has the members and gates that were registered, all passed. -/
def requalificationPopulationIsComplete (population : RequalificationPopulation)
    (evidence : QualificationEvidence) (frozenVersionDigest : String)
    (registration : RequalificationPopulationRegistration) : Bool :=
  decide (
    population.evidenceId = evidence.evidenceId ∧
    population.frozenVersionDigest = frozenVersionDigest ∧
    population.populationId = registration.populationId ∧
    population.registeredMemberIds = registration.registeredMemberIds ∧
    population.requiredGates = registration.requiredGates ∧
    evidence.requalificationApplicationId = some registration.applicationId ∧
    evidence.requalificationPopulationId = some registration.populationId ∧
    evidence.requalificationRegistrationDigest = some registration.digest ∧
    population.registeredMemberIds.Nodup ∧ (population.members.map (·.memberId)).Nodup ∧
    population.members.map (·.memberId) ⊆ population.registeredMemberIds ∧
    population.registeredMemberIds ⊆ population.members.map (·.memberId) ∧
    population.requiredGates.Nodup ∧ (population.gateResults.map (·.gateId)).Nodup ∧
    population.gateResults.map (·.gateId) ⊆ population.requiredGates ∧
    population.requiredGates ⊆ population.gateResults.map (·.gateId) ∧
    (∀ gate ∈ population.gateResults, gate.passed) ∧
    ∀ member ∈ population.members, member.IsTimely evidence)

/-- Whether the evidence of a population is current evidence of the command's version. -/
def RequalificationEvidenceIsValid (item : QualificationEvidence) : Prop :=
  item.scope = command.scope ∧ item.version = command.version ∧
    EvidenceBasisIsValid context.digests item ∧ item.evaluationEnd ≤ item.availableAt ∧
    item.availableAt ≤ command.evidence.availableAt ∧ EvidenceIsCurrent item context.now

instance (context : AdjudicationContext) (command : QualificationCommand)
    (item : QualificationEvidence) :
    Decidable (RequalificationEvidenceIsValid context command item) :=
  inferInstanceAs (Decidable (_ ∧ _))

/-- The optional parts that a requalification must have. -/
structure RequalificationParts where
  frozenVersionDigest : String
  historicalPopulation : RequalificationPopulation
  forwardPopulation : RequalificationPopulation
  historicalRegistration : RequalificationPopulationRegistration
  forwardRegistration : RequalificationPopulationRegistration
  registered : RegisteredRequalificationApplication
  originalCheck : FormalCheckIdentity
  check : FormalCheckIdentity

variable (proof : RequalificationProof)

/-- The parts of a requalification, if it has all of them. -/
def requalificationParts (registered : Option RegisteredRequalificationApplication) :
    Option RequalificationParts := do
  let frozenVersionDigest ← proof.frozenVersionDigest
  let historicalPopulation ← proof.historicalPopulation
  let forwardPopulation ← proof.forwardPopulation
  let historicalRegistration ← proof.historicalRegistration
  let forwardRegistration ← proof.forwardRegistration
  let registered ← registered
  let originalEvidence ← previous.latestCheckEvidence
  let originalCheck ← originalEvidence.formalCheck
  let check ← command.evidence.formalCheck
  return { frozenVersionDigest, historicalPopulation, forwardPopulation, historicalRegistration,
           forwardRegistration, registered, originalCheck, check }

/-- Whether the application that a proof names is the registered one. -/
def ApplicationIsRegistered (parts : RequalificationParts) : Prop :=
  RegisteredRequalificationMatchesCurrentLineage parts.registered previous context.history ∧
    parts.registered.evidence.availableAt ≤ context.cutoff ∧
    parts.registered.application =
      { applicationId := proof.applicationId
        registeredAt := proof.registeredAt
        lockedAt := proof.lockedAt
        frozenVersionDigest := parts.frozenVersionDigest
        historicalRegistration := parts.historicalRegistration
        forwardRegistration := parts.forwardRegistration } ∧
    command.evidence.requalificationApplicationId = some proof.applicationId ∧
    parts.registered.recordedAt ≤ proof.historicalEvidence.availableAt ∧
    ¬∃ record ∈ qualificationRecords context.history, ∃ used ∈ record.requalification,
      used.applicationId = proof.applicationId

instance (context : AdjudicationContext) (command : QualificationCommand)
    (previous : QualificationRecord) (proof : RequalificationProof)
    (parts : RequalificationParts) :
    Decidable (ApplicationIsRegistered context command previous proof parts) := by
  unfold ApplicationIsRegistered RegisteredRequalificationMatchesCurrentLineage
  infer_instance

/-- Whether the check of a requalification is the next one of the formal sequence. -/
def CheckContinuesSequence (parts : RequalificationParts) : Prop :=
  parts.originalCheck.plannedNodes ≠ [] ∧ parts.originalCheck.errorBudgetId ≠ none ∧
    SameFormalSequence parts.check parts.originalCheck ∧
    parts.check.index = parts.originalCheck.index + 1 ∧
    nextFormalNode previous parts.originalCheck = some parts.check.scheduledAt ∧
    formalCheckPassed command.evidence = some true ∧
    (parts.historicalPopulation.requiredGates ++ parts.forwardPopulation.requiredGates ⊆
      parts.check.requiredGates) ∧
    (parts.check.requiredGates ⊆
      parts.historicalPopulation.requiredGates ++ parts.forwardPopulation.requiredGates) ∧
    command.evidence.evaluationEnd ≤ parts.check.scheduledAt ∧
    parts.check.scheduledAt ≤ command.evidence.availableAt ∧
    EvidenceIsCurrent command.evidence context.now

instance (context : AdjudicationContext) (command : QualificationCommand)
    (previous : QualificationRecord) (parts : RequalificationParts) :
    Decidable (CheckContinuesSequence context command previous parts) :=
  inferInstanceAs (Decidable (_ ∧ _))

/-- Whether a proof of requalification holds. -/
def requalificationProofIsValid (terminatedAt : Instant) (proof : RequalificationProof)
    (parts : RequalificationParts) : Bool :=
  decide (
    terminatedAt < proof.registeredAt ∧ proof.registeredAt ≤ proof.lockedAt ∧
    proof.lockedAt ≤ proof.firstPredictionFrozenAt ∧
    proof.firstPredictionFrozenAt ≤ proof.forwardEvidence.evaluationEnd ∧
    parts.frozenVersionDigest = context.digests.capabilityVersionDigest command.version ∧
    ApplicationIsRegistered context command previous proof parts ∧
    parts.historicalPopulation.populationId ≠ parts.forwardPopulation.populationId ∧
    proof.historicalEvidence.evidenceId ≠ proof.forwardEvidence.evidenceId ∧
    proof.historicalEvidence.kind = .historicalOosPass ∧
    proof.forwardEvidence.kind = .lockedForwardPass ∧
    RequalificationRegistrationIsValid context.digests parts.historicalRegistration
      proof.applicationId .historical proof.registeredAt proof.lockedAt
      parts.frozenVersionDigest ∧
    RequalificationRegistrationIsValid context.digests parts.forwardRegistration
      proof.applicationId .forward proof.registeredAt proof.lockedAt parts.frozenVersionDigest ∧
    RequalificationEvidenceIsValid context command proof.historicalEvidence ∧
    RequalificationEvidenceIsValid context command proof.forwardEvidence ∧
    requalificationPopulationIsComplete parts.historicalPopulation proof.historicalEvidence
      parts.frozenVersionDigest parts.historicalRegistration ∧
    requalificationPopulationIsComplete parts.forwardPopulation proof.forwardEvidence
      parts.frozenVersionDigest parts.forwardRegistration ∧
    (∀ member ∈ parts.historicalPopulation.members, member.maturedAt ≤ proof.registeredAt) ∧
    (∀ member ∈ parts.forwardPopulation.members, proof.lockedAt ≤ member.predictionFrozenAt) ∧
    (parts.forwardPopulation.members.map (·.predictionFrozenAt)).min? =
      some proof.firstPredictionFrozenAt ∧
    CheckContinuesSequence context command previous parts)

/-- What a record and a command must have for a requalification. -/
def requalifiable (previous : Option QualificationRecord) :
    Option (QualificationRecord × Instant × RequalificationProof) := do
  let previous ← previous
  let terminatedAt ← previous.authorizationTerminatedAt
  let proof ← command.requalification
  guard (previous.status = .revoked ∧ previous.authorizationEvidence.isSome ∧
    command.evidence.kind = .requalificationPass)
  return (previous, terminatedAt, proof)

/-- The record that a requalification starts. -/
def requalifiedRecord (check : FormalCheckIdentity) : QualificationRecord where
  decisionId := context.eventId
  authorizationId := some context.eventId
  scope := command.scope
  version := command.version
  status := if previous.outstandingAlerts ≠ [] then .atRisk else .valid
  cause := if previous.outstandingAlerts ≠ [] then "DIAGNOSTIC_ALERT" else "REQUALIFICATION_PASS"
  authorizationEvidence := some command.evidence
  recordedAt := context.now
  previousDecisionId := some previous.decisionId
  evidence := command.evidence
  alerts := previous.alerts
  alertClosures := previous.alertClosures
  requalification := some proof
  formalEvidence := some command.evidence
  formalPassingEvidence := some command.evidence
  lastFormalNode := some check.scheduledAt
  formalNodeDispositions := previous.formalNodeDispositions ++
    [⟨check.scheduledAt, .executedPass, check.index, command.evidence, context.now⟩]

/-- The saved application that the proof of a command names. -/
def namedApplication : Except String (Option RegisteredRequalificationApplication) :=
  match command.requalification with
  | none => .ok none
  | some proof => registeredRequalificationApplication context.history command.scope
      command.version proof.applicationId

/-- Replace a revoked authority by a new one. -/
def requalify (previous : Option QualificationRecord) : Except String GovernanceOutcome := do
  let registered ← namedApplication context command
  match requalifiable command previous with
  | none => return denied "REQUALIFICATION_NOT_ALLOWED"
  | some (previous, terminatedAt, proof) =>
    match requalificationParts command previous proof registered with
    | none => return denied "REQUALIFICATION_PROOF_INVALID"
    | some parts =>
      if requalificationProofIsValid context command previous terminatedAt proof parts then
        return approved "REQUALIFICATION_PASS"
          (requalifiedRecord context command previous proof parts.check)
      else return denied "REQUALIFICATION_PROOF_INVALID"

end StockProfiler.Qualification
