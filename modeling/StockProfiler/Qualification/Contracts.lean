import StockProfiler.Core.Clock

/-!
# Qualification contracts

Commands that grant, restrict and restore the authority of one capability in one
scope, and the records they leave behind. A record is never changed: every
approved command saves a new one that names its predecessor.
-/

namespace StockProfiler.Qualification

/-- What an authority covers. -/
structure QualificationScope where
  capability : String
  purpose : String
  userId : String
  accountIds : List String
  accountType : String
  source : String
  marketState : String
  board : String
  target : String
  holdingAgeDomain : Option String := none
  renewalOrdinal : Option String := none
  probabilityGrid : Option String := none
  portfolioScope : Option String := none
  deriving DecidableEq

/-- Compare account membership without changing either frozen representation. -/
def QualificationScope.SameScopeAs (scope other : QualificationScope) : Prop :=
  (scope.accountIds ⊆ other.accountIds ∧ other.accountIds ⊆ scope.accountIds) ∧
    { scope with accountIds := [] } = { other with accountIds := [] }

instance (scope other : QualificationScope) : Decidable (scope.SameScopeAs other) :=
  inferInstanceAs (Decidable (_ ∧ _))

/-- Explicit policy input, never a default for personal authorization. -/
structure QualificationPolicy where
  policyVersion : String
  generatorVersion : String
  seed : ℤ
  evaluationMaxAgeMonths : ℤ
  stateActivityMaxAgeMonths : ℤ
  requireStateActivity : Bool
  diagnosticClearNodeCount : Option ℕ := none
  deriving DecidableEq

/-- The implementation versions that participate in a replay. -/
structure DecisionCaseVersionBundle where
  caseContractVersion : String
  hostContractVersion : String
  hostApplicationVersion : String
  hostSourceSha : String
  agentDefinitionId : String
  agentDefinitionVersion : String
  modelAdapterId : String
  routingPolicyVersion : String
  outputContractVersion : String
  reportProjectionContractVersion : String
  mAgentVersion : String
  mAgentWheelUrl : String
  mAgentWheelSha256 : String
  mAgentReleaseCommit : String
  deriving DecidableEq

/-- One version of a capability. -/
structure CapabilityVersion where
  versionId : String
  policyVersion : String
  implementation : DecisionCaseVersionBundle
  qualificationPolicy : Option QualificationPolicy := none
  deriving DecidableEq

variable (version : CapabilityVersion)

/-- Why the policy of a version cannot be used. -/
def CapabilityVersion.policyError : Option String :=
  match version.qualificationPolicy with
  | none => some "QUALIFICATION_POLICY_REQUIRED"
  | some policy =>
    if policy.policyVersion ≠ version.policyVersion then
      some "QUALIFICATION_POLICY_VERSION_MISMATCH"
    else none

/-- The rules that govern qualification, without release aliases. -/
def CapabilityVersion.substantiveIdentity : CapabilityVersion where
  versionId := ""
  policyVersion := ""
  implementation := { version.implementation with hostSourceSha := "" }
  qualificationPolicy := version.qualificationPolicy.map fun policy =>
    { policy with policyVersion := "", generatorVersion := "", seed := 0 }

/-- Whether two versions follow the same rules. -/
def CapabilityVersion.SameSubstantiveVersionAs (other : CapabilityVersion) : Prop :=
  version.substantiveIdentity = other.substantiveIdentity

instance (version other : CapabilityVersion) :
    Decidable (version.SameSubstantiveVersionAs other) :=
  inferInstanceAs (Decidable (_ = _))

namespace QualificationScope.SameScopeAs

variable {a b c : QualificationScope}

theorem refl (a : QualificationScope) : a.SameScopeAs a := ⟨⟨fun _ h => h, fun _ h => h⟩, rfl⟩

theorem symm (h : a.SameScopeAs b) : b.SameScopeAs a := ⟨⟨h.1.2, h.1.1⟩, h.2.symm⟩

theorem trans (h : a.SameScopeAs b) (h' : b.SameScopeAs c) : a.SameScopeAs c :=
  ⟨⟨fun _ hx => h'.1.1 (h.1.1 hx), fun _ hx => h.1.2 (h'.1.2 hx)⟩, h.2.trans h'.2⟩

end QualificationScope.SameScopeAs

namespace CapabilityVersion.SameSubstantiveVersionAs

variable {a b c : CapabilityVersion}

theorem refl (a : CapabilityVersion) : a.SameSubstantiveVersionAs a := rfl

theorem symm (h : a.SameSubstantiveVersionAs b) : b.SameSubstantiveVersionAs a := Eq.symm h

theorem trans (h : a.SameSubstantiveVersionAs b) (h' : b.SameSubstantiveVersionAs c) :
    a.SameSubstantiveVersionAs c := Eq.trans h h'

end CapabilityVersion.SameSubstantiveVersionAs

/-- One node of a registered sequence of formal checks. -/
structure FormalCheckIdentity where
  sequenceId : String
  index : ℕ
  registeredAt : Instant
  scheduledAt : Instant
  plannedNodes : List Instant := []
  requiredGates : List String := []
  errorBudgetId : Option String := none
  deriving DecidableEq

/-- The result of one gate. -/
structure QualificationGate where
  gateId : String
  passed : Bool
  deriving DecidableEq

/-- A frozen artifact and the span for which it is valid. -/
structure EvidenceArtifact where
  artifactId : String
  content : String
  contentSha256 : String
  version : String
  licenseId : String
  availableAt : Instant
  validFrom : Instant
  validUntil : Instant
  deriving DecidableEq

/-- The span in which a dependency is required. -/
structure EvidenceDependencyWindow where
  parentArtifactId : String
  dependencyArtifactId : String
  requiredFrom : Instant
  requiredUntil : Instant
  deriving DecidableEq

/-- The artifacts that evidence rests on. -/
structure EvidenceBasis where
  rootArtifact : EvidenceArtifact
  dependencies : List EvidenceArtifact
  dependencyWindows : List EvidenceDependencyWindow
  deriving DecidableEq

/-- What a check of a substituted basis compares. -/
inductive BasisSubstitutionKind where
  | equivalence
  | migration
  | crossValidation
  | replay
  deriving DecidableEq

/-- A passed check that one basis may stand for another. -/
structure BasisSubstitutionCheck where
  checkId : String
  kind : BasisSubstitutionKind
  originalBasisDigest : String
  substituteBasisDigest : String
  availableAt : Instant
  deriving DecidableEq

/-- The dependency that a substituted one replaces. -/
structure CertifiedDependencyWindow where
  originalDependencyArtifactId : String
  substituteDependencyArtifactId : String
  requiredFrom : Instant
  requiredUntil : Instant
  deriving DecidableEq

/-- The certificate of a substituted basis. -/
structure CertifiedBasisSubstitution where
  originalBasisDigest : String
  substituteBasisDigest : String
  dependencyWindows : List CertifiedDependencyWindow
  checks : List BasisSubstitutionCheck
  deriving DecidableEq

/-- The nodes at which an alert is observed again. -/
structure DiagnosticPlan where
  ruleVersion : String
  plannedNodes : List Instant
  deriving DecidableEq

/-- What evidence shows. -/
inductive EvidenceKind where
  | qualificationPass
  | diagnosticAlert
  | insufficientEvidence
  | requiredPremiseUnverifiable
  | originalBasisInvalid
  | restorationDecision
  | originalBasisRestored
  | requalificationPass
  | historicalOosPass
  | lockedForwardPass
  | formalCheck
  | formalNodeNotExecuted
  | diagnosticClear
  | diagnosticRecurrent
  | diagnosticInsufficient
  | diagnosticUnavailable
  | alertClosure
  | alertProvenErroneous
  | alertTransferred
  | alertArchived
  | certifiedBasisSubstitution
  | stateActivityRestored
  | requalificationApplicationRegistered
  | alertReplayRecorded
  deriving DecidableEq

/-- The name of a kind of evidence. -/
def EvidenceKind.name : EvidenceKind → String
  | .qualificationPass => "QUALIFICATION_PASS"
  | .diagnosticAlert => "DIAGNOSTIC_ALERT"
  | .insufficientEvidence => "INSUFFICIENT_EVIDENCE"
  | .requiredPremiseUnverifiable => "REQUIRED_PREMISE_UNVERIFIABLE"
  | .originalBasisInvalid => "ORIGINAL_BASIS_INVALID"
  | .restorationDecision => "RESTORATION_DECISION"
  | .originalBasisRestored => "ORIGINAL_BASIS_RESTORED"
  | .requalificationPass => "REQUALIFICATION_PASS"
  | .historicalOosPass => "HISTORICAL_OOS_PASS"
  | .lockedForwardPass => "LOCKED_FORWARD_PASS"
  | .formalCheck => "FORMAL_CHECK"
  | .formalNodeNotExecuted => "FORMAL_NODE_NOT_EXECUTED"
  | .diagnosticClear => "DIAGNOSTIC_CLEAR"
  | .diagnosticRecurrent => "DIAGNOSTIC_RECURRENT"
  | .diagnosticInsufficient => "DIAGNOSTIC_INSUFFICIENT"
  | .diagnosticUnavailable => "DIAGNOSTIC_UNAVAILABLE"
  | .alertClosure => "ALERT_CLOSURE"
  | .alertProvenErroneous => "ALERT_PROVEN_ERRONEOUS"
  | .alertTransferred => "ALERT_TRANSFERRED"
  | .alertArchived => "ALERT_ARCHIVED"
  | .certifiedBasisSubstitution => "CERTIFIED_BASIS_SUBSTITUTION"
  | .stateActivityRestored => "STATE_ACTIVITY_RESTORED"
  | .requalificationApplicationRegistered => "REQUALIFICATION_APPLICATION_REGISTERED"
  | .alertReplayRecorded => "ALERT_REPLAY_RECORDED"

/-- One piece of evidence. -/
structure QualificationEvidence where
  evidenceId : String
  generatorVersion : String
  seed : ℤ
  version : CapabilityVersion
  scope : QualificationScope
  marketCalendarVersion : Option String := none
  kind : EvidenceKind
  digest : String
  evaluationEnd : Instant
  availableAt : Instant
  expiresAt : Instant
  stateActivityEnd : Option Instant := none
  resolvesEvidenceId : Option String := none
  restoredAuthorizationDigest : Option String := none
  requalificationApplicationId : Option String := none
  requalificationPopulationId : Option String := none
  requalificationRegistrationDigest : Option String := none
  reviewedAlertDigest : Option String := none
  formalCheck : Option FormalCheckIdentity := none
  maturitySufficient : Option Bool := none
  gateResults : List QualificationGate := []
  basis : Option EvidenceBasis := none
  certifiedSubstitution : Option CertifiedBasisSubstitution := none
  diagnosticPlan : Option DiagnosticPlan := none
  deriving DecidableEq

/-- A member of a requalification population. -/
structure RequalificationMember where
  memberId : String
  predictionFrozenAt : Instant
  availableAt : Instant
  maturedAt : Instant
  outcomeDigest : String
  deriving DecidableEq

/-- The results of a requalification population. -/
structure RequalificationPopulation where
  populationId : String
  evidenceId : String
  frozenVersionDigest : String
  registeredMemberIds : List String
  members : List RequalificationMember
  requiredGates : List String
  gateResults : List QualificationGate
  deriving DecidableEq

/-- Whether a population looks back or forward. -/
inductive PopulationKind where
  | historical
  | forward
  deriving DecidableEq

/-- The population that an application commits itself to. -/
structure RequalificationPopulationRegistration where
  applicationId : String
  populationKind : PopulationKind
  populationId : String
  registeredAt : Instant
  lockedAt : Instant
  frozenVersionDigest : String
  registeredMemberIds : List String
  requiredGates : List String
  digest : String
  deriving DecidableEq

/-- An application for requalification. -/
structure RequalificationApplication where
  applicationId : String
  registeredAt : Instant
  lockedAt : Instant
  frozenVersionDigest : String
  historicalRegistration : RequalificationPopulationRegistration
  forwardRegistration : RequalificationPopulationRegistration
  deriving DecidableEq

/-- The proof that a requalification presents. -/
structure RequalificationProof where
  applicationId : String
  registeredAt : Instant
  lockedAt : Instant
  firstPredictionFrozenAt : Instant
  frozenVersionDigest : Option String := none
  historicalEvidence : QualificationEvidence
  forwardEvidence : QualificationEvidence
  historicalPopulation : Option RequalificationPopulation := none
  forwardPopulation : Option RequalificationPopulation := none
  historicalRegistration : Option RequalificationPopulationRegistration := none
  forwardRegistration : Option RequalificationPopulationRegistration := none
  deriving DecidableEq

/-- What an observation of a diagnostic found. -/
inductive ObservationStatus where
  | clear
  | recurrent
  | insufficient
  | unavailable
  deriving DecidableEq

/-- One observation of a diagnostic after its alert. -/
structure DiagnosticObservation where
  scheduledAt : Instant
  status : ObservationStatus
  ruleVersion : String
  evidence : QualificationEvidence
  deriving DecidableEq

/-- A replay that did not reproduce an alert. -/
structure ErroneousAlertReplay where
  replayId : String
  alertEvidenceId : String
  ruleVersion : String
  originalInformation : QualificationEvidence
  originalInformationDigest : String
  replayResultDigest : String
  availableAt : Instant
  deriving DecidableEq

/-- How an alert was resolved. -/
inductive AlertResolution where
  | disappeared
  | provenErroneous
  | transferred
  | archived
  deriving DecidableEq

/-- The proof that a closure presents. -/
structure AlertClosureProof where
  alertEvidenceId : String
  resolution : AlertResolution
  ruleVersion : String
  observations : List DiagnosticObservation := []
  resolutionEvidence : Option QualificationEvidence := none
  erroneousReplayId : Option String := none
  transferredRestrictionEvidenceId : Option String := none
  deriving DecidableEq

/-- What became of a planned formal node. -/
inductive FormalNodeStatus where
  | executedPass
  | executedFail
  | insufficient
  | notExecuted
  deriving DecidableEq

/-- Whether the node was executed, so that it took a check of the sequence. -/
def FormalNodeStatus.executed : FormalNodeStatus → Bool
  | .executedPass | .executedFail => true
  | .insufficient | .notExecuted => false

/-- The recorded fate of a planned formal node. -/
structure FormalNodeDisposition where
  scheduledAt : Instant
  status : FormalNodeStatus
  checkIndex : ℕ
  evidence : QualificationEvidence
  recordedAt : Instant
  deriving DecidableEq

/-- What a qualification command asks for. -/
inductive QualificationAction where
  | grant
  | alert
  | recordNotObtained
  | suspend
  | revoke
  | restore
  | requalify
  | registerRequalification
  | recordAlertReplay
  | formalCheck
  | recordFormalNode
  | closeAlert
  deriving DecidableEq

/-- A command on one qualification. -/
structure QualificationCommand where
  action : QualificationAction
  scope : QualificationScope
  version : CapabilityVersion
  previousDecisionId : Option String
  evidence : QualificationEvidence
  restorationEvidence : List QualificationEvidence := []
  requalification : Option RequalificationProof := none
  requalificationApplication : Option RequalificationApplication := none
  alertReplay : Option ErroneousAlertReplay := none
  alertClosure : Option AlertClosureProof := none

/-- Why an authority is restricted. -/
inductive RestrictionCause where
  | requiredPremiseUnverifiable
  | originalBasisInvalid
  | evidenceExpired
  | stateActivityExpired
  | formalPerformanceFailure
  deriving DecidableEq

/-- The name of a cause. -/
def RestrictionCause.name : RestrictionCause → String
  | .requiredPremiseUnverifiable => "REQUIRED_PREMISE_UNVERIFIABLE"
  | .originalBasisInvalid => "ORIGINAL_BASIS_INVALID"
  | .evidenceExpired => "EVIDENCE_EXPIRED"
  | .stateActivityExpired => "STATE_ACTIVITY_EXPIRED"
  | .formalPerformanceFailure => "FORMAL_PERFORMANCE_FAILURE"

/-- A restriction and the evidence it rests on. -/
structure QualificationRestriction where
  cause : RestrictionCause
  evidence : QualificationEvidence
  deriving DecidableEq

/-- A replay saved before the closure that uses it. -/
structure RecordedAlertReplay where
  decisionId : String
  scope : QualificationScope
  version : CapabilityVersion
  previousQualificationDecisionId : String
  replay : ErroneousAlertReplay
  evidence : QualificationEvidence
  recordedAt : Instant
  deriving DecidableEq

/-- A saved closure of an alert. -/
structure AlertClosure where
  alertEvidenceId : String
  resolution : AlertResolution
  proof : AlertClosureProof
  evidence : QualificationEvidence
  recordedReplay : Option RecordedAlertReplay := none
  recordedAt : Instant
  deriving DecidableEq

/-- Whether a closure ends its alert, rather than moving or filing it. -/
def AlertClosure.terminatesAlert (closure : AlertClosure) : Bool :=
  closure.resolution ∈ [.disappeared, .provenErroneous]

/-- The standing of an authority. -/
inductive QualificationStatus where
  | notObtained
  | valid
  | atRisk
  | suspended
  | revoked
  deriving DecidableEq

/-- One saved state of a qualification. -/
structure QualificationRecord where
  decisionId : String
  authorizationId : Option String
  scope : QualificationScope
  version : CapabilityVersion
  status : QualificationStatus
  cause : String
  authorizationEvidence : Option QualificationEvidence
  authorizationTerminatedAt : Option Instant := none
  recordedAt : Instant
  previousDecisionId : Option String := none
  evidence : QualificationEvidence
  alerts : List QualificationEvidence := []
  alertClosures : List AlertClosure := []
  restrictions : List QualificationRestriction := []
  restorationEvidence : List QualificationEvidence := []
  requalification : Option RequalificationProof := none
  formalEvidence : Option QualificationEvidence := none
  formalPassingEvidence : Option QualificationEvidence := none
  stateActivityEvidence : Option QualificationEvidence := none
  lastFormalNode : Option Instant := none
  formalNodeDispositions : List FormalNodeDisposition := []
  deriving DecidableEq

namespace QualificationRecord

variable (record : QualificationRecord)

/-- The alerts that terminating closures ended, by evidence. -/
def closedAlertIds : List String :=
  (record.alertClosures.filter (·.terminatesAlert)).map (·.alertEvidenceId)

/-- The alerts that no closure ended. -/
def outstandingAlerts : List QualificationEvidence :=
  record.alerts.filter (·.evidenceId ∉ record.closedAlertIds)

/-- The evidence that a record rests on. -/
def allEvidence : List QualificationEvidence :=
  [record.authorizationEvidence, some record.evidence, record.formalEvidence,
      record.formalPassingEvidence, record.stateActivityEvidence].reduceOption ++
    record.alerts ++ record.alertClosures.map (·.evidence) ++
    record.alertClosures.flatMap (fun closure => closure.proof.observations.map (·.evidence)) ++
    record.alertClosures.filterMap (·.proof.resolutionEvidence) ++
    record.alertClosures.filterMap (fun closure => closure.recordedReplay.map (·.evidence)) ++
    record.alertClosures.filterMap
      (fun closure => closure.recordedReplay.map (·.replay.originalInformation)) ++
    record.restrictions.map (·.evidence) ++ record.restorationEvidence ++
    record.formalNodeDispositions.map (·.evidence)

/-- Whether all evidence of a record was available by a cutoff. -/
def evidenceAvailableBy (cutoff : Instant) : Bool :=
  record.allEvidence.all (·.availableAt ≤ cutoff)

end QualificationRecord

/-- An obligation that a task carries whatever its version says. -/
structure EstablishedObligation where
  obligationId : String
  basisReference : String
  direction : String
  deriving DecidableEq

/-- An object that a task retains. -/
structure RetainedObjectReference where
  kind : String
  objectId : String
  deriving DecidableEq

/-- The kind of a task node. -/
inductive TaskNodeKind where
  | monthly
  | daily
  | renewal
  deriving DecidableEq

/-- A node at which a task may be frozen. -/
structure LegalTaskNode where
  nodeId : String
  taskIdentity : String
  kind : TaskNodeKind
  scheduledAt : Instant
  knowledgeCutoff : Instant
  validUntil : Instant
  deterministicObligations : List EstablishedObligation := []
  retainedObjects : List RetainedObjectReference := []
  deriving DecidableEq

/-- A request to register a task node. -/
structure RegisterTaskNodeCommand where
  scope : QualificationScope
  node : LegalTaskNode

/-- A request to activate a version from a task node on. -/
structure ActivateVersionCommand where
  scope : QualificationScope
  version : CapabilityVersion
  previousVersion : Option CapabilityVersion
  previousActivationId : Option String
  qualificationDecisionId : String
  firstNodeId : String

/-- A request to freeze a task under a version. -/
structure FreezeTaskCommand where
  scope : QualificationScope
  version : CapabilityVersion
  nodeId : String
  activationId : Option String

/-- A request to use a frozen task. -/
structure UseTaskCommand where
  scope : QualificationScope
  version : CapabilityVersion
  taskIdentity : String

/-- A command of the governance host. -/
inductive GovernanceCommand where
  | qualification (command : QualificationCommand)
  | registerTaskNode (command : RegisterTaskNodeCommand)
  | activateVersion (command : ActivateVersionCommand)
  | freezeTask (command : FreezeTaskCommand)
  | useTask (command : UseTaskCommand)

/-- A saved task node. -/
structure RegisteredTaskNode where
  decisionId : String
  scope : QualificationScope
  node : LegalTaskNode
  registeredAt : Instant
  deriving DecidableEq

/-- A saved application for requalification. -/
structure RegisteredRequalificationApplication where
  decisionId : String
  scope : QualificationScope
  version : CapabilityVersion
  previousQualificationDecisionId : String
  application : RequalificationApplication
  evidence : QualificationEvidence
  recordedAt : Instant
  deriving DecidableEq

/-- What an activation retains of a task frozen before it. -/
structure RetainedTaskRelation where
  taskIdentity : String
  taskDecisionId : String
  originalVersion : CapabilityVersion
  nodeId : String
  activationId : Option String
  qualificationDecisionId : Option String
  knowledgeCutoff : Instant
  scheduledAt : Instant
  validUntil : Instant
  retainedObjects : List RetainedObjectReference
  deterministicObligations : List EstablishedObligation
  deriving DecidableEq

/-- A saved activation of a version. -/
structure VersionActivation where
  decisionId : String
  scope : QualificationScope
  version : CapabilityVersion
  previousVersion : Option CapabilityVersion
  previousActivationId : Option String
  qualificationSnapshot : QualificationRecord
  firstNode : LegalTaskNode
  retainedTaskIds : List String
  retainedTasks : List RetainedTaskRelation
  recordedAt : Instant
  deriving DecidableEq

/-- Whether a command was carried out. -/
inductive Disposition where
  | approved
  | denied
  deriving DecidableEq

/-- A frozen task. -/
structure FrozenTask where
  decisionId : String
  scope : QualificationScope
  version : CapabilityVersion
  node : LegalTaskNode
  activationId : Option String
  qualificationSnapshot : Option QualificationRecord
  freezeStatus : Disposition
  reasons : List String
  frozenAt : Instant
  deriving DecidableEq

/-- The answer to a request to use a task. -/
structure TaskUsage where
  allowed : Bool
  taskSnapshot : FrozenTask
  qualificationSnapshot : Option QualificationRecord
  reasons : List String
  checkedAt : Instant
  deriving DecidableEq

/-- Frozen scoped policy input, independent of whether authority was obtained. -/
structure PolicyBinding where
  scope : QualificationScope
  version : CapabilityVersion
  deriving DecidableEq

/-- The outcome of a governance command. -/
structure GovernanceOutcome where
  disposition : Disposition
  reasons : List String
  qualification : Option QualificationRecord := none
  registeredRequalification : Option RegisteredRequalificationApplication := none
  recordedAlertReplay : Option RecordedAlertReplay := none
  taskNode : Option RegisteredTaskNode := none
  activation : Option VersionActivation := none
  task : Option FrozenTask := none
  usage : Option TaskUsage := none
  policyBinding : Option PolicyBinding := none
  deriving DecidableEq

/-- The policy that an outcome binds its scope to. -/
def GovernanceOutcome.boundPolicy (outcome : GovernanceOutcome) : Option PolicyBinding :=
  outcome.policyBinding <|>
    outcome.qualification.map fun record => ⟨record.scope, record.version⟩

end StockProfiler.Qualification
