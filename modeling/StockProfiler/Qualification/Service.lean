import StockProfiler.Qualification.Alerts
import StockProfiler.Qualification.Requalification

/-!
# Adjudication of qualification commands

A command is checked against its evidence and against the current record of its
scope and version, and an approved one saves the next record. Restrictions are
only lifted by proofs that answer each of them.
-/

namespace StockProfiler.Qualification

variable (context : AdjudicationContext) (command : QualificationCommand)
  (previous : Option QualificationRecord) (proof : QualificationEvidence)

/-- The record of a check, the check it follows and the check itself. -/
def checkable : Option (QualificationRecord × FormalCheckIdentity × FormalCheckIdentity) := do
  let previous ← previous
  let originalEvidence ← previous.latestCheckEvidence
  let originalCheck ← originalEvidence.formalCheck
  let check ← command.evidence.formalCheck
  return (previous, originalCheck, check)

/-- Whether a check disposes of the next node of a sequence, under an index. -/
def FormalNodeFits (previous : QualificationRecord) (originalCheck check : FormalCheckIdentity)
    (evidence : QualificationEvidence) (index : ℕ) : Prop :=
  originalCheck.plannedNodes ≠ [] ∧ SameFormalSequence check originalCheck ∧
    check.index = index ∧ nextFormalNode previous originalCheck = some check.scheduledAt ∧
    check.registeredAt ≤ evidence.evaluationEnd ∧ evidence.evaluationEnd ≤ check.scheduledAt ∧
    check.scheduledAt ≤ evidence.availableAt

instance (previous : QualificationRecord) (originalCheck check : FormalCheckIdentity)
    (evidence : QualificationEvidence) (index : ℕ) :
    Decidable (FormalNodeFits previous originalCheck check evidence index) :=
  inferInstanceAs (Decidable (_ ∧ _))

/-- The disposition that a check saves. -/
def nodeDisposition (evidence : QualificationEvidence) (check : FormalCheckIdentity)
    (status : FormalNodeStatus) : FormalNodeDisposition :=
  ⟨check.scheduledAt, status, check.index, evidence, context.now⟩

/-- A record with one more node disposed of. -/
def disposedRecord (previous : QualificationRecord) (check : FormalCheckIdentity)
    (status : FormalNodeStatus) : QualificationRecord :=
  { previous with
    decisionId := context.eventId
    previousDecisionId := some previous.decisionId
    evidence := command.evidence
    lastFormalNode := some check.scheduledAt
    formalNodeDispositions := previous.formalNodeDispositions ++
      [nodeDisposition context command.evidence check status]
    recordedAt := context.now }

/-- A record after an executed check. -/
def checkedRecord (previous : QualificationRecord) (check : FormalCheckIdentity) (passed : Bool) :
    QualificationRecord :=
  let restricted := !passed && previous.status ∈ [.valid, .atRisk, .suspended]
  { disposedRecord context command previous check
      (if passed then .executedPass else .executedFail) with
    status := if restricted then .suspended else previous.status
    cause := if restricted then RestrictionCause.formalPerformanceFailure.name else previous.cause
    formalEvidence := some command.evidence
    formalPassingEvidence :=
      if passed then some command.evidence else previous.formalPassingEvidence
    restrictions := if restricted then
        previous.restrictions ++ [⟨.formalPerformanceFailure, command.evidence⟩]
      else previous.restrictions }

/-- The index of the next check; one that is not decided takes none. -/
def nextCheckIndex (originalCheck : FormalCheckIdentity) (evidence : QualificationEvidence) : ℕ :=
  originalCheck.index + if formalCheckPassed evidence = none then 0 else 1

/-- Dispose of the next formal node by a check. -/
def formalCheck : GovernanceOutcome :=
  match checkable command previous with
  | none => denied "FORMAL_CHECK_NOT_ALLOWED"
  | some (previous, originalCheck, check) =>
    if command.evidence.kind = .formalCheck ∧
        (formalCheckPassed command.evidence = none →
          command.evidence.maturitySufficient = some false) ∧
        check.scheduledAt ∈ check.plannedNodes ∧
        FormalNodeFits previous originalCheck check command.evidence
          (nextCheckIndex originalCheck command.evidence) then
      let previous := restrictExpiredQualification previous context.now
      match formalCheckPassed command.evidence with
      | none => approved "FORMAL_CHECK_WATERMARK_INSUFFICIENT"
          (disposedRecord context command previous check .insufficient)
      | some passed => approved (if passed then "FORMAL_CHECK_PASSED" else "FORMAL_CHECK_FAILED")
          (checkedRecord context command previous check passed)
    else denied "FORMAL_CHECK_NOT_ALLOWED"

/-- Dispose of the next formal node without a check. -/
def recordFormalNodeDisposition : GovernanceOutcome :=
  match checkable command previous with
  | none => denied "FORMAL_NODE_NOT_ALLOWED"
  | some (previous, originalCheck, check) =>
    if command.evidence.kind = .formalNodeNotExecuted ∧
        FormalNodeFits previous originalCheck check command.evidence originalCheck.index then
      approved "FORMAL_NODE_NOT_EXECUTED"
        (disposedRecord context command previous check .notExecuted)
    else denied "FORMAL_NODE_NOT_ALLOWED"

/-- Whether a certified substitution maps every dependency of a basis to one of another. -/
def certifiedSubstitutionIsValid (original : QualificationEvidence) : Bool :=
  match proof.certifiedSubstitution, proof.basis, original.basis with
  | some certification, some proofBasis, some originalBasis =>
    let mappings := certification.dependencyWindows
    let originalWindows := Dict.ofLast (originalBasis.dependencyWindows.map fun window =>
      (window.dependencyArtifactId, window))
    let substituteWindows := Dict.ofLast (proofBasis.dependencyWindows.map fun window =>
      (window.dependencyArtifactId, window))
    let originalIds : List String := mappings.map (·.originalDependencyArtifactId)
    let substituteIds : List String := mappings.map (·.substituteDependencyArtifactId)
    let sameSet := fun (xs ys : List String) => decide (xs ⊆ ys ∧ ys ⊆ xs)
    certification.originalBasisDigest = original.digest &&
      certification.substituteBasisDigest = proof.digest &&
      mappings.length = originalWindows.length &&
      originalWindows.length = substituteWindows.length &&
      decide originalIds.Nodup && decide substituteIds.Nodup &&
      sameSet originalIds originalWindows.keys &&
      sameSet originalWindows.keys (originalBasis.dependencies.map (·.artifactId)) &&
      sameSet substituteIds substituteWindows.keys &&
      sameSet substituteWindows.keys (proofBasis.dependencies.map (·.artifactId)) &&
      mappings.all (fun item =>
        (originalWindows.get? item.originalDependencyArtifactId).any (fun window =>
          item.requiredFrom = window.requiredFrom && item.requiredUntil = window.requiredUntil) &&
        (substituteWindows.get? item.substituteDependencyArtifactId).any (fun window =>
          window.requiredFrom ≤ item.requiredFrom && item.requiredFrom ≤ item.requiredUntil &&
            item.requiredUntil ≤ window.requiredUntil)) &&
      certification.checks.length = 4 &&
      [BasisSubstitutionKind.equivalence, .migration, .crossValidation, .replay].all
        (· ∈ certification.checks.map (·.kind)) &&
      decide (certification.checks.map (·.checkId)).Nodup &&
      certification.checks.all (fun check => check.originalBasisDigest = original.digest &&
        check.substituteBasisDigest = proof.digest && check.availableAt ≤ proof.availableAt)
  | _, _, _ => false

/-- Whether a proof restores the premise that the original authorization rests on. -/
def restoresPremise (digests : Digests) (proof : QualificationEvidence)
    (previous : QualificationRecord) : Bool :=
  previous.authorizationEvidence.any fun original =>
    original.basis.isSome && decide (EvidenceBasisIsValid digests original) &&
      proof.restoredAuthorizationDigest = some original.digest &&
      if proof.kind = .originalBasisRestored then decide (proof.basis = original.basis)
      else decide (proof.kind = .certifiedBasisSubstitution) &&
        certifiedSubstitutionIsValid proof original

/-- Whether a proof is the later formal check that a record already passed. -/
def restoresPerformance (restriction : QualificationRestriction) (previous : QualificationRecord) :
    Bool :=
  previous.formalEvidence.any fun evidence =>
    proof.kind = .formalCheck && formalCheckPassed proof = some true &&
      decide (proof.scope.SameScopeAs evidence.scope) &&
      { proof with resolvesEvidenceId := none, scope := evidence.scope } = evidence &&
      restriction.evidence.evaluationEnd < proof.evaluationEnd

/-- Whether a proof renews the state activity of a record that is otherwise current. -/
def restoresStateActivity (restriction : QualificationRestriction) (previous : QualificationRecord)
    (now : Instant) : Bool :=
  previous.expiryBasis.any fun basis =>
    proof.kind = .stateActivityRestored &&
      (overallQualificationDeadline basis).any (now ≤ ·) &&
      proof.stateActivityEnd.any (fun activityEnd => proof.evaluationEnd = activityEnd &&
        restriction.evidence.stateActivityEnd.all (· < activityEnd)) &&
      (stateActivityDeadline proof).any (now ≤ ·) &&
      (basis.formalCheck >>= nextFormalNode previous).all (now < ·)

/-- Whether a proof answers a restriction. -/
def restoresRestriction (digests : Digests) (proof : QualificationEvidence)
    (restriction : QualificationRestriction) (previous : QualificationRecord) (now : Instant) :
    Bool :=
  match restriction.cause with
  | .requiredPremiseUnverifiable => restoresPremise digests proof previous
  | .formalPerformanceFailure | .evidenceExpired => restoresPerformance proof restriction previous
  | .stateActivityExpired => restoresStateActivity proof restriction previous now
  | .originalBasisInvalid => false

/-- The proof that names the evidence of a restriction. -/
def restorationProof (proofs : List QualificationEvidence)
    (restriction : QualificationRestriction) :
    Option QualificationEvidence :=
  proofs.find? (·.resolvesEvidenceId = some restriction.evidence.evidenceId)

/-- Whether a proof is evidence of the command's version that is available and has not expired. -/
def RestorationEvidenceIsValid : Prop :=
  proof.scope = command.scope ∧ proof.version = command.version ∧
    EvidenceBasisIsValid context.digests proof ∧ proof.evaluationEnd ≤ proof.availableAt ∧
    proof.availableAt ≤ min context.now context.cutoff ∧ context.now ≤ proof.expiresAt

instance (context : AdjudicationContext) (command : QualificationCommand)
    (proof : QualificationEvidence) :
    Decidable (RestorationEvidenceIsValid context command proof) :=
  inferInstanceAs (Decidable (_ ∧ _))

/-- Whether there is exactly one accepted proof for each restricted evidence. -/
def restorationIsComplete (previous : QualificationRecord) : Bool :=
  decide (
    previous.restrictions ≠ [] ∧
    (command.restorationEvidence.map (·.resolvesEvidenceId)).Nodup ∧
    command.restorationEvidence.map (·.resolvesEvidenceId) ⊆
      previous.restrictions.map (fun item => some item.evidence.evidenceId) ∧
    previous.restrictions.map (fun item => some item.evidence.evidenceId) ⊆
      command.restorationEvidence.map (·.resolvesEvidenceId) ∧
    (∀ proof ∈ command.restorationEvidence, RestorationEvidenceIsValid context command proof) ∧
    ∀ restriction ∈ previous.restrictions,
      ∃ proof ∈ restorationProof command.restorationEvidence restriction,
        restoresRestriction context.digests proof restriction previous context.now)

/-- The record that can be restored. -/
def restorable : Option QualificationRecord := do
  let previous ← previous
  guard (previous.status = .suspended ∧ previous.authorizationEvidence.isSome ∧
    command.evidence.kind = .restorationDecision)
  return previous

/-- A record with its restrictions lifted. -/
def restoredRecord (previous : QualificationRecord) : QualificationRecord :=
  let stateActivityProofs :=
    (previous.restrictions.filter (·.cause = .stateActivityExpired)).filterMap
    (restorationProof command.restorationEvidence)
  { previous with
    decisionId := context.eventId
    previousDecisionId := some previous.decisionId
    status := if previous.outstandingAlerts ≠ [] then .atRisk else .valid
    cause := if previous.outstandingAlerts ≠ [] then "DIAGNOSTIC_ALERT"
      else "QUALIFICATION_RESTORED"
    evidence := command.evidence
    restrictions := []
    restorationEvidence := command.restorationEvidence
    stateActivityEvidence := stateActivityProofs.getLast? <|> previous.stateActivityEvidence
    recordedAt := context.now }

/-- Lift the restrictions of a suspended record. -/
def restore : GovernanceOutcome :=
  match restorable command previous with
  | none => denied "QUALIFICATION_RESTORATION_NOT_ALLOWED"
  | some previous =>
    if restorationIsComplete context command previous then
      approved "QUALIFICATION_RESTORED" (restoredRecord context command previous)
    else denied "QUALIFICATION_RESTORATION_INCOMPLETE"

/-- The record that a suspension or revocation can restrict. -/
def restrictable (requiredKind : EvidenceKind) (previous : Option QualificationRecord) :
    Option QualificationRecord := do
  let previous ← previous
  guard (previous.authorizationId.isSome ∧ previous.status ≠ .revoked ∧
    command.evidence.kind = requiredKind)
  return previous

/-- A record with one more restriction. -/
def restrictedRecord (previous : QualificationRecord) (status : QualificationStatus)
    (cause : RestrictionCause) (terminatedAt : Option Instant) : QualificationRecord :=
  { previous with
    decisionId := context.eventId
    previousDecisionId := some previous.decisionId
    status
    authorizationTerminatedAt := terminatedAt
    cause := command.evidence.kind.name
    evidence := command.evidence
    restrictions := previous.restrictions ++ [⟨cause, command.evidence⟩]
    recordedAt := context.now }

/-- Suspend an authority whose premise cannot be verified. -/
def suspend : GovernanceOutcome :=
  match restrictable command .requiredPremiseUnverifiable previous with
  | none => denied "QUALIFICATION_RESTRICTION_NOT_SUPPORTED"
  | some previous => approved command.evidence.kind.name (restrictedRecord context command previous
      .suspended .requiredPremiseUnverifiable previous.authorizationTerminatedAt)

/-- Revoke an authority whose original basis is invalid. -/
def revoke : GovernanceOutcome :=
  match restrictable command .originalBasisInvalid previous with
  | none => denied "QUALIFICATION_RESTRICTION_NOT_SUPPORTED"
  | some previous => approved command.evidence.kind.name (restrictedRecord context command previous
      .revoked .originalBasisInvalid (some context.now))

/-- The record that an authority was not obtained. -/
def notObtainedRecord : QualificationRecord where
  decisionId := context.eventId
  authorizationId := none
  scope := command.scope
  version := command.version
  status := .notObtained
  cause := command.evidence.kind.name
  authorizationEvidence := none
  recordedAt := context.now
  evidence := command.evidence

/-- Save that an authority was not obtained. -/
def recordNotObtained : GovernanceOutcome :=
  if previous ≠ none ∨ command.evidence.kind ≠ .insufficientEvidence then
    denied "QUALIFICATION_REGISTRATION_NOT_ALLOWED"
  else approved "INSUFFICIENT_EVIDENCE" (notObtainedRecord context command)

/-- The record that a grant starts. -/
def grantedRecord : QualificationRecord where
  decisionId := context.eventId
  authorizationId := some context.eventId
  scope := command.scope
  version := command.version
  status := .valid
  cause := command.evidence.kind.name
  authorizationEvidence := some command.evidence
  previousDecisionId := previous.map (·.decisionId)
  recordedAt := context.now
  evidence := command.evidence

/-- Grant an authority that was not obtained before. -/
def grant : GovernanceOutcome :=
  if previous.any (·.status ≠ .notObtained) ∨ command.evidence.kind ≠ .qualificationPass then
    denied "QUALIFICATION_GRANT_NOT_ALLOWED"
  else if ¬EvidenceIsCurrent command.evidence context.now then
    denied "QUALIFICATION_EVIDENCE_EXPIRED"
  else approved "QUALIFICATION_PASS" (grantedRecord context command previous)

/-- Whether the evidence of a command is evidence of its scope and version that has not expired. -/
def CommandEvidenceIsValid : Prop :=
  command.evidence.scope = command.scope ∧ command.evidence.version = command.version ∧
    EvidenceBasisIsValid context.digests command.evidence ∧
    command.evidence.evaluationEnd ≤ command.evidence.availableAt ∧
    command.evidence.availableAt ≤ context.now ∧ context.now ≤ command.evidence.expiresAt ∧
    ∀ activityEnd ∈ command.evidence.stateActivityEnd, activityEnd ≤ command.evidence.availableAt

instance (context : AdjudicationContext) (command : QualificationCommand) :
    Decidable (CommandEvidenceIsValid context command) :=
  inferInstanceAs (Decidable (_ ∧ _))

/-- Carry out the action of a command on the current record. -/
def carryOut : Except String GovernanceOutcome :=
  match command.action with
  | .formalCheck => return formalCheck context command previous
  | .recordFormalNode => return recordFormalNodeDisposition context command previous
  | .recordAlertReplay => return recordAlertReplay context command previous
  | .closeAlert => closeAlert context command previous
  | .registerRequalification =>
    return registerRequalificationApplication context command previous
  | .requalify => requalify context command previous
  | .restore => return restore context command previous
  | .suspend => return suspend context command previous
  | .revoke => return revoke context command previous
  | .recordNotObtained => return recordNotObtained context command previous
  | .alert => return raiseAlert context command previous
  | .grant => return grant context command previous

/-- Adjudicate a qualification command. -/
def adjudicate : Except String GovernanceOutcome :=
  match command.version.policyError with
  | some reason => return denied reason
  | none =>
    if ¬CommandEvidenceIsValid context command then
      return denied "QUALIFICATION_EVIDENCE_INVALID"
    else if context.cutoff < command.evidence.availableAt then
      return denied "QUALIFICATION_EVIDENCE_AFTER_CUTOFF"
    else if PolicyIdentityConflicts command.scope command.version context.history then
      return denied "QUALIFICATION_POLICY_IDENTITY_CONFLICT"
    else do
      let previous ← currentSubstantiveQualification context.history command.scope command.version
      if command.previousDecisionId ≠ previous.map (·.decisionId) then
        return denied "QUALIFICATION_REVISION_CONFLICT"
      else if previous.any fun record => !record.evidenceAvailableBy context.cutoff then
        return denied "QUALIFICATION_HISTORY_AFTER_CUTOFF"
      else carryOut context command previous

end StockProfiler.Qualification
