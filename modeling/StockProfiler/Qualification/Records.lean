import StockProfiler.Core.Checks
import StockProfiler.Core.Dict
import StockProfiler.Core.Succession
import StockProfiler.Qualification.Evidence

/-!
# Qualification records

The record that a history holds for a scope and a version, what expiry does to a
record, and the formal node that a record awaits.
-/

namespace StockProfiler.Qualification

variable (record : QualificationRecord) (history : List GovernanceOutcome)
  (scope : QualificationScope)

/-- The evidence that the expiry of a record is measured by. -/
def QualificationRecord.expiryBasis : Option QualificationEvidence :=
  record.formalPassingEvidence <|> record.authorizationEvidence

variable (version : CapabilityVersion) (now : Instant)

/-- Why a record has expired, if it has. -/
def qualificationExpiryCause : Option RestrictionCause :=
  match record.expiryBasis with
  | none => some .evidenceExpired
  | some basis =>
    if ∀ overall ∈ overallQualificationDeadline basis, overall < now then
      some .evidenceExpired
    else
      match stateActivityDeadline (record.stateActivityEvidence.getD basis) with
      | some state => if state < now then some .stateActivityExpired else none
      | none =>
        if basis.version.qualificationPolicy.any (·.requireStateActivity) then
          some .stateActivityExpired
        else none

/-- Whether a record has not expired. -/
def QualificationIsCurrent : Prop :=
  qualificationExpiryCause record now = none

instance (record : QualificationRecord) (now : Instant) :
    Decidable (QualificationIsCurrent record now) :=
  inferInstanceAs (Decidable (_ = _))

/-- The restriction that expiry adds to a record, if it adds one. -/
def expiryRestriction : Option QualificationRestriction := do
  let basis ← record.expiryBasis
  let cause ← qualificationExpiryCause record now
  guard (record.status ∈ [.valid, .atRisk, .suspended] ∧
    ∀ item ∈ record.restrictions, item.cause ≠ cause)
  return ⟨cause, basis⟩

/-- Suspend a record that has expired for a cause it is not yet restricted for. -/
def restrictExpiredQualification : QualificationRecord :=
  match expiryRestriction record now with
  | none => record
  | some restriction =>
    { record with
      status := .suspended
      cause := if record.status = .suspended then record.cause else restriction.cause.name
      restrictions := record.restrictions ++ [restriction] }

/-- The evidence whose formal check the next one follows. -/
def QualificationRecord.latestCheckEvidence : Option QualificationEvidence :=
  record.formalEvidence <|> record.authorizationEvidence

/-- The first planned node after the last one that was disposed of. -/
def nextFormalNode (originalCheck : FormalCheckIdentity) : Option Instant :=
  match record.formalNodeDispositions.getLast?, record.lastFormalNode with
  | some last, _ => originalCheck.plannedNodes.find? (last.scheduledAt < ·)
  | none, some node =>
    if node ≠ originalCheck.scheduledAt then none
    else originalCheck.plannedNodes.find? (node < ·)
  | none, none => originalCheck.plannedNodes.find? (originalCheck.scheduledAt < ·)

/-- Whether a check belongs to the sequence of another. -/
def SameFormalSequence (proposed original : FormalCheckIdentity) : Prop :=
  proposed.sequenceId = original.sequenceId ∧ proposed.registeredAt = original.registeredAt ∧
    proposed.plannedNodes = original.plannedNodes ∧
    proposed.requiredGates = original.requiredGates ∧
    proposed.errorBudgetId = original.errorBudgetId

instance (proposed original : FormalCheckIdentity) :
    Decidable (SameFormalSequence proposed original) :=
  inferInstanceAs (Decidable (_ ∧ _))

/-- The qualification records of a history. -/
def qualificationRecords : List QualificationRecord :=
  history.filterMap (·.qualification)

/-- The only matching record that no other one supersedes. -/
def currentQualificationMatching (matchesVersion : CapabilityVersion → Bool)
    (conflictMessage : String) : Except String (Option QualificationRecord) :=
  let records := (qualificationRecords history).filter fun record =>
    record.scope.SameScopeAs scope ∧ matchesVersion record.version
  match heads (·.decisionId) (·.previousDecisionId) records with
  | [] => .ok none
  | [head] => .ok (some head)
  | _ => .error conflictMessage

/-- The current record of exactly a version. -/
def currentQualification : Except String (Option QualificationRecord) :=
  currentQualificationMatching history scope (· = version)
    "qualification history has conflicting revisions"

/-- The current record of the versions that follow the same rules. -/
def currentSubstantiveQualification : Except String (Option QualificationRecord) :=
  currentQualificationMatching history scope (·.SameSubstantiveVersionAs version)
    "qualification history has conflicting substantive revisions"

/-- Whether a history binds the policy version of a scope to another policy. -/
def PolicyIdentityConflicts (history : List GovernanceOutcome) : Prop :=
  ∃ binding ∈ history.filterMap (·.boundPolicy), binding.scope.SameScopeAs scope ∧
    binding.version.policyVersion = version.policyVersion ∧
    binding.version.qualificationPolicy ≠ version.qualificationPolicy

instance (scope : QualificationScope) (version : CapabilityVersion)
    (history : List GovernanceOutcome) :
    Decidable (PolicyIdentityConflicts scope version history) :=
  inferInstanceAs (Decidable (∃ binding ∈ history.filterMap (·.boundPolicy),
    binding.scope.SameScopeAs scope ∧ binding.version.policyVersion = version.policyVersion ∧
      binding.version.qualificationPolicy ≠ version.qualificationPolicy))

/-- A command that was not carried out. -/
def denied (reason : String) : GovernanceOutcome :=
  { disposition := .denied, reasons := [reason] }

/-- A command that saved a record. -/
def approved (reason : String) (record : QualificationRecord) : GovernanceOutcome :=
  { disposition := .approved, reasons := [reason], qualification := some record }

/-- What a qualification command is adjudicated with. -/
structure AdjudicationContext where
  digests : Digests
  eventId : String
  now : Instant
  cutoff : Instant
  history : List GovernanceOutcome

end StockProfiler.Qualification
