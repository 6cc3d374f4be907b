import Mathlib.Data.List.Basic
import StockProfiler.Qualification.Contracts

/-!
# Evaluation of frozen evidence

Explicit frozen policy inputs are evaluated without supplying authorization
defaults. Digests of canonical documents enter as functions.
-/

namespace StockProfiler.Qualification

/-- The digests of canonical documents. -/
structure Digests where
  /-- The digest of a text. -/
  contentSha256 : String → String
  evidenceBasisDigest : EvidenceBasis → String
  capabilityVersionDigest : CapabilityVersion → String
  qualificationEvidenceDigest : QualificationEvidence → String
  /-- The digest of a replay without its original information and its own digest. -/
  alertReplayResultDigest : ErroneousAlertReplay → String
  /-- The digest of a registration without its own digest. -/
  requalificationRegistrationDigest : RequalificationPopulationRegistration → String

/-- The last microsecond of the month that lies whole months after an endpoint, if the calendar
has that month. -/
def monthEndAfter (endpoint : Instant) (months : ℤ) : Option Instant :=
  let date := CivilDate.ofDay endpoint.utcDay
  let monthIndex := date.year * 12 + date.month - 1 + months
  let year := monthIndex / 12
  let month := monthIndex % 12 + 1
  if 1 ≤ date.year ∧ date.year ≤ 9999 ∧ 1 ≤ year ∧ year ≤ 9999 then
    some ((CivilDate.toDay ⟨year, month, daysInMonth year month⟩ + 1) * microsecondsPerDay - 1)
  else none

-- One month after the end of January is the end of February.
example : monthEndAfter (CivilDate.toDay ⟨2042, 1, 31⟩ * microsecondsPerDay) 1 =
    some (CivilDate.toDay ⟨2042, 3, 1⟩ * microsecondsPerDay - 1) := by decide

variable (evidence : QualificationEvidence)

/-- The policy of evidence whose version has a usable one. -/
def QualificationEvidence.usablePolicy : Option QualificationPolicy :=
  if evidence.version.policyError = none then evidence.version.qualificationPolicy else none

/-- When evidence expires for every use. -/
def overallQualificationDeadline : Option Instant := do
  let policy ← evidence.usablePolicy
  let monthEnd ← monthEndAfter evidence.evaluationEnd policy.evaluationMaxAgeMonths
  return min evidence.expiresAt monthEnd

/-- When the state activity of evidence expires. -/
def stateActivityDeadline : Option Instant := do
  let policy ← evidence.usablePolicy
  let activityEnd ← evidence.stateActivityEnd
  monthEndAfter activityEnd policy.stateActivityMaxAgeMonths

/-- When evidence expires, with the state activity of other evidence where there is some. -/
def qualificationDeadline (stateActivityEvidence : Option QualificationEvidence := none) :
    Option Instant := do
  let overall ← overallQualificationDeadline evidence
  let policy ← evidence.version.qualificationPolicy
  match stateActivityDeadline (stateActivityEvidence.getD evidence) with
  | some state => some (min overall state)
  | none => if policy.requireStateActivity then none else some overall

/-- Whether evidence has not expired. -/
def EvidenceIsCurrent (now : Instant) : Prop :=
  ∃ deadline ∈ qualificationDeadline evidence, now ≤ deadline

instance (evidence : QualificationEvidence) (now : Instant) :
    Decidable (EvidenceIsCurrent evidence now) :=
  inferInstanceAs (Decidable (∃ deadline ∈ qualificationDeadline evidence, now ≤ deadline))

/-- Whether an artifact has the content it names and was available with its evidence. -/
def ArtifactIsValid (digests : Digests) (evidence : QualificationEvidence)
    (artifact : EvidenceArtifact) : Prop :=
  digests.contentSha256 artifact.content = artifact.contentSha256 ∧
    artifact.validFrom ≤ artifact.validUntil ∧ artifact.availableAt ≤ evidence.availableAt

instance (digests : Digests) (evidence : QualificationEvidence) (artifact : EvidenceArtifact) :
    Decidable (ArtifactIsValid digests evidence artifact) :=
  inferInstanceAs (Decidable (_ ∧ _))

/-- Whether a dependency is valid for the whole span that its window requires. -/
def DependencyIsCovered (root artifact : EvidenceArtifact) (window : EvidenceDependencyWindow) :
    Prop :=
  window.parentArtifactId = root.artifactId ∧
    artifact.validFrom ≤ window.requiredFrom ∧ window.requiredFrom ≤ window.requiredUntil ∧
    window.requiredUntil ≤ artifact.validUntil ∧
    window.requiredFrom ≤ evidence.evaluationEnd ∧ evidence.evaluationEnd ≤ window.requiredUntil

instance (evidence : QualificationEvidence) (root artifact : EvidenceArtifact)
    (window : EvidenceDependencyWindow) :
    Decidable (DependencyIsCovered evidence root artifact window) :=
  inferInstanceAs (Decidable (_ ∧ _))

/-- Whether the artifacts of evidence support it. -/
def EvidenceBasisIsValid (digests : Digests) (evidence : QualificationEvidence) : Prop :=
  ∀ basis ∈ evidence.basis,
    let artifacts := basis.rootArtifact :: basis.dependencies
    (artifacts.map (·.artifactId)).Nodup ∧
      (basis.dependencyWindows.map (·.dependencyArtifactId)).Nodup ∧
      (∀ window ∈ basis.dependencyWindows,
        window.dependencyArtifactId ∈ basis.dependencies.map (·.artifactId)) ∧
      (∀ artifact ∈ artifacts, ArtifactIsValid digests evidence artifact) ∧
      basis.rootArtifact.validFrom ≤ evidence.evaluationEnd ∧
      evidence.evaluationEnd ≤ basis.rootArtifact.validUntil ∧
      (∀ artifact ∈ basis.dependencies,
        ∃ window ∈ basis.dependencyWindows, window.dependencyArtifactId = artifact.artifactId ∧
          DependencyIsCovered evidence basis.rootArtifact artifact window) ∧
      evidence.digest = digests.evidenceBasisDigest basis

instance (digests : Digests) (evidence : QualificationEvidence) :
    Decidable (EvidenceBasisIsValid digests evidence) :=
  inferInstanceAs (Decidable (∀ basis ∈ evidence.basis, _))

/-- Whether a formal check passed, when it is decided at all. -/
def formalCheckPassed : Option Bool := do
  let check ← evidence.formalCheck
  guard (check.requiredGates ≠ [] ∧ evidence.maturitySufficient = some true ∧
    check.requiredGates.Nodup ∧ evidence.gateResults.length = check.requiredGates.length ∧
    (evidence.gateResults.map (·.gateId) ⊆ check.requiredGates) ∧
    (check.requiredGates ⊆ evidence.gateResults.map (·.gateId)))
  return evidence.gateResults.all (·.passed)

end StockProfiler.Qualification
