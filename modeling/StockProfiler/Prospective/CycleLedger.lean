import StockProfiler.DecisionCases.DecisionEvents
import StockProfiler.Qualification.Contracts

/-!
# The ledger of a prospective cycle

A cycle is registered once. Its observations, incidents, reviews and checks are appended one after
another, each naming the event before it. What is known of months and incidents is read again from
all of them for every command.
-/

namespace StockProfiler.Prospective.Cycle

open DecisionCases (ResultAccessScope Visibility)
open Portfolio (sameMembers)
open Qualification (DecisionCaseVersionBundle)

/-- An original plan month with its clocks. -/
structure PlanNode where
  planMonth : String
  knowledgeCutoff : Instant
  firstEntryAt : Instant
  disclosureAt : Instant
  deriving DecidableEq

/-- How a monthly selection is drawn. -/
structure SelectionPolicy where
  versionId : String
  cohortSize : ℤ
  industryLimit : ℤ
  capitalizationLimit : ℤ
  correlationSessions : ℤ
  maximumCorrelation : ℚ
  positiveWeight : ℤ
  terminalWeight : ℤ
  deriving DecidableEq

/-- The scientific fields of a preregistered population. -/
structure PopulationPolicy where
  cohortSize : ℤ
  selectionPolicy : SelectionPolicy
  selectionStrategyVersion : String
  rawScoreModelVersion : String
  calibratorVersion : String
  standardQuantity : ℚ
  deriving DecidableEq

/-- A preregistered cycle. -/
structure CycleRegistration where
  versionId : String
  sourceVersionBundle : DecisionCaseVersionBundle
  calendarVersion : String
  sourceScopes : List String
  planNodes : List PlanNode
  populationPolicy : Option PopulationPolicy := none
  deriving DecidableEq

variable (registration : CycleRegistration)

/-- Delivery provenance, new node dates and gate edits cannot erase a sequence. -/
def CycleRegistration.sameScientificPopulationAs (other : CycleRegistration) : Bool :=
  match registration.populationPolicy, other.populationPolicy with
  | some policy, some otherPolicy =>
    registration.calendarVersion = other.calendarVersion ∧
      sameMembers registration.sourceScopes other.sourceScopes ∧ policy = otherPolicy
  | _, _ => false

/-- The node of a plan month. -/
def CycleRegistration.node? (planMonth : String) : Option PlanNode :=
  registration.planNodes.find? (·.planMonth = planMonth)

/-- Which part of the system an incident concerns. -/
inductive IncidentKind where
  | data
  | operations
  | privacy
  | shadow
  deriving DecidableEq

/-- An incident, closed or not. -/
structure ShadowIncident where
  incidentId : String
  kind : IncidentKind
  occurredAt : Instant
  closedAt : Option Instant

/-- What is done to an incident. -/
inductive IncidentOperation where
  | record
  | close
  deriving DecidableEq

/-- An incident that is recorded open, or closed, against its original plan month. -/
structure IncidentFact extends ShadowIncident where
  operation : IncidentOperation
  planMonth : String
  closes_iff : operation = .close ↔ closedAt.isSome := by decide

/-- How a month ends. -/
inductive ObservationStatus where
  | candidates
  | abstained
  | failed
  | blocked
  | unknown
  deriving DecidableEq

/-- The snapshot of one source. -/
structure SourceSnapshot where
  scope : String
  knowledgeCutoff : Instant

/-- What a notification is due for. -/
inductive NotificationKind where
  | initial
  | final
  | correction
  deriving DecidableEq

/-- A notification that a month owes. -/
structure NotificationObligation where
  kind : NotificationKind
  dueAt : Instant
  deliveredAt : Option Instant

/-- The selection that a month names, and its candidate event. -/
structure BatchLink where
  selectionEventId : String
  candidateEventId : Option String := none

/-- The original observation of a month. -/
structure MonthlyObservation where
  planMonth : String
  completedAt : Instant
  status : ObservationStatus
  sources : List SourceSnapshot
  firstDeliveryAt : Option Instant
  notifications : List NotificationObligation
  incidents : List ShadowIncident
  batchLink : Option BatchLink := none

/-- What is appended to a cycle. -/
inductive CycleEntry where
  | observation (row : MonthlyObservation)
  | incident (fact : IncidentFact)
  | review
  | check (formalNodeMonth : String)

/-- A registration, or an entry after the latest event of a registered cycle. -/
inductive CycleOperation where
  | register (registration : CycleRegistration)
  | append (registrationEventId : String) (previousEventId : Option String) (entry : CycleEntry)

/-- One command on the ledger of cycles. -/
structure CycleCommand where
  operation : CycleOperation
  cutoffAt : Instant

namespace CycleCommand

variable (command : CycleCommand)

/-- The registration that a command makes. -/
def registration? : Option CycleRegistration :=
  match command.operation with
  | .register registration => some registration
  | .append .. => none

/-- The registered cycle that a command is on. -/
def registrationEventId? : Option String :=
  match command.operation with
  | .register _ => none
  | .append registrationEventId _ _ => some registrationEventId

/-- The event that a command comes after. -/
def previousEventId? : Option String :=
  match command.operation with
  | .register _ => none
  | .append _ previousEventId _ => previousEventId

/-- The observation of a command. -/
def observation? : Option MonthlyObservation :=
  match command.operation with
  | .append _ _ (.observation row) => some row
  | _ => none

/-- The incident fact of a command. -/
def incidentFact? : Option IncidentFact :=
  match command.operation with
  | .append _ _ (.incident fact) => some fact
  | _ => none

end CycleCommand

/-- How a cycle command ends. -/
inductive CycleDisposition where
  | registered
  | waitingForEvidence
  deriving DecidableEq

/-- The report of a command, with the accounts of its cycle. -/
structure CycleReport (α : Type) where
  disposition : CycleDisposition
  registrationEventId : Option String
  versionId : String
  cutoffAt : Instant
  previousEventId : Option String := none
  reportVersion : ℕ := 1
  accounts : Option α := none

/-- A command as it is adjudicated. -/
structure CycleCase where
  accessScope : ResultAccessScope
  versionBundle : DecisionCaseVersionBundle
  command : CycleCommand

/-- A saved original event with a cycle report. -/
structure CycleEvent (α : Type) where
  decisionEventId : String
  case : CycleCase
  committedAt : Instant
  report : CycleReport α

variable {α : Type} (ledger : List (CycleEvent α)) (cutoffAt : Instant)
  (incidents : Dict String (String × ShadowIncident)) (case : CycleCase)

/-- `prospective_history`. -/
def prospectiveHistory (scope : ResultAccessScope) : List (CycleEvent α) :=
  ledger.filter (·.case.accessScope.sameScopeAs scope)

/-- The checks of an observation against its plan node. -/
def checkObservation (row : MonthlyObservation) : Except String Unit := do
  let node ← known (registration.node? row.planMonth) "PROSPECTIVE_PLAN_MONTH_UNAVAILABLE"
  require (node.knowledgeCutoff ≤ row.completedAt) "PROSPECTIVE_PLAN_MONTH_UNAVAILABLE"
  require (¬(row.status ∈ [.candidates, .abstained] ∧ node.disclosureAt < cutoffAt))
    "PROSPECTIVE_SUCCESS_RECORDED_LATE"
  require (∀ item ∈ row.sources, item.scope ∈ registration.sourceScopes)
    "PROSPECTIVE_SOURCE_SCOPE_MISMATCH"
  require (∀ item ∈ row.sources, item.knowledgeCutoff = node.knowledgeCutoff)
    "PROSPECTIVE_SOURCE_CUTOFF_MISMATCH"
  require (∀ delivery ∈ row.firstDeliveryAt,
    node.knowledgeCutoff ≤ delivery ∧ delivery ≤ node.disclosureAt)
    "PROSPECTIVE_DELIVERY_OUTSIDE_ORIGINAL_WINDOW"
  row.notifications.forM fun item => do
    require (∀ delivered ∈ item.deliveredAt, node.knowledgeCutoff ≤ delivered)
      "PROSPECTIVE_NOTIFICATION_BEFORE_WINDOW"
    require ((item.kind = .initial → item.dueAt = node.firstEntryAt) ∧
      (item.kind = .final → item.dueAt = node.disclosureAt) ∧
      node.knowledgeCutoff ≤ item.dueAt ∧ item.dueAt ≤ node.disclosureAt)
      "PROSPECTIVE_NOTIFICATION_WINDOW_CHANGED"

/-- Assign an incident to its month; one that is recorded must be new. -/
def assignIncident (entry : Bool × String × ShadowIncident) :
    Except String (Dict String (String × ShadowIncident)) := do
  require (¬(entry.1 ∧ (incidents.get? entry.2.2.incidentId).isSome))
    "PROSPECTIVE_INCIDENT_IDENTITY_CONFLICT"
  return incidents.set entry.2.2.incidentId entry.2

/-- The incidents of observed months, all of which must be new. -/
def observedIncidents (observations : List (String × MonthlyObservation)) :
    List (Bool × String × ShadowIncident) :=
  observations.flatMap fun entry => entry.2.incidents.map fun incident => (true, entry.1, incident)

/-- The incidents of facts, which must be new where they are recorded. -/
def factIncidents (facts : List IncidentFact) : List (Bool × String × ShadowIncident) :=
  facts.map fun fact => (fact.operation = .record, fact.planMonth, fact.toShadowIncident)

/-- The incidents known from observed months and then from facts. -/
def retainedIncidents (observations : Dict String MonthlyObservation)
    (facts : List IncidentFact) : Except String (Dict String (String × ShadowIncident)) :=
  (observedIncidents observations ++ factIncidents facts).foldlM assignIncident []

/-- The checks of an incident fact against what is known of its incident. -/
def checkIncident (fact : IncidentFact) : Except String Unit := do
  let node ← known (registration.node? fact.planMonth) "PROSPECTIVE_INCIDENT_PLAN_UNAVAILABLE"
  require (node.knowledgeCutoff ≤ cutoffAt) "PROSPECTIVE_INCIDENT_PLAN_UNAVAILABLE"
  match fact.operation with
  | .record =>
    require (incidents.get? fact.incidentId = none) "PROSPECTIVE_INCIDENT_IDENTITY_CONFLICT"
  | .close =>
    require (∃ original ∈ incidents.get? fact.incidentId,
      original.1 = fact.planMonth ∧ original.2.kind = fact.kind ∧
        original.2.occurredAt = fact.occurredAt ∧ original.2.closedAt = none)
      "PROSPECTIVE_INCIDENT_CLOSURE_CONFLICT"

/-- The checks of a registration. -/
def assessRegistration (history : List (CycleEvent α)) (registration : CycleRegistration) :
    Except String (CycleReport α) := do
  require (registration.sourceVersionBundle = case.versionBundle)
    "PROSPECTIVE_LOCK_BUNDLE_MISMATCH"
  require (∀ event ∈ history, ∀ other ∈ event.case.command.registration?,
    other.sourceVersionBundle ≠ registration.sourceVersionBundle)
    "PROSPECTIVE_LOCK_ALREADY_REGISTERED"
  require (∀ event ∈ history, ∀ other ∈ event.case.command.registration?,
    registration.sameScientificPopulationAs other = false)
    "PROSPECTIVE_SCIENTIFIC_SEQUENCE_ALREADY_REGISTERED"
  return {
    disposition := .registered
    registrationEventId := none
    versionId := registration.versionId
    cutoffAt := case.command.cutoffAt }

/-- The events that are appended to a registered cycle. -/
def cycleEvents (history : List (CycleEvent α)) (registrationEventId : String) :
    List (CycleEvent α) :=
  history.filter (·.case.command.registrationEventId? = some registrationEventId)

/-- The observed months of a cycle. -/
def cycleObservations (prior : List (CycleEvent α)) : Dict String MonthlyObservation :=
  Dict.ofLast ((prior.filterMap (·.case.command.observation?)).map fun row => (row.planMonth, row))

/-- The saved registration of a cycle, when a command may name it. -/
def savedRegistration (ledger : List (CycleEvent α)) (registrationEventId : String) :
    Option CycleRegistration := do
  let source ← ledger.find? (·.decisionEventId = registrationEventId)
  let registration ← source.case.command.registration?
  guard (source.case.accessScope.sameScopeAs case.accessScope ∧
    source.case.command.cutoffAt ≤ case.command.cutoffAt ∧
    source.report.disposition = .registered ∧ source.committedAt ≤ case.command.cutoffAt)
  return registration

/-- The observed months after an entry; a month is observed once. -/
def observeMonth (observations : Dict String MonthlyObservation) :
    CycleEntry → Except String (Dict String MonthlyObservation)
  | .observation row => do
    require (observations.get? row.planMonth = none) "PROSPECTIVE_MONTH_ALREADY_RECORDED"
    checkObservation registration cutoffAt row
    return observations.set row.planMonth row
  | _ => .ok observations

/-- The checks of an incident entry. -/
def checkEntryIncident : CycleEntry → Except String Unit
  | .incident fact => checkIncident registration cutoffAt incidents fact
  | _ => .ok ()

/-- The checks of an entry, and its report. The accounts of the cycle, which read no identities,
come last and may fail. -/
def assessEntry (ledger : List (CycleEvent α)) (accounts : Except String α)
    (registrationEventId : String) (previousEventId : Option String) (entry : CycleEntry) :
    Except String (CycleReport α) := do
  let registration ← known (savedRegistration case ledger registrationEventId)
    "PROSPECTIVE_REGISTRATION_UNAVAILABLE"
  require (∀ row ∈ case.command.observation?, row.batchLink ≠ none →
    registration.populationPolicy ≠ none) "PROSPECTIVE_POPULATION_POLICY_REQUIRED"
  let prior := cycleEvents (prospectiveHistory ledger case.accessScope) registrationEventId
  require (previousEventId = prior.getLast?.map (·.decisionEventId))
    "PROSPECTIVE_LINEAGE_CONFLICT"
  require (∀ previous ∈ prior.getLast?,
    max previous.case.command.cutoffAt previous.committedAt ≤ case.command.cutoffAt)
    "PROSPECTIVE_CUTOFF_REWOUND"
  require (case.versionBundle = registration.sourceVersionBundle)
    "PROSPECTIVE_LOCK_BUNDLE_MISMATCH"
  let observations ← observeMonth registration case.command.cutoffAt (cycleObservations prior) entry
  let incidents ← retainedIncidents observations
    (prior.filterMap (·.case.command.incidentFact?))
  checkEntryIncident registration case.command.cutoffAt incidents entry
  let accounts ← accounts
  return {
    disposition := .waitingForEvidence
    registrationEventId := some registrationEventId
    versionId := registration.versionId
    cutoffAt := case.command.cutoffAt
    previousEventId
    reportVersion := prior.length + 1
    accounts := some accounts }

/-- `assess_prospective`. -/
def assessProspective (ledger : List (CycleEvent α)) (accounts : Except String α) :
    Except String (CycleReport α) :=
  if case.accessScope.visibility ≠ .shadow then .error "PROSPECTIVE_REQUIRES_SHADOW_SCOPE"
  else
    match case.command.operation with
    | .register registration =>
      assessRegistration case (prospectiveHistory ledger case.accessScope) registration
    | .append registrationEventId previousEventId entry =>
      assessEntry case ledger accounts registrationEventId previousEventId entry

/-- A command that is adjudicated and committed under a new identity. -/
structure CycleInput (α : Type) where
  decisionEventId : String
  case : CycleCase
  committedAt : Instant
  accounts : Except String α

/-- The event that a command commits, if it is accepted. -/
def commitCycle (input : CycleInput α) : Option (CycleEvent α) :=
  if ∃ event ∈ ledger, event.decisionEventId = input.decisionEventId then none
  else
    match assessProspective input.case ledger input.accounts with
    | .error _ => none
    | .ok report => some ⟨input.decisionEventId, input.case, input.committedAt, report⟩

/-- The ledger after a command. -/
def appendCycle (input : CycleInput α) : List (CycleEvent α) :=
  match commitCycle ledger input with
  | some event => ledger ++ [event]
  | none => ledger

/-- The ledger that commands leave, one after another. -/
def cycleLedger (inputs : List (CycleInput α)) : List (CycleEvent α) :=
  inputs.foldl appendCycle []

end StockProfiler.Prospective.Cycle
