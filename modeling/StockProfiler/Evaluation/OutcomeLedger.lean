import StockProfiler.DecisionCases.DecisionEvents
import StockProfiler.Evaluation.Outcomes

/-!
# The ledger of standard outcomes

Selections and candidate releases register the members that are evaluated. A standard outcome
report resolves one of these source events from the evidence retained in its earlier reports, and
is appended to them.
-/

namespace StockProfiler.Evaluation

open CandidateSelection (CandidateReleaseCommand CandidateReleaseOutcome CalibratedMember)
open DecisionCases (ResultAccessScope)

/-- The frozen members of a selection. -/
structure SelectionOutcome where
  cutoffAt : Instant
  members : List String

/-- A case as evaluation reads it. -/
structure EvaluationCase where
  accessScope : Option ResultAccessScope := none
  knowledgeCutoff : Instant
  /-- The selection that a research case names. -/
  researchSelectionEventId : Option String := none
  candidateRelease : Option CandidateReleaseCommand := none
  standardOutcomes : Option StandardOutcomeCommand := none

/-- A result as evaluation reads it. -/
structure EvaluationResult where
  selection : Option SelectionOutcome := none
  candidateRelease : Option CandidateReleaseOutcome := none
  standardOutcomes : Option StandardOutcomeReport := none
  evaluationRegistrations : List EvaluationRegistration := []

/-- A saved decision event. -/
structure EvaluationEvent where
  decisionEventId : String
  businessObjectId : String
  case : EvaluationCase
  result : EvaluationResult
  committedAt : Instant
  correctsEventId : Option String := none

/-- Two cases are in one scope. -/
def EvaluationCase.sameScopeAs (case other : EvaluationCase) : Bool :=
  match case.accessScope, other.accessScope with
  | some scope, some otherScope => scope.sameScopeAs otherScope
  | _, _ => false

/-- `get_decision_event`. -/
def getDecisionEvent (ledger : List EvaluationEvent) (decisionEventId : String) :
    Option EvaluationEvent :=
  ledger.find? (·.decisionEventId = decisionEventId)

section Registrations

variable (digest : String → String)

/-- `evaluation_identity`. -/
def evaluationIdentity (population : EvaluationPopulation) (eventId objectId : String) : String :=
  "standard-evaluation-" ++ digest s!"{population.name}:{eventId}:{objectId}"

variable (case : EvaluationCase) (eventId : String)

/-- The registration of a selected security. -/
def selectionRegistration (securityId : String) : EvaluationRegistration where
  evaluationId := evaluationIdentity digest .selection eventId securityId
  population := .selection
  sourceEventId := eventId
  securityId
  frozenProbability := none
  registeredAt := case.knowledgeCutoff
  admissionReason := "FROZEN_SELECTION_MEMBER"
  marketCalendarVersion := "synthetic-market-calendar-v1"

/-- The registration of a released member in a population. -/
def releaseRegistration (release : CandidateReleaseOutcome) (member : CalibratedMember)
    (population : EvaluationPopulation) : EvaluationRegistration where
  evaluationId := evaluationIdentity digest population eventId member.researchId
  population
  sourceEventId := eventId
  securityId := member.securityId
  frozenProbability := member.calibratedProbability
  registeredAt := release.knowledgeCutoff
  admissionReason := if population = .probability then "FROZEN_PROBABILITY" else "FROZEN_CANDIDATE"
  marketCalendarVersion := release.marketCalendarVersion

/-- The registrations of a released member. -/
def memberRegistrations (release : CandidateReleaseOutcome) (member : CalibratedMember) :
    List EvaluationRegistration :=
  if member.calibratedProbability = none then []
  else releaseRegistration digest eventId release member .probability ::
    if member.candidate then [releaseRegistration digest eventId release member .candidate] else []

/-- The registrations that a result admits. -/
def admissions (result : EvaluationResult) : List EvaluationRegistration :=
  result.selection.elim [] (fun selection =>
    selection.members.map (selectionRegistration digest case eventId)) ++
  result.candidateRelease.elim [] fun release =>
    release.members.flatMap (memberRegistrations digest eventId release)

/-- `register_evaluation_members`. -/
def registerEvaluationMembers (result : EvaluationResult) : EvaluationResult :=
  let registrations := admissions digest case eventId result
  if registrations = [] then result
  else { result with evaluationRegistrations := registrations }

/-- Read saved admission decisions; derive only for the legacy source contract. -/
def retainedRegistrations (event : EvaluationEvent) : List EvaluationRegistration :=
  if event.result.evaluationRegistrations ≠ [] then event.result.evaluationRegistrations
  else (registerEvaluationMembers digest event.case event.decisionEventId
    event.result).evaluationRegistrations

end Registrations

/-- Whether a command may resolve the outcomes of an event. -/
def sourceAvailable (case : EvaluationCase) (command : StandardOutcomeCommand)
    (source : EvaluationEvent) : Bool :=
  source.case.sameScopeAs case ∧ source.correctsEventId = none ∧
    (command.selectionEventId.isSome → source.result.selection.isSome) ∧
    (command.candidateEventId.isSome → source.case.candidateRelease.isSome) ∧
    source.case.knowledgeCutoff ≤ command.cutoffAt ∧ source.committedAt ≤ command.cutoffAt

/-- The securities that a source has selected. -/
def EvaluationEvent.sourceMembers (source : EvaluationEvent) : List String :=
  source.result.selection.elim [] (·.members)

/-- The cutoff after which a source is entered. -/
def EvaluationEvent.sourceCutoff (source : EvaluationEvent) : Instant :=
  source.result.selection.elim source.case.knowledgeCutoff (·.cutoffAt)

/-- `standard_evaluation_history`: the original evaluation events of a scope. -/
def standardEvaluationHistory (ledger : List EvaluationEvent) (case : EvaluationCase) :
    List EvaluationEvent :=
  ledger.filter fun event => event.correctsEventId = none ∧ event.case.sameScopeAs case ∧
    event.result.standardOutcomes.isSome

/-- The report of an event with its command. -/
structure SavedOutcomes where
  decisionEventId : String
  committedAt : Instant
  command : StandardOutcomeCommand
  report : StandardOutcomeReport
  deriving DecidableEq

/-- The outcomes that an event saves. -/
def EvaluationEvent.outcomes? (event : EvaluationEvent) : Option SavedOutcomes := do
  let command ← event.case.standardOutcomes
  let report ← event.result.standardOutcomes
  return ⟨event.decisionEventId, event.committedAt, command, report⟩

/-- The saved outcomes of a source, in a list of events. -/
def outcomesOf (sourceEventId : String) (events : List EvaluationEvent) : List SavedOutcomes :=
  (events.filterMap (·.outcomes?)).filter (·.command.sourceEventId = sourceEventId)

/-- `candidate_release_history`: the original candidate attempts of a scope. -/
def candidateReleaseHistory (ledger : List EvaluationEvent) (case : EvaluationCase) :
    List (EvaluationEvent × CandidateReleaseCommand) :=
  ledger.filterMap fun event =>
    if event.correctsEventId = none ∧ event.case.sameScopeAs case then
      event.case.candidateRelease.map (event, ·)
    else none

/-- What is retained while observations are merged. -/
structure RetainedEvidence where
  retained : Dict String StandardObservation
  evidenceById : Dict String MarketEvidence

/-- The observations that a report retains, by security. -/
def StandardOutcomeReport.retained (report : StandardOutcomeReport) :
    Dict String StandardObservation :=
  Dict.ofLast (report.members.filterMap fun member =>
    member.observation.map fun observation => (member.securityId, observation))

/-- What is retained before the observations of a command. -/
def retainedEvidence (history : List SavedOutcomes) : RetainedEvidence where
  retained := history.getLast?.elim [] (·.report.retained)
  evidenceById := Dict.ofLast ((history.flatMap (·.report.evidence)).map fun evidence =>
    (evidence.fact.evidenceId, evidence))

variable (cutoff : Instant)

/-- Accept the evidence of one slot, where there is any. -/
def acceptEvidence (evidenceById : Dict String MarketEvidence)
    (incoming prior : Option MarketEvidence) : Except String (Dict String MarketEvidence) :=
  match incoming with
  | none => .ok evidenceById
  | some evidence => do
    validateEvidenceRevision evidence prior evidenceById cutoff
    return evidenceById.set evidence.fact.evidenceId evidence

/-- The observation that an incoming one leaves of a prior one. -/
def StandardObservation.mergedWith (incoming : StandardObservation)
    (prior : Option StandardObservation) : StandardObservation where
  securityId := incoming.securityId
  entry := incoming.entry <|> prior.bind (·.entry)
  terminal := incoming.terminal <|> prior.bind (·.terminal)

/-- Merge one observation with what is retained. -/
def mergeObservation (state : RetainedEvidence) (incoming : StandardObservation) :
    Except String RetainedEvidence := do
  let prior := state.retained.get? incoming.securityId
  let entered ← acceptEvidence cutoff state.evidenceById (incoming.entry.map .entry)
    ((prior.bind (·.entry)).map .entry)
  let terminated ← acceptEvidence cutoff entered (incoming.terminal.map .terminal)
    ((prior.bind (·.terminal)).map .terminal)
  return ⟨state.retained.set incoming.securityId (incoming.mergedWith prior), terminated⟩

section Releases

variable (digest : String → String)

/-- The research event that a release names, with its selection. -/
def researchOf (ledger : List EvaluationEvent) (command : CandidateReleaseCommand) :
    Option (EvaluationEvent × String) := do
  let research ← getDecisionEvent ledger command.researchEventId
  let selectionEventId ← research.case.researchSelectionEventId
  return (research, selectionEventId)

/-- `release_belongs_to_selection`. -/
def releaseBelongsToSelection (ledger : List EvaluationEvent) (selection : EvaluationEvent)
    (cutoff : Instant) (release : EvaluationEvent × CandidateReleaseCommand) :
    Except String Bool :=
  match researchOf ledger release.2 with
  | none => do
    require (retainedRegistrations digest release.1 = []) "STANDARD_RELEASE_LINEAGE_UNAVAILABLE"
    -- Failed monthly attempts have no invented evaluation members.
    return true
  | some (research, selectionEventId) => do
    require (research.case.sameScopeAs selection.case ∧
      research.businessObjectId = release.2.researchObjectId ∧ research.committedAt ≤ cutoff)
      "STANDARD_RELEASE_LINEAGE_INVALID"
    return selectionEventId = selection.decisionEventId

/-- Whether a release is the source of a command, or is of the cutoff of its selection. -/
def releaseOfSource (command : StandardOutcomeCommand) (source : EvaluationEvent)
    (release : EvaluationEvent × CandidateReleaseCommand) : Bool :=
  match command.candidateEventId with
  | some candidateEventId => release.1.decisionEventId = candidateEventId
  | none => release.2.knowledgeCutoff = source.sourceCutoff

/-- The releases that a cutoff sees of a source. -/
def visibleReleases (case : EvaluationCase) (command : StandardOutcomeCommand)
    (ledger : List EvaluationEvent) (source : EvaluationEvent) :
    List (EvaluationEvent × CandidateReleaseCommand) :=
  (candidateReleaseHistory ledger case).filter fun release =>
    releaseOfSource command source release && decide (release.1.committedAt ≤ command.cutoffAt)

/-- The releases that belong to a source. -/
def sourceReleases (case : EvaluationCase) (command : StandardOutcomeCommand)
    (ledger : List EvaluationEvent) (source : EvaluationEvent) :
    Except String (List EvaluationEvent) := do
  let releases := visibleReleases case command ledger source
  if command.selectionEventId.isSome then
    let verdicts ← releases.mapM fun release => do
      let belongs ← releaseBelongsToSelection digest ledger source command.cutoffAt release
      return (release.1, belongs)
    return (verdicts.filter (·.2)).map (·.1)
  else return releases.map (·.1)

end Releases

/-- A member before anything is known of its outcome. -/
def registeredMember (maturity : Instant) (registration : EvaluationRegistration) :
    EvaluationMember where
  evaluationId := registration.evaluationId
  population := registration.population
  sourceEventId := registration.sourceEventId
  securityId := registration.securityId
  inclusionReason := registration.admissionReason
  frozenProbability := registration.frozenProbability
  maturesAt := maturity
  state := if maturity ≤ cutoff then .unavailable else .pending

/-- The outcome of a selected member under a registration of a release. -/
def admittedMember (members : List EvaluationMember) (sourceMembers : List String)
    (registration : EvaluationRegistration) : Except String EvaluationMember := do
  require (registration.securityId ∈ sourceMembers) "STANDARD_PROBABILITY_MEMBERSHIP_INVALID"
  let base ← known (members.find? (·.securityId = registration.securityId)) "StopIteration"
  return { base with
    evaluationId := registration.evaluationId
    population := registration.population
    sourceEventId := registration.sourceEventId
    frozenProbability := registration.frozenProbability
    inclusionReason := registration.admissionReason }

/-- The standard exit of a candidate that was bought. -/
def exitPosition? (member : EvaluationMember) : Option StandardExitPosition := do
  guard (member.population = .candidate ∧ member.entryExpired = false)
  let entryAt ← member.entryAt
  let entryPrice ← member.entryPrice
  return {
    lifecycleId := s!"standard-exit:{member.evaluationId}"
    candidateEvaluationId := member.evaluationId
    sourceEventId := member.sourceEventId
    securityId := member.securityId
    entryAt
    entryPrice
    maturesAt := member.maturesAt
    state := if member.maturesAt ≤ cutoff then .unavailable else .pending }

section Reports

variable (digest : String → String) (calendars : String → Option StandardCalendar)

/-- The entry window of a source, and the maturity of a member that is not bought in it. -/
def entryWindow (calendar : StandardCalendar) (sourceCutoff : Instant) :
    Except String (List Instant × Instant) := do
  let sessions := (calendar.sessionsAfterOpen sourceCutoff 5).map (·.closedAt)
  require (sessions.length = 5) "STANDARD_ENTRY_WINDOW_UNAVAILABLE"
  let last ← known sessions.getLast? "STANDARD_ENTRY_WINDOW_UNAVAILABLE"
  let maturity ← sixMonthTerminalEvaluationAt calendar last
  return (sessions, maturity)

variable (command : StandardOutcomeCommand)

/-- The checks of a command against the latest report of its source. -/
def checkReportLineage (previous : Option SavedOutcomes) : Except String Unit := do
  require (command.previousEventId = previous.map (·.decisionEventId))
    "STANDARD_REPORT_LINEAGE_CONFLICT"
  require (∀ prior ∈ previous, prior.report.cutoffAt ≤ command.cutoffAt ∧
    prior.committedAt ≤ command.cutoffAt ∧
    prior.command.standardQuantity = command.standardQuantity ∧
    prior.command.marketCalendarVersion = command.marketCalendarVersion)
    "STANDARD_REPORT_CONTRACT_CHANGED"

/-- The checks and the merge of the observations of a command. -/
def mergeObservations (sourceMembers : List String) (history : List SavedOutcomes) :
    Except String RetainedEvidence := do
  require ((command.observations.map (·.securityId)).Nodup ∧
    ∀ observation ∈ command.observations, observation.securityId ∈ sourceMembers)
    "STANDARD_OBSERVATION_MEMBERSHIP_INVALID"
  command.observations.foldlM (mergeObservation command.cutoffAt) (retainedEvidence history)

/-- The evaluated members of a selection. -/
def selectionMembers (calendar : StandardCalendar) (window : List Instant × Instant)
    (retained : Dict String StandardObservation) (registrations : List EvaluationRegistration) :
    Except String (List EvaluationMember) :=
  (registrations.filter (·.population = .selection)).mapM fun registration =>
    evaluateMember calendar (registeredMember command.cutoffAt window.2 registration)
      (retained.get? registration.securityId) window.1 command.cutoffAt command.standardQuantity

/-- The members of all populations. -/
def populationMembers (source : EvaluationEvent) (releases : List EvaluationEvent)
    (members : List EvaluationMember) : Except String (List EvaluationMember) := do
  let admitted ← (releases.flatMap (retainedRegistrations digest)).mapM
    (admittedMember members source.sourceMembers)
  return (if source.result.selection.isSome then members else []) ++ admitted

/-- A report on members, after the latest one. -/
def outcomeReport (previous : Option SavedOutcomes) (members : List EvaluationMember) :
    StandardOutcomeReport where
  selectionEventId := command.selectionEventId
  candidateEventId := command.candidateEventId
  cutoffAt := command.cutoffAt
  previousEventId := command.previousEventId
  reportVersion := previous.elim 1 (·.report.reportVersion + 1)
  members
  populations := EvaluationPopulation.all.map fun population =>
    (population, populationCounts (members.filter (·.population = population)) command.cutoffAt)
  exitPositions := members.filterMap (exitPosition? command.cutoffAt)

variable (ledger : List EvaluationEvent) (input : EvaluationInput) (case : EvaluationCase)

/-- The report of a command on an available source. -/
def assessSource (command : StandardOutcomeCommand) (ledger : List EvaluationEvent)
    (source : EvaluationEvent) : Except String StandardOutcomeReport := do
  let registrations := retainedRegistrations digest source
  require (command.candidateEventId.isSome → registrations = [])
    "STANDARD_SELECTION_SOURCE_REQUIRED"
  let calendar ← known (calendars command.marketCalendarVersion) "STANDARD_CALENDAR_UNAVAILABLE"
  let window ← entryWindow calendar source.sourceCutoff
  let history := outcomesOf command.sourceEventId (standardEvaluationHistory ledger case)
  checkReportLineage command history.getLast?
  let merged ← mergeObservations command source.sourceMembers history
  let selected ← selectionMembers command calendar window merged.retained registrations
  let releases ← sourceReleases digest case command ledger source
  require (∀ event ∈ source :: releases, ∀ registration ∈ retainedRegistrations digest event,
    registration.standardQuantity = command.standardQuantity ∧
      registration.marketCalendarVersion = command.marketCalendarVersion)
    "STANDARD_REGISTERED_POLICY_MISMATCH"
  let members ← populationMembers digest source releases selected
  require (members.map (·.evaluationId)).Nodup "STANDARD_POPULATION_IDENTITY_CONFLICT"
  require (∀ prior ∈ history.getLast?, ∀ member ∈ prior.report.members,
    member.evaluationId ∈ members.map (·.evaluationId)) "STANDARD_POPULATION_MEMBER_REMOVAL"
  return outcomeReport command history.getLast? members

/-- `assess_standard_outcomes`. -/
def assessStandardOutcomes (command : StandardOutcomeCommand) (ledger : List EvaluationEvent) :
    Except String StandardOutcomeReport := do
  let source ← known ((getDecisionEvent ledger command.sourceEventId).filter
    (sourceAvailable case command)) "STANDARD_SELECTION_SOURCE_UNAVAILABLE"
  assessSource digest calendars case command ledger source

/-- A case that is adjudicated and committed under a new identity, with what the rest of the
service has decided about it. -/
structure EvaluationInput where
  decisionEventId : String
  businessObjectId : String
  case : EvaluationCase
  selection : Option SelectionOutcome := none
  candidateRelease : Option CandidateReleaseOutcome := none
  committedAt : Instant
  correctsEventId : Option String := none

/-- The outcomes of a case that asks for them. -/
def adjudicateOutcomes : Except String (Option StandardOutcomeReport) :=
  match case.standardOutcomes with
  | none => .ok none
  | some command => (assessStandardOutcomes digest calendars case command ledger).map some

/-- The result of a case, before its members are registered. -/
def adjudicate : Except String EvaluationResult := do
  let report ← adjudicateOutcomes digest calendars ledger input.case
  return {
    selection := input.selection
    candidateRelease := input.candidateRelease
    standardOutcomes := report }

/-- `build_event_fact`: an original event registers its members. -/
def buildEventFact (result : EvaluationResult) : EvaluationEvent where
  decisionEventId := input.decisionEventId
  businessObjectId := input.businessObjectId
  case := input.case
  result := if input.correctsEventId = none then
      registerEvaluationMembers digest input.case input.decisionEventId result
    else result
  committedAt := input.committedAt
  correctsEventId := input.correctsEventId

/-- The event that a case commits, if it is accepted. -/
def commitEvaluation : Option EvaluationEvent :=
  if ∃ event ∈ ledger, event.decisionEventId = input.decisionEventId then none
  else
    match adjudicate digest calendars ledger input with
    | .error _ => none
    | .ok result => some (buildEventFact digest input result)

end Reports

end StockProfiler.Evaluation
