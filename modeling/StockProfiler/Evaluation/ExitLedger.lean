import StockProfiler.Evaluation.ExitPaths
import StockProfiler.Evaluation.OutcomeLedger

/-!
# The ledger of exit evaluations

A policy of standard exits is registered before the months that it evaluates. Its forecasts are
frozen at the closes of sessions, the paths of its positions are observed, and its whole population
is evaluated, each from what the ledger has saved.
-/

namespace StockProfiler.Evaluation

/-- What an exit evaluation does. -/
inductive ExitOperation where
  | register
  | freeze
  | observe
  | evaluate
  deriving DecidableEq

/-- A forecast that is to be frozen for a lifecycle. -/
structure ExitForecastFreeze where
  lifecycleId : String
  forecast : ExitForecast
  deriving DecidableEq

/-- What a command of exit evaluation says. -/
structure ExitCommandFields where
  operation : ExitOperation
  seed : ℤ
  cutoffAt : Instant
  policy : Option ExitPolicy := none
  registrationEventId : Option String := none
  sourceStandardEventId : Option String := none
  previousEventId : Option String := none
  observations : List ExitObservation := []
  forecastFreezes : List ExitForecastFreeze := []
  theses : List ExitThesis := []
  deriving DecidableEq

/-- What a command may say of its operation. -/
def ExitCommandFields.fitsOperation (c : ExitCommandFields) : Bool :=
  match c.operation with
  | .register => c.policy.isSome ∧ c.registrationEventId.getD "" = "" ∧
      c.sourceStandardEventId.getD "" = "" ∧ c.previousEventId.getD "" = "" ∧
      c.observations = [] ∧ c.forecastFreezes = [] ∧ c.theses = []
  | .freeze => c.policy = none ∧ c.registrationEventId.getD "" ≠ "" ∧
      c.sourceStandardEventId.getD "" ≠ "" ∧ c.forecastFreezes ≠ [] ∧ c.observations = []
  | .observe => c.policy = none ∧ c.registrationEventId.getD "" ≠ "" ∧
      c.sourceStandardEventId.getD "" ≠ "" ∧ c.forecastFreezes = [] ∧ c.theses = []
  | .evaluate => c.policy = none ∧ c.registrationEventId.getD "" ≠ "" ∧
      c.sourceStandardEventId.getD "" = "" ∧ c.observations = [] ∧ c.forecastFreezes = [] ∧
      c.theses = []

/-- A command of exit evaluation. -/
structure ExitCommand extends ExitCommandFields where
  fits : toExitCommandFields.fitsOperation = true := by decide
  observations_nodup : (observations.map (·.lifecycleId)).Nodup := by decide
  deriving DecidableEq

/-- What became of a population of exits. -/
structure ExitCounts where
  registered : ℕ
  due : ℕ
  evaluable : ℕ
  dueMissing : ℕ
  immature : ℕ

/-- The report of an exit evaluation. -/
structure ExitReport where
  disposition : String
  policy : ExitPolicy
  registrationEventId : Option String
  cutoffAt : Instant
  previousEventId : Option String := none
  reportVersion : ℕ := 1
  positions : List ExitPositionResult := []
  forecastFreezes : List ExitForecastFreeze := []
  theses : List ExitThesis := []
  counts : Option ExitCounts := none

/-- An event that may save an exit evaluation. -/
structure ExitEvent extends EvaluationEvent where
  exitEvaluation : Option (ExitCommand × ExitReport) := none

/-- A saved exit evaluation. -/
structure SavedExit where
  decisionEventId : String
  committedAt : Instant
  command : ExitCommand
  report : ExitReport

/-- The exit evaluation that an event saves. -/
def ExitEvent.exit? (event : ExitEvent) : Option SavedExit :=
  event.exitEvaluation.map fun (command, report) =>
    ⟨event.decisionEventId, event.committedAt, command, report⟩

/-- `exit_evaluation_history`: the original exit evaluations of a scope. -/
def exitEvaluationHistory (ledger : List ExitEvent) (case : EvaluationCase) : List SavedExit :=
  (ledger.filter fun event => event.correctsEventId = none ∧
    event.case.sameScopeAs case).filterMap (·.exit?)

/-- The evaluations of a registration that do one thing. -/
def ofRegistration (registrationEventId : Option String) (operation : ExitOperation)
    (history : List SavedExit) : List SavedExit :=
  history.filter fun saved => saved.command.operation = operation ∧
    saved.command.registrationEventId = registrationEventId

variable (freezes : List SavedExit)

/-- The forecasts that evaluations have frozen. -/
def frozenForecasts : List ExitForecastFreeze :=
  freezes.flatMap (·.report.forecastFreezes)

/-- The theses that evaluations have frozen. -/
def frozenTheses : List ExitThesis := freezes.flatMap (·.report.theses)

/-- Frozen forecasts by their lifecycle and their identity. -/
def frozenPredictions : Dict (String × String) ExitForecast :=
  Dict.ofLast ((frozenForecasts freezes).map fun item =>
    ((item.lifecycleId, item.forecast.predictionId), item.forecast))

/-- Forecasts by their identities. -/
def forecastsById (forecasts : List ExitForecast) : Dict String ExitForecast :=
  Dict.ofLast (forecasts.map fun forecast => (forecast.predictionId, forecast))

/-- The freezes that a cutoff passes on. -/
def passedFreezes (history : List SavedExit) (cutoff : Instant) : List SavedExit :=
  history.filter fun saved => saved.command.operation = .freeze ∧ saved.report.cutoffAt ≤ cutoff ∧
    saved.committedAt ≤ cutoff

/-- `committed_exit_forecasts`. -/
def committedExitForecasts (history : List SavedExit) (cutoff : Instant) :
    Dict String (List ExitForecast) :=
  (Dict.group ((frozenForecasts (passedFreezes history cutoff)).map fun item =>
      (item.lifecycleId, item.forecast))).mapValues fun forecasts =>
    ((forecastsById forecasts).map Prod.snd).insertionSort
      fun first later => first.cutoffAt ≤ later.cutoffAt

section Assess

variable (calendars : String → Option OrderedCalendar) (monthOf : Instant → String)
  (summarize : List ExitPositionResult → ExitPolicy → ℤ → Instant → Except String String)
  (ledger : List ExitEvent) (case : EvaluationCase) (command : ExitCommand)

/-- `assess_exit_evaluation` of a new policy. -/
def registerExitPolicy : Except String ExitReport := do
  let policy ← known command.policy "AssertionError"
  require (monthOf command.cutoffAt < policy.startMonth) "EXIT_POLICY_NOT_PREREGISTERED"
  require (∀ saved ∈ exitEvaluationHistory ledger case,
    saved.report.policy.versionId ≠ policy.versionId) "EXIT_POLICY_ALREADY_REGISTERED"
  return {
    disposition := "REGISTERED"
    policy
    registrationEventId := none
    cutoffAt := command.cutoffAt }

/-- The policy under which a command is assessed. -/
def registeredPolicy : Except String ExitPolicy := do
  let registration ← known (((exitEvaluationHistory ledger case).find? fun saved =>
      some saved.decisionEventId = command.registrationEventId).filter fun saved =>
    saved.command.operation = .register ∧ saved.committedAt ≤ command.cutoffAt)
    "EXIT_REGISTRATION_UNAVAILABLE"
  require (command.seed = registration.command.seed) "EXIT_RESAMPLING_SEED_CHANGED"
  return registration.report.policy

variable (policy : ExitPolicy)

/-- The positions of a population, with the command and the report that they are taken from. -/
def populationEntries : List (StandardExitPosition × ℚ) :=
  let visible := ((standardEvaluationHistory (ledger.map (·.toEvaluationEvent)) case).filterMap
      (·.outcomes?)).filter fun saved =>
    saved.report.cutoffAt ≤ command.cutoffAt ∧ saved.committedAt ≤ command.cutoffAt ∧
      saved.command.marketCalendarVersion = policy.marketCalendarVersion
  visible.flatMap fun saved => (saved.report.exitPositions.filter fun position =>
    policy.startMonth ≤ monthOf position.entryAt ∧
      monthOf position.entryAt ≤ policy.endMonth).map (·, saved.command.standardQuantity)

/-- The observations that reports have retained, by lifecycle. -/
def retainedObservations (positions : List ExitPositionResult) : Dict String ExitObservation :=
  Dict.ofLast (positions.filterMap fun position =>
    position.observation.map (position.lifecycleId, ·))

/-- The counts of evaluated positions. -/
def exitCounts (positions : List ExitPositionResult) : ExitCounts :=
  let due := positions.countP (·.maturesAt ≤ command.cutoffAt)
  let evaluable := positions.countP (·.state = .evaluable)
  { registered := positions.length
    due
    evaluable
    dueMissing := due - evaluable
    immature := positions.length - due }

/-- `assess_exit_evaluation` of a whole population. -/
def evaluateExits : Except String ExitReport := do
  let histories := (exitEvaluationHistory ledger case).filter
    (·.command.registrationEventId = command.registrationEventId)
  let previous := (histories.filter (·.command.operation = .evaluate)).getLast?
  require (command.previousEventId = previous.map (·.decisionEventId))
    "EXIT_EVALUATION_LINEAGE_CONFLICT"
  require (∀ evaluation ∈ previous, evaluation.committedAt ≤ command.cutoffAt)
    "EXIT_EVALUATION_CUTOFF_REVERSED"
  let entries := Dict.ofLast ((populationEntries monthOf ledger case command policy).map
    fun entry => (entry.1.lifecycleId, entry))
  let observations := retainedObservations ((histories.filter fun saved =>
    saved.committedAt ≤ command.cutoffAt ∧ saved.report.cutoffAt ≤ command.cutoffAt).flatMap
      (·.report.positions))
  let frozenInputs := committedExitForecasts histories command.cutoffAt
  let positions ← entries.mapM fun (lifecycleId, position, quantity) =>
    evaluateExitPosition calendars position policy quantity command.cutoffAt
      (observations.get? lifecycleId) ((frozenInputs.get? lifecycleId).getD [])
  let disposition ← summarize positions policy command.seed command.cutoffAt
  return {
    disposition
    policy
    registrationEventId := command.registrationEventId
    cutoffAt := command.cutoffAt
    previousEventId := command.previousEventId
    reportVersion := previous.elim 1 (·.report.reportVersion + 1)
    positions
    counts := some (exitCounts command positions) }

/-- The standard outcomes that a command takes its positions from. -/
def standardSource : Except String SavedOutcomes := do
  let source ← known ((((getDecisionEvent (ledger.map (·.toEvaluationEvent))
      (command.sourceStandardEventId.getD "")).filter fun event =>
        event.case.sameScopeAs case ∧ event.correctsEventId = none).bind (·.outcomes?)).filter
      fun saved => saved.committedAt ≤ command.cutoffAt ∧ saved.report.cutoffAt ≤ command.cutoffAt)
    "EXIT_STANDARD_SOURCE_UNAVAILABLE"
  require (source.command.marketCalendarVersion = policy.marketCalendarVersion)
    "EXIT_STANDARD_CALENDAR_MISMATCH"
  return source

variable (source : SavedOutcomes)

/-- The positions of a source, by lifecycle. -/
def sourcePositions : Dict String StandardExitPosition :=
  Dict.ofLast (source.report.exitPositions.map fun position => (position.lifecycleId, position))

/-- The freeze of the registration of a command that a thesis was frozen by. -/
def thesisFreeze (forecast : ExitForecast) (thesisEventId : String) : Option SavedExit :=
  (((ledger.find? (·.decisionEventId = thesisEventId)).filter fun event =>
      event.correctsEventId = none ∧ event.case.sameScopeAs case).bind (·.exit?)).filter
    fun saved => saved.command.operation = .freeze ∧
      saved.command.registrationEventId = command.registrationEventId ∧
      saved.committedAt ≤ forecast.cutoffAt

/-- `verify_thesis_falsification`. -/
def verifyThesisFalsification (forecast : ExitForecast) (position : StandardExitPosition) :
    Except String Unit :=
  match forecast.hardEvidence with
  | some (.thesisFalsified thesisEventId evidence) => do
    let original ← known (thesisFreeze ledger case command forecast thesisEventId)
      "EXIT_THESIS_UNAVAILABLE"
    let thesis ← known ((original.report.theses.find? fun thesis =>
        thesis.lifecycleId = position.lifecycleId ∧ thesis.securityId = position.securityId).filter
      fun thesis => thesis.origin = .system ∧ thesis.registeredAt < evidence.publicAt ∧
        evidence.publicAt ≤ forecast.cutoffAt ∧ forecast.cutoffAt ≤ thesis.validUntil ∧
        evidence.usableAt position.securityId forecast.cutoffAt = true)
      "EXIT_THESIS_EVIDENCE_UNAVAILABLE"
    require (thesis.falsifiedBy evidence = true) "EXIT_THESIS_NOT_FALSIFIED"
  | _ => .ok ()

/-- Whether a thesis is frozen in advance, on a position that has none. -/
def forwardThesis (positions : Dict String StandardExitPosition) (savedTheses : List ExitThesis)
    (thesis : ExitThesis) : Bool :=
  (positions.get? thesis.lifecycleId).any (fun position =>
    position.securityId = thesis.securityId ∧ position.entryAt ≤ thesis.registeredAt ∧
      thesis.validUntil ≤ position.maturesAt) ∧
    thesis.origin = .system ∧ thesis.registeredAt = command.cutoffAt ∧
    thesis.registeredAt < thesis.validUntil ∧
    thesis.lifecycleId ∉ savedTheses.map (·.lifecycleId)

/-- The checks of one forecast that is to be frozen. -/
def checkFreeze (session : Option Portfolio.MarketSession)
    (positions : Dict String StandardExitPosition) (frozen : Dict (String × String) ExitForecast)
    (item : ExitForecastFreeze) : Except String Unit := do
  let position ← known (positions.get? item.lifecycleId) "EXIT_FORECAST_FOREIGN_LIFECYCLE"
  verifyThesisFalsification ledger case command item.forecast position
  require (session.map (·.closedAt) = some item.forecast.cutoffAt ∧
    position.entryAt ≤ item.forecast.cutoffAt ∧ item.forecast.cutoffAt ≤ position.maturesAt ∧
    item.forecast.modelVersion = policy.modelVersion) "EXIT_FORECAST_FREEZE_CUTOFF_MISMATCH"
  require (frozen.get? (item.lifecycleId, item.forecast.predictionId) = none ∧
    ∀ prior ∈ frozen, ¬(prior.1.1 = item.lifecycleId ∧
      prior.2.cutoffAt = item.forecast.cutoffAt)) "EXIT_FORECAST_ALREADY_FROZEN"

/-- `assess_exit_evaluation` of forecasts and theses that are to be frozen. -/
def freezeExits : Except String ExitReport := do
  let source ← standardSource ledger case command policy
  let policyFreezes := ofRegistration command.registrationEventId .freeze
    (exitEvaluationHistory ledger case)
  let previous := (policyFreezes.filter
    (·.command.sourceStandardEventId = command.sourceStandardEventId)).getLast?
  require (command.previousEventId = previous.map (·.decisionEventId))
    "EXIT_FREEZE_LINEAGE_CONFLICT"
  require (∀ freeze ∈ previous, freeze.committedAt ≤ command.cutoffAt)
    "EXIT_FREEZE_CUTOFF_REVERSED"
  let calendar ← known (calendars policy.marketCalendarVersion) "AssertionError"
  require (command.theses.map (·.lifecycleId)).Nodup "EXIT_THESIS_IDENTITY_CONFLICT"
  require (∀ thesis ∈ command.theses, forwardThesis command (sourcePositions source)
    (frozenTheses policyFreezes) thesis = true) "EXIT_THESIS_NOT_FORWARD_OR_ALREADY_FROZEN"
  command.forecastFreezes.forM (checkFreeze ledger case command policy
    (calendar.sessionAtOrBefore command.cutoffAt) (sourcePositions source)
    (frozenPredictions policyFreezes))
  require (command.forecastFreezes.map fun item =>
    (item.lifecycleId, item.forecast.cutoffAt)).Nodup "EXIT_FORECAST_IDENTITY_CONFLICT"
  return {
    disposition := "FROZEN"
    policy
    registrationEventId := command.registrationEventId
    cutoffAt := command.cutoffAt
    previousEventId := command.previousEventId
    forecastFreezes := command.forecastFreezes
    theses := command.theses }

/-- `validate_evidence_revision` of an observation. -/
def validateObservationRevision (incoming : ExitObservation) (prior : Option ExitObservation)
    (evidenceById : Dict String ExitObservation) (cutoff : Instant) : Except String Unit := do
  require (incoming.availableAt ≤ cutoff) "STANDARD_EVIDENCE_NOT_AVAILABLE_AT_CUTOFF"
  require (∀ retained ∈ evidenceById.get? incoming.evidenceId, retained = incoming)
    "STANDARD_EVIDENCE_IDENTITY_REDEFINED"
  match prior with
  | none =>
    require (incoming.correctsEvidenceId = none) "STANDARD_CORRECTION_SOURCE_UNAVAILABLE"
  | some prior =>
    require (incoming = prior ∨
      incoming.correctsEvidenceId = some prior.evidenceId ∧
        incoming.evidenceId ≠ prior.evidenceId ∧ prior.availableAt ≤ incoming.availableAt)
      "STANDARD_AUTHORITATIVE_CORRECTION_REQUIRED"

/-- The observations of the registration of a command that share a position with its source. -/
def relatedObservations : List SavedExit :=
  (ofRegistration command.registrationEventId .observe (exitEvaluationHistory ledger case)).filter
    fun saved => saved.report.positions.any fun position =>
      position.lifecycleId ∈ source.report.exitPositions.map (·.lifecycleId)

/-- The checks of an observation against the one that was retained before it. -/
def checkPriorForecasts (previous : Option SavedExit) (prior : Option ExitObservation)
    (observation : ExitObservation) : Except String Unit :=
  match prior with
  | none => .ok ()
  | some prior => do
    let priorForecasts := forecastsById prior.forecasts
    require (∀ entry ∈ priorForecasts,
      (forecastsById observation.forecasts).get? entry.1 = some entry.2)
      "EXIT_FROZEN_FORECAST_CHANGED"
    require (∀ saved ∈ previous, ∀ forecast ∈ observation.forecasts,
      forecast.cutoffAt ≤ saved.report.cutoffAt →
        (priorForecasts.get? forecast.predictionId).isSome)
      "EXIT_FORECAST_BACKFILL_FORBIDDEN"

/-- The check of one observed forecast against the frozen ones. -/
def checkCommitted (frozen : Dict (String × String) ExitForecast) (lifecycleId : String)
    (forecast : ExitForecast) : Except String Unit := do
  let committed ← known (frozen.get? (lifecycleId, forecast.predictionId))
    "EXIT_FORECAST_NOT_COMMITTED"
  require (committed = forecast) "EXIT_FROZEN_FORECAST_CHANGED"

/-- Accept one observation. -/
def acceptObservation (previous : Option SavedExit) (evidenceById : Dict String ExitObservation)
    (frozen : Dict (String × String) ExitForecast) (retained : Dict String ExitObservation)
    (observation : ExitObservation) : Except String (Dict String ExitObservation) := do
  require ((sourcePositions source).get? observation.lifecycleId).isSome
    "EXIT_OBSERVATION_FOREIGN_LIFECYCLE"
  let prior := retained.get? observation.lifecycleId
  validateObservationRevision observation prior evidenceById command.cutoffAt
  checkPriorForecasts previous prior observation
  require (∀ saved ∈ previous, saved.report.cutoffAt ≤ command.cutoffAt)
    "EXIT_REPORT_CUTOFF_REVERSED"
  observation.forecasts.forM (checkCommitted frozen observation.lifecycleId)
  require (∀ entry ∈ frozen, entry.1.1 = observation.lifecycleId →
    entry.2.cutoffAt ≤ command.cutoffAt → entry.1.2 ∈ observation.forecasts.map (·.predictionId))
    "EXIT_FROZEN_FORECAST_REMOVAL"
  return retained.set observation.lifecycleId observation

/-- `assess_exit_evaluation` of observations. -/
def observeExits : Except String ExitReport := do
  let source ← standardSource ledger case command policy
  let policyFreezes := ofRegistration command.registrationEventId .freeze
    (exitEvaluationHistory ledger case)
  let related := relatedObservations ledger case command source
  let previous := related.getLast?
  require (command.previousEventId = previous.map (·.decisionEventId))
    "EXIT_REPORT_LINEAGE_CONFLICT"
  let retained : Dict String ExitObservation :=
    previous.elim [] fun saved => retainedObservations saved.report.positions
  let evidenceById := Dict.ofLast ((related.flatMap (·.report.positions)).filterMap
    fun position => position.observation.map fun observation =>
      (observation.evidenceId, observation))
  require (∀ lifecycleId ∈ retained.keys, ((sourcePositions source).get? lifecycleId).isSome)
    "EXIT_POPULATION_MEMBER_REMOVAL"
  let frozen := frozenPredictions (policyFreezes.filter (·.committedAt ≤ command.cutoffAt))
  let accepted ← command.observations.foldlM
    (acceptObservation command source previous evidenceById frozen) retained
  let frozenInputs := committedExitForecasts policyFreezes command.cutoffAt
  let positions ← (sourcePositions source).mapM fun (lifecycleId, position) =>
    evaluateExitPosition calendars position policy source.command.standardQuantity
      command.cutoffAt (accepted.get? lifecycleId) ((frozenInputs.get? lifecycleId).getD [])
  return {
    disposition := "OBSERVED"
    policy
    registrationEventId := command.registrationEventId
    cutoffAt := command.cutoffAt
    previousEventId := command.previousEventId
    reportVersion := previous.elim 1 (·.report.reportVersion + 1)
    positions }

/-- `assess_exit_evaluation`. -/
def assessExitEvaluation : Except String ExitReport :=
  match command.operation with
  | .register => registerExitPolicy monthOf ledger case command
  | .evaluate => do
    let policy ← registeredPolicy ledger case command
    evaluateExits calendars monthOf summarize ledger case command policy
  | .freeze => do
    let policy ← registeredPolicy ledger case command
    freezeExits calendars ledger case command policy
  | .observe => do
    let policy ← registeredPolicy ledger case command
    observeExits calendars ledger case command policy

end Assess

/-- What is committed under a new identity: an exit evaluation, or any other event. -/
inductive ExitInput where
  | other (event : EvaluationEvent)
  | exit (decisionEventId businessObjectId : String) (accessScope : DecisionCases.ResultAccessScope)
      (command : ExitCommand) (committedAt : Instant)

section Commits

variable (calendars : String → Option OrderedCalendar) (monthOf : Instant → String)
  (summarize : List ExitPositionResult → ExitPolicy → ℤ → Instant → Except String String)

/-- The case of an exit evaluation, which is frozen at the cutoff of its command. -/
def exitCase (accessScope : DecisionCases.ResultAccessScope) (command : ExitCommand) :
    EvaluationCase where
  accessScope := some accessScope
  knowledgeCutoff := command.cutoffAt

/-- The event of an input, if it is accepted. -/
def exitEventOf (ledger : List ExitEvent) : ExitInput → Option ExitEvent
  | .other event => some { toEvaluationEvent := event }
  | .exit decisionEventId businessObjectId accessScope command committedAt =>
    match assessExitEvaluation calendars monthOf summarize ledger (exitCase accessScope command)
      command with
    | .error _ => none
    | .ok report => some {
        decisionEventId
        businessObjectId
        case := exitCase accessScope command
        result := {}
        committedAt
        exitEvaluation := some (command, report) }

/-- The ledger after an input; an identity is committed once. -/
def appendExit (ledger : List ExitEvent) (input : ExitInput) : List ExitEvent :=
  match exitEventOf calendars monthOf summarize ledger input with
  | none => ledger
  | some event =>
    if event.decisionEventId ∈ ledger.map (·.decisionEventId) then ledger else ledger ++ [event]

/-- The ledger that inputs leave, one after another. -/
def exitLedger (inputs : List ExitInput) : List ExitEvent :=
  inputs.foldl (appendExit calendars monthOf summarize) []

end Commits

end StockProfiler.Evaluation
