import StockProfiler.CandidateSelection.Selection
import StockProfiler.Core.Interpolation
import StockProfiler.Core.Timeline

/-!
# Screening

The replay of a frozen additive screening artifact: raw signals become percentiles among peers,
curves between knots turn percentiles into contributions, and contributions add up to scores.
Decimals are finite, as the contracts require, and exact until they are kept in an audit.
-/

namespace StockProfiler.CandidateSelection

/-- A month, counted from the year zero. -/
abbrev Month := ℤ

/-- The text of a month. -/
def Month.text (month : Month) : String :=
  toString (month / 12) ++ (if month % 12 < 9 then "-0" else "-") ++ toString (month % 12 + 1)

/-- The peers of a security; a signal of the context has none. -/
inductive SignalPopulation where
  | industry
  | wholeUniverse
  | context
  deriving DecidableEq

/-- What a signal is. -/
structure SignalDefinition where
  signalId : String
  semanticsVersion : String
  population : SignalPopulation
  reverse : Bool
  monotone : Bool
  minimumStates : List MissingState

/-- Two signals that act together. -/
structure InteractionDefinition where
  interactionId : String
  left : String
  right : String

/-- The frozen strategy. -/
structure ScreeningStrategy where
  versionId : String
  signals : List SignalDefinition
  interactions : List InteractionDefinition
  knots : List ℚ
  maximumInteractionRank : ℕ
  selectionPolicySha256 : String
  minimumMatureMonths : ℕ
  rollingMatureMonths : ℕ
  trainingStartMonth : Month
  trainingCalendarVersion : String
  labelHorizonMonths : ℕ
  dataContracts : Dict String String
  /-- The other declarations of the strategy, which only its hashes read. -/
  declarations : Dict String String
  rollingMatureMonths_pos : 0 < rollingMatureMonths

/-- The calendar of a market. -/
structure UniverseCalendar where
  versionId : String
  days : List UniverseCalendarDay

/-- When a month was selected. -/
structure ScreeningTrainingMonth where
  month : Month
  selectionCutoffAt : Instant
  calendar : Option UniverseCalendar

/-- A product of two curves. -/
structure InteractionComponent where
  coefficient : ℚ
  left : List ℚ
  right : List ℚ

/-- The curves of one score. -/
structure ScreeningHead where
  intercept : ℚ
  mainEffects : Dict String (List ℚ)
  interactions : Dict String (List InteractionComponent)
  mainEffects_nodup : mainEffects.keys.Nodup

/-- A security whose labels were trained on. -/
structure ScreeningTrainingMember where
  month : Month
  securityId : String
  positiveLabel : Bool
  terminalLabel : Bool
  labelAvailableAt : Instant

/-- The fitted artifact. -/
structure ScreeningArtifact where
  snapshotId : String
  strategySha256 : String
  fittedAt : Instant
  labelAvailableThrough : Instant
  trainingMonths : List String
  trainingCalendar : List ScreeningTrainingMonth
  trainingMembersSha256 : String
  trainingMembers : List ScreeningTrainingMember
  environmentSha256 : String
  diagnosticsSha256 : String
  fitDiagnostics : Dict String String
  positive : ScreeningHead
  terminal : ScreeningHead

/-- A raw signal of a security. -/
structure SignalValue where
  signalId : String
  raw : Option ℚ
  state : SignalState

/-- The raw signals of a security. -/
structure ScreeningObservation where
  securityId : String
  industry : String
  signals : List SignalValue

/-- What is replayed. -/
structure ScreeningSnapshot where
  strategy : ScreeningStrategy
  artifact : ScreeningArtifact
  observations : List ScreeningObservation

/-- What the snapshot has to agree with. -/
structure ReplayRequest where
  cutoff : Instant
  /-- The canonical text of the selection policy. -/
  policy : String
  strategyVersion : String
  snapshotId : String
  industries : Dict String (Option String)
  dataContracts : Dict String String

/-- The hashes of the canonical texts of what is versioned; a payload leaves its version out. -/
structure ContentHashes where
  strategyPayload : ScreeningStrategy → String
  strategy : ScreeningStrategy → String
  artifactPayload : ScreeningArtifact → String
  policy : String → String
  trainingMembers : List ScreeningTrainingMember → String
  diagnostics : Dict String String → String

/-- The wall clock of the market, and the instants of its readings. -/
structure MarketZone where
  wallClock : Instant → ℤ
  instantOf : ℤ → Instant

/-- The month of a day. -/
def monthOfDay (day : ℤ) : Month :=
  (CivilDate.ofDay day).year * 12 + (CivilDate.ofDay day).month - 1

/-- Whether a wall-clock reading ends the last session of its month. -/
def UniverseCalendar.cutoffValid (calendar : UniverseCalendar) (zone : MarketZone)
    (cutoff : ℤ) : Bool :=
  let today := cutoff / microsecondsPerDay
  let date := CivilDate.ofDay today
  let dates := calendar.days.map (·.marketDate)
  let inMonth (day : ℤ) := monthOfDay day = monthOfDay today
  let sessions := calendar.days.filter fun day => day.closeAt.isSome ∧ inMonth day.marketDate
  dates = sortedSet dates ∧
    dates.filter (fun day => inMonth day) =
      (List.range (daysInMonth date.year date.month).toNat).map
        (fun day => CivilDate.toDay ⟨date.year, date.month, day + 1⟩) ∧
    sessions.getLast?.map (·.marketDate) = some today ∧
    cutoff % microsecondsPerDay = microsecondsPerDay - 1000000 ∧
    calendar.days.all fun day => day.closeAt.all fun closeAt =>
      zone.wallClock closeAt / microsecondsPerDay = day.marketDate

section Window

variable (zone : MarketZone) (strategy : ScreeningStrategy) (artifact : ScreeningArtifact)
  (cutoff : Instant)

/-- When the labels of a month are mature. -/
def maturity (row : ScreeningTrainingMonth) : Instant :=
  zone.instantOf (addCalendarMonths 0 (zone.wallClock row.selectionCutoffAt)
    strategy.labelHorizonMonths)

/-- Whether a month was selected at the end of its last session. -/
def trainingMonthValid (row : ScreeningTrainingMonth) : Bool :=
  let selected := zone.wallClock row.selectionCutoffAt
  let month := monthOfDay (selected / microsecondsPerDay)
  month = row.month ∧ row.calendar.any fun calendar =>
    calendar.versionId = strategy.trainingCalendarVersion ∧
    calendar.cutoffValid zone selected ∧
    calendar.days.all fun day => monthOfDay day.marketDate = month →
      day.closeAt.all (· ≤ row.selectionCutoffAt)

/-- Whether exactly the last mature months were trained on, by mature labels. -/
def trainingWindowValid : Bool :=
  let last := monthOfDay (zone.wallClock cutoff / microsecondsPerDay) - strategy.labelHorizonMonths
  let expected := (List.range (last + 1 - strategy.trainingStartMonth).toNat).map
    fun index => strategy.trainingStartMonth + index
  let mature := artifact.trainingCalendar.filter fun row => maturity zone strategy row ≤ cutoff
  artifact.trainingCalendar.map (·.month) = expected ∧
    artifact.trainingCalendar.all (trainingMonthValid zone strategy) ∧
    artifact.trainingMonths = (mature.drop (mature.length - strategy.rollingMatureMonths)).map
      (·.month.text) ∧
    artifact.trainingMembers.all fun member => mature.any fun row =>
      row.month = member.month ∧ maturity zone strategy row ≤ member.labelAvailableAt

end Window

/-- The signals by their identities. -/
def ScreeningStrategy.definitions (strategy : ScreeningStrategy) : Dict String SignalDefinition :=
  Dict.ofLast (strategy.signals.map fun signal => (signal.signalId, signal))

/-- The signals of a security by their identities. -/
def ScreeningObservation.values (row : ScreeningObservation) : Dict String SignalValue :=
  Dict.ofLast (row.signals.map fun value => (value.signalId, value))

/-- Whether the curves of a signal never fall. -/
def ascends (strategy : ScreeningStrategy) (key : String) : Bool :=
  (strategy.definitions.get? key).any (·.monotone)

section Checks

variable (hashes : ContentHashes) (zone : MarketZone) (snapshot : ScreeningSnapshot)
  (request : ReplayRequest)

/-- Why the snapshot is not of the requested versions. -/
def versionFailures : List String :=
  let strategy := snapshot.strategy
  let artifact := snapshot.artifact
  if strategy.versionId = request.strategyVersion ∧
      strategy.versionId = "sha256:" ++ hashes.strategyPayload strategy ∧
      artifact.snapshotId = request.snapshotId ∧
      artifact.snapshotId = "sha256:" ++ hashes.artifactPayload artifact ∧
      artifact.strategySha256 = hashes.strategy strategy ∧
      strategy.selectionPolicySha256 = hashes.policy request.policy ∧
      (∀ key ∈ strategy.dataContracts.keys ++ request.dataContracts.keys,
        strategy.dataContracts.get? key = request.dataContracts.get? key) ∧
      ∀ signal ∈ strategy.signals, request.dataContracts.get?
        ("field:signal:" ++ signal.signalId) = some signal.semanticsVersion
  then [] else ["SCREENING_VERSION_MISMATCH"]

/-- Why the training does not count. -/
def trainingFailures : List String :=
  let strategy := snapshot.strategy
  let artifact := snapshot.artifact
  let members := artifact.trainingMembers
  if artifact.labelAvailableThrough ≤ artifact.fittedAt ∧ artifact.fittedAt ≤ request.cutoff ∧
      artifact.trainingMonths ≠ [] ∧
      sortedSet artifact.trainingMonths = artifact.trainingMonths ∧
      strategy.minimumMatureMonths ≤ artifact.trainingMonths.length ∧
      artifact.trainingMonths.length ≤ strategy.rollingMatureMonths ∧
      sortedSet (members.map (·.month.text)) = sortedSet artifact.trainingMonths ∧
      (members.map fun member => (member.month, member.securityId)).Nodup ∧
      artifact.trainingMembersSha256 = hashes.trainingMembers members ∧
      (∀ member ∈ members, member.labelAvailableAt ≤ artifact.labelAvailableThrough ∧
        (member.terminalLabel → member.positiveLabel)) ∧
      artifact.diagnosticsSha256 = hashes.diagnostics artifact.fitDiagnostics ∧
      artifact.fitDiagnostics.get? "status" = some "CONVERGED" ∧
      trainingWindowValid zone strategy artifact request.cutoff
  then [] else ["SCREENING_TRAINING_PROVENANCE_INVALID"]

variable (strategy : ScreeningStrategy)

/-- Why the signals and interactions are no features. -/
def featureFailures : List String :=
  let signals := strategy.signals.map (·.signalId)
  let interactions := strategy.interactions.map (·.interactionId)
  if signals ≠ [] ∧ signals.Nodup ∧ interactions.Nodup ∧ (∀ key ∈ signals, key ∉ interactions) ∧
      "intercept" ∉ signals ∧ "intercept" ∉ interactions ∧
      ∀ term ∈ strategy.interactions, term.left ∈ signals ∧ term.right ∈ signals
  then [] else ["SCREENING_FEATURE_CONTRACT_INVALID"]

/-- Why the knots do not span the percentiles. -/
def knotFailures (knots : List ℚ) : List String :=
  if 2 ≤ knots.length ∧ knots.head? = some 0 ∧ knots.getLast? = some 100 ∧
      ∀ pair ∈ successive knots, pair.1 < pair.2
  then [] else ["SCREENING_CURVE_CONTRACT_INVALID"]

/-- Why a curve of a main effect is refused. -/
def curveFailures (effect : String × List ℚ) : List String :=
  if effect.2.length = strategy.knots.length ∧
      (ascends strategy effect.1 → ∀ pair ∈ successive effect.2, pair.1 ≤ pair.2)
  then [] else ["SCREENING_CURVE_CONTRACT_INVALID"]

/-- Why the products of an interaction are refused. -/
def interactionFailures (term : String × List InteractionComponent) : List String :=
  (if 0 < term.2.length ∧ term.2.length ≤ strategy.maximumInteractionRank then []
    else ["SCREENING_INTERACTION_CONTRACT_INVALID"]) ++
  term.2.flatMap fun component =>
    if component.left.length = strategy.knots.length ∧
        component.right.length = strategy.knots.length
    then [] else ["SCREENING_INTERACTION_CONTRACT_INVALID"]

/-- Why the curves of a score are refused. -/
def headFailures (head : ScreeningHead) : List String :=
  let ranked := Dict.keys (strategy.definitions.filter (·.2.population ≠ .context))
  (if sortedSet head.mainEffects.keys = sortedSet ranked ∧
      sortedSet head.interactions.keys = sortedSet (strategy.interactions.map (·.interactionId))
    then [] else ["SCREENING_HEAD_CONTRACT_INVALID"]) ++
  head.mainEffects.flatMap (curveFailures strategy) ++
  head.interactions.flatMap (interactionFailures strategy)

/-- Why the value of a signal is refused. -/
def valueFailures (entry : String × SignalValue) : List String :=
  match strategy.definitions.get? entry.1, entry.2.state, entry.2.raw with
  | none, _, _ => []
  | some _, .observed, none => ["SCREENING_SIGNAL_UNAVAILABLE"]
  | some definition, .observed, some raw =>
    if definition.population = .context ∧ ¬(0 ≤ raw ∧ raw ≤ 100)
    then ["SCREENING_CONTEXT_INVALID"] else []
  | some definition, .missing state, raw =>
    if state ∉ definition.minimumStates ∨ raw ≠ none
    then ["SCREENING_SIGNAL_STATE_INVALID"] else []

/-- Why an observation is refused. -/
def observationRowFailures (row : ScreeningObservation) : List String :=
  (if some row.industry = (request.industries.get? row.securityId).join ∧
      (row.signals.map (·.signalId)).Nodup ∧
      sortedSet row.values.keys = sortedSet snapshot.strategy.definitions.keys
    then [] else ["SCREENING_OBSERVATIONS_INCOMPLETE"]) ++
  row.values.flatMap (valueFailures snapshot.strategy)

/-- Why the observations are refused. -/
def observationFailures : List String :=
  let ids := snapshot.observations.map (·.securityId)
  (if ids.Nodup ∧ sortedSet ids = sortedSet request.industries.keys
    then [] else ["SCREENING_OBSERVATIONS_INCOMPLETE"]) ++
  snapshot.observations.flatMap (observationRowFailures snapshot request)

end Checks

section Transform

variable (observations : List ScreeningObservation)

/-- The raw value of a signal of a security. -/
def ScreeningObservation.raw (row : ScreeningObservation) (key : String) : Option ℚ :=
  (row.values.get? key).bind (·.raw)

/-- Whether a signal of the context differs between securities. -/
def contextConflicts (strategy : ScreeningStrategy) : Bool :=
  strategy.definitions.any fun entry => entry.2.population = .context ∧
    ∃ row ∈ observations, ∃ other ∈ observations, row.raw entry.1 ≠ other.raw entry.1

variable (definition : SignalDefinition)

/-- A raw value, turned so that larger ones are more favorable. -/
def SignalDefinition.favorable (raw : ℚ) : ℚ :=
  if definition.reverse then -raw else raw

/-- The values of a signal among the peers of an industry. -/
def peers (industry : String) : List SignalValue :=
  (observations.filter fun other => definition.population = .wholeUniverse ∨
    other.industry = industry).filterMap (·.values.get? definition.signalId)

/-- The percentile of a signal of a security; what was not observed comes first. -/
def transformed (row : ScreeningObservation) : ℚ :=
  match row.values.get? definition.signalId with
  | some ⟨_, some raw, .observed⟩ =>
    if definition.population = .context then raw
    else
      let peers := peers observations definition row.industry
      let favorable := definition.favorable raw
      let ranked := peers.filterMap fun peer => peer.raw.map definition.favorable
      let less := ranked.countP (· < favorable) + peers.countP (·.raw = none)
      let equal := ranked.countP (· = favorable)
      ((less : ℚ) + ((equal : ℚ) - 1) / 2) * 100 / (max 1 (peers.length - 1) : ℕ)
  | _ => 0

end Transform

/-- The percentiles of a security. -/
def ScreeningSnapshot.transformed (snapshot : ScreeningSnapshot) (row : ScreeningObservation) :
    Dict String ℚ :=
  snapshot.strategy.definitions.mapValues fun definition =>
    CandidateSelection.transformed snapshot.observations definition row

/-- What adds up to a score. -/
def contributions (head : ScreeningHead) (strategy : ScreeningStrategy)
    (values : Dict String ℚ) : Dict String ℚ :=
  let value (key : String) (curve : List ℚ) : ℚ :=
    interpolate strategy.knots curve ((values.get? key).getD 0)
  Dict.ofLast (("intercept", head.intercept) ::
    head.mainEffects.map (fun effect => (effect.1, value effect.1 effect.2)) ++
    strategy.interactions.map fun term => (term.interactionId,
      (((head.interactions.get? term.interactionId).getD []).map fun component =>
        component.coefficient * value term.left component.left *
          value term.right component.right).sum))

section Replay

variable (ctx : DecimalContext)

/-- The audit of a security. -/
def auditOf (snapshot : ScreeningSnapshot) (row : ScreeningObservation) : ScreeningContribution :=
  let values := snapshot.transformed row
  let positive := contributions snapshot.artifact.positive snapshot.strategy values
  let terminal := contributions snapshot.artifact.terminal snapshot.strategy values
  { securityId := row.securityId
    signals := row.signals.map fun value => {
      signalId := value.signalId
      raw := value.raw
      state := value.state
      percentile := projectFraction ctx ((values.get? value.signalId).getD 0) }
    positiveContributions := positive.mapValues (projectFraction ctx)
    terminalContributions := terminal.mapValues (projectFraction ctx)
    positiveScore := projectFraction ctx (positive.map Prod.snd).sum
    terminalScore := projectFraction ctx (terminal.map Prod.snd).sum }

/-- The audits of a snapshot, or why it is refused. -/
def replayScreening (hashes : ContentHashes) (zone : MarketZone) (snapshot : ScreeningSnapshot)
    (request : ReplayRequest) : List ScreeningContribution × List String :=
  let strategy := snapshot.strategy
  let failures := versionFailures hashes snapshot request ++
    trainingFailures hashes zone snapshot request ++ featureFailures strategy ++
    knotFailures strategy.knots ++ headFailures strategy snapshot.artifact.positive ++
    headFailures strategy snapshot.artifact.terminal ++ observationFailures snapshot request
  if failures ≠ [] then ([], failures.eraseDups)
  else if contextConflicts snapshot.observations strategy then ([], ["SCREENING_CONTEXT_INVALID"])
  else (snapshot.observations.map (auditOf ctx snapshot), [])

end Replay

end StockProfiler.CandidateSelection
