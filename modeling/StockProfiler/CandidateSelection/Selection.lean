import StockProfiler.Core.Clock
import StockProfiler.Core.Correlation
import StockProfiler.Core.Decimal
import StockProfiler.Core.Memo
import Mathlib.Data.Sym.Sym2
import Mathlib.Data.Prod.Lex
import Mathlib.Data.String.Basic

/-!
# Cohort selection

The frozen screening handoff and the cohort that the host selects: rows are ranked by weighted
mid-rank percentiles, and the ranking is scanned under limits on industries, capitalization groups
and correlations.
-/

namespace StockProfiler.CandidateSelection

/-- How a monthly cohort is selected. -/
structure SelectionPolicy where
  versionId : String
  cohortSize : ℕ
  industryLimit : ℕ
  capitalizationLimit : ℕ
  correlationSessions : ℕ
  maximumCorrelation : ℚ
  positiveWeight : ℕ
  terminalWeight : ℕ
  cohortSize_pos : 0 < cohortSize
  industryLimit_pos : 0 < industryLimit
  capitalizationLimit_pos : 0 < capitalizationLimit
  correlationSessions_gt : 1 < correlationSessions
  maximumCorrelation_mem : 0 ≤ maximumCorrelation ∧ maximumCorrelation ≤ 1
  positiveWeight_pos : 0 < positiveWeight
  terminalWeight_pos : 0 < terminalWeight
  deriving DecidableEq

/-- What screening says of a security. -/
structure ScreeningRow where
  securityId : String
  industry : Option String
  floatCapitalization : Option ℚ
  positiveScore : Option ℚ
  terminalScore : Option ℚ
  adjustedReturns : List ℚ
  returnDates : List ℤ

/-- What a selection is for. -/
inductive SelectionPurpose where
  | synthetic
  | historicalReconstructed
  | realCandidate
  deriving DecidableEq

/-- One request to select a cohort. -/
structure SelectionCommand where
  cutoffAt : Instant
  purpose : SelectionPurpose
  universeEventId : String
  policy : SelectionPolicy
  rows : List ScreeningRow

/-- A day of the market of a universe. -/
structure UniverseCalendarDay where
  marketDate : ℤ
  closeAt : Option Instant

/-- The universe that a selection is taken from. -/
structure UniverseCommand where
  cutoffAt : Instant
  purpose : SelectionPurpose
  calendar : Option (List UniverseCalendarDay)

/-- How a universe ended. -/
inductive UniverseDisposition where
  | frozen
  | dataFailed
  | blocked
  deriving DecidableEq

/-- The frozen universe. -/
structure UniverseOutcome where
  disposition : UniverseDisposition
  members : List String

/-- Why a signal has no value. -/
inductive MissingState where
  | nonPositiveEquity
  | insufficientHistory
  deriving DecidableEq

/-- Whether a signal was observed. -/
inductive SignalState where
  | observed
  | missing (state : MissingState)
  deriving DecidableEq

/-- A signal and its percentile. -/
structure TransformedSignal where
  signalId : String
  raw : Option ℚ
  state : SignalState
  percentile : ℚ
  deriving DecidableEq

/-- The scores that the screening of a security replays to, and what they add up from. -/
structure ScreeningContribution where
  securityId : String
  signals : List TransformedSignal
  positiveContributions : Dict String ℚ
  terminalContributions : Dict String ℚ
  positiveScore : ℚ
  terminalScore : ℚ
  deriving DecidableEq

/-- A place in the ranking. -/
structure ScreeningRank where
  securityId : String
  rank : ℕ
  positivePercentile : ℚ
  terminalPercentile : ℚ
  compositeScore : ℚ
  deriving DecidableEq

/-- Which of the two availability failures a month counts. -/
inductive AvailabilityFailure where
  | data
  | system
  deriving DecidableEq

/-- What a month counts for. -/
structure SelectionPopulation where
  validMonthly : Bool
  recommendationCoverageDenominator : Bool
  selectionPassDenominator : Bool
  selectionPass : Option Bool := none
  availabilityFailure : Option AvailabilityFailure := none
  deriving DecidableEq

/-- What the scan says of a security. -/
structure SelectionScan where
  securityId : String
  capitalizationGroup : ℕ
  included : Bool
  reasons : List String
  correlatedWith : List String
  deriving DecidableEq

/-- How a selection ended. -/
inductive SelectionDisposition where
  | frozen
  | abstained
  | dataFailed
  | systemFailed
  | blocked
  deriving DecidableEq

/-- The result appended for one selection. -/
structure SelectionOutcome where
  disposition : SelectionDisposition
  cutoffAt : Instant
  universeEventId : String
  policy : SelectionPolicy
  members : List String
  ranking : List ScreeningRank
  scan : List SelectionScan
  population : SelectionPopulation
  reasons : List String
  screeningAudit : List ScreeningContribution := []
  deriving DecidableEq

namespace ScreeningRow

variable (row : ScreeningRow)

/-- The score for a positive result; a row that is ranked has one. -/
def positive : ℚ := row.positiveScore.getD 0

/-- The score for a terminal result; a row that is ranked has one. -/
def terminal : ℚ := row.terminalScore.getD 0

/-- The free float; a row that is ranked has one. -/
def capitalization : ℚ := row.floatCapitalization.getD 0

end ScreeningRow

/-- The mid-rank percentiles of the rows. -/
def percentiles (rows : List ScreeningRow) (field : ScreeningRow → ℚ) : Dict String ℚ :=
  let values := rows.map field
  Dict.ofLast (rows.map fun row => (row.securityId,
    ((values.countP (· < field row) : ℚ) + ((values.countP (· = field row) : ℚ) - 1) / 2) * 100
      / (max 1 (rows.length - 1) : ℕ)))

section Ranking

variable (ctx : DecimalContext) (policy : SelectionPolicy) (rows : List ScreeningRow)

/-- The decimal of a fraction. -/
def projectFraction (value : ℚ) : ℚ := ctx.div value.num value.den

/-- The percentile that is kept for a security. -/
def percentileOf (percentiles : Dict String ℚ) (securityId : String) : ℚ :=
  (percentiles.get? securityId).getD 0

/-- The weighted scores of the rows. -/
def scores : Dict String ℚ :=
  let positive := percentiles rows (·.positive)
  let terminal := percentiles rows (·.terminal)
  Dict.ofLast (rows.map fun row => (row.securityId,
    (policy.positiveWeight * percentileOf positive row.securityId
      + policy.terminalWeight * percentileOf terminal row.securityId)
      / (policy.positiveWeight + policy.terminalWeight)))

/-- Higher scores come first, and of equal scores the smaller identity. -/
def rankKey (scores : Dict String ℚ) (securityId : String) : ℚ ×ₗ String :=
  toLex (-percentileOf scores securityId, securityId)

/-- The securities in the order of their ranks. -/
def rankedIds : List String :=
  let scores := scores policy rows
  scores.keys.insertionSort fun first later => rankKey scores first ≤ rankKey scores later

/-- The ranking of the rows. -/
def rankingOf : List ScreeningRank :=
  (rankedIds policy rows).mapIdx fun index securityId => {
    securityId
    rank := index + 1
    positivePercentile :=
      projectFraction ctx (percentileOf (percentiles rows (·.positive)) securityId)
    terminalPercentile :=
      projectFraction ctx (percentileOf (percentiles rows (·.terminal)) securityId)
    compositeScore := projectFraction ctx (percentileOf (scores policy rows) securityId) }

end Ranking

/-- Squares are compared exactly, without an epsilon at the boundary of the policy. -/
def correlationExceeds (left right : List ℚ) (policy : SelectionPolicy) : Bool :=
  let covariance := scaledCovariance left right
  0 < covariance ∧ policy.maximumCorrelation ^ 2 * scaledVariance left * scaledVariance right
    < covariance ^ 2

/-- One constraint scan for the ranking and for repeated permutations. -/
structure SelectionConstraints where
  policy : SelectionPolicy
  capitalization : Dict String ℕ
  rows : Dict String ScreeningRow

/-- The conflicts that are known, by pairs without an order. -/
abbrev Conflicts := Dict (Sym2 String) Bool

/-- A security with its row and its capitalization group. -/
structure PlacedRow where
  row : ScreeningRow
  group : ℕ

variable (command : SelectionCommand)

/-- The constraints of a command. -/
def SelectionConstraints.ofCommand : SelectionConstraints where
  policy := command.policy
  capitalization := Dict.ofLast
    ((command.rows.insertionSort fun first later =>
      toLex (first.capitalization, first.securityId) ≤
        toLex (later.capitalization, later.securityId)).mapIdx
      fun index row => (row.securityId, index * 3 / command.rows.length))
  rows := Dict.ofLast (command.rows.map fun row => (row.securityId, row))

namespace SelectionConstraints

variable (constraints : SelectionConstraints)

/-- The row and the group of a security. -/
def place (securityId : String) : Option PlacedRow := do
  let row ← constraints.rows.get? securityId
  let group ← constraints.capitalization.get? row.securityId
  return ⟨row, group⟩

/-- The members that a row is correlated with. -/
def correlatedWith (conflicts : Conflicts) (placed : PlacedRow) (members : List PlacedRow) :
    List PlacedRow × Conflicts :=
  Dict.recallFilter (fun member => s(placed.row.securityId, member.row.securityId))
    (fun member => correlationExceeds placed.row.adjustedReturns member.row.adjustedReturns
      constraints.policy) conflicts members

/-- Why a row does not join the members. -/
def limitReasons (placed : PlacedRow) (members correlated : List PlacedRow) : List String :=
  (if constraints.policy.industryLimit ≤
      members.countP (fun member => member.row.industry = placed.row.industry)
    then ["INDUSTRY_LIMIT"] else [])
  ++ (if constraints.policy.capitalizationLimit ≤
      members.countP (fun member => member.group = placed.group)
    then ["CAPITALIZATION_LIMIT"] else [])
  ++ (if correlated ≠ [] then ["CORRELATION_LIMIT"] else [])

/-- Scans an order after some members; none where the code finds no row. -/
def scanFrom (members : List PlacedRow) (conflicts : Conflicts) :
    List String → Option (List PlacedRow × List SelectionScan × Conflicts)
  | [] => some (members, [], conflicts)
  | security :: rest => do
    let placed ← constraints.place security
    let (correlated, conflicts) := constraints.correlatedWith conflicts placed members
    let reasons := constraints.limitReasons placed members correlated
    let members := if reasons = [] then members ++ [placed] else members
    let entry : SelectionScan := {
      securityId := placed.row.securityId
      capitalizationGroup := placed.group
      included := reasons = []
      reasons
      correlatedWith := correlated.map (·.row.securityId) }
    if members.length = constraints.policy.cohortSize then some (members, [entry], conflicts)
    else
      let (members, scan, conflicts) ← scanFrom members conflicts rest
      return (members, entry :: scan, conflicts)

/-- The members of a complete cohort and what was scanned, with the conflicts that are known
afterwards. -/
def scan (conflicts : Conflicts) (order : List String) :
    Option ((List String × List SelectionScan) × Conflicts) := do
  let (members, scan, conflicts) ← constraints.scanFrom [] conflicts order
  return ((if members.length = constraints.policy.cohortSize
    then members.map (·.row.securityId) else [], scan), conflicts)

end SelectionConstraints

/-- What a selection is run with: the universe, the state of its prerequisite, what its manifest
and its evidence are refused for, and what its screening replays to. -/
structure SelectionInput where
  command : SelectionCommand
  source : Option UniverseCommand
  universeOutcome : Option UniverseOutcome
  prerequisite : String := "SUCCEEDED"
  deliveryFailures : List String
  replay : Option (List ScreeningContribution × List String)

/-- An outcome without a ranking. -/
def SelectionOutcome.refused (disposition : SelectionDisposition)
    (availabilityFailure : Option AvailabilityFailure) (reasons : List String) :
    SelectionOutcome where
  disposition
  cutoffAt := command.cutoffAt
  universeEventId := command.universeEventId
  policy := command.policy
  members := []
  ranking := []
  scan := []
  population := {
    validMonthly := false
    recommendationCoverageDenominator := false
    selectionPassDenominator := false
    availabilityFailure }
  reasons

/-- The sessions that returns have to cover. -/
def correlationSessions (source : UniverseCommand) : List ℤ :=
  match source.calendar with
  | some days =>
    let closed := days.filter fun day => day.closeAt.any (· ≤ command.cutoffAt)
    let dates := closed.map (·.marketDate)
    dates.drop (dates.length - command.policy.correlationSessions)
  | none => []

/-- Why the rows do not fit the universe. -/
def universeFailures (source : Option UniverseCommand) (universeOutcome : Option UniverseOutcome) :
    List String :=
  match source, universeOutcome with
  | some source, some outcome =>
    if outcome.disposition ≠ .frozen ∨ source.cutoffAt ≠ command.cutoffAt
        ∨ source.purpose ≠ command.purpose then ["FROZEN_UNIVERSE_REQUIRED"]
    else
      let keys := command.rows.map (·.securityId)
      let sessions := correlationSessions command source
      (if ¬ keys.Nodup ∨ ¬ (keys ⊆ outcome.members ∧ outcome.members ⊆ keys)
        then ["SCREENING_UNIVERSE_INCOMPLETE"] else [])
      ++ (if sessions.length ≠ command.policy.correlationSessions
          ∨ command.rows.any (fun row => row.returnDates ≠ sessions
            ∨ row.adjustedReturns.length ≠ command.policy.correlationSessions)
        then ["CORRELATION_WINDOW_INCOMPLETE"] else [])
  | _, _ => ["FROZEN_UNIVERSE_REQUIRED"]

/-- Why a row cannot be ranked. -/
def rowFailures (row : ScreeningRow) : List String :=
  (if row.industry.getD "" = "" ∨ row.positiveScore = none ∨ row.terminalScore = none
      ∨ row.floatCapitalization.all (· ≤ 0)
    then ["SCREENING_FACT_MISSING"] else [])
  ++ (if row.adjustedReturns.any (· < -1) then ["ADJUSTED_RETURN_INVALID"] else [])
  ++ (if row.adjustedReturns.eraseDups.length < 2 then ["CORRELATION_UNDEFINED"] else [])

/-- Failures of a replay that count as failures of data. -/
def replayDataFailures : List String :=
  ["SCREENING_OBSERVATIONS_INCOMPLETE", "SCREENING_SIGNAL_UNAVAILABLE",
    "SCREENING_SIGNAL_STATE_INVALID", "SCREENING_CONTEXT_INVALID"]

/-- The audit of a replay and its failures; none where the code finds no row in the audit. -/
def replayVerdict (replay : Option (List ScreeningContribution × List String)) :
    Option (List ScreeningContribution × List String) :=
  match replay with
  | none => some ([], ["SCREENING_SNAPSHOT_REQUIRED"])
  | some (audit, failures) =>
    if failures ≠ [] then some (audit, failures)
    else do
      let byId := Dict.ofLast (audit.map fun row => (row.securityId, row))
      let scores ← command.rows.mapM fun row => byId.get? row.securityId
      let mismatch := (command.rows.zip scores).any fun (row, score) =>
        row.positiveScore ≠ some score.positiveScore ∨ row.terminalScore ≠ some score.terminalScore
      return (audit, if mismatch then ["SCREENING_SCORE_REPLAY_MISMATCH"] else [])

namespace SelectionInput

variable (input : SelectionInput)

/-- The state of the prerequisite, which a blocked universe blocks. -/
def prerequisiteState : String :=
  match input.source, input.universeOutcome with
  | some source, some outcome =>
    if input.prerequisite = "SUCCEEDED" ∧ source.cutoffAt = input.command.cutoffAt
        ∧ source.purpose = input.command.purpose ∧ outcome.disposition = .blocked
      then "BLOCKED" else input.prerequisite
  | _, _ => input.prerequisite

/-- What the data of the selection is refused for. -/
def failures : List String :=
  universeFailures input.command input.source input.universeOutcome
    ++ input.command.rows.flatMap rowFailures ++ input.deliveryFailures

/-- The gates before the ranking: the audit of the screening, or the outcome that refuses. -/
def gate : Option (Except SelectionOutcome (List ScreeningContribution)) :=
  let refused := SelectionOutcome.refused input.command
  if input.prerequisiteState ≠ "SUCCEEDED" then
    let failed := input.prerequisiteState = "FAILED"
    some (.error (refused (if failed then .systemFailed else .blocked)
      (if failed then some .system else none) ["BUSINESS_PREREQUISITE_NOT_MET"]))
  else if input.failures ≠ [] then
    some (.error (refused .dataFailed (some .data) input.failures.eraseDups))
  else do
    let (audit, modelFailures) ← replayVerdict input.command input.replay
    if modelFailures ≠ [] then
      let dataFailure := modelFailures.all (· ∈ replayDataFailures)
      return .error (refused (if dataFailure then .dataFailed else .systemFailed)
        (some (if dataFailure then .data else .system)) modelFailures)
    else return .ok audit

end SelectionInput

/-- The outcome of a command whose rows can be ranked. -/
def selectCohort (ctx : DecimalContext) (command : SelectionCommand)
    (audit : List ScreeningContribution) : Option SelectionOutcome := do
  let ranking := rankingOf ctx command.policy command.rows
  let ((members, scan), _) ← (SelectionConstraints.ofCommand command).scan []
    (ranking.map (·.securityId))
  let formed := members.length = command.policy.cohortSize
  return {
    disposition := if formed then .frozen else .abstained
    cutoffAt := command.cutoffAt
    universeEventId := command.universeEventId
    policy := command.policy
    members := if formed then members else []
    ranking
    scan
    population := {
      validMonthly := true
      recommendationCoverageDenominator := true
      selectionPassDenominator := true
      selectionPass := if formed then none else some false }
    reasons := if formed then [] else ["CONSTRAINTS_PREVENT_COMPLETE_COHORT"]
    screeningAudit := audit }

/-- Freezes a selection; none where the code finds no row. -/
def freezeSelection (ctx : DecimalContext) (input : SelectionInput) : Option SelectionOutcome := do
  match ← input.gate with
  | .error outcome => return outcome
  | .ok audit => selectCohort ctx input.command audit

end StockProfiler.CandidateSelection
