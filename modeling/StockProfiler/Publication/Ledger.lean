import StockProfiler.Publication.Contracts

/-!
# The tables of the decision ledger

Saved cases, events, stages and reports. Rows are only appended. A read that meets rows
which do not fit each other raises, which is nothing here.
-/

namespace StockProfiler.Publication

open CandidateSelection Qualification
open DecisionCases (ResultAccessScope)

/-- A saved stage of a business object, of its event once that is committed. -/
structure StageRow where
  businessObjectId : String
  frameworkRunId : String
  decisionEventId : Option String
  stage : StageResult
  recordedAt : Instant

/-- Rows of one stage of one object. -/
def StageRow.sameStage (row other : StageRow) : Bool :=
  row.businessObjectId = other.businessObjectId ∧ row.frameworkRunId = other.frameworkRunId ∧
    row.decisionEventId = other.decisionEventId ∧ row.stage = other.stage

/-- The tables of the ledger. -/
structure DecisionLedger where
  mappings : List FrozenDecisionCase := []
  events : List DecisionEventFact := []
  stages : List StageRow := []
  reports : List FormalReport := []

/-- The only row of a query, if it has one; more than one raise. -/
def oneOrNone {α : Type*} : List α → Option (Option α)
  | [] => some none
  | [row] => some (some row)
  | _ => none

namespace DecisionLedger

variable (ledger : DecisionLedger) (contracts : HostContracts)
  (decisionEventId businessObjectId : String)

/-- The case saved for a business object. -/
def mapping? : Option FrozenDecisionCase :=
  ledger.mappings.find? (·.businessObjectId = businessObjectId)

/-- Choose one retained business lineage without inventing a version fork. -/
def resolveBusinessObjectId (case : FrozenDecisionCase) : Option String :=
  match case.recoveryBusinessObjectIds.filter fun id => (ledger.mapping? id).isSome with
  | [] => some case.businessObjectId
  | [id] => some id
  | _ => none

/-- Persist the one mapping of a case. -/
def ensureBusinessObject (case : FrozenDecisionCase) : Option DecisionLedger :=
  match ledger.mapping? case.businessObjectId with
  | none => some { ledger with mappings := ledger.mappings ++ [case] }
  | some saved => if contracts.matchesRecoveryInput saved case then some ledger else none

/-- An event by its identity. -/
def event? : Option DecisionEventFact :=
  ledger.events.find? (·.decisionEventId = decisionEventId)

/-- The original events of a business object. -/
def originals : List DecisionEventFact :=
  ledger.events.filter fun fact =>
    fact.businessObjectId = businessObjectId ∧ fact.correctsEventId = none

/-- The corrections of an event. -/
def corrections (originalEventId : String) : List DecisionEventFact :=
  ledger.events.filter (·.correctsEventId = some originalEventId)

/-- Select original authority by its saved owner, accounts and visibility before use. -/
def governanceHistory (scope : ResultAccessScope) : List GovernanceOutcome :=
  ledger.events.filterMap fun fact =>
    if fact.correctsEventId = none ∧ fact.case.accessScope.any (·.sameScopeAs scope) then
      fact.result.governance
    else none

/-- Whether a stage is recorded. -/
def isRecorded (row : StageRow) : Bool := ledger.stages.any (·.sameStage row)

/-- Append a stage, unless it is there and may not occur again. -/
def recordStageResult (row : StageRow) (allowRepeated : Bool) : DecisionLedger :=
  if ledger.isRecorded row ∧ allowRepeated = false then ledger
  else { ledger with stages := ledger.stages ++ [row] }

/-- Append some rows, one after the other. -/
def recordAll (rows : List (StageRow × Bool)) : DecisionLedger :=
  rows.foldl (fun ledger row => ledger.recordStageResult row.1 row.2) ledger

/-- The stages of a business object, in the order in which they were recorded. -/
def stageResults : List StageResult :=
  (ledger.stages.filter (·.businessObjectId = businessObjectId)).map (·.stage)

/-- The stages of an event and the clocks at which they were recorded. -/
def savedStages : SavedStages :=
  (ledger.stages.filter (·.decisionEventId = some decisionEventId)).map fun row =>
    (row.stage, row.recordedAt)

variable (fact : DecisionEventFact)

/-- The stage of an event. -/
def stageRow (decisionEventId : Option String) (clock : StageResult → Instant)
    (stage : StageResult) : StageRow where
  businessObjectId := fact.case.businessObjectId
  frameworkRunId := fact.frameworkRunId
  decisionEventId
  stage
  recordedAt := clock stage

/-- The index of the last commit of a list of stages. -/
def latestBusinessCommit (stages : List StageResult) : Option ℕ :=
  ((stages.zipIdx.filter (·.1.phase = .businessCommit)).getLast?).map (·.2)

/-- The rows of the stages of an event; only the correction and the last commit name it. -/
def eventStageRows (clock : StageResult → Instant) : List StageRow :=
  fact.stageResults.zipIdx.map fun (stage, index) =>
    stageRow fact
      (if stage.phase = .correction ∨ some index = latestBusinessCommit fact.stageResults then
        some fact.decisionEventId
      else none)
      clock stage

/-- Backfill stage rows from an already committed append-only event. -/
def ensureEventStageResults (clock : StageResult → Instant) : DecisionLedger :=
  ledger.recordAll ((eventStageRows fact clock).map (·, false))

/-- A saved successful host commit is required before any report is exposed. -/
def hasConfirmedBusinessCommit : Bool :=
  (ledger.savedStages decisionEventId).any (·.1.isStage .businessCommit .succeeded)

/-- A report is exposed after publication or a recognized candidate closure failure. -/
def hasConfirmedReportVisibility : Bool :=
  (ledger.savedStages decisionEventId).any fun saved =>
    saved.1.isStage .publication .succeeded || isCandidatePublicationClosureFailure saved.1

/-- Bind a report row to its exact source event projection. -/
def storedFormalReportFromRow (row : FormalReport) : Option FormalReport := do
  let fact ← ledger.event? row.eventId
  guard (row = formalReport contracts fact)
  return row

/-- Read a report row for idempotent recovery before public confirmation. -/
def storedFormalReport (reportVersionId : String) : Option (Option FormalReport) :=
  match ledger.reports.find? (·.reportVersionId = reportVersionId) with
  | none => some none
  | some row => (ledger.storedFormalReportFromRow contracts row).map some

/-- The visible report of a row, if there is one. -/
def visibleReport (row : Option FormalReport) : Option (Option FormalReport) :=
  match row with
  | none => some none
  | some row =>
    if ledger.hasConfirmedBusinessCommit row.eventId = false ∨
        ledger.hasConfirmedReportVisibility row.eventId = false then some none
    else do
      let report ← ledger.storedFormalReportFromRow contracts row
      let visible ← report.withSavedStages (ledger.savedStages row.eventId)
      return some visible

/-- Read the original published report by its stable business identity. -/
def originalFormalReport : Option (Option FormalReport) :=
  (oneOrNone (ledger.reports.filter fun row =>
    (ledger.originals businessObjectId).any (·.decisionEventId = row.eventId))).bind
    (ledger.visibleReport contracts)

/-- Read one existing projection without deriving a new report identity. -/
def formalReportForEvent : Option (Option FormalReport) :=
  (oneOrNone (ledger.reports.filter fun row =>
    row.eventId = decisionEventId ∧ (ledger.event? row.eventId).isSome)).bind
    (ledger.visibleReport contracts)

end DecisionLedger

end StockProfiler.Publication
