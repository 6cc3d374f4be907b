import StockProfiler.Core.Corrections
import StockProfiler.Evaluation.OutcomeLedger

/-!
# Revisions of historical evidence

Monthly evidence is cumulative. A revision adds what is new and corrects what it names;
every identity denotes one content, and the contexts of a selection are set once.
-/

namespace StockProfiler.Evaluation

/-- The price of an index at a close. -/
structure IndexPrice where
  closedAt : Instant
  totalReturnPrice : ℚ
  deriving DecidableEq

/-- The index as it was visible to a selection. -/
structure SelectionIndexEvidence extends OutcomeEvidence where
  prices : List IndexPrice
  deriving DecidableEq

/-- The index over the period of the outcomes. -/
structure FutureIndexEvidence extends OutcomeEvidence where
  startingAt : Instant
  startingTotalReturnPrice : ℚ
  terminalTotalReturnPrice : ℚ
  deriving DecidableEq

/-- The factors of one security. -/
structure FactorRow where
  securityId : String
  netIncomeTtm : Option ℚ
  totalCapitalization : Option ℚ
  averageEquity : Option ℚ
  momentumStartPrice : Option ℚ
  momentumEndPrice : Option ℚ
  momentumStartAt : Option Instant
  momentumEndAt : Option Instant
  dailyReturns : List ℚ
  returnDates : List Instant
  deriving DecidableEq

/-- The factors as they were visible to a selection. -/
structure FactorEvidence extends OutcomeEvidence where
  rows : List FactorRow
  deriving DecidableEq

/-- The daily marks of one security. -/
structure WealthPath where
  securityId : String
  marks : List TerminalEvidence

/-- The evidence of one plan month. -/
structure HistoricalMonthInput where
  planMonth : String
  selectionEventId : String
  standardEventId : Option String
  observations : List StandardObservation
  paths : List WealthPath
  index : Option SelectionIndexEvidence
  factors : Option FactorEvidence
  futureIndex : Option FutureIndexEvidence

/-- Evidence of any kind; an identity names one of them. -/
inductive HistoricalEvidence where
  | entry (evidence : EntryEvidence)
  | terminal (evidence : TerminalEvidence)
  | index (evidence : SelectionIndexEvidence)
  | factors (evidence : FactorEvidence)
  | futureIndex (evidence : FutureIndexEvidence)
  deriving DecidableEq

/-- The part that all kinds of evidence have. -/
def HistoricalEvidence.fact : HistoricalEvidence → OutcomeEvidence
  | .entry evidence => evidence.toOutcomeEvidence
  | .terminal evidence => evidence.toOutcomeEvidence
  | .index evidence => evidence.toOutcomeEvidence
  | .factors evidence => evidence.toOutcomeEvidence
  | .futureIndex evidence => evidence.toOutcomeEvidence

/-- All evidence that was accepted, by identity. -/
abbrev EvidenceTable := Dict String HistoricalEvidence

/-- New evidence takes the place of nothing, of itself or of what it corrects. -/
def checkCorrection (new : HistoricalEvidence) : Option HistoricalEvidence → Except String Unit
  | none =>
    require (new.fact.correctsEvidenceId = none) "HISTORICAL_CORRECTION_SOURCE_UNAVAILABLE"
  | some old =>
    require (new = old ∨
      new.fact.correctsEvidenceId = some old.fact.evidenceId ∧
        new.fact.evidenceId ≠ old.fact.evidenceId ∧ old.fact.availableAt ≤ new.fact.availableAt)
      "HISTORICAL_AUTHORITATIVE_CORRECTION_REQUIRED"

variable (cutoff : Instant)

/-- Accept new evidence in the place of old evidence. -/
def validate (new : HistoricalEvidence) (old : Option HistoricalEvidence) (byId : EvidenceTable) :
    Except String EvidenceTable := do
  require (∀ found ∈ byId.get? new.fact.evidenceId, found = new)
    "HISTORICAL_EVIDENCE_IDENTITY_REDEFINED"
  require (new.fact.availableAt ≤ cutoff) "HISTORICAL_EVIDENCE_NOT_AVAILABLE_AT_CUTOFF"
  checkCorrection new old
  return byId.set new.fact.evidenceId new

/-- Accept the new evidence of one place, where there is any. -/
def validateSlot (new old : Option HistoricalEvidence) (byId : EvidenceTable) :
    Except String EvidenceTable :=
  new.elim (.ok byId) (validate cutoff · old byId)

/-- Merge an observation with the one that is retained for its security. -/
def mergeStandardObservation (state : Dict String StandardObservation × EvidenceTable)
    (row : StandardObservation) :
    Except String (Dict String StandardObservation × EvidenceTable) := do
  let prior := state.1.get? row.securityId
  let entered ← validateSlot cutoff (row.entry.map .entry) ((prior.bind (·.entry)).map .entry)
    state.2
  let terminated ← validateSlot cutoff (row.terminal.map .terminal)
    ((prior.bind (·.terminal)).map .terminal) entered
  return (state.1.set row.securityId (row.mergedWith prior), terminated)

/-- The marks of a path by session. -/
def marksOf (path : WealthPath) : Dict Instant TerminalEvidence :=
  Dict.ofLast (path.marks.map fun mark => (mark.effectiveAt, mark))

/-- Merge a mark with the one that is retained for its session. -/
def mergeMark (state : Dict Instant TerminalEvidence × EvidenceTable) (mark : TerminalEvidence) :
    Except String (Dict Instant TerminalEvidence × EvidenceTable) := do
  let byId ← validate cutoff (.terminal mark) ((state.1.get? mark.effectiveAt).map .terminal)
    state.2
  return (state.1.set mark.effectiveAt mark, byId)

/-- Marks in the order of their sessions. -/
def sortedMarks (marks : Dict Instant TerminalEvidence) : List TerminalEvidence :=
  (sortedSet marks.keys).filterMap marks.get?

/-- Merge a path with the one that is retained for its security. -/
def mergePath (state : Dict String WealthPath × EvidenceTable) (path : WealthPath) :
    Except String (Dict String WealthPath × EvidenceTable) := do
  require (path.marks.map (·.effectiveAt)).Nodup "HISTORICAL_PATH_SESSION_DUPLICATED"
  let marks := (state.1.get? path.securityId).elim [] marksOf
  let merged ← path.marks.foldlM (mergeMark cutoff) (marks, state.2)
  return (state.1.set path.securityId ⟨path.securityId, sortedMarks merged.1⟩, merged.2)

/-- The accepted evidence of the identity of new evidence. -/
def byIdentity (new : Option HistoricalEvidence) (byId : EvidenceTable) :
    Option HistoricalEvidence :=
  new.bind fun evidence => byId.get? evidence.fact.evidenceId

/-- Accept the contexts of a month. -/
def mergeContexts (previous : Option HistoricalMonthInput) (incoming : HistoricalMonthInput)
    (byId : EvidenceTable) : Except String EvidenceTable := do
  let index := incoming.index.map HistoricalEvidence.index
  let indexed ← validateSlot cutoff index (byIdentity index byId) byId
  let factors := incoming.factors.map HistoricalEvidence.factors
  let factored ← validateSlot cutoff factors (byIdentity factors indexed) indexed
  let future := incoming.futureIndex.map HistoricalEvidence.futureIndex
  validateSlot cutoff future
    (previous.elim (byIdentity future factored) fun month => month.futureIndex.map .futureIndex)
    factored

/-- A context that is set is named again only as it is. -/
def SameContext {α : Type*} (new old : Option α) : Prop := ∀ a ∈ new, ∀ b ∈ old, a = b

instance {α : Type*} [DecidableEq α] (new old : Option α) : Decidable (SameContext new old) :=
  inferInstanceAs (Decidable (∀ a ∈ new, ∀ b ∈ old, a = b))

/-- The retained observations of a month by security. -/
def HistoricalMonthInput.observationsById (month : HistoricalMonthInput) :
    Dict String StandardObservation :=
  Dict.ofLast (month.observations.map fun row => (row.securityId, row))

/-- The retained paths of a month by security. -/
def HistoricalMonthInput.pathsById (month : HistoricalMonthInput) : Dict String WealthPath :=
  Dict.ofLast (month.paths.map fun path => (path.securityId, path))

/-- A month with what is retained of it. -/
def HistoricalMonthInput.mergedWith (incoming : HistoricalMonthInput)
    (previous : Option HistoricalMonthInput) (observations : Dict String StandardObservation)
    (paths : Dict String WealthPath) : HistoricalMonthInput :=
  { incoming with
    observations := observations.map (·.2)
    paths := paths.map (·.2)
    standardEventId := if incoming.standardEventId.getD "" ≠ "" then incoming.standardEventId
      else previous.bind (·.standardEventId)
    index := incoming.index <|> previous.bind (·.index)
    factors := incoming.factors <|> previous.bind (·.factors)
    futureIndex := incoming.futureIndex <|> previous.bind (·.futureIndex) }

/-- What is retained while months are merged. -/
structure RetainedMonths where
  retained : Dict String HistoricalMonthInput
  evidenceById : EvidenceTable

/-- Merge the evidence of a month with what is retained of it. -/
def mergeMonth (state : RetainedMonths) (incoming : HistoricalMonthInput) :
    Except String RetainedMonths := do
  let previous := state.retained.get? incoming.planMonth
  require (∀ month ∈ previous, incoming.selectionEventId = month.selectionEventId)
    "HISTORICAL_SELECTION_IDENTITY_CHANGED"
  require (∀ month ∈ previous, SameContext incoming.index month.index ∧
    SameContext incoming.factors month.factors) "HISTORICAL_SELECTION_CONTEXT_CHANGED"
  require (incoming.observations.map (·.securityId)).Nodup
    "HISTORICAL_OUTCOME_MEMBERSHIP_DUPLICATED"
  let observed ← incoming.observations.foldlM (mergeStandardObservation cutoff)
    (previous.elim [] (·.observationsById), state.evidenceById)
  require (incoming.paths.map (·.securityId)).Nodup "HISTORICAL_PATH_MEMBERSHIP_DUPLICATED"
  let pathed ← incoming.paths.foldlM (mergePath cutoff)
    (previous.elim [] (·.pathsById), observed.2)
  let byId ← mergeContexts cutoff previous incoming pathed.2
  return ⟨state.retained.set incoming.planMonth (incoming.mergedWith previous observed.1 pathed.1),
    byId⟩

/-- The evidence of some months at a cutoff. -/
abbrev MonthRevision := Instant × List HistoricalMonthInput

/-- Merge the months of one revision, in order. -/
def mergeRevision (state : RetainedMonths) (revision : MonthRevision) :
    Except String RetainedMonths :=
  revision.2.foldlM (mergeMonth revision.1) state

/-- What is retained after some revisions. -/
def retainedAfter (revisions : List MonthRevision) : Except String RetainedMonths :=
  revisions.foldlM mergeRevision ⟨[], []⟩

/-- Merge the evidence of all revisions, in order. -/
def mergeMonthEvidence (revisions : List MonthRevision) :
    Except String (Dict String HistoricalMonthInput) :=
  (retainedAfter revisions).map (·.retained)

end StockProfiler.Evaluation
