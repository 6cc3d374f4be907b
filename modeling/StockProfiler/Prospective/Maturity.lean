import StockProfiler.Evaluation.Contracts
import StockProfiler.Portfolio.Contracts
import StockProfiler.Prospective.FormalNodes
import StockProfiler.Prospective.Windows

/-!
# Maturity of original populations

A batch of a plan month joins the admitted registrations with the members that were
resolved for them. It matures as a whole, when the plan and every member of it have.
-/

namespace StockProfiler.Prospective.Maturity

open Evaluation

/-- The wall clock of the market. -/
def shanghaiOffset : ℤ := 8 * 3600 * 1000000

/-- An original plan month with its clocks. -/
structure PlanNode where
  planMonth : String
  knowledgeCutoff : Instant
  firstEntryAt : Instant
  disclosureAt : Instant
  maturesAt : Instant
  calendarVersion : Option String := none
  /-- Plan, entry, disclosure and maturity clocks are ordered. -/
  ordered : knowledgeCutoff < firstEntryAt ∧ firstEntryAt < disclosureAt ∧ disclosureAt < maturesAt
  /-- Maturity cannot shorten the result window of six calendar months. -/
  window : calendarVersion = none → addCalendarMonths shanghaiOffset disclosureAt 6 ≤ maturesAt

/-- The registered plan with the evidence that a formal look needs. -/
structure CycleRegistration where
  planNodes : List PlanNode
  formalFloor : EvidenceFloor
  /-- Plan months are unique. -/
  planMonths_nodup : (planNodes.map (·.planMonth)).Nodup

/-- How much evidence an observation needs. -/
structure MaturityPolicy where
  observationBatches : ℤ
  observationWindows : ℤ
  highBandThreshold : ℚ

/-- Members joined to their saved original admission decisions. -/
structure BatchPopulation where
  planMonth : String
  registrations : List EvaluationRegistration
  members : List EvaluationMember
  standardEventId : Option String
  selectionAbstained : Bool := false
  /-- An abstained selection cannot invent an evaluation population. -/
  abstention : selectionAbstained = true →
    registrations = [] ∧ members = [] ∧ standardEventId = none

/-- How much evidence has matured, and what is missing. -/
structure CycleWatermark where
  required : EvidenceFloor
  matureBatches : ℕ
  nonoverlappingWindows : ℕ
  highBandRecords : ℕ
  pendingBatches : ℕ
  dueMissingBatches : ℕ
  observationReached : Bool
  formalSufficient : Bool
  waitingFor : List String

variable (plan : PlanNode) (row : BatchPopulation)

/-- A member is the one that a registration admitted at the knowledge cutoff. -/
def matches_ (admission : EvaluationRegistration) (member : EvaluationMember) : Bool :=
  member.population = admission.population ∧ member.sourceEventId = admission.sourceEventId ∧
    member.securityId = admission.securityId ∧
    member.frozenProbability = admission.frozenProbability ∧
    admission.registeredAt = plan.knowledgeCutoff

/-- The registrations of a batch by identity. -/
def admissions : Dict String EvaluationRegistration :=
  Dict.ofLast (row.registrations.map fun item => (item.evaluationId, item))

/-- The members of a batch by identity. -/
def outcomes : Dict String EvaluationMember :=
  Dict.ofLast (row.members.map fun item => (item.evaluationId, item))

/-- The members that match their registration, unless the identities of the batch conflict. -/
def knownMembers : Dict String EvaluationMember :=
  if row.standardEventId = none ∨ (admissions row).length ≠ row.registrations.length ∨
      (outcomes row).length ≠ row.members.length ∨
      ∃ identity ∈ (outcomes row).keys, identity ∉ (admissions row).keys then []
  else (outcomes row).filter fun entry =>
    ((admissions row).get? entry.1).any (matches_ plan · entry.2)

/-- The resolved probability members that have matured. -/
def matureProbabilityMembers (cutoff : Instant) : List EvaluationMember :=
  ((knownMembers plan row).map (·.2)).filter fun member =>
    member.population = .probability ∧ member.frozenProbability.isSome ∧
      member.maturesAt ≤ cutoff ∧ member.state.isResolved

/-- Whether the whole population of a batch is resolved and mature. -/
def complete (cutoff : Instant) : Bool :=
  if row.selectionAbstained then plan.maturesAt ≤ cutoff
  else if admissions row = [] ∨ cutoff < plan.maturesAt ∨ row.standardEventId = none ∨
      (admissions row).length ≠ row.registrations.length ∨
      (knownMembers plan row).length ≠ row.members.length ∨
      ¬Portfolio.sameMembers (admissions row).keys (knownMembers plan row).keys ∨
      ¬([EvaluationPopulation.selection, .probability] ⊆ row.registrations.map (·.population))
    then false
  else (knownMembers plan row).all fun entry =>
    entry.2.maturesAt ≤ cutoff ∧ entry.2.state.isResolved

/-- The end of a batch: the maturity of its plan or of a later member. -/
def periodEnd : Instant :=
  ((knownMembers plan row).map (·.2.maturesAt)).foldl max plan.maturesAt

/-- A batch with the node of its month. -/
abbrev PlannedBatch := PlanNode × BatchPopulation

/-- The batches with their nodes, unless a month is named twice or was not planned. -/
def plannedBatches (registration : CycleRegistration) (populations : List BatchPopulation) :
    Except String (List PlannedBatch) := do
  let rows := Dict.ofLast (populations.map fun row => (row.planMonth, row))
  require (rows.length = populations.length) "PROSPECTIVE_DUPLICATE_BATCH_POPULATION"
  let planned := Dict.ofLast (registration.planNodes.map fun node => (node.planMonth, node))
  rows.mapM fun entry =>
    known ((planned.get? entry.1).map (·, entry.2)) "PROSPECTIVE_BATCH_PLAN_UNAVAILABLE"

/-- The evaluation period of a batch. -/
def period (batch : PlannedBatch) : Instant × Instant :=
  (batch.1.firstEntryAt, periodEnd batch.1 batch.2)

/-- How many mature probability members of a batch lie in the high band. -/
def highBand (policy : MaturityPolicy) (cutoff : Instant) (batch : PlannedBatch) : ℕ :=
  (matureProbabilityMembers batch.1 batch.2 cutoff).countP fun member =>
    member.frozenProbability.any (policy.highBandThreshold ≤ ·)

/-- The watermark of the batches at a cutoff. -/
def summarizeMaturity (registration : CycleRegistration) (policy : MaturityPolicy)
    (populations : List BatchPopulation) (cutoff : Instant) : Except String CycleWatermark := do
  let batches ← plannedBatches registration populations
  let completed := batches.filter fun batch => complete batch.1 batch.2 cutoff
  let windows ← disjointWindows (completed.map period)
  let highBandRecords := (batches.map (highBand policy cutoff)).sum
  let pending := batches.filter fun batch => cutoff < periodEnd batch.1 batch.2
  let missing := batches.filter fun batch =>
    ¬cutoff < periodEnd batch.1 batch.2 ∧ ¬complete batch.1 batch.2 cutoff
  let requirements : List (String × ℕ × ℤ) := [
    ("MATURE_BATCHES", completed.length, registration.formalFloor.matureBatches),
    ("NONOVERLAPPING_WINDOWS", windows, registration.formalFloor.nonoverlappingWindows),
    ("HIGH_BAND_RECORDS", highBandRecords, registration.formalFloor.highBandRecords)]
  let waiting := (requirements.filter fun entry => (entry.2.1 : ℤ) < entry.2.2).map (·.1)
  return {
    required := registration.formalFloor
    matureBatches := completed.length
    nonoverlappingWindows := windows
    highBandRecords
    pendingBatches := pending.length
    dueMissingBatches := missing.length
    observationReached := policy.observationBatches ≤ completed.length ∧
      policy.observationWindows ≤ windows
    formalSufficient := waiting = []
    waitingFor := waiting }

end StockProfiler.Prospective.Maturity
