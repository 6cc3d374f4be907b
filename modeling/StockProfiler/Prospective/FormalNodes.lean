import Mathlib.Data.String.Basic
import StockProfiler.Core.Checks
import StockProfiler.Core.Clock
import StockProfiler.Core.Decimal
import StockProfiler.Core.Dict

/-!
# Formal looks

A registered formal policy names the months at which evidence may be looked at
with a share of its error rate. Only original nodes advance, in order; a
skipped watermark never spends alpha.
-/

namespace StockProfiler.Prospective

/-- The least evidence of a formal look. -/
structure EvidenceFloor where
  matureBatches : ℤ
  nonoverlappingWindows : ℤ
  highBandRecords : ℤ

/-- How much evidence has matured. -/
structure CycleWatermark where
  required : EvidenceFloor
  matureBatches : ℤ
  nonoverlappingWindows : ℤ
  highBandRecords : ℤ
  formalSufficient : Bool

/-- The preregistered sequence of formal looks. -/
structure FormalPolicy where
  nodeMonths : List String
  incrementBatches : ℤ
  incrementWindows : ℤ
  totalAlpha : ℚ
  /-- Formal nodes retain their unique preregistered order. -/
  nodeMonths_sorted : nodeMonths.Pairwise (· < ·)
  nodeMonths_ne_nil : nodeMonths ≠ []
  incrementBatches_pos : 0 < incrementBatches
  incrementWindows_pos : 0 < incrementWindows
  totalAlpha_pos : 0 < totalAlpha
  totalAlpha_lt_one : totalAlpha < 1

/-- How a formal look ended. -/
inductive LookDisposition where
  | waitingForMaturity
  | waitingForInference
  | skipped
  | ready
  | passed
  | failed
  | indeterminate
  deriving DecidableEq

/-- The verdict of a statistical inference. -/
inductive FormalVerdict where
  | passed
  | failed
  | indeterminate

/-- A look with a verdict. -/
def FormalVerdict.disposition : FormalVerdict → LookDisposition
  | .passed => .passed
  | .failed => .failed
  | .indeterminate => .indeterminate

/-- One look at the evidence of a cycle, as its report retains it. -/
structure CycleFormalLook where
  disposition : LookDisposition
  actualOrdinal : ℕ := 0
  alphaSpent : ℚ := 0
  alphaThis : ℚ := 0
  nodeMonth : Option String := none
  matureBatches : ℤ := 0
  nonoverlappingWindows : ℤ := 0
  waitingFor : List String := []
  inference : Option FormalVerdict := none

/-- Whether a look was executed. -/
def CycleFormalLook.executed (look : CycleFormalLook) : Bool :=
  look.disposition ∈ [.passed, .failed, .indeterminate]

/-- The clock of one plan month. -/
structure PlanNode where
  planMonth : String
  disclosureAt : Instant

/-- The registration of a cycle. -/
structure CycleRegistration where
  planNodes : List PlanNode
  formalPolicy : Option FormalPolicy
  seed : ℤ

/-- One request on a registered cycle. A formal check names its node; saved source evidence
and the inference on it are a function of the alpha and the seed. -/
structure CycleInput where
  formalNodeMonth : Option String
  cutoffAt : Instant
  watermark : CycleWatermark
  infer : ℚ → ℤ → Except String FormalVerdict

variable (ctx : DecimalContext) (policy : FormalPolicy)

/-- What a watermark has yet to reach after the last executed look. -/
def waitingFor (last : Option CycleFormalLook) (watermark : CycleWatermark) (missed : Bool) :
    List String :=
  let requiredBatches := last.elim watermark.required.matureBatches
    (·.matureBatches + policy.incrementBatches)
  let requiredWindows := last.elim watermark.required.nonoverlappingWindows
    (·.nonoverlappingWindows + policy.incrementWindows)
  (if watermark.matureBatches < requiredBatches then ["MATURE_BATCHES"] else []) ++
  (if watermark.nonoverlappingWindows < requiredWindows then ["NONOVERLAPPING_WINDOWS"] else []) ++
  (if watermark.highBandRecords < watermark.required.highBandRecords then ["HIGH_BAND_RECORDS"]
    else []) ++
  if missed then ["MISSED_ORIGINAL_NODE"] else []

/-- The look at a node, ready when there is nothing to wait for. -/
def nodeLook (last : Option CycleFormalLook) (nodeMonth : String) (watermark : CycleWatermark)
    (waiting : List String) : CycleFormalLook :=
  let ready := waiting.isEmpty
  let ordinal := last.elim 0 (·.actualOrdinal) + if ready then 1 else 0
  { disposition := if ready then .ready else .skipped
    actualOrdinal := ordinal
    alphaThis := if ready then ctx.div policy.totalAlpha (ordinal * (ordinal + 1)) else 0
    alphaSpent := ctx.div (ctx.mul policy.totalAlpha ordinal) (ordinal + 1)
    nodeMonth := some nodeMonth
    matureBatches := watermark.matureBatches
    nonoverlappingWindows := watermark.nonoverlappingWindows
    waitingFor := waiting }

/-- Prepare the look at a node, after the looks at the nodes before it. -/
def prepareFormalLook (previous : List CycleFormalLook) (nodeMonth : String)
    (watermark : CycleWatermark) (missed : Bool) : Except String CycleFormalLook := do
  require (nodeMonth ∈ policy.nodeMonths) "PROSPECTIVE_FORMAL_NODE_UNAVAILABLE"
  let consumed := previous.map (·.nodeMonth)
  require (¬consumed.contains (some nodeMonth)) "PROSPECTIVE_FORMAL_NODE_ALREADY_CONSUMED"
  -- A prefix of all registered nodes would have consumed this one, so there is a next node.
  require (consumed = (policy.nodeMonths.take consumed.length).map some ∧
    policy.nodeMonths[consumed.length]? = some nodeMonth) "PROSPECTIVE_FORMAL_NODE_ORDER_CONFLICT"
  let last := (previous.filter (·.executed)).getLast?
  return nodeLook ctx policy last nodeMonth watermark (waitingFor policy last watermark missed)

/-- The alpha that the inference of a look uses. -/
def inferenceAlpha (look : CycleFormalLook) : ℚ :=
  policy.totalAlpha / (look.actualOrdinal * (look.actualOrdinal + 1))

/-- The looks at formal nodes so far. -/
def nodeLooks (prior : List CycleFormalLook) : List CycleFormalLook :=
  prior.filter (·.nodeMonth.isSome)

/-- The look of a request that checks no node. -/
def waitingLook (prior : List CycleFormalLook) (watermark : CycleWatermark) : CycleFormalLook where
  disposition := if watermark.formalSufficient then .waitingForInference else .waitingForMaturity
  actualOrdinal := (nodeLooks prior).getLast?.elim 0 (·.actualOrdinal)
  alphaSpent := (nodeLooks prior).getLast?.elim 0 (·.alphaSpent)

/-- Resolve an original formal node before statistical inference. -/
def assessFormalLook (registration : CycleRegistration) (prior : List CycleFormalLook)
    (input : CycleInput) : Except String CycleFormalLook :=
  match input.formalNodeMonth with
  | none => .ok (waitingLook prior input.watermark)
  | some nodeMonth => do
    let policy ← known registration.formalPolicy "PROSPECTIVE_FORMAL_POLICY_REQUIRED"
    let node ← known (registration.planNodes.find? (·.planMonth = nodeMonth))
      "PROSPECTIVE_FORMAL_NODE_UNAVAILABLE"
    require (node.disclosureAt ≤ input.cutoffAt) "PROSPECTIVE_FORMAL_NODE_UNAVAILABLE"
    let look ← prepareFormalLook ctx policy (nodeLooks prior) nodeMonth input.watermark
      (input.cutoffAt ≠ node.disclosureAt)
    if look.disposition = .skipped then return look
    let inference ← input.infer (inferenceAlpha policy look)
      (registration.seed + look.actualOrdinal)
    return { look with disposition := inference.disposition, inference := some inference }

end StockProfiler.Prospective
