import StockProfiler.Core.Takeover
import StockProfiler.Delivery.MonitoringContracts
import StockProfiler.Portfolio.Drawdown

/-!
# Monitoring projections

A monitoring run delivers a saved position conclusion without recalculating its decision: each
target of the deterministic plan becomes a case, in the place of the first case that shares an
obligation with it.
-/

namespace StockProfiler.DecisionCases

open PositionManagement Portfolio Delivery

/-- The saved report of a position action. -/
structure ConclusionReport where
  eventId : String
  reportVersionId : String
  knowledgeCutoff : String
  positionAction : Option PositionActionOutcome

/-- The original request behind a report. -/
structure OriginalAction where
  command : PositionActionCommand
  qualificationId : String
  deriving DecidableEq

/-- The calendar of an assessed security and how long its predictions are valid. -/
structure MonitoredAssessment where
  calendarVersion : String
  validUntil : List Instant

/-- An earlier monitoring run of the portfolio. -/
structure MonitoringDelivery where
  kind : MonitoringKind
  sourceEventId : String

/-- The ledger as a projection reads it. -/
structure MonitoringReads where
  /-- The original request of the report, where it is a position action. -/
  original : Option OriginalAction
  corrected : Bool
  inputsUnchanged : Bool
  /-- The action units of the position that an event reconciled. -/
  actionUnits : String → Option (List PositionActionUnit)
  /-- The exit assessment that an event reports. -/
  exitAssessment : String → Option ExitOutcome
  /-- The risk state that an event reports. -/
  riskState : String → Option RiskState
  /-- The assessment that an event was asked for. -/
  assessment : String → Option MonitoredAssessment
  history : List MonitoringDelivery

/-- The identities of new cases. -/
structure CaseIdentities where
  target : String → List String → String
  statistical : String → String → String

namespace MonitoringReads

variable (reads : MonitoringReads)

/-- An event established a hard gate. -/
def hardGated (eventId : String) : Bool :=
  match reads.exitAssessment eventId with
  | some assessment => assessment.hardGates ≠ []
  | none => false

/-- Capital is preserved. -/
def capitalProtection (original : OriginalAction) : Bool :=
  reads.riskState original.command.execution.drawdownEventId = some .preservation

/-- The security is protected by a hard gate, or capital is preserved. -/
def protective (original : OriginalAction) : Bool :=
  reads.hardGated original.command.securityEventId || reads.capitalProtection original

/-- The obligations of a plan that established a hard gate. -/
def protectiveSources (deterministic : ExecutionPlanOutcome) : List String :=
  (deterministic.targets.flatMap (·.sourceObligationIds)).filter (reads.hardGated ·)

end MonitoringReads

/-- Two tuples of identities share one. -/
def Intersects (ids others : List String) : Prop := ∃ identity ∈ ids, identity ∈ others

instance : DecidableRel Intersects := fun ids others =>
  inferInstanceAs (Decidable (∃ identity ∈ ids, identity ∈ others))

section Projection

variable (identities : CaseIdentities) (reads : MonitoringReads) (command : MonitoringCommand)
  (source : ConclusionReport) (original : OriginalAction) (action : PositionActionOutcome)

/-- Whether the quantity of the action is known. -/
def quantityStatusOf : QuantityStatus :=
  if action.currentQuantity.isSome then .verified else .unknown

/-- The case of a target, from the case that it replaces. -/
def targetCase (deterministic : ExecutionPlanOutcome) (target : ExecutionTarget)
    (previous : Option MonitoringCase) : MonitoringCase where
  caseId := match previous with
    | some previous => previous.caseId
    | none => "monitoring-case-" ++ identities.target command.portfolioId target.sourceObligationIds
  sourceEventId := source.eventId
  obligationIds := target.sourceObligationIds
  priority :=
    if reads.capitalProtection original
      || Intersects (reads.protectiveSources deterministic) target.sourceObligationIds
      || (target.securityId = original.command.securityId && reads.protective original)
      || previous.any (·.priority = .p0) then .p0 else .p1
  plan := some deterministic
  requiredTargets := [target]
  quantityStatus := quantityStatusOf action
  firstEstablishedAt := match previous with
    | some previous => previous.firstEstablishedAt
    | none => source.knowledgeCutoff
  lastReviewedAt := source.knowledgeCutoff
  conclusionReportId := some source.reportVersionId
  direction := some target.direction
  targetQuantity := some target.targetQuantity
  lifecycleId := some action.lifecycleId

/-- The first case that shares an obligation with a target. -/
def previousCase (items : List MonitoringCase) (target : ExecutionTarget) :
    Option MonitoringCase :=
  items.find? fun item => Intersects item.obligationIds target.sourceObligationIds

/-- One target of the deterministic plan. -/
def projectTarget (deterministic : ExecutionPlanOutcome) (items : List MonitoringCase)
    (target : ExecutionTarget) : List MonitoringCase :=
  if target.sourceObligationIds = [] then items
  else
    let previous := previousCase items target
    let item := targetCase identities reads command source original action deterministic target
      previous
    match previous with
    | some previous => items.erase previous ++ [item]
    | none => items ++ [item]

/-- The targets of the deterministic plan, one after another. -/
def projectTargets (items : List MonitoringCase) : List MonitoringCase :=
  match action.deterministicExecution with
  | some deterministic => deterministic.targets.foldl
      (projectTarget identities reads command source original action deterministic) items
  | none => items

/-- The case of a statistical direction. -/
def statisticalCase (direction : TargetDirection) (windowStart windowEnd : Instant) :
    MonitoringCase where
  caseId := "monitoring-statistical-" ++ identities.statistical source.eventId
    source.reportVersionId
  sourceEventId := source.eventId
  obligationIds := []
  priority := .p2
  plan := action.execution
  requiredTargets := match action.execution with
    | some execution => execution.targets
    | none => []
  quantityStatus := quantityStatusOf action
  firstEstablishedAt := source.knowledgeCutoff
  lastReviewedAt := source.knowledgeCutoff
  conclusionReportId := some source.reportVersionId
  direction := some direction
  targetQuantity := action.targetQuantity
  lifecycleId := some action.lifecycleId
  qualificationId := some original.qualificationId
  windowStart := some windowStart
  windowEnd := some windowEnd

/-- The window in which a statistical direction may still be delivered. -/
def statisticalWindow : Option (Instant × Instant) := do
  let calendar ← command.calendar
  let assessment ← reads.assessment original.command.securityEventId
  if calendar.versionId ≠ assessment.calendarVersion then none
  else
    let windowStart ← calendar.nextWindowStart
    let windowEnd ← calendar.nextWindowEnd
    if ¬ (command.cutoffAt < windowStart ∧ windowStart < windowEnd) then none
    else if assessment.validUntil.any (· < windowEnd) then none
    else if reads.history.any (fun prior =>
        (prior.kind = .dailyClose ∨ prior.kind = .eventReassess) ∧
          prior.sourceEventId = source.eventId) then none
    else some (windowStart, windowEnd)

/-- The statistical direction of an action that nothing stronger decides. -/
def statisticalDirection : Option TargetDirection :=
  if (action.modelDirection = some .reduce ∨ action.modelDirection = some .exit)
      ∧ ¬ reads.protective original
      ∧ ¬ (action.reasons.any (· ≠ "STRICTEST_TARGET_CONJUNCTION")) then action.direction
  else none

/-- The position conclusion that a run may project: the request, the action and the units of its
position, or the reasons of the refusal. -/
def projectable (blocked : MonitoringOutcome) :
    Except (List String) (OriginalAction × PositionActionOutcome × List PositionActionUnit) :=
  match reads.original, source.positionAction with
  | some original, some action =>
    if command.contractVersion ≠ "1.1.0"
        ∨ original.command.execution.portfolioId ≠ command.portfolioId
        ∨ original.command.cutoffAt ≠ command.cutoffAt
        ∨ reads.corrected
        ∨ ¬ reads.inputsUnchanged then
      .error ["MONITORING_CONCLUSION_NOT_CURRENT"]
    else match reads.actionUnits original.command.execution.concentrationEventId with
      | some units => .ok (original, action, units)
      | none => .error blocked.reasons
  | _, _ => .error blocked.reasons

/-- Projects a saved position action onto the cases that are monitored. -/
def projectPositionAction (blocked : MonitoringOutcome) (prerequisiteMet : Bool) :
    MonitoringOutcome :=
  match projectable reads command source blocked with
  | .error reasons => { blocked with reasons }
  | .ok (original, action, units) =>
    let items := projectTargets identities reads command source original action blocked.cases
    let projected := { blocked with
      cases := items
      actionUnits := units
      sourceReportIds := [source.reportVersionId]
      positionAction := some action
      conclusionReportId := some source.reportVersionId
      freshness := blocked.freshness.map fun freshness =>
        { freshness with accountEvidence := units.map (·.positionEvidence) } }
    if ¬ prerequisiteMet then projected
    else match statisticalWindow reads command source original with
      | none => { projected with reasons := ["MONITORING_STATISTICAL_WINDOW_UNAVAILABLE"] }
      | some (windowStart, windowEnd) => { projected with
          disposition := .assessed
          reasons := action.reasons
          cases := items ++ (match statisticalDirection reads original action with
            | some direction => [statisticalCase identities source original action direction
                windowStart windowEnd]
            | none => []) }

end Projection

end StockProfiler.DecisionCases
