import StockProfiler.DecisionCases.PositionActions

/-!
# Runs of plans and actions

Plans and actions are adjudicated against the events before them and appended, among the
events of any other case.
-/

namespace StockProfiler.DecisionCases

open PositionManagement Portfolio

/-- What a case asks of the ledger. -/
inductive PositionOperation where
  | plan
  | act (businessPrerequisiteMet : Bool) (checkActionQualification : RiskGrid → List String)
  /-- Any other result, possibly one that corrects an event under an identity of its own. -/
  | record (result : PositionResult) (correction : Option (String × String))

/-- A case with the reports that are visible when it is adjudicated. -/
structure PositionInput where
  case : PositionCase
  reportVisible : String → Bool := fun _ => true
  operation : PositionOperation

namespace PositionInput

variable (input : PositionInput)

/-- The identity that the event of an input has. -/
def eventId : String :=
  match input.operation with
  | .record _ (some (id, _)) => id
  | _ => input.case.decisionEventId

/-- The event that an input corrects. -/
def correctsEventId : Option String :=
  match input.operation with
  | .record _ (some (_, corrected)) => some corrected
  | _ => none

/-- The ledger that an input is adjudicated against. -/
def ledger (events : List PositionEventFact) : PositionLedger :=
  ⟨events, input.reportVisible⟩

end PositionInput

section Steps

variable (ctx : DecimalContext) (steps : ℕ) (events : List PositionEventFact)
  (input : PositionInput)

/-- The plan that a case commits. -/
def commitPlan : Option ExecutionPlanOutcome := do
  let scope ← input.case.accessScope
  let command ← input.case.executionPlan
  adjudicateExecutionPlan ctx steps (input.ledger events) scope command

/-- The action that a case requests. -/
def PositionInput.request (businessPrerequisiteMet : Bool)
    (checkActionQualification : RiskGrid → List String) : Option ActionRequest := do
  let scope ← input.case.accessScope
  let command ← input.case.positionAction
  return { eventId := input.case.decisionEventId
           scope
           command
           businessPrerequisiteMet
           checkActionQualification }

/-- The result that a case commits. -/
def commitPositionResult : Option PositionResult :=
  match input.operation with
  | .plan => (commitPlan ctx steps events input).map fun plan => { executionPlan := some plan }
  | .act businessPrerequisiteMet checkActionQualification =>
    ((input.request businessPrerequisiteMet checkActionQualification).bind
      (adjudicatePositionAction ctx steps (input.ledger events))).map fun action =>
        { positionAction := some action }
  | .record result correction =>
    if correction.isSome ∨ result.executionPlan = none ∧ result.positionAction = none then
      some result
    else none

/-- The event that an input appends, under an identity that no event has. -/
def commitPosition : Option PositionEventFact :=
  if input.eventId ∈ events.map (·.decisionEventId) then none
  else (commitPositionResult ctx steps events input).map fun result =>
    { case := input.case
      result
      decisionEventId := input.eventId
      correctsEventId := input.correctsEventId }

end Steps

/-- A run in which every event is committed against the ones before it. -/
abbrev PositionRun (ctx : DecimalContext) (steps : ℕ)
    (run : List (HistoryStep PositionInput PositionEventFact)) : Prop :=
  HistoryRun (fun events input fact => commitPosition ctx steps events input = some fact) run

section Committed

variable {ctx : DecimalContext} {steps : ℕ} {events : List PositionEventFact}
  {input : PositionInput} {fact : PositionEventFact}

theorem commitPosition_eq_some (h : commitPosition ctx steps events input = some fact) :
    commitPositionResult ctx steps events input = some fact.result ∧ fact.case = input.case ∧
      fact.correctsEventId = input.correctsEventId ∧ fact.decisionEventId = input.eventId ∧
      input.eventId ∉ events.map (·.decisionEventId) := by
  unfold commitPosition at h
  split at h
  · exact nomatch h
  · rename_i hfresh
    obtain ⟨result, hresult, rfl⟩ := Option.map_eq_some_iff.mp h
    exact ⟨hresult, rfl, rfl, rfl, hfresh⟩

/-- The action of an original fact was adjudicated from the events before it. -/
theorem action_of_commitPosition (h : commitPosition ctx steps events input = some fact)
    (horiginal : fact.correctsEventId = none) {outcome : PositionActionOutcome}
    (houtcome : fact.result.positionAction = some outcome) :
    ∃ request : ActionRequest, fact.case.accessScope = some request.scope ∧
      fact.case.positionAction = some request.command ∧
      fact.decisionEventId = request.eventId ∧
      adjudicatePositionAction ctx steps (input.ledger events) request = some outcome := by
  obtain ⟨hresult, hcase, hcorrects, hid, -⟩ := commitPosition_eq_some h
  unfold commitPositionResult at hresult
  rw [hcorrects] at horiginal
  unfold PositionInput.correctsEventId at horiginal
  unfold PositionInput.eventId at hid
  cases hoperation : input.operation with
  | plan =>
    rw [hoperation] at hresult
    obtain ⟨plan, -, hplan⟩ := Option.map_eq_some_iff.mp hresult
    rw [← hplan] at houtcome
    exact nomatch houtcome
  | act businessPrerequisiteMet checkActionQualification =>
    rw [hoperation] at hresult hid
    obtain ⟨action, haction, heq⟩ := Option.map_eq_some_iff.mp hresult
    obtain ⟨request, hrequest, hadjudicate⟩ := bind_eq_some.mp haction
    rw [← heq] at houtcome
    cases houtcome
    unfold PositionInput.request at hrequest
    obtain ⟨scope, hscope, hrequest⟩ := bind_eq_some.mp hrequest
    obtain ⟨command, hcommand, hrequest⟩ := bind_eq_some.mp hrequest
    cases hrequest
    rw [hcase]
    exact ⟨_, hscope, hcommand, hid, hadjudicate⟩
  | record result correction =>
    rw [hoperation] at hresult horiginal
    cases correction with
    | some correction => exact nomatch horiginal
    | none =>
      dsimp only at hresult
      split at hresult
      · rename_i hnone
        rw [← Option.some.inj hresult] at houtcome
        have hnone := (hnone.resolve_left (by simp)).2
        rw [hnone] at houtcome
        cases houtcome
      · exact nomatch hresult

end Committed

end StockProfiler.DecisionCases
