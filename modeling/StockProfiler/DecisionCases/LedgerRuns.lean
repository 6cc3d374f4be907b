import StockProfiler.DecisionCases.AllocationLegs

/-!
# Runs of the decision ledger

Allocations, confirmations and executions are each adjudicated against the events
before them, rechecked at their commit and appended, in any order.
-/

namespace StockProfiler.DecisionCases

open PositionManagement Portfolio

/-- What the ledger says beside its events at one moment. -/
structure LedgerView where
  observedAt : Instant
  reportVisible : String → Bool := fun _ => true
  pendingCandidateConfirmations : List String := []
  pendingCandidateExecutions : List String := []
  sessionCloseOn : String → ℤ → Option Instant

/-- The ledger of some events at a moment. -/
def LedgerView.ledger (view : LedgerView) (events : List DecisionEventFact) : DecisionLedger where
  events := events
  observedAt := view.observedAt
  reportVisible := view.reportVisible
  pendingCandidateConfirmations := view.pendingCandidateConfirmations
  pendingCandidateExecutions := view.pendingCandidateExecutions
  sessionCloseOn := view.sessionCloseOn

/-- The outcome of an allocation, which buys no security twice in an account. -/
structure AllocatedPlan where
  outcome : CandidateAllocationOutcome
  legKeys_nodup : (legKeys outcome.rows).Nodup

/-- What a case asks of the ledger. -/
inductive LedgerOperation where
  | allocate (plan : AllocatedPlan)
  | confirm (services atCommit : ConfirmationServices)
      (handoffEvidence : String → Option (List PositionEvidence))
  | execute
  /-- Any other result, possibly one that corrects an event under an identity of its own. -/
  | record (result : CaseResult) (correction : Option (String × String))

/-- A case with what the ledger says when it is adjudicated and when it is committed. -/
structure LedgerInput where
  case : FrozenDecisionCase
  view : LedgerView
  atCommit : LedgerView
  businessPrerequisiteMet : Bool
  committedAt : Instant
  operation : LedgerOperation

namespace LedgerInput

variable (input : LedgerInput)

/-- The identity that the event of an input has. -/
def eventId : String :=
  match input.operation with
  | .record _ (some (id, _)) => id
  | _ => input.case.decisionEventId

/-- The event that an input corrects. -/
def correctsEventId : Option String :=
  match input.operation with
  | .record _ (some (_, corrected)) => some corrected
  | _ => none

end LedgerInput

section Steps

variable (ctx : DecimalContext) (events : List DecisionEventFact) (input : LedgerInput)

/-- The confirmation that a case commits. -/
def commitConfirmation (services atCommit : ConfirmationServices)
    (handoffEvidence : String → Option (List PositionEvidence)) :
    Option CandidateConfirmationOutcome := do
  let command ← input.case.candidateConfirmation
  let scope ← input.case.accessScope
  let outcome ← adjudicateCandidateConfirmation ctx (input.view.ledger events) services input.case
    input.businessPrerequisiteMet
  finalizeCandidateConfirmation (input.atCommit.ledger events) atCommit command scope
    input.committedAt handoffEvidence outcome

/-- The execution that a case commits. -/
def commitExecution : Option CandidateExecutionOutcome := do
  let command ← input.case.candidateExecution
  let scope ← input.case.accessScope
  let outcome ← adjudicateCandidateExecution ctx (input.view.ledger events) input.case
    input.businessPrerequisiteMet
  finalizeCandidateExecution (input.atCommit.ledger events) scope command
    input.case.decisionEventId input.committedAt outcome

/-- The result that a case commits; the plan of an allocation is named by its event. -/
def commitResult : Option CaseResult :=
  match input.operation with
  | .allocate plan =>
    some { candidateAllocation := some { plan.outcome with
      planId := plan.outcome.planId.map fun _ => input.case.decisionEventId } }
  | .confirm services atCommit handoffEvidence =>
    (commitConfirmation ctx events input services atCommit handoffEvidence).map fun outcome =>
      { candidateConfirmation := some outcome }
  | .execute => (commitExecution ctx events input).map fun outcome =>
      { candidateExecution := some outcome }
  | .record result _ =>
    if result.candidateAllocation = none ∧ result.candidateConfirmation = none ∧
      result.candidateExecution = none then some result else none

/-- The event that an input appends, under an identity that no event has. -/
def commitFact : Option DecisionEventFact :=
  if input.eventId ∈ events.map (·.decisionEventId) then none
  else (commitResult ctx events input).map fun result =>
    { case := input.case
      result := result
      committedAt := input.committedAt
      decisionEventId := input.eventId
      correctsEventId := input.correctsEventId }

end Steps

/-- The events that inputs leave in the ledger. -/
def ledgerEvents (ctx : DecimalContext) (inputs : List LedgerInput) : List DecisionEventFact :=
  outcomes (traceSome (commitFact ctx) inputs)

/-- An event is an allocation, a confirmation, an execution, or none of them. -/
inductive Committed (ctx : DecimalContext) (events : List DecisionEventFact) (input : LedgerInput)
    (fact : DecisionEventFact) : Prop where
  | allocation (plan : CandidateAllocationOutcome)
      (hresult : fact.result = { candidateAllocation := some plan })
      (hplan : ∀ id ∈ plan.planId, id = fact.decisionEventId) (hlegs : (legKeys plan.rows).Nodup)
  | confirmation (services atCommit : ConfirmationServices)
      (handoffEvidence : String → Option (List PositionEvidence))
      (outcome : CandidateConfirmationOutcome)
      (hresult : fact.result = { candidateConfirmation := some outcome })
      (hcommit : commitConfirmation ctx events input services atCommit handoffEvidence =
        some outcome)
  | execution (outcome : CandidateExecutionOutcome)
      (hresult : fact.result = { candidateExecution := some outcome })
      (hcommit : commitExecution ctx events input = some outcome)
  | other (hallocation : fact.result.candidateAllocation = none)
      (hconfirmation : fact.result.candidateConfirmation = none)
      (hexecution : fact.result.candidateExecution = none)

section Committed

variable {ctx : DecimalContext} {events : List DecisionEventFact} {input : LedgerInput}
  {fact : DecisionEventFact}

/-- A committed event has a new id and is one of the four kinds. -/
theorem committed_of_commitFact (h : commitFact ctx events input = some fact) :
    fact.decisionEventId ∉ events.map (·.decisionEventId) ∧ fact.case = input.case ∧
      Committed ctx events input fact ∧
      (fact.result.candidateAllocation ≠ none ∨ fact.result.candidateConfirmation ≠ none ∨
        fact.result.candidateExecution ≠ none →
          fact.decisionEventId = fact.case.decisionEventId ∧ fact.correctsEventId = none) := by
  unfold commitFact at h
  split at h
  · exact nomatch h
  · rename_i hfresh
    obtain ⟨result, hresult, rfl⟩ := Option.map_eq_some_iff.mp h
    unfold commitResult at hresult
    cases hoperation : input.operation with
    | allocate plan =>
      rw [hoperation] at hresult
      cases hresult
      have hid : input.eventId = input.case.decisionEventId := by
        rw [LedgerInput.eventId, hoperation]
      have hcorrects : input.correctsEventId = none := by
        rw [LedgerInput.correctsEventId, hoperation]
      refine ⟨hfresh, rfl, .allocation _ rfl ?_ plan.legKeys_nodup, fun _ => ⟨hid, hcorrects⟩⟩
      intro id hmem
      obtain ⟨saved, -, rfl⟩ := Option.map_eq_some_iff.mp hmem
      exact hid.symm
    | confirm services atCommit handoffEvidence =>
      rw [hoperation] at hresult
      obtain ⟨outcome, hcommit, rfl⟩ := Option.map_eq_some_iff.mp hresult
      have hid : input.eventId = input.case.decisionEventId := by
        rw [LedgerInput.eventId, hoperation]
      have hcorrects : input.correctsEventId = none := by
        rw [LedgerInput.correctsEventId, hoperation]
      exact ⟨hfresh, rfl, .confirmation _ _ _ outcome rfl hcommit, fun _ => ⟨hid, hcorrects⟩⟩
    | execute =>
      rw [hoperation] at hresult
      obtain ⟨outcome, hcommit, rfl⟩ := Option.map_eq_some_iff.mp hresult
      have hid : input.eventId = input.case.decisionEventId := by
        rw [LedgerInput.eventId, hoperation]
      have hcorrects : input.correctsEventId = none := by
        rw [LedgerInput.correctsEventId, hoperation]
      exact ⟨hfresh, rfl, .execution outcome rfl hcommit, fun _ => ⟨hid, hcorrects⟩⟩
    | record recorded correction =>
      rw [hoperation] at hresult
      dsimp only at hresult
      split at hresult
      · rename_i hnone
        cases hresult
        obtain ⟨hallocation, hconfirmation, hexecution⟩ := hnone
        refine ⟨hfresh, rfl, .other hallocation hconfirmation hexecution, ?_⟩
        rintro (hne | hne | hne)
        · exact absurd hallocation hne
        · exact absurd hconfirmation hne
        · exact absurd hexecution hne
      · exact nomatch hresult

end Committed

end StockProfiler.DecisionCases
