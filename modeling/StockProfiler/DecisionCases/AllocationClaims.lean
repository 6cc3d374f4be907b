import StockProfiler.DecisionCases.ConfirmationChain

/-!
# What an allocation takes as claimed

A new allocation starts from the claims that the confirmed plans still have. It
waits for executions that are not settled, and then adds what its command supplies.
-/

namespace StockProfiler.DecisionCases

open PositionManagement Portfolio

section Claims

variable (ledger : DecisionLedger) (scope : ResultAccessScope) (portfolioId : String)

/-- The latest confirmation of each plan of a portfolio. -/
def latestConfirmations : Dict (Option String) CandidateConfirmationOutcome :=
  Dict.ofLast ((ledger.candidateConfirmationHistory scope portfolioId).filterMap fun fact =>
    fact.result.candidateConfirmation.map fun confirmation => (confirmation.planId, confirmation))

/-- An execution with its plan, if it is of the latest confirmation of the plan. -/
def currentExecution (fact : DecisionEventFact) :
    Option (Option String × CandidateExecutionOutcome) := do
  let execution ← fact.result.candidateExecution
  let confirmation ← (latestConfirmations ledger scope portfolioId).get? execution.planId
  guard (execution.confirmationId = confirmation.confirmationId)
  return (execution.planId, execution)

/-- The latest execution of the latest confirmation of each plan. -/
def currentExecutions : Dict (Option String) CandidateExecutionOutcome :=
  Dict.ofLast ((ledger.candidateExecutionHistory scope (some portfolioId)).filterMap
    (currentExecution ledger scope portfolioId))

theorem currentExecution_eq_some {ledger : DecisionLedger} {scope : ResultAccessScope}
    {portfolioId : String} {fact : DecisionEventFact} {planId : Option String}
    {execution : CandidateExecutionOutcome} :
    currentExecution ledger scope portfolioId fact = some (planId, execution) ↔
      fact.result.candidateExecution = some execution ∧ execution.planId = planId ∧
        ∃ confirmation, (latestConfirmations ledger scope portfolioId).get? planId =
          some confirmation ∧ execution.confirmationId = confirmation.confirmationId := by
  simp only [currentExecution, bind_eq_some, Option.guard_eq_some', pure_eq_some, Prod.mk.injEq]
  constructor
  · rintro ⟨saved, hsaved, confirmation, hconfirmation, ⟨⟩, hid, rfl, rfl⟩
    exact ⟨hsaved, rfl, confirmation, hconfirmation, hid⟩
  · rintro ⟨hsaved, rfl, confirmation, hconfirmation, hid⟩
    exact ⟨execution, hsaved, confirmation, hconfirmation, ⟨⟩, hid, rfl, rfl⟩

/-- What a confirmed plan claims: what its execution kept, or all that it reserved. -/
def planClaims (confirmation : CandidateConfirmationOutcome) : List AllocationCommitment :=
  ((currentExecutions ledger scope portfolioId).get? confirmation.planId).elim
    confirmation.reservations (·.reservations)

/-- The claims of the confirmed plans, less those of an excluded one. -/
def confirmedClaims (exclude : Option String) : List AllocationCommitment :=
  ((latestConfirmations ledger scope portfolioId).filter (·.2.planId ≠ exclude)).flatMap
    fun entry => planClaims ledger scope portfolioId entry.2

/-- The commitments of broker orders that no reservation caused. -/
def unassociatedClaims : List AllocationCommitment :=
  (currentExecutions ledger scope portfolioId).flatMap (·.2.unassociatedCommitments)

/-- Commitments by their identity; the last one of an identity counts. -/
def byIdentity (commitments : List AllocationCommitment) : Dict String AllocationCommitment :=
  Dict.ofLast (commitments.map fun commitment => (commitment.commitmentId, commitment))

/-- Everything that is claimed before a new allocation, by identity. -/
def retainedClaims (exclude : Option String) : Dict String AllocationCommitment :=
  byIdentity (confirmedClaims ledger scope portfolioId exclude ++
    unassociatedClaims ledger scope portfolioId)

end Claims

/-- What an allocation starts from. -/
structure AllocationBasis where
  commitments : List AllocationCommitment
  reservationIds : List String
  executionReservationIds : List String

section Basis

variable (ledger : DecisionLedger) (command : CandidateAllocationCommand)
  (scope : ResultAccessScope)

/-- Check that a replanned plan is one of the scope, with current inputs and an open window. -/
def checkReplanning (savedAllocationInputsChanged : Bool) : Except Failure Unit :=
  match command.replacesPlanEventId with
  | none => return ()
  | some replaced => do
    let original ← known (((ledger.getFormalReportForEvent replaced).filter fun source =>
      source.case.accessScope.any (scope.sameScopeAs ·)).bind fun source =>
        source.result.candidateAllocation.filter fun plan =>
          plan.candidateEventId = some command.candidateEventId)
      (.blocked ["REPLANNING_SOURCE_UNAVAILABLE"])
    require (!savedAllocationInputsChanged) (.blocked ["ALLOCATION_INPUT_VERSION_CONFLICT"])
    require (entryWindowIsOpen ledger.sessionCloseOn original ledger.observedAt)
      (.blocked ["REPLANNING_WINDOW_CLOSED"])

/-- Whether the report of the released candidates is there. -/
def candidatesReleased : Bool :=
  (ledger.getFormalReportForEvent command.candidateEventId).any (·.result.hasCandidateRelease)

/-- Whether the released candidates are there, and for the scope. -/
def handoffAvailable : Bool :=
  (ledger.getFormalReportForEvent command.candidateEventId).any fun source =>
    source.case.accessScope.any (scope.sameScopeAs ·) ∧ source.result.hasCandidateRelease

/-- Check that supplied commitments do not contradict those that are claimed. -/
def checkSupplied (retained : Dict String AllocationCommitment) : Except Failure Unit :=
  require (∀ entry ∈ retained, ∀ supplied ∈ (byIdentity command.commitments).get? entry.1,
      supplied = entry.2)
    (.blocked [if handoffAvailable ledger command scope then "RESERVATION_IDENTITY_CONFLICT"
      else "CANDIDATE_HANDOFF_UNAVAILABLE"])

/-- Whether an execution leaves nothing to resolve. -/
def executionResolved (execution : CandidateExecutionOutcome) : Bool :=
  execution.disposition ≠ .blocked ∧ execution.reasons = [] ∧
    (!execution.orderAttributions.any (·.classification = .unknown)) ∧
    !execution.fills.any (·.classification = .unknown)

/-- Check that an execution is reconciled with the position that the liquidity was read from. -/
def checkSettled (execution : CandidateExecutionOutcome) : Except Failure Unit := do
  require (execution.disposition ≠ .pendingReconciliation)
    (.blocked ["EXECUTION_PENDING_RECONCILIATION"])
  let liquidity := (ledger.getFormalReportForEvent command.riskHandoff.liquidityEventId).bind
    (·.result.liquidityPosition)
  require (∀ position ∈ execution.positionEventId,
      (ledger.getDecisionEvent position).any fun proof => proof.result.position.any fun saved =>
        (liquidity.any fun read => read.snapshot = saved.snapshot) ∧
          ledger.getCorrectionEvent proof.decisionEventId = none)
    (.blocked ["EXECUTION_POSITION_NOT_RECONCILED"])

/-- What the allocation of a command starts from, unless something prevents it. -/
def allocationBasis (savedAllocationInputsChanged : Bool) (exclude : Option String := none) :
    Except Failure AllocationBasis := do
  checkReplanning ledger command scope savedAllocationInputsChanged
  let portfolioId := command.riskHandoff.portfolioId
  let executions := (currentExecutions ledger scope portfolioId).map Prod.snd
  let retained := retainedClaims ledger scope portfolioId exclude
  require (∀ entry ∈ retained, entry.2.accountId ∈ scope.accountIds)
    (.blocked ["CONFIRMATION_HISTORY_SCOPE_INCOMPLETE"])
  checkSupplied ledger command scope retained
  if candidatesReleased ledger command then
    require (ledger.pendingCandidateExecutions = []) (.blocked ["EXECUTION_PENDING_RECONCILIATION"])
    require (∀ execution ∈ executions, executionResolved execution)
      (.blocked ["EXECUTION_FACTS_UNRESOLVED"])
    executions.forM (checkSettled ledger command)
  require (handoffAvailable ledger command scope) (.blocked ["CANDIDATE_HANDOFF_UNAVAILABLE"])
  return { commitments := (Dict.ofLast ((byIdentity command.commitments) ++ retained)).map Prod.snd
           reservationIds := retained.keys
           executionReservationIds := (executions.flatMap fun execution =>
             execution.reservations ++ execution.unassociatedCommitments).map (·.commitmentId) }

end Basis

section Inversion

variable {ledger : DecisionLedger} {command : CandidateAllocationCommand}
  {scope : ResultAccessScope} {savedAllocationInputsChanged : Bool} {exclude : Option String}
  {basis : AllocationBasis}

theorem mem_of_byIdentity {commitments : List AllocationCommitment}
    {entry : String × AllocationCommitment} (h : entry ∈ byIdentity commitments) :
    entry.2 ∈ commitments := by
  obtain ⟨commitment, hcommitment, rfl⟩ := List.mem_map.mp (Dict.mem_ofLast h)
  exact hcommitment

theorem mem_commitments {commitment : AllocationCommitment} {portfolioId : String}
    (h : commitment ∈ (Dict.ofLast ((byIdentity command.commitments) ++
      retainedClaims ledger scope portfolioId exclude)).map Prod.snd) :
    commitment ∈ command.commitments ∨
      (∃ entry ∈ latestConfirmations ledger scope portfolioId,
        commitment ∈ planClaims ledger scope portfolioId entry.2) ∨
      commitment ∈ unassociatedClaims ledger scope portfolioId := by
  obtain ⟨entry, hentry, rfl⟩ := List.mem_map.mp h
  rcases List.mem_append.mp (Dict.mem_ofLast hentry) with hsupplied | hretained
  · exact .inl (mem_of_byIdentity hsupplied)
  · rcases List.mem_append.mp (mem_of_byIdentity hretained) with hclaimed | hopen
    · obtain ⟨confirmed, hconfirmed, hclaim⟩ := List.mem_flatMap.mp hclaimed
      exact .inr (.inl ⟨confirmed, List.mem_of_mem_filter hconfirmed, hclaim⟩)
    · exact .inr (.inr hopen)

theorem allocationBasis_inv
    (h : allocationBasis ledger command scope savedAllocationInputsChanged exclude = .ok basis) :
    (∀ entry ∈ currentExecutions ledger scope command.riskHandoff.portfolioId,
      executionResolved entry.2) ∧
    basis.commitments = (Dict.ofLast ((byIdentity command.commitments) ++
      retainedClaims ledger scope command.riskHandoff.portfolioId exclude)).map Prod.snd := by
  unfold allocationBasis at h
  obtain ⟨⟨⟩, -, h⟩ := bind_eq_ok.mp h
  dsimp only at h
  obtain ⟨⟨⟩, -, h⟩ := bind_eq_ok.mp h
  obtain ⟨⟨⟩, -, h⟩ := bind_eq_ok.mp h
  split at h
  · obtain ⟨⟨⟩, -, h⟩ := bind_eq_ok.mp h
    obtain ⟨⟨⟩, hresolved, h⟩ := bind_eq_ok.mp h
    obtain ⟨⟨⟩, -, h⟩ := bind_eq_ok.mp h
    obtain ⟨⟨⟩, -, h⟩ := bind_eq_ok.mp h
    cases h
    exact ⟨fun entry hentry => require_eq_ok.mp hresolved entry.2 (List.mem_map_of_mem hentry), rfl⟩
  · rename_i hreleased
    obtain ⟨⟨⟩, havailable, -⟩ := bind_eq_ok.mp h
    obtain ⟨source, hsource, havailable⟩ :=
      (Option.any_eq_true _ _).mp (require_eq_ok.mp havailable)
    refine absurd ((Option.any_eq_true _ _).mpr ⟨source, hsource, ?_⟩) hreleased
    exact (of_decide_eq_true havailable).2

end Inversion

end StockProfiler.DecisionCases
