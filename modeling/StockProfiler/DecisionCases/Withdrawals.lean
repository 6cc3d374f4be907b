import StockProfiler.DecisionCases.AllocationClaims
import StockProfiler.DecisionCases.ExecutionClaims

/-!
# Withdrawals

A withdrawal is remembered by the later executions of its confirmation. What a
withdrawn reservation still claims is at most a cash hold, unless the cause of an
order on its security is unknown.
-/

namespace StockProfiler.DecisionCases

open PositionManagement Portfolio

/-- Nothing but a cash hold is left of a claim. -/
def CashOnly (claim : AllocationCommitment) : Prop := claim.quantity = none ∧ claim.principal = 0

/-- A row with nothing left to execute. -/
def ExecutionRow.Closed (row : ExecutionRow) : Prop :=
  row.state = .terminalUnfilled ∨ row.remainingQuantity = 0

section Settlement

variable {ctx : DecimalContext} {ledger : DecisionLedger} {scope : ResultAccessScope}
  {command : CandidateExecutionCommand} {confirmation : CandidateConfirmationOutcome}
  {previouslyWithdrawn : List String} {snapshot : ReconciledPositionSnapshot}
  {facts : SettlementContext} {reservation : AllocationCommitment} {settlement : Settlement}

section

variable (hattributed : Attributed ctx ledger scope command confirmation previouslyWithdrawn
    snapshot facts) (hwithdrawn : reservation.commitmentId ∈ facts.withdrawn)
include hattributed hwithdrawn

theorem unfinished_of_withdrawn :
    (relatedOrders facts.orders reservation.commitmentId).any (·.status.isUnfinished) = false := by
  refine List.any_eq_false.mpr fun order horder hopen => ?_
  obtain ⟨p, hp, rfl⟩ := List.mem_map.mp horder
  obtain ⟨hp, hrelated⟩ := List.mem_filter.mp hp
  refine hattributed.release p hp (decide_eq_true ⟨hopen, .inl ?_⟩)
  rw [of_decide_eq_true hrelated]
  exact decide_eq_true hwithdrawn

/-- What remains of a withdrawn reservation may be released when the causes are known. -/
theorem mayRelease_of_withdrawn (hknown : unknownOn facts.orders reservation.securityId = false)
    (filled remaining : ℚ) : mayRelease facts reservation filled remaining = true := by
  have hunfinished := unfinished_of_withdrawn hattributed hwithdrawn
  simp only [mayRelease, hknown, hunfinished]
  simp [hwithdrawn]

theorem linkedOrders_of_withdrawn : linkedOrders facts.orders reservation.commitmentId = [] := by
  refine List.filter_eq_nil_iff.mpr fun order horder hlinked => ?_
  have hclosed := List.any_eq_false.mp (unfinished_of_withdrawn hattributed hwithdrawn) order horder
  exact hclosed (of_decide_eq_true hlinked).2

end

/-- What may be released and has no linked orders needs no quantity and no principal. -/
theorem claimAmounts_released {priceCap filled remaining : ℚ}
    (hmay : mayRelease facts reservation filled remaining = true)
    (hlinked : linkedOrders facts.orders reservation.commitmentId = []) :
    let amounts := claimAmounts ctx facts reservation priceCap filled remaining
    amounts.quantity = 0 ∧ amounts.principal = 0 ∧
      (0 ≤ reservation.purchaseCost → fundsKnown facts.command → amounts.cashHold = 0) := by
  have hzero : ctx.mul 0 priceCap = 0 := by rw [DecimalContext.mul, zero_mul, ctx.round_zero]
  simp only [claimAmounts, hmay, hlinked, List.map_nil, DecimalContext.sum_nil, if_true, hzero,
    max_self, true_and]
  intro hcost hfunds
  have hadd : ctx.add 0 0 = 0 := by rw [DecimalContext.add, add_zero, ctx.round_zero]
  have hsub : ctx.sub 0 0 = 0 := by rw [DecimalContext.sub, sub_zero, ctx.round_zero]
  simp only [hfunds, if_true, Bool.not_true, Bool.false_eq_true, if_false, hadd, hsub]
  exact max_eq_left (ctx.round_nonpos (by rw [zero_sub]; exact neg_nonpos.mpr hcost))

/-- At most a cash hold is left of a withdrawn reservation when the causes are known, and none
when the evidence of funds is complete. -/
theorem settleReservation_withdrawn (hattributed : Attributed ctx ledger scope command confirmation
    previouslyWithdrawn snapshot facts) (hwithdrawn : reservation.commitmentId ∈ facts.withdrawn)
    (hknown : unknownOn facts.orders reservation.securityId = false)
    (h : settleReservation ctx facts reservation = .ok settlement) :
    ExecutionRow.Closed settlement.row ∧ ∀ claim ∈ settlement.claim, CashOnly claim ∧
      (0 ≤ reservation.purchaseCost → ¬fundsKnown facts.command) := by
  obtain ⟨accepted, priceCap, -, -, -, hstate, -, hremaining, hclaim, -⟩ := settleReservation_inv h
  set filled := filledQuantityOf ctx facts.fills reservation.commitmentId
  set remaining := max 0 (ctx.sub accepted filled)
  have hmay := mayRelease_of_withdrawn hattributed hwithdrawn hknown filled remaining
  obtain ⟨hquantity, hprincipal, hhold⟩ := @claimAmounts_released ctx facts reservation priceCap
    filled remaining hmay (linkedOrders_of_withdrawn hattributed hwithdrawn)
  refine ⟨?_, fun claim hmem => ?_⟩
  · by_cases hzero : remaining = 0
    · exact .inr (hremaining.trans hzero)
    · refine .inl (hstate.trans ?_)
      rw [rowState, if_neg (by simp [hknown]), if_pos ⟨hmay, hzero⟩]
  · rw [hclaim] at hmem
    split at hmem
    · rename_i hne
      obtain rfl := Option.mem_some.mp hmem
      refine ⟨⟨?_, hprincipal⟩, fun hcost hfunds => ?_⟩
      · simp [claimOf, hquantity]
      · exact hne.elim (· hquantity) (· (hhold hcost hfunds))
    · exact absurd hmem (Option.not_mem_none _)

/-- A claim is on the security of its reservation, under the same identity. -/
theorem settleReservation_claim (h : settleReservation ctx facts reservation = .ok settlement)
    {claim : AllocationCommitment} (hclaim : claim ∈ settlement.claim) :
    claim.commitmentId = reservation.commitmentId ∧ claim.securityId = reservation.securityId := by
  obtain ⟨accepted, priceCap, -, -, -, -, -, -, hsettled, -⟩ := settleReservation_inv h
  rw [hsettled] at hclaim
  split at hclaim
  · obtain rfl := Option.mem_some.mp hclaim
    exact ⟨rfl, rfl⟩
  · exact absurd hclaim (Option.not_mem_none _)

end Settlement

/-- The answer to an execution command whose plan or confirmation is not available. -/
def sourceUnavailable : CandidateExecutionOutcome where
  disposition := .blocked
  reasons := ["EXECUTION_SOURCE_UNAVAILABLE"]

/-- An outcome keeps what its base says of claims and orders. -/
structure Carries (base outcome : CandidateExecutionOutcome) : Prop where
  disposition : outcome.disposition ≠ .reconciled
  planId : outcome.planId = base.planId
  confirmationId : outcome.confirmationId = base.confirmationId
  reservations : outcome.reservations = base.reservations
  orders : outcome.orders = base.orders
  orderAttributions : outcome.orderAttributions = base.orderAttributions
  rows : outcome.rows = base.rows
  withdrawn : outcome.withdrawnReservationIds = base.withdrawnReservationIds

section Outcomes

variable {ctx : DecimalContext} {ledger : DecisionLedger} {scope : ResultAccessScope}
  {command : CandidateExecutionCommand} {case : FrozenDecisionCase}
  {confirmed : DecisionEventFact} {confirmation : CandidateConfirmationOutcome}
  {base outcome : CandidateExecutionOutcome} {executionId : String}

theorem carries_blockedFor (base : CandidateExecutionOutcome) (executionId : String)
    (reasons : List String) :
    Carries base (CandidateExecutionOutcome.blockedFor base executionId reasons) :=
  ⟨nofun, rfl, rfl, rfl, rfl, rfl, rfl, rfl⟩

/-- An outcome is that of a reconciliation, or keeps its base. -/
theorem carries_executeCandidates
    (h : executeCandidates ctx ledger scope command case confirmed confirmation = some outcome) :
    outcome.disposition = .reconciled ∨
      Carries (executionBase ledger scope command confirmation) outcome := by
  unfold executeCandidates at h
  dsimp only at h
  set base := executionBase ledger scope command confirmation
  split at h
  · rename_i failure hfailure
    cases failure with
    | blocked reasons => exact .inr (Option.some.inj h ▸ carries_blockedFor base _ reasons)
    | arithmetic => cases h
    | raised => cases h
  · split at h
    · cases hreconcile : reconcileExecution ctx ledger scope command case.decisionEventId
        confirmed.committedAt confirmation base.withdrawnReservationIds with
      | ok reconciled =>
        rw [hreconcile, answerReconciliation] at h
        obtain ⟨source, snapshot, facts, settlements, unassociated, -, -, -, -, -, rfl⟩ :=
          reconcileExecution_inv hreconcile
        split at h
        · exact .inl (Option.some.inj h ▸ rfl)
        · exact .inr (Option.some.inj h ▸ carries_blockedFor base _ _)
        · cases h
      | error failure =>
        rw [hreconcile] at h
        cases failure with
        | blocked reasons =>
          cases h
          exact .inr ⟨(by intro heq; cases heq), rfl, rfl, rfl, rfl, rfl, rfl, rfl⟩
        | arithmetic => exact .inr (Option.some.inj h ▸ carries_blockedFor base _ _)
        | raised => cases h
    · cases hdeclare : declareExecution ledger command case.decisionEventId confirmed confirmation
        base with
      | ok declared =>
        rw [hdeclare] at h
        cases h
        simp only [declareExecution, bind_eq_ok] at hdeclare
        obtain ⟨declaration, -, ⟨⟩, -, hdeclare⟩ := hdeclare
        cases hdeclare
        exact .inr ⟨(by intro heq; cases heq), rfl, rfl, rfl, rfl, rfl, rfl, rfl⟩
      | error failure =>
        rw [hdeclare] at h
        cases failure with
        | blocked reasons => exact .inr (Option.some.inj h ▸ carries_blockedFor base _ reasons)
        | arithmetic => cases h
        | raised => cases h

theorem executionSource_inv {businessPrerequisiteMet : Bool}
    (h : executionSource ledger scope command businessPrerequisiteMet =
      some (confirmed, confirmation)) :
    ledger.getDecisionEvent command.confirmationEventId = some confirmed ∧
      confirmed.result.candidateConfirmation = some confirmation ∧
      confirmed.case.accessScope.any (scope.sameScopeAs ·) ∧
      confirmation.disposition = .confirmed ∧
      confirmation.portfolioId = some command.portfolioId := by
  simp only [executionSource, bind_eq_some, Option.guard_eq_some', pure_eq_some, Prod.mk.injEq] at h
  obtain ⟨source, -, plan, -, confirmed, hconfirmed, confirmation, hconfirmation, ⟨⟩,
    ⟨-, -, -, hscope, hdisposition, -, hportfolio⟩, rfl, rfl⟩ := h
  exact ⟨hconfirmed, hconfirmation, hscope, hdisposition, hportfolio⟩

end Outcomes

/-- What an outcome still claims for what was withdrawn: nothing but cash holds, unless the cause
of an order on the security is unknown. -/
structure KeepsWithdrawn (outcome : CandidateExecutionOutcome) : Prop where
  claims : ∀ claim ∈ outcome.reservations,
    claim.commitmentId ∈ outcome.withdrawnReservationIds →
      unknownOn (CandidateExecutionOutcome.attributedOrders outcome) claim.securityId ∨
        CashOnly claim
  rows : ∀ row ∈ outcome.rows, row.reservationId ∈ outcome.withdrawnReservationIds →
    unknownOn (CandidateExecutionOutcome.attributedOrders outcome) row.securityId ∨
      ExecutionRow.Closed row

/-- The confirmation that an outcome executes, with what the outcome takes from it. -/
structure Executes (events : List DecisionEventFact) (command : CandidateExecutionCommand)
    (scope : ResultAccessScope) (confirmed : DecisionEventFact)
    (confirmation : CandidateConfirmationOutcome) (outcome : CandidateExecutionOutcome) :
    Prop where
  saved : confirmed ∈ events
  eventId : confirmed.decisionEventId = command.confirmationEventId
  scope : confirmed.case.accessScope.any (scope.sameScopeAs ·)
  result : confirmed.result.candidateConfirmation = some confirmation
  confirmed : confirmation.disposition = .confirmed
  portfolioId : confirmation.portfolioId = some command.portfolioId
  planId : outcome.planId = confirmation.planId
  confirmationId : outcome.confirmationId = some command.confirmationEventId
  /-- It claims nothing that the confirmation did not reserve. -/
  claims : ∀ claim ∈ outcome.reservations,
    claim.commitmentId ∈ confirmation.reservations.map (·.commitmentId)

/-- A saved execution of a saved confirmation. -/
structure SavedExecution (events : List DecisionEventFact) (command : CandidateExecutionCommand)
    (scope : ResultAccessScope) (outcome : CandidateExecutionOutcome) : Prop where
  executes : ∃ confirmed confirmation,
    Executes events command scope confirmed confirmation outcome
  withdrawn : KeepsWithdrawn outcome
  /-- Complete evidence of funds leaves no hold either. -/
  funds : outcome.disposition = .reconciled → fundsKnown command →
    ∀ claim ∈ outcome.reservations, claim.commitmentId ∈ outcome.withdrawnReservationIds →
      unknownOn (CandidateExecutionOutcome.attributedOrders outcome) claim.securityId

/-- An outcome that found no source, or continues one that did not, claims nothing. -/
structure Unsourced (outcome : CandidateExecutionOutcome) : Prop where
  planId : outcome.planId = none
  reservations : outcome.reservations = []
  rows : outcome.rows = []
  withdrawn : outcome.withdrawnReservationIds = []

/-- What the events of a run have in common, with their executions. -/
structure SavedHistory (ctx : DecimalContext) (events : List DecisionEventFact) : Prop
    extends SavedEvents ctx events where
  valid : ∀ fact ∈ events, ∀ outcome, fact.result.candidateConfirmation = some outcome →
    outcome.disposition = .confirmed → ∀ reservation ∈ outcome.reservations, reservation.Valid
  executions : ∀ fact ∈ events, ∀ outcome, fact.result.candidateExecution = some outcome →
    Unsourced outcome ∨ ∃ command scope, fact.case.candidateExecution = some command ∧
      fact.case.accessScope = some scope ∧ fact.correctsEventId = none ∧
      SavedExecution events command scope outcome

section Saved

variable {fact : DecisionEventFact} {ctx : DecimalContext} {events : List DecisionEventFact}
  {ledger : DecisionLedger} {scope : ResultAccessScope} {command : CandidateExecutionCommand}
  {confirmed : DecisionEventFact} {confirmation : CandidateConfirmationOutcome}
  {base outcome : CandidateExecutionOutcome}

theorem Executes.mono (h : Executes events command scope confirmed confirmation outcome) :
    Executes (events ++ [fact]) command scope confirmed confirmation outcome :=
  { h with saved := List.mem_append_left _ h.saved }

theorem SavedExecution.mono (h : SavedExecution events command scope outcome) :
    SavedExecution (events ++ [fact]) command scope outcome := by
  obtain ⟨⟨confirmed, confirmation, hexecutes⟩, hwithdrawn, hfunds⟩ := h
  exact ⟨⟨confirmed, confirmation, hexecutes.mono⟩, hwithdrawn, hfunds⟩

/-- An outcome that keeps its base is as sourced as the base. -/
theorem Unsourced.carries (h : Unsourced base) (hcarries : Carries base outcome) :
    Unsourced outcome :=
  ⟨hcarries.planId.trans h.planId, hcarries.reservations.trans h.reservations,
    hcarries.rows.trans h.rows, hcarries.withdrawn.trans h.withdrawn⟩

/-- An outcome that keeps a saved base is as well saved. -/
theorem savedExecution_carries
    (hexecutes : Executes events command scope confirmed confirmation base)
    (hkeeps : KeepsWithdrawn base) (hcarries : Carries base outcome) :
    SavedExecution events command scope outcome := by
  have horders : CandidateExecutionOutcome.attributedOrders outcome =
      CandidateExecutionOutcome.attributedOrders base := by
    rw [CandidateExecutionOutcome.attributedOrders, hcarries.orders, hcarries.orderAttributions]
    rfl
  refine ⟨⟨confirmed, confirmation, { hexecutes with
    planId := hcarries.planId.trans hexecutes.planId
    confirmationId := hcarries.confirmationId.trans hexecutes.confirmationId
    claims := by rw [hcarries.reservations]; exact hexecutes.claims }⟩, ⟨?_, ?_⟩,
    fun hreconciled => absurd hreconciled hcarries.disposition⟩
  · rw [hcarries.reservations, hcarries.withdrawn, horders]
    exact hkeeps.claims
  · rw [hcarries.rows, hcarries.withdrawn, horders]
    exact hkeeps.rows

theorem priorExecution_inv {prior : CandidateExecutionOutcome}
    (h : priorExecution ledger scope command = some prior) :
    ∃ fact ∈ ledger.events, fact.result.candidateExecution = some prior ∧
      fact.case.candidateExecution.any
        (·.confirmationEventId = command.confirmationEventId) := by
  obtain ⟨fact, hfact, hprior⟩ := bind_eq_some.mp h
  have hmem := List.mem_reverse.mp (List.mem_of_find?_eq_some hfact)
  refine ⟨fact, List.mem_of_mem_filter (List.mem_of_mem_filter hmem), hprior, ?_⟩
  have hnamed := List.find?_some hfact
  exact hnamed

theorem getDecisionEvent_inv {eventId : String} (h : ledger.getDecisionEvent eventId = some fact) :
    fact ∈ ledger.events ∧ fact.decisionEventId = eventId := by
  have hid := List.find?_some h
  exact ⟨List.mem_of_find?_eq_some h, of_decide_eq_true hid⟩

theorem confirmationId_of_saved (hevents : SavedEvents ctx events) (hsaved : confirmed ∈ events)
    (hresult : confirmed.result.candidateConfirmation = some confirmation)
    (hconfirmed : confirmation.disposition = .confirmed) :
    confirmation.confirmationId = some confirmed.decisionEventId := by
  obtain ⟨command, scope, plan, prior, -, -, -, -, -, hconfirms⟩ :=
    hevents.confirmations confirmed hsaved confirmation hresult hconfirmed
  exact hconfirms.confirmationId

/-- What a command starts from claims nothing, or executes the confirmation of the command. -/
theorem savedExecution_base {businessPrerequisiteMet : Bool}
    (hevents : SavedHistory ctx ledger.events)
    (hsource : executionSource ledger scope command businessPrerequisiteMet =
      some (confirmed, confirmation)) :
    Unsourced (executionBase ledger scope command confirmation) ∨
      (Executes ledger.events command scope confirmed confirmation
        (executionBase ledger scope command confirmation) ∧
        KeepsWithdrawn (executionBase ledger scope command confirmation)) := by
  obtain ⟨hfound, hresult, hscope, hconfirmed, hportfolio⟩ := executionSource_inv hsource
  obtain ⟨hsaved, hid⟩ := getDecisionEvent_inv hfound
  cases hprior : priorExecution ledger scope command with
  | none =>
    have hbase : executionBase ledger scope command confirmation =
        { disposition := .pendingReconciliation
          reasons := []
          portfolioId := some command.portfolioId
          planId := confirmation.planId
          confirmationId := confirmation.confirmationId
          reservations := confirmation.reservations } := by
      rw [executionBase, hprior]
      rfl
    rw [hbase]
    have hconfirmationId := confirmationId_of_saved hevents.toSavedEvents hsaved hresult hconfirmed
    rw [hid] at hconfirmationId
    exact .inr ⟨⟨hsaved, hid, hscope, hresult, hconfirmed, hportfolio, rfl, hconfirmationId,
      fun claim hclaim => List.mem_map_of_mem hclaim⟩,
      fun claim _ hwithdrawn => absurd hwithdrawn List.not_mem_nil,
      fun row hrow => absurd hrow List.not_mem_nil⟩
  | some prior =>
    have hbase : executionBase ledger scope command confirmation = prior := by
      rw [executionBase, hprior]
      rfl
    rw [hbase]
    obtain ⟨fact, hfact, hprior, hnamed⟩ := priorExecution_inv hprior
    rcases hevents.executions fact hfact prior hprior with hunsourced | hexecution
    · exact .inl hunsourced
    · obtain ⟨command', scope', hcommand', -, -, ⟨confirmed', confirmation', h⟩, hkeeps, -⟩ :=
        hexecution
      rw [hcommand'] at hnamed
      have hsame : command'.confirmationEventId = command.confirmationEventId :=
        of_decide_eq_true hnamed
      obtain rfl := List.inj_on_of_nodup_map hevents.ids h.saved hsaved
        ((h.eventId.trans hsame).trans hid.symm)
      obtain rfl := Option.some.inj (h.result.symm.trans hresult)
      exact .inr ⟨{ h with
        eventId := hid
        scope := hscope
        portfolioId := hportfolio
        confirmationId := h.confirmationId.trans (congrArg some hsame) }, hkeeps⟩

/-- The outcome of a reconciliation keeps at most cash holds for what was withdrawn. -/
theorem savedExecution_reconciled {executionId : String} {previouslyWithdrawn : List String}
    {snapshot : ReconciledPositionSnapshot} {facts : SettlementContext}
    {settlements : List Settlement} {unassociated : List AllocationCommitment}
    {declarations : List ExecutionDeclaration} (hsaved : confirmed ∈ events)
    (hid : confirmed.decisionEventId = command.confirmationEventId)
    (hscope : confirmed.case.accessScope.any (scope.sameScopeAs ·))
    (hresult : confirmed.result.candidateConfirmation = some confirmation)
    (hconfirmed : confirmation.disposition = .confirmed)
    (hportfolio : confirmation.portfolioId = some command.portfolioId)
    (hvalid : ∀ reservation ∈ confirmation.reservations, reservation.Valid)
    (hattributed : Attributed ctx ledger scope command confirmation previouslyWithdrawn snapshot
      facts) (hsettlements : List.Forall₂ (fun reservation settlement =>
      settleReservation ctx facts reservation = .ok settlement) confirmation.reservations
        settlements) :
    SavedExecution events command scope
      { reconciledOutcome executionId confirmation facts settlements unassociated with
        declarations := declarations } := by
  have horders : CandidateExecutionOutcome.attributedOrders
      { reconciledOutcome executionId confirmation facts settlements unassociated with
        declarations := declarations } = facts.orders := (zip_attributedOrders hattributed).symm
  -- Each claim is what its reservation was settled with.
  have hclaims : ∀ claim ∈ settlements.filterMap (·.claim), ∃ reservation ∈
      confirmation.reservations, claim.commitmentId = reservation.commitmentId ∧
        (claim.commitmentId ∈ facts.withdrawn → unknownOn facts.orders claim.securityId = false →
          CashOnly claim ∧ ¬fundsKnown facts.command) := by
    intro claim hclaim
    obtain ⟨settlement, hsettlement, hclaim⟩ := List.mem_filterMap.mp hclaim
    obtain ⟨reservation, hreservation, hsettle⟩ := forall₂_mem_right hsettlements hsettlement
    obtain ⟨hclaimId, hsecurity⟩ := settleReservation_claim hsettle hclaim
    refine ⟨reservation, hreservation, hclaimId, fun hwithdrawn hknown => ?_⟩
    rw [hclaimId] at hwithdrawn
    rw [hsecurity] at hknown
    obtain ⟨hcash, hfunds⟩ :=
      (settleReservation_withdrawn hattributed hwithdrawn hknown hsettle).2 claim hclaim
    exact ⟨hcash, hfunds (hvalid reservation hreservation).2.2.2.2.2.2.1⟩
  refine ⟨⟨confirmed, confirmation, hsaved, hid, hscope, hresult, hconfirmed, hportfolio, rfl, ?_,
    ?_⟩, ⟨?_, ?_⟩, ?_⟩
  · exact congrArg (fun c : CandidateExecutionCommand => some c.confirmationEventId)
      hattributed.command_eq
  · intro claim hclaim
    obtain ⟨reservation, hreservation, hclaimId, -⟩ := hclaims claim hclaim
    exact List.mem_map.mpr ⟨reservation, hreservation, hclaimId.symm⟩
  · intro claim hclaim hwithdrawn
    rw [horders]
    obtain ⟨reservation, -, -, hcash⟩ := hclaims claim hclaim
    cases hknown : unknownOn facts.orders claim.securityId with
    | true => exact .inl rfl
    | false => exact .inr (hcash hwithdrawn hknown).1
  · intro row hrow hwithdrawn
    rw [horders]
    obtain ⟨settlement, hsettlement, rfl⟩ := List.mem_map.mp hrow
    obtain ⟨reservation, -, hsettle⟩ := forall₂_mem_right hsettlements hsettlement
    obtain ⟨-, -, -, hrowId, hrowSecurity, -⟩ := settleReservation_inv hsettle
    rw [hrowId] at hwithdrawn
    rw [hrowSecurity]
    cases hknown : unknownOn facts.orders reservation.securityId with
    | true => exact .inl rfl
    | false => exact .inr (settleReservation_withdrawn hattributed hwithdrawn hknown hsettle).1
  · intro _ hfunds claim hclaim hwithdrawn
    rw [horders]
    obtain ⟨reservation, -, -, hcash⟩ := hclaims claim hclaim
    by_contra hknown
    rw [← hattributed.command_eq] at hfunds
    exact (hcash hwithdrawn (Bool.not_eq_true _ ▸ hknown)).2 hfunds

end Saved

section Step

variable {ctx : DecimalContext} {events : List DecisionEventFact} {input : LedgerInput}
  {fact : DecisionEventFact} {scope : ResultAccessScope} {command : CandidateExecutionCommand}
  {confirmed : DecisionEventFact} {confirmation : CandidateConfirmationOutcome}
  {outcome adjudicated : CandidateExecutionOutcome}

/-- The final outcome is the adjudicated one or carries the base executions. -/
theorem finalizeCandidateExecution_inv (hevents : SavedEvents ctx events) {executionId : String}
    {now : Instant} (hsource : executionSource (input.view.ledger events) scope command
      input.businessPrerequisiteMet = some (confirmed, confirmation))
    (hplan : adjudicated.planId = confirmation.planId)
    (h : finalizeCandidateExecution (input.atCommit.ledger events) scope command executionId now
      adjudicated = some outcome) :
    outcome = adjudicated ∨
      Carries (executionBase (input.view.ledger events) scope command confirmation) outcome := by
  obtain ⟨hfound, hresult, -, hconfirmed, -⟩ := executionSource_inv hsource
  obtain ⟨hsaved, hid⟩ := getDecisionEvent_inv hfound
  unfold finalizeCandidateExecution at h
  split at h
  · exact .inl (Option.some.inj h).symm
  · dsimp only at h
    split at h
    · exact .inl (Option.some.inj h).symm
    · obtain ⟨base, hbase, h⟩ := bind_eq_some.mp h
      cases h
      refine .inr ?_
      -- The ledger has the same events at the commit, so the prior execution is the same.
      change (priorExecution (input.view.ledger events) scope command).or _ = some base at hbase
      rw [executionBase]
      cases hprior : priorExecution (input.view.ledger events) scope command with
      | some prior =>
        rw [hprior] at hbase
        cases hbase
        exact carries_blockedFor _ _ _
      | none =>
        rw [hprior, Option.none_or] at hbase
        obtain ⟨confirmed', hfound', hbase⟩ := bind_eq_some.mp hbase
        obtain rfl := Option.some.inj (hfound.symm.trans hfound')
        obtain ⟨confirmation', hresult', hbase⟩ := bind_eq_some.mp hbase
        obtain rfl := Option.some.inj (hresult.symm.trans hresult')
        cases hbase
        have hconfirmationId := confirmationId_of_saved hevents hsaved hresult hconfirmed
        rw [hid] at hconfirmationId
        exact ⟨nofun, hplan, hconfirmationId.symm, rfl, rfl, rfl, rfl, rfl⟩

theorem planId_of_saved (hevents : SavedEvents ctx events) (hsaved : confirmed ∈ events)
    (hresult : confirmed.result.candidateConfirmation = some confirmation)
    (hconfirmed : confirmation.disposition = .confirmed) : confirmation.planId ≠ none := by
  obtain ⟨command, scope, plan, prior, -, -, -, hplan, -, hconfirms⟩ :=
    hevents.confirmations confirmed hsaved confirmation hresult hconfirmed
  rw [hconfirms.planId, hplan.planId_eq]
  exact Option.some_ne_none _

/-- What a command commits continues what it started from. -/
structure Continued (events : List DecisionEventFact) (command : CandidateExecutionCommand)
    (scope : ResultAccessScope) (base outcome : CandidateExecutionOutcome) : Prop where
  saved : Unsourced outcome ∨ SavedExecution events command scope outcome
  withdrawn : base.withdrawnReservationIds ⊆ outcome.withdrawnReservationIds
  planId : base.planId ≠ none → outcome.planId ≠ none

/-- An execution is committed as it was adjudicated and rechecked, under its own identity. -/
theorem execution_of_commitFact (h : commitFact ctx events input = some fact)
    (houtcome : fact.result.candidateExecution = some outcome) :
    fact.correctsEventId = none ∧ fact.case = input.case ∧
      commitExecution ctx events input = some outcome := by
  obtain ⟨-, hcase, hcommitted, horiginal⟩ := committed_of_commitFact h
  refine ⟨(horiginal (.inr (.inr (by rw [houtcome]; exact Option.some_ne_none _)))).2, hcase, ?_⟩
  cases hcommitted with
  | allocation plan hresult hplan hlegs =>
    rw [hresult] at houtcome
    exact nomatch houtcome
  | confirmation services atCommit handoffEvidence saved hresult hcommit =>
    rw [hresult] at houtcome
    exact nomatch houtcome
  | execution saved hresult hcommit =>
    rw [hresult] at houtcome
    exact Option.some.inj houtcome ▸ hcommit
  | other hallocation hconfirmation hexecution =>
    rw [hexecution] at houtcome
    exact nomatch houtcome

/-- A committed execution reports no source, or continues its base. -/
theorem commitExecution_inv (hevents : SavedHistory ctx events)
    (h : commitExecution ctx events input = some outcome) :
    outcome = sourceUnavailable ∨ ∃ command scope confirmation,
      input.case.candidateExecution = some command ∧ input.case.accessScope = some scope ∧
      Continued events command scope
        (executionBase (input.view.ledger events) scope command confirmation) outcome := by
  simp only [commitExecution, bind_eq_some] at h
  obtain ⟨command, hcommand, scope, hscope, adjudicated, hadjudicated, hfinalize⟩ := h
  simp only [adjudicateCandidateExecution, bind_eq_some]
    at hadjudicated
  obtain ⟨command', hcommand', scope', hscope', hadjudicated⟩ := hadjudicated
  obtain rfl := Option.some.inj (hcommand.symm.trans hcommand')
  obtain rfl := Option.some.inj (hscope.symm.trans hscope')
  cases hsource : executionSource (input.view.ledger events) scope command
      input.businessPrerequisiteMet with
  | none =>
    rw [hsource] at hadjudicated
    cases hadjudicated
    exact .inl (Option.some.inj hfinalize).symm
  | some source =>
    obtain ⟨confirmed, confirmation⟩ := source
    rw [hsource] at hadjudicated
    refine .inr ⟨command, scope, confirmation, hcommand, hscope, ?_⟩
    set base := executionBase (input.view.ledger events) scope command confirmation
    have hcontinued (hcarries : Carries base outcome) :
        Continued events command scope base outcome := by
      refine ⟨?_, fun id hid => hcarries.withdrawn ▸ hid, fun hplan => hcarries.planId ▸ hplan⟩
      rcases @savedExecution_base ctx (input.view.ledger events) _ _ _ _ _ hevents hsource with
        hunsourced | ⟨hexecutes, hkeeps⟩
      · exact .inl (hunsourced.carries hcarries)
      · exact .inr (savedExecution_carries hexecutes hkeeps hcarries)
    by_cases hreconciled : adjudicated.disposition = .reconciled
    · obtain ⟨-, reconciled, hreconcile, -, rfl⟩ :=
        reconciled_executeCandidates hadjudicated hreconciled
      obtain ⟨source, snapshot, facts, settlements, unassociated, -, -, hattributed, hsettlements,
        -, rfl⟩ := reconcileExecution_inv hreconcile
      rcases finalizeCandidateExecution_inv hevents.toSavedEvents hsource rfl hfinalize with
        rfl | hcarries
      · obtain ⟨hfound, hresult, hsourceScope, hconfirmed, hportfolio⟩ :=
          executionSource_inv hsource
        obtain ⟨hsaved, hid⟩ := getDecisionEvent_inv hfound
        refine ⟨.inr (savedExecution_reconciled hsaved hid hsourceScope hresult hconfirmed
          hportfolio (hevents.valid confirmed hsaved confirmation hresult hconfirmed) hattributed
          hsettlements), fun id hwithdrawn => ?_, fun _ => planId_of_saved hevents.toSavedEvents
            hsaved hresult hconfirmed⟩
        change id ∈ facts.withdrawn
        rw [hattributed.withdrawn, withdrawnIds, mem_sortedSet]
        exact List.mem_append_right _ hwithdrawn
      · exact hcontinued hcarries
    · have hcarries := (carries_executeCandidates hadjudicated).resolve_left hreconciled
      rw [finalizeCandidateExecution, if_pos hreconciled] at hfinalize
      cases hfinalize
      exact hcontinued hcarries

/-- A reservation is one of those before, or passes its contract. -/
theorem valid_of_reserve {eventId : String} {prior : Option CandidateConfirmationOutcome}
    {row : CandidateAllocationRow} {leg : AcquisitionLeg} {reservation : AllocationCommitment}
    (h : reserve ctx eventId (retainedReservations prior) row leg = .ok reservation) :
    reservation ∈ prior.elim [] (·.reservations) ∨ reservation.Valid := by
  cases hget : (retainedReservations prior).get? (acceptedLegKey (row, leg)) with
  | some before =>
    obtain rfl := reserve_retained h hget
    exact .inl (mem_of_retained hget).1
  | none =>
    change (retainedReservations prior).get? (row.candidate.securityId, leg.route.accountId) =
      none at hget
    unfold reserve at h
    dsimp only at h
    rw [hget] at h
    dsimp only at h
    split at h
    · split at h
      · rename_i hvalid
        exact .inr (Except.ok.inj h ▸ hvalid)
      · cases h
    · cases h

/-- The reservations of a new confirmation pass their contract. -/
theorem valid_of_commitFact (hevents : SavedHistory ctx events)
    (h : commitFact ctx events input = some fact) {outcome : CandidateConfirmationOutcome}
    (houtcome : fact.result.candidateConfirmation = some outcome)
    (hconfirmed : outcome.disposition = .confirmed) :
    ∀ reservation ∈ outcome.reservations, reservation.Valid := by
  intro reservation hreservation
  have hfact : fact ∈ events ++ [fact] := List.mem_append_right _ (List.mem_singleton_self _)
  obtain ⟨command, -, -, -, hcommand, -⟩ :=
    (savedEvents_append hevents.toSavedEvents h).confirmations fact hfact outcome
      houtcome hconfirmed
  rw [(committed_of_commitFact h).2.1] at hcommand
  have hof := @confirmationOf_of_commitFact ctx _ _ _ (command, outcome) hevents.toSavedEvents h
    hcommand houtcome hconfirmed
  obtain ⟨scope, plan, -, -, hconfirms⟩ := confirms_of_commitFact hevents.toSavedEvents h hof
  obtain ⟨entry, -, hreserve⟩ := forall₂_mem_right hconfirms.reservations hreservation
  rcases valid_of_reserve hreserve with hbefore | hvalid
  · -- It is kept from the confirmation before, whose reservations pass.
    cases hlast : (confirmationsOf command.planId events).getLast? with
    | none =>
      rw [hlast] at hbefore
      exact nomatch hbefore
    | some previous =>
      rw [hlast] at hbefore
      obtain ⟨saved, hsaved, hofPrevious⟩ := List.mem_filterMap.mp (List.mem_of_getLast? hlast)
      obtain ⟨-, -, hprevious, hpreviousConfirmed, -⟩ := confirmationOf_eq_some.mp hofPrevious
      exact hevents.valid saved hsaved previous.2 hprevious hpreviousConfirmed reservation hbefore
  · exact hvalid

/-- One commit keeps the saved executions in a history. -/
theorem savedHistory_append (hevents : SavedHistory ctx events)
    (h : commitFact ctx events input = some fact) : SavedHistory ctx (events ++ [fact]) := by
  refine { savedEvents_append hevents.toSavedEvents h with valid := ?_, executions := ?_ }
  · intro other hother outcome houtcome hconfirmed
    rcases List.mem_append.mp hother with hother | hother
    · exact hevents.valid other hother outcome houtcome hconfirmed
    · obtain rfl := List.mem_singleton.mp hother
      exact valid_of_commitFact hevents h houtcome hconfirmed
  · intro other hother outcome houtcome
    rcases List.mem_append.mp hother with hother | hother
    · rcases hevents.executions other hother outcome houtcome with
        hunsourced | ⟨command, scope, hcommand, hscope, hcorrects, hsaved⟩
      · exact .inl hunsourced
      · exact .inr ⟨command, scope, hcommand, hscope, hcorrects, hsaved.mono⟩
    · obtain rfl := List.mem_singleton.mp hother
      obtain ⟨hcorrects, hcase, hcommit⟩ := execution_of_commitFact h houtcome
      rcases commitExecution_inv hevents hcommit with
        rfl | ⟨command, scope, confirmation, hcommand, hscope, hcontinued⟩
      · exact .inl ⟨rfl, rfl, rfl, rfl⟩
      · refine hcontinued.saved.imp_right fun hsaved => ?_
        exact ⟨command, scope, hcase ▸ hcommand, hcase ▸ hscope, hcorrects, hsaved.mono⟩

theorem savedHistory_outcomes {run : List (HistoryStep LedgerInput DecisionEventFact)}
    (h : HistoryRun (fun events input fact => commitFact ctx events input = some fact) run) :
    SavedHistory ctx (outcomes run) := by
  induction h with
  | nil => exact { savedEvents_outcomes .nil with
      valid := fun _ h => absurd h List.not_mem_nil
      executions := fun _ h => absurd h List.not_mem_nil }
  | snoc h hstep ih =>
    rw [outcomes_append, outcomes_singleton]
    exact savedHistory_append ih hstep

end Step

end StockProfiler.DecisionCases
