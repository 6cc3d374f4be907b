import StockProfiler.DecisionCases.Withdrawals

/-!
# What is never forgotten about a withdrawal

The executions of a confirmation remember its withdrawals one from the other, and a
new allocation reads the last of them.
-/

namespace StockProfiler.DecisionCases

open PositionManagement Portfolio

/-- The execution of a confirmation by an owner on a portfolio that an event saves. -/
def executionOf (scope : ResultAccessScope) (portfolioId confirmationEventId : String)
    (fact : DecisionEventFact) : Option CandidateExecutionOutcome := do
  guard (fact.correctsEventId = none ∧ fact.case.accessScope.any (·.sameOwnerAs scope) ∧
    fact.case.candidateExecution.any fun command => command.portfolioId = portfolioId ∧
      command.confirmationEventId = confirmationEventId)
  fact.result.candidateExecution

/-- The executions of a confirmation by an owner on a portfolio, in order. -/
def executionsOf (scope : ResultAccessScope) (portfolioId confirmationEventId : String)
    (events : List DecisionEventFact) : List CandidateExecutionOutcome :=
  events.filterMap (executionOf scope portfolioId confirmationEventId)

/-- A later execution knows what an earlier one has withdrawn. -/
structure Remembers (prior next : CandidateExecutionOutcome) : Prop where
  withdrawn : prior.withdrawnReservationIds ⊆ next.withdrawnReservationIds
  planId : prior.planId ≠ none → next.planId ≠ none

section Memory

variable {ctx : DecimalContext} {events : List DecisionEventFact} {input : LedgerInput}
  {fact : DecisionEventFact} {scope : ResultAccessScope}
  {portfolioId confirmationEventId : String} {outcome : CandidateExecutionOutcome}

theorem executionOf_eq_some : executionOf scope portfolioId confirmationEventId fact =
    some outcome ↔ fact.correctsEventId = none ∧ fact.case.accessScope.any (·.sameOwnerAs scope) ∧
      (fact.case.candidateExecution.any fun command => command.portfolioId = portfolioId ∧
        command.confirmationEventId = confirmationEventId) ∧
      fact.result.candidateExecution = some outcome := by
  simp only [executionOf, bind_eq_some, Option.guard_eq_some']
  constructor
  · rintro ⟨⟨⟩, ⟨hcorrects, howner, hcommand⟩, houtcome⟩
    exact ⟨hcorrects, howner, hcommand, houtcome⟩
  · rintro ⟨hcorrects, howner, hcommand, houtcome⟩
    exact ⟨⟨⟩, ⟨hcorrects, howner, hcommand⟩, houtcome⟩

/-- The prior execution of a command is the last one of its confirmation. -/
theorem priorExecution_eq (ledger : DecisionLedger) (scope : ResultAccessScope)
    (command : CandidateExecutionCommand) : priorExecution ledger scope command =
      (executionsOf scope command.portfolioId command.confirmationEventId
        ledger.events).getLast? := by
  rw [executionsOf, ← latest_eq_getLast?, priorExecution,
    DecisionLedger.candidateExecutionHistory, DecisionLedger.originalEventFacts,
    List.filter_filter, ← List.filter_reverse, List.find?_filter]
  refine bind_find?_reverse (fun fact _ => ?_) (fun fact _ hfact => ?_)
  · simp only [Bool.decide_and, Bool.and_eq_true, decide_eq_true_eq, Option.all_some]
    cases hof : executionOf scope command.portfolioId command.confirmationEventId fact with
    | none =>
      refine (if_neg ?_).symm
      rintro ⟨⟨⟨howner, hportfolio, hsome⟩, hcorrects⟩, hnamed⟩
      obtain ⟨outcome, houtcome⟩ := Option.isSome_iff_exists.mp hsome
      obtain ⟨saved, hsaved, hportfolio⟩ := (Option.any_eq_true _ _).mp hportfolio
      rw [hsaved] at hnamed
      have hcommand : fact.case.candidateExecution.any fun other =>
          other.portfolioId = command.portfolioId ∧
            other.confirmationEventId = command.confirmationEventId := by
        rw [hsaved]
        exact decide_eq_true ⟨of_decide_eq_true hportfolio, of_decide_eq_true hnamed⟩
      rw [executionOf_eq_some.mpr ⟨hcorrects, howner, hcommand, houtcome⟩] at hof
      cases hof
    | some outcome =>
      obtain ⟨hcorrects, howner, hcommand, houtcome⟩ := executionOf_eq_some.mp hof
      obtain ⟨saved, hsaved, hcommand⟩ := (Option.any_eq_true _ _).mp hcommand
      obtain ⟨hportfolio, hnamed⟩ := of_decide_eq_true hcommand
      refine houtcome.symm.trans (if_pos ⟨⟨⟨howner, ?_, ?_⟩, hcorrects⟩, ?_⟩).symm
      · rw [hsaved]
        exact decide_eq_true hportfolio
      · rw [houtcome]
        rfl
      · rw [hsaved]
        exact decide_eq_true hnamed
  · simp only [Bool.decide_and, Bool.and_eq_true, decide_eq_true_eq] at hfact
    exact hfact.1.1.2.2

theorem executionOf_congr {other : ResultAccessScope} (h : other.sameOwnerAs scope) :
    executionOf other portfolioId confirmationEventId =
      executionOf scope portfolioId confirmationEventId := by
  obtain ⟨huser, hvisibility⟩ : other.userId = scope.userId ∧ other.visibility = scope.visibility :=
    of_decide_eq_true h
  ext fact outcome
  simp only [executionOf_eq_some, ResultAccessScope.sameOwnerAs, huser, hvisibility]

theorem Remembers.trans {a b c : CandidateExecutionOutcome} (hab : Remembers a b)
    (hbc : Remembers b c) : Remembers a c :=
  ⟨fun _ h => hbc.withdrawn (hab.withdrawn h), fun h => hbc.planId (hab.planId h)⟩

/-- An execution finds no source, or knows what the one before it has withdrawn. -/
theorem remembers_of_commitFact (hevents : SavedHistory ctx events)
    (h : commitFact ctx events input = some fact)
    (hof : executionOf scope portfolioId confirmationEventId fact = some outcome)
    {prior : CandidateExecutionOutcome}
    (hprior : (executionsOf scope portfolioId confirmationEventId events).getLast? = some prior) :
    outcome = sourceUnavailable ∨ Remembers prior outcome := by
  obtain ⟨-, howner, hcommand, houtcome⟩ := executionOf_eq_some.mp hof
  obtain ⟨-, hcase, hcommit⟩ := execution_of_commitFact h houtcome
  refine (commitExecution_inv hevents hcommit).imp_right ?_
  rintro ⟨command, scope', confirmation, hcommand', hscope', hcontinued⟩
  rw [hcase, hcommand'] at hcommand
  rw [hcase, hscope'] at howner
  obtain ⟨rfl, rfl⟩ := of_decide_eq_true hcommand
  rw [executionsOf, ← executionOf_congr howner, ← executionsOf] at hprior
  have hbase : executionBase (input.view.ledger events) scope' command confirmation = prior := by
    have heq := priorExecution_eq (input.view.ledger events) scope' command
    rw [executionBase, heq]
    change (executionsOf scope' command.portfolioId command.confirmationEventId
      events).getLast?.getD _ = prior
    rw [hprior]
    rfl
  rw [hbase] at hcontinued
  exact ⟨hcontinued.withdrawn, hcontinued.planId⟩

/-- Along a run each execution of a confirmation finds no source, or knows what the one before
it has withdrawn. -/
theorem isChain_executionsOf {run : List (HistoryStep LedgerInput DecisionEventFact)}
    (h : HistoryRun (fun events input fact => commitFact ctx events input = some fact) run) :
    (executionsOf scope portfolioId confirmationEventId (outcomes run)).IsChain
      fun prior next => next = sourceUnavailable ∨ Remembers prior next := by
  induction h with
  | nil => exact List.IsChain.nil
  | @snoc run input fact h hstep ih =>
    rw [outcomes_append, outcomes_singleton, executionsOf, List.filterMap_append, ← executionsOf]
    cases hof : executionOf scope portfolioId confirmationEventId fact with
    | none =>
      rw [List.filterMap_cons_none hof, List.filterMap_nil, List.append_nil]
      exact ih
    | some outcome =>
      rw [List.filterMap_cons_some hof, List.filterMap_nil, List.isChain_append]
      refine ⟨ih, List.IsChain.singleton _, fun prior hprior next hnext => ?_⟩
      obtain rfl := Option.mem_some.mp hnext
      exact remembers_of_commitFact (savedHistory_outcomes h) hstep hof hprior

/-- Executions that all found their source know what the first of them has withdrawn. -/
theorem remembers_of_isChain {first : CandidateExecutionOutcome}
    {later : List CandidateExecutionOutcome}
    (h : (first :: later).IsChain fun prior next => next = sourceUnavailable ∨ Remembers prior next)
    (hsourced : sourceUnavailable ∉ later) : ∀ next ∈ later, Remembers first next := by
  induction later generalizing first with
  | nil => exact fun next hnext => nomatch hnext
  | cons second later ih =>
    rw [List.isChain_cons_cons] at h
    obtain ⟨hfirst, hrest⟩ := h
    have hsecond : Remembers first second :=
      hfirst.resolve_left fun heq => hsourced (heq ▸ List.mem_cons_self)
    intro next hnext
    rcases List.mem_cons.mp hnext with rfl | hnext
    · exact hsecond
    · exact hsecond.trans (ih hrest (fun hmem => hsourced (List.mem_cons_of_mem _ hmem)) next hnext)

end Memory

section Allocation

variable {execution : CandidateExecutionOutcome} {ctx : DecimalContext} {ledger : DecisionLedger}
  {scope : ResultAccessScope} {portfolioId confirmationEventId : String} {planId : Option String}
  {confirmation : CandidateConfirmationOutcome}

theorem latestConfirmations_inv
    (h : (latestConfirmations ledger scope portfolioId).get? planId = some confirmation) :
    confirmation.planId = planId ∧ ∃ fact ∈ ledger.events,
      fact.result.candidateConfirmation = some confirmation ∧
      confirmation.disposition = .confirmed := by
  obtain ⟨fact, hfact, hentry⟩ := List.mem_filterMap.mp (Dict.mem_ofLast (Dict.mem_of_get? h))
  obtain ⟨saved, hsaved, hkey⟩ := Option.map_eq_some_iff.mp hentry
  obtain ⟨rfl, rfl⟩ := Prod.mk.inj hkey
  obtain ⟨hfact, htest⟩ := List.mem_filter.mp hfact
  have hconfirmed := (of_decide_eq_true htest).2.2
  rw [hsaved] at hconfirmed
  refine ⟨rfl, fact, List.mem_of_mem_filter hfact, hsaved, ?_⟩
  exact (of_decide_eq_true hconfirmed).resolve_left (Bool.false_ne_true)

/-- An execution that lists a withdrawal has found its source. -/
theorem savedExecution_of_withdrawn (hevents : SavedHistory ctx ledger.events)
    {outcome : CandidateExecutionOutcome}
    (hmem : outcome ∈ executionsOf scope portfolioId confirmationEventId ledger.events)
    {id : String} (hwithdrawn : id ∈ outcome.withdrawnReservationIds) :
    outcome.planId ≠ none ∧ KeepsWithdrawn outcome := by
  obtain ⟨fact, hfact, hof⟩ := List.mem_filterMap.mp hmem
  obtain ⟨-, -, -, houtcome⟩ := executionOf_eq_some.mp hof
  rcases hevents.executions fact hfact outcome houtcome with
    hunsourced | ⟨command, scope', -, -, -, ⟨confirmed, confirmation, hexecutes⟩, hkeeps, -⟩
  · rw [hunsourced.withdrawn] at hwithdrawn
    exact nomatch hwithdrawn
  · rw [hexecutes.planId]
    exact ⟨planId_of_saved hevents.toSavedEvents hexecutes.saved hexecutes.result
      hexecutes.confirmed, hkeeps⟩

/-- No order of a resolved execution has an unknown cause. -/
theorem unknownOn_of_resolved {securityId : String} (hresolved : executionResolved execution) :
    ¬unknownOn (CandidateExecutionOutcome.attributedOrders execution) securityId := by
  intro hunknown
  simp only [executionResolved, Bool.not_eq_true', decide_eq_true_eq] at hresolved
  obtain ⟨p, hp, htest⟩ := List.any_eq_true.mp hunknown
  refine List.any_eq_false.mp hresolved.2.2.1 p.2 (List.of_mem_zip hp).2 ?_
  exact decide_eq_true (of_decide_eq_true htest).2

section Latest

variable (hevents : SavedHistory ctx ledger.events)
  (hlatest : (latestConfirmations ledger scope portfolioId).get? planId = some confirmation)
  (hid : confirmation.confirmationId = some confirmationEventId)
include hevents hlatest hid

/-- An execution that counts for a plan is one of its latest confirmation that found its source. -/
theorem executionOf_of_current {fact : DecisionEventFact} (hfact : fact ∈ ledger.events)
    (hcorrects : fact.correctsEventId = none)
    (howner : fact.case.accessScope.any (·.sameOwnerAs scope))
    (hportfolio : fact.case.candidateExecution.any (·.portfolioId = portfolioId))
    (h : currentExecution ledger scope portfolioId fact = some (planId, execution)) :
    executionOf scope portfolioId confirmationEventId fact = some execution ∧
      execution.planId ≠ none := by
  obtain ⟨hsaved, rfl, other, hother, hsame⟩ := currentExecution_eq_some.mp h
  obtain rfl := Option.some.inj (hother.symm.trans hlatest)
  obtain ⟨hplan, confirmed, hconfirmed, hresult, hdisposition⟩ := latestConfirmations_inv hlatest
  have hsourced : execution.planId ≠ none :=
    hplan ▸ planId_of_saved hevents.toSavedEvents hconfirmed hresult hdisposition
  refine ⟨executionOf_eq_some.mpr ⟨hcorrects, howner, ?_, hsaved⟩, hsourced⟩
  rcases hevents.executions fact hfact execution hsaved with hunsourced | hexecution
  · exact absurd hunsourced.planId hsourced
  · obtain ⟨command, scope', hcommand, -, -, ⟨_, _, hexecutes⟩, -, -⟩ := hexecution
    rw [hcommand] at hportfolio ⊢
    have hnamed := (hexecutes.confirmationId.symm.trans hsame).trans hid
    exact decide_eq_true ⟨of_decide_eq_true hportfolio, Option.some.inj hnamed⟩

/-- An execution of the latest confirmation of a plan that found its source counts for it. -/
theorem current_of_executionOf {fact : DecisionEventFact} (hfact : fact ∈ ledger.events)
    (h : executionOf scope portfolioId confirmationEventId fact = some execution)
    (hsourced : execution.planId ≠ none) :
    currentExecution ledger scope portfolioId fact = some (planId, execution) := by
  obtain ⟨-, -, hnamed, hsaved⟩ := executionOf_eq_some.mp h
  obtain ⟨hplan, confirmed, hconfirmed, hresult, hdisposition⟩ := latestConfirmations_inv hlatest
  have hconfirmationId :=
    confirmationId_of_saved hevents.toSavedEvents hconfirmed hresult hdisposition
  have heventId : confirmed.decisionEventId = confirmationEventId :=
    Option.some.inj (hconfirmationId.symm.trans hid)
  obtain hunsourced | ⟨command, scope', hcommand, -, -, ⟨saved, savedConfirmation, hexecutes⟩, -,
      -⟩ :=
    hevents.executions fact hfact execution hsaved
  · exact absurd hunsourced.planId hsourced
  · rw [hcommand] at hnamed
    have hnamed : command.confirmationEventId = confirmationEventId :=
      (of_decide_eq_true hnamed).2
    -- The confirmation that was executed is the latest one, as events have distinct identities.
    obtain rfl := List.inj_on_of_nodup_map hevents.ids hexecutes.saved hconfirmed
      ((hexecutes.eventId.trans hnamed).trans heventId.symm)
    obtain rfl := Option.some.inj (hexecutes.result.symm.trans hresult)
    refine currentExecution_eq_some.mpr ⟨hsaved, hexecutes.planId.trans hplan, _, hlatest, ?_⟩
    rw [hexecutes.confirmationId, hnamed, hid]

/-- The execution that counts for a plan is the last one of its latest confirmation that found
its source. -/
theorem currentExecutions_get? : (currentExecutions ledger scope portfolioId).get? planId =
    ((executionsOf scope portfolioId confirmationEventId ledger.events).filter
      (·.planId ≠ none)).getLast? := by
  rw [currentExecutions, Dict.get?_ofLast_eq_getLast?]
  congr 1
  rw [Dict.valuesOf, DecisionLedger.candidateExecutionHistory, DecisionLedger.originalEventFacts,
    executionsOf, List.filter_filter, List.filterMap_filterMap, List.filterMap_filter,
    List.filter_filterMap]
  refine List.filterMap_congr fun fact hfact => Option.ext fun execution => ?_
  simp only [Option.ite_none_right_eq_some, Bool.and_eq_true, decide_eq_true_eq,
    Option.bind_eq_some_iff, Option.some.injEq, Option.filter_eq_some_iff, Option.all_some]
  constructor
  · rintro ⟨⟨⟨howner, hportfolio, -⟩, hcorrects⟩, ⟨_, _⟩, hcurrent, rfl, rfl⟩
    exact executionOf_of_current hevents hlatest hid hfact hcorrects howner hportfolio hcurrent
  · rintro ⟨hof, hsourced⟩
    obtain ⟨hcorrects, howner, hcommand, hsaved⟩ := executionOf_eq_some.mp hof
    obtain ⟨command, hcommand, hnamed⟩ := (Option.any_eq_true _ _).mp hcommand
    refine ⟨⟨⟨howner, ?_, ?_⟩, hcorrects⟩, (planId, execution),
      current_of_executionOf hevents hlatest hid hfact hof hsourced, rfl, rfl⟩
    · rw [hcommand]
      exact decide_eq_true (of_decide_eq_true hnamed).1
    · rw [hsaved]
      rfl

/-- While its confirmation is the latest one, an allocation that nothing prevents takes at most a
cash hold for what was withdrawn. -/
theorem cashOnly_of_allocationBasis {command : CandidateAllocationCommand}
    {savedAllocationInputsChanged : Bool} {exclude : Option String} {basis : AllocationBasis}
    (hportfolio : command.riskHandoff.portfolioId = portfolioId)
    (h : allocationBasis ledger command scope savedAllocationInputsChanged exclude = .ok basis)
    {first : CandidateExecutionOutcome} {earlier later : List CandidateExecutionOutcome}
    (hexecutions : executionsOf scope portfolioId confirmationEventId ledger.events =
      earlier ++ first :: later) (hremembers : ∀ next ∈ later, Remembers first next)
    {claim : AllocationCommitment}
    (hclaim : claim ∈ planClaims ledger scope portfolioId confirmation)
    (hwithdrawn : claim.commitmentId ∈ first.withdrawnReservationIds) : CashOnly claim := by
  subst hportfolio
  have hfirst : first ∈ executionsOf scope command.riskHandoff.portfolioId confirmationEventId
      ledger.events := by
    rw [hexecutions]
    exact List.mem_append_right _ List.mem_cons_self
  have hsourced := (savedExecution_of_withdrawn hevents hfirst hwithdrawn).1
  -- The last execution since then is the one that counts for the plan.
  obtain hnil | ⟨init, last, hlast⟩ := List.eq_nil_or_concat (first :: later)
  · exact absurd hnil (List.cons_ne_nil _ _)
  rw [List.concat_eq_append] at hlast
  have hknows : Remembers first last := by
    have hmem : last ∈ first :: later := hlast ▸ List.mem_append_right _ (List.mem_singleton_self _)
    rcases List.mem_cons.mp hmem with rfl | hmem
    · exact ⟨fun _ h => h, id⟩
    · exact hremembers last hmem
  have hmem : last ∈ executionsOf scope command.riskHandoff.portfolioId confirmationEventId
      ledger.events := by
    rw [hexecutions, hlast]
    exact List.mem_append_right _ (List.mem_append_right _ (List.mem_singleton_self _))
  have hcounts : (currentExecutions ledger scope command.riskHandoff.portfolioId).get? planId =
      some last := by
    have hpasses : [last].filter (·.planId ≠ none) = [last] :=
      List.filter_eq_self.mpr fun other hother =>
        List.mem_singleton.mp hother ▸ decide_eq_true (hknows.planId hsourced)
    rw [currentExecutions_get? hevents hlatest hid, hexecutions, hlast, ← List.append_assoc,
      List.filter_append, hpasses, List.getLast?_concat]
  rw [planClaims, (latestConfirmations_inv hlatest).1, hcounts] at hclaim
  have hkeeps := (savedExecution_of_withdrawn hevents hmem (hknows.withdrawn hwithdrawn)).2
  refine (hkeeps.claims claim hclaim (hknows.withdrawn hwithdrawn)).resolve_left fun hunknown => ?_
  have hresolved := (allocationBasis_inv h).1 _ (Dict.mem_of_get? hcounts)
  exact unknownOn_of_resolved hresolved hunknown

end Latest

end Allocation

/-- Only an execution of the latest confirmation of its plan is reconciled. -/
theorem latestConfirmation_of_reconciled {ctx : DecimalContext} {events : List DecisionEventFact}
    {input : LedgerInput} {outcome : CandidateExecutionOutcome} (hevents : SavedHistory ctx events)
    (h : commitExecution ctx events input = some outcome)
    (hreconciled : outcome.disposition = .reconciled) :
    ∃ command scope planId, input.case.candidateExecution = some command ∧
      input.case.accessScope = some scope ∧ outcome.planId = some planId ∧
      (latestConfirmation (input.view.ledger events) scope command.portfolioId planId).any
        (·.decisionEventId = command.confirmationEventId) := by
  simp only [commitExecution, bind_eq_some] at h
  obtain ⟨command, hcommand, scope, hscope, adjudicated, hadjudicated, hfinalize⟩ := h
  have hbefore : adjudicated.disposition = .reconciled := by
    by_contra hne
    rw [finalizeCandidateExecution, if_pos hne] at hfinalize
    exact hne (Option.some.inj hfinalize ▸ hreconciled)
  obtain ⟨command', scope', confirmed, confirmation, hcommand', hscope', hsource, hexecute⟩ :=
    reconciled_adjudicate hadjudicated hbefore
  obtain rfl := Option.some.inj (hcommand.symm.trans hcommand')
  obtain rfl := Option.some.inj (hscope.symm.trans hscope')
  obtain ⟨hcontinues, reconciled, hreconcile, -, rfl⟩ :=
    reconciled_executeCandidates hexecute hbefore
  obtain ⟨source, snapshot, facts, settlements, unassociated, -, -, -, -, -, rfl⟩ :=
    reconcileExecution_inv hreconcile
  have houtcome := (finalizeCandidateExecution_inv hevents.toSavedEvents hsource rfl
    hfinalize).resolve_right fun hcarries => hcarries.disposition hreconciled
  obtain ⟨hfound, hresult, -, hconfirmed, -⟩ := executionSource_inv hsource
  obtain ⟨planId, hplan⟩ := Option.ne_none_iff_exists'.mp
    (planId_of_saved hevents.toSavedEvents (getDecisionEvent_inv hfound).1 hresult hconfirmed)
  refine ⟨command, scope, planId, hcommand, hscope, ?_, ?_⟩
  · rw [houtcome]
    exact hplan
  · simp only [checkContinues, bind_eq_ok, require_eq_ok] at hcontinues
    obtain ⟨⟨⟩, -, ⟨⟩, -, hlatest⟩ := hcontinues
    rw [hplan] at hlatest
    exact hlatest

/-- **Withdrawn for good.** Saved executions keep at most cash holds for what was withdrawn, unless
the cause of an order is unknown; only the latest confirmation of a plan is reconciled; later
executions of a confirmation remember its withdrawals; and while it is the latest one, an
allocation takes at most cash holds for them. -/
theorem ledgerRun_withdrawals (ctx : DecimalContext) (inputs : List LedgerInput) :
    let events := ledgerEvents ctx inputs
    (∀ fact ∈ events, ∀ outcome, fact.result.candidateExecution = some outcome →
      Unsourced outcome ∨ ∃ command scope, fact.case.candidateExecution = some command ∧
        fact.case.accessScope = some scope ∧ SavedExecution events command scope outcome) ∧
    (∀ e ∈ traceSome (commitFact ctx) inputs, ∀ outcome,
      e.outcome.result.candidateExecution = some outcome → outcome.disposition = .reconciled →
        ∃ command scope planId, e.input.case.candidateExecution = some command ∧
          e.input.case.accessScope = some scope ∧ outcome.planId = some planId ∧
          (latestConfirmation (e.input.view.ledger e.before) scope command.portfolioId planId).any
            (·.decisionEventId = command.confirmationEventId)) ∧
    ∀ scope portfolioId confirmationEventId earlier outcome later,
      executionsOf scope portfolioId confirmationEventId events = earlier ++ outcome :: later →
      sourceUnavailable ∉ later →
        (∀ next ∈ later, outcome.withdrawnReservationIds ⊆ next.withdrawnReservationIds) ∧
        ∀ (view : LedgerView) planId confirmation,
          (latestConfirmations (view.ledger events) scope portfolioId).get? planId =
            some confirmation → confirmation.confirmationId = some confirmationEventId →
          ∀ (command : CandidateAllocationCommand) savedAllocationInputsChanged exclude basis,
            command.riskHandoff.portfolioId = portfolioId →
            allocationBasis (view.ledger events) command scope savedAllocationInputsChanged
              exclude = .ok basis →
            (∀ claim ∈ planClaims (view.ledger events) scope portfolioId confirmation,
              claim.commitmentId ∈ outcome.withdrawnReservationIds → CashOnly claim) ∧
            ∀ commitment ∈ basis.commitments, commitment ∈ command.commitments ∨
              (∃ entry ∈ latestConfirmations (view.ledger events) scope portfolioId,
                commitment ∈ planClaims (view.ledger events) scope portfolioId entry.2) ∨
              commitment ∈ unassociatedClaims (view.ledger events) scope portfolioId := by
  have hrun := historyRun_traceSome (commitFact ctx) inputs
  have hevents := savedHistory_outcomes hrun
  refine ⟨fun fact hfact outcome houtcome => ?_, fun e he outcome houtcome hreconciled => ?_, ?_⟩
  · refine (hevents.executions fact hfact outcome houtcome).imp_right ?_
    rintro ⟨command, scope, hcommand, hscope, -, hsaved⟩
    exact ⟨command, scope, hcommand, hscope, hsaved⟩
  · have hbefore : SavedHistory ctx e.before :=
      hrun.forall_mem (P := fun e => SavedHistory ctx e.before)
        (fun h _ _ => savedHistory_outcomes h) e he
    obtain ⟨-, -, hcommit⟩ := execution_of_commitFact (hrun.step_of_mem he) houtcome
    exact latestConfirmation_of_reconciled hbefore hcommit hreconciled
  · intro scope portfolioId confirmationEventId earlier outcome later hexecutions hsourced
    have hchain := @isChain_executionsOf ctx scope portfolioId confirmationEventId _ hrun
    change (executionsOf scope portfolioId confirmationEventId
      (ledgerEvents ctx inputs)).IsChain _ at hchain
    rw [hexecutions, List.isChain_append] at hchain
    have hremembers := remembers_of_isChain hchain.2.1 hsourced
    refine ⟨fun next hnext => (hremembers next hnext).withdrawn, ?_⟩
    rintro view planId confirmation hlatest hid command changed exclude basis rfl hbasis
    refine ⟨fun claim hclaim hwithdrawn => ?_, fun commitment hcommitment => ?_⟩
    · exact @cashOnly_of_allocationBasis ctx (view.ledger (ledgerEvents ctx inputs))
        scope _ _ planId
        confirmation hevents hlatest hid command changed exclude basis rfl hbasis outcome earlier
        later hexecutions hremembers claim hclaim hwithdrawn
    · rw [(allocationBasis_inv hbasis).2] at hcommitment
      exact mem_commitments hcommitment

namespace SampleWithdrawal

open SampleExecution SampleConfirmation

def execution (eventId : String) (seen : Option String) (orders : List BrokerExecutionOrder)
    (fundsEvidence : Option PositionEvidence) (withdrawn : List String) : LedgerInput :=
  input
    { decisionEventId := eventId
      businessObjectId := eventId
      candidateExecution := some
        { operation := .reconcile
          portfolioId := "P"
          planEventId := "E1"
          confirmationEventId := "E2"
          cutoffAt := 50
          seenExecutionId := seen
          positionEventId := some "S1"
          brokerEvidence := some (SampleBroker.evidence 50)
          fundsEvidence := fundsEvidence
          orders := orders
          withdrawnReservationIds := withdrawn } } 60 .execute

/-- The sample plan, saved with a budget. -/
def allocated : AllocatedPlan := ⟨budgeted plan, by decide⟩

def withdrawal : List LedgerInput := confirmed allocated [⟨"S", .accept⟩] ++ [
  recorded "S1" 50 { position := some (position 50) },
  execution "E3" none [] none ["E2:S:A"]]

/-- An order of unknown cause turns up, and then the evidence of funds is complete. -/
def later : List LedgerInput := [
  execution "E4" (some "E3")
    [order "O2" .cancelled none Literal.ten 0 0] none [],
  execution "E5" (some "E4") [] (some (SampleBroker.evidence 50)) [],
  recorded "H3" 70 { liquidityPosition := some (position 50) }]

/-- An allocation whose command supplies the reservation itself. -/
def supplied : CandidateAllocationCommand :=
  { revalidation 70 with
    commitments := [reservation Literal.ten]
    commitmentIds_nodup := by decide }

end SampleWithdrawal

open SampleExecution SampleConfirmation SampleWithdrawal in
/-- A withdrawn reservation keeps a cash hold without evidence of funds, is claimed in full while
the cause of an order is unknown, and is taken from a command that supplies it. -/
theorem sample_withdrawn_claimed : let events := ledgerEvents decimals (withdrawal ++ later)
    let executions := executionsOf scope "P" "E2" events
    executions.map (·.disposition) = [.reconciled, .reconciled, .reconciled] ∧
      executions.map (·.withdrawnReservationIds) = [["E2:S:A"], ["E2:S:A"], ["E2:S:A"]] ∧
      executions.map (fun outcome => outcome.reservations.map fun claim =>
        (claim.commitmentId, claim.quantity, claim.principal, claim.reconciliationCashHold)) =
          [[("E2:S:A", none, 0, 1)], [("E2:S:A", some 10, 100, 0)], []] ∧
      (allocationBasis ((view 70).ledger events) supplied scope false).toOption.any fun basis =>
        basis.commitments.map (fun claim => (claim.commitmentId, claim.principal)) =
          [("E2:S:A", 100)] := by
  decide +kernel

end StockProfiler.DecisionCases
