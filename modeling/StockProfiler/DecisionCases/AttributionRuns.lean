import StockProfiler.DecisionCases.WithdrawalMemory

/-!
# Attributions are permanent

A reconciled execution is compared with every saved one of its owner. What one of
them attributes to a reservation stays there, and the fills that the broker still
shows are never left out.
-/

namespace StockProfiler.DecisionCases

open PositionManagement Portfolio

/-- The reconciled execution that an event saves. -/
def reconciledExecution (fact : DecisionEventFact) : Option CandidateExecutionOutcome :=
  fact.result.candidateExecution.filter (·.disposition = .reconciled)

/-- One owner has both events. -/
def SameOwner (earlier later : DecisionEventFact) : Prop :=
  ∃ scope ∈ earlier.case.accessScope, ∃ other ∈ later.case.accessScope, scope.sameOwnerAs other

/-- The fills that the position of a command shows since the first confirmation. -/
def shownFills (ledger : DecisionLedger) (scope : ResultAccessScope)
    (command : CandidateExecutionCommand) : Option (List (String × String)) := do
  let snapshot ← executionProof ledger scope command
  let historyStartAt ←
    ((ledger.candidateConfirmationHistory scope command.portfolioId).map (·.committedAt)).min?
  return requiredFills snapshot historyStartAt

/-- A fill or an order that an execution attributes to a reservation is attributed to it again. -/
structure KeepsAttributions (earlier later : CandidateExecutionOutcome) : Prop where
  fills : ∀ before ∈ earlier.fills, before.reservationId ≠ none →
    ∀ fill ∈ later.fills, fill.key = before.key → fill.reservationId = before.reservationId
  orders : ∀ before ∈ earlier.orderAttributions, before.reservationId ≠ none →
    ∀ order ∈ later.orderAttributions,
      order.accountId = before.accountId → order.orderId = before.orderId →
        order.reservationId = before.reservationId

/-- An outcome attributes no fill and no order twice. -/
structure AttributesOnce (outcome : CandidateExecutionOutcome) : Prop where
  fills : (outcome.fills.map (·.key)).Nodup
  orders : (outcome.orderAttributions.map fun row => (row.accountId, row.orderId)).Nodup

section Step

variable {ctx : DecimalContext} {ledger : DecisionLedger} {scope : ResultAccessScope}
  {command : CandidateExecutionCommand} {confirmation : CandidateConfirmationOutcome}
  {outcome : CandidateExecutionOutcome} {executionId : String} {confirmedAt : Instant}
  {previouslyWithdrawn : List String}

theorem reconciledExecution_eq_some {fact : DecisionEventFact} :
    reconciledExecution fact = some outcome ↔
      fact.result.candidateExecution = some outcome ∧ outcome.disposition = .reconciled := by
  rw [reconciledExecution, Option.filter_eq_some_iff, decide_eq_true_eq]

/-- A reconciliation lists the fills that its position shows, and no other ones. -/
theorem shownFills_of_attributed {plan : CandidateAllocationOutcome} {facts : SettlementContext}
    (h : attributeBrokerFacts ctx ledger scope command confirmedAt confirmation plan
      previouslyWithdrawn = .ok facts) :
    ∃ shown, shownFills ledger scope command = some shown ∧
      ∀ key, key ∈ command.fills.map (·.key) ↔ key ∈ shown := by
  simp only [attributeBrokerFacts, bind_eq_ok, known_eq_ok] at h
  obtain ⟨historyStartAt, hstart, snapshot, hproof, ⟨⟩, -, ⟨⟩, hchecked, -⟩ := h
  refine ⟨requiredFills snapshot historyStartAt, ?_, ?_⟩
  · rw [shownFills, hproof, hstart]
    rfl
  · simp only [checkBrokerFacts, bind_eq_ok, require_eq_ok] at hchecked
    obtain ⟨⟨⟩, -, ⟨⟩, -, ⟨⟩, -, ⟨⟩, -, ⟨⟩, hfills, -⟩ := hchecked
    exact sameMembers_iff.mp hfills

/-- What a reconciliation establishes of what it attributes. -/
theorem attributes_reconcileExecution (h : reconcileExecution ctx ledger scope command executionId
    confirmedAt confirmation previouslyWithdrawn = .ok outcome) :
    AttributesOnce outcome ∧ ∃ shown, shownFills ledger scope command = some shown ∧
      ∀ key, key ∈ outcome.fills.map (·.key) ↔ key ∈ shown := by
  simp only [reconcileExecution, bind_eq_ok, known_eq_ok] at h
  obtain ⟨source, -, plan, -, facts, hfacts, settlements, -, unassociated, -, h⟩ := h
  obtain rfl := (Except.ok.inj h).symm
  obtain ⟨-, snapshot, hattributed⟩ := attributed_of_ok hfacts
  have hfills : facts.fills.map (·.key) = command.fills.map (·.key) :=
    (fillsAttributed_of_ok (nodup_reservationsOf _) hattributed.orders hattributed.fills).keys
  have horders : (facts.orders.map Prod.snd).map (fun row => (row.accountId, row.orderId)) =
      command.orders.map (·.key) := by
    rw [List.map_map]
    refine (map_eq_map_of_forall₂
      ((mapM_eq_ok.mp hattributed.orders).imp fun order p hp => ?_)).symm
    obtain ⟨-, haccount, hid, -⟩ := attributeOrder_inv hp
    rw [Function.comp_apply, haccount, hid, BrokerExecutionOrder.key]
  obtain ⟨confirmedAt, historyStartAt, hchecked⟩ := hattributed.checked
  simp only [checkBrokerFacts, bind_eq_ok, require_eq_ok] at hchecked
  obtain ⟨⟨⟩, ⟨horderKeys, hfillKeys⟩, -⟩ := hchecked
  refine ⟨⟨hfills ▸ hfillKeys, ?_⟩, ?_⟩
  · exact horders ▸ horderKeys
  · obtain ⟨shown, hshown, hmem⟩ := shownFills_of_attributed hfacts
    refine ⟨shown, hshown, fun key => ?_⟩
    rw [← hmem key, ← hfills]
    rfl

/-- A final outcome is reconciled only if it was so before the commit. -/
theorem finalize_reconciled {now : Instant} {adjudicated : CandidateExecutionOutcome}
    (h : finalizeCandidateExecution ledger scope command executionId now adjudicated = some outcome)
    (hreconciled : outcome.disposition = .reconciled) : adjudicated = outcome := by
  unfold finalizeCandidateExecution at h
  split at h
  · exact Option.some.inj h
  · dsimp only at h
    split at h
    · exact Option.some.inj h
    · obtain ⟨base, -, h⟩ := bind_eq_some.mp h
      cases h
      exact nomatch hreconciled

variable {events : List DecisionEventFact} {input : LedgerInput} {fact : DecisionEventFact}

/-- What a step establishes when it commits a reconciled execution. -/
theorem attributes_of_commitFact (h : commitFact ctx events input = some fact)
    (hreconciled : reconciledExecution fact = some outcome) :
    ∃ command scope, fact.case.candidateExecution = some command ∧
      fact.case.accessScope = some scope ∧ AttributesOnce outcome ∧
      (∃ shown, shownFills (input.view.ledger events) scope command = some shown ∧
        ∀ key, key ∈ outcome.fills.map (·.key) ↔ key ∈ shown) ∧
      checkAttributions (input.view.ledger events) scope outcome = .ok ⟨⟩ := by
  obtain ⟨hresult, hdisposition⟩ := reconciledExecution_eq_some.mp hreconciled
  obtain ⟨-, hcase, hcommit⟩ := execution_of_commitFact h hresult
  simp only [commitExecution, bind_eq_some] at hcommit
  obtain ⟨_, -, _, -, adjudicated, hadjudicated, hfinalize⟩ := hcommit
  obtain rfl := finalize_reconciled hfinalize hdisposition
  obtain ⟨command, scope, confirmed, confirmation, hcommand, hscope, -, hexecute⟩ :=
    reconciled_adjudicate hadjudicated hdisposition
  obtain ⟨-, reconciled, hreconcile, hattributions, rfl⟩ :=
    reconciled_executeCandidates hexecute hdisposition
  obtain ⟨⟨hfills, horders⟩, hshown⟩ := attributes_reconcileExecution hreconcile
  exact ⟨command, scope, hcase ▸ hcommand, hcase ▸ hscope, ⟨hfills, horders⟩, hshown,
    hattributions⟩

/-- A reconciled execution keeps the attributions of the saved ones of its owner. -/
theorem keepsAttributions_of_checked {earlier : DecisionEventFact}
    {previous : CandidateExecutionOutcome} (hearlier : earlier ∈ ledger.events)
    (horiginal : earlier.correctsEventId = none)
    (howner : earlier.case.accessScope.any (·.sameOwnerAs scope))
    (hcommand : earlier.case.candidateExecution.isSome)
    (hresult : earlier.result.candidateExecution = some previous) (honce : AttributesOnce previous)
    (hchecked : checkAttributions ledger scope outcome = .ok ⟨⟩) :
    KeepsAttributions previous outcome := by
  have hmem : earlier ∈ ledger.candidateExecutionHistory scope := by
    obtain ⟨command, hcommand⟩ := Option.isSome_iff_exists.mp hcommand
    refine List.mem_filter.mpr ⟨List.mem_filter.mpr ⟨hearlier, decide_eq_true horiginal⟩, ?_⟩
    rw [decide_eq_true_eq, hcommand, hresult]
    exact ⟨howner, rfl, rfl⟩
  rw [checkAttributions, require_eq_ok, Bool.not_eq_true', List.any_eq_false] at hchecked
  have hkept := hchecked earlier hmem
  rw [hresult, Option.any_some, Bool.not_eq_true] at hkept
  refine ⟨fun before hbefore howned fill hfill hkey => ?_,
    fun before hbefore howned order horder haccount hid => ?_⟩
  · exact owner_of_not_movesAttribution hkept honce.fills hbefore hfill hkey howned
  · exact orderOwner_of_not_movesAttribution hkept honce.orders hbefore horder haccount hid howned

end Step

/-- **Broker attribution is permanent.** In every run of the ledger a reconciled execution keeps
the attributions of every earlier one of its owner, on whatever confirmation or portfolio, and it
lists every fill that its position still shows. -/
theorem ledgerRun_attributionsPermanent (ctx : DecimalContext) (inputs : List LedgerInput) :
    ((ledgerEvents ctx inputs).Pairwise fun earlier later => SameOwner earlier later →
      ∀ before ∈ reconciledExecution earlier, ∀ after ∈ reconciledExecution later,
        KeepsAttributions before after) ∧
    ∀ e ∈ traceSome (commitFact ctx) inputs, ∀ outcome ∈ reconciledExecution e.outcome,
      ∃ command scope shown, e.outcome.case.candidateExecution = some command ∧
        e.outcome.case.accessScope = some scope ∧
        shownFills (e.input.view.ledger e.before) scope command = some shown ∧
        ∀ key, key ∈ outcome.fills.map (·.key) ↔ key ∈ shown := by
  have hrun := historyRun_traceSome (commitFact ctx) inputs
  constructor
  · rw [ledgerEvents, outcomes, List.pairwise_map]
    refine hrun.pairwise fun {run input fact} hrun _ hstep e he => ?_
    rintro ⟨scope, hscope, other, hother, howner⟩ before hbefore after hafter
    obtain ⟨hresult, -⟩ := reconciledExecution_eq_some.mp hbefore
    obtain ⟨horiginal, -, -⟩ := execution_of_commitFact (hrun.step_of_mem he) hresult
    obtain ⟨command, -, hcommand, -, honce, -, -⟩ :=
      attributes_of_commitFact (hrun.step_of_mem he) hbefore
    obtain ⟨-, scope', -, hscope', -, -, hchecked⟩ := attributes_of_commitFact hstep hafter
    obtain rfl := Option.some.inj (hother.symm.trans hscope')
    refine keepsAttributions_of_checked (List.mem_map_of_mem he) horiginal ?_ ?_ hresult honce
      hchecked
    · rw [Option.mem_def.mp hscope]
      exact howner
    · rw [hcommand]
      rfl
  · intro e he outcome houtcome
    obtain ⟨command, scope, hcommand, hscope, -, ⟨shown, hshown, hkeys⟩, -⟩ :=
      attributes_of_commitFact (hrun.step_of_mem he) houtcome
    exact ⟨command, scope, shown, hcommand, hscope, hshown, hkeys⟩

namespace SampleAttribution

open SampleExecution SampleConfirmation SampleWithdrawal

def purchased : PositionReconciliationOutcome :=
  { position 50 with snapshot := snapshot [entry "F1" 10 30] }

/-- A reconciliation of the order that bought what was reserved. -/
def reconciliation (eventId : String) (seen : Option String) : LedgerInput :=
  let case := case [order "O1" .filled (some "E2:S:A") Literal.ten 10 0] [fill "F1"]
  input
    { decisionEventId := eventId
      businessObjectId := eventId
      candidateExecution := case.candidateExecution.map fun command =>
        { command with seenExecutionId := seen } } 60 .execute

def twice : List LedgerInput :=
  withdrawal.take 5 ++ [recorded "E3" 50 { position := some purchased },
    reconciliation "E4" none, reconciliation "E5" (some "E4")]

/-- Who each reconciled execution of a run attributes its fills and orders to. -/
def attributions (events : List DecisionEventFact) :
    List (List (String × Option String) × List (String × Option String)) :=
  (events.filterMap reconciledExecution).map fun outcome =>
    (outcome.fills.map fun fill => (fill.entryId, fill.reservationId),
      outcome.orderAttributions.map fun order => (order.orderId, order.reservationId))

/-- Whether an event of the user saves a reconciled execution that attributes a fill. -/
def attributesFill (fact : DecisionEventFact) : Bool :=
  fact.case.accessScope = some scope ∧
    (reconciledExecution fact).any fun outcome => outcome.fills.any (·.reservationId ≠ none)

theorem twice_spec : (ledgerEvents decimals twice)[6]?.any attributesFill ∧
    (ledgerEvents decimals twice)[7]?.any attributesFill ∧
    attributions (ledgerEvents decimals twice) =
      [([("F1", some "E2:S:A")], [("O1", some "E2:S:A")]),
        ([("F1", some "E2:S:A")], [("O1", some "E2:S:A")])] := by
  decide +kernel

theorem attributesFill_spec {fact : DecisionEventFact} (h : attributesFill fact) :
    fact.case.accessScope = some scope ∧ ∃ outcome, reconciledExecution fact = some outcome ∧
      ∃ fill ∈ outcome.fills, fill.reservationId ≠ none := by
  obtain ⟨hscope, houtcome⟩ := of_decide_eq_true h
  obtain ⟨outcome, houtcome, hfills⟩ := (Option.any_eq_true _ _).mp houtcome
  obtain ⟨fill, hfill, howned⟩ := List.any_eq_true.mp hfills
  exact ⟨hscope, outcome, houtcome, fill, hfill, of_decide_eq_true howned⟩

end SampleAttribution

open SampleExecution SampleAttribution in
/-- Two executions of one owner that attribute the same purchase keep its attribution. -/
theorem sample_attributionsKept :
    ∃ earlier later before after, [earlier, later].Sublist (ledgerEvents decimals twice) ∧
      reconciledExecution earlier = some before ∧ reconciledExecution later = some after ∧
      SameOwner earlier later ∧ (∃ fill ∈ before.fills, fill.reservationId ≠ none) ∧
      KeepsAttributions before after := by
  obtain ⟨hfirst, hsecond, -⟩ := twice_spec
  obtain ⟨earlier, hearlier, hfirst⟩ := (Option.any_eq_true _ _).mp hfirst
  obtain ⟨later, hlater, hsecond⟩ := (Option.any_eq_true _ _).mp hsecond
  obtain ⟨hscope, before, hbefore, howned⟩ := attributesFill_spec hfirst
  obtain ⟨hscope', after, hafter, -⟩ := attributesFill_spec hsecond
  obtain ⟨hindex, rfl⟩ := List.getElem?_eq_some_iff.mp hearlier
  obtain ⟨hindex', rfl⟩ := List.getElem?_eq_some_iff.mp hlater
  have howner : SameOwner (ledgerEvents decimals twice)[6] (ledgerEvents decimals twice)[7] :=
    ⟨scope, hscope, scope, hscope', by decide⟩
  refine ⟨_, _, before, after, ?_, hbefore, hafter, howner, howned, ?_⟩
  · refine List.Sublist.trans ?_ (List.drop_sublist 6 _)
    rw [List.drop_eq_getElem_cons hindex, List.drop_eq_getElem_cons hindex']
    exact ((List.nil_sublist _).cons_cons _).cons_cons _
  · exact List.pairwise_iff_getElem.mp (ledgerRun_attributionsPermanent decimals twice).1 6 7
      hindex hindex' (by decide) howner before hbefore after hafter

end StockProfiler.DecisionCases
