import Mathlib.Data.String.Basic
import StockProfiler.DecisionCases.CandidateExecution

/-!
# Execution reconciliation

An execution command declares what the user did, or reconciles the broker facts
with the latest confirmation. A blocked command keeps what was saved before it.
-/

namespace StockProfiler.DecisionCases

open PositionManagement Portfolio

section Reconcile

variable (ctx : DecimalContext) (ledger : DecisionLedger) (scope : ResultAccessScope)
  (command : CandidateExecutionCommand)

/-- The latest execution outcome of each confirmation of a portfolio. -/
def latestExecutions : Dict String CandidateExecutionOutcome :=
  Dict.ofLast ((ledger.candidateExecutionHistory scope (some command.portfolioId)).filterMap
    fun fact => do
      let saved ← fact.case.candidateExecution
      let outcome ← fact.result.candidateExecution
      return (saved.confirmationEventId, outcome))

/-- The orders that were unfinished when last seen. -/
def pendingOrders : List (String × String) :=
  (latestExecutions ledger scope command).flatMap fun (_, prior) =>
    prior.unresolvedOrderKeys ++ (prior.orders.filter (·.status.isUnfinished)).map (·.key)

/-- The reconciled position that broker facts are checked against. -/
def executionProof : Option ReconciledPositionSnapshot := do
  let eventId ← command.positionEventId
  let proof ← ledger.getDecisionEvent eventId
  let position ← proof.result.position
  let evidence ← command.brokerEvidence
  guard (proof.case.accessScope.any (scope.sameScopeAs ·) ∧ position.disposition = .reconciled ∧
    proof.correctsEventId = none ∧ ledger.getCorrectionEvent proof.decisionEventId = none ∧
    command.cutoffAt ≤ ledger.observedAt ∧ position.snapshot.cutoffAt = command.cutoffAt ∧
    ledger.positionSnapshotIsLatest scope position.snapshot ∧
    evidence.problemCodes command.cutoffAt true = [])
  return position.snapshot

/-- Whether an unfinished order prevents a withdrawal. -/
def preventsRelease (reservations : List AllocationCommitment) (withdrawn : List String)
    (order : BrokerExecutionOrder) (attribution : AttributedOrder) : Bool :=
  order.status.isUnfinished ∧ (attribution.reservationId.any (· ∈ withdrawn) ∨
    attribution.classification = .unknown ∧ reservations.any fun r =>
      r.commitmentId ∈ withdrawn ∧ r.securityId = order.securityId)

/-- How the execution of a plan ended. -/
def terminalOutcomeOf (choices : List CandidateChoice) (rows : List ExecutionRow) :
    TerminalOutcome :=
  if rows ≠ [] ∧ rows.all fun row => row.filledQuantity = row.acceptedQuantity then .fullyFilled
  else if rows.any (·.filledQuantity ≠ 0) then .partiallyFilled
  else if choices ≠ [] ∧ choices.all (·.choice = .decline) then .allDeclined
  else if choices.any (·.choice = .defer) then .deferredExpired
  else .noTrade

/-- Whether nothing about the execution of a plan is open any more. -/
def isTerminal (facts : SettlementContext) (confirmation : CandidateConfirmationOutcome)
    (claims : List AllocationCommitment) : Bool :=
  claims = [] ∧
    (!facts.orders.any fun (order, attribution) => order.status.isUnfinished ∧
      attribution.reservationId.any (· ∈ confirmation.reservations.map (·.commitmentId))) ∧
    (!facts.orders.any fun (_, attribution) => attribution.classification = .unknown) ∧
    fundsKnown facts.command ∧
    (facts.expired ∨ !confirmation.choices.any (·.choice = .defer))

/-- The identities that are withdrawn from a confirmation, in order. -/
def withdrawnIds (previouslyWithdrawn : List String) : List String :=
  sortedSet (command.withdrawnReservationIds ++ previouslyWithdrawn)

/-- Attribute the orders and fills of a command to the reservations of its portfolio. -/
def attributeBrokerFacts (confirmedAt : Instant) (confirmation : CandidateConfirmationOutcome)
    (plan : CandidateAllocationOutcome) (previouslyWithdrawn : List String) :
    Except Failure SettlementContext := do
  let history := ledger.candidateConfirmationHistory scope command.portfolioId
  let reservations := reservationsOf history
  let historyStartAt ← known (history.map (·.committedAt)).min? .raised
  let snapshot ← known (executionProof ledger scope command) (.blocked ["BROKER_FACTS_INCOMPLETE"])
  let withdrawn := withdrawnIds command previouslyWithdrawn
  require (command.withdrawnReservationIds.Nodup ∧
      ∀ id ∈ withdrawn, id ∈ confirmation.reservations.map (·.commitmentId))
    (.blocked ["WITHDRAWAL_IDENTITY_INVALID"])
  checkBrokerFacts ctx command snapshot scope.accountIds confirmedAt historyStartAt
  require (∀ key ∈ pendingOrders ledger scope command, (command.orders.map (·.key)).contains key)
    (.blocked ["BROKER_ORDER_TERMINAL_UNPROVEN"])
  let orders ← command.orders.mapM (attributeOrder ctx ledger scope command snapshot reservations)
  require (!orders.any fun (order, attribution) =>
      preventsRelease confirmation.reservations withdrawn order attribution)
    (.blocked ["UNFINISHED_ORDER_PREVENTS_RELEASE"])
  let fills ← attributeFills ctx command snapshot reservations orders
  return { plan := plan
           command := command
           orders := orders
           fills := fills
           withdrawn := withdrawn
           expired := !entryWindowIsOpen ledger.sessionCloseOn plan command.cutoffAt
           invalidated := ledger.getCorrectionEvent command.planEventId ≠ none }

variable (executionId : String) (base : CandidateExecutionOutcome)

/-- What the settled reservations and the unassociated orders amount to. -/
def reconciledOutcome (confirmation : CandidateConfirmationOutcome) (facts : SettlementContext)
    (settlements : List Settlement) (unassociated : List AllocationCommitment) :
    CandidateExecutionOutcome :=
  let claims := settlements.filterMap (·.claim)
  let rows := settlements.map (·.row)
  let costProblems := settlements.flatMap (·.costProblems) ++
    ((unassociatedOrders facts.orders).filter fun order =>
      routeFor facts.plan order.accountId order.securityId = none).map fun _ =>
        "EXTERNAL_ORDER_COSTS_UNAVAILABLE"
  { disposition := .reconciled
    reasons := costProblems.eraseDups
    executionId := some executionId
    portfolioId := some facts.command.portfolioId
    planId := confirmation.planId
    confirmationId := some facts.command.confirmationEventId
    positionEventId := facts.command.positionEventId
    reservations := claims
    unassociatedCommitments := unassociated
    orders := facts.command.orders
    orderAttributions := facts.orders.map Prod.snd
    fills := facts.fills
    rows := rows
    releasedReservationIds := (settlements.filter (·.released)).map (·.row.reservationId)
    withdrawnReservationIds := facts.withdrawn
    terminalOutcome := if isTerminal facts confirmation claims then
      some (terminalOutcomeOf confirmation.choices rows) else none }

/-- Reconcile the broker facts of a command with a confirmation. -/
def reconcileExecution (confirmedAt : Instant) (confirmation : CandidateConfirmationOutcome)
    (previouslyWithdrawn : List String) : Except Failure CandidateExecutionOutcome := do
  let source ← known (ledger.getFormalReportForEvent command.planEventId) .raised
  let plan ← known source.result.candidateAllocation .raised
  let facts ← attributeBrokerFacts ctx ledger scope command confirmedAt confirmation plan
    previouslyWithdrawn
  let settlements ← confirmation.reservations.mapM (settleReservation ctx facts)
  let unassociated ← (unassociatedOrders facts.orders).mapM (unassociatedCommitment ctx facts)
  return reconciledOutcome executionId confirmation facts settlements unassociated

/-- The confirmation that a command executes, with its fact. -/
def executionSource (businessPrerequisiteMet : Bool) :
    Option (DecisionEventFact × CandidateConfirmationOutcome) := do
  let source ← ledger.getFormalReportForEvent command.planEventId
  let plan ← source.result.candidateAllocation
  let confirmed ← ledger.getDecisionEvent command.confirmationEventId
  let confirmation ← confirmed.result.candidateConfirmation
  guard (businessPrerequisiteMet ∧ scope.visibility = .user ∧
    source.case.accessScope.any (scope.sameScopeAs ·) ∧
    confirmed.case.accessScope.any (scope.sameScopeAs ·) ∧
    confirmation.disposition = .confirmed ∧ confirmation.planId = plan.planId ∧
    confirmation.portfolioId = some command.portfolioId)
  return (confirmed, confirmation)

/-- The latest execution outcome of the confirmation of a command. -/
def priorExecution : Option CandidateExecutionOutcome :=
  ((ledger.candidateExecutionHistory scope (some command.portfolioId)).reverse.find? fun fact =>
    fact.case.candidateExecution.any (·.confirmationEventId = command.confirmationEventId)).bind
      (·.result.candidateExecution)

/-- What a command starts from: the prior outcome, or the reservations of the confirmation. -/
def executionBase (confirmation : CandidateConfirmationOutcome) : CandidateExecutionOutcome :=
  (priorExecution ledger scope command).getD
    { disposition := .pendingReconciliation
      reasons := []
      portfolioId := some command.portfolioId
      planId := confirmation.planId
      confirmationId := confirmation.confirmationId
      reservations := confirmation.reservations }

/-- A blocked command keeps the claims of its base. -/
def CandidateExecutionOutcome.blockedFor (executionId : String) (reasons : List String) :
    CandidateExecutionOutcome :=
  { base with
    disposition := .blocked
    reasons := reasons
    executionId := some executionId
    terminalOutcome := none }

/-- The orders that a blocked reconciliation leaves unresolved. -/
def unresolvedOrders : List (String × String) :=
  let seen := (command.positionEventId.bind ledger.getDecisionEvent).elim [] fun proof =>
    if proof.case.accessScope.any (scope.sameScopeAs ·) then
      (proof.result.position.filter (·.disposition = .reconciled)).elim [] fun position =>
        (openBuyOrders position.snapshot).map openOrderKey
    else []
  ((base.unresolvedOrderKeys ++ seen).eraseDups).insertionSort fun a b =>
    a.1 < b.1 ∨ a.1 = b.1 ∧ a.2 ≤ b.2

/-- Whether an outcome moves a broker identity from the reservation that owns it. -/
def movesAttribution (outcome previous : CandidateExecutionOutcome) : Bool :=
  let moves (owned now : List ((String × String) × Option String)) : Bool :=
    now.any fun (key, reservation) =>
      ((Dict.ofLast (owned.filterMap fun (key, owner) => owner.map fun id => (key, id))).get?
        key).any fun owner => reservation ≠ some owner
  moves (previous.fills.map fun row => (row.key, row.reservationId))
      (outcome.fills.map fun row => (row.key, row.reservationId)) ∨
    moves
      (previous.orderAttributions.map fun row => ((row.accountId, row.orderId), row.reservationId))
      (outcome.orderAttributions.map fun row => ((row.accountId, row.orderId), row.reservationId))

/-- Check that no earlier outcome of the owner attributes a broker identity elsewhere. -/
def checkAttributions (outcome : CandidateExecutionOutcome) : Except Failure Unit :=
  require (!(ledger.candidateExecutionHistory scope).any fun fact =>
      fact.result.candidateExecution.any (movesAttribution outcome ·))
    (.blocked ["BROKER_ATTRIBUTION_CONFLICT"])

/-- Check that a command continues the latest execution of the latest confirmation. -/
def checkContinues (case : FrozenDecisionCase) (confirmation : CandidateConfirmationOutcome) :
    Except Failure Unit := do
  require (command.seenExecutionId =
      (priorExecution ledger scope command).bind (·.executionId))
    (.blocked ["EXECUTION_VERSION_CONFLICT"])
  require (∀ pending ∈ ledger.pendingCandidateExecutions, pending = case.businessObjectId)
    (.blocked ["EXECUTION_PENDING_RECONCILIATION"])
  require
    (((ledger.candidateConfirmationHistory scope command.portfolioId).reverse.find? fun fact =>
      fact.result.candidateConfirmation.any (·.planId = confirmation.planId)).any
        (·.decisionEventId = command.confirmationEventId))
    (.blocked ["CONFIRMATION_SUPERSEDED"])

/-- Add a declaration of the user to what was saved. -/
def declareExecution (confirmed : DecisionEventFact) (confirmation : CandidateConfirmationOutcome)
    (base : CandidateExecutionOutcome) : Except Failure CandidateExecutionOutcome := do
  let declaration ← known command.declaration (.blocked ["DECLARATION_REQUIRED"])
  require (declaration.securityId ∈ confirmation.reservations.map (·.securityId) ∧
      confirmed.committedAt ≤ declaration.declaredAt ∧ declaration.declaredAt ≤ command.cutoffAt ∧
      command.cutoffAt ≤ ledger.observedAt) (.blocked ["DECLARATION_INVALID"])
  return { base with
           disposition := .pendingReconciliation
           executionId := some executionId
           declarations := base.declarations ++ [declaration] }

/-- The answer to a reconciliation, unless an assertion fails. -/
def answerReconciliation :
    Except Failure CandidateExecutionOutcome → Option CandidateExecutionOutcome
  | .ok outcome =>
    match checkAttributions ledger scope outcome with
    | .ok () => some { outcome with declarations := base.declarations }
    | .error (.blocked reasons) =>
      some (CandidateExecutionOutcome.blockedFor base executionId reasons)
    | .error _ => none
  | .error (.blocked reasons) =>
    some { CandidateExecutionOutcome.blockedFor base executionId reasons with
           unresolvedOrderKeys := unresolvedOrders ledger scope command base }
  | .error .arithmetic => some (CandidateExecutionOutcome.blockedFor base executionId
      ["EXECUTION_ARITHMETIC_UNAVAILABLE"])
  | .error .raised => none

/-- Carry out an execution command on the confirmation that it names. -/
def executeCandidates (case : FrozenDecisionCase) (confirmed : DecisionEventFact)
    (confirmation : CandidateConfirmationOutcome) : Option CandidateExecutionOutcome :=
  let base := executionBase ledger scope command confirmation
  let executionId := case.decisionEventId
  let blocked := CandidateExecutionOutcome.blockedFor base executionId
  match checkContinues ledger scope command case confirmation with
  | .error failure => answer blocked (.error failure)
  | .ok () =>
    if command.operation = .reconcile then
      answerReconciliation ledger scope command executionId base
        (reconcileExecution ctx ledger scope command executionId confirmed.committedAt confirmation
          base.withdrawnReservationIds)
    else answer blocked (declareExecution ledger command executionId confirmed confirmation base)

end Reconcile

/-- Adjudicate the execution of a case. -/
def adjudicateCandidateExecution (ctx : DecimalContext) (ledger : DecisionLedger)
    (case : FrozenDecisionCase) (businessPrerequisiteMet : Bool) :
    Option CandidateExecutionOutcome := do
  let command ← case.candidateExecution
  let scope ← case.accessScope
  match executionSource ledger scope command businessPrerequisiteMet with
  | none => some { disposition := .blocked, reasons := ["EXECUTION_SOURCE_UNAVAILABLE"] }
  | some (confirmed, confirmation) =>
    executeCandidates ctx ledger scope command case confirmed confirmation

/-- The evidence that an execution command brings. -/
def executionEvidence (command : CandidateExecutionCommand) : List PositionEvidence :=
  command.brokerEvidence.toList ++ command.fundsEvidence.toList ++ command.orders.map (·.evidence)

/-- Keep capacity when current broker or funds evidence expires during the journey. -/
def finalizeCandidateExecution (ledger : DecisionLedger) (scope : ResultAccessScope)
    (command : CandidateExecutionCommand) (executionId : String) (now : Instant)
    (outcome : CandidateExecutionOutcome) : Option CandidateExecutionOutcome :=
  if outcome.disposition ≠ .reconciled then some outcome
  else
    let proof := command.positionEventId.bind ledger.getDecisionEvent
    let expired := currentEvidenceExpired (executionEvidence command) command.cutoffAt now ∨
      proof.any fun proof => proof.case.position.any
        (currentEvidenceExpired · command.cutoffAt now)
    let changed := !proof.any fun proof => proof.result.position.any fun position =>
      ledger.positionSnapshotIsLatest scope position.snapshot
    if !expired ∧ !changed then some outcome
    else do
      let base ← (priorExecution ledger scope command).or do
        let confirmed ← ledger.getDecisionEvent command.confirmationEventId
        let confirmation ← confirmed.result.candidateConfirmation
        return { disposition := .blocked
                 reasons := []
                 portfolioId := some command.portfolioId
                 planId := outcome.planId
                 confirmationId := some command.confirmationEventId
                 reservations := confirmation.reservations }
      return CandidateExecutionOutcome.blockedFor base executionId
        [if expired then "CURRENT_EXECUTION_EVIDENCE_EXPIRED" else "BROKER_FACTS_CHANGED"]

section Inversion

variable {ctx : DecimalContext} {ledger : DecisionLedger} {scope : ResultAccessScope}
  {command : CandidateExecutionCommand} {case : FrozenDecisionCase}
  {confirmed : DecisionEventFact} {confirmation : CandidateConfirmationOutcome}
  {plan : CandidateAllocationOutcome} {facts : SettlementContext}
  {confirmedAt : Instant} {previouslyWithdrawn : List String}
  {base outcome : CandidateExecutionOutcome} {executionId : String}

/-- What the attribution of broker facts establishes. -/
structure Attributed (ctx : DecimalContext) (ledger : DecisionLedger) (scope : ResultAccessScope)
    (command : CandidateExecutionCommand) (confirmation : CandidateConfirmationOutcome)
    (previouslyWithdrawn : List String) (snapshot : ReconciledPositionSnapshot)
    (facts : SettlementContext) : Prop where
  proof : executionProof ledger scope command = some snapshot
  command_eq : facts.command = command
  withdrawn : facts.withdrawn = withdrawnIds command previouslyWithdrawn
  expired : facts.expired = !entryWindowIsOpen ledger.sessionCloseOn facts.plan command.cutoffAt
  invalidated : facts.invalidated = decide (ledger.getCorrectionEvent command.planEventId ≠ none)
  withdrawn_mem : ∀ id ∈ facts.withdrawn, id ∈ confirmation.reservations.map (·.commitmentId)
  checked : ∃ confirmedAt historyStartAt,
    checkBrokerFacts ctx command snapshot scope.accountIds confirmedAt historyStartAt = .ok ⟨⟩
  orders : command.orders.mapM (attributeOrder ctx ledger scope command snapshot
    (reservationsOf (ledger.candidateConfirmationHistory scope command.portfolioId))) =
      .ok facts.orders
  release : ∀ p ∈ facts.orders,
    ¬preventsRelease confirmation.reservations facts.withdrawn p.1 p.2
  fills : attributeFills ctx command snapshot
    (reservationsOf (ledger.candidateConfirmationHistory scope command.portfolioId))
      facts.orders = .ok facts.fills

theorem attributed_of_ok (h : attributeBrokerFacts ctx ledger scope command confirmedAt confirmation
    plan previouslyWithdrawn = .ok facts) : facts.plan = plan ∧ ∃ snapshot,
      Attributed ctx ledger scope command confirmation previouslyWithdrawn snapshot facts := by
  simp only [attributeBrokerFacts, bind_eq_ok, known_eq_ok, require_eq_ok] at h
  obtain ⟨historyStartAt, -, snapshot, hproof, ⟨⟩, ⟨-, hwithdrawn⟩, ⟨⟩, hchecked, ⟨⟩, -, orders,
    horders, ⟨⟩, hrelease, fills, hfills, h⟩ := h
  obtain rfl := (Except.ok.inj h).symm
  refine ⟨rfl, snapshot, hproof, rfl, rfl, rfl, rfl, hwithdrawn, ⟨_, _, hchecked⟩, horders, ?_,
    hfills⟩
  intro p hp hprevents
  rw [Bool.not_eq_true', List.any_eq_false] at hrelease
  exact hrelease p hp hprevents

theorem reconcileExecution_inv (h : reconcileExecution ctx ledger scope command executionId
    confirmedAt confirmation previouslyWithdrawn = .ok outcome) :
    ∃ source snapshot facts settlements unassociated,
      ledger.getFormalReportForEvent command.planEventId = some source ∧
      source.result.candidateAllocation = some facts.plan ∧
      Attributed ctx ledger scope command confirmation previouslyWithdrawn snapshot facts ∧
      List.Forall₂ (fun reservation settlement =>
        settleReservation ctx facts reservation = .ok settlement)
          confirmation.reservations settlements ∧
      List.Forall₂ (fun order commitment => unassociatedCommitment ctx facts order = .ok commitment)
        (unassociatedOrders facts.orders) unassociated ∧
      outcome = reconciledOutcome executionId confirmation facts settlements unassociated := by
  simp only [reconcileExecution, bind_eq_ok, known_eq_ok] at h
  obtain ⟨source, hsource, plan, hplan, facts, hfacts, settlements, hsettlements, unassociated,
    hunassociated, h⟩ := h
  obtain ⟨hfactsPlan, snapshot, hattributed⟩ := attributed_of_ok hfacts
  exact ⟨source, snapshot, facts, settlements, unassociated, hsource, hfactsPlan ▸ hplan,
    hattributed, mapM_eq_ok.mp hsettlements, mapM_eq_ok.mp hunassociated,
    (Except.ok.inj h).symm⟩

/-- Only a reconciliation that conflicts with nothing before it is answered as reconciled. -/
theorem reconciled_answer {attempt : Except Failure CandidateExecutionOutcome}
    (h : answerReconciliation ledger scope command executionId base attempt = some outcome)
    (hreconciled : outcome.disposition = .reconciled) :
    ∃ reconciled, attempt = .ok reconciled ∧
      checkAttributions ledger scope reconciled = .ok ⟨⟩ ∧
      outcome = { reconciled with declarations := base.declarations } := by
  cases attempt with
  | ok reconciled =>
    rw [answerReconciliation] at h
    split at h
    · rename_i hchecked
      exact ⟨reconciled, rfl, hchecked, (Option.some.inj h).symm⟩
    · cases h
      exact nomatch hreconciled
    · exact nomatch h
  | error failure =>
    cases failure with
    | blocked reasons =>
      cases h
      exact nomatch hreconciled
    | arithmetic =>
      cases h
      exact nomatch hreconciled
    | raised => exact nomatch h

/-- A reconciled outcome comes from a reconciliation that continues the latest one. -/
theorem reconciled_executeCandidates
    (h : executeCandidates ctx ledger scope command case confirmed confirmation = some outcome)
    (hreconciled : outcome.disposition = .reconciled) :
    checkContinues ledger scope command case confirmation = .ok ⟨⟩ ∧ ∃ reconciled,
      reconcileExecution ctx ledger scope command case.decisionEventId confirmed.committedAt
        confirmation (executionBase ledger scope command confirmation).withdrawnReservationIds =
          .ok reconciled ∧
      checkAttributions ledger scope reconciled = .ok ⟨⟩ ∧
      outcome = { reconciled with
        declarations := (executionBase ledger scope command confirmation).declarations } := by
  unfold executeCandidates at h
  dsimp only at h
  split at h
  · rename_i failure hfailure
    cases failure with
    | blocked reasons =>
      cases h
      exact nomatch hreconciled
    | arithmetic => exact nomatch h
    | raised => exact nomatch h
  · rename_i hcontinues
    split at h
    · exact ⟨hcontinues, reconciled_answer h hreconciled⟩
    · cases hdeclare : declareExecution ledger command case.decisionEventId confirmed confirmation
        (executionBase ledger scope command confirmation) with
      | ok declared =>
        rw [hdeclare] at h
        cases h
        simp only [declareExecution, bind_eq_ok] at hdeclare
        obtain ⟨declaration, -, ⟨⟩, -, hdeclare⟩ := hdeclare
        cases hdeclare
        exact nomatch hreconciled
      | error failure =>
        rw [hdeclare] at h
        cases failure with
        | blocked reasons =>
          cases h
          exact nomatch hreconciled
        | arithmetic => exact nomatch h
        | raised => exact nomatch h

/-- The case of a reconciled outcome has a command, a scope and a confirmation. -/
theorem reconciled_adjudicate {businessPrerequisiteMet : Bool}
    (h : adjudicateCandidateExecution ctx ledger case businessPrerequisiteMet = some outcome)
    (hreconciled : outcome.disposition = .reconciled) :
    ∃ command scope confirmed confirmation, case.candidateExecution = some command ∧
      case.accessScope = some scope ∧
      executionSource ledger scope command businessPrerequisiteMet =
        some (confirmed, confirmation) ∧
      executeCandidates ctx ledger scope command case confirmed confirmation = some outcome := by
  simp only [adjudicateCandidateExecution, bind_eq_some] at h
  obtain ⟨command, hcommand, scope, hscope, h⟩ := h
  split at h
  · cases h
    exact nomatch hreconciled
  · rename_i confirmed confirmation hsource
    exact ⟨command, scope, confirmed, confirmation, hcommand, hscope, hsource, h⟩

end Inversion

end StockProfiler.DecisionCases
