import StockProfiler.DecisionCases.ActionTargets
import StockProfiler.Portfolio.DrawdownSessions
import StockProfiler.Portfolio.LiquidityLatch

/-!
# Runs of position actions

Along the actions of a lifecycle, what one action attributes bounds every later one. The
runs are those of the whole ledger, with any other events between the actions.
-/

namespace StockProfiler.DecisionCases

open PositionManagement Portfolio

variable {ledger : PositionLedger} {request : ActionRequest}

/-- The action of a lifecycle that an original fact commits, however it ended. -/
def lifecycleAction? (scope : ResultAccessScope) (portfolioId lifecycleId : String)
    (fact : PositionEventFact) : Option ActionFact := do
  guard (fact.correctsEventId = none)
  let other ← fact.case.accessScope
  let command ← fact.case.positionAction
  let outcome ← fact.result.positionAction
  guard (other.sameOwnerAs scope ∧ command.execution.portfolioId = portfolioId ∧
    command.lifecycleId = lifecycleId)
  return ⟨other, command, outcome⟩

/-- One action may follow another: same security, same scope, no earlier cutoff. -/
structure ActionFact.Follows (next prior : ActionFact) : Prop where
  securityId_eq : next.command.securityId = prior.command.securityId
  sameScope : next.scope.sameScopeAs prior.scope
  cutoffAt_le : prior.command.cutoffAt ≤ next.command.cutoffAt

/-- The actions of a lifecycle follow each other. -/
def ForwardActions (scope : ResultAccessScope) (portfolioId lifecycleId : String)
    (facts : List PositionEventFact) : Prop :=
  (facts.filterMap (lifecycleAction? scope portfolioId lifecycleId)).Pairwise
    fun prior next => next.Follows prior

instance (next prior : ActionFact) : Decidable (next.Follows prior) :=
  decidable_of_iff _ ⟨fun h : _ ∧ _ ∧ _ => ⟨h.1, h.2.1, h.2.2⟩,
    fun h => ⟨h.securityId_eq, h.sameScope, h.cutoffAt_le⟩⟩

instance (scope : ResultAccessScope) (portfolioId lifecycleId : String)
    (facts : List PositionEventFact) :
    Decidable (ForwardActions scope portfolioId lifecycleId facts) :=
  inferInstanceAs (Decidable (List.Pairwise _ _))

/-- An action follows every one of its lifecycle before it. -/
theorem ForwardActions.follows {scope : ResultAccessScope} {portfolioId lifecycleId : String}
    {earlier later : List PositionEventFact} {fact other : PositionEventFact}
    {prior next : ActionFact}
    (h : ForwardActions scope portfolioId lifecycleId (earlier ++ other :: later))
    (hmem : fact ∈ earlier)
    (hprior : lifecycleAction? scope portfolioId lifecycleId fact = some prior)
    (hnext : lifecycleAction? scope portfolioId lifecycleId other = some next) :
    next.Follows prior := by
  have hpairs := List.pairwise_filterMap.mp h
  exact (List.pairwise_append.mp hpairs).2.2 fact hmem other (List.mem_cons_self ..) prior hprior
    next hnext

/-- No plan of the portfolio covers other accounts or a later cutoff, and a position whose
quantities are known is on sound evidence. -/
structure SoundAction (ledger : PositionLedger) (scope : ResultAccessScope)
    (command : PositionActionCommand) : Prop where
  plans : planDenial ledger scope command.execution = none
  evidence : ∀ position,
    (scopedReport ledger scope command.execution.concentrationEventId).bind (·.result.position) =
      some position →
    position.snapshot.cutoffAt = command.cutoffAt →
    (actionUnits command position).all (·.totalQuantity.isSome) →
    position.snapshot.snapshotEvidence.problemCodes command.cutoffAt true = []

instance (ledger : PositionLedger) (scope : ResultAccessScope) (command : PositionActionCommand) :
    Decidable (SoundAction ledger scope command) :=
  decidable_of_iff _ ⟨fun h : _ ∧ _ => ⟨h.1, h.2⟩, fun h => ⟨h.plans, h.evidence⟩⟩

theorem SoundAction.soundPosition (h : SoundAction ledger request.scope request.command) :
    SoundPosition ledger request := by
  intro position hposition
  obtain ⟨hposition, hknown⟩ := Option.filter_eq_some_iff.mp hposition
  obtain ⟨hcutoff, hknown⟩ := of_decide_eq_true hknown
  exact h.evidence position hposition hcutoff hknown

section Lifecycle

variable {scope : ResultAccessScope} {portfolioId lifecycleId : String}
  {fact : PositionEventFact} {action : ActionFact}

theorem lifecycleAction?_eq_some
    (h : lifecycleAction? scope portfolioId lifecycleId fact = some action) :
    fact.correctsEventId = none ∧ fact.case.accessScope = some action.scope ∧
      fact.case.positionAction = some action.command ∧
      fact.result.positionAction = some action.outcome ∧ action.scope.sameOwnerAs scope ∧
      action.command.execution.portfolioId = portfolioId ∧
      action.command.lifecycleId = lifecycleId := by
  unfold lifecycleAction? at h
  simp only [bind_eq_some, Option.guard_eq_some', pure_eq_some] at h
  obtain ⟨_, horiginal, other, hother, command, hcommand, outcome, houtcome, _, hguard, rfl⟩ := h
  exact ⟨horiginal, hother, hcommand, houtcome, hguard⟩

/-- A concluded action of a history is one of the lifecycle. -/
theorem lifecycleAction?_of_actionFact? (hscope : request.scope.sameOwnerAs scope)
    (horiginal : fact.correctsEventId = none)
    (h : actionFact? request.scope portfolioId lifecycleId fact = some action) :
    lifecycleAction? scope portfolioId lifecycleId fact = some action ∧
      action.outcome.disposition = .concluded := by
  unfold actionFact? at h
  simp only [bind_eq_some, Option.guard_eq_some', pure_eq_some] at h
  obtain ⟨other, hother, command, hcommand, outcome, houtcome, _, ⟨howner, hportfolio, hlifecycle,
    hconcluded⟩, rfl⟩ := h
  have howned : other.sameOwnerAs scope := by
    unfold ResultAccessScope.sameOwnerAs at howner hscope ⊢
    simp only [decide_eq_true_eq] at howner hscope ⊢
    exact ⟨howner.1.trans hscope.1, howner.2.trans hscope.2⟩
  unfold lifecycleAction?
  simp [horiginal, hother, hcommand, houtcome, howned, hportfolio, hlifecycle, hconcluded]

/-- A concluded action of the lifecycle is in the history of every later one. -/
theorem actionFact?_of_lifecycleAction? (hscope : request.scope.sameOwnerAs scope)
    (h : lifecycleAction? scope portfolioId lifecycleId fact = some action)
    (hconcluded : action.outcome.disposition = .concluded) :
    actionFact? request.scope portfolioId lifecycleId fact = some action := by
  obtain ⟨-, hother, hcommand, houtcome, howner, hportfolio, hlifecycle⟩ :=
    lifecycleAction?_eq_some h
  have howned : action.scope.sameOwnerAs request.scope := by
    unfold ResultAccessScope.sameOwnerAs at howner hscope ⊢
    simp only [decide_eq_true_eq] at howner hscope ⊢
    exact ⟨howner.1.trans hscope.1.symm, howner.2.trans hscope.2.symm⟩
  unfold actionFact?
  simp [hother, hcommand, houtcome, howned, hportfolio, hlifecycle, hconcluded]

end Lifecycle

section Runs

variable {action : ActionFact} {e : HistoryStep PositionInput PositionEventFact}
  {ctx : DecimalContext} {steps : ℕ} {run : List (HistoryStep PositionInput PositionEventFact)}
  {scope : ResultAccessScope} {portfolioId lifecycleId : String}

theorem exists_request (hstep : commitPosition ctx steps e.before e.input = some e.outcome)
    (haction : lifecycleAction? scope portfolioId lifecycleId e.outcome = some action) :
    ∃ request : ActionRequest, request.scope = action.scope ∧ request.command = action.command ∧
      e.outcome.decisionEventId = request.eventId ∧
      adjudicatePositionAction ctx steps (e.input.ledger e.before) request =
        some action.outcome := by
  obtain ⟨horiginal, hscope, hcommand, houtcome, -⟩ := lifecycleAction?_eq_some haction
  obtain ⟨request, hrequestScope, hrequestCommand, hid, hadjudicate⟩ :=
    action_of_commitPosition hstep horiginal houtcome
  rw [hscope] at hrequestScope
  rw [hcommand] at hrequestCommand
  exact ⟨request, (Option.some.inj hrequestScope).symm, (Option.some.inj hrequestCommand).symm,
    hid, hadjudicate⟩

theorem mem_actionHistory {facts : List PositionEventFact} {reportVisible : String → Bool}
    (howner : request.scope.sameOwnerAs scope)
    (hportfolio : request.command.execution.portfolioId = portfolioId)
    (hlifecycle : request.command.lifecycleId = lifecycleId) :
    action ∈ actionHistory ⟨facts, reportVisible⟩ request ↔
      ∃ fact ∈ facts, lifecycleAction? scope portfolioId lifecycleId fact = some action ∧
        action.outcome.disposition = .concluded := by
  subst hportfolio hlifecycle
  unfold actionHistory PositionLedger.positionActionHistory PositionLedger.originalEventFacts
  rw [List.mem_filterMap]
  constructor
  · rintro ⟨fact, hfact, haction⟩
    obtain ⟨hfact, horiginal⟩ := List.mem_filter.mp hfact
    exact ⟨fact, hfact,
      lifecycleAction?_of_actionFact? howner (of_decide_eq_true horiginal) haction⟩
  · rintro ⟨fact, hfact, haction, hconcluded⟩
    have horiginal := (lifecycleAction?_eq_some haction).1
    exact ⟨fact, List.mem_filter.mpr ⟨hfact, decide_eq_true horiginal⟩,
      actionFact?_of_lifecycleAction? howner haction hconcluded⟩

theorem actionDenial_eq_none (h : ∀ prior ∈ actionHistory ledger request,
      prior.command.securityId = request.command.securityId ∧
        request.scope.sameScopeAs prior.scope ∧
        prior.command.cutoffAt ≤ request.command.cutoffAt) :
    actionDenial ledger request = none := by
  refine List.findSome?_eq_none_iff.mpr fun prior hprior => ?_
  obtain ⟨hsecurity, hscope, hcutoff⟩ := h prior hprior
  simp [hsecurity, hscope, not_lt.mpr hcutoff]

/-- Along a run of forward actions no action is denied, and each one has the concluded actions
before it in its history. -/
theorem history_of_forward {earlier later : List (HistoryStep PositionInput PositionEventFact)}
    {next : ActionFact}
    (hforward : ForwardActions scope portfolioId lifecycleId (outcomes (earlier ++ e :: later)))
    (hbefore : e.before = outcomes earlier)
    (hnext : lifecycleAction? scope portfolioId lifecycleId e.outcome = some next)
    (hscope : request.scope = next.scope) (hcommand : request.command = next.command) :
    actionDenial (e.input.ledger e.before) request = none ∧
      ∀ action : ActionFact, action ∈ actionHistory (e.input.ledger e.before) request ↔
        ∃ fact ∈ outcomes earlier, lifecycleAction? scope portfolioId lifecycleId fact =
          some action ∧
          action.outcome.disposition = .concluded := by
  obtain ⟨-, -, -, -, howner, hportfolio, hlifecycle⟩ := lifecycleAction?_eq_some hnext
  rw [← hscope] at howner
  rw [← hcommand] at hportfolio hlifecycle
  have hhistory : ∀ action : ActionFact, action ∈ actionHistory (e.input.ledger e.before) request ↔
      ∃ fact ∈ outcomes earlier, lifecycleAction? scope portfolioId lifecycleId fact = some action ∧
        action.outcome.disposition = .concluded := by
    intro action
    rw [hbefore]
    exact mem_actionHistory howner hportfolio hlifecycle
  refine ⟨actionDenial_eq_none fun prior hprior => ?_, hhistory⟩
  obtain ⟨fact, hfact, hprior, -⟩ := (hhistory prior).mp hprior
  rw [outcomes_append] at hforward
  have hfollows := hforward.follows hfact hprior hnext
  rw [hscope, hcommand]
  exact ⟨hfollows.securityId_eq.symm, hfollows.sameScope, hfollows.cutoffAt_le⟩

/-- Whoever attributes a target to its security concludes. -/
theorem concluded_of_lifecycleAction {quantity : ℚ}
    (hstep : commitPosition ctx steps e.before e.input = some e.outcome)
    (haction : lifecycleAction? scope portfolioId lifecycleId e.outcome = some action)
    (hcarries : CarriesTarget action.command.securityId action.outcome quantity) :
    action.outcome.disposition = .concluded := by
  obtain ⟨request, -, hcommand, -, hadjudicate⟩ := exists_request hstep haction
  obtain ⟨basePlan, concluded, deterministic, hconcluded, heq⟩ :=
    adjudicatePositionAction_eq_some hadjudicate
  rw [heq, ← hcommand] at hcarries
  have hbase : CarriesTarget request.command.securityId concluded quantity := hcarries
  have hdisposition := concluded_of_carriesTarget hbase hconcluded
  rw [heq]
  exact hdisposition

/-- What an action of a lifecycle attributes to its security bounds every later action of the
lifecycle that is sound. -/
theorem actions_ratchet (hrun : PositionRun ctx steps run)
    (hforward : ForwardActions scope portfolioId lifecycleId (outcomes run)) :
    run.Pairwise fun e e' => ∀ prior next quantity,
      lifecycleAction? scope portfolioId lifecycleId e.outcome = some prior →
      lifecycleAction? scope portfolioId lifecycleId e'.outcome = some next →
      CarriesTarget prior.command.securityId prior.outcome quantity →
      SoundAction (e'.input.ledger e'.before) next.scope next.command →
      Ratcheted quantity next.outcome := by
  refine hrun.pairwise_of_split ?_
  intro earlier later e' hsplit hearlier hbefore hstep e he prior next quantity hprior hnext
    hcarries hsound
  have hconcluded := concluded_of_lifecycleAction (hearlier.step_of_mem he) hprior hcarries
  obtain ⟨request, hscope, hcommand, -, hadjudicate⟩ := exists_request hstep hnext
  rw [hsplit] at hforward
  obtain ⟨hdenial, hhistory⟩ := history_of_forward hforward hbefore hnext hscope hcommand
  have hmem : e.outcome ∈ outcomes earlier := List.mem_map_of_mem he
  -- The new action is for the security of the earlier one.
  rw [outcomes_append] at hforward
  have hfollows := hforward.follows hmem hprior hnext
  obtain ⟨plan, target, hexecution, htarget, hsecurity, hsources, rfl⟩ := hcarries
  have hattributed : AttributedBefore (e'.input.ledger e'.before) request target := by
    refine ⟨?_, hsources, prior, (hhistory prior).mpr ⟨e.outcome, hmem, hprior, hconcluded⟩, ?_⟩
    · rw [hsecurity, hcommand, hfollows.securityId_eq]
    · rw [hexecution]
      exact htarget
  rw [← hscope, ← hcommand] at hsound
  exact ratcheted_adjudicatePositionAction hattributed hdenial hsound.plans hsound.soundPosition
    hadjudicate

end Runs

namespace SampleAction

def scope : ResultAccessScope := .personal "U" "A"

variable (t : Instant)

def unit (quantity : ℚ) : PositionActionUnit :=
  { SampleBroker.unit "A" "S" quantity (SampleBroker.evidence t) with marketPrice := some 10 }

def position (quantity : ℚ) : PositionReconciliationOutcome :=
  let bare := SampleRemediation.position t 200 []
  { bare with snapshot := { bare.snapshot with actionUnits := [unit t quantity] } }

/-- An issuer whose obligation allows half of a holding of one hundred. -/
def breach : IssuerConcentration where
  issuerId := "I"
  currentMarketExposure := some 1000
  positionWeight := none
  state := .remediationRequired
  newExposureBlocked := true
  reduces := true
  obligationId := some "O"
  targets := [⟨"S", 50, some 50⟩]
  exposureGap := none
  executionBlocked := false

def concentration (issuers : List IssuerConcentration) : ConcentrationOutcome where
  disposition := .assessed
  reasons := []
  portfolioId := "P"
  snapshotId := "sample"
  cutoffAt := t
  valuationCurrency := "CNY"
  portfolioNetLiquidationEquity := none
  riskBudgetVersionId := none
  thresholds := none
  issuers

def stress : PortfolioStressOutcome where
  portfolioId := "P"
  authorizationId := "K"
  snapshotId := "sample"
  cutoffAt := t
  accountIds := ["A"]
  riskBudgetVersionId := none
  calculationPolicy := none
  budget := none
  state := .normal
  reasons := []
  newExposureBlocked := false

def liquidity (quantity : ℚ) : LiquidityOutcome where
  disposition := .available
  reasons := []
  authorizationId := "K"
  protectionAuthorization := some SampleRemediation.authorization
  positionSnapshot := position t quantity
  newExposureBlocked := false

def drawdown (positionEventId : String) : DrawdownState where
  decisionId := "D"
  epochId := "epoch"
  portfolioId := "P"
  authorizationId := "K"
  accountIds := ["A"]
  cutoffAt := t
  accountingCutoffAt := t
  policy := SampleEpochs.policy
  thresholds := SampleRemediation.proposal.riskBudget.drawdown
  netLiquidationEquity := some 1000
  units := 1000
  unitNav := some 1
  highWaterNav := 1
  maximumDrawdown := 0
  currentDrawdown := some 0
  riskState := .normal
  newExposureBlocked := false
  valuation := ⟨positionEventId, some 0, SampleBroker.evidence t,
    Literal.mem_zero_nonneg⟩
  currentStockExposure := none
  stockExposureLimit := none
  riskDirection := none
  executionBlocked := false
  stockExposureTargetValue := none
  recoverySessions := 0
  lastRecoverySession := none
  lastObservedSession := none
  exactUnits := ⟨1000, 1, Nat.one_pos⟩
  exactPeak := ⟨1, 1, Nat.one_pos⟩
  processedTransfers := []
  processedStockEvents := []
  processedFlowIds := []
  epochStatus := .open
  closedAt := none
  coolingSessions := 0
  previousEpochId := none
  reauthorization := none

variable (eventId : String)

def recorded (result : PositionResult) : PositionInput where
  case := { decisionEventId := eventId, businessObjectId := eventId, accessScope := some scope }
  operation := .record result none

def assessed (t : Instant) (quantity : ℚ) (issuers : List IssuerConcentration) : PositionInput :=
  recorded eventId
    { position := some (position t quantity), concentration := some (concentration t issuers) }

/-- The other risk results of an instant, on the position of an event. -/
def unstressed (positionEventId stressId liquidityId drawdownId : String) (t : Instant)
    (quantity : ℚ) : List PositionInput := [
  recorded stressId { stress := some (stress t) },
  { recorded liquidityId { liquidity := some (liquidity t quantity) } with
    case :=
      { decisionEventId := liquidityId
        businessObjectId := liquidityId
        accessScope := some scope
        liquidity := some (SampleRemediation.assessmentAt "E" (by decide) t 200 []).command } },
  recorded drawdownId
    { drawdown := some
        { disposition := .accepted, reasons := [], state := some (drawdown t positionEventId) } }]

def evidenced (t : Instant) (downside value : ℚ × ℚ) : PositionInput where
  case :=
    { decisionEventId := eventId
      businessObjectId := eventId
      accessScope := some scope
      exitAssessment := some ⟨t, "S", "L"⟩ }
  operation := .record
    { exitAssessment := some
        { standardPrice := some 10
          probabilities :=
            [⟨.d20, some "0.10", some downside.1, some downside.2⟩,
              ⟨.d20, some "0.05", some downside.1, some downside.2⟩,
              ⟨.v60, none, some value.1, some value.2⟩] } } none

def route : ExecutionRoute :=
  SampleBroker.route "A" "S" Literal.ten true t (SampleBroker.evidence t) Literal.zero

def planCommand (concentrationId stressId liquidityId drawdownId : String) :
    ExecutionPlanCommand where
  portfolioId := "P"
  authorizationId := "K"
  cutoffAt := t
  concentrationEventId := concentrationId
  stressEventId := stressId
  liquidityEventId := liquidityId
  drawdownEventId := drawdownId
  routes := [route t]

def action (securityEventId : String) (execution : ExecutionPlanCommand)
    (hexecution : execution.establishedTargets = []) : PositionInput where
  case :=
    { decisionEventId := eventId
      businessObjectId := eventId
      accessScope := some scope
      positionAction := some
        { cutoffAt := execution.cutoffAt
          securityId := "S"
          lifecycleId := "L"
          securityEventId
          execution
          policy := samplePolicy
          establishedTargets_eq_nil := hexecution } }
  operation := .act true fun _ => []

/-- The concentration asks for a reduction, and once it was made nothing asks for more. -/
def reduction : List PositionInput :=
  [assessed "X1" 10 100 [breach],
    action "A1" "E1" (planCommand 10 "X1" "-" "-" "-") rfl,
    assessed "X2" 20 50 []] ++
  unstressed "X2" "T2" "Q2" "D2" 20 50 ++
  [evidenced "E2" 20 (0, 1 / 20) (7 / 10, 4 / 5),
    action "A2" "E2" (planCommand 20 "X2" "T2" "Q2" "D2") rfl]

def decimals : DecimalContext := .ofPrecision 38 .halfEven DecimalContext.thirtyEight_pos

def run (inputs : List PositionInput) : List (HistoryStep PositionInput PositionEventFact) :=
  traceSome (commitPosition decimals 10) inputs

theorem positionRun_run (inputs : List PositionInput) : PositionRun decimals 10 (run inputs) :=
  historyRun_traceSome _ inputs

def first : HistoryStep PositionInput PositionEventFact :=
  (run reduction).get ⟨1, by decide +kernel⟩

def second : HistoryStep PositionInput PositionEventFact :=
  (run reduction).get ⟨7, by decide +kernel⟩

def firstAction : ActionFact :=
  (lifecycleAction? scope "P" "L" first.outcome).get (by decide +kernel)

def secondAction : ActionFact :=
  (lifecycleAction? scope "P" "L" second.outcome).get (by decide +kernel)

theorem lifecycleAction?_first : lifecycleAction? scope "P" "L" first.outcome = some firstAction :=
  (Option.some_get _).symm

theorem lifecycleAction?_second :
    lifecycleAction? scope "P" "L" second.outcome = some secondAction :=
  (Option.some_get _).symm

/-- What relates the steps of the run in order relates these two. -/
theorem pair_of_pairwise
    {R : HistoryStep PositionInput PositionEventFact → HistoryStep PositionInput PositionEventFact →
      Prop} (h : (run reduction).Pairwise R) : R first second :=
  List.pairwise_iff_get.mp h _ _ (by decide)

end SampleAction

open SampleAction in
/-- What the first action attributes bounds the second one, which is sound. -/
theorem sample_actions_ratchet :
    CarriesTarget firstAction.command.securityId firstAction.outcome 50 ∧
      Ratcheted 50 secondAction.outcome := by
  have hpairs := actions_ratchet (positionRun_run reduction)
    (by decide +kernel : ForwardActions scope "P" "L" (outcomes (run reduction)))
  have hcarries : CarriesTarget firstAction.command.securityId firstAction.outcome 50 := by
    decide +kernel
  refine ⟨hcarries, ?_⟩
  exact pair_of_pairwise hpairs firstAction secondAction 50 lifecycleAction?_first
    lifecycleAction?_second hcarries (by decide +kernel)

open SampleAction in
/-- The second action holds what the first one reduced to: no later action has to sell. -/
theorem sample_holds_after_reduction :
    ForwardActions scope "P" "L" (outcomes (run reduction)) ∧
      ¬ (run reduction).Pairwise fun e e' => ∀ prior next quantity,
        lifecycleAction? scope "P" "L" e.outcome = some prior →
        lifecycleAction? scope "P" "L" e'.outcome = some next →
        CarriesTarget prior.command.securityId prior.outcome quantity →
        next.outcome.disposition = .concluded ∧
          (next.outcome.direction = some .reduce ∨ next.outcome.direction = some .exit) ∧
          ∃ target, next.outcome.targetQuantity = some target ∧ target ≤ quantity := by
  refine ⟨by decide +kernel, fun hpairs => ?_⟩
  have hcarries : CarriesTarget firstAction.command.securityId firstAction.outcome 50 := by
    decide +kernel
  obtain ⟨-, hdirection, -⟩ := pair_of_pairwise hpairs firstAction secondAction 50
    lifecycleAction?_first lifecycleAction?_second hcarries
  exact absurd hdirection (by decide +kernel)

end StockProfiler.DecisionCases
