import StockProfiler.Core.Checks
import StockProfiler.Core.Dict
import StockProfiler.Core.History
import StockProfiler.Portfolio.Contracts
import StockProfiler.Portfolio.MarketCalendar

/-!
# Drawdown epochs

Capital facts are derived from committed authorization and position evidence.
A command is adjudicated against the latest retained state of the history, and
its outcome may carry the next state.
-/

namespace StockProfiler.Portfolio

open PositionManagement

/-- Explicit synthetic policy of a capital epoch. -/
@[ext]
structure DrawdownPolicy where
  versionId : String
  defensiveExposureRatio : ℚ
  cautionRecoveryRatio : ℚ
  defensiveRecoveryRatio : ℚ
  cautionRecoverySessions : ℕ
  defensiveRecoverySessions : ℕ
  coolingSessions : ℕ
  marketCalendarVersionId : String
  defensiveExposureRatio_mem : 0 < defensiveExposureRatio ∧ defensiveExposureRatio < 1
  cautionRecoveryRatio_mem : 0 < cautionRecoveryRatio ∧ cautionRecoveryRatio < 1
  defensiveRecoveryRatio_mem : 0 < defensiveRecoveryRatio ∧ defensiveRecoveryRatio < 1
  cautionRecoverySessions_pos : 0 < cautionRecoverySessions
  defensiveRecoverySessions_pos : 0 < defensiveRecoverySessions
  coolingSessions_pos : 0 < coolingSessions

instance : DecidableEq DrawdownPolicy := fun _ _ => decidable_of_iff' _ DrawdownPolicy.ext_iff

/-- The evidenced valuation of a position. -/
structure DrawdownValuation where
  positionEventId : String
  liquidationCost : Option ℚ
  evidence : PositionEvidence
  liquidationCost_nonneg : ∀ cost ∈ liquidationCost, 0 ≤ cost
  deriving DecidableEq

/-- Whether another hard risk gate is active. -/
structure DrawdownRecoveryGate where
  hardGateActive : Bool
  evidence : PositionEvidence

/-- The identity of one ledger entry. -/
structure FlowLedgerKey where
  accountId : String
  entryId : String
  deriving DecidableEq

/-- Whether a capital flow crosses the portfolio boundary. -/
inductive CapitalFlowKind where
  | external
  | internal
  deriving DecidableEq

/-- A capital flow, with the valuation before it and its ledger entries. -/
structure CapitalFlow where
  flowId : String
  kind : CapitalFlowKind
  occurredAt : Instant
  beforeValuation : DrawdownValuation
  ledgerKeys : List FlowLedgerKey
  ledgerKeys_ne_nil : ledgerKeys ≠ []
  deriving DecidableEq

/-- A fraction by numerator and denominator. -/
@[ext]
structure ExactRatio where
  numerator : ℤ
  denominator : ℕ
  denominator_pos : 0 < denominator

namespace ExactRatio

/-- The stored form of a fraction. -/
def ofFraction (value : ℚ) : ExactRatio := ⟨value.num, value.den, value.den_pos⟩

/-- The fraction that is stored. -/
def fraction (r : ExactRatio) : ℚ := r.numerator / r.denominator

@[simp] theorem fraction_ofFraction (value : ℚ) : (ofFraction value).fraction = value :=
  Rat.num_div_den value

end ExactRatio

/-- The confirmation that opens a new epoch. -/
structure CapitalReauthorization where
  authorizationId : String
  previousEpochId : String
  epochId : String
  confirmedAt : Instant

/-- What a drawdown command asks for. -/
inductive DrawdownOperation where
  | «open»
  | observe
  | close
  | reauthorize
  deriving DecidableEq

/-- Whether the operation starts an epoch. -/
def DrawdownOperation.startsEpoch (operation : DrawdownOperation) : Bool :=
  operation = .open || operation = .reauthorize

/-- One drawdown command. -/
structure DrawdownCommand where
  operation : DrawdownOperation
  portfolioId : String
  authorizationId : String
  epochId : String
  previousDecisionId : Option String
  cutoffAt : Instant
  valuation : DrawdownValuation
  policy : DrawdownPolicy
  marketSessionOrdinal : Option ℤ := none
  otherRiskGate : Option DrawdownRecoveryGate := none
  capitalFlows : List CapitalFlow := []
  reauthorization : Option CapitalReauthorization := none

/-- How much of the capital is at risk. -/
inductive RiskState where
  | normal
  | caution
  | defensive
  | preservation
  deriving DecidableEq

/-- Risk states by severity. -/
def RiskState.level : RiskState → ℕ
  | .normal => 0
  | .caution => 1
  | .defensive => 2
  | .preservation => 3

/-- Whether an epoch still takes part in the market. -/
inductive EpochStatus where
  | «open»
  | closed
  deriving DecidableEq

/-- What stock has to do under a risk state. -/
inductive RiskDirection where
  | reduce
  | exit

/-- The retained facts of a capital epoch. -/
structure DrawdownState where
  decisionId : String
  epochId : String
  portfolioId : String
  authorizationId : String
  accountIds : List String
  cutoffAt : Instant
  accountingCutoffAt : Instant
  policy : DrawdownPolicy
  thresholds : DrawdownBudget
  netLiquidationEquity : Option ℚ
  units : ℚ
  unitNav : Option ℚ
  highWaterNav : ℚ
  maximumDrawdown : ℚ
  currentDrawdown : Option ℚ
  riskState : RiskState
  newExposureBlocked : Bool
  valuation : DrawdownValuation
  currentStockExposure : Option ℚ
  stockExposureLimit : Option ℚ
  riskDirection : Option RiskDirection
  executionBlocked : Bool
  stockExposureTargetValue : Option ℚ
  recoverySessions : ℕ
  lastRecoverySession : Option ℤ
  lastObservedSession : Option ℤ
  exactUnits : ExactRatio
  exactPeak : ExactRatio
  processedTransfers : List FlowLedgerKey
  processedStockEvents : List FlowLedgerKey
  processedFlowIds : List String
  epochStatus : EpochStatus
  closedAt : Option Instant
  coolingSessions : ℕ
  previousEpochId : Option String
  reauthorization : Option CapitalReauthorization

/-- How a drawdown command ended. -/
inductive DrawdownDisposition where
  | accepted
  | denied
  | unknown
  deriving DecidableEq

/-- The result appended for a drawdown command. -/
structure DrawdownOutcome where
  disposition : DrawdownDisposition
  reasons : List String
  state : Option DrawdownState := none

/-- A denial that carries no state. -/
def DrawdownOutcome.denied (reason : String) : DrawdownOutcome :=
  { disposition := .denied, reasons := [reason] }

/-- What one adjudication is given besides the history. -/
structure DrawdownInput where
  command : DrawdownCommand
  eventId : String
  accountIds : List String
  authorizations : List PortfolioAuthorizationOutcome
  position : Option PositionReconciliationOutcome
  businessPrerequisiteMet : Bool
  beforePositions : Dict String (Option PositionReconciliationOutcome)

variable (position : PositionReconciliationOutcome) (command : DrawdownCommand)
  (ctx : DecimalContext) (history : List DrawdownOutcome) (policy : DrawdownPolicy)

/-- The decimal of a fraction. -/
def decimalValue (value : ℚ) : ℚ := ctx.div value.num value.den

/-- The equity right before a flow, or why it is unknown. -/
def equityFor (valuation : DrawdownValuation) (position : PositionReconciliationOutcome)
    (accountIds : List String) (currency : String) (flowAt : Instant) : Except String ℚ :=
  let snapshot := position.snapshot
  match snapshot.totalAccountEquity, valuation.liquidationCost with
  | some equity, some cost =>
    if position.disposition ≠ .reconciled ∨ snapshot.valuationCurrency ≠ currency ∨
        !sameMembers (snapshot.cashStates.map (·.accountId)) accountIds ∨
        valuation.evidence.problemCodes snapshot.cutoffAt true ≠ [] then
      .error "DRAWDOWN_EVIDENCE_UNKNOWN"
    else
      let held := snapshot.actionUnits.filter fun unit => unit.totalQuantity.any (· ≠ 0)
      let evidence := valuation.evidence :: snapshot.snapshotEvidence ::
        held.map (·.positionEvidence) ++
        snapshot.cashStates.map (·.accountEvidence) ++
        snapshot.cashStates.map (·.accountEquityEvidence) ++
        snapshot.cashStates.map (·.cashStateEvidence)
      if evidence.any fun e => e.expiresAt.any (· < flowAt) then
        .error "CAPITAL_FLOW_VALUATION_EXPIRED"
      else .ok (equity - cost)
  | _, _ => .error "DRAWDOWN_EVIDENCE_UNKNOWN"

/-- The identities of the transfers of a position. -/
def transferKeys : List FlowLedgerKey :=
  (position.snapshot.authoritativeLedger.filter fun entry =>
    entry.entryType = .transferIn ∨ entry.entryType = .transferOut).map fun entry =>
      ⟨entry.accountId, entry.entryId⟩

/-- Units, peak and interval drawdown once all flows are accounted for. -/
structure UnitAccounting where
  units : ℚ
  peak : ℚ
  flowIds : List String
  intervalDrawdown : ℚ

/-- Where the accounting stands between two flows. -/
structure FlowProgress where
  units : ℚ
  peak : ℚ
  intervalDrawdown : ℚ
  processed : List FlowLedgerKey
  precedingFlowAt : Option Instant

/-- The value that one ledger entry moves, or why it is unknown. -/
def flowEntryAmount (flow : CapitalFlow) (key : FlowLedgerKey) : Except String ℚ :=
  let entries := Dict.ofLast (position.snapshot.authoritativeLedger.map fun entry =>
    ((⟨entry.accountId, entry.entryId⟩ : FlowLedgerKey), entry))
  match entries.get? key with
  -- The declared keys are ledger keys once their coverage is known.
  | none => .error "CAPITAL_FLOW_COVERAGE_UNKNOWN"
  | some entry =>
    if entry.occurredAt ≠ flow.occurredAt ∨ entry.correctsEntryId.isSome then
      .error "CAPITAL_FLOW_CLOCK_UNKNOWN"
    else if entry.quantityDelta = 0 then .ok entry.cashDelta
    else
      let holding := position.snapshot.actionUnits.find? fun unit =>
        unit.accountId = key.accountId ∧ some unit.securityId = entry.securityId
      match holding.bind fun unit => unit.marketPrice.map (unit, ·) with
      | none => .error "CAPITAL_FLOW_ASSET_VALUE_UNKNOWN"
      | some (unit, price) =>
        if unit.positionEvidence.businessEffectiveAt ≠ some flow.occurredAt then
          .error "CAPITAL_FLOW_ASSET_VALUE_UNKNOWN"
        else .ok (entry.cashDelta + entry.quantityDelta * price)

/-- The units once a flow has moved an amount at a value. -/
def flowUnits (flow : CapitalFlow) (units preNav amount : ℚ) : Except String ℚ :=
  match flow.kind with
  | .internal => do
    require (amount = 0 ∧ 2 ≤ (flow.ledgerKeys.map (·.accountId)).dedup.length)
      "INTERNAL_TRANSFER_UNRECONCILED"
    return units
  | .external => .ok (units + amount / preNav)

/-- Account for one flow at the value right before it. -/
def processFlow (input : DrawdownInput) (prior : DrawdownState)
    (position : PositionReconciliationOutcome) (progress : FlowProgress) (flow : CapitalFlow) :
    Except String FlowProgress := do
  let before ← known (input.beforePositions.get? flow.beforeValuation.positionEventId).join
    "CAPITAL_FLOW_CLOCK_UNKNOWN"
  let valuedAt := before.snapshot.cutoffAt
  require (prior.accountingCutoffAt ≤ valuedAt ∧ valuedAt ≤ flow.occurredAt ∧
    flow.occurredAt ≤ input.command.cutoffAt) "CAPITAL_FLOW_CLOCK_UNKNOWN"
  require (progress.precedingFlowAt.all (· ≤ valuedAt) ∧
    sameMembers (transferKeys before) progress.processed) "CAPITAL_FLOW_SEQUENCE_UNKNOWN"
  let preEquity ← equityFor flow.beforeValuation before prior.accountIds
    position.snapshot.valuationCurrency flow.occurredAt
  require (0 < preEquity ∧ 0 < progress.units) "CAPITAL_FLOW_VALUE_UNKNOWN"
  let preNav := preEquity / progress.units
  let peak := max progress.peak preNav
  let amounts ← flow.ledgerKeys.mapM (flowEntryAmount position flow)
  let units ← flowUnits flow progress.units preNav amounts.sum
  require (0 ≤ units) "CAPITAL_UNITS_NEGATIVE"
  return {
    units
    peak
    intervalDrawdown := max progress.intervalDrawdown (1 - preNav / peak)
    processed := progress.processed ++ flow.ledgerKeys
    precedingFlowAt := some flow.occurredAt }

/-- The unit accounting of a command that continues an epoch, or why it is unknown. -/
def adjustedUnits (input : DrawdownInput) (prior : DrawdownState)
    (position : PositionReconciliationOutcome) : Except String UnitAccounting := do
  let flows := input.command.capitalFlows
  let newKeys := (transferKeys position).filter (· ∉ prior.processedTransfers)
  let declared := flows.flatMap (·.ledgerKeys)
  require (declared.Nodup ∧ sameMembers declared newKeys) "CAPITAL_FLOW_COVERAGE_UNKNOWN"
  let ids := flows.map (·.flowId)
  require (ids.Nodup ∧ ids.all (· ∉ prior.processedFlowIds)) "CAPITAL_FLOW_IDENTITY_CONFLICT"
  require ((flows.zip flows.tail).all fun pair => pair.1.occurredAt < pair.2.occurredAt)
    "CAPITAL_FLOW_CLOCK_UNKNOWN"
  let progress ← flows.foldlM (processFlow input prior position)
    { units := prior.exactUnits.fraction
      peak := prior.exactPeak.fraction
      intervalDrawdown := 0
      processed := prior.processedTransfers
      precedingFlowAt := none }
  return ⟨progress.units, progress.peak, prior.processedFlowIds ++ ids, progress.intervalDrawdown⟩

/-- The latest state that the history retains. -/
def priorState : Option DrawdownState :=
  latest (·.state) history

/-- The latest outcome that a predicate on its authorization selects. -/
def latestAuthorization (authorizations : List PortfolioAuthorizationOutcome)
    (p : PortfolioAuthorization → Bool) : Option PortfolioAuthorization :=
  latest (·.authorization.filter p) authorizations

namespace DrawdownInput

variable (input : DrawdownInput)

/-- The authorization that the command names. -/
def namedCapital : Option PortfolioAuthorization :=
  latestAuthorization input.authorizations (·.authorizationId = input.command.authorizationId)

/-- The latest authorization of the portfolio that is in force at the cutoff. -/
def currentCapital : Option PortfolioAuthorization :=
  latestAuthorization input.authorizations fun capital =>
    capital.proposal.portfolioId = input.command.portfolioId ∧
    capital.evidenceAvailableBy input.command.cutoffAt ∧
    capital.proposal.riskBudget.effectiveAt ≤ input.command.cutoffAt

variable (prior : Option DrawdownState)

/-- An open epoch follows the current authorization; a closed one keeps the named one. -/
def effectiveCapital (named : PortfolioAuthorization) : PortfolioAuthorization :=
  if prior.all (·.epochStatus = .open) ∨ input.command.operation = .reauthorize then
    input.currentCapital.getD named
  else named

variable (capital : PortfolioAuthorization)

/-- The authorization does not cover the command. -/
def capitalOutOfScope : Bool :=
  let command := input.command
  let budget := capital.proposal.riskBudget
  capital.proposal.portfolioId ≠ command.portfolioId ∨
    !sameMembers capital.proposal.snapshot.selectedAccountIds input.accountIds ∨
    !capital.evidenceAvailableBy command.cutoffAt ∨
    command.cutoffAt < budget.effectiveAt ∨
    (command.operation.startsEpoch ∧ budget.expiresAt ≤ command.cutoffAt)

/-- The command does not continue the retained state. -/
def revisionConflict : Bool :=
  let command := input.command
  match prior with
  | none => true
  | some prior =>
    command.previousDecisionId ≠ some prior.decisionId ∨
    (command.operation ≠ .reauthorize ∧ command.epochId ≠ prior.epochId) ∨
    command.portfolioId ≠ prior.portfolioId ∨
    !sameMembers input.accountIds prior.accountIds ∨
    command.cutoffAt ≤ prior.cutoffAt ∨
    command.policy ≠ prior.policy

/-- A new epoch is not confirmed for a cooled, closed epoch. -/
def reauthorizationRejected (history : List DrawdownOutcome) (prior : Option DrawdownState)
    (capital : PortfolioAuthorization) : Bool :=
  let command := input.command
  match prior, command.reauthorization with
  | some prior, some confirmation =>
    prior.epochStatus ≠ .closed ∨
    prior.closedAt = none ∨
    prior.coolingSessions < prior.policy.coolingSessions ∨
    prior.authorizationId = command.authorizationId ∨
    confirmation.authorizationId ≠ command.authorizationId ∨
    capital.authorizationId ≠ command.authorizationId ∨
    confirmation.previousEpochId ≠ prior.epochId ∨
    confirmation.epochId ≠ command.epochId ∨
    ¬(prior.cutoffAt < confirmation.confirmedAt ∧
      confirmation.confirmedAt ≤ command.cutoffAt) ∨
    capital.confirmation.confirmedAt ≠ confirmation.confirmedAt ∨
    (history.any fun outcome => outcome.state.any (·.epochId = command.epochId)) ∨
    command.capitalFlows ≠ []
  | _, _ => true

/-- The policy has no calendar, or would recover at once. -/
def policyInvalid (budget : PersonalRiskBudget) : Bool :=
  let policy := input.command.policy
  (syntheticMarketCalendar policy.marketCalendarVersionId).isNone ∨
    (input.command.operation.startsEpoch ∧
      (budget.drawdown.cautionRatio ≤ policy.cautionRecoveryRatio ∨
        budget.drawdown.defensiveRatio ≤ policy.defensiveRecoveryRatio))

/-- The currencies in which the accounts of the epoch are authorized. -/
def accountingCurrencies : List String :=
  let ids := capital.authorizationId ::
    (if input.command.operation = .reauthorize then []
      else (prior.map (·.authorizationId)).toList)
  let authorized := input.authorizations.filterMap fun outcome =>
    outcome.authorization.filter (·.authorizationId ∈ ids)
  authorized.flatMap fun authorization =>
    (authorization.proposal.snapshot.accounts.filter (·.accountId ∈ input.accountIds)).map
      (·.currency)

/-- The reconciled position of the cutoff, with its equity before and the cost of liquidation. -/
def completeEvidence : Option (PositionReconciliationOutcome × ℚ × ℚ) := do
  let command := input.command
  let position ← input.position
  let snapshot := position.snapshot
  let equity ← snapshot.totalAccountEquity
  let cost ← command.valuation.liquidationCost
  guard (position.disposition = .reconciled ∧
    sameMembers (input.accountingCurrencies prior capital) [snapshot.valuationCurrency] ∧
    snapshot.cutoffAt = command.cutoffAt ∧
    sameMembers (snapshot.cashStates.map (·.accountId)) input.accountIds ∧
    command.valuation.evidence.problemCodes command.cutoffAt true = [])
  return (position, equity, cost)

end DrawdownInput

/-- No stock, no order, no active restriction and no cash in transit is left. -/
def fullyReconciledZero : Bool :=
  let snapshot := position.snapshot
  snapshot.actionUnits.all (·.totalQuantity = some 0) ∧
    snapshot.unfinishedOrders = [] ∧
    (snapshot.executionRestrictions.all (!·.active)) ∧
    snapshot.cashStates.all fun cash =>
      cash.frozenCash = some 0 ∧ cash.receivableCash = some 0 ∧ cash.payableCash = some 0

/-- The ledger entries that moved stock. -/
def stockEvents : List FlowLedgerKey :=
  (position.snapshot.authoritativeLedger.filter (·.quantityDelta ≠ 0)).map fun entry =>
    ⟨entry.accountId, entry.entryId⟩

/-- The stock events that a state has not seen. -/
def newStockEvents (prior : Option DrawdownState) (position : PositionReconciliationOutcome) :
    List FlowLedgerKey :=
  match prior with
  | none => []
  | some prior => (stockEvents position).filter (· ∉ prior.processedStockEvents)

/-- The state that unknown evidence leaves behind. -/
def DrawdownState.retained (prior : DrawdownState) (command : DrawdownCommand)
    (eventId : String) : DrawdownState :=
  { prior with
    decisionId := eventId
    cutoffAt := command.cutoffAt
    valuation := command.valuation
    netLiquidationEquity := none
    unitNav := none
    currentDrawdown := none
    currentStockExposure := none
    newExposureBlocked := true
    recoverySessions := 0
    lastRecoverySession := none
    coolingSessions := 0
    executionBlocked := true
    stockExposureTargetValue := none }

/-- An unknown outcome keeps the epoch but none of its session counts. -/
def unknownEvidence (prior : Option DrawdownState) (command : DrawdownCommand) (eventId : String)
    (reason : String) : DrawdownOutcome where
  disposition := .unknown
  reasons := [reason]
  state := prior.map (·.retained command eventId)

/-- What an adjudication rests on once all guards are passed. -/
structure DrawdownBasis where
  capital : PortfolioAuthorization
  /-- The state that is continued; a new epoch continues none. -/
  prior : Option DrawdownState
  predecessorEpochId : Option String
  position : PositionReconciliationOutcome
  equity : ℚ
  closureDenied : Bool

/-- The guards, in order; a command that fails one has its outcome at once. -/
def drawdownBasis (input : DrawdownInput) : Except DrawdownOutcome DrawdownBasis :=
  let command := input.command
  let prior := priorState history
  match input.namedCapital with
  | none => .error (.denied "CAPITAL_AUTHORIZATION_REQUIRED")
  | some named =>
    let capital := input.effectiveCapital prior named
    let budget := capital.proposal.riskBudget
    if !input.businessPrerequisiteMet then
      .error (.denied "CAPITAL_AUTHORIZATION_REQUIRED")
    else if input.capitalOutOfScope capital then
      .error (.denied "CAPITAL_AUTHORIZATION_SCOPE")
    else if command.operation = .open ∧ (prior.isSome ∨ command.previousDecisionId.isSome) then
      .error (.denied "CAPITAL_EPOCH_ALREADY_EXISTS")
    else if command.operation ≠ .open ∧ input.revisionConflict prior then
      .error (.denied "CAPITAL_EPOCH_REVISION_CONFLICT")
    else if command.operation = .reauthorize ∧
        input.reauthorizationRejected history prior capital then
      .error (.denied "CAPITAL_REAUTHORIZATION_REQUIRED")
    else if input.policyInvalid budget then
      .error (.denied "DRAWDOWN_POLICY_INVALID")
    else match input.completeEvidence prior capital with
      | none => .error (unknownEvidence prior command input.eventId "DRAWDOWN_EVIDENCE_UNKNOWN")
      | some (position, total, cost) =>
        let equity := ctx.sub total cost
        if equity ≤ 0 ∧ command.operation.startsEpoch then
          .error (.denied "POSITIVE_INITIAL_CAPITAL_REQUIRED")
        else if command.operation = .reauthorize ∧ !fullyReconciledZero position then
          .error (.denied "CAPITAL_EXECUTION_RECONCILIATION_REQUIRED")
        else if command.operation = .reauthorize ∧ newStockEvents prior position ≠ [] then
          .error { unknownEvidence prior command input.eventId
            "CAPITAL_COOLING_CONTINUITY_REQUIRED" with disposition := .denied }
        else .ok
          { capital
            prior := if command.operation = .reauthorize then none else prior
            predecessorEpochId :=
              if command.operation = .reauthorize then prior.map (·.epochId)
              else prior.bind (·.previousEpochId)
            position
            equity
            closureDenied := command.operation = .close ∧
              (!fullyReconciledZero position ∨ prior.any (·.epochStatus = .closed)) }

/-- Units, value and drawdown of one observation. -/
structure DrawdownReading where
  units : ℚ
  peak : ℚ
  flowIds : List String
  nav : Option ℚ
  drawdown : Option ℚ
  intervalDrawdown : ℚ

/-- Value the units at the observed equity. -/
def UnitAccounting.read (accounting : UnitAccounting) (equity : ℚ) : DrawdownReading :=
  let nav := if accounting.units = 0 then none else some (equity / accounting.units)
  let peak := nav.elim accounting.peak (max accounting.peak)
  let drawdown := nav.map fun nav => 1 - nav / peak
  { units := accounting.units
    peak
    flowIds := accounting.flowIds
    nav
    drawdown
    intervalDrawdown := drawdown.elim accounting.intervalDrawdown
      (max accounting.intervalDrawdown) }

/-- A new epoch starts with one unit for each unit of equity. -/
def openingUnits (equity : ℚ) : UnitAccounting := ⟨equity, 1, [], 0⟩

/-- The reading of a command, or why it is unknown. -/
def drawdownReading (input : DrawdownInput) (basis : DrawdownBasis) :
    Except String DrawdownReading :=
  match basis.prior with
  | none => .ok ((openingUnits basis.equity).read basis.equity)
  | some prior => (adjustedUnits input prior basis.position).map (·.read basis.equity)

variable (thresholds : DrawdownBudget) (risk : RiskState)

/-- A drawdown raises the risk state, and never lowers it. -/
def escalate (interval : ℚ) : RiskState :=
  if thresholds.preservationRatio ≤ interval then .preservation
  else if risk ≠ .preservation ∧ thresholds.defensiveRatio ≤ interval then .defensive
  else if risk = .normal ∧ thresholds.cautionRatio ≤ interval then .caution
  else risk

/-- What a command says about market sessions and other risk gates. -/
structure SessionReading where
  session : Option MarketSession
  observedClose : Bool
  newClose : Bool
  lastObserved : Option ℤ
  gateClear : Bool
  invalidPeriod : Bool

/-- The session that a command names. -/
def namedSession : Option MarketSession := do
  let calendar ← syntheticMarketCalendar command.policy.marketCalendarVersionId
  calendar.sessionFor (← command.marketSessionOrdinal)

/-- The session after the one that a command names. -/
def followingSession : Option MarketSession := do
  let calendar ← syntheticMarketCalendar command.policy.marketCalendarVersionId
  calendar.nextSessionAfter (← namedSession command).closedAt

/-- The position is that of the close, and the next session has not closed yet. -/
def observedAtClose (position : PositionReconciliationOutcome) (session : MarketSession) : Bool :=
  position.snapshot.evidenceClock.businessEffectiveAt = some session.closedAt ∧
    session.closedAt ≤ command.cutoffAt ∧
    (followingSession command).all (command.cutoffAt < ·.closedAt)

/-- No other hard gate is active, on current evidence. -/
def gateClear : Bool :=
  command.otherRiskGate.any fun gate =>
    !gate.hardGateActive ∧ gate.evidence.problemCodes command.cutoffAt true = []

/-- Read the session and the gate of a command. -/
def sessionReading (prior : Option DrawdownState) (position : PositionReconciliationOutcome) :
    SessionReading :=
  let session := namedSession command
  let observedClose := session.any (observedAtClose command position)
  let lastObserved := prior.bind (·.lastObservedSession)
  { session
    observedClose
    newClose := observedClose ∧ session.any fun session => lastObserved.all (· < session.ordinal)
    lastObserved := if observedClose then
        session.map fun session => max (lastObserved.getD session.ordinal) session.ordinal
      else lastObserved
    gateClear := gateClear command
    invalidPeriod := command.marketSessionOrdinal.isSome ∧ !observedClose }

/-- The recovery conditions of a risk level. -/
def recoveryEligible (reading : DrawdownReading) (equity exposure : ℚ) : Bool :=
  match reading.drawdown with
  | none => false
  | some drawdown =>
    risk = .caution ∧ reading.intervalDrawdown < thresholds.cautionRatio ∧
      drawdown < policy.cautionRecoveryRatio ∨
    risk = .defensive ∧ reading.intervalDrawdown < thresholds.defensiveRatio ∧
      drawdown < policy.defensiveRecoveryRatio ∧
      exposure ≤ equity * policy.defensiveExposureRatio

/-- The number of sessions a level needs. -/
def requiredSessions : ℕ :=
  if risk = .caution then policy.cautionRecoverySessions else policy.defensiveRecoverySessions

/-- The level below, once enough sessions were counted. -/
def RiskState.recovered : RiskState :=
  if risk = .caution then .normal else .caution

/-- A risk state with its count of sessions. -/
structure RecoveryProgress where
  riskState : RiskState
  count : ℕ
  lastSession : Option ℤ

/-- A count goes on when the last counted session is the one before. -/
def nextCount (count : ℕ) (last : Option ℤ) (ordinal : ℤ) : ℕ :=
  if last = some (ordinal - 1) then count + 1 else 1

/-- Count a session towards recovery. -/
def recovery (prior : Option DrawdownState) (risk : RiskState) (reading : DrawdownReading)
    (sessions : SessionReading) (equity exposure : ℚ) : RecoveryProgress :=
  match prior with
  | none => ⟨risk, 0, none⟩
  | some prior =>
    if risk = prior.riskState ∧ sessions.gateClear ∧ !sessions.invalidPeriod ∧
        recoveryEligible policy thresholds risk reading equity exposure then
      match sessions.session.filter fun _ => sessions.newClose with
      | none => ⟨risk, prior.recoverySessions, prior.lastRecoverySession⟩
      | some session =>
        let count := nextCount prior.recoverySessions prior.lastRecoverySession session.ordinal
        if requiredSessions policy risk ≤ count then ⟨risk.recovered, 0, none⟩
        else ⟨risk, count, some session.ordinal⟩
    else ⟨risk, 0, none⟩

/-- The state of an epoch with its counts of sessions. -/
structure EpochProgress where
  status : EpochStatus
  closedAt : Option Instant
  count : ℕ
  lastSession : Option ℤ
  cooling : ℕ

/-- The session is on a later date than the closure, and no stock moved on or after it. -/
def coolingSession (closedAt : Option Instant) (session : MarketSession) : Bool :=
  (closedAt.any fun closedAt => closedAt.utcDay < session.closedAt.utcDay) ∧
    !position.snapshot.authoritativeLedger.any fun entry =>
      entry.quantityDelta ≠ 0 ∧ session.closedAt.utcDay ≤ entry.occurredAt.utcDay

/-- Close the epoch, or count a session of a closed one towards cooling. -/
def epochProgress (basis : DrawdownBasis) (sessions : SessionReading)
    (recovery : RecoveryProgress) : EpochProgress :=
  if command.operation = .close ∧ !basis.closureDenied then
    ⟨.closed, some command.cutoffAt, 0, none, 0⟩
  else match basis.prior with
    | none => ⟨.open, none, recovery.count, recovery.lastSession, 0⟩
    | some prior =>
      if prior.epochStatus = .open then
        ⟨.open, prior.closedAt, recovery.count, recovery.lastSession, 0⟩
      else
        let clear := fullyReconciledZero basis.position ∧ sessions.gateClear
        let unchanged := newStockEvents (some prior) basis.position = []
        match sessions.session.filter fun session =>
            clear ∧ sessions.newClose ∧
              coolingSession basis.position prior.closedAt session with
        | some session =>
          ⟨.closed, prior.closedAt, 0, some session.ordinal,
            if unchanged then
              nextCount prior.coolingSessions prior.lastRecoverySession session.ordinal
            else 1⟩
        | none =>
          if clear ∧ unchanged ∧ !sessions.invalidPeriod then
            ⟨.closed, prior.closedAt, 0, prior.lastRecoverySession, prior.coolingSessions⟩
          else ⟨.closed, prior.closedAt, 0, recovery.lastSession, 0⟩

/-- The stock exposure that a risk state allows, as a share of equity. -/
def stockExposureLimit : RiskState → Option ℚ
  | .preservation => some 0
  | .defensive => some policy.defensiveExposureRatio
  | _ => none

/-- The market exposure of all issuers. -/
def stockExposure (position : PositionReconciliationOutcome) : ℚ :=
  ctx.sum (position.snapshot.issuerExposures.map fun item => item.currentMarketExposure.getD 0)

/-- The exposure that may be sold. -/
def sellableExposure : ℚ :=
  (position.snapshot.actionUnits.map fun unit =>
    unit.exactStatisticalActionQuantity.getD 0 * unit.marketPrice.getD 0).sum

/-- The risk state and the counts of one observation. -/
def riskProgress (input : DrawdownInput) (basis : DrawdownBasis) (reading : DrawdownReading) :
    RecoveryProgress :=
  let thresholds := basis.capital.proposal.riskBudget.drawdown
  let risk := escalate thresholds (basis.prior.elim .normal (·.riskState)) reading.intervalDrawdown
  recovery input.command.policy thresholds basis.prior risk reading
    (sessionReading input.command basis.prior basis.position) basis.equity
    (stockExposure ctx basis.position)

/-- The state that an observation leaves. -/
def nextState (input : DrawdownInput) (basis : DrawdownBasis) (reading : DrawdownReading) :
    DrawdownState :=
  let command := input.command
  let budget := basis.capital.proposal.riskBudget
  let sessions := sessionReading command basis.prior basis.position
  let exposure := stockExposure ctx basis.position
  let recovery := riskProgress ctx input basis reading
  let epoch := epochProgress command basis sessions recovery
  let limit := stockExposureLimit command.policy recovery.riskState
  let target := limit.map fun limit => decimalValue ctx (max basis.equity 0 * limit)
  { decisionId := input.eventId
    epochId := command.epochId
    portfolioId := command.portfolioId
    authorizationId := basis.capital.authorizationId
    accountIds := input.accountIds
    cutoffAt := command.cutoffAt
    accountingCutoffAt := command.cutoffAt
    policy := command.policy
    thresholds := budget.drawdown
    netLiquidationEquity := some basis.equity
    units := decimalValue ctx reading.units
    unitNav := reading.nav.map (decimalValue ctx)
    highWaterNav := decimalValue ctx reading.peak
    maximumDrawdown := max (basis.prior.elim 0 (·.maximumDrawdown))
      (decimalValue ctx reading.intervalDrawdown)
    currentDrawdown := reading.drawdown.map (decimalValue ctx)
    riskState := recovery.riskState
    newExposureBlocked := recovery.riskState ≠ .normal ∨ epoch.status = .closed ∨
      budget.expiresAt ≤ command.cutoffAt ∨ reading.nav = none
    valuation := command.valuation
    currentStockExposure := some exposure
    stockExposureLimit := limit
    riskDirection :=
      if recovery.riskState = .preservation then some .exit
      else if target.any (· < exposure) then some .reduce
      else none
    executionBlocked := target.any (· < exposure - sellableExposure basis.position)
    stockExposureTargetValue := target
    recoverySessions := epoch.count
    lastRecoverySession := epoch.lastSession
    lastObservedSession := sessions.lastObserved
    exactUnits := .ofFraction reading.units
    exactPeak := .ofFraction reading.peak
    processedTransfers := transferKeys basis.position
    processedStockEvents := stockEvents basis.position
    processedFlowIds := reading.flowIds
    epochStatus := epoch.status
    closedAt := epoch.closedAt
    coolingSessions := epoch.cooling
    previousEpochId := basis.predecessorEpochId
    reauthorization := basis.prior.elim command.reauthorization (·.reauthorization) }

/-- The observation of a command that passes all guards and whose accounting is known. -/
def observation (input : DrawdownInput) : Option (DrawdownBasis × DrawdownReading) :=
  match drawdownBasis ctx history input with
  | .error _ => none
  | .ok basis => (drawdownReading input basis).toOption.map (basis, ·)

/-- Adjudicate one command against the history. -/
def adjudicate (input : DrawdownInput) : DrawdownOutcome :=
  match drawdownBasis ctx history input with
  | .error outcome => outcome
  | .ok basis =>
    match drawdownReading input basis with
    | .error reason => unknownEvidence basis.prior input.command input.eventId reason
    | .ok reading =>
      { disposition := if basis.closureDenied then .denied else .accepted
        reasons :=
          [if basis.closureDenied then "CAPITAL_EXECUTION_RECONCILIATION_REQUIRED"
          else if reading.units = 0 then "CAPITAL_UNITS_REDEEMED"
          else if basis.prior = none then "CAPITAL_EPOCH_OPENED"
          else "DRAWDOWN_OBSERVED"]
        state := some (nextState ctx input basis reading) }

end StockProfiler.Portfolio
