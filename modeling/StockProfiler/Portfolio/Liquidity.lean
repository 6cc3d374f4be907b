import StockProfiler.Core.Checks
import StockProfiler.Core.History
import StockProfiler.Portfolio.Funding

/-!
# Cash reserves

Deployable cash is adjudicated over a retained authorization and reconciled
broker facts. A breach of the hard floor starts a remediation, which later
assessments retain until a restoration of cash is confirmed.
-/

namespace StockProfiler.Portfolio

open PositionManagement

/-- A receipt for an obligation that was paid from outside. -/
@[ext]
structure SettledObligationCoverage where
  receiptId : String
  obligationId : String
  amount : ℚ
  evidence : PositionEvidence
  amount_pos : 0 < amount

instance : DecidableEq SettledObligationCoverage := fun _ _ =>
  decidable_of_iff' _ SettledObligationCoverage.ext_iff

/-- One request to assess the liquidity of a portfolio. -/
structure LiquidityCommand where
  portfolioId : String
  authorizationId : String
  positionSnapshot : PositionSnapshotCommand
  expectedPurchaseFees : ℚ
  expectedLiquidationFees : ℚ
  saleTerms : List SaleFundingTerms
  transferRoutes : List CashTransferRoute
  settledCoverage : List SettledObligationCoverage
  costEvidence : Option PositionEvidence
  expectedPurchaseFees_nonneg : 0 ≤ expectedPurchaseFees
  expectedLiquidationFees_nonneg : 0 ≤ expectedLiquidationFees

/-- How a liquidity assessment ended. -/
inductive LiquidityDisposition where
  | available
  | zeroDeployableCash
  | remediationRequired
  | evidenceFailed
  | fundingInfeasible
  deriving DecidableEq

/-- The text of a disposition. -/
def LiquidityDisposition.text : LiquidityDisposition → String
  | .available => "AVAILABLE"
  | .zeroDeployableCash => "ZERO_DEPLOYABLE_CASH"
  | .remediationRequired => "REMEDIATION_REQUIRED"
  | .evidenceFailed => "EVIDENCE_FAILED"
  | .fundingInfeasible => "FUNDING_INFEASIBLE"

/-- The result appended for one assessment. -/
structure LiquidityOutcome where
  disposition : LiquidityDisposition
  reasons : List String
  authorizationId : String
  protectionAuthorization : Option PortfolioAuthorizationOutcome := none
  purchaseAuthorization : Option PortfolioAuthorizationOutcome := none
  positionSnapshot : PositionReconciliationOutcome
  netLiquidationEquity : Option ℚ := none
  normalCashTarget : Option ℚ := none
  hardCashFloor : Option ℚ := none
  qualifiedCash : Option ℚ := none
  reservedBuyCash : Option ℚ := none
  sixMonthObligations : Option ℚ := none
  deployablePurchaseCash : Option ℚ := none
  remediationShortfall : Option ℚ := none
  remediationId : Option String := none
  restorationCashConfirmed : Bool := false
  retainedRemediationShortfall : Option ℚ := none
  maximumFundableCash : Option ℚ := none
  uncoveredObligationGap : Option ℚ := none
  maximumFundingPlan : List MaximumFundingLeg := []
  obligationFunding : List ObligationFunding := []
  settledCoverage : List SettledObligationCoverage := []
  newExposureBlocked : Bool := true

/-- The cutoff of the position that was assessed. -/
def LiquidityOutcome.cutoffAt (outcome : LiquidityOutcome) : Instant :=
  outcome.positionSnapshot.snapshot.cutoffAt

/-- What one assessment is given besides the history. -/
structure LiquidityInput where
  command : LiquidityCommand
  authorization : PortfolioAuthorizationOutcome
  position : PositionReconciliationOutcome
  purchaseAuthorization : PortfolioAuthorizationOutcome
  eventId : String
  /-- The identity of an event is never empty. -/
  eventId_ne_empty : eventId ≠ ""

/-- An outcome that later assessments look back to. -/
def LiquidityOutcome.retained (outcome : LiquidityOutcome) : Bool :=
  outcome.disposition ≠ .evidenceFailed ∨ outcome.remediationId ≠ none

variable (ctx : DecimalContext) (history : List LiquidityOutcome)

/-- The outcome that an assessment looks back to. -/
def latestLiquidity : Option LiquidityOutcome :=
  lastMax LiquidityOutcome.cutoffAt (history.filter (·.retained))

/-- The last outcome of a remediation in which cash was assessed. -/
def lastCashAssessment (remediationId : String) : Option LiquidityOutcome :=
  lastMax LiquidityOutcome.cutoffAt (history.filter fun item =>
    item.remediationId = some remediationId ∧ item.qualifiedCash ≠ none)

/-- Retain a receipt, unless its identity has other content. -/
def retainReceipt (retained : Dict String SettledObligationCoverage)
    (receipt : SettledObligationCoverage) : Option (Dict String SettledObligationCoverage) :=
  if (retained.get? receipt.receiptId).any (· ≠ receipt) then none
  else some (retained.set receipt.receiptId receipt)

/-- Reduce what remains of an obligation by a receipt. -/
def applyReceipt (remaining : Dict String ℚ) (receipt : SettledObligationCoverage) :
    Option (Dict String ℚ) := do
  let amount ← remaining.get? receipt.obligationId
  let left := ctx.sub amount receipt.amount
  guard (0 ≤ left)
  return remaining.set receipt.obligationId left

/-- All receipts, earlier ones first, unless one of them is invalid. -/
def retainedReceipts (command : LiquidityCommand) (history : List LiquidityOutcome) :
    Option (Dict String SettledObligationCoverage) := do
  let earlier ← (history.flatMap (·.settledCoverage)).foldlM retainReceipt []
  guard (command.settledCoverage.map (·.receiptId)).Nodup
  command.settledCoverage.foldlM (fun retained receipt => do
    guard (receipt.evidence.problemCodes command.positionSnapshot.cutoffAt false = [])
    retainReceipt retained receipt) earlier

/-- What is left of an obligation. -/
def outstandingObligation (remaining : Dict String ℚ) (item : DatedCashObligation) :
    Option DatedCashObligation :=
  match remaining.get? item.obligationId with
  | none => none
  | some amount => if h : 0 < amount then some { item with amount, amount_pos := h } else none

/-- The outstanding obligations with all receipts in order, unless a receipt is invalid. -/
def outstandingObligations (obligations : List DatedCashObligation) (command : LiquidityCommand)
    (history : List LiquidityOutcome) :
    Option (List DatedCashObligation × List SettledObligationCoverage) := do
  let retained ← retainedReceipts command history
  let remaining ← (retained.map Prod.snd).foldlM (applyReceipt ctx)
    (Dict.ofLast (obligations.map fun item => (item.obligationId, item.amount)))
  return (obligations.filterMap (outstandingObligation remaining),
    (sortedSet retained.keys).filterMap retained.get?)

/-- A broker sale for cash after a snapshot, which the snapshot does not list. -/
def confirmsRestoration (original : ReconciledPositionSnapshot)
    (entry : AuthoritativeLedgerEntry) : Bool :=
  entry.entryType = .fill ∧ entry.quantityDelta < 0 ∧ 0 < entry.cashDelta ∧
    original.cutoffAt < entry.occurredAt ∧
    ¬(original.authoritativeLedger.map fun entry => (entry.accountId, entry.entryId)).contains
      (entry.accountId, entry.entryId)

/-- Whether the broker or a receipt confirms that cash was restored. -/
def restorationConfirmed (remediationId : String) (position : PositionReconciliationOutcome)
    (qualifiedCash : ℚ) (coverage : List SettledObligationCoverage)
    (history : List LiquidityOutcome) : Bool :=
  match lastCashAssessment history remediationId with
  | none => false
  | some progress =>
    match progress.qualifiedCash with
    | none => false
    | some previousCash =>
      if progress.restorationCashConfirmed then true
      else if coverage.any fun item =>
          item.receiptId ∉ progress.settledCoverage.map (·.receiptId) then true
      else if qualifiedCash ≤ previousCash then false
      else (history.find? (·.remediationId = some remediationId)).any fun trigger =>
        position.snapshot.authoritativeLedger.any
          (confirmsRestoration trigger.positionSnapshot.snapshot)

/-- What an assessment takes over from the outcome it continues. -/
structure LiquidityCarry where
  remediationId : Option String := none
  retainedShortfall : Option ℚ := none
  confirmed : Bool := false

variable (prior : Option LiquidityOutcome) (input : LiquidityInput)

/-- The last assessed outcome of the remediation that an outcome carries. -/
def cashProgress : Option LiquidityOutcome :=
  (prior.bind (·.remediationId)).bind (lastCashAssessment history)

/-- Whether a remediation cannot be followed over the accounts of a command. -/
def historyScopeIncomplete (progress : Option LiquidityOutcome) (command : LiquidityCommand) :
    Bool :=
  (prior.bind (·.remediationId)).isSome &&
    !progress.any fun p => p.positionSnapshot.snapshot.cashStates.all
      (·.accountId ∈ command.positionSnapshot.accountIds)

/-- What is taken over from a prior outcome in scope. -/
def carryOf (progress : Option LiquidityOutcome) : LiquidityCarry where
  remediationId := prior.bind (·.remediationId)
  retainedShortfall := prior.bind fun p => p.remediationShortfall.or p.retainedRemediationShortfall
  confirmed := progress.any (·.restorationCashConfirmed)

/-- An outcome that assesses no cash and carries the remediation on. -/
def evidenceFailure (carry : LiquidityCarry) (coverage : List SettledObligationCoverage)
    (reasons : List String) : LiquidityOutcome where
  disposition := .evidenceFailed
  reasons := reasons
  authorizationId := input.command.authorizationId
  protectionAuthorization := some input.authorization
  purchaseAuthorization := some input.purchaseAuthorization
  positionSnapshot := input.position
  remediationId := carry.remediationId
  retainedRemediationShortfall := carry.retainedShortfall
  settledCoverage := coverage
  restorationCashConfirmed := carry.confirmed

/-- The cash figures of one assessment. -/
structure CashFigures where
  equity : ℚ
  qualified : ℚ
  reserved : ℚ
  obligations : ℚ
  target : ℚ
  floor : ℚ
  deployable : ℚ
  purchaseBlocked : Bool

/-- The cash that final broker layers leave against the budget. Trading cash already
excludes what unfinished buys reserve. -/
def cashFigures (cash : CashBudget) (outstanding : List DatedCashObligation) (totalEquity : ℚ) :
    CashFigures :=
  let snapshot := input.position.snapshot
  let equity := ctx.sub totalEquity input.command.expectedLiquidationFees
  let trading := ctx.sum (snapshot.cashStates.filterMap (·.tradingCash))
  let reserved := ctx.sum
    ((snapshot.unfinishedOrders.filter (·.side = .buy)).filterMap (·.reservedCash))
  let qualified := max 0 (ctx.sub trading input.command.expectedPurchaseFees)
  let horizon := addCalendarMonths snapshot.cutoffOffset snapshot.cutoffAt 6
  let obligations := ctx.sum ((outstanding.filter (·.latestUsableAt ≤ horizon)).map (·.amount))
  let allObligations := ctx.sum (outstanding.map (·.amount))
  let remainingEquity := max 0 (ctx.sub equity obligations)
  let systemReserve := ctx.mul remainingEquity cash.targetRatio
  let purchaseBlocked := input.purchaseAuthorization.disposition ≠ .approved ∨ equity ≤ 0
  { equity := equity
    qualified := qualified
    reserved := reserved
    obligations := obligations
    target := ctx.add obligations systemReserve
    floor := ctx.add obligations (ctx.mul remainingEquity cash.hardRatio)
    deployable := if purchaseBlocked then 0
      else max 0 (ctx.sub (ctx.sub qualified systemReserve) allObligations)
    purchaseBlocked := purchaseBlocked }

/-- The cash that a started or carried remediation still has to restore. -/
def restorationShortfall (figures : CashFigures) (remediationId : Option String) : ℚ :=
  if figures.qualified < figures.floor ∨ remediationId ≠ none then
    max 0 (ctx.sub figures.target figures.qualified)
  else 0

/-- Whether the obligations exceed what can be funded. -/
def fundingInfeasible (figures : CashFigures) (outstanding : List DatedCashObligation)
    (funding : FundingAssessment) : Bool :=
  outstanding ≠ [] ∧ figures.equity ≤ figures.obligations ∨ funding.uncoveredGap.any (0 < ·)

/-- The outcome of an assessment on sound evidence. -/
def assessedLiquidity (carry : LiquidityCarry) (figures : CashFigures)
    (outstanding : List DatedCashObligation) (coverage : List SettledObligationCoverage)
    (funding : FundingAssessment) : LiquidityOutcome :=
  let restoration := restorationShortfall ctx figures carry.remediationId
  let confirmed := carry.remediationId.any fun id => restoration = 0 ∧
    restorationConfirmed id input.position figures.qualified coverage history
  let remediationActive := 0 < restoration ∨
    carry.remediationId ≠ none ∧ (funding.reasons ≠ [] ∨ confirmed = false)
  let infeasible := fundingInfeasible figures outstanding funding
  let disposition : LiquidityDisposition :=
    if funding.reasons ≠ [] then .evidenceFailed
    else if infeasible then .fundingInfeasible
    else if remediationActive then .remediationRequired
    else if figures.deployable = 0 then .zeroDeployableCash
    else .available
  { disposition := disposition
    reasons := ("LIQUIDITY_" ++ disposition.text) ::
      ((if input.purchaseAuthorization.disposition ≠ .approved then
        input.purchaseAuthorization.reasons else []) ++
      (if figures.equity ≤ 0 then ["NONPOSITIVE_NET_LIQUIDATION_EQUITY"] else []) ++
      (if remediationActive ∧ restoration = 0 then ["RESTORATION_CONFIRMATION_REQUIRED"] else []) ++
      funding.reasons)
    authorizationId := input.command.authorizationId
    protectionAuthorization := some input.authorization
    purchaseAuthorization := some input.purchaseAuthorization
    positionSnapshot := input.position
    netLiquidationEquity := some figures.equity
    normalCashTarget := some figures.target
    hardCashFloor := some figures.floor
    qualifiedCash := some figures.qualified
    reservedBuyCash := some figures.reserved
    sixMonthObligations := some figures.obligations
    deployablePurchaseCash := some
      (if funding.reasons ≠ [] ∨ infeasible ∨ remediationActive then 0 else figures.deployable)
    remediationShortfall := some restoration
    -- An empty identity counts as none here.
    remediationId := if remediationActive then
      some ((carry.remediationId.filter (· ≠ "")).getD input.eventId) else none
    restorationCashConfirmed := confirmed
    retainedRemediationShortfall := if funding.reasons ≠ [] then carry.retainedShortfall else none
    maximumFundableCash := funding.maximumFundableCash
    uncoveredObligationGap := funding.uncoveredGap
    maximumFundingPlan := funding.plan
    obligationFunding := funding.obligations
    settledCoverage := coverage
    newExposureBlocked := figures.qualified < figures.target ∨ figures.purchaseBlocked ∨
      infeasible ∨ remediationActive ∨ funding.reasons ≠ [] }

/-- Whether the position is not the reconciled one of the selected accounts. -/
def positionUnsound (proposal : PortfolioProposal) (position : PositionReconciliationOutcome) :
    Bool :=
  !sameMembers proposal.snapshot.selectedAccountIds
      (position.snapshot.cashStates.map (·.accountId)) ||
    position.disposition ≠ .reconciled

/-- Assess the cash of a scope that the history covers. -/
def assessInScope (steps : ℕ) (history : List LiquidityOutcome) (input : LiquidityInput)
    (carry : LiquidityCarry) : Option LiquidityOutcome :=
  let snapshot := input.position.snapshot
  match input.authorization.usage with
  | none => some (evidenceFailure input carry [] input.authorization.reasons)
  | some usage =>
    if !usage.allowed then some (evidenceFailure input carry [] input.authorization.reasons)
    else match outstandingObligations ctx usage.unfinishedCashObligations input.command history with
      | none => some (evidenceFailure input carry [] ["SETTLED_OBLIGATION_COVERAGE_INVALID"])
      | some (outstanding, coverage) =>
        if !input.command.costEvidence.any (·.problemCodes snapshot.cutoffAt true = []) then
          some (evidenceFailure input carry coverage ["LIQUIDITY_COST_EVIDENCE_FAILED"])
        else
          let proposal := usage.authorizationSnapshot.proposal
          match snapshot.totalAccountEquity, positionUnsound proposal input.position with
          | some totalEquity, false =>
            let figures := cashFigures ctx input proposal.riskBudget.cash outstanding totalEquity
            (assessFunding ctx steps snapshot input.command.saleTerms outstanding
              input.command.transferRoutes).map
                (assessedLiquidity ctx history input carry figures outstanding coverage)
          | _, _ =>
            some (evidenceFailure input carry coverage ["LIQUIDITY_POSITION_EVIDENCE_FAILED"])

/-- Use explicit frozen policy only; unknown facts never become a zero balance. There is no
outcome when the funding fails to be assessed within the steps. -/
def assessLiquidity (steps : ℕ) (history : List LiquidityOutcome) (input : LiquidityInput) :
    Option LiquidityOutcome :=
  let prior := latestLiquidity history
  let progress := cashProgress history prior
  if historyScopeIncomplete prior progress input.command then
    some (evidenceFailure input {} [] ["LIQUIDITY_HISTORY_SCOPE_INCOMPLETE"])
  else assessInScope ctx steps history input (carryOf prior progress)

end StockProfiler.Portfolio
