import StockProfiler.PositionManagement.Accounts

/-!
# Reconciling a frozen snapshot

All passes run in a fixed order over the accounts of a command. The verdict is
the absence of any report; the projections read the reasons that the reports
leave behind, and never choose between conflicting facts.
-/

namespace StockProfiler.PositionManagement

/-- A position row with the account that supplied it. -/
abbrev PositionRow := AccountPositionSnapshot × BrokerPositionFact

/-- The position rows of all accounts, in order. -/
def positionRows (accounts : List AccountPositionSnapshot) : List PositionRow :=
  accounts.flatMap fun account => account.positions.map (account, ·)

section Passes

variable (ctx : DecimalContext) (cutoffAt : Instant)

/-- Restrictions are reported for their evidence. -/
def restrictionReports (account : AccountPositionSnapshot) : List ConflictReport :=
  account.executionRestrictions.flatMap fun restriction =>
    evidenceReports restriction.evidence cutoffAt (some account.accountId) restriction.securityId
      ["execution_restrictions.evidence"] true false false

/-- Whether a restriction is active on sound evidence. -/
def restrictionApplies (restriction : ExecutionRestriction) : Bool :=
  restriction.active && (restriction.evidence.problemCodes cutoffAt true).isEmpty

/-- The applicable restrictions of an account filed under one security, or under none. -/
def activeRestrictions (account : AccountPositionSnapshot) (securityId : Option String) :
    List ExecutionRestriction :=
  account.executionRestrictions.filter fun restriction =>
    restrictionApplies cutoffAt restriction ∧ restriction.securityId = securityId

/-- Securities that ledger, orders or restrictions need a broker summary for. -/
def summaryRequired (account : AccountPositionSnapshot) (ledger : LedgerReconstruction)
    (orders : OrderReconciliation) : List String :=
  (ledger.bySecurity.filter fun e => e.2.1 ≠ 0 ∨ e.2.2 ≠ 0).map Prod.fst ++
  orders.sellSecurityIds ++
  (account.executionRestrictions.filter (·.active)).filterMap (·.securityId) ++
  ledger.unresolvedSecurityIds

/-- The required securities without a broker summary, in order. -/
def missingSummaries (account : AccountPositionSnapshot) (ledger : LedgerReconstruction)
    (orders : OrderReconciliation) : List String :=
  (sortedSet (summaryRequired account ledger orders)).filter
    (· ∉ account.positions.map (·.securityId))

variable (prior : Dict (String × String) AuthoritativeLedgerEntry)

/-- The ledger of an account, reconstructed with its unresolved corrections. -/
def accountLedger (account : AccountPositionSnapshot) : LedgerReconstruction :=
  reconstructLedger ctx account cutoffAt (unresolvedCorrectionSecurityIds account prior cutoffAt)

/-- Securities whose correction lineage is unresolved, in order. -/
def lineageReports (account : AccountPositionSnapshot) : List ConflictReport :=
  (sortedSet (unresolvedCorrectionSecurityIds account prior cutoffAt)).map fun securityId =>
    portfolioReport (some account.accountId) (some securityId)
      "LEDGER_CORRECTION_LINEAGE_UNRESOLVED"
      ["ledger_entries.corrects_entry_id", "ledger_entries.evidence"] true

/-- The securities of an account that miss their broker summary. -/
def accountMissingSummaries (account : AccountPositionSnapshot) : List String :=
  missingSummaries account (accountLedger ctx cutoffAt prior account)
    (reconcileOrders ctx account cutoffAt)

/-- Report each security without its broker summary. -/
def missingSummaryReports (account : AccountPositionSnapshot) : List ConflictReport :=
  (accountMissingSummaries ctx cutoffAt prior account).map fun securityId =>
    portfolioReport (some account.accountId) (some securityId) "BROKER_POSITION_SUMMARY_MISSING"
      ["positions", "ledger_entries", "open_orders", "execution_restrictions"] true

/-- Every report about one account, pass after pass. -/
def accountReports (priorCash : Dict String AccountCashState)
    (account : AccountPositionSnapshot) : List ConflictReport :=
  let ledger := accountLedger ctx cutoffAt prior account
  let orders := reconcileOrders ctx account cutoffAt
  accountProblemReports ctx account cutoffAt ++
  openingLedgerCashHistoryReports account (priorCash.get? account.accountId) ++
  ledgerHistoryReports account prior ++
  ledger.reports ++
  lineageReports cutoffAt prior account ++
  orders.reports ++
  buyReserveReports account orders.buyReserves ++
  restrictionReports cutoffAt account ++
  account.positions.flatMap (fun position =>
    positionProblemReports account.accountId position ctx cutoffAt ledger.bySecurity
      orders.sellQuantities) ++
  missingSummaryReports ctx cutoffAt prior account ++
  cashAndEquityReports ctx account ledger.cashDelta

end Passes

/-- Securities that different rows assign to different issuers, in order. -/
def conflictingSecurityIds (rows : List PositionRow) : List String :=
  (sortedSet (rows.map (·.2.securityId))).filter fun securityId =>
    1 < ((rows.filter (·.2.securityId = securityId)).map (·.2.issuerId)).eraseDups.length

/-- Every conflicting security is reported for all accounts. -/
def issuerIdentityReports (rows : List PositionRow) : List ConflictReport :=
  (conflictingSecurityIds rows).map fun securityId =>
    portfolioReport none (some securityId) "SECURITY_ISSUER_IDENTITY_CONFLICT"
      ["positions.security_id", "positions.issuer_id"] true

/-- Annotations later than the cutoff are reported and block nothing. -/
def annotationReports (command : PositionSnapshotCommand) : List ConflictReport :=
  command.annotations.flatMap fun annotation =>
    reportIf (command.cutoffAt < annotation.createdAt)
      { accountId := some annotation.accountId
        securityId := some annotation.securityId
        code := "ANNOTATION_AFTER_CUTOFF"
        fields := ["annotations.created_at"]
        blocksExactStatisticalQuantity := false }

/-- Every report of one reconciliation, in the order in which it is recorded. -/
def reconciliationReports (ctx : DecimalContext) (command : PositionSnapshotCommand)
    (priorLedger : List AuthoritativeLedgerEntry) (priorCashStates : List AccountCashState) :
    List ConflictReport :=
  evidenceReports command.snapshotEvidence command.cutoffAt none none ["snapshot_evidence"]
    true true false ++
  command.accounts.flatMap
    (accountReports ctx command.cutoffAt (priorEntries priorLedger)
      (priorCashByAccount priorCashStates)) ++
  issuerIdentityReports (positionRows command.accounts) ++
  annotationReports command

/-- The reasons of every scope that covers an account and a security. -/
def scopedReasons (reasons : ScopedReasons) (accountId securityId : String) : List String :=
  (reasons.under (none, none) ++ reasons.under (none, some securityId) ++
    reasons.under (some accountId, none) ++
    reasons.under (some accountId, some securityId)).eraseDups

/-- Why the action quantity of a position is withheld. -/
def actionReasons (recorder : Recorder) (cutoffAt : Instant) (row : PositionRow) : List String :=
  (recorder.portfolioBlocking ++
    scopedReasons recorder.blocking row.1.accountId row.2.securityId ++
    (activeRestrictions cutoffAt row.1 none ++
      activeRestrictions cutoffAt row.1 (some row.2.securityId)).map fun restriction =>
        "EXECUTION_RESTRICTION_ACTIVE:" ++ restriction.restrictionId).eraseDups

/-- The action quantity: the broker's final sellable quantity, when no reason withholds it. -/
def exactActionQuantity (recorder : Recorder) (cutoffAt : Instant) (row : PositionRow) :
    Option ℚ :=
  if row.2.sellableQuantitySemantics = .brokerFinalSellable ∧
      actionReasons recorder cutoffAt row = [] then
    row.2.brokerSellableQuantity
  else none

/-- The action unit of one position row. -/
def projectAction (recorder : Recorder) (cutoffAt : Instant) (row : PositionRow) :
    PositionActionUnit where
  accountId := row.1.accountId
  accountType := row.1.accountType
  currency := row.1.currency
  positionId := row.2.positionId
  origin := row.2.origin
  lifecycleId := row.2.lifecycleId
  issuerId := row.2.issuerId
  securityId := row.2.securityId
  totalQuantity := row.2.totalQuantity
  brokerSellableQuantity := row.2.brokerSellableQuantity
  sellableQuantitySemantics := row.2.sellableQuantitySemantics
  encumbranceQuantitySemantics := row.2.encumbranceQuantitySemantics
  unsettledQuantity := row.2.unsettledQuantity
  frozenQuantity := row.2.frozenQuantity
  restrictedQuantity := row.2.restrictedQuantity
  openSellOrderQuantity := row.2.openSellOrderQuantity
  reportedCostBasis := row.2.reportedCostBasis
  marketPrice := row.2.marketPrice
  exactStatisticalActionQuantity := exactActionQuantity recorder cutoffAt row
  exactQuantityStatus :=
    if (exactActionQuantity recorder cutoffAt row).isSome then .available else .blocked
  reasons := actionReasons recorder cutoffAt row
  positionEvidence := row.2.evidence

/-- The product of quantity and price of a row that has both. -/
def rowMarketValue (ctx : DecimalContext) (position : BrokerPositionFact) : Option ℚ :=
  position.totalQuantity.bind fun quantity => position.marketPrice.map fun price =>
    ctx.mul quantity price

/-- Issuers with a row whose valuation is in doubt. -/
def invalidIssuers (recorder : Recorder) (rows : List PositionRow) (incomplete : Bool)
    (conflicting : List String) : List String :=
  (rows.filter fun row => incomplete ∨ row.2.securityId ∈ conflicting ∨
    scopedReasons recorder.valuation row.1.accountId row.2.securityId ≠ []).map (·.2.issuerId)

/-- One exposure for every issuer, in order of issuer identity. -/
def projectExposures (ctx : DecimalContext) (recorder : Recorder) (rows : List PositionRow)
    (currency : String) (incomplete : Bool) (conflicting : List String) : List IssuerExposure :=
  (sortedSet (rows.map (·.2.issuerId))).map fun issuerId =>
    let own := rows.filter (·.2.issuerId = issuerId)
    { issuerId
      valuationCurrency := currency
      accountIds := (own.map (·.1.accountId)).eraseDups
      currentMarketExposure :=
        if issuerId ∈ invalidIssuers recorder rows incomplete conflicting then none
        else some (ctx.sum (own.filterMap fun row => rowMarketValue ctx row.2)) }

/-- The cash state of an account as the outcome retains it. -/
def projectCashState (account : AccountPositionSnapshot) : AccountCashState where
  accountId := account.accountId
  accountType := account.accountType
  currency := account.currency
  accountEvidence := account.snapshotEvidence
  accountEquity := account.accountEquity
  accountEquityEvidence := account.accountEquityEvidence
  cashAvailabilitySemantics := account.cashState.cashAvailabilitySemantics
  ledgerCashSemantics := account.cashState.ledgerCashSemantics
  openingLedgerCash := account.cashState.openingLedgerCash
  openingLedgerCashEvidence := account.cashState.openingLedgerCashEvidence
  ledgerCash := account.cashState.ledgerCash
  tradingCash := account.cashState.tradingCash
  transferableCash := account.cashState.transferableCash
  frozenCash := account.cashState.frozenCash
  receivableCash := account.cashState.receivableCash
  payableCash := account.cashState.payableCash
  cashStateEvidence := account.cashState.evidence

/-- Codes of ledger conflicts after which the listed holdings may be incomplete. -/
def holdingCoverageCodes : List String :=
  ["LEDGER_ENTRY_REMOVED_ACROSS_SNAPSHOTS", "LEDGER_ENTRY_SECURITY_ID_MISSING",
    "LEDGER_ENTRY_MUTATED_ACROSS_SNAPSHOTS", "LEDGER_CORRECTION_SELF_REFERENCE",
    "LEDGER_CORRECTION_TARGET_MISSING", "LEDGER_CORRECTION_CYCLE",
    "LEDGER_CORRECTION_EVIDENCE_PRECEDES_TARGET"]

/-- Whether the snapshot itself or the snapshot of an account has an evidence defect. -/
def hasIncompleteManifest (command : PositionSnapshotCommand) : Bool :=
  !(command.snapshotEvidence.problemCodes command.cutoffAt true).isEmpty ||
  command.accounts.any fun account =>
    !(account.snapshotEvidence.problemCodes command.cutoffAt true).isEmpty

/-- Whether the set of holdings behind the exposures may be incomplete. -/
def holdingsIncomplete (ctx : DecimalContext) (command : PositionSnapshotCommand)
    (prior : Dict (String × String) AuthoritativeLedgerEntry) (recorder : Recorder) : Bool :=
  command.accounts.any (fun account =>
    !(accountMissingSummaries ctx command.cutoffAt prior account).isEmpty) ||
  hasIncompleteManifest command ||
  recorder.conflicts.any fun conflict => conflict.code ∈ holdingCoverageCodes

/-- Total equity needs every account equity and no portfolio-level doubt. -/
def totalAccountEquity (ctx : DecimalContext) (command : PositionSnapshotCommand)
    (recorder : Recorder) : Option ℚ :=
  if recorder.portfolioBlocking = [] then
    sumIfComplete ctx (command.accounts.map (·.accountEquity))
  else none

/-- The snapshot projected from a command and its recorded reasons. -/
def projectSnapshot (ctx : DecimalContext) (command : PositionSnapshotCommand)
    (prior : Dict (String × String) AuthoritativeLedgerEntry) (recorder : Recorder) :
    ReconciledPositionSnapshot :=
  let rows := positionRows command.accounts
  { snapshotId := command.snapshotId
    cutoffAt := command.cutoffAt
    cutoffOffset := command.cutoffOffset
    valuationCurrency := command.valuationCurrency
    snapshotSource := command.snapshotEvidence.source
    evidenceClock := command.snapshotEvidence.clock
    snapshotEvidence := command.snapshotEvidence
    totalAccountEquity := totalAccountEquity ctx command recorder
    actionUnits := rows.map (projectAction recorder command.cutoffAt)
    issuerExposures := projectExposures ctx recorder rows command.valuationCurrency
      (holdingsIncomplete ctx command prior recorder) (conflictingSecurityIds rows)
    cashStates := command.accounts.map projectCashState
    unfinishedOrders := command.accounts.flatMap fun account =>
      account.openOrders.map fun order =>
        { toOpenOrder := order, accountId := account.accountId }
    executionRestrictions := command.accounts.flatMap fun account =>
      account.executionRestrictions.map fun restriction =>
        { toExecutionRestriction := restriction, accountId := account.accountId }
    authoritativeLedger := command.accounts.flatMap fun account =>
      account.ledgerEntries.map (·.inAccount account.accountId)
    userAnnotations := command.annotations }

/-- The recorder after every pass over a command. -/
def reconciliationRecorder (ctx : DecimalContext) (command : PositionSnapshotCommand)
    (priorLedger : List AuthoritativeLedgerEntry) (priorCashStates : List AccountCashState) :
    Recorder :=
  .ofReports (reconciliationReports ctx command priorLedger priorCashStates)

/-- Evaluate a frozen snapshot against the earlier ledger and cash states. -/
def reconcile (ctx : DecimalContext) (command : PositionSnapshotCommand)
    (priorLedger : List AuthoritativeLedgerEntry) (priorCashStates : List AccountCashState) :
    PositionReconciliationOutcome :=
  let recorder := reconciliationRecorder ctx command priorLedger priorCashStates
  let snapshot := projectSnapshot ctx command (priorEntries priorLedger) recorder
  if recorder.conflicts = [] then
    { disposition := .reconciled
      reasons := ["AUTHORITATIVE_POSITION_FACTS_RECONCILED"]
      snapshot
      conflicts := [] }
  else
    { disposition := .conflicted
      reasons := (recorder.conflicts.map (·.code)).eraseDups
      snapshot
      conflicts := recorder.conflicts }

theorem reconcile_disposition_iff {ctx : DecimalContext} {command : PositionSnapshotCommand}
    {priorLedger : List AuthoritativeLedgerEntry} {priorCashStates : List AccountCashState} :
    (reconcile ctx command priorLedger priorCashStates).disposition = .reconciled ↔
      reconciliationReports ctx command priorLedger priorCashStates = [] := by
  rw [← Recorder.conflicts_eq_nil_iff, ← reconciliationRecorder]
  simp only [reconcile]
  split <;> simp_all

@[simp] theorem reconcile_snapshot (ctx : DecimalContext) (command : PositionSnapshotCommand)
    (priorLedger : List AuthoritativeLedgerEntry) (priorCashStates : List AccountCashState) :
    (reconcile ctx command priorLedger priorCashStates).snapshot =
      projectSnapshot ctx command (priorEntries priorLedger)
        (reconciliationRecorder ctx command priorLedger priorCashStates) := by
  simp only [reconcile]
  split <;> rfl

@[simp] theorem reconcile_conflicts (ctx : DecimalContext) (command : PositionSnapshotCommand)
    (priorLedger : List AuthoritativeLedgerEntry) (priorCashStates : List AccountCashState) :
    (reconcile ctx command priorLedger priorCashStates).conflicts =
      (reconciliationRecorder ctx command priorLedger priorCashStates).conflicts := by
  simp only [reconcile]
  split
  · rename_i h
    exact h.symm
  · rfl

end StockProfiler.PositionManagement
