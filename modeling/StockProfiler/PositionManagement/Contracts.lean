import Mathlib.Data.Rat.Defs
import StockProfiler.Core.Clock

/-!
# Authoritative position-state contracts

The broker facts of one frozen snapshot and the reconciliation outcome derived
from them. The checks a contract makes on construction are fields of its
structure, so a command that would be rejected cannot be written down. An
amount is the rational value of its decimal.
-/

namespace StockProfiler.PositionManagement

/-- The source clock retained with a displayed position-state snapshot. -/
structure PositionEvidenceClock where
  businessEffectiveAt : Option Instant
  sourceObservedAt : Option Instant
  locallyAcquiredAt : Option Instant
  validatedAt : Option Instant
  deriving DecidableEq

/-- Source provenance; it stays explicit when an incomplete fact is retained. -/
structure PositionEvidence where
  source : Option String
  sourceVersion : Option String
  businessEffectiveAt : Option Instant
  sourceObservedAt : Option Instant
  locallyAcquiredAt : Option Instant
  validatedAt : Option Instant
  cutoffAt : Option Instant
  completeThroughAt : Option Instant
  expiresAt : Option Instant := none
  deriving DecidableEq

namespace PositionEvidence

variable (e : PositionEvidence) (expectedCutoff : Instant)

/-- The four clock readings of the evidence. -/
def clock : PositionEvidenceClock :=
  ⟨e.businessEffectiveAt, e.sourceObservedAt, e.locallyAcquiredAt, e.validatedAt⟩

/-- An absent or empty source text. -/
def isBlank (text : Option String) : Bool := text.getD "" = ""

/-- The clock part of the evidence check, against the ceiling of its mode. -/
def clockCodes (ceiling : Option Instant) : List String :=
  match e.businessEffectiveAt, e.sourceObservedAt, e.locallyAcquiredAt, e.validatedAt with
  | some effective, some observed, some acquired, some validated =>
    match ceiling with
    | none => ["EVIDENCE_CLOCK_INVALID"]
    | some limit =>
      if effective ≤ observed ∧ observed ≤ acquired ∧ acquired ≤ validated ∧ validated ≤ limit
      then [] else ["EVIDENCE_CLOCK_INVALID"]
  | _, _, _, _ => ["EVIDENCE_CLOCK_MISSING"]

variable (current : Bool)

/-- The cutoff part of the evidence check. -/
def cutoffCodes : List String :=
  match e.cutoffAt with
  | none => ["FACT_CUTOFF_MISSING"]
  | some cutoff =>
    if current && cutoff != expectedCutoff then ["FACT_CUTOFF_MISMATCH"]
    else if !current && expectedCutoff < cutoff then ["FACT_CUTOFF_AFTER_SNAPSHOT"]
    else []

/-- The completeness watermark of a current fact. -/
def watermarkCodes : List String :=
  if !current then []
  else match e.completeThroughAt with
    | none => ["FACT_COMPLETENESS_WATERMARK_MISSING"]
    | some through =>
      if through < expectedCutoff then ["FACT_COMPLETENESS_WATERMARK_INSUFFICIENT"] else []

/-- The expiry of a current fact. -/
def expiryCodes : List String :=
  match e.expiresAt with
  | some expires => if current && expires < expectedCutoff then ["FACT_EXPIRED"] else []
  | none => []

/-- Report retained evidence defects rather than guessing a broker fact. -/
def problemCodes : List String :=
  (if isBlank e.source then ["SOURCE_MISSING"] else []) ++
  (if isBlank e.sourceVersion then ["SOURCE_VERSION_MISSING"] else []) ++
  e.cutoffCodes expectedCutoff current ++
  e.watermarkCodes expectedCutoff current ++
  e.clockCodes (if current then some expectedCutoff else e.cutoffAt) ++
  e.expiryCodes expectedCutoff current

end PositionEvidence

/-- Whether the broker's cash layers are final. -/
inductive CashAvailabilitySemantics where
  | brokerFinalCashLayers
  | unknown
  deriving DecidableEq

/-- How the broker's ledger cash is defined. -/
inductive LedgerCashSemantics where
  | openingBalancePlusAuthoritativeLedger
  | unknown
  deriving DecidableEq

/-- Whether the broker's sellable quantity is final. -/
inductive SellableQuantitySemantics where
  | brokerFinalSellable
  | unknown
  deriving DecidableEq

/-- How the encumbrances of a position overlap. -/
inductive EncumbranceQuantitySemantics where
  | overlappingNonSellable
  | unknown
  deriving DecidableEq

/-- Who opened a position. -/
inductive PositionOrigin where
  | system
  | external
  deriving DecidableEq

/-- The side of an unfinished order. -/
inductive OrderSide where
  | buy
  | sell
  deriving DecidableEq

/-- The text a side contributes to a conflict code. -/
def OrderSide.text : OrderSide → String
  | .buy => "BUY"
  | .sell => "SELL"

/-- Whether an order reserves cash. -/
inductive ReservedCashSemantics where
  | brokerFinalReservedCash
  | notApplicable
  deriving DecidableEq

/-- The kind of one authoritative ledger record. -/
inductive LedgerEntryType where
  | fill
  | fee
  | transferIn
  | transferOut
  | corporateAction
  deriving DecidableEq

/-- Broker cash facts remain decomposed instead of being collapsed into a balance. -/
structure CashState where
  cashAvailabilitySemantics : CashAvailabilitySemantics
  ledgerCashSemantics : LedgerCashSemantics
  openingLedgerCash : Option ℚ
  openingLedgerCashEvidence : PositionEvidence
  ledgerCash : Option ℚ
  tradingCash : Option ℚ
  transferableCash : Option ℚ
  frozenCash : Option ℚ
  receivableCash : Option ℚ
  payableCash : Option ℚ
  evidence : PositionEvidence

/-- One broker summary for one account and security at the frozen cutoff. -/
structure BrokerPositionFact where
  positionId : String
  origin : PositionOrigin
  lifecycleId : String
  issuerId : String
  securityId : String
  totalQuantity : Option ℚ
  brokerSellableQuantity : Option ℚ
  sellableQuantitySemantics : SellableQuantitySemantics
  encumbranceQuantitySemantics : EncumbranceQuantitySemantics
  unsettledQuantity : Option ℚ
  frozenQuantity : Option ℚ
  restrictedQuantity : Option ℚ
  openSellOrderQuantity : Option ℚ
  reportedCostBasis : Option ℚ
  marketPrice : Option ℚ
  evidence : PositionEvidence

/-- An unfinished broker order that is retained beside its position summary. -/
structure OpenOrder where
  orderId : String
  securityId : String
  side : OrderSide
  remainingQuantity : Option ℚ
  reservedCash : Option ℚ
  reservedCashSemantics : ReservedCashSemantics
  evidence : PositionEvidence
  deriving DecidableEq

/-- An append-only broker record that can reconstruct position quantity and cost. -/
structure PositionLedgerEntry where
  entryId : String
  entryType : LedgerEntryType
  securityId : Option String
  quantityDelta : ℚ
  costBasisDelta : ℚ
  cashDelta : ℚ
  occurredAt : Instant
  correctsEntryId : Option String := none
  correctionReason : Option String := none
  evidence : PositionEvidence
  /-- A correction names its reason, and only a correction does. -/
  correctionReason_isSome : correctionReason.isSome = correctsEntryId.isSome := by decide
  deriving DecidableEq

/-- Whether one ledger fact's own evidence is available by a cutoff. -/
def ledgerEntryEvidenceIsVisible (entry : PositionLedgerEntry) (cutoffAt : Instant) : Bool :=
  entry.occurredAt ≤ cutoffAt &&
  (entry.evidence.problemCodes cutoffAt false).isEmpty &&
  entry.evidence.sourceObservedAt.any fun observed => entry.occurredAt ≤ observed

/-- A broker execution constraint that can block an otherwise known quantity. -/
structure ExecutionRestriction where
  restrictionId : String
  securityId : Option String := none
  kind : String
  reason : String
  active : Bool
  evidence : PositionEvidence
  deriving DecidableEq

/-- A user-supplied note retained separately from broker-authoritative records. -/
structure UserPositionAnnotation where
  annotationId : String
  accountId : String
  securityId : String
  note : String
  claimedTotalQuantity : Option ℚ := none
  claimedCostBasis : Option ℚ := none
  createdAt : Instant
  deriving DecidableEq

/-- All authoritative account facts needed for one same-cutoff position view. -/
structure AccountPositionSnapshot where
  accountId : String
  accountType : String
  currency : String
  snapshotEvidence : PositionEvidence
  accountEquity : Option ℚ
  accountEquityEvidence : PositionEvidence
  cashState : CashState
  positions : List BrokerPositionFact
  openOrders : List OpenOrder
  ledgerEntries : List PositionLedgerEntry
  executionRestrictions : List ExecutionRestriction
  /-- Account position identifiers are unique. -/
  positionIds_nodup : (positions.map (·.positionId)).Nodup := by decide
  /-- Account position securities are unique. -/
  securityIds_nodup : (positions.map (·.securityId)).Nodup := by decide

/-- The complete synthetic broker-fact snapshot reconciled by the host. -/
structure PositionSnapshotCommand where
  snapshotId : String
  cutoffAt : Instant
  /-- The UTC offset the cutoff is written in; only month arithmetic reads it. -/
  cutoffOffset : ℤ := 0
  snapshotEvidence : PositionEvidence
  valuationCurrency : String
  accounts : List AccountPositionSnapshot
  annotations : List UserPositionAnnotation := []
  accounts_ne_nil : accounts ≠ [] := by decide
  /-- Snapshot account identities are unique. -/
  accountIds_nodup : (accounts.map (·.accountId)).Nodup := by decide
  /-- Snapshot accounts share one valuation currency. -/
  currency_eq : ∀ account ∈ accounts, account.currency = valuationCurrency := by decide
  /-- An annotation belongs to a captured account. -/
  annotation_mem : ∀ a ∈ annotations, a.accountId ∈ accounts.map (·.accountId) := by decide
  /-- Annotation identities are unique. -/
  annotationIds_nodup : (annotations.map (·.annotationId)).Nodup := by decide

/-- The account identities of a snapshot command. -/
def PositionSnapshotCommand.accountIds (c : PositionSnapshotCommand) : List String :=
  c.accounts.map (·.accountId)

/-- The account and security scope of a conflict, with the fields it concerns. -/
structure PositionAffectedScope where
  accountId : Option String := none
  securityId : Option String := none
  fields : List String
  deriving DecidableEq

/-- An unreconciled source fact; it never selects one conflicting value. -/
structure PositionFactConflict where
  code : String
  affectedScope : PositionAffectedScope
  blocksExactStatisticalQuantity : Bool
  deriving DecidableEq

/-- Whether an account-local action quantity may be used. -/
inductive ExactQuantityStatus where
  | available
  | blocked
  deriving DecidableEq

/-- One account-local action quantity, never an issuer-level order instruction. -/
structure PositionActionUnit where
  accountId : String
  accountType : String
  currency : String
  positionId : String
  origin : PositionOrigin
  lifecycleId : String
  issuerId : String
  securityId : String
  totalQuantity : Option ℚ
  brokerSellableQuantity : Option ℚ
  sellableQuantitySemantics : SellableQuantitySemantics
  encumbranceQuantitySemantics : EncumbranceQuantitySemantics
  unsettledQuantity : Option ℚ
  frozenQuantity : Option ℚ
  restrictedQuantity : Option ℚ
  openSellOrderQuantity : Option ℚ
  reportedCostBasis : Option ℚ
  marketPrice : Option ℚ
  exactStatisticalActionQuantity : Option ℚ
  exactQuantityStatus : ExactQuantityStatus
  reasons : List String
  positionEvidence : PositionEvidence
  deriving DecidableEq

/-- Issuer exposure aggregates market value only after account facts stay separate. -/
structure IssuerExposure where
  issuerId : String
  valuationCurrency : String
  accountIds : List String
  currentMarketExposure : Option ℚ
  deriving DecidableEq

/-- Cash decomposition retained with the account that supplied it. -/
structure AccountCashState where
  accountId : String
  accountType : String
  currency : String
  accountEvidence : PositionEvidence
  accountEquity : Option ℚ
  accountEquityEvidence : PositionEvidence
  cashAvailabilitySemantics : CashAvailabilitySemantics
  ledgerCashSemantics : LedgerCashSemantics
  openingLedgerCash : Option ℚ
  openingLedgerCashEvidence : PositionEvidence
  ledgerCash : Option ℚ
  tradingCash : Option ℚ
  transferableCash : Option ℚ
  frozenCash : Option ℚ
  receivableCash : Option ℚ
  payableCash : Option ℚ
  cashStateEvidence : PositionEvidence
  deriving DecidableEq

/-- A ledger entry projected with its source account identity. -/
structure AuthoritativeLedgerEntry extends PositionLedgerEntry where
  accountId : String
  deriving DecidableEq

/-- An unfinished order projected with the account that supplied it. -/
structure AccountOpenOrder extends OpenOrder where
  accountId : String
  deriving DecidableEq

/-- An execution restriction projected with the account that supplied it. -/
structure AccountExecutionRestriction extends ExecutionRestriction where
  accountId : String
  deriving DecidableEq

/-- A read-only, same-cutoff result derived from broker facts and their ledgers. -/
structure ReconciledPositionSnapshot where
  snapshotId : String
  cutoffAt : Instant
  cutoffOffset : ℤ := 0
  valuationCurrency : String
  snapshotSource : Option String
  evidenceClock : PositionEvidenceClock
  snapshotEvidence : PositionEvidence
  totalAccountEquity : Option ℚ
  actionUnits : List PositionActionUnit
  issuerExposures : List IssuerExposure
  cashStates : List AccountCashState
  unfinishedOrders : List AccountOpenOrder
  executionRestrictions : List AccountExecutionRestriction
  authoritativeLedger : List AuthoritativeLedgerEntry
  userAnnotations : List UserPositionAnnotation
  deriving DecidableEq

/-- Whether every broker fact of a snapshot agreed. -/
inductive ReconciliationDisposition where
  | reconciled
  | conflicted
  deriving DecidableEq

/-- The result appended after a frozen snapshot was evaluated. -/
structure PositionReconciliationOutcome where
  disposition : ReconciliationDisposition
  reasons : List String
  snapshot : ReconciledPositionSnapshot
  conflicts : List PositionFactConflict
  deriving DecidableEq

namespace SampleBroker

/-- Evidence of one instant. -/
def evidence (t : Instant) : PositionEvidence :=
  ⟨some "broker", some "1", some t, some t, some t, some t, some t, some t, none⟩

def fill (entryId : String) (quantity cost cash : ℚ) (occurredAt : Instant)
    (corrects : Option String := none) : AuthoritativeLedgerEntry where
  entryId
  entryType := .fill
  securityId := some "S"
  quantityDelta := quantity
  costBasisDelta := cost
  cashDelta := cash
  occurredAt
  correctsEntryId := corrects
  correctionReason := corrects
  evidence := evidence occurredAt
  correctionReason_isSome := rfl
  accountId := "A"

def unit (accountId securityId : String) (quantity : ℚ) (positionEvidence : PositionEvidence) :
    PositionActionUnit where
  accountId
  accountType := "CASH"
  currency := "CNY"
  positionId := accountId
  origin := .system
  lifecycleId := "L"
  issuerId := securityId
  securityId
  totalQuantity := some quantity
  brokerSellableQuantity := some quantity
  sellableQuantitySemantics := .brokerFinalSellable
  encumbranceQuantitySemantics := .overlappingNonSellable
  unsettledQuantity := some 0
  frozenQuantity := some 0
  restrictedQuantity := some 0
  openSellOrderQuantity := some 0
  reportedCostBasis := none
  marketPrice := some 1
  exactStatisticalActionQuantity := some quantity
  exactQuantityStatus := .available
  reasons := []
  positionEvidence

/-- The cash of the sample account, of which nothing is frozen. -/
def cash (evidence : PositionEvidence) (equity trading : ℚ) : AccountCashState where
  accountId := "A"
  accountType := "CASH"
  currency := "CNY"
  accountEvidence := evidence
  accountEquity := some equity
  accountEquityEvidence := evidence
  cashAvailabilitySemantics := .brokerFinalCashLayers
  ledgerCashSemantics := .openingBalancePlusAuthoritativeLedger
  openingLedgerCash := some trading
  openingLedgerCashEvidence := evidence
  ledgerCash := some trading
  tradingCash := some trading
  transferableCash := some trading
  frozenCash := some 0
  receivableCash := some 0
  payableCash := some 0
  cashStateEvidence := evidence

def snapshot (evidence : PositionEvidence) (cutoffAt : Instant) (equity : ℚ)
    (cashStates : List AccountCashState) (entries : List AuthoritativeLedgerEntry) :
    ReconciledPositionSnapshot where
  snapshotId := "sample"
  cutoffAt
  valuationCurrency := "CNY"
  snapshotSource := some "broker"
  evidenceClock := evidence.clock
  snapshotEvidence := evidence
  totalAccountEquity := some equity
  actionUnits := []
  issuerExposures := []
  cashStates
  unfinishedOrders := []
  executionRestrictions := []
  authoritativeLedger := entries
  userAnnotations := []

end SampleBroker

end StockProfiler.PositionManagement
