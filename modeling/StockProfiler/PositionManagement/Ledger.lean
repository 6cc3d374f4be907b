import Mathlib.Data.String.Basic
import StockProfiler.Core.Decimal
import StockProfiler.Core.Walk
import StockProfiler.PositionManagement.Recorder

/-!
# Ledger passes of a reconciliation

The ledger of an account is compared with the earlier snapshots, its
corrections are followed to an uncorrected record, and its entries are summed
per security and in cash. A defect never stops the pass: it is reported, and
the sums it makes doubtful become absent.
-/

namespace StockProfiler.PositionManagement

variable (account : AccountPositionSnapshot)
  (prior : Dict (String × String) AuthoritativeLedgerEntry)
  (byId : Dict String (List PositionLedgerEntry)) (entry : PositionLedgerEntry)

/-- The ledger entry as the outcome projects it, with its account. -/
def PositionLedgerEntry.inAccount (accountId : String) : AuthoritativeLedgerEntry :=
  { toPositionLedgerEntry := entry, accountId := accountId }

/-- The first earlier record of every account and entry identity. -/
def priorEntries (priorLedger : List AuthoritativeLedgerEntry) :
    Dict (String × String) AuthoritativeLedgerEntry :=
  Dict.ofFirst (priorLedger.map fun entry => ((entry.accountId, entry.entryId), entry))

/-- The first earlier cash state of every account. -/
def priorCashByAccount (priorCashStates : List AccountCashState) : Dict String AccountCashState :=
  Dict.ofFirst (priorCashStates.map fun state => (state.accountId, state))

variable (entries : List PositionLedgerEntry)

/-- The entries of one list by their identity. -/
def groupById : Dict String (List PositionLedgerEntry) :=
  Dict.group (entries.map fun entry => (entry.entryId, entry))

/-- The identities present in one list of entries. -/
def entryIds : List String := entries.map (·.entryId)

/-- Earlier records of an account that the current ledger no longer lists, one per identity. -/
def removedEntries : List AuthoritativeLedgerEntry :=
  (prior.filter fun e =>
    e.1.1 = account.accountId ∧ e.1.2 ∉ entryIds account.ledgerEntries).map Prod.snd

/-- Every record a correction may name: removed earlier ones, then the current groups. -/
def entriesById : Dict String (List PositionLedgerEntry) :=
  ((removedEntries account prior).map fun e => (e.entryId, [e.toPositionLedgerEntry])) ++
    groupById account.ledgerEntries

/-- The records of one identity. -/
def entriesOf (entryId : String) : List PositionLedgerEntry :=
  (byId.get? entryId).getD []

/-- What every unambiguous record corrects. -/
def correctionTargets : Dict String (Option String) :=
  byId.filterMapValues fun entries =>
    match entries with
    | [entry] => some entry.correctsEntryId
    | _ => none

/-- The identity a record corrects, as the cycle search follows it. -/
def targetLink (targets : Dict String (Option String)) (entryId : String) : Link String :=
  match targets.get? entryId with
  | some (some target) => .next target
  | _ => .root

/-- The identities the cycle search can meet. -/
def chainIds (targets : Dict String (Option String)) (entryId : String) : List String :=
  entryId :: targets.filterMap Prod.snd

/-- Whether following corrections from a record comes back to an identity already passed. -/
def hasCorrectionCycle (entryId : String) (targets : Dict String (Option String)) : Bool :=
  follow id (targetLink targets) ((chainIds targets entryId).length + 1) [] entryId = .cycle

/-- The record a correction rests on, when every condition of the lineage holds. -/
def lineageLink (cutoffAt : Instant) (entry : PositionLedgerEntry) : Link PositionLedgerEntry :=
  if (entriesOf byId entry.entryId).length ≠ 1 ∨ ¬ledgerEntryEvidenceIsVisible entry cutoffAt then
    .missing
  else match entry.correctsEntryId with
    | none => .root
    | some targetId =>
      if targetId = entry.entryId then .missing
      else match entriesOf byId targetId with
        | [target] =>
          if entry.evidence.sourceObservedAt.any (target.occurredAt ≤ ·) then .next target
          else .missing
        | _ => .missing

/-- The identities a lineage can meet. -/
def lineageIds : List String :=
  entry.entryId :: (byId.flatMap Prod.snd).map (·.entryId)

/-- A lineage is invalid unless it ends at a visible record that corrects nothing. -/
def correctionLineageIsInvalid (byId : Dict String (List PositionLedgerEntry))
    (cutoffAt : Instant) : Bool :=
  match follow (·.entryId) (lineageLink byId cutoffAt)
      ((lineageIds byId entry).length + 1) [] entry with
  | .root _ => false
  | _ => true

/-- Securities with a correction whose lineage is invalid. -/
def unresolvedCorrectionSecurityIds (cutoffAt : Instant) : List String :=
  account.ledgerEntries.filterMap fun entry =>
    if entry.correctsEntryId.isSome &&
        correctionLineageIsInvalid entry (entriesById account prior) cutoffAt
    then entry.securityId else none

/-- Reports about one correction: itself, a missing or ambiguous target, a cycle, or
evidence older than the record it corrects. -/
def correctionReports (accountId : String) (byId : Dict String (List PositionLedgerEntry))
    (entry : PositionLedgerEntry) : List ConflictReport :=
  match entry.correctsEntryId with
  | none => []
  | some targetId =>
    let report code fields :=
      portfolioReport (some accountId) entry.securityId code fields entry.securityId.isSome
    if targetId = entry.entryId then
      [report "LEDGER_CORRECTION_SELF_REFERENCE" ["ledger_entries.corrects_entry_id"]]
    else match entriesOf byId targetId with
      | [] => [report "LEDGER_CORRECTION_TARGET_MISSING" ["ledger_entries.corrects_entry_id"]]
      | [target] =>
        if hasCorrectionCycle entry.entryId (correctionTargets byId) then
          [report "LEDGER_CORRECTION_CYCLE" ["ledger_entries.corrects_entry_id"]]
        else
          -- An empty security text falls through to the target, as an absent one does.
          let securityId :=
            if entry.securityId.getD "" = "" then target.securityId else entry.securityId
          reportIf (¬entry.evidence.sourceObservedAt.any (target.occurredAt ≤ ·))
            (portfolioReport (some accountId) securityId
              "LEDGER_CORRECTION_EVIDENCE_PRECEDES_TARGET"
              ["ledger_entries.corrects_entry_id", "ledger_entries.evidence.source_observed_at",
                "ledger_entries.occurred_at"] securityId.isSome)
      | _ => [report "LEDGER_CORRECTION_TARGET_AMBIGUOUS"
          ["ledger_entries.entry_id", "ledger_entries.corrects_entry_id"]]

/-- Reports of one current entry against its earlier record and its correction target. -/
def entryHistoryReports : List ConflictReport :=
  reportIf ((prior.get? (account.accountId, entry.entryId)).any
      (· ≠ entry.inAccount account.accountId))
    (portfolioReport (some account.accountId) entry.securityId
      "LEDGER_ENTRY_MUTATED_ACROSS_SNAPSHOTS" ["ledger_entries.entry_id"]
      entry.securityId.isSome) ++
  correctionReports account.accountId (entriesById account prior) entry

/-- Reports of the whole current ledger against the earlier snapshots. -/
def ledgerHistoryReports : List ConflictReport :=
  (removedEntries account prior).map (fun entry =>
    portfolioReport (some account.accountId) entry.securityId
      "LEDGER_ENTRY_REMOVED_ACROSS_SNAPSHOTS" ["ledger_entries.entry_id"]
      entry.securityId.isSome) ++
  account.ledgerEntries.flatMap (entryHistoryReports account prior)

/-- The opening balance of an account never changes between snapshots. -/
def openingLedgerCashHistoryReports (priorCash : Option AccountCashState) : List ConflictReport :=
  reportIf (priorCash.any (·.openingLedgerCash ≠ account.cashState.openingLedgerCash))
    (portfolioReport (some account.accountId) none "OPENING_LEDGER_CASH_MUTATED_ACROSS_SNAPSHOTS"
      ["cash_state.opening_ledger_cash"] false)

/-- Optional identities in order, the absent one first. -/
def sortedOptional (ids : List (Option String)) : List (Option String) :=
  (if ids.contains none then [none] else []) ++ (sortedSet (ids.filterMap id)).map some

@[simp] theorem mem_sortedOptional {ids : List (Option String)} {x : Option String} :
    x ∈ sortedOptional ids ↔ x ∈ ids := by
  cases x with
  | none => by_cases h : none ∈ ids <;> simp [sortedOptional, h]
  | some s => by_cases h : none ∈ ids <;> simp [sortedOptional, h]

/-- The groups of entries that share one identity. -/
def duplicatedGroups : List (List PositionLedgerEntry) :=
  ((groupById entries).map Prod.snd).filter (2 ≤ ·.length)

/-- Every security of a repeated identity is reported. -/
def duplicateReports : List ConflictReport :=
  (duplicatedGroups account.ledgerEntries).flatMap fun group =>
    (sortedOptional (group.map (·.securityId))).map fun securityId =>
      portfolioReport (some account.accountId) securityId "LEDGER_ENTRY_ID_DUPLICATED"
        ["ledger_entries.entry_id"] securityId.isSome

/-- Reports of reading one entry. Each of them also makes the cash total absent and
the security of the entry unresolved. -/
def ledgerEntryReports (accountId : String) (cutoffAt : Instant) (entry : PositionLedgerEntry) :
    List ConflictReport :=
  if cutoffAt < entry.occurredAt then
    [portfolioReport (some accountId) entry.securityId "LEDGER_ENTRY_AFTER_CUTOFF"
      ["ledger_entries.occurred_at"] entry.securityId.isSome]
  else
    evidenceReports entry.evidence cutoffAt (some accountId) entry.securityId
      ["ledger_entries.evidence"] false true entry.securityId.isSome ++
    reportIf (entry.evidence.sourceObservedAt.any (· < entry.occurredAt))
      (portfolioReport (some accountId) entry.securityId
        "LEDGER_ENTRY_EVIDENCE_PRECEDES_OCCURRENCE"
        ["ledger_entries.occurred_at", "ledger_entries.evidence.source_observed_at"]
        entry.securityId.isSome) ++
    reportIf (entry.securityId = none ∧ (entry.entryType = .fill ∨
        entry.entryType = .corporateAction ∨ entry.quantityDelta ≠ 0 ∨ entry.costBasisDelta ≠ 0))
      (portfolioReport (some accountId) none "LEDGER_ENTRY_SECURITY_ID_MISSING"
        ["ledger_entries.entry_type", "ledger_entries.security_id",
          "ledger_entries.quantity_delta", "ledger_entries.cost_basis_delta"] false)

/-- What the ledger of one account says at the cutoff. -/
structure LedgerReconstruction where
  reports : List ConflictReport
  bySecurity : Dict String (ℚ × ℚ)
  cashDelta : Option ℚ
  unresolvedSecurityIds : List String

/-- The entries that are not later than the cutoff. -/
def countedEntries (cutoffAt : Instant) (entries : List PositionLedgerEntry) :
    List PositionLedgerEntry :=
  entries.filter (·.occurredAt ≤ cutoffAt)

/-- Quantity and cost of every security the counted entries name. -/
def ledgerBySecurity (ctx : DecimalContext) (counted : List PositionLedgerEntry) :
    Dict String (ℚ × ℚ) :=
  (Dict.group (counted.filterMap fun entry => entry.securityId.map (·, entry))).mapValues
    fun entries =>
      (ctx.sum (entries.map (·.quantityDelta)), ctx.sum (entries.map (·.costBasisDelta)))

/-- Sum the ledger of one account per security and in cash. -/
def reconstructLedger (ctx : DecimalContext) (account : AccountPositionSnapshot)
    (cutoffAt : Instant) (unresolved : List String) : LedgerReconstruction :=
  let entries := account.ledgerEntries
  let counted := countedEntries cutoffAt entries
  let defective := entries.filter fun entry =>
    !(ledgerEntryReports account.accountId cutoffAt entry).isEmpty
  { reports :=
      duplicateReports account ++
      entries.flatMap (ledgerEntryReports account.accountId cutoffAt)
    bySecurity := ledgerBySecurity ctx counted
    cashDelta :=
      if duplicatedGroups entries = [] ∧ defective = [] then
        some (ctx.sum (counted.map (·.cashDelta)))
      else none
    unresolvedSecurityIds :=
      unresolved ++ (duplicatedGroups entries).flatten.filterMap (·.securityId) ++
      defective.filterMap (·.securityId) }

end StockProfiler.PositionManagement
