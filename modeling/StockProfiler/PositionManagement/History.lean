import StockProfiler.Core.CachedFold
import StockProfiler.PositionManagement.Contracts

/-!
# Authoritative position history

The ledger facts and opening cash baselines of earlier snapshots, resolved at a
frozen cutoff. A snapshot is accepted when it retains every fact established at
its own cutoff; the canon of every cutoff that was asked for is kept.
-/

namespace StockProfiler.PositionManagement

/-- The instant from which an entry is visible by its own evidence. -/
def ownVisibleAfter (entry : AuthoritativeLedgerEntry) : Option Instant :=
  match entry.evidence.cutoffAt with
  | none => none
  | some evidenceCutoff =>
    let visibleAfter := max entry.occurredAt evidenceCutoff
    if !ledgerEntryEvidenceIsVisible entry.toPositionLedgerEntry visibleAfter ∨
        entry.securityId = none ∧ (entry.entryType = .fill ∨ entry.entryType = .corporateAction ∨
          entry.quantityDelta ≠ 0 ∨ entry.costBasisDelta ≠ 0) then none
    else some visibleAfter

/-- Whether an entry may correct the entry of an identity. -/
def correctionAdmitted (uniqueEntries : Dict String AuthoritativeLedgerEntry)
    (entry : AuthoritativeLedgerEntry) (targetId : String) : Bool :=
  (uniqueEntries.get? targetId).any fun target =>
    targetId ≠ entry.entryId ∧ entry.evidence.sourceObservedAt.any (target.occurredAt ≤ ·)

/-- What is known so far of the visibility of entries. -/
abbrev VisibilityMemo := Dict String (Option Instant)

/-- The instant from which an entry is visible together with what it corrects. Answers are
kept, except the one for an entry of the lineage that is being followed. -/
def visibleAfter (uniqueEntries : Dict String AuthoritativeLedgerEntry) :
    ℕ → List String → VisibilityMemo → String → Option Instant × VisibilityMemo
  | 0, _, memo, _ => (none, memo)
  | steps + 1, lineage, memo, entryId =>
    match memo.get? entryId with
    | some known => (known, memo)
    | none =>
      if entryId ∈ lineage then (none, memo)
      else match uniqueEntries.get? entryId with
        | none => (none, memo.set entryId none)
        | some entry =>
          match ownVisibleAfter entry with
          | none => (none, memo.set entryId none)
          | some own =>
            match entry.correctsEntryId with
            | none => (some own, memo.set entryId (some own))
            | some targetId =>
              if correctionAdmitted uniqueEntries entry targetId then
                let (target, memo) :=
                  visibleAfter uniqueEntries steps (entryId :: lineage) memo targetId
                (target.map (max own), memo.set entryId (target.map (max own)))
              else (none, memo.set entryId none)

/-- The entries of one account that one snapshot lists, indexed. -/
structure LedgerSnapshot where
  accountId : String
  entries : List AuthoritativeLedgerEntry
  entriesById : Dict String (List AuthoritativeLedgerEntry)
  visibleAfterByEntryId : VisibilityMemo

/-- The only member of a list. -/
def onlyMember {α : Type*} : List α → Option α
  | [member] => some member
  | _ => none

namespace LedgerSnapshot

/-- Index the entries and determine when each identity is visible. -/
def fromEntries (accountId : String) (entries : List AuthoritativeLedgerEntry) :
    LedgerSnapshot :=
  let indexedEntries := Dict.group (entries.map fun entry => (entry.entryId, entry))
  let uniqueEntries := indexedEntries.filterMapValues onlyMember
  { accountId
    entries
    entriesById := indexedEntries
    visibleAfterByEntryId := indexedEntries.keys.foldl (fun memo entryId =>
      (visibleAfter uniqueEntries (uniqueEntries.length + 1) [] memo entryId).2) [] }

/-- Whether this account snapshot retains every established fact. -/
def preserves (snapshot : LedgerSnapshot)
    (canonicalEntries : Dict String AuthoritativeLedgerEntry) :
    Bool :=
  canonicalEntries.all fun canonical =>
    match (snapshot.entriesById.get? canonical.1).getD [] with
    | [current] => current = canonical.2
    | _ => false

/-- Add the valid first-observed entries of this snapshot to one canonical cache. -/
def addVisibleEntriesTo (cutoffAt : Instant)
    (canonicalEntries : Dict (String × String) AuthoritativeLedgerEntry)
    (snapshot : LedgerSnapshot) : Dict (String × String) AuthoritativeLedgerEntry :=
  snapshot.entries.foldl (fun canonicalEntries entry =>
    if (snapshot.visibleAfterByEntryId.get? entry.entryId).join.any (· ≤ cutoffAt) then
      canonicalEntries.setDefault (snapshot.accountId, entry.entryId) entry
    else canonicalEntries) canonicalEntries

/-- Whether this snapshot retains the facts that a canon has of its account. -/
def admittedBy (canonicalEntries : Dict (String × String) AuthoritativeLedgerEntry)
    (snapshot : LedgerSnapshot) : Bool :=
  snapshot.preserves (canonicalEntries.filterMap fun entry =>
    if entry.1.1 = snapshot.accountId then some (entry.1.2, entry.2) else none)

end LedgerSnapshot

/-- The accepted snapshots and their cutoff-specific canons. -/
abbrev LedgerHistoryResolver :=
  CachedFold LedgerSnapshot Instant (Dict (String × String) AuthoritativeLedgerEntry)

namespace LedgerHistoryResolver

variable (resolver : LedgerHistoryResolver)

/-- The canon of a cutoff, and the resolver that keeps it. -/
def canonicalEntriesAt (cutoffAt : Instant) :
    Dict (String × String) AuthoritativeLedgerEntry × LedgerHistoryResolver :=
  resolver.query LedgerSnapshot.addVisibleEntriesTo [] cutoffAt

/-- Accept a snapshot that retains the canon of its cutoff. -/
def acceptIfPreserving (snapshot : LedgerSnapshot) (cutoffAt : Instant) : LedgerHistoryResolver :=
  resolver.accept LedgerSnapshot.addVisibleEntriesTo [] LedgerSnapshot.admittedBy cutoffAt snapshot

/-- The canonical entries of a cutoff. -/
def entriesAt (cutoffAt : Instant) : List AuthoritativeLedgerEntry :=
  (resolver.canonicalEntriesAt cutoffAt).1.map Prod.snd

end LedgerHistoryResolver

/-- The entries of a position by account, within a set of accounts. -/
def entriesByAccount (position : PositionReconciliationOutcome) (accountIds : List String) :
    Dict String (List AuthoritativeLedgerEntry) :=
  Dict.group ((position.snapshot.authoritativeLedger.filter (·.accountId ∈ accountIds)).map
    fun entry => (entry.accountId, entry))

variable (positionHistory : List PositionReconciliationOutcome) (accountIds : List String)

/-- The resolver after every account snapshot of a history. -/
def ledgerHistoryResolver : LedgerHistoryResolver :=
  positionHistory.foldl (fun resolver position =>
    (entriesByAccount position accountIds).foldl (fun resolver account =>
      resolver.acceptIfPreserving (.fromEntries account.1 account.2) position.snapshot.cutoffAt)
      resolver) {}

/-- First-observed valid ledger facts at a frozen cutoff. -/
def authoritativeLedgerHistory (cutoffAt : Instant) : List AuthoritativeLedgerEntry :=
  (ledgerHistoryResolver positionHistory accountIds).entriesAt cutoffAt

/-- An opening baseline is ignored only when its own account fact is invalid. -/
def openingCashIsHistoricallyValid (cashState : AccountCashState) (cutoffAt : Instant) : Bool :=
  cashState.openingLedgerCash ≠ none ∧
    cashState.openingLedgerCashEvidence.problemCodes cutoffAt false = []

/-- The accepted opening cash baselines by cutoff. -/
abbrev CashHistoryResolver := CachedFold AccountCashState Instant (Dict String AccountCashState)

/-- Add a baseline that is valid at a cutoff, unless its account has one. -/
def addCashState (cutoffAt : Instant) (canonicalCashStates : Dict String AccountCashState)
    (cashState : AccountCashState) : Dict String AccountCashState :=
  if openingCashIsHistoricallyValid cashState cutoffAt then
    canonicalCashStates.setDefault cashState.accountId cashState
  else canonicalCashStates

/-- Whether a baseline agrees with the one that a canon has of its account. -/
def cashStateAdmittedBy (canonicalCashStates : Dict String AccountCashState)
    (cashState : AccountCashState) : Bool :=
  (canonicalCashStates.get? cashState.accountId).all
    (·.openingLedgerCash = cashState.openingLedgerCash)

namespace CashHistoryResolver

/-- The baselines of a cutoff, and the resolver that keeps them. -/
def cashStatesAt (resolver : CashHistoryResolver) (cutoffAt : Instant) :
    Dict String AccountCashState × CashHistoryResolver :=
  resolver.query addCashState [] cutoffAt

/-- Accept a baseline that is valid and agrees with the canon of its cutoff. -/
def acceptIfPreserving (resolver : CashHistoryResolver) (cashState : AccountCashState)
    (cutoffAt : Instant) : CashHistoryResolver :=
  if openingCashIsHistoricallyValid cashState cutoffAt then
    resolver.accept addCashState [] cashStateAdmittedBy cutoffAt cashState
  else resolver

end CashHistoryResolver

/-- The resolver after every cash state of a history. -/
def cashHistoryResolver : CashHistoryResolver :=
  positionHistory.foldl (fun resolver position =>
    position.snapshot.cashStates.foldl (fun resolver cashState =>
      if cashState.accountId ∈ accountIds then
        resolver.acceptIfPreserving cashState position.snapshot.cutoffAt
      else resolver) resolver) {}

/-- First-observed valid opening cash baselines at a frozen cutoff. -/
def authoritativeCashHistory (cutoffAt : Instant) : List AccountCashState :=
  ((cashHistoryResolver positionHistory accountIds).cashStatesAt cutoffAt).1.map Prod.snd

end StockProfiler.PositionManagement
