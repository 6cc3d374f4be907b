import StockProfiler.Core.Dict
import StockProfiler.Core.Walk
import StockProfiler.Portfolio.Contracts

/-!
# Portfolio gross stress

The stress loss of a portfolio is computed from reconciled frozen facts. A hard
breach leaves an obligation to reduce, which every later assessment carries until
confirmed sales restore the target.
-/

namespace StockProfiler.Portfolio

open PositionManagement

/-- One request to assess the stress of a portfolio. -/
structure PortfolioStressCommand where
  portfolioId : String
  authorizationId : String
  positionSnapshot : PositionSnapshotCommand

/-- What one holding adds to the stress loss. -/
structure StressContribution where
  accountId : String
  securityId : String
  currentExposure : ℚ
  adversePriceLoss : ℚ
  disposalFriction : ℚ

/-- The identity of one ledger entry. -/
structure StressLedgerReference where
  accountId : String
  entryId : String
  deriving DecidableEq

/-- A sale that restored the portfolio, net of its corrections. -/
structure StressRestorationFill extends StressLedgerReference where
  netQuantity : ℚ
  netCashDelta : ℚ
  netQuantity_neg : netQuantity < 0

/-- Whether an obligation still has to be met. -/
inductive StressObligationStatus where
  | outstanding
  | satisfied
  deriving DecidableEq

/-- The obligation to reduce the total stock exposure. -/
structure StressObligation where
  obligationId : String
  targetStressRatio : ℚ
  status : StressObligationStatus
  triggeredAt : Instant
  restorationFills : List StressRestorationFill := []
  restorationCorrections : List StressLedgerReference := []

/-- How the stress loss compares with the budget. -/
inductive StressState where
  | normal
  | buffer
  | hardBreach
  | unknown
  deriving DecidableEq

/-- What every outcome of one assessment repeats. -/
structure StressIdentity where
  portfolioId : String
  authorizationId : String
  snapshotId : String
  cutoffAt : Instant
  accountIds : List String
  riskBudgetVersionId : Option String
  calculationPolicy : Option StressCalculationPolicy
  budget : Option TwoThresholdBudget

/-- The result appended for one assessment. -/
structure PortfolioStressOutcome extends StressIdentity where
  state : StressState
  reasons : List String
  grossStressLoss : Option ℚ := none
  netLiquidationEquity : Option ℚ := none
  stressRatio : Option ℚ := none
  contributions : List StressContribution := []
  newExposureBlocked : Bool
  obligation : Option StressObligation := none
  executionBlocked : Bool := false
  residualRestorationGap : Option ℚ := none

/-- The reasons whose outcomes are not part of the lineage. -/
def lineageDenials : List String :=
  ["STRESS_AUTHORIZATION_UNAVAILABLE", "STRESS_ACCOUNT_SCOPE_MISMATCH",
    "STRESS_RETAINED_SCOPE_NOT_COVERED", "STRESS_SNAPSHOT_NOT_FORWARD"]

/-- None of the reasons denies the lineage. -/
def noLineageDenial (reasons : List String) : Bool := reasons.all (· ∉ lineageDenials)

/-- An outcome is part of the lineage. -/
def PortfolioStressOutcome.inLineage (outcome : PortfolioStressOutcome) : Bool :=
  noLineageDenial outcome.reasons

/-- What one assessment is given besides the history. -/
structure StressInput where
  command : PortfolioStressCommand
  authorization : PortfolioAuthorizationOutcome
  position : PositionReconciliationOutcome

variable (ctx : DecimalContext) (entries : List AuthoritativeLedgerEntry)
  (entry : AuthoritativeLedgerEntry) (obligation : StressObligation)

/-- The identity of a ledger entry across accounts. -/
def ledgerKey : String × String :=
  (entry.accountId, entry.entryId)

/-- The entries by identity; the last one of an identity counts. -/
def ledgerIndex : Dict (String × String) AuthoritativeLedgerEntry :=
  Dict.ofLast (entries.map fun entry => (ledgerKey entry, entry))

/-- The entry that a correction names. -/
def correctionLink : Link AuthoritativeLedgerEntry :=
  match entry.correctsEntryId with
  | none => .root
  | some targetId =>
    match (ledgerIndex entries).get? (entry.accountId, targetId) with
    | none => .missing
    | some target => .next target

/-- What a walk along corrections remembers; a root is never mistaken for a cycle. -/
def correctionKey : String × Bool :=
  (entry.entryId, entry.correctsEntryId.isSome)

/-- The walk from an entry to the one that it finally corrects. -/
def correctionWalk : WalkEnd AuthoritativeLedgerEntry :=
  follow correctionKey (correctionLink entries) (entries.length + 1) [] entry

/-- The identity of the entry that is finally corrected, if the walk ends at one. -/
def correctionRootKey : Option (String × String) :=
  match correctionWalk entries entry with
  | .root root => some (ledgerKey root)
  | _ => none

/-- A fill counts with its net quantity when it was made after an instant and sells. -/
def restorationFill (after : Instant) (key : String × String)
    (members : List AuthoritativeLedgerEntry) : Option StressRestorationFill :=
  let quantity := ctx.sum (members.map (·.quantityDelta))
  match (ledgerIndex entries).get? key with
  | none => none
  | some root =>
    if h : quantity < 0 then
      if root.entryType = .fill ∧ after < root.occurredAt then
        some ⟨⟨key.1, key.2⟩, quantity, ctx.sum (members.map (·.cashDelta)), h⟩
      else none
    else none

/-- The sales after an instant, each net of its visible corrections. -/
def effectiveSales (after cutoffAt : Instant) : List StressRestorationFill :=
  if entries.all fun entry => ledgerEntryEvidenceIsVisible entry.toPositionLedgerEntry cutoffAt then
    match entries.mapM fun entry => (correctionRootKey entries entry).map (·, entry) with
    | none => []
    | some keyed =>
      (Dict.group keyed).filterMap fun (key, members) =>
        restorationFill ctx entries after key members
  else []

namespace StressInput

variable (input : StressInput)

/-- The stress policy of the authorization. -/
def policy : Option StressCalculationPolicy :=
  input.authorization.usage.bind (·.authorizationSnapshot.proposal.riskBudget.stressCalculation)

/-- The risk budget of an allowed use. -/
def allowedBudget : Option PersonalRiskBudget :=
  (input.authorization.usage.filter (·.allowed)).map
    (·.authorizationSnapshot.proposal.riskBudget)

/-- What every outcome of this assessment repeats. -/
def identity : StressIdentity where
  portfolioId := input.command.portfolioId
  authorizationId := input.command.authorizationId
  snapshotId := input.position.snapshot.snapshotId
  cutoffAt := input.position.snapshot.cutoffAt
  accountIds := input.command.positionSnapshot.accountIds
  riskBudgetVersionId := input.allowedBudget.map (·.versionId)
  calculationPolicy := input.allowedBudget.bind (·.stressCalculation)
  budget := input.allowedBudget.map (·.stress)

/-- The use is not allowed, or is of other accounts. -/
def authorizationReasons : List String :=
  match input.authorization.usage.filter (·.allowed) with
  | none => ["STRESS_AUTHORIZATION_UNAVAILABLE"]
  | some usage =>
    if sameMembers usage.authorizationSnapshot.proposal.snapshot.selectedAccountIds
        input.command.positionSnapshot.accountIds then []
    else ["STRESS_ACCOUNT_SCOPE_MISMATCH"]

/-- Corrections that add stock or take cash. -/
def corrections : List StressLedgerReference :=
  (input.position.snapshot.authoritativeLedger.filter fun entry =>
    entry.correctsEntryId.isSome ∧ (0 < entry.quantityDelta ∨ entry.cashDelta < 0)).map
      fun entry => ⟨entry.accountId, entry.entryId⟩

/-- A retained outcome names an account that the snapshot does not have. -/
def retainedScopeNotCovered (lineage : List PortfolioStressOutcome) : Bool :=
  lineage.any fun item =>
    !item.accountIds.all (· ∈ input.command.positionSnapshot.accountIds)

/-- Equity or the exposure of an issuer is unknown. -/
def valuationUnknown : Bool :=
  input.position.snapshot.totalAccountEquity.isNone ∨
    input.position.snapshot.issuerExposures.any (·.currentMarketExposure.isNone)

end StressInput

variable (history : List PortfolioStressOutcome)

/-- The outcomes that are part of the lineage. -/
def stressLineage : List PortfolioStressOutcome :=
  history.filter (·.inLineage)

/-- The last outcome of the lineage before a cutoff. -/
def priorStress (cutoffAt : Instant) : Option PortfolioStressOutcome :=
  ((stressLineage history).filter (·.cutoffAt < cutoffAt)).getLast?

/-- Why an assessment cannot be made, in order. -/
def stressReasons (input : StressInput) (history : List PortfolioStressOutcome) : List String :=
  let lineage := stressLineage history
  input.authorizationReasons ++
  (if input.policy = none then ["STRESS_POLICY_REQUIRED"] else []) ++
  (if lineage.any (input.position.snapshot.cutoffAt ≤ ·.cutoffAt) then
    ["STRESS_SNAPSHOT_NOT_FORWARD"] else []) ++
  (if input.retainedScopeNotCovered lineage then
    ["STRESS_RETAINED_SCOPE_NOT_COVERED"] else []) ++
  (if input.valuationUnknown then ["STRESS_VALUATION_UNKNOWN"] else [])

/-- Every recorded sale still stands, and no new correction undoes one. -/
def StressObligation.stillConfirmed (input : StressInput) : Bool :=
  let snapshot := input.position.snapshot
  let current := effectiveSales ctx snapshot.authoritativeLedger obligation.triggeredAt
    snapshot.cutoffAt
  let currentById := Dict.ofLast (current.map fun fill => (fill.toStressLedgerReference, fill))
  input.position.disposition = .reconciled ∧ obligation.restorationFills ≠ [] ∧
    input.corrections.all (· ∈ obligation.restorationCorrections) ∧
    obligation.restorationFills.all fun fill =>
      (currentById.get? fill.toStressLedgerReference).any fun current =>
        current.netQuantity ≤ fill.netQuantity ∧ fill.netCashDelta ≤ current.netCashDelta

/-- A satisfied obligation is outstanding again once it is no longer confirmed. -/
def StressObligation.reopen (input : StressInput) : StressObligation :=
  if obligation.status = .satisfied ∧ !obligation.stillConfirmed ctx input then
    { obligation with status := .outstanding }
  else obligation

/-- An outstanding obligation follows a lower target. -/
def StressObligation.tighten (budget : Option PersonalRiskBudget) (reasons : List String) :
    StressObligation :=
  match budget with
  | none => obligation
  | some budget =>
    if obligation.status = .outstanding ∧ noLineageDenial reasons then
      { obligation with
        targetStressRatio := min obligation.targetStressRatio budget.stress.targetRatio }
    else obligation

/-- The obligation that an assessment starts from. -/
def retainedObligation (input : StressInput) (history : List PortfolioStressOutcome) :
    Option StressObligation :=
  let prior := (priorStress history input.position.snapshot.cutoffAt).bind (·.obligation)
  if input.retainedScopeNotCovered (stressLineage history) then none
  else prior.map fun obligation =>
    (obligation.reopen ctx input).tighten input.allowedBudget (stressReasons input history)

/-- The outcome of an assessment that cannot be made. -/
def StressInput.unavailable (input : StressInput) (reasons : List String)
    (obligation : Option StressObligation) : PortfolioStressOutcome where
  toStressIdentity := input.identity
  state := .unknown
  reasons := reasons
  newExposureBlocked := true
  obligation := obligation
  executionBlocked := true

/-- The contribution of one holding, when its value is known. -/
def stressContribution (policy : StressCalculationPolicy) (unit : PositionActionUnit) :
    Option StressContribution := do
  let quantity ← unit.totalQuantity
  let price ← unit.marketPrice
  let exposure := ctx.mul quantity price
  return {
    accountId := unit.accountId
    securityId := unit.securityId
    currentExposure := exposure
    adversePriceLoss := ctx.mul exposure policy.shockRatio
    disposalFriction := ctx.mul exposure policy.disposalFrictionRatio }

/-- How a loss compares with the budget. -/
def stressState (budget : TwoThresholdBudget) (loss equity : ℚ) : StressState :=
  if ctx.mul budget.hardRatio equity < loss then .hardBreach
  else if ctx.mul budget.targetRatio equity < loss then .buffer
  else .normal

/-- The obligation that a hard breach triggers. -/
def StressInput.triggered (input : StressInput) (budget : TwoThresholdBudget) :
    StressObligation where
  obligationId := "stress-obligation:" ++ input.command.authorizationId ++ ":" ++
    input.position.snapshot.snapshotId
  targetStressRatio := budget.targetRatio
  status := .outstanding
  triggeredAt := input.position.snapshot.cutoffAt

/-- A hard breach needs an outstanding obligation. -/
def breachedObligation (input : StressInput) (budget : TwoThresholdBudget) (state : StressState)
    (retained : Option StressObligation) : Option StressObligation :=
  if state = .hardBreach ∧ retained.all (·.status = .satisfied) then some (input.triggered budget)
  else retained

/-- An obligation is satisfied by confirmed sales at or below its target. -/
def StressObligation.restore (input : StressInput) (loss equity : ℚ) : StressObligation :=
  let snapshot := input.position.snapshot
  let sales := effectiveSales ctx snapshot.authoritativeLedger obligation.triggeredAt
    snapshot.cutoffAt
  if loss ≤ ctx.mul obligation.targetStressRatio equity ∧ sales ≠ [] ∧
      input.position.disposition = .reconciled then
    { obligation with
      status := .satisfied
      restorationFills := sales
      restorationCorrections := input.corrections }
  else obligation

/-- The part of the target that no sellable holding can restore. -/
def residualGap (input : StressInput) (policy : StressCalculationPolicy) (equity : ℚ)
    (obligation : StressObligation) : Option ℚ :=
  let units := input.position.snapshot.actionUnits
  if obligation.status = .outstanding ∧ units.all (·.exactStatisticalActionQuantity.isSome) then
    let remaining := units.filterMap fun unit => do
      let quantity ← unit.totalQuantity
      let sellable ← unit.exactStatisticalActionQuantity
      let price ← unit.marketPrice
      return ctx.mul (ctx.mul (ctx.sub quantity sellable) price)
        (ctx.add policy.shockRatio policy.disposalFrictionRatio)
    some (max 0 (ctx.sub (ctx.sum remaining) (ctx.mul obligation.targetStressRatio equity)))
  else none

/-- The outcome of an assessment on known facts. -/
def StressInput.assessed (input : StressInput) (usage : PortfolioAuthorizationUsage)
    (policy : StressCalculationPolicy) (budget : TwoThresholdBudget)
    (contributions : List StressContribution) (loss equity : ℚ)
    (retained : Option StressObligation) : PortfolioStressOutcome :=
  let state := stressState ctx budget loss equity
  let obligation := (breachedObligation input budget state retained).map
    (·.restore ctx input loss equity)
  let outstanding : Bool := obligation.any (·.status = .outstanding)
  let gap := obligation.bind (residualGap ctx input policy equity)
  let expired : Bool :=
    usage.authorizationSnapshot.proposal.riskBudget.expiresAt ≤ usage.checkedAt
  { toStressIdentity := input.identity
    state := state
    reasons := if expired then ["RISK_BUDGET_EXPIRED"] else []
    grossStressLoss := some loss
    netLiquidationEquity := some equity
    stressRatio := some (ctx.div loss equity)
    contributions := contributions
    newExposureBlocked := state ≠ .normal ∨ outstanding ∨ expired
    obligation := obligation
    residualRestorationGap := gap
    executionBlocked := outstanding ∧ gap.all (0 < ·) }

/-- Assess the stress of a portfolio; an unvalued holding leaves no outcome. -/
def assessStress (input : StressInput) : Option PortfolioStressOutcome :=
  let reasons := stressReasons input history
  let retained := retainedObligation ctx input history
  if reasons ≠ [] then some (input.unavailable reasons retained)
  else do
    let usage ← input.authorization.usage
    let policy ← input.policy
    let budget ← input.allowedBudget
    let total ← input.position.snapshot.totalAccountEquity
    let contributions ← input.position.snapshot.actionUnits.mapM (stressContribution ctx policy)
    let friction := ctx.sum (contributions.map (·.disposalFriction))
    let equity := ctx.sub total friction
    let loss := ctx.sum (contributions.map fun item =>
      ctx.add item.adversePriceLoss item.disposalFriction)
    if equity ≤ 0 then
      return { input.unavailable ["STRESS_NET_EQUITY_NON_POSITIVE"] retained with
        contributions := contributions
        grossStressLoss := some loss
        netLiquidationEquity := some equity }
    return input.assessed ctx usage policy budget.stress contributions loss equity retained

end StockProfiler.Portfolio
