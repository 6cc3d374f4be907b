import StockProfiler.Core.Checks
import StockProfiler.Portfolio.MarketCalendar
import StockProfiler.Portfolio.Stress

/-!
# Portfolio authorization

Commands preview a portfolio scope, freeze a confirmed risk budget or ask to use
one. A confirmation is checked against the lineage of its own portfolio and
against the retained history of every portfolio of its owner.
-/

namespace StockProfiler.Portfolio

/-- A user confirmation of a proposal. -/
structure PortfolioConfirmationCommand where
  proposal : PortfolioProposal
  previousAuthorizationId : Option String := none
  confirmation : PortfolioConfirmation
  /-- A confirmation does not postdate the risk budget. -/
  confirmedAt_le : confirmation.confirmedAt ≤ proposal.riskBudget.effectiveAt
  /-- A confirmation does not predate the portfolio cutoff. -/
  cutoffAt_le : proposal.snapshot.cutoffAt ≤ confirmation.confirmedAt
  /-- A stress policy predates the confirmation. -/
  registeredAt_le : ∀ policy ∈ proposal.riskBudget.stressCalculation,
    policy.registeredAt ≤ confirmation.confirmedAt
  /-- A forward authorization has an activation snapshot after its confirmation. -/
  activation_after : previousAuthorizationId ≠ none →
    ∃ activation ∈ proposal.activationSnapshot, confirmation.confirmedAt < activation.cutoffAt

/-- What an authorization is used for. -/
inductive RequestedAction where
  | newExposure
  | deterministicProtection
  deriving DecidableEq

/-- A request to use an authorization. -/
structure PortfolioUseCommand where
  portfolioId : String
  authorizationId : String
  requestedAction : RequestedAction

/-- A command on a portfolio. -/
inductive PortfolioCommand where
  | preview (proposal : PortfolioProposal)
  | confirm (command : PortfolioConfirmationCommand)
  | use (command : PortfolioUseCommand)

/-- The one portfolio whose lineage a command may inspect. -/
def portfolioIdFor : PortfolioCommand → String
  | .preview proposal => proposal.portfolioId
  | .confirm command => command.proposal.portfolioId
  | .use command => command.portfolioId

/-- What a command is adjudicated with. -/
structure AdjudicationContext where
  eventId : String
  observedAt : Instant
  knowledgeCutoff : Instant
  history : List PortfolioAuthorizationOutcome
  lineageHistory : Option (List PortfolioAuthorizationOutcome) := none
  ownerLineageHistory : Option (List PortfolioAuthorizationOutcome) := none
  accessAccountIds : List String
  businessPrerequisiteMet : Bool := true
  requireCurrentAuthorization : Bool := false
  stressHistory : List PortfolioStressOutcome := []

variable (history : List PortfolioAuthorizationOutcome) (command : PortfolioConfirmationCommand)
  (proposal : PortfolioProposal) (portfolioId : String)

/-- The authorizations of a history. -/
def authorizations : List PortfolioAuthorization :=
  history.filterMap (·.authorization)

/-- The authorizations of one portfolio. -/
def portfolioAuthorizations : List PortfolioAuthorization :=
  (authorizations history).filter (·.proposal.portfolioId = portfolioId)

/-- The one authorization of a portfolio with an identity. -/
def authorizationById (authorizationId : String) : Option PortfolioAuthorization :=
  (portfolioAuthorizations history portfolioId).find? (·.authorizationId = authorizationId)

/-- The only authorization that no other one supersedes. -/
def lineageLeaf (authorizations : List PortfolioAuthorization) :
    Except String (Option PortfolioAuthorization) :=
  if authorizations = [] then .ok none
  else
    let superseded := authorizations.filterMap (·.previousAuthorizationId)
    match authorizations.filter (·.authorizationId ∉ superseded) with
    | [current] => .ok (some current)
    | _ => .error "AUTHORIZATION_HISTORY_CONFLICT"

/-- The current authorization of a portfolio. -/
def currentAuthorization : Except String (Option PortfolioAuthorization) :=
  lineageLeaf (portfolioAuthorizations history portfolioId)

/-- The authorization of a portfolio that is in effect at an instant. -/
def activeAuthorization (observedAt : Instant) : Except String (Option PortfolioAuthorization) :=
  lineageLeaf ((portfolioAuthorizations history portfolioId).filter
    (·.proposal.riskBudget.effectiveAt ≤ observedAt))

variable (ownerLineageHistory : List PortfolioAuthorizationOutcome)
  (budget previous : PersonalRiskBudget) (cutoff : Instant) (ctx : AdjudicationContext)

/-- The outcomes whose evidence is available by a cutoff. -/
def historyAvailableBy : List PortfolioAuthorizationOutcome :=
  history.filter (·.authorization.all (·.evidenceAvailableBy cutoff))

/-- The obligations that a portfolio recorded, each as first recorded. -/
def unresolvedCashObligations (effectiveBy : Option Instant := none) : List DatedCashObligation :=
  let recorded := (portfolioAuthorizations history portfolioId).filter fun authorization =>
    effectiveBy.all (authorization.proposal.riskBudget.effectiveAt ≤ ·)
  (Dict.ofFirst ((recorded.flatMap (·.proposal.cashObligations)).map fun obligation =>
    (obligation.obligationId, obligation))).map Prod.snd

/-- Whether a grid has a wider boundary than an earlier one. -/
def PersonalRiskBudget.relaxesDownsideGrid : Bool :=
  previous.downsideGrid.last < budget.downsideGrid.last ∨
    (budget.downsideGrid.values.zip previous.downsideGrid.values).any
      fun (current, prior) => prior < current

/-- Whether a stress policy is less conservative than an earlier one. -/
def PersonalRiskBudget.relaxesStress : Bool :=
  previous.stressCalculation.any fun prior =>
    budget.stressCalculation.all fun current =>
      current.disposalFrictionRatio < prior.disposalFrictionRatio ∨
        current.shockRatio < prior.shockRatio

/-- Conservatively identify a successor that permits more statistical risk. -/
def PersonalRiskBudget.relaxes : Bool :=
  previous.concentration.targetRatio < budget.concentration.targetRatio ∨
    previous.concentration.hardRatio < budget.concentration.hardRatio ∨
    previous.stress.targetRatio < budget.stress.targetRatio ∨
    previous.stress.hardRatio < budget.stress.hardRatio ∨
    budget.cash.targetRatio < previous.cash.targetRatio ∨
    budget.cash.hardRatio < previous.cash.hardRatio ∨
    previous.drawdown.cautionRatio < budget.drawdown.cautionRatio ∨
    previous.drawdown.defensiveRatio < budget.drawdown.defensiveRatio ∨
    previous.drawdown.preservationRatio < budget.drawdown.preservationRatio ∨
    budget.relaxesDownsideGrid previous ∨
    budget.relaxesStress previous ∨
    ¬∀ direction ∈ previous.retainedDirections, direction ∈ budget.retainedDirections

/-- Whether a normal window is current: no later known session has closed. -/
def RiskBudgetRelaxationEvidence.normalWindowIsCurrentAt (evidence : RiskBudgetRelaxationEvidence)
    (instant : Instant) : Bool :=
  instant ≤ evidence.normalThroughAt ∨
    (syntheticMarketCalendar evidence.marketCalendarVersionId).any fun calendar =>
      (calendar.nextSessionAfter evidence.normalThroughAt).any (instant < ·.closedAt)

/-- The type of an account that cannot be selected. -/
def exclusionReason (accountType : String) : String :=
  if accountType = "SIMULATED_CASH" then "NOT_SELECTED"
  else if accountType ∈ ["SIMULATED_MARGIN", "SIMULATED_SECURITIES_BORROWING",
      "SIMULATED_PLEDGED", "SIMULATED_COLLATERAL", "SIMULATED_LIABILITY"] then
    "UNSUPPORTED_ACCOUNT_TYPE"
  else "UNKNOWN_ACCOUNT_TYPE"

/-- The reasons why selected accounts of a snapshot block a confirmation. -/
def blockingReasons (snapshot : PortfolioSnapshot) : List String :=
  ((snapshot.accounts.filter (·.accountId ∈ snapshot.selectedAccountIds)).filter
    (·.accountType ≠ "SIMULATED_CASH")).map fun account => exclusionReason account.accountType

/-- The account types that block a proposal, at its selection and its activation. -/
def blockReasons : List String :=
  (blockingReasons proposal.snapshot ++
    proposal.activationSnapshot.elim [] blockingReasons).eraseDups

/-- Whether another portfolio of the owner has one of the accounts. -/
def overlappingPortfolioScope : Bool :=
  (authorizations ownerLineageHistory).any fun authorization =>
    authorization.proposal.portfolioId ≠ proposal.portfolioId ∧
      ∃ id ∈ proposal.snapshot.accountIds, id ∈ authorization.proposal.snapshot.accountIds

/-- Check the proof that a changed downside grid needs. -/
def checkDownsideGridRequalification (current : PortfolioAuthorization) (cutoff : Instant) :
    Except String Unit := do
  let previous := current.proposal.riskBudget
  let proposed := command.proposal.riskBudget
  if proposed.downsideGrid = previous.downsideGrid then return ()
  require (proposed.actionPolicyVersionId ≠ previous.actionPolicyVersionId)
    "DOWNSIDE_GRID_ACTION_POLICY_VERSION_REQUIRED"
  let evidence ← known command.confirmation.downsideGridRequalification
    "DOWNSIDE_GRID_REQUALIFICATION_REQUIRED"
  require (evidence.predecessorAuthorizationId = current.authorizationId ∧
      evidence.predecessorRiskBudgetVersionId = previous.versionId ∧
      evidence.actionPolicyVersionId = proposed.actionPolicyVersionId ∧
      previous.effectiveAt ≤ evidence.historicalCompletedAt ∧
      evidence.lockedForwardConfirmedAt < command.confirmation.confirmedAt ∧
      evidence.lockedForwardConfirmationId ≠ command.confirmation.confirmationId ∧
      evidence.availableAt ≤ command.confirmation.confirmedAt ∧ evidence.availableAt ≤ cutoff)
    "DOWNSIDE_GRID_REQUALIFICATION_INVALID"

/-- Whether a policy identity would bind a different downside grid. -/
def redefinesActionPolicyGrid : Bool :=
  (authorizations ownerLineageHistory).any fun authorization =>
    authorization.proposal.riskBudget.actionPolicyVersionId =
        proposal.riskBudget.actionPolicyVersionId ∧
      authorization.proposal.riskBudget.downsideGrid ≠ proposal.riskBudget.downsideGrid

/-- Whether a stress policy version would name another policy. -/
def redefinesStressPolicy (history : List PortfolioAuthorizationOutcome) : Bool :=
  proposal.riskBudget.stressCalculation.any fun policy =>
    (authorizations history).any fun authorization =>
      authorization.proposal.riskBudget.stressCalculation.any fun retained =>
        retained.versionId = policy.versionId ∧ retained ≠ policy

/-- The identities of a requalification proof. -/
def DownsideGridRequalificationEvidence.identities
    (evidence : DownsideGridRequalificationEvidence) : List String :=
  [evidence.evidenceId, evidence.historicalOutOfSampleEvidenceId,
    evidence.lockedForwardConfirmationId]

/-- Whether a proof identity would designate different retained evidence. -/
def redefinesRequalificationIdentity : Bool :=
  command.confirmation.downsideGridRequalification.any fun submitted =>
    (authorizations ownerLineageHistory).any fun authorization =>
      authorization.confirmation.downsideGridRequalification.any fun retained =>
        (∃ id ∈ retained.identities, id ∈ submitted.identities) ∧ retained ≠ submitted

/-- The snapshot identities of a proposal. -/
def proposalSnapshotIds : List String :=
  proposal.snapshot.snapshotId :: (proposal.activationSnapshot.map (·.snapshotId)).toList

/-- Check that no authorization of the portfolio has an identity of the command. -/
def checkReusedIdentity (history : List PortfolioAuthorizationOutcome) : Except String Unit := do
  let retained := portfolioAuthorizations history command.proposal.portfolioId
  require (∀ a ∈ retained, a.proposal.riskBudget.versionId ≠ command.proposal.riskBudget.versionId)
    "RISK_BUDGET_VERSION_REUSE"
  require (∀ a ∈ retained, ∀ id ∈ proposalSnapshotIds a.proposal,
    id ∉ proposalSnapshotIds command.proposal) "PORTFOLIO_SNAPSHOT_VERSION_REUSE"
  require (∀ a ∈ retained, a.confirmation.confirmationId ≠ command.confirmation.confirmationId)
    "PORTFOLIO_CONFIRMATION_REUSE"

/-- The obligation identities of a proposal. -/
def obligationIds : List String :=
  proposal.cashObligations.map (·.obligationId)

/-- Check that no authorization of the portfolio recorded an obligation of the command. -/
def checkReusedObligations (history : List PortfolioAuthorizationOutcome) : Except String Unit :=
  require (∀ a ∈ portfolioAuthorizations history command.proposal.portfolioId,
    ∀ id ∈ obligationIds a.proposal, id ∉ obligationIds command.proposal) "CASH_OBLIGATION_ID_REUSE"

/-- Whether the last stress record is not normal, or leaves an obligation outstanding. -/
def stressUnresolved (records : List PortfolioStressOutcome) : Bool :=
  records.getLast?.any fun last =>
    last.state ≠ .normal ∨ last.obligation.any (·.status = .outstanding)

/-- Check the proof that a relaxed budget needs. Later history may veto a relaxation, but never
establish an earlier restoration. -/
def checkRelaxation (current : PortfolioAuthorization)
    (history : List PortfolioAuthorizationOutcome) (cutoff : Instant)
    (stressHistory : List PortfolioStressOutcome) : Except String Unit := do
  let confirmedAt := command.confirmation.confirmedAt
  let budget := current.proposal.riskBudget
  let evidence ← known command.confirmation.relaxationEvidence
    "RISK_BUDGET_RELAXATION_EVIDENCE_REQUIRED"
  require (evidence.predecessorAuthorizationId = current.authorizationId ∧
      evidence.predecessorRiskBudgetVersionId = budget.versionId ∧
      budget.effectiveAt ≤ evidence.normalFromAt ∧ evidence.normalThroughAt ≤ budget.expiresAt ∧
      evidence.normalThroughAt ≤ confirmedAt ∧ evidence.normalWindowIsCurrentAt confirmedAt ∧
      evidence.availableAt ≤ confirmedAt ∧ evidence.availableAt ≤ cutoff ∧
      command.proposal.activationSnapshot.any fun activation =>
        evidence.monthlySelectionCutoffAt = activation.cutoffAt ∧
          activation.cutoffAt = command.proposal.riskBudget.effectiveAt)
    "RISK_BUDGET_RELAXATION_EVIDENCE_INVALID"
  let visibleStress := stressHistory.filter (·.cutoffAt ≤ min cutoff confirmedAt)
  require (unresolvedCashObligations history command.proposal.portfolioId = [] ∧
      !stressUnresolved visibleStress ∧ !stressUnresolved stressHistory)
    "RISK_BUDGET_RELAXATION_OBLIGATIONS_UNRESOLVED"

/-- Check a command against the authorization that it succeeds. -/
def checkSuccessor : Option PortfolioAuthorization → Except String Unit
  | none => require (command.previousAuthorizationId = none) "PREVIOUS_AUTHORIZATION_NOT_FOUND"
  | some current => do
    require (current.evidenceAvailableBy cutoff) "PORTFOLIO_LINEAGE_AFTER_CUTOFF"
    require (command.previousAuthorizationId ≠ none) "PREVIOUS_AUTHORIZATION_REQUIRED"
    require (command.previousAuthorizationId = some current.authorizationId)
      "AUTHORIZATION_REVISION_CONFLICT"
    checkDownsideGridRequalification command current cutoff

/-- Check that a command moves the budget of its portfolio forward. -/
def checkForward (history : List PortfolioAuthorizationOutcome) (cutoff : Instant)
    (stressHistory : List PortfolioStressOutcome) :
    Option PortfolioAuthorization → Except String Unit
  | none => .ok ()
  | some current => do
    require (current.proposal.riskBudget.effectiveAt < command.proposal.riskBudget.effectiveAt)
      "RISK_BUDGET_NOT_FORWARD_EFFECTIVE"
    if command.proposal.riskBudget.relaxes current.proposal.riskBudget then
      checkRelaxation command current history cutoff stressHistory

/-- Check a confirmation against its own lineage and the history of its owner. -/
def checkConfirmation (lineageHistory ownerLineageHistory : List PortfolioAuthorizationOutcome)
    (stressHistory : List PortfolioStressOutcome) : Except String Unit := do
  require (!overlappingPortfolioScope command.proposal ownerLineageHistory)
    "PORTFOLIO_ACCOUNT_SCOPE_CONFLICT"
  let current ← currentAuthorization lineageHistory command.proposal.portfolioId
  checkSuccessor command cutoff current
  require (!redefinesActionPolicyGrid command.proposal ownerLineageHistory)
    "DOWNSIDE_GRID_ACTION_POLICY_REDEFINED"
  require (!redefinesStressPolicy command.proposal ownerLineageHistory)
    "STRESS_CALCULATION_POLICY_REDEFINED"
  require (!redefinesRequalificationIdentity command ownerLineageHistory)
    "DOWNSIDE_GRID_REQUALIFICATION_EVIDENCE_REDEFINED"
  checkReusedIdentity command lineageHistory
  checkReusedObligations command lineageHistory
  checkForward command lineageHistory cutoff stressHistory current

/-- A denial for some reasons. -/
def PortfolioAuthorizationOutcome.denied (reasons : List String) :
    PortfolioAuthorizationOutcome where
  disposition := .denied
  reasons := reasons

/-- Check that evidence is within the information set and already there. -/
def checkEvidence (availableBy : Instant → Bool) (cutoff now : Instant) : Except String Unit := do
  require (availableBy cutoff) "PORTFOLIO_EVIDENCE_AFTER_CUTOFF"
  require (availableBy now) "PORTFOLIO_EVIDENCE_NOT_AVAILABLE"

/-- Whether a confirmation and its evidence are there by an instant. -/
def PortfolioConfirmation.availableBy (confirmation : PortfolioConfirmation) (instant : Instant) :
    Bool :=
  confirmation.confirmedAt ≤ instant ∧
    confirmation.relaxationEvidence.all (·.availableAt ≤ instant) ∧
    confirmation.downsideGridRequalification.all (·.availableAt ≤ instant)

/-- The reasons to deny a confirmation: the first check that fails, else blocking accounts. -/
def confirmationReasons (lineageHistory ownerLineageHistory : List PortfolioAuthorizationOutcome)
    (stressHistory : List PortfolioStressOutcome) : List String :=
  match checkConfirmation command cutoff lineageHistory ownerLineageHistory stressHistory with
  | .error reason => [reason]
  | .ok () => blockReasons command.proposal

/-- Freeze a confirmed proposal as the next authorization of its portfolio. -/
def adjudicateConfirmation (command : PortfolioConfirmationCommand)
    (lineageHistory ownerLineageHistory : List PortfolioAuthorizationOutcome) :
    PortfolioAuthorizationOutcome :=
  match checkEvidence command.confirmation.availableBy ctx.knowledgeCutoff ctx.observedAt with
  | .error reason => .denied [reason]
  | .ok () =>
    if !ctx.businessPrerequisiteMet then .denied ["BUSINESS_PREREQUISITE_NOT_MET"]
    else
      let reasons := confirmationReasons command ctx.knowledgeCutoff lineageHistory
        ownerLineageHistory ctx.stressHistory
      if reasons ≠ [] then .denied reasons
      else
        { disposition := .approved
          reasons := ["PORTFOLIO_AUTHORIZATION_RECORDED"]
          authorization := some
            { authorizationId := ctx.eventId
              proposal := command.proposal
              confirmation := command.confirmation
              previousAuthorizationId := command.previousAuthorizationId } }

/-- Why an authorization is not the one in effect. -/
def currentDenial (now : Instant) (authorization : PortfolioAuthorization) : Option String :=
  match activeAuthorization history portfolioId now with
  | .error reason => some reason
  | .ok active =>
    if active.any (·.authorizationId = authorization.authorizationId) then none
    else some "CURRENT_PORTFOLIO_AUTHORIZATION_REQUIRED"

/-- Whether a use is allowed, and why; a conflict of the history decides neither. -/
def useDecision (command : PortfolioUseCommand) (now : Instant)
    (history lineageHistory : List PortfolioAuthorizationOutcome)
    (authorization : PortfolioAuthorization) : Except String (Bool × String) :=
  if now < authorization.proposal.riskBudget.effectiveAt then
    .ok (false, "RISK_BUDGET_NOT_YET_EFFECTIVE")
  else if command.requestedAction = .deterministicProtection then
    .ok (true, "DETERMINISTIC_PROTECTION_RETAINED")
  else do
    let lineageActive ← activeAuthorization lineageHistory command.portfolioId now
    if lineageActive.any (·.authorizationId ≠ authorization.authorizationId) then
      return (false, "CURRENT_PORTFOLIO_AUTHORIZATION_REQUIRED")
    else
      let _ ← currentAuthorization history command.portfolioId
      let active ← activeAuthorization history command.portfolioId now
      if !active.any (·.authorizationId = authorization.authorizationId) then
        return (false, "CURRENT_PORTFOLIO_AUTHORIZATION_REQUIRED")
      else if authorization.proposal.riskBudget.expiresAt ≤ now then
        return (false, "RISK_BUDGET_EXPIRED")
      else return (true, "NEW_EXPOSURE_AUTHORIZED")

/-- Adjudicate the use of a frozen authorization. -/
def adjudicateUse (command : PortfolioUseCommand)
    (history lineageHistory : List PortfolioAuthorizationOutcome) : PortfolioAuthorizationOutcome :=
  let now := ctx.observedAt
  if !ctx.businessPrerequisiteMet ∧ command.requestedAction = .newExposure then
    .denied ["BUSINESS_PREREQUISITE_NOT_MET"]
  else match authorizationById history command.portfolioId command.authorizationId with
    | none => .denied ["PORTFOLIO_AUTHORIZATION_REQUIRED"]
    | some authorization =>
      let obligations := unresolvedCashObligations history command.portfolioId (some now)
      let required := authorization.proposal.snapshot.accountIds ++
        obligations.map (·.targetAccountId)
      if !required.all (· ∈ ctx.accessAccountIds) then .denied ["AUTHORIZATION_SCOPE_MISMATCH"]
      else match (if ctx.requireCurrentAuthorization then
          [lineageHistory, history].findSome?
            (currentDenial · command.portfolioId now authorization) else none) with
        | some reason => .denied [reason]
        | none =>
          match useDecision command now history lineageHistory authorization with
          | .error reason => .denied [reason]
          | .ok (allowed, reason) =>
            { disposition := if allowed then .approved else .denied
              reasons := [reason]
              usage := some
                { allowed := allowed
                  authorizationSnapshot := authorization
                  unfinishedCashObligations := obligations
                  checkedAt := now } }

/-- Preview a full scope, freeze its confirmed authorization, or use one. -/
def adjudicatePortfolio (command : PortfolioCommand) : PortfolioAuthorizationOutcome :=
  let history := historyAvailableBy ctx.history ctx.knowledgeCutoff
  let lineageHistory := ctx.lineageHistory.getD history
  let ownerLineageHistory := ctx.ownerLineageHistory.getD lineageHistory
  match command with
  | .use command => adjudicateUse ctx command history lineageHistory
  | .preview proposal =>
    match checkEvidence proposal.evidenceAvailableBy ctx.knowledgeCutoff ctx.observedAt with
    | .error reason => .denied [reason]
    | .ok () => { disposition := .previewed, reasons := ["PORTFOLIO_SCOPE_PREVIEWED"] }
  | .confirm command =>
    match checkEvidence command.proposal.evidenceAvailableBy ctx.knowledgeCutoff
        ctx.observedAt with
    | .error reason => .denied [reason]
    | .ok () => adjudicateConfirmation ctx command lineageHistory ownerLineageHistory

end StockProfiler.Portfolio
