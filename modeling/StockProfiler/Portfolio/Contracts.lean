import Mathlib.Order.Lattice
import StockProfiler.Core.Decimal
import StockProfiler.PositionManagement.Contracts

/-!
# Decision-portfolio contracts

The risk budgets, proposals and authorizations that portfolio decisions read.
The checks a contract makes on construction are fields of its structure.
-/

namespace StockProfiler.Portfolio

open PositionManagement

/-- A target ratio below a hard ratio. -/
@[ext]
structure TwoThresholdBudget where
  targetRatio : ℚ
  hardRatio : ℚ
  targetRatio_pos : 0 < targetRatio
  hardRatio_lt_one : hardRatio < 1
  /-- The target ratio is lower than the hard ratio. -/
  target_lt_hard : targetRatio < hardRatio

instance : DecidableEq TwoThresholdBudget := fun _ _ =>
  decidable_of_iff' _ TwoThresholdBudget.ext_iff

/-- A cash target above a hard floor. -/
@[ext]
structure CashBudget where
  targetRatio : ℚ
  hardRatio : ℚ
  hardRatio_pos : 0 < hardRatio
  targetRatio_lt_one : targetRatio < 1
  /-- The cash target ratio is higher than the hard ratio. -/
  hard_lt_target : hardRatio < targetRatio

instance : DecidableEq CashBudget := fun _ _ => decidable_of_iff' _ CashBudget.ext_iff

/-- The drawdowns at which the risk level escalates. -/
@[ext]
structure DrawdownBudget where
  cautionRatio : ℚ
  defensiveRatio : ℚ
  preservationRatio : ℚ
  cautionRatio_pos : 0 < cautionRatio
  preservationRatio_lt_one : preservationRatio < 1
  /-- Drawdown ratios are strictly increasing. -/
  caution_lt_defensive : cautionRatio < defensiveRatio
  defensive_lt_preservation : defensiveRatio < preservationRatio

instance : DecidableEq DrawdownBudget := fun _ _ => decidable_of_iff' _ DrawdownBudget.ext_iff

/-- Explicit conservative gross-stress inputs, never an engine default. -/
structure StressCalculationPolicy where
  versionId : String
  shockRatio : ℚ
  disposalFrictionRatio : ℚ
  registeredAt : Instant
  shockRatio_mem : 0 < shockRatio ∧ shockRatio < 1
  disposalFrictionRatio_mem : 0 ≤ disposalFrictionRatio ∧ disposalFrictionRatio < 1
  deriving DecidableEq

/-- The boundaries of the downside, in order. -/
structure DownsideGrid where
  values : List ℚ
  values_ne_nil : values ≠ [] := by decide
  /-- Values are ordered and unique. -/
  values_sorted : values.Pairwise (· < ·)
  /-- Values are ratios between zero and one. -/
  values_mem : ∀ value ∈ values, 0 < value ∧ value < 1
  deriving DecidableEq

/-- The widest boundary. -/
def DownsideGrid.last (g : DownsideGrid) : ℚ := g.values.getLast g.values_ne_nil

/-- An action that stays allowed when new exposure is not. -/
inductive ProtectionDirection where
  | reduce
  | exit
  deriving DecidableEq

/-- The explicit risk configuration bound to exactly six calendar months. -/
structure PersonalRiskBudget where
  versionId : String
  actionPolicyVersionId : String
  effectiveAt : Instant
  /-- The UTC offset that the effective instant is written in. -/
  effectiveOffset : ℤ := 0
  expiresAt : Instant
  concentration : TwoThresholdBudget
  stress : TwoThresholdBudget
  cash : CashBudget
  drawdown : DrawdownBudget
  downsideGrid : DownsideGrid
  /-- The directions of the protection floor. -/
  retainedDirections : List ProtectionDirection
  stressCalculation : Option StressCalculationPolicy := none
  expiresAt_eq : expiresAt = addCalendarMonths effectiveOffset effectiveAt 6
  /-- A stress policy predates activation. -/
  registered_le : ∀ policy ∈ stressCalculation, policy.registeredAt ≤ effectiveAt := by nofun
  /-- A stress policy uses the highest grid value. -/
  shockRatio_eq : ∀ policy ∈ stressCalculation, policy.shockRatio = downsideGrid.last := by nofun
  deriving DecidableEq

/-- One whole account at the portfolio cutoff, never a virtual allocation slice. -/
structure CompleteAccountSnapshot where
  accountId : String
  accountType : String
  currency : String
  deriving DecidableEq

/-- The common-cutoff universe from which full accounts can be selected. -/
structure PortfolioSnapshot where
  snapshotId : String
  cutoffAt : Instant
  accounts : List CompleteAccountSnapshot
  selectedAccountIds : List String
  accountIds_nodup : (accounts.map (·.accountId)).Nodup := by decide
  selectedAccountIds_nodup : selectedAccountIds.Nodup := by decide
  /-- A selection uses captured full accounts. -/
  selected_subset : ∀ id ∈ selectedAccountIds, id ∈ accounts.map (·.accountId) := by decide
  deriving DecidableEq

/-- The complete candidate-account universe. -/
def PortfolioSnapshot.accountIds (s : PortfolioSnapshot) : List String :=
  s.accounts.map (·.accountId)

/-- A forward-recorded cash requirement that the selected portfolio must preserve. -/
@[ext]
structure DatedCashObligation where
  obligationId : String
  amount : ℚ
  purpose : String
  latestUsableAt : Instant
  targetAccountId : String
  amount_pos : 0 < amount

instance : DecidableEq DatedCashObligation := fun _ _ =>
  decidable_of_iff' _ DatedCashObligation.ext_iff

/-- The complete selection and policy snapshot shown before a confirmation. -/
structure PortfolioProposal where
  portfolioId : String
  snapshot : PortfolioSnapshot
  activationSnapshot : Option PortfolioSnapshot := none
  riskBudget : PersonalRiskBudget
  cashObligations : List DatedCashObligation := []
  /-- The budget takes effect at the activation snapshot. -/
  effectiveAt_eq : riskBudget.effectiveAt = (activationSnapshot.getD snapshot).cutoffAt
  /-- An activation follows the selected snapshot. -/
  cutoff_lt_activation : ∀ a ∈ activationSnapshot, snapshot.cutoffAt < a.cutoffAt := by nofun
  /-- An activation has an identity of its own. -/
  activation_ne : ∀ a ∈ activationSnapshot, a.snapshotId ≠ snapshot.snapshotId := by nofun
  /-- An activation retains the account scope and selection. -/
  activation_scope : ∀ a ∈ activationSnapshot, a.accountIds = snapshot.accountIds ∧
    a.selectedAccountIds = snapshot.selectedAccountIds := by nofun
  obligationIds_nodup : (cashObligations.map (·.obligationId)).Nodup := by decide
  /-- An obligation targets a selected account. -/
  target_mem : ∀ o ∈ cashObligations, o.targetAccountId ∈ snapshot.selectedAccountIds := by decide
  deriving DecidableEq

/-- The account snapshots are within an information set. -/
def PortfolioProposal.evidenceAvailableBy (p : PortfolioProposal) (cutoff : Instant) : Bool :=
  p.snapshot.cutoffAt ≤ cutoff && p.activationSnapshot.all (·.cutoffAt ≤ cutoff)

/-- Proof required before a successor can relax a frozen risk budget. -/
structure RiskBudgetRelaxationEvidence where
  predecessorAuthorizationId : String
  predecessorRiskBudgetVersionId : String
  normalFromAt : Instant
  normalThroughAt : Instant
  /-- The one calendar version of the normal sessions. -/
  marketCalendarVersionId : String
  monthlySelectionCutoffAt : Instant
  availableAt : Instant
  /-- The evidence preserves its normal-state window. -/
  window_ordered : normalFromAt ≤ normalThroughAt ∧ normalThroughAt ≤ availableAt ∧
    availableAt ≤ monthlySelectionCutoffAt
  deriving DecidableEq

/-- Historical and locked-forward proof for a changed downside grid. -/
structure DownsideGridRequalificationEvidence where
  evidenceId : String
  predecessorAuthorizationId : String
  predecessorRiskBudgetVersionId : String
  actionPolicyVersionId : String
  historicalOutOfSampleEvidenceId : String
  historicalCompletedAt : Instant
  lockedForwardConfirmationId : String
  lockedForwardConfirmedAt : Instant
  availableAt : Instant
  /-- The proof preserves historical and locked-forward order. -/
  proof_ordered : historicalCompletedAt ≤ lockedForwardConfirmedAt ∧
    lockedForwardConfirmedAt ≤ availableAt
  /-- The identities of the evidence are distinct. -/
  identities_nodup :
    [evidenceId, historicalOutOfSampleEvidenceId, lockedForwardConfirmationId].Nodup
  deriving DecidableEq

/-- What a user confirmed, with the evidence that a successor needs. -/
structure PortfolioConfirmation where
  confirmationId : String
  confirmedAt : Instant
  relaxationEvidence : Option RiskBudgetRelaxationEvidence := none
  downsideGridRequalification : Option DownsideGridRequalificationEvidence := none
  deriving DecidableEq

/-- The append-only risk-budget authorization retained by a formal report. -/
structure PortfolioAuthorization where
  authorizationId : String
  proposal : PortfolioProposal
  confirmation : PortfolioConfirmation
  previousAuthorizationId : Option String := none
  deriving DecidableEq

/-- Everything an authorization rests on is within an information set. -/
def PortfolioAuthorization.evidenceAvailableBy (a : PortfolioAuthorization) (cutoff : Instant) :
    Bool :=
  a.proposal.evidenceAvailableBy cutoff && a.confirmation.confirmedAt ≤ cutoff &&
    a.confirmation.relaxationEvidence.all (·.availableAt ≤ cutoff) &&
    a.confirmation.downsideGridRequalification.all (·.availableAt ≤ cutoff)

/-- One use of an authorization, allowed or not. -/
structure PortfolioAuthorizationUsage where
  allowed : Bool
  authorizationSnapshot : PortfolioAuthorization
  unfinishedCashObligations : List DatedCashObligation
  checkedAt : Instant

/-- How an authorization command ended. -/
inductive AuthorizationDisposition where
  | previewed
  | approved
  | denied
  deriving DecidableEq

/-- The result appended for an authorization command. -/
structure PortfolioAuthorizationOutcome where
  disposition : AuthorizationDisposition
  reasons : List String
  authorization : Option PortfolioAuthorization := none
  usage : Option PortfolioAuthorizationUsage := none

/-- Two lists have the same members. -/
def sameMembers {α : Type*} [DecidableEq α] (xs ys : List α) : Bool :=
  xs.all (· ∈ ys) && ys.all (· ∈ xs)

theorem sameMembers_iff {α : Type*} [DecidableEq α] {xs ys : List α} :
    sameMembers xs ys = true ↔ ∀ a, a ∈ xs ↔ a ∈ ys := by
  simp only [sameMembers, Bool.and_eq_true, List.all_eq_true, decide_eq_true_eq]
  exact ⟨fun h a => ⟨h.1 a, h.2 a⟩, fun h => ⟨fun a => (h a).mp, fun a => (h a).mpr⟩⟩

namespace SampleProposals

def snapshot (snapshotId : String) (cutoffAt : Instant) : PortfolioSnapshot where
  snapshotId := snapshotId
  cutoffAt := cutoffAt
  accounts := [⟨"A", "SIMULATED_CASH", "CNY"⟩]
  selectedAccountIds := ["A"]

/-- A risk budget that escalates at five, ten and twenty percent. -/
def budget (versionId actionPolicyVersionId : String) (effectiveAt : Instant) :
    PersonalRiskBudget where
  versionId := versionId
  actionPolicyVersionId := actionPolicyVersionId
  effectiveAt := effectiveAt
  expiresAt := addCalendarMonths 0 effectiveAt 6
  concentration := ⟨1 / 5, 3 / 10, by decide +kernel, by decide +kernel, by decide +kernel⟩
  stress := ⟨1 / 5, 3 / 10, by decide +kernel, by decide +kernel, by decide +kernel⟩
  cash := ⟨1 / 5, 1 / 10, by decide +kernel, by decide +kernel, by decide +kernel⟩
  drawdown := ⟨1 / 20, 1 / 10, 1 / 5, by decide +kernel, by decide +kernel, by decide +kernel,
    by decide +kernel⟩
  downsideGrid := ⟨[1 / 5], by decide, by decide +kernel, by decide +kernel⟩
  retainedDirections := [.reduce, .exit]
  expiresAt_eq := rfl

end SampleProposals

end StockProfiler.Portfolio
