import StockProfiler.Portfolio.Contracts

/-!
# Issuer concentration contracts

The saved results of deterministic issuer protection, with the quantities that an
obligation asks to keep at most.
-/

namespace StockProfiler.PositionManagement

open Portfolio

/-- The quantity of a security that an obligation allows. -/
structure ConcentrationTarget where
  securityId : String
  targetQuantity : ℚ
  requiredReductionQuantity : Option ℚ

/-- A holding that an obligation was based on. -/
structure ConcentrationQuantityBasis where
  accountId : String
  securityId : String
  quantity : ℚ
  cutoffAt : Instant

/-- How the exposure to an issuer compares with its budget. -/
inductive ConcentrationState where
  | normal
  | buffer
  | remediationRequired
  | resolved
  | unknown
  deriving DecidableEq

/-- The exposure to one issuer and the obligation to reduce it. -/
structure IssuerConcentration where
  issuerId : String
  currentMarketExposure : Option ℚ
  positionWeight : Option ℚ
  state : ConcentrationState
  newExposureBlocked : Bool
  /-- Whether the issuer has to be reduced; no other direction exists. -/
  reduces : Bool
  obligationId : Option String
  obligationStartedAt : Option Instant := none
  obligationRiskBudgetVersionId : Option String := none
  obligationThresholds : Option TwoThresholdBudget := none
  obligationQuantityBasis : List ConcentrationQuantityBasis := []
  targets : List ConcentrationTarget
  exposureGap : Option ℚ
  executionBlocked : Bool

/-- Whether the issuers were assessed. -/
inductive ConcentrationDisposition where
  | assessed
  | blocked
  deriving DecidableEq

/-- The result appended for one concentration assessment. -/
structure ConcentrationOutcome where
  disposition : ConcentrationDisposition
  reasons : List String
  portfolioId : String
  snapshotId : String
  cutoffAt : Instant
  valuationCurrency : String
  portfolioNetLiquidationEquity : Option ℚ
  riskBudgetVersionId : Option String
  thresholds : Option TwoThresholdBudget
  issuers : List IssuerConcentration

end StockProfiler.PositionManagement
