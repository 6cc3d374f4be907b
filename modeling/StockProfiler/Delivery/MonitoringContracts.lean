import StockProfiler.PositionManagement.ActionContracts

/-!
# Monitoring contracts

Versioned monitoring projections over committed host decisions. A monitoring case keeps the
targets that a saved decision requires and the obligations that they come from.
-/

namespace StockProfiler.Delivery

open PositionManagement

/-- What a monitoring run is for. -/
inductive MonitoringKind where
  | dailyClose
  | eventReassess
  | notificationRun
  | lifecycle
  | operations
  deriving DecidableEq

/-- The next window of a calendar. -/
structure MonitoringCalendar where
  versionId : String
  nextWindowStart : Option Instant
  nextWindowEnd : Option Instant

/-- One request to monitor a portfolio, as far as a projection reads it. -/
structure MonitoringCommand where
  contractVersion : String
  portfolioId : String
  cutoffAt : Instant
  kind : MonitoringKind
  sourceEventId : String
  calendar : Option MonitoringCalendar := none

/-- Whether the quantities of a case are known. -/
inductive QuantityStatus where
  | verified
  | unknown
  deriving DecidableEq

/-- One case that is monitored. -/
structure MonitoringCase where
  caseId : String
  sourceEventId : String
  sourceEventIds : List String := []
  obligationIds : List String
  priority : TargetPriority
  plan : Option ExecutionPlanOutcome
  requiredTargets : List ExecutionTarget := []
  quantityStatus : QuantityStatus := .verified
  firstEstablishedAt : String
  lastReviewedAt : String
  conclusionReportId : Option String := none
  direction : Option TargetDirection := none
  targetQuantity : Option ℚ := none
  lifecycleId : Option String := none
  qualificationId : Option String := none
  windowStart : Option Instant := none
  windowEnd : Option Instant := none
  deriving DecidableEq

/-- A family of evidence that monitoring depends on. -/
inductive EvidenceFamily where
  | marketSecurity
  | companyEvents
  | brokerAccount
  | costRules
  | qualificationVersion

/-- Whether the evidence of a family may be used. -/
inductive EvidenceFamilyStatus where
  | validated
  | unknown
  | blocked

/-- The evidence of a family and what is wrong with it. -/
structure MonitoringEvidenceStatus where
  family : EvidenceFamily
  status : EvidenceFamilyStatus
  evidence : Option PositionEvidence
  reasons : List String := []

/-- Whether the market can be traded. -/
inductive MarketStatus where
  | closed
  | waitingWindow
  | opened

/-- How old the evidence of an outcome is. -/
structure MonitoringFreshness where
  evidenceCutoff : Instant
  assessedAt : String
  marketStatus : MarketStatus
  nextWindowStart : Option Instant
  nextWindowEnd : Option Instant
  accountEvidence : List PositionEvidence
  eventEvidence : List PositionEvidence
  calendarEvidence : PositionEvidence
  evidenceFamilies : List MonitoringEvidenceStatus := []

/-- How a monitoring run ended. -/
inductive MonitoringDisposition where
  | assessed
  | blocked

/-- The result appended for one monitoring run, as far as a projection writes it. -/
structure MonitoringOutcome where
  portfolioId : String
  kind : MonitoringKind
  disposition : MonitoringDisposition
  reasons : List String
  cases : List MonitoringCase := []
  actionUnits : List PositionActionUnit := []
  freshness : Option MonitoringFreshness := none
  sourceReportIds : List String := []
  positionAction : Option PositionActionOutcome := none
  conclusionReportId : Option String := none

end StockProfiler.Delivery
