import StockProfiler.PositionManagement.Projections
import StockProfiler.Portfolio.FundingExact
import StockProfiler.Portfolio.StressLineage
import StockProfiler.PositionManagement.HistoryStability
import StockProfiler.Prospective.FormalAlpha
import StockProfiler.Qualification.Restorability
import StockProfiler.Qualification.FormalSequences
import StockProfiler.Qualification.OutstandingAlerts
import StockProfiler.DecisionCases.ReductionAnchors
import StockProfiler.Publication.ExactlyOnce
import StockProfiler.Qualification.CurrentRecords
import StockProfiler.Authentication.SignatureCounters
import StockProfiler.Delivery.ReminderChains
import StockProfiler.DecisionCases.AttributionRuns
import StockProfiler.CandidateSelection.LatePublication
import StockProfiler.Evaluation.ExitConservation
import StockProfiler.PositionManagement.JointRouting
import StockProfiler.Prospective.MaturityWatermarks
import StockProfiler.Evaluation.CumulativeEvidence
import StockProfiler.Prospective.StudentizedBounds
import StockProfiler.DecisionCases.ProjectionCoverage
import StockProfiler.Prospective.WindowMaximum
import StockProfiler.Portfolio.RiskRelaxation
import StockProfiler.Evaluation.SessionAgreement
import StockProfiler.Portfolio.UnknownEvidence
import StockProfiler.PositionManagement.UnpaidObligations
import StockProfiler.Portfolio.RetainedAcquisition
import StockProfiler.Portfolio.AllocationLeximin
import StockProfiler.Portfolio.FlowSplits
import StockProfiler.PositionManagement.LineageAgreement
import StockProfiler.Portfolio.SalesLineages
import StockProfiler.Evaluation.ExitPopulations
import StockProfiler.Publication.StageBackfill
import StockProfiler.CandidateSelection.ScreenedSelection
