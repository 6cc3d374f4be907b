import StockProfiler.Portfolio.DrawdownSessions
import StockProfiler.Portfolio.SettledCoverage
import StockProfiler.PositionManagement.ExecutionWaterfall

/-!
# Unpaid obligations

The waterfall subtracts the receipts of a liquidity assessment again, by separate code.
It recomputes the dated cash gap from the obligations that the assessment left outstanding.
-/

namespace StockProfiler.PositionManagement

open Portfolio

/-- The context in which cash is assessed and plans are projected. -/
def cashContext : DecimalContext := .ofPrecision 38 .halfEven DecimalContext.thirtyEight_pos

section Unpaid

variable {item : DatedCashObligation} {unit : ℤ} {receipts : List SettledObligationCoverage}
  (handoff : RiskResults) (hperm : handoff.liquidity.settledCoverage.Perm receipts.eraseDups)
  (hreceipts : ∀ r ∈ receipts, OnGrid 38 unit r.amount)
include hperm hreceipts

/-- The receipts of an assessment add up to what the distinct receipts paid. -/
theorem paidAmount_eq (hitem : OnGrid 38 unit item.amount)
    (hle : settledAmount receipts item.obligationId ≤ item.amount) :
    handoff.paidAmount cashContext item.obligationId =
        settledAmount receipts item.obligationId ∧
      OnGrid 38 unit (settledAmount receipts item.obligationId) := by
  have hsum : ((handoff.liquidity.settledCoverage.filter
      (·.obligationId = item.obligationId)).map (·.amount)).sum =
        settledAmount receipts item.obligationId := sumWhere_perm hperm
  have hvalues : ∀ x ∈ (handoff.liquidity.settledCoverage.filter
      (·.obligationId = item.obligationId)).map (·.amount), OnGrid 38 unit x ∧ 0 ≤ x := by
    intro x hx
    obtain ⟨r, hr, rfl⟩ := List.mem_map.mp hx
    have hmem := List.mem_eraseDups.mp (hperm.mem_iff.mp (List.mem_filter.mp hr).1)
    exact ⟨hreceipts r hmem, r.amount_pos.le⟩
  have habs : (((handoff.liquidity.settledCoverage.filter
      (·.obligationId = item.obligationId)).map (·.amount)).map (|·|)).sum ≤ item.amount := by
    rw [map_abs_of_nonneg fun x hx => (hvalues x hx).2]
    exact hsum.trans_le hle
  exact ⟨(sum_onGrid hitem (fun x hx => (hvalues x hx).1) habs).trans hsum,
    hsum ▸ (hitem.sum (fun x hx => (hvalues x hx).1) habs).1⟩

/-- What is unpaid of an obligation is what the distinct receipts leave of it. -/
theorem unpaidObligation_eq (hitem : OnGrid 38 unit item.amount)
    (hle : settledAmount receipts item.obligationId ≤ item.amount) :
    handoff.unpaidObligation cashContext item = unsettled receipts item := by
  obtain ⟨hpaid, hgrid⟩ := paidAmount_eq handoff hperm hreceipts hitem hle
  have hsettled : 0 ≤ settledAmount receipts item.obligationId :=
    sumWhere_nonneg fun r _ => r.amount_pos.le
  have hsub : cashContext.sub item.amount (settledAmount receipts item.obligationId) =
      item.amount - settledAmount receipts item.obligationId :=
    sub_onGrid hitem hgrid item.amount_pos.le hsettled
  simp only [RiskResults.unpaidObligation, hpaid, hsub, unsettled]

end Unpaid

/-- An assessment that is no evidence failure rests on accepted coverage, which it keeps. -/
theorem coverage_of_available {ctx : DecimalContext} {steps : ℕ} {history : List LiquidityOutcome}
    {input : LiquidityInput} {outcome : LiquidityOutcome}
    (h : assessLiquidity ctx steps history input = some outcome)
    (hdisposition : outcome.disposition ≠ .evidenceFailed) :
    outcome.protectionAuthorization = some input.authorization ∧
      ∃ usage outstanding, input.authorization.usage = some usage ∧
        outstandingObligations ctx usage.unfinishedCashObligations input.command history =
          some (outstanding, outcome.settledCoverage) := by
  cases liquidityCase_of_assess h with
  | scopeIncomplete => exact absurd rfl hdisposition
  | failed coverage reasons => exact absurd rfl hdisposition
  | assessed on =>
    obtain ⟨usage, husage, houtstanding⟩ := on.outstanding_eq
    exact ⟨rfl, usage, on.outstanding, husage, houtstanding⟩

/-- Settled coverage is counted exactly once. Where all amounts are whole multiples of one
decimal unit with at most thirty-eight digits, accepted coverage leaves of every obligation its
amount without the distinct receipts ever recorded for it, and the waterfall starts from exactly
these obligations. In every run each identity denotes one receipt. -/
theorem settledCoverage_counted_once :
    (∀ (unit : ℤ) (obligations : List DatedCashObligation) (command : LiquidityCommand)
      (history : List LiquidityOutcome) (outstanding : List DatedCashObligation)
      (coverage : List SettledObligationCoverage),
      AmountsFit 38 unit obligations (recordedReceipts command history) →
      outstandingObligations cashContext obligations command history =
        some (outstanding, coverage) →
      SettledOnce obligations (recordedReceipts command history) outstanding coverage) ∧
    (∀ (steps : ℕ) (inputs : List LiquidityInput), ReceiptsImmutable
      ((outcomes (liquidityRun cashContext steps inputs)).flatMap (·.settledCoverage))) ∧
    ∀ (unit : ℤ) (steps : ℕ) (history : List LiquidityOutcome) (input : LiquidityInput)
      (handoff : RiskResults),
      assessLiquidity cashContext steps history input = some handoff.liquidity →
      handoff.liquidity.disposition ≠ .evidenceFailed →
      (∀ usage, input.authorization.usage = some usage → AmountsFit 38 unit
        usage.unfinishedCashObligations (recordedReceipts input.command history)) →
      ∃ usage outstanding, input.authorization.usage = some usage ∧
        outstandingObligations cashContext usage.unfinishedCashObligations input.command history =
          some (outstanding, handoff.liquidity.settledCoverage) ∧
        handoff.unpaidObligations cashContext = some outstanding := by
  refine ⟨fun unit obligations command history outstanding coverage hfit haccepted =>
    settledOnce_of_outstandingObligations hfit haccepted,
    receiptsImmutable_liquidityRun cashContext,
    fun unit steps history input handoff hassess hdisposition hfit => ?_⟩
  obtain ⟨hauthorization, usage, outstanding, husage, haccepted⟩ :=
    coverage_of_available hassess hdisposition
  refine ⟨usage, outstanding, husage, haccepted, ?_⟩
  have hfit := hfit usage husage
  have hsettled := settledOnce_of_outstandingObligations hfit haccepted
  unfold RiskResults.unpaidObligations
  rw [hauthorization, hsettled.outstanding_eq]
  simp only [Option.bind_eq_bind, Option.bind_some, husage, Option.pure_def, Option.some.injEq]
  exact List.filterMap_congr fun item hitem =>
    unpaidObligation_eq handoff hsettled.coverage_perm hfit.receipts
      (hfit.obligations item hitem) (hsettled.settled_le item hitem)

namespace SampleCoverage

open SampleRemediation

def receipt : SettledObligationCoverage where
  receiptId := "R"
  obligationId := "O"
  amount := 1 / 2
  evidence := SampleBroker.evidence 10
  amount_pos := by decide +kernel

def command : LiquidityCommand :=
  { (assessmentAt "L1" (by decide) 10 50 []).command with settledCoverage := [receipt] }

def obligation (amount : ℚ) (hamount : 0 < amount) : DatedCashObligation where
  obligationId := "O"
  amount := amount
  purpose := "rent"
  latestUsableAt := 20
  targetAccountId := "A"
  amount_pos := hamount

def small : List DatedCashObligation := [obligation 3 (by decide +kernel)]

def large : List DatedCashObligation := [obligation (10 ^ 38 + 1) (by decide +kernel)]

def leaves (obligations : List DatedCashObligation) : Option (List ℚ × List String) :=
  (outstandingObligations cashContext obligations command []).map fun accepted =>
    (accepted.1.map (·.amount), accepted.2.map (·.receiptId))

theorem leaves_spec : leaves small = some ([5 / 2], ["R"]) ∧
    leaves large = some ([10 ^ 38], ["R"]) ∧
    (large.filterMap (unsettled (recordedReceipts command []))).map (·.amount) ≠ [10 ^ 38] := by
  decide +kernel

theorem amountsFit_small : AmountsFit 38 (-1) small (recordedReceipts command []) where
  ids_nodup := List.nodup_singleton _
  obligations item hitem := by
    obtain rfl := List.mem_singleton.mp hitem
    exact ⟨30, by norm_num [obligation], by norm_num⟩
  receipts r hr := by
    obtain rfl := List.mem_singleton.mp hr
    exact ⟨5, by norm_num [receipt], by norm_num⟩

def input : LiquidityInput :=
  { assessmentAt "L1" (by decide) 10 50 [] with
    command := command
    authorization :=
      { authorization with
        usage := authorization.usage.map fun usage =>
          { usage with unfinishedCashObligations := small } } }

def drawdown : DrawdownState :=
  (adjudicate SampleEpochs.decimals [] (SampleEpochs.onPosition .open "K1" "E1" none "1"
    (SampleEpochs.hourOf 20 12) (SampleEpochs.hourOf 20 12) 100)).state.get (by decide +kernel)

def stress : PortfolioStressOutcome where
  portfolioId := "P"
  authorizationId := "K"
  snapshotId := "sample"
  cutoffAt := 10
  accountIds := ["A"]
  riskBudgetVersionId := none
  calculationPolicy := none
  budget := none
  state := .normal
  reasons := []
  newExposureBlocked := false

def handoff (liquidity : LiquidityOutcome) : RiskResults where
  snapshot := (position 10 50 []).snapshot
  stress := stress
  liquidity := liquidity
  drawdown := drawdown
  liquidityCommand := command

theorem liquidity_spec : (assessLiquidity cashContext 8 [] input).any
    (·.disposition = .remediationRequired) = true := by
  decide +kernel

end SampleCoverage

open SampleCoverage in
/-- Half a unit is settled of an obligation of three, and the waterfall takes up the rest. -/
theorem sample_coverage :
    (∃ outstanding coverage,
      outstandingObligations cashContext small command [] = some (outstanding, coverage) ∧
        SettledOnce small (recordedReceipts command []) outstanding coverage) ∧
    ∃ liquidity usage outstanding,
      assessLiquidity cashContext 8 [] input = some liquidity ∧
        input.authorization.usage = some usage ∧
        outstandingObligations cashContext usage.unfinishedCashObligations command [] =
          some (outstanding, liquidity.settledCoverage) ∧
        (handoff liquidity).unpaidObligations cashContext = some outstanding := by
  constructor
  · obtain ⟨⟨outstanding, coverage⟩, haccepted, -⟩ := Option.map_eq_some_iff.mp leaves_spec.1
    exact ⟨outstanding, coverage, haccepted,
      settledCoverage_counted_once.1 (-1) small command [] outstanding coverage amountsFit_small
        haccepted⟩
  · obtain ⟨liquidity, hassess, hdisposition⟩ := (Option.any_eq_true ..).mp liquidity_spec
    have havailable : liquidity.disposition ≠ .evidenceFailed := by
      rw [of_decide_eq_true hdisposition]
      decide
    obtain ⟨usage, outstanding, husage, haccepted, hunpaid⟩ :=
      settledCoverage_counted_once.2.2 (-1) 8 [] input (handoff liquidity) hassess havailable
        fun usage husage => by
          cases husage
          exact amountsFit_small
    exact ⟨liquidity, usage, outstanding, hassess, husage, haccepted, hunpaid⟩

open SampleCoverage in
/-- Of an amount of thirty-nine digits more is taken than the receipt is for. -/
theorem coverage_rounds_large_amount : ∃ outstanding coverage,
    outstandingObligations cashContext large command [] = some (outstanding, coverage) ∧
      ¬SettledOnce large (recordedReceipts command []) outstanding coverage := by
  obtain ⟨⟨outstanding, coverage⟩, haccepted, hleaves⟩ :=
    Option.map_eq_some_iff.mp leaves_spec.2.1
  refine ⟨outstanding, coverage, haccepted, fun hsettled => leaves_spec.2.2 ?_⟩
  rw [← hsettled.outstanding_eq]
  exact (Prod.mk.inj hleaves).1

end StockProfiler.PositionManagement
