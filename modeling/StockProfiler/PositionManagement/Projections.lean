import StockProfiler.PositionManagement.Soundness

/-!
# Projections fail closed

Whatever the verdict, a projected number is present only when nothing that was
reported casts doubt on it. The proofs go from an absent reason to the absence
of every report that would have filed one, and from a missing fact to the
report it must have left.
-/

namespace StockProfiler.PositionManagement

/-- A scope covers an account and a security when each of its parts is absent or the same. -/
def PositionAffectedScope.covers (scope : PositionAffectedScope) (accountId securityId : String) :
    Prop :=
  (scope.accountId = none ∨ scope.accountId = some accountId) ∧
    (scope.securityId = none ∨ scope.securityId = some securityId)

theorem mem_scopedReasons {reasons : ScopedReasons} {accountId securityId code : String}
    {scope : Scope} (hcode : code ∈ reasons.under scope)
    (haccount : scope.1 = none ∨ scope.1 = some accountId)
    (hsecurity : scope.2 = none ∨ scope.2 = some securityId) :
    code ∈ scopedReasons reasons accountId securityId := by
  obtain ⟨a, s⟩ := scope
  simp only [scopedReasons, List.mem_eraseDups, List.mem_append]
  rcases haccount with rfl | rfl <;> rcases hsecurity with rfl | rfl
  · exact .inl (.inl (.inl hcode))
  · exact .inl (.inl (.inr hcode))
  · exact .inl (.inr hcode)
  · exact .inr hcode

section Snapshot

variable {report : ConflictReport} {row : PositionRow} (ctx : DecimalContext)
  (command : PositionSnapshotCommand) (priorLedger : List AuthoritativeLedgerEntry)
  (priorCashStates : List AccountCashState)

/-- What supports the action quantity of one position. -/
structure ActionSupported (row : PositionRow) (quantity : ℚ) : Prop where
  sellable_eq : row.2.brokerSellableQuantity = some quantity
  semantics_eq : row.2.sellableQuantitySemantics = .brokerFinalSellable
  /-- No active restriction on sound evidence concerns the account or the security. -/
  unrestricted : ∀ restriction ∈ row.1.executionRestrictions, restriction.active →
    restriction.evidence.problemCodes command.cutoffAt true = [] →
      ¬(restriction.securityId = none ∨ restriction.securityId = some row.2.securityId)
  /-- No blocking report that the portfolio depends on was made for any scope. -/
  portfolio_sound : ∀ report ∈ reconciliationReports ctx command priorLedger priorCashStates,
    ¬(report.blocksExactStatisticalQuantity ∧ report.portfolioDependency)
  /-- No returned blocking conflict covers the position. -/
  unconflicted : ∀ conflict ∈
      (reconcile ctx command priorLedger priorCashStates).conflicts,
    conflict.blocksExactStatisticalQuantity →
      ¬conflict.affectedScope.covers row.1.accountId row.2.securityId

/-- What supports the exposure of one issuer. -/
structure ExposureSupported (issuerId : String) (exposure : ℚ) : Prop where
  /-- Every row of the issuer has a quantity and a price. -/
  complete : ∀ row ∈ positionRows command.accounts, row.2.issuerId = issuerId →
    row.2.totalQuantity.isSome ∧ row.2.marketPrice.isSome
  /-- The exposure adds up every row of the issuer in every account. -/
  exposure_eq : exposure = ctx.sum
    (((positionRows command.accounts).filter (·.2.issuerId = issuerId)).map fun row =>
      ctx.mul (row.2.totalQuantity.getD 0) (row.2.marketPrice.getD 0))
  /-- No row assigns a security of the issuer to another issuer. -/
  identity : ∀ row ∈ positionRows command.accounts, row.2.issuerId = issuerId →
    ∀ other ∈ positionRows command.accounts, other.2.securityId = row.2.securityId →
      other.2.issuerId = issuerId

/-- What supports the total equity. -/
structure EquitySupported (total : ℚ) : Prop where
  complete : ∀ account ∈ command.accounts, account.accountEquity.isSome
  total_eq : total = ctx.sum (command.accounts.map (·.accountEquity.getD 0))

/-- Every number an outcome projects is supported. -/
structure FailClosed (outcome : PositionReconciliationOutcome) : Prop where
  action : ∀ unit ∈ outcome.snapshot.actionUnits, ∀ quantity,
    unit.exactStatisticalActionQuantity = some quantity →
      ∃ row ∈ positionRows command.accounts,
        unit.accountId = row.1.accountId ∧ unit.securityId = row.2.securityId ∧
        ActionSupported ctx command priorLedger priorCashStates row quantity
  exposure : ∀ issuer ∈ outcome.snapshot.issuerExposures, ∀ exposure,
    issuer.currentMarketExposure = some exposure →
      ExposureSupported ctx command issuer.issuerId exposure
  equity : ∀ total, outcome.snapshot.totalAccountEquity = some total →
    EquitySupported ctx command total

variable {ctx command priorLedger priorCashStates}

/-- An available action quantity is supported by its row. -/
theorem actionSupported_of_exact {quantity : ℚ}
    (h : exactActionQuantity (reconciliationRecorder ctx command priorLedger priorCashStates)
      command.cutoffAt row = some quantity) :
    ActionSupported ctx command priorLedger priorCashStates row quantity := by
  rw [exactActionQuantity] at h
  split at h
  case isFalse => cases h
  rename_i hready
  obtain ⟨hsemantics, hreasons⟩ := hready
  have hnone : ∀ reason, reason ∉ actionReasons
      (reconciliationRecorder ctx command priorLedger priorCashStates) command.cutoffAt row :=
    List.eq_nil_iff_forall_not_mem.mp hreasons
  simp only [actionReasons, List.mem_eraseDups, List.mem_append, not_or] at hnone
  refine ⟨h, hsemantics, ?_, ?_, ?_⟩
  · intro restriction hmem hactive hevidence hscope
    have happlies : restrictionApplies command.cutoffAt restriction := by
      rw [restrictionApplies, hactive, hevidence]
      rfl
    refine (hnone _).2 (List.mem_map.mpr ⟨restriction, ?_, rfl⟩)
    rw [List.mem_append]
    rcases hscope with hscope | hscope
    · exact .inl (List.mem_filter.mpr ⟨hmem, decide_eq_true ⟨happlies, hscope⟩⟩)
    · exact .inr (List.mem_filter.mpr ⟨hmem, decide_eq_true ⟨happlies, hscope⟩⟩)
  · intro report hreport hblocks
    exact (hnone report.code).1.1
      (Recorder.mem_portfolioBlocking_iff.mpr ⟨report, hreport, hblocks, rfl⟩)
  · intro conflict hconflict hblocks hcovers
    rw [reconcile_conflicts] at hconflict
    obtain ⟨report, hreport, rfl⟩ := Recorder.exists_report_of_mem_conflicts hconflict
    have hfiled := Recorder.mem_blocking_iff.mpr ⟨report, hreport, hblocks, rfl, rfl⟩
    exact (hnone report.code).1.2 (mem_scopedReasons hfiled hcovers.1 hcovers.2)

theorem mem_reconciliationReports_of_position (hrow : row ∈ positionRows command.accounts)
    (hreport : ∀ ledger orders, report ∈ positionProblemReports row.1.accountId row.2 ctx
      command.cutoffAt ledger orders) :
    report ∈ reconciliationReports ctx command priorLedger priorCashStates := by
  obtain ⟨account, haccount, hposition⟩ := List.mem_flatMap.mp hrow
  obtain ⟨position, hmem, rfl⟩ := List.mem_map.mp hposition
  simp only [reconciliationReports, List.mem_append]
  refine .inl (.inl (.inr (List.mem_flatMap.mpr ⟨account, haccount, ?_⟩)))
  simp only [accountReports, List.mem_append]
  exact .inl (.inl (.inr (List.mem_flatMap.mpr ⟨position, hmem, hreport _ _⟩)))

/-- The reports about quantity and price of a row that invalidate its valuation. -/
def valuationReports (row : PositionRow) : List ConflictReport :=
  quantityReports row.1.accountId row.2 .total true true ++
    marketPriceReports row.1.accountId row.2

/-- Each of them is filed under the account and the security of the row. -/
theorem valuationReports_scope (h : report ∈ valuationReports row) :
    report.blocksCurrentValuation ∧
      report.scope = (some row.1.accountId, some row.2.securityId) := by
  rcases List.mem_append.mp h with h | h
  · rw [quantityReports] at h
    split at h
    · rw [List.mem_singleton.mp h]
      exact ⟨rfl, rfl⟩
    · rw [(mem_reportIf.mp h).2]
      exact ⟨rfl, rfl⟩
  · rw [marketPriceReports] at h
    split at h
    · rw [List.mem_singleton.mp h]
      exact ⟨rfl, rfl⟩
    · rw [(mem_reportIf.mp h).2]
      exact ⟨rfl, rfl⟩

/-- A row without a valuation reason has a usable quantity and a usable price. -/
theorem row_of_valuation_sound (hrow : row ∈ positionRows command.accounts)
    (h : scopedReasons (reconciliationRecorder ctx command priorLedger priorCashStates).valuation
      row.1.accountId row.2.securityId = []) :
    (∃ total, row.2.totalQuantity = some total ∧ 0 ≤ total) ∧
      ∃ price, row.2.marketPrice = some price ∧ 0 < price := by
  have hsilent : valuationReports row = [] := by
    refine List.eq_nil_iff_forall_not_mem.mpr fun report hreport => ?_
    obtain ⟨hvaluation, hscope⟩ := valuationReports_scope hreport
    have hmem : report ∈ reconciliationReports ctx command priorLedger priorCashStates := by
      refine mem_reconciliationReports_of_position hrow fun ledger orders => ?_
      simp only [positionProblemReports, List.mem_append]
      rcases List.mem_append.mp hreport with hreport | hreport
      · exact .inl (.inl (.inl (.inl (.inl (.inl (.inr hreport))))))
      · exact .inl (.inl (.inr hreport))
    have hreason := mem_scopedReasons
      (Recorder.mem_valuation_iff.mpr ⟨report, hmem, hvaluation, hscope, rfl⟩) (.inr rfl) (.inr rfl)
    rw [reconciliationRecorder] at h
    rw [h] at hreason
    exact List.not_mem_nil hreason
  obtain ⟨hquantity, hprice⟩ := List.append_eq_nil_iff.mp hsilent
  exact ⟨quantity_of_silent hquantity, marketPrice_of_silent hprice⟩

theorem mem_conflictingSecurityIds {rows : List PositionRow} {other : PositionRow}
    (hrow : row ∈ rows) (hother : other ∈ rows) (hsecurity : other.2.securityId = row.2.securityId)
    (hissuer : other.2.issuerId ≠ row.2.issuerId) :
    row.2.securityId ∈ conflictingSecurityIds rows := by
  refine List.mem_filter.mpr ⟨mem_sortedSet.mpr (List.mem_map.mpr ⟨row, hrow, rfl⟩), ?_⟩
  rw [decide_eq_true_iff]
  have hmem : ∀ r ∈ rows, r.2.securityId = row.2.securityId → r.2.issuerId ∈
      ((rows.filter (·.2.securityId = row.2.securityId)).map (·.2.issuerId)).eraseDups :=
    fun r hr hs => List.mem_eraseDups.mpr
      (List.mem_map.mpr ⟨r, List.mem_filter.mpr ⟨hr, decide_eq_true hs⟩, rfl⟩)
  by_contra hlen
  have hone := hmem row hrow rfl
  have htwo := hmem other hother hsecurity
  match hl : ((rows.filter (·.2.securityId = row.2.securityId)).map (·.2.issuerId)).eraseDups with
  | [] => rw [hl] at hone; exact List.not_mem_nil hone
  | [issuer] =>
    rw [hl, List.mem_singleton] at hone htwo
    exact hissuer (htwo.trans hone.symm)
  | _ :: _ :: _ => rw [hl] at hlen; simp at hlen

/-- A present exposure means that no row of the issuer was in doubt. -/
theorem row_of_exposure {issuerId : String} (hvalid : issuerId ∉ invalidIssuers
      (reconciliationRecorder ctx command priorLedger priorCashStates)
      (positionRows command.accounts)
      (holdingsIncomplete ctx command (priorEntries priorLedger)
        (reconciliationRecorder ctx command priorLedger priorCashStates))
      (conflictingSecurityIds (positionRows command.accounts)))
    (hrow : row ∈ positionRows command.accounts) (hissuer : row.2.issuerId = issuerId) :
    row.2.securityId ∉ conflictingSecurityIds (positionRows command.accounts) ∧
      (∃ total, row.2.totalQuantity = some total ∧ 0 ≤ total) ∧
      ∃ price, row.2.marketPrice = some price ∧ 0 < price := by
  have hclean : ¬(holdingsIncomplete ctx command (priorEntries priorLedger)
        (reconciliationRecorder ctx command priorLedger priorCashStates) ∨
      row.2.securityId ∈ conflictingSecurityIds (positionRows command.accounts) ∨
      scopedReasons (reconciliationRecorder ctx command priorLedger priorCashStates).valuation
        row.1.accountId row.2.securityId ≠ []) := fun hdoubt =>
    hvalid (List.mem_map.mpr ⟨row, List.mem_filter.mpr ⟨hrow, decide_eq_true hdoubt⟩, hissuer⟩)
  rw [not_or, not_or, not_not] at hclean
  exact ⟨hclean.2.1, row_of_valuation_sound hrow hclean.2.2⟩

/-- A present exposure is supported by every row of its issuer. -/
theorem exposureSupported_of_projected {issuer : IssuerExposure} {exposure : ℚ}
    (hmem : issuer ∈ (reconcile ctx command priorLedger priorCashStates).snapshot.issuerExposures)
    (h : issuer.currentMarketExposure = some exposure) :
    ExposureSupported ctx command issuer.issuerId exposure := by
  simp only [reconcile_snapshot, projectSnapshot, projectExposures] at hmem
  obtain ⟨issuerId, -, rfl⟩ := List.mem_map.mp hmem
  simp only at h
  split at h
  · cases h
  · rename_i hvalid
    refine ⟨fun row hrow hissuer => ?_, ?_, fun row hrow hissuer other hother hsecurity => ?_⟩
    · obtain ⟨-, ⟨total, htotal, -⟩, price, hprice, -⟩ := row_of_exposure hvalid hrow hissuer
      rw [htotal, hprice]
      exact ⟨rfl, rfl⟩
    · rw [← Option.some.inj h, ← List.filterMap_eq_map]
      refine congrArg ctx.sum (List.filterMap_congr fun row hrow => ?_)
      obtain ⟨hrow, hissuer⟩ := List.mem_filter.mp hrow
      obtain ⟨-, ⟨total, htotal, -⟩, price, hprice, -⟩ :=
        row_of_exposure hvalid hrow (of_decide_eq_true hissuer)
      rw [rowMarketValue, htotal, hprice]
      simp [htotal, hprice]
    · by_contra hne
      exact (row_of_exposure hvalid hrow hissuer).1
        (mem_conflictingSecurityIds hrow hother hsecurity (hissuer ▸ hne))

theorem equitySupported_of_total {total : ℚ} (h : totalAccountEquity ctx command
      (reconciliationRecorder ctx command priorLedger priorCashStates) = some total) :
    EquitySupported ctx command total := by
  rw [totalAccountEquity] at h
  split at h
  · obtain ⟨hall, hsum⟩ := sumIfComplete_eq_some_iff.mp h
    refine ⟨fun account hmem => hall _ (List.mem_map.mpr ⟨account, hmem, rfl⟩), ?_⟩
    rw [← hsum, List.map_map]
    rfl
  · cases h

/-- Reconciled or conflicted, an outcome only projects supported numbers. -/
theorem reconcile_failClosed (ctx : DecimalContext) (command : PositionSnapshotCommand)
    (priorLedger : List AuthoritativeLedgerEntry) (priorCashStates : List AccountCashState) :
    FailClosed ctx command priorLedger priorCashStates
      (reconcile ctx command priorLedger priorCashStates) where
  action := by
    intro unit hunit quantity hquantity
    simp only [reconcile_snapshot, projectSnapshot] at hunit
    obtain ⟨row, hrow, rfl⟩ := List.mem_map.mp hunit
    exact ⟨row, hrow, rfl, rfl, actionSupported_of_exact hquantity⟩
  exposure _ hissuer _ hexposure := exposureSupported_of_projected hissuer hexposure
  equity total htotal := by
    simp only [reconcile_snapshot, projectSnapshot] at htotal
    exact equitySupported_of_total htotal

end Snapshot

end StockProfiler.PositionManagement
