import StockProfiler.Portfolio.CapitalFlowRuns

/-!
# Splitting a batch of flows

A batch of flows may be accounted for by one command or by two in a row. Units and
identities are the same either way; the closing value of the first command may raise
the peak, and is observed as a drawdown.
-/

namespace StockProfiler.Portfolio

open PositionManagement

/-- Two commands in a row that share the flows of a batch: the second one ends like the batch,
and values its flows once the first has ended. -/
structure FlowSplit (prior : DrawdownState) (batch first second : DrawdownInput)
    (between position : PositionReconciliationOutcome) : Prop where
  flows : batch.command.capitalFlows =
    first.command.capitalFlows ++ second.command.capitalFlows
  before_first : ∀ flow ∈ first.command.capitalFlows,
    first.beforePositions.get? flow.beforeValuation.positionEventId =
      batch.beforePositions.get? flow.beforeValuation.positionEventId
  before_second : ∀ flow ∈ second.command.capitalFlows,
    second.beforePositions.get? flow.beforeValuation.positionEventId =
      batch.beforePositions.get? flow.beforeValuation.positionEventId
  anchored : prior.accountingCutoffAt ≤ first.command.cutoffAt
  later : first.command.cutoffAt ≤ batch.command.cutoffAt
  cutoff : second.command.cutoffAt = batch.command.cutoffAt
  valued : ∀ flow ∈ second.command.capitalFlows, ∀ before,
    (batch.beforePositions.get? flow.beforeValuation.positionEventId).join = some before →
      first.command.cutoffAt ≤ before.snapshot.cutoffAt
  increasing : ∀ flow ∈ first.command.capitalFlows, ∀ next ∈ second.command.capitalFlows,
    flow.occurredAt < next.occurredAt
  currency : between.snapshot.valuationCurrency = position.snapshot.valuationCurrency
  amounts : ∀ flow ∈ first.command.capitalFlows, ∀ key ∈ flow.ledgerKeys,
    flowEntryAmount between flow key = flowEntryAmount position flow key
  kept_prior : prior.processedTransfers ⊆ transferKeys between
  kept : transferKeys between ⊆ transferKeys position

section Contexts

variable {batch first second : DrawdownInput} {prior middle : DrawdownState}
  {between position before : PositionReconciliationOutcome} {flow : CapitalFlow}
  {preEquity amount : ℚ}

theorem mapM_flowEntryAmount_congr {keys : List FlowLedgerKey}
    (h : ∀ key ∈ keys, flowEntryAmount between flow key = flowEntryAmount position flow key) :
    keys.mapM (flowEntryAmount between flow) = keys.mapM (flowEntryAmount position flow) := by
  induction keys with
  | nil => rfl
  | cons key keys ih =>
    rw [List.mapM_cons, List.mapM_cons, h key (List.mem_cons_self ..),
      ih fun other hother => h other (List.mem_cons_of_mem _ hother)]

theorem equityFor_congr {valuation : DrawdownValuation} {accountIds accountIds' : List String}
    {currency : String} {flowAt : Instant} (h : sameMembers accountIds accountIds' = true) :
    equityFor valuation before accountIds currency flowAt =
      equityFor valuation before accountIds' currency flowAt := by
  have hscope : ∀ ids : List String, sameMembers ids accountIds = sameMembers ids accountIds' := by
    intro ids
    refine Bool.eq_iff_iff.mpr ?_
    rw [sameMembers_iff, sameMembers_iff]
    exact forall_congr' fun a => iff_congr Iff.rfl (sameMembers_iff.mp h a)
  simp only [equityFor, hscope]

namespace FlowSplit

variable (h : FlowSplit prior batch first second between position)
include h

/-- A flow of the first command is valued in the batch as it is there. -/
theorem valued_first (hflow : flow ∈ first.command.capitalFlows)
    (hoccurred : flow.occurredAt ≤ first.command.cutoffAt) :
    FlowValued first prior between flow before preEquity amount ↔
      FlowValued batch prior position flow before preEquity amount := by
  have hmapM := mapM_flowEntryAmount_congr (h.amounts flow hflow)
  constructor
  · rintro ⟨hfound, hanchored, hvalued, -, hequity, hpositive, hmoved⟩
    exact ⟨h.before_first flow hflow ▸ hfound, hanchored, hvalued, hoccurred.trans h.later,
      h.currency ▸ hequity, hpositive, hmapM ▸ hmoved⟩
  · rintro ⟨hfound, hanchored, hvalued, -, hequity, hpositive, hmoved⟩
    exact ⟨(h.before_first flow hflow).symm ▸ hfound, hanchored, hvalued, hoccurred,
      h.currency.symm ▸ hequity, hpositive, hmapM.symm ▸ hmoved⟩

/-- A flow of the second command is valued in the batch as it is there. -/
theorem valued_second (hflow : flow ∈ second.command.capitalFlows)
    (hanchor : middle.accountingCutoffAt = first.command.cutoffAt)
    (haccounts : sameMembers prior.accountIds middle.accountIds = true) :
    FlowValued second middle position flow before preEquity amount ↔
      FlowValued batch prior position flow before preEquity amount := by
  have hequityFor : equityFor flow.beforeValuation before prior.accountIds
      position.snapshot.valuationCurrency flow.occurredAt =
        equityFor flow.beforeValuation before middle.accountIds
          position.snapshot.valuationCurrency flow.occurredAt := equityFor_congr haccounts
  constructor
  · rintro ⟨hfound, hanchored, hvalued, hcovered, hequity, hpositive, hmoved⟩
    rw [hanchor] at hanchored
    exact ⟨h.before_second flow hflow ▸ hfound, h.anchored.trans hanchored, hvalued,
      h.cutoff ▸ hcovered, hequityFor.trans hequity, hpositive, hmoved⟩
  · rintro ⟨hfound, hanchored, hvalued, hcovered, hequity, hpositive, hmoved⟩
    refine ⟨(h.before_second flow hflow).symm ▸ hfound, ?_, hvalued, h.cutoff.symm ▸ hcovered,
      hequityFor.symm.trans hequity, hpositive, hmoved⟩
    rw [hanchor]
    exact h.valued flow hflow before hfound

end FlowSplit

end Contexts

section Progress

variable {flow : CapitalFlow} {before : PositionReconciliationOutcome}
  {preEquity amount preNav units : ℚ}

/-- The progress after a flow that leaves some units. -/
def FlowProgress.after (progress : FlowProgress) (flow : CapitalFlow) (preNav units : ℚ) :
    FlowProgress where
  units := units
  peak := max progress.peak preNav
  intervalDrawdown := max progress.intervalDrawdown (1 - preNav / max progress.peak preNav)
  processed := progress.processed ++ flow.ledgerKeys
  precedingFlowAt := some flow.occurredAt

/-- A flow that goes on from a progress leaves the progress after it. -/
theorem FlowApplied.eq_after {progress progress' : FlowProgress}
    (h : FlowApplied flow before preEquity amount progress progress') :
    progress' = progress.after flow (preEquity / progress.units) progress'.units := by
  obtain ⟨units, peak, interval, processed, preceding⟩ := progress'
  obtain ⟨-, -, -, -, -, hpeak, hinterval, hprocessed, hpreceding⟩ := h
  dsimp only at hpeak hinterval hprocessed hpreceding
  rw [hinterval, hpeak, hprocessed, hpreceding]
  rfl

/-- The progress of a batch beside that of its second command, which starts at an instant from
a peak that the first command raised, and after the interval drawdown of the first flows. -/
structure FollowsSplit (splitAt : Instant) (firstPeak raised firstDrawdown : ℚ)
    (p q : FlowProgress) : Prop where
  units : q.units = p.units
  processed : ∀ key, key ∈ q.processed ↔ key ∈ p.processed
  preceding : ∀ valuedAt, splitAt ≤ valuedAt →
    (p.precedingFlowAt.all (· ≤ valuedAt) = true ↔ q.precedingFlowAt.all (· ≤ valuedAt) = true)
  peak : q.peak = max p.peak raised
  reached : firstPeak ≤ p.peak
  interval : p.intervalDrawdown ≤ max firstDrawdown q.intervalDrawdown
  interval_eq : raised = firstPeak →
    p.intervalDrawdown = max firstDrawdown q.intervalDrawdown

namespace FollowsSplit

variable {splitAt : Instant} {firstPeak raised firstDrawdown : ℚ} {p q : FlowProgress}
  (h : FollowsSplit splitAt firstPeak raised firstDrawdown p q)
include h

theorem after (flow : CapitalFlow) (hnav : 0 < preNav) (units : ℚ) :
    FollowsSplit splitAt firstPeak raised firstDrawdown (p.after flow preNav units)
      (q.after flow preNav units) := by
  have hpeak : max q.peak preNav = max (max p.peak preNav) raised := by
    rw [h.peak, max_right_comm]
  constructor
  case units => rfl
  case processed =>
    intro key
    simp only [FlowProgress.after, List.mem_append, h.processed key]
  case preceding => exact fun _ _ => Iff.rfl
  case peak => exact hpeak
  case reached => exact h.reached.trans (le_max_left _ _)
  case interval =>
    simp only [FlowProgress.after, hpeak, ← max_assoc]
    refine max_le_max h.interval ?_
    refine sub_le_sub_left ?_ 1
    exact div_le_div_of_nonneg_left hnav.le (hnav.trans_le (le_max_right _ _)) (le_max_left _ _)
  case interval_eq =>
    intro hraised
    have hsame : max (max p.peak preNav) raised = max p.peak preNav :=
      max_eq_left (hraised.trans_le (h.reached.trans (le_max_left _ _)))
    simp only [FlowProgress.after, hpeak, hsame, h.interval_eq hraised, max_assoc]

theorem applied_iff (hsplit : splitAt ≤ before.snapshot.cutoffAt) (units : ℚ) :
    FlowApplied flow before preEquity amount p (p.after flow (preEquity / p.units) units) ↔
      FlowApplied flow before preEquity amount q
        (q.after flow (preEquity / q.units) units) := by
  have hsequence : sameMembers (transferKeys before) p.processed =
      sameMembers (transferKeys before) q.processed := by
    refine Bool.eq_iff_iff.mpr ?_
    rw [sameMembers_iff, sameMembers_iff]
    exact forall_congr' fun key => iff_congr Iff.rfl (h.processed key).symm
  have hpreceding := h.preceding _ hsplit
  constructor
  · rintro ⟨hbefore, hmembers, hheld, hunits, hnonneg, -, -, -, -⟩
    exact ⟨hpreceding.mp hbefore, hsequence ▸ hmembers, h.units ▸ hheld, h.units ▸ hunits,
      hnonneg, rfl, rfl, rfl, rfl⟩
  · rintro ⟨hbefore, hmembers, hheld, hunits, hnonneg, -, -, -, -⟩
    rw [h.units] at hheld hunits
    exact ⟨hpreceding.mpr hbefore, hsequence.symm ▸ hmembers, hheld, hunits, hnonneg, rfl, rfl,
      rfl, rfl⟩

end FollowsSplit

end Progress

section Accounting

variable {input : DrawdownInput} {prior : DrawdownState}
  {position : PositionReconciliationOutcome} {flows : List CapitalFlow} {progress : FlowProgress}

/-- What the flows of a batch leave: their transfers processed, a peak and a drawdown that only
grow, and a clock within the cutoff. -/
structure FlowsLeave (input : DrawdownInput) (prior : DrawdownState) (flows : List CapitalFlow)
    (progress : FlowProgress) : Prop where
  processed : progress.processed = prior.processedTransfers ++ flows.flatMap (·.ledgerKeys)
  preceding : progress.precedingFlowAt.all (· ≤ input.command.cutoffAt) = true
  interval_nonneg : 0 ≤ progress.intervalDrawdown
  occurred : ∀ flow ∈ flows, flow.occurredAt ≤ input.command.cutoffAt

/-- Accounted flows are processed within the cutoff and only add to the drawdown. -/
theorem flowsLeave_of_accountFlows (h : accountFlows input prior position flows = .ok progress) :
    FlowsLeave input prior flows progress := by
  induction flows using List.reverseRecOn generalizing progress with
  | nil =>
    cases h
    exact ⟨(List.append_nil _).symm, rfl, le_rfl, fun flow hflow => nomatch hflow⟩
  | append_singleton flows flow ih =>
    rw [accountFlows, List.foldlM_append] at h
    obtain ⟨middle, hmiddle, h⟩ := bind_eq_ok.mp h
    rw [List.foldlM_cons] at h
    obtain ⟨next, hnext, h⟩ := bind_eq_ok.mp h
    cases h
    obtain ⟨before, preEquity, amount, hvalued, happlied⟩ := processFlow_eq_ok.mp hnext
    obtain ⟨hprocessed, -, hinterval, hoccurred⟩ := ih hmiddle
    constructor
    case processed =>
      rw [happlied.processed, hprocessed, List.flatMap_append, List.flatMap_singleton,
        List.append_assoc]
    case preceding =>
      rw [happlied.precedingFlowAt]
      exact decide_eq_true hvalued.covered
    case interval_nonneg =>
      rw [happlied.intervalDrawdown]
      exact hinterval.trans (le_max_left _ _)
    case occurred =>
      intro other hother
      rcases List.mem_append.mp hother with hother | hother
      · exact hoccurred other hother
      · obtain rfl := List.mem_singleton.mp hother
        exact hvalued.covered

end Accounting

section Split

variable {ctx : DecimalContext} {history : List DrawdownOutcome}
  {batch first second : DrawdownInput} {prior middle : DrawdownState} {basis : DrawdownBasis}
  {position between : PositionReconciliationOutcome} {accounting : UnitAccounting}

variable (h : FlowSplit prior batch first second between position)

include h in
/-- After the first command covers its transfers, the second covers the rest exactly when the
batch covers all. -/
theorem FlowSplit.covers_iff (hfirst : FlowsCover first prior between)
    (htransfers : middle.processedTransfers = transferKeys between)
    (hids : middle.processedFlowIds =
      prior.processedFlowIds ++ first.command.capitalFlows.map (·.flowId)) :
    FlowsCover batch prior position ↔ FlowsCover second middle position := by
  have hknown : ∀ key, key ∈ transferKeys between ↔ key ∈ prior.processedTransfers ∨
      key ∈ first.command.capitalFlows.flatMap (·.ledgerKeys) := by
    intro key
    rw [hfirst.covered key]
    by_cases hprior : key ∈ prior.processedTransfers
    · exact iff_of_true (h.kept_prior hprior) (.inl hprior)
    · exact ⟨fun hkey => .inr ⟨hkey, hprior⟩, fun hkey => (hkey.resolve_left hprior).1⟩
  have hkeys : batch.command.capitalFlows.flatMap (·.ledgerKeys) =
      first.command.capitalFlows.flatMap (·.ledgerKeys) ++
        second.command.capitalFlows.flatMap (·.ledgerKeys) := by
    rw [h.flows, List.flatMap_append]
  have hnames : batch.command.capitalFlows.map (·.flowId) =
      first.command.capitalFlows.map (·.flowId) ++
        second.command.capitalFlows.map (·.flowId) := by
    rw [h.flows, List.map_append]
  constructor
  · rintro ⟨honce, hcovered, hnodup, hfresh, hordered⟩
    rw [hkeys] at honce hcovered
    rw [hnames] at hnodup hfresh
    rw [h.flows] at hordered
    obtain ⟨-, honce, hdisjoint⟩ := List.nodup_append'.mp honce
    obtain ⟨-, hnodup, hapart⟩ := List.nodup_append'.mp hnodup
    refine ⟨honce, fun key => ?_, hnodup, fun id hid => ?_, (List.pairwise_append.mp hordered).2.1⟩
    · rw [htransfers, hknown, not_or]
      constructor
      · intro hkey
        obtain ⟨hposition, hprior⟩ := (hcovered key).mp (List.mem_append_right _ hkey)
        exact ⟨hposition, hprior, fun hfirstKey => hdisjoint hfirstKey hkey⟩
      · rintro ⟨hposition, hprior, hrest⟩
        exact (List.mem_append.mp ((hcovered key).mpr ⟨hposition, hprior⟩)).resolve_left hrest
    · rw [hids, List.mem_append, not_or]
      exact ⟨hfresh id (List.mem_append_right _ hid), fun hfirstId => hapart hfirstId hid⟩
  · rintro ⟨honce, hcovered, hnodup, hfresh, hordered⟩
    rw [htransfers] at hcovered
    rw [hids] at hfresh
    constructor
    case once =>
      rw [hkeys]
      refine List.nodup_append'.mpr ⟨hfirst.once, honce, fun key hkey hkey' => ?_⟩
      exact ((hcovered key).mp hkey').2 ((hfirst.covered key).mp hkey).1
    case covered =>
      intro key
      rw [hkeys, List.mem_append, hfirst.covered key, hcovered key]
      constructor
      · rintro (⟨hkey, hprior⟩ | ⟨hkey, hnew⟩)
        · exact ⟨h.kept hkey, hprior⟩
        · exact ⟨hkey, fun hprior => hnew (h.kept_prior hprior)⟩
      · rintro ⟨hkey, hprior⟩
        by_cases hbetween : key ∈ transferKeys between
        · exact .inl ⟨hbetween, hprior⟩
        · exact .inr ⟨hkey, hbetween⟩
    case ids =>
      rw [hnames]
      refine List.nodup_append'.mpr ⟨hfirst.ids, hnodup, fun id hid hid' => ?_⟩
      exact hfresh id hid' (List.mem_append_right _ hid)
    case fresh =>
      intro id hid
      rw [hnames] at hid
      rcases List.mem_append.mp hid with hid | hid
      · exact hfirst.fresh id hid
      · exact fun hprior => hfresh id hid (List.mem_append_left _ hprior)
    case ordered =>
      rw [h.flows]
      exact List.pairwise_append.mpr ⟨hfirst.ordered, hordered, h.increasing⟩

include h in
/-- The first flows are accounted for in the batch as in the first command. -/
theorem FlowSplit.accountFlows_first {progress : FlowProgress}
    (hfirst : accountFlows first prior between first.command.capitalFlows = .ok progress) :
    accountFlows batch prior position first.command.capitalFlows = .ok progress := by
  have hoccurred := (flowsLeave_of_accountFlows hfirst).occurred
  refine (foldlM_eq_ok_congr fun flow hflow s s' => ?_).mp hfirst
  rw [processFlow_eq_ok, processFlow_eq_ok]
  simp only [h.valued_first hflow (hoccurred flow hflow)]

/-- The state that the first command leaves, as far as later flows are concerned. -/
structure LeavesMiddle (first : DrawdownInput) (prior middle : DrawdownState)
    (between : PositionReconciliationOutcome) (reading : DrawdownReading) : Prop where
  units : middle.exactUnits.fraction = reading.units
  peak : middle.exactPeak.fraction = reading.peak
  transfers : middle.processedTransfers = transferKeys between
  flowIds : middle.processedFlowIds = reading.flowIds
  anchor : middle.accountingCutoffAt = first.command.cutoffAt
  accounts : sameMembers prior.accountIds middle.accountIds = true

/-- Reading the units keeps them, and raises the peak to the closing value. -/
theorem UnitAccounting.read_peak (accounting : UnitAccounting) (equity : ℚ) :
    (accounting.read equity).peak =
      (accounting.read equity).nav.elim accounting.peak (max accounting.peak) := rfl

/-- The drawdown that a reading observes is that of its closing value. -/
theorem UnitAccounting.read_drawdown (accounting : UnitAccounting) (equity : ℚ) :
    (accounting.read equity).drawdown =
      (accounting.read equity).nav.map fun nav => 1 - nav / (accounting.read equity).peak := rfl

include h in
/-- The batch goes on where the second command starts. -/
theorem FlowSplit.follows {accounting : UnitAccounting} {equity : ℚ}
    (hfirst : adjustedUnits first prior between = .ok accounting)
    (hmiddle : LeavesMiddle first prior middle between (accounting.read equity)) :
    ∃ progress, accountFlows batch prior position first.command.capitalFlows = .ok progress ∧
      FollowsSplit first.command.cutoffAt accounting.peak (accounting.read equity).peak
        accounting.intervalDrawdown progress (.start middle) := by
  obtain ⟨hcover, progress, hprogress, rfl⟩ := adjustedUnits_eq_ok.mp hfirst
  refine ⟨progress, h.accountFlows_first hprogress, ?_⟩
  obtain ⟨hprocessed, hpreceding, hinterval, -⟩ := flowsLeave_of_accountFlows hprogress
  constructor
  case units => exact hmiddle.units
  case processed =>
    intro key
    change key ∈ middle.processedTransfers ↔ _
    rw [hmiddle.transfers, hprocessed, List.mem_append, hcover.covered key]
    by_cases hprior : key ∈ prior.processedTransfers
    · exact iff_of_true (h.kept_prior hprior) (.inl hprior)
    · exact ⟨fun hkey => .inr ⟨hkey, hprior⟩, fun hkey => (hkey.resolve_left hprior).1⟩
  case preceding =>
    intro valuedAt hsplit
    refine iff_of_true ?_ rfl
    rw [Option.all_eq_true_iff_get] at hpreceding ⊢
    intro hsome
    exact decide_eq_true ((of_decide_eq_true (hpreceding hsome)).trans hsplit)
  case peak =>
    change middle.exactPeak.fraction = _
    rw [hmiddle.peak, UnitAccounting.read_peak]
    cases (UnitAccounting.read _ equity).nav with
    | none => exact (max_self _).symm
    | some nav => exact (max_eq_right (le_max_left _ _)).symm
  case reached => exact le_rfl
  case interval => exact le_max_left _ _
  case interval_eq => exact fun _ => (max_eq_left hinterval).symm

include h in
/-- Flows that the batch accounts for after the first ones are those of the second command. -/
theorem FlowSplit.simulates (hanchor : middle.accountingCutoffAt = first.command.cutoffAt)
    (haccounts : sameMembers prior.accountIds middle.accountIds = true)
    {firstPeak raised firstDrawdown : ℚ} {p q : FlowProgress}
    (hpq : FollowsSplit first.command.cutoffAt firstPeak raised firstDrawdown p q) :
    (∀ p', second.command.capitalFlows.foldlM (processFlow batch prior position) p = .ok p' →
      ∃ q', second.command.capitalFlows.foldlM (processFlow second middle position) q = .ok q' ∧
        FollowsSplit first.command.cutoffAt firstPeak raised firstDrawdown p' q') ∧
    ∀ q', second.command.capitalFlows.foldlM (processFlow second middle position) q = .ok q' →
      ∃ p', second.command.capitalFlows.foldlM (processFlow batch prior position) p = .ok p' ∧
        FollowsSplit first.command.cutoffAt firstPeak raised firstDrawdown p' q' := by
  constructor
  · intro p' hp'
    refine foldlM_simulates (fun flow hflow s t s' hst hs' => ?_) hpq hp'
    obtain ⟨before, preEquity, amount, hvalued, happlied⟩ := processFlow_eq_ok.mp hs'
    have hsplit := h.valued flow hflow before hvalued.found
    have hnav : 0 < preEquity / s.units := div_pos hvalued.positive happlied.held
    have hafter := happlied.eq_after
    rw [hafter] at happlied
    refine ⟨t.after flow (preEquity / t.units) s'.units, ?_, ?_⟩
    · exact processFlow_eq_ok.mpr ⟨before, preEquity, amount,
        (h.valued_second hflow hanchor haccounts).mpr hvalued,
        (hst.applied_iff hsplit s'.units).mp happlied⟩
    · rw [hst.units, hafter]
      exact hst.after flow hnav _
  · intro q' hq'
    refine foldlM_simulates (R := fun t s => FollowsSplit first.command.cutoffAt firstPeak raised
      firstDrawdown s t) (fun flow hflow t s t' hst ht' => ?_) hpq hq'
    obtain ⟨before, preEquity, amount, hvalued, happlied⟩ := processFlow_eq_ok.mp ht'
    have hvalued := (h.valued_second hflow hanchor haccounts).mp hvalued
    have hsplit := h.valued flow hflow before hvalued.found
    have hnav : 0 < preEquity / t.units := div_pos hvalued.positive happlied.held
    have hafter := happlied.eq_after
    rw [hafter] at happlied
    refine ⟨s.after flow (preEquity / s.units) t'.units, ?_, ?_⟩
    · exact processFlow_eq_ok.mpr ⟨before, preEquity, amount, hvalued,
        (hst.applied_iff hsplit t'.units).mpr happlied⟩
    · rw [← hst.units, hafter]
      exact hst.after flow hnav _

/-- How the reading of a batch compares with those of two commands that split it. -/
structure SplitReadings (firstPeak : ℚ) (batch first second : DrawdownReading) : Prop where
  units : second.units = batch.units
  flowIds : second.flowIds = batch.flowIds
  nav : second.nav = batch.nav
  peak : second.peak = first.nav.elim batch.peak (max batch.peak)
  interval : first.peak = firstPeak →
    max first.intervalDrawdown second.intervalDrawdown =
      first.drawdown.elim batch.intervalDrawdown (max batch.intervalDrawdown)

/-- Two accountings of the same units at peaks that agree up to a raise read alike. -/
theorem splitReadings_of_follows {first batch second : UnitAccounting} {opening equity : ℚ}
    (hunits : second.units = batch.units) (hids : second.flowIds = batch.flowIds)
    (hpeak : second.peak = max batch.peak (first.read opening).peak)
    (hreached : first.peak ≤ batch.peak) (hinterval : (first.read opening).peak = first.peak →
      batch.intervalDrawdown = max first.intervalDrawdown second.intervalDrawdown) :
    SplitReadings first.peak (batch.read equity) (first.read opening) (second.read equity) := by
  have hnav : (second.read equity).nav = (batch.read equity).nav := by
    simp only [UnitAccounting.read, hunits]
  have hraised : (second.read equity).peak =
      max (batch.read equity).peak (first.read opening).peak := by
    rw [UnitAccounting.read_peak, UnitAccounting.read_peak batch, hnav, hpeak]
    cases (batch.read equity).nav with
    | none => rfl
    | some nav => exact max_right_comm ..
  have hbatch : first.peak ≤ (batch.read equity).peak := by
    refine hreached.trans ?_
    rw [UnitAccounting.read_peak batch]
    cases (batch.read equity).nav with
    | none => exact le_rfl
    | some nav => exact le_max_left _ _
  constructor
  case units => exact hunits
  case flowIds => exact hids
  case nav => exact hnav
  case peak =>
    rw [hraised, UnitAccounting.read_peak first]
    cases (first.read opening).nav with
    | none => exact max_eq_left hbatch
    | some nav =>
      change max _ (max first.peak nav) = max _ nav
      rw [← max_assoc, max_eq_left hbatch]
  case interval =>
    intro hkept
    have hsame : (second.read equity).peak = (batch.read equity).peak := by
      rw [hraised, hkept, max_eq_left hbatch]
    have hdrawdown : (second.read equity).drawdown = (batch.read equity).drawdown := by
      rw [UnitAccounting.read_drawdown, UnitAccounting.read_drawdown, hnav, hsame]
    have hread : ∀ accounting : UnitAccounting, ∀ value : ℚ,
        (accounting.read value).intervalDrawdown = (accounting.read value).drawdown.elim
          accounting.intervalDrawdown (max accounting.intervalDrawdown) := fun _ _ => rfl
    rw [hread first, hread second, hread batch, hdrawdown, hinterval hkept]
    cases (first.read opening).drawdown with
    | none =>
      cases (batch.read equity).drawdown with
      | none => rfl
      | some drawdown => exact (max_assoc ..).symm
    | some closing =>
      cases (batch.read equity).drawdown with
      | none => exact max_right_comm ..
      | some drawdown =>
        change max (max first.intervalDrawdown closing) (max second.intervalDrawdown drawdown) =
          max (max (max first.intervalDrawdown second.intervalDrawdown) drawdown) closing
        rw [max_max_max_comm, max_comm closing drawdown, max_assoc (max _ _)]

include h in
/-- After an accepted first command, the second one is accounted for exactly when the batch is,
and the readings compare. -/
theorem split_of_middle {opening : ℚ} (hfirst : adjustedUnits first prior between = .ok accounting)
    (hmiddle : LeavesMiddle first prior middle between (accounting.read opening)) :
    ((∃ whole, adjustedUnits batch prior position = .ok whole) ↔
      ∃ rest, adjustedUnits second middle position = .ok rest) ∧
    ∀ whole rest, adjustedUnits batch prior position = .ok whole →
      adjustedUnits second middle position = .ok rest → ∀ equity,
        SplitReadings accounting.peak (whole.read equity) (accounting.read opening)
          (rest.read equity) := by
  obtain ⟨progress, hprogress, hfollows⟩ := h.follows hfirst hmiddle
  obtain ⟨hforward, hbackward⟩ := h.simulates hmiddle.anchor hmiddle.accounts hfollows
  obtain ⟨hcover, closed, -, haccounting⟩ := adjustedUnits_eq_ok.mp hfirst
  have hflowIds : middle.processedFlowIds =
      prior.processedFlowIds ++ first.command.capitalFlows.map (·.flowId) := by
    rw [hmiddle.flowIds, haccounting]
    rfl
  have hcovers := h.covers_iff hcover hmiddle.transfers hflowIds
  have hbatch : ∀ whole, accountFlows batch prior position batch.command.capitalFlows = .ok whole ↔
      second.command.capitalFlows.foldlM (processFlow batch prior position) progress =
        .ok whole := by
    intro whole
    rw [accountFlows, h.flows, List.foldlM_append]
    refine bind_eq_ok.trans ⟨?_, fun hrest => ⟨progress, hprogress, hrest⟩⟩
    rintro ⟨other, hother, hrest⟩
    obtain rfl := Except.ok.inj (hother.symm.trans hprogress)
    exact hrest
  constructor
  · constructor
    · rintro ⟨whole, hwhole⟩
      obtain ⟨hcovered, p', hp', -⟩ := adjustedUnits_eq_ok.mp hwhole
      obtain ⟨q', hq', -⟩ := hforward p' ((hbatch p').mp hp')
      exact ⟨_, adjustedUnits_eq_ok.mpr ⟨hcovers.mp hcovered, q', hq', rfl⟩⟩
    · rintro ⟨rest, hrest⟩
      obtain ⟨hcovered, q', hq', -⟩ := adjustedUnits_eq_ok.mp hrest
      obtain ⟨p', hp', -⟩ := hbackward q' hq'
      exact ⟨_, adjustedUnits_eq_ok.mpr ⟨hcovers.mpr hcovered, p', (hbatch p').mpr hp', rfl⟩⟩
  · intro whole rest hwhole hrest equity
    obtain ⟨-, p', hp', rfl⟩ := adjustedUnits_eq_ok.mp hwhole
    obtain ⟨-, q', hq', rfl⟩ := adjustedUnits_eq_ok.mp hrest
    obtain ⟨other, hother, hend⟩ := hforward p' ((hbatch p').mp hp')
    obtain rfl := Except.ok.inj (hother.symm.trans hq')
    refine splitReadings_of_follows hend.units ?_ hend.peak hend.reached hend.interval_eq
    dsimp only
    rw [hflowIds, h.flows, List.map_append, List.append_assoc]

/-- An accepted first command leaves the state that the second one starts from. -/
theorem Accounts.leavesMiddle {history : List DrawdownOutcome}
    (h : Accounts ctx history first prior basis accounting) :
    LeavesMiddle first prior (nextState ctx first basis (accounting.read basis.equity))
      basis.position (accounting.read basis.equity) := by
  have hpassed := (observed_of_observation h.observed).passed
  have hop : first.command.operation ≠ .open := fun hopen =>
    absurd (hpassed.opens hopen).symm (h.latest.1 ▸ Option.some_ne_none prior).symm
  have hrevision := hpassed.continues hop
  rw [h.latest.1] at hrevision
  simp only [DrawdownInput.revisionConflict, decide_eq_false_iff_not, not_or, not_not] at hrevision
  have haccounts : sameMembers first.accountIds prior.accountIds = true := by
    simpa using hrevision.2.2.2.1
  constructor
  case units => exact ExactRatio.fraction_ofFraction _
  case peak => exact ExactRatio.fraction_ofFraction _
  case transfers => rfl
  case flowIds => rfl
  case anchor => rfl
  case accounts =>
    refine sameMembers_iff.mpr fun a => ?_
    exact (sameMembers_iff.mp haccounts a).symm

end Split

/-- What holds of the flows that one step accounts for. -/
structure FlowsAccounted (input : DrawdownInput) (prior : DrawdownState) (basis : DrawdownBasis)
    (accounting : UnitAccounting) : Prop where
  matched : ∀ key ∈ transferKeys basis.position, key ∉ prior.processedTransfers →
    ∃! flow, flow ∈ input.command.capitalFlows ∧ key ∈ flow.ledgerKeys
  covers : FlowsCover input prior basis.position
  flowIds : accounting.flowIds =
    prior.processedFlowIds ++ input.command.capitalFlows.map (·.flowId)
  neutral : ∀ earlier flow later, input.command.capitalFlows = earlier ++ flow :: later →
    ∃ current next before preEquity amount,
      accountFlows input prior basis.position earlier = .ok current ∧
      accountFlows input prior basis.position (earlier ++ [flow]) = .ok next ∧
      FlowValued input prior basis.position flow before preEquity amount ∧
      FlowNeutral flow preEquity amount current next
  units_nonneg : 0 ≤ accounting.units
  peak_pos : 0 < (accounting.read basis.equity).peak

/-- Flow accounting along a run that continues any history of sound units: each step is neutral
and covers the new transfers, identities are used once in an epoch, a transfer is processed again
only after a position that lost it, and a batch compares with its split. -/
structure FlowAccounting (ctx : DecimalContext) (base : List DrawdownOutcome)
    (run : List (HistoryStep DrawdownInput DrawdownOutcome)) : Prop where
  accounted : ∀ e ∈ run, ∀ prior basis accounting,
    Accounts ctx (base ++ e.before) e.input prior basis accounting →
      FlowsAccounted e.input prior basis accounting
  flowIds : run.Pairwise fun e e' => ∀ prior basis accounting prior' basis' accounting',
    Accounts ctx (base ++ e.before) e.input prior basis accounting →
    Accounts ctx (base ++ e'.before) e'.input prior' basis' accounting' →
    e.input.command.epochId = e'.input.command.epochId →
      ∀ flow ∈ e.input.command.capitalFlows, ∀ flow' ∈ e'.input.command.capitalFlows,
        flow.flowId ≠ flow'.flowId
  transfers : ∀ earlier first between last later,
    run = earlier ++ first :: between ++ last :: later →
    ∀ prior basis accounting prior' basis' accounting',
      Accounts ctx (base ++ first.before) first.input prior basis accounting →
      Accounts ctx (base ++ last.before) last.input prior' basis' accounting' →
      ∀ key ∈ first.input.command.capitalFlows.flatMap (·.ledgerKeys),
        key ∈ last.input.command.capitalFlows.flatMap (·.ledgerKeys) →
          ∃ e ∈ between, ∃ basis reading,
            observation ctx (base ++ e.before) e.input = some (basis, reading) ∧
              key ∉ transferKeys basis.position
  split : ∀ e ∈ run, ∀ prior basis accounting,
    Accounts ctx (base ++ e.before) e.input prior basis accounting →
    ∀ batch second position, FlowSplit prior batch e.input second basis.position position →
      ∀ middle, e.outcome.state = some middle →
        ((∃ whole, adjustedUnits batch prior position = .ok whole) ↔
          ∃ rest, adjustedUnits second middle position = .ok rest) ∧
        ∀ whole rest, adjustedUnits batch prior position = .ok whole →
          adjustedUnits second middle position = .ok rest → ∀ equity,
            SplitReadings accounting.peak (whole.read equity) (accounting.read basis.equity)
              (rest.read equity)

/-- Unit accounting is flow-neutral, along every run that continues a history whose latest state
has sound units. -/
theorem flowAccounting_continuedRun (ctx : DecimalContext) (base : List DrawdownOutcome)
    (inputs : List DrawdownInput)
    (hbase : ∀ state, priorState base = some state → SoundUnits state) :
    FlowAccounting ctx base (continuedRun ctx base inputs) where
  accounted e he prior basis accounting haccounts := by
    have hsound := fun state hstate =>
      soundUnits_continuedRun inputs hbase e he state (.inl hstate)
    obtain ⟨hunits, hpeak⟩ := (observed_of_observation haccounts.observed).soundUnits hsound
    obtain ⟨hcovers, progress, hprogress, hresult⟩ := adjustedUnits_eq_ok.mp haccounts.accounted
    constructor
    case matched => exact fun key hkey hnew => hcovers.existsUnique hkey hnew
    case covers => exact hcovers
    case flowIds => rw [hresult]
    case neutral => exact fun earlier flow later h => neutral_of_accountFlows hprogress h
    case units_nonneg => exact hunits
    case peak_pos => exact hpeak
  flowIds := flowIds_continuedRun inputs
  transfers earlier first between last later hrun prior basis accounting prior' basis' accounting'
      hfirst hlast key hkey hkey' :=
    lost_between inputs hrun hfirst hlast hkey hkey'
  split e he prior basis accounting haccounts batch second position hsplit middle hmiddle := by
    have hstep := (historyRun_continuedRun ctx base inputs).step_of_mem he
    rw [← hstep, haccounts.state] at hmiddle
    cases hmiddle
    exact split_of_middle hsplit haccounts.accounted haccounts.leavesMiddle

namespace SampleDeposits

open SampleEpochs

def base : List DrawdownOutcome :=
  [adjudicate decimals [] (onPosition .open "K1" "E1" none "1" (hourOf 20 12) (hourOf 20 12) 100)]

def deposit (entryId : String) (day : ℤ) : AuthoritativeLedgerEntry where
  accountId := "A"
  entryId := entryId
  entryType := .transferIn
  securityId := none
  quantityDelta := 0
  costBasisDelta := 0
  cashDelta := 10
  occurredAt := hourOf day 10
  evidence := evidence (hourOf day 10) (hourOf day 12)

def holding (day hour : ℤ) (equity : ℚ) (deposits : List AuthoritativeLedgerEntry) :
    PositionReconciliationOutcome :=
  let held := position (hourOf day hour) (hourOf day hour) equity
  { held with snapshot := { held.snapshot with authoritativeLedger := deposits } }

def flow (entryId : String) (day : ℤ) : CapitalFlow where
  flowId := entryId
  kind := .external
  occurredAt := hourOf day 10
  beforeValuation :=
    ⟨entryId, some 0, evidence (hourOf day 9) (hourOf day 9), Literal.mem_zero_nonneg⟩
  ledgerKeys := [⟨"A", entryId⟩]
  ledgerKeys_ne_nil := List.cons_ne_nil _ _

def observe (previous eventId : String) (day : ℤ) (equity : ℚ)
    (deposits : List AuthoritativeLedgerEntry) (flows : List CapitalFlow) : DrawdownInput :=
  let input := onPosition .observe "K1" "E1" (some previous) eventId (hourOf day 12)
    (hourOf day 12) equity
  { input with
    command := { input.command with capitalFlows := flows }
    position := some (holding day 12 equity deposits)
    beforePositions :=
      [("D1", some (holding 21 9 100 [])), ("D2", some (holding 22 9 110 [deposit "D1" 21]))] }

/-- The first deposit, on a day that closes at a value of eleven tenths. -/
def first : DrawdownInput := observe "1" "2" 21 121 [deposit "D1" 21] [flow "D1" 21]

def second : DrawdownInput :=
  observe "2" "3" 22 120 [deposit "D1" 21, deposit "D2" 22] [flow "D2" 22]

def batch : DrawdownInput :=
  observe "1" "3" 22 120 [deposit "D1" 21, deposit "D2" 22] [flow "D1" 21, flow "D2" 22]

def figures (outcome : DrawdownOutcome) : Option (ℚ × ℚ × ℚ) :=
  outcome.state.map fun state =>
    (state.exactUnits.fraction, state.exactPeak.fraction, state.maximumDrawdown)

theorem base_spec : ∀ state, priorState base = some state → SoundUnits state := by
  have hsound : (priorState base).all (fun state =>
      0 ≤ state.exactUnits.fraction ∧ 0 < state.exactPeak.fraction) = true := by decide +kernel
  intro state hstate
  rw [hstate, Option.all_some, decide_eq_true_eq] at hsound
  exact ⟨hsound.1, hsound.2⟩

end SampleDeposits

open SampleDeposits in
/-- Two accepted commands, and their batch on the same positions before the flows: the units
agree, the peak does not. -/
theorem split_raises_peak :
    (adjudicate SampleEpochs.decimals base batch).disposition = .accepted ∧
    (adjudicate SampleEpochs.decimals base first).disposition = .accepted ∧
    (adjudicate SampleEpochs.decimals (base ++ [adjudicate SampleEpochs.decimals base first])
      second).disposition = .accepted ∧
    batch.command.capitalFlows = first.command.capitalFlows ++ second.command.capitalFlows ∧
    batch.beforePositions = first.beforePositions ∧
    batch.beforePositions = second.beforePositions ∧
    batch.position = second.position ∧
    figures (adjudicate SampleEpochs.decimals base batch) = some (120, 1, 0) ∧
    (figures (adjudicate SampleEpochs.decimals
      (base ++ [adjudicate SampleEpochs.decimals base first]) second)).map
        (fun figures => (figures.1, figures.2.1)) = some (120, 11 / 10) := by
  decide +kernel

open SampleDeposits in
/-- A run of two deposits is accounted for, in two commands and as a batch. -/
theorem sample_flowAccounting : FlowAccounting SampleEpochs.decimals base
    (continuedRun SampleEpochs.decimals base [first, second]) :=
  flowAccounting_continuedRun SampleEpochs.decimals base [first, second] base_spec

end StockProfiler.Portfolio
