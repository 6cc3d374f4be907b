import Mathlib.Tactic.FieldSimp
import StockProfiler.Core.Timeline
import StockProfiler.Portfolio.DrawdownLatch

/-!
# Capital flows

An external flow issues or cancels units at the value right before it, so the value
of a unit stays; an internal one moves nothing. Each new transfer is accounted for by
one flow, and a run accounts for it again only after a position that lost it.
-/

namespace StockProfiler.Portfolio

open PositionManagement

variable {input : DrawdownInput} {prior : DrawdownState}
  {position before : PositionReconciliationOutcome} {flow : CapitalFlow}
  {progress progress' : FlowProgress} {preEquity amount : ℚ}

/-- What the evidence says about a flow: the equity right before it and what it moves. -/
structure FlowValued (input : DrawdownInput) (prior : DrawdownState)
    (position : PositionReconciliationOutcome) (flow : CapitalFlow)
    (before : PositionReconciliationOutcome) (preEquity amount : ℚ) : Prop where
  found : (input.beforePositions.get? flow.beforeValuation.positionEventId).join = some before
  anchored : prior.accountingCutoffAt ≤ before.snapshot.cutoffAt
  valued : before.snapshot.cutoffAt ≤ flow.occurredAt
  covered : flow.occurredAt ≤ input.command.cutoffAt
  equity : equityFor flow.beforeValuation before prior.accountIds
    position.snapshot.valuationCurrency flow.occurredAt = .ok preEquity
  positive : 0 < preEquity
  moved : ∃ amounts, flow.ledgerKeys.mapM (flowEntryAmount position flow) = .ok amounts ∧
    amounts.sum = amount

/-- How a valued flow goes on from a progress. -/
structure FlowApplied (flow : CapitalFlow) (before : PositionReconciliationOutcome)
    (preEquity amount : ℚ) (progress progress' : FlowProgress) : Prop where
  preceding : progress.precedingFlowAt.all (· ≤ before.snapshot.cutoffAt) = true
  sequence : sameMembers (transferKeys before) progress.processed = true
  held : 0 < progress.units
  units : flowUnits flow progress.units (preEquity / progress.units) amount = .ok progress'.units
  nonneg : 0 ≤ progress'.units
  peak : progress'.peak = max progress.peak (preEquity / progress.units)
  intervalDrawdown : progress'.intervalDrawdown =
    max progress.intervalDrawdown (1 - preEquity / progress.units / progress'.peak)
  processed : progress'.processed = progress.processed ++ flow.ledgerKeys
  precedingFlowAt : progress'.precedingFlowAt = some flow.occurredAt

/-- A flow is accounted for when the evidence values it and it goes on from the progress. -/
theorem processFlow_eq_ok : processFlow input prior position progress flow = .ok progress' ↔
    ∃ before preEquity amount, FlowValued input prior position flow before preEquity amount ∧
      FlowApplied flow before preEquity amount progress progress' := by
  simp only [processFlow, bind_eq_ok, known_eq_ok, require_eq_ok]
  constructor
  · rintro ⟨before, hfound, _, hclock, _, hsequence, preEquity, hequity, _, hpositive, amounts,
      hamounts, units, hunits, _, hnonneg, h⟩
    cases h
    exact ⟨before, preEquity, amounts.sum,
      ⟨hfound, hclock.1, hclock.2.1, hclock.2.2, hequity, hpositive.1, amounts, hamounts, rfl⟩,
      ⟨hsequence.1, hsequence.2, hpositive.2, hunits, hnonneg, rfl, rfl, rfl, rfl⟩⟩
  · rintro ⟨before, preEquity, amount, hvalued, happlied⟩
    obtain ⟨amounts, hamounts, rfl⟩ := hvalued.moved
    refine ⟨before, hvalued.found, (), ⟨hvalued.anchored, hvalued.valued, hvalued.covered⟩, (),
      ⟨happlied.preceding, happlied.sequence⟩, preEquity, hvalued.equity, (),
      ⟨hvalued.positive, happlied.held⟩, amounts, hamounts, progress'.units, happlied.units, (),
      happlied.nonneg, ?_⟩
    obtain ⟨units, peak, interval, processed, preceding⟩ := progress'
    obtain ⟨-, -, -, -, -, hpeak, hinterval, hprocessed, hpreceding⟩ := happlied
    dsimp only at hpeak hinterval hprocessed hpreceding
    rw [hinterval, hpeak, hprocessed, hpreceding]
    rfl

/-- An external flow adds what its amount is worth in units. -/
theorem flowUnits_external {units preNav units' : ℚ} (hkind : flow.kind = .external)
    (h : flowUnits flow units preNav amount = .ok units') : units' = units + amount / preNav := by
  rw [flowUnits, hkind] at h
  exact (Except.ok.inj h).symm

/-- An internal flow keeps the units, and moves nothing between two accounts or more. -/
theorem flowUnits_internal {units preNav units' : ℚ} (hkind : flow.kind = .internal)
    (h : flowUnits flow units preNav amount = .ok units') : amount = 0 ∧ units' = units ∧
      2 ≤ (flow.ledgerKeys.map (·.accountId)).dedup.length := by
  rw [flowUnits, hkind] at h
  simp only [bind_eq_ok, require_eq_ok] at h
  obtain ⟨-, hmoved, h⟩ := h
  exact ⟨hmoved.1, (Except.ok.inj h).symm, hmoved.2⟩

/-- A flow keeps the value of a unit, divides by nothing that is zero and leaves units that
are not negative. -/
structure FlowNeutral (flow : CapitalFlow) (preEquity amount : ℚ)
    (progress progress' : FlowProgress) : Prop where
  units_ne_zero : progress.units ≠ 0
  preNav_ne_zero : preEquity / progress.units ≠ 0
  peak_ne_zero : progress'.peak ≠ 0
  external : flow.kind = .external → progress'.units ≠ 0 →
    (preEquity + amount) / progress'.units = preEquity / progress.units
  redeemed : flow.kind = .external → (progress'.units = 0 ↔ preEquity + amount = 0)
  internal : flow.kind = .internal → progress'.units = progress.units ∧ amount = 0
  nonneg : 0 ≤ progress'.units

/-- The equity after an external flow is the value of the units after it. -/
theorem FlowApplied.value (h : FlowApplied flow before preEquity amount progress progress')
    (hpositive : 0 < preEquity) (hkind : flow.kind = .external) :
    preEquity + amount = progress'.units * (preEquity / progress.units) := by
  rw [flowUnits_external hkind h.units]
  have hunits : progress.units ≠ 0 := h.held.ne'
  have hequity : preEquity ≠ 0 := hpositive.ne'
  field_simp

theorem FlowApplied.neutral (h : FlowApplied flow before preEquity amount progress progress')
    (hpositive : 0 < preEquity) : FlowNeutral flow preEquity amount progress progress' := by
  have hnav : 0 < preEquity / progress.units := div_pos hpositive h.held
  constructor
  case units_ne_zero => exact h.held.ne'
  case preNav_ne_zero => exact hnav.ne'
  case peak_ne_zero =>
    rw [h.peak]
    exact (hnav.trans_le (le_max_right _ _)).ne'
  case external =>
    intro hkind hunits
    rw [h.value hpositive hkind, mul_div_cancel_left₀ _ hunits]
  case redeemed =>
    intro hkind
    rw [h.value hpositive hkind, mul_eq_zero, or_iff_left hnav.ne']
  case internal =>
    intro hkind
    obtain ⟨hamount, hunits, -⟩ := flowUnits_internal hkind h.units
    exact ⟨hunits, hamount⟩
  case nonneg => exact h.nonneg

/-- The accounting before the first flow. -/
def FlowProgress.start (prior : DrawdownState) : FlowProgress where
  units := prior.exactUnits.fraction
  peak := prior.exactPeak.fraction
  intervalDrawdown := 0
  processed := prior.processedTransfers
  precedingFlowAt := none

/-- Account for flows in order, from the accounting of a state. -/
def accountFlows (input : DrawdownInput) (prior : DrawdownState)
    (position : PositionReconciliationOutcome) (flows : List CapitalFlow) :
    Except String FlowProgress :=
  flows.foldlM (processFlow input prior position) (.start prior)

/-- The new transfers of a position are covered, each by one flow, under new identities. -/
structure FlowsCover (input : DrawdownInput) (prior : DrawdownState)
    (position : PositionReconciliationOutcome) : Prop where
  once : (input.command.capitalFlows.flatMap (·.ledgerKeys)).Nodup
  covered : ∀ key, key ∈ input.command.capitalFlows.flatMap (·.ledgerKeys) ↔
    key ∈ transferKeys position ∧ key ∉ prior.processedTransfers
  ids : (input.command.capitalFlows.map (·.flowId)).Nodup
  fresh : ∀ id ∈ input.command.capitalFlows.map (·.flowId), id ∉ prior.processedFlowIds
  ordered : input.command.capitalFlows.Pairwise (·.occurredAt < ·.occurredAt)

/-- Flows are accounted for when they cover the new transfers and each is accounted for. -/
theorem adjustedUnits_eq_ok {accounting : UnitAccounting} :
    adjustedUnits input prior position = .ok accounting ↔
      FlowsCover input prior position ∧ ∃ progress,
        accountFlows input prior position input.command.capitalFlows = .ok progress ∧
        accounting = ⟨progress.units, progress.peak,
          prior.processedFlowIds ++ input.command.capitalFlows.map (·.flowId),
          progress.intervalDrawdown⟩ := by
  have hordered : input.command.capitalFlows.Pairwise (·.occurredAt < ·.occurredAt) ↔
      ∀ pair ∈ input.command.capitalFlows.zip input.command.capitalFlows.tail,
        pair.1.occurredAt < pair.2.occurredAt :=
    pairwise_iff_successive (R := fun a b : CapitalFlow => a.occurredAt < b.occurredAt) lt_trans
  simp only [adjustedUnits, bind_eq_ok, require_eq_ok]
  constructor
  · rintro ⟨-, ⟨honce, hcovered⟩, -, ⟨hids, hfresh⟩, -, hclock, progress, hprogress, h⟩
    refine ⟨⟨honce, ?_, hids, ?_, hordered.mpr ?_⟩, progress, hprogress, (Except.ok.inj h).symm⟩
    · intro key
      rw [sameMembers_iff.mp hcovered key, List.mem_filter, decide_eq_true_eq]
    · simpa only [List.all_eq_true, decide_eq_true_eq] using hfresh
    · simpa only [List.all_eq_true, decide_eq_true_eq] using hclock
  · rintro ⟨hcover, progress, hprogress, rfl⟩
    refine ⟨(), ⟨hcover.once, ?_⟩, (), ⟨hcover.ids, ?_⟩, (), ?_, progress, hprogress, rfl⟩
    · refine sameMembers_iff.mpr fun key => ?_
      rw [hcover.covered key, List.mem_filter, decide_eq_true_eq]
    · simpa only [List.all_eq_true, decide_eq_true_eq] using hcover.fresh
    · simpa only [List.all_eq_true, decide_eq_true_eq] using hordered.mp hcover.ordered

/-- Every new transfer is matched by one flow, and by no other. -/
theorem FlowsCover.existsUnique (h : FlowsCover input prior position) {key : FlowLedgerKey}
    (hkey : key ∈ transferKeys position) (hnew : key ∉ prior.processedTransfers) :
    ∃! flow, flow ∈ input.command.capitalFlows ∧ key ∈ flow.ledgerKeys := by
  obtain ⟨flow, hflow, hmem⟩ := List.mem_flatMap.mp ((h.covered key).mpr ⟨hkey, hnew⟩)
  refine ⟨flow, ⟨hflow, hmem⟩, fun other ⟨hother, hmem'⟩ => ?_⟩
  by_contra hne
  have hdisjoint := (List.nodup_flatMap.mp h.once).2
  have hsymm : Std.Symm fun a b : CapitalFlow => List.Disjoint a.ledgerKeys b.ledgerKeys :=
    ⟨fun _ _ => List.Disjoint.symm⟩
  exact hdisjoint.forall hother hflow hne hmem' hmem

/-- Every flow of an accounting goes on, neutrally, from the flows before it. -/
theorem neutral_of_accountFlows {flows earlier later : List CapitalFlow}
    (h : accountFlows input prior position flows = .ok progress')
    (hflows : flows = earlier ++ flow :: later) :
    ∃ current next before preEquity amount,
      accountFlows input prior position earlier = .ok current ∧
      accountFlows input prior position (earlier ++ [flow]) = .ok next ∧
      FlowValued input prior position flow before preEquity amount ∧
      FlowNeutral flow preEquity amount current next := by
  rw [accountFlows, hflows, List.foldlM_append] at h
  obtain ⟨current, hcurrent, h⟩ := bind_eq_ok.mp h
  rw [List.foldlM_cons] at h
  obtain ⟨next, hnext, -⟩ := bind_eq_ok.mp h
  obtain ⟨before, preEquity, amount, hvalued, happlied⟩ := processFlow_eq_ok.mp hnext
  refine ⟨current, next, before, preEquity, amount, hcurrent, ?_, hvalued,
    happlied.neutral hvalued.positive⟩
  rw [accountFlows, List.foldlM_append]
  refine bind_eq_ok.mpr ⟨current, hcurrent, ?_⟩
  rw [List.foldlM_cons]
  exact bind_eq_ok.mpr ⟨next, hnext, rfl⟩

theorem nonneg_of_accountFlows {flows : List CapitalFlow}
    (h : accountFlows input prior position flows = .ok progress')
    (hprior : 0 ≤ prior.exactUnits.fraction) : 0 ≤ progress'.units := by
  refine foldlM_invariant (P := fun progress => 0 ≤ progress.units) ?_ hprior h
  intro s flow s' _ hstep
  obtain ⟨before, preEquity, amount, -, happlied⟩ := processFlow_eq_ok.mp hstep
  exact happlied.nonneg

end StockProfiler.Portfolio
