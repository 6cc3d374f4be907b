import StockProfiler.Portfolio.FundingLoad

/-!
# The covered cash is exact

The loop ends on every funding network, and the cash it covers is the most that
any schedule delivers.
-/

namespace StockProfiler.Portfolio

open PositionManagement

variable {total : ℚ}

section Covered

variable {g : Network FundingNode} {totalCash : ℚ} {resources : List CashResource}
  {routes : List CashTransferRoute} {obligations : List DatedCashObligation}

/-- A run of the loop that ends within the capacities and conserves the cash of every
account at every instant. -/
structure FundingFlow (arcs : List (Arc FundingNode)) (total : ℚ) (g : Network FundingNode) :
    Prop where
  /-- The loop ends, however many more steps it may take. -/
  ends : ∃ bound, ∀ steps, bound ≤ steps →
    Network.maximumFlow .exact .source .sink steps 0 (fundingNetwork .exact arcs) = some (total, g)
  bounds : ∀ a ∈ arcs, 0 ≤ g.loadIn a ∧ g.loadIn a ≤ a.capacity
  conserves : ∀ accountId instant, inflow arcs g.loadIn (.account accountId instant) =
    outflow arcs g.loadIn (.account accountId instant)

/-- One result for every obligation, and in all as much as any schedule delivers. -/
structure ExactFunding (resources : List CashResource) (routes : List CashTransferRoute)
    (obligations : List DatedCashObligation) (results : List ObligationFunding) : Prop where
  each : (results.map (·.obligationId)).Perm (obligations.map (·.obligationId))
  covered : ∀ r ∈ results, ∃ o ∈ obligations, r.obligationId = o.obligationId ∧
    r.requiredCash = o.amount ∧ 0 ≤ r.maximumCoveredCash ∧ r.maximumCoveredCash ≤ o.amount ∧
    r.maximumCoveredCash + r.uncoveredGap = o.amount
  greatest : IsGreatest {d | ∃ s : FundingSchedule, s.Feasible resources routes obligations ∧
    s.delivered = d} (results.map (·.maximumCoveredCash)).sum

/-- An obligation is covered by what the load carries over its arc into the sink. -/
theorem coveredCash_eq_load {o : DatedCashObligation}
    (h : g.residual (.obligation o.obligationId) .sink ≤ o.amount) :
    (obligationFunding .exact g o).maximumCoveredCash = g.loadIn (coverageArc (·.amount) o) := by
  simp only [obligationFunding, DecimalContext.exact_sub, Network.loadIn, coverageArc_tail,
    coverageArc_head, coverageArc_capacity]
  exact (max_eq_left (sub_nonneg.mpr h)).symm

theorem sum_coveredCash
    (h : Network.MaximumLoad (fundingArcs totalCash (·.amount) resources routes obligations)
      .source .sink total g.loadIn)
    (hresidual : ∀ o ∈ obligations, g.residual (.obligation o.obligationId) .sink ≤ o.amount) :
    (((sortedObligations obligations).map (obligationFunding .exact g)).map
      (·.maximumCoveredCash)).sum = total := by
  rw [List.map_map, ((sortedObligations_perm obligations).map _).sum_eq, h.total_eq, net_sink]
  exact congrArg List.sum (List.map_congr_left fun o ho => coveredCash_eq_load (hresidual o ho))

section Unique

variable (hroutes : (routes.map (·.routeId)).Nodup)
  (hobligations : (obligations.map (·.obligationId)).Nodup)
  (hamounts : ∀ r ∈ resources, 0 ≤ r.amount)
include hroutes hobligations hamounts

/-- The loop ends on a funding network with a maximum load, and leaves no more than the
capacity on an arc into the sink. -/
theorem exists_fundingFlow {capacity : DatedCashObligation → ℚ} (htotal : 0 ≤ totalCash)
    (hcapacity : ∀ o ∈ obligations, 0 ≤ capacity o) :
    ∃ total g, FundingFlow (fundingArcs totalCash capacity resources routes obligations) total g ∧
      Network.MaximumLoad (fundingArcs totalCash capacity resources routes obligations)
        .source .sink total g.loadIn ∧
      ∀ o ∈ obligations, g.residual (.obligation o.obligationId) .sink ≤ capacity o := by
  obtain ⟨bound, total, g, hrun, hload, hresidual⟩ := Network.exists_maximumFlow_ofArcs
    (distinctArcs_fundingArcs totalCash capacity resources hroutes hobligations)
    (capacity_nonneg htotal hamounts hcapacity)
    (List.mem_cons_self : FundingNode.source ∈ [.source, .sink])
    (List.mem_cons_of_mem _ (List.mem_singleton_self _) : FundingNode.sink ∈ [.source, .sink])
    nofun
  refine ⟨total, g, ⟨⟨bound, hrun⟩, hload.bounds, fun _ _ => hload.conserves _ nofun nofun⟩, hload,
    fun o ho => ?_⟩
  -- No arc leaves the sink, so nothing is ever given back over an arc into it.
  have htail : ∀ a ∈ fundingArcs totalCash capacity resources routes obligations,
      a.tail ≠ .sink := by
    rw [forall_mem_fundingArcs]
    refine ⟨fun a ha => ?_, fun r _ => ⟨nofun, nofun⟩, fun r _ => ⟨nofun, nofun⟩,
      fun o _ => ⟨nofun, nofun⟩⟩
    obtain ⟨accountId, -, between, -, rfl⟩ := (mem_holdoverArcs ..).mp ha
    exact nofun
  exact (((forall_mem_fundingArcs ..).mp hresidual).2.2.2 o ho).2 fun b hb he => htail b hb he.1

variable (hforward : ∀ r ∈ routes, r.departureAt ≤ r.arrivalAt)
  (hknown : accountsKnown resources routes obligations = true)
include hforward hknown

/-- A maximum load has the greatest amount that a schedule delivers. -/
theorem isGreatest_delivered {load : Arc FundingNode → ℚ} (h : Network.MaximumLoad
      (fundingArcs (resources.map (·.amount)).sum (·.amount) resources routes obligations)
      .source .sink total load) :
    IsGreatest {d | ∃ s : FundingSchedule, s.Feasible resources routes obligations ∧
      s.delivered = d} total := by
  constructor
  · refine ⟨loadSchedule load routes obligations, ?_, ?_⟩
    · exact loadSchedule_feasible load hroutes hobligations hforward h.toFeasibleLoad
    · rw [h.total_eq]
      exact delivered_loadSchedule load
  · rintro d ⟨s, hs, rfl⟩
    obtain ⟨S, hsource, hsink, hcut⟩ := h.cut
    rw [hcut]
    exact delivered_le_cut hs hroutes hobligations hamounts hknown hsource hsink

theorem exactFunding_of_maximumLoad (h : Network.MaximumLoad
      (fundingArcs (resources.map (·.amount)).sum (·.amount) resources routes obligations)
      .source .sink total g.loadIn)
    (hresidual : ∀ o ∈ obligations, g.residual (.obligation o.obligationId) .sink ≤ o.amount) :
    ExactFunding resources routes obligations
      ((sortedObligations obligations).map (obligationFunding .exact g)) := by
  constructor
  case each =>
    rw [List.map_map]
    exact (sortedObligations_perm obligations).map _
  case covered =>
    intro r hr
    obtain ⟨o, ho, rfl⟩ := List.mem_map.mp hr
    have ho := (sortedObligations_perm obligations).mem_iff.mp ho
    obtain ⟨hnonneg, hle⟩ := (((forall_mem_fundingArcs ..).mp h.bounds).2.2.2 o ho).2
    rw [← coveredCash_eq_load (hresidual o ho)] at hnonneg hle
    refine ⟨o, ho, rfl, rfl, hnonneg, hle, ?_⟩
    simp only [obligationFunding, DecimalContext.exact_sub, sub_add_cancel]
  case greatest =>
    rw [sum_coveredCash h hresidual]
    exact isGreatest_delivered hroutes hobligations hamounts hforward hknown h

end Unique

end Covered

/-- The networks on which the loop runs: obligations up to their amounts, and without limit. -/
def limitedArcs (resources : List CashResource) (routes : List CashTransferRoute)
    (obligations : List DatedCashObligation) : List (Arc FundingNode) :=
  fundingArcs (resources.map (·.amount)).sum (·.amount) resources routes obligations

/-- The network without a limit on the obligations. -/
def unlimitedArcs (resources : List CashResource) (routes : List CashTransferRoute)
    (obligations : List DatedCashObligation) : List (Arc FundingNode) :=
  fundingArcs (resources.map (·.amount)).sum (fun _ => (resources.map (·.amount)).sum) resources
    routes obligations

/-- When both loops end, the obligations are funded by what they leave. -/
theorem fundObligations_eq {steps : ℕ} {resources : List CashResource}
    {routes : List CashTransferRoute} {obligations : List DatedCashObligation} {maximum : ℚ}
    {covered used : Network FundingNode} (hne : obligations ≠ [])
    (hknown : accountsKnown resources routes obligations = true)
    (hcovered : Network.maximumFlow .exact .source .sink steps 0
      (fundingNetwork .exact (limitedArcs resources routes obligations)) = some (total, covered))
    (hused : Network.maximumFlow .exact .source .sink steps 0
      (fundingNetwork .exact (unlimitedArcs resources routes obligations)) = some (maximum, used)) :
    fundObligations .exact steps resources routes obligations = some (maximum,
      (sortedObligations obligations).map (obligationFunding .exact covered),
      resources.zipIdx.map fun r => r.1.amount - used.residual .source (.resource r.2)) := by
  rw [limitedArcs] at hcovered
  rw [unlimitedArcs] at hused
  simp [fundObligations, hne, hknown, DecimalContext.exact_sum, hcovered, hused]

/-- The assessment ends, however many more steps it may take, with the funding that an
exact flow leaves. -/
def AssessedExactly (resources : List AvailableCashResource) (routes : List CashTransferRoute)
    (obligations : List DatedCashObligation) : Prop :=
  ∃ bound results, (∀ steps, bound ≤ steps →
      assessAvailableCash .exact steps resources routes obligations = some results) ∧
    ExactFunding (resources.map (·.toCashResource)) routes obligations results ∧
    (∃ g, FundingFlow (limitedArcs (resources.map (·.toCashResource)) routes obligations)
      (results.map (·.maximumCoveredCash)).sum g) ∧
    ∃ maximum g, FundingFlow
      (unlimitedArcs (resources.map (·.toCashResource)) routes obligations) maximum g

/-- Dated funding is an exact maximum flow. -/
theorem assessAvailableCash_exact (resources : List AvailableCashResource)
    {routes : List CashTransferRoute} {obligations : List DatedCashObligation}
    (hroutes : (routes.map (·.routeId)).Nodup)
    (hobligations : (obligations.map (·.obligationId)).Nodup)
    (hforward : ∀ r ∈ routes, r.departureAt ≤ r.arrivalAt)
    (hknown : accountsKnown (resources.map (·.toCashResource)) routes obligations = true) :
    AssessedExactly resources routes obligations := by
  have hamounts : ∀ r ∈ resources.map (·.toCashResource), 0 ≤ r.amount := by
    intro r hr
    obtain ⟨r, -, rfl⟩ := List.mem_map.mp hr
    exact r.amount_nonneg
  have htotal := totalCash_nonneg hamounts
  obtain ⟨total, covered, hlimited, hload, hresidual⟩ := exists_fundingFlow hroutes hobligations
    hamounts htotal fun o _ => o.amount_pos.le
  obtain ⟨maximum, used, hunlimited, -, -⟩ := exists_fundingFlow hroutes hobligations
    hamounts htotal fun _ _ => htotal
  have hexact := exactFunding_of_maximumLoad hroutes hobligations hamounts hforward hknown hload
    hresidual
  obtain ⟨bound, hbound⟩ := hlimited.ends
  obtain ⟨bound', hbound'⟩ := hunlimited.ends
  refine ⟨max bound bound', (sortedObligations obligations).map (obligationFunding .exact covered),
    fun steps hsteps => ?_, hexact, ⟨covered, ?_⟩, maximum, used, hunlimited⟩
  · rw [assessAvailableCash]
    by_cases hne : obligations = []
    · subst hne
      rfl
    · rw [fundObligations_eq hne hknown (hbound steps (le_of_max_le_left hsteps))
        (hbound' steps (le_of_max_le_right hsteps))]
      rfl
  · rw [sum_coveredCash hload hresidual]
    exact hlimited

namespace Sample

def evidence : PositionEvidence where
  source := some "bank"
  sourceVersion := some "1"
  businessEffectiveAt := some 0
  sourceObservedAt := some 0
  locallyAcquiredAt := some 0
  validatedAt := some 0
  cutoffAt := some 0
  completeThroughAt := some 0

def resources : List AvailableCashResource :=
  [⟨⟨"A", 0, 10⟩, by decide +kernel⟩, ⟨⟨"B", 0, 0⟩, Literal.zero.nonneg⟩]

def route (departureAt arrivalAt : Instant) : CashTransferRoute where
  routeId := "R"
  sourceAccountId := "A"
  targetAccountId := "B"
  departureAt := departureAt
  arrivalAt := arrivalAt
  capacity := 8
  evidence := evidence
  capacity_nonneg := by decide +kernel

def obligation : DatedCashObligation where
  obligationId := "O"
  amount := 5
  purpose := "tax"
  latestUsableAt := 4
  targetAccountId := "B"
  amount_pos := by decide +kernel

def laterObligation : DatedCashObligation :=
  { obligation with amount := 20, latestUsableAt := 6, amount_pos := Literal.twenty.pos }

end Sample

/-- The second account is funded over the route. -/
theorem sample_assessed_exactly :
    AssessedExactly Sample.resources [Sample.route 1 3] [Sample.obligation] :=
  assessAvailableCash_exact Sample.resources (by decide) (by decide) (by decide) (by decide)

/-- The covered cash that is reported for a sample. -/
def Sample.covered (routes : List CashTransferRoute) (obligations : List DatedCashObligation) :
    Option (List ℚ) :=
  (assessAvailableCash .exact 20 resources routes obligations).map (·.map (·.maximumCoveredCash))

/-- When nothing is credited to the second account in time, nothing is paid there. -/
theorem Sample.delivered_eq_zero {s : FundingSchedule} {routes : List CashTransferRoute}
    (hs : s.Feasible (resources.map (·.toCashResource)) routes [obligation])
    (hcredited : sumWhere s.transfers DatedTransfer.amount
      (fun x => x.route.targetAccountId = "B" ∧ x.creditedAt ≤ 4) ≤ 0) : s.delivered = 0 := by
  have hpaid : sumWhere s.payments DatedPayment.amount
      (fun p => p.obligation.targetAccountId = "B" ∧ p.paidAt ≤ 4) = s.delivered := by
    rw [FundingSchedule.delivered, ← sumWhere_true]
    refine sumWhere_congr (fun p hp => iff_true_intro ?_) fun _ _ _ => rfl
    obtain ⟨hmem, -, hdate⟩ := hs.payment p hp
    rw [List.mem_singleton.mp hmem] at hdate ⊢
    exact ⟨rfl, hdate⟩
  have hsent : 0 ≤ sumWhere s.transfers DatedTransfer.amount
      (fun x => x.route.sourceAccountId = "B" ∧ x.sentAt ≤ 4) :=
    sumWhere_nonneg fun x hx => (hs.transfer x hx).2.1
  have hnonneg : 0 ≤ s.delivered := hpaid ▸ sumWhere_nonneg fun p hp => (hs.payment p hp).2.1
  have hcash : sumWhere (resources.map (·.toCashResource)) CashResource.amount
      (fun r => r.accountId = "B" ∧ r.availableAt ≤ 4) = 0 := by decide +kernel
  linarith [s.sent_add_paid_le _ hs "B" 4]

/-- A route that arrives before it departs brings nothing in time, but is counted. So are the
arcs of two routes, or of two obligations, that share an identity. -/
theorem sample_not_exact :
    (Sample.covered [Sample.route 5 3] [Sample.obligation] = some [5] ∧
      ∀ s : FundingSchedule, s.Feasible (Sample.resources.map (·.toCashResource))
        [Sample.route 5 3] [Sample.obligation] → s.delivered = 0) ∧
    (Sample.covered [Sample.route 1 9, Sample.route (-2) 3] [Sample.obligation] = some [5] ∧
      ∀ s : FundingSchedule, s.Feasible (Sample.resources.map (·.toCashResource))
        [Sample.route 1 9, Sample.route (-2) 3] [Sample.obligation] → s.delivered = 0) ∧
    Sample.covered [Sample.route 1 3] [Sample.obligation, Sample.laterObligation] =
      some [-12, 3] := by
  refine ⟨⟨by decide +kernel, fun s hs => ?_⟩, ⟨by decide +kernel, fun s hs => ?_⟩,
    by decide +kernel⟩
  · refine Sample.delivered_eq_zero hs (sumWhere_eq_zero fun x hx _ => ?_).le
    obtain ⟨hmem, -, -, hforward, -⟩ := hs.transfer x hx
    rw [List.mem_singleton.mp hmem] at hforward
    exact absurd hforward (by decide)
  · -- Only the second route arrives in time, and it departs before there is any cash.
    refine Sample.delivered_eq_zero hs ?_
    have hearly : sumWhere s.transfers DatedTransfer.amount
        (fun x => x.route.targetAccountId = "B" ∧ x.creditedAt ≤ 4) ≤
        sumWhere s.transfers DatedTransfer.amount
          fun x => x.route.sourceAccountId = "A" ∧ x.sentAt ≤ -2 := by
      refine sumWhere_le_sumWhere (fun x hx hcredited => ?_) (fun _ _ _ => le_rfl)
        fun x hx => (hs.transfer x hx).2.1
      obtain ⟨hmem, -, hsent, -, harrival⟩ := hs.transfer x hx
      rcases List.mem_cons.mp hmem with hroute | hmem
      · rw [hroute] at harrival
        exact absurd (harrival.trans hcredited.2) (by decide)
      · rw [List.mem_singleton.mp hmem] at hsent ⊢
        exact ⟨rfl, hsent⟩
    have hcredited : sumWhere s.transfers DatedTransfer.amount
        (fun x => x.route.targetAccountId = "A" ∧ x.creditedAt ≤ -2) = 0 := by
      refine sumWhere_eq_zero fun x hx hx' => ?_
      rcases List.mem_cons.mp (hs.transfer x hx).1 with hroute | hmem
      · exact absurd (hroute ▸ hx'.1) (by decide)
      · exact absurd (List.mem_singleton.mp hmem ▸ hx'.1) (by decide)
    have hpaid : 0 ≤ sumWhere s.payments DatedPayment.amount
        (fun p => p.obligation.targetAccountId = "A" ∧ p.paidAt ≤ -2) :=
      sumWhere_nonneg fun p hp => (hs.payment p hp).2.1
    have hcash : sumWhere (Sample.resources.map (·.toCashResource)) CashResource.amount
        (fun r => r.accountId = "A" ∧ r.availableAt ≤ -2) = 0 := by decide +kernel
    linarith [s.sent_add_paid_le _ hs "A" (-2)]

end StockProfiler.Portfolio
