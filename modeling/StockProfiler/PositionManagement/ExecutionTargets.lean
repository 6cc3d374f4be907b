import StockProfiler.PositionManagement.ExecutionWaterfall

/-!
# The targets of a plan

However a plan is routed, and however much more than its targets it sells, it keeps every
target with all of its sources at no larger a quantity.
-/

namespace StockProfiler.PositionManagement

open Portfolio

namespace ExecutionTarget

/-- A target without what a routing adds to it. -/
def core (target : ExecutionTarget) : ExecutionTarget :=
  { target with remainingQuantity := none, remainingGap := none, roundingInducedFullSale := false }

/-- A target keeps the security and the sources of another one, at no larger a quantity. -/
structure Tightens (target tighter : ExecutionTarget) : Prop where
  securityId_eq : tighter.securityId = target.securityId
  targetQuantity_le : tighter.targetQuantity ≤ target.targetQuantity
  sources_subset : target.sourceObligationIds ⊆ tighter.sourceObligationIds

variable {first second third : ExecutionTarget}

theorem Tightens.trans (h : first.Tightens second) (h' : second.Tightens third) :
    first.Tightens third :=
  ⟨h'.securityId_eq.trans h.securityId_eq, h'.targetQuantity_le.trans h.targetQuantity_le,
    fun _ hid => h'.sources_subset (h.sources_subset hid)⟩

theorem Tightens.of_core_eq (h : second.core = first.core) : first.Tightens second := by
  have hsecurity : second.core.securityId = first.core.securityId := by rw [h]
  have hquantity : second.core.targetQuantity = first.core.targetQuantity := by rw [h]
  have hsources : second.core.sourceObligationIds = first.core.sourceObligationIds := by rw [h]
  exact ⟨hsecurity, le_of_eq hquantity, fun id hid => hsources.symm ▸ hid⟩

end ExecutionTarget

/-- Every target of a list is tightened, in order. -/
def TargetsTighten (targets tighter : List ExecutionTarget) : Prop :=
  List.Forall₂ ExecutionTarget.Tightens targets tighter

theorem TargetsTighten.trans {first second third : List ExecutionTarget}
    (h : TargetsTighten first second) (h' : TargetsTighten second third) :
    TargetsTighten first third := by
  induction h generalizing third with
  | nil => exact h'
  | cons hab _ ih =>
    cases h' with
    | cons hbc hrest => exact .cons (hab.trans hbc) (ih hrest)

theorem TargetsTighten.of_core_eq {targets tighter : List ExecutionTarget}
    (h : tighter.map ExecutionTarget.core = targets.map ExecutionTarget.core) :
    TargetsTighten targets tighter := by
  induction targets generalizing tighter with
  | nil =>
    obtain rfl := List.map_eq_nil_iff.mp h
    exact .nil
  | cons target targets ih =>
    obtain ⟨head, rest, rfl, hhead, hrest⟩ := List.map_eq_cons_iff.mp h
    exact .cons (.of_core_eq hhead) (ih hrest)

theorem TargetsTighten.securityIds {targets tighter : List ExecutionTarget}
    (h : TargetsTighten targets tighter) :
    tighter.map (·.securityId) = targets.map (·.securityId) := by
  induction h with
  | nil => rfl
  | cons hab _ ih => rw [List.map_cons, List.map_cons, hab.securityId_eq, ih]

section Routing

variable {ctx : DecimalContext} {command : ExecutionPlanCommand}
  {snapshot : ReconciledPositionSnapshot} {targets : List ExecutionTarget}
  {fundingGap : Option (List ExecutionLeg → Option ℚ)} {plan : ExecutionPlanOutcome}

/-- A routed target differs in what is left of it only. -/
theorem core_of_routeTarget {units : Dict (String × String) PositionActionUnit}
    {options : RoutingOptions} {target : ExecutionTarget} {routed : TargetRouting}
    (h : routeTarget ctx command units options fundingGap target = .ok routed) :
    routed.revised.core = target.core := by
  unfold routeTarget at h
  obtain ⟨-, -, h⟩ := bind_eq_ok.mp h
  obtain ⟨required, -, h⟩ := bind_eq_ok.mp h
  obtain ⟨total, -, h⟩ := bind_eq_ok.mp h
  obtain ⟨variants, -, h⟩ := bind_eq_ok.mp h
  obtain ⟨kept, -, h⟩ := bind_eq_ok.mp h
  cases h
  rfl

/-- A routed plan has the targets that it was asked for. -/
theorem core_of_routing (h : routing ctx command snapshot targets fundingGap = .ok plan) :
    plan.targets.map ExecutionTarget.core = targets.map ExecutionTarget.core := by
  unfold routing at h
  obtain ⟨-, -, h⟩ := bind_eq_ok.mp h
  obtain ⟨options, -, h⟩ := bind_eq_ok.mp h
  obtain ⟨routed, hrouted, h⟩ := bind_eq_ok.mp h
  obtain ⟨-, -, h⟩ := bind_eq_ok.mp h
  obtain ⟨legs, -, h⟩ := bind_eq_ok.mp h
  cases h
  have hcore := (mapM_eq_ok.mp hrouted).imp fun target result h => (core_of_routeTarget h).symm
  rw [map_eq_map_of_forall₂ hcore, routedPlan, List.map_map]
  rfl

theorem core_of_routeTargets
    (h : routeTargets ctx command snapshot targets fundingGap = some plan) :
    plan.targets.map ExecutionTarget.core = targets.map ExecutionTarget.core := by
  unfold routeTargets at h
  split at h
  · rename_i routed hrouted
    cases h
    exact core_of_routing hrouted
  · cases h
    rfl
  · exact nomatch h

end Routing

section Waterfall

variable {ctx : DecimalContext} {steps : ℕ} {command : ExecutionPlanCommand}
  {handoff : RiskResults} {obligations : List DatedCashObligation}
  {targets : List ExecutionTarget} {plan initial : ExecutionPlanOutcome}

theorem projectPlan_eq {initialValue : ℚ} {projected : ExecutionPlanOutcome}
    (h : projectPlan ctx steps handoff obligations initialValue plan = some projected) :
    ∃ stressGap cashGap exposureGap, projected = { plan with
      initialTargetSaleValue := some initialValue
      projectedStressGap := some stressGap
      projectedCashGap := some cashGap
      projectedExposureGap := some exposureGap } := by
  unfold projectPlan at h
  obtain ⟨stressGap, -, h⟩ := bind_eq_some.mp h
  obtain ⟨deadlineGap, -, h⟩ := bind_eq_some.mp h
  exact ⟨_, _, _, (Option.some.inj h).symm⟩

/-- A projected plan has the targets that it was asked for. -/
theorem core_of_projectedRoute {initialValue : ℚ}
    (h : projectedRoute ctx steps command handoff obligations initialValue targets = some plan) :
    plan.targets.map ExecutionTarget.core = targets.map ExecutionTarget.core := by
  obtain ⟨routed, hrouted, h⟩ := bind_eq_some.mp h
  obtain ⟨stressGap, cashGap, exposureGap, rfl⟩ := projectPlan_eq h
  have hcore := core_of_routeTargets hrouted
  exact hcore

/-- A target that answers the remediations keeps its sources. -/
theorem tightens_remediated (ids : List String) (target : ExecutionTarget) :
    target.Tightens (remediated ids target) :=
  ⟨rfl, le_rfl, fun _ hid => List.mem_eraseDups.mpr (List.mem_append_left _ hid)⟩

theorem targetsTighten_initialPlan
    (h : initialPlan ctx steps command handoff obligations targets = some initial) :
    TargetsTighten targets initial.targets := by
  obtain ⟨routed, hrouted, h⟩ := bind_eq_some.mp h
  obtain ⟨projected, hprojected, h⟩ := bind_eq_some.mp h
  obtain ⟨_, _, _, rfl⟩ := projectPlan_eq hprojected
  cases h
  refine (TargetsTighten.of_core_eq (core_of_routeTargets hrouted)).trans ?_
  exact List.forall₂_map_right_iff.mpr
    (List.forall₂_same.mpr fun target _ => tightens_remediated _ target)

/-- Selling a fraction of what remains sellable only lowers a target. -/
theorem tightens_tightened {legs : List ExecutionLeg} {fraction : ℚ}
    {target tighter : ExecutionTarget}
    (h : tightened ctx handoff legs fraction target = some tighter) : target.Tightens tighter := by
  obtain ⟨remaining, -, h⟩ := bind_eq_some.mp h
  cases h
  refine ⟨rfl, ?_, fun _ hid => List.mem_eraseDups.mpr (List.mem_append_left _ hid)⟩
  dsimp only
  split
  · exact le_rfl
  · exact min_le_left _ _

/-- Every plan that sells more keeps the targets of the initial one. -/
theorem targetsTighten_allocateFraction {fraction : ℚ}
    (h : allocateFraction ctx steps command handoff obligations initial fraction = some plan) :
    TargetsTighten initial.targets plan.targets := by
  obtain ⟨tighter, htighter, h⟩ := bind_eq_some.mp h
  have hall : TargetsTighten initial.targets tighter :=
    (forall₂_of_mapM_eq_some htighter).imp fun _ _ h => tightens_tightened h
  exact hall.trans (.of_core_eq (core_of_projectedRoute h))

/-- A bisection returns what it started with or one of the plans that it tried. -/
theorem bisectPlan_mem {allocate : ℚ → Option ExecutionPlanOutcome} {n : ℕ} {low high : ℚ}
    {best : ExecutionPlanOutcome} (h : bisectPlan ctx allocate n low high best = some plan) :
    plan = best ∨ ∃ fraction, allocate fraction = some plan ∧ plan.restored := by
  induction n generalizing low high best with
  | zero => exact .inl (Option.some.inj h).symm
  | succ n ih =>
    obtain ⟨candidate, hcandidate, h⟩ := bind_eq_some.mp h
    split at h
    · rename_i hrestored
      rcases ih h with rfl | htried
      · exact .inr ⟨_, hcandidate, hrestored⟩
      · exact .inr htried
    · exact ih h

/-- The plan of a portfolio is its initial plan, one that sells more and leaves no gap, or one
that is blocked. -/
theorem conjoinPortfolioTargets_cases
    (h : conjoinPortfolioTargets ctx steps command handoff targets = some plan) :
    ∃ obligations initial, handoff.unpaidObligations ctx = some obligations ∧
      initialPlan ctx steps command handoff obligations targets = some initial ∧
      ((plan = initial ∧ (initial.routingFailed ∨ initial.restored)) ∨
        (∃ fraction, allocateFraction ctx steps command handoff obligations initial fraction =
          some plan ∧ plan.restored) ∨
        ∃ maximum, allocateFraction ctx steps command handoff obligations initial 1 = some maximum ∧
          ¬ maximum.restored ∧ plan = unrestoredPlan initial maximum) := by
  obtain ⟨obligations, hobligations, h⟩ := bind_eq_some.mp h
  obtain ⟨initial, hinitial, h⟩ := bind_eq_some.mp h
  refine ⟨obligations, initial, hobligations, hinitial, ?_⟩
  split at h
  · rename_i hdone
    exact .inl ⟨(Option.some.inj h).symm, hdone⟩
  · obtain ⟨-, -, h⟩ := bind_eq_some.mp h
    obtain ⟨maximum, hmaximum, h⟩ := bind_eq_some.mp h
    split at h
    · rename_i hrestored
      rcases bisectPlan_mem h with rfl | htried
      · exact .inr (.inl ⟨1, hmaximum, hrestored⟩)
      · exact .inr (.inl htried)
    · rename_i hrestored
      exact .inr (.inr ⟨maximum, hmaximum, hrestored, (Option.some.inj h).symm⟩)

theorem targetsTighten_conjoinPortfolioTargets
    (h : conjoinPortfolioTargets ctx steps command handoff targets = some plan) :
    TargetsTighten targets plan.targets := by
  obtain ⟨obligations, initial, -, hinitial, hcases⟩ := conjoinPortfolioTargets_cases h
  have hkept := targetsTighten_initialPlan hinitial
  rcases hcases with ⟨rfl, -⟩ | ⟨fraction, hallocate, -⟩ | ⟨maximum, hmaximum, -, rfl⟩
  · exact hkept
  · exact hkept.trans (targetsTighten_allocateFraction hallocate)
  · unfold unrestoredPlan
    dsimp only
    split
    · exact hkept
    · exact hkept.trans (targetsTighten_allocateFraction hmaximum)

end Waterfall

end StockProfiler.PositionManagement
