import StockProfiler.Portfolio.AllocationOffers
import StockProfiler.Portfolio.AllocationStages

/-!
# What the stages measure

Apart from fees, thresholds and slacks, a feasible assignment is determined by the
plan that it makes, so every objective of a stage is a quantity of the plan.
-/

namespace StockProfiler.Portfolio

open PositionManagement

variable {n m : ℕ} (problem : AllocationProblem n m) (continuous : Principals m)

/-- The variables of routes and members follow a plan, whatever the fees. -/
structure FollowsPlan (quantities : Fin n → ℚ) (x : AllocationVariable n m → ℚ) : Prop where
  enabled : ∀ route, x (.enabled route) = planAssignment problem quantities (.enabled route)
  increments : ∀ route,
    x (.increments route) = planAssignment problem quantities (.increments route)
  coverage : ∀ member, x (.coverage member) = planAssignment problem quantities (.coverage member)

/-- The variables of routes and members follow a plan with the least fees. -/
structure ExtendsPlan (quantities : Fin n → ℚ) (x : AllocationVariable n m → ℚ) : Prop
    extends FollowsPlan problem quantities x where
  fee : ∀ route, x (.fee route) = leastFee problem quantities route

/-- The thresholds and slacks from a size on. -/
def laterVariables (size : ℕ) : Set (AllocationVariable n m)
  | .threshold other => size ≤ other
  | .slack other _ => size ≤ other
  | _ => False

/-- The variables of a plan, with any thresholds and slacks. -/
def withPlan (quantities : Fin n → ℚ) (z : AllocationVariable n m → ℚ) :
    AllocationVariable n m → ℚ
  | .threshold size => z (.threshold size)
  | .slack size member => z (.slack size member)
  | other => planAssignment problem quantities other

/-- A plan that an assignment makes, in which a member may be required. -/
abbrev OfferedBy (required : Option (Fin m)) (quantities : Fin n → ℚ) : Prop :=
  Readable (planOf problem) (discreteModel problem continuous required).Feasible quantities

section Determined

variable {problem continuous} {required : Option (Fin m)} {quantities : Fin n → ℚ}
  {x : AllocationVariable n m → ℚ}

theorem OfferedBy.offered (h : OfferedBy problem continuous required quantities) :
    OfferedPlan problem continuous quantities := by
  obtain ⟨x, hx, rfl⟩ := h
  exact offered_of_feasible hx

/-- A feasible assignment follows the plan that it makes. -/
theorem followsPlan_of_feasible (hx : (discreteModel problem continuous required).Feasible x) :
    FollowsPlan problem (planOf problem x) x := by
  obtain ⟨hroutes, hmembers, -, -⟩ := (feasible_discreteModel required).mp hx
  have henabled : ∀ route,
      x (.enabled route) = if planOf problem x route = 0 then 0 else 1 := by
    intro route
    rcases (hroutes route).plan with ⟨hoff, hzero⟩ | ⟨hon, hpos, -⟩
    · rw [hoff, if_pos hzero]
    · rw [hon, if_neg hpos.ne']
  refine ⟨henabled, fun route => ?_, fun member => ?_⟩
  · have hincrement := (problem.routes route).quantityIncrement_pos
    rcases (hroutes route).plan with ⟨hoff, hzero⟩ | ⟨hon, hpos, -⟩
    · have hselected := hzero
      rw [planOf, hoff, mul_zero, zero_add] at hselected
      rw [planAssignment, if_pos hzero]
      exact (mul_eq_zero.mp hselected).resolve_left hincrement.ne'
    · rw [planAssignment, if_neg hpos.ne', planOf, hon, mul_one, add_sub_cancel_left,
        mul_div_cancel_left₀ _ hincrement.ne']
  · have hmember := hmembers member
    by_cases hcovered : ∃ route, problem.routeMembers route = member ∧ planOf problem x route ≠ 0
    · rw [planAssignment, if_pos hcovered]
      obtain ⟨route, hroute, hne⟩ := hcovered
      have hle := hmember.covers route hroute
      rw [henabled route, if_neg hne] at hle
      rcases hmember.coverage with hoff | hon
      · rw [hoff] at hle
        exact absurd hle (not_le.mpr zero_lt_one)
      · exact hon
    · rw [planAssignment, if_neg hcovered]
      have hnone : memberSum problem (fun route => x (.enabled route)) member = 0 := by
        refine List.sum_eq_zero fun y hy => ?_
        obtain ⟨route, hroute, rfl⟩ := List.mem_map.mp hy
        have hroute := of_decide_eq_true (List.mem_filter.mp hroute).2
        rw [henabled route, if_pos (not_not.mp fun hne => hcovered ⟨route, hroute, hne⟩)]
      have hle := hmember.covered
      rw [hnone] at hle
      rcases hmember.coverage with hoff | hon
      · exact hoff
      · rw [hon] at hle
        exact absurd hle (not_le.mpr zero_lt_one)

theorem FollowsPlan.planOf_eq (h : FollowsPlan problem quantities x) :
    planOf problem x = quantities := by
  rw [← planOf_planAssignment problem quantities]
  funext route
  rw [planOf, h.enabled, h.increments, planOf]

/-- An offered plan is extended by an assignment with any thresholds and slacks. -/
theorem OfferedBy.feasible_withPlan (h : OfferedBy problem continuous required quantities)
    (z : AllocationVariable n m → ℚ) :
    (discreteModel problem continuous required).Feasible (withPlan problem quantities z) := by
  obtain ⟨x, hx, rfl⟩ := id h
  obtain ⟨hroutes, hmembers, hshared, -⟩ :=
    (feasible_discreteModel none).mp h.offered.feasible
  refine (feasible_discreteModel required).mpr ⟨fun route => ?_, fun member => ?_, ?_, ?_⟩
  · obtain ⟨henabled, hincrements, hselected, hcommission, hratio⟩ := hroutes route
    exact ⟨henabled, hincrements, hselected, hcommission, hratio⟩
  · obtain ⟨hcoverage, htarget, hallowance, hcovered, hcovers⟩ := hmembers member
    exact ⟨hcoverage, htarget, hallowance, hcovered, hcovers⟩
  · obtain ⟨hcash, haccounts, hstress, hcapacities, htotal⟩ := hshared
    exact ⟨hcash, haccounts, hstress, hcapacities, htotal⟩
  · intro member hmember
    have hcoverage := (followsPlan_of_feasible hx).coverage member
    exact (((feasible_discreteModel required).mp hx).2.2.2 member hmember).trans_eq hcoverage

theorem staged_start (size : ℕ) :
    Staged (planOf problem) (discreteModel problem continuous required).Feasible
      (ExtendsPlan problem) (discreteModel problem continuous required)
        (laterVariables size) [] := by
  refine Staged.start (fun _ hx => hx) fun quantities h z =>
    ⟨withPlan problem quantities z, OfferedBy.feasible_withPlan h z, ⟨⟨?_, ?_, ?_⟩, ?_⟩, ?_⟩
  · exact fun route => rfl
  · exact fun route => rfl
  · exact fun member => rfl
  · exact fun route => rfl
  · intro v hv
    cases v with
    | threshold size => rfl
    | slack size member => rfl
    | enabled route => exact hv.elim
    | fee route => exact hv.elim
    | increments route => exact hv.elim
    | coverage member => exact hv.elim

theorem OfferedPlan.covered_iff (h : OfferedPlan problem continuous quantities) (member : Fin m) :
    (∃ route, problem.routeMembers route = member ∧ quantities route ≠ 0) ↔
      0 < memberSum problem (planAmounts problem quantities) member := by
  constructor
  · rintro ⟨route, rfl, hne⟩
    have hpos : 0 < planAmounts problem quantities route :=
      mul_pos ((h.lots route).pos hne) (problem.price_pos route)
    exact hpos.trans_le (le_memberSum h.amounts_nonneg route)
  · intro hpos
    by_contra hnone
    refine absurd hpos (not_lt.mpr (le_of_eq (List.sum_eq_zero fun y hy => ?_)))
    obtain ⟨route, hroute, rfl⟩ := List.mem_map.mp hy
    have hroute := of_decide_eq_true (List.mem_filter.mp hroute).2
    have hzero : quantities route = 0 := not_not.mp fun hne => hnone ⟨route, hroute, hne⟩
    rw [planAmounts, hzero, zero_mul]

namespace FollowsPlan

variable (h : FollowsPlan problem quantities x)
  (hoffered : OfferedPlan problem continuous quantities)
include h

theorem value_totalTerms :
    (sumTerms (amountTerms problem) fun _ => True).value x =
      routeSum (planAmounts problem quantities) fun _ => True := by
  rw [value_sum_amountTerms, h.planOf_eq]

theorem value_amountTerms (route : Fin n) :
    (amountTerms problem route).value x = planAmounts problem quantities route := by
  rw [StockProfiler.Portfolio.value_amountTerms, h.planOf_eq]

include hoffered

theorem coverage_eq (member : Fin m) :
    x (.coverage member) =
      if 0 < memberSum problem (planAmounts problem quantities) member then 1 else 0 := by
  rw [h.coverage, planAssignment]
  exact if_congr (hoffered.covered_iff member) rfl rfl

theorem value_coverageTerms :
    coverageTerms.value x = ((coveredMembers problem quantities).length : ℚ) := by
  rw [coverageTerms, Linear.value_map, one_mul, coveredMembers, ← sum_map_ite_one]
  exact congrArg List.sum (List.map_congr_left fun member _ => h.coverage_eq hoffered member)

theorem value_probabilityTerms (probability : ℚ) :
    (probabilityTerms problem probability).value x =
      -((coveredProbabilities problem quantities).count probability : ℚ) := by
  have hcount : (coveredProbabilities problem quantities).count probability =
      (((List.finRange m).filter (problem.probabilities · = probability)).filter
        fun member => 0 < memberSum problem (planAmounts problem quantities) member).length := by
    rw [coveredProbabilities, (List.perm_insertionSort _ _).count_eq, List.count_eq_countP,
      List.countP_map, coveredMembers, List.countP_filter, List.countP_eq_length_filter,
      List.filter_filter]
    exact congrArg List.length (List.filter_congr fun member _ => Bool.and_comm _ _)
  rw [probabilityTerms, Linear.value_map, hcount, ← sum_map_ite_one, neg_one_mul]
  exact congrArg (fun ys => -List.sum ys)
    (List.map_congr_left fun member _ => h.coverage_eq hoffered member)

theorem value_orderTerms :
    orderTerms.value x = -(((List.finRange n).countP (0 < quantities ·) : ℕ) : ℚ) := by
  rw [orderTerms, Linear.value_map, neg_one_mul, List.countP_eq_length_filter, ← sum_map_ite_one]
  refine congrArg (fun ys => -List.sum ys) (List.map_congr_left fun route _ => ?_)
  rw [h.enabled, planAssignment]
  by_cases hzero : quantities route = 0
  · rw [if_pos hzero, if_neg (by rw [hzero]; exact lt_irrefl 0)]
  · rw [if_neg hzero, if_pos ((hoffered.lots route).pos hzero)]

end FollowsPlan

theorem value_costTerms (x : AllocationVariable n m → ℚ) :
    (costTerms problem).value x = -routeSum (fun route =>
      planAmounts problem (planOf problem x) route * (problem.routes route).otherCostRatio +
        x (.fee route)) fun _ => True := by
  have hroute : ∀ route, Linear.value (((amountTerms problem route).scale
      (-(problem.routes route).otherCostRatio)).set (.fee route) (-1)) x =
      -(planAmounts problem (planOf problem x) route * (problem.routes route).otherCostRatio +
        x (.fee route)) := by
    intro route
    have hfee : Linear.coefficient ((amountTerms problem route).scale
        (-(problem.routes route).otherCostRatio)) (.fee route) = 0 := rfl
    rw [Linear.value_set, hfee, Linear.value_scale, StockProfiler.Portfolio.value_amountTerms]
    ring
  rw [costTerms, Linear.value_total, List.map_map, routeSum, ← sumWhere_neg, sumWhere_true]
  exact congrArg List.sum (List.map_congr_left fun route _ => hroute route)

theorem cost_eq (quantities : Fin n → ℚ) (route : Fin n) :
    (problem.routes route).cost .exact (planAmounts problem quantities route) =
      planAmounts problem quantities route * (problem.routes route).otherCostRatio +
        leastFee problem quantities route := by
  have hexpenditure := expenditure_eq problem quantities route
  rw [expenditure] at hexpenditure
  linarith

end Determined

end StockProfiler.Portfolio
