import StockProfiler.Portfolio.AllocationModel

/-!
# Reading the discrete model

What a feasible assignment says of every route and member. The row that allows a
member one minimum buy beyond its continuous principal counts the minimum buy of
the selected route away, so it allows two.
-/

namespace StockProfiler.Portfolio

open PositionManagement

variable {n m : ℕ} (problem : AllocationProblem n m) (continuous : Principals m)
  (x : AllocationVariable n m → ℚ)

/-- What an assignment says of a route. -/
structure RouteChoice (route : Fin n) : Prop where
  enabled : x (.enabled route) = 0 ∨ x (.enabled route) = 1
  increments : ∃ k : ℕ, x (.increments route) = k ∧
    (k : ℚ) ≤ problem.targets (problem.routeMembers route) / problem.price route
  selected : (problem.routes route).quantityIncrement * x (.increments route) ≤
    problem.targets (problem.routeMembers route) / problem.price route * x (.enabled route)
  commission : (problem.routes route).minimumCommission * x (.enabled route) ≤ x (.fee route)
  ratio : planAmounts problem (planOf problem x) route * (problem.routes route).commissionRatio ≤
    x (.fee route)

/-- What an assignment says of a member. -/
structure MemberChoice (member : Fin m) : Prop where
  coverage : x (.coverage member) = 0 ∨ x (.coverage member) = 1
  target : memberSum problem (planAmounts problem (planOf problem x)) member ≤
    memberUpper problem continuous member
  allowance : ∀ route, problem.routeMembers route = member →
    memberSum problem (planAmounts problem (planOf problem x)) member +
        (memberUpper problem continuous member - problem.minimum route) * x (.enabled route) ≤
      memberUpper problem continuous member + continuous.amount member + problem.minimum route
  covered : x (.coverage member) ≤ memberSum problem (fun route => x (.enabled route)) member
  covers : ∀ route, problem.routeMembers route = member →
    x (.enabled route) ≤ x (.coverage member)

/-- What an assignment spends on a route. -/
def spending (route : Fin n) : ℚ :=
  planAmounts problem (planOf problem x) route * (1 + (problem.routes route).otherCostRatio) +
    x (.fee route)

/-- The sums that an assignment keeps. -/
structure SharedChoice : Prop where
  cash : routeSum (spending problem x) (fun _ => True) ≤ max 0 problem.cash
  accounts : ∀ account ∈ problem.accountCash, routeSum (spending problem x)
    (fun route => (problem.routes route).accountId = account.1) ≤ max 0 account.2
  stress : routeSum (stressLoss problem (planAmounts problem (planOf problem x)))
    (fun _ => True) ≤ max 0 problem.stressRemaining
  capacities : ∀ capacity ∈ problem.capacities,
    routeSum (planAmounts problem (planOf problem x))
      (fun route => problem.routeMembers route ∈ capacity.members) ≤ max 0 capacity.remaining
  total : routeSum (planAmounts problem (planOf problem x)) (fun _ => True) ≤
    continuousTotal continuous

section Values

variable {problem continuous x}

theorem AllocationProblem.price_pos (problem : AllocationProblem n m) (route : Fin n) :
    0 < problem.price route := by
  obtain ⟨price, hprice⟩ := Option.isSome_iff_exists.mp (problem.priceCap_isSome route)
  rw [AllocationProblem.price, hprice]
  exact (problem.routes route).priceCap_pos price hprice

theorem AllocationProblem.minimum_pos (problem : AllocationProblem n m) (route : Fin n) :
    0 < problem.minimum route :=
  mul_pos (problem.routes route).minimumQuantity_pos (problem.price_pos route)

variable (route : Fin n)

theorem value_amountTerms :
    (amountTerms problem route).value x = planAmounts problem (planOf problem x) route := by
  simp only [amountTerms, Linear.value_cons, Linear.value_nil, planAmounts, planOf,
    AllocationProblem.minimum]
  ring

theorem value_sumTerms (terms : Fin n → AllocationTerms n m) (p : Fin n → Prop) [DecidablePred p] :
    (sumTerms terms p).value x = routeSum (fun route => (terms route).value x) p := by
  rw [sumTerms, Linear.value_total, List.map_map]
  rfl

theorem value_sum_amountTerms (p : Fin n → Prop) [DecidablePred p] :
    (sumTerms (amountTerms problem) p).value x =
      routeSum (planAmounts problem (planOf problem x)) p := by
  simp only [value_sumTerms, value_amountTerms]

theorem value_expenditureTerms :
    (expenditureTerms problem route).value x = spending problem x route := by
  have hfee : Linear.coefficient ((amountTerms problem route).scale
      (1 + (problem.routes route).otherCostRatio)) (.fee route) = 0 := rfl
  rw [expenditureTerms, Linear.value_set, hfee, Linear.value_scale, value_amountTerms, spending]
  ring

theorem value_stressTerms :
    (stressTerms problem route).value x =
      stressLoss problem (planAmounts problem (planOf problem x)) route := by
  rw [stressTerms, Linear.value_scale, value_amountTerms]
  rfl

theorem coefficient_memberTerms {route : Fin n} {member : Fin m}
    (h : problem.routeMembers route = member) :
    (memberTerms problem member).coefficient (.enabled route) = problem.minimum route := by
  have hterms : ∀ other : Fin n,
      sumWhere (amountTerms problem other) Prod.snd (·.1 = .enabled route) =
        if route = other then problem.minimum route else 0 := by
    intro other
    by_cases heq : route = other
    · subst heq
      simp [amountTerms, sumWhere_cons]
    · have hne : other ≠ route := Ne.symm heq
      simp [amountTerms, sumWhere_cons, heq, hne]
  have hkeys : ((List.finRange n).map fun other => other).Nodup := by
    rw [List.map_id']
    exact List.nodup_finRange n
  rw [memberTerms, sumTerms, Linear.coefficient_total, List.map_map]
  calc (((List.finRange n).filter (problem.routeMembers · = member)).map
        ((sumWhere · Prod.snd (·.1 = .enabled route)) ∘ amountTerms problem)).sum
      = sumWhere (List.finRange n) (fun other => if route = other then problem.minimum route else 0)
          (problem.routeMembers · = member) := by
        rw [sumWhere]
        exact congrArg List.sum (List.map_congr_left fun other _ => hterms other)
    _ = if problem.routeMembers route = member then problem.minimum route else 0 :=
        sumWhere_key_eq hkeys _ (List.mem_finRange route) _
    _ = problem.minimum route := if_pos h

theorem value_allowance {route : Fin n} {member : Fin m} (h : problem.routeMembers route = member)
    (upper : ℚ) :
    Linear.value ((memberTerms problem member).set (.enabled route) upper) x =
      memberSum problem (planAmounts problem (planOf problem x)) member +
        (upper - problem.minimum route) * x (.enabled route) := by
  rw [Linear.value_set, coefficient_memberTerms h, memberTerms, value_sum_amountTerms]
  rfl

theorem value_commissionTerms :
    (Linear.overlay [(.fee route, 1)] ((amountTerms problem route).scale
      (-(problem.routes route).commissionRatio))).value x = x (.fee route) -
        planAmounts problem (planOf problem x) route * (problem.routes route).commissionRatio := by
  rw [Linear.overlay_of_disjoint]
  · rw [Linear.value_append, Linear.value_scale, value_amountTerms, Linear.value_cons,
      Linear.value_nil]
    ring
  · simp [Linear.scale, amountTerms]
  · simp [Linear.scale, amountTerms, Dict.get?_cons]

theorem value_coverageTerms (member : Fin m) :
    (Linear.overlay [(.coverage member, 1)] ((memberRouteIndices problem member).map
      fun route => (AllocationVariable.enabled route, (-1 : ℚ)))).value x =
      x (.coverage member) - memberSum problem (fun route => x (.enabled route)) member := by
  rw [Linear.overlay_of_disjoint]
  · rw [Linear.value_append, Linear.value_map, Linear.value_cons, Linear.value_nil, memberSum,
      routeSum, sumWhere, memberRouteIndices]
    ring
  · rw [List.map_map]
    refine ((List.nodup_finRange n).filter _).map fun a b h => ?_
    exact AllocationVariable.enabled.inj h
  · intro t ht
    obtain ⟨route, -, rfl⟩ := List.mem_map.mp ht
    rfl

/-- The columns and rows of a route admit its choices and no others. -/
theorem routeChoice_iff :
    ((∀ column ∈ routeColumns problem route, column.Admits x) ∧
      ∀ row ∈ routeRows problem route, row.Holds x) ↔ RouteChoice problem x route := by
  simp only [routeColumns, routeRows, List.forall_mem_cons, Row.holds_upper, Row.holds_lower,
    value_commissionTerms, Linear.value_cons, Linear.value_nil, Column.admits_binary]
  constructor
  · rintro ⟨⟨henabled, -, hincrements, -⟩, hselected, hcommission, hratio, -⟩
    obtain ⟨k, hk⟩ := exists_natCast (hincrements.2.2 rfl) hincrements.1
    refine ⟨henabled, ⟨k, hk, hk ▸ hincrements.2.1 _ rfl⟩, ?_, ?_, ?_⟩
    · linarith
    · linarith
    · linarith
  · rintro ⟨henabled, ⟨k, hk, hle⟩, hselected, hcommission, hratio⟩
    have hselection : 0 ≤ x (.enabled route) := by
      rcases henabled with h | h <;> simp [h]
    have hfee : 0 ≤ x (.fee route) :=
      (mul_nonneg (problem.routes route).minimumCommission_nonneg hselection).trans hcommission
    refine ⟨⟨henabled, ⟨hfee, nofun, nofun⟩, ⟨?_, ?_, ?_⟩, nofun⟩, ?_, ?_, ?_, nofun⟩
    · exact hk ▸ Nat.cast_nonneg k
    · intro bound hbound
      rw [hk, ← Option.some.inj hbound]
      exact hle
    · intro
      rw [hk]
      rfl
    · linarith
    · linarith
    · linarith

theorem memberChoice_iff (member : Fin m) :
    (Column.Admits ⟨.coverage member, some 1, true⟩ x ∧
      ∀ row ∈ memberRows problem continuous member, row.Holds x) ↔
      MemberChoice problem continuous x member := by
  have hroutes : ∀ {route : Fin n}, route ∈ memberRouteIndices problem member ↔
      problem.routeMembers route = member := by
    intro route
    simp [memberRouteIndices]
  simp only [memberRows, List.forall_mem_cons, List.forall_mem_append, List.forall_mem_map,
    Row.holds_upper, Linear.value_cons, Linear.value_nil, Column.admits_binary, hroutes,
    value_coverageTerms]
  constructor
  · rintro ⟨hcoverage, ⟨htarget, hallowance⟩, hcovered, hcovers⟩
    rw [memberTerms, value_sum_amountTerms] at htarget
    refine ⟨hcoverage, htarget, fun route h => ?_, by linarith, fun route h => ?_⟩
    · exact value_allowance h (memberUpper problem continuous member) ▸ hallowance route h
    · linarith [hcovers route h]
  · rintro ⟨hcoverage, htarget, hallowance, hcovered, hcovers⟩
    refine ⟨hcoverage, ⟨?_, fun route h => ?_⟩, by linarith, fun route h => ?_⟩
    · rwa [memberTerms, value_sum_amountTerms]
    · rw [value_allowance h]
      exact hallowance route h
    · linarith [hcovers route h]

/-- An assignment is feasible when it keeps every route, member and sum. -/
theorem feasible_discreteModel (required : Option (Fin m)) :
    (discreteModel problem continuous required).Feasible x ↔
      (∀ route, RouteChoice problem x route) ∧
        (∀ member, MemberChoice problem continuous x member) ∧
        SharedChoice problem continuous x ∧ ∀ member ∈ required, 1 ≤ x (.coverage member) := by
  simp only [LinearModel.Feasible, discreteModel, baseModel, List.forall_mem_append,
    List.forall_mem_map, List.forall_mem_cons, List.forall_mem_flatMap, Row.holds_upper,
    Row.holds_lower, ← routeChoice_iff, ← memberChoice_iff, value_sumTerms, value_amountTerms,
    value_expenditureTerms, value_stressTerms]
  have hrequired : ∀ member : Fin m,
      Linear.value [(AllocationVariable.coverage member, (1 : ℚ))] x = x (.coverage member) := by
    intro member
    rw [Linear.value_cons, Linear.value_nil, one_mul, add_zero]
  constructor
  · rintro ⟨⟨hroutes, hmembers⟩,
      ⟨⟨⟨⟨⟨⟨hrouteRows, hcash, -⟩, haccounts⟩, hstress, -⟩, hcapacities⟩, hmemberRows⟩, htotal,
        hmember⟩⟩
    refine ⟨fun route => ⟨hroutes route (List.mem_finRange route),
      hrouteRows route (List.mem_finRange route)⟩, fun member =>
      ⟨hmembers member (List.mem_finRange member), hmemberRows member (List.mem_finRange member)⟩,
      ⟨hcash, haccounts, hstress, hcapacities, htotal⟩, fun member h => ?_⟩
    exact hrequired member ▸ hmember member (Option.mem_toList.mpr h)
  · rintro ⟨hroutes, hmembers, ⟨hcash, haccounts, hstress, hcapacities, htotal⟩, hmember⟩
    refine ⟨⟨fun route _ => (hroutes route).1, fun member _ => (hmembers member).1⟩,
      ⟨⟨⟨⟨⟨⟨fun route _ => (hroutes route).2, hcash, nofun⟩, haccounts⟩, hstress, nofun⟩,
        hcapacities⟩, fun member _ => (hmembers member).2⟩, htotal, fun member h => ?_⟩⟩
    exact (hrequired member).symm ▸ hmember member (Option.mem_toList.mp h)

end Values

end StockProfiler.Portfolio
