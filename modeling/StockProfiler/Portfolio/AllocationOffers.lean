import Mathlib.Order.Interval.Finset.Nat
import StockProfiler.Portfolio.AllocationReading

/-!
# Plans that the discrete model offers

A plan is offered when an assignment of the variables extends it. The offered plans
are read off the model route by route, and compared with the plans that pass every
exact check.
-/

namespace StockProfiler.Portfolio

open PositionManagement

variable {n m : ℕ} (problem : AllocationProblem n m) (continuous : Principals m)

/-- A quantity is the minimum and no more increments than the target buys whole shares. -/
def CountedLot (route : Fin n) (quantity : ℚ) : Prop :=
  quantity = 0 ∨ ∃ k : ℕ,
    (k : ℚ) ≤ problem.targets (problem.routeMembers route) / problem.price route ∧
      quantity = (problem.routes route).minimumQuantity +
        (problem.routes route).quantityIncrement * k

/-- A plan that the model offers. -/
structure OfferedPlan (quantities : Fin n → ℚ) : Prop where
  lots : ∀ route, CountedLot problem route (quantities route)
  cash : routeSum (expenditure problem (planAmounts problem quantities)) (fun _ => True) ≤
    max 0 problem.cash
  accounts : ∀ account ∈ problem.accountCash,
    routeSum (expenditure problem (planAmounts problem quantities))
      (fun route => (problem.routes route).accountId = account.1) ≤ max 0 account.2
  stress : routeSum (stressLoss problem (planAmounts problem quantities)) (fun _ => True) ≤
    max 0 problem.stressRemaining
  capacities : ∀ capacity ∈ problem.capacities, routeSum (planAmounts problem quantities)
    (fun route => problem.routeMembers route ∈ capacity.members) ≤ max 0 capacity.remaining
  total : routeSum (planAmounts problem quantities) (fun _ => True) ≤ continuousTotal continuous
  targets : ∀ member, memberSum problem (planAmounts problem quantities) member ≤
    memberUpper problem continuous member
  allowance : ∀ route, 0 < quantities route →
    memberSum problem (planAmounts problem quantities) (problem.routeMembers route) ≤
      continuous.amount (problem.routeMembers route) + 2 * problem.minimum route

/-- The least fee of a plan on a route. -/
def leastFee (quantities : Fin n → ℚ) (route : Fin n) : ℚ :=
  if quantities route = 0 then 0
  else max (problem.routes route).minimumCommission
    (planAmounts problem quantities route * (problem.routes route).commissionRatio)

/-- The variables of a plan, with the least fees. -/
def planAssignment (quantities : Fin n → ℚ) : AllocationVariable n m → ℚ
  | .enabled route => if quantities route = 0 then 0 else 1
  | .fee route => leastFee problem quantities route
  | .increments route =>
    if quantities route = 0 then 0
    else (quantities route - (problem.routes route).minimumQuantity) /
      (problem.routes route).quantityIncrement
  | .coverage member =>
    if ∃ route, problem.routeMembers route = member ∧ quantities route ≠ 0 then 1 else 0
  | .threshold _ => 0
  | .slack _ _ => 0

section Offers

variable {problem continuous} {x : AllocationVariable n m → ℚ} {quantities : Fin n → ℚ}

theorem routeSum_le {amounts amounts' : Fin n → ℚ} {p : Fin n → Prop} [DecidablePred p]
    (h : ∀ route, amounts route ≤ amounts' route) (h0 : ∀ route, 0 ≤ amounts' route) :
    routeSum amounts p ≤ routeSum amounts' p :=
  sumWhere_le_sumWhere (fun _ _ hp => hp) (fun route _ _ => h route) fun route _ => h0 route

theorem le_memberSum {amounts : Fin n → ℚ} (h0 : ∀ route, 0 ≤ amounts route) (route : Fin n) :
    amounts route ≤ memberSum problem amounts (problem.routeMembers route) :=
  le_sumWhere (List.mem_finRange route) rfl fun other _ => h0 other

theorem CountedLot.nonneg {route : Fin n} {quantity : ℚ} (h : CountedLot problem route quantity) :
    0 ≤ quantity := by
  rcases h with rfl | ⟨k, -, rfl⟩
  · exact le_rfl
  · exact add_nonneg (problem.routes route).minimumQuantity_pos.le
      (mul_nonneg (problem.routes route).quantityIncrement_pos.le (Nat.cast_nonneg k))

theorem CountedLot.pos {route : Fin n} {quantity : ℚ} (h : CountedLot problem route quantity)
    (hne : quantity ≠ 0) : 0 < quantity :=
  lt_of_le_of_ne h.nonneg hne.symm

theorem planAmounts_nonneg (h : ∀ route, 0 ≤ quantities route) (route : Fin n) :
    0 ≤ planAmounts problem quantities route :=
  mul_nonneg (h route) (problem.price_pos route).le

/-- A route that is not selected buys nothing, and a selected one buys a counted lot. -/
theorem RouteChoice.plan {route : Fin n} (h : RouteChoice problem x route) :
    x (.enabled route) = 0 ∧ planOf problem x route = 0 ∨
      x (.enabled route) = 1 ∧ 0 < planOf problem x route ∧
        CountedLot problem route (planOf problem x route) := by
  have hincrement := (problem.routes route).quantityIncrement_pos
  obtain ⟨k, hk, hle⟩ := h.increments
  rcases h.enabled with hoff | hon
  · have hselected := h.selected
    rw [hoff, mul_zero, hk] at hselected
    have hk0 : (k : ℚ) = 0 :=
      le_antisymm (nonpos_of_mul_nonpos_right hselected hincrement) (Nat.cast_nonneg k)
    refine .inl ⟨hoff, ?_⟩
    rw [planOf, hoff, hk, hk0, mul_zero, mul_zero, add_zero]
  · have hplan : planOf problem x route = (problem.routes route).minimumQuantity +
        (problem.routes route).quantityIncrement * k := by
      rw [planOf, hon, hk, mul_one]
    have hlot : CountedLot problem route (planOf problem x route) := .inr ⟨k, hle, hplan⟩
    refine .inr ⟨hon, ?_, hlot⟩
    rw [hplan]
    exact add_pos_of_pos_of_nonneg (problem.routes route).minimumQuantity_pos
      (mul_nonneg hincrement.le (Nat.cast_nonneg k))

theorem RouteChoice.lot {route : Fin n} (h : RouteChoice problem x route) :
    CountedLot problem route (planOf problem x route) :=
  h.plan.elim (fun hoff => .inl hoff.2) fun hon => hon.2.2

theorem RouteChoice.leastFee_le {route : Fin n} (h : RouteChoice problem x route) :
    leastFee problem (planOf problem x) route ≤ x (.fee route) := by
  have hcommission := h.commission
  unfold leastFee
  rcases h.plan with ⟨hoff, hzero⟩ | ⟨hon, hpos, -⟩
  · rw [if_pos hzero]
    rwa [hoff, mul_zero] at hcommission
  · rw [if_neg hpos.ne']
    rw [hon, mul_one] at hcommission
    exact max_le hcommission h.ratio

/-- What is spent with the least fee is what the plan costs. -/
theorem expenditure_eq (problem : AllocationProblem n m) (quantities : Fin n → ℚ) (route : Fin n) :
    expenditure problem (planAmounts problem quantities) route =
      planAmounts problem quantities route * (1 + (problem.routes route).otherCostRatio) +
        leastFee problem quantities route := by
  have hzero : planAmounts problem quantities route = 0 ↔ quantities route = 0 := by
    rw [planAmounts, mul_eq_zero, or_iff_left (problem.price_pos route).ne']
  unfold expenditure leastFee AcquisitionRoute.cost
  by_cases h : quantities route = 0
  · rw [if_pos h, if_pos (hzero.mpr h), hzero.mpr h, zero_mul]
  · rw [if_neg h, if_neg fun h0 => h (hzero.mp h0), DecimalContext.exact_add,
      DecimalContext.exact_mul, DecimalContext.exact_mul]
    ring

theorem RouteChoice.expenditure_le {route : Fin n} (h : RouteChoice problem x route) :
    expenditure problem (planAmounts problem (planOf problem x)) route ≤
      spending problem x route := by
  rw [expenditure_eq, spending]
  exact add_le_add_right h.leastFee_le _

theorem leastFee_nonneg (quantities : Fin n → ℚ) (route : Fin n) :
    0 ≤ leastFee problem quantities route := by
  unfold leastFee
  split
  · exact le_rfl
  · exact (problem.routes route).minimumCommission_nonneg.trans (le_max_left _ _)

theorem RouteChoice.spending_nonneg {route : Fin n} (h : RouteChoice problem x route) :
    0 ≤ spending problem x route := by
  refine add_nonneg (mul_nonneg ?_ ?_) ((leastFee_nonneg _ route).trans h.leastFee_le)
  · exact mul_nonneg h.lot.nonneg (problem.price_pos route).le
  · exact add_nonneg zero_le_one (problem.routes route).otherCostRatio_mem.1

theorem memberUpper_le (member : Fin m) :
    memberUpper problem continuous member ≤ problem.targets member := by
  unfold memberUpper
  split
  · exact le_rfl
  · exact problem.targets_nonneg member

theorem offered_of_feasible {required : Option (Fin m)}
    (h : (discreteModel problem continuous required).Feasible x) :
    OfferedPlan problem continuous (planOf problem x) := by
  obtain ⟨hroutes, hmembers, hshared, -⟩ := (feasible_discreteModel required).mp h
  refine ⟨fun route => (hroutes route).lot, ?_, fun account haccount => ?_, hshared.stress,
    hshared.capacities, hshared.total, fun member => (hmembers member).target,
    fun route hpos => ?_⟩
  · exact (routeSum_le (fun route => (hroutes route).expenditure_le)
      fun route => (hroutes route).spending_nonneg).trans hshared.cash
  · exact (routeSum_le (fun route => (hroutes route).expenditure_le)
      fun route => (hroutes route).spending_nonneg).trans (hshared.accounts account haccount)
  · have hallowance := (hmembers (problem.routeMembers route)).allowance route rfl
    rcases (hroutes route).plan with ⟨-, hzero⟩ | ⟨hon, -, -⟩
    · exact absurd hzero hpos.ne'
    · rw [hon] at hallowance
      linarith

theorem planOf_planAssignment (problem : AllocationProblem n m) (quantities : Fin n → ℚ) :
    planOf problem (planAssignment problem quantities) = quantities := by
  funext route
  have hincrement := (problem.routes route).quantityIncrement_pos.ne'
  simp only [planOf, planAssignment]
  split
  · rename_i h
    rw [mul_zero, mul_zero, add_zero, h]
  · field_simp
    ring

theorem spending_planAssignment (problem : AllocationProblem n m) (quantities : Fin n → ℚ) :
    spending problem (planAssignment problem quantities) =
      expenditure problem (planAmounts problem quantities) := by
  funext route
  rw [spending, planOf_planAssignment, expenditure_eq]
  rfl

/-- There are finitely many quantities of a route. -/
theorem finite_countedLot (problem : AllocationProblem n m) (route : Fin n) :
    {quantity | CountedLot problem route quantity}.Finite := by
  let bound := problem.targets (problem.routeMembers route) / problem.price route
  let lot : ℕ → ℚ := fun k => (problem.routes route).minimumQuantity +
    (problem.routes route).quantityIncrement * k
  have hlots : (insert 0 (lot '' Set.Iic ⌊bound⌋₊)).Finite :=
    ((Set.finite_Iic _).image lot).insert 0
  refine hlots.subset fun quantity hquantity => ?_
  rcases hquantity with hzero | ⟨k, hk, heq⟩
  · exact .inl hzero
  · exact .inr ⟨k, Nat.le_floor hk, heq.symm⟩

/-- There are finitely many plans that the model offers. -/
theorem finite_offeredPlan (problem : AllocationProblem n m) (continuous : Principals m) :
    {quantities | OfferedPlan problem continuous quantities}.Finite :=
  (Set.Finite.pi' fun route => finite_countedLot problem route).subset fun _ h => h.lots

section

variable (h : OfferedPlan problem continuous quantities)
include h

theorem OfferedPlan.amounts_nonneg (route : Fin n) : 0 ≤ planAmounts problem quantities route :=
  planAmounts_nonneg (fun other => (h.lots other).nonneg) route

theorem OfferedPlan.amount_le (route : Fin n) :
    planAmounts problem quantities route ≤ problem.targets (problem.routeMembers route) :=
  (le_memberSum h.amounts_nonneg route).trans ((h.targets _).trans (memberUpper_le _))

/-- The variables of an offered plan keep every route. -/
theorem OfferedPlan.routeChoice (route : Fin n) :
    RouteChoice problem (planAssignment problem quantities) route := by
  have hincrement := (problem.routes route).quantityIncrement_pos
  have htarget := problem.targets_nonneg (problem.routeMembers route)
  have hprice := problem.price_pos route
  have hplan := planOf_planAssignment problem quantities
  rcases h.lots route with hzero | ⟨k, hk, hlot⟩
  · refine ⟨.inl (if_pos hzero), ⟨0, ?_, ?_⟩, ?_, ?_, ?_⟩
    · rw [Nat.cast_zero]
      exact if_pos hzero
    · rw [Nat.cast_zero]
      exact div_nonneg htarget hprice.le
    · simp [planAssignment, hzero]
    · simp [planAssignment, leastFee, hzero]
    · simp [hplan, planAssignment, leastFee, planAmounts, hzero]
  · have hne : quantities route ≠ 0 := by
      rw [hlot]
      have hmin := (problem.routes route).minimumQuantity_pos
      positivity
    have hcount : planAssignment problem quantities (.increments route) = k := by
      rw [planAssignment, if_neg hne, hlot, add_sub_cancel_left,
        mul_div_cancel_left₀ _ hincrement.ne']
    have hon : planAssignment problem quantities (.enabled route) = 1 := if_neg hne
    have hamount := h.amount_le route
    rw [planAmounts, hlot] at hamount
    refine ⟨.inr hon, ⟨k, hcount, hk⟩, ?_, ?_, ?_⟩
    · rw [hcount, hon, mul_one, le_div_iff₀ hprice]
      have hmin := (problem.minimum_pos route).le
      rw [AllocationProblem.minimum] at hmin
      linarith
    · rw [hon, mul_one]
      exact (le_max_left _ _).trans_eq (if_neg hne).symm
    · rw [hplan]
      exact (le_max_right _ _).trans_eq (if_neg hne).symm

/-- The variables of an offered plan keep every member. -/
theorem OfferedPlan.memberChoice (member : Fin m) :
    MemberChoice problem continuous (planAssignment problem quantities) member := by
  have hplan := planOf_planAssignment problem quantities
  have henabled : ∀ route, 0 ≤ planAssignment problem quantities (.enabled route) := fun route =>
    (h.routeChoice route).enabled.elim (fun hoff => hoff.ge) fun hon => hon ▸ zero_le_one
  refine ⟨?_, hplan.symm ▸ h.targets member, fun route hmember => ?_, ?_, fun route hmember => ?_⟩
  · by_cases hcovered : ∃ route, problem.routeMembers route = member ∧ quantities route ≠ 0
    · exact .inr (if_pos hcovered)
    · exact .inl (if_neg hcovered)
  · subst hmember
    have htarget := h.targets (problem.routeMembers route)
    have hcontinuous := continuous.nonneg (problem.routeMembers route)
    have hminimum := (problem.minimum_pos route).le
    rw [hplan]
    by_cases hzero : quantities route = 0
    · have hoff : planAssignment problem quantities (.enabled route) = 0 := if_pos hzero
      rw [hoff]
      linarith
    · have hon : planAssignment problem quantities (.enabled route) = 1 := if_neg hzero
      have hallowance := h.allowance route ((h.lots route).pos hzero)
      rw [hon]
      linarith
  · by_cases hcovered : ∃ route, problem.routeMembers route = member ∧ quantities route ≠ 0
    · obtain ⟨route, hmember, hne⟩ := id hcovered
      have hon : planAssignment problem quantities (.enabled route) = 1 := if_neg hne
      rw [planAssignment, if_pos hcovered, ← hon, ← hmember]
      exact le_memberSum henabled route
    · rw [planAssignment, if_neg hcovered]
      exact sumWhere_nonneg fun route _ => henabled route
  · by_cases hzero : quantities route = 0
    · rw [planAssignment, if_pos hzero, planAssignment]
      split
      · exact zero_le_one
      · exact le_rfl
    · have hcovered : ∃ route, problem.routeMembers route = member ∧ quantities route ≠ 0 :=
        ⟨route, hmember, hzero⟩
      rw [planAssignment, if_neg hzero, planAssignment, if_pos hcovered]

theorem OfferedPlan.feasible :
    (discreteModel problem continuous none).Feasible (planAssignment problem quantities) := by
  have hplan := planOf_planAssignment problem quantities
  have hspending := spending_planAssignment problem quantities
  refine (feasible_discreteModel none).mpr
    ⟨h.routeChoice, h.memberChoice, ⟨?_, fun account haccount => ?_, ?_, fun capacity hc => ?_, ?_⟩,
      nofun⟩
  · exact hspending.symm ▸ h.cash
  · exact hspending.symm ▸ h.accounts account haccount
  · exact hplan.symm ▸ h.stress
  · exact hplan.symm ▸ h.capacities capacity hc
  · exact hplan.symm ▸ h.total

end

theorem offeredPlan_iff :
    (∃ x, (discreteModel problem continuous none).Feasible x ∧ planOf problem x = quantities) ↔
      OfferedPlan problem continuous quantities := by
  constructor
  · rintro ⟨x, hx, rfl⟩
    exact offered_of_feasible hx
  · intro h
    exact ⟨_, h.feasible, planOf_planAssignment problem quantities⟩

end Offers

end StockProfiler.Portfolio
