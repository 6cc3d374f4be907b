import Mathlib.Data.Fin.VecNotation
import StockProfiler.Portfolio.AllocationOffers

/-!
# When the discrete model is exact

The model bounds the increments of a route by the shares that the target buys, and
allows a member two minimum buys beyond its continuous principal. It offers exactly
the plans that pass every exact check when neither bound decides about any plan.
-/

namespace StockProfiler.Portfolio

open PositionManagement

variable {n m : ℕ} {problem : AllocationProblem n m} {continuous : Principals m}
  {quantities quantities' : Fin n → ℚ}

section Monotone

theorem cost_le {route : AcquisitionRoute} {amount amount' : ℚ} (h0 : 0 ≤ amount)
    (hle : amount ≤ amount') : route.cost .exact amount ≤ route.cost .exact amount' := by
  have hnonneg : ∀ {a : ℚ}, 0 ≤ a →
      0 ≤ max route.minimumCommission (a * route.commissionRatio) + a * route.otherCostRatio :=
    fun ha => add_nonneg (route.minimumCommission_nonneg.trans (le_max_left _ _))
      (mul_nonneg ha route.otherCostRatio_mem.1)
  unfold AcquisitionRoute.cost
  by_cases hzero : amount = 0
  · rw [if_pos hzero]
    split
    · exact le_rfl
    · exact hnonneg (h0.trans hle)
  · have hne : amount' ≠ 0 := (lt_of_lt_of_le (lt_of_le_of_ne h0 (Ne.symm hzero)) hle).ne'
    rw [if_neg hzero, if_neg hne]
    exact add_le_add
      (max_le_max le_rfl (mul_le_mul_of_nonneg_right hle route.commissionRatio_mem.1))
      (mul_le_mul_of_nonneg_right hle route.otherCostRatio_mem.1)

theorem cost_nonneg {route : AcquisitionRoute} {amount : ℚ} (h : 0 ≤ amount) :
    0 ≤ route.cost .exact amount :=
  (if_pos rfl : route.cost .exact 0 = 0).symm.trans_le (cost_le le_rfl h)

/-- A plan buys no more than another on any route. -/
structure Within (problem : AllocationProblem n m) (quantities quantities' : Fin n → ℚ) :
    Prop where
  nonneg : ∀ route, 0 ≤ quantities route
  le : ∀ route, quantities route ≤ quantities' route
  lots : ∀ route, LegalLot (problem.routes route) (quantities route)

section

variable (h : Within problem quantities quantities')
include h

theorem Within.amounts_le (route : Fin n) :
    planAmounts problem quantities route ≤ planAmounts problem quantities' route :=
  mul_le_mul_of_nonneg_right (h.le route) (problem.price_pos route).le

theorem Within.amounts_nonneg (route : Fin n) : 0 ≤ planAmounts problem quantities route :=
  planAmounts_nonneg h.nonneg route

theorem Within.sum_le (p : Fin n → Prop) [DecidablePred p] :
    routeSum (planAmounts problem quantities) p ≤ routeSum (planAmounts problem quantities') p :=
  routeSum_le h.amounts_le fun route => (h.amounts_nonneg route).trans (h.amounts_le route)

theorem Within.expenditure_le (p : Fin n → Prop) [DecidablePred p] :
    routeSum (expenditure problem (planAmounts problem quantities)) p ≤
      routeSum (expenditure problem (planAmounts problem quantities')) p := by
  refine routeSum_le (fun route => ?_) fun route => ?_
  · exact add_le_add (h.amounts_le route) (cost_le (h.amounts_nonneg route) (h.amounts_le route))
  · have h0 := (h.amounts_nonneg route).trans (h.amounts_le route)
    exact add_nonneg h0 (cost_nonneg h0)

end

theorem stressRatio_nonneg (route : Fin n) :
    0 ≤ problem.shock + (problem.routes route).disposalFrictionRatio :=
  add_nonneg problem.shock_pos.le (problem.routes route).disposalFrictionRatio_mem.1

theorem Within.stress_le (h : Within problem quantities quantities') :
    routeSum (stressLoss problem (planAmounts problem quantities)) (fun _ => True) ≤
      routeSum (stressLoss problem (planAmounts problem quantities')) (fun _ => True) :=
  routeSum_le
    (fun route => mul_le_mul_of_nonneg_right (h.amounts_le route) (stressRatio_nonneg route))
    fun route => mul_nonneg ((h.amounts_nonneg route).trans (h.amounts_le route))
      (stressRatio_nonneg route)

theorem AffordablePlan.mono (h : AffordablePlan problem continuous quantities')
    (hwithin : Within problem quantities quantities') :
    AffordablePlan problem continuous quantities := by
  obtain ⟨⟨-, hcash, haccounts, hcapacities, hstress⟩, -, htotal⟩ := h
  refine ⟨⟨⟨fun member => ?_, hwithin.amounts_nonneg⟩, ?_, ?_, ?_, ?_⟩, hwithin.lots, ?_⟩
  · exact sumWhere_nonneg fun route _ => hwithin.amounts_nonneg route
  · exact (hwithin.expenditure_le _).trans hcash
  · exact fun account haccount => (hwithin.expenditure_le _).trans (haccounts account haccount)
  · intro capacity hcapacity
    refine (List.sum_le_sum fun member _ => ?_).trans (hcapacities capacity hcapacity)
    exact hwithin.sum_le _
  · exact hwithin.stress_le.trans hstress
  · exact (hwithin.sum_le _).trans htotal

/-- The least minimum buy is that of a selected route, and at most that of every one. -/
theorem minimumUnit_spec (problem : AllocationProblem n m) {route : Fin n}
    (hpos : 0 < quantities route) :
    (∃ chosen, problem.routeMembers chosen = problem.routeMembers route ∧ 0 < quantities chosen ∧
      minimumUnit problem (problem.routeMembers route) quantities = problem.minimum chosen) ∧
    minimumUnit problem (problem.routeMembers route) quantities ≤ problem.minimum route := by
  have hmem : problem.minimum route ∈ ((List.finRange n).filter fun other =>
      problem.routeMembers other = problem.routeMembers route ∧
        0 < quantities other).map problem.minimum :=
    List.mem_map_of_mem
      (List.mem_filter.mpr ⟨List.mem_finRange route, decide_eq_true ⟨rfl, hpos⟩⟩)
  obtain ⟨unit, hunit⟩ := Option.isSome_iff_exists.mp (List.isSome_min?_of_mem hmem)
  rw [minimumUnit, hunit, Option.getD_some]
  constructor
  · obtain ⟨chosen, hchosen, rfl⟩ := List.mem_map.mp (List.min?_mem hunit)
    obtain ⟨hmember, hselected⟩ := of_decide_eq_true (List.mem_filter.mp hchosen).2
    exact ⟨chosen, hmember, hselected, rfl⟩
  · exact (List.min?_eq_some_iff.mp hunit).2 _ hmem

theorem minimumUnit_nonneg (member : Fin m) : 0 ≤ minimumUnit problem member quantities := by
  unfold minimumUnit
  cases h : (((List.finRange n).filter fun route =>
    problem.routeMembers route = member ∧ 0 < quantities route).map problem.minimum).min? with
  | none => exact le_rfl
  | some unit =>
    obtain ⟨route, -, rfl⟩ := List.mem_map.mp (List.min?_mem h)
    exact (problem.minimum_pos route).le

/-- A member of which nothing is bought has no principal. -/
theorem memberSum_eq_zero {member : Fin m}
    (h : ∀ route, problem.routeMembers route = member → quantities route = 0) :
    memberSum problem (planAmounts problem quantities) member = 0 := by
  refine List.sum_eq_zero fun x hx => ?_
  obtain ⟨route, hroute, rfl⟩ := List.mem_map.mp hx
  rw [planAmounts, h route (of_decide_eq_true (List.mem_filter.mp hroute).2), zero_mul]

theorem LegalPlan.mono (h : LegalPlan problem continuous quantities')
    (hwithin : Within problem quantities quantities') :
    LegalPlan problem continuous quantities := by
  refine ⟨h.1.mono hwithin, fun member => ?_⟩
  have hle := (hwithin.sum_le (problem.routeMembers · = member)).trans (h.2 member)
  unfold discretePrincipalCeiling at hle ⊢
  by_cases hfunded : 0 < continuous.amount member
  · rw [if_pos hfunded] at hle ⊢
    by_cases hselected : ∃ route, problem.routeMembers route = member ∧ 0 < quantities route
    · obtain ⟨route, rfl, hpos⟩ := hselected
      obtain ⟨⟨chosen, hmember, hchosen, hunit⟩, -⟩ := minimumUnit_spec problem hpos
      obtain ⟨-, hsmaller⟩ := minimumUnit_spec problem (hchosen.trans_le (hwithin.le chosen))
      rw [hmember] at hsmaller
      refine hle.trans (min_le_min le_rfl (add_le_add_right ?_ _))
      exact hunit ▸ hsmaller
    · have hzero : memberSum problem (planAmounts problem quantities) member = 0 := by
        refine memberSum_eq_zero fun route hroute => ?_
        exact le_antisymm (not_lt.mp fun hpos => hselected ⟨route, hroute, hpos⟩)
          (hwithin.nonneg route)
      exact hzero.trans_le (le_min (problem.targets_nonneg member)
        (add_nonneg (continuous.nonneg member) (minimumUnit_nonneg member)))
  · rw [if_neg hfunded] at hle ⊢
    exact hle

end Monotone

/-- A plan that buys on a single route. -/
def buyOnly (route : Fin n) (quantity : ℚ) (other : Fin n) : ℚ :=
  if other = route then quantity else 0

/-- One more increment on a route than its target buys whole shares. -/
def fineQuantity (problem : AllocationProblem n m) (route : Fin n) : ℚ :=
  (problem.routes route).minimumQuantity + (problem.routes route).quantityIncrement *
    (⌊problem.targets (problem.routeMembers route) / problem.price route⌋₊ + 1 : ℕ)

/-- No cash is overdrawn, no route alone can be bought in more increments than its target buys
shares, and no affordable purchase of one member exceeds its continuous principal by more than
one minimum buy and at most two. -/
structure ExactModel (problem : AllocationProblem n m) (continuous : Principals m) : Prop where
  cash : 0 ≤ problem.cash
  accounts : ∀ account ∈ problem.accountCash, 0 ≤ account.2
  stress : 0 ≤ problem.stressRemaining
  increments : ∀ route, ¬LegalPlan problem continuous (buyOnly route (fineQuantity problem route))
  allowance : ∀ member quantities,
    (∀ route, problem.routeMembers route ≠ member → quantities route = 0) →
    (∀ route, CountedLot problem route (quantities route)) →
    AffordablePlan problem continuous quantities →
    memberSum problem (planAmounts problem quantities) member ≤
      memberUpper problem continuous member →
    memberSum problem (planAmounts problem quantities) member ≤
      continuous.amount member + 2 * minimumUnit problem member quantities →
    memberSum problem (planAmounts problem quantities) member ≤
      continuous.amount member + minimumUnit problem member quantities

section Exactness

theorem sum_memberSum (capacity : Capacity m) (amounts : Fin n → ℚ) :
    (capacity.members.map (memberSum problem amounts)).sum =
      routeSum amounts (fun route => problem.routeMembers route ∈ capacity.members) := by
  have hkeys : (capacity.members.map fun member => member).Nodup := by
    rw [List.map_id']
    exact capacity.members_nodup
  have hfiber : sumWhere capacity.members (fun member => sumWhere
        ((List.finRange n).filter (problem.routeMembers · ∈ capacity.members)) amounts
        fun route => problem.routeMembers route = member) (fun _ => True) =
      sumWhere ((List.finRange n).filter (problem.routeMembers · ∈ capacity.members)) amounts
        fun _ => True :=
    sumWhere_fiber hkeys _ problem.routeMembers fun route hroute =>
      of_decide_eq_true (List.mem_filter.mp hroute).2
  rw [sumWhere_true, sumWhere_true] at hfiber
  refine (congrArg List.sum (List.map_congr_left fun member hmember => ?_)).trans hfiber
  rw [sumWhere_filter]
  refine sumWhere_congr (fun route _ => ⟨fun h => ⟨h ▸ hmember, h⟩, And.right⟩) fun _ _ _ => rfl

theorem LegalLot.exists_count {route : AcquisitionRoute} {quantity : ℚ}
    (h : LegalLot route quantity) (hpos : 0 < quantity) :
    ∃ k : ℕ, quantity = route.minimumQuantity + route.quantityIncrement * k := by
  obtain ⟨hle, hden⟩ := h hpos
  obtain ⟨k, hk⟩ := exists_natCast hden
    (div_nonneg (sub_nonneg.mpr hle) route.quantityIncrement_pos.le)
  refine ⟨k, ?_⟩
  rw [← hk, mul_div_cancel₀ _ route.quantityIncrement_pos.ne']
  ring

theorem legalLot_count (route : AcquisitionRoute) (k : ℕ) :
    LegalLot route (route.minimumQuantity + route.quantityIncrement * k) := by
  refine fun _ => ⟨le_add_of_nonneg_right
    (mul_nonneg route.quantityIncrement_pos.le (Nat.cast_nonneg k)), ?_⟩
  rw [add_sub_cancel_left, mul_div_cancel_left₀ _ route.quantityIncrement_pos.ne']
  rfl

theorem CountedLot.legal {route : Fin n} {quantity : ℚ}
    (h : CountedLot problem route quantity) : LegalLot (problem.routes route) quantity := by
  rcases h with rfl | ⟨k, -, rfl⟩
  · exact fun hpos => absurd hpos (lt_irrefl 0)
  · exact legalLot_count _ k

theorem LegalPlan.quantities_nonneg (h : LegalPlan problem continuous quantities)
    (route : Fin n) : 0 ≤ quantities route :=
  nonneg_of_mul_nonneg_left (h.1.1.1.2 route) (problem.price_pos route)

/-- Every legal plan counts its increments within the bounds of the model, unless a single route
can be bought beyond them. -/
theorem LegalPlan.countedLot (h : LegalPlan problem continuous quantities) (route : Fin n)
    (hbound : ¬LegalPlan problem continuous (buyOnly route (fineQuantity problem route))) :
    CountedLot problem route (quantities route) := by
  have hincrement := (problem.routes route).quantityIncrement_pos
  rcases (h.quantities_nonneg route).eq_or_lt with hzero | hpos
  · exact .inl hzero.symm
  · obtain ⟨k, hk⟩ := (h.1.2.1 route).exists_count hpos
    refine .inr ⟨k, not_lt.mp fun hlt => hbound (h.mono ⟨fun other => ?_, fun other => ?_,
      fun other => ?_⟩), hk⟩
    · unfold buyOnly
      split
      · have hminimum := (problem.routes route).minimumQuantity_pos
        unfold fineQuantity
        positivity
      · exact le_rfl
    · unfold buyOnly
      split
      · rename_i heq
        subst heq
        have hfloor :
            ⌊problem.targets (problem.routeMembers other) / problem.price other⌋₊ + 1 ≤ k :=
          (Nat.floor_lt (div_nonneg (problem.targets_nonneg _) (problem.price_pos other).le)).mpr
            hlt
        rw [hk, fineQuantity]
        exact add_le_add_right (mul_le_mul_of_nonneg_left (Nat.cast_le.mpr hfloor) hincrement.le) _
      · exact h.quantities_nonneg other
    · unfold buyOnly
      split
      · rename_i heq
        subst heq
        exact legalLot_count _ _
      · exact fun hpos => absurd hpos (lt_irrefl 0)

/-- A legal plan of counted lots is offered. -/
theorem LegalPlan.offered (h : LegalPlan problem continuous quantities)
    (hlots : ∀ route, CountedLot problem route (quantities route)) :
    OfferedPlan problem continuous quantities := by
  obtain ⟨⟨⟨⟨-, -⟩, hcash, haccounts, hcapacities, hstress⟩, -, htotal⟩, hceiling⟩ := id h
  refine ⟨hlots, hcash.trans (le_max_right _ _), fun account haccount =>
    (haccounts account haccount).trans (le_max_right _ _), hstress.trans (le_max_right _ _),
    fun capacity hcapacity => sum_memberSum capacity _ ▸ hcapacities capacity hcapacity, htotal,
    fun member => ?_, fun route hpos => ?_⟩
  · have hle := hceiling member
    unfold discretePrincipalCeiling at hle
    unfold memberUpper
    by_cases hfunded : 0 < continuous.amount member
    · rw [if_pos hfunded] at hle ⊢
      exact hle.trans (min_le_left _ _)
    · rw [if_neg hfunded] at hle ⊢
      exact hle
  · have hle := hceiling (problem.routeMembers route)
    have hunit := (minimumUnit_spec problem hpos).2
    have hminimum := problem.minimum_pos route
    have hcontinuous := continuous.nonneg (problem.routeMembers route)
    unfold discretePrincipalCeiling at hle
    split at hle
    · linarith [min_le_right (problem.targets (problem.routeMembers route))
        (continuous.amount (problem.routeMembers route) +
          minimumUnit problem (problem.routeMembers route) quantities)]
    · linarith

/-- An offered plan is affordable where nothing is overdrawn. -/
theorem OfferedPlan.affordable (h : OfferedPlan problem continuous quantities)
    (hcash : 0 ≤ problem.cash) (haccounts : ∀ account ∈ problem.accountCash, 0 ≤ account.2)
    (hstress : 0 ≤ problem.stressRemaining) : AffordablePlan problem continuous quantities := by
  refine ⟨⟨⟨fun member => sumWhere_nonneg fun route _ => h.amounts_nonneg route,
    h.amounts_nonneg⟩, ?_, fun account haccount => ?_, fun capacity hcapacity => ?_, ?_⟩,
    fun route => (h.lots route).legal, h.total⟩
  · exact h.cash.trans_eq (max_eq_right hcash)
  · exact (h.accounts account haccount).trans_eq (max_eq_right (haccounts account haccount))
  · exact (sum_memberSum capacity _).trans_le (h.capacities capacity hcapacity)
  · exact h.stress.trans_eq (max_eq_right hstress)

/-- Where the model is exact, an offered plan is legal. -/
theorem OfferedPlan.legal (h : OfferedPlan problem continuous quantities)
    (hexact : ExactModel problem continuous) : LegalPlan problem continuous quantities := by
  have haffordable := h.affordable hexact.cash hexact.accounts hexact.stress
  refine ⟨haffordable, fun member => ?_⟩
  have htarget := h.targets member
  unfold memberUpper at htarget
  unfold discretePrincipalCeiling
  by_cases hfunded : 0 < continuous.amount member
  swap
  · rw [if_neg hfunded] at htarget ⊢
    exact htarget
  rw [if_pos hfunded] at htarget ⊢
  refine le_min htarget ?_
  by_cases hselected : ∃ route, problem.routeMembers route = member ∧ 0 < quantities route
  swap
  · have hzero : memberSum problem (planAmounts problem quantities) member = 0 := by
      refine memberSum_eq_zero fun route hroute => ?_
      exact le_antisymm (not_lt.mp fun hpos => hselected ⟨route, hroute, hpos⟩)
        (h.lots route).nonneg
    exact hzero.trans_le (add_nonneg (continuous.nonneg member) (minimumUnit_nonneg member))
  obtain ⟨route, rfl, hpos⟩ := hselected
  obtain ⟨⟨chosen, hmember, hchosen, hunit⟩, -⟩ := minimumUnit_spec problem hpos
  -- Only what is bought of the member counts.
  let alone : Fin n → ℚ := fun other =>
    if problem.routeMembers other = problem.routeMembers route then quantities other else 0
  have halone : ∀ other, problem.routeMembers other = problem.routeMembers route →
      alone other = quantities other := fun other heq => if_pos heq
  have hlots : ∀ other, CountedLot problem other (alone other) := by
    intro other
    by_cases heq : problem.routeMembers other = problem.routeMembers route
    · exact halone other heq ▸ h.lots other
    · exact .inl (if_neg heq)
  have hwithin : Within problem alone quantities := by
    refine ⟨fun other => (hlots other).nonneg, fun other => ?_, fun other => (hlots other).legal⟩
    by_cases heq : problem.routeMembers other = problem.routeMembers route
    · exact (halone other heq).le
    · exact (if_neg heq : alone other = 0).trans_le (h.lots other).nonneg
  have hsum : memberSum problem (planAmounts problem alone) (problem.routeMembers route) =
      memberSum problem (planAmounts problem quantities) (problem.routeMembers route) := by
    refine sumWhere_congr (fun _ _ => Iff.rfl) fun other _ heq => ?_
    rw [planAmounts, halone other heq, planAmounts]
  have hchosen' : 0 < alone chosen := (halone chosen hmember).symm ▸ hchosen
  obtain ⟨⟨least, hleast, hleastPos, hleastUnit⟩, hle⟩ := minimumUnit_spec problem
    hchosen'
  rw [hmember] at hleastUnit hle hleast
  have hallowance := h.allowance least (halone least hleast ▸ hleastPos)
  rw [hleast] at hallowance
  have hexceeds := hexact.allowance (problem.routeMembers route) alone
    (fun other hne => if_neg hne) hlots (haffordable.mono hwithin)
    (by rw [hsum]; exact h.targets _) (by rw [hsum, hleastUnit]; exact hallowance)
  rw [hsum] at hexceeds
  exact hexceeds.trans (add_le_add_right (hle.trans_eq hunit.symm) _)

/-- Buying nothing is always offered. -/
theorem offered_nothing (problem : AllocationProblem n m) (continuous : Principals m) :
    OfferedPlan problem continuous (fun _ => 0) := by
  have hamounts : planAmounts problem (fun _ => 0) = fun _ => 0 := by
    funext route
    exact zero_mul _
  have hexpenditure : expenditure problem (fun _ => 0) = fun _ => 0 := by
    funext route
    exact (zero_add _).trans (if_pos rfl)
  have hstress : stressLoss problem (fun _ => 0) = fun _ => 0 := by
    funext route
    exact zero_mul _
  have hsum : ∀ (p : Fin n → Prop) [DecidablePred p], routeSum (fun _ => 0) p = 0 := by
    intro p _
    refine List.sum_eq_zero fun x hx => ?_
    obtain ⟨route, -, rfl⟩ := List.mem_map.mp hx
    rfl
  have htotal : 0 ≤ continuousTotal continuous := by
    refine List.sum_nonneg fun x hx => ?_
    obtain ⟨member, -, rfl⟩ := List.mem_map.mp hx
    exact continuous.nonneg member
  refine ⟨fun route => .inl rfl, ?_, fun account _ => ?_, ?_, fun capacity _ => ?_, ?_,
    fun member => ?_, fun route hpos => absurd hpos (lt_irrefl 0)⟩
  · rw [hamounts, hexpenditure, hsum]
    exact le_max_left _ _
  · rw [hamounts, hexpenditure, hsum]
    exact le_max_left _ _
  · rw [hamounts, hstress, hsum]
    exact le_max_left _ _
  · rw [hamounts, hsum]
    exact le_max_left _ _
  · rw [hamounts, hsum]
    exact htotal
  · rw [hamounts, memberSum, hsum, memberUpper]
    split
    · exact problem.targets_nonneg member
    · exact le_rfl

/-- A model that offers nothing illegal overdraws nothing. -/
theorem solvent_of_legal_nothing (h : LegalPlan problem continuous fun _ => 0) :
    0 ≤ problem.cash ∧ (∀ account ∈ problem.accountCash, 0 ≤ account.2) ∧
      0 ≤ problem.stressRemaining := by
  obtain ⟨⟨⟨⟨-, hamounts⟩, hcash, haccounts, -, hstress⟩, -⟩, -⟩ := h
  have hspent : ∀ route, 0 ≤ expenditure problem (planAmounts problem fun _ => 0) route :=
    fun route => add_nonneg (hamounts route) (cost_nonneg (hamounts route))
  refine ⟨?_, fun account haccount => ?_, ?_⟩
  · exact (sumWhere_nonneg fun route _ => hspent route).trans hcash
  · exact (sumWhere_nonneg fun route _ => hspent route).trans (haccounts account haccount)
  · refine (sumWhere_nonneg fun route _ => ?_).trans hstress
    exact mul_nonneg (hamounts route) (stressRatio_nonneg route)

/-- The model offers exactly the legal plans when neither of its bounds decides about a plan and
nothing is overdrawn. -/
theorem discreteModel_exact_iff (problem : AllocationProblem n m) (continuous : Principals m) :
    (∀ quantities, LegalPlan problem continuous quantities ↔
      ∃ x, (discreteModel problem continuous none).Feasible x ∧ planOf problem x = quantities) ↔
      ExactModel problem continuous := by
  simp only [offeredPlan_iff]
  constructor
  · intro h
    obtain ⟨hcash, haccounts, hstress⟩ :=
      solvent_of_legal_nothing ((h _).mpr (offered_nothing problem continuous))
    refine ⟨hcash, haccounts, hstress, fun route hlegal => ?_,
      fun member quantities hothers hlots haffordable htarget hallowance => ?_⟩
    · have hlot := ((h _).mp hlegal).lots route
      have hquantity : buyOnly route (fineQuantity problem route) route =
          fineQuantity problem route := if_pos rfl
      rw [hquantity] at hlot
      have hincrement := (problem.routes route).quantityIncrement_pos
      rcases hlot with hzero | ⟨k, hk, heq⟩
      · have hminimum := (problem.routes route).minimumQuantity_pos
        refine absurd hzero (ne_of_gt ?_)
        unfold fineQuantity
        positivity
      · have hcount := mul_left_cancel₀ hincrement.ne' (add_left_cancel heq)
        have hfloor := Nat.lt_floor_add_one
          (problem.targets (problem.routeMembers route) / problem.price route)
        rw [Nat.cast_add, Nat.cast_one] at hcount
        exact absurd (hk.trans_lt hfloor) (by rw [hcount]; exact lt_irrefl _)
    · obtain ⟨⟨⟨-, -⟩, hcash', haccounts', hcapacities', hstress'⟩, -, htotal'⟩ := id haffordable
      have hoffered : OfferedPlan problem continuous quantities := by
        refine ⟨hlots, hcash'.trans (le_max_right _ _), fun account haccount =>
          (haccounts' account haccount).trans (le_max_right _ _),
          hstress'.trans (le_max_right _ _), fun capacity hcapacity =>
          sum_memberSum capacity _ ▸ hcapacities' capacity hcapacity, htotal',
          fun other => ?_, fun route hpos => ?_⟩
        · by_cases hother : other = member
          · exact hother ▸ htarget
          · have hzero : memberSum problem (planAmounts problem quantities) other = 0 :=
              memberSum_eq_zero fun route hroute => hothers route (hroute.trans_ne hother)
            rw [hzero, memberUpper]
            split
            · exact problem.targets_nonneg other
            · exact le_rfl
        · have hmember : problem.routeMembers route = member := by
            by_contra hne
            exact absurd (hothers route hne) hpos.ne'
          subst hmember
          have hunit := (minimumUnit_spec problem hpos).2
          linarith
      have hceiling := ((h quantities).mpr hoffered).2 member
      unfold discretePrincipalCeiling at hceiling
      split at hceiling
      · exact hceiling.trans (min_le_right _ _)
      · exact hceiling.trans
          (add_nonneg (continuous.nonneg member) (minimumUnit_nonneg member))
  · intro hexact quantities
    exact ⟨fun h => h.offered fun route => h.countedLot route (hexact.increments route),
      fun h => h.legal hexact⟩

end Exactness

namespace SampleModel

/-- A route without fees at a price of ten, for one share and then increments. -/
def route (securityId : String) (increment : PositiveAmount) : AcquisitionRoute :=
  SampleRoutes.acquisition securityId increment Literal.zero

/-- Two members with a target of a hundred, the first in tenths of a share. -/
def lots : AllocationProblem 2 2 where
  routes := ![route "S" ⟨1 / 10, by norm_num⟩, route "T" Literal.one]
  routeMembers := id
  targets := fun _ => 100
  probabilities := fun _ => 1 / 2
  accountCash := [("A", 1000)]
  cash := 1000
  stressRemaining := 1000
  shock := 1 / 2
  capacities := []
  priceCap_isSome := by decide +kernel
  targets_nonneg := by decide +kernel
  shock_pos := Literal.half.pos

def funded : Principals 2 where
  amount := ![25, 10]
  nonneg := by decide +kernel

theorem lots_spec : LegalPlan lots funded ![5 / 2, 0] ∧ ¬LegalPlan lots funded ![0, 3] := by
  decide +kernel

theorem offered_three : OfferedPlan lots funded ![0, 3] where
  lots route := by
    match route with
    | 0 => exact .inl rfl
    | 1 => exact .inr ⟨2, by decide +kernel, by decide +kernel⟩
  cash := by decide +kernel
  accounts := by decide +kernel
  stress := by decide +kernel
  capacities := by decide +kernel
  total := by decide +kernel
  targets := by decide +kernel
  allowance := by decide +kernel

/-- Two shares and a half are legal and not offered, and three shares of the second member are
offered and not legal. -/
theorem model_not_exact :
    (¬∀ quantities, LegalPlan lots funded quantities →
      ∃ x, (discreteModel lots funded none).Feasible x ∧ planOf lots x = quantities) ∧
    ¬∀ x, (discreteModel lots funded none).Feasible x → LegalPlan lots funded (planOf lots x) := by
  constructor
  · intro h
    rcases (offeredPlan_iff.mp (h _ lots_spec.1)).lots 0 with hzero | ⟨k, hk, heq⟩
    · exact absurd hzero (by decide +kernel)
    · have hcount : (k : ℚ) ≤ 10 := hk.trans_eq (by decide +kernel)
      have hhalf : (5 / 2 : ℚ) = 1 + 1 / 10 * k := heq
      linarith
  · intro h
    have hlegal := h _ offered_three.feasible
    rw [planOf_planAssignment] at hlegal
    exact lots_spec.2 hlegal

end SampleModel

end StockProfiler.Portfolio
