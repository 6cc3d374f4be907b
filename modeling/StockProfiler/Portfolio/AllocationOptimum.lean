import StockProfiler.Portfolio.AllocationMeasures

/-!
# The optimum of the stages

The stages of the discrete allocation find a plan whose objectives no other plan of the
model improves, when the optimizer is exact. There are finitely many plans, so each stage
has an optimum and is solved as far as the budget reaches.
-/

namespace StockProfiler.Portfolio

open PositionManagement

variable {n m : ℕ} {problem : AllocationProblem n m} {continuous : Principals m}
  {required : Option (Fin m)} {quantities : Fin n → ℚ} {x : AllocationVariable n m → ℚ}
  {model : LinearModel (AllocationVariable n m)} {size count : ℕ}

section Prefix

theorem coefficient_ratioTerms (member : Fin m) {v : AllocationVariable n m}
    (henabled : ∀ route, v ≠ .enabled route) (hincrements : ∀ route, v ≠ .increments route) :
    (ratioTerms problem continuous member).coefficient v = 0 := by
  unfold ratioTerms
  split
  · rw [Linear.coefficient_scale, memberTerms, sumTerms, Linear.coefficient_total]
    refine mul_eq_zero_of_left (List.sum_eq_zero fun y hy => ?_) _
    obtain ⟨terms, hterms, rfl⟩ := List.mem_map.mp hy
    obtain ⟨route, -, rfl⟩ := List.mem_map.mp hterms
    refine sumWhere_eq_zero fun t ht heq => ?_
    rcases List.mem_cons.mp ht with rfl | ht
    · exact henabled route heq.symm
    · rw [List.mem_singleton.mp ht] at heq
      exact hincrements route heq.symm
  · rfl

theorem FollowsPlan.value_ratioTerms (h : FollowsPlan problem quantities x) (member : Fin m) :
    (ratioTerms problem continuous member).value x =
      if 0 < continuous.amount member then
        memberSum problem (planAmounts problem quantities) member / continuous.amount member
      else 0 := by
  unfold ratioTerms
  split
  · rw [Linear.value_scale, memberTerms, value_sum_amountTerms, h.planOf_eq, div_eq_mul_inv]
    rfl
  · rfl

theorem prefixRow_holds_iff (size : ℕ) (member : Fin m) :
    (prefixRow problem continuous size member).Holds x ↔
      x (.threshold size) - (ratioTerms problem continuous member).value x -
        ratioBound problem continuous * (1 - x (.coverage member)) ≤ x (.slack size member) := by
  have hslack : (ratioTerms problem continuous member).coefficient (.slack size member) = 0 :=
    coefficient_ratioTerms member nofun nofun
  have hthreshold : (ratioTerms problem continuous member).coefficient (.threshold size) = 0 :=
    coefficient_ratioTerms member nofun nofun
  have hcoverage : (ratioTerms problem continuous member).coefficient (.coverage member) = 0 :=
    coefficient_ratioTerms member nofun nofun
  rw [prefixRow, Row.holds_lower]
  simp only [Linear.value_set, Linear.coefficient_set, hslack, hthreshold, hcoverage, reduceCtorEq,
    if_false]
  constructor
  · intro h
    linarith
  · intro h
    linarith

theorem value_prefixTerms (size : ℕ) : (prefixTerms size).value x = size * x (.threshold size) -
    ((List.finRange m).map fun member => x (.slack size member)).sum := by
  rw [prefixTerms, Linear.overlay_of_disjoint]
  · rw [Linear.value_append, Linear.value_map, Linear.value_cons, Linear.value_nil]
    ring
  · rw [List.map_map]
    exact (List.nodup_finRange m).map fun a b h => (AllocationVariable.slack.inj h).2
  · intro t ht
    obtain ⟨member, -, rfl⟩ := List.mem_map.mp ht
    rfl

theorem feasible_prefixModel : (prefixModel problem continuous model size).Feasible x ↔
    model.Feasible x ∧
      (0 ≤ x (.threshold size) ∧ x (.threshold size) ≤ ratioBound problem continuous) ∧
      ∀ member, (0 ≤ x (.slack size member) ∧
          x (.slack size member) ≤ ratioBound problem continuous) ∧
        (prefixRow problem continuous size member).Holds x := by
  simp only [LinearModel.Feasible, prefixModel, List.forall_mem_append, List.forall_mem_cons,
    List.forall_mem_map, Column.Admits, Option.mem_some_iff, forall_eq', Bool.false_eq_true,
    false_implies, and_true, List.mem_finRange, forall_const]
  constructor
  · rintro ⟨⟨hcolumns, hthreshold, hslacks⟩, hrows, hsizes⟩
    exact ⟨⟨hcolumns, hrows⟩, hthreshold, fun member => ⟨hslacks member, hsizes member⟩⟩
  · rintro ⟨⟨hcolumns, hrows⟩, hthreshold, hmembers⟩
    exact ⟨⟨hcolumns, hthreshold, fun member => (hmembers member).1⟩, hrows,
      fun member => (hmembers member).2⟩

theorem OfferedPlan.funded (h : OfferedPlan problem continuous quantities) {member : Fin m}
    (hcovered : 0 < memberSum problem (planAmounts problem quantities) member) :
    0 < continuous.amount member := by
  by_contra hnone
  have htarget := h.targets member
  rw [memberUpper, if_neg hnone] at htarget
  exact absurd hcovered (not_lt.mpr htarget)

/-- The funded ratios of the covered members, unsorted. -/
def coveredRatios (problem : AllocationProblem n m) (continuous : Principals m)
    (quantities : Fin n → ℚ) : List ℚ :=
  (coveredMembers problem quantities).map fun member =>
    memberSum problem (planAmounts problem quantities) member / continuous.amount member

theorem fundedRatios_perm :
    (fundedRatios problem continuous quantities).Perm
      (coveredRatios problem continuous quantities) :=
  List.perm_insertionSort _ _

theorem length_fundedRatios : (fundedRatios problem continuous quantities).length =
    (coveredMembers problem quantities).length :=
  fundedRatios_perm.length_eq.trans (List.length_map _)

theorem fundedRatios_pairwise : (fundedRatios problem continuous quantities).Pairwise (· ≤ ·) :=
  List.pairwise_insertionSort _ _

/-- The slack that a member needs for a threshold. -/
def neededSlack (problem : AllocationProblem n m) (continuous : Principals m)
    (quantities : Fin n → ℚ) (t : ℚ) (member : Fin m) : ℚ :=
  if 0 < memberSum problem (planAmounts problem quantities) member then
    max 0 (t - memberSum problem (planAmounts problem quantities) member /
      continuous.amount member)
  else 0

theorem sum_neededSlack (quantities : Fin n → ℚ) (t : ℚ) :
    ((List.finRange m).map (neededSlack problem continuous quantities t)).sum =
      ((coveredRatios problem continuous quantities).map fun r => max 0 (t - r)).sum := by
  rw [coveredRatios, List.map_map]
  exact sum_map_ite _ _ _

theorem neededSlack_nonneg (t : ℚ) (member : Fin m) :
    0 ≤ neededSlack problem continuous quantities t member := by
  unfold neededSlack
  split
  · exact le_max_left _ _
  · exact le_rfl

theorem FollowsPlan.neededSlack_le (h : FollowsPlan problem quantities x)
    (hoffered : OfferedPlan problem continuous quantities) {member : Fin m}
    (hnonneg : 0 ≤ x (.slack size member))
    (hrow : (prefixRow problem continuous size member).Holds x) :
    neededSlack problem continuous quantities (x (.threshold size)) member ≤
      x (.slack size member) := by
  unfold neededSlack
  split
  · rename_i hcovered
    have hrow := (prefixRow_holds_iff size member).mp hrow
    rw [h.value_ratioTerms, if_pos (hoffered.funded hcovered), h.coverage_eq hoffered,
      if_pos hcovered, sub_self, mul_zero, sub_zero] at hrow
    exact max_le hnonneg hrow
  · exact hnonneg

theorem FollowsPlan.value_prefixTerms_le (h : FollowsPlan problem quantities x)
    (hoffered : OfferedPlan problem continuous quantities)
    (hx : (prefixModel problem continuous model size).Feasible x)
    (hsize : size ≤ (coveredMembers problem quantities).length) :
    (prefixTerms size).value x ≤ ((fundedRatios problem continuous quantities).take size).sum := by
  obtain ⟨-, -, hmembers⟩ := feasible_prefixModel.mp hx
  have hslacks : ((coveredRatios problem continuous quantities).map
      fun r => max 0 (x (.threshold size) - r)).sum ≤
        ((List.finRange m).map fun member => x (.slack size member)).sum := by
    rw [← sum_neededSlack]
    exact List.sum_le_sum fun member _ =>
      h.neededSlack_le hoffered (hmembers member).1.1 (hmembers member).2
  calc (prefixTerms size).value x
      ≤ aboveThreshold size (coveredRatios problem continuous quantities)
        (x (.threshold size)) := by
        rw [value_prefixTerms, aboveThreshold]
        linarith
    _ = aboveThreshold size (fundedRatios problem continuous quantities) (x (.threshold size)) :=
        aboveThreshold_perm fundedRatios_perm.symm _
    _ ≤ _ := aboveThreshold_le (hsize.trans_eq length_fundedRatios.symm) _

/-- Every funded ratio is within the bound of the thresholds. -/
theorem OfferedPlan.ratio_mem (h : OfferedPlan problem continuous quantities) {r : ℚ}
    (hr : r ∈ coveredRatios problem continuous quantities) :
    0 ≤ r ∧ r ≤ ratioBound problem continuous := by
  obtain ⟨member, hmember, rfl⟩ := List.mem_map.mp hr
  have hcovered := of_decide_eq_true (List.mem_filter.mp hmember).2
  have hfunded := h.funded hcovered
  refine ⟨div_nonneg hcovered.le hfunded.le, ?_⟩
  have htarget := h.targets member
  rw [memberUpper, if_pos hfunded] at htarget
  have hmem : problem.targets member / continuous.amount member ∈
      ((List.finRange m).filter (0 < continuous.amount ·)).map fun member =>
        problem.targets member / continuous.amount member :=
    List.mem_map_of_mem (List.mem_filter.mpr ⟨List.mem_finRange member, decide_eq_true hfunded⟩)
  obtain ⟨most, hmost⟩ := Option.isSome_iff_exists.mp (List.isSome_max?_of_mem hmem)
  have hle := (List.max?_eq_some_iff.mp hmost).2 _ hmem
  have hratio := div_le_div_of_nonneg_right htarget hfunded.le
  rw [ratioBound, hmost, Option.getD_some]
  linarith

/-- With the slacks that it needs, a threshold of the ratios measures the first of them. -/
theorem ExtendsPlan.measures_first (h : ExtendsPlan problem quantities x)
    (hoffered : OfferedPlan problem continuous quantities) (hx : model.Feasible x)
    (hsize : size < (fundedRatios problem continuous quantities).length)
    (hthreshold : x (.threshold (size + 1)) = (fundedRatios problem continuous quantities)[size])
    (hslack : ∀ member, x (.slack (size + 1) member) =
      neededSlack problem continuous quantities (x (.threshold (size + 1))) member) :
    (prefixModel problem continuous model (size + 1)).Feasible x ∧
      (prefixTerms (size + 1)).value x =
        ((fundedRatios problem continuous quantities).take (size + 1)).sum := by
  obtain ⟨hthreshold0, hthresholdBound⟩ : 0 ≤ x (.threshold (size + 1)) ∧
      x (.threshold (size + 1)) ≤ ratioBound problem continuous := by
    rw [hthreshold]
    exact hoffered.ratio_mem (fundedRatios_perm.mem_iff.mp (List.getElem_mem hsize))
  constructor
  · refine feasible_prefixModel.mpr ⟨hx, ⟨hthreshold0, hthresholdBound⟩, fun member => ?_⟩
    rw [prefixRow_holds_iff, hslack, h.value_ratioTerms, h.coverage_eq hoffered]
    refine ⟨⟨neededSlack_nonneg _ member, ?_⟩, ?_⟩
    · unfold neededSlack
      split
      · rename_i hcovered
        have hratio := div_nonneg hcovered.le (continuous.nonneg member)
        exact max_le (hthreshold0.trans hthresholdBound) (by linarith)
      · exact hthreshold0.trans hthresholdBound
    · unfold neededSlack
      by_cases hcovered : 0 < memberSum problem (planAmounts problem quantities) member
      · rw [if_pos hcovered, if_pos hcovered, if_pos (hoffered.funded hcovered), sub_self,
          mul_zero, sub_zero]
        exact le_max_right _ _
      · have hnone : memberSum problem (planAmounts problem quantities) member = 0 :=
          le_antisymm (not_lt.mp hcovered)
            (sumWhere_nonneg fun route _ => hoffered.amounts_nonneg route)
        rw [if_neg hcovered, if_neg hcovered, hnone, zero_div, ite_self]
        linarith
  · have hsum : ((List.finRange m).map fun member => x (.slack (size + 1) member)).sum =
        ((coveredRatios problem continuous quantities).map
          fun r => max 0 (x (.threshold (size + 1)) - r)).sum := by
      rw [← sum_neededSlack]
      exact congrArg List.sum (List.map_congr_left fun member _ => hslack member)
    calc (prefixTerms (size + 1)).value x
        = aboveThreshold (size + 1) (coveredRatios problem continuous quantities)
            (x (.threshold (size + 1))) := by rw [value_prefixTerms, hsum, aboveThreshold]
      _ = aboveThreshold (size + 1) (fundedRatios problem continuous quantities)
            (fundedRatios problem continuous quantities)[size] := by
          rw [aboveThreshold_perm fundedRatios_perm.symm, hthreshold]
      _ = _ := aboveThreshold_getElem fundedRatios_pairwise hsize

end Prefix

/-- What the stages so far have fixed, among them the number of covered members. Some assignment
has all these values. -/
def StagedBy (problem : AllocationProblem n m) (continuous : Principals m)
    (required : Option (Fin m)) (model : LinearModel (AllocationVariable n m)) (size count : ℕ)
    (measures : List ((Fin n → ℚ) → ℚ)) : Prop :=
  ∃ stages, stages.map Prod.fst = measures ∧
    ((fun quantities => ((coveredMembers problem quantities).length : ℚ)), (count : ℚ)) ∈ stages ∧
    Staged (planOf problem) (discreteModel problem continuous required).Feasible
      (ExtendsPlan problem) model (laterVariables size) stages ∧
    ∃ x, model.Feasible x

/-- An objective measures a quantity of the plan, up to fees. -/
structure MeasuredBy (problem : AllocationProblem n m) (continuous : Principals m)
    (terms : AllocationTerms n m) (measure : (Fin n → ℚ) → ℚ) : Prop where
  upper : ∀ required x, (discreteModel problem continuous required).Feasible x →
    terms.value x ≤ measure (planOf problem x)
  extension : ∀ quantities x, OfferedPlan problem continuous quantities →
    ExtendsPlan problem quantities x → terms.value x = measure quantities

section Stages

variable {milp : LinearModel (AllocationVariable n m) → AllocationTerms n m →
    Option (AllocationVariable n m → ℚ)}
  {state : BudgetedModel (AllocationVariable n m)} {measures : List ((Fin n → ℚ) → ℚ)}
  {terms : AllocationTerms n m} {measure : (Fin n → ℚ) → ℚ} {solveCount : ℕ}

theorem finite_offeredBy (problem : AllocationProblem n m) (continuous : Principals m)
    (required : Option (Fin m)) :
    {quantities | OfferedBy problem continuous required quantities}.Finite :=
  (finite_offeredPlan problem continuous).subset fun _ h => OfferedBy.offered h

theorem MeasuredBy.of_follows (h : ∀ quantities x, OfferedPlan problem continuous quantities →
      FollowsPlan problem quantities x → terms.value x = measure quantities) :
    MeasuredBy problem continuous terms measure where
  upper _ x hx := (h _ x (offered_of_feasible hx) (followsPlan_of_feasible hx)).le
  extension quantities x hoffered hx := h quantities x hoffered hx.toFollowsPlan

theorem measuredBy_cost : MeasuredBy problem continuous (costTerms problem) fun quantities =>
    -routeSum (fun route => (problem.routes route).cost .exact
      (planAmounts problem quantities route)) fun _ => True where
  upper required x hx := by
    obtain ⟨hroutes, -⟩ := (feasible_discreteModel required).mp hx
    rw [value_costTerms]
    refine neg_le_neg (sumWhere_le_sumWhere (fun _ _ h => h) (fun route _ _ => ?_)
      fun route _ => ?_)
    · rw [cost_eq]
      exact add_le_add_right (hroutes route).leastFee_le _
    · exact add_nonneg (mul_nonneg ((offered_of_feasible hx).amounts_nonneg route)
        (problem.routes route).otherCostRatio_mem.1)
        ((leastFee_nonneg _ route).trans (hroutes route).leastFee_le)
  extension quantities x _ hx := by
    rw [value_costTerms, hx.planOf_eq]
    refine congrArg (fun amounts => -routeSum amounts fun _ => True) (funext fun route => ?_)
    rw [cost_eq, hx.fee]

/-- What the objective of a plan measures is measured by what the stages so far leave. -/
theorem MeasuredBy.measuring (hmeasured : MeasuredBy problem continuous terms measure)
    {stages : List (((Fin n → ℚ) → ℚ) × ℚ)}
    (h : Staged (planOf problem) (discreteModel problem continuous required).Feasible
      (ExtendsPlan problem) model (laterVariables size) stages) :
    Measuring (planOf problem) (discreteModel problem continuous required).Feasible
      (ExtendsPlan problem) model (laterVariables size) stages terms measure :=
  h.measuring (fun x hx => hmeasured.upper required x hx)
    fun quantities x hq hx => hmeasured.extension quantities x (OfferedBy.offered hq) hx

/-- A stage is solved where the budget leaves room for it, and then it has fixed what it
measures. -/
theorem StagedBy.objective
    (h : StagedBy problem continuous required state.model size count measures)
    (hmilp : ExactOptimizer milp) (hmeasured : MeasuredBy problem continuous terms measure) :
    Spends solveLimits (fun result => result.1.size) state.size stageSize
      (fun result =>
        StagedBy problem continuous required result.1.model size count (measures ++ [measure]) ∧
          result.1.model.Feasible result.2)
      (maximizeAndFix solveLimits milp state terms) := by
  obtain ⟨stages, rfl, hcount, hstaged, x, hx⟩ := h
  have hstage := ((hmeasured.measuring hstaged).stage hmilp
    (finite_offeredBy problem continuous required) hstaged.best ⟨_, hstaged.readable hx⟩ :
      Spends solveLimits _ _ _ _ _)
  refine ⟨hstage.isSome_iff, hstage.grown, fun result hresult => ?_⟩
  obtain ⟨-, hfeasible, hnext⟩ := hstage.holds result hresult
  exact ⟨⟨_, List.map_append, List.mem_append_left _ hcount, hnext, _, hfeasible⟩, hfeasible⟩

theorem StagedBy.objectiveStage
    (h : StagedBy problem continuous required state.model size count measures)
    (hmilp : ExactOptimizer milp) (hmeasured : MeasuredBy problem continuous terms measure) :
    Spends solveLimits BudgetedModel.size state.size stageSize
      (fun state' =>
        StagedBy problem continuous required state'.model size count (measures ++ [measure]))
      (objectiveStage milp state terms) :=
  (h.objective hmilp hmeasured).map (fun _ => rfl) fun _ _ hstaged => hstaged.1

/-- The threshold and the slacks of one size, and an assignment elsewhere. -/
def stageValues (size : ℕ) (t : ℚ) (slack : Fin m → ℚ) (z : AllocationVariable n m → ℚ) :
    AllocationVariable n m → ℚ
  | .threshold other => if other = size then t else z (.threshold other)
  | .slack other member => if other = size then slack member else z (.slack other member)
  | other => z other

/-- The variables, rows and solves of the stage of one size. -/
def prefixSize (m : ℕ) : ModelSize := (m + 1, m, 0) + stageSize

/-- The sum of the first ratios is measured by a threshold and its slacks. -/
theorem measuring_prefixTerms {stages : List (((Fin n → ℚ) → ℚ) × ℚ)}
    (hstaged : Staged (planOf problem) (discreteModel problem continuous required).Feasible
      (ExtendsPlan problem) model (laterVariables (size + 1)) stages)
    (hsize : ∀ quantities : Fin n → ℚ, (∀ stage ∈ stages, stage.1 quantities = stage.2) →
      size < (coveredMembers problem quantities).length) :
    Measuring (planOf problem) (discreteModel problem continuous required).Feasible
      (ExtendsPlan problem) (prefixModel problem continuous model (size + 1))
      (laterVariables (size + 2)) stages (prefixTerms (size + 1))
      fun quantities => ((fundedRatios problem continuous quantities).take (size + 1)).sum := by
  refine ⟨fun x hx => hstaged.sound x (feasible_prefixModel.mp hx).1, fun x hx => ?_,
    fun quantities hq hties z => ?_⟩
  · obtain ⟨hbase, hties⟩ := hstaged.sound x (feasible_prefixModel.mp hx).1
    exact (followsPlan_of_feasible hbase).value_prefixTerms_le (offered_of_feasible hbase) hx
      (hsize _ hties)
  · have hoffered := OfferedBy.offered hq
    have hfirst : size < (fundedRatios problem continuous quantities).length := by
      rw [length_fundedRatios]
      exact hsize quantities hties
    -- The new threshold is the last of the first ratios, and later ones stay free.
    let t := (fundedRatios problem continuous quantities)[size]
    let assigned := stageValues (size + 1) t (neededSlack problem continuous quantities t) z
    obtain ⟨y, hy, hextends, hfree⟩ := hstaged.complete quantities hq hties assigned
    have hthreshold : y (.threshold (size + 1)) = t :=
      (hfree (.threshold (size + 1)) (le_refl (size + 1))).trans (if_pos rfl)
    have hslack : ∀ member, y (.slack (size + 1) member) =
        neededSlack problem continuous quantities t member := fun member =>
      (hfree (.slack (size + 1) member) (le_refl (size + 1))).trans (if_pos rfl)
    obtain ⟨hfeasible, hvalue⟩ := hextends.measures_first hoffered hy hfirst hthreshold
      fun member => by rw [hslack, hthreshold]
    refine ⟨y, hfeasible, hextends, fun v hv => ?_, hvalue⟩
    cases v with
    | threshold other =>
      have hle : size + 2 ≤ other := hv
      exact (hfree (.threshold other) (by show size + 1 ≤ other; omega)).trans
        (if_neg (by omega))
    | slack other member =>
      have hle : size + 2 ≤ other := hv
      exact (hfree (.slack other member) (by show size + 1 ≤ other; omega)).trans
        (if_neg (by omega))
    | enabled route => exact hv.elim
    | fee route => exact hv.elim
    | increments route => exact hv.elim
    | coverage member => exact hv.elim

/-- The stage of one size fixes the sum of the first ratios. -/
theorem StagedBy.prefixStage
    (h : StagedBy problem continuous required state.model (size + 1) count measures)
    (hmilp : ExactOptimizer milp) (hsize : size < count) :
    Spends solveLimits BudgetedModel.size state.size (prefixSize m)
      (fun state' => StagedBy problem continuous required state'.model (size + 2) count
        (measures ++ [fun quantities =>
          ((fundedRatios problem continuous quantities).take (size + 1)).sum]))
      (prefixStage problem continuous milp state (size + 1)) := by
  obtain ⟨stages, rfl, hcount, hstaged, x, hx⟩ := h
  have hlength : ∀ quantities : Fin n → ℚ, (∀ stage ∈ stages, stage.1 quantities = stage.2) →
      size < (coveredMembers problem quantities).length := by
    intro quantities hties
    have hcast : ((coveredMembers problem quantities).length : ℚ) = count := hties _ hcount
    have hcovered : (coveredMembers problem quantities).length = count := by exact_mod_cast hcast
    rwa [hcovered]
  let grown : BudgetedModel (AllocationVariable n m) :=
    ⟨prefixModel problem continuous state.model (size + 1), state.solveCount⟩
  have hgrown : grown.size = state.size + (m + 1, m, 0) := by
    simp [grown, BudgetedModel.size, prefixModel]
  have hmeasuring : Measuring _ _ _ grown.model _ _ _ _ := measuring_prefixTerms hstaged hlength
  have hstage := (hmeasuring.stage hmilp (finite_offeredBy problem continuous required)
    hstaged.best ⟨_, hstaged.readable hx⟩ : Spends solveLimits _ _ _ _ _)
  rw [hgrown] at hstage
  refine Spends.map ⟨?_, ?_, hstage.holds⟩ (fun _ => rfl) fun result _ hresult => ?_
  · rw [prefixSize, ← add_assoc]
    exact hstage.isSome_iff
  · rw [prefixSize, ← add_assoc]
    exact hstage.grown
  · obtain ⟨-, hfeasible, hnext⟩ := hresult
    exact ⟨_, List.map_append, List.mem_append_left _ hcount, hnext, _, hfeasible⟩

/-- All prefix stages fix the sums of the first ratios. -/
theorem StagedBy.prefixStages
    (h : StagedBy problem continuous required state.model 1 count measures)
    (hmilp : ExactOptimizer milp) (hroom : state.size ≤ solveLimits) :
    Spends solveLimits BudgetedModel.size state.size ((List.range count).length • prefixSize m)
      (fun state' =>
        StagedBy problem continuous required state'.model ((List.range count).length + 1) count
          (measures ++ (List.range count).map fun size quantities =>
            ((fundedRatios problem continuous quantities).take (size + 1)).sum))
      ((List.range count).foldlM
        (fun state size => Portfolio.prefixStage problem continuous milp state (size + 1))
        state) := by
  refine Spends.foldlM (fun done (state : BudgetedModel (AllocationVariable n m)) =>
    StagedBy problem continuous required state.model (done.length + 1) count
      (measures ++ done.map fun size quantities =>
        ((fundedRatios problem continuous quantities).take (size + 1)).sum))
    (fun done size rest state hitems hdone => ?_) (by rwa [List.map_nil, List.append_nil]) hroom
  -- The stages before it are those of the smaller sizes.
  have hlength := congrArg List.length hitems
  have hget := congrArg (·[done.length]?) hitems
  rw [List.length_range, List.length_append, List.length_cons] at hlength
  simp only [List.getElem?_append_right (le_refl done.length), Nat.sub_self,
    List.getElem?_cons_zero] at hget
  rw [List.getElem?_range (by omega)] at hget
  cases hget
  rw [List.length_append, List.length_singleton, List.map_append, ← List.append_assoc]
  exact hdone.prefixStage hmilp (by omega)

/-- Stages of one kind fix what each of them measures. -/
theorem StagedBy.objectiveStages {ι : Type} {items : List ι} {terms : ι → AllocationTerms n m}
    {measure : ι → (Fin n → ℚ) → ℚ}
    (h : StagedBy problem continuous required state.model size count measures)
    (hmilp : ExactOptimizer milp)
    (hmeasured : ∀ item, MeasuredBy problem continuous (terms item) (measure item))
    (hroom : state.size ≤ solveLimits) :
    Spends solveLimits BudgetedModel.size state.size (items.length • stageSize)
      (fun state' => StagedBy problem continuous required state'.model size count
        (measures ++ items.map measure))
      (items.foldlM (fun state item => Portfolio.objectiveStage milp state (terms item))
        state) := by
  refine Spends.foldlM (fun done (state : BudgetedModel (AllocationVariable n m)) =>
    StagedBy problem continuous required state.model size count (measures ++ done.map measure))
    (fun done item rest state _ hdone => ?_) (by rwa [List.map_nil, List.append_nil]) hroom
  rw [List.map_append, ← List.append_assoc]
  exact hdone.objectiveStage hmilp (hmeasured item)

/-- The last stages also keep the assignment that they found. -/
theorem StagedBy.solutionStages {ι : Type} {items : List ι} {terms : ι → AllocationTerms n m}
    {measure : ι → (Fin n → ℚ) → ℚ}
    {current : BudgetedModel (AllocationVariable n m) × (AllocationVariable n m → ℚ)}
    (h : StagedBy problem continuous required current.1.model size count measures)
    (hmilp : ExactOptimizer milp)
    (hmeasured : ∀ item, MeasuredBy problem continuous (terms item) (measure item))
    (hitems : items ≠ []) (hroom : current.1.size ≤ solveLimits) :
    Spends solveLimits (fun result => result.1.size) current.1.size (items.length • stageSize)
      (fun result => StagedBy problem continuous required result.1.model size count
          (measures ++ items.map measure) ∧ result.1.model.Feasible result.2)
      (items.foldlM
        (fun current item => maximizeAndFix solveLimits milp current.1 (terms item))
        current) := by
  have hrun : Spends solveLimits (fun result => result.1.size) current.1.size
      (items.length • stageSize) _ (items.foldlM
        (fun current item => maximizeAndFix solveLimits milp current.1 (terms item)) current) :=
    Spends.foldlM (fun done (current : BudgetedModel (AllocationVariable n m) ×
        (AllocationVariable n m → ℚ)) =>
      StagedBy problem continuous required current.1.model size count
          (measures ++ done.map measure) ∧
        (done ≠ [] → current.1.model.Feasible current.2))
      (fun done item rest current _ hdone => ?_)
      ⟨by rwa [List.map_nil, List.append_nil], fun hne => absurd rfl hne⟩ hroom
  · exact ⟨hrun.isSome_iff, hrun.grown, fun result hresult =>
      ⟨(hrun.holds result hresult).1, (hrun.holds result hresult).2 hitems⟩⟩
  · rw [List.map_append, ← List.append_assoc]
    have hstage := hdone.1.objective hmilp (hmeasured item)
    exact ⟨hstage.isSome_iff, hstage.grown, fun result hresult =>
      ⟨(hstage.holds result hresult).1, fun _ => (hstage.holds result hresult).2⟩⟩

/-- What the stages measure when they cover a number of members. -/
def measuresOf (problem : AllocationProblem n m) (continuous : Principals m) (count : ℕ) :
    List ((Fin n → ℚ) → ℚ) :=
  [fun quantities => ((coveredMembers problem quantities).length : ℚ)] ++
    ((List.range count).map (fun size quantities =>
      ((fundedRatios problem continuous quantities).take (size + 1)).sum) ++
    ([fun quantities => routeSum (planAmounts problem quantities) fun _ => True] ++
    ((lowProbabilities problem).map (fun probability quantities =>
      -((coveredProbabilities problem quantities).count probability : ℚ)) ++
    ([fun quantities => -routeSum (fun route => (problem.routes route).cost .exact
      (planAmounts problem quantities route)) fun _ => True] ++
    ([fun quantities => -(((List.finRange n).countP (0 < quantities ·) : ℕ) : ℚ)] ++
    (identityOrder problem).map fun route quantities => planAmounts problem quantities route)))))

/-- The first stage counts the members that are covered at most. -/
theorem staged_coverage (hmilp : ExactOptimizer milp)
    (hsome : ∃ quantities, OfferedBy problem continuous required quantities) :
    Spends solveLimits (fun result => result.1.size)
      (BudgetedModel.size ⟨discreteModel problem continuous required, solveCount⟩) stageSize
      (fun result => OfferedBy problem continuous required (planOf problem result.2) ∧
        ⌊coverageTerms.value result.2⌋₊ =
          (coveredMembers problem (planOf problem result.2)).length ∧
        (∀ alternative, OfferedBy problem continuous required alternative →
          (coveredMembers problem alternative).length ≤
            (coveredMembers problem (planOf problem result.2)).length) ∧
        StagedBy problem continuous required result.1.model 1 ⌊coverageTerms.value result.2⌋₊
          [fun quantities => ((coveredMembers problem quantities).length : ℚ)])
      (maximizeAndFix solveLimits milp ⟨discreteModel problem continuous required, solveCount⟩
        coverageTerms) := by
  have hmeasured : MeasuredBy problem continuous coverageTerms fun quantities =>
      ((coveredMembers problem quantities).length : ℚ) :=
    .of_follows fun quantities x hq hx => hx.value_coverageTerms hq
  let start : BudgetedModel (AllocationVariable n m) :=
    ⟨discreteModel problem continuous required, solveCount⟩
  have hmeasuring : Measuring _ _ _ start.model _ _ _ _ := hmeasured.measuring (staged_start 1)
  obtain ⟨quantities, hquantities⟩ := hsome
  have hstage := (hmeasuring.stage hmilp (finite_offeredBy problem continuous required)
    (staged_start 1).best ⟨quantities, hquantities, nofun⟩ :
      Spends solveLimits _ _ _ _ _)
  refine ⟨hstage.isSome_iff, hstage.grown, fun result hresult => ?_⟩
  obtain ⟨hbase, hfeasible, hstaged⟩ := hstage.holds result hresult
  have hoffered := offered_of_feasible hbase
  have hvalue := (followsPlan_of_feasible hbase).value_coverageTerms hoffered
  have hcount : ⌊coverageTerms.value result.2⌋₊ =
      (coveredMembers problem (planOf problem result.2)).length := by
    rw [hvalue, Nat.floor_natCast]
  refine ⟨⟨_, hbase, rfl⟩, hcount, fun alternative halternative => ?_, ?_⟩
  · have hle : [((coveredMembers problem alternative).length : ℚ)] ≤
        [coverageTerms.value result.2] := hstaged.best alternative halternative
    rcases cons_le_cons.mp hle with hlt | ⟨heq, -⟩
    · exact_mod_cast (hlt.trans_eq hvalue).le
    · exact_mod_cast (heq.trans hvalue).le
  · refine ⟨_, rfl, List.mem_singleton.mpr ?_, hstaged, _, hfeasible⟩
    rw [hcount, hvalue]

end Stages

end StockProfiler.Portfolio
