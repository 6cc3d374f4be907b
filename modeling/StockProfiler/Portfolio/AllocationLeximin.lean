import StockProfiler.Portfolio.AllocationExactness
import StockProfiler.Portfolio.AllocationOptimum

/-!
# The leximin allocation

The plan of the stages covers the most members, and among the plans that cover as many
it funds the least funded ones the most. No plan of the model is strictly better by the
objectives that plans are compared by.
-/

namespace StockProfiler.Portfolio

open PositionManagement

variable {count : ℕ} {n m : ℕ} {problem : AllocationProblem n m} {continuous : Principals m}
  {required : Option (Fin m)} {quantities alternative : Fin n → ℚ}
  {milp : LinearModel (AllocationVariable n m) → AllocationTerms n m →
    Option (AllocationVariable n m → ℚ)}

section Compare

variable {directions : List AllocationDirection}

theorem not_strictlyBetter_maximize {a b : List ℚ} {as bs : List (List ℚ)}
    (h : a < b ∨ a = b ∧ ¬StrictlyBetter directions as bs) :
    ¬StrictlyBetter (.maximize :: directions) (a :: as) (b :: bs) := by
  rw [StrictlyBetter]
  rcases h with hlt | ⟨heq, hrest⟩
  · rw [if_neg hlt.ne]
    exact hlt.asymm
  · rwa [if_pos heq]

theorem not_strictlyBetter_minimize {a b : List ℚ} {as bs : List (List ℚ)}
    (h : b < a ∨ a = b ∧ ¬StrictlyBetter directions as bs) :
    ¬StrictlyBetter (.minimize :: directions) (a :: as) (b :: bs) := by
  rw [StrictlyBetter]
  rcases h with hlt | ⟨heq, hrest⟩
  · rw [if_neg hlt.ne']
    exact hlt.asymm
  · rwa [if_pos heq]

theorem singleton_lt {a b : ℚ} : [a] < [b] ↔ a < b := by
  rw [List.cons_lt_cons_iff]
  exact or_iff_left fun h => absurd h.2 (lt_irrefl [])

/-- The sums of the first ratios of as many covered members. -/
theorem prefixSums_fundedRatios (quantities : Fin n → ℚ)
    (hcount : (coveredMembers problem quantities).length = count) :
    (List.range count).map (fun size =>
      ((fundedRatios problem continuous quantities).take (size + 1)).sum) =
      prefixSums 0 (fundedRatios problem continuous quantities) := by
  rw [prefixSums_eq, length_fundedRatios, hcount]
  exact List.map_congr_left fun size _ => (zero_add _).symm

theorem coveredProbabilities_mem {p : ℚ} (h : p ∈ coveredProbabilities problem quantities) :
    p ∈ sortedSet ((List.finRange m).map problem.probabilities) := by
  obtain ⟨member, -, rfl⟩ :=
    List.mem_map.mp ((List.perm_insertionSort _ _).mem_iff.mp h)
  exact mem_sortedSet.mpr (List.mem_map_of_mem (List.mem_finRange member))

/-- A plan of greatest measures is beaten neither in its ratios nor its objectives. -/
theorem not_strictlyBetter_of_measures (hcount : (coveredMembers problem quantities).length = count)
    (h : (measuresOf problem continuous count).map (· alternative) ≤
      (measuresOf problem continuous count).map (· quantities)) :
    ((coveredMembers problem alternative).length = count →
      fundedRatios problem continuous alternative ≤ fundedRatios problem continuous quantities) ∧
    ¬StrictlyBetter objectiveDirections (objectives problem continuous alternative)
      (objectives problem continuous quantities) := by
  simp only [measuresOf, List.map_append, List.map_map, List.map_cons, List.map_nil] at h
  -- The coverage decides, or is the same.
  rcases (append_le_append_iff (by simp)).mp h with hlt | ⟨heq, h⟩
  · have hlt := singleton_lt.mp hlt
    refine ⟨fun hsame => ?_, not_strictlyBetter_maximize (.inl (singleton_lt.mpr hlt))⟩
    rw [hsame, hcount] at hlt
    exact absurd hlt (lt_irrefl _)
  have hcount' : (coveredMembers problem alternative).length = count := by
    have hcast := List.head_eq_of_cons_eq heq
    rw [hcount] at hcast
    exact_mod_cast hcast
  have hlength : (fundedRatios problem continuous alternative).length =
      (fundedRatios problem continuous quantities).length := by
    rw [length_fundedRatios, length_fundedRatios, hcount, hcount']
  -- Then the ratios.
  rcases (append_le_append_iff (by simp)).mp h with hlt | ⟨hfirst, h⟩
  · have hlt : prefixSums 0 (fundedRatios problem continuous alternative) <
        prefixSums 0 (fundedRatios problem continuous quantities) := by
      rw [← prefixSums_fundedRatios alternative hcount',
        ← prefixSums_fundedRatios quantities hcount]
      exact hlt
    have hratios := (prefixSums_lt_iff hlength).mp hlt
    exact ⟨fun _ => hratios.le, not_strictlyBetter_maximize
      (.inr ⟨heq, not_strictlyBetter_maximize (.inl hratios)⟩)⟩
  have hsums : prefixSums 0 (fundedRatios problem continuous alternative) =
      prefixSums 0 (fundedRatios problem continuous quantities) := by
    rw [← prefixSums_fundedRatios alternative hcount', ← prefixSums_fundedRatios quantities hcount]
    exact hfirst
  have hratios := prefixSums_inj hlength hsums
  refine ⟨fun _ => hratios.le, not_strictlyBetter_maximize
    (.inr ⟨heq, not_strictlyBetter_maximize (.inr ⟨hratios, ?_⟩)⟩)⟩
  -- Then the principal.
  rcases (append_le_append_iff (by simp)).mp h with hlt | ⟨htotal, h⟩
  · exact not_strictlyBetter_maximize (.inl hlt)
  refine not_strictlyBetter_maximize (.inr ⟨htotal, ?_⟩)
  -- Then the probabilities.
  obtain ⟨hprobabilityEq, hprobabilityLt⟩ := lowCounts_compare
    (sortedSet_pairwise_lt ((List.finRange m).map problem.probabilities))
    (List.pairwise_insertionSort (· ≤ ·) ((coveredMembers problem alternative).map
      problem.probabilities))
    (List.pairwise_insertionSort (· ≤ ·) ((coveredMembers problem quantities).map
      problem.probabilities))
    (by rw [List.length_insertionSort, List.length_insertionSort, List.length_map,
      List.length_map, hcount, hcount'])
    (fun p hp => coveredProbabilities_mem hp) fun p hp => coveredProbabilities_mem hp
  rcases (append_le_append_iff (by simp)).mp h with hlt | ⟨hlow, h⟩
  · exact not_strictlyBetter_maximize (.inl (hprobabilityLt hlt))
  refine not_strictlyBetter_maximize (.inr ⟨hprobabilityEq hlow, ?_⟩)
  -- Then the cost and the number of orders, of which less is better.
  rcases (append_le_append_iff (by simp)).mp h with hlt | ⟨hcost, h⟩
  · exact not_strictlyBetter_minimize
      (.inl (singleton_lt.mpr (neg_lt_neg_iff.mp (singleton_lt.mp hlt))))
  refine not_strictlyBetter_minimize
    (.inr ⟨congrArg ([·]) (neg_injective (List.head_eq_of_cons_eq hcost)), ?_⟩)
  rcases (append_le_append_iff (by simp)).mp h with hlt | ⟨horders, h⟩
  · exact not_strictlyBetter_minimize
      (.inl (singleton_lt.mpr (neg_lt_neg_iff.mp (singleton_lt.mp hlt))))
  refine not_strictlyBetter_minimize
    (.inr ⟨congrArg ([·]) (neg_injective (List.head_eq_of_cons_eq horders)), ?_⟩)
  -- Then the amounts.
  rcases h.lt_or_eq with hlt | hamounts
  · exact not_strictlyBetter_maximize (.inl hlt)
  · exact not_strictlyBetter_maximize (.inr ⟨hamounts, id⟩)

end Compare

section Solution

theorem OfferedPlan.eq_zero (h : OfferedPlan problem continuous quantities)
    (hnone : (coveredMembers problem quantities).length = 0) : quantities = fun _ => 0 := by
  funext route
  by_contra hne
  have hcovered := (h.covered_iff (problem.routeMembers route)).mp ⟨route, rfl, hne⟩
  have hmem : problem.routeMembers route ∈ coveredMembers problem quantities :=
    List.mem_filter.mpr ⟨List.mem_finRange _, decide_eq_true hcovered⟩
  rw [List.length_eq_zero_iff.mp hnone] at hmem
  exact List.not_mem_nil hmem

theorem length_identityOrder (problem : AllocationProblem n m) :
    (identityOrder problem).length = n := by
  rw [identityOrder, List.length_insertionSort, List.length_finRange]

theorem identityOrder_ne_nil (problem : AllocationProblem n m) (hn : n ≠ 0) :
    identityOrder problem ≠ [] := by
  intro hnil
  have hlength := congrArg List.length hnil
  rw [length_identityOrder] at hlength
  exact hn hlength

theorem length_columns_discreteModel (problem : AllocationProblem n m) (continuous : Principals m)
    (required : Option (Fin m)) :
    (discreteModel problem continuous required).columns.length = 3 * n + m := by
  have hroutes : ((List.finRange n).flatMap (routeColumns problem)).length = 3 * n := by
    rw [List.length_flatMap]
    simp [routeColumns, mul_comm]
  rw [discreteModel, List.length_append, baseModel, hroutes, List.length_map, List.length_finRange]

/-- What the stages after the coverage cost. -/
def laterSize (problem : AllocationProblem n m) (count : ℕ) : ModelSize :=
  (List.range count).length • prefixSize m + (stageSize +
    ((lowProbabilities problem).length • stageSize + (stageSize + (stageSize +
      (identityOrder problem).length • stageSize))))

theorem laterSize_eq (problem : AllocationProblem n m) (count : ℕ) :
    laterSize problem count = (count * (m + 1),
      count * m + (count + (lowProbabilities problem).length + n + 3),
      count + (lowProbabilities problem).length + n + 3) := by
  have hmul : count * (m + 1) = count * m + count := Nat.mul_succ count m
  simp only [laterSize, prefixSize, stageSize, List.length_range, length_identityOrder,
    Prod.mk_add_mk, Prod.smul_mk, nsmul_eq_mul, Nat.cast_id, Prod.mk.injEq, mul_zero, mul_one,
    add_zero, zero_add, true_and]
  omega

/-- The stages after the coverage fix all that plans are compared by. -/
theorem laterStages_spends (hmilp : ExactOptimizer milp) (hn : n ≠ 0)
    {first : BudgetedModel (AllocationVariable n m) × (AllocationVariable n m → ℚ)}
    (h : StagedBy problem continuous required first.1.model 1 count
      [fun quantities => ((coveredMembers problem quantities).length : ℚ)])
    (hroom : first.1.size ≤ solveLimits) :
    Spends solveLimits (fun result => result.1.size) first.1.size (laterSize problem count)
      (fun last =>
        StagedBy problem continuous required last.1.model ((List.range count).length + 1) count
            (measuresOf problem continuous count) ∧
          last.1.model.Feasible last.2)
      (laterStages problem continuous milp count first) := by
  refine (h.prefixStages hmilp hroom).bind fun m1 h1 _ => ?_
  refine (h1.objectiveStage hmilp
    (.of_follows fun _ _ _ hx => hx.value_totalTerms)).bind fun m2 h2 hroom2 => ?_
  refine (h2.objectiveStages hmilp
    (fun p => .of_follows fun _ _ hq hx => hx.value_probabilityTerms hq p) hroom2).bind
      fun m3 h3 _ => ?_
  refine (h3.objectiveStage hmilp measuredBy_cost).bind fun m4 h4 _ => ?_
  refine (h4.objectiveStage hmilp
    (.of_follows fun _ _ hq hx => hx.value_orderTerms hq)).bind fun m5 h5 hroom5 => ?_
  have hcurrent : StagedBy problem continuous required (m5, first.2).1.model _ count _ := h5
  have hlast := hcurrent.solutionStages hmilp
    (fun route => .of_follows fun _ _ _ hx => hx.value_amountTerms route)
    (identityOrder_ne_nil problem hn) hroom5
  simp only [List.append_assoc] at hlast
  exact hlast

/-- What is within the limits, in numbers. -/
theorem size_le_solveLimits_iff (problem : AllocationProblem n m) (continuous : Principals m)
    (solveCount : ℕ) (required : Option (Fin m)) (count : ℕ) :
    BudgetedModel.size ⟨discreteModel problem continuous required, solveCount⟩ + (stageSize +
        if count = 0 then 0 else laterSize problem count) ≤ solveLimits ↔
      WithinBudget problem continuous solveCount required count := by
  have hcolumns := length_columns_discreteModel problem continuous required
  have hwithin : WithinBudget problem continuous solveCount required count ↔
      3 * n + m + count * (m + 1) ≤ 2000 ∧
        (discreteModel problem continuous required).rows.length + count * m +
          stageCount problem count ≤ 5000 ∧ solveCount + stageCount problem count ≤ 512 :=
    ⟨fun h => ⟨h.columns, h.rows, h.solves⟩, fun h => ⟨h.1, h.2.1, h.2.2⟩⟩
  have hsize : BudgetedModel.size ⟨discreteModel problem continuous required, solveCount⟩ =
      (3 * n + m, (discreteModel problem continuous required).rows.length, solveCount) :=
    congrArg (·, _, solveCount) hcolumns
  rw [hwithin, stageCount, hsize]
  split
  · rename_i hzero
    simp only [hzero, stageSize, solveLimits, add_zero, zero_mul, Prod.mk_add_mk, Prod.mk_le_mk]
  · simp only [laterSize_eq, stageSize, solveLimits, Prod.mk_add_mk, Prod.mk_le_mk]
    omega

/-- How many members the plans of the model cover. -/
def coveredCounts (problem : AllocationProblem n m) (continuous : Principals m)
    (required : Option (Fin m)) : Set ℕ :=
  {count | ∃ plan, OfferedBy problem continuous required plan ∧
    (coveredMembers problem plan).length = count}

/-- What the stages find: a plan of the model that measures the most. -/
structure BestPlan (problem : AllocationProblem n m) (continuous : Principals m)
    (required : Option (Fin m)) (count : ℕ) (quantities : Fin n → ℚ) : Prop where
  offered : OfferedBy problem continuous required quantities
  count_eq : (coveredMembers problem quantities).length = count
  measures_le : ∀ alternative, OfferedBy problem continuous required alternative →
    alternative = quantities ∨ (measuresOf problem continuous count).map (· alternative) ≤
      (measuresOf problem continuous count).map (· quantities)

/-- The last of the stages is read as a plan that measures the most. -/
theorem StagedBy.bestPlan {model : LinearModel (AllocationVariable n m)} {size : ℕ}
    {x : AllocationVariable n m → ℚ} (h : StagedBy problem continuous required model size count
      (measuresOf problem continuous count)) (hx : model.Feasible x) :
    BestPlan problem continuous required count (planOf problem x) := by
  obtain ⟨stages, hmeasures, hpinned, hstaged, -⟩ := h
  have hcovered : ((coveredMembers problem (planOf problem x)).length : ℚ) = count :=
    (hstaged.sound x hx).2 _ hpinned
  refine ⟨(hstaged.readable hx).1, by exact_mod_cast hcovered, fun plan hplan => .inr ?_⟩
  have hoptimum := hstaged.optimum hx hplan
  have hmap : ∀ other : Fin n → ℚ, stages.map (·.1 other) =
      (measuresOf problem continuous count).map (· other) := by
    intro other
    rw [← hmeasures, List.map_map]
    rfl
  rw [hmap, hmap] at hoptimum
  exact hoptimum

/-- With an exact optimizer, the stages find a plan where the budget leaves room for them. -/
theorem discreteSolution_spends (hmilp : ExactOptimizer milp) (hn : n ≠ 0)
    (hcount : IsGreatest (coveredCounts problem continuous required) count) (solveCount : ℕ) :
    ((discreteSolution problem continuous milp solveCount required).isSome ↔
        WithinBudget problem continuous solveCount required count) ∧
      ∀ quantities solves,
        discreteSolution problem continuous milp solveCount required = some (quantities, solves) →
        BestPlan problem continuous required count quantities ∧
          solves = solveCount + stageCount problem count := by
  let next : BudgetedModel (AllocationVariable n m) × (AllocationVariable n m → ℚ) →
      Option ((Fin n → ℚ) × BudgetedModel (AllocationVariable n m)) := fun first =>
    if ⌊coverageTerms.value first.2⌋₊ = 0 then some (fun _ => 0, first.1)
    else (laterStages problem continuous milp ⌊coverageTerms.value first.2⌋₊ first).map
      fun last => (planOf problem last.2, last.1)
  have hrun : discreteSolution problem continuous milp solveCount required =
      ((maximizeAndFix solveLimits milp ⟨discreteModel problem continuous required, solveCount⟩
        coverageTerms).bind next).map fun result => (result.1, result.2.solveCount) := by
    rw [discreteSolution, if_neg hn]
    cases maximizeAndFix solveLimits milp
        ⟨discreteModel problem continuous required, solveCount⟩ coverageTerms with
    | none => rfl
    | some first =>
      simp only [Option.bind_eq_bind, Option.bind_some, Option.pure_def, next]
      split
      · rfl
      · cases laterStages problem continuous milp ⌊coverageTerms.value first.2⌋₊ first <;> rfl
  obtain ⟨⟨best, hbest, hbestCount⟩, hmost⟩ := hcount
  have hspends : Spends solveLimits
      (fun result : (Fin n → ℚ) × BudgetedModel (AllocationVariable n m) => result.2.size)
      (BudgetedModel.size ⟨discreteModel problem continuous required, solveCount⟩)
      (stageSize + if count = 0 then 0 else laterSize problem count)
      (fun result => BestPlan problem continuous required count result.1)
      ((maximizeAndFix solveLimits milp ⟨discreteModel problem continuous required, solveCount⟩
        coverageTerms).bind next) := by
    refine (staged_coverage hmilp ⟨best, hbest⟩).bind fun first hfirst hroom => ?_
    obtain ⟨hoffered, hfloor, hcovers, hstaged⟩ := hfirst
    have hlength : (coveredMembers problem (planOf problem first.2)).length = count :=
      le_antisymm (hmost ⟨_, hoffered, rfl⟩) (hbestCount ▸ hcovers best hbest)
    rw [hlength] at hfloor
    by_cases hzero : count = 0
    · -- Nothing can be covered.
      simp only [next, hfloor, if_pos hzero]
      have hnothing : ∀ {plan}, OfferedBy problem continuous required plan →
          plan = fun _ => 0 := fun hplan =>
        hplan.offered.eq_zero (Nat.le_zero.mp (hzero ▸ hmost ⟨_, hplan, rfl⟩))
      refine ⟨?_, fun result hresult => ?_, fun result hresult => ?_⟩
      · rw [add_zero]
        exact iff_of_true rfl hroom
      · cases hresult
        rw [add_zero]
      · cases hresult
        have hplan := hnothing hoffered
        rw [hplan] at hoffered hlength
        exact ⟨hoffered, hlength, fun plan hplan => .inl (hnothing hplan)⟩
    · simp only [next, hfloor, if_neg hzero]
      rw [hfloor] at hstaged
      exact (laterStages_spends hmilp hn hstaged hroom).map (fun _ => rfl)
        fun last _ hlast => hlast.1.bestPlan hlast.2
  have hlimits := size_le_solveLimits_iff problem continuous solveCount required count
  refine ⟨?_, fun quantities solves hsolution => ?_⟩
  · rw [hrun, Option.isSome_map, hspends.isSome_iff, hlimits]
  · rw [hrun] at hsolution
    obtain ⟨result, hresult, heq⟩ := Option.map_eq_some_iff.mp hsolution
    obtain ⟨rfl, rfl⟩ := Prod.mk.inj heq
    refine ⟨hspends.holds result hresult, ?_⟩
    have hsolves := congrArg (fun size : ModelSize => size.2.2) (hspends.grown result hresult)
    refine hsolves.trans ?_
    rw [stageCount]
    split
    · rfl
    · rw [laterSize_eq]
      simp only [BudgetedModel.size, stageSize, Prod.mk_add_mk]
      omega

theorem not_strictlyBetter_self (directions : List AllocationDirection) (values : List (List ℚ)) :
    ¬StrictlyBetter directions values values := by
  induction directions generalizing values with
  | nil => exact id
  | cons direction directions ih =>
    cases values with
    | nil => exact id
    | cons value values =>
      intro h
      exact ih values (by simpa [StrictlyBetter] using h)

theorem not_strictlyBetter_of_bestPlan (h : BestPlan problem continuous required count quantities)
    (halternative : OfferedBy problem continuous required alternative) :
    ((coveredMembers problem alternative).length = (coveredMembers problem quantities).length →
      fundedRatios problem continuous alternative ≤ fundedRatios problem continuous quantities) ∧
    ¬StrictlyBetter objectiveDirections (objectives problem continuous alternative)
      (objectives problem continuous quantities) := by
  rcases h.measures_le alternative halternative with rfl | hle
  · exact ⟨fun _ => le_rfl, not_strictlyBetter_self _ _⟩
  · rw [h.count_eq]
    exact not_strictlyBetter_of_measures h.count_eq hle

/-- Where some plan is offered, there is a greatest number of members that one covers. -/
theorem exists_isGreatest_coveredCounts (h : ∃ plan, OfferedBy problem continuous required plan) :
    ∃ count, IsGreatest (coveredCounts problem continuous required) count := by
  obtain ⟨best, hbest, hmost⟩ := Set.exists_max_image _
    (fun plan => (coveredMembers problem plan).length)
    (finite_offeredBy problem continuous required) h
  refine ⟨_, ⟨best, hbest, rfl⟩, ?_⟩
  rintro _ ⟨plan, hplan, rfl⟩
  exact hmost plan hplan

/-- A model without assignments has no solution. -/
theorem exists_offered_of_isSome (hmilp : ExactOptimizer milp) (hn : n ≠ 0) {solveCount : ℕ}
    (h : (discreteSolution problem continuous milp solveCount required).isSome) :
    ∃ plan, OfferedBy problem continuous required plan := by
  obtain ⟨result, hresult⟩ := Option.isSome_iff_exists.mp h
  rw [discreteSolution, if_neg hn] at hresult
  obtain ⟨first, hfirst, -⟩ := Option.bind_eq_some_iff.mp hresult
  exact ⟨_, _, (maximizeAndFix_eq_some hmilp hfirst).1.1, rfl⟩

/-- With an exact optimizer, the stages find a plan exactly where one is offered and the budget
leaves room for as many ratios as members can be covered. The plan covers the most members, funds
the least funded ones the most and is not improved by another plan of the model, or by a legal one
where the model is exact; each stage over the ratios finds the sum of the least of them. -/
theorem discreteSolution_leximin (problem : AllocationProblem n m) (continuous : Principals m)
    (required : Option (Fin m)) (solveCount : ℕ)
    (milp : LinearModel (AllocationVariable n m) → AllocationTerms n m →
      Option (AllocationVariable n m → ℚ)) (hmilp : ExactOptimizer milp) :
    ((discreteSolution problem continuous milp solveCount required).isSome ↔
      n = 0 ∨ ∃ count, IsGreatest (coveredCounts problem continuous required) count ∧
        WithinBudget problem continuous solveCount required count) ∧
    ∀ quantities solves,
      discreteSolution problem continuous milp solveCount required = some (quantities, solves) →
      (n ≠ 0 → OfferedBy problem continuous required quantities) ∧
      (∀ alternative, OfferedBy problem continuous required alternative →
        (∀ size, size < (coveredMembers problem alternative).length →
          IsGreatest {s | ∃ t : ℚ, s = (size + 1 : ℕ) * t -
              ((coveredRatios problem continuous alternative).map fun r => max 0 (t - r)).sum}
            ((fundedRatios problem continuous alternative).take (size + 1)).sum) ∧
        (coveredMembers problem alternative).length ≤
          (coveredMembers problem quantities).length ∧
        ((coveredMembers problem alternative).length =
            (coveredMembers problem quantities).length →
          fundedRatios problem continuous alternative ≤
            fundedRatios problem continuous quantities) ∧
        ¬StrictlyBetter objectiveDirections (objectives problem continuous alternative)
          (objectives problem continuous quantities)) ∧
      (required = none → ExactModel problem continuous →
        ∀ alternative, LegalPlan problem continuous alternative →
          ¬StrictlyBetter objectiveDirections (objectives problem continuous alternative)
            (objectives problem continuous quantities)) := by
  have hprefixes : ∀ alternative : Fin n → ℚ, ∀ size,
      size < (coveredMembers problem alternative).length →
        IsGreatest {s | ∃ t : ℚ, s = (size + 1 : ℕ) * t -
            ((coveredRatios problem continuous alternative).map fun r => max 0 (t - r)).sum}
          ((fundedRatios problem continuous alternative).take (size + 1)).sum := by
    intro alternative size hsize
    have hlength : size < (fundedRatios problem continuous alternative).length :=
      hsize.trans_eq length_fundedRatios.symm
    have hall := isGreatest_aboveThreshold fundedRatios_pairwise hlength
    simp only [aboveThreshold_perm fundedRatios_perm] at hall
    exact hall
  rcases eq_or_ne n 0 with hn | hn
  · -- Without routes there is only one plan.
    subst hn
    refine ⟨iff_of_true (by rw [discreteSolution, if_pos rfl]; rfl) (.inl rfl),
      fun quantities solves _ => ?_⟩
    have hsame : ∀ alternative : Fin 0 → ℚ, alternative = quantities :=
      fun alternative => funext fun route => route.elim0
    refine ⟨fun hne => absurd rfl hne, fun alternative _ => ⟨hprefixes alternative, ?_⟩,
      fun _ _ alternative _ => ?_⟩
    · rw [hsame alternative]
      exact ⟨le_rfl, fun _ => le_rfl, not_strictlyBetter_self _ _⟩
    · rw [hsame alternative]
      exact not_strictlyBetter_self _ _
  constructor
  · constructor
    · intro hsome
      obtain ⟨count, hcount⟩ :=
        exists_isGreatest_coveredCounts (exists_offered_of_isSome hmilp hn hsome)
      exact .inr ⟨count, hcount, (discreteSolution_spends hmilp hn hcount solveCount).1.mp hsome⟩
    · rintro (hzero | ⟨count, hcount, hbudget⟩)
      · exact absurd hzero hn
      · exact (discreteSolution_spends hmilp hn hcount solveCount).1.mpr hbudget
  · intro quantities solves hsolution
    have hsome := Option.isSome_iff_exists.mpr ⟨_, hsolution⟩
    obtain ⟨count, hcount⟩ :=
      exists_isGreatest_coveredCounts (exists_offered_of_isSome hmilp hn hsome)
    have hbest := ((discreteSolution_spends hmilp hn hcount solveCount).2 _ _ hsolution).1
    refine ⟨fun _ => hbest.offered, fun alternative halternative =>
      ⟨hprefixes alternative, ?_, not_strictlyBetter_of_bestPlan hbest halternative⟩,
      fun hrequired hexact alternative hlegal => ?_⟩
    · rw [hbest.count_eq]
      exact hcount.2 ⟨alternative, halternative, rfl⟩
    · subst hrequired
      have hoffered := hlegal.offered fun route =>
        hlegal.countedLot route (hexact.increments route)
      exact (not_strictlyBetter_of_bestPlan hbest
        ⟨_, hoffered.feasible, planOf_planAssignment problem alternative⟩).2

end Solution

namespace SampleStages

variable {ν : Type*}

/-- An optimizer that returns some optimum wherever there is one. -/
noncomputable def exactMilp (model : LinearModel ν) (objective : Linear ν) : Option (ν → ℚ) :=
  open Classical in
  if h : ∃ x, model.IsOptimum objective x then some h.choose else none

theorem exactMilp_exact : ExactOptimizer (exactMilp : LinearModel ν → Linear ν → _) where
  isOptimum model objective x h := by
    unfold exactMilp at h
    split at h
    · rename_i hsome
      cases h
      exact hsome.choose_spec
    · exact absurd h nofun
  isSome model objective x hx := by
    rw [exactMilp, dif_pos ⟨x, hx⟩]
    rfl

/-- Two members in single shares at a price of ten, funded for less than two and for more. -/
def pair : AllocationProblem 2 2 where
  routes := ![SampleModel.route "S" Literal.one, SampleModel.route "T" Literal.one]
  routeMembers := id
  targets := fun _ => 30
  probabilities := ![1 / 2, 3 / 5]
  accountCash := [("A", 1000)]
  cash := 1000
  stressRemaining := 1000
  shock := 1 / 2
  capacities := []
  priceCap_isSome := by decide +kernel
  targets_nonneg := by decide +kernel
  shock_pos := Literal.half.pos

def uneven : Principals 2 where
  amount := ![15, 25]
  nonneg := by decide +kernel

/-- Two shares of each member. -/
def even : Fin 2 → ℚ := ![2, 2]

theorem offered_even : OfferedPlan pair uneven even where
  lots route := by
    match route with
    | 0 => exact .inr ⟨1, by decide +kernel, by decide +kernel⟩
    | 1 => exact .inr ⟨1, by decide +kernel, by decide +kernel⟩
  cash := by decide +kernel
  accounts := by decide +kernel
  stress := by decide +kernel
  capacities := by decide +kernel
  total := by decide +kernel
  targets := by decide +kernel
  allowance := by decide +kernel

theorem offeredBy_even : OfferedBy pair uneven none even :=
  ⟨_, offered_even.feasible, planOf_planAssignment _ _⟩

theorem even_spec : (coveredMembers pair even).length = 2 ∧
    fundedRatios pair uneven even = [4 / 5, 4 / 3] ∧ WithinBudget pair uneven 0 none 2 := by
  decide +kernel

theorem covered_even : IsGreatest (coveredCounts pair uneven none) 2 := by
  refine ⟨⟨even, offeredBy_even, even_spec.1⟩, ?_⟩
  rintro _ ⟨plan, -, rfl⟩
  exact (List.length_filter_le _ _).trans_eq (List.length_finRange)

/-- The stages find a plan that covers both members and funds the least funded one no less than two
shares of each do. -/
theorem sample_leximin : ∃ quantities solves,
    discreteSolution pair uneven exactMilp 0 none = some (quantities, solves) ∧
      2 ≤ (coveredMembers pair quantities).length ∧
      ((coveredMembers pair quantities).length = 2 →
        [4 / 5, 4 / 3] ≤ fundedRatios pair uneven quantities) ∧
      ¬StrictlyBetter objectiveDirections (objectives pair uneven even)
        (objectives pair uneven quantities) := by
  obtain ⟨hcount, hratios, hbudget⟩ := even_spec
  obtain ⟨hsome, hbest⟩ := discreteSolution_leximin pair uneven none 0 exactMilp exactMilp_exact
  obtain ⟨⟨quantities, solves⟩, hsolution⟩ :=
    Option.isSome_iff_exists.mp (hsome.mpr (.inr ⟨2, covered_even, hbudget⟩))
  obtain ⟨-, hplans, -⟩ := hbest quantities solves hsolution
  obtain ⟨-, hmost, hleximin, hbetter⟩ := hplans even offeredBy_even
  rw [hcount] at hmost hleximin
  rw [hratios] at hleximin
  exact ⟨quantities, solves, hsolution, hmost, fun hsame => hleximin hsame.symm, hbetter⟩

/-- Forty-three members with a target of one share each. -/
def crowd : AllocationProblem 43 43 where
  routes := fun route => SampleModel.route (toString route.val) Literal.one
  routeMembers := id
  targets := fun _ => 10
  probabilities := fun _ => 1 / 2
  accountCash := [("A", 1000)]
  cash := 1000
  stressRemaining := 1000
  shock := 1 / 2
  capacities := []
  priceCap_isSome := fun _ => rfl
  targets_nonneg := fun _ => by decide +kernel
  shock_pos := Literal.half.pos

def everyone : Principals 43 where
  amount := fun _ => 10
  nonneg := fun _ => by decide +kernel

/-- One share of each member. -/
def shares : Fin 43 → ℚ := fun _ => 1

theorem offered_shares : OfferedPlan crowd everyone shares where
  lots route := .inr ⟨0, by decide +kernel +revert, by decide +kernel +revert⟩
  cash := by decide +kernel
  accounts := by decide +kernel
  stress := by decide +kernel
  capacities := by decide +kernel
  total := by decide +kernel
  targets := by decide +kernel
  allowance := by decide +kernel

theorem covered_shares : (coveredMembers crowd shares).length = 43 := by
  decide +kernel

/-- All members could be covered, and no plan is found. -/
theorem crowd_unsolved : OfferedBy crowd everyone none shares ∧
    (coveredMembers crowd shares).length = 43 ∧
    ExactOptimizer (exactMilp : _ → AllocationTerms 43 43 → _) ∧
    discreteSolution crowd everyone exactMilp 0 none = none := by
  have hoffered : OfferedBy crowd everyone none shares :=
    ⟨_, offered_shares.feasible, planOf_planAssignment _ _⟩
  have hcount : IsGreatest (coveredCounts crowd everyone none) 43 := by
    refine ⟨⟨shares, hoffered, covered_shares⟩, ?_⟩
    rintro _ ⟨plan, -, rfl⟩
    exact (List.length_filter_le _ _).trans_eq (List.length_finRange)
  refine ⟨hoffered, covered_shares, exactMilp_exact, ?_⟩
  have hsome := (discreteSolution_spends exactMilp_exact (by decide) hcount 0).1
  refine Option.not_isSome_iff_eq_none.mp fun h => ?_
  have hcolumns := (hsome.mp h).columns
  omega

end SampleStages

end StockProfiler.Portfolio
