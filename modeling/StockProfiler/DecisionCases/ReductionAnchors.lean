import StockProfiler.DecisionCases.ActionRatchet

/-!
# The anchors of reductions and costs

A lifecycle measures all its statistical reductions from one holding, and all its costs
against the value at its first sale, however the actions in between end.
-/

namespace StockProfiler.DecisionCases

open PositionManagement Portfolio

/-- The quantity of a statistical reduction, measured from an anchor. -/
def reducedQuantity (ctx : DecimalContext) (policy : PositionActionPolicy) (current : ℚ)
    (anchor : StatisticalReductionAnchor) : ℚ :=
  min current (ctx.mul anchor.quantity policy.reductionRatio)

/-- The smaller of a quantity and of what a saved plan attributes to a security. -/
def withinPlan (securityId : String) (outcome : PositionActionOutcome) (quantity : ℚ) : ℚ :=
  (outcome.execution.bind (attributedTarget · securityId)).elim quantity fun target =>
    min quantity target.targetQuantity

/-- The reasons for which a statistical direction is dropped. -/
def costDenials : List String :=
  ["EXECUTION_COST_EVIDENCE_FAILED", "STATISTICAL_COST_OUT_OF_SCOPE"]

/-- A statistical reduction that its costs allow is measured from the anchor that it carries,
unless its plan asks for less. -/
def ReducesFromAnchor (ctx : DecimalContext) (command : PositionActionCommand)
    (outcome : PositionActionOutcome) : Prop :=
  outcome.modelDirection = some .reduce → (∀ reason ∈ costDenials, reason ∉ outcome.reasons) →
    ∃ anchor current, outcome.anchor = some anchor ∧ outcome.currentQuantity = some current ∧
      outcome.targetQuantity = some (withinPlan command.securityId outcome
        (reducedQuantity ctx command.policy current anchor))

/-- What an action does to the anchors of its lifecycle. -/
structure ActionAnchors (ctx : DecimalContext) (ledger : PositionLedger) (request : ActionRequest)
    (outcome : PositionActionOutcome) : Prop where
  anchor : outcome.anchor = none ∨ outcome.anchor = priorAnchor ledger request ∨
    priorAnchor ledger request = none ∧ outcome.disposition = .concluded
  costAnchor : outcome.costAnchor = none ∨ outcome.costAnchor = priorCostAnchor ledger request ∨
    firstExitSeen ledger request = false ∧ TargetDirection.sells outcome.direction
  concluded : TargetDirection.sells outcome.direction → outcome.disposition = .concluded
  reduces : actionDenial ledger request = none → outcome.direction = some .reduce →
    priorAnchor ledger request ≠ none → outcome.anchor = priorAnchor ledger request
  statistical : ReducesFromAnchor ctx request.command outcome

section Action

variable {anchor : StatisticalReductionAnchor} {cost : ActionCostAssessment}
  {step : StatisticalStep} {ctx : DecimalContext} {steps : ℕ} {ledger : PositionLedger}
  {request : ActionRequest} {basePlan plan : ExecutionPlanOutcome} {outcome : PositionActionOutcome}
  {position : PositionReconciliationOutcome} {security : ExitOutcome}

/-- An outcome without a model direction is no statistical reduction. -/
theorem reducesFromAnchor_of_none {command : PositionActionCommand}
    (h : outcome.modelDirection = none) : ReducesFromAnchor ctx command outcome := by
  intro hmodel
  rw [h] at hmodel
  exact nomatch hmodel

theorem independentAction_spec (request : ActionRequest) (basePlan : ExecutionPlanOutcome)
    (reason : String) :
    (independentAction request basePlan reason).anchor = none ∧
      (independentAction request basePlan reason).costAnchor = none ∧
      (independentAction request basePlan reason).modelDirection = none ∧
      (TargetDirection.sells (independentAction request basePlan reason).direction →
        (independentAction request basePlan reason).disposition = .concluded) := by
  unfold independentAction
  split
  · exact ⟨rfl, rfl, rfl, nofun⟩
  · exact ⟨rfl, rfl, rfl, fun _ => rfl⟩

theorem actionAnchors_denied {denial : String} (hdenial : actionDenial ledger request = some denial)
    (reason : String) :
    ActionAnchors ctx ledger request (independentAction request basePlan reason) := by
  obtain ⟨hanchor, hcost, hmodel, hconcluded⟩ := independentAction_spec request basePlan reason
  refine ⟨.inl hanchor, .inl hcost, hconcluded, fun hnone => ?_, reducesFromAnchor_of_none hmodel⟩
  rw [hdenial] at hnone
  cases hnone

/-- The fallback carries the anchors of the lifecycle, or sells nothing. -/
theorem retainedAction_spec (ledger : PositionLedger) (request : ActionRequest)
    (basePlan : ExecutionPlanOutcome) :
    ((retainedAction ledger request basePlan).direction = none ∧
        (retainedAction ledger request basePlan).anchor = none ∧
        (retainedAction ledger request basePlan).costAnchor = none ∨
      (retainedAction ledger request basePlan).disposition = .concluded ∧
        (retainedAction ledger request basePlan).anchor = priorAnchor ledger request ∧
        (retainedAction ledger request basePlan).costAnchor = priorCostAnchor ledger request) ∧
      (retainedAction ledger request basePlan).modelDirection = none := by
  unfold retainedAction
  dsimp only
  split
  · rename_i hnone
    have hempty := List.map_eq_nil_iff.mp (List.min?_eq_none_iff.mp hnone)
    obtain ⟨-, hindependent⟩ := List.append_eq_nil_iff.mp hempty
    have hattributed : attributedTarget basePlan request.command.securityId = none := by
      cases htarget : attributedTarget basePlan request.command.securityId with
      | none => rfl
      | some target =>
        rw [htarget] at hindependent
        cases hindependent
    unfold independentAction
    rw [hattributed]
    exact ⟨.inl ⟨rfl, rfl, rfl⟩, rfl⟩
  · exact ⟨.inr ⟨rfl, rfl, rfl⟩, rfl⟩

theorem actionAnchors_retainedAction :
    ActionAnchors ctx ledger request (retainedAction ledger request basePlan) := by
  obtain ⟨hspec, hmodel⟩ := retainedAction_spec ledger request basePlan
  rcases hspec with ⟨hdirection, hanchor, hcost⟩ | ⟨hconcluded, hanchor, hcost⟩
  · refine ⟨.inl hanchor, .inl hcost, fun hsells => ?_, fun _ hreduce => ?_,
      reducesFromAnchor_of_none hmodel⟩
    · rw [hdirection] at hsells
      exact nomatch hsells
    · rw [hdirection] at hreduce
      exact nomatch hreduce
  · exact ⟨.inr (.inl hanchor), .inr (.inl hcost), fun _ => hconcluded, fun _ _ _ => hanchor,
      reducesFromAnchor_of_none hmodel⟩

theorem actionAnchors_fallbackAction :
    ActionAnchors ctx ledger request (fallbackAction ctx ledger request basePlan) := by
  have hretained : ActionAnchors ctx ledger request (retainedAction ledger request basePlan) :=
    actionAnchors_retainedAction
  unfold fallbackAction
  dsimp only
  split
  · exact hretained
  · split
    · rename_i hfirst
      exact { hretained with costAnchor := .inr (.inr ⟨hfirst.2.1, hfirst.1⟩) }
    · exact hretained

theorem fallbackAction_modelDirection :
    (fallbackAction ctx ledger request basePlan).modelDirection = none := by
  obtain ⟨costAnchor, heq⟩ := fallbackAction_eq ctx ledger request basePlan
  rw [heq]
  exact (retainedAction_spec ledger request basePlan).2

/-- An exit on a hard gate carries what the fallback carries. -/
theorem actionAnchors_protectiveExit :
    ActionAnchors ctx ledger request (protectiveExit request
      (fallbackAction ctx ledger request basePlan) basePlan security) := by
  have hfallback : ActionAnchors ctx ledger request (fallbackAction ctx ledger request basePlan) :=
    actionAnchors_fallbackAction
  refine ⟨?_, ?_, fun _ => rfl, fun _ => nofun,
    reducesFromAnchor_of_none fallbackAction_modelDirection⟩
  · rcases hfallback.anchor with hnone | hprior | ⟨hprior, -⟩
    · exact .inl hnone
    · exact .inr (.inl hprior)
    · exact .inr (.inr ⟨hprior, rfl⟩)
  · rcases hfallback.costAnchor with hnone | hprior | ⟨hseen, -⟩
    · exact .inl hnone
    · exact .inr (.inl hprior)
    · exact .inr (.inr ⟨hseen, rfl⟩)

/-- A liquidation keeps the anchors, and sets the one of the costs at the first sale. -/
theorem actionAnchors_liquidation (quantity : ℚ) :
    ActionAnchors ctx ledger request
      (liquidation ctx ledger request position security plan quantity) := by
  refine ⟨.inr (.inl rfl), ?_, fun _ => rfl, fun _ => nofun, reducesFromAnchor_of_none rfl⟩
  unfold liquidation
  cases hprior : priorCostAnchor ledger request with
  | some anchor => exact .inr (.inl rfl)
  | none =>
    cases hseen : firstExitSeen ledger request with
    | true => exact .inl rfl
    | false => exact .inr (.inr ⟨rfl, rfl⟩)

/-- What is done to the gaps of a plan keeps the quantity that it attributes. -/
theorem attributedTarget_completedPlan (securityId : String) (quantity : ℚ) :
    (attributedTarget (completedPlan ctx ledger request position plan quantity) securityId).map
      (·.targetQuantity) = (attributedTarget plan securityId).map (·.targetQuantity) := by
  have hkeeps : ∀ change : ExecutionTarget → ExecutionTarget,
      (∀ target, (change target).securityId = target.securityId ∧
        (change target).sourceObligationIds = target.sourceObligationIds ∧
        (change target).targetQuantity = target.targetQuantity) →
      ((plan.targets.map change).find? fun target =>
        target.securityId = securityId ∧ target.sourceObligationIds ≠ []).map (·.targetQuantity) =
        (attributedTarget plan securityId).map (·.targetQuantity) := by
    intro change hchange
    rw [List.find?_map, Option.map_map]
    have htest : (fun target : ExecutionTarget => decide (target.securityId = securityId ∧
        target.sourceObligationIds ≠ [])) ∘ change = fun target =>
        decide (target.securityId = securityId ∧ target.sourceObligationIds ≠ []) := by
      ext target
      simp [hchange target]
    have hquantity : (fun target : ExecutionTarget => target.targetQuantity) ∘ change =
        fun target => target.targetQuantity := by
      ext target
      exact (hchange target).2.2
    rw [htest, hquantity]
    rfl
  unfold completedPlan
  split
  · exact hkeeps _ fun target => ⟨rfl, rfl, rfl⟩
  · refine hkeeps _ fun target => ?_
    split
    · exact ⟨rfl, rfl, rfl⟩
    · exact ⟨rfl, rfl, rfl⟩

/-- The smaller of a quantity and a target depends on the quantity of the target only. -/
theorem elim_eq_of_map_eq (quantity : ℚ) {first second : Option ExecutionTarget}
    (h : first.map (·.targetQuantity) = second.map (·.targetQuantity)) :
    (first.elim quantity fun target => min quantity target.targetQuantity) =
      second.elim quantity fun target => min quantity target.targetQuantity := by
  have hmap : ∀ target : Option ExecutionTarget,
      (target.elim quantity fun target => min quantity target.targetQuantity) =
        (target.map (·.targetQuantity)).elim quantity (min quantity) := by
    intro target
    cases target <;> rfl
  rw [hmap first, hmap second, h]

/-- The stricter of a step and a target in force keeps the anchor and takes the smaller
quantity. -/
theorem strictest_spec {own : ℚ} (hstep : step.target = some own)
    (effective : Option ExecutionTarget) :
    (strictest step effective).target =
      some (effective.elim own fun target => min own target.targetQuantity) := by
  unfold strictest
  cases effective with
  | none => exact hstep
  | some target =>
    dsimp only
    simp only [hstep, Option.all_some, decide_eq_true_eq]
    split
    · rename_i hlt
      exact congrArg some (min_eq_right hlt.le).symm
    · rename_i hle
      rw [hstep]
      exact congrArg some (min_eq_left (not_lt.mp hle)).symm

theorem strictest_anchor (step : StatisticalStep) (effective : Option ExecutionTarget) :
    (strictest step effective).anchor = step.anchor := by
  unfold strictest
  split
  · rfl
  · split
    · rfl
    · rfl

/-- A step keeps its direction unless a smaller quantity gives it another one. -/
theorem isSome_strictest_direction (h : step.direction.isSome)
    (effective : Option ExecutionTarget) : (strictest step effective).direction.isSome := by
  unfold strictest
  split
  · exact h
  · split
    · rfl
    · exact h

/-- An anchor of a step is the one of the lifecycle, or the first one of a reduction. -/
theorem statisticalStep_anchor {quantity : ℚ} {direction : Option TargetDirection}
    (h : statisticalStep ctx ledger request security quantity direction = some step)
    (hanchor : step.anchor = some anchor) :
    step.direction = some .reduce ∧ ∀ prior, priorAnchor ledger request = some prior →
      anchor = prior := by
  unfold statisticalStep at h
  split at h
  · cases h
    exact nomatch hanchor
  · cases h
    exact nomatch hanchor
  · cases h
    exact nomatch hanchor
  · obtain ⟨own, hown, rfl⟩ := Option.map_eq_some_iff.mp h
    cases hanchor
    refine ⟨rfl, fun prior hprior => ?_⟩
    unfold reductionAnchor at hown
    rw [hprior] at hown
    exact (Option.some.inj hown).symm

theorem costedStep_anchor (h : (costedStep cost step).anchor = some anchor) :
    costedStep cost step = step ∧ step.anchor = some anchor := by
  unfold costedStep at h ⊢
  split at h
  · exact nomatch h
  · rename_i hkept
    exact ⟨if_neg hkept, h⟩

theorem costedStep_of_costReasons (step : StatisticalStep)
    (h : ∀ reason ∈ costDenials, reason ∉ costReasons cost) : costedStep cost step = step := by
  unfold costReasons at h
  unfold costedStep
  split at h
  · exact absurd (List.mem_singleton_self _) (h _ (List.mem_cons_self ..))
  · split at h
    · exact absurd (List.mem_singleton_self _)
        (h _ (List.mem_cons_of_mem _ (List.mem_singleton_self _)))
    · rename_i hfailed houtside
      exact if_neg (not_or.mpr ⟨hfailed, houtside⟩)

/-- A statistical conclusion keeps the anchors, and sets each at the first action that needs
it. -/
theorem actionAnchors_statisticalAction {retained : List EstablishedQuantityTarget} {quantity : ℚ}
    (h : statisticalAction ctx steps ledger request position security retained plan quantity =
      some outcome) : ActionAnchors ctx ledger request outcome := by
  unfold statisticalAction at h
  dsimp only at h
  obtain ⟨step, hstep, h⟩ := bind_eq_some.mp h
  obtain ⟨planned, -, h⟩ := bind_eq_some.mp h
  obtain ⟨cost, -, h⟩ := bind_eq_some.mp h
  obtain ⟨costed, -, h⟩ := bind_eq_some.mp h
  cases h
  have hkept : ∀ anchor, (costedStep cost step).anchor = some anchor →
      (costedStep cost step).direction = some .reduce ∧
        ∀ prior, priorAnchor ledger request = some prior → anchor = prior := by
    intro anchor hanchor
    obtain ⟨heq, hanchor⟩ := costedStep_anchor hanchor
    rw [heq]
    exact statisticalStep_anchor hstep hanchor
  refine ⟨?_, ?_, fun hsells => ?_, fun _ _ hprior => ?_, fun hmodel hreasons => ?_⟩
  · dsimp only
    rw [strictest_anchor]
    cases hanchor : (costedStep cost step).anchor with
    | none => exact .inr (.inl (Option.none_or ..))
    | some anchor =>
      obtain ⟨hdirection, hprior⟩ := hkept anchor hanchor
      cases hfirst : priorAnchor ledger request with
      | some prior =>
        rw [hprior prior hfirst]
        exact .inr (.inl rfl)
      | none =>
        refine .inr (.inr ⟨rfl, if_pos ?_⟩)
        exact isSome_strictest_direction (by rw [hdirection]; rfl) _
  · dsimp only
    split
    · rename_i hfirst
      exact .inr (.inr ⟨hfirst.2, hfirst.1⟩)
    · exact .inr (.inl rfl)
  · refine if_pos ?_
    unfold TargetDirection.sells at hsells
    rcases of_decide_eq_true hsells with hreduce | hexit
    · exact Option.isSome_of_eq_some hreduce
    · exact Option.isSome_of_eq_some hexit
  · dsimp only
    rw [strictest_anchor]
    obtain ⟨prior, hprior⟩ := Option.ne_none_iff_exists'.mp hprior
    cases hanchor : (costedStep cost step).anchor with
    | none => exact Option.none_or ..
    | some anchor =>
      rw [(hkept anchor hanchor).2 prior hprior, hprior]
      rfl
  · -- The costs gave no reason, so the step is the reduction itself.
    dsimp only at hmodel hreasons
    rw [hmodel] at hstep
    obtain ⟨anchor, -, rfl⟩ := Option.map_eq_some_iff.mp hstep
    have hcosted : ∀ step, costedStep cost step = step := fun step =>
      costedStep_of_costReasons step fun reason hreason hmem => hreasons reason hreason
        (List.mem_append_left _ (List.mem_append_left _ (List.mem_append_right _ hmem)))
    refine ⟨anchor, quantity, ?_, rfl, ?_⟩
    · dsimp only
      rw [strictest_anchor, hcosted]
      rfl
    · dsimp only
      rw [hcosted, strictest_spec rfl]
      unfold withinPlan
      exact congrArg some (elim_eq_of_map_eq _ (attributedTarget_completedPlan _ _).symm)

/-- Conclusions for a holding of known quantity keep the anchors. -/
theorem actionAnchors_assessedAction
    (h : assessedAction ctx steps ledger request position security = some outcome) :
    ActionAnchors ctx ledger request outcome := by
  unfold assessedAction at h
  dsimp only at h
  obtain ⟨retained, -, h⟩ := bind_eq_some.mp h
  obtain ⟨gates, -, h⟩ := bind_eq_some.mp h
  obtain ⟨plan, -, h⟩ := bind_eq_some.mp h
  split at h
  · exact Option.some.inj h ▸ actionAnchors_liquidation _
  · exact actionAnchors_statisticalAction h

/-- Every adjudicated action has the anchors of its request. -/
theorem actionAnchors_adjudicate
    (h : adjudicatePositionAction ctx steps ledger request = some outcome) :
    ActionAnchors ctx ledger request outcome := by
  obtain ⟨basePlan, concluded, deterministic, hconcluded, rfl⟩ := adjudicatePositionAction_eq_some h
  have hanchors : ActionAnchors ctx ledger request concluded := by
    unfold concludeAction at hconcluded
    split at hconcluded
    · rename_i denial hdenial
      exact Option.some.inj hconcluded ▸ actionAnchors_denied hdenial denial
    · dsimp only at hconcluded
      split at hconcluded
      · exact Option.some.inj hconcluded ▸ actionAnchors_fallbackAction
      · split at hconcluded
        · split at hconcluded
          · exact Option.some.inj hconcluded ▸ actionAnchors_fallbackAction
          · exact Option.some.inj hconcluded ▸ actionAnchors_protectiveExit
        · split at hconcluded
          · exact Option.some.inj hconcluded ▸ actionAnchors_fallbackAction
          · exact actionAnchors_assessedAction hconcluded
  exact ⟨hanchors.anchor, hanchors.costAnchor, hanchors.concluded, hanchors.reduces,
    hanchors.statistical⟩

end Action

/-- The actions of a lifecycle, in order. -/
def lifecycleActions (scope : ResultAccessScope) (portfolioId lifecycleId : String)
    (facts : List PositionEventFact) : List ActionFact :=
  facts.filterMap (lifecycleAction? scope portfolioId lifecycleId)

/-- The actions that later ones look back to. -/
def concludedActions (actions : List ActionFact) : List ActionFact :=
  actions.filter (·.outcome.disposition = .concluded)

/-- The first anchor of the reductions that was saved. -/
def firstAnchor (actions : List ActionFact) : Option StatisticalReductionAnchor :=
  (concludedActions actions).findSome? (·.outcome.anchor)

/-- The first anchor of the costs that was saved. -/
def firstCostAnchor (actions : List ActionFact) : Option StatisticalReductionAnchor :=
  (concludedActions actions).findSome? (·.outcome.costAnchor)

/-- An action sold. -/
def soldBefore (actions : List ActionFact) : Bool :=
  (concludedActions actions).any fun action => TargetDirection.sells action.outcome.direction

/-- What an action does to the anchors of the actions before it. -/
structure ContinuesAnchors (ctx : DecimalContext) (actions : List ActionFact) (next : ActionFact) :
    Prop where
  anchor : next.outcome.anchor = none ∨ next.outcome.anchor = firstAnchor actions ∨
    firstAnchor actions = none ∧ next.outcome.disposition = .concluded
  costAnchor : next.outcome.costAnchor = none ∨
    next.outcome.costAnchor = firstCostAnchor actions ∨
    soldBefore actions = false ∧ TargetDirection.sells next.outcome.direction
  concluded : TargetDirection.sells next.outcome.direction → next.outcome.disposition = .concluded
  reduces : (∀ prior ∈ concludedActions actions, next.Follows prior) →
    next.outcome.direction = some .reduce → firstAnchor actions ≠ none →
      next.outcome.anchor = firstAnchor actions
  statistical : ReducesFromAnchor ctx next.command next.outcome

/-- All reductions of a lifecycle are measured from one anchor, and all its costs from the one
of its first sale. -/
structure SingleAnchors (ctx : DecimalContext) (actions : List ActionFact) : Prop where
  anchor : actions.Pairwise fun prior next => ∀ first second,
    prior.outcome.anchor = some first → next.outcome.anchor = some second → second = first
  reduces : ∀ earlier next later, actions = earlier ++ next :: later →
    (∀ prior ∈ concludedActions earlier, next.Follows prior) →
      next.outcome.direction = some .reduce →
        ∀ prior ∈ earlier, ∀ anchor, prior.outcome.anchor = some anchor →
          next.outcome.anchor = some anchor
  statistical : ∀ action ∈ actions, ReducesFromAnchor ctx action.command action.outcome
  costAnchor : actions.Pairwise fun prior next => ∀ first second,
    prior.outcome.costAnchor = some first → next.outcome.costAnchor = some second →
      second = first
  firstSale : ∀ earlier next later, actions = earlier ++ next :: later →
    (∀ prior ∈ earlier, prior.outcome.costAnchor = none) → next.outcome.costAnchor ≠ none →
      TargetDirection.sells next.outcome.direction ∧
        ∀ prior ∈ earlier, TargetDirection.sells prior.outcome.direction = false

/-- What the actions of a lifecycle saved of their anchors. -/
structure SavedAnchors (actions : List ActionFact) : Prop where
  anchor : ∀ action ∈ actions, ∀ anchor, action.outcome.anchor = some anchor →
    firstAnchor actions = some anchor
  costAnchor : ∀ action ∈ actions, ∀ anchor, action.outcome.costAnchor = some anchor →
    firstCostAnchor actions = some anchor
  sold : ∀ action ∈ actions, TargetDirection.sells action.outcome.direction →
    soldBefore actions = true
  soldBefore_of_costAnchor : firstCostAnchor actions ≠ none → soldBefore actions = true

section Actions

variable {ctx : DecimalContext} {actions earlier later : List ActionFact} {next : ActionFact}

theorem concludedActions_append (actions others : List ActionFact) :
    concludedActions (actions ++ others) = concludedActions actions ++ concludedActions others :=
  List.filter_append ..

theorem firstAnchor_append (actions others : List ActionFact) :
    firstAnchor (actions ++ others) = (firstAnchor actions).or (firstAnchor others) := by
  unfold firstAnchor
  rw [concludedActions_append, List.findSome?_append]

theorem firstCostAnchor_append (actions others : List ActionFact) :
    firstCostAnchor (actions ++ others) =
      (firstCostAnchor actions).or (firstCostAnchor others) := by
  unfold firstCostAnchor
  rw [concludedActions_append, List.findSome?_append]

theorem soldBefore_append (actions others : List ActionFact) :
    soldBefore (actions ++ others) = (soldBefore actions || soldBefore others) := by
  unfold soldBefore
  rw [concludedActions_append, List.any_append]

section

variable (h : next.outcome.disposition = .concluded)
include h

theorem concludedActions_singleton : concludedActions [next] = [next] := by
  simp [concludedActions, h]

theorem firstAnchor_singleton : firstAnchor [next] = next.outcome.anchor := by
  simp [firstAnchor, concludedActions_singleton h]

theorem firstCostAnchor_singleton : firstCostAnchor [next] = next.outcome.costAnchor := by
  simp [firstCostAnchor, concludedActions_singleton h]

theorem soldBefore_singleton :
    soldBefore [next] = TargetDirection.sells next.outcome.direction := by
  simp [soldBefore, concludedActions_singleton h]

end

theorem SavedAnchors.firstCostAnchor_eq_none (h : SavedAnchors actions)
    (hsold : soldBefore actions = false) : firstCostAnchor actions = none := by
  by_contra hanchor
  rw [h.soldBefore_of_costAnchor hanchor] at hsold
  cases hsold

theorem savedAnchors_nil : SavedAnchors [] := by
  refine ⟨fun action hmem => ?_, fun action hmem => ?_, fun action hmem => ?_, fun hanchor => ?_⟩
  · exact nomatch hmem
  · exact nomatch hmem
  · exact nomatch hmem
  · exact absurd rfl hanchor

/-- An action that continues the anchors keeps what is saved of them. -/
theorem SavedAnchors.snoc (h : SavedAnchors actions) (hnext : ContinuesAnchors ctx actions next) :
    SavedAnchors (actions ++ [next]) := by
  refine ⟨fun action hmem anchor hanchor => ?_, fun action hmem anchor hanchor => ?_,
    fun action hmem hsells => ?_, fun hanchor => ?_⟩
  · rw [firstAnchor_append]
    rcases List.mem_append.mp hmem with hmem | hmem
    · rw [h.anchor action hmem anchor hanchor]
      rfl
    · obtain rfl := List.mem_singleton.mp hmem
      rcases hnext.anchor with hnone | hprior | ⟨hprior, hconcluded⟩
      · rw [hnone] at hanchor
        cases hanchor
      · rw [← hprior, hanchor]
        rfl
      · rw [hprior, firstAnchor_singleton hconcluded]
        exact hanchor
  · rw [firstCostAnchor_append]
    rcases List.mem_append.mp hmem with hmem | hmem
    · rw [h.costAnchor action hmem anchor hanchor]
      rfl
    · obtain rfl := List.mem_singleton.mp hmem
      rcases hnext.costAnchor with hnone | hprior | ⟨hsold, hsells⟩
      · rw [hnone] at hanchor
        cases hanchor
      · rw [← hprior, hanchor]
        rfl
      · rw [h.firstCostAnchor_eq_none hsold, firstCostAnchor_singleton (hnext.concluded hsells)]
        exact hanchor
  · rw [soldBefore_append]
    rcases List.mem_append.mp hmem with hmem | hmem
    · rw [h.sold action hmem hsells]
      rfl
    · obtain rfl := List.mem_singleton.mp hmem
      rw [soldBefore_singleton (hnext.concluded hsells), hsells, Bool.or_true]
  · rw [soldBefore_append]
    by_cases hbefore : firstCostAnchor actions = none
    · have hcost : next.outcome.costAnchor ≠ none := by
        intro hnone
        refine hanchor ?_
        rw [firstCostAnchor_append, hbefore, Option.none_or]
        refine List.findSome?_eq_none_iff.mpr fun action hmem => ?_
        obtain rfl := List.mem_singleton.mp (List.mem_of_mem_filter hmem)
        exact hnone
      rcases hnext.costAnchor with hnone | hprior | ⟨-, hsells⟩
      · exact absurd hnone hcost
      · exact absurd (hprior.trans hbefore) hcost
      · rw [soldBefore_singleton (hnext.concluded hsells), hsells, Bool.or_true]
    · rw [h.soldBefore_of_costAnchor hbefore, Bool.true_or]

variable (h : ∀ earlier next later, actions = earlier ++ next :: later → ContinuesAnchors ctx
    earlier next)
include h

/-- Actions that continue the anchors of those before them keep what is saved. -/
theorem savedAnchors_of_continues : SavedAnchors actions := by
  induction actions using List.reverseRecOn with
  | nil => exact savedAnchors_nil
  | append_singleton actions next ih =>
    refine (ih fun earlier other later hsplit => ?_).snoc (h actions next [] rfl)
    exact h earlier other (later ++ [next]) (by rw [hsplit]; simp)

/-- A part of the actions continues the anchors as well. -/
theorem continues_of_split (hsplit : actions = earlier ++ later) : SavedAnchors earlier := by
  refine @savedAnchors_of_continues ctx earlier fun front next rest hfront => ?_
  refine h front next (rest ++ later) ?_
  rw [hsplit, hfront]
  simp

/-- One anchor serves all reductions, and one all costs. -/
theorem singleAnchors_of_continues : SingleAnchors ctx actions := by
  have hsaved : SavedAnchors actions := savedAnchors_of_continues h
  refine ⟨?_, ?_, fun action hmem => ?_, ?_, ?_⟩
  · refine List.pairwise_of_forall_mem_list fun prior hprior next hnext first second hfirst
      hsecond => ?_
    have heq := hsaved.anchor prior hprior first hfirst
    rw [hsaved.anchor next hnext second hsecond] at heq
    exact Option.some.inj heq
  · intro earlier next later hsplit hfollows hdirection prior hprior anchor hanchor
    have hfirst := (continues_of_split h hsplit).anchor prior hprior anchor hanchor
    rw [← hfirst]
    refine (h earlier next later hsplit).reduces hfollows hdirection ?_
    rw [hfirst]
    exact Option.some_ne_none anchor
  · obtain ⟨earlier, later, hsplit⟩ := List.append_of_mem hmem
    exact (h earlier action later hsplit).statistical
  · refine List.pairwise_of_forall_mem_list fun prior hprior next hnext first second hfirst
      hsecond => ?_
    have heq := hsaved.costAnchor prior hprior first hfirst
    rw [hsaved.costAnchor next hnext second hsecond] at heq
    exact Option.some.inj heq
  · intro earlier next later hsplit hnone hcost
    have hbefore : firstCostAnchor earlier = none := by
      refine List.findSome?_eq_none_iff.mpr fun action hmem => ?_
      exact hnone action (List.mem_of_mem_filter hmem)
    rcases (h earlier next later hsplit).costAnchor with hempty | hprior | ⟨hsold, hsells⟩
    · exact absurd hempty hcost
    · exact absurd (hprior.trans hbefore) hcost
    · refine ⟨hsells, fun prior hprior => Bool.eq_false_iff.mpr fun hother => ?_⟩
      rw [(continues_of_split h hsplit).sold prior hprior hother] at hsold
      cases hsold

end Actions

section Runs

variable {ctx : DecimalContext} {steps : ℕ}
  {run : List (HistoryStep PositionInput PositionEventFact)}
  {scope : ResultAccessScope} {portfolioId lifecycleId : String}

/-- The history of an action is made of the concluded actions of its lifecycle, in order. -/
theorem actionHistory_eq {facts : List PositionEventFact} {reportVisible : String → Bool}
    {request : ActionRequest} (howner : request.scope.sameOwnerAs scope)
    (hportfolio : request.command.execution.portfolioId = portfolioId)
    (hlifecycle : request.command.lifecycleId = lifecycleId) :
    actionHistory ⟨facts, reportVisible⟩ request =
      concludedActions (lifecycleActions scope portfolioId lifecycleId facts) := by
  subst hportfolio hlifecycle
  unfold actionHistory PositionLedger.positionActionHistory PositionLedger.originalEventFacts
    concludedActions lifecycleActions
  rw [List.filterMap_filter, List.filter_filterMap]
  refine congrArg (List.filterMap · facts) (funext fun fact => Option.ext fun action => ?_)
  rw [Option.ite_none_right_eq_some, Option.filter_eq_some_iff, decide_eq_true_eq,
    decide_eq_true_eq]
  constructor
  · rintro ⟨horiginal, haction⟩
    exact lifecycleAction?_of_actionFact? howner horiginal haction
  · rintro ⟨haction, hconcluded⟩
    exact ⟨(lifecycleAction?_eq_some haction).1,
      actionFact?_of_lifecycleAction? howner haction hconcluded⟩

/-- Every action of a run continues the anchors of the actions before it. -/
theorem continuesAnchors_of_run (hrun : PositionRun ctx steps run) {earlier later : List ActionFact}
    {next : ActionFact} (hsplit : lifecycleActions scope portfolioId lifecycleId (outcomes run) =
      earlier ++ next :: later) : ContinuesAnchors ctx earlier next := by
  induction hrun generalizing later with
  | nil => exact absurd hsplit (by simp [lifecycleActions])
  | @snoc run input fact hrun hstep ih =>
    unfold lifecycleActions at hsplit ih
    rw [outcomes_append, outcomes_singleton, List.filterMap_append] at hsplit
    cases haction : lifecycleAction? scope portfolioId lifecycleId fact with
    | none =>
      rw [List.filterMap_cons_none haction, List.filterMap_nil, List.append_nil] at hsplit
      exact ih hsplit
    | some action =>
      rw [List.filterMap_cons_some haction, List.filterMap_nil] at hsplit
      rcases split_snoc hsplit with ⟨-, rfl, rfl⟩ | ⟨front, -, hfront⟩
      · obtain ⟨request, hscope, hcommand, -, hadjudicate⟩ :=
          exists_request (e := ⟨outcomes run, input, fact⟩) hstep haction
        obtain ⟨-, -, -, -, howner, hportfolio, hlifecycle⟩ := lifecycleAction?_eq_some haction
        rw [← hscope] at howner
        rw [← hcommand] at hportfolio hlifecycle
        have hhistory : actionHistory (input.ledger (outcomes run)) request =
            concludedActions (lifecycleActions scope portfolioId lifecycleId (outcomes run)) :=
          actionHistory_eq howner hportfolio hlifecycle
        have hprior : priorAnchor (input.ledger (outcomes run)) request =
            firstAnchor (lifecycleActions scope portfolioId lifecycleId (outcomes run)) := by
          unfold priorAnchor firstAnchor
          rw [hhistory]
        have hpriorCost : priorCostAnchor (input.ledger (outcomes run)) request =
            firstCostAnchor (lifecycleActions scope portfolioId lifecycleId (outcomes run)) := by
          unfold priorCostAnchor firstCostAnchor
          rw [hhistory]
        have hsold : firstExitSeen (input.ledger (outcomes run)) request =
            soldBefore (lifecycleActions scope portfolioId lifecycleId (outcomes run)) := by
          unfold firstExitSeen soldBefore
          rw [hhistory]
        obtain ⟨hanchor, hcost, hconcluded, hreduces, hstatistical⟩ :=
          actionAnchors_adjudicate hadjudicate
        rw [hprior] at hanchor hreduces
        rw [hpriorCost, hsold] at hcost
        rw [hcommand] at hstatistical
        refine ⟨hanchor, hcost, hconcluded, fun hfollows => hreduces ?_, hstatistical⟩
        refine actionDenial_eq_none fun prior hmem => ?_
        have hnext := hfollows prior (hhistory ▸ hmem)
        rw [hcommand, hscope]
        exact ⟨hnext.securityId_eq.symm, hnext.sameScope, hnext.cutoffAt_le⟩
      · exact ih hfront

/-- Along the actions of a lifecycle all reductions are measured from one anchor, and all costs
from the one of the first sale. -/
theorem actions_singleAnchors (hrun : PositionRun ctx steps run) (scope : ResultAccessScope)
    (portfolioId lifecycleId : String) :
    SingleAnchors ctx (lifecycleActions scope portfolioId lifecycleId (outcomes run)) :=
  singleAnchors_of_continues fun _ _ _ hsplit => continuesAnchors_of_run hrun hsplit

end Runs

namespace SampleAction

/-- A risky downside of an established value, with nothing else to be done but what some issuers
ask for. -/
def risky (positionId stressId liquidityId drawdownId securityId actionId : String) (t : Instant)
    (quantity : ℚ) (issuers : List IssuerConcentration) : List PositionInput :=
  assessed positionId t quantity issuers ::
    unstressed positionId stressId liquidityId drawdownId t quantity ++
  [evidenced securityId t (3 / 5, 7 / 10) (7 / 10, 4 / 5),
    action actionId securityId (planCommand t positionId stressId liquidityId drawdownId) rfl]

def strictBreach : IssuerConcentration :=
  { breach with targets := [⟨"S", 40, some 40⟩] }

/-- Three reductions, the last of which a plan makes stricter, and an action from before them. -/
def repeatedly : List PositionInput :=
  risky "X1" "T1" "Q1" "D1" "E1" "A1" 20 100 [] ++ risky "X2" "T2" "Q2" "D2" "E2" "A2" 30 80 [] ++
  risky "X3" "T3" "Q3" "D3" "E3" "A3" 40 80 [strictBreach] ++
  [assessed "X4" 10 100 [breach], action "A4" "E1" (planCommand 10 "X4" "-" "-" "-") rfl]

def reductions : List ActionFact :=
  lifecycleActions scope "P" "L" (outcomes (run repeatedly))

theorem length_reductions : reductions.length = 4 := by
  decide +kernel

def firstReduction : ActionFact :=
  reductions.get ⟨0, by rw [length_reductions]; decide⟩

def secondReduction : ActionFact :=
  reductions.get ⟨1, by rw [length_reductions]; decide⟩

def strictReduction : ActionFact :=
  reductions.get ⟨2, by rw [length_reductions]; decide⟩

def rewoundReduction : ActionFact :=
  reductions.get ⟨3, by rw [length_reductions]; decide⟩

def anchor : StatisticalReductionAnchor :=
  firstReduction.outcome.anchor.get (by decide +kernel)

theorem anchor_firstReduction : firstReduction.outcome.anchor = some anchor :=
  (Option.some_get _).symm

theorem secondReduction_mem : secondReduction ∈ reductions :=
  List.get_mem ..

theorem strictReduction_mem : strictReduction ∈ reductions :=
  List.get_mem ..

theorem firstReduction_mem : firstReduction ∈ reductions.take 1 :=
  List.mem_take_iff_getElem.mpr ⟨0, by rw [length_reductions]; decide, rfl⟩

/-- What relates the actions of the run in order relates the first and the last one. -/
theorem rewound_of_pairwise {R : ActionFact → ActionFact → Prop} (h : reductions.Pairwise R) :
    R firstReduction rewoundReduction :=
  List.pairwise_iff_get.mp h _ _ (by decide)

/-- The second reduction comes right after the first one. -/
theorem reductions_eq : reductions = reductions.take 1 ++ secondReduction :: reductions.drop 2 :=
  (List.take_append_drop 1 reductions).symm.trans
    (congrArg (reductions.take 1 ++ ·) (List.drop_eq_getElem_cons (by
      rw [length_reductions]
      decide)))

/-- The second reduction follows the first one, to fifty. -/
theorem secondReduction_spec :
    (∀ prior ∈ concludedActions (reductions.take 1), secondReduction.Follows prior) ∧
      secondReduction.outcome.direction = some .reduce ∧
      secondReduction.outcome.targetQuantity = some 50 := by
  decide +kernel

theorem rewoundReduction_spec :
    rewoundReduction.outcome.direction = some .reduce ∧
      rewoundReduction.outcome.anchor ≠ some anchor := by
  decide +kernel

/-- The third reduction is statistical, and sells more than half of the first holding. -/
theorem strictReduction_spec :
    strictReduction.outcome.modelDirection = some .reduce ∧
      (∀ reason ∈ costDenials, reason ∉ strictReduction.outcome.reasons) ∧
      firstAnchor reductions = some anchor ∧
      strictReduction.outcome.currentQuantity = some 80 ∧
      strictReduction.outcome.targetQuantity ≠
        some (reducedQuantity decimals strictReduction.command.policy 80 anchor) := by
  decide +kernel

end SampleAction

open SampleAction in
/-- The second reduction, of a holding of eighty, is measured from the hundred of the first. -/
theorem sample_singleAnchors :
    secondReduction.outcome.anchor = some anchor ∧
      secondReduction.outcome.targetQuantity = some 50 ∧
      ReducesFromAnchor decimals secondReduction.command secondReduction.outcome := by
  have hanchors : SingleAnchors decimals reductions :=
    actions_singleAnchors (positionRun_run repeatedly) scope "P" "L"
  obtain ⟨hfollows, hdirection, htarget⟩ := secondReduction_spec
  refine ⟨?_, htarget, hanchors.statistical _ secondReduction_mem⟩
  exact hanchors.reduces _ _ _ reductions_eq hfollows hdirection firstReduction
    firstReduction_mem anchor anchor_firstReduction

open SampleAction in
/-- An action from before the first reduction reduces without its anchor, and what a plan asks
for makes a reduction stricter than its anchor does. -/
theorem sample_reduces_elsewhere :
    ¬ (reductions.Pairwise fun prior next => ∀ anchor, prior.outcome.anchor = some anchor →
        next.outcome.direction = some .reduce → next.outcome.anchor = some anchor) ∧
      ¬ ∀ action ∈ reductions, action.outcome.modelDirection = some .reduce →
        (∀ reason ∈ costDenials, reason ∉ action.outcome.reasons) →
        ∃ anchor current, firstAnchor reductions = some anchor ∧
          action.outcome.currentQuantity = some current ∧
          action.outcome.targetQuantity =
            some (reducedQuantity decimals action.command.policy current anchor) := by
  refine ⟨fun hanchors => ?_, fun htargets => ?_⟩
  · obtain ⟨hdirection, hother⟩ := rewoundReduction_spec
    exact hother (rewound_of_pairwise hanchors anchor anchor_firstReduction hdirection)
  · obtain ⟨hmodel, hcosts, hanchor, hquantity, hother⟩ := strictReduction_spec
    obtain ⟨first, current, hfirst, hcurrent, htarget⟩ :=
      htargets strictReduction strictReduction_mem hmodel hcosts
    rw [hanchor] at hfirst
    rw [hquantity] at hcurrent
    obtain rfl := Option.some.inj hfirst
    cases hcurrent
    exact hother htarget

end StockProfiler.DecisionCases
