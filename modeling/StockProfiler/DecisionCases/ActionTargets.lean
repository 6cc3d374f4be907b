import StockProfiler.DecisionCases.PositionRuns

/-!
# The targets that actions keep

A target that an action attributes to a source bounds every later conclusion of its
lifecycle: it is kept by the fallback, by the plan of the action and by its costs.
-/

namespace StockProfiler.DecisionCases

open PositionManagement Portfolio

variable {quantity : ℚ}

/-- An action names a quantity of its security, with something that asks for it. -/
def CarriesTarget (securityId : String) (outcome : PositionActionOutcome) (quantity : ℚ) : Prop :=
  ∃ plan target, outcome.execution = some plan ∧ target ∈ plan.targets ∧
    target.securityId = securityId ∧ target.sourceObligationIds ≠ [] ∧
    target.targetQuantity = quantity

instance (securityId : String) (outcome : PositionActionOutcome) (quantity : ℚ) :
    Decidable (CarriesTarget securityId outcome quantity) :=
  decidable_of_iff (∃ target ∈ outcome.execution.elim [] (·.targets),
      target.securityId = securityId ∧ target.sourceObligationIds ≠ [] ∧
        target.targetQuantity = quantity) (by
    unfold CarriesTarget
    cases outcome.execution <;> simp)

/-- A conclusion sells down to a quantity at most, or holds no more than it. -/
inductive StaysWithin (quantity : ℚ) (outcome : PositionActionOutcome) : Prop where
  | exit (hdirection : outcome.direction = some .exit) (htarget : outcome.targetQuantity = some 0)
  | reduce (target : ℚ) (hdirection : outcome.direction = some .reduce)
      (htarget : outcome.targetQuantity = some target) (hle : target ≤ quantity)
      (hne : target ≠ 0)
  | hold (target : ℚ) (hdirection : outcome.direction = some .hold)
      (htarget : outcome.targetQuantity = some target)
      (hcurrent : outcome.currentQuantity = some target) (hle : target ≤ quantity)
      (hpos : 0 < target)

/-- An action is concluded within a quantity. -/
structure Ratcheted (quantity : ℚ) (outcome : PositionActionOutcome) : Prop where
  concluded : outcome.disposition = .concluded
  within : StaysWithin quantity outcome

/-- What an action is ratcheted to is in its disposition, its direction and its quantities. -/
theorem Ratcheted.congr {outcome other : PositionActionOutcome} (h : Ratcheted quantity outcome)
    (hdisposition : other.disposition = outcome.disposition)
    (hdirection : other.direction = outcome.direction)
    (htarget : other.targetQuantity = outcome.targetQuantity)
    (hcurrent : other.currentQuantity = outcome.currentQuantity) : Ratcheted quantity other := by
  refine ⟨hdisposition.trans h.concluded, ?_⟩
  cases h.within with
  | exit hexit hzero => exact .exit (hdirection.trans hexit) (htarget.trans hzero)
  | reduce target hreduce hreduced hle hne =>
    exact .reduce target (hdirection.trans hreduce) (htarget.trans hreduced) hle hne
  | hold target hhold hheld hquantity hle hpos =>
    exact .hold target (hdirection.trans hhold) (htarget.trans hheld) (hcurrent.trans hquantity)
      hle hpos

/-- A direction that follows a quantity stays within every larger one. -/
theorem staysWithin_of_directionOf {target : ℚ} {outcome : PositionActionOutcome}
    (hdirection : outcome.direction = some (directionOf target))
    (htarget : outcome.targetQuantity = some target) (hle : target ≤ quantity) :
    StaysWithin quantity outcome := by
  by_cases hzero : target = 0
  · subst hzero
    exact .exit hdirection htarget
  · rw [directionOf, if_neg hzero] at hdirection
    exact .reduce target hdirection htarget hle hzero

section Action

variable {own : ExecutionTarget} {retained : List EstablishedQuantityTarget}
  {step : StatisticalStep} {ctx : DecimalContext} {steps : ℕ} {ledger : PositionLedger}
  {request : ActionRequest} {basePlan plan : ExecutionPlanOutcome} {outcome : PositionActionOutcome}
  {position : PositionReconciliationOutcome} {security : ExitOutcome} {target : ExecutionTarget}

/-- The fallback is within every target of the security. -/
theorem ratcheted_retainedAction (h : target ∈ securityTargets ledger request basePlan) :
    Ratcheted target.targetQuantity (retainedAction ledger request basePlan) := by
  unfold retainedAction
  dsimp only
  have hmem := List.mem_map_of_mem (f := ExecutionTarget.targetQuantity) h
  split
  · rename_i hnone
    rw [List.min?_eq_none_iff.mp hnone] at hmem
    exact nomatch hmem
  · rename_i ceiling hceiling
    have hle := (List.min?_eq_some_iff.mp hceiling).2 _ hmem
    exact ⟨rfl, staysWithin_of_directionOf rfl rfl hle⟩

/-- An anchor of the costs changes nothing else of the fallback. -/
theorem fallbackAction_eq (ctx : DecimalContext) (ledger : PositionLedger) (request : ActionRequest)
    (basePlan : ExecutionPlanOutcome) :
    ∃ costAnchor, fallbackAction ctx ledger request basePlan =
      { retainedAction ledger request basePlan with costAnchor := costAnchor } := by
  unfold fallbackAction
  dsimp only
  split
  · exact ⟨_, rfl⟩
  · split
    · exact ⟨_, rfl⟩
    · exact ⟨_, rfl⟩

/-- So it is within every target of the security, whatever its costs. -/
theorem ratcheted_fallbackAction (h : target ∈ securityTargets ledger request basePlan) :
    Ratcheted target.targetQuantity (fallbackAction ctx ledger request basePlan) := by
  obtain ⟨costAnchor, heq⟩ := fallbackAction_eq ctx ledger request basePlan
  rw [heq]
  exact (ratcheted_retainedAction h).congr rfl rfl rfl rfl

theorem mem_of_establishTargets {evidence : PositionEvidence} {targets : List ExecutionTarget}
    {established : List EstablishedQuantityTarget} {id : String}
    (h : establishTargets request evidence targets = some established) (hmem : target ∈ targets)
    (hid : id ∈ target.sourceObligationIds) :
    ∃ own ∈ established, own.securityId = target.securityId ∧
      own.targetQuantity = target.targetQuantity ∧ own.qualified ∧ own.evidence = evidence := by
  have hentry : (id, target) ∈ targets.flatMap fun target =>
      target.sourceObligationIds.map fun id => (id, target) :=
    List.mem_flatMap.mpr ⟨target, hmem, List.mem_map_of_mem hid⟩
  obtain ⟨own, hown, hestablish⟩ := forall₂_mem_left (forall₂_of_mapM_eq_some h) hentry
  unfold establish at hestablish
  split at hestablish
  · cases hestablish
    exact ⟨_, hown, rfl, rfl, rfl, rfl⟩
  · exact nomatch hestablish

/-- A plan of an action that was asked for established targets. -/
def PlansWith (ctx : DecimalContext) (steps : ℕ) (ledger : PositionLedger) (request : ActionRequest)
    (retained : List EstablishedQuantityTarget) (plan : ExecutionPlanOutcome) : Prop :=
  ∃ established, retained ⊆ established ∧
    adjudicateExecutionPlan ctx steps ledger request.scope
      { request.command.execution with establishedTargets := established } = some plan

/-- A plan attributes no more to a security than what it was asked for on sound evidence. -/
theorem attributedTarget_of_plansWith {own : EstablishedQuantityTarget}
    (h : PlansWith ctx steps ledger request retained plan)
    (hdenial : planDenial ledger request.scope request.command.execution = none)
    (hown : own ∈ retained) (hqualified : own.qualified)
    (hevidence : own.evidence.problemCodes request.command.cutoffAt true = []) :
    ∃ kept, attributedTarget plan own.securityId = some kept ∧
      kept.targetQuantity ≤ own.targetQuantity := by
  obtain ⟨established, hsubset, hplan⟩ := h
  have hasked : (⟨own.securityId, own.targetQuantity, none, [own.targetId], none, none,
      own.direction, false⟩ : ExecutionTarget) ∈ askedTargets ledger request.scope
        { request.command.execution with establishedTargets := established } := by
    unfold askedTargets
    refine List.mem_append_left _ (List.mem_append_left _ (List.mem_append_right _ ?_))
    refine List.mem_filterMap.mpr ⟨own, hsubset hown, ?_⟩
    unfold establishedTarget?
    rw [if_pos ⟨hqualified, request.command.execution_cutoffAt ▸ hevidence⟩]
  obtain ⟨kept, hkept, htightens⟩ := attributedTarget_of_asked hplan hdenial hasked (by simp)
  exact ⟨kept, hkept, htightens.targetQuantity_le⟩

/-- The plan of an assessed action is asked for what its history attributes. -/
theorem plansWith_actionPlanCommand {more : List EstablishedQuantityTarget}
    (h : adjudicateExecutionPlan ctx steps ledger request.scope
      (actionPlanCommand request (retained ++ more)) = some plan) :
    PlansWith ctx steps ledger request retained plan := by
  refine ⟨request.command.execution.establishedTargets ++ (retained ++ more), ?_, h⟩
  exact fun own hown => List.mem_append_right _ (List.mem_append_left _ hown)

theorem plansWith_statisticalPlan {planned : ExecutionPlanOutcome}
    (hplan : PlansWith ctx steps ledger request retained plan)
    (h : statisticalPlan ctx steps ledger request position step retained plan = some planned) :
    PlansWith ctx steps ledger request retained planned := by
  unfold statisticalPlan at h
  split at h
  · exact Option.some.inj h ▸ hplan
  · split at h
    · obtain ⟨own, -, h⟩ := bind_eq_some.mp h
      exact plansWith_actionPlanCommand h
    · exact Option.some.inj h ▸ hplan

/-- So is the plan that is left when the statistical target is dropped. -/
theorem plansWith_costedPlan {cost : ActionCostAssessment} {costed : ExecutionPlanOutcome}
    (hplan : PlansWith ctx steps ledger request retained plan)
    (h : costedPlan ctx steps ledger request cost retained plan = some costed) :
    PlansWith ctx steps ledger request retained costed := by
  unfold costedPlan at h
  split at h
  · exact ⟨retained, fun _ hown => hown, h⟩
  · exact Option.some.inj h ▸ hplan

/-- What a statistical step says of its direction. -/
inductive StepFits (quantity : ℚ) (step : StatisticalStep) : Prop where
  | none (hdirection : step.direction = none) (htarget : step.target = none)
  | hold (hdirection : step.direction = some .hold) (htarget : step.target = some quantity)
      (hpos : 0 < quantity)
  | exit (hdirection : step.direction = some .exit) (htarget : step.target = some 0)
  | reduce (target : ℚ) (hdirection : step.direction = some .reduce)
      (htarget : step.target = some target) (hpos : 0 < target)

/-- A direction of a positive holding fits its target. -/
theorem stepFits_statisticalStep {direction : Option TargetDirection}
    (hquantity : direction ≠ none → 0 < quantity)
    (h : statisticalStep ctx ledger request security quantity direction = some step) :
    StepFits quantity step := by
  unfold statisticalStep at h
  split at h
  · exact Option.some.inj h ▸ .none rfl rfl
  · exact Option.some.inj h ▸ .hold rfl rfl (hquantity (by simp))
  · exact Option.some.inj h ▸ .exit rfl rfl
  · obtain ⟨anchor, -, rfl⟩ := Option.map_eq_some_iff.mp h
    have hreduced : 0 < ctx.mul anchor.quantity request.command.policy.reductionRatio :=
      ctx.mul_pos_of anchor.quantity_pos request.command.policy.reductionRatio_mem.1
    exact .reduce _ rfl rfl (lt_min (hquantity (by simp)) hreduced)

theorem StepFits.costedStep (h : StepFits quantity step) (cost : ActionCostAssessment) :
    StepFits quantity (costedStep cost step) := by
  unfold DecisionCases.costedStep
  split
  · exact .none rfl rfl
  · exact h

theorem pos_of_openReasons_eq_nil {grid : RiskGrid}
    (h : openReasons ledger request position security plan quantity grid = []) : 0 < quantity := by
  unfold openReasons at h
  simp only [List.append_eq_nil_iff] at h
  obtain ⟨⟨⟨-, hfacts⟩, -⟩, -⟩ := h
  by_contra hle
  rw [if_pos (.inl (not_lt.mp hle))] at hfacts
  exact List.cons_ne_nil _ _ hfacts

/-- The stricter of a step and a target in force is within whatever bounds the latter. -/
theorem staysWithin_strictest {bound : ℚ} (hstep : StepFits quantity step)
    (hown : own.targetQuantity ≤ bound)
    (hdirection : outcome.direction = (strictest step (some own)).direction)
    (htarget : outcome.targetQuantity = (strictest step (some own)).target)
    (hcurrent : outcome.currentQuantity = some quantity) : StaysWithin bound outcome := by
  unfold strictest at hdirection htarget
  dsimp only at hdirection htarget
  split at hdirection
  · rename_i hstricter
    rw [if_pos hstricter] at htarget
    exact staysWithin_of_directionOf hdirection htarget hown
  · rename_i hkept
    rw [if_neg hkept] at htarget
    -- The target of the step is no larger than the one in force.
    have hle : ∀ target, step.target = some target → target ≤ bound := by
      intro target heq
      rw [heq, Option.all_some, decide_eq_true_eq, not_lt] at hkept
      exact hkept.trans hown
    cases hstep with
    | none hnone htargetNone =>
      rw [htargetNone] at hkept
      exact absurd rfl hkept
    | hold hhold hheld hpos =>
      exact .hold quantity (hdirection.trans hhold) (htarget.trans hheld) hcurrent
        (hle _ hheld) hpos
    | exit hexit hzero => exact .exit (hdirection.trans hexit) (htarget.trans hzero)
    | reduce target hreduce hreduced hpos =>
      exact .reduce target (hdirection.trans hreduce) (htarget.trans hreduced) (hle _ hreduced)
        (ne_of_gt hpos)

/-- A step that is made the stricter with a target in force has a direction. -/
theorem isSome_strictest (hstep : StepFits quantity step) :
    (strictest step (some own)).direction.isSome := by
  unfold strictest
  dsimp only
  split
  · rfl
  · rename_i hkept
    cases hstep with
    | none _ htarget =>
      rw [htarget] at hkept
      exact absurd rfl hkept
    | hold hdirection => rw [hdirection]; rfl
    | exit hdirection => rw [hdirection]; rfl
    | reduce _ hdirection => rw [hdirection]; rfl

theorem statisticalAction_eq_some (hplan : PlansWith ctx steps ledger request retained plan)
    (h : statisticalAction ctx steps ledger request position security retained plan quantity =
      some outcome) :
    ∃ step costed, StepFits quantity step ∧ PlansWith ctx steps ledger request retained costed ∧
      outcome.direction =
        (strictest step (attributedTarget costed request.command.securityId)).direction ∧
      outcome.targetQuantity =
        (strictest step (attributedTarget costed request.command.securityId)).target ∧
      outcome.currentQuantity = some quantity ∧
      (outcome.direction.isSome → outcome.disposition = .concluded) ∧
      outcome.execution = some (completedPlan ctx ledger request position costed quantity) := by
  unfold statisticalAction at h
  dsimp only at h
  obtain ⟨step, hstep, h⟩ := bind_eq_some.mp h
  obtain ⟨planned, hplanned, h⟩ := bind_eq_some.mp h
  obtain ⟨cost, -, h⟩ := bind_eq_some.mp h
  obtain ⟨costed, hcosted, h⟩ := bind_eq_some.mp h
  cases h
  have hfits := stepFits_statisticalStep (fun hdirection => by
    by_contra hpos
    refine hdirection (if_neg fun hopen => ?_)
    exact hpos (pos_of_openReasons_eq_nil hopen.2)) hstep
  refine ⟨costedStep cost step, costed, hfits.costedStep cost,
    plansWith_costedPlan (plansWith_statisticalPlan hplan hplanned) hcosted, rfl, rfl, rfl,
    fun hdirection => ?_, rfl⟩
  exact if_pos hdirection

/-- An earlier action of the lifecycle attributes a target. -/
def AttributedBefore (ledger : PositionLedger) (request : ActionRequest)
    (target : ExecutionTarget) : Prop :=
  target.securityId = request.command.securityId ∧ target.sourceObligationIds ≠ [] ∧
    ∃ fact ∈ actionHistory ledger request, target ∈ fact.outcome.execution.elim [] (·.targets)

/-- The position of an action, where its quantities are known, is on sound evidence. -/
def SoundPosition (ledger : PositionLedger) (request : ActionRequest) : Prop :=
  ∀ position, knownPosition ledger request = some position →
    position.snapshot.snapshotEvidence.problemCodes request.command.cutoffAt true = []

theorem mem_securityTargets (h : AttributedBefore ledger request target)
    (basePlan : ExecutionPlanOutcome) : target ∈ securityTargets ledger request basePlan := by
  obtain ⟨hsecurity, hsources, fact, hfact, hmem⟩ := h
  refine List.mem_append_left _ (List.mem_flatMap.mpr ⟨fact, hfact, ?_⟩)
  exact List.mem_filter.mpr ⟨hmem, decide_eq_true ⟨hsecurity, hsources⟩⟩

theorem exists_historyTarget (h : AttributedBefore ledger request target)
    (hretained : historyTargets ledger request position = some retained) :
    ∃ own ∈ retained, own.securityId = target.securityId ∧
      own.targetQuantity = target.targetQuantity ∧ own.qualified ∧
      own.evidence = position.snapshot.snapshotEvidence := by
  obtain ⟨hsecurity, hsources, fact, hfact, hmem⟩ := h
  obtain ⟨id, hid⟩ := List.exists_mem_of_ne_nil _ hsources
  refine mem_of_establishTargets hretained (List.mem_flatMap.mpr ⟨fact, hfact, ?_⟩) hid
  exact List.mem_filter.mpr ⟨hmem, decide_eq_true hsecurity⟩

/-- A target of an earlier action bounds the conclusion for a holding of known quantity. -/
theorem ratcheted_assessedAction (hbefore : AttributedBefore ledger request target)
    (hdenial : planDenial ledger request.scope request.command.execution = none)
    (hevidence : position.snapshot.snapshotEvidence.problemCodes request.command.cutoffAt true = [])
    (h : assessedAction ctx steps ledger request position security = some outcome) :
    Ratcheted target.targetQuantity outcome := by
  unfold assessedAction at h
  dsimp only at h
  obtain ⟨retained, hretained, h⟩ := bind_eq_some.mp h
  obtain ⟨gates, -, h⟩ := bind_eq_some.mp h
  obtain ⟨plan, hplan, h⟩ := bind_eq_some.mp h
  split at h
  · cases h
    exact ⟨rfl, .exit rfl rfl⟩
  · obtain ⟨step, costed, hfits, hcosted, hdirection, htarget, hcurrent, hconcluded, -⟩ :=
      statisticalAction_eq_some (plansWith_actionPlanCommand hplan) h
    obtain ⟨own, hown, hsecurity, hquantity, hqualified, hsource⟩ :=
      exists_historyTarget hbefore hretained
    obtain ⟨kept, hkept, hle⟩ := attributedTarget_of_plansWith hcosted hdenial hown hqualified
      (hsource ▸ hevidence)
    rw [hsecurity, hbefore.1] at hkept
    rw [hkept] at hdirection htarget
    refine ⟨hconcluded (hdirection ▸ isSome_strictest hfits), ?_⟩
    exact staysWithin_strictest hfits (hle.trans_eq hquantity) hdirection htarget hcurrent

/-- A target of an earlier action bounds the conclusion, whatever is missing. -/
theorem ratcheted_concludeAction (hbefore : AttributedBefore ledger request target)
    (hnext : actionDenial ledger request = none)
    (hdenial : planDenial ledger request.scope request.command.execution = none)
    (hsound : SoundPosition ledger request)
    (h : concludeAction ctx steps ledger request basePlan = some outcome) :
    Ratcheted target.targetQuantity outcome := by
  unfold concludeAction at h
  rw [hnext] at h
  dsimp only at h
  have hfallback : Ratcheted target.targetQuantity (fallbackAction ctx ledger request basePlan) :=
    ratcheted_fallbackAction (mem_securityTargets hbefore basePlan)
  split at h
  · exact Option.some.inj h ▸ hfallback
  · split at h
    · split at h
      · exact Option.some.inj h ▸ hfallback
      · cases h
        exact ⟨rfl, .exit rfl rfl⟩
    · rename_i position hposition
      split at h
      · exact Option.some.inj h ▸ hfallback
      · exact ratcheted_assessedAction hbefore hdenial (hsound position hposition) h

theorem adjudicatePositionAction_eq_some
    (h : adjudicatePositionAction ctx steps ledger request = some outcome) :
    ∃ basePlan concluded deterministic,
      concludeAction ctx steps ledger request basePlan = some concluded ∧
      outcome = { concluded with deterministicExecution := deterministic } := by
  obtain ⟨inherited, -, h⟩ := bind_eq_some.mp h
  obtain ⟨basePlan, -, h⟩ := bind_eq_some.mp h
  obtain ⟨concluded, hconcluded, h⟩ := bind_eq_some.mp h
  exact ⟨basePlan, concluded, _, hconcluded, (Option.some.inj h).symm⟩

theorem ratcheted_adjudicatePositionAction (hbefore : AttributedBefore ledger request target)
    (hnext : actionDenial ledger request = none)
    (hdenial : planDenial ledger request.scope request.command.execution = none)
    (hsound : SoundPosition ledger request)
    (h : adjudicatePositionAction ctx steps ledger request = some outcome) :
    Ratcheted target.targetQuantity outcome := by
  obtain ⟨basePlan, concluded, deterministic, hconcluded, rfl⟩ := adjudicatePositionAction_eq_some h
  exact (ratcheted_concludeAction hbefore hnext hdenial hsound hconcluded).congr rfl rfl rfl rfl

theorem mem_completedPlan
    (h : target ∈ (completedPlan ctx ledger request position plan quantity).targets) :
    ∃ own ∈ plan.targets, own.securityId = target.securityId ∧
      own.sourceObligationIds = target.sourceObligationIds ∧
      own.targetQuantity = target.targetQuantity := by
  unfold completedPlan at h
  split at h
  · obtain ⟨own, hown, rfl⟩ := List.mem_map.mp h
    exact ⟨own, hown, rfl, rfl, rfl⟩
  · unfold completeQuantityGaps at h
    obtain ⟨own, hown, rfl⟩ := List.mem_map.mp h
    refine ⟨own, hown, ?_⟩
    split
    · exact ⟨rfl, rfl, rfl⟩
    · exact ⟨rfl, rfl, rfl⟩

theorem concluded_of_independentAction {reason : String}
    (h : (independentAction request basePlan reason).execution ≠ none) :
    (independentAction request basePlan reason).disposition = .concluded := by
  unfold independentAction at h ⊢
  split
  · rename_i hnone
    rw [hnone] at h
    exact absurd rfl h
  · rfl

theorem concluded_of_retainedAction
    (h : (retainedAction ledger request basePlan).execution ≠ none) :
    (retainedAction ledger request basePlan).disposition = .concluded := by
  unfold retainedAction at h ⊢
  dsimp only at h ⊢
  split
  · rename_i hnone
    rw [hnone] at h
    exact concluded_of_independentAction h
  · rfl

/-- Whoever attributes a target to the security concludes. -/
theorem concluded_of_carriesTarget
    (hcarries : CarriesTarget request.command.securityId outcome quantity)
    (h : concludeAction ctx steps ledger request basePlan = some outcome) :
    outcome.disposition = .concluded := by
  obtain ⟨plan, target, hexecution, hmem, hsecurity, hsources, -⟩ := hcarries
  have hexecuted : outcome.execution ≠ none := by rw [hexecution]; simp
  unfold concludeAction at h
  split at h
  · cases h
    exact concluded_of_independentAction hexecuted
  · dsimp only at h
    have hfallback : outcome = fallbackAction ctx ledger request basePlan →
        outcome.disposition = .concluded := by
      rintro rfl
      obtain ⟨costAnchor, heq⟩ := fallbackAction_eq ctx ledger request basePlan
      rw [heq] at hexecuted ⊢
      exact concluded_of_retainedAction hexecuted
    split at h
    · exact hfallback (Option.some.inj h).symm
    · split at h
      · split at h
        · exact hfallback (Option.some.inj h).symm
        · cases h
          rfl
      · split at h
        · exact hfallback (Option.some.inj h).symm
        · unfold assessedAction at h
          dsimp only at h
          obtain ⟨retained, -, h⟩ := bind_eq_some.mp h
          obtain ⟨gates, -, h⟩ := bind_eq_some.mp h
          obtain ⟨asked, hasked, h⟩ := bind_eq_some.mp h
          split at h
          · cases h
            rfl
          · obtain ⟨step, costed, hfits, -, hdirection, -, -, hconcluded, hcompleted⟩ :=
              statisticalAction_eq_some (plansWith_actionPlanCommand hasked) h
            rw [hexecution] at hcompleted
            cases hcompleted
            obtain ⟨own, hown, hownSecurity, hownSources, -⟩ := mem_completedPlan hmem
            -- The target makes the plan attribute one, which gives the action a direction.
            cases heffective : attributedTarget costed request.command.securityId with
            | none =>
              have hnot := List.find?_eq_none.mp heffective own hown
              simp [hownSecurity, hownSources, hsecurity, hsources] at hnot
            | some effective =>
              rw [heffective] at hdirection
              exact hconcluded (hdirection ▸ isSome_strictest hfits)

end Action

end StockProfiler.DecisionCases
