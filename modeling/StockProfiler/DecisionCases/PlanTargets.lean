import StockProfiler.DecisionCases.ExecutionPlans

/-!
# The targets that plans keep

Everything that asks for a quantity is covered by the plan that is adjudicated, at no
larger a quantity and with all of its sources, on whichever way the plan ends.
-/

namespace StockProfiler.DecisionCases

open PositionManagement Portfolio

variable {retained : Dict String ExecutionTarget}

/-- A target is retained, at no larger a quantity. -/
def Retains (retained : Dict String ExecutionTarget) (target : ExecutionTarget) : Prop :=
  ∃ kept, retained.get? target.securityId = some kept ∧ target.Tightens kept

/-- Every target is filed under its own security. -/
def FiledBySecurity (retained : Dict String ExecutionTarget) : Prop :=
  ∀ securityId target, retained.get? securityId = some target → target.securityId = securityId

theorem get?_retainTarget_self (retained : Dict String ExecutionTarget) (target : ExecutionTarget) :
    ∃ kept, (retainTarget retained target).get? target.securityId = some kept ∧
      target.Tightens kept ∧
      ∀ prior, retained.get? target.securityId = some prior →
        prior.securityId = target.securityId → prior.Tightens kept := by
  unfold retainTarget
  dsimp only
  rw [Dict.get?_set, if_pos rfl]
  refine ⟨_, rfl, ⟨rfl, ?_, ?_⟩, ?_⟩
  · cases retained.get? target.securityId with
    | none => exact le_rfl
    | some prior => exact min_le_right _ _
  · intro id hid
    exact List.mem_eraseDups.mpr (List.mem_append_right _ hid)
  · intro prior hprior hsecurity
    rw [hprior]
    refine ⟨hsecurity.symm, min_le_left _ _, fun id hid => ?_⟩
    exact List.mem_eraseDups.mpr (List.mem_append_left _ hid)

theorem get?_retainTarget_ne (retained : Dict String ExecutionTarget) {target : ExecutionTarget}
    {securityId : String} (hne : securityId ≠ target.securityId) :
    (retainTarget retained target).get? securityId = retained.get? securityId := by
  unfold retainTarget
  dsimp only
  rw [Dict.get?_set, if_neg hne.symm]

theorem FiledBySecurity.retainTarget (h : FiledBySecurity retained) (target : ExecutionTarget) :
    FiledBySecurity (retainTarget retained target) := by
  intro securityId kept hkept
  by_cases heq : securityId = target.securityId
  · subst heq
    obtain ⟨found, hfound, htightens, -⟩ := get?_retainTarget_self retained target
    rw [hkept] at hfound
    cases hfound
    exact htightens.securityId_eq
  · rw [get?_retainTarget_ne retained heq] at hkept
    exact h securityId kept hkept

theorem Retains.retainTarget {asked : ExecutionTarget} (h : Retains retained asked)
    (target : ExecutionTarget) : Retains (retainTarget retained target) asked := by
  obtain ⟨kept, hkept, htightens⟩ := h
  by_cases heq : asked.securityId = target.securityId
  · obtain ⟨found, hfound, -, hprior⟩ := get?_retainTarget_self retained target
    rw [heq] at hkept
    refine ⟨found, heq ▸ hfound, htightens.trans (hprior kept hkept ?_)⟩
    rw [htightens.securityId_eq, heq]
  · exact ⟨kept, (get?_retainTarget_ne retained heq).trans hkept, htightens⟩

/-- A fold retains what was retained before it and every target that it goes through. -/
theorem retains_foldl {asked : List ExecutionTarget} {target : ExecutionTarget}
    (h : Retains retained target ∨ target ∈ asked) :
    Retains (asked.foldl retainTarget retained) target := by
  induction asked generalizing retained with
  | nil => exact h.resolve_right List.not_mem_nil
  | cons head asked ih =>
    rw [List.foldl_cons]
    refine ih ?_
    rcases h with h | h
    · exact .inl (h.retainTarget head)
    · rcases List.mem_cons.mp h with rfl | h
      · obtain ⟨kept, hkept, htightens, -⟩ := get?_retainTarget_self retained target
        exact .inl ⟨kept, hkept, htightens⟩
      · exact .inr h

theorem filedBySecurity_foldl (asked : List ExecutionTarget) (h : FiledBySecurity retained) :
    FiledBySecurity (asked.foldl retainTarget retained) := by
  induction asked generalizing retained with
  | nil => exact h
  | cons head asked ih => exact ih (h.retainTarget head)

section Plan

variable {ctx : DecimalContext} {steps : ℕ} {ledger : PositionLedger} {scope : ResultAccessScope}
  {command : ExecutionPlanCommand} {plan : ExecutionPlanOutcome} {target : ExecutionTarget}

theorem retains_of_asked (h : target ∈ askedTargets ledger scope command) :
    Retains (retainedTargets ledger scope command) target :=
  retains_foldl (.inr h)

theorem filedBySecurity_retainedTargets : FiledBySecurity (retainedTargets ledger scope command) :=
  filedBySecurity_foldl _ nofun

/-- A plan lists each security once. -/
def ListsOnce (targets : List ExecutionTarget) : Prop := (targets.map (·.securityId)).Nodup

theorem map_securityId_filterMap_get? (h : FiledBySecurity retained) (keys : List String) :
    ((keys.filterMap retained.get?).map (·.securityId)).Sublist keys := by
  induction keys with
  | nil => exact .slnil
  | cons key keys ih =>
    cases hkey : retained.get? key with
    | none =>
      rw [List.filterMap_cons_none hkey]
      exact ih.cons key
    | some kept =>
      rw [List.filterMap_cons_some hkey, List.map_cons, h key kept hkey]
      exact ih.cons_cons key

/-- The target of a holding keeps what is retained of its security. -/
theorem tightens_plannedTarget {kept : ExecutionTarget} (units : List PositionActionUnit)
    (h : retained.get? target.securityId = some kept) (htightens : target.Tightens kept) :
    target.Tightens (plannedTarget ctx retained units target.securityId) := by
  unfold plannedTarget
  dsimp only
  rw [h]
  exact ⟨rfl, (min_le_right _ _).trans htightens.targetQuantity_le, htightens.sources_subset⟩

/-- What the resolution of a plan establishes of its targets. -/
theorem resolvePlan_targets {handoff : PlanHandoff} {targets : List ExecutionTarget}
    (h : resolvePlan ctx ledger scope command = .ok (handoff, targets)) :
    (∀ securityId ∈ (retainedTargets ledger scope command).keys,
      securityId ∈ handoff.risk.snapshot.actionUnits.map (·.securityId)) ∧
      handoff.risk.snapshot.actionUnits.all (·.totalQuantity.isSome) ∧
      targets = (sortedSet (handoff.risk.snapshot.actionUnits.map (·.securityId))).map
        (plannedTarget ctx (retainedTargets ledger scope command)
          handoff.risk.snapshot.actionUnits) := by
  obtain ⟨resolved, -, h⟩ := bind_eq_ok.mp h
  obtain ⟨planned, hplanned, h⟩ := bind_eq_ok.mp h
  cases h
  obtain ⟨_, hknown, hplanned⟩ := bind_eq_ok.mp hplanned
  obtain ⟨_, hscope, hplanned⟩ := bind_eq_ok.mp hplanned
  obtain ⟨-, -, hplanned⟩ := bind_eq_ok.mp hplanned
  cases hplanned
  exact ⟨require_eq_ok.mp hscope, require_eq_ok.mp hknown, rfl⟩

variable (h : adjudicateExecutionPlan ctx steps ledger scope command = some plan)
include h

theorem adjudicateExecutionPlan_cases :
    (∃ reason, planDenial ledger scope command = some reason ∧ plan = missingPlan [] reason) ∨
    (planDenial ledger scope command = none ∧
      ((∃ reason, resolvePlan ctx ledger scope command = .error reason ∧
        plan = missingPlan ((sortedSet (retainedTargets ledger scope command).keys).filterMap
          (retainedTargets ledger scope command).get?) reason) ∨
      ∃ handoff targets conjoined,
        resolvePlan ctx ledger scope command = .ok (handoff, targets) ∧
          conjoinPortfolioTargets ctx steps command handoff.risk targets = some conjoined ∧
          plan = handoff.widen conjoined)) := by
  unfold adjudicateExecutionPlan at h
  cases hdenial : planDenial ledger scope command with
  | some reason =>
    rw [hdenial] at h
    exact .inl ⟨reason, rfl, (Option.some.inj h).symm⟩
  | none =>
    rw [hdenial] at h
    dsimp only at h
    refine .inr ⟨rfl, ?_⟩
    split at h
    · rename_i reason hreason
      exact .inl ⟨reason, hreason, (Option.some.inj h).symm⟩
    · rename_i handoff targets hresolve
      obtain ⟨conjoined, hconjoined, rfl⟩ := Option.map_eq_some_iff.mp h
      exact .inr ⟨handoff, targets, conjoined, hresolve, hconjoined, rfl⟩

theorem listsOnce_of_adjudicate : ListsOnce plan.targets := by
  rcases adjudicateExecutionPlan_cases h with ⟨reason, -, rfl⟩ | ⟨-, ⟨reason, -, rfl⟩ |
    ⟨handoff, targets, conjoined, hresolve, hconjoined, rfl⟩⟩
  · exact List.nodup_nil
  · exact (sortedSet_nodup _).sublist
      (map_securityId_filterMap_get? filedBySecurity_retainedTargets _)
  · obtain ⟨-, -, htargets⟩ := resolvePlan_targets hresolve
    have hkept := (targetsTighten_conjoinPortfolioTargets hconjoined).securityIds
    unfold ListsOnce PlanHandoff.widen
    dsimp only
    rw [hkept, htargets, List.map_map]
    have hid : (fun target : ExecutionTarget => target.securityId) ∘
        plannedTarget ctx (retainedTargets ledger scope command)
          handoff.risk.snapshot.actionUnits = id := rfl
    rw [hid, List.map_id]
    exact sortedSet_nodup _

theorem exists_tightens_of_asked (hdenial : planDenial ledger scope command = none)
    (hasked : target ∈ askedTargets ledger scope command) :
    ∃ kept ∈ plan.targets, target.Tightens kept := by
  obtain ⟨kept, hkept, htightens⟩ := retains_of_asked hasked
  have hkey : target.securityId ∈ (retainedTargets ledger scope command).keys := by
    rw [Dict.mem_keys_iff, hkept]
    rfl
  rcases adjudicateExecutionPlan_cases h with ⟨reason, hreason, -⟩ | ⟨-, ⟨reason, -, rfl⟩ |
    ⟨handoff, targets, conjoined, hresolve, hconjoined, rfl⟩⟩
  · rw [hdenial] at hreason
    cases hreason
  · exact ⟨kept, List.mem_filterMap.mpr ⟨_, mem_sortedSet.mpr hkey, hkept⟩, htightens⟩
  · obtain ⟨hscope, -, htargets⟩ := resolvePlan_targets hresolve
    have hplanned : plannedTarget ctx (retainedTargets ledger scope command)
        handoff.risk.snapshot.actionUnits target.securityId ∈ targets := by
      rw [htargets]
      exact List.mem_map_of_mem (mem_sortedSet.mpr (hscope _ hkey))
    obtain ⟨last, hlast, hlastTightens⟩ :=
      forall₂_mem_left (targetsTighten_conjoinPortfolioTargets hconjoined) hplanned
    exact ⟨last, hlast, (tightens_plannedTarget _ hkept htightens).trans hlastTightens⟩

end Plan

/-- The target of a security that says what asks for it. -/
def attributedTarget (plan : ExecutionPlanOutcome) (securityId : String) :
    Option ExecutionTarget :=
  plan.targets.find? fun target =>
    target.securityId = securityId ∧ target.sourceObligationIds ≠ []

/-- Where a plan lists each security once, the target in force is any one with sources. -/
theorem attributedTarget_eq {plan : ExecutionPlanOutcome} {target : ExecutionTarget}
    (hplan : ListsOnce plan.targets) (hmem : target ∈ plan.targets)
    (hsources : target.sourceObligationIds ≠ []) :
    attributedTarget plan target.securityId = some target := by
  unfold attributedTarget
  cases hfound : plan.targets.find? fun other =>
      decide (other.securityId = target.securityId ∧ other.sourceObligationIds ≠ []) with
  | none =>
    have hnot := List.find?_eq_none.mp hfound target hmem
    simp [hsources] at hnot
  | some other =>
    have hother := List.find?_some hfound
    obtain ⟨hsecurity, -⟩ := of_decide_eq_true hother
    rw [List.inj_on_of_nodup_map hplan (List.mem_of_find?_eq_some hfound) hmem hsecurity]

/-- A target with sources that a plan was asked for bounds the one in force. -/
theorem attributedTarget_of_asked {ctx : DecimalContext} {steps : ℕ} {ledger : PositionLedger}
    {scope : ResultAccessScope} {command : ExecutionPlanCommand} {plan : ExecutionPlanOutcome}
    {target : ExecutionTarget}
    (h : adjudicateExecutionPlan ctx steps ledger scope command = some plan)
    (hdenial : planDenial ledger scope command = none)
    (hasked : target ∈ askedTargets ledger scope command)
    (hsources : target.sourceObligationIds ≠ []) :
    ∃ kept, attributedTarget plan target.securityId = some kept ∧ target.Tightens kept := by
  obtain ⟨kept, hkept, htightens⟩ := exists_tightens_of_asked h hdenial hasked
  obtain ⟨id, hid⟩ := List.exists_mem_of_ne_nil _ hsources
  have hne : kept.sourceObligationIds ≠ [] :=
    List.ne_nil_of_mem (htightens.sources_subset hid)
  refine ⟨kept, ?_, htightens⟩
  rw [← htightens.securityId_eq]
  exact attributedTarget_eq (listsOnce_of_adjudicate h) hkept hne

end StockProfiler.DecisionCases
