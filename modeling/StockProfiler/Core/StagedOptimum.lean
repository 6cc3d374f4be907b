import Mathlib.Data.Set.Finite.Lemmas
import StockProfiler.Core.Leximin
import StockProfiler.Core.LinearModel
import StockProfiler.Core.Spending

/-!
# Maximizing in stages

Each stage maximizes an objective and fixes its value before the next one. What the
objectives measure is a function of what an assignment is read as, although other
variables may be needed to measure it. The last assignment is then read as a
lexicographic optimum of what the stages measure. Where assignments are read as finitely
many things, every stage has an optimum, so an exact optimizer solves all of them as far as
the limits of the model reach.
-/

namespace StockProfiler

variable {ν α : Type*}

/-- An assignment is feasible, and none has a greater value. -/
def LinearModel.IsOptimum (model : LinearModel ν) (objective : Linear ν) (x : ν → ℚ) : Prop :=
  model.Feasible x ∧ ∀ y, model.Feasible y → objective.value y ≤ objective.value x

/-- Fix the value of an objective. -/
def LinearModel.fix (model : LinearModel ν) (objective : Linear ν) (value : ℚ) : LinearModel ν :=
  { model with rows := model.rows ++
      [{ terms := objective, lower := some value, upper := some value }] }

/-- Numbers of variables, of rows and of solves. -/
abbrev ModelSize := ℕ × ℕ × ℕ

/-- A model, and how often the models of its budget were solved. -/
structure BudgetedModel (ν : Type*) where
  model : LinearModel ν
  solveCount : ℕ

/-- What a model has used of its budget. -/
def BudgetedModel.size (state : BudgetedModel ν) : ModelSize :=
  (state.model.columns.length, state.model.rows.length, state.solveCount)

/-- A stage solves once and adds one row. -/
def stageSize : ModelSize := (0, 1, 1)

/-- Maximize an objective and fix the value that was found. The variables and rows that were added
since the last stage are within the limits where all of them are with this one. -/
def maximizeAndFix (limits : ModelSize) (milp : LinearModel ν → Linear ν → Option (ν → ℚ))
    (state : BudgetedModel ν) (objective : Linear ν) : Option (BudgetedModel ν × (ν → ℚ)) :=
  if state.size + stageSize ≤ limits then
    (milp state.model objective).map fun solution =>
      (⟨state.model.fix objective (objective.value solution), state.solveCount + 1⟩, solution)
  else none

/-- An optimizer returns an optimal assignment wherever there is one, and no other. -/
structure ExactOptimizer (milp : LinearModel ν → Linear ν → Option (ν → ℚ)) : Prop where
  isOptimum : ∀ model objective x, milp model objective = some x → model.IsOptimum objective x
  isSome : ∀ model objective x, model.IsOptimum objective x → (milp model objective).isSome

/-- What some assignment is read as. -/
def Readable (read : (ν → ℚ) → α) (base : (ν → ℚ) → Prop) (a : α) : Prop :=
  ∃ x, base x ∧ read x = a

/-- The stages so far fix the values of what they measure. Every assignment measures so, every
reading that measures so is extended by an assignment that is free in some variables, and no
reading measures more. -/
structure Staged (read : (ν → ℚ) → α) (base : (ν → ℚ) → Prop) (extension : α → (ν → ℚ) → Prop)
    (model : LinearModel ν) (free : Set ν) (stages : List ((α → ℚ) × ℚ)) : Prop where
  sound : ∀ x, model.Feasible x → base x ∧ ∀ stage ∈ stages, stage.1 (read x) = stage.2
  complete : ∀ a, Readable read base a → (∀ stage ∈ stages, stage.1 a = stage.2) →
    ∀ z : ν → ℚ, ∃ x, model.Feasible x ∧ extension a x ∧ ∀ v ∈ free, x v = z v
  best : ∀ a, Readable read base a → stages.map (·.1 a) ≤ stages.map (·.2)

/-- An objective measures a quantity where the stages so far fix theirs: no assignment has more of
it than it is read as, and each reading has an extension that attains it and is free in some
variables. -/
structure Measuring (read : (ν → ℚ) → α) (base : (ν → ℚ) → Prop)
    (extension : α → (ν → ℚ) → Prop) (model : LinearModel ν) (free : Set ν)
    (stages : List ((α → ℚ) × ℚ)) (objective : Linear ν) (measure : α → ℚ) : Prop where
  sound : ∀ x, model.Feasible x → base x ∧ ∀ stage ∈ stages, stage.1 (read x) = stage.2
  upper : ∀ x, model.Feasible x → objective.value x ≤ measure (read x)
  attained : ∀ a, Readable read base a → (∀ stage ∈ stages, stage.1 a = stage.2) →
    ∀ z : ν → ℚ, ∃ x, model.Feasible x ∧ extension a x ∧ (∀ v ∈ free, x v = z v) ∧
      objective.value x = measure a

section Staged

variable {read : (ν → ℚ) → α} {base : (ν → ℚ) → Prop} {extension : α → (ν → ℚ) → Prop}
  {model : LinearModel ν} {free : Set ν} {stages : List ((α → ℚ) × ℚ)} {objective : Linear ν}
  {measure : α → ℚ} {x : ν → ℚ}

theorem LinearModel.feasible_fix {value : ℚ} :
    (model.fix objective value).Feasible x ↔ model.Feasible x ∧ objective.value x = value := by
  simp only [Feasible, LinearModel.fix, List.forall_mem_append, List.forall_mem_singleton,
    Row.Holds, Option.mem_some_iff, forall_eq']
  constructor
  · rintro ⟨hcolumns, hrows, hlower, hupper⟩
    exact ⟨⟨hcolumns, hrows⟩, le_antisymm hupper hlower⟩
  · rintro ⟨⟨hcolumns, hrows⟩, rfl⟩
    exact ⟨hcolumns, hrows, le_rfl, le_rfl⟩

theorem Staged.start (hsound : ∀ x, model.Feasible x → base x)
    (hcomplete : ∀ a, Readable read base a → ∀ z : ν → ℚ, ∃ x, model.Feasible x ∧
      extension a x ∧ ∀ v ∈ free, x v = z v) : Staged read base extension model free [] where
  sound x hx := ⟨hsound x hx, nofun⟩
  complete a ha _ z := hcomplete a ha z
  best _ _ := le_rfl

/-- What a feasible assignment is read as has the values that were fixed. -/
theorem Staged.readable (h : Staged read base extension model free stages) (hx : model.Feasible x) :
    Readable read base (read x) ∧ ∀ stage ∈ stages, stage.1 (read x) = stage.2 :=
  ⟨⟨x, (h.sound x hx).1, rfl⟩, (h.sound x hx).2⟩

/-- Fixing an objective that measures a quantity fixes the quantity. -/
theorem Measuring.fix (h : Measuring read base extension model free stages objective measure)
    (hbest : ∀ a, Readable read base a → stages.map (·.1 a) ≤ stages.map (·.2))
    (hoptimum : model.IsOptimum objective x) :
    Staged read base extension (model.fix objective (objective.value x)) free
      (stages ++ [(measure, objective.value x)]) := by
  have hmost : ∀ a, Readable read base a → (∀ stage ∈ stages, stage.1 a = stage.2) →
      measure a ≤ objective.value x := by
    intro a ha hties
    obtain ⟨y, hy, -, -, hvalue⟩ := h.attained a ha hties x
    exact hvalue ▸ hoptimum.2 y hy
  refine ⟨fun y hy => ?_, fun a ha hties z => ?_, fun a ha => ?_⟩
  · obtain ⟨hfeasible, hvalue⟩ := LinearModel.feasible_fix.mp hy
    obtain ⟨hbase, hties⟩ := h.sound y hfeasible
    refine ⟨hbase, List.forall_mem_append.mpr ⟨hties, List.forall_mem_singleton.mpr ?_⟩⟩
    exact le_antisymm (hmost _ ⟨y, hbase, rfl⟩ hties) (hvalue ▸ h.upper y hfeasible)
  · obtain ⟨hties, hlast⟩ := List.forall_mem_append.mp hties
    obtain ⟨y, hfeasible, hextends, hfree, hvalue⟩ := h.attained a ha hties z
    have hlast := List.forall_mem_singleton.mp hlast
    exact ⟨y, LinearModel.feasible_fix.mpr ⟨hfeasible, hvalue.trans hlast⟩, hextends, hfree⟩
  · rw [List.map_append, List.map_append]
    refine append_singleton_le (by rw [List.length_map, List.length_map]) (hbest a ha) ?_
    intro heq
    exact hmost a ha (List.map_inj_left.mp heq)

/-- An objective that measures a quantity has an optimum where assignments are read as finitely many
things: one that is read as the best of those with the values so far. -/
theorem Measuring.exists_optimum
    (h : Measuring read base extension model free stages objective measure)
    (hfinite : {a | Readable read base a}.Finite)
    (hsome : ∃ a, Readable read base a ∧ ∀ stage ∈ stages, stage.1 a = stage.2) :
    ∃ x, model.IsOptimum objective x := by
  have htied : {a | Readable read base a ∧ ∀ stage ∈ stages, stage.1 a = stage.2}.Finite :=
    hfinite.subset fun a ha => ha.1
  obtain ⟨best, ⟨hbest, hties⟩, hmost⟩ := Set.exists_max_image _ measure htied hsome
  obtain ⟨x, hfeasible, -, -, hvalue⟩ := h.attained best hbest hties 0
  refine ⟨x, hfeasible, fun y hy => ?_⟩
  calc objective.value y ≤ measure (read y) := h.upper y hy
    _ ≤ measure best := hmost _ ⟨⟨y, (h.sound y hy).1, rfl⟩, (h.sound y hy).2⟩
    _ = objective.value x := hvalue.symm

/-- An objective that every extension measures is measured without other variables. -/
theorem Staged.measuring (h : Staged read base extension model free stages)
    (hupper : ∀ x, base x → objective.value x ≤ measure (read x))
    (hextension : ∀ a y, Readable read base a → extension a y → objective.value y = measure a) :
    Measuring read base extension model free stages objective measure where
  sound := h.sound
  upper y hy := hupper y (h.sound y hy).1
  attained a ha hties z := by
    obtain ⟨y, hfeasible, hextends, hfree⟩ := h.complete a ha hties z
    exact ⟨y, hfeasible, hextends, hfree, hextension a y ha hextends⟩

/-- A feasible assignment is read as a lexicographic optimum. -/
theorem Staged.optimum (h : Staged read base extension model free stages)
    (hfeasible : model.Feasible x) {a : α} (ha : Readable read base a) :
    stages.map (·.1 a) ≤ stages.map (·.1 (read x)) := by
  have hties := (h.sound x hfeasible).2
  have hsame : stages.map (·.1 (read x)) = stages.map (·.2) := List.map_congr_left hties
  exact hsame ▸ h.best a ha

variable {limits : ModelSize} {milp : LinearModel ν → Linear ν → Option (ν → ℚ)}
  {state : BudgetedModel ν} {result : BudgetedModel ν × (ν → ℚ)}

/-- A solved stage found an optimum and fixed its value. -/
theorem maximizeAndFix_eq_some (hmilp : ExactOptimizer milp)
    (h : maximizeAndFix limits milp state objective = some result) :
    state.model.IsOptimum objective result.2 ∧
      result.1 = ⟨state.model.fix objective (objective.value result.2), state.solveCount + 1⟩ := by
  unfold maximizeAndFix at h
  split at h
  · obtain ⟨solution, hsolution, rfl⟩ := Option.map_eq_some_iff.mp h
    exact ⟨hmilp.isOptimum _ _ _ hsolution, rfl⟩
  · exact absurd h nofun

/-- What a stage does: it is solved where the limits leave room for it, and then it has fixed what
its objective measures. -/
theorem Measuring.stage
    (h : Measuring read base extension state.model free stages objective measure)
    (hmilp : ExactOptimizer milp) (hfinite : {a | Readable read base a}.Finite)
    (hbest : ∀ a, Readable read base a → stages.map (·.1 a) ≤ stages.map (·.2))
    (hsome : ∃ a, Readable read base a ∧ ∀ stage ∈ stages, stage.1 a = stage.2) :
    Spends limits (fun result => result.1.size) state.size stageSize
      (fun result => state.model.Feasible result.2 ∧ result.1.model.Feasible result.2 ∧
        Staged read base extension result.1.model free
          (stages ++ [(measure, objective.value result.2)]))
      (maximizeAndFix limits milp state objective) where
  isSome_iff := by
    obtain ⟨x, hx⟩ := h.exists_optimum hfinite hsome
    have hsolved := hmilp.isSome _ _ _ hx
    rw [maximizeAndFix]
    split
    · rename_i hroom
      rw [Option.isSome_map]
      exact iff_of_true hsolved hroom
    · rename_i hroom
      exact iff_of_false Bool.false_ne_true hroom
  grown result hresult := by
    rw [(maximizeAndFix_eq_some hmilp hresult).2]
    simp [BudgetedModel.size, LinearModel.fix, stageSize]
  holds result hresult := by
    obtain ⟨hoptimum, hmodel⟩ := maximizeAndFix_eq_some hmilp hresult
    rw [hmodel]
    exact ⟨hoptimum.1, LinearModel.feasible_fix.mpr ⟨hoptimum.1, rfl⟩, h.fix hbest hoptimum⟩

end Staged

end StockProfiler
