import StockProfiler.Core.Decimal

/-!
# Capped accumulation

A running total takes from each quantity what a cap still admits. A negative
quantity gives back, and the total may never become negative.
-/

namespace StockProfiler

/-- What each quantity adds to the capped running total, if the total never becomes negative. -/
def cappedSteps (ctx : DecimalContext) (cap : ℚ) : ℚ → ℚ → List ℚ → Option (List ℚ)
  | _, _, [] => some []
  | cumulative, accepted, quantity :: quantities =>
    let cumulative := ctx.add cumulative quantity
    if cumulative < 0 then none
    else
      let nowAccepted := min cumulative cap
      (cappedSteps ctx cap cumulative nowAccepted quantities).map
        (ctx.sub nowAccepted accepted :: ·)

section Capped

variable {ctx : DecimalContext} {cap cumulative accepted : ℚ} {quantities steps : List ℚ}

theorem length_cappedSteps (h : cappedSteps ctx cap cumulative accepted quantities = some steps) :
    steps.length = quantities.length := by
  induction quantities generalizing cumulative accepted steps with
  | nil => exact Option.some.inj h ▸ rfl
  | cons quantity quantities ih =>
    rw [cappedSteps] at h
    dsimp only at h
    split at h
    · exact nomatch h
    · obtain ⟨rest, hrest, rfl⟩ := Option.map_eq_some_iff.mp h
      rw [List.length_cons, List.length_cons, ih hrest]

/-- The first steps add up to the capped sum of the first quantities. -/
theorem sum_cappedSteps_prefix (haccepted : accepted = min cumulative cap)
    (hcumulative : 0 ≤ cumulative)
    (h : cappedSteps .exact cap cumulative accepted quantities = some steps) {front back : List ℚ}
    (hsteps : steps = front ++ back) :
    accepted + front.sum = min (cumulative + (quantities.take front.length).sum) cap ∧
      0 ≤ cumulative + (quantities.take front.length).sum := by
  induction quantities generalizing cumulative accepted steps front with
  | nil =>
    cases h
    obtain ⟨rfl, -⟩ := List.append_eq_nil_iff.mp hsteps.symm
    simpa using ⟨haccepted, hcumulative⟩
  | cons quantity quantities ih =>
    rw [cappedSteps] at h
    dsimp only at h
    split at h
    · exact nomatch h
    · rename_i hnonneg
      obtain ⟨rest, hrest, rfl⟩ := Option.map_eq_some_iff.mp h
      simp only [DecimalContext.exact_add, DecimalContext.exact_sub] at hnonneg hrest hsteps
      cases front with
      | nil => simpa using ⟨haccepted, hcumulative⟩
      | cons step front =>
        obtain ⟨rfl, hrestEq⟩ := List.cons.inj hsteps
        obtain ⟨hsum, hle⟩ := ih rfl (not_lt.mp hnonneg) hrest hrestEq
        rw [List.length_cons, List.take_succ_cons, List.sum_cons, List.sum_cons, ← add_assoc,
          ← add_assoc, add_sub_cancel]
        exact ⟨hsum, hle⟩

/-- Every step has the sign of its quantity, and so has what it leaves. -/
theorem cappedSteps_between (haccepted : accepted = min cumulative cap)
    (h : cappedSteps .exact cap cumulative accepted quantities = some steps) :
    List.Forall₂ (fun quantity step => (0 ≤ quantity → 0 ≤ step ∧ step ≤ quantity) ∧
      (quantity ≤ 0 → quantity ≤ step ∧ step ≤ 0)) quantities steps := by
  induction quantities generalizing cumulative accepted steps with
  | nil => exact Option.some.inj h ▸ .nil
  | cons quantity quantities ih =>
    rw [cappedSteps] at h
    dsimp only at h
    split at h
    · exact nomatch h
    · obtain ⟨rest, hrest, rfl⟩ := Option.map_eq_some_iff.mp h
      refine .cons ?_ (ih rfl hrest)
      subst haccepted
      simp only [DecimalContext.exact_add, DecimalContext.exact_sub]
      constructor
      · intro hq
        have hle : min cumulative cap ≤ min (cumulative + quantity) cap :=
          min_le_min_right cap (le_add_of_nonneg_right hq)
        have hlip : min (cumulative + quantity) cap ≤ min cumulative cap + quantity := by
          rw [← min_add_add_right]
          exact min_le_min_left _ (le_add_of_nonneg_right hq)
        constructor <;> linarith
      · intro hq
        have hle : min (cumulative + quantity) cap ≤ min cumulative cap :=
          min_le_min_right cap (add_le_of_nonpos_right hq)
        have hlip : min cumulative cap + quantity ≤ min (cumulative + quantity) cap := by
          rw [← min_add_add_right]
          exact min_le_min_left _ (add_le_of_nonpos_right hq)
        constructor <;> linarith

end Capped

end StockProfiler
