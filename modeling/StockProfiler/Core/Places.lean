import Mathlib.Algebra.Order.Field.Rat
import Mathlib.Data.List.Count
import Mathlib.Data.Nat.Cast.Order.Field
import Mathlib.Tactic.Linarith
import Mathlib.Tactic.Positivity

/-!
# Mean places

The place of a value among ascending values, counted from zero, where equal values share the mean
of their places. A larger value has a later place, and all places lie between the first one and
the last one.
-/

namespace StockProfiler

variable {α : Type*} [LinearOrder α]

/-- The mean of the places of the values that equal a value. -/
def meanPlace (values : List α) (value : α) : ℚ :=
  (values.countP (· < value) : ℚ) + ((values.countP (· = value) : ℚ) - 1) / 2

/-- The mean place in percent of the last place; a single value has place zero. -/
def placePercent (values : List α) (value : α) : ℚ :=
  meanPlace values value * 100 / (max 1 (values.length - 1) : ℕ)

variable {values : List α} {a b : α}

theorem countP_lt_add_countP_eq_le (values : List α) {p : α → Bool} (hp : ∀ v ≤ a, p v = true) :
    (values.countP (· < a) : ℚ) + values.countP (· = a) ≤ values.countP p := by
  have hnat : values.countP (· < a) + values.countP (· = a) ≤ values.countP p := by
    induction values with
    | nil => exact le_rfl
    | cons v values ih =>
      simp only [List.countP_cons, decide_eq_true_eq]
      rcases lt_trichotomy v a with hv | hv | hv
      · rw [if_pos hv, if_neg hv.ne, if_pos (hp v hv.le)]
        omega
      · rw [if_neg hv.not_lt, if_pos hv, if_pos (hp v hv.le)]
        omega
      · rw [if_neg hv.not_gt, if_neg hv.ne']
        omega
  exact_mod_cast hnat

theorem one_le_countP_eq (h : a ∈ values) : (1 : ℚ) ≤ values.countP (· = a) := by
  exact_mod_cast List.countP_pos_iff.mpr ⟨a, h, decide_eq_true rfl⟩

omit [LinearOrder α] in
theorem lastPlace_pos (values : List α) : (0 : ℚ) < (max 1 (values.length - 1) : ℕ) := by
  exact_mod_cast (Nat.le_max_left 1 (values.length - 1) : 0 < _)

theorem placePercent_nonneg (h : a ∈ values) : 0 ≤ placePercent values a := by
  have hone := one_le_countP_eq h
  have hplace : 0 ≤ meanPlace values a := by
    have hbelow : (0 : ℚ) ≤ values.countP (· < a) := Nat.cast_nonneg _
    unfold meanPlace
    linarith
  unfold placePercent
  positivity

theorem placePercent_le (h : a ∈ values) : placePercent values a ≤ 100 := by
  have hone := one_le_countP_eq h
  have hall := countP_lt_add_countP_eq_le values (a := a) (p := fun _ => true) fun _ _ => rfl
  have hlast : (values.length : ℚ) ≤ (max 1 (values.length - 1) : ℕ) + 1 := by
    have hnat : values.length ≤ max 1 (values.length - 1) + 1 := by omega
    exact_mod_cast hnat
  rw [List.countP_true] at hall
  unfold placePercent meanPlace
  rw [div_le_iff₀ (lastPlace_pos values)]
  linarith

theorem placePercent_lt (ha : a ∈ values) (hb : b ∈ values) (h : a < b) :
    placePercent values a < placePercent values b := by
  have hone := one_le_countP_eq ha
  have hother := one_le_countP_eq hb
  have hbelow := countP_lt_add_countP_eq_le values (a := a) (p := (· < b))
    fun v hv => decide_eq_true (hv.trans_lt h)
  unfold placePercent meanPlace
  exact div_lt_div_of_pos_right (by linarith) (lastPlace_pos values)

end StockProfiler
