import Mathlib.Analysis.Real.Sqrt
import Mathlib.Algebra.BigOperators.Group.List.Basic
import Mathlib.Tactic.Ring
import Mathlib.Tactic.FieldSimp
import Mathlib.Tactic.Linarith

/-!
# Sample correlation

The sample correlation of two lists of one length is compared with a bound without a square
root: over the squares of sums that need no division.
-/

namespace StockProfiler

section Field

variable {𝕜 : Type*} [Field 𝕜] (x y : List 𝕜)

/-- The sum of the products, place by place. -/
def sumProducts : 𝕜 := (List.zipWith (· * ·) x y).sum

/-- The length times the sum of the products, less the product of the sums. -/
def scaledCovariance : 𝕜 := x.length * sumProducts x y - x.sum * y.sum

/-- The length times the sum of the squares, less the square of the sum. -/
def scaledVariance : 𝕜 := x.length * (x.map fun a => a * a).sum - x.sum ^ 2

/-- The mean of a list. -/
def listMean : 𝕜 := x.sum / x.length

/-- The sum of the products of the deviations from the means. -/
def deviationProducts : 𝕜 :=
  (List.zipWith (fun a b => (a - listMean x) * (b - listMean y)) x y).sum

variable {x y}

theorem scaledVariance_eq : scaledVariance x = scaledCovariance x x := by
  rw [scaledVariance, scaledCovariance, sumProducts, List.zipWith_self, sq]

theorem scaledCovariance_comm (h : x.length = y.length) :
    scaledCovariance x y = scaledCovariance y x := by
  rw [scaledCovariance, scaledCovariance, h, mul_comm x.sum, sumProducts, sumProducts,
    List.zipWith_comm_of_comm mul_comm]

theorem sum_zipWith_sub (c d : 𝕜) (h : x.length = y.length) :
    (List.zipWith (fun a b => (a - c) * (b - d)) x y).sum =
      sumProducts x y - c * y.sum - d * x.sum + x.length * (c * d) := by
  induction x generalizing y with
  | nil =>
    obtain rfl := List.length_eq_zero_iff.mp h.symm
    simp [sumProducts]
  | cons a x ih =>
    cases y with
    | nil => exact absurd h nofun
    | cons b y =>
      have hrest := ih (Nat.succ.inj h)
      simp only [sumProducts, List.zipWith_cons_cons, List.sum_cons, List.length_cons,
        Nat.cast_succ] at hrest ⊢
      rw [hrest]
      ring

theorem length_mul_deviationProducts (h : x.length = y.length) (hx : (x.length : 𝕜) ≠ 0) :
    x.length * deviationProducts x y = scaledCovariance x y := by
  rw [deviationProducts, sum_zipWith_sub _ _ h, scaledCovariance, listMean, listMean, ← h]
  field_simp
  ring

theorem scaledCovariance_map {𝕜' : Type*} [Field 𝕜'] (f : 𝕜 →+* 𝕜') (x y : List 𝕜) :
    scaledCovariance (x.map f) (y.map f) = f (scaledCovariance x y) := by
  have hproducts : List.zipWith (· * ·) (x.map f) (y.map f) =
      (List.zipWith (· * ·) x y).map f := by
    rw [List.zipWith_map, List.map_zipWith]
    simp only [map_mul]
  rw [scaledCovariance, scaledCovariance, sumProducts, hproducts, List.length_map, sumProducts,
    ← map_list_sum, ← map_list_sum, ← map_list_sum, map_sub, map_mul, map_mul, map_natCast]

end Field

section Ordered

variable {𝕜 : Type*} [Field 𝕜] [LinearOrder 𝕜] [IsStrictOrderedRing 𝕜] {x : List 𝕜}

theorem scaledVariance_pos {a b : 𝕜} (ha : a ∈ x) (hb : b ∈ x) (hne : a ≠ b) :
    0 < scaledVariance x := by
  have hlength : (0 : 𝕜) < x.length := Nat.cast_pos.mpr (List.length_pos_of_mem ha)
  have hsum : deviationProducts x x =
      (x.map fun c => (c - listMean x) * (c - listMean x)).sum := by
    rw [deviationProducts, List.zipWith_self]
  have hnonneg : ∀ d ∈ x.map fun c => (c - listMean x) * (c - listMean x), 0 ≤ d := by
    intro d hd
    obtain ⟨c, -, rfl⟩ := List.mem_map.mp hd
    exact mul_self_nonneg _
  have hoff : ∃ c ∈ x, c ≠ listMean x := by
    by_contra hall
    push Not at hall
    exact hne ((hall a ha).trans (hall b hb).symm)
  obtain ⟨c, hc, hcne⟩ := hoff
  have hone := List.single_le_sum hnonneg _ (List.mem_map_of_mem hc)
  have hpos : 0 < (c - listMean x) * (c - listMean x) := mul_self_pos.mpr (sub_ne_zero.mpr hcne)
  rw [scaledVariance_eq, ← length_mul_deviationProducts rfl hlength.ne', hsum]
  exact mul_pos hlength (hpos.trans_le hone)

end Ordered

section Real

variable {x y : List ℝ} {maximum : ℝ}

variable (x y) in
/-- The sample correlation of two lists. -/
noncomputable def pearson : ℝ :=
  deviationProducts x y / (√(deviationProducts x x) * √(deviationProducts y y))

theorem pearson_comm (x y : List ℝ) : pearson x y = pearson y x := by
  have hproducts : deviationProducts x y = deviationProducts y x := by
    rw [deviationProducts, deviationProducts, List.zipWith_comm]
    simp only [mul_comm]
  rw [pearson, pearson, hproducts, mul_comm (√_)]

theorem pearson_eq (h : x.length = y.length) (hx : 0 < scaledVariance x) :
    pearson x y = scaledCovariance x y / √(scaledVariance x * scaledVariance y) := by
  have hlength : (0 : ℝ) < x.length := by
    rw [Nat.cast_pos]
    apply List.length_pos_of_ne_nil
    rintro rfl
    simp [scaledVariance] at hx
  rw [pearson, scaledVariance_eq, scaledVariance_eq,
    ← length_mul_deviationProducts h hlength.ne', ← length_mul_deviationProducts rfl hlength.ne',
    ← length_mul_deviationProducts rfl (h ▸ hlength.ne'), ← h,
    mul_mul_mul_comm, Real.sqrt_mul (mul_self_nonneg _), Real.sqrt_mul_self hlength.le,
    mul_div_mul_left _ _ hlength.ne', Real.sqrt_mul]
  have hx' : 0 < (x.length : ℝ) * deviationProducts x x := by
    rw [length_mul_deviationProducts rfl hlength.ne', ← scaledVariance_eq]
    exact hx
  exact (pos_of_mul_pos_right hx' hlength.le).le

/-- A bound is exceeded where the square of the covariance exceeds its square times both
variances. -/
theorem lt_pearson_iff (h : x.length = y.length) (hx : 0 < scaledVariance x)
    (hy : 0 < scaledVariance y) (hmaximum : 0 ≤ maximum) :
    maximum < pearson x y ↔ 0 < scaledCovariance x y ∧
      maximum ^ 2 * scaledVariance x * scaledVariance y < scaledCovariance x y ^ 2 := by
  have hroot : 0 < √(scaledVariance x * scaledVariance y) := Real.sqrt_pos.mpr (mul_pos hx hy)
  have hsquare : (maximum * √(scaledVariance x * scaledVariance y)) ^ 2 =
      maximum ^ 2 * scaledVariance x * scaledVariance y := by
    rw [mul_pow, Real.sq_sqrt (mul_pos hx hy).le, mul_assoc]
  rw [pearson_eq h hx, lt_div_iff₀ hroot, ← hsquare]
  constructor
  · intro hlt
    have hpos := (mul_nonneg hmaximum hroot.le).trans_lt hlt
    exact ⟨hpos, pow_lt_pow_left₀ hlt (mul_nonneg hmaximum hroot.le) two_ne_zero⟩
  · rintro ⟨hpos, hlt⟩
    exact lt_of_pow_lt_pow_left₀ 2 hpos.le hlt

end Real

end StockProfiler
