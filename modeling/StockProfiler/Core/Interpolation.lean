import Mathlib.Algebra.Order.Field.Basic
import Mathlib.Data.List.Count
import Mathlib.Tactic.Linarith

/-!
# Piecewise linear curves

A curve is given by its values at ascending knots. Between the first knot and the last one, every
point lies in the segment that is chosen for it, so that its value is a weighted mean of the
values at both ends, and ascending values make an ascending curve.
-/

namespace StockProfiler

variable {K : Type*} [Field K] [LinearOrder K]

/-- The segment of a point: the number of inner knots below it. -/
def segmentIndex (knots : List K) (x : K) : ℕ := ((knots.drop 1).dropLast).countP (· < x)

/-- The value of a curve at a point of its segment. -/
def interpolate (knots curve : List K) (x : K) : K :=
  let index := segmentIndex knots x
  let left := knots.getD index 0
  let right := knots.getD (index + 1) 0
  let weight := (x - left) / (right - left)
  curve.getD index 0 * (1 - weight) + curve.getD (index + 1) 0 * weight

/-- Ascending knots around a point. -/
structure WithinKnots (knots : List K) (x : K) : Prop where
  two_le : 2 ≤ knots.length
  ascending : knots.Pairwise (· < ·)
  first_le : knots.getD 0 0 ≤ x
  le_last : x ≤ knots.getD (knots.length - 1) 0

/-- The weight of the right end of a segment. -/
def segmentWeight (knots : List K) (x : K) : K :=
  (x - knots.getD (segmentIndex knots x) 0) /
    (knots.getD (segmentIndex knots x + 1) 0 - knots.getD (segmentIndex knots x) 0)

theorem interpolate_eq (knots curve : List K) (x : K) : interpolate knots curve x =
    curve.getD (segmentIndex knots x) 0 * (1 - segmentWeight knots x) +
      curve.getD (segmentIndex knots x + 1) 0 * segmentWeight knots x := rfl

theorem getD_lt_iff_lt_countP {items : List K} (h : items.Pairwise (· < ·)) {index : ℕ} {x : K}
    (hindex : index < items.length) : items.getD index 0 < x ↔ index < items.countP (· < x) := by
  induction items generalizing index with
  | nil => exact absurd hindex (Nat.not_lt_zero _)
  | cons first items ih =>
    obtain ⟨hfirst, hrest⟩ := List.pairwise_cons.mp h
    rw [List.countP_cons]
    by_cases hbelow : first < x
    · rw [if_pos (decide_eq_true hbelow)]
      cases index with
      | zero => exact iff_of_true hbelow (Nat.succ_pos _)
      | succ index =>
        rw [List.getD_cons_succ, ih hrest (Nat.lt_of_succ_lt_succ hindex)]
        omega
    · have hnone : items.countP (· < x) = 0 := by
        rw [List.countP_eq_zero]
        intro other hother hlt
        exact hbelow ((hfirst other hother).trans (of_decide_eq_true hlt))
      rw [hnone, if_neg (by simpa using hbelow)]
      refine iff_of_false ?_ (Nat.not_lt_zero _)
      cases index with
      | zero => exact hbelow
      | succ index =>
        have hlater := hfirst _ (List.getElem_mem (Nat.lt_of_succ_lt_succ hindex))
        rw [List.getD_cons_succ, List.getD_eq_getElem?_getD,
          List.getElem?_eq_getElem (Nat.lt_of_succ_lt_succ hindex)]
        exact fun hlt => hbelow (hlater.trans hlt)

section Segments

variable {knots curve : List K} {x y : K}

omit [LinearOrder K] in
/-- The inner knots are the knots but the first one and the last one. -/
theorem getD_inner {index : ℕ} (h : index + 2 < knots.length) :
    ((knots.drop 1).dropLast).getD index 0 = knots.getD (index + 1) 0 := by
  simp only [List.getD_eq_getElem?_getD, List.getElem?_dropLast, List.length_drop,
    List.getElem?_drop, Nat.add_comm 1 index]
  rw [if_pos (by omega)]

omit [Field K] [LinearOrder K] in
theorem length_inner : ((knots.drop 1).dropLast).length = knots.length - 2 := by
  rw [List.length_dropLast, List.length_drop]
  omega

omit [Field K] in
theorem segmentIndex_succ_lt (h : 2 ≤ knots.length) (x : K) :
    segmentIndex knots x + 1 < knots.length := by
  have hle : segmentIndex knots x ≤ ((knots.drop 1).dropLast).length := List.countP_le_length
  rw [length_inner] at hle
  omega

omit [Field K] in
theorem segmentIndex_mono (knots : List K) (h : x ≤ y) :
    segmentIndex knots x ≤ segmentIndex knots y :=
  List.countP_mono_left fun _ _ hlt => decide_eq_true ((of_decide_eq_true hlt).trans_le h)

/-- A point between the first knot and the last one lies in its segment. -/
theorem WithinKnots.bounds (h : WithinKnots knots x) :
    knots.getD (segmentIndex knots x) 0 ≤ x ∧ x ≤ knots.getD (segmentIndex knots x + 1) 0 := by
  have hinner : ((knots.drop 1).dropLast).Pairwise (· < ·) :=
    h.ascending.sublist ((List.dropLast_sublist _).trans (List.drop_sublist _ _))
  have hend := segmentIndex_succ_lt h.two_le x
  have hcount (index : ℕ) (hindex : index + 2 < knots.length) :
      knots.getD (index + 1) 0 < x ↔ index < segmentIndex knots x := by
    rw [← getD_inner hindex, getD_lt_iff_lt_countP hinner (by rw [length_inner]; omega)]
    rfl
  constructor
  · by_cases hzero : segmentIndex knots x = 0
    · rw [hzero]
      exact h.first_le
    · have hlt := (hcount (segmentIndex knots x - 1) (by omega)).mpr (by omega)
      rw [Nat.sub_add_cancel (Nat.pos_of_ne_zero hzero)] at hlt
      exact hlt.le
  · by_cases hlast : segmentIndex knots x + 1 = knots.length - 1
    · rw [hlast]
      exact h.le_last
    · have hnot := mt (hcount (segmentIndex knots x) (by omega)).mp (lt_irrefl _)
      exact not_lt.mp hnot

omit [LinearOrder K] in
/-- Later values of an ascending list are no smaller, and of a strictly ascending one larger. -/
theorem getD_rel {R : K → K → Prop} {items : List K} (h : items.Pairwise R) {i j : ℕ} (hij : i < j)
    (hj : j < items.length) : R (items.getD i 0) (items.getD j 0) := by
  simp only [List.getD_eq_getElem?_getD, List.getElem?_eq_getElem (hij.trans hj),
    List.getElem?_eq_getElem hj, Option.getD_some]
  exact List.pairwise_iff_getElem.mp h _ _ _ _ hij

variable [IsStrictOrderedRing K]

theorem WithinKnots.length_pos (h : WithinKnots knots x) : 0 <
    knots.getD (segmentIndex knots x + 1) 0 - knots.getD (segmentIndex knots x) 0 :=
  sub_pos.mpr (getD_rel h.ascending (Nat.lt_succ_self _) (segmentIndex_succ_lt h.two_le x))

/-- Inside the knots weights are fractions: nothing is extrapolated. -/
theorem WithinKnots.weight_mem (h : WithinKnots knots x) :
    0 ≤ segmentWeight knots x ∧ segmentWeight knots x ≤ 1 := by
  obtain ⟨hleft, hright⟩ := h.bounds
  unfold segmentWeight
  constructor
  · exact div_nonneg (sub_nonneg.mpr hleft) h.length_pos.le
  · rw [div_le_one h.length_pos]
    linarith

/-- An ascending curve takes values between the ends of a segment. -/
theorem WithinKnots.interpolate_mem (h : WithinKnots knots x) (hcurve : curve.Pairwise (· ≤ ·))
    (hsize : curve.length = knots.length) :
    curve.getD (segmentIndex knots x) 0 ≤ interpolate knots curve x ∧
      interpolate knots curve x ≤ curve.getD (segmentIndex knots x + 1) 0 := by
  obtain ⟨hnonneg, hle⟩ := h.weight_mem
  have hends := getD_rel hcurve (Nat.lt_succ_self (segmentIndex knots x))
    ((segmentIndex_succ_lt h.two_le x).trans_eq hsize.symm)
  rw [interpolate_eq]
  constructor
  · nlinarith only [hnonneg, hends]
  · nlinarith only [hle, hends]

/-- Between the knots an increasing curve is interpolated monotonically. -/
theorem WithinKnots.interpolate_mono (hx : WithinKnots knots x) (hy : WithinKnots knots y)
    (hcurve : curve.Pairwise (· ≤ ·)) (hsize : curve.length = knots.length) (h : x ≤ y) :
    interpolate knots curve x ≤ interpolate knots curve y := by
  have hends := (segmentIndex_succ_lt hy.two_le y).trans_eq hsize.symm
  rcases (segmentIndex_mono knots h).eq_or_lt with hsame | hlater
  · have hstep := getD_rel hcurve (Nat.lt_succ_self (segmentIndex knots y)) hends
    have hweight : segmentWeight knots x ≤ segmentWeight knots y := by
      unfold segmentWeight
      rw [hsame]
      exact div_le_div_of_nonneg_right (by linarith) hy.length_pos.le
    rw [interpolate_eq, interpolate_eq, hsame]
    nlinarith only [hweight, hstep]
  · have hbetween : curve.getD (segmentIndex knots x + 1) 0 ≤
        curve.getD (segmentIndex knots y) 0 := by
      rcases Nat.eq_or_lt_of_le hlater with heq | hlt
      · exact (congrArg (curve.getD · 0) heq).le
      · exact getD_rel hcurve hlt (by omega)
    calc interpolate knots curve x
        ≤ curve.getD (segmentIndex knots x + 1) 0 := (hx.interpolate_mem hcurve hsize).2
      _ ≤ curve.getD (segmentIndex knots y) 0 := hbetween
      _ ≤ interpolate knots curve y := (hy.interpolate_mem hcurve hsize).1

end Segments

end StockProfiler
