import Mathlib.Data.Int.Log
import Mathlib.Data.List.Forall2
import Mathlib.Data.Rat.Floor
import Mathlib.Tactic.Linarith
import Mathlib.Tactic.Positivity
import Mathlib.Tactic.Ring

/-!
# Decimal contexts

A decimal operation computes the exact rational result and then rounds it to
the precision of its context. Only the rounding depends on the context, so a
context is its rounding function with the order facts every caller may use.
`ofPrecision` is the context of a given number of significant digits, with an
unbounded exponent range; `exact` is the limit in which nothing is rounded.
-/

namespace StockProfiler

variable {x : ℚ}

/-- How the operations of one context round an exact result. -/
structure DecimalContext where
  /-- The rounding of one exact result. -/
  round : ℚ → ℚ
  /-- Rounding never inverts an order. -/
  round_mono : Monotone round
  /-- Zero is representable in every context. -/
  round_zero : round 0 = 0
  /-- A positive result never rounds down to zero. -/
  round_pos : ∀ x, 0 < x → 0 < round x

namespace DecimalContext

variable (ctx : DecimalContext) (a : ℚ) (b : ℚ)

/-- Rounded addition. -/
def add : ℚ := ctx.round (a + b)

/-- Rounded subtraction. -/
def sub : ℚ := ctx.round (a - b)

/-- Rounded multiplication. -/
def mul : ℚ := ctx.round (a * b)

/-- Rounded division. -/
def div : ℚ := ctx.round (a / b)

/-- Rounded negation. -/
def neg : ℚ := ctx.round (-a)

/-- The running sum from zero, rounding after every addition. -/
def sum (xs : List ℚ) : ℚ := xs.foldl ctx.add 0

@[simp] theorem sum_nil : ctx.sum [] = 0 := rfl

theorem round_nonneg (h : 0 ≤ x) : 0 ≤ ctx.round x := by
  simpa only [ctx.round_zero] using ctx.round_mono h

theorem round_nonpos (h : x ≤ 0) : ctx.round x ≤ 0 := by
  simpa only [ctx.round_zero] using ctx.round_mono h

theorem round_pos_iff : 0 < ctx.round x ↔ 0 < x := by
  refine ⟨fun h => ?_, ctx.round_pos x⟩
  by_contra hx
  exact absurd h (not_lt.mpr (ctx.round_nonpos (not_lt.mp hx)))

theorem sub_pos_iff {a b : ℚ} : 0 < ctx.sub a b ↔ b < a := by
  rw [sub, round_pos_iff, sub_pos]

theorem foldl_add_mono {a b : ℚ} (hab : a ≤ b) {xs ys : List ℚ} (h : List.Forall₂ (· ≤ ·) xs ys) :
    xs.foldl ctx.add a ≤ ys.foldl ctx.add b := by
  induction h generalizing a b with
  | nil => exact hab
  | cons hxy _ ih => exact ih (ctx.round_mono (add_le_add hab hxy))

theorem sum_le_sum {xs ys : List ℚ} (h : List.Forall₂ (· ≤ ·) xs ys) : ctx.sum xs ≤ ctx.sum ys :=
  ctx.foldl_add_mono le_rfl h

theorem foldl_add_pos {a : ℚ} (ha : 0 < a) {xs : List ℚ} (h : ∀ x ∈ xs, 0 < x) :
    0 < xs.foldl ctx.add a := by
  induction xs generalizing a with
  | nil => exact ha
  | cons x xs ih =>
    obtain ⟨hx, hxs⟩ := List.forall_mem_cons.mp h
    exact ih (ctx.round_pos _ (add_pos ha hx)) hxs

theorem sum_pos {xs : List ℚ} (h : ∀ x ∈ xs, 0 < x) (hne : xs ≠ []) : 0 < ctx.sum xs := by
  cases xs with
  | nil => exact absurd rfl hne
  | cons x xs =>
    obtain ⟨hx, hxs⟩ := List.forall_mem_cons.mp h
    exact ctx.foldl_add_pos (ctx.round_pos _ (by rw [zero_add]; exact hx)) hxs

theorem mul_pos_of {a b : ℚ} (ha : 0 < a) (hb : 0 < b) : 0 < ctx.mul a b :=
  ctx.round_pos _ (mul_pos ha hb)

/-- The context in which every operation is exact. -/
def exact : DecimalContext where
  round := id
  round_mono := monotone_id
  round_zero := rfl
  round_pos _ h := h

@[simp] theorem exact_add : exact.add a b = a + b := rfl
@[simp] theorem exact_sub : exact.sub a b = a - b := rfl
@[simp] theorem exact_mul : exact.mul a b = a * b := rfl
@[simp] theorem exact_div : exact.div a b = a / b := rfl

@[simp] theorem exact_neg : exact.neg a = -a := rfl

@[simp] theorem exact_sum (xs : List ℚ) : exact.sum xs = xs.sum := by
  have h : ∀ acc, xs.foldl exact.add acc = acc + xs.sum := by
    induction xs with
    | nil => simp
    | cons x xs ih =>
      intro acc
      simp only [List.foldl_cons, ih, exact_add, List.sum_cons, add_assoc]
  rw [sum, h, zero_add]

end DecimalContext

/-- The direction in which a discarded tail is rounded. -/
inductive Rounding where
  | halfEven
  | floor

/-- The integer a scaled significand is rounded to. -/
def Rounding.toInt (mode : Rounding) (x : ℚ) : ℤ :=
  match mode with
  | .floor => ⌊x⌋
  | .halfEven =>
    if x - ⌊x⌋ < 1 / 2 then ⌊x⌋
    else if 1 / 2 < x - ⌊x⌋ then ⌊x⌋ + 1
    else if ⌊x⌋ % 2 = 0 then ⌊x⌋ else ⌊x⌋ + 1

namespace Rounding

variable (mode : Rounding)

@[simp] theorem toInt_intCast (n : ℤ) : mode.toInt (n : ℚ) = n := by
  cases mode <;> simp [toInt]

theorem floor_le_toInt (x : ℚ) : ⌊x⌋ ≤ mode.toInt x := by
  cases mode with
  | floor => exact le_rfl
  | halfEven => simp only [toInt]; split_ifs <;> omega

theorem toInt_le_floor_add_one (x : ℚ) : mode.toInt x ≤ ⌊x⌋ + 1 := by
  cases mode with
  | floor => simp only [toInt]; omega
  | halfEven => simp only [toInt]; split_ifs <;> omega

theorem toInt_mono {y : ℚ} (hxy : x ≤ y) : mode.toInt x ≤ mode.toInt y := by
  have hf : ⌊x⌋ ≤ ⌊y⌋ := Int.floor_le_floor hxy
  rcases hf.lt_or_eq with hlt | heq
  · calc mode.toInt x ≤ ⌊x⌋ + 1 := mode.toInt_le_floor_add_one x
      _ ≤ ⌊y⌋ := hlt
      _ ≤ mode.toInt y := mode.floor_le_toInt y
  · -- Equal integer parts: the discarded tails are ordered as the numbers are.
    cases mode with
    | floor => exact hf
    | halfEven =>
      have hcast : (⌊x⌋ : ℚ) = ⌊y⌋ := congrArg _ heq
      simp only [toInt, ← heq]
      split_ifs <;> first | omega | (exfalso; linarith)

end Rounding

/-- The weight of the last kept digit of `x` among `digits` significant ones. -/
def quantum (digits : ℕ) (x : ℚ) : ℚ := (10 : ℚ) ^ (Int.log 10 |x| - digits + 1)

/-- Rounding to `digits` significant digits. -/
def roundTo (digits : ℕ) (mode : Rounding) (x : ℚ) : ℚ :=
  mode.toInt (x / quantum digits x) * quantum digits x

section Precision

variable {digits : ℕ} {mode : Rounding}

theorem quantum_pos (digits : ℕ) (x : ℚ) : 0 < quantum digits x := zpow_pos (by norm_num) _

/-- The lower end of a decade is a whole number of quanta. -/
theorem pow_log_eq_quanta (x : ℚ) (hd : 0 < digits) :
    (10 : ℚ) ^ Int.log 10 |x| = ((10 ^ (digits - 1) : ℤ) : ℚ) * quantum digits x := by
  rw [quantum, Int.cast_pow, Int.cast_ofNat, ← zpow_natCast, ← zpow_add₀ (by norm_num)]
  congr 1
  omega

/-- The upper end of a decade is a whole number of quanta. -/
theorem pow_log_succ_eq_quanta (digits : ℕ) (x : ℚ) :
    (10 : ℚ) ^ (Int.log 10 |x| + 1) = ((10 ^ digits : ℤ) : ℚ) * quantum digits x := by
  rw [quantum, Int.cast_pow, Int.cast_ofNat, ← zpow_natCast, ← zpow_add₀ (by norm_num)]
  congr 1
  ring

theorem pow_log_le_abs (hx : x ≠ 0) : (10 : ℚ) ^ Int.log 10 |x| ≤ |x| := by
  exact_mod_cast Int.zpow_log_le_self (b := 10) (by norm_num) (abs_pos.mpr hx)

theorem abs_lt_pow_log_succ (x : ℚ) : |x| < (10 : ℚ) ^ (Int.log 10 |x| + 1) := by
  exact_mod_cast Int.lt_zpow_succ_log_self (b := 10) (by norm_num) |x|

/-- A whole number of quanta above a number stays above its rounding. -/
theorem roundTo_le_quanta {n : ℤ} (h : x ≤ n * quantum digits x) :
    roundTo digits mode x ≤ n * quantum digits x := by
  have hq := quantum_pos digits x
  have hint := mode.toInt_mono ((div_le_iff₀ hq).mpr h)
  rw [mode.toInt_intCast] at hint
  exact mul_le_mul_of_nonneg_right (Int.cast_le.mpr hint) hq.le

/-- A whole number of quanta below a number stays below its rounding. -/
theorem quanta_le_roundTo {n : ℤ} (h : n * quantum digits x ≤ x) :
    n * quantum digits x ≤ roundTo digits mode x := by
  have hq := quantum_pos digits x
  have hint := mode.toInt_mono ((le_div_iff₀ hq).mpr h)
  rw [mode.toInt_intCast] at hint
  exact mul_le_mul_of_nonneg_right (Int.cast_le.mpr hint) hq.le

theorem pow_log_le_roundTo (hx : 0 < x) (hd : 0 < digits) :
    (10 : ℚ) ^ Int.log 10 |x| ≤ roundTo digits mode x := by
  rw [pow_log_eq_quanta x hd]
  apply quanta_le_roundTo
  rw [← pow_log_eq_quanta x hd]
  exact (pow_log_le_abs hx.ne').trans_eq (abs_of_pos hx)

theorem roundTo_le_pow_log_succ (x : ℚ) :
    roundTo digits mode x ≤ (10 : ℚ) ^ (Int.log 10 |x| + 1) := by
  rw [pow_log_succ_eq_quanta digits x]
  apply roundTo_le_quanta
  rw [← pow_log_succ_eq_quanta]
  exact (le_abs_self x).trans (abs_lt_pow_log_succ x).le

theorem neg_pow_log_succ_le_roundTo (x : ℚ) :
    -(10 : ℚ) ^ (Int.log 10 |x| + 1) ≤ roundTo digits mode x := by
  rw [pow_log_succ_eq_quanta digits x, ← neg_mul, ← Int.cast_neg]
  apply quanta_le_roundTo
  rw [Int.cast_neg, neg_mul, ← pow_log_succ_eq_quanta]
  exact neg_le.mp ((neg_le_abs x).trans (abs_lt_pow_log_succ x).le)

theorem roundTo_le_neg_pow_log (hx : x < 0) (hd : 0 < digits) :
    roundTo digits mode x ≤ -(10 : ℚ) ^ Int.log 10 |x| := by
  rw [pow_log_eq_quanta x hd, ← neg_mul, ← Int.cast_neg]
  apply roundTo_le_quanta
  rw [Int.cast_neg, neg_mul, ← pow_log_eq_quanta x hd]
  exact le_neg.mp ((pow_log_le_abs hx.ne).trans_eq (abs_of_neg hx))

theorem roundTo_zero : roundTo digits mode 0 = 0 := by
  have h := mode.toInt_intCast 0
  rw [Int.cast_zero] at h
  rw [roundTo, zero_div, h, Int.cast_zero, zero_mul]

theorem roundTo_pos (hd : 0 < digits) (hx : 0 < x) : 0 < roundTo digits mode x :=
  lt_of_lt_of_le (zpow_pos (by norm_num) _) (pow_log_le_roundTo hx hd)

theorem roundTo_neg (hd : 0 < digits) (hx : x < 0) : roundTo digits mode x < 0 :=
  lt_of_le_of_lt (roundTo_le_neg_pow_log hx hd) (neg_lt_zero.mpr (zpow_pos (by norm_num) _))

/-- Within one decade rounding is the monotone rounding of the significand. -/
theorem roundTo_le_of_log_eq {y : ℚ} (hxy : x ≤ y) (he : Int.log 10 |x| = Int.log 10 |y|) :
    roundTo digits mode x ≤ roundTo digits mode y := by
  have hq := quantum_pos digits y
  have heq : quantum digits x = quantum digits y := by simp only [quantum, he]
  rw [roundTo, roundTo, heq]
  apply mul_le_mul_of_nonneg_right _ hq.le
  exact Int.cast_le.mpr (mode.toInt_mono ((div_le_div_iff_of_pos_right hq).mpr hxy))

theorem roundTo_mono (hd : 0 < digits) : Monotone (roundTo digits mode) := by
  intro x y hxy
  rcases lt_trichotomy x 0 with hx | rfl | hx
  · rcases lt_or_ge y 0 with hy | hy
    · have habs : |y| ≤ |x| := by rw [abs_of_neg hx, abs_of_neg hy]; exact neg_le_neg hxy
      rcases (Int.log_mono_right (b := 10) (abs_pos.mpr hy.ne) habs).lt_or_eq with hlt | heq
      · calc roundTo digits mode x ≤ -(10 : ℚ) ^ Int.log 10 |x| := roundTo_le_neg_pow_log hx hd
          _ ≤ -(10 : ℚ) ^ (Int.log 10 |y| + 1) :=
            neg_le_neg (zpow_le_zpow_right₀ (by norm_num) hlt)
          _ ≤ roundTo digits mode y := neg_pow_log_succ_le_roundTo y
      · exact roundTo_le_of_log_eq hxy heq.symm
    · rcases hy.lt_or_eq with hy | rfl
      · exact ((roundTo_neg hd hx).trans (roundTo_pos hd hy)).le
      · exact (roundTo_neg hd hx).le.trans_eq roundTo_zero.symm
  · rcases hxy.lt_or_eq with hy | rfl
    · exact roundTo_zero.trans_le (roundTo_pos hd hy).le
    · exact le_rfl
  · have hy : 0 < y := hx.trans_le hxy
    have habs : |x| ≤ |y| := by rw [abs_of_pos hx, abs_of_pos hy]; exact hxy
    rcases (Int.log_mono_right (b := 10) (abs_pos.mpr hx.ne') habs).lt_or_eq with hlt | heq
    · calc roundTo digits mode x ≤ (10 : ℚ) ^ (Int.log 10 |x| + 1) := roundTo_le_pow_log_succ x
        _ ≤ (10 : ℚ) ^ Int.log 10 |y| := zpow_le_zpow_right₀ (by norm_num) hlt
        _ ≤ roundTo digits mode y := pow_log_le_roundTo hy hd
    · exact roundTo_le_of_log_eq hxy heq

end Precision

namespace DecimalContext

theorem thirtyEight_pos : 0 < 38 := by decide

/-- The context of a positive number of significant digits. -/
def ofPrecision (digits : ℕ) (mode : Rounding) (hd : 0 < digits) : DecimalContext where
  round := roundTo digits mode
  round_mono := roundTo_mono hd
  round_zero := roundTo_zero
  round_pos _ h := roundTo_pos hd h

end DecimalContext

/-- An amount that is not negative. -/
structure Amount where
  val : ℚ
  nonneg : 0 ≤ val

/-- An amount above zero. -/
structure PositiveAmount where
  val : ℚ
  pos : 0 < val

namespace Literal

def zero : Amount := ⟨0, le_rfl⟩

def one : PositiveAmount := ⟨1, zero_lt_one⟩

def ten : PositiveAmount := ⟨10, by norm_num⟩

def twenty : PositiveAmount := ⟨20, by norm_num⟩

def hundred : PositiveAmount := ⟨100, by norm_num⟩

def half : PositiveAmount := ⟨1 / 2, by norm_num⟩

theorem zero_ratio : (0 : ℚ) ≤ 0 ∧ (0 : ℚ) < 1 := by norm_num

theorem half_mem : (0 : ℚ) < 1 / 2 ∧ (1 / 2 : ℚ) < 1 := by norm_num

theorem mem_zero_nonneg : ∀ a ∈ some (0 : ℚ), 0 ≤ a := by simp

theorem mem_ten_pos : ∀ a ∈ some (10 : ℚ), 0 < a := by simp

end Literal

end StockProfiler
