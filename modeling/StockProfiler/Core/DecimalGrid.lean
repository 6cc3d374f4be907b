import StockProfiler.Core.Decimal
import StockProfiler.Core.Sums

/-!
# Whole multiples of a decimal unit

A context of fixed precision rounds nothing that is a whole multiple of a power
of ten with no more digits than the precision. Amounts on one such grid are
added and subtracted exactly as long as the results stay within it.
-/

namespace StockProfiler

variable {total : ℚ} {xs : List ℚ}

/-- A whole multiple of a unit, with at most as many digits as a context keeps. -/
def OnGrid (digits : ℕ) (unit : ℤ) (x : ℚ) : Prop :=
  ∃ n : ℤ, x = n * (10 : ℚ) ^ unit ∧ |n| ≤ 10 ^ digits

section OnGrid

variable {digits : ℕ} {unit : ℤ} {x y : ℚ}

theorem onGrid_zero (digits : ℕ) (unit : ℤ) : OnGrid digits unit 0 :=
  ⟨0, by rw [Int.cast_zero, zero_mul], by rw [abs_zero]; positivity⟩

/-- Whole numbers of few enough digits are multiples of one. -/
theorem onGrid_of_den (hden : x.den = 1) (hnum : |x.num| ≤ 10 ^ digits) : OnGrid digits 0 x :=
  ⟨x.num, by rw [zpow_zero, mul_one]; exact ((Rat.den_eq_one_iff x).mp hden).symm, hnum⟩

theorem onGrid_top (digits : ℕ) (unit : ℤ) : OnGrid digits unit ((10 : ℚ) ^ (unit + digits)) := by
  refine ⟨10 ^ digits, ?_, (abs_of_nonneg (by positivity)).le⟩
  rw [zpow_add₀ (by norm_num), zpow_natCast, Int.cast_pow, Int.cast_ofNat, mul_comm]

/-- The absolute value of an amount on the grid is at most the highest power of ten in it. -/
theorem OnGrid.abs_le_pow (h : OnGrid digits unit x) : |x| ≤ (10 : ℚ) ^ (unit + digits) := by
  obtain ⟨n, rfl, hn⟩ := h
  have hpow : (0 : ℚ) < 10 ^ unit := zpow_pos (by norm_num) _
  have hcast : |(n : ℚ)| ≤ (10 : ℚ) ^ digits := by
    rw [← Int.cast_abs]
    exact_mod_cast hn
  calc |(n : ℚ) * 10 ^ unit| = |(n : ℚ)| * 10 ^ unit := by rw [abs_mul, abs_of_pos hpow]
    _ ≤ 10 ^ digits * 10 ^ unit := mul_le_mul_of_nonneg_right hcast hpow.le
    _ = 10 ^ (unit + digits) := by
      rw [zpow_add₀ (by norm_num), zpow_natCast, mul_comm]

/-- A value on the grid is not rounded. -/
theorem roundTo_eq_self (hd : 0 < digits) (mode : Rounding) (h : OnGrid digits unit x) :
    roundTo digits mode x = x := by
  rcases eq_or_ne x 0 with rfl | hx
  · exact roundTo_zero
  have hq := quantum_pos digits x
  suffices hquanta : ∃ m : ℤ, x = m * quantum digits x by
    obtain ⟨m, hm⟩ := hquanta
    have hdiv : x / quantum digits x = m := by
      rw [div_eq_iff hq.ne']
      exact hm
    rw [roundTo, hdiv, mode.toInt_intCast]
    exact hm.symm
  obtain ⟨n, hn, -⟩ := id h
  rcases le_or_gt (Int.log 10 |x| - digits + 1) unit with hunit | hunit
  · -- The unit is a whole number of quanta.
    obtain ⟨j, hj⟩ := Int.eq_ofNat_of_zero_le (Int.sub_nonneg.mpr hunit)
    refine ⟨n * 10 ^ j, ?_⟩
    have hpow : (10 : ℚ) ^ unit = 10 ^ j * quantum digits x := by
      rw [quantum, ← zpow_natCast, ← zpow_add₀ (by norm_num)]
      congr 1
      omega
    rw [Int.cast_mul, Int.cast_pow, Int.cast_ofNat, mul_assoc, ← hpow]
    exact hn
  · -- The amount has more digits than are kept only when it is the highest power of ten.
    have hlog : |x| = (10 : ℚ) ^ Int.log 10 |x| := by
      refine le_antisymm (h.abs_le_pow.trans ?_) (pow_log_le_abs hx)
      exact zpow_le_zpow_right₀ (by norm_num) (by omega)
    rw [pow_log_eq_quanta x hd] at hlog
    rcases abs_choice x with hsign | hsign
    · exact ⟨10 ^ (digits - 1), hsign.symm.trans hlog⟩
    · refine ⟨-10 ^ (digits - 1), ?_⟩
      rw [Int.cast_neg, neg_mul, ← hlog, hsign, neg_neg]

theorem OnGrid.exists_nonneg (h : OnGrid digits unit x) (hx : 0 ≤ x) :
    ∃ n : ℤ, x = n * (10 : ℚ) ^ unit ∧ 0 ≤ n ∧ n ≤ 10 ^ digits := by
  obtain ⟨n, rfl, hn⟩ := h
  have hpow : (0 : ℚ) < 10 ^ unit := zpow_pos (by norm_num) _
  have hnonneg : 0 ≤ n := by
    have hcast : (0 : ℚ) ≤ n := nonneg_of_mul_nonneg_left hx hpow
    exact_mod_cast hcast
  exact ⟨n, rfl, hnonneg, (le_abs_self n).trans hn⟩

/-- The difference of two amounts from zero on is on the grid. -/
theorem OnGrid.sub (hx : OnGrid digits unit x) (hy : OnGrid digits unit y) (hx0 : 0 ≤ x)
    (hy0 : 0 ≤ y) : OnGrid digits unit (x - y) := by
  obtain ⟨n, rfl, hn, hn'⟩ := hx.exists_nonneg hx0
  obtain ⟨m, rfl, hm, hm'⟩ := hy.exists_nonneg hy0
  refine ⟨n - m, by rw [Int.cast_sub, sub_mul], abs_le.mpr ⟨?_, ?_⟩⟩
  · omega
  · omega

theorem OnGrid.add_of_abs_le {z : ℚ} (hx : OnGrid digits unit x) (hy : OnGrid digits unit y)
    (hz : OnGrid digits unit z) (hle : |x + y| ≤ z) : OnGrid digits unit (x + y) := by
  obtain ⟨n, rfl, -⟩ := hx
  obtain ⟨m, rfl, -⟩ := hy
  obtain ⟨k, rfl, -, hk⟩ := hz.exists_nonneg ((abs_nonneg _).trans hle)
  have hpow : (0 : ℚ) < 10 ^ unit := zpow_pos (by norm_num) _
  rw [← add_mul, abs_mul, abs_of_pos hpow] at hle
  have hcast : |(n : ℚ) + m| ≤ k := le_of_mul_le_mul_right hle hpow
  have hint : |n + m| ≤ k := by exact_mod_cast hcast
  exact ⟨n + m, by rw [Int.cast_add, add_mul], hint.trans hk⟩

theorem OnGrid.sum (htotal : OnGrid digits unit total) (hxs : ∀ x ∈ xs, OnGrid digits unit x)
    (hle : (xs.map (|·|)).sum ≤ total) :
    OnGrid digits unit xs.sum ∧ |xs.sum| ≤ (xs.map (|·|)).sum := by
  induction xs with
  | nil => exact ⟨onGrid_zero digits unit, by rw [List.sum_nil, abs_zero]; exact le_rfl⟩
  | cons x xs ih =>
    obtain ⟨hx, hrest⟩ := List.forall_mem_cons.mp hxs
    rw [List.map_cons, List.sum_cons] at hle
    obtain ⟨hsum, habs⟩ := ih hrest (by linarith [abs_nonneg x])
    have hboth : |x + xs.sum| ≤ |x| + (xs.map (|·|)).sum := by
      linarith [abs_add_le x xs.sum]
    rw [List.map_cons, List.sum_cons, List.sum_cons]
    exact ⟨hx.add_of_abs_le hsum htotal (hboth.trans hle), hboth⟩

theorem OnGrid.max_zero (h : OnGrid digits unit x) : OnGrid digits unit (max 0 x) := by
  rcases le_total 0 x with hx | hx
  · rwa [max_eq_right hx]
  · rw [max_eq_left hx]
    exact onGrid_zero digits unit

theorem OnGrid.min (hx : OnGrid digits unit x) (hy : OnGrid digits unit y) :
    OnGrid digits unit (min x y) := by
  rcases le_total x y with hle | hle
  · rwa [min_eq_left hle]
  · rwa [min_eq_right hle]

end OnGrid

section Context

variable {digits : ℕ} {mode : Rounding} {hd : 0 < digits} {unit : ℤ}

theorem sub_onGrid {x y : ℚ} (hx : OnGrid digits unit x) (hy : OnGrid digits unit y) (hx0 : 0 ≤ x)
    (hy0 : 0 ≤ y) : (DecimalContext.ofPrecision digits mode hd).sub x y = x - y :=
  roundTo_eq_self hd mode (hx.sub hy hx0 hy0)

theorem foldl_add_onGrid (htotal : OnGrid digits unit total) (hxs : ∀ x ∈ xs, OnGrid digits unit x)
    {start : ℚ} (hstart : OnGrid digits unit start) (hle : |start| + (xs.map (|·|)).sum ≤ total) :
    xs.foldl (DecimalContext.ofPrecision digits mode hd).add start = start + xs.sum := by
  induction xs generalizing start with
  | nil => rw [List.foldl_nil, List.sum_nil, add_zero]
  | cons x xs ih =>
    obtain ⟨hx, hrest⟩ := List.forall_mem_cons.mp hxs
    rw [List.map_cons, List.sum_cons] at hle
    have hnonneg : 0 ≤ (xs.map (|·|)).sum := by
      refine List.sum_nonneg fun y hy => ?_
      obtain ⟨z, -, rfl⟩ := List.mem_map.mp hy
      exact abs_nonneg z
    have habs := abs_add_le start x
    have hnext : OnGrid digits unit (start + x) :=
      hstart.add_of_abs_le hx htotal (by linarith)
    have hadd : (DecimalContext.ofPrecision digits mode hd).add start x = start + x :=
      roundTo_eq_self hd mode hnext
    rw [List.foldl_cons, hadd, List.sum_cons, ← add_assoc]
    exact ih hrest hnext (by linarith)

theorem sum_onGrid (htotal : OnGrid digits unit total) (hxs : ∀ x ∈ xs, OnGrid digits unit x)
    (hle : (xs.map (|·|)).sum ≤ total) :
    (DecimalContext.ofPrecision digits mode hd).sum xs = xs.sum := by
  have h : xs.foldl (DecimalContext.ofPrecision digits mode hd).add 0 = 0 + xs.sum :=
    foldl_add_onGrid htotal hxs (onGrid_zero digits unit) (by rwa [abs_zero, zero_add])
  rwa [zero_add] at h

theorem sum_filter_onGrid {α : Type*} {items : List α} {amount : α → ℚ}
    (hamount : ∀ a ∈ items, OnGrid digits unit (amount a))
    (hle : sumWhere items (|amount ·|) (fun _ => True) ≤ (10 : ℚ) ^ (unit + digits)) (p : α → Prop)
    [DecidablePred p] :
    (DecimalContext.ofPrecision digits mode hd).sum ((items.filter (p ·)).map amount) =
        sumWhere items amount p ∧ OnGrid digits unit (sumWhere items amount p) := by
  have hgrid : ∀ x ∈ (items.filter (p ·)).map amount, OnGrid digits unit x := by
    intro x hx
    obtain ⟨a, ha, rfl⟩ := List.mem_map.mp hx
    exact hamount a (List.mem_of_mem_filter ha)
  have habs : (((items.filter (p ·)).map amount).map (|·|)).sum =
      sumWhere items (|amount ·|) p := by
    rw [List.map_map]
    rfl
  have hpart : sumWhere items (|amount ·|) p ≤ (10 : ℚ) ^ (unit + digits) :=
    (sumWhere_le_sumWhere (fun _ _ _ => trivial) (fun _ _ _ => le_rfl)
      fun _ _ => abs_nonneg _).trans hle
  exact ⟨sum_onGrid (onGrid_top digits unit) hgrid (habs.trans_le hpart),
    ((onGrid_top digits unit).sum hgrid (habs.trans_le hpart)).1⟩

end Context

theorem map_abs_of_nonneg (h : ∀ x ∈ xs, 0 ≤ x) : xs.map (|·|) = xs := by
  refine (List.map_congr_left fun x hx => abs_of_nonneg (h x hx)).trans ?_
  exact List.map_id xs

end StockProfiler
