import Mathlib.Algebra.BigOperators.Group.List.Lemmas
import Mathlib.Algebra.Order.BigOperators.Group.List
import Mathlib.Algebra.Order.Ring.Rat
import Mathlib.Data.List.Lex
import Mathlib.Data.List.Sort
import Mathlib.Order.Bounds.Defs
import Mathlib.Tactic.Linarith
import Mathlib.Tactic.Ring

/-!
# Comparing vectors by their least entries

Vectors in ascending order are compared from the least entry on. The sums of their
first entries compare alike, and so do the numbers of their entries at each value,
where fewer is better. Each sum of first entries is the greatest of a family of sums
over all entries, which needs no order of them.
-/

namespace StockProfiler

section Lists

variable {α : Type*} [LinearOrder α]

theorem cons_le_cons {x y : α} {a b : List α} : x :: a ≤ y :: b ↔ x < y ∨ x = y ∧ a ≤ b := by
  rw [le_iff_lt_or_eq, List.cons_lt_cons_iff, le_iff_lt_or_eq, List.cons.injEq]
  constructor
  · rintro ((hlt | ⟨heq, hlt⟩) | ⟨heq, hsame⟩)
    · exact .inl hlt
    · exact .inr ⟨heq, .inl hlt⟩
    · exact .inr ⟨heq, .inr hsame⟩
  · rintro (hlt | ⟨heq, hlt | hsame⟩)
    · exact .inl (.inl hlt)
    · exact .inl (.inr ⟨heq, hlt⟩)
    · exact .inr ⟨heq, hsame⟩

theorem append_le_append_iff {a b c d : List α} (h : a.length = b.length) :
    a ++ c ≤ b ++ d ↔ a < b ∨ a = b ∧ c ≤ d := by
  induction a generalizing b with
  | nil =>
    have hb := List.length_eq_zero_iff.mp h.symm
    subst hb
    simp
  | cons x a ih =>
    cases b with
    | nil => exact absurd h (Nat.succ_ne_zero _)
    | cons y b =>
      have ih := ih (Nat.succ.inj h)
      rw [List.cons_append, List.cons_append, cons_le_cons, List.cons_lt_cons_iff, ih,
        List.cons.injEq]
      constructor
      · rintro (hlt | ⟨rfl, hlt | ⟨rfl, hle⟩⟩)
        · exact .inl (.inl hlt)
        · exact .inl (.inr ⟨rfl, hlt⟩)
        · exact .inr ⟨⟨rfl, rfl⟩, hle⟩
      · rintro ((hlt | ⟨rfl, hlt⟩) | ⟨⟨rfl, rfl⟩, hle⟩)
        · exact .inl hlt
        · exact .inr ⟨rfl, .inl hlt⟩
        · exact .inr ⟨rfl, .inr ⟨rfl, hle⟩⟩

theorem append_singleton_le {a b : List α} {x y : α} (h : a.length = b.length) (hle : a ≤ b)
    (hxy : a = b → x ≤ y) : a ++ [x] ≤ b ++ [y] := by
  refine (append_le_append_iff h).mpr ?_
  rcases hle.lt_or_eq with hlt | heq
  · exact .inl hlt
  · rcases (hxy heq).lt_or_eq with hlt | heq'
    · exact .inr ⟨heq, cons_le_cons.mpr (.inl hlt)⟩
    · exact .inr ⟨heq, heq' ▸ le_rfl⟩

end Lists

/-- The sums of the first entries, one by one, on top of a start. -/
def prefixSums (start : ℚ) : List ℚ → List ℚ
  | [] => []
  | x :: xs => (start + x) :: prefixSums (start + x) xs

theorem prefixSums_eq (start : ℚ) (xs : List ℚ) :
    prefixSums start xs = (List.range xs.length).map fun j => start + (xs.take (j + 1)).sum := by
  induction xs generalizing start with
  | nil => rfl
  | cons x xs ih =>
    rw [prefixSums, ih, List.length_cons, List.range_succ_eq_map, List.map_cons, List.map_map]
    refine congrArg₂ List.cons (by simp) (List.map_congr_left fun j _ => ?_)
    rw [Function.comp_apply, List.take_succ_cons, List.sum_cons, add_assoc]

theorem prefixSums_lt_iff {start : ℚ} {xs ys : List ℚ} (h : xs.length = ys.length) :
    prefixSums start xs < prefixSums start ys ↔ xs < ys := by
  induction xs generalizing start ys with
  | nil =>
    rw [List.length_eq_zero_iff.mp h.symm]
    exact Iff.of_eq (by simp)
  | cons x xs ih =>
    cases ys with
    | nil => exact absurd h (Nat.succ_ne_zero _)
    | cons y ys =>
      rw [prefixSums, prefixSums, List.cons_lt_cons_iff, List.cons_lt_cons_iff, add_lt_add_iff_left,
        add_right_inj]
      refine or_congr_right (and_congr_right fun heq => ?_)
      subst heq
      exact ih (Nat.succ.inj h)

theorem prefixSums_inj {start : ℚ} {xs ys : List ℚ} (h : xs.length = ys.length)
    (heq : prefixSums start xs = prefixSums start ys) : xs = ys := by
  rcases lt_trichotomy xs ys with hlt | hsame | hgt
  · exact absurd heq ((prefixSums_lt_iff h).mpr hlt).ne
  · exact hsame
  · exact absurd heq ((prefixSums_lt_iff h.symm).mpr hgt).ne'

section Thresholds

variable {sorted xs : List ℚ} {k : ℕ}

/-- What a threshold takes beyond the entries below it. -/
def aboveThreshold (k : ℕ) (xs : List ℚ) (t : ℚ) : ℚ := k * t - (xs.map fun r => max 0 (t - r)).sum

theorem sum_map_sub (t : ℚ) (xs : List ℚ) :
    (xs.map fun r => t - r).sum = xs.length * t - xs.sum := by
  induction xs with
  | nil => simp
  | cons x xs ih =>
    rw [List.map_cons, List.sum_cons, ih, List.sum_cons, List.length_cons, Nat.cast_succ]
    ring

theorem aboveThreshold_perm {ys : List ℚ} (h : xs.Perm ys) (t : ℚ) :
    aboveThreshold k xs t = aboveThreshold k ys t := by
  rw [aboveThreshold, (h.map _).sum_eq, aboveThreshold]

theorem aboveThreshold_le (hk : k ≤ sorted.length) (t : ℚ) :
    aboveThreshold k sorted t ≤ (sorted.take k).sum := by
  have hlength : (sorted.take k).length = k := List.length_take_of_le hk
  have hfirst : (k : ℚ) * t - (sorted.take k).sum ≤
      ((sorted.take k).map fun r => max 0 (t - r)).sum := by
    have hsub := sum_map_sub t (sorted.take k)
    rw [hlength] at hsub
    rw [← hsub]
    exact List.sum_le_sum fun r _ => le_max_right _ _
  have hlater : 0 ≤ ((sorted.drop k).map fun r => max 0 (t - r)).sum := by
    refine List.sum_nonneg fun x hx => ?_
    obtain ⟨r, -, rfl⟩ := List.mem_map.mp hx
    exact le_max_left _ _
  have hsplit : (sorted.map fun r => max 0 (t - r)).sum =
      ((sorted.take k).map fun r => max 0 (t - r)).sum +
        ((sorted.drop k).map fun r => max 0 (t - r)).sum := by
    rw [← List.sum_append, ← List.map_append, List.take_append_drop]
  rw [aboveThreshold, hsplit]
  linarith

/-- The last of the first entries is a threshold that takes as much. -/
theorem aboveThreshold_getElem (hsorted : sorted.Pairwise (· ≤ ·)) (hk : k < sorted.length) :
    aboveThreshold (k + 1) sorted sorted[k] = (sorted.take (k + 1)).sum := by
  have hlength : (sorted.take (k + 1)).length = k + 1 := List.length_take_of_le hk
  have htake : ∀ r ∈ sorted.take (k + 1), r ≤ sorted[k] := by
    intro r hr
    obtain ⟨i, hi, rfl⟩ := List.mem_iff_getElem.mp hr
    rw [List.getElem_take]
    rcases Nat.lt_or_eq_of_le (Nat.le_of_lt_succ (hlength ▸ hi)) with hlt | heq
    · exact List.pairwise_iff_getElem.mp hsorted _ _ _ _ hlt
    · exact le_of_eq (by congr)
  have hdrop : ∀ r ∈ sorted.drop (k + 1), sorted[k] ≤ r := by
    intro r hr
    obtain ⟨i, hi, rfl⟩ := List.mem_iff_getElem.mp hr
    rw [List.getElem_drop]
    exact List.pairwise_iff_getElem.mp hsorted _ _ _ _ (by omega)
  have hfirst : ((sorted.take (k + 1)).map fun r => max 0 (sorted[k] - r)).sum =
      (k + 1 : ℕ) * sorted[k] - (sorted.take (k + 1)).sum := by
    have hsub := sum_map_sub sorted[k] (sorted.take (k + 1))
    rw [hlength] at hsub
    rw [← hsub]
    exact congrArg List.sum (List.map_congr_left fun r hr =>
      max_eq_right (sub_nonneg.mpr (htake r hr)))
  have hlater : ((sorted.drop (k + 1)).map fun r => max 0 (sorted[k] - r)).sum = 0 := by
    refine List.sum_eq_zero fun x hx => ?_
    obtain ⟨r, hr, rfl⟩ := List.mem_map.mp hx
    exact max_eq_left (sub_nonpos.mpr (hdrop r hr))
  have hsplit : (sorted.map fun r => max 0 (sorted[k] - r)).sum =
      ((sorted.take (k + 1)).map fun r => max 0 (sorted[k] - r)).sum +
        ((sorted.drop (k + 1)).map fun r => max 0 (sorted[k] - r)).sum := by
    rw [← List.sum_append, ← List.map_append, List.take_append_drop]
  rw [aboveThreshold, hsplit, hfirst, hlater]
  ring

/-- The sum of the least entries is the greatest that a threshold takes. -/
theorem isGreatest_aboveThreshold (hsorted : sorted.Pairwise (· ≤ ·)) (hk : k < sorted.length) :
    IsGreatest {s | ∃ t, s = aboveThreshold (k + 1) sorted t} (sorted.take (k + 1)).sum := by
  constructor
  · exact ⟨sorted[k], (aboveThreshold_getElem hsorted hk).symm⟩
  · rintro s ⟨t, rfl⟩
    exact aboveThreshold_le hk t

end Thresholds

section Counts

variable {α : Type*} [LinearOrder α]

/-- The numbers of entries at all values but the last, fewer counting for more. -/
def lowCounts (values entries : List α) : List ℚ :=
  values.dropLast.map fun value => -(entries.count value : ℚ)

theorem eq_replicate_append {value : α} {entries : List α} (hsorted : entries.Pairwise (· ≤ ·))
    (h : ∀ x ∈ entries, value ≤ x) :
    entries = List.replicate (entries.count value) value ++ entries.filter (· ≠ value) := by
  have hfirst : entries.filter (· = value) = List.replicate (entries.count value) value :=
    List.filter_eq _
  have hperm : (List.replicate (entries.count value) value ++ entries.filter (· ≠ value)).Perm
      entries := by
    rw [← hfirst]
    simpa using List.filter_append_perm (fun x => decide (x = value)) entries
  refine (hperm.eq_of_pairwise (fun a b _ _ hab hba => le_antisymm hab hba) ?_ hsorted).symm
  refine List.pairwise_append.mpr ⟨List.pairwise_replicate.mpr (.inr le_rfl),
    hsorted.filter _, fun a ha b hb => ?_⟩
  rw [List.eq_of_mem_replicate ha]
  exact h b (List.mem_of_mem_filter hb)

/-- Ascending lists of one length compare by the numbers of their entries at each value. -/
theorem lowCounts_compare {values xs ys : List α} (hvalues : values.Pairwise (· < ·))
    (hxs : xs.Pairwise (· ≤ ·)) (hys : ys.Pairwise (· ≤ ·)) (hlength : xs.length = ys.length)
    (hx : ∀ x ∈ xs, x ∈ values) (hy : ∀ y ∈ ys, y ∈ values) :
    (lowCounts values xs = lowCounts values ys → xs = ys) ∧
      (lowCounts values xs < lowCounts values ys → xs < ys) := by
  induction values generalizing xs ys with
  | nil =>
    have hnone : ∀ {zs : List α}, (∀ z ∈ zs, z ∈ ([] : List α)) → zs = [] := fun h =>
      List.eq_nil_iff_forall_not_mem.mpr fun z hz => List.not_mem_nil (h z hz)
    rw [hnone hx, hnone hy]
    exact ⟨fun _ => rfl, fun h => absurd h (lt_irrefl _)⟩
  | cons value values ih =>
    obtain ⟨hleast, hrest⟩ := List.pairwise_cons.mp hvalues
    cases values with
    | nil =>
      have hall : ∀ {zs : List α}, (∀ z ∈ zs, z ∈ [value]) →
          zs = List.replicate zs.length value := fun h =>
        List.eq_replicate_iff.mpr ⟨rfl, fun z hz => List.mem_singleton.mp (h z hz)⟩
      have hsame : xs = ys := by rw [hall hx, hall hy, hlength]
      exact ⟨fun _ => hsame, fun h => absurd h (by rw [hsame]; exact lt_irrefl _)⟩
    | cons next values =>
      have hlow : ∀ {zs : List α}, (∀ z ∈ zs, z ∈ value :: next :: values) →
          ∀ z ∈ zs, value ≤ z := by
        intro zs h z hz
        rcases List.mem_cons.mp (h z hz) with rfl | hz
        · exact le_rfl
        · exact (hleast z hz).le
      have hlater : ∀ {zs : List α}, (∀ z ∈ zs, z ∈ value :: next :: values) →
          ∀ z ∈ zs.filter (· ≠ value), z ∈ next :: values := by
        intro zs h z hz
        obtain ⟨hz, hne⟩ := List.mem_filter.mp hz
        exact (List.mem_cons.mp (h z hz)).resolve_left (of_decide_eq_true hne)
      have hcounts : ∀ zs : List α, lowCounts (value :: next :: values) zs =
          -(zs.count value : ℚ) :: lowCounts (next :: values) (zs.filter (· ≠ value)) := by
        intro zs
        refine congrArg₂ List.cons rfl (List.map_congr_left fun v hv => ?_)
        have hne : v ≠ value := (hleast v (List.mem_of_mem_dropLast hv)).ne'
        have hsame : (zs.filter (· ≠ value)).count v = zs.count v :=
          List.count_filter (p := fun z => decide (z ≠ value)) (decide_eq_true hne)
        rw [hsame]
      have hxsplit := eq_replicate_append hxs (hlow hx)
      have hysplit := eq_replicate_append hys (hlow hy)
      have hxlength := congrArg List.length hxsplit
      have hylength := congrArg List.length hysplit
      rw [List.length_append, List.length_replicate] at hxlength hylength
      have hsplit : xs.count value = ys.count value →
          (lowCounts (next :: values) (xs.filter (· ≠ value)) =
            lowCounts (next :: values) (ys.filter (· ≠ value)) →
              xs.filter (· ≠ value) = ys.filter (· ≠ value)) ∧
          (lowCounts (next :: values) (xs.filter (· ≠ value)) <
            lowCounts (next :: values) (ys.filter (· ≠ value)) →
              xs.filter (· ≠ value) < ys.filter (· ≠ value)) := fun hcount =>
        ih hrest (hxs.filter _) (hys.filter _) (by omega) (hlater hx) (hlater hy)
      rw [hcounts, hcounts]
      constructor
      · intro heq
        obtain ⟨hcount, heq⟩ := List.cons.inj heq
        have hcount : xs.count value = ys.count value := by exact_mod_cast neg_injective hcount
        calc xs = _ := hxsplit
          _ = List.replicate (ys.count value) value ++ ys.filter (· ≠ value) := by
            rw [hcount, (hsplit hcount).1 heq]
          _ = ys := hysplit.symm
      · intro hlt
        rcases List.cons_lt_cons_iff.mp hlt with hcount | ⟨hcount, hlt⟩
        · -- More entries at the value, where the other list already goes on above it.
          have hcount : ys.count value < xs.count value := by
            exact_mod_cast neg_lt_neg_iff.mp hcount
          obtain ⟨d, hd⟩ := Nat.exists_eq_add_of_lt hcount
          cases hys' : ys.filter (· ≠ value) with
          | nil =>
            rw [hys', List.length_nil] at hylength
            omega
          | cons above rest =>
            have habove : value < above :=
              hleast above (hlater hy above (hys' ▸ List.mem_cons_self ..))
            have hxs' : xs = List.replicate (ys.count value) value ++
                value :: (List.replicate d value ++ xs.filter (· ≠ value)) := by
              rw [← List.cons_append, ← List.replicate_succ, ← List.append_assoc,
                List.replicate_append_replicate, ← add_assoc, ← hd]
              exact hxsplit
            have hys'' : ys = List.replicate (ys.count value) value ++ above :: rest :=
              hysplit.trans (by rw [hys'])
            calc xs = _ := hxs'
              _ < List.replicate (ys.count value) value ++ above :: rest :=
                List.append_left_lt (List.cons_lt_cons_iff.mpr (.inl habove))
              _ = ys := hys''.symm
        · have hcount : xs.count value = ys.count value := by exact_mod_cast neg_injective hcount
          calc xs = _ := hxsplit
            _ < List.replicate (ys.count value) value ++ ys.filter (· ≠ value) := by
              rw [hcount]
              exact List.append_left_lt ((hsplit hcount).2 hlt)
            _ = ys := hysplit.symm

end Counts

end StockProfiler
