import Mathlib.Algebra.BigOperators.Group.Finset.Basic
import Mathlib.Algebra.BigOperators.Group.List.Lemmas
import Mathlib.Algebra.Order.BigOperators.Group.List
import Mathlib.Algebra.Order.BigOperators.Ring.Finset
import Mathlib.Algebra.Order.Ring.Rat
import Mathlib.Tactic.Linarith
import Mathlib.Tactic.Ring

/-!
# Sums over the items that satisfy a predicate

Amounts are added up over the items of a list that satisfy a predicate. The
lemmas split such a sum by predicate, by list and by the key an item refers to.
-/

namespace StockProfiler

section Sums

variable {α : Type*} (items : List α) (amount : α → ℚ)

/-- The amounts of the items that satisfy a predicate. -/
def sumWhere (p : α → Prop) [DecidablePred p] : ℚ := ((items.filter (p ·)).map amount).sum

variable {items amount} {p q : α → Prop} [DecidablePred p] [DecidablePred q]

@[simp] theorem sumWhere_nil : sumWhere [] amount p = 0 := rfl

@[simp] theorem sumWhere_false (items : List α) (amount : α → ℚ)
    [DecidablePred fun _ : α => False] : sumWhere items amount (fun _ => False) = 0 := by
  simp [sumWhere]

theorem sumWhere_cons (a : α) (items : List α) :
    sumWhere (a :: items) amount p = (if p a then amount a else 0) + sumWhere items amount p := by
  simp only [sumWhere, List.filter_cons]
  by_cases h : p a <;> simp [h]

@[simp] theorem sumWhere_true (items : List α) (amount : α → ℚ) [DecidablePred fun _ : α => True] :
    sumWhere items amount (fun _ => True) = (items.map amount).sum := by
  simp [sumWhere]

@[simp] theorem sumWhere_append (xs ys : List α) :
    sumWhere (xs ++ ys) amount p = sumWhere xs amount p + sumWhere ys amount p := by
  simp only [sumWhere, List.filter_append, List.map_append, List.sum_append]

theorem sum_map_ite (items : List α) (amount : α → ℚ) (p : α → Prop) [DecidablePred p] :
    (items.map fun a => if p a then amount a else 0).sum = sumWhere items amount p := by
  induction items with
  | nil => rfl
  | cons a items ih => rw [List.map_cons, List.sum_cons, ih, sumWhere_cons]

theorem sumWhere_nonneg (h : ∀ a ∈ items, 0 ≤ amount a) : 0 ≤ sumWhere items amount p := by
  refine List.sum_nonneg fun x hx => ?_
  obtain ⟨a, ha, rfl⟩ := List.mem_map.mp hx
  exact h a (List.mem_filter.mp ha).1

theorem sumWhere_congr {amount' : α → ℚ} (hp : ∀ a ∈ items, (p a ↔ q a))
    (hamount : ∀ a ∈ items, q a → amount a = amount' a) :
    sumWhere items amount p = sumWhere items amount' q := by
  induction items with
  | nil => rfl
  | cons a items ih =>
    have hiff := hp a (List.mem_cons_self ..)
    rw [sumWhere_cons, sumWhere_cons, ih (fun b hb => hp b (List.mem_cons_of_mem _ hb))
      fun b hb => hamount b (List.mem_cons_of_mem _ hb)]
    by_cases h : q a
    · rw [if_pos h, if_pos (hiff.mpr h), hamount a (List.mem_cons_self ..) h]
    · rw [if_neg h, if_neg fun hpa => h (hiff.mp hpa)]

theorem sumWhere_eq_zero (h : ∀ a ∈ items, ¬p a) : sumWhere items amount p = 0 := by
  have hnil : items.filter (p ·) = [] :=
    List.filter_eq_nil_iff.mpr fun a ha hp => h a ha (of_decide_eq_true hp)
  rw [sumWhere, hnil, List.map_nil, List.sum_nil]

/-- More items with at least the amount add up to at least as much. -/
theorem sumWhere_le_sumWhere {amount' : α → ℚ} (hp : ∀ a ∈ items, p a → q a)
    (hamount : ∀ a ∈ items, p a → amount a ≤ amount' a) (hnonneg : ∀ a ∈ items, 0 ≤ amount' a) :
    sumWhere items amount p ≤ sumWhere items amount' q := by
  induction items with
  | nil => exact le_rfl
  | cons a items ih =>
    have ih := ih (fun b hb => hp b (List.mem_cons_of_mem _ hb))
      (fun b hb => hamount b (List.mem_cons_of_mem _ hb))
      fun b hb => hnonneg b (List.mem_cons_of_mem _ hb)
    rw [sumWhere_cons, sumWhere_cons]
    refine add_le_add ?_ ih
    by_cases h : p a
    · rw [if_pos h, if_pos (hp a (List.mem_cons_self ..) h)]
      exact hamount a (List.mem_cons_self ..) h
    · rw [if_neg h]
      split
      · exact hnonneg a (List.mem_cons_self ..)
      · exact le_rfl

theorem abs_sumWhere_le : |sumWhere items amount p| ≤ sumWhere items (|amount ·|) p := by
  induction items with
  | nil => exact abs_zero.le
  | cons a items ih =>
    rw [sumWhere_cons, sumWhere_cons]
    refine (abs_add_le _ _).trans (add_le_add ?_ ih)
    split
    · exact le_rfl
    · exact abs_zero.le

theorem le_sumWhere {a : α} (ha : a ∈ items) (hpa : p a) (h : ∀ b ∈ items, 0 ≤ amount b) :
    amount a ≤ sumWhere items amount p := by
  refine List.single_le_sum (fun x hx => ?_) _
    (List.mem_map.mpr ⟨a, List.mem_filter.mpr ⟨ha, decide_eq_true hpa⟩, rfl⟩)
  obtain ⟨b, hb, rfl⟩ := List.mem_map.mp hx
  exact h b (List.mem_filter.mp hb).1

theorem sumWhere_split :
    sumWhere items amount p = sumWhere items amount (fun a => p a ∧ q a) +
      sumWhere items amount (fun a => p a ∧ ¬q a) := by
  induction items with
  | nil => simp only [sumWhere_nil, add_zero]
  | cons a items ih =>
    rw [sumWhere_cons, sumWhere_cons, sumWhere_cons, ih]
    by_cases hp : p a <;> by_cases hq : q a <;> simp [hp, hq] <;> ring

theorem sum_sumWhere_eq {ν : Type*} [DecidableEq ν] (node : α → ν) (V : Finset ν) :
    ∑ v ∈ V, sumWhere items amount (fun a => node a = v) =
      sumWhere items amount (fun a => node a ∈ V) := by
  induction items with
  | nil => simp
  | cons a items ih =>
    simp only [sumWhere_cons, Finset.sum_add_distrib, ih, Finset.sum_ite_eq]

theorem sum_sumWhere_and_eq {ν : Type*} [DecidableEq ν] (node : α → ν) (V : Finset ν)
    (hV : ∀ a ∈ items, node a ∈ V) :
    ∑ v ∈ V, sumWhere items amount (fun a => p a ∧ node a = v) = sumWhere items amount p := by
  induction items with
  | nil => simp
  | cons a items ih =>
    have ha := hV a (List.mem_cons_self ..)
    have ih := ih fun b hb => hV b (List.mem_cons_of_mem _ hb)
    simp only [sumWhere_cons, Finset.sum_add_distrib, ih]
    by_cases h : p a <;> simp [h, ha]

theorem sumWhere_perm {xs ys : List α} (h : xs.Perm ys) :
    sumWhere xs amount p = sumWhere ys amount p :=
  ((h.filter _).map _).sum_eq

theorem sumWhere_map {β : Type*} (f : β → α) (xs : List β) :
    sumWhere (xs.map f) amount p = sumWhere xs (fun x => amount (f x)) fun x => p (f x) := by
  induction xs with
  | nil => rfl
  | cons x xs ih => rw [List.map_cons, sumWhere_cons, sumWhere_cons, ih]

theorem sumWhere_zipIdx (items : List α) (amount : α → ℚ) (p : α → Prop) [DecidablePred p] :
    sumWhere items.zipIdx (fun x => amount x.1) (fun x => p x.1) = sumWhere items amount p := by
  rw [← sumWhere_map, List.zipIdx_map_fst]

theorem sumWhere_filter (items : List α) :
    sumWhere (items.filter (q ·)) amount p = sumWhere items amount fun a => q a ∧ p a := by
  rw [sumWhere, List.filter_filter, sumWhere]
  simp only [Bool.decide_and, Bool.and_comm]

/-- Two items made from each of a list are summed class by class. -/
theorem sumWhere_flatMap_pair {β : Type*} (f g : β → α) (xs : List β) :
    sumWhere (xs.flatMap fun x => [f x, g x]) amount p =
      sumWhere xs (fun x => amount (f x)) (fun x => p (f x)) +
        sumWhere xs (fun x => amount (g x)) fun x => p (g x) := by
  induction xs with
  | nil => simp only [List.flatMap_nil, sumWhere_nil, add_zero]
  | cons x xs ih =>
    rw [List.flatMap_cons, sumWhere_append, sumWhere_cons, sumWhere_cons, sumWhere_nil, ih,
      sumWhere_cons, sumWhere_cons]
    ring

/-- Items made from each of a list are summed item by item. -/
theorem sumWhere_flatMap {β : Type*} (f : β → List α) (xs : List β) :
    sumWhere (xs.flatMap f) amount p = (xs.map fun x => sumWhere (f x) amount p).sum := by
  induction xs with
  | nil => rfl
  | cons x xs ih => rw [List.flatMap_cons, sumWhere_append, ih, List.map_cons, List.sum_cons]

theorem sumWhere_neg : sumWhere items (fun a => -amount a) p = -sumWhere items amount p := by
  induction items with
  | nil => rfl
  | cons a items ih =>
    rw [sumWhere_cons, sumWhere_cons, ih]
    split <;> ring

section Records

variable {β κ : Type*} [DecidableEq κ] {records : List β} {key : β → κ}
  (hkeys : (records.map key).Nodup) (r : β → Prop) [DecidablePred r]
include hkeys

/-- With distinct keys an amount given to the record of one key is counted once. -/
theorem sumWhere_key_eq {record : β} (hmem : record ∈ records) (x : ℚ) :
    sumWhere records (fun b => if key record = key b then x else 0) r =
      if r record then x else 0 := by
  induction records with
  | nil => exact nomatch hmem
  | cons b records ih =>
    obtain ⟨hb, hkeys⟩ := List.nodup_cons.mp hkeys
    rw [sumWhere_cons]
    rcases List.mem_cons.mp hmem with rfl | hin
    · rw [if_pos rfl, sumWhere, List.sum_eq_zero, add_zero]
      intro y hy
      obtain ⟨c, hc, rfl⟩ := List.mem_map.mp hy
      refine if_neg fun he => hb ?_
      exact he ▸ List.mem_map.mpr ⟨c, (List.mem_filter.mp hc).1, rfl⟩
    · have hne : key record ≠ key b := fun he => hb (he ▸ List.mem_map.mpr ⟨_, hin, rfl⟩)
      rw [ih hkeys hin, if_neg hne, ite_self, zero_add]

/-- With distinct keys the record of one key is alone in its class. -/
theorem sumWhere_of_key {record : β} (hmem : record ∈ records) (f : β → ℚ) :
    sumWhere records f (fun b => key b = key record) = f record := by
  have hone : records.filter (fun b => key b = key record) = [record] := by
    refine List.perm_singleton.mp ((List.perm_ext_iff_of_nodup
      ((List.Nodup.of_map _ hkeys).filter _) (List.nodup_singleton _)).mpr fun b => ?_)
    rw [List.mem_filter, decide_eq_true_iff, List.mem_singleton]
    constructor
    · rintro ⟨hb, heq⟩
      exact List.inj_on_of_nodup_map hkeys hb hmem heq
    · rintro rfl
      exact ⟨hmem, rfl⟩
  rw [sumWhere, hone, List.map_singleton, List.sum_singleton]

/-- When items refer to records with distinct keys, adding up the items record by record
adds up every item once. -/
theorem sumWhere_fiber (record : α → β) (hmem : ∀ a ∈ items, record a ∈ records) :
    sumWhere records (fun b => sumWhere items amount fun a => key (record a) = key b) r =
      sumWhere items amount fun a => r (record a) := by
  induction items with
  | nil => simp [sumWhere]
  | cons a items ih =>
    have hsplit : sumWhere records
        (fun b => sumWhere (a :: items) amount fun a => key (record a) = key b) r =
        sumWhere records (fun b => if key (record a) = key b then amount a else 0) r +
          sumWhere records (fun b => sumWhere items amount fun a => key (record a) = key b) r := by
      simp only [sumWhere_cons (p := fun a => key (record a) = _)]
      simp only [sumWhere, List.sum_map_add]
    rw [hsplit, sumWhere_key_eq hkeys r (hmem a (List.mem_cons_self ..)),
      ih fun b hb => hmem b (List.mem_cons_of_mem _ hb), sumWhere_cons]

end Records

end Sums

end StockProfiler
