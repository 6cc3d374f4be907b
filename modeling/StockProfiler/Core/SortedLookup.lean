import Mathlib.Data.List.Basic
import Mathlib.Data.List.TakeWhile

/-!
# Lookups in ordered lists

A test that holds of an ordered list up to some place splits it there, so what a bisection finds
is what a filter keeps.
-/

namespace StockProfiler

variable {α : Type*} {p : α → Bool} {items : List α}

/-- A test holds of a list up to some place. -/
def HoldsUpTo (p : α → Bool) (items : List α) : Prop := items.Pairwise fun a b => p b → p a

/-- Tests that follow from those of later elements hold up to some place. -/
theorem HoldsUpTo.of_pairwise {R : α → α → Prop} (h : items.Pairwise R)
    (hp : ∀ a b, R a b → p b → p a) : HoldsUpTo p items := h.imp (hp _ _)

theorem HoldsUpTo.takeWhile_eq (h : HoldsUpTo p items) : items.takeWhile p = items.filter p := by
  induction items with
  | nil => rfl
  | cons a items ih =>
    obtain ⟨hhead, htail⟩ := List.pairwise_cons.mp h
    by_cases ha : p a
    · rw [List.takeWhile_cons_of_pos ha, List.filter_cons_of_pos ha, ih htail]
    · rw [List.takeWhile_cons_of_neg ha, List.filter_cons_of_neg ha, List.filter_eq_nil_iff.mpr]
      exact fun b hb hpb => ha (hhead b hb hpb)

theorem HoldsUpTo.dropWhile_eq (h : HoldsUpTo p items) :
    items.dropWhile p = items.filter (!p ·) := by
  induction items with
  | nil => rfl
  | cons a items ih =>
    obtain ⟨hhead, htail⟩ := List.pairwise_cons.mp h
    by_cases ha : p a
    · rw [List.dropWhile_cons_of_pos ha, List.filter_cons_of_neg (by simpa using ha), ih htail]
    · rw [List.dropWhile_cons_of_neg ha, List.filter_cons_of_pos (by simpa using ha)]
      refine congrArg _ (List.filter_eq_self.mpr fun b hb => ?_).symm
      simpa using fun hpb => ha (hhead b hb hpb)

theorem HoldsUpTo.filter_append_filter (h : HoldsUpTo p items) :
    items.filter p ++ items.filter (!p ·) = items := by
  rw [← h.takeWhile_eq, ← h.dropWhile_eq, List.takeWhile_append_dropWhile]

theorem find?_eq_of_forall {q : α → Bool} (h : ∀ a ∈ items, p a = q a) :
    items.find? p = items.find? q := by
  rw [← List.head?_filter, ← List.head?_filter, List.filter_congr h]

end StockProfiler
