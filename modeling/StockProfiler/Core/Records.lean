import Mathlib.Data.List.Basic

/-!
# Records of a log

A log is read by keeping some of its items, taking the record that each of them may hold, and
keeping some of these records.
-/

namespace StockProfiler

variable {α β : Type*}

/-- The records that are kept of the items that are kept of a log. -/
def recordsOf (p : α → Bool) (record : α → Option β) (keep : β → Bool) (items : List α) : List β :=
  ((items.filter p).filterMap record).filter keep

section Records

variable {p q : α → Bool} {record : α → Option β} {keep : β → Bool} {items : List α}

theorem recordsOf_append (more : List α) : recordsOf p record keep (items ++ more) =
    recordsOf p record keep items ++ recordsOf p record keep more := by
  unfold recordsOf
  rw [List.filter_append, List.filterMap_append, List.filter_append]

theorem recordsOf_singleton (a : α) : recordsOf p record keep [a] =
    if p a then (record a).toList.filter keep else [] := by
  unfold recordsOf
  rw [List.filter_cons, List.filter_nil]
  split
  · cases h : record a with
    | none => rw [List.filterMap_cons_none h]; rfl
    | some b => rw [List.filterMap_cons_some h]; rfl
  · rfl

theorem recordsOf_congr (h : ∀ a ∈ items, ∀ b ∈ record a, keep b = true → p a = q a) :
    recordsOf p record keep items = recordsOf q record keep items := by
  induction items with
  | nil => rfl
  | cons a items ih =>
    rw [← List.singleton_append, recordsOf_append, recordsOf_append,
      ih fun other hother => h other (List.mem_cons_of_mem _ hother), recordsOf_singleton,
      recordsOf_singleton]
    congr 1
    cases hrecord : record a with
    | none => rw [Option.toList_none, List.filter_nil, ite_self, ite_self]
    | some b =>
      rw [Option.toList_some, List.filter_cons, List.filter_nil]
      by_cases hkeep : keep b = true
      · rw [h a (List.mem_cons_self ..) b hrecord hkeep]
      · rw [if_neg hkeep, ite_self, ite_self]

end Records

end StockProfiler
