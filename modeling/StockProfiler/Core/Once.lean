import Mathlib.Data.List.Nodup
import Mathlib.Data.List.Basic

/-!
# Logs that take every key once

Rows are appended to a log unless a row with their key is there. Such an append is idempotent,
and a log that lost its last rows gets exactly these back when no key occurs twice in them.
-/

namespace StockProfiler

variable {α κ : Type*} [DecidableEq κ] (key : α → κ)

/-- Append a row, unless its key is taken. -/
def addOnce (log : List α) (row : α) : List α :=
  if key row ∈ log.map key then log else log ++ [row]

/-- Append some rows, one after the other, each unless its key is taken. -/
def addAllOnce (log rows : List α) : List α := rows.foldl (addOnce key) log

variable {key} {log rows : List α}

@[simp] theorem addAllOnce_nil : addAllOnce key log [] = log := rfl

@[simp] theorem addAllOnce_cons (row : α) :
    addAllOnce key log (row :: rows) = addAllOnce key (addOnce key log row) rows := rfl

theorem addAllOnce_append (more : List α) :
    addAllOnce key log (rows ++ more) = addAllOnce key (addAllOnce key log rows) more :=
  List.foldl_append

theorem addOnce_of_mem {row : α} (h : key row ∈ log.map key) : addOnce key log row = log :=
  if_pos h

theorem addOnce_of_notMem {row : α} (h : key row ∉ log.map key) :
    addOnce key log row = log ++ [row] :=
  if_neg h

theorem addAllOnce_of_forall_mem (h : ∀ row ∈ rows, key row ∈ log.map key) :
    addAllOnce key log rows = log := by
  induction rows with
  | nil => rfl
  | cons row rows ih =>
    rw [addAllOnce_cons, addOnce_of_mem (h row (List.mem_cons_self ..))]
    exact ih fun other hmem => h other (List.mem_cons_of_mem _ hmem)

theorem addAllOnce_eq_append (hnodup : (rows.map key).Nodup)
    (hnew : ∀ row ∈ rows, key row ∉ log.map key) : addAllOnce key log rows = log ++ rows := by
  induction rows generalizing log with
  | nil => exact (List.append_nil log).symm
  | cons row rows ih =>
    rw [List.map_cons, List.nodup_cons] at hnodup
    rw [addAllOnce_cons, addOnce_of_notMem (hnew row (List.mem_cons_self ..)), ih hnodup.2,
      List.append_assoc, List.singleton_append]
    intro other hmem hkey
    rw [List.map_append, List.mem_append] at hkey
    rcases hkey with hkey | hkey
    · exact hnew other (List.mem_cons_of_mem _ hmem) hkey
    · have heq : key other = key row := List.mem_singleton.mp hkey
      exact hnodup.1 (heq ▸ List.mem_map_of_mem hmem)

theorem exists_addAllOnce (key : α → κ) (log rows : List α) :
    ∃ added, addAllOnce key log rows = log ++ added ∧ added.Sublist rows ∧
      (added.map key).Nodup ∧ ∀ row ∈ added, key row ∉ log.map key := by
  induction rows generalizing log with
  | nil =>
    exact ⟨[], (List.append_nil log).symm, .slnil, List.nodup_nil,
      nofun⟩
  | cons row rows ih =>
    obtain ⟨added, heq, hsub, hnodup, hnew⟩ := ih (addOnce key log row)
    rw [addAllOnce_cons]
    by_cases hrow : key row ∈ log.map key
    · rw [addOnce_of_mem hrow] at heq hnew ⊢
      exact ⟨added, heq, hsub.cons row, hnodup, hnew⟩
    · rw [addOnce_of_notMem hrow] at heq hnew ⊢
      simp only [List.map_append, List.map_cons, List.map_nil, List.mem_append, List.mem_singleton,
        not_or] at hnew
      refine ⟨row :: added, ?_, hsub.cons_cons row, ?_, ?_⟩
      · rw [heq, List.append_assoc, List.singleton_append]
      · rw [List.map_cons, List.nodup_cons]
        refine ⟨fun hmem => ?_, hnodup⟩
        obtain ⟨other, hother, hkey⟩ := List.mem_map.mp hmem
        exact (hnew other hother).2 hkey
      · intro other hmem
        rcases List.mem_cons.mp hmem with rfl | hmem
        · exact hrow
        · exact (hnew other hmem).1

theorem mem_keys_addAllOnce {row : α} (hmem : row ∈ rows) :
    key row ∈ (addAllOnce key log rows).map key := by
  induction rows generalizing log with
  | nil => exact nomatch hmem
  | cons first rows ih =>
    rw [addAllOnce_cons]
    rcases List.mem_cons.mp hmem with rfl | hmem
    · obtain ⟨added, heq, -⟩ := exists_addAllOnce key (addOnce key log row) rows
      rw [heq, List.map_append, List.mem_append]
      left
      by_cases hrow : key row ∈ log.map key
      · rwa [addOnce_of_mem hrow]
      · rw [addOnce_of_notMem hrow, List.map_append, List.mem_append]
        exact .inr (List.mem_singleton_self _)
    · exact ih hmem

theorem addAllOnce_idempotent {again : List α} (h : again.map key = rows.map key) :
    addAllOnce key (addAllOnce key log rows) again = addAllOnce key log rows := by
  refine addAllOnce_of_forall_mem fun row hmem => ?_
  have hkey : key row ∈ rows.map key := h ▸ List.mem_map_of_mem hmem
  obtain ⟨other, hother, heq⟩ := List.mem_map.mp hkey
  exact heq ▸ mem_keys_addAllOnce hother

theorem keys_nodup_of_length {added : List α} (heq : addAllOnce key log rows = log ++ added)
    (hlength : added.length = rows.length) : added = rows ∧ (rows.map key).Nodup := by
  obtain ⟨other, hother, hsub, hnodup, -⟩ := exists_addAllOnce key log rows
  obtain rfl : added = other := List.append_cancel_left (heq.symm.trans hother)
  obtain rfl := hsub.eq_of_length hlength
  exact ⟨rfl, hnodup⟩

end StockProfiler
