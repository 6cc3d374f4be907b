import Mathlib.Data.List.Basic

/-!
# Greedy selections

An order is scanned once. Each element joins the selection where the members before it joined
it, and the scan stops as soon as the selection is large enough.
-/

namespace StockProfiler

variable {α : Type*} (admits : List α → α → Bool)

/-- The members after one more element. -/
def joined (members : List α) (a : α) : List α :=
  if admits members a then members ++ [a] else members

/-- The members after an order. -/
def greedyFrom (members order : List α) : List α := order.foldl (joined admits) members

/-- The members that an order selects. -/
def greedy (order : List α) : List α := greedyFrom admits [] order

/-- The members after an order that is scanned until they are enough. -/
def membersUpTo (enough : ℕ) : List α → List α → List α
  | members, [] => members
  | members, a :: rest =>
    let next := joined admits members a
    if next.length = enough then next else membersUpTo enough next rest

/-- The elements of an order that are scanned, each with the members before it. -/
def scanUpTo (enough : ℕ) : List α → List α → List (List α × α)
  | _, [] => []
  | members, a :: rest =>
    let next := joined admits members a
    (members, a) :: if next.length = enough then [] else scanUpTo enough next rest

variable {admits} {members order : List α} {a : α} {enough : ℕ}

theorem joined_of_admits (h : admits members a = true) :
    joined admits members a = members ++ [a] := by
  rw [joined, if_pos h]

theorem joined_of_not (h : admits members a = false) : joined admits members a = members := by
  rw [joined, h]
  rfl

theorem prefix_joined (members : List α) (a : α) : members <+: joined admits members a := by
  rw [joined]
  split
  · exact List.prefix_append _ _
  · exact List.prefix_rfl

theorem prefix_greedyFrom (members order : List α) :
    members <+: greedyFrom admits members order := by
  induction order generalizing members with
  | nil => exact List.prefix_rfl
  | cons a order ih => exact (prefix_joined members a).trans (ih _)

theorem length_joined_le (members : List α) (a : α) :
    (joined admits members a).length ≤ members.length + 1 := by
  rw [joined]
  split
  · exact Nat.le_of_eq List.length_append
  · exact Nat.le_succ _

theorem exists_sublist_greedyFrom (members order : List α) :
    ∃ taken, taken.Sublist order ∧ greedyFrom admits members order = members ++ taken := by
  induction order generalizing members with
  | nil => exact ⟨[], List.Sublist.slnil, (List.append_nil _).symm⟩
  | cons a order ih =>
    obtain ⟨taken, hsub, heq⟩ := ih (joined admits members a)
    have hstep : greedyFrom admits members (a :: order) = joined admits members a ++ taken := heq
    by_cases h : admits members a
    · refine ⟨a :: taken, hsub.cons_cons a, ?_⟩
      rw [hstep, joined_of_admits h, List.append_assoc]
      rfl
    · refine ⟨taken, hsub.cons a, ?_⟩
      rw [hstep, joined_of_not (by simpa using h)]

theorem greedy_sublist (order : List α) : (greedy admits order).Sublist order := by
  obtain ⟨taken, hsub, heq⟩ := @exists_sublist_greedyFrom α admits [] order
  rw [greedy, heq]
  exact hsub

/-- What admitted elements preserve holds of a selection. -/
theorem greedyFrom_invariant {P : List α → Prop}
    (hjoin : ∀ members a, P members → admits members a = true → P (members ++ [a]))
    (h : P members) : P (greedyFrom admits members order) := by
  induction order generalizing members with
  | nil => exact h
  | cons a order ih =>
    apply ih
    by_cases hyes : admits members a
    · rw [joined_of_admits hyes]
      exact hjoin members a h hyes
    · rw [joined_of_not (by simpa using hyes)]
      exact h

/-- Stopping early leaves the first members of the whole selection. -/
theorem membersUpTo_eq_take (h : members.length < enough) :
    membersUpTo admits enough members order = (greedyFrom admits members order).take enough := by
  induction order generalizing members with
  | nil => exact (List.take_of_length_le (Nat.le_of_lt h)).symm
  | cons a order ih =>
    have hstep : greedyFrom admits members (a :: order) =
        greedyFrom admits (joined admits members a) order := rfl
    rw [membersUpTo, hstep]
    split
    · rename_i hlength
      obtain ⟨rest, hrest⟩ := @prefix_greedyFrom α admits (joined admits members a) order
      rw [← hrest, List.take_left' hlength]
    · rename_i hlength
      have hle := @length_joined_le α admits members a
      exact ih (by omega)

theorem length_membersUpTo_eq_iff (h : members.length < enough) :
    (membersUpTo admits enough members order).length = enough ↔
      enough ≤ (greedyFrom admits members order).length := by
  rw [membersUpTo_eq_take h, List.length_take]
  omega

theorem scanUpTo_first (members order : List α) :
    (scanUpTo admits enough members order).map Prod.snd <+: order := by
  induction order generalizing members with
  | nil => exact List.prefix_rfl
  | cons a order ih =>
    rw [scanUpTo, List.map_cons]
    apply List.prefix_cons_inj a |>.mpr
    split
    · exact List.nil_prefix
    · exact ih _

/-- The members before a scanned element are those of the elements scanned before it. -/
theorem eq_filter_of_scanUpTo {earlier later : List (List α × α)} {entry : List α × α}
    (h : scanUpTo admits enough members order = earlier ++ entry :: later) :
    entry.1 = members ++ (earlier.filter fun before => admits before.1 before.2).map Prod.snd := by
  induction order generalizing members earlier with
  | nil => exact absurd h (List.append_ne_nil_of_right_ne_nil _ (List.cons_ne_nil _ _)).symm
  | cons a order ih =>
    rw [scanUpTo] at h
    cases earlier with
    | nil =>
      obtain ⟨rfl, -⟩ := List.cons.inj h
      exact (List.append_nil _).symm
    | cons first earlier =>
      obtain ⟨rfl, hrest⟩ := List.cons.inj h
      split at hrest
      · exact absurd hrest (List.append_ne_nil_of_right_ne_nil _ (List.cons_ne_nil _ _)).symm
      · rw [ih hrest, List.filter_cons]
        by_cases hyes : admits members a
        · rw [joined_of_admits hyes, if_pos hyes, List.map_cons, List.append_assoc]
          rfl
        · rw [joined_of_not (by simpa using hyes), if_neg hyes]

/-- The members are those elements that were scanned and admitted. -/
theorem membersUpTo_eq_filter (members order : List α) :
    membersUpTo admits enough members order = members ++
      ((scanUpTo admits enough members order).filter fun entry => admits entry.1 entry.2).map
        Prod.snd := by
  induction order generalizing members with
  | nil => exact (List.append_nil _).symm
  | cons a order ih =>
    rw [membersUpTo, scanUpTo, List.filter_cons]
    dsimp only
    by_cases hyes : admits members a
    · rw [if_pos hyes, joined_of_admits hyes, List.map_cons]
      split
      · rfl
      · rw [ih, List.append_assoc]
        rfl
    · rw [if_neg hyes, joined_of_not (by simpa using hyes)]
      split
      · exact (List.append_nil _).symm
      · exact ih _

end StockProfiler
