import Mathlib.Algebra.BigOperators.Group.List.Basic
import Mathlib.Algebra.Order.BigOperators.Group.List
import Mathlib.Algebra.Order.Group.Defs
import Mathlib.Data.List.Induction
import Mathlib.Order.Bounds.Defs

/-!
# Running balances reflected at zero

A balance that never drops below zero forgets what was taken from an empty one. It is
the greatest sum of the changes after some cut. When the changes are in the order of
their times, with losses first, the cuts can be taken at the times of the gains.
-/

namespace StockProfiler

variable {α τ : Type*} [AddCommGroup α] [LinearOrder α] [IsOrderedAddMonoid α]

/-- The balance after changes that never take it below zero. -/
def reflectFrom (start : α) (changes : List α) : α :=
  changes.foldl (fun balance change => max 0 (balance + change)) start

omit [IsOrderedAddMonoid α] in
theorem reflectFrom_append (start : α) (xs ys : List α) :
    reflectFrom start (xs ++ ys) = reflectFrom (reflectFrom start xs) ys :=
  List.foldl_append

omit [IsOrderedAddMonoid α] in
theorem reflectFrom_concat (start : α) (xs : List α) (x : α) :
    reflectFrom start (xs ++ [x]) = max 0 (reflectFrom start xs + x) := by
  rw [reflectFrom_append]
  rfl

omit [IsOrderedAddMonoid α] in
theorem reflectFrom_nonneg {start : α} (h : 0 ≤ start) (changes : List α) :
    0 ≤ reflectFrom start changes := by
  cases changes using List.reverseRecOn with
  | nil => exact h
  | append_singleton xs x => exact (reflectFrom_concat start xs x) ▸ le_max_left _ _

theorem add_sum_le_reflectFrom (start : α) (changes : List α) :
    start + changes.sum ≤ reflectFrom start changes := by
  induction changes using List.reverseRecOn with
  | nil => simp [reflectFrom]
  | append_singleton xs x ih =>
    rw [reflectFrom_concat, List.sum_append, List.sum_singleton, ← add_assoc]
    exact (add_le_add_left ih x).trans (le_max_right _ _)

/-- The reflected balance is the greatest sum of the changes after some cut. -/
theorem isGreatest_reflectFrom (changes : List α) :
    IsGreatest {s | ∃ later, later <:+ changes ∧ s = later.sum} (reflectFrom 0 changes) := by
  constructor
  · induction changes using List.reverseRecOn with
    | nil => exact ⟨[], List.suffix_rfl, rfl⟩
    | append_singleton xs x ih =>
      obtain ⟨later, hlater, hsum⟩ := ih
      rw [reflectFrom_concat, hsum]
      rcases le_total 0 (later.sum + x) with h | h
      · refine ⟨later ++ [x], ?_, ?_⟩
        · obtain ⟨earlier, rfl⟩ := hlater
          exact ⟨earlier, (List.append_assoc ..).symm⟩
        · rw [max_eq_right h, List.sum_append, List.sum_singleton]
      · exact ⟨[], List.nil_suffix, by rw [max_eq_left h, List.sum_nil]⟩
  · rintro s ⟨later, ⟨earlier, rfl⟩, rfl⟩
    rw [reflectFrom_append]
    calc later.sum ≤ reflectFrom 0 earlier + later.sum :=
          le_add_of_nonneg_left (reflectFrom_nonneg le_rfl earlier)
      _ ≤ reflectFrom (reflectFrom 0 earlier) later := add_sum_le_reflectFrom ..

section Timed

variable [LinearOrder τ]

/-- A change counts after a cut: a gain at the very instant of the cut comes after it, and a
loss before it. -/
def AfterCut (cut : τ) (change : τ × α) : Prop :=
  cut < change.1 ∨ cut = change.1 ∧ 0 ≤ change.2

instance (cut : τ) : DecidablePred (AfterCut (α := α) cut) := fun _ =>
  inferInstanceAs (Decidable (_ ∨ _))

/-- The changes after a cut. -/
def changesAfter (cut : τ) (changes : List (τ × α)) : List α :=
  (changes.filter (AfterCut cut ·)).map Prod.snd

/-- Changes in the order of their times, with losses before gains. -/
def TimeOrdered (changes : List (τ × α)) : Prop :=
  changes.Pairwise fun a b => a.1 < b.1 ∨ a.1 = b.1 ∧ (0 ≤ a.2 → 0 ≤ b.2)

omit [AddCommGroup α] [IsOrderedAddMonoid α] [LinearOrder α] in
theorem filter_suffix {β : Type*} {p : β → Prop} [DecidablePred p] {items : List β}
    (h : items.Pairwise fun a b => p a → p b) : items.filter (p ·) <:+ items := by
  induction items with
  | nil => exact List.suffix_rfl
  | cons a items ih =>
    obtain ⟨ha, hrest⟩ := List.pairwise_cons.mp h
    by_cases hp : p a
    · have hall : (a :: items).filter (p ·) = a :: items := by
        refine List.filter_eq_self.mpr fun b hb => decide_eq_true ?_
        rcases List.mem_cons.mp hb with rfl | hb
        · exact hp
        · exact ha b hb hp
      exact ⟨[], hall⟩
    · rw [List.filter_cons_of_neg (by simpa using hp)]
      exact (ih hrest).trans (List.suffix_cons a items)

omit [IsOrderedAddMonoid α] in
theorem TimeOrdered.suffix {changes : List (τ × α)} (h : TimeOrdered changes) (cut : τ) :
    changesAfter cut changes <:+ changes.map Prod.snd := by
  refine List.IsSuffix.map _ (filter_suffix (h.imp fun {a b} hab hcut => ?_))
  rcases hab with hlt | ⟨heq, hgain⟩
  · exact .inl (hcut.elim (·.trans hlt) fun hat => hat.1.trans_lt hlt)
  · rcases hcut with hcut | ⟨hcut, ha⟩
    · exact .inl (heq ▸ hcut)
    · exact .inr ⟨hcut.trans heq, hgain ha⟩

theorem sum_le_sum_changesAfter {changes : List (τ × α)} {cut : τ}
    (h : ∀ change ∈ changes, ¬AfterCut cut change → change.2 ≤ 0) :
    (changes.map Prod.snd).sum ≤ (changesAfter cut changes).sum := by
  induction changes with
  | nil => exact le_rfl
  | cons change changes ih =>
    obtain ⟨hchange, hrest⟩ := List.forall_mem_cons.mp h
    have hle := ih hrest
    by_cases hcut : AfterCut cut change
    · have hkept : changesAfter cut (change :: changes) =
          change.2 :: changesAfter cut changes := by
        rw [changesAfter, List.filter_cons, if_pos (decide_eq_true hcut)]
        rfl
      rw [hkept, List.map_cons, List.sum_cons, List.sum_cons]
      exact add_le_add_right hle _
    · have hdropped : changesAfter cut (change :: changes) = changesAfter cut changes := by
        rw [changesAfter, List.filter_cons, if_neg (by simpa using hcut)]
        rfl
      rw [hdropped, List.map_cons, List.sum_cons]
      exact (add_le_of_nonpos_left (hchange hcut)).trans hle

theorem TimeOrdered.sum_le {earlier later : List (τ × α)} {change : τ × α}
    (h : TimeOrdered (earlier ++ change :: later)) :
    ((change :: later).map Prod.snd).sum ≤
      (changesAfter change.1 (earlier ++ change :: later)).sum := by
  obtain ⟨-, hlater, hearlier⟩ := List.pairwise_append.mp h
  have hsplit : changesAfter change.1 (earlier ++ change :: later) =
      changesAfter change.1 earlier ++ changesAfter change.1 (change :: later) := by
    rw [changesAfter, List.filter_append, List.map_append]
    rfl
  have hgains : 0 ≤ (changesAfter change.1 earlier).sum := by
    refine List.sum_nonneg fun x hx => ?_
    obtain ⟨a, ha, rfl⟩ := List.mem_map.mp hx
    obtain ⟨ha, hcut⟩ := List.mem_filter.mp ha
    have hle : a.1 ≤ change.1 :=
      (hearlier a ha change (List.mem_cons_self ..)).elim le_of_lt fun heq => heq.1.le
    exact (of_decide_eq_true hcut).elim (fun hlt => absurd hlt (not_lt.mpr hle)) (·.2)
  have hlosses : ((change :: later).map Prod.snd).sum ≤
      (changesAfter change.1 (change :: later)).sum := by
    refine sum_le_sum_changesAfter fun b hb hcut => ?_
    obtain ⟨hbefore, hloss⟩ := not_or.mp hcut
    rcases List.mem_cons.mp hb with rfl | hb
    · exact (not_le.mp fun hgain => hloss ⟨rfl, hgain⟩).le
    · rcases (List.pairwise_cons.mp hlater).1 b hb with hlt | ⟨heq, -⟩
      · exact absurd hlt hbefore
      · exact (not_le.mp fun hgain => hloss ⟨heq, hgain⟩).le
  rw [hsplit, List.sum_append]
  exact hlosses.trans (le_add_of_nonneg_left hgains)

/-- In time order the reflected balance is the greatest of zero and of the sums after a cut. -/
theorem TimeOrdered.isGreatest {changes : List (τ × α)} (h : TimeOrdered changes) :
    IsGreatest {s | s = 0 ∨ ∃ cut, s = (changesAfter cut changes).sum}
      (reflectFrom 0 (changes.map Prod.snd)) := by
  obtain ⟨⟨later, ⟨earlier, hsplit⟩, hsum⟩, hbound⟩ :=
    isGreatest_reflectFrom (changes.map Prod.snd)
  have hafter : ∀ cut, (changesAfter cut changes).sum ≤ reflectFrom 0 (changes.map Prod.snd) :=
    fun cut => hbound ⟨_, h.suffix cut, rfl⟩
  constructor
  · obtain ⟨front, back, rfl, hfront, rfl⟩ := List.map_eq_append_iff.mp hsplit.symm
    cases back with
    | nil => exact .inl hsum
    | cons change back =>
      refine .inr ⟨change.1, le_antisymm ?_ (hafter change.1)⟩
      rw [hsum]
      exact h.sum_le
  · rintro s (rfl | ⟨cut, rfl⟩)
    · exact reflectFrom_nonneg le_rfl _
    · exact hafter cut

end Timed

end StockProfiler
