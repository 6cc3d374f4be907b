import Mathlib.Algebra.Order.Monoid.Defs
import Mathlib.Data.List.Forall2
import Mathlib.Data.List.Lex

/-!
# Ranks that add up

A rank is a list of amounts, compared from the first one on. Where the rank of a whole
is the sum of the ranks of its parts, component by component, the whole ranks least
exactly when every part does.
-/

namespace StockProfiler

variable {α : Type*} [AddCommMonoid α] [LinearOrder α] [IsOrderedCancelAddMonoid α]

/-- The sum of two ranks, component by component. -/
def addRanks (r s : List α) : List α := List.zipWith (· + ·) r s

/-- The sum of ranks of a length. -/
def totalRank (n : ℕ) (ranks : List (List α)) : List α :=
  ranks.foldr addRanks (List.replicate n 0)

omit [LinearOrder α] [IsOrderedCancelAddMonoid α] in
@[simp] theorem addRanks_cons (a b : α) (r s : List α) :
    addRanks (a :: r) (b :: s) = (a + b) :: addRanks r s := rfl

omit [LinearOrder α] [IsOrderedCancelAddMonoid α] in
theorem length_addRanks {r s : List α} (h : r.length = s.length) :
    (addRanks r s).length = r.length := by
  rw [addRanks, List.length_zipWith, ← h, min_self]

omit [LinearOrder α] [IsOrderedCancelAddMonoid α] in
theorem length_totalRank {n : ℕ} {ranks : List (List α)} (h : ∀ r ∈ ranks, r.length = n) :
    (totalRank n ranks).length = n := by
  induction ranks with
  | nil => exact List.length_replicate
  | cons r ranks ih =>
    rw [List.forall_mem_cons] at h
    have hrest := ih h.2
    exact (length_addRanks (h.1.trans hrest.symm)).trans h.1

/-- A part of lesser rank makes the whole rank less, whatever comes beside it. -/
theorem addRanks_lt_addRanks {r r' s s' : List α} (hr : r < r') (hs : s ≤ s')
    (hlength : r.length = r'.length) (hrs : r.length = s.length)
    (hss : s.length = s'.length) : addRanks r s < addRanks r' s' := by
  induction r generalizing r' s s' with
  | nil =>
    rw [List.length_nil] at hlength
    rw [List.length_eq_zero_iff.mp hlength.symm] at hr
    exact absurd hr (lt_irrefl _)
  | cons a r ih =>
    cases r' with
    | nil => exact absurd hlength (Nat.succ_ne_zero _)
    | cons a' r' =>
      cases s with
      | nil => exact absurd hrs (Nat.succ_ne_zero _)
      | cons b s =>
        cases s' with
        | nil => exact absurd hss (Nat.succ_ne_zero _)
        | cons b' s' =>
          simp only [List.length_cons, Nat.succ.injEq] at hlength hrs hss
          rw [addRanks_cons, addRanks_cons, List.cons_lt_cons_iff]
          have hb : b < b' ∨ b = b' ∧ s ≤ s' := by
            rcases hs.lt_or_eq with hlt | heq
            · exact (List.cons_lt_cons_iff.mp hlt).imp_right fun h => ⟨h.1, h.2.le⟩
            · obtain ⟨rfl, rfl⟩ := List.cons.inj heq
              exact .inr ⟨rfl, le_rfl⟩
          rcases List.cons_lt_cons_iff.mp hr with ha | ⟨rfl, hlt⟩
          · exact .inl (add_lt_add_of_lt_of_le ha (hb.elim le_of_lt fun h => h.1.le))
          · rcases hb with hb | ⟨rfl, hle⟩
            · exact .inl (add_lt_add_of_le_of_lt le_rfl hb)
            · exact .inr ⟨rfl, ih hlt hle hlength hrs hss⟩

omit [LinearOrder α] [IsOrderedCancelAddMonoid α] in
theorem addRanks_comm (r s : List α) : addRanks r s = addRanks s r :=
  List.zipWith_comm_of_comm fun a b => add_comm a b

/-- Parts of no greater rank make a whole of no greater rank. -/
theorem addRanks_le_addRanks {r r' s s' : List α} (hr : r ≤ r') (hs : s ≤ s')
    (hlength : r.length = r'.length) (hrs : r.length = s.length)
    (hss : s.length = s'.length) : addRanks r s ≤ addRanks r' s' := by
  rcases hr.lt_or_eq with hlt | rfl
  · exact (addRanks_lt_addRanks hlt hs hlength hrs hss).le
  · rcases hs.lt_or_eq with hlt | rfl
    · rw [addRanks_comm r, addRanks_comm r]
      exact (addRanks_lt_addRanks hlt le_rfl hss hrs.symm rfl).le
    · exact le_rfl

theorem eq_of_addRanks_le {r r' s s' : List α} (hr : r ≤ r') (hs : s ≤ s')
    (h : addRanks r' s' ≤ addRanks r s) (hlength : r.length = r'.length) (hrs : r.length = s.length)
    (hss : s.length = s'.length) : r = r' ∧ s = s' := by
  have hr' : r = r' := by
    by_contra hne
    exact (addRanks_lt_addRanks (lt_of_le_of_ne hr hne) hs hlength hrs hss).not_ge h
  refine ⟨hr', ?_⟩
  by_contra hne
  rw [addRanks_comm r', addRanks_comm r] at h
  exact (addRanks_lt_addRanks (lt_of_le_of_ne hs hne) hr hss hrs.symm hlength).not_ge h

section Total

variable {β : Type*} {n : ℕ} {rank : β → List α} {xs ys : List β}

/-- Wholes of parts of no greater rank have no greater rank. -/
theorem totalRank_le_totalRank (hlength : ∀ x, (rank x).length = n)
    (h : List.Forall₂ (fun x y => rank x ≤ rank y) xs ys) :
    totalRank n (xs.map rank) ≤ totalRank n (ys.map rank) := by
  have hall : ∀ zs : List β, ∀ r ∈ zs.map rank, r.length = n := fun zs =>
    List.forall_mem_map.mpr fun z _ => hlength z
  induction h with
  | nil => exact le_rfl
  | @cons x y xs ys hxy _ ih =>
    have htail := (length_totalRank (hall xs)).trans (length_totalRank (hall ys)).symm
    exact addRanks_le_addRanks hxy ih ((hlength x).trans (hlength y).symm)
      ((hlength x).trans (length_totalRank (hall xs)).symm) htail

theorem forall₂_eq_of_totalRank_le (hlength : ∀ x, (rank x).length = n)
    (h : List.Forall₂ (fun x y => rank x ≤ rank y) xs ys)
    (hle : totalRank n (ys.map rank) ≤ totalRank n (xs.map rank)) :
    List.Forall₂ (fun x y => rank x = rank y) xs ys := by
  have hall : ∀ zs : List β, ∀ r ∈ zs.map rank, r.length = n := fun zs =>
    List.forall_mem_map.mpr fun z _ => hlength z
  induction h with
  | nil => exact .nil
  | @cons x y xs ys hxy hrest ih =>
    have htail := (length_totalRank (hall xs)).trans (length_totalRank (hall ys)).symm
    have heq := eq_of_addRanks_le hxy (totalRank_le_totalRank hlength hrest) hle
      ((hlength x).trans (hlength y).symm)
      ((hlength x).trans (length_totalRank (hall xs)).symm) htail
    exact .cons heq.1 (ih heq.2.ge)

end Total

end StockProfiler
