import Mathlib.Data.List.Sort
import Mathlib.Data.Prod.Lex
import Mathlib.Tactic.Linarith
import StockProfiler.Core.Checks
import StockProfiler.Core.Clock

/-!
# Windows that do not overlap

Periods are counted in the order of their starts, each one that starts after the last
counted one ended. Another period that ends last lowers the count only where it encloses
two disjoint ones.
-/

namespace StockProfiler.Prospective

/-- Count a period that starts after the last counted one ended. -/
def windowStep (state : Option Instant × ℕ) (period : Instant ×ₗ Instant) :
    Except String (Option Instant × ℕ) := do
  let (start, maturity) := ofLex period
  require (start ≤ maturity) "PROSPECTIVE_EVALUATION_PERIOD_REVERSED"
  return if ∀ last ∈ state.1, last < start then (some maturity, state.2 + 1) else state

/-- The number of original result periods that do not overlap. -/
def disjointWindows (periods : List (Instant × Instant)) : Except String ℕ := do
  let state ← ((periods.map toLex).insertionSort (· ≤ ·)).foldlM windowStep (none, 0)
  return state.2

section Count

variable {τ : Type*} [LinearOrder τ]

/-- How many periods of a list are counted after an end. -/
def windowsAfter : Option τ → List (τ ×ₗ τ) → ℕ
  | _, [] => 0
  | last, period :: periods =>
    if ∀ finish ∈ last, finish < (ofLex period).1 then
      windowsAfter (some (ofLex period).2) periods + 1
    else windowsAfter last periods

/-- The end of the last period that is counted. -/
def endAfter : Option τ → List (τ ×ₗ τ) → Option τ
  | last, [] => last
  | last, period :: periods =>
    if ∀ finish ∈ last, finish < (ofLex period).1 then endAfter (some (ofLex period).2) periods
    else endAfter last periods

theorem windowsAfter_append (last : Option τ) (ps qs : List (τ ×ₗ τ)) :
    windowsAfter last (ps ++ qs) = windowsAfter last ps + windowsAfter (endAfter last ps) qs := by
  induction ps generalizing last with
  | nil => exact (Nat.zero_add _).symm
  | cons period ps ih =>
    rw [List.cons_append, windowsAfter, windowsAfter, endAfter]
    by_cases h : ∀ finish ∈ last, finish < (ofLex period).1
    · rw [if_pos h, if_pos h, if_pos h, ih]
      omega
    · rw [if_neg h, if_neg h, if_neg h, ih]

/-- After an end that no period starts behind, none is counted. -/
theorem windowsAfter_eq_zero {finish : τ} {ps : List (τ ×ₗ τ)}
    (h : ∀ period ∈ ps, (ofLex period).1 ≤ finish) : windowsAfter (some finish) ps = 0 := by
  induction ps with
  | nil => rfl
  | cons period ps ih =>
    rw [List.forall_mem_cons] at h
    rw [windowsAfter, if_neg, ih h.2]
    exact fun hlater => (hlater finish rfl).not_ge h.1

/-- Of periods that pairwise overlap at most one is counted. -/
theorem windowsAfter_le_one {last : Option τ} {ps : List (τ ×ₗ τ)}
    (h : ps.Pairwise fun b c => (ofLex c).1 ≤ (ofLex b).2) : windowsAfter last ps ≤ 1 := by
  induction ps generalizing last with
  | nil => exact Nat.zero_le 1
  | cons period ps ih =>
    rw [List.pairwise_cons] at h
    rw [windowsAfter]
    split
    · rw [windowsAfter_eq_zero h.1]
    · exact ih h.2

/-- The count of periods, in the order of their starts. -/
def windowCount (periods : List (τ ×ₗ τ)) : ℕ :=
  windowsAfter none (periods.insertionSort (· ≤ ·))

theorem windowCount_perm {ps qs : List (τ ×ₗ τ)} (h : ps.Perm qs) :
    windowCount ps = windowCount qs := by
  have hsorted : ps.insertionSort (· ≤ ·) = qs.insertionSort (· ≤ ·) :=
    ((List.perm_insertionSort _ ps).trans
      (h.trans (List.perm_insertionSort _ qs).symm)).eq_of_pairwise
      (fun _ _ _ _ => le_antisymm) (List.pairwise_insertionSort _ _)
      (List.pairwise_insertionSort _ _)
  rw [windowCount, windowCount, hsorted]

/-- A period encloses two periods of which one ends before the other starts. -/
def EnclosesTwo (a b c : τ ×ₗ τ) : Prop :=
  (ofLex a).1 < (ofLex b).1 ∧ (ofLex b).2 < (ofLex c).1 ∧ (ofLex c).2 < (ofLex a).2

/-- The order of ends, and among equal ends of starts. -/
def endKey (period : τ ×ₗ τ) : τ ×ₗ τ := toLex ((ofLex period).2, (ofLex period).1)

/-- A window that ends last never lowers the count. -/
theorem windowCount_le_cons {a : τ ×ₗ τ} {ps : List (τ ×ₗ τ)}
    (hproper : ∀ p ∈ ps, (ofLex p).1 ≤ (ofLex p).2) (hlast : ∀ p ∈ ps, endKey p ≤ endKey a)
    (hfree : ∀ b ∈ ps, ∀ c ∈ ps, ¬EnclosesTwo a b c) : windowCount ps ≤ windowCount (a :: ps) := by
  obtain ⟨before, after, hsplit, hinsert⟩ : ∃ before after,
      ps.insertionSort (· ≤ ·) = before ++ after ∧
      (a :: ps).insertionSort (· ≤ ·) = before ++ a :: after := by
    refine ⟨(ps.insertionSort (· ≤ ·)).takeWhile fun b => decide ¬a ≤ b,
      (ps.insertionSort (· ≤ ·)).dropWhile fun b => decide ¬a ≤ b,
      List.takeWhile_append_dropWhile.symm, ?_⟩
    rw [List.insertionSort_cons, List.orderedInsert_eq_take_drop]
  have hpair : (before ++ a :: after).Pairwise (· ≤ ·) :=
    hinsert ▸ List.pairwise_insertionSort (· ≤ ·) (a :: ps)
  obtain ⟨hge, hafter⟩ := List.pairwise_cons.mp (List.pairwise_append.mp hpair).2.1
  have hmem : ∀ b ∈ after, b ∈ ps := fun b hb =>
    (List.mem_insertionSort (· ≤ ·)).mp (hsplit ▸ List.mem_append_right _ hb)
  have hoverlap : after.Pairwise fun b c => (ofLex c).1 ≤ (ofLex b).2 := by
    refine hafter.imp_of_mem fun {b c} hb hc _ => not_lt.mp fun hdisjoint => ?_
    have hbend := hproper b (hmem b hb)
    have hcend := hproper c (hmem c hc)
    have hclast : (ofLex c).2 < (ofLex a).2 ∨
        (ofLex c).2 = (ofLex a).2 ∧ (ofLex c).1 ≤ (ofLex a).1 :=
      Prod.Lex.le_iff.mp (hlast c (hmem c hc))
    have hblast : (ofLex b).2 < (ofLex a).2 ∨
        (ofLex b).2 = (ofLex a).2 ∧ (ofLex b).1 ≤ (ofLex a).1 :=
      Prod.Lex.le_iff.mp (hlast b (hmem b hb))
    rcases Prod.Lex.le_iff.mp (hge b hb) with hstart | ⟨hstart, hend⟩
    · rcases hclast with hclast | ⟨-, hclast⟩
      · exact hfree b (hmem b hb) c (hmem c hc) ⟨hstart, hdisjoint, hclast⟩
      · exact ((hbend.trans_lt hdisjoint).trans_le hclast).not_gt hstart
    · have hle : (ofLex c).2 ≤ (ofLex a).2 := hclast.elim le_of_lt fun h => h.1.le
      exact ((hend.trans_lt hdisjoint).trans_le (hcend.trans hle)).false
  rw [windowCount, windowCount, hsplit, hinsert, windowsAfter_append, windowsAfter_append]
  refine Nat.add_le_add_left ?_ _
  rw [windowsAfter]
  split
  · exact (windowsAfter_le_one hoverlap).trans (Nat.le_add_left _ _)
  · exact le_rfl

/-- Later windows never lower the count when no window encloses two others. -/
theorem windowCount_le_append {old new : List (τ ×ₗ τ)}
    (hproper : ∀ p ∈ old ++ new, (ofLex p).1 ≤ (ofLex p).2)
    (hlast : ∀ p ∈ old, ∀ q ∈ new, endKey p ≤ endKey q)
    (hfree : ∀ a ∈ old ++ new, ∀ b ∈ old ++ new, ∀ c ∈ old ++ new, ¬EnclosesTwo a b c) :
    windowCount old ≤ windowCount (old ++ new) := by
  have hsorted : ∃ sorted : List (τ ×ₗ τ), sorted.Perm new ∧ sorted.Pairwise fun p q =>
      endKey p ≤ endKey q := by
    refine ⟨new.insertionSort fun p q => endKey p ≤ endKey q,
      List.perm_insertionSort _ _, ?_⟩
    have : Std.Total fun p q : τ ×ₗ τ => endKey p ≤ endKey q := ⟨fun p q => le_total _ _⟩
    have : IsTrans (τ ×ₗ τ) fun p q => endKey p ≤ endKey q := ⟨fun _ _ _ => le_trans⟩
    exact List.pairwise_insertionSort _ _
  obtain ⟨sorted, hperm, hpair⟩ := hsorted
  rw [← windowCount_perm (hperm.append_left old)]
  have hmem : ∀ p, p ∈ old ++ sorted → p ∈ old ++ new := fun p =>
    (hperm.append_left old).mem_iff.mp
  replace hlast : ∀ p ∈ old, ∀ q ∈ sorted, endKey p ≤ endKey q := fun p hp q hq =>
    hlast p hp q (hperm.mem_iff.mp hq)
  replace hproper := fun p hp => hproper p (hmem p hp)
  replace hfree := fun a ha b hb c hc => hfree a (hmem a ha) b (hmem b hb) c (hmem c hc)
  clear hperm hmem
  induction sorted generalizing old with
  | nil => rw [List.append_nil]
  | cons a rest ih =>
    rw [List.pairwise_cons] at hpair
    have hmove : (old ++ a :: rest).Perm (a :: old ++ rest) := List.perm_middle
    have hback : ∀ p ∈ a :: old ++ rest, p ∈ old ++ a :: rest := fun p => hmove.mem_iff.mpr
    have hhead : ∀ p ∈ old, p ∈ old ++ a :: rest := fun p => List.mem_append_left _
    have hmid : a ∈ old ++ a :: rest := List.mem_append_right _ List.mem_cons_self
    rw [windowCount_perm hmove]
    refine (windowCount_le_cons (fun p hp => hproper p (hhead p hp))
      (fun p hp => hlast p hp a List.mem_cons_self)
      fun b hb c hc => hfree a hmid b (hhead b hb) c (hhead c hc)).trans ?_
    refine ih hpair.2 ?_ (fun p hp => hproper p (hback p hp))
      fun a ha b hb c hc => hfree a (hback a ha) b (hback b hb) c (hback c hc)
    intro p hp q hq
    rcases List.mem_cons.mp hp with rfl | hp
    · exact hpair.1 q hq
    · exact hlast p hp q (List.mem_cons_of_mem a hq)

end Count

/-- Periods that do not end before they start are counted. -/
theorem disjointWindows_eq {periods : List (Instant × Instant)}
    (h : ∀ period ∈ periods, period.1 ≤ period.2) :
    disjointWindows periods = .ok (windowCount (periods.map toLex)) := by
  have hfold : ∀ (sorted : List (Instant ×ₗ Instant)) (last : Option Instant) (n : ℕ),
      (∀ p ∈ sorted, (ofLex p).1 ≤ (ofLex p).2) → sorted.foldlM windowStep (last, n) =
        .ok (endAfter last sorted, n + windowsAfter last sorted) := by
    intro sorted
    induction sorted with
    | nil => exact fun _ _ _ => rfl
    | cons period sorted ih =>
      intro last n hproper
      rw [List.forall_mem_cons] at hproper
      have hstep : windowStep (last, n) period = .ok
          (if ∀ finish ∈ last, finish < (ofLex period).1 then (some (ofLex period).2, n + 1)
            else (last, n)) := by
        unfold windowStep
        refine bind_eq_ok.mpr ⟨(), require_eq_ok.mpr hproper.1, rfl⟩
      rw [List.foldlM_cons, windowsAfter, endAfter]
      refine bind_eq_ok.mpr ⟨_, hstep, ?_⟩
      split
      · rw [ih _ _ hproper.2, Nat.add_assoc, Nat.add_comm 1]
      · rw [ih _ _ hproper.2]
  refine bind_eq_ok.mpr ⟨_, hfold _ none 0 ?_, ?_⟩
  · intro p hp
    rw [List.mem_insertionSort] at hp
    obtain ⟨period, hperiod, rfl⟩ := List.mem_map.mp hp
    exact h period hperiod
  · rw [Nat.zero_add]
    rfl

end StockProfiler.Prospective
