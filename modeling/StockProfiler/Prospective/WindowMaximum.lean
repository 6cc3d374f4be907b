import StockProfiler.Core.DisjointFamilies
import StockProfiler.Prospective.Windows

/-!
# Counted windows and disjoint families

The count takes periods in the order of their starts. It is the size of a largest disjoint family
unless a period lasts from the start of one to the start of another one behind it.
-/

namespace StockProfiler.Prospective

variable {periods : List (Instant × Instant)}

section Taken

variable {τ : Type*} [LinearOrder τ] {sorted : List (τ ×ₗ τ)} {last : Option τ} {p : τ ×ₗ τ}

/-- A period that starts after an end is counted. -/
theorem windowsAfter_cons_of_starts {x : τ ×ₗ τ} (h : StartsAfter last x) :
    windowsAfter last (x :: sorted) = windowsAfter (some (ofLex x).2) sorted + 1 := if_pos h

/-- A period that does not start after an end is passed over. -/
theorem windowsAfter_cons_of_not_starts {x : τ ×ₗ τ} (h : ¬StartsAfter last x) :
    windowsAfter last (x :: sorted) = windowsAfter last sorted := if_neg h

/-- Where no period starts after an end, none is counted. -/
theorem windowsAfter_of_none (h : ∀ q ∈ sorted, ¬StartsAfter last q) :
    windowsAfter last sorted = 0 := by
  induction sorted with
  | nil => rfl
  | cons x sorted ih =>
    rw [List.forall_mem_cons] at h
    rw [windowsAfter_cons_of_not_starts h.1, ih h.2]

/-- After an end, the first period that starts behind it is counted, and then the ones behind
its own end. -/
theorem windowsAfter_of_first (hsorted : sorted.Pairwise (· ≤ ·))
    (hproper : ∀ q ∈ sorted, (ofLex q).1 ≤ (ofLex q).2) (hp : FirstAfter sorted last p) :
    windowsAfter last sorted = windowsAfter (some (ofLex p).2) sorted + 1 := by
  induction sorted with
  | nil => exact nomatch hp.mem
  | cons x sorted ih =>
    rw [List.pairwise_cons] at hsorted
    rw [List.forall_mem_cons] at hproper
    have hle : x ≤ p := by
      rcases List.mem_cons.mp hp.mem with rfl | hmem
      · exact le_rfl
      · exact hsorted.1 p hmem
    by_cases hx : StartsAfter last x
    · obtain rfl : p = x := le_antisymm (hp.first x List.mem_cons_self hx) hle
      rw [windowsAfter_cons_of_starts hx, windowsAfter_cons_of_not_starts]
      exact fun hself => absurd hproper.1 (not_le.mpr (hself _ rfl))
    · have hmem : p ∈ sorted := by
        rcases List.mem_cons.mp hp.mem with rfl | hmem
        · exact absurd hp.after hx
        · exact hmem
      have hnot : ¬StartsAfter (some (ofLex p).2) x := by
        intro hafter
        have hstart : (ofLex x).1 ≤ (ofLex p).1 := by
          rcases Prod.Lex.le_iff.mp hle with hlt | heq
          · exact hlt.le
          · exact heq.1.le
        exact absurd (hstart.trans (hproper.2 p hmem)) (not_le.mpr (hafter _ rfl))
      rw [windowsAfter_cons_of_not_starts hx, windowsAfter_cons_of_not_starts hnot]
      exact ih hsorted.2 hproper.2
        ⟨hmem, hp.after, fun q hq => hp.first q (List.mem_cons_of_mem x hq)⟩

/-- The count from an end on, over periods in any order. -/
theorem takenCount {periods : List (τ ×ₗ τ)} (hproper : ∀ q ∈ periods, (ofLex q).1 ≤ (ofLex q).2) :
    TakenCount periods fun last => windowsAfter last (periods.insertionSort (· ≤ ·)) where
  proper := hproper
  none_after := fun last h => windowsAfter_of_none fun q hq =>
    h q ((List.mem_insertionSort (· ≤ ·)).mp hq)
  first_after := by
    intro last p hp
    refine windowsAfter_of_first (List.pairwise_insertionSort _ _)
      (fun q hq => hproper q ((List.mem_insertionSort (· ≤ ·)).mp hq)) ?_
    exact ⟨(List.mem_insertionSort (· ≤ ·)).mpr hp.mem, hp.after, fun q hq =>
      hp.first q ((List.mem_insertionSort (· ≤ ·)).mp hq)⟩

end Taken

/-- The count of some periods is the largest number of disjoint ones among them. -/
def CountsMaximum (periods : List (Instant × Instant)) : Prop :=
  ∃ n, disjointWindows periods = .ok n ∧ IsGreatest (familySizes (periods.map toLex)) n

section

variable (h : ∀ period ∈ periods, period.1 ≤ period.2)
include h

/-- Proper periods are counted as a family that takes the first one over and over. -/
theorem properCount :
    TakenCount (periods.map toLex) fun last =>
      windowsAfter last ((periods.map toLex).insertionSort (· ≤ ·)) := by
  refine takenCount fun q hq => ?_
  obtain ⟨period, hperiod, rfl⟩ := List.mem_map.mp hq
  exact h period hperiod

/-- The count is the maximum where it is the size of a largest family. -/
theorem countsMaximum_iff : CountsMaximum periods ↔
      IsGreatest (familySizes (periods.map toLex)) (windowCount (periods.map toLex)) := by
  constructor
  · rintro ⟨n, hn, hgreatest⟩
    rw [disjointWindows_eq h] at hn
    cases hn
    exact hgreatest
  · exact fun hgreatest => ⟨_, disjointWindows_eq h, hgreatest⟩

/-- Unspanned periods are counted up to the largest disjoint family. -/
theorem countsMaximum_of_unspanned (hitems : Unspanned (periods.map toLex)) :
    CountsMaximum periods :=
  (countsMaximum_iff h).mpr ((properCount h).isGreatest hitems)

/-- Where every selection is counted up to its largest family, no period spans two others. -/
theorem unspanned_of_countsMaximum (hmaximum : ∀ chosen, chosen ⊆ periods → CountsMaximum chosen) :
    Unspanned (periods.map toLex) := by
  intro p hp b hb c hc hle hbehind
  obtain ⟨first, hfirst, rfl⟩ := List.mem_map.mp hp
  obtain ⟨second, hsecond, rfl⟩ := List.mem_map.mp hb
  obtain ⟨third, hthird, rfl⟩ := List.mem_map.mp hc
  have hchosen : [first, second, third] ⊆ periods := by
    intro period hperiod
    simp only [List.mem_cons, List.not_mem_nil, or_false] at hperiod
    rcases hperiod with rfl | rfl | rfl <;> assumption
  have hproper : ∀ period ∈ [first, second, third], period.1 ≤ period.2 :=
    fun period hperiod => h period (hchosen hperiod)
  by_contra hspan
  exact (properCount hproper).not_isGreatest hle hbehind (not_lt.mp hspan)
    ((countsMaximum_iff hproper).mp (hmaximum _ hchosen))

end

/-- **Counted windows.** The count of periods that end no earlier than they start is the size of
a disjoint family. It is the largest one, and no lower than the count of fewer periods, unless a
period that starts no later than another one lasts until a third one behind that starts; and every
selection of the periods is counted up to its largest family exactly where no period does. -/
theorem disjointWindows_maximum (periods : List (Instant × Instant))
    (h : ∀ period ∈ periods, period.1 ≤ period.2) :
    (∃ n ∈ familySizes (periods.map toLex), disjointWindows periods = .ok n) ∧
    (Unspanned (periods.map toLex) → CountsMaximum periods ∧
      ∀ fewer, fewer ⊆ periods → ∀ n m, disjointWindows fewer = .ok n →
        disjointWindows periods = .ok m → n ≤ m) ∧
    ((∀ chosen, chosen ⊆ periods → CountsMaximum chosen) ↔ Unspanned (periods.map toLex)) := by
  refine ⟨⟨_, (properCount h).exists_family none, disjointWindows_eq h⟩,
    fun hitems => ⟨countsMaximum_of_unspanned h hitems, ?_⟩,
    unspanned_of_countsMaximum h, fun hitems chosen hchosen => ?_⟩
  · intro fewer hfewer n m hn hm
    have hproper : ∀ period ∈ fewer, period.1 ≤ period.2 := fun p hp => h p (hfewer hp)
    rw [disjointWindows_eq hproper] at hn
    rw [disjointWindows_eq h] at hm
    cases hn
    cases hm
    exact IsGreatest.familySizes_mono ((properCount hproper).exists_family none)
      ((properCount h).isGreatest hitems) fun p hp => List.map_subset _ hfewer hp
  · exact countsMaximum_of_unspanned (fun p hp => h p (hchosen hp))
      (hitems.mono (List.map_subset _ hchosen))

namespace SampleWindows

/-- Periods that overlap, none of which spans two others. -/
def overlapping : List (Instant × Instant) := [(6, 8), (2, 5), (1, 2), (3, 4)]

def enclosed : List (Instant × Instant) := [(1, 2), (3, 4)]

def enclosing : Instant × Instant := (0, 10)

theorem overlapping_spec : (∀ period ∈ overlapping, period.1 ≤ period.2) ∧
    Unspanned (overlapping.map toLex) ∧ disjointWindows overlapping = .ok 3 ∧
    disjointWindows [(6, 8), (2, 5)] = .ok 2 := by
  decide +kernel

theorem enclosed_spec : (∀ period ∈ enclosing :: enclosed, period.1 ≤ period.2) ∧
    disjointWindows enclosed = .ok 2 ∧ disjointWindows (enclosing :: enclosed) = .ok 1 := by
  decide +kernel

/-- The enclosed periods are a disjoint family of two. -/
theorem two_mem_familySizes : 2 ∈ familySizes ((enclosing :: enclosed).map toLex) := by
  refine ⟨enclosed.map toLex, ⟨fun p hp => List.mem_cons_of_mem _ hp, nofun, ?_⟩, rfl⟩
  refine List.pairwise_pair.mpr (Or.inl ?_)
  exact (by decide : (2 : ℤ) < 3)

end SampleWindows

open SampleWindows in
/-- The overlapping periods are counted up to the largest disjoint family, and two of them to no
more. -/
theorem sample_disjointWindows : CountsMaximum overlapping ∧
    ∃ n m, disjointWindows [(6, 8), (2, 5)] = .ok n ∧ disjointWindows overlapping = .ok m ∧
      n ≤ m := by
  obtain ⟨hproper, hitems, hthree, htwo⟩ := overlapping_spec
  obtain ⟨hmaximum, hfewer⟩ := (disjointWindows_maximum overlapping hproper).2.1 hitems
  exact ⟨hmaximum, 2, 3, htwo, hthree, hfewer _ (by decide) 2 3 htwo hthree⟩

open SampleWindows in
/-- A period that encloses two disjoint ones hides them: only one of three is counted where two
are disjoint, and it lowers the count of the other two. -/
theorem disjointWindows_misses_maximum :
    (∀ period ∈ enclosing :: enclosed, period.1 ≤ period.2) ∧
      ¬CountsMaximum (enclosing :: enclosed) ∧
      disjointWindows enclosed = .ok 2 ∧ disjointWindows (enclosing :: enclosed) = .ok 1 := by
  obtain ⟨hproper, htwo, hone⟩ := enclosed_spec
  refine ⟨hproper, ?_, htwo, hone⟩
  rintro ⟨n, hn, hgreatest⟩
  rw [hone] at hn
  cases hn
  exact absurd (hgreatest.2 two_mem_familySizes) (by decide)

end StockProfiler.Prospective
