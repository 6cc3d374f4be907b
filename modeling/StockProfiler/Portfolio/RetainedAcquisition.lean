import StockProfiler.Portfolio.BetaExposure

/-!
# Retained acquisitions as a reflected balance

Where all sales are attributed in time, the retained quantity is the greatest of
nothing and of what was acquired after some instant less what was sold after it,
up to the holding. Sales in excess of what was acquired before them are forgotten.
-/

namespace StockProfiler.Portfolio

open PositionManagement

/-- What an effective entry changes: a sale takes its quantity, and an acquisition adds what is
attributed to it, up to its quantity. -/
def acquiredChange (effective : EffectiveEntry) : Instant × ℚ :=
  (effective.entry.occurredAt,
    if effective.quantity < 0 then effective.quantity
    else min effective.quantity (max 0 effective.attributed))

/-- The changes by effective entries. -/
def changesOf (effective : List EffectiveEntry) : List (Instant × ℚ) :=
  (effective.filter (·.entry.entryType = .fill)).map acquiredChange

/-- The attributed acquisitions and the sales of an account and security, corrected. -/
def acquiredChanges (entries : List AuthoritativeLedgerEntry) (acquisitions : Dict String ℚ) :
    List (Instant × ℚ) :=
  changesOf ((rootEntries entries).map (effectiveOf entries acquisitions))

/-- Every sale is attributable in time: identities and corrections are resolved, and no
corporate action follows an acquisition. -/
structure Attributable (entries : List AuthoritativeLedgerEntry) (acquisitions : Dict String ℚ) :
    Prop where
  ids : (entries.map (·.entryId)).Nodup
  acquired : ∀ id ∈ acquisitions.keys, ∃ entry ∈ entries, entry.entryId = id
  rooted : ∀ entry ∈ entries, (rootId entries entry).isSome
  actions : ∀ action ∈ entries, action.entryType = .corporateAction →
    ∀ root ∈ rootEntries entries, 0 < rootAttribution entries acquisitions root.entryId →
      action.occurredAt < root.occurredAt

section Changes

variable {effective : List EffectiveEntry}

theorem acquiredChange_nonneg (e : EffectiveEntry) : 0 ≤ (acquiredChange e).2 ↔ 0 ≤ e.quantity := by
  unfold acquiredChange
  dsimp only
  split
  · rfl
  · rename_i h
    exact ⟨fun _ => not_lt.mp h, fun h => le_min h (le_max_left _ _)⟩

/-- An exact step of a fill reflects the balance at zero. -/
theorem retainStep_fill {e : EffectiveEntry} (hfill : e.entry.entryType = .fill) {retained : ℚ}
    (h : 0 ≤ retained) :
    retainStep .exact retained e = max 0 (retained + (acquiredChange e).2) := by
  rw [retainStep, if_neg (not_not.mpr hfill)]
  by_cases hsale : e.quantity < 0
  · rw [if_pos hsale, acquiredChange, if_pos hsale]
    rfl
  · have hchange := (acquiredChange_nonneg e).mpr (not_lt.mp hsale)
    rw [if_neg hsale, max_eq_right (add_nonneg h hchange), acquiredChange, if_neg hsale]
    rfl

theorem foldl_retainStep_exact (effective : List EffectiveEntry) {retained : ℚ} (h : 0 ≤ retained) :
    effective.foldl (retainStep .exact) retained =
      reflectFrom retained ((changesOf effective).map Prod.snd) := by
  induction effective generalizing retained with
  | nil => rfl
  | cons e effective ih =>
    rw [List.foldl_cons, ih (retainStep_nonneg h e), changesOf, changesOf, List.filter_cons]
    by_cases hfill : e.entry.entryType = .fill
    · rw [if_pos (decide_eq_true hfill), List.map_cons, List.map_cons, retainStep_fill hfill h]
      rfl
    · rw [if_neg (by simpa using hfill), retainStep, if_pos hfill]

/-- Sorted effective entries change the balance in time order, sales first. -/
theorem timeOrdered_changesOf (h : effective.Pairwise fun a b => a.order < b.order) :
    TimeOrdered (changesOf effective) := by
  refine List.pairwise_map.mpr ((h.filter _).imp fun {a b} hab => ?_)
  rw [EffectiveEntry.order, EffectiveEntry.order, Prod.Lex.toLex_lt_toLex] at hab
  rcases hab with hlt | ⟨heq, hab⟩
  · exact .inl hlt
  · refine .inr ⟨heq, fun hgain => (acquiredChange_nonneg b).mpr ?_⟩
    have hgain := decide_eq_true ((acquiredChange_nonneg a).mp hgain)
    rw [Prod.Lex.toLex_lt_toLex, hgain] at hab
    rcases hab with hlt | ⟨heq, -⟩
    · exact absurd hlt (not_lt.mpr (Bool.le_true _))
    · exact of_decide_eq_true heq.symm

theorem changesAfter_perm {effective' : List EffectiveEntry} (h : effective.Perm effective')
    (cut : Instant) :
    (changesAfter cut (changesOf effective)).sum =
      (changesAfter cut (changesOf effective')).sum :=
  ((((h.filter _).map _).filter _).map _).sum_eq

theorem change_nonpos (h : ∀ e ∈ effective, e.attributed ≤ 0) {change : Instant × ℚ}
    (hchange : change ∈ changesOf effective) : change.2 ≤ 0 := by
  obtain ⟨e, he, rfl⟩ := List.mem_map.mp hchange
  have hnone := h e (List.mem_of_mem_filter he)
  unfold acquiredChange
  dsimp only
  split
  · rename_i hsale
    exact hsale.le
  · exact (min_le_right _ _).trans_eq (max_eq_left hnone)

/-- What the effective entries retain reflects their balance at zero. -/
theorem isGreatest_retained (hids : (effective.map (·.entry.entryId)).Nodup) :
    IsGreatest {s | s = 0 ∨ ∃ cut, s = (changesAfter cut (changesOf effective)).sum}
      ((effective.insertionSort fun a b => a.order ≤ b.order).foldl (retainStep .exact) 0) := by
  have hsorted := timeOrdered_changesOf (pairwise_lt_insertionSort _ (order_nodup hids))
  rw [foldl_retainStep_exact _ le_rfl]
  have hgreatest := hsorted.isGreatest
  simp only [changesAfter_perm (List.perm_insertionSort _ effective)] at hgreatest
  exact hgreatest

end Changes

/-- The context in which beta exposures are computed. -/
def betaContext : DecimalContext := .ofPrecision 38 .halfEven DecimalContext.thirtyEight_pos

section Retained

variable {entries : List AuthoritativeLedgerEntry} {acquisitions : Dict String ℚ} {unit : ℤ}

section

variable (h : QuantitiesFit 38 unit entries acquisitions)
include h

theorem QuantitiesFit.exactSums_beta : ExactSums betaContext entries acquisitions :=
  h.exactSums

/-- The effective entries of fitting quantities are on the grid. -/
theorem QuantitiesFit.effectiveOf_onGrid (entry : AuthoritativeLedgerEntry) :
    OnGrid 38 unit (effectiveOf entries acquisitions entry).quantity ∧
      OnGrid 38 unit (effectiveOf entries acquisitions entry).attributed := by
  have hquantity : betaContext.sum ((entries.filter
        (rootId entries · = some entry.entryId)).map (·.quantityDelta)) =
      sumWhere entries (·.quantityDelta) (rootId entries · = some entry.entryId) ∧
      OnGrid 38 unit
        (sumWhere entries (·.quantityDelta) (rootId entries · = some entry.entryId)) :=
    sum_filter_onGrid h.quantities h.quantities_le _
  have hattributed : betaContext.sum ((entries.filter
        (rootId entries · = some entry.entryId)).map (acquiredBy acquisitions)) =
      sumWhere entries (acquiredBy acquisitions) (rootId entries · = some entry.entryId) ∧
      OnGrid 38 unit
        (sumWhere entries (acquiredBy acquisitions) (rootId entries · = some entry.entryId)) :=
    sum_filter_onGrid h.acquired h.acquired_le _
  exact ⟨hquantity.2, hattributed.2⟩

theorem foldl_retainStep_fit (hids : (entries.map (·.entryId)).Nodup)
    (hrooted : ∀ entry ∈ entries, (rootId entries entry).isSome) {effective : List EffectiveEntry}
    (heffective : effective.Perm ((rootEntries entries).map (effectiveOf entries acquisitions))) :
    effective.foldl (retainStep betaContext) 0 = effective.foldl (retainStep .exact) 0 := by
  have hgrid : ∀ e ∈ effective, OnGrid 38 unit e.quantity ∧ OnGrid 38 unit e.attributed := by
    intro e he
    obtain ⟨entry, -, rfl⟩ := List.mem_map.mp (heffective.mem_iff.mp he)
    exact h.effectiveOf_onGrid entry
  refine foldl_retainStep_onGrid hgrid (onGrid_zero 38 unit) le_rfl ?_
  rw [zero_add, (heffective.map _).sum_eq, List.map_map]
  exact (sumWhere_true ..).symm.trans_le (h.sum_le hids hrooted)

/-- The retained quantity does not depend on the order of the entries. -/
theorem retainedAcquiredQuantity_perm {entries' : List AuthoritativeLedgerEntry}
    (hperm : entries.Perm entries') (current : ℚ) :
    retainedAcquiredQuantity betaContext entries acquisitions current =
      retainedAcquiredQuantity betaContext entries' acquisitions current := by
  have hids : (entries.map (·.entryId)).Nodup ↔ (entries'.map (·.entryId)).Nodup :=
    (hperm.map _).nodup_iff
  by_cases hclear : (entries.map (·.entryId)).Nodup ∧
      (∀ id ∈ acquisitions.keys, ∃ entry ∈ entries, entry.entryId = id) ∧
      ∀ entry ∈ entries, (rootId entries entry).isSome
  · obtain ⟨hnodup, hacquired, hrooted⟩ := hclear
    have hroots := rootId_perm hperm hnodup
    have heffective : ((rootEntries entries).map (effectiveOf entries acquisitions)).Perm
        ((rootEntries entries').map (effectiveOf entries' acquisitions)) := by
      rw [effectiveOf_perm hperm hnodup]
      exact (hperm.filter _).map _
    rw [retainedAcquiredQuantity_eq hnodup hacquired hrooted h.exactSums_beta,
      retainedAcquiredQuantity_eq (hids.mp hnodup) (fun id hid => ?_) (fun entry hentry => ?_)
        (h.perm hperm).exactSums_beta]
    · exact retainedOf_perm _ hperm heffective (effectiveOf_ids_nodup hnodup) current
    · obtain ⟨entry, hentry, heq⟩ := hacquired id hid
      exact ⟨entry, hperm.mem_iff.mp hentry, heq⟩
    · exact hroots ▸ hrooted entry (hperm.mem_iff.mpr hentry)
  · have hclear' : ¬((entries'.map (·.entryId)).Nodup ∧
        (∀ id ∈ acquisitions.keys, ∃ entry ∈ entries', entry.entryId = id) ∧
        ∀ entry ∈ entries', (rootId entries' entry).isSome) := by
      rintro ⟨hnodup, hacquired, hrooted⟩
      refine hclear ⟨hids.mpr hnodup, fun id hid => ?_, fun entry hentry => ?_⟩
      · obtain ⟨entry, hentry, heq⟩ := hacquired id hid
        exact ⟨entry, hperm.mem_iff.mpr hentry, heq⟩
      · exact rootId_perm hperm (hids.mpr hnodup) ▸ hrooted entry (hperm.mem_iff.mp hentry)
    rw [retainedAcquiredQuantity_ambiguous hclear, retainedAcquiredQuantity_ambiguous hclear']

end

theorem Attributable.actionAfter_eq_false (h : Attributable entries acquisitions) :
    actionAfter entries (((rootEntries entries).map (effectiveOf entries acquisitions)).filter
      (0 < ·.attributed)) = false := by
  refine List.any_eq_false.mpr fun action haction hafter => ?_
  obtain ⟨htype, hany⟩ := of_decide_eq_true hafter
  obtain ⟨e, he, hle⟩ := List.any_eq_true.mp hany
  obtain ⟨he, hattributed⟩ := List.mem_filter.mp he
  obtain ⟨root, hroot, rfl⟩ := List.mem_map.mp he
  exact absurd (of_decide_eq_true hle)
    (not_le.mpr (h.actions action haction htype root hroot (of_decide_eq_true hattributed)))

/-- With every sale attributable, the reflected balance is retained. -/
theorem retainedAcquiredQuantity_reflected (h : QuantitiesFit 38 unit entries acquisitions)
    (hattributable : Attributable entries acquisitions) {current : ℚ} (hcurrent : 0 ≤ current) :
    ∃ greatest, IsGreatest
        {s | s = 0 ∨ ∃ cut, s = (changesAfter cut (acquiredChanges entries acquisitions)).sum}
        greatest ∧
      retainedAcquiredQuantity betaContext entries acquisitions current = min current greatest := by
  obtain ⟨hids, hacquired, hrooted, -⟩ := id hattributable
  have hunique : (((rootEntries entries).map (effectiveOf entries acquisitions)).map
      (·.entry.entryId)).Nodup := effectiveOf_ids_nodup hids
  have hgreatest := isGreatest_retained hunique
  refine ⟨_, hgreatest, ?_⟩
  rw [retainedAcquiredQuantity_eq hids hacquired hrooted h.exactSums_beta, retainedOf]
  split
  · rename_i hnone
    rcases hgreatest.1 with hzero | ⟨cut, hcut⟩
    · rw [hzero, min_eq_right hcurrent]
    · have hnonpos : (changesAfter cut (acquiredChanges entries acquisitions)).sum ≤ 0 := by
        refine (List.sum_le_card_nsmul _ 0 fun x hx => ?_).trans_eq (nsmul_zero _)
        obtain ⟨change, hchange, rfl⟩ := List.mem_map.mp hx
        refine change_nonpos (fun e he => not_lt.mp fun hpos => ?_) (List.mem_of_mem_filter hchange)
        exact absurd (hnone ▸ List.mem_filter.mpr ⟨he, decide_eq_true hpos⟩) List.not_mem_nil
      have hzero := le_antisymm (hcut.trans_le hnonpos) (hgreatest.2 (.inl rfl))
      rw [hzero, min_eq_right hcurrent]
  · rw [if_neg (Bool.eq_false_iff.mp hattributable.actionAfter_eq_false),
      foldl_retainStep_fit h hids hrooted (List.perm_insertionSort _ _)]

/-- What is retained is found for all entries, within the holding and alike in every order,
and is the reflected balance where every sale is attributable. -/
theorem retained_reflects_balance (entries : List AuthoritativeLedgerEntry)
    (acquisitions : Dict String ℚ) {current : ℚ} (hcurrent : 0 ≤ current) :
    (∀ entry ∈ entries, rootWalk entries entry ≠ .spent) ∧
      0 ≤ retainedAcquiredQuantity betaContext entries acquisitions current ∧
      retainedAcquiredQuantity betaContext entries acquisitions current ≤ current ∧
      ∀ unit, QuantitiesFit 38 unit entries acquisitions →
        (∀ entries', entries.Perm entries' →
          retainedAcquiredQuantity betaContext entries acquisitions current =
            retainedAcquiredQuantity betaContext entries' acquisitions current) ∧
        (Attributable entries acquisitions →
          ∃ greatest, IsGreatest
              {s | s = 0 ∨ ∃ cut, s = (changesAfter cut (acquiredChanges entries acquisitions)).sum}
              greatest ∧
            retainedAcquiredQuantity betaContext entries acquisitions current =
              min current greatest) := by
  obtain ⟨hnonneg, hle⟩ := retainedAcquiredQuantity_mem betaContext entries acquisitions hcurrent
  refine ⟨fun entry hentry => rootWalk_ne_spent hentry, hnonneg, hle, fun unit hfit => ⟨?_, ?_⟩⟩
  · intro entries' hperm
    exact retainedAcquiredQuantity_perm hfit hperm current
  · intro hattributable
    exact retainedAcquiredQuantity_reflected hfit hattributable hcurrent

end Retained

namespace SampleRetained

def entry (entryId : String) (quantity : ℚ) (occurredAt : Instant)
    (corrects : Option String := none) : AuthoritativeLedgerEntry :=
  SampleBroker.fill entryId quantity 0 0 occurredAt corrects

/-- Ten are bought and then corrected to nine, fifteen sold, and four bought. -/
def entries : List AuthoritativeLedgerEntry :=
  [entry "sale" (-15) 2, entry "first" 10 1, entry "fixed" (-1) 4 (some "first"),
    entry "second" 4 3]

def acquisitions : Dict String ℚ := [("first", 10), ("second", 3)]

theorem entries_spec : retainedAcquiredQuantity betaContext entries acquisitions 8 = 3 ∧
    acquiredChanges entries acquisitions = [(2, -15), (1, 9), (3, 3)] := by decide +kernel

theorem entries_attributable : Attributable entries acquisitions where
  ids := by decide +kernel
  acquired := by decide +kernel
  rooted := by decide +kernel
  actions := by decide +kernel

theorem entries_fit : QuantitiesFit 38 0 entries acquisitions := by
  have hquantities : ∀ e ∈ entries, e.quantityDelta.den = 1 ∧ |e.quantityDelta.num| ≤ 10 ^ 38 := by
    decide +kernel
  have hacquired : ∀ e ∈ entries, (acquiredBy acquisitions e).den = 1 ∧
      |(acquiredBy acquisitions e).num| ≤ 10 ^ 38 := by decide +kernel
  refine ⟨fun e he => ?_, fun e he => ?_, by decide +kernel, by decide +kernel⟩
  · exact onGrid_of_den (hquantities e he).1 (hquantities e he).2
  · exact onGrid_of_den (hacquired e he).1 (hacquired e he).2

/-- Three are retained: six of the sold ones are forgotten. -/
theorem sample_retained : retainedAcquiredQuantity betaContext entries acquisitions 8 = 3 ∧
    ∃ greatest, IsGreatest
        {s | s = 0 ∨ ∃ cut, s = (changesAfter cut (acquiredChanges entries acquisitions)).sum}
        greatest ∧
      retainedAcquiredQuantity betaContext entries acquisitions 8 = min 8 greatest :=
  ⟨entries_spec.1,
    ((retained_reflects_balance entries acquisitions (by decide)).2.2.2 0 entries_fit).2
      entries_attributable⟩

/-- A purchase of the highest quantity of 38 digits, and two corrections of it. -/
def large : List AuthoritativeLedgerEntry :=
  [entry "bought" (10 ^ 38) 1, entry "c1" 4 2 (some "bought"), entry "c2" 4 3 (some "bought")]

def largeReordered : List AuthoritativeLedgerEntry :=
  [entry "c1" 4 2 (some "bought"), entry "c2" 4 3 (some "bought"), entry "bought" (10 ^ 38) 1]

def largeAcquisitions : Dict String ℚ := [("bought", 2 * 10 ^ 38)]

theorem large_spec :
    retainedAcquiredQuantity betaContext large largeAcquisitions (2 * 10 ^ 38) = 10 ^ 38 ∧
      retainedAcquiredQuantity betaContext largeReordered largeAcquisitions (2 * 10 ^ 38) =
        10 ^ 38 + 10 := by decide +kernel

theorem large_perm : large.Perm largeReordered := (List.perm_append_singleton _ _).symm

/-- In 38 digits the order of the entries decides what is retained, and a holding below zero
is returned as it is. -/
theorem retained_depends_on_order :
    (¬∀ entries entries' acquisitions current, entries.Perm entries' →
        retainedAcquiredQuantity betaContext entries acquisitions current =
          retainedAcquiredQuantity betaContext entries' acquisitions current) ∧
      ¬∀ entries acquisitions current,
        0 ≤ retainedAcquiredQuantity betaContext entries acquisitions current := by
  constructor
  · intro horder
    have hsame := horder large largeReordered largeAcquisitions (2 * 10 ^ 38) large_perm
    rw [large_spec.1, large_spec.2] at hsame
    norm_num at hsame
  · intro hrange
    have hbelow := hrange [entry "again" 1 1, entry "again" 1 1] [] (-1)
    exact absurd hbelow (by decide +kernel)

end SampleRetained

end StockProfiler.Portfolio
