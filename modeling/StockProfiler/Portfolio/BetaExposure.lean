import Mathlib.Data.Prod.Lex
import Mathlib.Data.String.Basic
import StockProfiler.Core.Checks
import StockProfiler.Core.DecimalGrid
import StockProfiler.Core.Reflection
import StockProfiler.Portfolio.StressSales

/-!
# Retained acquired exposure

Effective correction roots are applied in the order of their times. Sales consume what
was acquired before them, and never bank a credit against later acquisitions.
-/

namespace StockProfiler.Portfolio

open PositionManagement

variable {id : String} {entry : AuthoritativeLedgerEntry} {retained : ℚ}
  {effective : List EffectiveEntry}

/-- The entries of one account and security by identity. -/
def indexedEntries (entries : List AuthoritativeLedgerEntry) :
    Dict String AuthoritativeLedgerEntry :=
  Dict.ofLast (entries.map fun entry => (entry.entryId, entry))

/-- The entry that a correction names. -/
def correctedEntry (entries : List AuthoritativeLedgerEntry) (entry : AuthoritativeLedgerEntry) :
    Link AuthoritativeLedgerEntry :=
  match entry.correctsEntryId with
  | none => .root
  | some targetId =>
    match (indexedEntries entries).get? targetId with
    | none => .missing
    | some target => .next target

/-- The walk from an entry to the one that it finally corrects. -/
def rootWalk (entries : List AuthoritativeLedgerEntry) (entry : AuthoritativeLedgerEntry) :
    WalkEnd AuthoritativeLedgerEntry :=
  follow correctionKey (correctedEntry entries) (entries.length + 1) [] entry

/-- The identity of the entry that is finally corrected, if the walk ends at one. -/
def rootId (entries : List AuthoritativeLedgerEntry) (entry : AuthoritativeLedgerEntry) :
    Option String :=
  match rootWalk entries entry with
  | .root root => some root.entryId
  | _ => none

/-- An entry that corrects no other, with the quantity that its corrections leave and what
is attributed to them. -/
structure EffectiveEntry where
  entry : AuthoritativeLedgerEntry
  quantity : ℚ
  attributed : ℚ

/-- What was acquired by an entry. -/
def acquiredBy (acquisitions : Dict String ℚ) (entry : AuthoritativeLedgerEntry) : ℚ :=
  (acquisitions.get? entry.entryId).getD 0

/-- The effective entries, each with all that finally corrects it. -/
def effectiveEntries (ctx : DecimalContext) (entries : List AuthoritativeLedgerEntry)
    (acquisitions : Dict String ℚ) (keyed : List (String × AuthoritativeLedgerEntry)) :
    List EffectiveEntry :=
  (Dict.group keyed).filterMap fun (id, members) =>
    ((indexedEntries entries).get? id).map fun entry =>
      { entry
        quantity := ctx.sum (members.map (·.quantityDelta))
        attributed := ctx.sum (members.map (acquiredBy acquisitions)) }

/-- Effective entries go by time, sales first, and then by identity. -/
def EffectiveEntry.order (effective : EffectiveEntry) : Instant ×ₗ Bool ×ₗ String :=
  toLex (effective.entry.occurredAt,
    toLex (decide (0 ≤ effective.quantity), effective.entry.entryId))

/-- A sale consumes retained coverage, and an attributed acquisition adds to it. -/
def retainStep (ctx : DecimalContext) (retained : ℚ) (effective : EffectiveEntry) : ℚ :=
  if effective.entry.entryType ≠ .fill then retained
  else if effective.quantity < 0 then max 0 (ctx.add retained effective.quantity)
  else ctx.add retained (min effective.quantity (max 0 effective.attributed))

/-- A corporate action at or after the first acquisition. -/
def actionAfter (entries : List AuthoritativeLedgerEntry) (acquired : List EffectiveEntry) : Bool :=
  entries.any fun entry => entry.entryType = .corporateAction ∧
    acquired.any (·.entry.occurredAt ≤ entry.occurredAt)

/-- The retained quantity once all corrections are known. -/
def retainedOf (ctx : DecimalContext) (entries : List AuthoritativeLedgerEntry)
    (effective : List EffectiveEntry) (current : ℚ) : ℚ :=
  let acquired := effective.filter (0 < ·.attributed)
  if acquired = [] then 0
  else if actionAfter entries acquired then current
  else min current
    ((effective.insertionSort fun a b => a.order ≤ b.order).foldl (retainStep ctx) 0)

/-- The acquired quantity that a holding retains. Missing attribution or ambiguous lineage
retains the whole holding. -/
def retainedAcquiredQuantity (ctx : DecimalContext) (entries : List AuthoritativeLedgerEntry)
    (acquisitions : Dict String ℚ) (currentQuantity : ℚ) : ℚ :=
  if (indexedEntries entries).length ≠ entries.length ∨
      ¬∀ id ∈ acquisitions.keys, id ∈ (indexedEntries entries).keys then currentQuantity
  else match entries.mapM fun entry => (rootId entries entry).map (·, entry) with
    | none => currentQuantity
    | some keyed =>
      retainedOf ctx entries (effectiveEntries ctx entries acquisitions keyed) currentQuantity

section Range

variable {ctx : DecimalContext} {entries : List AuthoritativeLedgerEntry}

theorem mem_of_indexedEntries (h : (indexedEntries entries).get? id = some entry) :
    entry ∈ entries ∧ entry.entryId = id := by
  obtain ⟨found, hfound, heq⟩ := List.mem_map.mp (Dict.mem_ofLast (Dict.mem_of_get? h))
  obtain ⟨hid, rfl⟩ := Prod.mk.inj heq
  exact ⟨hfound, hid⟩

theorem mem_of_correctedEntry {target : AuthoritativeLedgerEntry}
    (h : Linked (correctedEntry entries) entry target) : target ∈ entries := by
  unfold Linked correctedEntry at h
  split at h
  · exact nomatch h
  · split at h
    · exact nomatch h
    · rename_i found hfound
      cases h
      exact (mem_of_indexedEntries hfound).1

theorem correctedEntry_eq_root :
    correctedEntry entries entry = .root ↔ entry.correctsEntryId = none := by
  unfold correctedEntry
  split
  · simp_all
  · split <;> simp_all

/-- The walk of an entry always ends, on cycles and at missing entries too. -/
theorem rootWalk_ne_spent (hentry : entry ∈ entries) : rootWalk entries entry ≠ .spent := by
  refine follow_ne_spent (entries.map correctionKey)
    (fun _ _ h => List.mem_map_of_mem (mem_of_correctedEntry h)) (List.mem_map_of_mem hentry)
    List.nodup_nil (List.nil_subset _) ?_
  rw [List.length_map, List.length_nil]
  omega

theorem retainStep_nonneg (h : 0 ≤ retained) (effective : EffectiveEntry) :
    0 ≤ retainStep ctx retained effective := by
  unfold retainStep
  split
  · exact h
  · split
    · exact le_max_left _ _
    · rename_i hquantity
      exact ctx.round_nonneg (add_nonneg h (le_min (not_lt.mp hquantity) (le_max_left _ _)))

theorem foldl_retainStep_nonneg (effective : List EffectiveEntry) (h : 0 ≤ retained) :
    0 ≤ effective.foldl (retainStep ctx) retained := by
  induction effective generalizing retained with
  | nil => exact h
  | cons first effective ih => exact ih (retainStep_nonneg h first)

/-- What is retained is between nothing and the whole holding, in every context. -/
theorem retainedAcquiredQuantity_mem (ctx : DecimalContext)
    (entries : List AuthoritativeLedgerEntry) (acquisitions : Dict String ℚ) {current : ℚ}
    (h : 0 ≤ current) :
    0 ≤ retainedAcquiredQuantity ctx entries acquisitions current ∧
      retainedAcquiredQuantity ctx entries acquisitions current ≤ current := by
  unfold retainedAcquiredQuantity
  split
  · exact ⟨h, le_rfl⟩
  · split
    · exact ⟨h, le_rfl⟩
    · unfold retainedOf
      dsimp only
      split
      · exact ⟨le_rfl, h⟩
      · split
        · exact ⟨h, le_rfl⟩
        · exact ⟨le_min h (foldl_retainStep_nonneg _ le_rfl), min_le_left _ _⟩

end Range

/-- The quantity that all corrections of an entry leave. -/
def rootQuantity (entries : List AuthoritativeLedgerEntry) (id : String) : ℚ :=
  sumWhere entries (·.quantityDelta) (rootId entries · = some id)

/-- What is attributed to an entry and its corrections. -/
def rootAttribution (entries : List AuthoritativeLedgerEntry) (acquisitions : Dict String ℚ)
    (id : String) : ℚ :=
  sumWhere entries (acquiredBy acquisitions) (rootId entries · = some id)

/-- An entry with the exact sums over all that finally corrects it. -/
def effectiveOf (entries : List AuthoritativeLedgerEntry) (acquisitions : Dict String ℚ)
    (entry : AuthoritativeLedgerEntry) : EffectiveEntry where
  entry := entry
  quantity := rootQuantity entries entry.entryId
  attributed := rootAttribution entries acquisitions entry.entryId

/-- A context adds up the corrections of every entry exactly. -/
def ExactSums (ctx : DecimalContext) (entries : List AuthoritativeLedgerEntry)
    (acquisitions : Dict String ℚ) : Prop :=
  ∀ id, ctx.sum ((entries.filter (rootId entries · = some id)).map (·.quantityDelta)) =
      rootQuantity entries id ∧
    ctx.sum ((entries.filter (rootId entries · = some id)).map (acquiredBy acquisitions)) =
      rootAttribution entries acquisitions id

section Effective

variable {ctx : DecimalContext} {entries : List AuthoritativeLedgerEntry}
  {acquisitions : Dict String ℚ}

theorem rootId_of_root (h : entry.correctsEntryId = none) :
    rootId entries entry = some entry.entryId := by
  rw [rootId, rootWalk, follow, if_neg List.not_mem_nil, correctedEntry_eq_root.mpr h]

theorem exists_root (hentry : entry ∈ entries) (h : rootId entries entry = some id) :
    ∃ root ∈ rootEntries entries, root.entryId = id := by
  unfold rootId at h
  split at h
  · rename_i root hwalk
    obtain ⟨hreach, hroot⟩ := follow_eq_root hwalk
    have hmem : root ∈ entries := by
      induction hreach with
      | refl => exact hentry
      | tail _ hlast _ => exact mem_of_correctedEntry hlast
    refine ⟨root, List.mem_filter.mpr ⟨hmem, decide_eq_true ?_⟩, Option.some.inj h⟩
    exact correctedEntry_eq_root.mp hroot
  · exact nomatch h

theorem get?_indexedEntries (hids : (entries.map (·.entryId)).Nodup) (hentry : entry ∈ entries) :
    (indexedEntries entries).get? entry.entryId = some entry := by
  refine Dict.get?_ofLast_of_mem (List.mem_map.mpr ⟨entry, hentry, rfl⟩) fun other hother => ?_
  obtain ⟨found, hfound, heq⟩ := List.mem_map.mp hother
  obtain ⟨hid, rfl⟩ := Prod.mk.inj heq
  exact List.inj_on_of_nodup_map hids hfound hentry hid

/-- The effective entries are the root entries with their final quantities. -/
theorem effectiveEntries_perm (hids : (entries.map (·.entryId)).Nodup)
    (hexact : ExactSums ctx entries acquisitions) {keyed : List (String × AuthoritativeLedgerEntry)}
    (hkeyed : (entries.mapM fun entry => (rootId entries entry).map (·, entry)) = some keyed) :
    (effectiveEntries ctx entries acquisitions keyed).Perm
      ((rootEntries entries).map (effectiveOf entries acquisitions)) := by
  have hroots : ((rootEntries entries).map (effectiveOf entries acquisitions)).Nodup := by
    refine List.Nodup.of_map (·.entry.entryId) ?_
    rw [List.map_map]
    exact hids.sublist (List.filter_sublist.map _)
  have heffective : (effectiveEntries ctx entries acquisitions keyed).Nodup := by
    refine List.Nodup.of_map (·.entry.entryId) ((Dict.keys_group_nodup keyed).sublist ?_)
    refine Dict.map_filterMap_sublist fun group _ effective heq => ?_
    obtain ⟨entry, hentry, rfl⟩ := Option.map_eq_some_iff.mp heq
    exact (mem_of_indexedEntries hentry).2
  have hmembers : ∀ {id members}, (id, members) ∈ Dict.group keyed →
      members = entries.filter (rootId entries · = some id) := by
    intro id members hgroup
    rw [Dict.eq_valuesOf_of_mem_group hgroup, Dict.valuesOf_of_mapM hkeyed]
  refine (List.perm_ext_iff_of_nodup heffective hroots).mpr fun effective => ?_
  rw [effectiveEntries, List.mem_filterMap, List.mem_map]
  constructor
  · rintro ⟨⟨id, members⟩, hgroup, heq⟩
    obtain ⟨entry, hentry, rfl⟩ := Option.map_eq_some_iff.mp heq
    obtain ⟨hmem, rfl⟩ := mem_of_indexedEntries hentry
    have hkey : entry.entryId ∈ keyed.map Prod.fst :=
      Dict.mem_keys_group.mp (List.mem_map.mpr ⟨_, hgroup, rfl⟩)
    obtain ⟨⟨id, member⟩, hmember, rfl⟩ := List.mem_map.mp hkey
    obtain ⟨hentries, hroot⟩ := (Dict.mem_of_mapM hkeyed).2 _ hmember
    obtain ⟨root, hrootMem, hid⟩ := exists_root hentries hroot
    have hsame : root = entry :=
      List.inj_on_of_nodup_map hids (List.mem_of_mem_filter hrootMem) hmem hid
    refine ⟨entry, hsame ▸ hrootMem, ?_⟩
    rw [hmembers hgroup, (hexact entry.entryId).1, (hexact entry.entryId).2]
    rfl
  · rintro ⟨root, hroot, rfl⟩
    obtain ⟨hmem, hcorrects⟩ := List.mem_filter.mp hroot
    have hkeyedRoot : (root.entryId, root) ∈ keyed := by
      have hvalue : root ∈ Dict.valuesOf keyed root.entryId := by
        rw [Dict.valuesOf_of_mapM hkeyed]
        exact List.mem_filter.mpr
          ⟨hmem, decide_eq_true (rootId_of_root (of_decide_eq_true hcorrects))⟩
      exact Dict.mem_valuesOf.mp hvalue
    obtain ⟨⟨id, members⟩, hgroup, rfl⟩ := List.mem_map.mp
      (Dict.mem_keys_group.mpr (List.mem_map.mpr ⟨_, hkeyedRoot, rfl⟩))
    refine ⟨_, hgroup, Option.map_eq_some_iff.mpr ⟨root, get?_indexedEntries hids hmem, ?_⟩⟩
    rw [hmembers hgroup, (hexact root.entryId).1, (hexact root.entryId).2]
    rfl

end Effective

section Order

variable {effective' : List EffectiveEntry} {ctx : DecimalContext}
  {entries entries' : List AuthoritativeLedgerEntry} {acquisitions : Dict String ℚ}

theorem length_indexedEntries_iff :
    (indexedEntries entries).length = entries.length ↔ (entries.map (·.entryId)).Nodup := by
  refine ⟨Dict.ids_nodup, fun h => ?_⟩
  rw [indexedEntries, Dict.ofLast_of_nodup, List.length_map]
  rwa [List.map_map]

theorem mem_keys_indexedEntries (hids : (entries.map (·.entryId)).Nodup) :
    id ∈ (indexedEntries entries).keys ↔ ∃ entry ∈ entries, entry.entryId = id := by
  rw [Dict.mem_keys_iff]
  constructor
  · intro hsome
    obtain ⟨entry, hentry⟩ := Option.isSome_iff_exists.mp hsome
    exact ⟨entry, mem_of_indexedEntries hentry⟩
  · rintro ⟨entry, hentry, rfl⟩
    rw [get?_indexedEntries hids hentry]
    rfl

section

variable (h : entries.Perm entries') (hids : (entries.map (·.entryId)).Nodup)
include h hids

theorem get?_indexedEntries_perm (id : String) :
    (indexedEntries entries).get? id = (indexedEntries entries').get? id := by
  have hids' : (entries'.map (·.entryId)).Nodup := (h.map _).nodup_iff.mp hids
  refine Option.ext fun entry => ⟨fun hentry => ?_, fun hentry => ?_⟩
  · obtain ⟨hmem, rfl⟩ := mem_of_indexedEntries hentry
    exact get?_indexedEntries hids' (h.mem_iff.mp hmem)
  · obtain ⟨hmem, rfl⟩ := mem_of_indexedEntries hentry
    exact get?_indexedEntries hids (h.mem_iff.mpr hmem)

theorem rootId_perm : rootId entries = rootId entries' := by
  have hlinks : correctedEntry entries = correctedEntry entries' := by
    funext entry
    simp only [correctedEntry, get?_indexedEntries_perm h hids]
  funext entry
  simp only [rootId, rootWalk, hlinks, h.length_eq]

theorem effectiveOf_perm :
    effectiveOf entries acquisitions = effectiveOf entries' acquisitions := by
  funext entry
  simp only [effectiveOf, rootQuantity, rootAttribution, rootId_perm h hids, sumWhere_perm h]

end

theorem order_nodup (hids : (effective.map (·.entry.entryId)).Nodup) :
    (effective.map (·.order)).Nodup := by
  refine List.Nodup.of_map (fun place => (ofLex (ofLex place).2).2) ?_
  rwa [List.map_map]

theorem insertionSort_perm (h : effective.Perm effective')
    (hids : (effective.map (·.entry.entryId)).Nodup) :
    (effective.insertionSort fun a b => a.order ≤ b.order) =
      effective'.insertionSort fun a b => a.order ≤ b.order := by
  have hids' : (effective'.map (·.entry.entryId)).Nodup := (h.map _).nodup_iff.mp hids
  have hperm : (effective.insertionSort fun a b => a.order ≤ b.order).Perm
      (effective'.insertionSort fun a b => a.order ≤ b.order) :=
    (List.perm_insertionSort _ _).trans (h.trans (List.perm_insertionSort _ _).symm)
  exact hperm.eq_of_pairwise (fun a b _ _ hab hba => absurd hba hab.asymm)
    (pairwise_lt_insertionSort _ (order_nodup hids))
    (pairwise_lt_insertionSort _ (order_nodup hids'))

theorem actionAfter_perm (h : entries.Perm entries') {acquired acquired' : List EffectiveEntry}
    (hacquired : acquired.Perm acquired') :
    actionAfter entries acquired = actionAfter entries' acquired' := by
  refine Bool.eq_iff_iff.mpr ?_
  simp only [actionAfter, List.any_eq_true, h.mem_iff, hacquired.mem_iff, decide_eq_true_eq]

theorem retainedOf_perm (ctx : DecimalContext) (h : entries.Perm entries')
    (heffective : effective.Perm effective') (hids : (effective.map (·.entry.entryId)).Nodup)
    (current : ℚ) :
    retainedOf ctx entries effective current = retainedOf ctx entries' effective' current := by
  have hacquired := heffective.filter (0 < ·.attributed)
  have hnil : effective.filter (0 < ·.attributed) = [] ↔
      effective'.filter (0 < ·.attributed) = [] := by
    constructor
    · intro hempty
      exact List.perm_nil.mp (hempty ▸ hacquired.symm)
    · intro hempty
      exact List.perm_nil.mp (hempty ▸ hacquired)
  simp only [retainedOf, hnil, actionAfter_perm h hacquired, insertionSort_perm heffective hids]

theorem effectiveOf_ids_nodup (hids : (entries.map (·.entryId)).Nodup) :
    (((rootEntries entries).map (effectiveOf entries acquisitions)).map
      (·.entry.entryId)).Nodup := by
  rw [List.map_map]
  exact hids.sublist (List.filter_sublist.map _)

/-- The retained quantity where no identity repeats and every correction is resolved. -/
theorem retainedAcquiredQuantity_eq (hids : (entries.map (·.entryId)).Nodup)
    (hacquired : ∀ id ∈ acquisitions.keys, ∃ entry ∈ entries, entry.entryId = id)
    (hrooted : ∀ entry ∈ entries, (rootId entries entry).isSome)
    (hexact : ExactSums ctx entries acquisitions) (current : ℚ) :
    retainedAcquiredQuantity ctx entries acquisitions current = retainedOf ctx entries
      ((rootEntries entries).map (effectiveOf entries acquisitions)) current := by
  have hkeyed : (entries.mapM fun entry => (rootId entries entry).map (·, entry)) =
      some (entries.map fun entry => ((rootId entries entry).getD "", entry)) := by
    refine mapM_eq_some_map fun entry hentry => ?_
    obtain ⟨id, hid⟩ := Option.isSome_iff_exists.mp (hrooted entry hentry)
    rw [hid]
    rfl
  have hguard : ¬((indexedEntries entries).length ≠ entries.length ∨
      ¬∀ id ∈ acquisitions.keys, id ∈ (indexedEntries entries).keys) := by
    rw [not_or, not_not, not_not]
    exact ⟨length_indexedEntries_iff.mpr hids, fun id hid =>
      (mem_keys_indexedEntries hids).mpr (hacquired id hid)⟩
  have hperm := effectiveEntries_perm hids hexact hkeyed
  rw [retainedAcquiredQuantity, if_neg hguard, hkeyed]
  exact retainedOf_perm ctx (List.Perm.refl _) hperm
    ((hperm.map _).nodup_iff.mpr (effectiveOf_ids_nodup hids)) current

theorem retainedAcquiredQuantity_ambiguous (h : ¬((entries.map (·.entryId)).Nodup ∧
      (∀ id ∈ acquisitions.keys, ∃ entry ∈ entries, entry.entryId = id) ∧
      ∀ entry ∈ entries, (rootId entries entry).isSome)) (current : ℚ) :
    retainedAcquiredQuantity ctx entries acquisitions current = current := by
  unfold retainedAcquiredQuantity
  split
  · rfl
  · rename_i hguard
    rw [not_or, not_not, not_not] at hguard
    have hids := length_indexedEntries_iff.mp hguard.1
    split
    · rfl
    · rename_i keyed hkeyed
      refine absurd ⟨hids, fun id hid => ?_, (Dict.mem_of_mapM hkeyed).1⟩ h
      exact (mem_keys_indexedEntries hids).mp (hguard.2 id hid)

end Order

/-- All quantities are whole multiples of one decimal unit, and add up to no more digits than a
context keeps. -/
structure QuantitiesFit (digits : ℕ) (unit : ℤ) (entries : List AuthoritativeLedgerEntry)
    (acquisitions : Dict String ℚ) : Prop where
  quantities : ∀ entry ∈ entries, OnGrid digits unit entry.quantityDelta
  acquired : ∀ entry ∈ entries, OnGrid digits unit (acquiredBy acquisitions entry)
  quantities_le : sumWhere entries (|·.quantityDelta|) (fun _ => True) ≤
    (10 : ℚ) ^ (unit + digits)
  acquired_le : sumWhere entries (|acquiredBy acquisitions ·|) (fun _ => True) ≤
    (10 : ℚ) ^ (unit + digits)

section Fit

variable {digits : ℕ} {mode : Rounding} {hd : 0 < digits} {unit : ℤ}
  {entries : List AuthoritativeLedgerEntry} {acquisitions : Dict String ℚ}

theorem QuantitiesFit.perm {entries' : List AuthoritativeLedgerEntry}
    (h : QuantitiesFit digits unit entries acquisitions) (hperm : entries.Perm entries') :
    QuantitiesFit digits unit entries' acquisitions where
  quantities entry hentry := h.quantities entry (hperm.mem_iff.mpr hentry)
  acquired entry hentry := h.acquired entry (hperm.mem_iff.mpr hentry)
  quantities_le := (sumWhere_perm hperm).symm.trans_le h.quantities_le
  acquired_le := (sumWhere_perm hperm).symm.trans_le h.acquired_le

theorem QuantitiesFit.exactSums (h : QuantitiesFit digits unit entries acquisitions) :
    ExactSums (.ofPrecision digits mode hd) entries acquisitions := fun _ =>
  ⟨(sum_filter_onGrid h.quantities h.quantities_le _).1,
    (sum_filter_onGrid h.acquired h.acquired_le _).1⟩

/-- The effective quantities add up to no more digits than the context keeps. -/
theorem QuantitiesFit.sum_le (h : QuantitiesFit digits unit entries acquisitions)
    (hids : (entries.map (·.entryId)).Nodup)
    (hrooted : ∀ entry ∈ entries, (rootId entries entry).isSome) :
    sumWhere (rootEntries entries) (fun root => |rootQuantity entries root.entryId|)
      (fun _ => True) ≤ (10 : ℚ) ^ (unit + digits) := by
  have hroot : ∀ entry ∈ entries, ∃ root ∈ rootEntries entries,
      rootId entries entry = some root.entryId := by
    intro entry hentry
    obtain ⟨id, hid⟩ := Option.isSome_iff_exists.mp (hrooted entry hentry)
    obtain ⟨root, hmem, rfl⟩ := exists_root hentry hid
    exact ⟨root, hmem, hid⟩
  choose! root hmem hid using hroot
  have hkeys : ((rootEntries entries).map (·.entryId)).Nodup :=
    hids.sublist (List.filter_sublist.map _)
  have hclass : ∀ b : AuthoritativeLedgerEntry,
      sumWhere entries (|·.quantityDelta|) (rootId entries · = some b.entryId) =
        sumWhere entries (|·.quantityDelta|) (fun a => (root a).entryId = b.entryId) := by
    refine fun b => sumWhere_congr (fun a ha => ?_) fun _ _ _ => rfl
    rw [hid a ha, Option.some_inj]
  calc sumWhere (rootEntries entries) (fun root => |rootQuantity entries root.entryId|)
        (fun _ => True)
      ≤ sumWhere (rootEntries entries) (fun b => sumWhere entries (|·.quantityDelta|)
          fun a => (root a).entryId = b.entryId) (fun _ => True) := by
        refine sumWhere_le_sumWhere (fun _ _ _ => trivial) (fun b _ _ => ?_) fun b _ =>
          sumWhere_nonneg fun _ _ => abs_nonneg _
        rw [← hclass]
        exact abs_sumWhere_le
    _ = sumWhere entries (|·.quantityDelta|) (fun _ => True) :=
        sumWhere_fiber hkeys (fun _ => True) root hmem
    _ ≤ (10 : ℚ) ^ (unit + digits) := h.quantities_le

/-- A step within the grid is exact and stays within it. -/
theorem retainStep_onGrid {effective : EffectiveEntry}
    (hquantity : OnGrid digits unit effective.quantity)
    (hattributed : OnGrid digits unit effective.attributed)
    (hretained : OnGrid digits unit retained) (h0 : 0 ≤ retained)
    (hle : retained + |effective.quantity| ≤ (10 : ℚ) ^ (unit + digits)) :
    retainStep (.ofPrecision digits mode hd) retained effective =
        retainStep .exact retained effective ∧
      OnGrid digits unit (retainStep .exact retained effective) ∧
      retainStep .exact retained effective ≤ retained + |effective.quantity| := by
  have hadd : ∀ {x : ℚ}, OnGrid digits unit x → |x| ≤ |effective.quantity| →
      OnGrid digits unit (retained + x) := by
    intro x hx hbound
    refine hretained.add_of_abs_le hx (onGrid_top digits unit) ?_
    calc |retained + x| ≤ |retained| + |x| := abs_add_le retained x
      _ ≤ retained + |effective.quantity| := by
        rw [abs_of_nonneg h0]
        exact add_le_add_right hbound retained
      _ ≤ (10 : ℚ) ^ (unit + digits) := hle
  unfold retainStep
  split
  · exact ⟨rfl, hretained, le_add_of_nonneg_right (abs_nonneg _)⟩
  · split
    · rename_i hsale
      have hsum := hadd hquantity le_rfl
      have hexact : (DecimalContext.ofPrecision digits mode hd).add retained effective.quantity =
          retained + effective.quantity := roundTo_eq_self hd mode hsum
      rw [hexact]
      refine ⟨rfl, hsum.max_zero, max_le (add_nonneg h0 (abs_nonneg _)) ?_⟩
      exact add_le_add_right (le_abs_self _) retained
    · rename_i hbuy
      have hbuy := not_lt.mp hbuy
      have hkept := hquantity.min hattributed.max_zero
      have hkept0 : 0 ≤ min effective.quantity (max 0 effective.attributed) :=
        le_min hbuy (le_max_left _ _)
      have hbound : min effective.quantity (max 0 effective.attributed) ≤
          |effective.quantity| := (min_le_left _ _).trans (le_abs_self _)
      have hsum := hadd hkept ((abs_of_nonneg hkept0).trans_le hbound)
      have hexact : (DecimalContext.ofPrecision digits mode hd).add retained
          (min effective.quantity (max 0 effective.attributed)) =
          retained + min effective.quantity (max 0 effective.attributed) :=
        roundTo_eq_self hd mode hsum
      rw [hexact]
      exact ⟨rfl, hsum, add_le_add_right hbound retained⟩

theorem foldl_retainStep_onGrid
    (hgrid : ∀ e ∈ effective, OnGrid digits unit e.quantity ∧ OnGrid digits unit e.attributed)
    (hretained : OnGrid digits unit retained) (h0 : 0 ≤ retained)
    (hle : retained + (effective.map (|·.quantity|)).sum ≤ (10 : ℚ) ^ (unit + digits)) :
    effective.foldl (retainStep (.ofPrecision digits mode hd)) retained =
      effective.foldl (retainStep .exact) retained := by
  induction effective generalizing retained with
  | nil => rfl
  | cons first effective ih =>
    obtain ⟨⟨hquantity, hattributed⟩, hrest⟩ := List.forall_mem_cons.mp hgrid
    rw [List.map_cons, List.sum_cons] at hle
    have hnonneg : 0 ≤ (effective.map (|·.quantity|)).sum := by
      refine List.sum_nonneg fun x hx => ?_
      obtain ⟨e, -, rfl⟩ := List.mem_map.mp hx
      exact abs_nonneg _
    have hsplit : retainStep (.ofPrecision digits mode hd) retained first =
          retainStep .exact retained first ∧
        OnGrid digits unit (retainStep .exact retained first) ∧
        retainStep .exact retained first ≤ retained + |first.quantity| :=
      retainStep_onGrid hquantity hattributed hretained h0 (by linarith)
    obtain ⟨hstep, hnext, hbound⟩ := hsplit
    rw [List.foldl_cons, List.foldl_cons, hstep]
    exact ih hrest hnext (retainStep_nonneg h0 first) (by linarith)

end Fit

end StockProfiler.Portfolio
