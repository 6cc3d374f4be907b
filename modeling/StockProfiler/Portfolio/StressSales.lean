import StockProfiler.Portfolio.Stress

/-!
# Confirmed sales

What a restoration fill stands for: a fill of the ledger that was made after an
instant and still sells once every entry that corrects it is added up.
-/

namespace StockProfiler.Portfolio

open PositionManagement

variable {keyed : List ((String × String) × AuthoritativeLedgerEntry)}
  {members : List AuthoritativeLedgerEntry} {entry : AuthoritativeLedgerEntry}
  {ctx : DecimalContext} {entries : List AuthoritativeLedgerEntry}

theorem mem_of_ledgerIndex {key : String × String}
    (h : (ledgerIndex entries).get? key = some entry) :
    entry ∈ entries ∧ ledgerKey entry = key := by
  rw [ledgerIndex, Dict.get?_ofLast] at h
  obtain ⟨found, hmem, hfound⟩ := List.mem_map.mp (List.mem_reverse.mp (Dict.mem_of_get? h))
  obtain ⟨hkey, rfl⟩ := Prod.mk.inj hfound
  exact ⟨hmem, hkey⟩

theorem mem_of_linked {target : AuthoritativeLedgerEntry}
    (h : Linked (correctionLink entries) entry target) : target ∈ entries := by
  unfold Linked correctionLink at h
  split at h
  · exact nomatch h
  · split at h
    · exact nomatch h
    · rename_i found hfound
      cases h
      exact (mem_of_ledgerIndex hfound).1

theorem correctionLink_eq_root :
    correctionLink entries entry = .root ↔ entry.correctsEntryId = none := by
  unfold correctionLink
  split
  · simp_all
  · split <;> simp_all

theorem mem_of_reflTransGen {root : AuthoritativeLedgerEntry} (hentry : entry ∈ entries)
    (h : Relation.ReflTransGen (Linked (correctionLink entries)) entry root) : root ∈ entries := by
  induction h with
  | refl => exact hentry
  | tail _ hlast _ => exact mem_of_linked hlast

/-- The entries that correct no other. -/
def rootEntries (entries : List AuthoritativeLedgerEntry) : List AuthoritativeLedgerEntry :=
  entries.filter (·.correctsEntryId = none)

/-- The walk of a ledger entry never runs out of steps. -/
theorem correctionWalk_ne_spent (hentry : entry ∈ entries) :
    correctionWalk entries entry ≠ .spent := by
  refine follow_ne_spent (entries.map correctionKey)
    (fun _ _ h => List.mem_map_of_mem (mem_of_linked h)) (List.mem_map_of_mem hentry)
    List.nodup_nil (List.nil_subset _) ?_
  simp

/-- The entry finally rests on an identity: its corrections end there. -/
def RestsOn (entries : List AuthoritativeLedgerEntry) (key : String × String)
    (entry : AuthoritativeLedgerEntry) : Prop :=
  ∃ root, Relation.ReflTransGen (Linked (correctionLink entries)) entry root ∧
    root.correctsEntryId = none ∧ ledgerKey root = key

theorem restsOn_of_rootKey {key : String × String}
    (h : correctionRootKey entries entry = some key) : RestsOn entries key entry := by
  unfold correctionRootKey at h
  split at h
  · rename_i root hwalk
    obtain ⟨hreach, hroot⟩ := follow_eq_root hwalk
    exact ⟨root, hreach, correctionLink_eq_root.mp hroot, Option.some.inj h⟩
  · exact nomatch h

theorem rootKey_eq_some_iff {key key' : String × String}
    (hended : correctionRootKey entries entry = some key') :
    correctionRootKey entries entry = some key ↔ RestsOn entries key entry := by
  refine ⟨restsOn_of_rootKey, ?_⟩
  rintro ⟨root, hreach, hroot, rfl⟩
  obtain ⟨root', hreach', hroot', rfl⟩ := restsOn_of_rootKey hended
  have hunique := root_unique hreach hreach' (correctionLink_eq_root.mpr hroot)
    (correctionLink_eq_root.mpr hroot')
  rw [hended, hunique]

open Classical in
/-- The entries that finally rest on an identity. -/
noncomputable def restingOn (entries : List AuthoritativeLedgerEntry) (key : String × String) :
    List AuthoritativeLedgerEntry :=
  entries.filter (RestsOn entries key)

/-- The quantity of an identity after all its corrections. -/
noncomputable def netQuantity (ctx : DecimalContext) (entries : List AuthoritativeLedgerEntry)
    (key : String × String) : ℚ :=
  ctx.sum ((restingOn entries key).map (·.quantityDelta))

/-- The cash of an identity after all its corrections. -/
noncomputable def netCash (ctx : DecimalContext) (entries : List AuthoritativeLedgerEntry)
    (key : String × String) : ℚ :=
  ctx.sum ((restingOn entries key).map (·.cashDelta))

/-- A fill made after an instant still sells once all its corrections are added up. -/
structure SoldSince (ctx : DecimalContext) (entries : List AuthoritativeLedgerEntry)
    (after : Instant) (key : String × String) : Prop where
  fill : ∃ fill ∈ entries, ledgerKey fill = key ∧ fill.entryType = .fill ∧ after < fill.occurredAt
  root : ∃ root ∈ entries, ledgerKey root = key ∧ root.correctsEntryId = none
  sold : netQuantity ctx entries key < 0

/-- In a ledger without repeated identities the fill is itself the corrected entry. -/
theorem SoldSince.root_fill {after : Instant} {key : String × String}
    (h : SoldSince ctx entries after key) (hkeys : (entries.map ledgerKey).Nodup) :
    ∃ root ∈ entries, ledgerKey root = key ∧ root.correctsEntryId = none ∧
      root.entryType = .fill ∧ after < root.occurredAt := by
  obtain ⟨fill, hfill, hfillKey, htype, hafter⟩ := h.fill
  obtain ⟨root, hroot, hrootKey, hcorrects⟩ := h.root
  obtain rfl := List.inj_on_of_nodup_map hkeys hfill hroot (hfillKey.trans hrootKey.symm)
  exact ⟨fill, hfill, hfillKey, hcorrects, htype, hafter⟩

/-- The identity of a restoration fill. -/
def StressRestorationFill.key (fill : StressRestorationFill) : String × String :=
  (fill.accountId, fill.entryId)

/-- Every entry whose walk ended is grouped with what it rests on. -/
theorem group_eq_restingOn
    (hkeyed : (entries.mapM fun entry => (correctionRootKey entries entry).map (·, entry)) =
      some keyed) {key : String × String} (hgroup : (key, members) ∈ Dict.group keyed) :
    members = restingOn entries key := by
  rw [Dict.eq_valuesOf_of_mem_group hgroup, Dict.valuesOf_of_mapM hkeyed, restingOn]
  refine List.filter_congr fun entry hentry => ?_
  obtain ⟨ended, hended⟩ := Option.isSome_iff_exists.mp ((Dict.mem_of_mapM hkeyed).1 entry hentry)
  exact decide_eq_decide.mpr (rootKey_eq_some_iff hended)

theorem exists_root_of_group
    (hkeyed : (entries.mapM fun entry => (correctionRootKey entries entry).map (·, entry)) =
      some keyed) {key : String × String} (hgroup : (key, members) ∈ Dict.group keyed) :
    ∃ root ∈ entries, ledgerKey root = key ∧ root.correctsEntryId = none := by
  have hkey : key ∈ keyed.map Prod.fst := Dict.mem_keys_group.mp (List.mem_map_of_mem hgroup)
  obtain ⟨pair, hpair, rfl⟩ := List.mem_map.mp hkey
  obtain ⟨hentry, hended⟩ := (Dict.mem_of_mapM hkeyed).2 pair hpair
  obtain ⟨root, hreach, hroot, hrootKey⟩ := restsOn_of_rootKey hended
  exact ⟨root, mem_of_reflTransGen hentry hreach, hrootKey, hroot⟩

theorem mem_effectiveSales {after cutoffAt : Instant} {fill : StressRestorationFill}
    (h : fill ∈ effectiveSales ctx entries after cutoffAt) :
    SoldSince ctx entries after fill.key ∧ fill.netQuantity = netQuantity ctx entries fill.key ∧
      fill.netCashDelta = netCash ctx entries fill.key := by
  unfold effectiveSales at h
  split at h
  · split at h
    · exact nomatch h
    · rename_i keyed hkeyed
      obtain ⟨⟨key, members⟩, hgroup, hfill⟩ := List.mem_filterMap.mp h
      obtain rfl := group_eq_restingOn hkeyed hgroup
      have hroot := exists_root_of_group hkeyed hgroup
      dsimp only [restorationFill] at hfill
      split at hfill
      · exact nomatch hfill
      · rename_i found hfound
        obtain ⟨hmem, hkey⟩ := mem_of_ledgerIndex hfound
        split at hfill
        · rename_i hsold
          split at hfill
          · rename_i hcounts
            cases hfill
            exact ⟨⟨⟨found, hmem, hkey, hcounts⟩, hroot, hsold⟩, rfl, rfl⟩
          · exact nomatch hfill
        · exact nomatch hfill
  · exact nomatch h

end StockProfiler.Portfolio
