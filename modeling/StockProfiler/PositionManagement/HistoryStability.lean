import StockProfiler.PositionManagement.HistoryFold
import StockProfiler.PositionManagement.Soundness

/-!
# Canonical facts as time advances

A canon belongs to its cutoff: a later cutoff may show an earlier listing of the
same entry that was not visible before. Nothing else replaces a canonical fact.
-/

namespace StockProfiler.PositionManagement

variable {cutoffAt : Instant} {listed : ListedLedger} {key : String × String}
  {entry : AuthoritativeLedgerEntry}

/-- The canonical entries of a history at a cutoff, by account and identity. -/
def canonicalHistory (positionHistory : List PositionReconciliationOutcome)
    (accountIds : List String) (cutoffAt : Instant) :
    Dict (String × String) AuthoritativeLedgerEntry :=
  ((ledgerHistoryResolver positionHistory accountIds).canonicalEntriesAt cutoffAt).1

/-- A listed ledger lists an entry under its key. -/
structure ListedLedger.Lists (listed : ListedLedger) (key : String × String)
    (entry : AuthoritativeLedgerEntry) : Prop where
  account : listed.accountId = key.1
  mem : entry ∈ listed.entries
  identity : entry.entryId = key.2

/-- An accepted ledger lists a version of an entry that is first visible between two cutoffs,
and comes before the ledger of the entry that was visible at the first one. -/
def LateVersion (accepted : List ListedLedger) (cutoffAt later : Instant) (key : String × String)
    (entry version : AuthoritativeLedgerEntry) : Prop :=
  ∃ before listed between other after, accepted = before ++ listed :: between ++ other :: after ∧
    listed.Lists key version ∧ other.Lists key entry ∧
    (∃ visible, listedVisibleAfter listed.entries key.2 = some visible ∧
      cutoffAt < visible ∧ visible ≤ later) ∧
    ∃ visible, listedVisibleAfter other.entries key.2 = some visible ∧ visible ≤ cutoffAt

theorem get?_visibleBy (listed : ListedLedger) (cutoffAt : Instant) (key : String × String) :
    Dict.get? (listed.visibleBy cutoffAt) key =
      if listed.accountId = key.1 ∧ (listedVisibleAfter listed.entries key.2).any (· ≤ cutoffAt)
      then listed.entries.find? (·.entryId = key.2) else none := by
  have hkey := Dict.get?_map_key
    (fun entry : AuthoritativeLedgerEntry => (listed.accountId, entry.entryId))
    (listed.entries.filter fun entry =>
      (listedVisibleAfter listed.entries entry.entryId).any (· ≤ cutoffAt)) key
  rw [ListedLedger.visibleBy, hkey, List.find?_filter]
  split
  · rename_i hshown
    obtain ⟨haccount, hvisible⟩ := hshown
    congr 1
    funext entry
    by_cases hid : entry.entryId = key.2
    · simp [hid, hvisible, haccount]
    · simp [hid, Prod.ext_iff]
  · rename_i hshown
    refine List.find?_eq_none.mpr fun entry _ => ?_
    rw [decide_eq_true_eq, decide_eq_true_eq]
    rintro ⟨hvisible, rfl⟩
    exact hshown ⟨rfl, hvisible⟩

theorem lists_of_get?_visibleBy (h : Dict.get? (listed.visibleBy cutoffAt) key = some entry) :
    listed.Lists key entry ∧
      ∃ visible, listedVisibleAfter listed.entries key.2 = some visible ∧ visible ≤ cutoffAt := by
  rw [get?_visibleBy, Option.ite_none_right_eq_some] at h
  obtain ⟨⟨haccount, hvisible⟩, hfind⟩ := h
  obtain ⟨visible, hsome, hle⟩ := (Option.any_eq_true ..).mp hvisible
  have hid := List.find?_some hfind
  exact ⟨⟨haccount, List.mem_of_find?_eq_some hfind, of_decide_eq_true hid⟩, visible, hsome,
    of_decide_eq_true hle⟩

theorem get?_visibleBy_mono {later : Instant} (hle : cutoffAt ≤ later)
    (h : Dict.get? (listed.visibleBy cutoffAt) key = some entry) :
    Dict.get? (listed.visibleBy later) key = some entry := by
  obtain ⟨hlists, visible, hsome, hvisible⟩ := lists_of_get?_visibleBy h
  rw [get?_visibleBy, Option.ite_none_right_eq_some] at h ⊢
  refine ⟨⟨hlists.account, ?_⟩, h.2⟩
  rw [hsome, Option.any_some]
  exact decide_eq_true (hvisible.trans hle)

/-- What is shown at a later cutoff only becomes visible between the two. -/
theorem visible_between {later : Instant} {version : AuthoritativeLedgerEntry}
    (hnow : Dict.get? (listed.visibleBy cutoffAt) key = none)
    (hlater : Dict.get? (listed.visibleBy later) key = some version) :
    ∃ visible, listedVisibleAfter listed.entries key.2 = some visible ∧ cutoffAt < visible ∧
      visible ≤ later := by
  obtain ⟨hlists, visible, hsome, hle⟩ := lists_of_get?_visibleBy hlater
  refine ⟨visible, hsome, ?_, hle⟩
  by_contra hearly
  have hshown : (listedVisibleAfter listed.entries key.2).any (· ≤ cutoffAt) = true := by
    rw [hsome, Option.any_some]
    exact decide_eq_true (not_lt.mp hearly)
  rw [get?_visibleBy, Option.ite_none_right_eq_some] at hlater
  rw [get?_visibleBy, if_pos ⟨hlists.account, hshown⟩, hlater.2] at hnow
  exact nomatch hnow

theorem get?_flatMap_eq_some {α κ ν : Type*} [DecidableEq κ] {f : α → Dict κ ν} {items : List α}
    {key : κ} {value : ν} (h : Dict.get? (items.flatMap f) key = some value) :
    ∃ before item after, items = before ++ item :: after ∧
      Dict.get? (f item) key = some value := by
  induction items with
  | nil => exact nomatch h
  | cons item items ih =>
    rw [List.flatMap_cons, Dict.get?_append, Option.or_eq_some_iff] at h
    rcases h with h | ⟨-, h⟩
    · exact ⟨[], item, items, rfl, h⟩
    · obtain ⟨before, other, after, rfl, hother⟩ := ih h
      exact ⟨item :: before, other, after, rfl, hother⟩

/-- A later cutoff changes an entry only by a late version. -/
theorem get?_canonicalLedger_later {accepted : List ListedLedger} {later : Instant}
    (hle : cutoffAt ≤ later) (h : (canonicalLedger accepted cutoffAt).get? key = some entry) :
    ∃ version, (canonicalLedger accepted later).get? key = some version ∧
      (version = entry ∨ LateVersion accepted cutoffAt later key entry version) := by
  rw [canonicalLedger, Dict.get?_ofFirst] at h ⊢
  induction accepted with
  | nil => cases h
  | cons listed accepted ih =>
    rw [List.flatMap_cons, Dict.get?_append] at h ⊢
    cases hnow : Dict.get? (listed.visibleBy cutoffAt) key with
    | some first =>
      rw [hnow, Option.some_or] at h
      obtain rfl := Option.some.inj h
      rw [get?_visibleBy_mono hle hnow, Option.some_or]
      exact ⟨first, rfl, .inl rfl⟩
    | none =>
      rw [hnow, Option.none_or] at h
      cases hlater : Dict.get? (listed.visibleBy later) key with
      | some version =>
        obtain ⟨between, other, after, rfl, hother⟩ := get?_flatMap_eq_some h
        obtain ⟨hentry, hvisible⟩ := lists_of_get?_visibleBy hother
        rw [Option.some_or]
        exact ⟨version, rfl, .inr ⟨[], listed, between, other, after, rfl,
          (lists_of_get?_visibleBy hlater).1, hentry, visible_between hnow hlater, hvisible⟩⟩
      | none =>
        rw [Option.none_or]
        obtain ⟨version, hversion, hsame⟩ := ih h
        refine ⟨version, hversion, hsame.imp_right ?_⟩
        rintro ⟨before, late, between, other, after, rfl, hrest⟩
        exact ⟨listed :: before, late, between, other, after, rfl, hrest⟩

/-- The canonical entry of a key stays at later cutoffs, unless an earlier accepted ledger lists
another version of it that was not visible before. -/
theorem canonicalHistory_later (positionHistory : List PositionReconciliationOutcome)
    (accountIds : List String) {cutoffAt later : Instant} (hle : cutoffAt ≤ later)
    {key : String × String} {entry : AuthoritativeLedgerEntry}
    (h : (canonicalHistory positionHistory accountIds cutoffAt).get? key = some entry) :
    ∃ version, (canonicalHistory positionHistory accountIds later).get? key = some version ∧
      (version = entry ∨ LateVersion (acceptedLedgers positionHistory accountIds) cutoffAt later
        key entry version) := by
  rw [canonicalHistory, canonicalEntriesAt_resolver] at h ⊢
  exact get?_canonicalLedger_later hle h

namespace SampleHistory

/-- The purchase, listed early with another quantity and dated after the cutoff. -/
def futurePurchase : PositionLedgerEntry :=
  { Sample.purchase with
    quantityDelta := 13
    occurredAt := 150
    evidence := SampleBroker.evidence 150 }

def futureAccount : AccountPositionSnapshot :=
  { Sample.account with ledgerEntries := [futurePurchase] }

def futureCommand : PositionSnapshotCommand where
  snapshotId := "future"
  cutoffAt := 100
  snapshotEvidence := Sample.evidence
  valuationCurrency := "CNY"
  accounts := [futureAccount]
  annotations := []
  annotationIds_nodup := List.nodup_nil

/-- The two snapshots, the second reconciled against the history of the first. -/
def history : List PositionReconciliationOutcome :=
  let first := reconcile .exact futureCommand [] []
  [first, reconcile .exact Sample.command (authoritativeLedgerHistory [first] ["A"] 100) []]

end SampleHistory

/-- An entry that one snapshot dates after its cutoff replaces, once it is visible, the version
that the next snapshot established. -/
theorem sample_canonical_replaced :
    (100 : Instant) ≤ 150 ∧
    (canonicalHistory SampleHistory.history ["A"] 100).get? ("A", "fill-1") =
      some (Sample.purchase.inAccount "A") ∧
    (canonicalHistory SampleHistory.history ["A"] 150).get? ("A", "fill-1") ≠
      some (Sample.purchase.inAccount "A") := by
  decide +kernel

/-- The sample's entry stays where no version of it becomes visible. -/
theorem sample_canonical_later :
    ∃ version, (canonicalHistory SampleHistory.history ["A"] 120).get? ("A", "fill-1") =
        some version ∧
      (version = Sample.purchase.inAccount "A" ∨
        LateVersion (acceptedLedgers SampleHistory.history ["A"]) 100 120 ("A", "fill-1")
          (Sample.purchase.inAccount "A") version) :=
  canonicalHistory_later SampleHistory.history ["A"] (by decide) (by decide +kernel)

end StockProfiler.PositionManagement
