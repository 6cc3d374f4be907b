import StockProfiler.PositionManagement.HistoryFold
import StockProfiler.PositionManagement.Soundness

/-!
# Two validators of correction lineages

A reconciliation follows the corrections of an entry at a cutoff; the history
determines once from which instant an entry and all it corrects are visible.
Both accept the same entries, and the order in which entries are evaluated never
decides an instant.
-/

namespace StockProfiler.PositionManagement

variable {entryId : String}

/-- An entry that concerns a security has to name one. -/
def LacksSecurityId (entry : PositionLedgerEntry) : Prop :=
  entry.securityId = none ∧ (entry.entryType = .fill ∨ entry.entryType = .corporateAction ∨
    entry.quantityDelta ≠ 0 ∨ entry.costBasisDelta ≠ 0)

/-- The evidence of an entry has no defect of its own. -/
def OwnEvidence (entry : PositionLedgerEntry) : Prop :=
  PositionEvidence.isBlank entry.evidence.source = false ∧
    PositionEvidence.isBlank entry.evidence.sourceVersion = false ∧
    entry.evidence.clockCodes entry.evidence.cutoffAt = [] ∧
    entry.evidence.sourceObservedAt.any (entry.occurredAt ≤ ·) = true

/-- An entry is visible once it occurred and its evidence is cut off. -/
theorem ledgerEntryEvidenceIsVisible_iff {entry : PositionLedgerEntry} {cutoffAt : Instant} :
    ledgerEntryEvidenceIsVisible entry cutoffAt = true ↔ OwnEvidence entry ∧
      ∃ evidenceCutoff, entry.evidence.cutoffAt = some evidenceCutoff ∧
        max entry.occurredAt evidenceCutoff ≤ cutoffAt := by
  have hcodes : entry.evidence.problemCodes cutoffAt false = [] ↔
      PositionEvidence.isBlank entry.evidence.source = false ∧
        PositionEvidence.isBlank entry.evidence.sourceVersion = false ∧
        entry.evidence.clockCodes entry.evidence.cutoffAt = [] ∧
        ∃ evidenceCutoff, entry.evidence.cutoffAt = some evidenceCutoff ∧
          evidenceCutoff ≤ cutoffAt := by
    have hexpiry : entry.evidence.expiryCodes cutoffAt false = [] := by
      unfold PositionEvidence.expiryCodes
      cases entry.evidence.expiresAt <;> rfl
    have hcutoff : entry.evidence.cutoffCodes cutoffAt false = [] ↔
        ∃ evidenceCutoff, entry.evidence.cutoffAt = some evidenceCutoff ∧
          evidenceCutoff ≤ cutoffAt := by
      unfold PositionEvidence.cutoffCodes
      cases entry.evidence.cutoffAt <;> simp
    simp only [PositionEvidence.problemCodes, hexpiry, PositionEvidence.watermarkCodes,
      List.append_eq_nil_iff, hcutoff]
    cases PositionEvidence.isBlank entry.evidence.source <;>
      cases PositionEvidence.isBlank entry.evidence.sourceVersion <;> simp [and_comm]
  simp only [ledgerEntryEvidenceIsVisible, Bool.and_eq_true, decide_eq_true_eq,
    List.isEmpty_iff, hcodes, OwnEvidence]
  constructor
  · rintro ⟨⟨hoccurred, hsource, hversion, hclock, evidenceCutoff, hcutoff, hle⟩, hobserved⟩
    exact ⟨⟨hsource, hversion, hclock, hobserved⟩, evidenceCutoff, hcutoff, max_le hoccurred hle⟩
  · rintro ⟨⟨hsource, hversion, hclock, hobserved⟩, evidenceCutoff, hcutoff, hle⟩
    exact ⟨⟨(le_max_left _ _).trans hle, hsource, hversion, hclock, evidenceCutoff, hcutoff,
      (le_max_right _ _).trans hle⟩, hobserved⟩

/-- An entry that names its security is visible at a cutoff from its own instant on. -/
theorem visible_iff_ownVisibleAfter (entry : AuthoritativeLedgerEntry)
    (hsecurity : ¬LacksSecurityId entry.toPositionLedgerEntry) {cutoffAt : Instant} :
    ledgerEntryEvidenceIsVisible entry.toPositionLedgerEntry cutoffAt = true ↔
      ∃ own, ownVisibleAfter entry = some own ∧ own ≤ cutoffAt := by
  rw [ledgerEntryEvidenceIsVisible_iff]
  constructor
  · rintro ⟨hown, evidenceCutoff, hcutoff, hle⟩
    refine ⟨max entry.occurredAt evidenceCutoff, ?_, hle⟩
    have hvisible : ledgerEntryEvidenceIsVisible entry.toPositionLedgerEntry
        (max entry.occurredAt evidenceCutoff) = true :=
      ledgerEntryEvidenceIsVisible_iff.mpr ⟨hown, evidenceCutoff, hcutoff, le_rfl⟩
    simp only [ownVisibleAfter, hcutoff]
    refine if_neg ?_
    rintro (hhidden | hlacks)
    · rw [hvisible] at hhidden
      exact nomatch hhidden
    · exact hsecurity hlacks
  · rintro ⟨own, hown, hle⟩
    unfold ownVisibleAfter at hown
    split at hown
    · exact nomatch hown
    · rename_i evidenceCutoff hcutoff
      dsimp only at hown
      split at hown
      · exact nomatch hown
      · rename_i hvisible
        cases hown
        have hvisible : ledgerEntryEvidenceIsVisible entry.toPositionLedgerEntry
            (max entry.occurredAt evidenceCutoff) = true := by
          by_contra hhidden
          exact hvisible (.inl (by simpa using hhidden))
        exact ⟨(ledgerEntryEvidenceIsVisible_iff.mp hvisible).1, evidenceCutoff, hcutoff, hle⟩

theorem get?_uniqueEntriesOf (entries : List AuthoritativeLedgerEntry) (entryId : String) :
    (uniqueEntriesOf entries).get? entryId =
      onlyMember (entries.filter (·.entryId = entryId)) := by
  have hvalues := Dict.valuesOf_map (fun entry : AuthoritativeLedgerEntry => entry.entryId) id
    entries entryId
  have hfilter : Dict.valuesOf (entries.map fun entry => (entry.entryId, entry)) entryId =
      entries.filter (·.entryId = entryId) := hvalues.trans (List.map_id _)
  rw [uniqueEntriesOf, Dict.get?_filterMapValues _ (Dict.keys_group_nodup _), Dict.get?_group,
    hfilter]
  split
  · rfl
  · rename_i habsent
    have hnone : entries.filter (·.entryId = entryId) = [] := by
      refine List.filter_eq_nil_iff.mpr fun entry hentry hid => habsent ?_
      exact List.mem_map.mpr ⟨(entryId, entry),
        List.mem_map.mpr ⟨entry, hentry, by rw [of_decide_eq_true hid]⟩, rfl⟩
    rw [hnone]
    rfl

theorem onlyMember_eq_some {α : Type*} {members : List α} {member : α} :
    onlyMember members = some member ↔ members = [member] := by
  rcases members with _ | ⟨first, _ | ⟨second, rest⟩⟩ <;> simp [onlyMember]

/-- Without earlier records, the records of an identity are those of the ledger. -/
theorem entriesOf_entriesById (account : AccountPositionSnapshot) (entryId : String) :
    entriesOf (entriesById account []) entryId =
      account.ledgerEntries.filter (·.entryId = entryId) := by
  have hvalues := Dict.valuesOf_map (fun entry : PositionLedgerEntry => entry.entryId) id
    account.ledgerEntries entryId
  rw [entriesOf, entriesById, removedEntries, List.filter_nil, List.map_nil, List.map_nil,
    List.nil_append, groupById, Dict.getD_group]
  exact hvalues.trans (List.map_id _)

/-- The entries of an account as the history lists them. -/
def AccountPositionSnapshot.listedEntries (account : AccountPositionSnapshot) :
    List AuthoritativeLedgerEntry :=
  account.ledgerEntries.map (·.inAccount account.accountId)

theorem get?_listedEntries {account : AccountPositionSnapshot} {listed : AuthoritativeLedgerEntry} :
    (uniqueEntriesOf account.listedEntries).get? entryId = some listed ↔
      ∃ entry, entriesOf (entriesById account []) entryId = [entry] ∧
        entry.inAccount account.accountId = listed := by
  have hfilter : account.listedEntries.filter (·.entryId = entryId) =
      (entriesOf (entriesById account []) entryId).map (·.inAccount account.accountId) := by
    rw [entriesOf_entriesById, AccountPositionSnapshot.listedEntries, List.filter_map]
    rfl
  rw [get?_uniqueEntriesOf, onlyMember_eq_some, hfilter]
  constructor
  · intro h
    obtain ⟨entry, hentry, rfl⟩ := List.map_eq_singleton_iff.mp h
    exact ⟨entry, hentry, rfl⟩
  · rintro ⟨entry, hentry, rfl⟩
    rw [hentry]
    rfl

section Chains

variable {account : AccountPositionSnapshot} {cutoffAt : Instant}
  {entry target : PositionLedgerEntry}

/-- A record on which a lineage may end or go on: the only one of its identity, and visible. -/
theorem lineageLink_ne_missing
    (h : lineageLink (entriesById account []) cutoffAt entry ≠ .missing) :
    (entriesOf (entriesById account []) entry.entryId).length = 1 ∧
      ledgerEntryEvidenceIsVisible entry cutoffAt = true := by
  unfold lineageLink at h
  by_cases hguard : (entriesOf (entriesById account []) entry.entryId).length ≠ 1 ∨
      ¬ledgerEntryEvidenceIsVisible entry cutoffAt = true
  · rw [if_pos hguard] at h
    exact absurd rfl h
  · obtain ⟨hone, hvisible⟩ := not_or.mp hguard
    exact ⟨not_not.mp hone, not_not.mp hvisible⟩

/-- The link of a record that is the only one of its identity, and visible. -/
theorem lineageLink_eq (hone : (entriesOf (entriesById account []) entry.entryId).length = 1)
    (hvisible : ledgerEntryEvidenceIsVisible entry cutoffAt = true) :
    lineageLink (entriesById account []) cutoffAt entry =
      match entry.correctsEntryId with
      | none => .root
      | some targetId =>
        if targetId = entry.entryId then .missing
        else match entriesOf (entriesById account []) targetId with
          | [target] =>
            if entry.evidence.sourceObservedAt.any (target.occurredAt ≤ ·) then .next target
            else .missing
          | _ => .missing := by
  unfold lineageLink
  exact if_neg (not_or.mpr ⟨not_not.mpr hone, not_not.mpr hvisible⟩)

/-- A lineage ends at a visible record that corrects nothing. -/
theorem lineageLink_eq_root :
    lineageLink (entriesById account []) cutoffAt entry = .root ↔
      (entriesOf (entriesById account []) entry.entryId).length = 1 ∧
        ledgerEntryEvidenceIsVisible entry cutoffAt = true ∧ entry.correctsEntryId = none := by
  constructor
  · intro h
    have hlinked : lineageLink (entriesById account []) cutoffAt entry ≠ .missing := by
      rw [h]
      exact nofun
    obtain ⟨hone, hvisible⟩ := lineageLink_ne_missing hlinked
    refine ⟨hone, hvisible, ?_⟩
    rw [lineageLink_eq hone hvisible] at h
    cases hcorrects : entry.correctsEntryId with
    | none => rfl
    | some targetId =>
      rw [hcorrects] at h
      dsimp only at h
      split at h
      · exact nomatch h
      · split at h
        · split at h <;> exact nomatch h
        · exact nomatch h
  · rintro ⟨hone, hvisible, hcorrects⟩
    rw [lineageLink_eq hone hvisible, hcorrects]

/-- A lineage goes on from a visible record to the only one that it may correct. -/
theorem lineageLink_eq_next :
    lineageLink (entriesById account []) cutoffAt entry = .next target ↔
      (entriesOf (entriesById account []) entry.entryId).length = 1 ∧
        ledgerEntryEvidenceIsVisible entry cutoffAt = true ∧
        ∃ targetId, entry.correctsEntryId = some targetId ∧ targetId ≠ entry.entryId ∧
          entriesOf (entriesById account []) targetId = [target] ∧
          entry.evidence.sourceObservedAt.any (target.occurredAt ≤ ·) = true := by
  constructor
  · intro h
    have hlinked : lineageLink (entriesById account []) cutoffAt entry ≠ .missing := by
      rw [h]
      exact nofun
    obtain ⟨hone, hvisible⟩ := lineageLink_ne_missing hlinked
    refine ⟨hone, hvisible, ?_⟩
    rw [lineageLink_eq hone hvisible] at h
    cases hcorrects : entry.correctsEntryId with
    | none =>
      rw [hcorrects] at h
      exact nomatch h
    | some targetId =>
      rw [hcorrects] at h
      dsimp only at h
      split at h
      · exact nomatch h
      · rename_i hother
        split at h
        · rename_i found hfound
          split at h
          · rename_i hobserved
            cases h
            exact ⟨targetId, rfl, hother, hfound, hobserved⟩
          · exact nomatch h
        · exact nomatch h
  · rintro ⟨hone, hvisible, targetId, hcorrects, hother, htarget, hobserved⟩
    rw [lineageLink_eq hone hvisible, hcorrects]
    dsimp only
    rw [if_neg hother, htarget]
    exact if_pos hobserved

theorem mem_of_entriesOf (h : entry ∈ entriesOf (entriesById account []) entryId) :
    entry ∈ account.ledgerEntries ∧ entry.entryId = entryId := by
  rw [entriesOf_entriesById, List.mem_filter, decide_eq_true_eq] at h
  exact h

theorem entriesOf_eq_singleton (hentry : entry ∈ account.ledgerEntries)
    (hone : (entriesOf (entriesById account []) entry.entryId).length = 1) :
    entriesOf (entriesById account []) entry.entryId = [entry] := by
  obtain ⟨found, hfound⟩ := List.length_eq_one_iff.mp hone
  have hmem : entry ∈ entriesOf (entriesById account []) entry.entryId := by
    rw [entriesOf_entriesById]
    exact List.mem_filter.mpr ⟨hentry, decide_eq_true rfl⟩
  rw [hfound] at hmem ⊢
  rw [List.mem_singleton.mp hmem]

theorem correctionAdmitted_of_target {targetId : String} (hother : targetId ≠ entry.entryId)
    (htarget : entriesOf (entriesById account []) targetId = [target])
    (hobserved : entry.evidence.sourceObservedAt.any (target.occurredAt ≤ ·) = true) :
    correctionAdmitted (uniqueEntriesOf account.listedEntries)
      (entry.inAccount account.accountId) targetId = true := by
  have hlisted := get?_listedEntries.mpr ⟨target, htarget, rfl⟩
  rw [correctionAdmitted, hlisted, Option.any_some]
  exact decide_eq_true ⟨hother, hobserved⟩

variable (hsecurity : ∀ entry ∈ account.ledgerEntries, ¬LacksSecurityId entry)
include hsecurity

/-- A record whose lineage ends is visible, with all it corrects, at the cutoff. -/
theorem visibleAfter_of_lineage {root : PositionLedgerEntry}
    (hreach : Relation.ReflTransGen (Linked (lineageLink (entriesById account []) cutoffAt))
      entry root) (hroot : lineageLink (entriesById account []) cutoffAt root = .root)
    (hentry : entry ∈ account.ledgerEntries) :
    ∃ visible, VisibleAfter (uniqueEntriesOf account.listedEntries) entry.entryId visible ∧
      visible ≤ cutoffAt := by
  induction hreach using Relation.ReflTransGen.head_induction_on with
  | refl =>
    obtain ⟨hone, hvisible, horiginal⟩ := lineageLink_eq_root.mp hroot
    obtain ⟨own, hown, hle⟩ := (visible_iff_ownVisibleAfter
      (root.inAccount account.accountId) (hsecurity root hentry)).mp hvisible
    have hlisted := get?_listedEntries.mpr ⟨root, entriesOf_eq_singleton hentry hone, rfl⟩
    exact ⟨own, .original hlisted hown horiginal, hle⟩
  | @head entry next hlink _ ih =>
    obtain ⟨hone, hvisible, targetId, hcorrects, hother, htarget, hobserved⟩ :=
      lineageLink_eq_next.mp hlink
    obtain ⟨hmem, rfl⟩ := mem_of_entriesOf (htarget ▸ List.mem_singleton_self next)
    obtain ⟨own, hown, hle⟩ := (visible_iff_ownVisibleAfter
      (entry.inAccount account.accountId) (hsecurity entry hentry)).mp hvisible
    obtain ⟨visible, hnext, hvisibleLe⟩ := ih hmem
    have hlisted := get?_listedEntries.mpr ⟨entry, entriesOf_eq_singleton hentry hone, rfl⟩
    have hadmitted := correctionAdmitted_of_target hother htarget hobserved
    exact ⟨max own visible, .correction hlisted hown hcorrects hadmitted hnext,
      max_le hle hvisibleLe⟩

/-- A record that is visible at the cutoff has a lineage that ends. -/
theorem lineage_of_visibleAfter {visible : Instant}
    (h : VisibleAfter (uniqueEntriesOf account.listedEntries) entryId visible)
    (hle : visible ≤ cutoffAt) {entry : PositionLedgerEntry}
    (hentry : entriesOf (entriesById account []) entryId = [entry]) :
    ∃ root, Relation.ReflTransGen
        (Linked (lineageLink (entriesById account []) cutoffAt)) entry root ∧
      lineageLink (entriesById account []) cutoffAt root = .root := by
  induction h generalizing entry with
  | @original entryId listed own hlisted hown horiginal =>
    obtain ⟨found, hfound, rfl⟩ := get?_listedEntries.mp hlisted
    obtain rfl := List.singleton_inj.mp (hfound.symm.trans hentry)
    obtain ⟨hmem, rfl⟩ := mem_of_entriesOf (hfound ▸ List.mem_singleton_self found)
    have hvisible := (visible_iff_ownVisibleAfter
      (found.inAccount account.accountId) (hsecurity found hmem)).mpr ⟨own, hown, hle⟩
    refine ⟨found, .refl, lineageLink_eq_root.mpr ⟨?_, hvisible, horiginal⟩⟩
    rw [hfound]
    rfl
  | @correction entryId targetId listed own target hlisted hown hcorrects hadmitted htarget ih =>
    obtain ⟨found, hfound, rfl⟩ := get?_listedEntries.mp hlisted
    obtain rfl := List.singleton_inj.mp (hfound.symm.trans hentry)
    obtain ⟨hmem, rfl⟩ := mem_of_entriesOf (hfound ▸ List.mem_singleton_self found)
    have hvisible := (visible_iff_ownVisibleAfter
      (found.inAccount account.accountId) (hsecurity found hmem)).mpr
        ⟨own, hown, (le_max_left _ _).trans hle⟩
    unfold correctionAdmitted at hadmitted
    cases hlistedTarget : (uniqueEntriesOf account.listedEntries).get? targetId with
    | none =>
      rw [hlistedTarget] at hadmitted
      exact nomatch hadmitted
    | some listed =>
    rw [hlistedTarget, Option.any_some] at hadmitted
    obtain ⟨hother, hobserved⟩ := of_decide_eq_true hadmitted
    obtain ⟨next, hnext, rfl⟩ := get?_listedEntries.mp hlistedTarget
    obtain ⟨root, hreach, hroot⟩ := ih ((le_max_right _ _).trans hle) hnext
    refine ⟨root, .head ?_ hreach, hroot⟩
    refine lineageLink_eq_next.mpr ⟨?_, hvisible, targetId, hcorrects, hother, hnext, hobserved⟩
    rw [hfound]
    rfl

/-- The lineage of a record is valid when the record is visible, with all it corrects, at the
cutoff. -/
theorem correctionLineageIsInvalid_eq_false_iff (hentry : entry ∈ account.ledgerEntries) :
    correctionLineageIsInvalid entry (entriesById account []) cutoffAt = false ↔
      ∃ visible, VisibleAfter (uniqueEntriesOf account.listedEntries) entry.entryId visible ∧
        visible ≤ cutoffAt := by
  have hvalid : correctionLineageIsInvalid entry (entriesById account []) cutoffAt = false ↔
      ∃ root, follow (·.entryId) (lineageLink (entriesById account []) cutoffAt)
        ((lineageIds (entriesById account []) entry).length + 1) [] entry = .root root := by
    unfold correctionLineageIsInvalid
    cases follow (·.entryId) (lineageLink (entriesById account []) cutoffAt)
      ((lineageIds (entriesById account []) entry).length + 1) [] entry <;> simp
  rw [hvalid]
  constructor
  · rintro ⟨root, hroot⟩
    obtain ⟨hreach, hroot⟩ := follow_eq_root hroot
    exact visibleAfter_of_lineage hsecurity hreach hroot hentry
  · rintro ⟨visible, hvisible, hle⟩
    obtain ⟨found, own, hlisted, -⟩ := visibleAfter_iff.mp hvisible
    obtain ⟨listed, hlistedEntry, -⟩ := get?_listedEntries.mp hlisted
    have honly : entriesOf (entriesById account []) entry.entryId = [entry] :=
      entriesOf_eq_singleton hentry (by rw [hlistedEntry]; rfl)
    obtain ⟨root, hreach, hroot⟩ := lineage_of_visibleAfter hsecurity hvisible hle honly
    have hreached : ∀ x, Relation.ReflTransGen
        (Linked (lineageLink (entriesById account []) cutoffAt)) entry x →
          entriesOf (entriesById account []) x.entryId = [x] := by
      intro x hx
      rcases Relation.ReflTransGen.cases_tail hx with rfl | ⟨y, -, hyx⟩
      · exact honly
      · obtain ⟨-, -, targetId, -, -, htarget, -⟩ := lineageLink_eq_next.mp hyx
        obtain ⟨-, rfl⟩ := mem_of_entriesOf (htarget ▸ List.mem_singleton_self x)
        exact htarget
    refine ⟨root, follow_eq_root_of_reaches (lineageIds (entriesById account []) entry) ?_
      (List.mem_cons_self ..) (Nat.lt_succ_self _) ?_ hreach hroot⟩
    · intro a b hab
      obtain ⟨-, -, targetId, -, -, htarget, -⟩ := lineageLink_eq_next.mp hab
      refine List.mem_cons_of_mem _ (List.mem_map_of_mem (List.mem_flatMap.mpr ?_))
      unfold entriesOf at htarget
      cases hgroup : (entriesById account []).get? targetId with
      | none =>
        rw [hgroup] at htarget
        exact nomatch htarget
      | some group =>
        rw [hgroup, Option.getD_some] at htarget
        exact ⟨(targetId, group), Dict.mem_of_get? hgroup, htarget ▸ List.mem_singleton_self b⟩
    · intro x y hx hy hid
      have hxy := (hreached x hx).symm.trans (hid ▸ hreached y hy)
      exact List.singleton_inj.mp hxy

end Chains

section Order

variable {uniqueEntries : Dict String AuthoritativeLedgerEntry}

/-- More steps than there are entries left change nothing. -/
theorem visibleAfter_succ {steps : ℕ} {lineage : List String} {memo : VisibilityMemo}
    (hlineage : Lineage uniqueEntries lineage entryId)
    (hsteps : uniqueEntries.length < steps + lineage.length) :
    visibleAfter uniqueEntries (steps + 1) lineage memo entryId =
      visibleAfter uniqueEntries steps lineage memo entryId := by
  induction steps generalizing lineage memo entryId with
  | zero =>
    have := hlineage.length_le
    omega
  | succ steps ih =>
    rw [visibleAfter, visibleAfter]
    cases memo.get? entryId with
    | some known => rfl
    | none =>
      dsimp only
      by_cases hmem : entryId ∈ lineage
      · rw [if_pos hmem, if_pos hmem]
      · rw [if_neg hmem, if_neg hmem]
        cases hentry : uniqueEntries.get? entryId with
        | none => rfl
        | some entry =>
          dsimp only
          cases ownVisibleAfter entry with
          | none => rfl
          | some own =>
            dsimp only
            cases hcorrects : entry.correctsEntryId with
            | none => rfl
            | some targetId =>
              have hpush := hlineage.push hmem ⟨entry, hentry, hcorrects⟩
              dsimp only
              rw [ih hpush (by rw [List.length_cons]; omega)]

/-- One step more than there are entries is always enough. -/
theorem visibleAfter_steps (memo : VisibilityMemo) (entryId : String) (extra : ℕ) :
    visibleAfter uniqueEntries (uniqueEntries.length + 1 + extra) [] memo entryId =
      visibleAfter uniqueEntries (uniqueEntries.length + 1) [] memo entryId := by
  induction extra with
  | zero => rfl
  | succ extra ih =>
    rw [← ih]
    have hsteps : uniqueEntries.length <
        uniqueEntries.length + 1 + extra + ([] : List String).length := by
      rw [List.length_nil]
      omega
    exact visibleAfter_succ (lineage_nil entryId) hsteps

/-- The memo after the entries were evaluated in an order. -/
def evaluatedIn (uniqueEntries : Dict String AuthoritativeLedgerEntry) (order : List String) :
    VisibilityMemo :=
  order.foldl (fun memo entryId =>
    (visibleAfter uniqueEntries (uniqueEntries.length + 1) [] memo entryId).2) []

theorem get?_evaluatedIn {order : List String} (h : entryId ∈ order)
    (uniqueEntries : Dict String AuthoritativeLedgerEntry) :
    ∃ answer, (evaluatedIn uniqueEntries order).get? entryId = some answer ∧
      Answers uniqueEntries entryId answer := by
  have hempty : SoundMemo uniqueEntries [] := fun _ _ h => nomatch h
  obtain ⟨hsound, -, hknown⟩ := foldl_visibleAfter hempty order
  obtain ⟨answer, hanswer⟩ := Option.isSome_iff_exists.mp (hknown entryId h)
  exact ⟨answer, hanswer, hsound entryId answer hanswer⟩

theorem answers_unique {answer answer' : Option Instant} (h : Answers uniqueEntries entryId answer)
    (h' : Answers uniqueEntries entryId answer') : answer = answer' := by
  ext visible
  exact (h visible).trans (h' visible).symm

/-- Instants of visibility depend on what is looked up alone. -/
theorem VisibleAfter.congr {other : Dict String AuthoritativeLedgerEntry}
    (hsame : ∀ entryId, uniqueEntries.get? entryId = other.get? entryId) {visible : Instant}
    (h : VisibleAfter uniqueEntries entryId visible) : VisibleAfter other entryId visible := by
  induction h with
  | original hentry hown horiginal => exact .original (hsame _ ▸ hentry) hown horiginal
  | correction hentry hown hcorrects hadmitted _ ih =>
    refine .correction (hsame _ ▸ hentry) hown hcorrects ?_ ih
    rw [correctionAdmitted, ← hsame]
    exact hadmitted

end Order

/-- The order of the entries does not matter. -/
theorem visibleAfterByEntryId_perm (accountId : String)
    {entries entries' : List AuthoritativeLedgerEntry} (hperm : entries.Perm entries')
    {entry : AuthoritativeLedgerEntry} (hentry : entry ∈ entries) :
    (LedgerSnapshot.fromEntries accountId entries).visibleAfterByEntryId.get? entry.entryId =
      (LedgerSnapshot.fromEntries accountId entries').visibleAfterByEntryId.get?
        entry.entryId := by
  have hkeys : ∀ {listed : List AuthoritativeLedgerEntry}, entry ∈ listed →
      entry.entryId ∈ (Dict.group (listed.map fun entry => (entry.entryId, entry))).keys :=
    fun hmem => Dict.mem_keys_group.mpr (List.mem_map.mpr
      ⟨(entry.entryId, entry), List.mem_map.mpr ⟨entry, hmem, rfl⟩, rfl⟩)
  have hsame : ∀ entryId, (uniqueEntriesOf entries').get? entryId =
      (uniqueEntriesOf entries).get? entryId := by
    intro entryId
    ext listed
    rw [get?_uniqueEntriesOf, get?_uniqueEntriesOf, onlyMember_eq_some, onlyMember_eq_some]
    have hfilter := hperm.filter (·.entryId = entryId)
    constructor
    · intro h
      exact List.perm_singleton.mp (h ▸ hfilter)
    · intro h
      exact List.perm_singleton.mp (h ▸ hfilter.symm)
  have hlisted := get?_evaluatedIn (hkeys hentry)
  have hlisted' := get?_evaluatedIn (hkeys (hperm.mem_iff.mp hentry))
  obtain ⟨answer, hanswer, hright⟩ := hlisted (uniqueEntriesOf entries)
  obtain ⟨answer', hanswer', hright'⟩ := hlisted' (uniqueEntriesOf entries')
  have heq : answer = answer' := by
    ext visible
    rw [hright visible, hright' visible]
    exact ⟨.congr fun entryId => (hsame entryId).symm, .congr hsame⟩
  exact hanswer.trans (heq ▸ hanswer'.symm)

/-- The instant that the history resolver keeps for a record of an account. -/
def AccountPositionSnapshot.visibleAfter (account : AccountPositionSnapshot) (entryId : String) :
    Option Instant :=
  ((LedgerSnapshot.fromEntries account.accountId
    account.listedEntries).visibleAfterByEntryId.get? entryId).join

/-- The two validators accept the same records at every cutoff, on every graph of corrections,
and neither the order of evaluation nor further steps change an instant. -/
theorem lineage_validators_agree (account : AccountPositionSnapshot)
    (hsecurity : ∀ entry ∈ account.ledgerEntries, ¬LacksSecurityId entry) :
    (∀ cutoffAt, ∀ entry ∈ account.ledgerEntries,
      (correctionLineageIsInvalid entry (entriesById account (priorEntries [])) cutoffAt = false ↔
        ∃ visible, account.visibleAfter entry.entryId = some visible ∧ visible ≤ cutoffAt)) ∧
    (∀ uniqueEntries memo entryId extra,
      visibleAfter uniqueEntries (uniqueEntries.length + 1 + extra) [] memo entryId =
        visibleAfter uniqueEntries (uniqueEntries.length + 1) [] memo entryId) ∧
    (∀ uniqueEntries order order' entryId, entryId ∈ order → entryId ∈ order' →
      (evaluatedIn uniqueEntries order).get? entryId =
        (evaluatedIn uniqueEntries order').get? entryId) ∧
    ∀ accountId entries entries', entries.Perm entries' → ∀ entry ∈ entries,
      (LedgerSnapshot.fromEntries accountId entries).visibleAfterByEntryId.get? entry.entryId =
        (LedgerSnapshot.fromEntries accountId entries').visibleAfterByEntryId.get?
          entry.entryId := by
  refine ⟨fun cutoffAt entry hentry => ?_, fun _ => visibleAfter_steps, ?_, ?_⟩
  · have hvisible : ∀ visible, account.visibleAfter entry.entryId = some visible ↔
        VisibleAfter (uniqueEntriesOf account.listedEntries) entry.entryId visible := by
      intro visible
      have hlisted : entry.inAccount account.accountId ∈ account.listedEntries :=
        List.mem_map_of_mem hentry
      have hkept : account.visibleAfter entry.entryId =
          listedVisibleAfter account.listedEntries entry.entryId :=
        visibleAfter_fromEntries hlisted
      rw [hkept]
      constructor
      · exact visibleAfter_of_plain
      · intro h
        refine plain_of_visibleAfter h (lineage_nil _) ?_
        rw [List.length_nil]
        omega
    simp only [hvisible]
    exact correctionLineageIsInvalid_eq_false_iff hsecurity hentry
  · intro uniqueEntries order order' entryId h h'
    obtain ⟨answer, hanswer, hright⟩ := get?_evaluatedIn h uniqueEntries
    obtain ⟨answer', hanswer', hright'⟩ := get?_evaluatedIn h' uniqueEntries
    rw [hanswer, hanswer', answers_unique hright hright']
  · intro accountId entries entries' hperm entry hentry
    exact visibleAfterByEntryId_perm accountId hperm hentry

namespace SampleLineages

def correcting (entryId targetId : String) : PositionLedgerEntry :=
  { Sample.correction with
    entryId := entryId
    correctsEntryId := some targetId
    correctionReason_isSome := rfl }

/-- A purchase with its correction, and two entries that correct each other. -/
def account : AccountPositionSnapshot :=
  { Sample.account with
    ledgerEntries := [Sample.purchase, Sample.correction, correcting "fill-3" "fill-4",
      correcting "fill-4" "fill-3"] }

theorem account_spec : ∀ entry ∈ account.ledgerEntries, ¬LacksSecurityId entry := by
  have hnamed : ∀ entry ∈ account.ledgerEntries, entry.securityId ≠ none := by decide
  exact fun entry hentry hlacks => hnamed entry hentry hlacks.1

end SampleLineages

/-- The validators agree on a correction in a ledger that also has a cycle of corrections. -/
theorem sample_validators_agree :
    correctionLineageIsInvalid Sample.correction
        (entriesById SampleLineages.account (priorEntries [])) 100 = false ↔
      ∃ visible, SampleLineages.account.visibleAfter Sample.correction.entryId = some visible ∧
        visible ≤ 100 :=
  (lineage_validators_agree SampleLineages.account SampleLineages.account_spec).1 100
    Sample.correction (by decide)

/-- At the sample's cutoff the correction counts, and the cycle does not. -/
example : SampleLineages.account.ledgerEntries.map (fun entry =>
    correctionLineageIsInvalid entry (entriesById SampleLineages.account []) 100) =
      [false, false, true, true] := by
  decide +kernel

end StockProfiler.PositionManagement
