import StockProfiler.PositionManagement.History

/-!
# The resolvers are plain folds

The cutoff-specific canons of a resolver, and the memo in which the visibility
of entries is kept, never decide an answer. A reference without any cache folds
over the listed ledgers in order.
-/

namespace StockProfiler.PositionManagement

section Visibility

variable {lineage : List String} {entryId : String} {visible : Instant}
  (uniqueEntries : Dict String AuthoritativeLedgerEntry)

/-- The instant from which an entry is visible together with what it corrects. -/
def plainVisibleAfter : ℕ → String → Option Instant
  | 0, _ => none
  | steps + 1, entryId =>
    (uniqueEntries.get? entryId).bind fun entry =>
      (ownVisibleAfter entry).bind fun own =>
        match entry.correctsEntryId with
        | none => some own
        | some targetId =>
          if correctionAdmitted uniqueEntries entry targetId then
            (plainVisibleAfter steps targetId).map (max own)
          else none

/-- One entry corrects another. -/
def CorrectsIn (entryId targetId : String) : Prop :=
  ∃ entry, uniqueEntries.get? entryId = some entry ∧ entry.correctsEntryId = some targetId

/-- An entry is visible from an instant on, with everything it corrects. -/
inductive VisibleAfter : String → Instant → Prop where
  | original {entryId : String} {entry : AuthoritativeLedgerEntry} {own : Instant}
      (hentry : uniqueEntries.get? entryId = some entry) (hown : ownVisibleAfter entry = some own)
      (horiginal : entry.correctsEntryId = none) : VisibleAfter entryId own
  | correction {entryId targetId : String} {entry : AuthoritativeLedgerEntry}
      {own target : Instant} (hentry : uniqueEntries.get? entryId = some entry)
      (hown : ownVisibleAfter entry = some own) (hcorrects : entry.correctsEntryId = some targetId)
      (hadmitted : correctionAdmitted uniqueEntries entry targetId = true)
      (htarget : VisibleAfter targetId target) : VisibleAfter entryId (max own target)

/-- The identities that a chain of corrections has passed on its way to an entry. -/
structure Lineage (lineage : List String) (entryId : String) : Prop where
  nodup : lineage.Nodup
  known : lineage ⊆ uniqueEntries.keys
  leads : ∀ passed ∈ lineage, Relation.TransGen (CorrectsIn uniqueEntries) passed entryId

variable {uniqueEntries}

theorem lineage_nil (entryId : String) : Lineage uniqueEntries [] entryId :=
  ⟨List.nodup_nil, List.nil_subset _, nofun⟩

/-- A chain of corrections goes on to an identity that it has not passed. -/
theorem Lineage.push {targetId : String} (h : Lineage uniqueEntries lineage entryId)
    (hnew : entryId ∉ lineage) (hcorrects : CorrectsIn uniqueEntries entryId targetId) :
    Lineage uniqueEntries (entryId :: lineage) targetId := by
  obtain ⟨entry, hentry, -⟩ := id hcorrects
  have hknown : entryId ∈ uniqueEntries.keys :=
    Dict.mem_keys_iff.mpr (hentry ▸ Option.isSome_some)
  refine ⟨List.nodup_cons.mpr ⟨hnew, h.nodup⟩, List.cons_subset.mpr ⟨hknown, h.known⟩,
    fun passed hpassed => ?_⟩
  rcases List.mem_cons.mp hpassed with rfl | hpassed
  · exact .single hcorrects
  · exact (h.leads passed hpassed).tail hcorrects

theorem Lineage.length_le (h : Lineage uniqueEntries lineage entryId) :
    lineage.length ≤ uniqueEntries.length := by
  have hle := (List.subperm_of_subset h.nodup h.known).length_le
  rwa [Dict.keys, List.length_map] at hle

theorem corrects_unique {a b c : String} (hb : CorrectsIn uniqueEntries a b)
    (hc : CorrectsIn uniqueEntries a c) : b = c := by
  obtain ⟨entry, hentry, hb⟩ := hb
  obtain ⟨entry', hentry', hc⟩ := hc
  obtain rfl := Option.some.inj (hentry.symm.trans hentry')
  exact Option.some.inj (hb.symm.trans hc)

theorem VisibleAfter.acyclic (h : VisibleAfter uniqueEntries entryId visible) :
    ¬Relation.TransGen (CorrectsIn uniqueEntries) entryId entryId := by
  induction h with
  | original hentry _ horiginal =>
    intro hcycle
    obtain ⟨targetId, ⟨entry, hentry', hcorrects⟩, -⟩ := Relation.TransGen.head'_iff.mp hcycle
    obtain rfl := Option.some.inj (hentry.symm.trans hentry')
    exact nomatch horiginal.symm.trans hcorrects
  | @correction entryId targetId entry _ _ hentry _ hcorrects _ _ ih =>
    intro hcycle
    have hstep : CorrectsIn uniqueEntries entryId targetId := ⟨entry, hentry, hcorrects⟩
    obtain ⟨next, hnext, hback⟩ := Relation.TransGen.head'_iff.mp hcycle
    obtain rfl := corrects_unique hnext hstep
    exact ih (Relation.TransGen.tail' hback hstep)

theorem VisibleAfter.not_mem (h : VisibleAfter uniqueEntries entryId visible)
    (hlineage : Lineage uniqueEntries lineage entryId) : entryId ∉ lineage :=
  fun hmem => h.acyclic (hlineage.leads entryId hmem)

/-- The plain recursion only finds instants of visibility. -/
theorem visibleAfter_of_plain {steps : ℕ}
    (h : plainVisibleAfter uniqueEntries steps entryId = some visible) :
    VisibleAfter uniqueEntries entryId visible := by
  induction steps generalizing entryId visible with
  | zero => exact nomatch h
  | succ steps ih =>
    obtain ⟨entry, hentry, h⟩ := Option.bind_eq_some_iff.mp h
    obtain ⟨own, hown, h⟩ := Option.bind_eq_some_iff.mp h
    cases hcorrects : entry.correctsEntryId with
    | none =>
      simp only [hcorrects, Option.some.injEq] at h
      exact h ▸ .original hentry hown hcorrects
    | some targetId =>
      simp only [hcorrects, Option.ite_none_right_eq_some] at h
      obtain ⟨hadmitted, h⟩ := h
      obtain ⟨target, htarget, rfl⟩ := Option.map_eq_some_iff.mp h
      exact .correction hentry hown hcorrects hadmitted (ih htarget)

/-- With a step for every entry that was not passed, the plain recursion finds every instant. -/
theorem plain_of_visibleAfter (h : VisibleAfter uniqueEntries entryId visible)
    (hlineage : Lineage uniqueEntries lineage entryId) {steps : ℕ}
    (hsteps : uniqueEntries.length < steps + lineage.length) :
    plainVisibleAfter uniqueEntries steps entryId = some visible := by
  induction h generalizing lineage steps with
  | original hentry hown horiginal =>
    obtain _ | steps := steps
    · have := hlineage.length_le
      omega
    · simp only [plainVisibleAfter, hentry, hown, horiginal, Option.bind_some]
  | @correction entryId targetId entry own target hentry hown hcorrects hadmitted htarget ih =>
    obtain _ | steps := steps
    · have := hlineage.length_le
      omega
    · have hvisible : VisibleAfter uniqueEntries entryId _ :=
        .correction hentry hown hcorrects hadmitted htarget
      have hpush := hlineage.push (hvisible.not_mem hlineage) ⟨entry, hentry, hcorrects⟩
      have hrest := @ih _ hpush steps (by rw [List.length_cons]; omega)
      simp only [plainVisibleAfter, hentry, hown, hcorrects, Option.bind_some, hadmitted, if_true,
        hrest, Option.map_some]

variable (uniqueEntries)

/-- An answer is the instant of visibility, if there is one. -/
def Answers (entryId : String) (answer : Option Instant) : Prop :=
  ∀ visible, answer = some visible ↔ VisibleAfter uniqueEntries entryId visible

/-- Every kept answer is right. -/
def SoundMemo (memo : VisibilityMemo) : Prop :=
  ∀ entryId answer, memo.get? entryId = some answer → Answers uniqueEntries entryId answer

/-- What following a chain from an entry guarantees of its answer and of the memo. -/
structure Answered (lineage : List String) (memo : VisibilityMemo) (entryId : String)
    (result : Option Instant × VisibilityMemo) : Prop where
  answers : Answers uniqueEntries entryId result.1
  sound : SoundMemo uniqueEntries result.2
  keeps : ∀ key, (memo.get? key).isSome → (result.2.get? key).isSome
  known : entryId ∉ lineage → (result.2.get? entryId).isSome

variable {uniqueEntries}

theorem visibleAfter_iff :
    VisibleAfter uniqueEntries entryId visible ↔
      ∃ entry own, uniqueEntries.get? entryId = some entry ∧ ownVisibleAfter entry = some own ∧
        (entry.correctsEntryId = none ∧ own = visible ∨
          ∃ targetId target, entry.correctsEntryId = some targetId ∧
            correctionAdmitted uniqueEntries entry targetId = true ∧
            VisibleAfter uniqueEntries targetId target ∧ max own target = visible) := by
  constructor
  · intro h
    cases h with
    | original hentry hown horiginal => exact ⟨_, _, hentry, hown, .inl ⟨horiginal, rfl⟩⟩
    | correction hentry hown hcorrects hadmitted htarget =>
      exact ⟨_, _, hentry, hown, .inr ⟨_, _, hcorrects, hadmitted, htarget, rfl⟩⟩
  · rintro ⟨entry, own, hentry, hown, ⟨horiginal, rfl⟩ | ⟨_, _, hcorrects, hadmitted, htarget, rfl⟩⟩
    · exact .original hentry hown horiginal
    · exact .correction hentry hown hcorrects hadmitted htarget

/-- No instant is the right answer for an entry that is never visible. -/
theorem answers_none (h : ∀ visible, ¬VisibleAfter uniqueEntries entryId visible) :
    Answers uniqueEntries entryId none :=
  fun visible => ⟨nofun, fun hvisible => absurd hvisible (h visible)⟩

theorem answered_set {memo start : VisibilityMemo} {answer : Option Instant}
    (hanswer : Answers uniqueEntries entryId answer) (hmemo : SoundMemo uniqueEntries memo)
    (hkeeps : ∀ key, (start.get? key).isSome → (memo.get? key).isSome) :
    Answered uniqueEntries lineage start entryId (answer, memo.set entryId answer) := by
  constructor
  case answers => exact hanswer
  case sound =>
    intro key kept hkept
    rw [Dict.get?_set] at hkept
    split at hkept
    · rename_i hkey
      exact Option.some.inj hkept ▸ hkey ▸ hanswer
    · exact hmemo key kept hkept
  case keeps =>
    intro key hkey
    rw [Dict.get?_set]
    split
    · exact Option.isSome_some
    · exact hkeeps key hkey
  case known =>
    intro _
    rw [Dict.get?_set, if_pos rfl]
    exact Option.isSome_some

/-- With a step for every entry that was not passed, the answer is right and so is the memo. -/
theorem visibleAfter_answered {steps : ℕ} {memo : VisibilityMemo}
    (hmemo : SoundMemo uniqueEntries memo) (hlineage : Lineage uniqueEntries lineage entryId)
    (hsteps : uniqueEntries.length < steps + lineage.length) :
    Answered uniqueEntries lineage memo entryId
      (visibleAfter uniqueEntries steps lineage memo entryId) := by
  induction steps generalizing lineage memo entryId with
  | zero =>
    have := hlineage.length_le
    omega
  | succ steps ih =>
    have hnever : (∀ visible, ¬VisibleAfter uniqueEntries entryId visible) →
        Answered uniqueEntries lineage memo entryId (none, memo.set entryId none) := fun h =>
      answered_set (answers_none h) hmemo fun _ hkey => hkey
    rw [visibleAfter]
    cases hknown : memo.get? entryId with
    | some known =>
      exact ⟨hmemo entryId known hknown, hmemo, fun _ hkey => hkey, fun _ => by simp [hknown]⟩
    | none =>
      dsimp only
      split
      · rename_i hmem
        refine ⟨answers_none fun visible hvisible => ?_, hmemo, fun _ hkey => hkey,
          fun hnew => absurd hmem hnew⟩
        exact hvisible.not_mem hlineage hmem
      · rename_i hnew
        cases hentry : uniqueEntries.get? entryId with
        | none => exact hnever fun visible => by rw [visibleAfter_iff]; simp [hentry]
        | some entry =>
          dsimp only
          cases hown : ownVisibleAfter entry with
          | none => exact hnever fun visible => by rw [visibleAfter_iff]; simp [hentry, hown]
          | some own =>
            dsimp only
            cases hcorrects : entry.correctsEntryId with
            | none =>
              refine answered_set (fun visible => ?_) hmemo fun _ hkey => hkey
              rw [visibleAfter_iff]
              simp [hentry, hown, hcorrects]
            | some targetId =>
              dsimp only
              split
              · rename_i hadmitted
                have hpush := hlineage.push hnew ⟨entry, hentry, hcorrects⟩
                have htarget := ih hmemo hpush (by rw [List.length_cons]; omega)
                refine answered_set (fun visible => ?_) htarget.sound htarget.keeps
                rw [Option.map_eq_some_iff, visibleAfter_iff]
                simp [hentry, hown, hcorrects, hadmitted, htarget.answers _]
              · rename_i hadmitted
                exact hnever fun visible => by
                  rw [visibleAfter_iff]
                  simp [hentry, hown, hcorrects, hadmitted]

theorem foldl_visibleAfter {memo : VisibilityMemo} (hmemo : SoundMemo uniqueEntries memo)
    (entryIds : List String) : let last := entryIds.foldl (fun memo entryId =>
      (visibleAfter uniqueEntries (uniqueEntries.length + 1) [] memo entryId).2) memo
    SoundMemo uniqueEntries last ∧ (∀ key, (memo.get? key).isSome → (last.get? key).isSome) ∧
      ∀ entryId ∈ entryIds, (last.get? entryId).isSome := by
  induction entryIds generalizing memo with
  | nil => exact ⟨hmemo, fun _ h => h, nofun⟩
  | cons entryId entryIds ih =>
    have hsteps : uniqueEntries.length < uniqueEntries.length + 1 + ([] : List String).length := by
      rw [List.length_nil]
      omega
    have hstep := visibleAfter_answered hmemo (lineage_nil entryId) hsteps
    obtain ⟨hsound, hkeeps, hknown⟩ := ih hstep.sound
    refine ⟨hsound, fun key hkey => hkeeps key (hstep.keeps key hkey), fun other hother => ?_⟩
    rcases List.mem_cons.mp hother with rfl | hother
    · exact hkeeps _ (hstep.known List.not_mem_nil)
    · exact hknown other hother

end Visibility

/-- The entries of a list whose identity occurs once. -/
def uniqueEntriesOf (entries : List AuthoritativeLedgerEntry) :
    Dict String AuthoritativeLedgerEntry :=
  (Dict.group (entries.map fun entry => (entry.entryId, entry))).filterMapValues onlyMember

/-- The instant from which a listed ledger shows an identity, without a memo. -/
def listedVisibleAfter (entries : List AuthoritativeLedgerEntry) (entryId : String) :
    Option Instant :=
  plainVisibleAfter (uniqueEntriesOf entries) ((uniqueEntriesOf entries).length + 1) entryId

/-- The indexed visibility of an entry is the plain one. -/
theorem visibleAfter_fromEntries {accountId : String} {entries : List AuthoritativeLedgerEntry}
    {entry : AuthoritativeLedgerEntry} (hentry : entry ∈ entries) :
    ((LedgerSnapshot.fromEntries accountId entries).visibleAfterByEntryId.get? entry.entryId).join =
      listedVisibleAfter entries entry.entryId := by
  have hkey : entry.entryId ∈
      (Dict.group (entries.map fun entry => (entry.entryId, entry))).keys :=
    Dict.mem_keys_group.mpr
      (List.mem_map.mpr ⟨(entry.entryId, entry), List.mem_map.mpr ⟨entry, hentry, rfl⟩, rfl⟩)
  have hempty : SoundMemo (uniqueEntriesOf entries) [] := fun _ _ h => nomatch h
  obtain ⟨hsound, -, hknown⟩ := foldl_visibleAfter hempty
    (Dict.group (entries.map fun entry => (entry.entryId, entry))).keys
  obtain ⟨answer, hanswer⟩ := Option.isSome_iff_exists.mp (hknown entry.entryId hkey)
  have hright := hsound entry.entryId answer hanswer
  have hmemo : (LedgerSnapshot.fromEntries accountId entries).visibleAfterByEntryId.get?
      entry.entryId = some answer := hanswer
  rw [hmemo, Option.join_some]
  ext visible
  constructor
  · intro h
    exact plain_of_visibleAfter ((hright visible).mp h) (lineage_nil _) (by
      rw [List.length_nil]
      omega)
  · intro h
    exact (hright visible).mpr (visibleAfter_of_plain h)

/-- The entries of one account that one outcome lists, with the outcome's cutoff. -/
structure ListedLedger where
  cutoffAt : Instant
  accountId : String
  entries : List AuthoritativeLedgerEntry

/-- The indexed snapshot of a listed ledger. -/
def ListedLedger.snapshot (listed : ListedLedger) : LedgerSnapshot :=
  .fromEntries listed.accountId listed.entries

/-- The entries of a listed ledger that are visible by a cutoff, under their keys. -/
def ListedLedger.visibleBy (listed : ListedLedger) (cutoffAt : Instant) :
    List ((String × String) × AuthoritativeLedgerEntry) :=
  (listed.entries.filter fun entry =>
    (listedVisibleAfter listed.entries entry.entryId).any (· ≤ cutoffAt)).map fun entry =>
      ((listed.accountId, entry.entryId), entry)

/-- The first visible entry of every account and identity. -/
def canonicalLedger (accepted : List ListedLedger) (cutoffAt : Instant) :
    Dict (String × String) AuthoritativeLedgerEntry :=
  Dict.ofFirst (accepted.flatMap (·.visibleBy cutoffAt))

/-- Whether a listed ledger has every canonical entry of its account exactly once, unchanged. -/
def ListedLedger.retains (listed : ListedLedger)
    (canonical : Dict (String × String) AuthoritativeLedgerEntry) : Bool :=
  canonical.all fun entry => entry.1.1 = listed.accountId →
    listed.entries.filter (·.entryId = entry.1.2) = [entry.2]

variable (positionHistory : List PositionReconciliationOutcome) (accountIds : List String)
  (accepted : List AccountCashState) (cutoffAt : Instant)

/-- The ledgers that a history lists for a set of accounts, in order. -/
def listedLedgers : List ListedLedger :=
  positionHistory.flatMap fun position => (entriesByAccount position accountIds).map fun account =>
    ⟨position.snapshot.cutoffAt, account.1, account.2⟩

/-- Accept a listed ledger that retains the canon of its cutoff. -/
def acceptLedger (accepted : List ListedLedger) (listed : ListedLedger) : List ListedLedger :=
  if listed.retains (canonicalLedger accepted listed.cutoffAt) then accepted ++ [listed]
  else accepted

/-- The accepted ledgers of a history. -/
def acceptedLedgers : List ListedLedger :=
  (listedLedgers positionHistory accountIds).foldl acceptLedger []

theorem addVisibleEntriesTo_snapshot (canonical : Dict (String × String) AuthoritativeLedgerEntry)
    (listed : ListedLedger) :
    listed.snapshot.addVisibleEntriesTo cutoffAt canonical =
      (listed.visibleBy cutoffAt).foldl (fun d e => d.setDefault e.1 e.2) canonical := by
  rw [ListedLedger.visibleBy, List.foldl_map, List.foldl_filter]
  refine List.foldl_ext _ _ _ fun canonical entry hentry => ?_
  have hlisted : entry ∈ listed.entries := hentry
  rw [ListedLedger.snapshot, visibleAfter_fromEntries hlisted]
  rfl

/-- The fold over accepted snapshots is the canon of the listed ledgers. -/
theorem foldAt_snapshots (accepted : List ListedLedger) (cutoffAt : Instant) :
    CachedFold.foldAt (fun cutoffAt canonical snapshot =>
      LedgerSnapshot.addVisibleEntriesTo cutoffAt canonical snapshot) []
      (accepted.map ListedLedger.snapshot) cutoffAt = canonicalLedger accepted cutoffAt := by
  rw [canonicalLedger, Dict.ofFirst, List.foldl_flatMap, CachedFold.foldAt, List.foldl_map]
  exact List.foldl_ext _ _ _ fun canonical listed _ =>
    addVisibleEntriesTo_snapshot cutoffAt canonical listed

theorem getD_entriesById (listed : ListedLedger) (entryId : String) :
    (listed.snapshot.entriesById.get? entryId).getD [] =
      listed.entries.filter (·.entryId = entryId) := by
  have hgroup := Dict.getD_group
    (listed.entries.map fun entry => (entry.entryId, entry)) entryId
  have hvalues := Dict.valuesOf_map (fun entry : AuthoritativeLedgerEntry => entry.entryId) id
    listed.entries entryId
  exact hgroup.trans (hvalues.trans (List.map_id _))

/-- A snapshot is admitted when its listed ledger retains the canon. -/
theorem admittedBy_snapshot (canonical : Dict (String × String) AuthoritativeLedgerEntry)
    (listed : ListedLedger) : listed.snapshot.admittedBy canonical = listed.retains canonical := by
  rw [LedgerSnapshot.admittedBy, LedgerSnapshot.preserves, List.all_filterMap, ListedLedger.retains]
  congr 1
  funext entry
  have haccount : listed.snapshot.accountId = listed.accountId := rfl
  rw [haccount]
  by_cases h : entry.1.1 = listed.accountId
  · rw [if_pos h]
    dsimp only
    rw [getD_entriesById]
    split
    · rename_i current hcurrent
      simp [h, hcurrent]
    · rename_i hmany
      refine (decide_eq_false fun hone => ?_).symm
      exact hmany entry.2 (hone h)
  · simp [h]

/-- What a resolver is asked. -/
abbrev LedgerRequest := CachedFold.Request LedgerSnapshot Instant

/-- Serve a request to a resolver. -/
def serveLedger (resolver : LedgerHistoryResolver) : LedgerRequest → LedgerHistoryResolver
  | .query cutoffAt => (resolver.canonicalEntriesAt cutoffAt).2
  | .accept cutoffAt snapshot => resolver.acceptIfPreserving snapshot cutoffAt

theorem foldl_acceptLedger (accepted listed : List ListedLedger) :
    (listed.map fun l => CachedFold.Request.accept l.cutoffAt l.snapshot).foldl
        (CachedFold.servePlain LedgerSnapshot.addVisibleEntriesTo [] LedgerSnapshot.admittedBy)
        (accepted.map ListedLedger.snapshot) =
      (listed.foldl acceptLedger accepted).map ListedLedger.snapshot := by
  induction listed generalizing accepted with
  | nil => rfl
  | cons l listed ih =>
    have hstep : CachedFold.servePlain LedgerSnapshot.addVisibleEntriesTo []
        LedgerSnapshot.admittedBy (accepted.map ListedLedger.snapshot)
        (.accept l.cutoffAt l.snapshot) = (acceptLedger accepted l).map ListedLedger.snapshot := by
      rw [CachedFold.servePlain, CachedFold.acceptPlain, foldAt_snapshots, admittedBy_snapshot,
        acceptLedger]
      split
      · rw [List.map_append, List.map_singleton]
      · rfl
    rw [List.map_cons, List.foldl_cons, hstep, List.foldl_cons, ih]

/-- The resolver of a history serves one acceptance for each listed ledger. -/
theorem ledgerHistoryResolver_eq :
    ledgerHistoryResolver positionHistory accountIds =
      ((listedLedgers positionHistory accountIds).map fun l =>
        CachedFold.Request.accept l.cutoffAt l.snapshot).foldl
          (CachedFold.serve LedgerSnapshot.addVisibleEntriesTo [] LedgerSnapshot.admittedBy)
            {} := by
  rw [ledgerHistoryResolver, listedLedgers, List.foldl_map, List.foldl_flatMap]
  simp only [List.foldl_map]
  rfl

/-- The canon that the resolver of a history answers is that of the accepted ledgers. -/
theorem canonicalEntriesAt_resolver :
    ((ledgerHistoryResolver positionHistory accountIds).canonicalEntriesAt cutoffAt).1 =
      canonicalLedger (acceptedLedgers positionHistory accountIds) cutoffAt := by
  rw [ledgerHistoryResolver_eq, LedgerHistoryResolver.canonicalEntriesAt,
    CachedFold.query_foldl_serve, ← List.map_nil (f := ListedLedger.snapshot), foldl_acceptLedger,
    foldAt_snapshots, acceptedLedgers]

/-- A cash state that one outcome lists, with the outcome's cutoff. -/
structure ListedCash where
  cutoffAt : Instant
  cashState : AccountCashState

/-- Whether a listed baseline is valid at its own cutoff. -/
def ListedCash.valid (listed : ListedCash) : Bool :=
  openingCashIsHistoricallyValid listed.cashState listed.cutoffAt

/-- The first valid baseline of every account. -/
def canonicalCash : Dict String AccountCashState :=
  Dict.ofFirst ((accepted.filter (openingCashIsHistoricallyValid · cutoffAt)).map fun cashState =>
    (cashState.accountId, cashState))

/-- The cash states that a history lists for a set of accounts, in order. -/
def listedCashStates : List ListedCash :=
  positionHistory.flatMap fun position =>
    (position.snapshot.cashStates.filter (·.accountId ∈ accountIds)).map fun cashState =>
      ⟨position.snapshot.cutoffAt, cashState⟩

/-- Accept a valid baseline that agrees with the canon of its cutoff. -/
def acceptCash (listed : ListedCash) : List AccountCashState :=
  if listed.valid ∧
      ∀ first ∈ (canonicalCash accepted listed.cutoffAt).get? listed.cashState.accountId,
        first.openingLedgerCash = listed.cashState.openingLedgerCash then
    accepted ++ [listed.cashState]
  else accepted

/-- The accepted baselines of a history. -/
def acceptedCashStates : List AccountCashState :=
  (listedCashStates positionHistory accountIds).foldl acceptCash []

theorem foldAt_cashStates :
    CachedFold.foldAt addCashState [] accepted cutoffAt = canonicalCash accepted cutoffAt := by
  rw [canonicalCash, Dict.ofFirst, List.foldl_map, List.foldl_filter]
  rfl

/-- The acceptance of a listed baseline. -/
def ListedCash.request (listed : ListedCash) : CachedFold.Request AccountCashState Instant :=
  .accept listed.cutoffAt listed.cashState

theorem foldl_acceptCash (listed : List ListedCash) :
    ((listed.filter (·.valid)).map ListedCash.request).foldl
      (CachedFold.servePlain addCashState [] cashStateAdmittedBy) accepted =
        listed.foldl acceptCash accepted := by
  induction listed generalizing accepted with
  | nil => rfl
  | cons l listed ih =>
    rw [List.foldl_cons, acceptCash]
    by_cases hvalid : l.valid = true
    · rw [List.filter_cons_of_pos hvalid, List.map_cons, List.foldl_cons, ih]
      congr 1
      rw [ListedCash.request, CachedFold.servePlain, CachedFold.acceptPlain, foldAt_cashStates,
        cashStateAdmittedBy]
      simp only [hvalid, true_and, Option.all_eq_true, decide_eq_true_eq, Option.mem_def]
    · rw [List.filter_cons_of_neg hvalid, ih, if_neg fun h => hvalid h.1]

/-- The resolver of a history serves one acceptance for each valid baseline. -/
theorem cashHistoryResolver_eq :
    cashHistoryResolver positionHistory accountIds =
      (((listedCashStates positionHistory accountIds).filter (·.valid)).map
        ListedCash.request).foldl (CachedFold.serve addCashState [] cashStateAdmittedBy) {} := by
  rw [cashHistoryResolver, listedCashStates, List.foldl_map, List.foldl_filter, List.foldl_flatMap]
  simp only [List.foldl_map, List.foldl_filter, decide_eq_true_eq]
  rfl

/-- The baselines that the resolver of a history answers are those of the accepted ones. -/
theorem cashStatesAt_resolver :
    ((cashHistoryResolver positionHistory accountIds).cashStatesAt cutoffAt).1 =
      canonicalCash (acceptedCashStates positionHistory accountIds) cutoffAt := by
  rw [cashHistoryResolver_eq, CashHistoryResolver.cashStatesAt, CachedFold.query_foldl_serve,
    foldl_acceptCash, foldAt_cashStates, acceptedCashStates]

/-- What the resolvers of a history answer at a cutoff. -/
structure ResolvesAsFold (positionHistory : List PositionReconciliationOutcome)
    (accountIds : List String) (cutoffAt : Instant) : Prop where
  /-- The canon is that of the accepted ledgers, in the same order. -/
  ledger : ((ledgerHistoryResolver positionHistory accountIds).canonicalEntriesAt cutoffAt).1 =
    canonicalLedger (acceptedLedgers positionHistory accountIds) cutoffAt
  /-- The history lists its entries. -/
  entries : authoritativeLedgerHistory positionHistory accountIds cutoffAt =
    (canonicalLedger (acceptedLedgers positionHistory accountIds) cutoffAt).map Prod.snd
  /-- Cutoffs that were asked for before, in any interleaving, do not decide the answer. -/
  interleaved : ∀ requests : List LedgerRequest,
    ((requests.foldl serveLedger {}).canonicalEntriesAt cutoffAt).1 =
      (((requests.filter (·.isAccept)).foldl serveLedger {}).canonicalEntriesAt cutoffAt).1
  /-- The opening baselines are those of the accepted cash states, in the same order. -/
  cash : authoritativeCashHistory positionHistory accountIds cutoffAt =
    (canonicalCash (acceptedCashStates positionHistory accountIds) cutoffAt).map Prod.snd

/-- The cached resolvers answer as the plain folds do. -/
theorem resolvesAsFold (positionHistory : List PositionReconciliationOutcome)
    (accountIds : List String) (cutoffAt : Instant) :
    ResolvesAsFold positionHistory accountIds cutoffAt := by
  constructor
  case ledger => exact canonicalEntriesAt_resolver positionHistory accountIds cutoffAt
  case entries =>
    rw [authoritativeLedgerHistory, LedgerHistoryResolver.entriesAt, canonicalEntriesAt_resolver]
  case interleaved =>
    intro requests
    have hserve : serveLedger =
        CachedFold.serve LedgerSnapshot.addVisibleEntriesTo [] LedgerSnapshot.admittedBy := by
      funext resolver request
      cases request <;> rfl
    rw [hserve]
    exact (CachedFold.query_foldl_serve_filter requests cutoffAt).symm
  case cash => rw [authoritativeCashHistory, cashStatesAt_resolver]

end StockProfiler.PositionManagement
