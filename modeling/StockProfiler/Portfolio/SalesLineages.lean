import StockProfiler.Core.Checks
import StockProfiler.Core.DecimalGrid
import StockProfiler.Portfolio.StressSales

/-!
# Lineages of sales

In a ledger without repeated identities the corrections of an entry end at one
entry, dangle or run into a cycle. When all of them end, the sales that count are
the fills that are rooted, made after an instant and sold on balance, and the
balances of the roots add up to the whole ledger.
-/

namespace StockProfiler.Portfolio

open PositionManagement

variable {entry : AuthoritativeLedgerEntry} {entries' : List AuthoritativeLedgerEntry}
  {ctx : DecimalContext} {entries : List AuthoritativeLedgerEntry}

/-- The decimal context of the stress calculation. -/
def stressContext : DecimalContext := .ofPrecision 34 .halfEven (by decide)

/-- The corrections of the entry lead to one that names no entry of the ledger. -/
def Dangling (entries : List AuthoritativeLedgerEntry) (entry : AuthoritativeLedgerEntry) : Prop :=
  ∃ last, Relation.ReflTransGen (Linked (correctionLink entries)) entry last ∧
    correctionLink entries last = .missing

/-- The corrections of the entry lead into a cycle, of which it need not be a part. -/
def Cyclic (entries : List AuthoritativeLedgerEntry) (entry : AuthoritativeLedgerEntry) : Prop :=
  ∃ met, Relation.ReflTransGen (Linked (correctionLink entries)) entry met ∧
    Relation.TransGen (Linked (correctionLink entries)) met met

/-- Every entry is visible at the cutoff, and its corrections end. -/
structure LineagesComplete (entries : List AuthoritativeLedgerEntry) (cutoffAt : Instant) :
    Prop where
  visible : ∀ entry ∈ entries,
    ledgerEntryEvidenceIsVisible entry.toPositionLedgerEntry cutoffAt = true
  ended : ∀ entry ∈ entries, ¬Dangling entries entry ∧ ¬Cyclic entries entry

/-- The amounts are whole multiples of one decimal unit, and add up to no more digits than a
context keeps. -/
def LedgerFits (digits : ℕ) (entries : List AuthoritativeLedgerEntry)
    (amount : AuthoritativeLedgerEntry → ℚ) : Prop :=
  ∃ unit : ℤ, (∀ entry ∈ entries, OnGrid digits unit (amount entry)) ∧
    sumWhere entries (|amount ·|) (fun _ => True) ≤ (10 : ℚ) ^ (unit + digits)

/-- A restoration fill is told by its identity and its amounts. -/
theorem StressRestorationFill.ext_key {x y : StressRestorationFill} (hkey : x.key = y.key)
    (hquantity : x.netQuantity = y.netQuantity) (hcash : x.netCashDelta = y.netCashDelta) :
    x = y := by
  obtain ⟨⟨account, id⟩, quantity, cash, _⟩ := x
  obtain ⟨⟨account', id'⟩, quantity', cash', _⟩ := y
  obtain ⟨rfl, rfl⟩ := Prod.mk.inj hkey
  obtain rfl : quantity = quantity' := hquantity
  obtain rfl : cash = cash' := hcash
  rfl

section Walks

variable (hkeys : (entries.map ledgerKey).Nodup)
include hkeys

theorem get?_ledgerIndex {key : String × String} :
    (ledgerIndex entries).get? key = some entry ↔ entry ∈ entries ∧ ledgerKey entry = key := by
  refine ⟨mem_of_ledgerIndex, ?_⟩
  rintro ⟨hentry, rfl⟩
  have hnodup : ((entries.map fun entry => (ledgerKey entry, entry)).map Prod.fst).Nodup := by
    rw [List.map_map]
    exact hkeys
  rw [ledgerIndex, Dict.ofLast_of_nodup hnodup]
  exact Dict.get?_of_mem hnodup (List.mem_map_of_mem hentry)

theorem correctionLink_perm (hperm : entries.Perm entries') :
    correctionLink entries' = correctionLink entries := by
  have hkeys' : (entries'.map ledgerKey).Nodup := (hperm.map _).nodup_iff.mp hkeys
  have hindex : ∀ key, (ledgerIndex entries').get? key = (ledgerIndex entries).get? key := by
    refine fun key => Option.ext fun entry => ?_
    rw [get?_ledgerIndex hkeys, get?_ledgerIndex hkeys', hperm.mem_iff]
  funext entry
  simp only [correctionLink, hindex]

omit hkeys in
theorem accountId_of_reflTransGen {target : AuthoritativeLedgerEntry}
    (h : Relation.ReflTransGen (Linked (correctionLink entries)) entry target) :
    target.accountId = entry.accountId := by
  induction h with
  | refl => rfl
  | @tail found target _ hlast ih =>
    unfold Linked correctionLink at hlast
    split at hlast
    · exact nomatch hlast
    · split at hlast
      · exact nomatch hlast
      · rename_i hfound
        cases hlast
        rw [← ih]
        exact congrArg Prod.fst (mem_of_ledgerIndex hfound).2

/-- The entries that a walk meets are told apart by what it remembers. -/
theorem correctionKey_injective {x y : AuthoritativeLedgerEntry} (hentry : entry ∈ entries)
    (hx : Relation.ReflTransGen (Linked (correctionLink entries)) entry x)
    (hy : Relation.ReflTransGen (Linked (correctionLink entries)) entry y)
    (h : correctionKey x = correctionKey y) : x = y := by
  refine List.inj_on_of_nodup_map hkeys (mem_of_reflTransGen hentry hx)
    (mem_of_reflTransGen hentry hy) ?_
  have haccount := (accountId_of_reflTransGen hx).trans (accountId_of_reflTransGen hy).symm
  exact Prod.ext haccount (congrArg Prod.fst h)

/-- An entry has a root when its corrections neither dangle nor form a cycle. -/
theorem exists_rootKey_iff (hentry : entry ∈ entries) :
    (correctionRootKey entries entry).isSome ↔
      ¬Dangling entries entry ∧ ¬Cyclic entries entry := by
  constructor
  · intro hsome
    obtain ⟨key, hkey⟩ := Option.isSome_iff_exists.mp hsome
    obtain ⟨root, hreach, hroot, -⟩ := restsOn_of_rootKey hkey
    have hend : ∀ target, correctionLink entries root ≠ .next target := by
      intro target htarget
      exact nomatch (correctionLink_eq_root.mpr hroot).symm.trans htarget
    constructor
    · rintro ⟨last, hlast, hmissing⟩
      rcases Relation.ReflTransGen.cases_head (reaches_end hlast hreach hend) with rfl | ⟨x, hx, -⟩
      · exact nomatch (correctionLink_eq_root.mpr hroot).symm.trans hmissing
      · exact nomatch hmissing.symm.trans hx
    · rintro ⟨met, hmet, hcycle⟩
      obtain ⟨target, htarget⟩ := exists_next_of_cycle hcycle (reaches_end hmet hreach hend)
      exact hend target htarget
  · rintro ⟨hdangling, hcyclic⟩
    cases hwalk : correctionWalk entries entry with
    | root root =>
      rw [correctionRootKey, hwalk]
      rfl
    | missing => exact absurd (follow_eq_missing hwalk) hdangling
    | cycle =>
      have hcycle := exists_cycle_of_follow hwalk fun x y => correctionKey_injective hkeys hentry
      exact absurd hcycle hcyclic
    | spent => exact absurd hwalk (correctionWalk_ne_spent hentry)

end Walks

section Complete

variable {root : AuthoritativeLedgerEntry} {amount : AuthoritativeLedgerEntry → ℚ}
  {cutoffAt : Instant}

theorem mem_rootEntries :
    root ∈ rootEntries entries ↔ root ∈ entries ∧ root.correctsEntryId = none := by
  rw [rootEntries, List.mem_filter, decide_eq_true_eq]

theorem restsOn_self (hroot : root.correctsEntryId = none) :
    RestsOn entries (ledgerKey root) root :=
  ⟨root, .refl, hroot, rfl⟩

theorem mem_reflTransGen_root (hentry : entry ∈ entries)
    (hreach : Relation.ReflTransGen (Linked (correctionLink entries)) entry root)
    (hroot : root.correctsEntryId = none) : root ∈ rootEntries entries :=
  mem_rootEntries.mpr ⟨mem_of_reflTransGen hentry hreach, hroot⟩

variable (hkeys : (entries.map ledgerKey).Nodup)
include hkeys

theorem effectiveSales_eq_nil (hincomplete : ¬LineagesComplete entries cutoffAt)
    (after : Instant) : effectiveSales ctx entries after cutoffAt = [] := by
  unfold effectiveSales
  split
  · rename_i hvisible
    split
    · rfl
    · rename_i keyed hkeyed
      refine absurd ⟨List.all_eq_true.mp hvisible, fun entry hentry => ?_⟩ hincomplete
      exact (exists_rootKey_iff hkeys hentry).mp ((Dict.mem_of_mapM hkeyed).1 entry hentry)
  · rfl

/-- An entry whose corrections end rests on exactly one root. -/
theorem existsUnique_root (hcomplete : LineagesComplete entries cutoffAt)
    (hentry : entry ∈ entries) :
    ∃! root, root ∈ rootEntries entries ∧ RestsOn entries (ledgerKey root) entry := by
  obtain ⟨key, hkey⟩ := Option.isSome_iff_exists.mp
    ((exists_rootKey_iff hkeys hentry).mpr (hcomplete.ended entry hentry))
  obtain ⟨root, hreach, hroot, rfl⟩ := restsOn_of_rootKey hkey
  have hmem := mem_reflTransGen_root hentry hreach hroot
  refine ⟨root, ⟨hmem, root, hreach, hroot, rfl⟩, ?_⟩
  rintro other ⟨hother, hrests⟩
  have hsame := (rootKey_eq_some_iff hkey).mpr hrests
  rw [hkey] at hsame
  exact List.inj_on_of_nodup_map hkeys (mem_rootEntries.mp hother).1 (mem_rootEntries.mp hmem).1
    (Option.some.inj hsame).symm

/-- The effective sales are the later fills at the head of their lineages, at net amounts. -/
theorem mem_effectiveSales_iff (hcomplete : LineagesComplete entries cutoffAt) {after : Instant}
    {fill : StressRestorationFill} :
    fill ∈ effectiveSales ctx entries after cutoffAt ↔
      ∃ root ∈ rootEntries entries, root.entryType = .fill ∧ after < root.occurredAt ∧
        fill.key = ledgerKey root ∧ fill.netQuantity = netQuantity ctx entries (ledgerKey root) ∧
        fill.netCashDelta = netCash ctx entries (ledgerKey root) := by
  constructor
  · intro hfill
    obtain ⟨hsold, hquantity, hcash⟩ := mem_effectiveSales hfill
    obtain ⟨root, hroot, hkey, hcorrects, htype, hafter⟩ := hsold.root_fill hkeys
    exact ⟨root, mem_rootEntries.mpr ⟨hroot, hcorrects⟩, htype, hafter, hkey.symm, hkey ▸ hquantity,
      hkey ▸ hcash⟩
  · rintro ⟨root, hroot, htype, hafter, hkey, hquantity, hcash⟩
    obtain ⟨hentry, hcorrects⟩ := mem_rootEntries.mp hroot
    obtain ⟨keyed, hkeyed, hfiled⟩ := Dict.exists_of_mapM fun entry hentry =>
      (exists_rootKey_iff hkeys hentry).mpr (hcomplete.ended entry hentry)
    obtain ⟨key, hended⟩ := (Option.isSome_iff_exists).mp
      ((exists_rootKey_iff hkeys hentry).mpr (hcomplete.ended root hentry))
    have hrootKey := (rootKey_eq_some_iff hended).mpr (restsOn_self hcorrects)
    have hgroup := Dict.mem_keys_group.mpr
      (List.mem_map_of_mem (hfiled root hentry (ledgerKey root) hrootKey))
    obtain ⟨⟨_, members⟩, hmem, rfl⟩ := List.mem_map.mp hgroup
    have hmembers := group_eq_restingOn hkeyed hmem
    unfold effectiveSales
    rw [if_pos (List.all_eq_true.mpr hcomplete.visible), hkeyed]
    refine List.mem_filterMap.mpr ⟨_, hmem, ?_⟩
    have hindexed := (get?_ledgerIndex hkeys).mpr ⟨hentry, rfl⟩
    have hnegative : ctx.sum (members.map (·.quantityDelta)) < 0 := by
      rw [hmembers]
      exact hquantity.symm.trans_lt fill.netQuantity_neg
    dsimp only [restorationFill]
    rw [hindexed]
    dsimp only
    rw [dif_pos hnegative, if_pos ⟨htype, hafter⟩, Option.some_inj]
    subst hmembers
    exact (StressRestorationFill.ext_key hkey hquantity hcash).symm

omit hkeys in
theorem effectiveSales_keys_nodup (after : Instant) :
    ((effectiveSales ctx entries after cutoffAt).map (·.key)).Nodup := by
  unfold effectiveSales
  split
  · split
    · exact List.nodup_nil
    · refine (Dict.keys_group_nodup _).sublist (Dict.map_filterMap_sublist ?_)
      rintro ⟨key, members⟩ - fill hfill
      dsimp only [restorationFill] at hfill
      split at hfill
      · exact nomatch hfill
      · split at hfill
        · split at hfill
          · cases hfill
            rfl
          · exact nomatch hfill
        · exact nomatch hfill
  · exact List.nodup_nil

omit hkeys in
open Classical in
theorem LedgerFits.sum_restingOn (hfit : LedgerFits 34 entries amount) (key : String × String) :
    stressContext.sum ((restingOn entries key).map amount) =
      sumWhere entries amount (RestsOn entries key) := by
  obtain ⟨unit, hgrid, hle⟩ := hfit
  exact (sum_filter_onGrid hgrid hle _).1

/-- The lineages of a complete ledger divide its total. -/
theorem LedgerFits.sum_roots (hfit : LedgerFits 34 entries amount)
    (hcomplete : LineagesComplete entries cutoffAt) :
    ((rootEntries entries).map fun root =>
        stressContext.sum ((restingOn entries (ledgerKey root)).map amount)).sum =
      (entries.map amount).sum := by
  classical
  have hroot : ∀ entry ∈ entries, ∃ root ∈ rootEntries entries,
      RestsOn entries (ledgerKey root) entry := by
    intro entry hentry
    obtain ⟨root, ⟨hmem, hrests⟩, -⟩ := existsUnique_root hkeys hcomplete hentry
    exact ⟨root, hmem, hrests⟩
  choose! root hmem hrests using hroot
  have hrootKeys : ((rootEntries entries).map ledgerKey).Nodup :=
    hkeys.sublist (List.filter_sublist.map _)
  have hclass : ∀ b ∈ rootEntries entries, sumWhere entries amount (RestsOn entries (ledgerKey b)) =
      sumWhere entries amount fun a => ledgerKey (root a) = ledgerKey b := by
    refine fun b hb => sumWhere_congr (fun a ha => ⟨fun hrest => ?_, fun hkey => ?_⟩)
      fun _ _ _ => rfl
    · have hunique := (existsUnique_root hkeys hcomplete ha).unique ⟨hb, hrest⟩
        ⟨hmem a ha, hrests a ha⟩
      rw [hunique]
    · exact hkey ▸ hrests a ha
  calc ((rootEntries entries).map fun b =>
        stressContext.sum ((restingOn entries (ledgerKey b)).map amount)).sum
      = ((rootEntries entries).map fun b =>
          sumWhere entries amount fun a => ledgerKey (root a) = ledgerKey b).sum := by
        refine congrArg List.sum (List.map_congr_left fun b hb => ?_)
        rw [hfit.sum_restingOn, hclass b hb]
    _ = sumWhere (rootEntries entries) (fun b =>
          sumWhere entries amount fun a => ledgerKey (root a) = ledgerKey b) (fun _ => True) :=
        (sumWhere_true _ _).symm
    _ = sumWhere entries amount fun _ => True := sumWhere_fiber hrootKeys _ root hmem
    _ = (entries.map amount).sum := sumWhere_true _ _

theorem LedgerFits.sum_restingOn_perm (hfit : LedgerFits 34 entries amount)
    (hperm : entries.Perm entries') (key : String × String) :
    stressContext.sum ((restingOn entries' key).map amount) =
      stressContext.sum ((restingOn entries key).map amount) := by
  classical
  have hfit' : LedgerFits 34 entries' amount := by
    obtain ⟨unit, hgrid, hle⟩ := hfit
    exact ⟨unit, fun entry hentry => hgrid entry (hperm.mem_iff.mpr hentry),
      (sumWhere_perm hperm).symm.trans_le hle⟩
  rw [hfit.sum_restingOn, hfit'.sum_restingOn]
  have hrests : RestsOn entries' key = RestsOn entries key := by
    unfold RestsOn
    rw [correctionLink_perm hkeys hperm]
  rw [sumWhere_perm hperm]
  exact sumWhere_congr (fun _ _ => by rw [hrests]) fun _ _ _ => rfl

/-- Whether all corrections end does not depend on the order of the entries. -/
theorem LineagesComplete.perm (hcomplete : LineagesComplete entries cutoffAt)
    (hperm : entries.Perm entries') : LineagesComplete entries' cutoffAt where
  visible entry hentry := hcomplete.visible entry (hperm.mem_iff.mpr hentry)
  ended entry hentry := by
    have hended := hcomplete.ended entry (hperm.mem_iff.mpr hentry)
    unfold Dangling Cyclic at hended ⊢
    rwa [correctionLink_perm hkeys hperm]

theorem effectiveSales_perm (hquantity : LedgerFits 34 entries (·.quantityDelta))
    (hcash : LedgerFits 34 entries (·.cashDelta)) (hperm : entries.Perm entries')
    (after : Instant) :
    (effectiveSales stressContext entries after cutoffAt).Perm
      (effectiveSales stressContext entries' after cutoffAt) := by
  have hkeys' : (entries'.map ledgerKey).Nodup := (hperm.map _).nodup_iff.mp hkeys
  by_cases hcomplete : LineagesComplete entries cutoffAt
  · refine (List.perm_ext_iff_of_nodup (effectiveSales_keys_nodup after).of_map
      (effectiveSales_keys_nodup after).of_map).mpr fun fill => ?_
    rw [mem_effectiveSales_iff hkeys hcomplete,
      mem_effectiveSales_iff hkeys' (hcomplete.perm hkeys hperm)]
    simp only [netQuantity, netCash, hquantity.sum_restingOn_perm hkeys hperm,
      hcash.sum_restingOn_perm hkeys hperm, mem_rootEntries, hperm.mem_iff]
  · have hincomplete : ¬LineagesComplete entries' cutoffAt :=
      fun h => hcomplete (h.perm hkeys' hperm.symm)
    rw [effectiveSales_eq_nil hkeys hcomplete, effectiveSales_eq_nil hkeys' hincomplete]

end Complete

/-- The walk of every entry ends. An entry that is hidden, or whose corrections dangle or run
into a cycle, leaves no sale. Otherwise every entry rests on one root, the fills of the roots
after the instant that sell on balance are reported once, and balances of amounts that fit the
digits of the context add up to the ledger and do not depend on the order of the entries. -/
theorem effectiveSales_lineages (entries : List AuthoritativeLedgerEntry)
    (hkeys : (entries.map ledgerKey).Nodup) (after cutoffAt : Instant) :
    (∀ entry ∈ entries, correctionWalk entries entry ≠ .spent) ∧
    (¬LineagesComplete entries cutoffAt →
      ∀ ctx, effectiveSales ctx entries after cutoffAt = []) ∧
    (LineagesComplete entries cutoffAt →
      (∀ entry ∈ entries,
        ∃! root, root ∈ rootEntries entries ∧ RestsOn entries (ledgerKey root) entry) ∧
      ∀ ctx, ((effectiveSales ctx entries after cutoffAt).map (·.key)).Nodup ∧
        (∀ fill ∈ effectiveSales ctx entries after cutoffAt, ∃ root ∈ rootEntries entries,
          fill.key = ledgerKey root ∧ fill.netQuantity = netQuantity ctx entries fill.key ∧
          fill.netCashDelta = netCash ctx entries fill.key) ∧
        ∀ root ∈ rootEntries entries,
          ledgerKey root ∈ (effectiveSales ctx entries after cutoffAt).map (·.key) ↔
            root.entryType = .fill ∧ after < root.occurredAt ∧
              netQuantity ctx entries (ledgerKey root) < 0) ∧
    (LedgerFits 34 entries (·.quantityDelta) → LedgerFits 34 entries (·.cashDelta) →
      (LineagesComplete entries cutoffAt →
        ((rootEntries entries).map (netQuantity stressContext entries <| ledgerKey ·)).sum =
            (entries.map (·.quantityDelta)).sum ∧
          ((rootEntries entries).map (netCash stressContext entries <| ledgerKey ·)).sum =
            (entries.map (·.cashDelta)).sum) ∧
      ∀ entries', entries.Perm entries' →
        (effectiveSales stressContext entries after cutoffAt).Perm
          (effectiveSales stressContext entries' after cutoffAt)) := by
  refine ⟨fun _ => correctionWalk_ne_spent, fun hincomplete ctx => ?_, fun hcomplete => ?_,
    fun hquantity hcash => ?_⟩
  · exact effectiveSales_eq_nil hkeys hincomplete after
  · refine ⟨fun entry => existsUnique_root hkeys hcomplete, fun ctx =>
      ⟨effectiveSales_keys_nodup after, fun fill hfill => ?_, fun root hroot => ?_⟩⟩
    · obtain ⟨root, hroot, -, -, hkey, hnet, hnetCash⟩ :=
        (mem_effectiveSales_iff hkeys hcomplete).mp hfill
      exact ⟨root, hroot, hkey, hkey ▸ hnet, hkey ▸ hnetCash⟩
    · constructor
      · intro hreported
        obtain ⟨fill, hfill, hkey⟩ := List.mem_map.mp hreported
        obtain ⟨other, hother, htype, hafter, hotherKey, hnet, -⟩ :=
          (mem_effectiveSales_iff hkeys hcomplete).mp hfill
        obtain rfl := List.inj_on_of_nodup_map hkeys (mem_rootEntries.mp hother).1
          (mem_rootEntries.mp hroot).1 (hotherKey.symm.trans hkey)
        exact ⟨htype, hafter, hnet.symm.trans_lt fill.netQuantity_neg⟩
      · rintro ⟨htype, hafter, hnegative⟩
        exact List.mem_map.mpr ⟨⟨⟨root.accountId, root.entryId⟩, _, _, hnegative⟩,
          (mem_effectiveSales_iff hkeys hcomplete).mpr
            ⟨root, hroot, htype, hafter, rfl, rfl, rfl⟩, rfl⟩
  · exact ⟨fun hcomplete => ⟨hquantity.sum_roots hkeys hcomplete, hcash.sum_roots hkeys hcomplete⟩,
      fun entries' hperm => effectiveSales_perm hkeys hquantity hcash hperm after⟩

namespace SampleSales

def fill (accountId entryId : String) (quantity cash : ℚ) (occurredAt : Instant)
    (corrects : Option String := none) : AuthoritativeLedgerEntry :=
  { SampleBroker.fill entryId quantity 0 cash occurredAt corrects with accountId }

/-- Two accounts sell under one entry id; in the first account the sale is corrected. -/
def ledger : List AuthoritativeLedgerEntry :=
  [fill "A" "c" 2 (-20) 13 (some "s"), fill "A" "s" (-5) 50 12, fill "B" "s" (-1) 10 5]

def cyclicLedger : List AuthoritativeLedgerEntry :=
  [fill "A" "entering" 1 0 13 (some "self"), fill "A" "self" 1 0 12 (some "self")]

theorem ledger_spec : (ledger.map ledgerKey).Nodup ∧
    (ledger.all fun entry => ledgerEntryEvidenceIsVisible entry.toPositionLedgerEntry 100) ∧
    (ledger.all fun entry => (correctionRootKey ledger entry).isSome) ∧
    (effectiveSales stressContext ledger 10 100).map (·.key) = [("A", "s")] ∧
    effectiveSales stressContext cyclicLedger 10 100 = [] := by
  decide +kernel

theorem ledger_complete : LineagesComplete ledger 100 where
  visible := List.all_eq_true.mp ledger_spec.2.1
  ended entry hentry := (exists_rootKey_iff ledger_spec.1 hentry).mp
    (List.all_eq_true.mp ledger_spec.2.2.1 entry hentry)

theorem ledger_fit : LedgerFits 34 ledger (·.quantityDelta) ∧
    LedgerFits 34 ledger (·.cashDelta) := by
  have hgrid : ∀ entry ∈ ledger, (entry.quantityDelta.den = 1 ∧
      |entry.quantityDelta.num| ≤ 10 ^ 34) ∧ entry.cashDelta.den = 1 ∧
        |entry.cashDelta.num| ≤ 10 ^ 34 := by decide +kernel
  refine ⟨⟨0, fun entry hentry => ?_, by decide +kernel⟩, 0, fun entry hentry => ?_,
    by decide +kernel⟩
  · exact onGrid_of_den (hgrid entry hentry).1.1 (hgrid entry hentry).1.2
  · exact onGrid_of_den (hgrid entry hentry).2.1 (hgrid entry hentry).2.2

/-- Three were sold after the instant; the balances add up to four in all. -/
theorem sample_lineages :
    ((rootEntries ledger).map (netQuantity stressContext ledger <| ledgerKey ·)).sum =
        (ledger.map (·.quantityDelta)).sum ∧
      (effectiveSales stressContext ledger 10 100).Perm
        (effectiveSales stressContext ledger.reverse 10 100) :=
  have hfit := (effectiveSales_lineages ledger ledger_spec.1 10 100).2.2.2 ledger_fit.1
    ledger_fit.2
  ⟨(hfit.1 ledger_complete).1, hfit.2 _ (List.reverse_perm _).symm⟩

/-- A sale of the highest quantity of 34 digits, and two corrections of it. -/
def large : List AuthoritativeLedgerEntry :=
  [fill "A" "s" (-(10 ^ 34)) 1 11, fill "A" "c1" (-4) 0 12 (some "s"),
    fill "A" "c2" (-4) 0 13 (some "s")]

def largeReordered : List AuthoritativeLedgerEntry :=
  [fill "A" "c1" (-4) 0 12 (some "s"), fill "A" "c2" (-4) 0 13 (some "s"),
    fill "A" "s" (-(10 ^ 34)) 1 11]

theorem large_spec : (large.map ledgerKey).Nodup ∧
    (large.all fun entry => ledgerEntryEvidenceIsVisible entry.toPositionLedgerEntry 100) ∧
    (large.all fun entry => (correctionRootKey large entry).isSome) ∧
    (effectiveSales stressContext large 10 100).map (·.netQuantity) = [-(10 ^ 34)] ∧
    (effectiveSales stressContext largeReordered 10 100).map (·.netQuantity) =
      [-(10 ^ 34 + 10)] := by
  decide +kernel

theorem large_complete : LineagesComplete large 100 where
  visible := List.all_eq_true.mp large_spec.2.1
  ended entry hentry := (exists_rootKey_iff large_spec.1 hentry).mp
    (List.all_eq_true.mp large_spec.2.2.1 entry hentry)

/-- In 34 digits the order of the ledger decides what was sold. -/
theorem sales_depend_on_order :
    ¬∀ entries entries' after cutoffAt, (entries.map ledgerKey).Nodup →
      LineagesComplete entries cutoffAt → entries.Perm entries' →
        (effectiveSales stressContext entries after cutoffAt).Perm
          (effectiveSales stressContext entries' after cutoffAt) := by
  intro horder
  have hsame := (horder large largeReordered 10 100 large_spec.1 large_complete
    (List.perm_append_singleton _ _).symm).map (·.netQuantity)
  rw [large_spec.2.2.2.1, large_spec.2.2.2.2] at hsame
  exact absurd (List.perm_singleton.mp hsame) (by decide +kernel)

end SampleSales

end StockProfiler.Portfolio
