import Mathlib.Algebra.Order.Ring.Rat
import StockProfiler.PositionManagement.Reconcile

/-!
# What a reconciled snapshot says

A pass that reports nothing proves the fact it checks. The lemmas below read
that fact off each pass, beginning with the passes that make values present,
and `AccountAgrees` collects what the silence of all of them means for one
account.
-/

namespace StockProfiler.PositionManagement

variable {ctx : DecimalContext} {priorLedger : List AuthoritativeLedgerEntry}
  {entries : List PositionLedgerEntry} {entry : PositionLedgerEntry} {accountId : String}
  {prior : Dict (String × String) AuthoritativeLedgerEntry}

section Ledger

variable {account : AccountPositionSnapshot} {cutoffAt : Instant}

/-- The records of one identity among the current entries. -/
theorem entriesOf_groupById (entries : List PositionLedgerEntry) (entryId : String) :
    entriesOf (groupById entries) entryId = entries.filter (·.entryId = entryId) := by
  rw [entriesOf, groupById, Dict.getD_group, Dict.valuesOf_map, List.map_id']

theorem entryIds_nodup (h : duplicatedGroups entries = []) : (entryIds entries).Nodup := by
  refine List.nodup_iff_count_le_one.mpr fun entryId => ?_
  have hcount : (entryIds entries).count entryId =
      (entries.filter (·.entryId = entryId)).length := by
    rw [entryIds, List.count, List.countP_map, List.countP_eq_length_filter]
    congr 1
  rw [hcount, ← entriesOf_groupById]
  by_contra hlt
  have hmem : entriesOf (groupById entries) entryId ∈ (groupById entries).map Prod.snd := by
    rw [entriesOf] at hlt ⊢
    cases hg : (groupById entries).get? entryId with
    | none => rw [hg] at hlt; simp at hlt
    | some group => exact List.mem_map.mpr ⟨_, Dict.mem_of_get? hg, rfl⟩
  have hdup : entriesOf (groupById entries) entryId ∈ duplicatedGroups entries :=
    List.mem_filter.mpr ⟨hmem, decide_eq_true (by omega)⟩
  rw [h] at hdup
  exact List.not_mem_nil hdup

theorem duplicatedGroups_eq_nil (h : duplicateReports account = []) :
    duplicatedGroups account.ledgerEntries = [] := by
  refine List.eq_nil_iff_forall_not_mem.mpr fun group hgroup => ?_
  have hnil := List.flatMap_eq_nil_iff.mp h group hgroup
  have hlen := of_decide_eq_true (List.mem_filter.mp hgroup).2
  cases group with
  | nil => simp at hlen
  | cons entry rest =>
    have hmem : entry.securityId ∈ sortedOptional ((entry :: rest).map (·.securityId)) := by simp
    rw [List.map_eq_nil_iff.mp hnil] at hmem
    exact List.not_mem_nil hmem

theorem occurredAt_le (h : ledgerEntryReports accountId cutoffAt entry = []) :
    entry.occurredAt ≤ cutoffAt := by
  rw [ledgerEntryReports] at h
  split at h
  · exact absurd h (List.cons_ne_nil _ _)
  · rename_i hlt
    exact not_lt.mp hlt

/-- Summing the entries of one security filed under it. -/
theorem ledgerBySecurity_get? (ctx : DecimalContext) (counted : List PositionLedgerEntry)
    (securityId : String) :
    ((ledgerBySecurity ctx counted).get? securityId).getD (0, 0) =
      (ctx.sum ((counted.filter (·.securityId = some securityId)).map (·.quantityDelta)),
        ctx.sum ((counted.filter (·.securityId = some securityId)).map (·.costBasisDelta))) := by
  have hval : Dict.valuesOf (counted.filterMap fun entry => entry.securityId.map (·, entry))
      securityId = counted.filter (·.securityId = some securityId) := by
    rw [Dict.valuesOf, List.filterMap_filterMap, ← List.filterMap_eq_filter]
    refine List.filterMap_congr fun entry _ => ?_
    cases he : entry.securityId with
    | none => simp [Option.guard, he]
    | some s => by_cases hs : s = securityId <;> simp [hs, Option.guard, he]
  rw [ledgerBySecurity, Dict.get?_mapValues, Dict.get?_group, hval]
  split
  · rfl
  · rename_i hkey
    have hnil : counted.filter (·.securityId = some securityId) = [] := by
      rw [← hval]
      refine List.eq_nil_iff_forall_not_mem.mpr fun entry hentry => hkey ?_
      exact List.mem_map.mpr ⟨_, Dict.mem_valuesOf.mp hentry, rfl⟩
    rw [hnil]
    rfl

/-- A ledger pass that reports nothing has counted every entry exactly once. -/
theorem reconstructLedger_of_silent {unresolved : List String}
    (h : (reconstructLedger ctx account cutoffAt unresolved).reports = []) :
    (entryIds account.ledgerEntries).Nodup ∧
      (reconstructLedger ctx account cutoffAt unresolved).cashDelta =
        some (ctx.sum (account.ledgerEntries.map (·.cashDelta))) ∧
      (reconstructLedger ctx account cutoffAt unresolved).bySecurity =
        ledgerBySecurity ctx account.ledgerEntries := by
  obtain ⟨hdup, hentries⟩ := List.append_eq_nil_iff.mp h
  have hsilent := List.flatMap_eq_nil_iff.mp hentries
  have hgroups := duplicatedGroups_eq_nil hdup
  have hcounted : countedEntries cutoffAt account.ledgerEntries = account.ledgerEntries :=
    List.filter_eq_self.mpr fun entry he => decide_eq_true (occurredAt_le (hsilent entry he))
  have hdefective : (account.ledgerEntries.filter fun entry =>
      !(ledgerEntryReports account.accountId cutoffAt entry).isEmpty) = [] :=
    List.filter_eq_nil_iff.mpr fun entry he => by simp [hsilent entry he]
  refine ⟨entryIds_nodup hgroups, ?_, ?_⟩
  · simp only [reconstructLedger, hcounted]
    exact if_pos ⟨hgroups, hdefective⟩
  · simp only [reconstructLedger, hcounted]

end Ledger

/-- One entry of a ledger corrects another. -/
def Corrects (entries : List PositionLedgerEntry) (entry target : PositionLedgerEntry) : Prop :=
  entry ∈ entries ∧ target ∈ entries ∧ entry.correctsEntryId = some target.entryId

/-- A silent correction names one other record and closes no cycle. -/
theorem correction_of_silent {byId : Dict String (List PositionLedgerEntry)} {targetId : String}
    (h : correctionReports accountId byId entry = [])
    (htarget : entry.correctsEntryId = some targetId) :
    (∃ target, entriesOf byId targetId = [target]) ∧
      hasCorrectionCycle entry.entryId (correctionTargets byId) = false := by
  simp only [correctionReports, htarget] at h
  split at h
  · exact absurd h (List.cons_ne_nil _ _)
  · split at h
    · exact absurd h (List.cons_ne_nil _ _)
    · rename_i target heq
      split at h
      · exact absurd h (List.cons_ne_nil _ _)
      · rename_i hcycle
        exact ⟨⟨target, heq⟩, Bool.eq_false_iff.mpr hcycle⟩
    · exact absurd h (List.cons_ne_nil _ _)

theorem keys_groupById_nodup (entries : List PositionLedgerEntry) :
    (groupById entries).keys.Nodup :=
  Dict.keys_group_nodup _

theorem get?_groupById (hnodup : (entryIds entries).Nodup) (hmem : entry ∈ entries) :
    (groupById entries).get? entry.entryId = some [entry] := by
  have hone : entries.filter (·.entryId = entry.entryId) = [entry] := by
    refine List.perm_singleton.mp ((List.perm_ext_iff_of_nodup
      ((List.Nodup.of_map _ hnodup).filter _) (List.nodup_singleton _)).mpr fun e => ?_)
    rw [List.mem_filter, decide_eq_true_iff, List.mem_singleton]
    constructor
    · exact fun he => List.inj_on_of_nodup_map hnodup he.1 hmem he.2
    · rintro rfl
      exact ⟨hmem, rfl⟩
  rw [groupById, Dict.get?_group, Dict.valuesOf_map, List.map_id', hone, if_pos]
  exact List.mem_map.mpr ⟨_, List.mem_map.mpr ⟨entry, hmem, rfl⟩, rfl⟩

/-- The cycle search follows every correction of the ledger. -/
theorem linked_of_corrects (hnodup : (entryIds entries).Nodup) {target : PositionLedgerEntry}
    (h : Corrects entries entry target) :
    Linked (targetLink (correctionTargets (groupById entries))) entry.entryId target.entryId := by
  obtain ⟨hmem, -, hcorrects⟩ := h
  have hlookup : (correctionTargets (groupById entries)).get? entry.entryId =
      some (some target.entryId) := by
    rw [correctionTargets, Dict.get?_filterMapValues _ (keys_groupById_nodup entries),
      get?_groupById hnodup hmem, Option.bind_some]
    exact congrArg some hcorrects
  rw [Linked, targetLink, hlookup]

/-- The search recognises every cycle of corrections through its entry. -/
theorem hasCorrectionCycle_of_transGen (hnodup : (entryIds entries).Nodup)
    (h : Relation.TransGen (Corrects entries) entry entry) :
    hasCorrectionCycle entry.entryId (correctionTargets (groupById entries)) = true := by
  have hlinks : Relation.TransGen (Linked (targetLink (correctionTargets (groupById entries))))
      entry.entryId entry.entryId :=
    h.lift PositionLedgerEntry.entryId fun _ _ => linked_of_corrects hnodup
  refine decide_eq_true (follow_eq_cycle (chainIds _ _) ?_ (List.mem_cons_self ..)
    (Nat.lt_succ_self _) hlinks)
  intro a b hab
  rw [Linked, targetLink] at hab
  split at hab
  · rename_i target hget
    cases hab
    exact List.mem_cons_of_mem _ (List.mem_filterMap.mpr ⟨_, Dict.mem_of_get? hget, rfl⟩)
  · cases hab

theorem sumIfComplete_eq_some_iff {values : List (Option ℚ)} {total : ℚ} :
    sumIfComplete ctx values = some total ↔
      (∀ v ∈ values, v.isSome) ∧ ctx.sum (values.map (·.getD 0)) = total := by
  have hmap : (∀ v ∈ values, v.isSome) → values.filterMap id = values.map (·.getD 0) := by
    intro hall
    rw [← List.filterMap_eq_map]
    refine List.filterMap_congr fun v hv => ?_
    obtain ⟨x, rfl⟩ := Option.isSome_iff_exists.mp (hall v hv)
    rfl
  rw [sumIfComplete]
  split
  · rename_i h
    have hall := List.all_eq_true.mp h
    rw [Option.some_inj, hmap hall]
    exact ⟨fun ht => ⟨hall, ht⟩, fun ht => ht.2⟩
  · rename_i h
    exact iff_of_false (fun ht => nomatch ht) fun ht => h (List.all_eq_true.mpr ht.1)

/-- The named amounts of a complete cash state. -/
structure CashAmounts (cash : CashState) where
  opening : ℚ
  ledger : ℚ
  trading : ℚ
  transferable : ℚ
  frozen : ℚ
  receivable : ℚ
  payable : ℚ
  opening_eq : cash.openingLedgerCash = some opening
  ledger_eq : cash.ledgerCash = some ledger
  trading_eq : cash.tradingCash = some trading
  transferable_eq : cash.transferableCash = some transferable
  frozen_eq : cash.frozenCash = some frozen
  receivable_eq : cash.receivableCash = some receivable
  payable_eq : cash.payableCash = some payable

/-- The layers of the cash decomposition in order. -/
structure CashAmounts.Layered {cash : CashState} (amounts : CashAmounts cash) : Prop where
  transferable_nonneg : 0 ≤ amounts.transferable
  transferable_le_trading : amounts.transferable ≤ amounts.trading
  trading_le_ledger : amounts.trading ≤ amounts.ledger
  trading_add_frozen_le_ledger : amounts.trading + amounts.frozen ≤ amounts.ledger

theorem exists_cashAmounts {cash : CashState}
    (h : ¬CashField.all.any (fun field => (field.of cash).isNone)) :
    Nonempty (CashAmounts cash) := by
  have hsome : ∀ field ∈ CashField.all, ∃ x, field.of cash = some x := by
    intro field hfield
    cases hx : field.of cash with
    | some x => exact ⟨x, rfl⟩
    | none => exact absurd (List.any_eq_true.mpr ⟨field, hfield, by rw [hx]; rfl⟩) h
  obtain ⟨opening, hopening⟩ := hsome .openingLedgerCash (by decide)
  obtain ⟨ledger, hledger⟩ := hsome .ledgerCash (by decide)
  obtain ⟨trading, htrading⟩ := hsome .tradingCash (by decide)
  obtain ⟨transferable, htransferable⟩ := hsome .transferableCash (by decide)
  obtain ⟨frozen, hfrozen⟩ := hsome .frozenCash (by decide)
  obtain ⟨receivable, hreceivable⟩ := hsome .receivableCash (by decide)
  obtain ⟨payable, hpayable⟩ := hsome .payableCash (by decide)
  exact ⟨⟨opening, ledger, trading, transferable, frozen, receivable, payable, hopening, hledger,
    htrading, htransferable, hfrozen, hreceivable, hpayable⟩⟩

theorem layered_of_silent {account : AccountPositionSnapshot}
    (amounts : CashAmounts account.cashState) (h : cashLayerReports .exact account = []) :
    amounts.Layered := by
  obtain ⟨h, hfrozen⟩ := List.append_eq_nil_iff.mp h
  obtain ⟨hnegative, horder⟩ := List.append_eq_nil_iff.mp h
  have htransferable := List.flatMap_eq_nil_iff.mp hnegative .transferableCash (by decide)
  rw [reportIf_eq_nil] at hfrozen horder htransferable
  simp only [CashField.of, amounts.ledger_eq, amounts.trading_eq, amounts.frozen_eq,
    amounts.transferable_eq, Option.any_some, decide_eq_true_eq, not_lt, not_or]
    at hfrozen horder htransferable
  exact ⟨htransferable, horder.2, horder.1, hfrozen⟩

/-- An account without a report has its equity and its layered cash amounts. -/
theorem account_of_silent {account : AccountPositionSnapshot} {cutoffAt : Instant}
    (h : accountProblemReports .exact account cutoffAt = []) :
    (∃ equity, account.accountEquity = some equity) ∧
      ∃ amounts : CashAmounts account.cashState, amounts.Layered := by
  simp only [accountProblemReports, List.append_eq_nil_iff, reportIf_eq_nil] at h
  obtain ⟨⟨⟨⟨⟨⟨-, hequity⟩, -⟩, hincomplete⟩, hlayers⟩, -⟩, -⟩ := h
  obtain ⟨amounts⟩ := exists_cashAmounts hincomplete
  exact ⟨Option.ne_none_iff_exists'.mp hequity, amounts, layered_of_silent amounts hlayers⟩

/-- When no order repeats an identity, every order counts. -/
theorem withPriorOrder_of_fresh {orders : List OpenOrder} {seen : Dict String OpenOrder}
    (h : ∀ r ∈ withPriorOrder seen orders, r.2 = none) :
    withPriorOrder seen orders = orders.map (·, none) ∧ (orders.map (·.orderId)).Nodup ∧
      ∀ order ∈ orders, seen.get? order.orderId = none := by
  induction orders generalizing seen with
  | nil => exact ⟨rfl, List.nodup_nil, fun _ ho => absurd ho List.not_mem_nil⟩
  | cons order rest ih =>
    rw [withPriorOrder] at h ⊢
    cases hseen : seen.get? order.orderId with
    | some prior =>
      rw [hseen] at h
      exact nomatch h _ (List.mem_cons_self ..)
    | none =>
      rw [hseen] at h
      obtain ⟨heq, hnodup, habsent⟩ := ih fun r hr => h r (List.mem_cons_of_mem _ hr)
      have hread : ∀ o ∈ rest, order.orderId ≠ o.orderId ∧ seen.get? o.orderId = none := by
        intro o ho
        have := habsent o ho
        rw [Dict.get?_set] at this
        split at this
        · cases this
        · rename_i hne
          exact ⟨hne, this⟩
      refine ⟨by rw [heq, List.map_cons], ?_, ?_⟩
      · rw [List.map_cons, List.nodup_cons]
        refine ⟨fun hmem => ?_, hnodup⟩
        obtain ⟨o, ho, hid⟩ := List.mem_map.mp hmem
        exact (hread o ho).1 hid.symm
      · intro o ho
        rcases List.mem_cons.mp ho with rfl | ho
        · exact hseen
        · exact (hread o ho).2

/-- An order pass that reports nothing counts every order once and sums its sell orders. -/
theorem reconcileOrders_of_silent {account : AccountPositionSnapshot} {cutoffAt : Instant}
    (h : (reconcileOrders ctx account cutoffAt).reports = []) :
    (account.openOrders.map (·.orderId)).Nodup ∧
      ∀ securityId, ((reconcileOrders ctx account cutoffAt).sellQuantities.get?
          securityId).getD (some 0) =
        sumIfComplete ctx ((account.openOrders.filter fun o =>
          o.side = .sell ∧ o.securityId = securityId).map (·.remainingQuantity)) := by
  have hfresh : ∀ r ∈ withPriorOrder [] account.openOrders, r.2 = none := by
    intro r hr
    have hnil := List.flatMap_eq_nil_iff.mp h r hr
    cases hprior : r.2 with
    | none => rfl
    | some prior =>
      rw [hprior] at hnil
      have hmem : prior.securityId ∈ [prior.securityId, r.1.securityId].eraseDups :=
        List.mem_eraseDups.mpr (List.mem_cons_self ..)
      rw [List.map_eq_nil_iff.mp hnil] at hmem
      exact nomatch hmem
  obtain ⟨hall, hnodup, -⟩ := withPriorOrder_of_fresh hfresh
  refine ⟨hnodup, fun securityId => ?_⟩
  have hcounted : (account.openOrders.map fun o => (o, (none : Option OpenOrder))).filterMap
      (fun r => if r.2.isNone then some r.1 else none) = account.openOrders := by
    rw [List.filterMap_map]
    exact List.filterMap_some
  simp only [reconcileOrders, hall, hcounted, Dict.get?_mapValues, Dict.get?_group,
    Dict.valuesOf_map, List.filter_filter]
  split
  · simp only [Option.map_some, Option.getD_some, ← Bool.decide_and, and_comm]
  · rename_i hkey
    have hnone : (account.openOrders.filter fun o =>
        o.side = .sell ∧ o.securityId = securityId) = [] := by
      refine List.filter_eq_nil_iff.mpr fun o ho hsell => hkey ?_
      have hsell := of_decide_eq_true hsell
      exact List.mem_map.mpr ⟨_, List.mem_map.mpr ⟨o,
        List.mem_filter.mpr ⟨ho, decide_eq_true hsell.1⟩, rfl⟩, hsell.2⟩
    rw [hnone]
    rfl

/-- What one position summary says once every fact about it agreed. -/
structure PositionAgrees (account : AccountPositionSnapshot) (position : BrokerPositionFact)
    (total price : ℚ) : Prop where
  total_eq : position.totalQuantity = some total
  total_nonneg : 0 ≤ total
  price_eq : position.marketPrice = some price
  price_pos : 0 < price
  /-- The quantity is what the ledger entries of the security add up to. -/
  total_eq_ledger : total = ((account.ledgerEntries.filter
    (·.securityId = some position.securityId)).map (·.quantityDelta)).sum
  /-- The cost basis is what the ledger entries of the security add up to. -/
  cost_eq_ledger : position.reportedCostBasis = some ((account.ledgerEntries.filter
    (·.securityId = some position.securityId)).map (·.costBasisDelta)).sum
  /-- The sellable quantity fits beside the largest encumbrance. -/
  sellable : ∃ sellable unsettled frozen restricted openSell : ℚ,
    position.brokerSellableQuantity = some sellable ∧
    position.unsettledQuantity = some unsettled ∧
    position.frozenQuantity = some frozen ∧
    position.restrictedQuantity = some restricted ∧
    position.openSellOrderQuantity = some openSell ∧
    0 ≤ sellable ∧
    sellable + max (max (max unsettled frozen) restricted) openSell ≤ total
  /-- The open sell quantity is the remaining quantity of the sell orders of the security. -/
  openSell : (∀ o ∈ account.openOrders, o.side = .sell → o.securityId = position.securityId →
      o.remainingQuantity.isSome) ∧
    position.openSellOrderQuantity = some ((account.openOrders.filter fun o =>
      o.side = .sell ∧ o.securityId = position.securityId).map
        (·.remainingQuantity.getD 0)).sum

/-- A quantity without a report is present and not negative. -/
theorem quantity_of_silent {position : BrokerPositionFact} {quantity : PositionQuantity}
    {valuation portfolio : Bool}
    (h : quantityReports accountId position quantity valuation portfolio = []) :
    ∃ value, quantity.of position = some value ∧ 0 ≤ value := by
  rw [quantityReports] at h
  split at h
  · exact absurd h (List.cons_ne_nil _ _)
  · rename_i value hvalue
    exact ⟨value, hvalue, not_lt.mp (reportIf_eq_nil.mp h)⟩

theorem marketPrice_of_silent {position : BrokerPositionFact}
    (h : marketPriceReports accountId position = []) :
    ∃ price, position.marketPrice = some price ∧ 0 < price := by
  rw [marketPriceReports] at h
  split at h
  · exact absurd h (List.cons_ne_nil _ _)
  · rename_i price hprice
    exact ⟨price, hprice, not_le.mp (reportIf_eq_nil.mp h)⟩

theorem costBasis_of_silent {position : BrokerPositionFact}
    (h : costBasisReports accountId position = []) :
    ∃ cost, position.reportedCostBasis = some cost := by
  rw [costBasisReports] at h
  split at h
  · exact absurd h (List.cons_ne_nil _ _)
  · rename_i cost hcost
    exact ⟨cost, hcost⟩

/-- A sellable quantity without a report is present and fits beside the encumbrances. -/
theorem sellable_of_silent {position : BrokerPositionFact} {total : ℚ}
    (htotal : usableTotal position = some total)
    (h : sellableReports accountId position .exact = []) :
    ∃ sellable, position.brokerSellableQuantity = some sellable ∧ 0 ≤ sellable ∧
      sellable + encumberedQuantity position ≤ total := by
  rw [sellableReports] at h
  obtain ⟨h, hencumbered⟩ := List.append_eq_nil_iff.mp h
  obtain ⟨hbounds, -⟩ := List.append_eq_nil_iff.mp h
  split at hbounds
  · exact absurd hbounds (List.cons_ne_nil _ _)
  · rename_i sellable hsellable
    have hnonneg : 0 ≤ sellable := not_lt.mp fun hlt => reportIf_eq_nil.mp hbounds (.inl hlt)
    refine ⟨sellable, hsellable, hnonneg, ?_⟩
    split at hencumbered
    · exact absurd hencumbered (List.cons_ne_nil _ _)
    · rw [reportIf_eq_nil] at hencumbered
      simp only [bothSatisfy, htotal, hsellable, Option.any_some, decide_eq_true hnonneg,
        Bool.true_and, decide_eq_true_eq, not_lt] at hencumbered
      exact hencumbered

/-- A position pass that reports nothing makes the summary agree with ledger and orders. -/
theorem position_of_silent {account : AccountPositionSnapshot} {position : BrokerPositionFact}
    {cutoffAt : Instant} {sellOrders : Dict String (Option ℚ)}
    (horders : (sellOrders.get? position.securityId).getD (some 0) =
      sumIfComplete .exact ((account.openOrders.filter fun o =>
        o.side = .sell ∧ o.securityId = position.securityId).map (·.remainingQuantity)))
    (h : positionProblemReports account.accountId position .exact cutoffAt
      (ledgerBySecurity .exact account.ledgerEntries) sellOrders = []) :
    ∃ total price, PositionAgrees account position total price := by
  simp only [positionProblemReports, List.append_eq_nil_iff] at h
  obtain ⟨⟨⟨⟨⟨⟨⟨-, htotal⟩, hencumbrances⟩, hsellable⟩, hcost⟩, hprice⟩, hledger⟩, hsell⟩ := h
  obtain ⟨total, htotal, htotal0⟩ := quantity_of_silent htotal
  obtain ⟨price, hprice, hprice0⟩ := marketPrice_of_silent hprice
  obtain ⟨cost, hcost⟩ := costBasis_of_silent hcost
  simp only [PositionQuantity.of] at htotal
  have husable : usableTotal position = some total := by
    rw [usableTotal, htotal, Option.filter_some, if_pos (decide_eq_true htotal0)]
  obtain ⟨sellable, hsellable, hsellable0, hfits⟩ := sellable_of_silent husable hsellable
  have hencumbrance : ∀ quantity ∈ PositionQuantity.encumbrances,
      ∃ value, quantity.of position = some value := fun quantity hmem => by
    obtain ⟨value, hvalue, -⟩ := quantity_of_silent
      (List.append_eq_nil_iff.mp (List.flatMap_eq_nil_iff.mp hencumbrances quantity hmem)).1
    exact ⟨value, hvalue⟩
  obtain ⟨unsettled, hunsettled⟩ := hencumbrance .unsettled (by decide)
  obtain ⟨frozen, hfrozen⟩ := hencumbrance .frozen (by decide)
  obtain ⟨restricted, hrestricted⟩ := hencumbrance .restricted (by decide)
  obtain ⟨openSell, hopenSell⟩ := hencumbrance .openSellOrder (by decide)
  simp only [PositionQuantity.of] at hunsettled hfrozen hrestricted hopenSell
  simp only [ledgerMismatchReports, List.append_eq_nil_iff, reportIf_eq_nil, htotal, hcost,
    Option.any_some, decide_eq_true_eq, not_not, ledgerBySecurity_get?,
    DecimalContext.exact_sum] at hledger
  simp only [sellOrderMismatchReports, reportIf_eq_nil, not_or, not_not, horders, hopenSell]
    at hsell
  obtain ⟨-, -, hsum⟩ := hsell
  obtain ⟨hsome, hsum⟩ := sumIfComplete_eq_some_iff.mp hsum.symm
  exact ⟨total, price,
    { total_eq := htotal
      total_nonneg := htotal0
      price_eq := hprice
      price_pos := hprice0
      total_eq_ledger := hledger.1.symm
      cost_eq_ledger := by rw [hcost, hledger.2]
      sellable := by
        refine ⟨sellable, unsettled, frozen, restricted, openSell, hsellable, hunsettled, hfrozen,
          hrestricted, hopenSell, hsellable0, ?_⟩
        simpa only [encumberedQuantity, hunsettled, hfrozen, hrestricted, hopenSell,
          Option.getD_some] using hfits
      openSell := by
        refine ⟨fun o ho hside hid => ?_, ?_⟩
        · exact hsome _ (List.mem_map.mpr ⟨o, List.mem_filter.mpr
            ⟨ho, decide_eq_true ⟨hside, hid⟩⟩, rfl⟩)
        · rw [hopenSell, ← hsum, DecimalContext.exact_sum, List.map_map]
          rfl }⟩

/-- The first earlier record of an identity in an account. -/
def firstPrior (priorLedger : List AuthoritativeLedgerEntry) (accountId entryId : String) :
    Option AuthoritativeLedgerEntry :=
  priorLedger.find? fun p => (p.accountId, p.entryId) = (accountId, entryId)

theorem priorEntries_get? (priorLedger : List AuthoritativeLedgerEntry)
    (accountId entryId : String) :
    (priorEntries priorLedger).get? (accountId, entryId) =
      firstPrior priorLedger accountId entryId := by
  rw [priorEntries, Dict.get?_ofFirst,
    Dict.get?_map_key fun p : AuthoritativeLedgerEntry => (p.accountId, p.entryId)]
  rfl

/-- When nothing was removed, corrections only name current records. -/
theorem entriesById_of_silent {account : AccountPositionSnapshot}
    (h : ledgerHistoryReports account prior = []) :
    entriesById account prior = groupById account.ledgerEntries := by
  have hremoved := List.map_eq_nil_iff.mp (List.append_eq_nil_iff.mp h).1
  rw [entriesById, hremoved, List.map_nil, List.nil_append]

/-- A silent history comparison finds every first earlier record unchanged. -/
theorem prior_of_silent {account : AccountPositionSnapshot} {entryId : String}
    {p : AuthoritativeLedgerEntry}
    (h : ledgerHistoryReports account (priorEntries priorLedger) = [])
    (hp : firstPrior priorLedger account.accountId entryId = some p) :
    ∃ entry ∈ account.ledgerEntries, entry.inAccount account.accountId = p := by
  obtain ⟨hremoved, hentries⟩ := List.append_eq_nil_iff.mp h
  rw [← priorEntries_get?] at hp
  have hmem := Dict.mem_of_get? hp
  have hid : entryId ∈ entryIds account.ledgerEntries := by
    by_contra hnot
    have hin : p ∈ removedEntries account (priorEntries priorLedger) :=
      List.mem_map.mpr ⟨_, List.mem_filter.mpr ⟨hmem, decide_eq_true ⟨rfl, hnot⟩⟩, rfl⟩
    rw [List.map_eq_nil_iff.mp hremoved] at hin
    exact List.not_mem_nil hin
  obtain ⟨entry, hentry, rfl⟩ := List.mem_map.mp hid
  refine ⟨entry, hentry, ?_⟩
  have hsilent := (List.append_eq_nil_iff.mp (List.flatMap_eq_nil_iff.mp hentries entry hentry)).1
  rw [reportIf_eq_nil, hp, Option.any_some, decide_eq_true_iff, not_not] at hsilent
  exact hsilent.symm

theorem exists_target_of_silent {account : AccountPositionSnapshot} {targetId : String}
    (h : ledgerHistoryReports account prior = []) (hentry : entry ∈ account.ledgerEntries)
    (htarget : entry.correctsEntryId = some targetId) :
    ∃ target ∈ account.ledgerEntries, target.entryId = targetId := by
  have hcorrection := (List.append_eq_nil_iff.mp
    (List.flatMap_eq_nil_iff.mp (List.append_eq_nil_iff.mp h).2 entry hentry)).2
  obtain ⟨⟨target, hone⟩, -⟩ := correction_of_silent hcorrection htarget
  rw [entriesById_of_silent h, entriesOf_groupById] at hone
  have hmem : target ∈ account.ledgerEntries.filter (·.entryId = targetId) :=
    hone ▸ List.mem_singleton_self target
  exact ⟨target, (List.mem_filter.mp hmem).1, of_decide_eq_true (List.mem_filter.mp hmem).2⟩

theorem not_transGen_of_silent {account : AccountPositionSnapshot}
    (hnodup : (entryIds account.ledgerEntries).Nodup) (h : ledgerHistoryReports account prior = [])
    (entry : PositionLedgerEntry) :
    ¬Relation.TransGen (Corrects account.ledgerEntries) entry entry := by
  intro hcycle
  obtain ⟨target, ⟨hentry, -, hcorrects⟩, -⟩ := Relation.TransGen.head'_iff.mp hcycle
  have hcorrection := (List.append_eq_nil_iff.mp
    (List.flatMap_eq_nil_iff.mp (List.append_eq_nil_iff.mp h).2 entry hentry)).2
  have hfree := (correction_of_silent hcorrection hcorrects).2
  rw [entriesById_of_silent h, hasCorrectionCycle_of_transGen hnodup hcycle] at hfree
  exact Bool.noConfusion hfree

/-- The market value of a summary with a quantity and a price. -/
def marketValue (position : BrokerPositionFact) : ℚ :=
  position.totalQuantity.getD 0 * position.marketPrice.getD 0

/-- What the silence of every pass means for one account. -/
structure AccountAgrees (priorLedger : List AuthoritativeLedgerEntry)
    (account : AccountPositionSnapshot) : Prop where
  /-- Opening cash and ledger give the ledger cash; cash and holdings give the equity. -/
  balances : ∃ (amounts : CashAmounts account.cashState) (equity : ℚ),
    amounts.Layered ∧ account.accountEquity = some equity ∧
    amounts.opening + (account.ledgerEntries.map (·.cashDelta)).sum = amounts.ledger ∧
    amounts.ledger + (account.positions.map marketValue).sum + amounts.receivable -
      amounts.payable = equity
  entryIds_nodup : (entryIds account.ledgerEntries).Nodup
  orderIds_nodup : (account.openOrders.map (·.orderId)).Nodup
  /-- The first earlier record of every identity is listed with the same content. -/
  prior_mem : ∀ entryId p, firstPrior priorLedger account.accountId entryId = some p →
    ∃ entry ∈ account.ledgerEntries, entry.inAccount account.accountId = p
  /-- Every correction names a listed record. -/
  correction_mem : ∀ entry ∈ account.ledgerEntries, ∀ targetId,
    entry.correctsEntryId = some targetId →
      ∃ target ∈ account.ledgerEntries, target.entryId = targetId
  /-- No chain of corrections returns to its start. -/
  correction_acyclic : ∀ entry,
    ¬Relation.TransGen (Corrects account.ledgerEntries) entry entry
  positions : ∀ position ∈ account.positions,
    ∃ total price, PositionAgrees account position total price

theorem sumIfComplete_marketValue {account : AccountPositionSnapshot}
    (h : ∀ position ∈ account.positions, ∃ total price,
      PositionAgrees account position total price) :
    sumIfComplete .exact (account.positions.map (positionMarketValue .exact)) =
      some (account.positions.map marketValue).sum := by
  have hvalue : ∀ position ∈ account.positions,
      positionMarketValue .exact position = some (marketValue position) := by
    intro position hmem
    obtain ⟨total, price, hagrees⟩ := h position hmem
    rw [positionMarketValue, hagrees.total_eq, Option.bind_some, hagrees.price_eq,
      Option.bind_some, if_pos ⟨hagrees.total_nonneg, hagrees.price_pos⟩, marketValue,
      hagrees.total_eq, hagrees.price_eq]
    rfl
  rw [List.map_congr_left hvalue]
  refine sumIfComplete_eq_some_iff.mpr ⟨fun v hv => ?_, ?_⟩
  · obtain ⟨position, -, rfl⟩ := List.mem_map.mp hv
    rfl
  · rw [DecimalContext.exact_sum, List.map_map]
    rfl

/-- An account about which no pass reports anything agrees with itself and its past. -/
theorem accountAgrees_of_silent {account : AccountPositionSnapshot} {cutoffAt : Instant}
    {priorCash : Dict String AccountCashState}
    (h : accountReports .exact cutoffAt (priorEntries priorLedger) priorCash account = []) :
    AccountAgrees priorLedger account := by
  simp only [accountReports, List.append_eq_nil_iff] at h
  obtain ⟨⟨⟨⟨⟨⟨⟨⟨⟨⟨hproblems, -⟩, hhistory⟩, hledger⟩, -⟩, horders⟩, -⟩, -⟩, hpositions⟩, -⟩,
    hcash⟩ := h
  obtain ⟨⟨equity, hequity⟩, amounts, hlayered⟩ := account_of_silent hproblems
  obtain ⟨hnodup, hdelta, hsums⟩ := reconstructLedger_of_silent hledger
  obtain ⟨horderIds, hsell⟩ := reconcileOrders_of_silent horders
  have hagree : ∀ position ∈ account.positions,
      ∃ total price, PositionAgrees account position total price := by
    intro position hmem
    have hsilent := List.flatMap_eq_nil_iff.mp hpositions position hmem
    rw [accountLedger, hsums] at hsilent
    exact position_of_silent (hsell position.securityId) hsilent
  obtain ⟨hledgerCash, hequityReports⟩ := List.append_eq_nil_iff.mp hcash
  rw [ledgerCashReports, reportIf_eq_nil, accountLedger, hdelta, amounts.opening_eq,
    amounts.ledger_eq] at hledgerCash
  simp only [Option.any_some, decide_eq_true_eq, not_not, DecimalContext.exact_sum] at hledgerCash
  rw [equityReports, reportIf_eq_nil, sumIfComplete_marketValue hagree, amounts.ledger_eq,
    amounts.receivable_eq, amounts.payable_eq, hequity] at hequityReports
  simp only [Option.any_some, decide_eq_true_eq, not_not] at hequityReports
  exact
    { balances := ⟨amounts, equity, hlayered, hequity, hledgerCash, hequityReports⟩
      entryIds_nodup := hnodup
      orderIds_nodup := horderIds
      prior_mem := fun _ _ hp => prior_of_silent hhistory hp
      correction_mem := fun _ hentry _ htarget => exists_target_of_silent hhistory hentry htarget
      correction_acyclic := not_transGen_of_silent hnodup hhistory
      positions := hagree }

/-- In exact arithmetic a reconciled snapshot agrees in every account. -/
theorem accountAgrees_of_reconciled {command : PositionSnapshotCommand}
    {priorLedger : List AuthoritativeLedgerEntry} {priorCashStates : List AccountCashState}
    (h : (reconcile .exact command priorLedger priorCashStates).disposition = .reconciled)
    {account : AccountPositionSnapshot} (hmem : account ∈ command.accounts) :
    AccountAgrees priorLedger account := by
  rw [reconcile_disposition_iff] at h
  simp only [reconciliationReports, List.append_eq_nil_iff] at h
  obtain ⟨⟨⟨-, haccounts⟩, -⟩, -⟩ := h
  exact accountAgrees_of_silent (List.flatMap_eq_nil_iff.mp haccounts account hmem)

namespace Sample

def evidence : PositionEvidence := SampleBroker.evidence 100

def purchase : PositionLedgerEntry where
  entryId := "fill-1"
  entryType := .fill
  securityId := some "S"
  quantityDelta := 12
  costBasisDelta := 60
  cashDelta := -60
  occurredAt := 50
  evidence := evidence
  correctionReason_isSome := Option.isSome_none

def correction : PositionLedgerEntry where
  entryId := "fill-2"
  entryType := .fill
  securityId := some "S"
  quantityDelta := -2
  costBasisDelta := -10
  cashDelta := 10
  occurredAt := 60
  correctsEntryId := some "fill-1"
  correctionReason := some "quantity"
  evidence := evidence

def cash : CashState where
  cashAvailabilitySemantics := .brokerFinalCashLayers
  ledgerCashSemantics := .openingBalancePlusAuthoritativeLedger
  openingLedgerCash := some 100
  openingLedgerCashEvidence := evidence
  ledgerCash := some 50
  tradingCash := some 40
  transferableCash := some 30
  frozenCash := some 10
  receivableCash := some 0
  payableCash := some 0
  evidence := evidence

def position : BrokerPositionFact where
  positionId := "P"
  origin := .external
  lifecycleId := "L"
  issuerId := "I"
  securityId := "S"
  totalQuantity := some 10
  brokerSellableQuantity := some 6
  sellableQuantitySemantics := .brokerFinalSellable
  encumbranceQuantitySemantics := .overlappingNonSellable
  unsettledQuantity := some 0
  frozenQuantity := some 0
  restrictedQuantity := some 0
  openSellOrderQuantity := some 4
  reportedCostBasis := some 50
  marketPrice := some 5
  evidence := evidence

def order : OpenOrder where
  orderId := "O"
  securityId := "S"
  side := .sell
  remainingQuantity := some 4
  reservedCash := none
  reservedCashSemantics := .notApplicable
  evidence := evidence

def account : AccountPositionSnapshot where
  accountId := "A"
  accountType := "SIMULATED_CASH"
  currency := "CNY"
  snapshotEvidence := evidence
  accountEquity := some 100
  accountEquityEvidence := evidence
  cashState := cash
  positions := [position]
  openOrders := [order]
  ledgerEntries := [purchase, correction]
  executionRestrictions := []

def command : PositionSnapshotCommand where
  snapshotId := "sample"
  cutoffAt := 100
  snapshotEvidence := evidence
  valuationCurrency := "CNY"
  accounts := [account]
  annotations := []
  annotationIds_nodup := List.nodup_nil

/-- A second record under the identity of the purchase, with another quantity. -/
def rewrittenPurchase : AuthoritativeLedgerEntry :=
  { purchase.inAccount "A" with quantityDelta := 13 }

end Sample

/-- The sample reconciles against its own purchase, and so agrees with it. -/
theorem sample_agrees : AccountAgrees [Sample.purchase.inAccount "A"] Sample.account :=
  have h : (reconcile .exact Sample.command [Sample.purchase.inAccount "A"] []).disposition =
      .reconciled := by decide +kernel
  accountAgrees_of_reconciled h (List.mem_singleton_self _)

/-- Only the first earlier record of an identity is compared: a second one with other
content is neither listed nor reported. -/
theorem sample_reconciled_without_second_prior :
    (reconcile .exact Sample.command
      [Sample.purchase.inAccount "A", Sample.rewrittenPurchase] []).disposition = .reconciled ∧
    Sample.rewrittenPurchase.accountId = Sample.account.accountId ∧
    ¬∃ entry ∈ Sample.account.ledgerEntries,
      entry.inAccount Sample.account.accountId = Sample.rewrittenPurchase := by
  decide +kernel

end StockProfiler.PositionManagement
