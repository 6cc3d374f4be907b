import StockProfiler.PositionManagement.Ledger

/-!
# Account passes of a reconciliation

Cash layers, open orders, position summaries and the two balance equations of
one account, each as the list of reports it makes. A comparison is skipped when
one of its values is absent; the absence is then a report of its own.
-/

namespace StockProfiler.PositionManagement

variable (ctx : DecimalContext) (account : AccountPositionSnapshot)

/-- The sum of a list in which no value is absent. -/
def sumIfComplete (values : List (Option ℚ)) : Option ℚ :=
  if values.all (·.isSome) then some (ctx.sum (values.filterMap id)) else none

/-- A comparison of optional amounts holds only between present ones. -/
def bothSatisfy (p : ℚ → ℚ → Bool) (a b : Option ℚ) : Bool :=
  a.any fun x => b.any fun y => p x y

/-- A decomposed cash amount of one account. -/
inductive CashField where
  | openingLedgerCash
  | ledgerCash
  | tradingCash
  | transferableCash
  | frozenCash
  | receivableCash
  | payableCash
  deriving DecidableEq

namespace CashField

/-- The field name in reports. -/
def field : CashField → String
  | openingLedgerCash => "opening_ledger_cash"
  | ledgerCash => "ledger_cash"
  | tradingCash => "trading_cash"
  | transferableCash => "transferable_cash"
  | frozenCash => "frozen_cash"
  | receivableCash => "receivable_cash"
  | payableCash => "payable_cash"

/-- The code of a negative amount. -/
def negativeCode : CashField → String
  | openingLedgerCash => "CASH_OPENING_LEDGER_CASH_NEGATIVE"
  | ledgerCash => "CASH_LEDGER_CASH_NEGATIVE"
  | tradingCash => "CASH_TRADING_CASH_NEGATIVE"
  | transferableCash => "CASH_TRANSFERABLE_CASH_NEGATIVE"
  | frozenCash => "CASH_FROZEN_CASH_NEGATIVE"
  | receivableCash => "CASH_RECEIVABLE_CASH_NEGATIVE"
  | payableCash => "CASH_PAYABLE_CASH_NEGATIVE"

/-- The amount of one field. -/
def of (cash : CashState) : CashField → Option ℚ
  | openingLedgerCash => cash.openingLedgerCash
  | ledgerCash => cash.ledgerCash
  | tradingCash => cash.tradingCash
  | transferableCash => cash.transferableCash
  | frozenCash => cash.frozenCash
  | receivableCash => cash.receivableCash
  | payableCash => cash.payableCash

/-- The fields that may not be negative; the opening balance is not among them. -/
def layers : List CashField :=
  [ledgerCash, tradingCash, transferableCash, frozenCash, receivableCash, payableCash]

/-- Every field of a complete cash state. -/
def all : List CashField := openingLedgerCash :: layers

end CashField

/-- Negative layers, layers out of order, and frozen cash beyond the ledger. -/
def cashLayerReports : List ConflictReport :=
  let cash := account.cashState
  CashField.layers.flatMap (fun layer =>
    reportIf ((layer.of cash).any (· < 0))
      (portfolioReport (some account.accountId) none layer.negativeCode
        ["cash_state." ++ layer.field] false)) ++
  reportIf (cash.ledgerCash.any fun ledger => cash.tradingCash.any fun trading =>
      cash.transferableCash.any fun transferable => ledger < trading ∨ trading < transferable)
    (portfolioReport (some account.accountId) none "CASH_AVAILABILITY_LAYERS_INCONSISTENT"
      ["cash_state.ledger_cash", "cash_state.trading_cash",
        "cash_state.transferable_cash"] false) ++
  reportIf (cash.ledgerCash.any fun ledger => cash.tradingCash.any fun trading =>
      cash.frozenCash.any fun frozen => ledger < ctx.add trading frozen)
    (portfolioReport (some account.accountId) none "CASH_FROZEN_EXCEEDS_LEDGER_AVAILABILITY"
      ["cash_state.ledger_cash", "cash_state.trading_cash", "cash_state.frozen_cash"] false)

/-- Report the defects of the account and of its cash state. -/
def accountProblemReports (cutoffAt : Instant) : List ConflictReport :=
  let cash := account.cashState
  let report code fields := portfolioReport (some account.accountId) none code fields false
  let evidence e fields :=
    evidenceReports e cutoffAt (some account.accountId) none fields true true false
  reportIf (cash.cashAvailabilitySemantics = .unknown)
    (report "CASH_AVAILABILITY_SEMANTICS_UNKNOWN" ["cash_state.cash_availability_semantics"]) ++
  reportIf (cash.ledgerCashSemantics = .unknown)
    (report "LEDGER_CASH_SEMANTICS_UNKNOWN" ["cash_state.ledger_cash_semantics"]) ++
  evidence account.snapshotEvidence ["snapshot_evidence"] ++
  reportIf (account.accountEquity = none) (report "ACCOUNT_EQUITY_MISSING" ["account_equity"]) ++
  evidence account.accountEquityEvidence ["account_equity_evidence"] ++
  reportIf (CashField.all.any fun field => (field.of cash).isNone)
    (report "CASH_STATE_INCOMPLETE" (CashField.all.map CashField.field)) ++
  cashLayerReports ctx account ++
  evidence cash.openingLedgerCashEvidence ["cash_state.opening_ledger_cash_evidence"] ++
  evidence cash.evidence ["cash_state.evidence"]

/-- The market value of one position, absent unless quantity and price are usable. -/
def positionMarketValue (position : BrokerPositionFact) : Option ℚ :=
  position.totalQuantity.bind fun quantity => position.marketPrice.bind fun price =>
    if 0 ≤ quantity ∧ 0 < price then some (ctx.mul quantity price) else none

/-- Compare the reconstructed cash with the ledger cash. -/
def ledgerCashReports (ledgerCashDelta : Option ℚ) : List ConflictReport :=
  let cash := account.cashState
  reportIf (cash.openingLedgerCash.any fun opening => ledgerCashDelta.any fun delta =>
      cash.ledgerCash.any fun ledger => ctx.add opening delta ≠ ledger)
    (portfolioReport (some account.accountId) none "LEDGER_CASH_MISMATCH"
      ["cash_state.ledger_cash", "cash_state.opening_ledger_cash", "ledger_entries.cash_delta"]
      false)

/-- Compare cash and market value with the account equity. -/
def equityReports : List ConflictReport :=
  let cash := account.cashState
  reportIf ((sumIfComplete ctx (account.positions.map (positionMarketValue ctx))).any fun value =>
      cash.ledgerCash.any fun ledger => cash.receivableCash.any fun receivable =>
      cash.payableCash.any fun payable => account.accountEquity.any fun equity =>
        ctx.sub (ctx.add (ctx.add ledger value) receivable) payable ≠ equity)
    (portfolioReport (some account.accountId) none "ACCOUNT_EQUITY_MISMATCH"
      ["account_equity", "cash_state.ledger_cash", "positions.total_quantity",
        "positions.market_price", "cash_state.receivable_cash", "cash_state.payable_cash"] false)

/-- Compare reconstructed cash and equity with the reported ones. -/
def cashAndEquityReports (ledgerCashDelta : Option ℚ) : List ConflictReport :=
  ledgerCashReports ctx account ledgerCashDelta ++ equityReports ctx account

/-- Every order with the first order before it that has the same identity. -/
def withPriorOrder : Dict String OpenOrder → List OpenOrder → List (OpenOrder × Option OpenOrder)
  | _, [] => []
  | ordersById, order :: rest =>
    match ordersById.get? order.orderId with
    | some prior => (order, some prior) :: withPriorOrder ordersById rest
    | none => (order, none) :: withPriorOrder (ordersById.set order.orderId order) rest

/-- A repeated identity is reported for the security of either order. -/
def duplicatedOrderReports (accountId : String) (order prior : OpenOrder) : List ConflictReport :=
  [prior.securityId, order.securityId].eraseDups.map fun securityId =>
    { accountId := some accountId
      securityId := some securityId
      code := "OPEN_ORDER_ID_DUPLICATED"
      fields := ["open_orders.order_id"]
      blocksExactStatisticalQuantity := true
      portfolioDependency := order.side = .buy ∨ prior.side = .buy }

/-- A defect of the remaining quantity. -/
def remainingQuantityReports (accountId : String) (order : OpenOrder) : List ConflictReport :=
  let report (problem : String) : ConflictReport :=
    { accountId := some accountId
      securityId := some order.securityId
      code := order.side.text ++ "_ORDER_REMAINING_QUANTITY_" ++ problem
      fields := ["open_orders.remaining_quantity"]
      blocksExactStatisticalQuantity := true
      portfolioDependency := order.side = .buy }
  match order.remainingQuantity with
  | none => [report "MISSING"]
  | some quantity => reportIf (quantity < 0) (report "NEGATIVE")

/-- A sell order reserves no cash. -/
def sellReservationReports (accountId : String) (order : OpenOrder) : List ConflictReport :=
  reportIf (order.reservedCash.isSome ∨ order.reservedCashSemantics ≠ .notApplicable)
    { accountId := some accountId
      securityId := some order.securityId
      code := "SELL_ORDER_CASH_RESERVATION_INVALID"
      fields := ["open_orders.reserved_cash", "open_orders.reserved_cash_semantics"]
      blocksExactStatisticalQuantity := true }

/-- A buy order reserves a known nonnegative amount of final broker cash. -/
def buyReservationReports (accountId : String) (order : OpenOrder) : List ConflictReport :=
  let report code fields :=
    portfolioReport (some accountId) (some order.securityId) code fields false
  reportIf (order.reservedCashSemantics ≠ .brokerFinalReservedCash)
    (report "BUY_ORDER_RESERVED_CASH_SEMANTICS_UNKNOWN" ["open_orders.reserved_cash_semantics"]) ++
  match order.reservedCash with
  | none => [report "BUY_ORDER_RESERVED_CASH_MISSING" ["open_orders.reserved_cash"]]
  | some reserved =>
    reportIf (reserved < 0)
      (report "BUY_ORDER_RESERVED_CASH_NEGATIVE" ["open_orders.reserved_cash"])

/-- Reports about the first order of its identity. -/
def countedOrderReports (accountId : String) (cutoffAt : Instant) (order : OpenOrder) :
    List ConflictReport :=
  evidenceReports order.evidence cutoffAt (some accountId) (some order.securityId)
    ["open_orders.evidence"] true (order.side = .buy) false ++
  remainingQuantityReports accountId order ++
  match order.side with
  | .sell => sellReservationReports accountId order
  | .buy => buyReservationReports accountId order

/-- What the open orders of one account reserve. -/
structure OrderReconciliation where
  reports : List ConflictReport
  sellQuantities : Dict String (Option ℚ)
  buyReserves : Option ℚ
  sellSecurityIds : List String

/-- Read the open orders of one account; only the first order of an identity counts. -/
def reconcileOrders (cutoffAt : Instant) : OrderReconciliation :=
  let read := withPriorOrder [] account.openOrders
  let counted := read.filterMap fun r => if r.2.isNone then some r.1 else none
  let selling := counted.filter (·.side = .sell)
  { reports := read.flatMap fun r =>
      match r.2 with
      | some prior => duplicatedOrderReports account.accountId r.1 prior
      | none => countedOrderReports account.accountId cutoffAt r.1
    sellQuantities :=
      (Dict.group (selling.map fun o => (o.securityId, o.remainingQuantity))).mapValues
        (sumIfComplete ctx)
    buyReserves := sumIfComplete ctx ((counted.filter (·.side = .buy)).map (·.reservedCash))
    sellSecurityIds := (account.openOrders.filter (·.side = .sell)).map (·.securityId) }

/-- Cash reserved by buy orders is part of the frozen cash. -/
def buyReserveReports (buyReserves : Option ℚ) : List ConflictReport :=
  reportIf (bothSatisfy (fun reserves frozen => frozen < reserves) buyReserves
      account.cashState.frozenCash)
    (portfolioReport (some account.accountId) none "BUY_ORDER_RESERVE_EXCEEDS_FROZEN_CASH"
      ["open_orders.reserved_cash", "cash_state.frozen_cash"] false)

/-- A quantity of a broker position summary. -/
inductive PositionQuantity where
  | total
  | unsettled
  | frozen
  | restricted
  | openSellOrder
  deriving DecidableEq

namespace PositionQuantity

/-- The field name in reports. -/
def field : PositionQuantity → String
  | total => "total_quantity"
  | unsettled => "unsettled_quantity"
  | frozen => "frozen_quantity"
  | restricted => "restricted_quantity"
  | openSellOrder => "open_sell_order_quantity"

/-- The text its codes begin with. -/
def codeStem : PositionQuantity → String
  | total => "TOTAL_QUANTITY"
  | unsettled => "UNSETTLED_QUANTITY"
  | frozen => "FROZEN_QUANTITY"
  | restricted => "RESTRICTED_QUANTITY"
  | openSellOrder => "OPEN_SELL_ORDER_QUANTITY"

/-- The reported quantity. -/
def of (position : BrokerPositionFact) : PositionQuantity → Option ℚ
  | total => position.totalQuantity
  | unsettled => position.unsettledQuantity
  | frozen => position.frozenQuantity
  | restricted => position.restrictedQuantity
  | openSellOrder => position.openSellOrderQuantity

/-- The quantities that are part of the total. -/
def encumbrances : List PositionQuantity := [unsettled, frozen, restricted, openSellOrder]

end PositionQuantity

/-- The total quantity when it is present and not negative. -/
def usableTotal (position : BrokerPositionFact) : Option ℚ :=
  position.totalQuantity.filter (0 ≤ ·)

section Position

variable (accountId : String) (position : BrokerPositionFact)

/-- A blocking report about one position. -/
def positionReport (code : String) (fields : List String) (portfolio valuation : Bool) :
    ConflictReport where
  accountId := some accountId
  securityId := some position.securityId
  code := code
  fields := fields
  blocksExactStatisticalQuantity := true
  portfolioDependency := portfolio
  blocksCurrentValuation := valuation

/-- A missing or negative quantity. -/
def quantityReports (quantity : PositionQuantity) (valuation portfolio : Bool) :
    List ConflictReport :=
  match quantity.of position with
  | none => [positionReport accountId position (quantity.codeStem ++ "_MISSING")
      ["positions." ++ quantity.field] portfolio valuation]
  | some value => reportIf (value < 0)
      (positionReport accountId position (quantity.codeStem ++ "_NEGATIVE")
        ["positions." ++ quantity.field] portfolio valuation)

/-- An encumbrance that is missing, negative or larger than the total. -/
def encumbranceReports (quantity : PositionQuantity) : List ConflictReport :=
  quantityReports accountId position quantity false false ++
  reportIf (bothSatisfy (fun value total => total < value) (quantity.of position)
      (usableTotal position))
    (positionReport accountId position (quantity.codeStem ++ "_OUT_OF_BOUNDS")
      ["positions." ++ quantity.field, "positions.total_quantity"] false false)

/-- The largest overlapping encumbrance, an absent one counting as zero. -/
def encumberedQuantity : ℚ :=
  max (max (max (position.unsettledQuantity.getD 0) (position.frozenQuantity.getD 0))
    (position.restrictedQuantity.getD 0)) (position.openSellOrderQuantity.getD 0)

/-- The sellable quantity against its bounds and the encumbrances. -/
def sellableReports (ctx : DecimalContext) : List ConflictReport :=
  let report code fields := positionReport accountId position code fields false false
  (match position.brokerSellableQuantity with
    | none =>
      [report "BROKER_SELLABLE_QUANTITY_MISSING" ["positions.broker_sellable_quantity"]]
    | some sellable =>
      reportIf (sellable < 0 ∨ (usableTotal position).any (· < sellable))
        (report "BROKER_SELLABLE_QUANTITY_OUT_OF_BOUNDS"
          ["positions.broker_sellable_quantity", "positions.total_quantity"])) ++
  reportIf (position.sellableQuantitySemantics = .unknown)
    (report "SELLABLE_QUANTITY_SEMANTICS_UNKNOWN" ["positions.sellable_quantity_semantics"]) ++
  match position.encumbranceQuantitySemantics with
  | .unknown => [report "ENCUMBRANCE_QUANTITY_SEMANTICS_UNKNOWN"
      ["positions.encumbrance_quantity_semantics"]]
  | .overlappingNonSellable =>
    reportIf (bothSatisfy
        (fun total sellable => 0 ≤ sellable && total <
          ctx.add sellable (encumberedQuantity position))
        (usableTotal position) position.brokerSellableQuantity)
      (report "BROKER_SELLABLE_QUANTITY_CONTRADICTS_ENCUMBRANCES"
        ["positions.broker_sellable_quantity", "positions.unsettled_quantity",
          "positions.frozen_quantity", "positions.restricted_quantity",
          "positions.open_sell_order_quantity", "positions.total_quantity"])

/-- A missing or negative cost basis. -/
def costBasisReports : List ConflictReport :=
  match position.reportedCostBasis with
  | none => [positionReport accountId position "COST_BASIS_MISSING"
      ["positions.reported_cost_basis"] false false]
  | some cost => reportIf (cost < 0) (positionReport accountId position "COST_BASIS_NEGATIVE"
      ["positions.reported_cost_basis"] false false)

/-- A missing or nonpositive price. -/
def marketPriceReports : List ConflictReport :=
  match position.marketPrice with
  | none => [positionReport accountId position "MARKET_PRICE_MISSING"
      ["positions.market_price"] true true]
  | some price => reportIf (price ≤ 0) (positionReport accountId position
      "MARKET_PRICE_NON_POSITIVE" ["positions.market_price"] true true)

/-- The summary against the ledger sums of its security. -/
def ledgerMismatchReports (ledgerBySecurity : Dict String (ℚ × ℚ)) : List ConflictReport :=
  let sums := (ledgerBySecurity.get? position.securityId).getD (0, 0)
  reportIf (position.totalQuantity.any (sums.1 ≠ ·))
    (positionReport accountId position "LEDGER_QUANTITY_MISMATCH"
      ["positions.total_quantity", "ledger_entries.quantity_delta"] true true) ++
  reportIf (position.reportedCostBasis.any (sums.2 ≠ ·))
    (positionReport accountId position "LEDGER_COST_BASIS_MISMATCH"
      ["positions.reported_cost_basis", "ledger_entries.cost_basis_delta"] false false)

/-- The summary against the open sell orders of its security. -/
def sellOrderMismatchReports (sellOrders : Dict String (Option ℚ)) : List ConflictReport :=
  let ordered := (sellOrders.get? position.securityId).getD (some 0)
  reportIf (position.openSellOrderQuantity = none ∨ ordered = none ∨
      position.openSellOrderQuantity ≠ ordered)
    (positionReport accountId position "OPEN_SELL_ORDER_MISMATCH"
      ["positions.open_sell_order_quantity", "open_orders.remaining_quantity"] false false)

/-- Every report about one position summary. -/
def positionProblemReports (ctx : DecimalContext) (cutoffAt : Instant)
    (ledgerBySecurity : Dict String (ℚ × ℚ)) (sellOrders : Dict String (Option ℚ)) :
    List ConflictReport :=
  evidenceReports position.evidence cutoffAt (some accountId) (some position.securityId)
    ["positions.evidence"] true true true ++
  quantityReports accountId position .total true true ++
  PositionQuantity.encumbrances.flatMap (encumbranceReports accountId position) ++
  sellableReports accountId position ctx ++
  costBasisReports accountId position ++
  marketPriceReports accountId position ++
  ledgerMismatchReports accountId position ledgerBySecurity ++
  sellOrderMismatchReports accountId position sellOrders

end Position

end StockProfiler.PositionManagement
